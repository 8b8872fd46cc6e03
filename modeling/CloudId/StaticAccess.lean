import CloudId.AmoOverlay
import CloudId.RecordsRun
import CloudId.ServedAccess

/-! Access without AMO. Until AMO is reached the identity is the static one: a host admits the
users that the configuration names for it, with the keys in their key files. -/
namespace CloudId
open Effects FileSystem

/-! ## What the configuration grants -/

/-- A key file holds a key: a line of it, without the blanks around it, unless it is empty or a
comment. -/
def KeyLine (contents key : String) : Prop :=
  key ≠ "" ∧ Text.startsWith key "#" = false ∧ ∃ line ∈ Text.lines contents, Text.trim line = key

/-- A static user holds a key, in a key file that can be read. The last user of a name counts. -/
def HoldsKey (readFile : String → Option String) (config : Config) (name key : String) : Prop :=
  ∃ user, (config.staticUsers.reverse.find? fun user => user.name = name) = some user ∧
    ∃ path ∈ user.sshKeyFiles, ∃ contents, readFile path = some contents ∧ KeyLine contents key

/-- The configuration grants an account of a host to the holder of a key. -/
def StaticGrants (readFile : String → Option String) (config : Config)
    (hostname sshUser key : String) : Prop :=
  ∃ rule ∈ config.staticHostAccess, (hostname ∈ rule.hosts ∨ "*" ∈ rule.hosts) ∧
    sshUser ∈ rule.sshUsers ∧ ∃ name ∈ rule.users, HoldsKey readFile config name key

theorem key_line_iff (index : Nat) (contents key : String) :
    (∃ held ∈ keyFileKeys index contents, held.key = key) ↔ KeyLine contents key := by
  simp only [keyFileKeys, List.mem_filterMap]
  constructor
  · rintro ⟨held, ⟨⟨line, position⟩, listed, kept⟩, rfl⟩
    split at kept
    · cases kept
    · rename_i counts
      cases kept
      rw [not_or, Bool.not_eq_true] at counts
      exact ⟨counts.1, counts.2, line, List.fst_mem_of_mem_zipIdx listed, rfl⟩
  · rintro ⟨nonempty, no_comment, line, listed, rfl⟩
    obtain ⟨position, found⟩ := List.getElem?_of_mem listed
    refine ⟨{ name := "file-" ++ toString index ++ "-" ++ toString position, key := Text.trim line },
      ⟨(line, position), List.mk_mem_zipIdx_iff_getElem?.mpr found, ?_⟩, rfl⟩
    simp [nonempty, no_comment]

theorem static_user_key_iff (readFile : String → Option String) (user : StaticUserConfig)
    (key : String) : key ∈ (staticUser readFile user).userKeys ↔
      ∃ path ∈ user.sshKeyFiles, ∃ contents, readFile path = some contents ∧
        KeyLine contents key := by
  have keys : (staticUser readFile user).userKeys =
      (staticKeys readFile user.sshKeyFiles).map SshPublicKey.key := rfl
  simp only [keys, staticKeys, List.mem_map, List.mem_flatMap]
  constructor
  · rintro ⟨held, ⟨⟨path, index⟩, listed, kept⟩, rfl⟩
    cases read : readFile path with
    | none =>
      rw [read] at kept
      cases kept
    | some contents =>
      rw [read] at kept
      exact ⟨path, List.fst_mem_of_mem_zipIdx listed, contents, read,
        (key_line_iff index contents _).mp ⟨held, kept, rfl⟩⟩
  · rintro ⟨path, listed, contents, read, line⟩
    obtain ⟨index, found⟩ := List.getElem?_of_mem listed
    obtain ⟨held, kept, rfl⟩ := (key_line_iff index contents key).mpr line
    refine ⟨held, ⟨(path, index), List.mk_mem_zipIdx_iff_getElem?.mpr found, ?_⟩, rfl⟩
    rw [read]
    exact kept

theorem static_user_iff (readFile : String → Option String) (config : Config) (name : String)
    (record : UserResource) : ActiveUser (loadStaticIdentity readFile config) name record ↔
      ∃ user, (config.staticUsers.reverse.find? fun user => user.name = name) = some user ∧
        staticUser readFile user = record := by
  have held : (loadStaticIdentity readFile config).users.lookup name =
      (config.staticUsers.reverse.find? fun user => user.name = name).map (staticUser readFile) :=
    static_identity_lookup readFile config .users name
  rw [ActiveUser, held, Option.map_eq_some_iff]
  constructor
  · exact fun found => found.1
  · rintro ⟨user, found, rfl⟩
    refine ⟨⟨user, found, rfl⟩, ?_⟩
    rintro status ⟨⟩
    rfl

theorem static_rule_iff (readFile : String → Option String) (config : Config)
    (record : HostAccessResource) :
    (∃ name, (loadStaticIdentity readFile config).hostAccess.lookup name = some record) ↔
      ∃ index rule, config.staticHostAccess[index]? = some rule ∧ staticRule index rule = record := by
  have held : ∀ name, (loadStaticIdentity readFile config).hostAccess.lookup name =
      staticRecord readFile config .hostaccess name :=
    static_identity_lookup readFile config .hostaccess
  simp only [held]
  constructor
  · rintro ⟨name, found⟩
    obtain ⟨⟨rule, index⟩, listed, rfl⟩ := Option.map_eq_some_iff.mp found
    have listed := List.mem_reverse.mp (List.mem_of_find?_eq_some listed)
    exact ⟨index, rule, List.mk_mem_zipIdx_iff_getElem?.mp listed, rfl⟩
  · rintro ⟨index, rule, found, rfl⟩
    exact ⟨staticRuleName index, by rw [static_rule_record, found, Option.map_some]⟩

/-- **The static identity grants what the configuration does,** whatever the labels of a host. -/
theorem static_grants_iff (readFile : String → Option String) (config : Config)
    (hostname : String) (hostLabels : Option (HashMap String String)) (sshUser key : String) :
    Grants (loadStaticIdentity readFile config) hostname hostLabels sshUser key ↔
      StaticGrants readFile config hostname sshUser key := by
  constructor
  · rintro ⟨record, name, user, ⟨stored, applies, named, active⟩, account, held⟩
    obtain ⟨index, rule, found, rfl⟩ := (static_rule_iff readFile config record).mp stored
    obtain ⟨own, counted, rfl⟩ := (static_user_iff readFile config name user).mp active
    refine ⟨rule, List.mem_of_getElem? found, ?_, account, name, ?_, own, counted,
      (static_user_key_iff readFile own key).mp held⟩
    · rcases applies with applies | ⟨_, listed, -⟩ | ⟨_, -, _, listed, -⟩
      · exact applies
      · cases listed
      · cases listed
    · rcases named with ⟨subject, listed, -, rfl⟩ | ⟨subject, listed, group, -⟩
      · obtain ⟨username, written, rfl⟩ := List.mem_map.mp listed
        exact written
      · obtain ⟨username, -, rfl⟩ := List.mem_map.mp listed
        cases group
  · rintro ⟨rule, listed, applies, account, name, named, own, counted, held⟩
    obtain ⟨index, found⟩ := List.getElem?_of_mem listed
    refine ⟨staticRule index rule, name, staticUser readFile own, ⟨?_, .inl applies, ?_, ?_⟩,
      account, (static_user_key_iff readFile own key).mpr held⟩
    · exact (static_rule_iff readFile config _).mpr ⟨index, rule, found, rfl⟩
    · exact .inl ⟨_, List.mem_map.mpr ⟨name, named, rfl⟩, rfl, rfl⟩
    · exact (static_user_iff readFile config name _).mpr ⟨own, counted, rfl⟩

/-! ## Runs without AMO -/

theorem new_identity [Deserialize AssignmentsFile] [Deserialize OneshotState]
    {readFile : String → Option String} {config : Config} {disk next : Disk} {app : AppState}
    (started : AppState.new readFile config disk = .ok app next) :
    app.identity = loadStaticIdentity readFile config := by
  obtain ⟨_, _, -, started⟩ := bind_eq_ok.mp started
  obtain ⟨assignments, _, -, started⟩ := bind_eq_ok.mp started
  obtain ⟨oneshot, _, -, started⟩ := bind_eq_ok.mp started
  cases started
  rfl

section Runs

variable [Serialize CloudConfig] [Serialize Json] [Deserialize Json] [Serialize IgnitionConfig]
  [Serialize TemplateMeta] [Deserialize TemplateMeta] [Serialize AssignmentsFile]
  [Deserialize AssignmentsFile] [Serialize OneshotState] [Deserialize OneshotState]
  {library : HttpLibrary}

/-- AMO is not reached: the watchers learn of hosts and containers, but not of users. -/
def AccessEvent.Offline (identity : IdentityState) : AccessEvent → Prop
  | .learned own _ _ => own = identity
  | _ => True

omit [Deserialize AssignmentsFile] [Deserialize OneshotState] in
theorem offline_identity {identity : IdentityState} {service : Service}
    (own : service.app.identity = identity) {events : List AccessEvent}
    (offline : ∀ event ∈ events, event.Offline identity) :
    (events.foldl (Service.progress library) service).app.identity = identity := by
  induction events generalizing service with
  | nil => exact own
  | cons event events step =>
    refine step ?_ fun later listed => offline later (List.mem_cons_of_mem _ listed)
    cases event with
    | http request =>
      obtain ⟨_, _, _, _, after⟩ := after_http_same_shown library service request
      rw [Service.progress, after]
      exact own
    | learned learned bmh containers => exact offline _ List.mem_cons_self
    | rebuild => exact own

/-- **Access without AMO.** After a start, and until AMO is reached, the key pages at an address
list exactly the accounts with keys that the configuration grants there, if the last rebuild knew it
as a host's address and no container's; whatever has happened meanwhile. -/
theorem offline_access (library : HttpLibrary) {readFile : String → Option String} {config : Config}
    {disk : Disk}
    {start : Service} (started : AppState.new readFile config disk = .ok start.app start.disk)
    {before after : List AccessEvent}
    (offline : ∀ event ∈ before, event.Offline (loadStaticIdentity readFile config))
    (no_rebuild : .rebuild ∉ after) {ip : IpAddr} {hostname : String}
    (known : (before.foldl (Service.progress library) start).app.bmh.ipToHostname.lookup ip =
      some hostname)
    (no_container :
      (before.foldl (Service.progress library) start).app.containers.ipToContainer.lookup ip = none) :
    ∃ entries, ListsAccess entries (StaticGrants readFile config hostname) ∧
      KeyPages library ((before ++ .rebuild :: after).foldl (Service.progress library) start) ip
        entries := by
  obtain ⟨entries, lists, shown⟩ := @key_pages_of_rebuild _ _ _ _ _ _ _ _ library _ _ _
    (run_cached_at library start before after no_rebuild ip)
  have identity := @offline_identity _ _ _ _ _ _ _ _ library _ _ (new_identity started) _ offline
  refine ⟨entries, ⟨lists.accounts, fun sshUser key => ?_⟩, shown⟩
  rw [← lists.keys, ← static_grants_iff readFile config hostname _, ← identity]
  constructor
  · intro granted
    refine .host (fun owner user owned => ?_) known granted
    obtain ⟨info, listed, -⟩ := owned.listed
    rw [no_container] at listed
    cases listed
  · rintro (⟨owned, -, -⟩ | ⟨-, known', granted⟩)
    · obtain ⟨info, listed, -⟩ := owned.listed
      rw [no_container] at listed
      cases listed
    · rw [known] at known'
      cases known'
      exact granted

end Runs

section Sample

attribute [local instance] cloudConfigText Json.prettyText emptyObjectReader ignitionText
  templateMetaText templateMetaParser assignmentsText assignmentsReader oneshotText oneshotReader

/-- Alice may log in to every host as root. -/
def keyedConfig : Config := { freshConfig with
  staticUsers := [{ name := "alice", sshKeyFiles := ["/keys/alice.pub", "/keys/missing.pub"] }]
  staticHostAccess := [{ sshUsers := ["root"], hosts := ["*"], users := ["alice"] }] }

/-- Her key file. -/
def keyFile (path : String) : Option String :=
  if path = "/keys/alice.pub" then some "# laptop\nssh-ed25519 AAAA\n" else none

/-- A host is learned after the start. -/
theorem offline_access_alice : ∃ start : Service,
    AppState.new keyFile keyedConfig freshVolume = .ok start.app start.disk ∧
    ∃ entries, ListsAccess entries (StaticGrants keyFile keyedConfig "web1") ∧
      KeyPages keyCalls ([.learned (loadStaticIdentity keyFile keyedConfig) sharedAddress.bmh {},
        .rebuild].foldl (Service.progress keyCalls) start) (.v4 10 0 0 5) entries := by
  have empty : EmptyVolume freshVolume keyedConfig.templates.dataDir ["data"] := fresh_volume_empty
  obtain ⟨start, started, -⟩ := new_keeps_nothing keyFile empty
  have offline : ∀ event ∈ [AccessEvent.learned (loadStaticIdentity keyFile keyedConfig)
      sharedAddress.bmh {}], event.Offline (loadStaticIdentity keyFile keyedConfig) := by
    intro event listed
    rw [List.mem_singleton.mp listed]
    rfl
  exact ⟨start, started, offline_access keyCalls started offline (by simp) (by rfl) (by rfl)⟩

end Sample

end CloudId
