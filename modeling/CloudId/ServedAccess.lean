import CloudId.CacheProofs
import CloudId.SafeMethods

/-! Access end to end. The key pages of the metadata tree show at an address exactly what was
granted there at the last rebuild of the cache, whatever has been asked over HTTP and whatever
the watchers have learned since. -/
namespace CloudId
open Effects

/-! ## Who has access at an address -/

/-- At the address is a container in the namespace of an active user who has keys. -/
structure OwnedContainer (state : AppState) (ip : IpAddr) (owner : String) (user : UserResource) :
    Prop where
  listed : ∃ info, state.containers.ipToContainer.lookup ip = some info ∧
    state.containers.namespaceOwners.lookup info.«namespace» = some owner
  active : ActiveUser state.identity owner user
  keyed : user.userKeys ≠ []

/-- The state admits the holder of a key to an account at an address. An owned container admits
its owner to the owner's accounts; at any other address the rules for the host decide. -/
inductive Admits (state : AppState) (ip : IpAddr) (sshUser key : String) : Prop where
  | container {owner : String} {user : UserResource} (owned : OwnedContainer state ip owner user)
      (account : sshUser ∈ ownerAccounts owner) (held : key ∈ user.userKeys)
  | host {hostname : String} (alone : ∀ owner user, ¬ OwnedContainer state ip owner user)
      (known : state.bmh.ipToHostname.lookup ip = some hostname)
      (granted : Grants state.identity hostname (state.bmh.hostLabels.lookup hostname) sshUser key)

/-- What the entries of a host's keys say. -/
structure ListsAccess (entries : List PublicKeyEntry) (granted : String → String → Prop) : Prop where
  accounts : (entries.map PublicKeyEntry.sshUser).Nodup
  keys : ∀ sshUser key, granted sshUser key ↔
    ∃ entry ∈ entries, entry.sshUser = sshUser ∧ key ∈ entry.keys

section Metadata

variable [Serialize CloudConfig]

theorem host_entries {ip : IpAddr} {hostname : String}
    {hostLabels : Option (HashMap String String)} {identity : IdentityState}
    {config : MetadataConfig} {metadata : HostMetadata}
    (resolved : resolveHost ip hostname hostLabels identity config = some metadata) :
    metadata.publicKeys ≠ [] ∧ ListsAccess metadata.publicKeys (Grants identity hostname hostLabels) := by
  have some_granted : GrantsAny identity hostname hostLabels := by
    by_contra nothing
    rw [(resolve_host_none_iff ip hostname hostLabels identity config).mpr nothing] at resolved
    cases resolved
  let keys := (collectedFor identity hostname hostLabels).keysBySshUser
  have listed_entry : ∀ {account}, account ∈ keys →
      (⟨account, sortDedup (keys.getD account [])⟩ : PublicKeyEntry) ∈ publicKeyEntries keys :=
    fun held => (mem_public_key_entries _ _).mpr ⟨held, rfl⟩
  rw [(resolve_host_some resolved).1]
  refine ⟨?_, (public_key_accounts_sorted _).nodup, fun sshUser key => ?_⟩
  · obtain ⟨rule, username, user, reaches, listed⟩ := some_granted
    obtain ⟨account, listed⟩ := List.exists_mem_of_ne_nil _ listed
    exact List.ne_nil_of_mem (listed_entry
      ((account_collected_iff ..).mpr ⟨rule, username, user, reaches, listed⟩))
  · rw [← key_collected_iff]
    constructor
    · intro held
      obtain ⟨rule, username, user, reaches, listed, -⟩ := (key_collected_iff ..).mp held
      refine ⟨_, listed_entry ((account_collected_iff ..).mpr
        ⟨rule, username, user, reaches, listed⟩), rfl, ?_⟩
      exact (SortedMap.mem_sort_destutter _ _).mpr held
    · rintro ⟨entry, listed, rfl, held⟩
      rw [((mem_public_key_entries _ _).mp listed).2] at held
      exact (SortedMap.mem_sort_destutter _ _).mp held

theorem container_entries {ip : IpAddr} {info : ContainerInfo} {owner : String}
    {identity : IdentityState} {config : MetadataConfig} {metadata : HostMetadata}
    (resolved : resolveContainer ip info owner identity config = some metadata) :
    ∃ user, ActiveUser identity owner user ∧ user.userKeys ≠ [] ∧ metadata.publicKeys ≠ [] ∧
      ListsAccess metadata.publicKeys fun sshUser key =>
        sshUser ∈ ownerAccounts owner ∧ key ∈ user.userKeys := by
  simp only [resolve_container_eq, Option.map_eq_some_iff, Option.filter_eq_some_iff,
    decide_eq_true_eq] at resolved
  obtain ⟨user, ⟨active, keyed⟩, rfl⟩ := resolved
  have entries : (ownerMetadata ip info config owner user).publicKeys = ownerKeyEntries owner user :=
    rfl
  refine ⟨user, (active_user_iff ..).mp active, keyed, ?_, ?_, fun sshUser key => ?_⟩
  · simp [entries, ownerKeyEntries, ownerAccounts]
  · rw [entries, ownerKeyEntries, List.map_map]
    exact (List.map_id _).symm ▸ owner_accounts_nodup owner
  · simp [entries, ownerKeyEntries, List.mem_map]

/-- An address has an owned container, or nothing is resolved for a container there. -/
theorem container_cases (state : AppState) (ip : IpAddr) :
    let container := (state.containers.ipToContainer.lookup ip).bind
      (containerMetadata state.identity state.containers state.config.metadata ip)
    (∃ metadata owner user, container = some metadata ∧ OwnedContainer state ip owner user ∧
        metadata.publicKeys ≠ [] ∧ ListsAccess metadata.publicKeys fun sshUser key =>
          sshUser ∈ ownerAccounts owner ∧ key ∈ user.userKeys) ∨
      (container = none ∧ ∀ owner user, ¬ OwnedContainer state ip owner user) := by
  cases listed : state.containers.ipToContainer.lookup ip with
  | none =>
    refine .inr ⟨rfl, fun owner user owned => ?_⟩
    obtain ⟨info, listed', -⟩ := owned.listed
    rw [listed] at listed'
    cases listed'
  | some info =>
    simp only [Option.bind_some, containerMetadata]
    cases owned : state.containers.namespaceOwners.lookup info.«namespace» with
    | none =>
      refine .inr ⟨rfl, fun owner user own => ?_⟩
      obtain ⟨info', listed', owned'⟩ := own.listed
      obtain rfl := Option.some.inj (listed.symm.trans listed')
      rw [owned] at owned'
      cases owned'
    | some owner =>
      cases resolved : resolveContainer ip info owner state.identity state.config.metadata with
      | none =>
        refine .inr ⟨resolved, fun other user own => ?_⟩
        obtain ⟨info', listed', owned'⟩ := own.listed
        obtain rfl := Option.some.inj (listed.symm.trans listed')
        obtain rfl := Option.some.inj (owned.symm.trans owned')
        have there := (resolve_container_isSome_iff ip info owner state.identity
          state.config.metadata).mpr ⟨user, own.active, own.keyed⟩
        rw [resolved] at there
        cases there
      | some metadata =>
        obtain ⟨user, active, keyed, nonempty, lists⟩ := container_entries resolved
        exact .inl ⟨metadata, owner, user, resolved, ⟨⟨info, listed, owned⟩, active, keyed⟩,
          nonempty, lists⟩

omit [Serialize CloudConfig] in
theorem OwnedContainer.unique {state : AppState} {ip : IpAddr} {owner other : String}
    {user user' : UserResource} (owned : OwnedContainer state ip owner user)
    (owned' : OwnedContainer state ip other user') : owner = other ∧ user = user' := by
  obtain ⟨info, listed, named⟩ := owned.listed
  obtain ⟨info', listed', named'⟩ := owned'.listed
  obtain rfl := Option.some.inj (listed.symm.trans listed')
  obtain rfl := Option.some.inj (named.symm.trans named')
  exact ⟨rfl, active_user_unique owned.active owned'.active⟩

/-- **What a rebuild leaves at an address is what the state admits there.** -/
theorem rebuilt_entries (state : AppState) (ip : IpAddr) :
    match state.rebuildCache.getMetadata ip with
    | some metadata => metadata.publicKeys ≠ [] ∧ ListsAccess metadata.publicKeys (Admits state ip)
    | none => ∀ sshUser key, ¬ Admits state ip sshUser key := by
  rw [rebuilt_cache_lookup]
  rcases container_cases state ip with
    ⟨metadata, owner, user, resolved, owned, nonempty, lists⟩ | ⟨nothing, alone⟩
  · rw [resolved, Option.some_or]
    refine ⟨nonempty, lists.accounts, fun sshUser key => ?_⟩
    rw [← lists.keys]
    constructor
    · intro admitted
      cases admitted with
      | container owned' account held =>
        obtain ⟨rfl, rfl⟩ := owned.unique owned'
        exact ⟨account, held⟩
      | host alone => exact absurd owned (alone owner user)
    · rintro ⟨account, held⟩
      exact .container owned account held
  · rw [nothing, Option.none_or]
    have by_rules : ∀ sshUser key, Admits state ip sshUser key ↔ ∃ hostname,
        state.bmh.ipToHostname.lookup ip = some hostname ∧
          Grants state.identity hostname (state.bmh.hostLabels.lookup hostname) sshUser key := by
      intro sshUser key
      constructor
      · rintro (⟨owned, -, -⟩ | ⟨-, known, granted⟩)
        · exact absurd owned (alone _ _)
        · exact ⟨_, known, granted⟩
      · rintro ⟨hostname, known, granted⟩
        exact .host alone known granted
    cases known : state.bmh.ipToHostname.lookup ip with
    | none =>
      intro sshUser key
      simp [by_rules, known]
    | some hostname =>
      simp only [known, Option.some.injEq, exists_eq_left'] at by_rules
      rw [Option.bind_some, bmhMetadata]
      cases resolved : resolveHost ip hostname (state.bmh.hostLabels.lookup hostname)
          state.identity state.config.metadata with
      | none =>
        rintro sshUser key admitted
        obtain ⟨rule, username, user, reaches, listed, -⟩ := (by_rules sshUser key).mp admitted
        exact (resolve_host_none_iff ..).mp resolved
          ⟨rule, username, user, reaches, List.ne_nil_of_mem listed⟩
      | some metadata =>
        obtain ⟨nonempty, lists⟩ := host_entries resolved
        exact ⟨nonempty, lists.accounts, fun sshUser key =>
          (by_rules sshUser key).trans (lists.keys sshUser key)⟩

end Metadata

/-! ## The key pages -/

section Serve

variable [Serialize CloudConfig] [Serialize Json] [Deserialize Json] [Serialize IgnitionConfig]
  [Serialize TemplateMeta] [Deserialize TemplateMeta] [Serialize AssignmentsFile]
  [Serialize OneshotState] {library : HttpLibrary}

theorem keys_reply {request : HttpRequest} (handled : library request = .handled .publicKeysIndex ())
    (service : Service) :
    (service.http library request).1 = pageReply (publicKeysIndex service.app request.ip) := by
  rw [http_of_handled handled]
  exact answer_page_replied publicKeysIndex request.ip service

theorem key_reply {request : HttpRequest} {index : ℕ}
    (handled : library request = .handled .publicKey index) (service : Service) :
    (service.http library request).1 = pageReply (publicKey service.app request.ip index) := by
  rw [http_of_handled handled]
  exact answer_page_replied (fun state ip => CloudId.publicKey state ip index) request.ip service

/-- What the key pages at an address show, under whatever path the library finds them: the index
lists the accounts of some entries, and each position has the keys of its entry. -/
def KeyPages (library : HttpLibrary) (service : Service) (ip : IpAddr)
    (entries : List PublicKeyEntry) : Prop :=
  ∀ request : HttpRequest, request.ip = ip →
    (library request = .handled .publicKeysIndex () → (service.http library request).1 =
      if entries = [] then .status .notFound else .text (indexLines 0 entries)) ∧
    ∀ index, library request = .handled .publicKey index → (service.http library request).1 =
      match entries[index]? with
      | some entry => .text entry.served
      | none => .status .notFound

theorem key_pages_of_rebuild {state : AppState} {service : Service} {ip : IpAddr}
    (cached : service.app.getMetadata ip = state.rebuildCache.getMetadata ip) :
    ∃ entries, ListsAccess entries (Admits state ip) ∧ KeyPages library service ip entries := by
  have left := rebuilt_entries state ip
  rw [← cached] at left
  cases found : service.app.getMetadata ip with
  | none =>
    rw [found] at left
    refine ⟨[], ⟨List.nodup_nil, fun sshUser key => iff_of_false (left sshUser key) (by simp)⟩, ?_⟩
    rintro request rfl
    refine ⟨fun handled => ?_, fun index handled => ?_⟩
    · rw [keys_reply handled, publicKeysIndex, lookupOr404, found]
      rfl
    · rw [key_reply handled, publicKey, lookupOr404, found]
      rfl
  | some metadata =>
    rw [found] at left
    obtain ⟨nonempty, lists⟩ := left
    refine ⟨metadata.publicKeys, lists, ?_⟩
    rintro request rfl
    refine ⟨fun handled => ?_, fun index handled => ?_⟩
    · rw [keys_reply handled, publicKeysIndex, lookupOr404, found, if_neg nonempty]
      rfl
    · rw [key_reply handled, publicKey, lookupOr404, found]
      dsimp only
      cases metadata.publicKeys[index]? <;> rfl

/-! ## Runs -/

/-- What happens to the shared state: a request over HTTP, a write of a watcher, or a rebuild
of the cache. -/
inductive AccessEvent where
  | http (request : HttpRequest)
  | learned (identity : IdentityState) (bmh : BmhState) (containers : ContainerState)
  | rebuild

/-- The service after an event. -/
def Service.progress (library : HttpLibrary) (service : Service) : AccessEvent → Service
  | .http request => service.afterHttp library request
  | .learned identity bmh containers =>
    { service with app := { service.app with identity, bmh, containers } }
  | .rebuild => { service with app := service.app.rebuildCache }

/-- Nothing but a rebuild changes the cache. -/
theorem progress_keeps_cache (library : HttpLibrary) (service : Service) {event : AccessEvent}
    (other : event ≠ .rebuild) :
    (service.progress library event).app.metadataCache = service.app.metadataCache := by
  cases event with
  | http request =>
    obtain ⟨_, _, _, _, after⟩ := after_http_same_shown library service request
    rw [Service.progress, after]
  | learned identity bmh containers => rfl
  | rebuild => exact absurd rfl other

theorem run_keeps_cache (library : HttpLibrary) (service : Service) {events : List AccessEvent}
    (no_rebuild : .rebuild ∉ events) :
    (events.foldl (Service.progress library) service).app.metadataCache =
      service.app.metadataCache := by
  induction events generalizing service with
  | nil => rfl
  | cons event events step =>
    rw [List.mem_cons, not_or] at no_rebuild
    rw [List.foldl_cons, step _ no_rebuild.2,
      progress_keeps_cache library service (Ne.symm no_rebuild.1)]

/-- What is cached at any time is what the last rebuild put there. -/
theorem run_cached_at (library : HttpLibrary) (start : Service) (before after : List AccessEvent)
    (no_rebuild : .rebuild ∉ after) (ip : IpAddr) :
    ((before ++ .rebuild :: after).foldl (Service.progress library) start).app.getMetadata ip =
      (before.foldl (Service.progress library) start).app.rebuildCache.getMetadata ip := by
  rw [List.foldl_append, List.foldl_cons, AppState.getMetadata, run_keeps_cache _ _ no_rebuild]
  rfl

/-- **Access end to end.** In every run, the key pages at an address list exactly the accounts
with keys that the state admitted there at the last rebuild of the cache, each account once. An
account that is open only to users without keys is listed, too, with no key. -/
theorem served_keys_are_admitted (library : HttpLibrary) (start : Service)
    (before after : List AccessEvent) (no_rebuild : .rebuild ∉ after) (ip : IpAddr) : ∃ entries,
      ListsAccess entries (Admits (before.foldl (Service.progress library) start).app ip) ∧
      KeyPages library ((before ++ .rebuild :: after).foldl (Service.progress library) start) ip
        entries :=
  key_pages_of_rebuild (run_cached_at library start before after no_rebuild ip)

end Serve

section Sample

attribute [local instance] cloudConfigText Json.prettyText emptyObjectReader ignitionText
  templateMetaText templateMetaParser assignmentsText oneshotText

/-- The host `web1` asks for the index of its keys. -/
def keysRequest : HttpRequest where
  method := .get
  uri := "/latest/meta-data/public-keys"
  ip := .v4 10 0 0 5

def keyCalls : HttpLibrary := .knowing ([keysRequest, firstKeyRequest].zip
  [.handled .publicKeysIndex (), .handled .publicKey 0])

/-- Everything is forgotten, and the cache is not rebuilt yet. -/
theorem served_keys_are_admitted_forgotten : ∃ entries,
    ListsAccess entries (Admits singleHost.app (.v4 10 0 0 5)) ∧
    KeyPages keyCalls ((.rebuild :: [.learned {} {} {}]).foldl (Service.progress keyCalls) singleHost)
      (.v4 10 0 0 5) entries :=
  served_keys_are_admitted keyCalls singleHost [] [.learned {} {} {}] (by simp) (.v4 10 0 0 5)

end Sample

end CloudId
