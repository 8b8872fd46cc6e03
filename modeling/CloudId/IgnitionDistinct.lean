import CloudId.ContainerProofs
import CloudId.IgnitionResult

/-! Which hosts get a config without duplicates. The system users have sorted keys without
duplicates, and merging keys adds only new ones; but an identity user that is no system user,
and every user of a container, has the keys of its record as they are. -/
namespace CloudId
open Effects Json

/-- The user entries of a config. -/
def usersIn (config : Json) : List Json :=
  match (config.get? "passwd").bind (get? · "users") with
  | some (.array users) => users
  | _ => []

/-- No two users of a config have one name, and no user has one key twice. -/
structure DuplicateFree (config : Json) : Prop where
  names : ((usersIn config).filterMap (textMember · "name")).Nodup
  keys : ∀ entry ∈ usersIn config, (keysOf entry).Nodup

/-- The configs built from this metadata have no duplicates that their base has not. -/
structure BuildsDuplicateFree (metadata : HostMetadata) : Prop where
  generated : DuplicateFree (generatedConfig metadata).serialize
  merged : ∀ base config, DuplicateFree base → mergedConfig base metadata = .ok config →
    DuplicateFree config

/-! ## Generated configs -/

theorem lookup_optional_field (own key : String) (value : Option Json) :
    (optionalField own value).lookup key = if key = own then value else none := by
  cases value with
  | none => simp [optionalField]
  | some held =>
    by_cases same : key = own
    · simp [optionalField, same]
    · simp [optionalField, List.lookup_cons, beq_false_of_ne same, same]

theorem fields_name (user : IgnitionUser) :
    textMember (.object user.fields) "name" = some user.name := rfl

theorem keys_of_fields (user : IgnitionUser) :
    keysOf (.object user.fields) = (user.sshAuthorizedKeys.getD []).map string := by
  have held : user.fields.lookup "sshAuthorizedKeys" = user.sshAuthorizedKeys.map strings := by
    rw [IgnitionUser.fields]
    simp only [List.lookup_append, lookup_optional_field, List.lookup_cons, List.lookup_nil]
    cases user.sshAuthorizedKeys with
    | none => rfl
    | some keys => rfl
  rw [keysOf]
  change (match user.fields.lookup "sshAuthorizedKeys" with
    | some (.array keys) => keys
    | _ => []) = _
  rw [held]
  cases user.sshAuthorizedKeys with
  | none => rfl
  | some keys => rfl

theorem users_in_generated (metadata : HostMetadata) :
    usersIn (generatedConfig metadata).serialize =
      (buildIgnitionUsers metadata).map fun user => .object user.fields := by
  have passwd : (generatedConfig metadata).serialize.get? "passwd" = some (.object
      (listField "users" ((buildIgnitionUsers metadata).map fun user => .object user.fields))) := rfl
  rw [usersIn, passwd, listField]
  cases buildIgnitionUsers metadata with
  | nil => rfl
  | cons user rest => rfl

theorem nodup_strings {keys : List String} : (keys.map string).Nodup ↔ keys.Nodup :=
  List.nodup_map_iff fun _ _ same => Json.string.inj same

theorem generated_duplicate_free_iff {metadata : HostMetadata}
    (distinct : (metadata.publicKeys.map PublicKeyEntry.sshUser).Nodup) :
    DuplicateFree (generatedConfig metadata).serialize ↔
      ∀ user ∈ buildIgnitionUsers metadata, (user.sshAuthorizedKeys.getD []).Nodup := by
  constructor
  · intro free user listed
    have own := free.keys (.object user.fields) (by
      rw [users_in_generated]
      exact List.mem_map.mpr ⟨user, listed, rfl⟩)
    rwa [keys_of_fields, nodup_strings] at own
  · intro each
    refine ⟨?_, fun entry listed => ?_⟩
    · have names : ((buildIgnitionUsers metadata).map fun user => Json.object user.fields).filterMap
          (textMember · "name") = (buildIgnitionUsers metadata).map IgnitionUser.name := by
        rw [List.filterMap_map, ← List.filterMap_eq_map]
        exact List.filterMap_congr fun user _ => fields_name user
      rw [users_in_generated, names]
      exact (build_names metadata distinct).1
    · rw [users_in_generated] at listed
      obtain ⟨user, there, rfl⟩ := List.mem_map.mp listed
      rw [keys_of_fields, nodup_strings]
      exact each user there

/-! ## Merged configs -/

/-- The users that a merge leaves, where the users of the base are a list. -/
theorem users_in_passwd {config : Json} {passwd : List (String × Json)}
    (held : config.get? "passwd" = some (.object passwd)) :
    usersIn config = arrayAt passwd "users" := by
  have inner : (config.get? "passwd").bind (get? · "users") = passwd.lookup "users" := by
    rw [held, Option.bind_some]
    rfl
  cases entry : passwd.lookup "users" with
  | none => simp only [usersIn, arrayAt, inner, entry]
  | some value => cases value <;> simp only [usersIn, arrayAt, inner, entry]

theorem users_in_merged {metadata : HostMetadata}
    (distinct : (metadata.publicKeys.map PublicKeyEntry.sshUser).Nodup) {base config : Json}
    (merged : mergedConfig base metadata = .ok config) :
    usersIn config = mergedUsers (buildIgnitionUsers metadata) (usersIn base) ∨
      usersIn config = [] := by
  obtain ⟨members, passwd, storage, users, files, held, merged⟩ := merged_config_inv merged
  have base_users : usersIn base = arrayAt passwd "users" := by
    have passwd_is := merged.passwd_is
    rcases held with ⟨rfl, rfl⟩ | rfl
    · cases passwd_is
      rfl
    · cases entry : members.lookup "passwd" with
      | none =>
        rw [entry] at passwd_is
        cases passwd_is
        have nothing : (Json.object members).get? "passwd" = none := entry
        rw [usersIn, nothing, Option.bind_none]
        rfl
      | some value =>
        rw [entry, Option.getD_some] at passwd_is
        exact users_in_passwd (entry.trans (congrArg some passwd_is))
  have config_users : usersIn config = arrayAt (insertMember "users" users passwd) "users" :=
    users_in_passwd merged.get_passwd
  rw [arrayAt, lookup_insert_member, if_pos rfl] at config_users
  have users_are := merged.users_are
  cases own : (passwd.lookup "users").getD (.array []) with
  | array items =>
    rw [own, users_merged distinct] at users_are
    cases users_are
    have items_are : arrayAt passwd "users" = items := by
      rw [arrayAt]
      cases entry : passwd.lookup "users" with
      | none =>
        rw [entry] at own
        cases own
        rfl
      | some value =>
        rw [entry, Option.getD_some] at own
        rw [own]
    rw [config_users, base_users, items_are]
    exact .inl rfl
  | _ =>
    rw [own] at users_are
    cases users_are
    exact .inr config_users

theorem merged_names_distinct {users : List IgnitionUser}
    (distinct : (users.map IgnitionUser.name).Nodup) {items : List Json}
    (names : (items.filterMap (textMember · "name")).Nodup) :
    ((mergedUsers users items).filterMap (textMember · "name")).Nodup := by
  rw [merged_users_names_eq, List.nodup_append]
  refine ⟨names, distinct.sublist (List.filter_sublist.map _), fun name there other listed => ?_⟩
  obtain ⟨user, new, rfl⟩ := List.mem_map.mp listed
  rintro rfl
  exact of_decide_eq_true (List.mem_filter.mp new).2 there

/-- Merging distinct keys into distinct keys leaves distinct keys. -/
theorem keys_of_keyed_nodup {existing : Json} {user : IgnitionUser}
    (held : (keysOf existing).Nodup) (own : (user.sshAuthorizedKeys.getD []).Nodup) :
    (keysOf (keyed existing user)).Nodup := by
  rw [keyed]
  split
  · rename_i entry merged
    cases keys : user.sshAuthorizedKeys with
    | none =>
      rw [mergeSshKeys, keys] at merged
      cases merged
      exact held
    | some newKeys =>
      rw [keys, Option.getD_some] at own
      rw [merge_ssh_keys_some keys] at merged
      obtain ⟨members, value, rfl, added, rfl⟩ := change_entry_eq_ok merged
      have value_held : (Json.object (insertMember "sshAuthorizedKeys" value members)).get?
          "sshAuthorizedKeys" = some value :=
        (lookup_insert_member _ _ _ _).trans (if_pos rfl)
      rw [keysOf, value_held]
      cases before : (members.lookup "sshAuthorizedKeys").getD (.array []) with
      | array keys =>
        rw [before] at added
        cases added
        have keys_are : keysOf (.object members) = keys := by
          change (match members.lookup "sshAuthorizedKeys" with
            | some (.array keys) => keys
            | _ => []) = keys
          cases entry : members.lookup "sshAuthorizedKeys" with
          | none =>
            rw [entry] at before
            cases before
            rfl
          | some value =>
            rw [entry, Option.getD_some] at before
            rw [before]
        rw [keys_are] at held
        refine List.nodup_append.mpr ⟨held, nodup_strings.mpr (own.filter _), ?_⟩
        intro key there other new
        obtain ⟨text, unknown, rfl⟩ := List.mem_map.mp new
        rintro rfl
        exact of_decide_eq_true (List.mem_filter.mp unknown).2
          (List.mem_filterMap.mpr ⟨_, there, rfl⟩)
      | _ =>
        rw [before] at added
        cases added
        exact List.nodup_nil
  · exact held

theorem merged_duplicate_free {metadata : HostMetadata}
    (distinct : (metadata.publicKeys.map PublicKeyEntry.sshUser).Nodup)
    (each : ∀ user ∈ buildIgnitionUsers metadata, (user.sshAuthorizedKeys.getD []).Nodup)
    {base config : Json} (free : DuplicateFree base)
    (merged : mergedConfig base metadata = .ok config) : DuplicateFree config := by
  rcases users_in_merged distinct merged with users | none
  · refine ⟨?_, ?_⟩
    · rw [users]
      exact merged_names_distinct (build_names metadata distinct).1 free.names
    · rw [users]
      intro entry listed
      rcases List.mem_append.mp listed with listed | listed
      · obtain ⟨existing, there, rfl⟩ := List.mem_map.mp listed
        rw [mergeEntry]
        split
        · rename_i user first
          exact keys_of_keyed_nodup (free.keys existing there)
            (each user (List.mem_of_find?_eq_some first))
        · exact free.keys existing there
      · obtain ⟨user, new, rfl⟩ := List.mem_map.mp listed
        have own := (List.mem_filter.mp new).1
        obtain ⟨keys, held⟩ := Option.isSome_iff_exists.mp (build_users_keys metadata user own)
        have distinct_keys := each user own
        rw [held, Option.getD_some] at distinct_keys
        rw [keysOf, to_value_keys held]
        exact nodup_strings.mpr distinct_keys
  · exact ⟨by simp [none], by simp [none]⟩

/-- **Configs have no duplicates exactly when no user entry has a key twice.** -/
theorem builds_duplicate_free_iff {metadata : HostMetadata}
    (distinct : (metadata.publicKeys.map PublicKeyEntry.sshUser).Nodup) :
    BuildsDuplicateFree metadata ↔
      ∀ user ∈ buildIgnitionUsers metadata, (user.sshAuthorizedKeys.getD []).Nodup := by
  constructor
  · exact fun builds => (generated_duplicate_free_iff distinct).mp builds.generated
  · exact fun each => ⟨(generated_duplicate_free_iff distinct).mpr each,
      fun base config free merged => merged_duplicate_free distinct each free merged⟩

/-! ## Hosts and containers -/

theorem add_keys_nodup (keys added : List String) : (addKeys keys added).Nodup ↔ keys.Nodup := by
  induction added generalizing keys with
  | nil => exact Iff.rfl
  | cons key rest step =>
    rw [addKeys, List.foldl_cons, ← addKeys, step]
    split
    · exact Iff.rfl
    · rename_i new
      rw [← List.concat_eq_append, List.nodup_concat]
      exact and_iff_right new

/-- Where the keys of the entries come from. -/
theorem distinct_keys_iff {metadata : HostMetadata}
    (distinct : (metadata.publicKeys.map PublicKeyEntry.sshUser).Nodup)
    (distinct' : (metadata.cloudConfig.users.map CloudConfigUser.name).Nodup) :
    (∀ user ∈ buildIgnitionUsers metadata, (user.sshAuthorizedKeys.getD []).Nodup) ↔
      (∀ own ∈ metadata.publicKeys, own.keys.Nodup) ∧
        ∀ user ∈ metadata.cloudConfig.users,
          user.name ∉ metadata.publicKeys.map PublicKeyEntry.sshUser →
            user.sshAuthorizedKeys.Nodup := by
  have system : ∀ own : PublicKeyEntry,
      ((withIdentity metadata.cloudConfig.users (systemUser own)).sshAuthorizedKeys.getD []).Nodup ↔
        own.keys.Nodup := by
    intro own
    rw [withIdentity]
    split
    · exact add_keys_nodup _ _
    · exact Iff.rfl
  rw [build_users_eq distinct distinct', usersOf]
  constructor
  · intro each
    refine ⟨fun own listed => (system own).mp (each _ ?_), fun user listed new => ?_⟩
    · exact List.mem_append_left _
        (List.mem_map.mpr ⟨_, List.mem_map.mpr ⟨own, listed, rfl⟩, rfl⟩)
    · exact each (identityUser user) (List.mem_append_right _ (List.mem_map.mpr
        ⟨user, List.mem_filter.mpr ⟨listed, decide_eq_true new⟩, rfl⟩))
  · rintro ⟨accounts, users⟩ user listed
    rcases List.mem_append.mp listed with listed | listed
    · obtain ⟨_, there, rfl⟩ := List.mem_map.mp listed
      obtain ⟨own, held, rfl⟩ := List.mem_map.mp there
      exact (system own).mpr (accounts own held)
    · obtain ⟨own, there, rfl⟩ := List.mem_map.mp listed
      obtain ⟨held, new⟩ := List.mem_filter.mp there
      exact users own held (of_decide_eq_true new)

section Resolved

variable [Serialize CloudConfig] {identity : IdentityState} {config : MetadataConfig}
  {metadata : HostMetadata}

/-- The rules that apply to a host open an account of it to some active user. -/
def GrantsAccount (identity : IdentityState) (hostname : String)
    (hostLabels : Option (HashMap String String)) (account : String) : Prop :=
  ∃ rule username user, Reaches identity hostname hostLabels rule username user ∧
    account ∈ rule.spec.sshUsers

theorem host_duplicate_free_iff {ip : IpAddr} {hostname : String}
    {hostLabels : Option (HashMap String String)}
    (resolved : resolveHost ip hostname hostLabels identity config = some metadata) :
    BuildsDuplicateFree metadata ↔
      ∀ rule name user, Reaches identity hostname hostLabels rule name user →
        ¬ GrantsAccount identity hostname hostLabels name → user.userKeys.Nodup := by
  rw [resolve_host_eq] at resolved
  split at resolved
  · cases resolved
  cases resolved
  have accounts := (public_key_accounts_sorted
    (collectedFor identity hostname hostLabels).keysBySshUser)
  have names := config_user_names_sorted (collected_describes identity
    (findMatchingRules hostname hostLabels identity))
  have account_iff : ∀ name, name ∈ (publicKeyEntries
      (collectedFor identity hostname hostLabels).keysBySshUser).map PublicKeyEntry.sshUser ↔
        GrantsAccount identity hostname hostLabels name := by
    intro name
    rw [GrantsAccount, ← account_collected_iff]
    constructor
    · intro listed
      obtain ⟨entry, there, rfl⟩ := List.mem_map.mp listed
      exact ((mem_public_key_entries _ entry).mp there).1
    · intro collected
      let keys := (collectedFor identity hostname hostLabels).keysBySshUser.getD name []
      exact List.mem_map.mpr ⟨⟨name, sortDedup keys⟩,
        (mem_public_key_entries _ _).mpr ⟨collected, rfl⟩, rfl⟩
  rw [builds_duplicate_free_iff accounts.nodup, distinct_keys_iff accounts.nodup names.nodup]
  constructor
  · rintro ⟨-, users⟩ rule name user reaches no_account
    obtain ⟨entry, listed, rfl⟩ := reached_config_user reaches
    obtain ⟨first, own, reached, same⟩ := config_user_reached identity hostname hostLabels listed
    have keys := users entry listed fun granted => no_account ((account_iff _).mp granted)
    rw [active_user_unique reaches.active reached.active]
    rw [same] at keys
    exact keys
  · intro users
    refine ⟨fun own listed => (public_keys_sorted _ listed).nodup, fun entry listed new => ?_⟩
    obtain ⟨rule, user, reaches, same⟩ := config_user_reached identity hostname hostLabels listed
    rw [same]
    exact users rule entry.name user reaches fun granted => new ((account_iff _).mpr granted)

theorem container_duplicate_free_iff {ip : IpAddr} {info : ContainerInfo} {owner : String}
    (resolved : resolveContainer ip info owner identity config = some metadata) :
    BuildsDuplicateFree metadata ↔
      ∀ user, identity.users.lookup owner = some user → user.userKeys.Nodup := by
  rw [resolve_container_eq, Option.map_eq_some_iff] at resolved
  obtain ⟨user, kept, rfl⟩ := resolved
  obtain ⟨active, -⟩ := Option.filter_eq_some_iff.mp kept
  have stored := ((active_user_iff identity owner user).mp active).1
  have accounts : ((ownerKeyEntries owner user).map PublicKeyEntry.sshUser).Nodup := by
    rw [ownerKeyEntries, List.map_map]
    exact (List.map_id _).symm ▸ owner_accounts_nodup owner
  have names : ((ownerUsers owner user).map CloudConfigUser.name).Nodup := by
    by_cases root : owner = "root"
    · simp [ownerUsers, root, rootEntry]
    · simp [ownerUsers, root, ownerEntry, rootEntry]
  have root_listed : (⟨"root", user.userKeys⟩ : PublicKeyEntry) ∈ ownerKeyEntries owner user :=
    List.mem_map.mpr ⟨"root", List.mem_append_right _ List.mem_cons_self, rfl⟩
  rw [builds_duplicate_free_iff accounts, distinct_keys_iff accounts names]
  constructor
  · rintro ⟨keys, -⟩ own held
    rw [stored] at held
    cases held
    exact keys _ root_listed
  · intro keys
    have distinct := keys user stored
    refine ⟨fun own listed => ?_, fun entry listed _ => ?_⟩
    · obtain ⟨account, -, rfl⟩ := List.mem_map.mp listed
      exact distinct
    · rcases (mem_owner_users entry).mp listed with ⟨-, rfl⟩ | rfl
      · exact distinct
      · exact distinct

/-- **What is resolved builds configs without duplicates exactly when records that are used as
they are have no key twice**: on a host those of the users who are no account of it, and the
record of the owner of a container. -/
theorem resolved_duplicate_free_iff (identity : IdentityState)
    (config : MetadataConfig) :
    (∀ ip hostname hostLabels metadata,
      resolveHost ip hostname hostLabels identity config = some metadata →
        (BuildsDuplicateFree metadata ↔
          ∀ rule name user, Reaches identity hostname hostLabels rule name user →
            ¬ GrantsAccount identity hostname hostLabels name → user.userKeys.Nodup)) ∧
    ∀ ip info owner metadata, resolveContainer ip info owner identity config = some metadata →
      (BuildsDuplicateFree metadata ↔
        ∀ user, identity.users.lookup owner = some user → user.userKeys.Nodup) :=
  ⟨fun _ _ _ _ resolved => host_duplicate_free_iff resolved,
    fun _ _ _ _ resolved => container_duplicate_free_iff resolved⟩

end Resolved

/-- A user whose record has one key from two files. -/
def twoFiles : UserResource where
  kind := "User"
  metadata := { name := "alice" }
  spec := {
    displayName := "alice"
    uid := 1000
    sshPublicKeys := [{ name := "laptop", key := "ssh-ed25519 AAAA" },
      { name := "laptop.old", key := "ssh-ed25519 AAAA" }] }

/-- A rule opens root on every host to that user. -/
def twoFilesState : IdentityState where
  users := (∅ : HashMap String UserResource).insert "alice" twoFiles
  hostAccess := (∅ : HashMap String HostAccessResource).insert "operators"
    (everyHostRule "operators" "alice" "root" true)

section Sample

attribute [local instance] cloudConfigText

/-- A container of the namespace `lab`. -/
def buildPod : ContainerInfo where
  «namespace» := "lab"
  podName := "build"
  containerName := "main"
  hostname := "main.build"

/-- That user logs in to a host and owns a container. -/
theorem resolved_duplicate_free_iff_two_files :
    (∃ metadata, resolveHost (.v4 10 0 0 5) "web1" none twoFilesState localConfig = some metadata ∧
      (BuildsDuplicateFree metadata ↔
        ∀ rule name user, Reaches twoFilesState "web1" none rule name user →
          ¬ GrantsAccount twoFilesState "web1" none name → user.userKeys.Nodup)) ∧
    ∃ metadata, resolveContainer (.v4 192 168 10 10) buildPod "alice" twoFilesState localConfig =
        some metadata ∧
      (BuildsDuplicateFree metadata ↔
        ∀ user, twoFilesState.users.lookup "alice" = some user → user.userKeys.Nodup) := by
  obtain ⟨on_host, in_container⟩ := resolved_duplicate_free_iff twoFilesState localConfig
  have host_resolves : (resolveHost (.v4 10 0 0 5) "web1" none twoFilesState localConfig).isSome := by
    decide +kernel
  have pod_resolves : (resolveContainer (.v4 192 168 10 10) buildPod "alice" twoFilesState
      localConfig).isSome := by
    decide +kernel
  obtain ⟨host, host_resolved⟩ := Option.isSome_iff_exists.mp host_resolves
  obtain ⟨pod, pod_resolved⟩ := Option.isSome_iff_exists.mp pod_resolves
  exact ⟨⟨host, host_resolved, on_host _ _ _ _ host_resolved⟩,
    ⟨pod, pod_resolved, in_container _ _ _ _ pod_resolved⟩⟩

/-- A key that is listed twice reaches the config twice. -/
theorem resolved_with_duplicates : ¬ ∀ (identity : IdentityState) (config : MetadataConfig)
    (ip : IpAddr) (hostname : String) (hostLabels : Option (HashMap String String))
    (metadata : HostMetadata),
    resolveHost ip hostname hostLabels identity config = some metadata →
      BuildsDuplicateFree metadata := by
  intro always
  have resolves : (resolveHost (.v4 10 0 0 5) "web1" none twoFilesState localConfig).isSome := by
    decide +kernel
  obtain ⟨metadata, resolved⟩ := Option.isSome_iff_exists.mp resolves
  have free := always twoFilesState localConfig (.v4 10 0 0 5) "web1" none metadata resolved
  have twice : (resolveHost (.v4 10 0 0 5) "web1" none twoFilesState localConfig).all
      (fun metadata => decide ((metadata.publicKeys.map PublicKeyEntry.sshUser).Nodup ∧
        ¬ ∀ user ∈ buildIgnitionUsers metadata, (user.sshAuthorizedKeys.getD []).Nodup)) := by
    decide +kernel
  rw [resolved, Option.all_some, decide_eq_true_eq] at twice
  exact twice.2 ((generated_duplicate_free_iff twice.1).mp free.generated)

end Sample

end CloudId
