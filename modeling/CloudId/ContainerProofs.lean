import Std.Data.String.ToNat
import CloudId.ResolveProofs

/-! What `resolve_container` gives the owner of a namespace, and when the
HostAccess rules give a host at the same address exactly that. The two are the
same metadata only if the host is named like the pod and the rules open the
accounts of `resolve_container`, and no others, to the keys of the owner. -/
namespace CloudId

/-! ## The container's side -/

/-- The accounts `resolve_container` opens to an owner, in its order. -/
def ownerAccounts (owner : String) : List String :=
  (if owner ≠ "root" then [owner] else []) ++
    (if owner ≠ "admin" ∧ owner ≠ "root" then ["admin"] else []) ++ ["root"]

/-- The key entries of `resolve_container`. -/
def ownerKeyEntries (owner : String) (user : UserResource) : List PublicKeyEntry :=
  (ownerAccounts owner).map fun account => { sshUser := account, keys := user.userKeys }

/-- The owner's own cloud-config entry. -/
def ownerEntry (owner : String) (user : UserResource) : CloudConfigUser where
  name := owner
  uid := toString user.spec.uid.toNat
  groups := user.spec.groups
  shell := user.spec.shell
  «sudo» := some sudoAll
  sshAuthorizedKeys := user.userKeys

/-- The entry of root, opened to the owner's keys. -/
def rootEntry (user : UserResource) : CloudConfigUser where
  name := "root"
  uid := "0"
  groups := []
  shell := "/bin/bash"
  «sudo» := some sudoAll
  sshAuthorizedKeys := user.userKeys

/-- The cloud-config users of `resolve_container`. -/
def ownerUsers (owner : String) (user : UserResource) : List CloudConfigUser :=
  (if owner ≠ "root" then [ownerEntry owner user] else []) ++ [rootEntry user]

theorem mem_owner_users (entry : CloudConfigUser) :
    entry ∈ ownerUsers owner user ↔
      (owner ≠ "root" ∧ entry = ownerEntry owner user) ∨ entry = rootEntry user := by
  by_cases root : owner = "root" <;> simp [ownerUsers, root]

theorem owner_user_named (owner : String) (user : UserResource) (name : String) :
    (∃ entry ∈ ownerUsers owner user, entry.name = name) ↔ name = owner ∨ name = "root" := by
  by_cases root : owner = "root" <;> simp [ownerUsers, root, ownerEntry, rootEntry, eq_comm]

theorem owner_user_sudo (listed : entry ∈ ownerUsers owner user) :
    entry.«sudo» = some sudoAll := by
  rcases (mem_owner_users entry).mp listed with ⟨_, rfl⟩ | rfl <;> rfl

theorem owner_accounts_nodup (owner : String) : (ownerAccounts owner).Nodup := by
  by_cases root : owner = "root"
  · simp [ownerAccounts, root]
  · by_cases admin : owner = "admin"
    · simp [ownerAccounts, admin]
    · simp [ownerAccounts, root, admin]

/-- When the accounts ascend so do the users, which are two of them. -/
theorem owner_user_names_sorted (ascend : (ownerAccounts owner).SortedLT) :
    ((ownerUsers owner user).map CloudConfigUser.name).SortedLT := by
  have names : (ownerUsers owner user).map CloudConfigUser.name =
      (if owner ≠ "root" then [owner] else []) ++ ["root"] := by
    by_cases root : owner = "root" <;> simp [ownerUsers, root, ownerEntry, rootEntry]
  rw [names]
  rw [List.sortedLT_iff_pairwise] at ascend ⊢
  refine ascend.sublist ?_
  rw [ownerAccounts, List.append_assoc]
  exact (List.Sublist.refl _).append (List.sublist_append_right _ _)

/-- The metadata of a container, from its owner's record. -/
def ownerMetadata [Serialize CloudConfig] (ip : IpAddr) (info : ContainerInfo)
    (config : MetadataConfig) (owner : String) (user : UserResource) : HostMetadata where
  instanceId := info.«namespace» ++ "/" ++ info.podName
  hostname := info.hostname ++ config.domainSuffix
  localHostname := info.hostname
  localIpv4 := toString ip
  availabilityZone := config.availabilityZone
  publicKeys := ownerKeyEntries owner user
  userData := renderUserData ⟨ownerUsers owner user⟩
  cloudConfig := ⟨ownerUsers owner user⟩

/-- `resolve_container` needs nothing but an active owner who holds keys. -/
theorem resolve_container_eq [Serialize CloudConfig] (ip : IpAddr) (info : ContainerInfo)
    (owner : String) (identity : IdentityState) (config : MetadataConfig) :
    resolveContainer ip info owner identity config =
      ((activeUser? identity owner).filter fun user => user.userKeys ≠ []).map
        (ownerMetadata ip info config owner) := by
  rw [resolveContainer, activeUser?]
  cases identity.users.lookup owner with
  | none => rfl
  | some user =>
    have accounts : ownerKeyEntries owner user =
        (if owner ≠ "root" then [{ sshUser := owner, keys := user.userKeys }] else []) ++
        (if owner ≠ "admin" ∧ owner ≠ "root" then [{ sshUser := "admin", keys := user.userKeys }]
          else []) ++ [{ sshUser := "root", keys := user.userKeys }] := by
      rw [ownerKeyEntries, ownerAccounts, List.map_append, List.map_append]
      split <;> split <;> rfl
    by_cases disabled : user.isDisabled = true
    · simp [disabled]
    · by_cases keyless : user.userKeys = []
      · simp [disabled, keyless]
      · simp only [Option.filter_some, disabled, Bool.not_false, if_true, ne_eq, keyless,
          not_false_eq_true, decide_true, Option.map_some, ownerMetadata, accounts]
        simp [keyless, ownerUsers, ownerEntry, rootEntry]

/-- A container resolves exactly when its owner is an active user with keys. -/
theorem resolve_container_isSome_iff [Serialize CloudConfig] (ip : IpAddr) (info : ContainerInfo)
    (owner : String) (identity : IdentityState) (config : MetadataConfig) :
    (resolveContainer ip info owner identity config).isSome = true ↔
      ∃ user, ActiveUser identity owner user ∧ user.userKeys ≠ [] := by
  simp only [resolve_container_eq, Option.isSome_map, Option.isSome_iff_exists,
    Option.filter_eq_some_iff, active_user_iff, decide_eq_true_eq]

/-! ## The host's side -/

/-- The first matching rule, in enumeration order, that names a user. -/
def firstNaming (identity : IdentityState) (hostname : String)
    (hostLabels : Option (HashMap String String)) (username : String) :
    Option HostAccessResource :=
  (findMatchingRules hostname hostLabels identity).find? fun rule =>
    username ∈ expandSubjects rule.spec.subjects identity

private theorem first_visit_of_rule (rule : HostAccessResource)
    (active : activeUser? identity name = some user) :
    ((visits identity [rule]).find? fun visit => visit.username = name) =
      if name ∈ expandSubjects rule.spec.subjects identity then some ⟨rule, name, user⟩
      else none := by
  have reaches (username : String) :
      (((activeUser? identity username).map fun user => (⟨rule, username, user⟩ : Visit)).any
        fun visit => visit.username = name) = decide (username = name) := by
    by_cases same : username = name
    · subst same
      simp [active]
    · cases activeUser? identity username <;> simp [same]
  rw [visits, List.flatMap_singleton, List.find?_filterMap, funext reaches]
  split
  · rename_i named
    cases found : (expandSubjects rule.spec.subjects identity).find? fun username =>
        decide (username = name) with
    | none => exact absurd (decide_eq_true rfl) (List.find?_eq_none.mp found name named)
    | some username =>
      have same : username = name := by simpa using List.find?_some found
      subst same
      simp [active]
  · rename_i unnamed
    have missing : ((expandSubjects rule.spec.subjects identity).find? fun username =>
        decide (username = name)) = none := by
      rw [List.find?_eq_none]
      rintro username listed same
      rw [of_decide_eq_true same] at listed
      exact unnamed listed
    rw [missing, Option.bind_none]

/-- The first visit of an active user is by the first rule that names it. -/
theorem first_visit_eq (rules : List HostAccessResource)
    (active : activeUser? identity name = some user) :
    ((visits identity rules).find? fun visit => visit.username = name) =
      (rules.find? fun rule => name ∈ expandSubjects rule.spec.subjects identity).map
        fun rule => ⟨rule, name, user⟩ := by
  induction rules with
  | nil => rfl
  | cons rule rest ih =>
    rw [visits_cons, List.find?_append, first_visit_of_rule rule active, ih, List.find?_cons]
    by_cases named : name ∈ expandSubjects rule.spec.subjects identity <;> simp [named]

/-- A user's cloud-config entry is the one the first rule that names it makes. -/
theorem mem_config_users_iff (identity : IdentityState) (hostname : String)
    (hostLabels : Option (HashMap String String)) (entry : CloudConfigUser) :
    entry ∈ (collectedFor identity hostname hostLabels).configUsers ↔
      ∃ rule user, firstNaming identity hostname hostLabels entry.name = some rule ∧
        ActiveUser identity entry.name user ∧ entry = cloudConfigUser rule entry.name user := by
  rw [collectedFor, mem_config_users (collected_describes identity _)]
  constructor
  · rintro ⟨visit, found, same⟩
    have named : visit.username = entry.name := by simpa using List.find?_some found
    have active := ((mem_visits ..).mp (List.mem_of_find?_eq_some found)).2.2
    rw [named] at active
    rw [first_visit_eq _ ((active_user_iff ..).mpr active), Option.map_eq_some_iff] at found
    obtain ⟨rule, first, made⟩ := found
    exact ⟨rule, _, first, active, same.trans (congrArg Visit.entry made.symm)⟩
  · rintro ⟨rule, user, first, active, same⟩
    refine ⟨⟨rule, entry.name, user⟩, ?_, same⟩
    rw [first_visit_eq _ ((active_user_iff ..).mpr active)]
    exact congrArg (Option.map _) first

/-- An active user has a first rule that names it exactly when it is reached. -/
theorem first_naming_isSome_iff (active : ActiveUser identity name user) :
    (∃ rule, firstNaming identity hostname hostLabels name = some rule) ↔
      ∃ rule reached, Reaches identity hostname hostLabels rule name reached := by
  constructor
  · rintro ⟨rule, first⟩
    obtain ⟨stored, applies⟩ := (mem_find_matching_rules ..).mp (List.mem_of_find?_eq_some first)
    have named : name ∈ expandSubjects rule.spec.subjects identity := by
      simpa using List.find?_some first
    exact ⟨rule, user, stored, applies, (mem_expand_subjects ..).mp named, active⟩
  · rintro ⟨rule, reached, stored, applies, named, _⟩
    apply Option.isSome_iff_exists.mp
    rw [firstNaming, List.find?_isSome]
    exact ⟨rule, (mem_find_matching_rules ..).mpr ⟨stored, applies⟩,
      by simpa using (mem_expand_subjects ..).mpr named⟩

/-! ## When the two agree -/

/-- The rules open the accounts of the owner, each to the owner's keys, in the
order in which a host's accounts and keys are served. -/
structure SameKeys (identity : IdentityState) (hostname : String)
    (hostLabels : Option (HashMap String String)) (owner : String) (user : UserResource) :
    Prop where
  accountsAscend : (ownerAccounts owner).SortedLT
  keysAscend : user.userKeys.SortedLT
  accounts : ∀ account, (∃ rule username reached,
    Reaches identity hostname hostLabels rule username reached ∧ account ∈ rule.spec.sshUsers) ↔
      account ∈ ownerAccounts owner
  keys : ∀ account ∈ ownerAccounts owner, ∀ key,
    Grants identity hostname hostLabels account key ↔ key ∈ user.userKeys

/-- The rules name the owner and root and nobody else, the first to name either
grants sudo, and root's record is the one `resolve_container` makes up. -/
structure SameUsers (identity : IdentityState) (hostname : String)
    (hostLabels : Option (HashMap String String)) (owner : String) (user : UserResource) :
    Prop where
  users : ∀ name, (∃ rule reached, Reaches identity hostname hostLabels rule name reached) ↔
    name = owner ∨ name = "root"
  «sudo» : ∀ name rule, name = owner ∨ name = "root" →
    firstNaming identity hostname hostLabels name = some rule → rule.spec.«sudo» = true
  root : ∀ record, ActiveUser identity "root" record →
    record.spec.uid.toNat = 0 ∧ record.spec.groups = [] ∧ record.spec.shell = "/bin/bash" ∧
      record.userKeys = user.userKeys

private theorem sort_dedup_eq_iff {collected keys : List String} :
    sortDedup collected = keys ↔ keys.SortedLT ∧ ∀ key, key ∈ collected ↔ key ∈ keys := by
  constructor
  · rintro rfl
    exact ⟨SortedMap.sort_destutter_sorted _, fun key => (SortedMap.mem_sort_destutter _ _).symm⟩
  · rintro ⟨ascend, same⟩
    refine (SortedMap.sort_destutter_sorted _).eq_of_mem_iff ascend fun key => ?_
    rw [SortedMap.mem_sort_destutter, same]

private theorem mem_owner_key_entries (entry : PublicKeyEntry) :
    entry ∈ ownerKeyEntries owner user ↔
      entry.sshUser ∈ ownerAccounts owner ∧ entry.keys = user.userKeys := by
  rw [ownerKeyEntries, List.mem_map]
  constructor
  · rintro ⟨account, listed, rfl⟩
    exact ⟨listed, rfl⟩
  · rintro ⟨listed, same⟩
    exact ⟨entry.sshUser, listed, by rw [← same]⟩

private theorem owner_key_accounts :
    (ownerKeyEntries owner user).map PublicKeyEntry.sshUser = ownerAccounts owner := by
  rw [ownerKeyEntries, List.map_map]
  exact List.map_id _

/-- The served keys are the owner's exactly when the inputs say so. -/
theorem public_keys_eq_owner_iff (identity : IdentityState) (hostname : String)
    (hostLabels : Option (HashMap String String)) (owner : String) (user : UserResource) :
    publicKeyEntries (collectedFor identity hostname hostLabels).keysBySshUser =
        ownerKeyEntries owner user ↔
      SameKeys identity hostname hostLabels owner user := by
  let collected := (collectedFor identity hostname hostLabels).keysBySshUser
  have served (entry : PublicKeyEntry) : entry ∈ publicKeyEntries collected ↔
      entry.sshUser ∈ collected ∧ entry.keys = sortDedup (collected.getD entry.sshUser []) :=
    mem_public_key_entries collected entry
  constructor
  · intro same
    have members (account : String) (listed : account ∈ ownerAccounts owner) :
        account ∈ collected ∧ user.userKeys = sortDedup (collected.getD account []) := by
      refine (served ⟨account, user.userKeys⟩).mp ?_
      rw [same, mem_owner_key_entries]
      exact ⟨listed, rfl⟩
    refine ⟨?_, ?_, ?_, ?_⟩
    · have ascend := public_key_accounts_sorted collected
      rwa [same, owner_key_accounts] at ascend
    · have listed : "root" ∈ ownerAccounts owner := by simp [ownerAccounts]
      exact (sort_dedup_eq_iff.mp (members "root" listed).2.symm).1
    · intro account
      rw [← account_collected_iff]
      refine ⟨fun held => ?_, fun listed => (members account listed).1⟩
      have entry := (served ⟨account, sortDedup (collected.getD account [])⟩).mpr ⟨held, rfl⟩
      rw [same, mem_owner_key_entries] at entry
      exact entry.1
    · intro account listed key
      rw [← key_collected_iff]
      exact (sort_dedup_eq_iff.mp (members account listed).2.symm).2 key
  · rintro ⟨accountsAscend, keysAscend, accounts, keys⟩
    refine SortedMap.eq_of_sorted_keys (public_key_accounts_sorted collected)
      (owner_key_accounts ▸ accountsAscend) fun entry => ?_
    rw [served, mem_owner_key_entries, account_collected_iff, accounts]
    refine and_congr_right fun listed => ?_
    have sorted : sortDedup (collected.getD entry.sshUser []) = user.userKeys := by
      refine sort_dedup_eq_iff.mpr ⟨keysAscend, fun key => ?_⟩
      rw [key_collected_iff, keys entry.sshUser listed]
    rw [sorted]

/-- Under the agreement of the users, each entry of the host is the entry that
`resolve_container` makes. -/
private theorem entry_of_owner (active : ActiveUser identity owner user)
    (same : SameUsers identity hostname hostLabels owner user)
    (first : firstNaming identity hostname hostLabels name = some rule)
    (named : name = owner ∨ name = "root") (record : ActiveUser identity name reached) :
    cloudConfigUser rule name reached ∈ ownerUsers owner user := by
  have granted : rule.spec.«sudo» = true := same.«sudo» name rule named first
  rw [mem_owner_users]
  by_cases root : name = "root"
  · subst root
    obtain ⟨uid, groups, shell, keys⟩ := same.root reached record
    right
    rw [cloudConfigUser, rootEntry, granted, uid, groups, shell, keys]
    rfl
  · obtain rfl := named.resolve_right root
    obtain rfl := active_user_unique active record
    left
    refine ⟨root, ?_⟩
    rw [cloudConfigUser, ownerEntry, granted]
    rfl

private theorem owner_entry_unique (ascend : (ownerAccounts owner).SortedLT)
    (first : entry ∈ ownerUsers owner user) (second : entry' ∈ ownerUsers owner user)
    (same : entry.name = entry'.name) : entry = entry' :=
  List.inj_on_of_nodup_map (owner_user_names_sorted ascend).nodup first second same

/-- The cloud-config users are those of the container exactly when the inputs
say so. -/
theorem config_users_eq_owner_iff (active : ActiveUser identity owner user)
    (ascend : (ownerAccounts owner).SortedLT) :
    (collectedFor identity hostname hostLabels).configUsers = ownerUsers owner user ↔
      SameUsers identity hostname hostLabels owner user := by
  constructor
  · intro same
    have users (name : String) : (∃ rule reached,
        Reaches identity hostname hostLabels rule name reached) ↔ name = owner ∨ name = "root" := by
      rw [← owner_user_named owner user, ← same]
      constructor
      · rintro ⟨rule, reached, reaches⟩
        exact reached_config_user reaches
      · rintro ⟨entry, listed, rfl⟩
        obtain ⟨rule, reached, reaches, _⟩ :=
          config_user_reached identity hostname hostLabels listed
        exact ⟨rule, reached, reaches⟩
    have entries {name : String} {rule : HostAccessResource} {record : UserResource}
        (first : firstNaming identity hostname hostLabels name = some rule)
        (held : ActiveUser identity name record) :
        cloudConfigUser rule name record ∈ ownerUsers owner user := by
      rw [← same, mem_config_users_iff]
      exact ⟨rule, record, first, held, rfl⟩
    refine ⟨users, ?_, ?_⟩
    · intro name rule named first
      obtain ⟨_, reached, reaches⟩ := (users name).mpr named
      rw [← entry_sudo rule name reached, owner_user_sudo (entries first reaches.active)]
      rfl
    · intro record held
      obtain ⟨rule, first⟩ := (first_naming_isSome_iff held).mpr ((users "root").mpr (Or.inr rfl))
      have listed := entries first held
      have made : cloudConfigUser rule "root" record = rootEntry user :=
        owner_entry_unique ascend listed ((mem_owner_users _).mpr (Or.inr rfl)) rfl
      have uid : toString record.spec.uid.toNat = "0" := congrArg CloudConfigUser.uid made
      exact ⟨Nat.repr_injective uid, congrArg CloudConfigUser.groups made,
        congrArg CloudConfigUser.shell made, congrArg CloudConfigUser.sshAuthorizedKeys made⟩
  · intro same
    refine SortedMap.eq_of_sorted_keys (config_user_names_sorted (collected_describes identity _))
      (owner_user_names_sorted ascend) fun entry => ?_
    constructor
    · intro listed
      obtain ⟨rule, reached, first, record, made⟩ := (mem_config_users_iff ..).mp listed
      have named := (same.users entry.name).mp ((first_naming_isSome_iff record).mp ⟨rule, first⟩)
      rw [made]
      exact entry_of_owner active same first named record
    · intro listed
      have named := (owner_user_named owner user entry.name).mp ⟨entry, listed, rfl⟩
      obtain ⟨_, reached, reaches⟩ := (same.users entry.name).mpr named
      obtain ⟨rule, first⟩ := (first_naming_isSome_iff reaches.active).mpr ⟨_, _, reaches⟩
      have made := owner_entry_unique ascend
        (entry_of_owner active same first named reaches.active) listed rfl
      exact (mem_config_users_iff ..).mpr ⟨rule, reached, first, reaches.active, made.symm⟩

/-- The metadata of a host and of a container cannot be told apart: the host is
named like the pod, and the rules give it what the owner gets. -/
structure Indistinguishable (identity : IdentityState) (hostname : String)
    (hostLabels : Option (HashMap String String)) (info : ContainerInfo) (owner : String)
    (user : UserResource) : Prop where
  name : info.hostname = hostname
  pod : hostname = info.«namespace» ++ "/" ++ info.podName
  keys : SameKeys identity hostname hostLabels owner user
  users : SameUsers identity hostname hostLabels owner user

/-- **A host the rules grant something on and a container whose owner is an
active user with keys have the same metadata** exactly when nothing in the
inputs tells them apart. -/
theorem resolve_host_eq_container_iff [Serialize CloudConfig] (ip : IpAddr) (info : ContainerInfo)
    (config : MetadataConfig) (granted : GrantsAny identity hostname hostLabels)
    (active : ActiveUser identity owner user) (keyed : user.userKeys ≠ []) :
    resolveHost ip hostname hostLabels identity config =
        resolveContainer ip info owner identity config ↔
      Indistinguishable identity hostname hostLabels info owner user := by
  have collected : ¬ (collectedFor identity hostname hostLabels).keysBySshUser.isEmpty = true := by
    rw [nothing_collected_iff, not_not]
    exact granted
  rw [resolve_host_eq, if_neg collected, resolve_container_eq, (active_user_iff ..).mpr active,
    Option.filter_some, if_pos (by simpa using keyed), Option.map_some, Option.some.injEq]
  constructor
  · intro same
    have keys := (public_keys_eq_owner_iff ..).mp (congrArg HostMetadata.publicKeys same)
    have users := congrArg (fun metadata => metadata.cloudConfig.users) same
    exact ⟨(congrArg HostMetadata.localHostname same).symm, congrArg HostMetadata.instanceId same,
      keys, (config_users_eq_owner_iff active keys.accountsAscend).mp users⟩
  · rintro ⟨name, pod, keys, users⟩
    rw [hostMetadata, ownerMetadata, (public_keys_eq_owner_iff ..).mpr keys,
      (config_users_eq_owner_iff active keys.accountsAscend).mpr users, name, ← pod]

/-- A container named after its pod, as the container watcher names it, is told
apart from every host. -/
theorem named_container_distinguishable {info : ContainerInfo}
    (named : info.hostname = info.containerName ++ "." ++ info.podName) :
    ¬ Indistinguishable identity hostname hostLabels info owner user := by
  rintro ⟨same, pod, _, _⟩
  have spelled : (info.containerName.toList ++ ".".toList) ++ info.podName.toList =
      (info.«namespace».toList ++ "/".toList) ++ info.podName.toList := by
    have texts := congrArg String.toList (named.symm.trans (same.trans pod))
    simpa only [String.toList_append] using texts
  have marks := (List.append_inj' (List.append_cancel_right spelled) (by decide)).2
  exact absurd marks (by decide)

end CloudId
