import CloudId.Ignition
import CloudId.Resolve

/-! The users that `build_ignition_users` makes of a host's metadata. An identity user comes
out through one of two branches: into the entry of the system user of its name, or as an
entry of its own. With distinct names on both lists the result is the system users, each with
the identity user of its name merged in, and then the other identity users. -/
namespace CloudId

theorem modify_first {α κ : Type} [DecidableEq κ] (key : α → κ) (change : α → α) (probe : κ)
    {items : List α} (distinct : (items.map key).Nodup) :
    items.modify (items.findIdx fun item => key item = probe) change =
      items.map fun item => if key item = probe then change item else item := by
  induction items with
  | nil => rfl
  | cons item rest step =>
    obtain ⟨absent, distinct_rest⟩ := List.nodup_cons.mp distinct
    by_cases same : key item = probe
    · have none_later : rest.map (fun item => if key item = probe then change item else item) = rest := by
        refine (List.map_congr_left fun other listed => ?_).trans (List.map_id rest)
        have differs : key other ≠ probe := by
          rintro equal
          exact absent (List.mem_map.mpr ⟨other, listed, equal.trans same.symm⟩)
        rw [if_neg differs]
        rfl
      rw [List.findIdx_cons, decide_eq_true same, cond_true, List.modify_zero_cons, List.map_cons,
        if_pos same, none_later]
    · rw [List.findIdx_cons, decide_eq_false same, cond_false, List.modify_succ_cons, List.map_cons,
        if_neg same, step distinct_rest]

/-! ## Names -/

/-- The names seen are those of the entries, each of which is there once. -/
structure NamesKnown (built : List IgnitionUser × List String) : Prop where
  distinct : (built.1.map IgnitionUser.name).Nodup
  seen : ∀ name, name ∈ built.2 ↔ name ∈ built.1.map IgnitionUser.name

theorem merged_names {items : List IgnitionUser} (user : CloudConfigUser) :
    (items.map fun existing => if existing.name = user.name then mergeIdentityUser user existing
      else existing).map IgnitionUser.name = items.map IgnitionUser.name := by
  rw [List.map_map]
  refine List.map_congr_left fun existing _ => ?_
  rw [Function.comp]
  split
  · rfl
  · rfl

theorem add_identity_user_names {built : List IgnitionUser × List String} (known : NamesKnown built)
    (user : CloudConfigUser) : NamesKnown (addIdentityUser built user) ∧
      ∀ name, name ∈ (addIdentityUser built user).2 ↔ name ∈ built.2 ∨ name = user.name := by
  obtain ⟨users, seen⟩ := built
  rw [addIdentityUser]
  split
  · rename_i there
    refine ⟨⟨?_, ?_⟩, ?_⟩
    · rw [modify_first IgnitionUser.name _ _ known.distinct, merged_names]
      exact known.distinct
    · rw [modify_first IgnitionUser.name _ _ known.distinct, merged_names]
      exact known.seen
    · intro name
      refine ⟨.inl, fun either => either.elim id ?_⟩
      rintro rfl
      exact there
  · rename_i new
    have not_listed : user.name ∉ users.map IgnitionUser.name := fun listed =>
      new ((known.seen user.name).mpr listed)
    refine ⟨⟨?_, ?_⟩, ?_⟩
    · have named : (users ++ [identityUser user]).map IgnitionUser.name =
          (users.map IgnitionUser.name).concat user.name := by
        rw [List.map_append, List.concat_eq_append]
        rfl
      rw [named]
      exact List.Nodup.concat not_listed known.distinct
    · intro name
      rw [List.map_append, List.mem_append, List.mem_cons, ← known.seen name, or_comm]
      exact or_congr_right List.mem_singleton.symm
    · intro name
      rw [List.mem_cons, or_comm]

theorem build_names (metadata : HostMetadata)
    (distinct : (metadata.publicKeys.map PublicKeyEntry.sshUser).Nodup) :
    ((buildIgnitionUsers metadata).map IgnitionUser.name).Nodup ∧
      ∀ name, name ∈ (buildIgnitionUsers metadata).map IgnitionUser.name ↔
        name ∈ metadata.publicKeys.map PublicKeyEntry.sshUser ∨
          name ∈ metadata.cloudConfig.users.map CloudConfigUser.name := by
  have added : ∀ (users : List CloudConfigUser) (built : List IgnitionUser × List String),
      NamesKnown built → NamesKnown (users.foldl addIdentityUser built) ∧
        ∀ name, name ∈ (users.foldl addIdentityUser built).2 ↔
          name ∈ built.2 ∨ name ∈ users.map CloudConfigUser.name := by
    intro users
    induction users with
    | nil =>
      intro built known
      exact ⟨known, fun name => by simp⟩
    | cons user rest step =>
      intro built known
      obtain ⟨known', names⟩ := add_identity_user_names known user
      obtain ⟨known'', names'⟩ := step _ known'
      refine ⟨known'', fun name => ?_⟩
      rw [List.foldl_cons, names', names, List.map_cons, List.mem_cons, or_assoc]
  have system : (metadata.publicKeys.map systemUser).map IgnitionUser.name =
      metadata.publicKeys.map PublicKeyEntry.sshUser := by
    rw [List.map_map]
    rfl
  obtain ⟨known, names⟩ := added metadata.cloudConfig.users
    (metadata.publicKeys.map systemUser, metadata.publicKeys.map PublicKeyEntry.sshUser)
    ⟨by rwa [system], fun name => by rw [system]⟩
  refine ⟨known.distinct, fun name => ?_⟩
  rw [buildIgnitionUsers, ← known.seen, names]

/-! ## The result in closed form -/

/-- The entry of a system user with the identity user of its name merged in. -/
def withIdentity (users : List CloudConfigUser) (existing : IgnitionUser) : IgnitionUser :=
  match users.find? fun user => existing.name = user.name with
  | some user => mergeIdentityUser user existing
  | none => existing

/-- The system users with their identity users, and then the other identity users. -/
def usersOf (publicKeys : List PublicKeyEntry) (users : List CloudConfigUser) : List IgnitionUser :=
  (publicKeys.map systemUser).map (withIdentity users) ++
    (users.filter fun user => user.name ∉ publicKeys.map PublicKeyEntry.sshUser).map identityUser

theorem with_identity_name (users : List CloudConfigUser) (existing : IgnitionUser) :
    (withIdentity users existing).name = existing.name := by
  rw [withIdentity]
  split
  · rfl
  · rfl

theorem with_identity_append {users : List CloudConfigUser} {user : CloudConfigUser}
    (absent : user.name ∉ users.map CloudConfigUser.name) (existing : IgnitionUser) :
    withIdentity (users ++ [user]) existing =
      if existing.name = user.name then mergeIdentityUser user (withIdentity users existing)
      else withIdentity users existing := by
  rw [withIdentity, withIdentity, List.find?_append]
  by_cases same : existing.name = user.name
  · have none_before : users.find? (fun user => existing.name = user.name) = none := by
      rw [List.find?_eq_none]
      intro own listed equal
      refine absent (List.mem_map.mpr ⟨own, listed, ?_⟩)
      exact (of_decide_eq_true equal).symm.trans same
    rw [if_pos same, none_before, Option.none_or, List.find?_cons, decide_eq_true same]
  · rw [if_neg same, List.find?_cons, decide_eq_false same, List.find?_nil, Option.or_none]

/-- One turn of the loop over the identity users. -/
theorem add_identity_user_eq {publicKeys : List PublicKeyEntry} {done : List CloudConfigUser}
    {seen : List String} {user : CloudConfigUser} (known : NamesKnown (usersOf publicKeys done, seen))
    (names : ∀ name, name ∈ seen ↔
      name ∈ publicKeys.map PublicKeyEntry.sshUser ∨ name ∈ done.map CloudConfigUser.name)
    (absent : user.name ∉ done.map CloudConfigUser.name) :
    (addIdentityUser (usersOf publicKeys done, seen) user).1 = usersOf publicKeys (done ++ [user]) := by
  have withUser : ∀ system : List IgnitionUser, system.map (withIdentity (done ++ [user])) =
      (system.map (withIdentity done)).map fun existing =>
        if existing.name = user.name then mergeIdentityUser user existing else existing := by
    intro system
    rw [List.map_map]
    refine List.map_congr_left fun existing _ => ?_
    rw [with_identity_append absent, Function.comp, with_identity_name]
  by_cases system : user.name ∈ publicKeys.map PublicKeyEntry.sshUser
  · have later : ((done.filter fun user => user.name ∉ publicKeys.map PublicKeyEntry.sshUser).map
        identityUser).map (fun existing => if existing.name = user.name then
          mergeIdentityUser user existing else existing) =
        (done.filter fun user => user.name ∉ publicKeys.map PublicKeyEntry.sshUser).map
          identityUser := by
      rw [List.map_map]
      refine List.map_congr_left fun own listed => ?_
      have new : own.name ∉ publicKeys.map PublicKeyEntry.sshUser :=
        of_decide_eq_true (List.mem_filter.mp listed).2
      have other : (identityUser own).name ≠ user.name := by
        rintro (same : own.name = user.name)
        exact new (same ▸ system)
      rw [Function.comp, if_neg other]
    have not_new : [user].filter
        (fun user => user.name ∉ publicKeys.map PublicKeyEntry.sshUser) = [] := by
      rw [List.filter_eq_nil_iff]
      intro own listed
      rw [List.mem_singleton.mp listed]
      exact fun new => of_decide_eq_true new system
    rw [addIdentityUser, if_pos ((names user.name).mpr (.inl system))]
    dsimp only
    rw [modify_first IgnitionUser.name _ _ known.distinct, usersOf, usersOf, List.map_append, later,
      List.filter_append, not_new, List.append_nil, withUser]
  · have new : user.name ∉ seen := fun there => ((names user.name).mp there).elim system absent
    have is_new : [user].filter
        (fun user => user.name ∉ publicKeys.map PublicKeyEntry.sshUser) = [user] := by
      rw [List.filter_eq_self]
      intro own listed
      rw [List.mem_singleton.mp listed]
      exact decide_eq_true system
    have unmerged : ((publicKeys.map systemUser).map (withIdentity done)).map (fun existing =>
        if existing.name = user.name then mergeIdentityUser user existing else existing) =
        (publicKeys.map systemUser).map (withIdentity done) := by
      refine (List.map_congr_left fun existing listed => ?_).trans (List.map_id _)
      obtain ⟨own, there, rfl⟩ := List.mem_map.mp listed
      obtain ⟨entry, held, rfl⟩ := List.mem_map.mp there
      rw [with_identity_name, if_neg, id_eq]
      rintro (same : entry.sshUser = user.name)
      exact system (List.mem_map.mpr ⟨entry, held, same⟩)
    rw [addIdentityUser, if_neg new, usersOf, usersOf, withUser, unmerged, List.filter_append,
      is_new, List.map_append, List.append_assoc]
    rfl

/-- **The users of a host with distinct names.** -/
theorem build_users_eq {metadata : HostMetadata}
    (distinct : (metadata.publicKeys.map PublicKeyEntry.sshUser).Nodup)
    (distinct' : (metadata.cloudConfig.users.map CloudConfigUser.name).Nodup) :
    buildIgnitionUsers metadata = usersOf metadata.publicKeys metadata.cloudConfig.users := by
  have added : ∀ (todo done : List CloudConfigUser) (seen : List String),
      ((done ++ todo).map CloudConfigUser.name).Nodup →
      NamesKnown (usersOf metadata.publicKeys done, seen) →
      (∀ name, name ∈ seen ↔ name ∈ metadata.publicKeys.map PublicKeyEntry.sshUser ∨
        name ∈ done.map CloudConfigUser.name) →
      (todo.foldl addIdentityUser (usersOf metadata.publicKeys done, seen)).1 =
        usersOf metadata.publicKeys (done ++ todo) := by
    intro todo
    induction todo with
    | nil =>
      intro done seen _ _ _
      rw [List.append_nil]
      rfl
    | cons user rest step =>
      intro done seen distinct known names
      have absent : user.name ∉ done.map CloudConfigUser.name := by
        rw [List.map_append, List.map_cons] at distinct
        exact fun listed => List.disjoint_of_nodup_append distinct listed List.mem_cons_self
      obtain ⟨known', names'⟩ := add_identity_user_names known user
      have turned := add_identity_user_eq known names absent
      have split : addIdentityUser (usersOf metadata.publicKeys done, seen) user =
          (usersOf metadata.publicKeys (done ++ [user]),
            (addIdentityUser (usersOf metadata.publicKeys done, seen) user).2) := by
        rw [← turned]
      have later := step (done ++ [user])
        (addIdentityUser (usersOf metadata.publicKeys done, seen) user).2
        (by rwa [List.append_assoc]) (by rwa [← split]) (fun name => by
          rw [names', names, List.map_append, List.mem_append, or_assoc, List.map_singleton,
            List.mem_singleton])
      rw [List.foldl_cons, split, later, List.append_assoc]
      rfl
  have start : metadata.publicKeys.map systemUser = usersOf metadata.publicKeys [] := by
    have unmerged : withIdentity [] = id := rfl
    rw [usersOf, unmerged, List.map_id, List.filter_nil, List.map_nil, List.append_nil]
  have system : (usersOf metadata.publicKeys []).map IgnitionUser.name =
      metadata.publicKeys.map PublicKeyEntry.sshUser := by
    rw [← start, List.map_map]
    rfl
  rw [buildIgnitionUsers, start]
  exact added metadata.cloudConfig.users [] _ distinct'
    ⟨by rwa [system], fun name => by rw [system]⟩ fun name => by simp

/-! ## What identity users get -/

theorem mem_add_keys (keys added : List String) (key : String) :
    key ∈ addKeys keys added ↔ key ∈ keys ∨ key ∈ added := by
  induction added generalizing keys with
  | nil => simp [addKeys]
  | cons first rest step =>
    rw [addKeys, List.foldl_cons, ← addKeys, step, List.mem_cons]
    split
    · rename_i there
      constructor
      · exact fun either => either.imp_right .inr
      · rintro (held | rfl | later)
        · exact .inl held
        · exact .inl there
        · exact .inr later
    · rw [List.mem_append, List.mem_singleton, or_assoc]

/-- An entry has all that a cloud-config user asks for. -/
structure Complete (metadata : HostMetadata) (user : CloudConfigUser) (entry : IgnitionUser) :
    Prop where
  name : entry.name = user.name
  uid : ∃ uid : UInt32, Text.parseUnsigned UInt32.size user.uid = some uid.toNat ∧
    entry.uid = some uid
  shell : entry.shell = some user.shell
  groups : ∀ group ∈ user.groups, group ∈ entry.groups.getD []
  keys : ∃ keys, entry.sshAuthorizedKeys = some keys ∧
    (∀ key ∈ user.sshAuthorizedKeys, key ∈ keys) ∧
    ∀ own ∈ metadata.publicKeys, own.sshUser = user.name → ∀ key ∈ own.keys, key ∈ keys
  wheel : user.«sudo».isSome → "wheel" ∈ entry.groups.getD []

/-- One entry for each name, and complete entries for the cloud-config users. -/
structure Realised (metadata : HostMetadata) (users : List IgnitionUser) : Prop where
  once : (users.map IgnitionUser.name).Nodup
  names : ∀ name, name ∈ users.map IgnitionUser.name ↔
    name ∈ metadata.publicKeys.map PublicKeyEntry.sshUser ∨
      name ∈ metadata.cloudConfig.users.map CloudConfigUser.name
  complete : ∀ user ∈ metadata.cloudConfig.users, ∃ entry ∈ users, Complete metadata user entry

theorem parse_unsigned_lt {bound : Nat} {text : String} {value : Nat}
    (parsed : Text.parseUnsigned bound text = some value) : value < bound := by
  simp only [Text.parseUnsigned, Option.ite_none_left_eq_some, Option.ite_none_right_eq_some] at parsed
  obtain ⟨-, below, same⟩ := parsed
  exact Option.some.inj same ▸ below

theorem uid_parsed {text : String} (parses : (Text.parseUnsigned UInt32.size text).isSome) :
    ∃ uid : UInt32, Text.parseUnsigned UInt32.size text = some uid.toNat ∧
      (Text.parseUnsigned UInt32.size text).map UInt32.ofNat = some uid := by
  obtain ⟨value, parsed⟩ := Option.isSome_iff_exists.mp parses
  refine ⟨UInt32.ofNat value, ?_, by rw [parsed, Option.map_some]⟩
  rw [parsed, UInt32.toNat_ofNat_of_lt' (parse_unsigned_lt parsed)]

section Realised

variable {metadata : HostMetadata}

theorem identity_user_complete (user : CloudConfigUser)
    (parses : (Text.parseUnsigned UInt32.size user.uid).isSome)
    (new : user.name ∉ metadata.publicKeys.map PublicKeyEntry.sshUser) :
    Complete metadata user (identityUser user) := by
  obtain ⟨uid, parsed, made⟩ := uid_parsed parses
  have groups : ∀ group, group ∈ (identityUser user).groups.getD [] ↔
      group ∈ user.groups ∨ (user.«sudo».isSome ∧ group = "wheel") := by
    intro group
    have held : (identityUser user).groups.getD [] =
        if user.«sudo».isSome ∧ "wheel" ∉ user.groups then user.groups ++ ["wheel"]
        else user.groups := by
      have none_or : ∀ groups : List String,
          (if groups = [] then none else some groups).getD [] = groups := by
        intro groups
        split
        · rename_i empty
          exact empty.symm
        · rfl
      exact none_or _
    rw [held]
    split
    · rename_i wheel
      rw [List.mem_append, List.mem_singleton, and_iff_right wheel.1]
    · rename_i no_wheel
      refine ⟨.inl, fun either => either.elim id ?_⟩
      rintro ⟨may, rfl⟩
      by_contra absent
      exact no_wheel ⟨may, absent⟩
  exact {
    name := rfl
    uid := ⟨uid, parsed, made⟩
    shell := rfl
    groups := fun group listed => (groups group).mpr (.inl listed)
    keys := ⟨user.sshAuthorizedKeys, rfl, fun key listed => listed, fun own listed same =>
      absurd (List.mem_map.mpr ⟨own, listed, same⟩) new⟩
    wheel := fun may => (groups "wheel").mpr (.inr ⟨may, rfl⟩) }

/-- The entry of a system user with its identity user has what that one asks for, the group
`wheel` apart. -/
theorem merged_user_complete (distinct : (metadata.publicKeys.map PublicKeyEntry.sshUser).Nodup)
    {own : PublicKeyEntry} (listed : own ∈ metadata.publicKeys) {user : CloudConfigUser}
    (same : own.sshUser = user.name) (parses : (Text.parseUnsigned UInt32.size user.uid).isSome) :
    Complete metadata user (mergeIdentityUser user (systemUser own)) ↔
      (user.«sudo».isSome → "wheel" ∈ user.groups) := by
  obtain ⟨uid, parsed, made⟩ := uid_parsed parses
  have groups : (mergeIdentityUser user (systemUser own)).groups.getD [] = user.groups := by
    rw [mergeIdentityUser]
    dsimp only
    split
    · rename_i empty
      exact empty.symm
    · rfl
  constructor
  · intro complete may
    have wheel := complete.wheel may
    rwa [groups] at wheel
  · intro wheel
    exact {
      name := same
      uid := ⟨uid, parsed, made⟩
      shell := rfl
      groups := fun group held => by rwa [groups]
      keys := by
        refine ⟨addKeys own.keys user.sshAuthorizedKeys, rfl, fun key held => ?_,
          fun other there equal key held => ?_⟩
        · exact (mem_add_keys _ _ _).mpr (.inr held)
        · have same_entry : other = own :=
            List.inj_on_of_nodup_map distinct there listed (equal.trans same.symm)
          rw [same_entry] at held
          exact (mem_add_keys _ _ _).mpr (.inl held)
      wheel := fun may => by
        rw [groups]
        exact wheel may }

theorem with_identity_own {users : List CloudConfigUser}
    (distinct : (users.map CloudConfigUser.name).Nodup) {user : CloudConfigUser}
    (listed : user ∈ users) {existing : IgnitionUser} (same : existing.name = user.name) :
    withIdentity users existing = mergeIdentityUser user existing := by
  have there : (users.find? fun user => existing.name = user.name).isSome :=
    List.find?_isSome.mpr ⟨user, listed, decide_eq_true same⟩
  obtain ⟨found, first⟩ := Option.isSome_iff_exists.mp there
  have found_here := List.find?_some first
  have equal : existing.name = found.name := of_decide_eq_true found_here
  have same_user : found = user := List.inj_on_of_nodup_map distinct
    (List.mem_of_find?_eq_some first) listed (equal.symm.trans same)
  rw [withIdentity, first, same_user]

/-- **Every identity user is realised completely exactly when those who are also system users
and may use sudo are in the group `wheel` by themselves.** -/
theorem identity_users_realised_iff
    (distinct : (metadata.publicKeys.map PublicKeyEntry.sshUser).Nodup)
    (distinct' : (metadata.cloudConfig.users.map CloudConfigUser.name).Nodup)
    (uids : ∀ user ∈ metadata.cloudConfig.users,
      (Text.parseUnsigned UInt32.size user.uid).isSome) :
    Realised metadata (buildIgnitionUsers metadata) ↔
      ∀ user ∈ metadata.cloudConfig.users,
        user.name ∈ metadata.publicKeys.map PublicKeyEntry.sshUser →
          user.«sudo».isSome → "wheel" ∈ user.groups := by
  obtain ⟨once, names⟩ := build_names metadata distinct
  have shape := build_users_eq distinct distinct'
  have merged_listed : ∀ own ∈ metadata.publicKeys, ∀ user ∈ metadata.cloudConfig.users,
      own.sshUser = user.name →
        mergeIdentityUser user (systemUser own) ∈ buildIgnitionUsers metadata := by
    intro own listed user there same
    rw [shape, usersOf, ← with_identity_own distinct' there same]
    exact List.mem_append_left _
      (List.mem_map.mpr ⟨systemUser own, List.mem_map.mpr ⟨own, listed, rfl⟩, rfl⟩)
  constructor
  · intro realised user there system
    obtain ⟨own, listed, same⟩ := List.mem_map.mp system
    obtain ⟨entry, held, complete⟩ := realised.complete user there
    have same_entry : entry = mergeIdentityUser user (systemUser own) :=
      List.inj_on_of_nodup_map once held (merged_listed own listed user there same)
        (complete.name.trans same.symm)
    rw [same_entry] at complete
    exact (merged_user_complete distinct listed same (uids user there)).mp complete
  · intro wheel
    refine ⟨once, names, fun user there => ?_⟩
    by_cases system : user.name ∈ metadata.publicKeys.map PublicKeyEntry.sshUser
    · obtain ⟨own, listed, same⟩ := List.mem_map.mp system
      exact ⟨_, merged_listed own listed user there same,
        (merged_user_complete distinct listed same (uids user there)).mpr
          (wheel user there system)⟩
    · refine ⟨identityUser user, ?_, identity_user_complete user (uids user there) system⟩
      rw [shape, usersOf]
      exact List.mem_append_right _ (List.mem_map.mpr
        ⟨user, List.mem_filter.mpr ⟨there, decide_eq_true system⟩, rfl⟩)

end Realised

/-- The owner of a container, as its cloud-config has it. -/
def podUser (groups : List String) : CloudConfigUser where
  name := "dev"
  uid := "1000"
  groups
  shell := "/bin/bash"
  «sudo» := some sudoAll
  sshAuthorizedKeys := ["key"]

/-- The account that every container has beside that of its owner. -/
def podRoot : CloudConfigUser where
  name := "root"
  uid := "0"
  groups := []
  shell := "/bin/bash"
  «sudo» := some sudoAll
  sshAuthorizedKeys := ["key"]

/-- What a container gets whose owner is in these groups. -/
def podMetadata (groups : List String) : HostMetadata where
  instanceId := "dev/pod"
  hostname := "main.pod.g10.lo"
  localHostname := "main.pod"
  localIpv4 := "192.168.10.10"
  availabilityZone := "gt"
  publicKeys := [⟨"dev", ["key"]⟩, ⟨"admin", ["key"]⟩, ⟨"root", ["key"]⟩]
  userData := @renderUserData cloudConfigText { users := [podUser groups, podRoot] }
  cloudConfig := { users := [podUser groups, podRoot] }

/-- The owner as a user of the service. -/
def podOwner (groups : List String) : UserResource where
  kind := "User"
  metadata := { name := "dev" }
  spec := {
    displayName := "dev"
    uid := 1000
    groups
    sshPublicKeys := [{ name := "laptop", key := "key" }] }

example : @resolveContainer cloudConfigText (.v4 192 168 10 10)
    { «namespace» := "dev", podName := "pod", containerName := "main", hostname := "main.pod" } "dev"
    { users := (∅ : HashMap String UserResource).insert "dev" (podOwner ["wheel"]) }
    { domainSuffix := ".g10.lo", availabilityZone := "gt" } = some (podMetadata ["wheel"]) := by
  decide +kernel

theorem identity_users_realised_in_wheel :
    Realised (podMetadata ["wheel"]) (buildIgnitionUsers (podMetadata ["wheel"])) ↔
      ∀ user ∈ (podMetadata ["wheel"]).cloudConfig.users,
        user.name ∈ (podMetadata ["wheel"]).publicKeys.map PublicKeyEntry.sshUser →
          user.«sudo».isSome → "wheel" ∈ user.groups :=
  identity_users_realised_iff (by decide) (by decide) (by decide +kernel)

/-- The owner of a container, who may use sudo, is left out of the group `wheel`. -/
theorem owner_without_wheel : ¬ ∀ metadata : HostMetadata,
    (metadata.publicKeys.map PublicKeyEntry.sshUser).Nodup →
    (metadata.cloudConfig.users.map CloudConfigUser.name).Nodup →
    (∀ user ∈ metadata.cloudConfig.users, (Text.parseUnsigned UInt32.size user.uid).isSome) →
      Realised metadata (buildIgnitionUsers metadata) := by
  intro always
  obtain ⟨entry, listed, complete⟩ := (always (podMetadata ["docker"]) (by decide) (by decide)
    (by decide +kernel)).complete _ List.mem_cons_self
  have groups : ∀ entry ∈ buildIgnitionUsers (podMetadata ["docker"]),
      "wheel" ∉ entry.groups.getD [] := by decide +kernel
  exact groups entry listed (complete.wheel rfl)

end CloudId
