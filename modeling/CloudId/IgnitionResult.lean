import CloudId.IgnitionMerge

/-! What a host gets out of a merge. The identity is added and the rest of the base stays;
and an empty base gives what `generate_ignition` gives without one. -/
namespace CloudId
open Effects Json

/-! ## A base and its merge -/

/-- A base whose `passwd` and `storage`, their lists and the keys of its users have the types
that Ignition gives them, where they are present. -/
structure WellTyped (members : List (String × Json)) : Prop where
  passwd : ∀ value, members.lookup "passwd" = some value → value.IsObject
  users : ∀ value, (objectAt members "passwd").lookup "users" = some value → value.IsArray
  keys : ∀ entry ∈ arrayAt (objectAt members "passwd") "users", ∀ value,
    entry.get? "sshAuthorizedKeys" = some value → value.IsArray
  storage : ∀ value, members.lookup "storage" = some value → value.IsObject
  files : ∀ value, (objectAt members "storage").lookup "files" = some value → value.IsArray

/-- The keys of a user entry. -/
def keysOf (entry : Json) : List Json :=
  match entry.get? "sshAuthorizedKeys" with
  | some (.array keys) => keys
  | _ => []

/-- The entry of a base user in the merged config: its members stay, and an identity user of
its name adds the keys that are missing. -/
structure KeptUser (users : List IgnitionUser) (old new : Json) : Prop where
  stays : (∀ user ∈ users, textMember old "name" ≠ some user.name) → new = old
  members : ∀ key, key ≠ "sshAuthorizedKeys" → new.get? key = old.get? key
  keys : ∀ user ∈ users, textMember old "name" = some user.name → ∃ added : List String,
    new.get? "sshAuthorizedKeys" = some (.array (keysOf old ++ added.map string)) ∧
    (∀ key ∈ added, key ∈ user.sshAuthorizedKeys.getD []) ∧
    ∀ key ∈ user.sshAuthorizedKeys.getD [], .string key ∈ keysOf old ++ added.map string

/-- The inline contents of a file entry. -/
def inlineOf (file : Json) : Option Json := (file.get? "contents").bind (get? · "inline")

/-- A file entry of the base in the merged config: inline contents are dropped, and a text
among them becomes the source. -/
structure KeptFile (old new : Json) : Prop where
  stays : inlineOf old = none → new = old
  members : ∀ key, key ≠ "contents" → new.get? key = old.get? key
  contents : ∀ contents inline, old.get? "contents" = some contents →
    contents.get? "inline" = some inline → ∃ changed, new.get? "contents" = some changed ∧
      changed.get? "inline" = none ∧
      changed.get? "source" = (inline.asStr.map fun text => .string (dataUri text)).or
        (contents.get? "source") ∧
      ∀ key, key ≠ "inline" → key ≠ "source" → changed.get? key = contents.get? key

/-- A merged config adds the identity to its base and changes nothing else. -/
structure AddsIdentity (metadata : HostMetadata) (members : List (String × Json)) (config : Json) :
    Prop where
  version : config.get? "ignition" =
    some ((members.lookup "ignition").getD (ofEntries [("version", .string "3.4.0")]))
  others : ∀ key, key ≠ "ignition" → key ≠ "passwd" → key ≠ "storage" →
    config.get? key = members.lookup key
  passwd : ∃ passwd kept added, config.get? "passwd" = some (.object passwd) ∧
    (∀ key, key ≠ "users" → passwd.lookup key = (objectAt members "passwd").lookup key) ∧
    passwd.lookup "users" = some (.array (kept ++ added)) ∧
    List.Forall₂ (KeptUser (buildIgnitionUsers metadata))
      (arrayAt (objectAt members "passwd") "users") kept ∧
    added = ((buildIgnitionUsers metadata).filter fun user => user.name ∉
      (arrayAt (objectAt members "passwd") "users").filterMap (textMember · "name")).map
        IgnitionUser.toValue ∧
    ∀ user ∈ buildIgnitionUsers metadata, ∃ entry ∈ kept ++ added,
      textMember entry "name" = some user.name
  storage : ∃ storage kept, config.get? "storage" = some (.object storage) ∧
    (∀ key, key ≠ "files" → storage.lookup key = (objectAt members "storage").lookup key) ∧
    storage.lookup "files" = some (.array (kept ++
      if (arrayAt (objectAt members "storage") "files").any fun file =>
        textMember file "path" = some "/etc/hostname" then [] else [hostnameFile metadata.hostname])) ∧
    List.Forall₂ KeptFile (arrayAt (objectAt members "storage") "files") kept

/-! ## Users -/

theorem build_users_keys (metadata : HostMetadata) :
    ∀ user ∈ buildIgnitionUsers metadata, user.sshAuthorizedKeys.isSome := by
  have added : ∀ (users : List CloudConfigUser) (built : List IgnitionUser × List String),
      (∀ user ∈ built.1, user.sshAuthorizedKeys.isSome) →
        ∀ user ∈ (users.foldl addIdentityUser built).1, user.sshAuthorizedKeys.isSome := by
    intro users
    induction users with
    | nil => exact fun built held => held
    | cons user rest step =>
      rintro ⟨entries, seen⟩ held
      refine step _ ?_
      rw [addIdentityUser]
      split
      · intro entry listed
        obtain ⟨index, at_index⟩ := List.mem_iff_getElem?.mp listed
        rw [List.getElem?_modify] at at_index
        obtain ⟨own, at_own, same⟩ := Option.map_eq_some_iff.mp at_index
        have own_keys := held own (List.mem_of_getElem? at_own)
        rw [← same]
        split
        · rw [mergeIdentityUser]
          simpa using own_keys
        · exact own_keys
      · intro entry listed
        rcases List.mem_append.mp listed with listed | listed
        · exact held entry listed
        · rw [List.mem_singleton.mp listed]
          rfl
  refine added _ _ fun user listed => ?_
  obtain ⟨own, -, rfl⟩ := List.mem_map.mp listed
  rfl

theorem kept_user {users : List IgnitionUser} (distinct : (users.map IgnitionUser.name).Nodup)
    (all_keys : ∀ user ∈ users, user.sshAuthorizedKeys.isSome) {existing : Json}
    (keys_typed : ∀ value, existing.get? "sshAuthorizedKeys" = some value → value.IsArray) :
    KeptUser users existing (mergeEntry users existing) where
  stays := by
    intro unnamed
    rw [mergeEntry, List.find?_eq_none.mpr]
    exact fun user listed same => unnamed user listed (of_decide_eq_true same)
  members := by
    intro key other
    rw [mergeEntry]
    split
    · exact keyed_get existing _ other
    · rfl
  keys := by
    intro user listed named
    obtain ⟨newKeys, keys⟩ := Option.isSome_iff_exists.mp (all_keys user listed)
    have found : mergeEntry users existing = keyed existing user := by
      rw [mergeEntry]
      split
      · rename_i own first
        have same := List.find?_some first
        rw [named, decide_eq_true_eq, Option.some.injEq] at same
        rw [List.inj_on_of_nodup_map distinct (List.mem_of_find?_eq_some first) listed same.symm]
      · rename_i missing
        exact absurd (decide_eq_true named) (List.find?_eq_none.mp missing user listed)
    have merged := merge_ssh_keys_eq named user
    rw [merge_ssh_keys_some keys] at merged
    obtain ⟨members, value, rfl, added, entry⟩ := change_entry_eq_ok merged
    have old_keys : (members.lookup "sshAuthorizedKeys").getD (.array []) =
        .array (keysOf (.object members)) := by
      have typed : ∀ value, members.lookup "sshAuthorizedKeys" = some value → value.IsArray :=
        keys_typed
      exact array_at_eq typed
    rw [old_keys] at added
    let missing := newKeys.filter fun key => key ∉ (keysOf (.object members)).filterMap asStr
    have value_is : value = .array (keysOf (.object members) ++ missing.map string) :=
      (Except.ok.inj added).symm
    refine ⟨missing, ?_, ?_, ?_⟩
    · rw [found, entry]
      change (insertMember "sshAuthorizedKeys" value members).lookup "sshAuthorizedKeys" = _
      rw [lookup_insert_member, if_pos rfl, value_is]
    · intro key there
      rw [keys, Option.getD_some]
      exact (List.mem_filter.mp there).1
    · intro key there
      rw [keys, Option.getD_some] at there
      by_cases known : key ∈ (keysOf (.object members)).filterMap asStr
      · obtain ⟨own, held, same⟩ := List.mem_filterMap.mp known
        have is_key : own = .string key := by
          cases own with
          | string text =>
            cases same
            rfl
          | _ => cases same
        rw [← is_key]
        exact List.mem_append_left _ held
      · exact List.mem_append_right _
          (List.mem_map.mpr ⟨key, List.mem_filter.mpr ⟨there, decide_eq_true known⟩, rfl⟩)

/-! ## Files -/

theorem kept_file {old : Json} (ordered : old.Ordered) :
    KeptFile old (mapMember "contents" normalizeContents old) where
  stays := by
    intro no_inline
    refine map_member_same ordered fun contents held => ?_
    rw [inlineOf, held, Option.bind_some] at no_inline
    cases contents with
    | object members =>
      have absent : members.lookup "inline" = none := no_inline
      rw [normalizeContents, absent]
    | _ => rfl
  members := by
    intro key other
    rw [get_map_member, if_neg other]
  contents := by
    intro contents inline held has_inline
    refine ⟨normalizeContents contents, ?_, ?_⟩
    · rw [get_map_member, if_pos rfl, held, Option.map_some]
    cases contents with
    | object members =>
      have there : members.lookup "inline" = some inline := has_inline
      rw [normalizeContents, there]
      dsimp only
      cases text : inline.asStr with
      | some text =>
        refine ⟨?_, ?_, fun key not_inline not_source => ?_⟩
        · change (insertMember "source" _ (removeMember "inline" members)).lookup "inline" = none
          rw [lookup_insert_member, if_neg (by decide), lookup_remove_member, if_pos rfl]
        · change (insertMember "source" _ (removeMember "inline" members)).lookup "source" = _
          rw [lookup_insert_member, if_pos rfl]
          rfl
        · change (insertMember "source" _ (removeMember "inline" members)).lookup key =
            members.lookup key
          rw [lookup_insert_member, if_neg not_source, lookup_remove_member, if_neg not_inline]
      | none =>
        refine ⟨?_, ?_, fun key not_inline _ => ?_⟩
        · change (removeMember "inline" members).lookup "inline" = none
          rw [lookup_remove_member, if_pos rfl]
        · change (removeMember "inline" members).lookup "source" = _
          rw [lookup_remove_member, if_neg (by decide)]
          rfl
        · change (removeMember "inline" members).lookup key = members.lookup key
          rw [lookup_remove_member, if_neg not_inline]
    | _ => cases has_inline

/-- The entry for the hostname is in the form that Ignition takes. -/
theorem hostname_file_normal (fqdn : String) :
    mapMember "contents" normalizeContents (hostnameFile fqdn) = hostnameFile fqdn := by
  refine (kept_file (ordered_hostname_file fqdn)).stays ?_
  have contents : (hostnameFile fqdn).get? "contents" =
      some (ofEntries [("source", .string (dataUri fqdn))]) :=
    @lookup_of_entries "contents" _ [("path", .string "/etc/hostname"), ("mode", unsigned 420),
      ("overwrite", .bool true)] [] nofun
  rw [inlineOf, contents, Option.bind_some]
  change (insertMember "source" (.string (dataUri fqdn)) []).lookup "inline" = none
  rw [lookup_insert_member, if_neg (by decide)]
  rfl

/-- The files in their form, with the one for the hostname at the end where there is none. -/
theorem normal_add_hostname (fqdn : String) (files : List Json) :
    normalFiles (addHostname fqdn (.array files)) =
      .array (files.map (mapMember "contents" normalizeContents) ++
        if files.any fun file => textMember file "path" = some "/etc/hostname" then []
        else [hostnameFile fqdn]) := by
  rw [addHostname]
  split
  · rw [List.append_nil]
    rfl
  · rw [normalFiles, List.map_append, List.map_singleton, hostname_file_normal]

/-! ## The whole config -/

/-- **`merge_ignition` adds the identity and changes nothing else.** -/
theorem merge_ignition_adds_identity [Serialize Json] {metadata : HostMetadata}
    (distinct : (metadata.publicKeys.map PublicKeyEntry.sshUser).Nodup)
    {members : List (String × Json)} (ordered : (Json.object members).Ordered)
    (typed : WellTyped members) :
    ∃ config, mergeIgnition (.object members) metadata = .ok (Serialize.toStringPretty config) ∧
      AddsIdentity metadata members config := by
  let users := buildIgnitionUsers metadata
  let passwd := objectAt members "passwd"
  let storage := objectAt members "storage"
  have names := (build_names metadata distinct).1
  have merged : Merged metadata members passwd storage
      (.array (mergedUsers users (arrayAt passwd "users")))
      (addHostname metadata.hostname (.array (arrayAt storage "files")))
      (normalizeFileContents (.object (passedMembers members passwd storage
        (.array (mergedUsers users (arrayAt passwd "users")))
        (addHostname metadata.hostname (.array (arrayAt storage "files")))))) := {
    passwd_is := object_at_eq typed.passwd
    storage_is := object_at_eq typed.storage
    users_are := by rw [array_at_eq typed.users, users_merged distinct]
    files_are := by rw [array_at_eq typed.files]
    config_is := rfl }
  have made := merged_config_of (.inr rfl) merged
  refine ⟨_, by rw [mergeIgnition, made]; rfl, ?_, ?_, ?_, ?_⟩
  · rw [merged.get_other (by decide) (by decide), lookup_version]
  · intro key not_version not_passwd not_storage
    rw [merged.get_other not_passwd not_storage, lookup_versioned not_version]
  · refine ⟨_, (arrayAt passwd "users").map (mergeEntry users), _, merged.get_passwd, ?_, ?_, ?_, rfl, ?_⟩
    · intro key other
      rw [lookup_insert_member, if_neg other]
    · rw [lookup_insert_member, if_pos rfl]
      rfl
    · refine List.forall₂_map_right_iff.mpr (List.forall₂_same.mpr fun entry listed => ?_)
      exact kept_user names (build_users_keys metadata) (typed.keys entry listed)
    · intro user listed
      have there := (merged_users_names users (arrayAt passwd "users") user.name).mpr
        (.inr (List.mem_map.mpr ⟨user, listed, rfl⟩))
      exact List.mem_filterMap.mp there
  · have lookup_storage : ∀ key, (mapMember "files" normalFiles (.object (insertMember "files"
        (addHostname metadata.hostname (.array (arrayAt storage "files"))) storage))).get? key =
          if key = "files" then
            some (normalFiles (addHostname metadata.hostname (.array (arrayAt storage "files"))))
          else storage.lookup key := by
      intro key
      rw [get_map_member]
      change (if key = "files" then ((insertMember "files" _ storage).lookup "files").map normalFiles
        else (insertMember "files" _ storage).lookup key) = _
      split
      · rw [lookup_insert_member, if_pos rfl, Option.map_some]
      · rename_i other
        rw [lookup_insert_member, if_neg other]
    refine ⟨_, (arrayAt storage "files").map (mapMember "contents" normalizeContents),
      merged.get_storage, ?_, ?_, ?_⟩
    · intro key other
      exact (lookup_storage key).trans (if_neg other)
    · refine (lookup_storage "files").trans ?_
      rw [if_pos rfl, normal_add_hostname]
    · refine List.forall₂_map_right_iff.mpr (List.forall₂_same.mpr fun file listed => ?_)
      exact kept_file ((ordered.object_at "storage").array_at "files" file listed)

/-! ## An empty base -/

theorem build_users_ne_nil {metadata : HostMetadata}
    (someone : metadata.publicKeys ≠ [] ∨ metadata.cloudConfig.users ≠ []) :
    buildIgnitionUsers metadata ≠ [] := by
  have kept : ∀ (users : List CloudConfigUser) (built : List IgnitionUser × List String),
      built.1 ≠ [] → (users.foldl addIdentityUser built).1 ≠ [] := by
    intro users
    induction users with
    | nil => exact fun built there => there
    | cons user rest step =>
      rintro ⟨entries, seen⟩ there
      refine step _ ?_
      rw [addIdentityUser]
      split
      · rw [Ne, ← List.length_eq_zero_iff, List.length_modify, List.length_eq_zero_iff]
        exact there
      · exact List.append_ne_nil_of_right_ne_nil _ (List.cons_ne_nil _ _)
  rw [buildIgnitionUsers]
  cases keys : metadata.publicKeys with
  | cons own others => exact kept _ _ (List.cons_ne_nil _ _)
  | nil =>
    cases users : metadata.cloudConfig.users with
    | cons user rest => exact kept rest _ (List.cons_ne_nil _ _)
    | nil => exact absurd someone (by simp [keys, users])

/-- A list of users without base users is just added. -/
theorem merge_users_new (users : List IgnitionUser) :
    mergeUsers users (.array []) = .ok (.array (users.map IgnitionUser.toValue)) := by
  have added : ∀ (users : List IgnitionUser) (items : List Json),
      users.foldlM (mergeUser []) items = .ok (items ++ users.map IgnitionUser.toValue) := by
    intro users
    induction users with
    | nil =>
      intro items
      rw [List.map_nil, List.append_nil]
      rfl
    | cons user rest step =>
      intro items
      rw [List.foldlM_cons, mergeUser, if_neg List.not_mem_nil]
      refine (step (items ++ [user.toValue])).trans ?_
      rw [List.append_assoc]
      rfl
  rw [mergeUsers, List.filterMap_nil, added, List.nil_append]
  rfl

theorem canonical_user (user : IgnitionUser) : (Json.object user.fields).canonical = user.toValue := by
  have flat : ∀ entry ∈ user.fields, entry.2.canonical = entry.2 :=
    @user_field (fun value => value.canonical = value) (fun _ => rfl) (fun _ => rfl)
      canonical_strings user
  have same : user.fields.map (fun entry => (entry.1, entry.2.canonical)) = user.fields :=
    (List.map_congr_left fun entry listed => by rw [flat entry listed]; rfl).trans (List.map_id _)
  rw [canonical, canonical_members_eq, same, IgnitionUser.toValue]

theorem canonical_hostname_file (fqdn : String) :
    (IgnitionFile.serialize ⟨"/etc/hostname", some 420, some true, ⟨dataUri fqdn⟩⟩).canonical =
      hostnameFile fqdn := by
  rw [IgnitionFile.serialize, canonical, canonical_members_eq]
  rfl

/-- The generated config as a map. -/
theorem canonical_generated {metadata : HostMetadata}
    (someone : metadata.publicKeys ≠ [] ∨ metadata.cloudConfig.users ≠ []) :
    (generatedConfig metadata).serialize.canonical =
      .object (passedMembers [] [] []
        (.array ((buildIgnitionUsers metadata).map IgnitionUser.toValue))
        (.array [hostnameFile metadata.hostname])) := by
  let entries := (buildIgnitionUsers metadata).map fun user => Json.object user.fields
  have listed : listField "users" entries = [("users", .array entries)] := by
    refine if_neg fun empty => build_users_ne_nil someone ?_
    exact List.map_eq_nil_iff.mp (List.isEmpty_iff.mp empty)
  have users : (Json.object [("users", .array entries)]).canonical =
      .object [("users", .array ((buildIgnitionUsers metadata).map IgnitionUser.toValue))] := by
    have each : entries.map canonical = (buildIgnitionUsers metadata).map IgnitionUser.toValue := by
      rw [List.map_map]
      exact List.map_congr_left fun user _ => canonical_user user
    rw [canonical, canonicalMembers, canonicalMembers, canonical, canonical_items_eq, each]
    rfl
  let file : IgnitionFile := ⟨"/etc/hostname", some 420, some true, ⟨dataUri metadata.hostname⟩⟩
  have files : (Json.object [("files", .array [file.serialize])]).canonical =
      .object [("files", .array [hostnameFile metadata.hostname])] := by
    rw [canonical, canonicalMembers, canonicalMembers, canonical, canonicalItems, canonicalItems,
      canonical_hostname_file]
    rfl
  have version : (Json.object [("version", .string "3.4.0")]).canonical =
      ofEntries [("version", .string "3.4.0")] := by
    rw [canonical, canonical_members_eq]
    rfl
  have serialized : (generatedConfig metadata).serialize =
      .object [("ignition", .object [("version", .string "3.4.0")]),
        ("passwd", .object (listField "users" entries)),
        ("storage", .object [("files", .array [file.serialize])])] := rfl
  rw [serialized, listed, canonical, canonicalMembers, canonicalMembers, canonicalMembers,
    canonicalMembers, version, users, files, ofEntries, passedMembers]
  simp only [List.foldl_cons, List.foldl_nil]
  rfl

/-- **A host with an empty base gets what one without a base gets.** -/
theorem merge_empty_eq_generate {metadata : HostMetadata}
    (someone : metadata.publicKeys ≠ [] ∨ metadata.cloudConfig.users ≠ []) :
    mergedConfig (.object []) metadata = .ok (generatedConfig metadata).serialize.canonical := by
  let users : List Json := (buildIgnitionUsers metadata).map IgnitionUser.toValue
  let members := passedMembers [] [] [] (.array users) (.array [hostnameFile metadata.hostname])
  -- nothing is left to be brought into form
  have ordered : (Json.object members).Ordered := by
    have users_ordered : (Json.array users).Ordered := by
      refine .array fun item listed => ?_
      obtain ⟨user, -, rfl⟩ := List.mem_map.mp listed
      exact ordered_to_value user
    have files_ordered : (Json.array [hostnameFile metadata.hostname]).Ordered := by
      refine .array fun item listed => ?_
      rw [List.mem_singleton.mp listed]
      exact ordered_hostname_file _
    exact ((ordered_versioned ordered_no_members).insert
      (ordered_no_members.insert users_ordered)).insert (ordered_no_members.insert files_ordered)
  have normal : normalizeFileContents (.object members) = .object members := by
    have storage_held : members.lookup "storage" =
        some (.object [("files", .array [hostnameFile metadata.hostname])]) :=
      (lookup_insert_member _ _ _ _).trans (if_pos rfl)
    refine map_member_same ordered fun storage held => ?_
    obtain rfl := Option.some.inj (storage_held.symm.trans held)
    refine map_member_same (ordered.member storage_held) fun files held => ?_
    obtain rfl : Json.array [hostnameFile metadata.hostname] = files := Option.some.inj held
    exact normal_add_hostname metadata.hostname []
  have merged : Merged metadata [] [] [] (.array users) (.array [hostnameFile metadata.hostname])
      (.object members) := {
    passwd_is := rfl
    storage_is := rfl
    users_are := merge_users_new _
    files_are := rfl
    config_is := normal.symm }
  rw [canonical_generated someone]
  exact merged_config_of (.inr rfl) merged

theorem merge_empty_eq_generate_pod : mergedConfig (.object []) (podMetadata []) =
    .ok (generatedConfig (podMetadata [])).serialize.canonical :=
  merge_empty_eq_generate (.inl (List.cons_ne_nil _ _))

section Sample

attribute [local instance] prettyText

theorem merge_ignition_adds_owner : ∃ config,
    mergeIgnition (.object ownerBase) (podMetadata []) = .ok (Serialize.toStringPretty config) ∧
      AddsIdentity (podMetadata []) ownerBase config := by
  refine merge_ignition_adds_identity (by decide) owner_base_ordered ⟨?_, ?_, ?_, nofun, nofun⟩
  · intro value held
    cases held
    exact ⟨_, rfl⟩
  · intro value held
    cases held
    exact ⟨_, rfl⟩
  · intro entry listed value held
    rw [List.mem_singleton.mp listed] at held
    cases held

end Sample

end CloudId
