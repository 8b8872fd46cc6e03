import CloudId.IgnitionProofs
import CloudId.IgnitionUsers
import CloudId.Library.JsonObjects

/-! What `merge_ignition` makes of a base. It runs four passes over one JSON value; here
each pass is described by what the objects on its path hold afterwards, and the users that
the second pass leaves are given outright: the entries of the base in order, each with the
keys of the identity user of its name, and then the new users. -/
namespace CloudId
open Effects Json

/-! ## Keys -/

/-- Adds the keys that an array does not have yet; another value stays. -/
def addUnknown (newKeys : List String) : Json → Except Panic Json
  | .array keys =>
    .ok (.array (keys ++ (newKeys.filter fun key => key ∉ keys.filterMap asStr).map string))
  | other => .ok other

theorem merge_ssh_keys_some {user : IgnitionUser} {newKeys : List String}
    (keys : user.sshAuthorizedKeys = some newKeys) (existing : Json) :
    mergeSshKeys existing user =
      changeEntry "sshAuthorizedKeys" (.array []) (addUnknown newKeys) existing := by
  rw [mergeSshKeys, keys]
  rfl

theorem strings_known (keys : List String) : (keys.map string).filterMap asStr = keys := by
  rw [List.filterMap_map]
  exact List.filterMap_some

/-- Adding the keys once more adds nothing. -/
theorem add_unknown_again {newKeys : List String} {value changed : Json}
    (added : addUnknown newKeys value = .ok changed) : addUnknown newKeys changed = .ok changed := by
  cases value with
  | array keys =>
    cases added
    have none_left : newKeys.filter (fun key => key ∉ (keys ++ (newKeys.filter
        fun key => key ∉ keys.filterMap asStr).map string).filterMap asStr) = [] := by
      rw [List.filterMap_append, strings_known, List.filter_eq_nil_iff]
      intro key listed
      by_cases known : key ∈ keys.filterMap asStr
      · simp [known]
      · have added : key ∈ newKeys.filter fun key => key ∉ keys.filterMap asStr :=
          List.mem_filter.mpr ⟨listed, decide_eq_true known⟩
        exact fun lost => of_decide_eq_true lost (List.mem_append_right _ added)
    rw [addUnknown, none_left, List.map_nil, List.append_nil]
  | _ =>
    cases added
    rfl

/-- The entry of a base user after the merge of an identity user of its name. -/
def keyed (existing : Json) (user : IgnitionUser) : Json :=
  match mergeSshKeys existing user with
  | .ok entry => entry
  | .error _ => existing

theorem merge_ssh_keys_eq {existing : Json} {name : String}
    (named : textMember existing "name" = some name) (user : IgnitionUser) :
    mergeSshKeys existing user = .ok (keyed existing user) := by
  obtain ⟨entry, merged⟩ := merge_ssh_keys_ok (object_of_text_member named) user
  rw [keyed, merged]

theorem keyed_get (existing : Json) (user : IgnitionUser) {key : String}
    (other : key ≠ "sshAuthorizedKeys") : (keyed existing user).get? key = existing.get? key := by
  rw [keyed]
  split
  · rename_i entry merged
    rw [mergeSshKeys] at merged
    split at merged
    · obtain ⟨members, value, rfl, -, rfl⟩ := change_entry_eq_ok merged
      change (insertMember "sshAuthorizedKeys" value members).lookup key = members.lookup key
      rw [lookup_insert_member, if_neg other]
    · cases merged
      rfl
  · rfl

theorem keyed_name (existing : Json) (user : IgnitionUser) :
    textMember (keyed existing user) "name" = textMember existing "name" := by
  rw [textMember, textMember, keyed_get existing user (by decide)]

/-- Merging the keys once more changes nothing. -/
theorem keyed_again {existing : Json} (ordered : existing.Ordered) (user : IgnitionUser) :
    keyed (keyed existing user) user = keyed existing user := by
  have settled : ∀ {entry : Json}, mergeSshKeys existing user = .ok entry →
      mergeSshKeys entry user = .ok entry := by
    intro entry merged
    cases keys : user.sshAuthorizedKeys with
    | none =>
      rw [mergeSshKeys, keys]
    | some newKeys =>
      rw [merge_ssh_keys_some keys] at merged ⊢
      obtain ⟨members, value, rfl, added, rfl⟩ := change_entry_eq_ok merged
      refine change_entry_same (sorted_insert_member ordered.sorted _ _) ?_ (add_unknown_again added)
      rw [lookup_insert_member, if_pos rfl]
  cases merged : mergeSshKeys existing user with
  | ok entry =>
    have same : keyed existing user = entry := by rw [keyed, merged]
    rw [same, keyed, settled merged]
  | error panic =>
    have same : keyed existing user = existing := by rw [keyed, merged]
    rw [same, same]

/-! ## Users -/

/-- The entry of a base user after the merge of all identity users. -/
def mergeEntry (users : List IgnitionUser) (existing : Json) : Json :=
  match users.find? fun user => textMember existing "name" = some user.name with
  | some user => keyed existing user
  | none => existing

theorem merge_entry_name (users : List IgnitionUser) (existing : Json) :
    textMember (mergeEntry users existing) "name" = textMember existing "name" := by
  rw [mergeEntry]
  split
  · exact keyed_name existing _
  · rfl

theorem optional_field_key {own key : String} (differs : own ≠ key) (value : Option Json) :
    ∀ entry ∈ optionalField own value, entry.1 ≠ key := by
  intro entry listed
  obtain ⟨-, -, rfl⟩ := List.mem_map.mp listed
  exact differs

theorem to_value_name (user : IgnitionUser) :
    textMember user.toValue "name" = some user.name := by
  have shape : user.fields = [] ++ ("name", .string user.name) ::
      (optionalField "uid" (user.uid.map unsigned) ++
        optionalField "groups" (user.groups.map strings) ++
        optionalField "shell" (user.shell.map string) ++
        optionalField "homeDir" (user.homeDir.map string) ++
        optionalField "sshAuthorizedKeys" (user.sshAuthorizedKeys.map strings) ++
        optionalField "passwordHash" (user.passwordHash.map string)) := rfl
  rw [textMember, IgnitionUser.toValue, shape, lookup_of_entries]
  · rfl
  · intro entry listed
    simp only [List.mem_append] at listed
    rcases listed with ((((listed | listed) | listed) | listed) | listed) | listed
    all_goals exact optional_field_key (by decide) _ entry listed

theorem to_value_keys {user : IgnitionUser} {keys : List String}
    (held : user.sshAuthorizedKeys = some keys) :
    user.toValue.get? "sshAuthorizedKeys" = some (strings keys) := by
  have shape : user.fields = ([("name", .string user.name)] ++
      optionalField "uid" (user.uid.map unsigned) ++
      optionalField "groups" (user.groups.map strings) ++
      optionalField "shell" (user.shell.map string) ++
      optionalField "homeDir" (user.homeDir.map string)) ++ ("sshAuthorizedKeys", strings keys) ::
        optionalField "passwordHash" (user.passwordHash.map string) := by
    rw [IgnitionUser.fields, held]
    simp only [List.append_assoc]
    rfl
  rw [IgnitionUser.toValue, shape, lookup_of_entries (optional_field_key (by decide) _)]

/-- What holds of texts, numbers and lists of texts holds of what a user's fields are. -/
theorem user_field {Shape : Json → Prop} (text : ∀ own, Shape (.string own))
    (number : ∀ n, Shape (unsigned n)) (texts : ∀ items, Shape (strings items))
    (user : IgnitionUser) : ∀ entry ∈ user.fields, Shape entry.2 := by
  intro entry listed
  have optional : ∀ {α : Type} {own : String} (value : Option α) (make : α → Json),
      (∀ a, Shape (make a)) → entry ∈ optionalField own (value.map make) → Shape entry.2 := by
    intro α own value make shaped listed
    obtain ⟨held, there, rfl⟩ := List.mem_map.mp listed
    obtain ⟨a, -, rfl⟩ := Option.map_eq_some_iff.mp (Option.mem_toList.mp there)
    exact shaped a
  simp only [IgnitionUser.fields, List.mem_append, List.mem_singleton] at listed
  rcases listed with (((((rfl | listed) | listed) | listed) | listed) | listed) | listed
  · exact text _
  · exact optional _ _ number listed
  · exact optional _ _ texts listed
  · exact optional _ _ text listed
  · exact optional _ _ text listed
  · exact optional _ _ texts listed
  · exact optional _ _ text listed

theorem ordered_to_value (user : IgnitionUser) : user.toValue.Ordered :=
  ordered_of_entries (user_field .string (fun _ => .number _) ordered_strings user)

/-- The keys that a new user came with are not added to it again. -/
theorem keyed_to_value (user : IgnitionUser) : keyed user.toValue user = user.toValue := by
  have merged : mergeSshKeys user.toValue user = .ok user.toValue := by
    cases keys : user.sshAuthorizedKeys with
    | none => rw [mergeSshKeys, keys]
    | some newKeys =>
      rw [merge_ssh_keys_some keys]
      refine change_entry_same (ordered_to_value user).sorted (to_value_keys keys) ?_
      have none_left : newKeys.filter (fun key => key ∉ (newKeys.map string).filterMap asStr) = [] := by
        rw [strings_known, List.filter_eq_nil_iff]
        exact fun key listed lost => of_decide_eq_true lost listed
      rw [strings, addUnknown, none_left, List.map_nil, List.append_nil]
  rw [keyed, merged]

/-- The users of a merge: those of the base with their keys, and the new ones. -/
def mergedUsers (users : List IgnitionUser) (items : List Json) : List Json :=
  items.map (mergeEntry users) ++
    (users.filter fun user => user.name ∉ items.filterMap (textMember · "name")).map
      IgnitionUser.toValue

theorem mapM_eq_ok {α β : Type} {f : α → Except Panic β} {g : α → β} {items : List α}
    (each : ∀ item ∈ items, f item = .ok (g item)) : items.mapM f = .ok (items.map g) := by
  induction items with
  | nil => rfl
  | cons item rest step =>
    rw [List.mapM_cons, each item List.mem_cons_self,
      step fun other listed => each other (List.mem_cons_of_mem _ listed)]
    rfl

theorem merge_entry_of_absent {users : List IgnitionUser} {existing : Json} {name : String}
    (named : textMember existing "name" = some name) (absent : name ∉ users.map IgnitionUser.name) :
    mergeEntry users existing = existing := by
  rw [mergeEntry, List.find?_eq_none.mpr]
  intro user listed same
  rw [named] at same
  have same_name : name = user.name := Option.some.inj (of_decide_eq_true same)
  exact absent (List.mem_map.mpr ⟨user, listed, same_name.symm⟩)

theorem merge_entry_append (users : List IgnitionUser) (user : IgnitionUser) {existing : Json}
    (other : textMember existing "name" ≠ some user.name) :
    mergeEntry (users ++ [user]) existing = mergeEntry users existing := by
  have none_found : [user].find? (fun user => textMember existing "name" = some user.name) = none := by
    rw [List.find?_eq_none]
    intro own listed
    rw [List.mem_singleton.mp listed]
    simpa using other
  rw [mergeEntry, mergeEntry, List.find?_append, none_found, Option.or_none]

theorem merge_entry_own {users : List IgnitionUser} {user : IgnitionUser} {existing : Json}
    (absent : user.name ∉ users.map IgnitionUser.name)
    (named : textMember existing "name" = some user.name) :
    mergeEntry (users ++ [user]) existing = keyed existing user := by
  have none_before : users.find? (fun user => textMember existing "name" = some user.name) = none := by
    rw [List.find?_eq_none]
    intro own listed same
    rw [named] at same
    have same_name : user.name = own.name := Option.some.inj (of_decide_eq_true same)
    exact absent (List.mem_map.mpr ⟨own, listed, same_name.symm⟩)
  rw [mergeEntry, List.find?_append, none_before, Option.none_or, List.find?_cons, named,
    decide_eq_true rfl]

/-- One turn of the loop over the identity users. -/
theorem merge_user_eq {users : List IgnitionUser} {user : IgnitionUser} (items : List Json)
    (absent : user.name ∉ users.map IgnitionUser.name) :
    mergeUser (items.filterMap (textMember · "name")) (mergedUsers users items) user =
      .ok (mergedUsers (users ++ [user]) items) := by
  by_cases known : user.name ∈ items.filterMap (textMember · "name")
  · -- a user of the base: the keys go to the entries of its name
    have keys : ∀ entry ∈ mergedUsers users items,
        (if textMember entry "name" = some user.name then mergeSshKeys entry user else .ok entry) =
          .ok (if textMember entry "name" = some user.name then keyed entry user else entry) := by
      intro entry _
      split
      · rename_i named
        exact merge_ssh_keys_eq named user
      · rfl
    rw [mergeUser, if_pos known, mapM_eq_ok keys, mergedUsers, mergedUsers, List.map_append,
      List.map_map, List.map_map, List.filter_append]
    have no_new : [user].filter (fun user => user.name ∉ items.filterMap (textMember · "name")) = [] := by
      rw [List.filter_eq_nil_iff]
      intro own listed
      rw [List.mem_singleton.mp listed]
      exact fun new => of_decide_eq_true new known
    rw [no_new, List.append_nil]
    congr 2
    · refine List.map_congr_left fun entry _ => ?_
      rw [Function.comp, merge_entry_name]
      split
      · rename_i named
        rw [merge_entry_own absent named, merge_entry_of_absent named absent]
      · rename_i other
        rw [merge_entry_append users user other]
    · refine List.map_congr_left fun own listed => ?_
      have new : own.name ∉ items.filterMap (textMember · "name") :=
        of_decide_eq_true (List.mem_filter.mp listed).2
      have other : own.name ≠ user.name := fun same => new (same ▸ known)
      rw [Function.comp, to_value_name, if_neg (fun same => other (Option.some.inj same))]
  · -- a new user
    have new : [user].filter (fun user => user.name ∉ items.filterMap (textMember · "name")) = [user] := by
      rw [List.filter_eq_self]
      intro own listed
      rw [List.mem_singleton.mp listed]
      exact decide_eq_true known
    rw [mergeUser, if_neg known, mergedUsers, mergedUsers, List.filter_append, new, List.map_append,
      List.append_assoc]
    congr 2
    refine List.map_congr_left fun entry listed => ?_
    refine (merge_entry_append users user fun named => known ?_).symm
    exact List.mem_filterMap.mpr ⟨entry, listed, named⟩

/-- **Merging the users** leaves the entries of the base with their keys, and adds the new
users. -/
theorem merge_users_eq {users : List IgnitionUser} (distinct : (users.map IgnitionUser.name).Nodup)
    (items : List Json) : mergeUsers users (.array items) = .ok (.array (mergedUsers users items)) := by
  have folded : ∀ todo done : List IgnitionUser, ((done ++ todo).map IgnitionUser.name).Nodup →
      todo.foldlM (mergeUser (items.filterMap (textMember · "name"))) (mergedUsers done items) =
        .ok (mergedUsers (done ++ todo) items) := by
    intro todo
    induction todo with
    | nil =>
      intro done _
      rw [List.append_nil]
      rfl
    | cons user rest step =>
      intro done distinct
      have absent : user.name ∉ done.map IgnitionUser.name := by
        rw [List.map_append, List.map_cons] at distinct
        exact fun listed => List.disjoint_of_nodup_append distinct listed List.mem_cons_self
      rw [List.foldlM_cons, merge_user_eq items absent]
      have later := step (done ++ [user]) (by rwa [List.append_assoc])
      rw [List.append_assoc] at later
      exact later
  have start : mergedUsers [] items = items := by
    have unmerged : mergeEntry [] = id := rfl
    rw [mergedUsers, unmerged, List.map_id, List.filter_nil, List.map_nil, List.append_nil]
  have whole := folded users [] distinct
  rw [start, List.nil_append] at whole
  rw [mergeUsers, whole]
  rfl

/-! ## The passes -/

theorem users_merged {metadata : HostMetadata}
    (distinct : (metadata.publicKeys.map PublicKeyEntry.sshUser).Nodup) (items : List Json) :
    mergeUsers (buildIgnitionUsers metadata) (.array items) =
      .ok (.array (mergedUsers (buildIgnitionUsers metadata) items)) :=
  merge_users_eq (build_names metadata distinct).1 items

/-- Adds an entry for the hostname to files that have none. -/
def addHostname (fqdn : String) : Json → Json
  | .array files =>
    .array (if files.any fun file => textMember file "path" = some "/etc/hostname" then files
      else files ++ [hostnameFile fqdn])
  | other => other

theorem ensure_hostname_file_eq (config : Json) (fqdn : String) :
    ensureHostnameFile config fqdn = changeEntry "storage" (.object [])
      (changeEntry "files" (.array []) fun files => .ok (addHostname fqdn files)) config := by
  rw [ensureHostnameFile]
  congr 2
  funext files
  cases files with
  | array files =>
    dsimp only [addHostname]
    split
    · rfl
    · rfl
  | _ => rfl

/-- The files in the form that Ignition takes. -/
def normalFiles : Json → Json
  | .array files => .array (files.map (mapMember "contents" normalizeContents))
  | other => other

theorem normalize_file_contents_eq (config : Json) :
    normalizeFileContents config = mapMember "storage" (mapMember "files" normalFiles) config := rfl

/-- The members before the files are brought into their form. -/
def passedMembers (members passwd storage : List (String × Json)) (users files : Json) :
    List (String × Json) :=
  insertMember "storage" (.object (insertMember "files" files storage))
    (insertMember "passwd" (.object (insertMember "users" users passwd)) (versionedMembers members))

/-- What the four passes make of the members of a base. -/
structure Merged (metadata : HostMetadata) (members passwd storage : List (String × Json))
    (users files config : Json) : Prop where
  passwd_is : (members.lookup "passwd").getD (.object []) = .object passwd
  storage_is : (members.lookup "storage").getD (.object []) = .object storage
  users_are : mergeUsers (buildIgnitionUsers metadata) ((passwd.lookup "users").getD (.array [])) =
    .ok users
  files_are : files = addHostname metadata.hostname ((storage.lookup "files").getD (.array []))
  config_is : config = normalizeFileContents (.object (passedMembers members passwd storage users files))

section Passes

variable {metadata : HostMetadata} {base config users files : Json}
  {members passwd storage : List (String × Json)}

theorem lookup_with_passwd {key : String} (not_passwd : key ≠ "passwd") (not_version : key ≠ "ignition")
    (entry : Json) (members : List (String × Json)) :
    (insertMember "passwd" entry (versionedMembers members)).lookup key = members.lookup key := by
  rw [lookup_insert_member, if_neg not_passwd, lookup_versioned not_version]

theorem merged_config_inv (merged : mergedConfig base metadata = .ok config) :
    ∃ members passwd storage users files, BaseMembers base members ∧
      Merged metadata members passwd storage users files config := by
  simp only [mergedConfig, except_bind_eq_ok] at merged
  obtain ⟨_, ensured, withUsers, usersAdded, withFile, fileAdded, normal⟩ := merged
  obtain ⟨members, held, rfl⟩ := ensure_version_ok_iff.mp ensured
  obtain ⟨_, passwdEntry, ⟨⟩, passwdChanged, rfl⟩ := change_entry_eq_ok usersAdded
  obtain ⟨passwd, users, passwdIs, usersMerged, rfl⟩ := change_entry_eq_ok passwdChanged
  rw [ensure_hostname_file_eq] at fileAdded
  obtain ⟨_, storageEntry, ⟨⟩, storageChanged, rfl⟩ := change_entry_eq_ok fileAdded
  obtain ⟨storage, files, storageIs, filesMade, rfl⟩ := change_entry_eq_ok storageChanged
  rw [lookup_versioned (by decide)] at passwdIs
  rw [lookup_with_passwd (by decide) (by decide)] at storageIs
  exact ⟨members, passwd, storage, users, files, held, passwdIs, storageIs, usersMerged,
    (Except.ok.inj filesMade).symm, (Except.ok.inj normal).symm⟩

theorem merged_config_of (held : BaseMembers base members)
    (merged : Merged metadata members passwd storage users files config) :
    mergedConfig base metadata = .ok config := by
  have ensured := ensure_version_ok_iff.mpr ⟨members, held, rfl⟩
  have usersAdded : changeEntry "passwd" (.object [])
      (changeEntry "users" (.array []) (mergeUsers (buildIgnitionUsers metadata)))
      (.object (versionedMembers members)) = .ok (.object
        (insertMember "passwd" (.object (insertMember "users" users passwd))
          (versionedMembers members))) := by
    rw [changeEntry, lookup_versioned (by decide), merged.passwd_is, changeEntry, merged.users_are]
  have fileAdded : ensureHostnameFile (.object
      (insertMember "passwd" (.object (insertMember "users" users passwd))
        (versionedMembers members))) metadata.hostname =
      .ok (.object (passedMembers members passwd storage users files)) := by
    rw [ensure_hostname_file_eq, changeEntry, lookup_with_passwd (by decide) (by decide),
      merged.storage_is, changeEntry, ← merged.files_are]
    rfl
  simp only [mergedConfig, except_bind_eq_ok]
  exact ⟨_, ensured, _, usersAdded, _, fileAdded, congrArg Except.ok merged.config_is.symm⟩

/-! ### What the result holds -/

theorem Merged.get_passwd (merged : Merged metadata members passwd storage users files config) :
    config.get? "passwd" = some (.object (insertMember "users" users passwd)) := by
  rw [merged.config_is, normalize_file_contents_eq, get_map_member, if_neg (by decide)]
  change (passedMembers members passwd storage users files).lookup "passwd" = _
  rw [passedMembers, lookup_insert_member, if_neg (by decide), lookup_insert_member, if_pos rfl]

theorem Merged.get_storage (merged : Merged metadata members passwd storage users files config) :
    config.get? "storage" =
      some (mapMember "files" normalFiles (.object (insertMember "files" files storage))) := by
  rw [merged.config_is, normalize_file_contents_eq, get_map_member, if_pos rfl]
  change ((passedMembers members passwd storage users files).lookup "storage").map _ = _
  rw [passedMembers, lookup_insert_member, if_pos rfl, Option.map_some]

/-- The other members are those of the base, with the version that it may have lacked. -/
theorem Merged.get_other (merged : Merged metadata members passwd storage users files config)
    {key : String} (not_passwd : key ≠ "passwd") (not_storage : key ≠ "storage") :
    config.get? key = (versionedMembers members).lookup key := by
  rw [merged.config_is, normalize_file_contents_eq, get_map_member, if_neg not_storage]
  change (passedMembers members passwd storage users files).lookup key = _
  rw [passedMembers, lookup_insert_member, if_neg not_storage, lookup_insert_member,
    if_neg not_passwd]

theorem lookup_version (members : List (String × Json)) :
    (versionedMembers members).lookup "ignition" = some ((members.lookup "ignition").getD
      (ofEntries [("version", .string "3.4.0")])) := by
  rw [versionedMembers]
  split
  · rename_i version held
    rw [held, Option.getD_some]
  · rename_i absent
    rw [lookup_insert_member, if_pos rfl, absent, Option.getD_none]

end Passes

/-! ## Key order -/

theorem ordered_keyed {existing : Json} (ordered : existing.Ordered) (user : IgnitionUser) :
    (keyed existing user).Ordered := by
  rw [keyed]
  split
  · rename_i entry merged
    cases keys : user.sshAuthorizedKeys with
    | none =>
      rw [mergeSshKeys, keys] at merged
      cases merged
      exact ordered
    | some newKeys =>
      rw [merge_ssh_keys_some keys] at merged
      refine ordered.change_entry ordered_no_items ?_ merged
      intro own changed ordered added
      cases own with
      | array keys =>
        cases added
        refine .array fun item listed => ?_
        rcases List.mem_append.mp listed with listed | listed
        · exact ordered.items item listed
        · obtain ⟨text, -, rfl⟩ := List.mem_map.mp listed
          exact .string text
      | _ =>
        cases added
        exact ordered
  · exact ordered

theorem ordered_merged_users {users : List IgnitionUser} {items : List Json}
    (ordered : ∀ item ∈ items, item.Ordered) : ∀ item ∈ mergedUsers users items, item.Ordered := by
  intro item listed
  rcases List.mem_append.mp listed with listed | listed
  · obtain ⟨existing, there, rfl⟩ := List.mem_map.mp listed
    rw [mergeEntry]
    split
    · exact ordered_keyed (ordered existing there) _
    · exact ordered existing there
  · obtain ⟨user, -, rfl⟩ := List.mem_map.mp listed
    exact ordered_to_value user

theorem ordered_hostname_file (fqdn : String) : (hostnameFile fqdn).Ordered := by
  refine ordered_of_entries fun entry listed => ?_
  simp only [List.mem_cons, List.not_mem_nil, or_false] at listed
  rcases listed with rfl | rfl | rfl | rfl
  · exact .string _
  · exact .number _
  · exact .bool _
  · refine ordered_of_entries fun own there => ?_
    rw [List.mem_singleton.mp there]
    exact .string _

theorem ordered_add_hostname {files : Json} (ordered : files.Ordered) (fqdn : String) :
    (addHostname fqdn files).Ordered := by
  cases files with
  | array files =>
    rw [addHostname]
    split
    · exact ordered
    · refine .array fun file listed => ?_
      rcases List.mem_append.mp listed with listed | listed
      · exact ordered.items file listed
      · rw [List.mem_singleton.mp listed]
        exact ordered_hostname_file fqdn
  | _ => exact ordered

theorem ordered_normalize_contents {contents : Json} (ordered : contents.Ordered) :
    (normalizeContents contents).Ordered := by
  cases contents with
  | object members =>
    rw [normalizeContents]
    split
    · dsimp only
      split
      · exact (ordered.remove "inline").insert (.string _)
      · exact ordered.remove "inline"
    · exact ordered
  | _ => exact ordered

theorem ordered_normal_files {files : Json} (ordered : files.Ordered) :
    (normalFiles files).Ordered := by
  cases files with
  | array files =>
    refine .array fun file listed => ?_
    obtain ⟨own, there, rfl⟩ := List.mem_map.mp listed
    exact (ordered.items own there).map_member ordered_normalize_contents
  | _ => exact ordered

section Ordered

variable {metadata : HostMetadata} {base config users files : Json}
  {members passwd storage : List (String × Json)}

theorem ordered_members (ordered : base.Ordered) (held : BaseMembers base members) :
    (Json.object members).Ordered := by
  rcases held with ⟨-, rfl⟩ | rfl
  · exact ordered_no_members
  · exact ordered

/-- The objects on the path of the merge keep the key order. -/
structure MergedOrdered (passwd storage : List (String × Json)) (users files : Json) : Prop where
  passwd_ordered : (Json.object passwd).Ordered
  storage_ordered : (Json.object storage).Ordered
  users_ordered : users.Ordered
  files_ordered : files.Ordered

theorem Merged.ordered (merged : Merged metadata members passwd storage users files config)
    (distinct : (metadata.publicKeys.map PublicKeyEntry.sshUser).Nodup)
    (ordered : (Json.object members).Ordered) : MergedOrdered passwd storage users files where
  passwd_ordered := by
    rw [← merged.passwd_is]
    exact ordered.entry_or _ ordered_no_members
  storage_ordered := by
    rw [← merged.storage_is]
    exact ordered.entry_or _ ordered_no_members
  users_ordered := by
    have passwd_ordered : (Json.object passwd).Ordered := by
      rw [← merged.passwd_is]
      exact ordered.entry_or _ ordered_no_members
    have users_are := merged.users_are
    have own : ((passwd.lookup "users").getD (.array [])).Ordered :=
      passwd_ordered.entry_or _ ordered_no_items
    cases held : (passwd.lookup "users").getD (.array []) with
    | array items =>
      rw [held] at users_are own
      rw [users_merged distinct] at users_are
      cases users_are
      exact .array (ordered_merged_users own.items)
    | _ =>
      rw [held] at users_are own
      cases users_are
      exact own
  files_ordered := by
    have storage_ordered : (Json.object storage).Ordered := by
      rw [← merged.storage_is]
      exact ordered.entry_or _ ordered_no_members
    rw [merged.files_are]
    exact ordered_add_hostname (storage_ordered.entry_or _ ordered_no_items) _

theorem ordered_versioned (ordered : (Json.object members).Ordered) :
    (Json.object (versionedMembers members)).Ordered := by
  rw [versionedMembers]
  split
  · exact ordered
  · refine ordered.insert (ordered_of_entries fun entry listed => ?_)
    rw [List.mem_singleton.mp listed]
    exact .string _

/-- **Merging keeps the key order.** -/
theorem ordered_merged_config (ordered : base.Ordered)
    (distinct : (metadata.publicKeys.map PublicKeyEntry.sshUser).Nodup)
    (merged : mergedConfig base metadata = .ok config) : config.Ordered := by
  obtain ⟨members, passwd, storage, users, files, held, merged⟩ := merged_config_inv merged
  have members_ordered := ordered_members ordered held
  have parts := merged.ordered distinct members_ordered
  rw [merged.config_is, normalize_file_contents_eq]
  refine Ordered.map_member ?_ fun own => own.map_member ordered_normal_files
  exact ((ordered_versioned members_ordered).insert
    (parts.passwd_ordered.insert parts.users_ordered)).insert
      (parts.storage_ordered.insert parts.files_ordered)

end Ordered

/-! ## Merging again -/

theorem normalize_contents_again (contents : Json) :
    normalizeContents (normalizeContents contents) = normalizeContents contents := by
  cases contents with
  | object members =>
    rw [normalizeContents]
    split
    · dsimp only
      split
      · rw [normalizeContents, lookup_insert_member, if_neg (by decide), lookup_remove_member,
          if_pos rfl]
      · rw [normalizeContents, lookup_remove_member, if_pos rfl]
    · rename_i absent
      rw [normalizeContents, absent]
  | _ => rfl

theorem normal_files_again (files : Json) : normalFiles (normalFiles files) = normalFiles files := by
  cases files with
  | array files =>
    rw [normalFiles, normalFiles, List.map_map]
    congr 1
    exact List.map_congr_left fun file _ => map_member_idem normalize_contents_again "contents" file
  | _ => rfl

theorem normal_file_path (file : Json) :
    textMember (mapMember "contents" normalizeContents file) "path" = textMember file "path" := by
  rw [textMember, textMember, get_map_member, if_neg (by decide)]

theorem hostname_file_path (fqdn : String) :
    textMember (hostnameFile fqdn) "path" = some "/etc/hostname" := by
  have later : ∀ entry ∈ [("mode", unsigned 420), ("overwrite", .bool true),
      ("contents", ofEntries [("source", .string (dataUri fqdn))])], entry.1 ≠ "path" := by
    intro entry listed
    simp only [List.mem_cons, List.not_mem_nil, or_false] at listed
    rcases listed with rfl | rfl | rfl
    · exact (by decide : "mode" ≠ "path")
    · exact (by decide : "overwrite" ≠ "path")
    · exact (by decide : "contents" ≠ "path")
  have held := @lookup_of_entries "path" (.string "/etc/hostname") [] _ later
  rw [List.nil_append] at held
  rw [textMember, hostnameFile, held]
  rfl

/-- Files in their form that have the hostname get no other one. -/
theorem add_hostname_again (fqdn : String) (files : Json) :
    addHostname fqdn (normalFiles (addHostname fqdn files)) =
      normalFiles (addHostname fqdn files) := by
  cases files with
  | array files =>
    have has_hostname : ∀ files : List Json,
        (files.any fun file => textMember file "path" = some "/etc/hostname") = true →
        addHostname fqdn (normalFiles (.array files)) = normalFiles (.array files) := by
      intro files there
      obtain ⟨file, listed, named⟩ := List.any_eq_true.mp there
      have still : ((files.map (mapMember "contents" normalizeContents)).any fun file =>
          textMember file "path" = some "/etc/hostname") = true := by
        refine List.any_eq_true.mpr ⟨_, List.mem_map.mpr ⟨file, listed, rfl⟩, ?_⟩
        rwa [normal_file_path]
      rw [normalFiles, addHostname, if_pos still]
    rw [addHostname]
    split
    · rename_i there
      exact has_hostname files there
    · refine has_hostname _ (List.any_eq_true.mpr ⟨hostnameFile fqdn, ?_, ?_⟩)
      · exact List.mem_append_right _ List.mem_cons_self
      · rw [hostname_file_path]
        rfl
  | _ => rfl

theorem merged_users_names_eq (users : List IgnitionUser) (items : List Json) :
    (mergedUsers users items).filterMap (textMember · "name") =
      items.filterMap (textMember · "name") ++
        (users.filter fun user => user.name ∉ items.filterMap (textMember · "name")).map
          IgnitionUser.name := by
  have kept : (items.map (mergeEntry users)).filterMap (textMember · "name") =
      items.filterMap (textMember · "name") := by
    rw [List.filterMap_map]
    exact List.filterMap_congr fun existing _ => merge_entry_name users existing
  have new : ∀ added : List IgnitionUser,
      (added.map IgnitionUser.toValue).filterMap (textMember · "name") =
        added.map IgnitionUser.name := by
    intro added
    rw [List.filterMap_map, ← List.filterMap_eq_map]
    exact List.filterMap_congr fun user _ => to_value_name user
  rw [mergedUsers, List.filterMap_append, kept, new]

/-- The names that a merge leaves: those of the base and all identity users. -/
theorem merged_users_names (users : List IgnitionUser) (items : List Json) (name : String) :
    name ∈ (mergedUsers users items).filterMap (textMember · "name") ↔
      name ∈ items.filterMap (textMember · "name") ∨ name ∈ users.map IgnitionUser.name := by
  rw [merged_users_names_eq, List.mem_append]
  constructor
  · rintro (there | added)
    · exact .inl there
    · obtain ⟨user, listed, rfl⟩ := List.mem_map.mp added
      exact .inr (List.mem_map.mpr ⟨user, (List.mem_filter.mp listed).1, rfl⟩)
  · rintro (there | added)
    · exact .inl there
    · obtain ⟨user, listed, rfl⟩ := List.mem_map.mp added
      by_cases there : user.name ∈ items.filterMap (textMember · "name")
      · exact .inl there
      · exact .inr (List.mem_map.mpr
          ⟨user, List.mem_filter.mpr ⟨listed, decide_eq_true there⟩, rfl⟩)

theorem merged_users_again {users : List IgnitionUser}
    (distinct : (users.map IgnitionUser.name).Nodup) {items : List Json}
    (ordered : ∀ item ∈ items, item.Ordered) :
    mergedUsers users (mergedUsers users items) = mergedUsers users items := by
  have none_new : users.filter (fun user => user.name ∉
      (mergedUsers users items).filterMap (textMember · "name")) = [] := by
    rw [List.filter_eq_nil_iff]
    intro user listed new
    exact of_decide_eq_true new ((merged_users_names users items user.name).mpr
      (.inr (List.mem_map.mpr ⟨user, listed, rfl⟩)))
  have settled : ∀ entry ∈ mergedUsers users items, mergeEntry users entry = entry := by
    intro entry listed
    rcases List.mem_append.mp listed with listed | listed
    · obtain ⟨existing, there, rfl⟩ := List.mem_map.mp listed
      rw [mergeEntry, merge_entry_name, mergeEntry]
      split
      · exact keyed_again (ordered existing there) _
      · rfl
    · obtain ⟨user, there, rfl⟩ := List.mem_map.mp listed
      have own : user ∈ users := (List.mem_filter.mp there).1
      rw [mergeEntry]
      split
      · rename_i found first
        have named := List.find?_some first
        rw [to_value_name, decide_eq_true_eq, Option.some.injEq] at named
        have same : user = found :=
          List.inj_on_of_nodup_map distinct own (List.mem_of_find?_eq_some first) named
        rw [← same]
        exact keyed_to_value user
      · rfl
  rw [mergedUsers, none_new, List.map_nil, List.append_nil]
  exact (List.map_congr_left settled).trans (List.map_id _)

theorem Merged.users_again {metadata : HostMetadata} {members passwd storage : List (String × Json)}
    {users files config : Json} (merged : Merged metadata members passwd storage users files config)
    (distinct : (metadata.publicKeys.map PublicKeyEntry.sshUser).Nodup)
    (ordered : (Json.object passwd).Ordered) :
    mergeUsers (buildIgnitionUsers metadata) users = .ok users := by
  have users_are := merged.users_are
  have own : ((passwd.lookup "users").getD (.array [])).Ordered := ordered.entry_or _ ordered_no_items
  cases held : (passwd.lookup "users").getD (.array []) with
  | array items =>
    rw [held] at users_are own
    rw [users_merged distinct] at users_are
    cases users_are
    rw [users_merged distinct, merged_users_again (build_names metadata distinct).1 own.items]
  | _ =>
    rw [held] at users_are
    cases users_are
    rfl

/-- **`merge_ignition` is idempotent.** -/
theorem merge_ignition_idempotent {metadata : HostMetadata}
    (distinct : (metadata.publicKeys.map PublicKeyEntry.sshUser).Nodup) {base config : Json}
    (ordered : base.Ordered) (merged : mergedConfig base metadata = .ok config) :
    mergedConfig config metadata = .ok config := by
  have config_ordered := ordered_merged_config ordered distinct merged
  obtain ⟨members, passwd, storage, users, files, held, merged⟩ := merged_config_inv merged
  have parts := merged.ordered distinct (ordered_members ordered held)
  have normal : normalizeFileContents config = config := by
    rw [merged.config_is, normalize_file_contents_eq, normalize_file_contents_eq]
    exact map_member_idem (map_member_idem normal_files_again "files") "storage" _
  -- every pass finds its entry and writes it back
  obtain ⟨own, rfl⟩ : ∃ own, config = .object own := ⟨_, merged.config_is⟩
  have ensured : ensureVersion (.object own) = .ok (.object own) := by
    have version := merged.get_other (by decide : "ignition" ≠ "passwd") (by decide)
    rw [lookup_version] at version
    rw [ensureVersion, version]
    rfl
  have usersAdded : changeEntry "passwd" (.object [])
      (changeEntry "users" (.array []) (mergeUsers (buildIgnitionUsers metadata))) (.object own) =
        .ok (.object own) := by
    have users_held : (insertMember "users" users passwd).lookup "users" = some users := by
      rw [lookup_insert_member, if_pos rfl]
    exact change_entry_same config_ordered.sorted merged.get_passwd
      (change_entry_same (sorted_insert_member parts.passwd_ordered.sorted _ _) users_held
        (merged.users_again distinct parts.passwd_ordered))
  have fileAdded : ensureHostnameFile (.object own) metadata.hostname = .ok (.object own) := by
    have storage_ordered := config_ordered.member merged.get_storage
    have files_held : (mapMember "files" normalFiles
        (.object (insertMember "files" files storage))).get? "files" = some (normalFiles files) := by
      rw [get_map_member, if_pos rfl]
      change ((insertMember "files" files storage).lookup "files").map normalFiles = _
      rw [lookup_insert_member, if_pos rfl, Option.map_some]
    rw [ensure_hostname_file_eq]
    refine change_entry_same config_ordered.sorted merged.get_storage
      (change_entry_same storage_ordered.sorted files_held ?_)
    rw [merged.files_are, add_hostname_again]
  simp only [mergedConfig, except_bind_eq_ok]
  exact ⟨_, ensured, _, usersAdded, _, fileAdded, congrArg Except.ok normal⟩

/-- The members of a base that has the owner of a container as a user. -/
def ownerBase : List (String × Json) :=
  [("passwd", .object [("users", .array [.object [("name", .string "dev")]])])]

theorem owner_base_ordered : (Json.object ownerBase).Ordered := by
  have only : ∀ {key : String} {value : Json}, value.Ordered → (Json.object [(key, value)]).Ordered := by
    intro key value ordered
    refine .object (List.pairwise_singleton _ _) fun member listed => ?_
    rwa [List.mem_singleton.mp listed]
  refine only (only (.array fun entry listed => ?_))
  rw [List.mem_singleton.mp listed]
  exact only (.string _)

theorem merge_ignition_idempotent_owner : ∃ config,
    mergedConfig (.object ownerBase) (podMetadata []) = .ok config ∧
      mergedConfig config (podMetadata []) = .ok config := by
  have mergeable : Mergeable (.object ownerBase) := by
    intro key listed value held
    rcases List.mem_pair.mp listed with rfl | rfl
    · cases held
      exact ⟨_, rfl⟩
    · cases held
  obtain ⟨config, merged⟩ := (merged_config_ok_iff _ (podMetadata [])).mpr mergeable
  exact ⟨config, merged, merge_ignition_idempotent (by decide) owner_base_ordered merged⟩

/-! ## Panics -/

/-- **`merge_ignition` panics on exactly the bases that are not mergeable.** -/
theorem merge_ignition_returns_iff [Serialize Json] (base : Json) (metadata : HostMetadata) :
    (∃ text, mergeIgnition base metadata = .ok text) ↔ Mergeable base := by
  rw [← merged_config_ok_iff base metadata]
  simp only [mergeIgnition]
  cases mergedConfig base metadata with
  | ok config => exact iff_of_true ⟨_, rfl⟩ ⟨_, rfl⟩
  | error panic => exact iff_of_false nofun nofun

section Sample

attribute [local instance] prettyText

/-- A list is no base config. -/
theorem merge_ignition_panics : ¬ ∀ (base : Json) (metadata : HostMetadata),
    ∃ text, mergeIgnition base metadata = .ok text := by
  intro always
  obtain ⟨text, merged⟩ := always (.array []) (podMetadata [])
  cases merged

end Sample

end CloudId
