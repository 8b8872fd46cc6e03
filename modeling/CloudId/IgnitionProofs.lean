import CloudId.Library.Effects
import CloudId.Ignition

/-! Which base configs `merge_ignition` can merge into. It unwraps the base, its
`passwd` and its `storage` as objects and panics on anything else; the rest of
the base may have any shape. -/
namespace CloudId
open Effects Json

/-- The base is an object whose `passwd` and `storage`, where present, are
objects; or null, which becomes an object. -/
def Mergeable : Json → Prop
  | .null => True
  | .object members =>
    ∀ key ∈ ["passwd", "storage"], ∀ value, members.lookup key = some value → value.IsObject
  | _ => False

/-! ## Users -/

theorem merge_ssh_keys_ok {existing : Json} (object : existing.IsObject) (user : IgnitionUser) :
    ∃ result, mergeSshKeys existing user = .ok result := by
  obtain ⟨members, rfl⟩ := object
  rw [mergeSshKeys]
  split
  · refine change_entry_ok_iff.mpr ⟨members, rfl, ?_⟩
    split
    · exact ⟨_, rfl⟩
    · exact ⟨_, rfl⟩
  · exact ⟨_, rfl⟩

theorem object_of_text_member {value : Json} (named : textMember value key = some text) :
    value.IsObject := by
  cases value with
  | object members => exact ⟨members, rfl⟩
  | _ => simp [textMember, get?, asObject] at named

theorem mapM_ok {α β : Type} {f : α → Except Panic β} (total : ∀ a, ∃ b, f a = .ok b)
    (items : List α) : ∃ results, items.mapM f = .ok results := by
  induction items with
  | nil => exact ⟨[], rfl⟩
  | cons item rest step =>
    obtain ⟨first, made⟩ := total item
    obtain ⟨results, others⟩ := step
    exact ⟨first :: results, by simp [List.mapM_cons, made, others, bind, Except.bind, pure, Except.pure]⟩

theorem merge_user_ok (existingUsers : List String) (users : List Json) (user : IgnitionUser) :
    ∃ result, mergeUser existingUsers users user = .ok result := by
  rw [mergeUser]
  split
  · apply mapM_ok
    intro existing
    split
    · rename_i named
      exact merge_ssh_keys_ok (object_of_text_member named) user
    · exact ⟨existing, rfl⟩
  · exact ⟨_, rfl⟩

/-- Merging users never panics. -/
theorem merge_users_ok (identityUsers : List IgnitionUser) (users : Json) :
    ∃ result, mergeUsers identityUsers users = .ok result := by
  cases users with
  | array items =>
    have merged (existing : List String) (items : List Json) :
        ∃ results, identityUsers.foldlM (mergeUser existing) items = .ok results := by
      induction identityUsers generalizing items with
      | nil => exact ⟨items, rfl⟩
      | cons user rest step =>
        obtain ⟨next, made⟩ := merge_user_ok existing items user
        obtain ⟨results, others⟩ := step next
        exact ⟨results, by rw [List.foldlM_cons, made]; exact others⟩
    obtain ⟨results, made⟩ := merged (items.filterMap (textMember · "name")) items
    exact ⟨.array results, by rw [mergeUsers, made]; rfl⟩
  | _ => exact ⟨_, rfl⟩

/-! ## The whole merge -/

/-- The entry under `key` is an object or absent, with a default that is one. -/
theorem entry_object_iff {members : List (String × Json)} {key : String} :
    ((members.lookup key).getD (.object [])).IsObject ↔
      ∀ value, members.lookup key = some value → value.IsObject := by
  cases members.lookup key with
  | none => simp [IsObject]
  | some value => simp

theorem passwd_ok_iff (identityUsers : List IgnitionUser) (value : Json) :
    (∃ result, changeEntry "passwd" (.object [])
      (changeEntry "users" (.array []) (mergeUsers identityUsers)) value = .ok result) ↔
      ∃ members, value = .object members ∧
        ∀ passwd, members.lookup "passwd" = some passwd → passwd.IsObject := by
  rw [change_entry_ok_iff]
  refine exists_congr fun members => and_congr_right fun _ => ?_
  rw [← entry_object_iff, change_entry_ok_iff]
  exact exists_congr fun inner => and_iff_left (merge_users_ok _ _)

theorem ensure_hostname_file_ok_iff (fqdn : String) (value : Json) :
    (∃ result, ensureHostnameFile value fqdn = .ok result) ↔
      ∃ members, value = .object members ∧
        ∀ storage, members.lookup "storage" = some storage → storage.IsObject := by
  rw [ensureHostnameFile, change_entry_ok_iff]
  refine exists_congr fun members => and_congr_right fun _ => ?_
  rw [← entry_object_iff, change_entry_ok_iff]
  refine exists_congr fun inner => and_iff_left ?_
  split
  · split
    · exact ⟨_, rfl⟩
    · exact ⟨_, rfl⟩
  · exact ⟨_, rfl⟩

/-- The members of an object that has its version. -/
def versionedMembers (members : List (String × Json)) : List (String × Json) :=
  match members.lookup "ignition" with
  | some _ => members
  | none => insertMember "ignition" (ofEntries [("version", .string "3.4.0")]) members

theorem lookup_versioned {key : String} (other : key ≠ "ignition")
    (members : List (String × Json)) :
    (versionedMembers members).lookup key = members.lookup key := by
  rw [versionedMembers]
  split
  · rfl
  · rw [lookup_insert_member, if_neg other]

/-- The members of an object, or those of the object that null becomes. -/
def BaseMembers (base : Json) (members : List (String × Json)) : Prop :=
  base = .null ∧ members = [] ∨ base = .object members

/-- The base gets its version, and its other members stay. -/
theorem ensure_version_ok_iff {base config : Json} :
    ensureVersion base = .ok config ↔
      ∃ members, BaseMembers base members ∧ config = .object (versionedMembers members) := by
  rw [ensureVersion]
  cases base with
  | null =>
    have only : setIndex "ignition" (ofEntries [("version", .string "3.4.0")]) .null =
        .ok (.object (versionedMembers [])) := rfl
    simp [get?, asObject, only, BaseMembers, eq_comm]
  | object members =>
    cases versioned : members.lookup "ignition" with
    | none => simp [get?, asObject, versioned, setIndex, BaseMembers, versionedMembers, eq_comm]
    | some version => simp [get?, asObject, versioned, BaseMembers, versionedMembers, eq_comm]
  | _ => simp [get?, asObject, setIndex, BaseMembers]

theorem mergeable_iff (base : Json) :
    Mergeable base ↔ ∃ members, BaseMembers base members ∧
      (∀ passwd, members.lookup "passwd" = some passwd → passwd.IsObject) ∧
      (∀ storage, members.lookup "storage" = some storage → storage.IsObject) := by
  cases base with
  | null => simp [Mergeable, BaseMembers]
  | object members => simp [Mergeable, BaseMembers]
  | _ => simp [Mergeable, BaseMembers]

/-- **Merging panics on exactly the bases that are not mergeable**, whatever the
metadata. -/
theorem merged_config_ok_iff (base : Json) (metadata : HostMetadata) :
    (∃ config, mergedConfig base metadata = .ok config) ↔ Mergeable base := by
  simp only [mergedConfig, except_bind_eq_ok, mergeable_iff]
  constructor
  · rintro ⟨_, _, ensured, withUsers, users, withFile, file, -⟩
    obtain ⟨members, held, rfl⟩ := ensure_version_ok_iff.mp ensured
    refine ⟨members, held, ?_, ?_⟩
    · obtain ⟨_, ⟨⟩, passwd⟩ := (passwd_ok_iff _ _).mp ⟨withUsers, users⟩
      simpa only [lookup_versioned (by decide : "passwd" ≠ "ignition")] using passwd
    · obtain ⟨_, entry, ⟨⟩, -, rfl⟩ := change_entry_eq_ok users
      obtain ⟨_, ⟨⟩, storage⟩ := (ensure_hostname_file_ok_iff _ _).mp ⟨withFile, file⟩
      simpa only [lookup_insert_member, (by decide : "storage" ≠ "passwd"), if_false,
        lookup_versioned (by decide : "storage" ≠ "ignition")] using storage
  · rintro ⟨members, held, passwd, storage⟩
    have ensured := ensure_version_ok_iff.mpr ⟨members, held, rfl⟩
    obtain ⟨withUsers, users⟩ :=
      (passwd_ok_iff (buildIgnitionUsers metadata) (.object (versionedMembers members))).mpr
        ⟨_, rfl, by simpa only [lookup_versioned (by decide : "passwd" ≠ "ignition")] using passwd⟩
    obtain ⟨_, entry, ⟨⟩, -, merged⟩ := change_entry_eq_ok users
    obtain ⟨withFile, file⟩ :=
      (ensure_hostname_file_ok_iff metadata.hostname withUsers).mpr ⟨_, merged, by
        simpa only [lookup_insert_member, (by decide : "storage" ≠ "passwd"), if_false,
          lookup_versioned (by decide : "storage" ≠ "ignition")] using storage⟩
    exact ⟨_, _, ensured, withUsers, users, withFile, file, rfl⟩

end CloudId
