import Mathlib.Data.List.AList

/-! Finite maps with an enumeration order. A hash map is a set of entries with
distinct keys which a program sees through `lookup`, and through the one
arbitrary order in which it enumerates them. Both are kept: the entries are a
list, and everything a program may rely on is stated through `lookup`. -/

/-- A hash map as the list of its entries in enumeration order. -/
abbrev HashMap (κ υ : Type) := AList fun _ : κ => υ

namespace HashMap

variable {κ υ : Type}

/-- The entries as pairs, in enumeration order. -/
def toList (m : HashMap κ υ) : List (κ × υ) := m.entries.map fun entry => (entry.1, entry.2)

/-- The stored values, in enumeration order. -/
def values (m : HashMap κ υ) : List υ := m.entries.map Sigma.snd

/-- Keeps the entries a predicate accepts. -/
def retain (keep : κ → υ → Bool) (m : HashMap κ υ) : HashMap κ υ :=
  ⟨m.entries.filter fun entry => keep entry.1 entry.2,
    m.nodupKeys.sublist List.filter_sublist⟩

theorem toList_keys_nodup (m : HashMap κ υ) : (m.toList.map Prod.fst).Nodup := by
  rw [toList, List.map_map]
  exact m.keys_nodup

variable [DecidableEq κ]

/-- Two maps hold the same value at every key, whatever their enumeration orders. -/
def Same (first second : HashMap κ υ) : Prop := ∀ key, first.lookup key = second.lookup key

theorem lookup_eq_some {m : HashMap κ υ} {key : κ} {value : υ} :
    m.lookup key = some value ↔ (key, value) ∈ m.toList := by
  rw [← Option.mem_def, AList.mem_lookup_iff, toList, List.mem_map]
  constructor
  · intro held
    exact ⟨⟨key, value⟩, held, rfl⟩
  · rintro ⟨⟨k, v⟩, held, same⟩
    cases same
    exact held

theorem mem_values {m : HashMap κ υ} {value : υ} :
    value ∈ m.values ↔ ∃ key, m.lookup key = some value := by
  simp only [lookup_eq_some, values, toList, List.mem_map, Prod.mk.injEq]
  constructor
  · rintro ⟨⟨key, v⟩, held, rfl⟩
    exact ⟨key, ⟨key, v⟩, held, rfl, rfl⟩
  · rintro ⟨key, entry, held, -, rfl⟩
    exact ⟨entry, held, rfl⟩

@[simp] theorem lookup_retain (keep : κ → υ → Bool) (m : HashMap κ υ) (key : κ) :
    (m.retain keep).lookup key = (m.lookup key).filter (keep key) := by
  apply Option.ext
  intro value
  rw [Option.filter_eq_some_iff, ← Option.mem_def, ← Option.mem_def, AList.mem_lookup_iff,
    AList.mem_lookup_iff]
  simp [retain]

/-- Overwriting one key, seen through `lookup`. -/
theorem lookup_insert_eq (m : HashMap κ υ) (key probe : κ) (value : υ) :
    (m.insert key value).lookup probe = if probe = key then some value else m.lookup probe := by
  by_cases same : probe = key
  · subst same
    simp
  · simp [same, AList.lookup_insert_ne]

/-- Removing one key, seen through `lookup`. -/
theorem lookup_erase_eq (m : HashMap κ υ) (key probe : κ) :
    (m.erase key).lookup probe = if probe = key then none else m.lookup probe := by
  by_cases same : probe = key
  · subst same
    simp
  · simp [same, AList.lookup_erase_ne]

/-- What is found after overwriting one key. -/
theorem lookup_insert_eq_some {m : HashMap κ υ} {key probe : κ} {value found : υ} :
    (m.insert key value).lookup probe = some found ↔
      probe = key ∧ value = found ∨ probe ≠ key ∧ m.lookup probe = some found := by
  rw [lookup_insert_eq]
  by_cases same : probe = key <;> simp [same]

/-- What is found after removing one key. -/
theorem lookup_erase_eq_some {m : HashMap κ υ} {key probe : κ} {found : υ} :
    (m.erase key).lookup probe = some found ↔ probe ≠ key ∧ m.lookup probe = some found := by
  rw [lookup_erase_eq]
  by_cases same : probe = key <;> simp [same]

/-- Enumerating the same entries in another order changes no lookup. -/
theorem same_of_perm {first second : HashMap κ υ} (perm : first.entries.Perm second.entries) :
    Same first second :=
  fun _ => AList.perm_lookup perm

/-- Two maps without keys. -/
theorem same_of_no_keys {first second : HashMap κ υ} (empty : first.keys = [])
    (empty' : second.keys = []) : Same first second := by
  intro key
  have absent : ∀ {m : HashMap κ υ}, m.keys = [] → m.lookup key = none := by
    intro m none_there
    rw [AList.lookup_eq_none, AList.mem_keys, none_there]
    exact List.not_mem_nil
  rw [absent empty, absent empty']

/-- Inserting a list of entries in turn: the last one under a key stays. -/
theorem lookup_foldl_insert {α : Type} (name : α → κ) (value : α → υ) (entries : List α)
    (m : HashMap κ υ) (key : κ) :
    (entries.foldl (fun m entry => m.insert (name entry) (value entry)) m).lookup key =
      ((entries.reverse.find? fun entry => name entry = key).map value).or (m.lookup key) := by
  induction entries generalizing m with
  | nil => rfl
  | cons entry rest step =>
    rw [List.foldl_cons, step, List.reverse_cons, List.find?_append, lookup_insert_eq]
    cases rest.reverse.find? fun entry => name entry = key with
    | some found => rfl
    | none =>
      by_cases same : name entry = key
      · simp [same]
      · simp [same, Ne.symm same]

/-- The entries of a map, inserted in turn, are the map. -/
theorem lookup_rebuilt (m : HashMap κ υ) :
    Same (m.toList.foldl (fun held entry => held.insert entry.1 entry.2) ∅) m := by
  intro key
  rw [lookup_foldl_insert Prod.fst Prod.snd]
  have listed : ∀ value, (key, value) ∈ m.toList ↔
      m.toList.reverse.find? (fun entry => entry.1 = key) = some (key, value) := by
    intro value
    constructor
    · intro held
      cases found : m.toList.reverse.find? fun entry => entry.1 = key with
      | none =>
        have none_there := List.find?_eq_none.mp found (key, value) (List.mem_reverse.mpr held)
        simp at none_there
      | some entry =>
        obtain ⟨own, other⟩ := entry
        have same : own = key := by simpa using List.find?_some found
        subst same
        have held' := List.mem_reverse.mp (List.mem_of_find?_eq_some found)
        have values := (lookup_eq_some.mpr held).symm.trans (lookup_eq_some.mpr held')
        rw [Option.some.inj values]
    · intro found
      exact List.mem_reverse.mp (List.mem_of_find?_eq_some found)
  apply Option.ext
  intro value
  rw [lookup_eq_some, listed]
  cases found : m.toList.reverse.find? fun entry => entry.1 = key with
  | none => simp
  | some entry =>
    obtain ⟨own, other⟩ := entry
    have same : own = key := by simpa using List.find?_some found
    subst same
    simp

end HashMap
