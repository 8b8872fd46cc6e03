import Mathlib.Data.List.Nodup

/-! Tables whose rows are told apart by a key. A change of the row that a search finds first is
seen by that search and leaves every row alone that the search passes over. -/
namespace KeyedRows

variable {ρ κ : Type} [DecidableEq κ]

/-- No two rows have the same key. -/
def Keyed (keyOf : ρ → κ) (rows : List ρ) : Prop := (rows.map keyOf).Nodup

instance (keyOf : ρ → κ) (rows : List ρ) : Decidable (Keyed keyOf rows) :=
  inferInstanceAs (Decidable (rows.map keyOf).Nodup)

/-- Changes the rows with a key. -/
def update (keyOf : ρ → κ) (key : κ) (change : ρ → ρ) (rows : List ρ) : List ρ :=
  rows.map fun row => if keyOf row = key then change row else row

variable {keyOf : ρ → κ} {rows : List ρ}

theorem Keyed.update (keyed : Keyed keyOf rows) (key : κ) {change : ρ → ρ}
    (keeps : ∀ row, keyOf (change row) = keyOf row) :
    Keyed keyOf (update keyOf key change rows) := by
  have same : (KeyedRows.update keyOf key change rows).map keyOf = rows.map keyOf := by
    rw [KeyedRows.update, List.map_map]
    refine List.map_congr_left fun row _ => ?_
    rw [Function.comp_apply]
    split
    · exact keeps row
    · rfl
  rw [Keyed, same]
  exact keyed

omit [DecidableEq κ] in
theorem Keyed.append (keyed : Keyed keyOf rows) {row : ρ} (fresh : keyOf row ∉ rows.map keyOf) :
    Keyed keyOf (rows ++ [row]) := by
  rw [Keyed, List.map_append, List.map_singleton]
  exact List.nodup_append.mpr ⟨keyed, List.nodup_singleton _, fun key listed other single same =>
    fresh (by rwa [← List.mem_singleton.mp single, ← same])⟩

section First

variable {selects : ρ → Bool} {found : ρ} {change : ρ → ρ} (keyed : Keyed keyOf rows)
  (first : rows.find? selects = some found) (still : selects (change found) = true)

include keyed first

/-- The row found is the only one that changes. -/
theorem update_first_eq : update keyOf (keyOf found) change rows =
    rows.map fun row => if keyOf row = keyOf found then change found else row := by
  refine List.map_congr_left fun row listed => ?_
  split
  · rename_i same
    rw [List.inj_on_of_nodup_map keyed listed (List.mem_of_find?_eq_some first) same]
  · rfl

include still

theorem selects_update_first {row : ρ} (listed : row ∈ rows) :
    selects (if keyOf row = keyOf found then change found else row) = selects row := by
  split
  · rename_i same
    rw [List.inj_on_of_nodup_map keyed listed (List.mem_of_find?_eq_some first) same, still]
    exact (List.find?_some first).symm
  · rfl

/-- The search finds the row as it has become. -/
theorem find_update_first :
    (update keyOf (keyOf found) change rows).find? selects = some (change found) := by
  have same : ∀ row ∈ rows, (selects ∘ fun row =>
      if keyOf row = keyOf found then change found else row) row = selects row :=
    fun row listed => selects_update_first keyed first still listed
  rw [update_first_eq keyed first, List.find?_map, ← List.head?_filter, List.filter_congr same,
    List.head?_filter, first, Option.map_some, if_pos rfl]

/-- The rows that are passed over are as they were. -/
theorem others_update_first :
    (update keyOf (keyOf found) change rows).filter (fun row => !selects row) =
      rows.filter fun row => !selects row := by
  have same : ∀ row ∈ rows, ((fun row => !selects row) ∘ fun row =>
      if keyOf row = keyOf found then change found else row) row = !selects row := by
    intro row listed
    rw [Function.comp_apply, selects_update_first keyed first still listed]
  rw [update_first_eq keyed first, List.filter_map, List.filter_congr same]
  refine (List.map_congr_left fun row listed => ?_).trans (List.map_id _)
  obtain ⟨listed, passed⟩ := List.mem_filter.mp listed
  rw [if_neg, id]
  intro key
  rw [List.inj_on_of_nodup_map keyed listed (List.mem_of_find?_eq_some first) key,
    List.find?_some first] at passed
  cases passed

theorem count_update_first :
    (update keyOf (keyOf found) change rows).countP selects = rows.countP selects := by
  rw [update_first_eq keyed first, List.countP_map]
  refine List.countP_congr fun row listed => ?_
  rw [Function.comp_apply, selects_update_first keyed first still listed]

end First

end KeyedRows
