import Mathlib.Data.List.Destutter
import Mathlib.Data.List.Sort
import Mathlib.Order.Compare
import Std.Data.TreeMap.Lemmas

/-! Ordered maps and sorted key lists. What an ordered map lists, and what a
list becomes once sorted and stripped of repetitions, is determined by
membership alone: the order in which the contents arrived cannot be observed. -/
namespace SortedMap

variable {κ υ : Type} [LinearOrder κ]

/-- An ordered map lists its keys in strictly ascending order. -/
theorem keys_sorted (m : Std.TreeMap κ υ) : (m.toList.map Prod.fst).SortedLT := by
  have ordered := Std.TreeMap.ordered_keys_toList (t := m)
  rw [List.sortedLT_iff_pairwise, List.pairwise_map]
  exact ordered.imp fun before => compare_lt_iff_lt.mp before

/-- A list in strictly ascending order of some key is determined by its elements. -/
theorem eq_of_sorted_keys {key : υ → κ} {first second : List υ}
    (firstSorted : (first.map key).SortedLT) (secondSorted : (second.map key).SortedLT)
    (same : ∀ x, x ∈ first ↔ x ∈ second) : first = second := by
  have irreflexive : Std.Irrefl fun a b : υ => key a < key b := ⟨fun a => lt_irrefl (key a)⟩
  have antisymmetric : Std.Antisymm fun a b : υ => key a < key b :=
    ⟨fun a b before after => absurd (before.trans after) (lt_irrefl (key a))⟩
  rw [List.sortedLT_iff_pairwise, List.pairwise_map] at firstSorted secondSorted
  exact List.Pairwise.eq_of_mem_iff firstSorted secondSorted fun x => same x

/-- Maps with the same lookups list the same entries in the same order. -/
theorem toList_eq_of_lookup {first second : Std.TreeMap κ υ}
    (same : ∀ key : κ, first[key]? = second[key]?) : first.toList = second.toList := by
  apply eq_of_sorted_keys (keys_sorted first) (keys_sorted second)
  rintro ⟨key, value⟩
  rw [Std.TreeMap.mem_toList_iff_getElem?_eq_some, Std.TreeMap.mem_toList_iff_getElem?_eq_some,
    same key]

private theorem mem_destutter_from (l : List κ) (first x : κ) :
    x ∈ l.destutter' (· ≠ ·) first ↔ x ∈ first :: l := by
  induction l generalizing first with
  | nil => simp
  | cons second rest ih =>
    by_cases same : first = second
    · subst same
      simp [ih]
    · simp [same, ih]

/-- Removing consecutive repetitions keeps every element. -/
theorem mem_destutter (l : List κ) (x : κ) : x ∈ l.destutter (· ≠ ·) ↔ x ∈ l := by
  cases l with
  | nil => simp
  | cons first rest => exact mem_destutter_from rest first x

/-- Sorting and removing consecutive repetitions keeps every element. -/
theorem mem_sort_destutter (l : List κ) (x : κ) :
    x ∈ (l.insertionSort (· ≤ ·)).destutter (· ≠ ·) ↔ x ∈ l := by
  rw [mem_destutter, List.mem_insertionSort]

/-- Sorting and removing consecutive repetitions leaves a strictly ascending list. -/
theorem sort_destutter_sorted (l : List κ) :
    ((l.insertionSort (· ≤ ·)).destutter (· ≠ ·)).SortedLT := by
  have ascending : ((l.insertionSort (· ≤ ·)).destutter (· ≠ ·)).Pairwise (· ≤ ·) :=
    (List.pairwise_insertionSort (· ≤ ·) l).sublist (List.destutter_sublist _ _)
  have distinct := List.isChain_destutter (fun a b : κ => a ≠ b) (l.insertionSort (· ≤ ·))
  rw [List.sortedLT_iff_isChain, List.isChain_iff_getElem]
  intro i inside
  exact lt_of_le_of_ne (List.isChain_iff_getElem.mp ascending.isChain i inside)
    (List.isChain_iff_getElem.mp distinct i inside)

/-- Lists with the same elements have the same sorted form. -/
theorem sort_destutter_eq {first second : List κ} (same : ∀ x, x ∈ first ↔ x ∈ second) :
    (first.insertionSort (· ≤ ·)).destutter (· ≠ ·) =
      (second.insertionSort (· ≤ ·)).destutter (· ≠ ·) := by
  apply (sort_destutter_sorted first).eq_of_mem_iff (sort_destutter_sorted second)
  intro x
  rw [mem_sort_destutter, mem_sort_destutter, same x]

/-- Sorting by a key that no two elements share leaves the keys in strictly ascending order. -/
theorem sort_by_key_sorted {key : υ → κ} {before : υ → υ → Prop} [DecidableRel before]
    (by_key : ∀ a b, before a b ↔ key a ≤ key b) {l : List υ} (distinct : (l.map key).Nodup) :
    ((l.insertionSort before).map key).SortedLT := by
  have total : Std.Total before := ⟨fun a b => by
    rw [by_key, by_key]
    exact le_total (key a) (key b)⟩
  have transitive : IsTrans υ before := ⟨fun a b c => by
    rw [by_key, by_key, by_key]
    exact le_trans⟩
  have ascending : ((l.insertionSort before).map key).Pairwise (· ≤ ·) :=
    List.pairwise_map.mpr ((List.pairwise_insertionSort before l).imp fun before =>
      (by_key _ _).mp before)
  have distinct' : ((l.insertionSort before).map key).Nodup :=
    (((List.perm_insertionSort before l).map key).nodup_iff).mpr distinct
  rw [List.sortedLT_iff_pairwise]
  exact ascending.imp₂ (fun _ _ below apart => lt_of_le_of_ne below apart) distinct'

end SortedMap
