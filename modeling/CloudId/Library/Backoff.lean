import Mathlib.Algebra.Order.Ring.Nat
import Mathlib.Order.Basic

/-! Waiting between the attempts of a loop. The wait doubles from one attempt to the
next up to a cap, and starts over when an attempt ends well. -/
namespace Backoff

/-- The wait after an attempt. -/
def wait (first backoff : Nat) (clean : Bool) : Nat := if clean then first else backoff

/-- The backoff that an attempt leaves. -/
def next (first cap backoff : Nat) (clean : Bool) : Nat := min (wait first backoff clean * 2) cap

/-- The waits after the attempts of a loop, which end well or fail. -/
def waits (first cap : Nat) : Nat → List Bool → List Nat
  | _, [] => []
  | backoff, clean :: rest =>
    wait first backoff clean :: waits first cap (next first cap backoff clean) rest

variable {first cap backoff : Nat}

@[simp] theorem wait_clean : wait first backoff true = first := rfl

@[simp] theorem wait_failed : wait first backoff false = backoff := rfl

/-- One more attempt adds its wait. -/
theorem waits_append (outcomes : List Bool) (clean : Bool) :
    waits first cap backoff (outcomes ++ [clean]) = waits first cap backoff outcomes ++
      [wait first (outcomes.foldl (next first cap) backoff) clean] := by
  induction outcomes generalizing backoff with
  | nil => rfl
  | cons outcome rest step => rw [List.cons_append, waits, waits, step, List.foldl_cons, List.cons_append]

@[simp] theorem length_waits (outcomes : List Bool) :
    (waits first cap backoff outcomes).length = outcomes.length := by
  induction outcomes generalizing backoff with
  | nil => rfl
  | cons outcome rest step => simp [waits, step]

/-- A cap that applies to every doubling applies once, at the end. -/
theorem min_double (index : Nat) :
    min (min (backoff * 2) cap * 2 ^ index) cap = min (backoff * 2 ^ (index + 1)) cap := by
  have positive : 0 < 2 ^ index := Nat.two_pow_pos index
  rw [Nat.pow_succ', ← Nat.mul_assoc]
  by_cases below : backoff * 2 ≤ cap
  · rw [Nat.min_eq_left below]
  · have above : cap ≤ backoff * 2 := Nat.le_of_not_le below
    rw [Nat.min_eq_right above, Nat.min_eq_right (Nat.le_mul_of_pos_right cap positive),
      Nat.min_eq_right (Nat.le_trans above (Nat.le_mul_of_pos_right _ positive))]

/-- Failures in a row double the wait up to the cap. -/
theorem waits_failing (bounded : backoff ≤ cap) (outcomes : List Bool) {index : Nat}
    (failing : ∀ k ≤ index, outcomes[k]? = some false) :
    (waits first cap backoff outcomes)[index]? = some (min (backoff * 2 ^ index) cap) := by
  induction index generalizing backoff outcomes with
  | zero =>
    have head := failing 0 (Nat.le_refl 0)
    cases outcomes with
    | nil => simp at head
    | cons clean rest =>
      obtain rfl : clean = false := by simpa using head
      simp [waits, Nat.min_eq_left bounded]
  | succ index step =>
    have head := failing 0 (Nat.zero_le _)
    cases outcomes with
    | nil => simp at head
    | cons clean rest =>
      obtain rfl : clean = false := by simpa using head
      have tail : ∀ k ≤ index, rest[k]? = some false := fun k inside => by
        simpa using failing (k + 1) (Nat.succ_le_succ inside)
      rw [waits, List.getElem?_cons_succ, next, wait_failed,
        step (Nat.min_le_right _ _) rest tail]
      exact congrArg some (min_double index)

/-- **The wait after an attempt counts the failures since the loop last started over**,
at its beginning or when an attempt ended well. -/
theorem wait_eq (bounded : first ≤ cap) (outcomes : List Bool) {start index : Nat}
    (restarted : start = 0 ∧ backoff = first ∨ outcomes[start]? = some true) (later : start ≤ index)
    (inside : index < outcomes.length)
    (failing : ∀ k, start < k → k ≤ index → outcomes[k]? = some false) :
    (waits first cap backoff outcomes)[index]? = some (min (first * 2 ^ (index - start)) cap) := by
  induction start generalizing backoff outcomes index with
  | zero =>
    cases outcomes with
    | nil => simp at inside
    | cons clean rest =>
      have begins : wait first backoff clean = first := by
        rcases restarted with ⟨-, rfl⟩ | restart
        · cases clean <;> rfl
        · obtain rfl : clean = true := by simpa using restart
          rfl
      rw [waits, next, begins]
      cases index with
      | zero => simp [Nat.min_eq_left bounded]
      | succ index =>
        have tail : ∀ k ≤ index, rest[k]? = some false := fun k below => by
          simpa using failing (k + 1) (by omega) (by omega)
        rw [List.getElem?_cons_succ, Nat.sub_zero, waits_failing (Nat.min_le_right _ _) rest tail]
        exact congrArg some (min_double index)
  | succ start step =>
    cases outcomes with
    | nil => simp at inside
    | cons clean rest =>
      obtain ⟨index, rfl⟩ : ∃ before, index = before + 1 := ⟨index - 1, by omega⟩
      have restart : rest[start]? = some true := by simpa using restarted
      rw [waits, List.getElem?_cons_succ, Nat.add_sub_add_right]
      refine step rest (Or.inr restart) (by omega) (by simpa using inside) fun k above below => ?_
      simpa using failing (k + 1) (by omega) (by omega)

end Backoff
