import Mathlib.Logic.Function.Basic
import Mathlib.Logic.Relation
import CloudId.Library.HashMap

/-! Caches that are recomputed from a snapshot by clearing and refilling them in
place. A rebuild is a plan of cache operations that starts with a clear; any
number of rebuilds of one snapshot may run interleaved, and the snapshot may
change only while none runs. The machine settles: once no rebuild is active and
one began after the last change, the cache is the one an uninterrupted run of
the plan computes. -/
namespace SnapshotCache

variable {κ υ σ : Type} [DecidableEq κ]

/-- One operation on the cache. An offer without a value leaves it alone. -/
inductive CacheOp (κ υ : Type) where
  | clear
  | offer (key : κ) (value : Option υ)

namespace CacheOp

def apply : CacheOp κ υ → (κ → Option υ) → κ → Option υ
  | .clear, _ => fun _ => none
  | .offer key (some value), cache => Function.update cache key (some value)
  | .offer _ none, cache => cache

/-- The operation determines what the cache holds at a key. -/
def Decides : CacheOp κ υ → κ → Prop
  | .clear, _ => True
  | .offer key value, probe => probe = key ∧ value.isSome = true

theorem apply_undecided {op : CacheOp κ υ} (undecided : ¬ op.Decides key)
    (cache : κ → Option υ) : op.apply cache key = cache key := by
  cases op with
  | clear => exact absurd trivial undecided
  | offer at_ value =>
    cases value with
    | none => rfl
    | some value =>
      have other : key ≠ at_ := fun same => undecided ⟨same, rfl⟩
      exact Function.update_of_ne other _ _

theorem offer_elsewhere (other : key ≠ at_) (value : Option υ) (cache : κ → Option υ) :
    (offer at_ value).apply cache key = cache key :=
  apply_undecided (fun decides : (offer at_ value).Decides key => other decides.1) cache

theorem apply_decided {op : CacheOp κ υ} (decides : op.Decides key)
    (first second : κ → Option υ) : op.apply first key = op.apply second key := by
  cases op with
  | clear => rfl
  | offer at_ value =>
    obtain ⟨rfl, present⟩ := decides
    cases value with
    | none => cases present
    | some value => simp [apply]

end CacheOp

/-- The cache after a list of operations. -/
def run (todo : List (CacheOp κ υ)) (cache : κ → Option υ) : κ → Option υ :=
  todo.foldl (fun cache op => op.apply cache) cache

/-- The cache an uninterrupted run of a plan computes. -/
def settled (plan : List (CacheOp κ υ)) : κ → Option υ := run plan fun _ => none

theorem run_cons (op : CacheOp κ υ) (todo : List (CacheOp κ υ)) (cache : κ → Option υ) :
    run (op :: todo) cache = run todo (op.apply cache) := rfl

theorem run_append (first second : List (CacheOp κ υ)) (cache : κ → Option υ) :
    run (first ++ second) cache = run second (run first cache) :=
  List.foldl_append

theorem run_undecided {todo : List (CacheOp κ υ)} (undecided : ∀ op ∈ todo, ¬ op.Decides key)
    (cache : κ → Option υ) : run todo cache key = cache key := by
  induction todo generalizing cache with
  | nil => rfl
  | cons op todo step =>
    rw [run_cons, step fun other member => undecided other (List.mem_cons_of_mem _ member)]
    exact CacheOp.apply_undecided (undecided op List.mem_cons_self) cache

/-- The last operation of a plan that decides a key fixes its value. -/
theorem settled_eq_last {plan todo : List (CacheOp κ υ)} {op : CacheOp κ υ}
    (suffix : op :: todo <:+ plan) (decides : op.Decides key)
    (last : ∀ later ∈ todo, ¬ later.Decides key) (cache : κ → Option υ) :
    settled plan key = op.apply cache key := by
  obtain ⟨before, rfl⟩ := suffix
  rw [settled, run_append, run_cons, run_undecided last]
  exact CacheOp.apply_decided decides _ _

/-! ## Offers from a map -/

/-- Offers something for each entry of a list. -/
def offers {α : Type} (found : κ → α → Option υ) (entries : List (κ × α)) :
    List (CacheOp κ υ) :=
  entries.map fun entry => .offer entry.1 (found entry.1 entry.2)

omit [DecidableEq κ] in
theorem offers_cons {α : Type} (found : κ → α → Option υ) (entry : κ × α)
    (rest : List (κ × α)) : offers found (entry :: rest) =
      .offer entry.1 (found entry.1 entry.2) :: offers found rest := rfl

theorem run_offers_elsewhere {α : Type} (found : κ → α → Option υ) {entries : List (κ × α)}
    (absent : key ∉ entries.map Prod.fst) (cache : κ → Option υ) :
    run (offers found entries) cache key = cache key := by
  apply run_undecided
  intro op listed decides
  obtain ⟨entry, member, rfl⟩ := List.mem_map.mp listed
  exact absent (List.mem_map.mpr ⟨entry, member, decides.1.symm⟩)

theorem run_offers_listed {α : Type} {value : α} (found : κ → α → Option υ) {entries : List (κ × α)}
    (distinct : (entries.map Prod.fst).Nodup) (listed : (key, value) ∈ entries)
    (cache : κ → Option υ) :
    run (offers found entries) cache key = (found key value).or (cache key) := by
  induction entries generalizing cache with
  | nil => cases listed
  | cons entry rest step =>
    obtain ⟨absent, distinct⟩ := List.nodup_cons.mp distinct
    rw [offers_cons, run_cons]
    rcases List.mem_cons.mp listed with rfl | listed
    · rw [run_offers_elsewhere found absent]
      cases found key value <;> simp [CacheOp.apply]
    · have other : key ≠ entry.1 := by
        rintro rfl
        exact absent (List.mem_map.mpr ⟨_, listed, rfl⟩)
      rw [step distinct listed, CacheOp.offer_elsewhere other]

/-- Offering something for each entry of a map, whatever its enumeration order. -/
theorem run_offers {α : Type} (found : κ → α → Option υ) (m : HashMap κ α)
    (cache : κ → Option υ) (key : κ) :
    run (offers found m.toList) cache key = ((m.lookup key).bind (found key)).or (cache key) := by
  cases held : m.lookup key with
  | none =>
    rw [run_offers_elsewhere, Option.bind_none, Option.none_or]
    intro listed
    obtain ⟨entry, member, rfl⟩ := List.mem_map.mp listed
    rw [HashMap.lookup_eq_some.mpr member] at held
    cases held
  | some value =>
    rw [run_offers_listed found m.toList_keys_nodup (HashMap.lookup_eq_some.mp held),
      Option.bind_some]

/-! ## Interleaved rebuilds -/

/-- The cache, the snapshot it is computed from, and what each active rebuild
has still to do. The cache is fresh when a rebuild began after the last change
of the snapshot. -/
@[ext]
structure State (κ υ σ : Type) where
  snapshot : σ
  cache : κ → Option υ
  active : List (List (CacheOp κ υ))
  fresh : Bool

inductive Step (plan : σ → List (CacheOp κ υ)) : State κ υ σ → State κ υ σ → Prop where
  | start {state : State κ υ σ} (before after : List (List (CacheOp κ υ)))
      (split : state.active = before ++ after) :
      Step plan state
        { state with active := before ++ plan state.snapshot :: after, fresh := true }
  | advance {state : State κ υ σ} (before after : List (List (CacheOp κ υ)))
      (op : CacheOp κ υ) (todo : List (CacheOp κ υ))
      (split : state.active = before ++ (op :: todo) :: after) :
      Step plan state
        { state with cache := op.apply state.cache, active := before ++ todo :: after }
  | finish {state : State κ υ σ} (before after : List (List (CacheOp κ υ)))
      (split : state.active = before ++ [] :: after) :
      Step plan state { state with active := before ++ after }
  | change {state : State κ υ σ} (snapshot : σ) (idle : state.active = []) :
      Step plan state { state with snapshot, fresh := false }

/-- The invariant: every active rebuild is in the middle of the plan of the
present snapshot, and a fresh cache differs from the settled one only where an
active rebuild has still to decide. -/
structure Inv (plan : σ → List (CacheOp κ υ)) (state : State κ υ σ) : Prop where
  planned : ∀ todo ∈ state.active, todo <:+ plan state.snapshot
  decided : state.fresh = true → ∀ key, state.cache key = settled (plan state.snapshot) key ∨
    ∃ todo ∈ state.active, ∃ op ∈ todo, op.Decides key

theorem step_keeps_inv {plan : σ → List (CacheOp κ υ)}
    (clears : ∀ snapshot, CacheOp.clear ∈ plan snapshot) {state next : State κ υ σ}
    (inv : Inv plan state) (step : Step plan state next) : Inv plan next := by
  cases step with
  | start before after split =>
    constructor
    · intro todo active
      rw [List.mem_append, List.mem_cons] at active
      rcases active with old | rfl | old
      · exact inv.planned todo (by simp [split, old])
      · exact List.suffix_rfl
      · exact inv.planned todo (by simp [split, old])
    · intro _ key
      exact Or.inr ⟨plan state.snapshot, by simp, .clear, clears _, trivial⟩
  | advance before after op todo split =>
    have current : op :: todo <:+ plan state.snapshot := inv.planned _ (by simp [split])
    constructor
    · intro other active
      rw [List.mem_append, List.mem_cons] at active
      rcases active with old | rfl | old
      · exact inv.planned other (by simp [split, old])
      · exact (List.suffix_cons op other).trans current
      · exact inv.planned other (by simp [split, old])
    · intro fresh key
      by_cases later : ∃ next ∈ todo, next.Decides key
      · exact Or.inr ⟨todo, by simp, later⟩
      · by_cases decides : op.Decides key
        · left
          rw [settled_eq_last current decides fun next member deciding =>
            later ⟨next, member, deciding⟩]
        · rcases inv.decided fresh key with same | ⟨other, active, next, member, deciding⟩
          · left
            exact (CacheOp.apply_undecided decides state.cache).trans same
          · right
            rw [split, List.mem_append, List.mem_cons] at active
            rcases active with old | rfl | old
            · exact ⟨other, by simp [old], next, member, deciding⟩
            · rcases List.mem_cons.mp member with rfl | member
              · exact absurd deciding decides
              · exact absurd ⟨next, member, deciding⟩ later
            · exact ⟨other, by simp [old], next, member, deciding⟩
  | finish before after split =>
    constructor
    · intro todo active
      exact inv.planned todo (by rw [split]; simp_all; tauto)
    · intro fresh key
      rcases inv.decided fresh key with same | ⟨todo, active, op, member, deciding⟩
      · exact Or.inl same
      · right
        rw [split, List.mem_append, List.mem_cons] at active
        rcases active with old | rfl | old
        · exact ⟨todo, by simp [old], op, member, deciding⟩
        · cases member
        · exact ⟨todo, by simp [old], op, member, deciding⟩
  | change snapshot idle =>
    constructor
    · intro todo active
      rw [idle] at active
      cases active
    · rintro ⟨⟩

/-- **An idle fresh cache is the settled one.** -/
theorem inv_settled {plan : σ → List (CacheOp κ υ)} {state : State κ υ σ}
    (inv : Inv plan state) (idle : state.active = []) (fresh : state.fresh = true) :
    state.cache = settled (plan state.snapshot) := by
  funext key
  rcases inv.decided fresh key with same | ⟨todo, active, _⟩
  · exact same
  · rw [idle] at active
    cases active

end SnapshotCache
