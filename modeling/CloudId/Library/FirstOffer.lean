import Mathlib.Logic.Function.Basic
import Mathlib.Data.List.Basic

/-! Slots that are taken once. An offer is taken when it arrives and its slot is still open, so
that after any number of offers a slot has the first one that arrived there, whoever else came
later. -/
namespace FirstOffer

variable {κ σ ω : Type} [DecidableEq κ]

/-- What tells a slot that is taken, and how one takes an offer. -/
structure Slot (σ ω : Type) where
  taken : σ → Bool
  take : ω → σ → σ
  taken_take : ∀ value content, taken (take value content) = true

/-- An offer to the slot of a key. -/
structure Offer (κ ω : Type) where
  key : κ
  value : ω
  arrives : Bool

/-- The offer for the slot of a key, if it arrives. -/
def Offer.Reaches (offer : Offer κ ω) (key : κ) : Prop := offer.arrives = true ∧ offer.key = key

instance (offer : Offer κ ω) (key : κ) : Decidable (offer.Reaches key) :=
  inferInstanceAs (Decidable (_ ∧ _))

def step (slot : Slot σ ω) (slots : κ → σ) (offer : Offer κ ω) : κ → σ :=
  if offer.arrives && !slot.taken (slots offer.key) then
    Function.update slots offer.key (slot.take offer.value (slots offer.key))
  else slots

/-- The first offer that arrives at the slot of a key. -/
def first (offers : List (Offer κ ω)) (key : κ) : Option ω :=
  (offers.find? fun offer => decide (offer.Reaches key)).map Offer.value

theorem first_cons (offer : Offer κ ω) (offers : List (Offer κ ω)) (key : κ) :
    first (offer :: offers) key =
      if offer.Reaches key then some offer.value else first offers key := by
  rw [first, List.find?_cons]
  by_cases reaches : offer.Reaches key
  · simp [reaches]
  · simp [reaches, first]

/-- Where the offers that arrive are alike, the first one is such an offer. -/
theorem first_of_agree {offers : List (Offer κ ω)} {key : κ} {value : ω}
    (reached : ∃ offer ∈ offers, offer.Reaches key)
    (agree : ∀ offer ∈ offers, offer.Reaches key → offer.value = value) :
    first offers key = some value := by
  rw [first]
  cases found : offers.find? fun offer => decide (offer.Reaches key) with
  | none =>
    obtain ⟨offer, listed, reaches⟩ := reached
    exact absurd (decide_eq_true reaches) (List.find?_eq_none.mp found offer listed)
  | some offer =>
    have reaches : offer.Reaches key := by simpa using List.find?_some found
    rw [Option.map_some, agree offer (List.mem_of_find?_eq_some found) reaches]

section Run

variable (slot : Slot σ ω)

theorem step_of_taken {slots : κ → σ} {key : κ} (taken : slot.taken (slots key) = true)
    (offer : Offer κ ω) : step slot slots offer key = slots key := by
  rw [step]
  split
  · rename_i opened
    have other : key ≠ offer.key := by
      rintro rfl
      simp [taken] at opened
    exact Function.update_of_ne other _ _
  · rfl

theorem step_of_reaches {slots : κ → σ} {key : κ} (opened : slot.taken (slots key) = false)
    {offer : Offer κ ω} (reaches : offer.Reaches key) :
    step slot slots offer key = slot.take offer.value (slots key) := by
  obtain ⟨arrives, rfl⟩ := reaches
  rw [step, if_pos (by simp [arrives, opened]), Function.update_self]

theorem step_of_not_reaches (slots : κ → σ) {key : κ} {offer : Offer κ ω}
    (misses : ¬ offer.Reaches key) : step slot slots offer key = slots key := by
  rw [step]
  split
  · rename_i opened
    have other : key ≠ offer.key := by
      rintro rfl
      exact misses ⟨(Bool.and_eq_true_iff.mp opened).1, rfl⟩
    exact Function.update_of_ne other _ _
  · rfl

/-- A slot that is taken stays as it is. -/
theorem foldl_of_taken {slots : κ → σ} {key : κ} (taken : slot.taken (slots key) = true)
    (offers : List (Offer κ ω)) : offers.foldl (step slot) slots key = slots key := by
  induction offers generalizing slots with
  | nil => rfl
  | cons offer offers later =>
    have kept := step_of_taken slot taken offer
    rw [List.foldl_cons, later (by rw [kept]; exact taken), kept]

/-- **A slot that is open takes the first offer that arrives.** -/
theorem foldl_of_open {slots : κ → σ} {key : κ} (opened : slot.taken (slots key) = false)
    (offers : List (Offer κ ω)) : offers.foldl (step slot) slots key =
      ((first offers key).map fun value => slot.take value (slots key)).getD (slots key) := by
  induction offers generalizing slots with
  | nil => rfl
  | cons offer offers later =>
    rw [List.foldl_cons, first_cons]
    by_cases reaches : offer.Reaches key
    · have takes := step_of_reaches slot opened reaches
      rw [if_pos reaches, foldl_of_taken slot (by rw [takes]; exact slot.taken_take _ _), takes]
      rfl
    · have kept := step_of_not_reaches slot slots reaches
      rw [if_neg reaches, later (by rw [kept]; exact opened), kept]

/-- **Offers change nothing where each of their slots is taken.** -/
theorem foldl_of_all_taken {slots : κ → σ} {offers : List (Offer κ ω)}
    (taken : ∀ offer ∈ offers, slot.taken (slots offer.key) = true) :
    offers.foldl (step slot) slots = slots := by
  induction offers with
  | nil => rfl
  | cons offer offers later =>
    have same : step slot slots offer = slots := by
      rw [step, if_neg]
      simp [taken offer List.mem_cons_self]
    rw [List.foldl_cons, same]
    exact later fun other listed => taken other (List.mem_cons_of_mem _ listed)

end Run

end FirstOffer
