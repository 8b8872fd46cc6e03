import CloudId.Library.GuardedRun

/-! A party that reads a state of another one and asks for a change unless it is as wanted. The
answer to such a request may be lost after the change, so the party knows less than it has done,
and what it does next rests on what it reads. -/
namespace Reconciler

/-- How a request for a change ends. It may have taken effect although its answer is lost. -/
inductive ChangeEnd where
  | answered
  | refused
  | lost
  deriving DecidableEq

variable {σ ι : Type}

/-- What the request leaves, and whether it is known to have succeeded. -/
def ChangeEnd.apply (change : σ → σ) (state : σ) : ChangeEnd → σ × Bool
  | .answered => (change state, true)
  | .refused => (state, false)
  | .lost => (change state, false)

/-- What the state is read for, and the change that is asked for, which the environment has a
part in. -/
structure Aim (σ ι : Type) where
  settled : σ → Bool
  change : ι → σ → σ

/-- What the environment does in one call: whether the state can be read, how a change ends, and
the environment's part in it. -/
structure Call (ι : Type) where
  read : Bool
  ended : ChangeEnd
  input : ι

/-- What a call leaves, whether it reports success, and whether it has asked for a change. -/
structure Outcome (σ : Type) where
  state : σ
  succeeded : Bool
  asked : Bool

namespace Aim

variable (aim : Aim σ ι)

def call (state : σ) (call : Call ι) : Outcome σ :=
  if call.read = false then { state, succeeded := false, asked := false }
  else if aim.settled state then { state, succeeded := true, asked := false }
  else
    let (after, known) := call.ended.apply (aim.change call.input) state
    { state := after, succeeded := known, asked := true }

def step (state : σ) (call : Call ι) : σ := (aim.call state call).state

/-- A call leaves the state alone, or changes one that is not settled. -/
theorem step_cases (state : σ) (call : Call ι) : aim.step state call = state ∨
    aim.settled state = false ∧ aim.step state call = aim.change call.input state := by
  obtain ⟨read, ended, input⟩ := call
  rw [step, Aim.call]
  cases read with
  | false => exact .inl rfl
  | true =>
    cases settled : aim.settled state with
    | true => exact .inl rfl
    | false =>
      cases ended with
      | answered => exact .inr ⟨rfl, rfl⟩
      | refused => exact .inl rfl
      | lost => exact .inr ⟨rfl, rfl⟩

/-- A call that reports success found the state settled or has changed it. -/
theorem succeeded_cases {state : σ} {call : Call ι}
    (succeeded : (aim.call state call).succeeded = true) :
    aim.settled state = true ∧ aim.step state call = state ∨
      aim.settled state = false ∧ aim.step state call = aim.change call.input state := by
  obtain ⟨read, ended, input⟩ := call
  rw [step]
  rw [Aim.call] at succeeded ⊢
  cases read with
  | false => cases succeeded
  | true =>
    cases settled : aim.settled state with
    | true => exact .inl ⟨rfl, rfl⟩
    | false =>
      rw [settled] at succeeded
      cases ended with
      | answered => exact .inr ⟨rfl, rfl⟩
      | refused => cases succeeded
      | lost => cases succeeded

/-- A call whose requests are answered reports success. -/
theorem succeeded_of_answered (state : σ) (input : ι) :
    (aim.call state ⟨true, .answered, input⟩).succeeded = true := by
  rw [Aim.call]
  cases aim.settled state <;> rfl

/-- A settled state is left alone. -/
theorem not_asked_of_settled {state : σ} (settled : aim.settled state = true) (call : Call ι) :
    (aim.call state call).asked = false := by
  rw [Aim.call, settled]
  split
  · rfl
  · rfl

section Run

variable (invariant : σ → Prop) {allowed : σ → Call ι → Prop}
  (keeps : ∀ state call, invariant state → allowed state call → aim.settled state = false →
    invariant (aim.change call.input state))

include keeps

/-- **What the change of an unsettled state keeps holds throughout a run,** whichever answers are
lost. -/
theorem throughout {state : σ} {calls : List (Call ι)} (start : invariant state)
    (permitted : GuardedRun.Each aim.step allowed state calls) :
    GuardedRun.Throughout aim.step invariant state calls := by
  refine GuardedRun.throughout_of_each invariant ?_ start permitted
  intro state call holds permitted
  rcases aim.step_cases state call with same | ⟨unsettled, changed⟩
  · rw [same]
    exact holds
  · rw [changed]
    exact keeps state call holds permitted unsettled

/-- **After a call that reports success the state is settled,** and the next call asks for
nothing. -/
theorem settled_of_succeeded
    (settles : ∀ state input, invariant state → aim.settled state = false →
      aim.settled (aim.change input state) = true)
    {state : σ} {calls : List (Call ι)} (start : invariant state)
    (permitted : GuardedRun.Each aim.step allowed state calls) {done : List (Call ι)}
    {call : Call ι} (before : done ++ [call] <+: calls)
    (succeeded : (aim.call (done.foldl aim.step state) call).succeeded = true) :
    aim.settled ((done ++ [call]).foldl aim.step state) = true ∧
      ∀ next, (aim.call ((done ++ [call]).foldl aim.step state) next).asked = false := by
  have holds : invariant (done.foldl aim.step state) :=
    aim.throughout invariant keeps start permitted done ((List.prefix_append _ _).trans before)
  have settled : aim.settled ((done ++ [call]).foldl aim.step state) = true := by
    rw [List.foldl_append, List.foldl_cons, List.foldl_nil]
    rcases aim.succeeded_cases succeeded with ⟨settled, same⟩ | ⟨unsettled, changed⟩
    · rw [same]
      exact settled
    · rw [changed]
      exact settles _ _ holds unsettled
  exact ⟨settled, aim.not_asked_of_settled settled⟩

end Run

end Aim

end Reconciler
