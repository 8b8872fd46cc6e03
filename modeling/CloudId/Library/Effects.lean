import Mathlib.Init

/-! Frame rules for operations on a state that may fail. What an operation did
before failing stays done, so a rule speaks of the state it ends in, whether it
returns or fails. -/
namespace Effects

variable {ε σ τ α β : Type}

/-- The state in which an operation ends. -/
def finalState : EStateM.Result ε σ α → σ
  | .ok _ state => state
  | .error _ state => state

/-- The operation returned. -/
def isOk : EStateM.Result ε σ α → Bool
  | .ok _ _ => true
  | .error _ _ => false

/-- The operation leaves a part of the state as it was. -/
def Keeps (view : σ → τ) (op : EStateM ε σ α) : Prop :=
  ∀ state, view (finalState (op state)) = view state

theorem keeps_pure (view : σ → τ) (value : α) :
    Keeps view (pure value : EStateM ε σ α) := fun _ => rfl

theorem keeps_throw (view : σ → τ) (error : ε) :
    Keeps view (throw error : EStateM ε σ α) := fun _ => rfl

theorem Keeps.bind {view : σ → τ} {op : EStateM ε σ α} {rest : α → EStateM ε σ β}
    (first : Keeps view op) (later : ∀ value, Keeps view (rest value)) :
    Keeps view (op >>= rest) := by
  intro state
  have kept := first state
  change view (finalState (EStateM.bind op rest state)) = view state
  rw [EStateM.bind]
  cases result : op state with
  | ok value next =>
    rw [result] at kept
    exact (later value next).trans kept
  | error error next =>
    rw [result] at kept
    exact kept

/-- The operation leads from states with a property to such states. -/
def Preserves (inv : σ → Prop) (op : EStateM ε σ α) : Prop :=
  ∀ state, inv state → inv (finalState (op state))

theorem preserves_pure (inv : σ → Prop) (value : α) :
    Preserves inv (pure value : EStateM ε σ α) := fun _ => id

theorem preserves_throw (inv : σ → Prop) (error : ε) :
    Preserves inv (throw error : EStateM ε σ α) := fun _ => id

theorem Preserves.bind {inv : σ → Prop} {op : EStateM ε σ α} {rest : α → EStateM ε σ β}
    (first : Preserves inv op) (later : ∀ value, Preserves inv (rest value)) :
    Preserves inv (op >>= rest) := by
  intro state holds
  have kept := first state holds
  change inv (finalState (EStateM.bind op rest state))
  rw [EStateM.bind]
  cases result : op state with
  | ok value next =>
    rw [result] at kept
    exact later value next kept
  | error error next =>
    rw [result] at kept
    exact kept

/-- After an operation that returned, the rest decides the final state. -/
theorem finalState_bind_ok {op : EStateM ε σ α} {rest : α → EStateM ε σ β} {state next : σ}
    {value : α} (returned : op state = .ok value next) :
    finalState ((op >>= rest) state) = finalState (rest value next) := by
  change finalState (EStateM.bind op rest state) = _
  rw [EStateM.bind, returned]

/-- What is only made of the value leaves the state to the operation. -/
theorem finalState_bind_pure (op : EStateM ε σ α) (made : α → β) (state : σ) :
    finalState ((do return made (← op)) state) = finalState (op state) := by
  change finalState (EStateM.bind op (fun value => EStateM.pure (made value)) state) = _
  rw [EStateM.bind]
  cases op state <;> rfl

/-- After an operation that returned comes the rest. -/
theorem bind_ok {op : EStateM ε σ α} {rest : α → EStateM ε σ β} {state next : σ} {value : α}
    (returned : op state = .ok value next) : (op >>= rest) state = rest value next := by
  change EStateM.bind op rest state = _
  rw [EStateM.bind, returned]

/-- After an operation that failed comes nothing. -/
theorem bind_error {op : EStateM ε σ α} {rest : α → EStateM ε σ β} {state next : σ} {error : ε}
    (failed : op state = .error error next) : (op >>= rest) state = .error error next := by
  change EStateM.bind op rest state = _
  rw [EStateM.bind, failed]

/-- How a sequence of two operations returns. -/
theorem bind_eq_ok {op : EStateM ε σ α} {rest : α → EStateM ε σ β} {state final : σ} {result : β} :
    (op >>= rest) state = .ok result final ↔
      ∃ value next, op state = .ok value next ∧ rest value next = .ok result final := by
  change EStateM.bind op rest state = _ ↔ _
  rw [EStateM.bind]
  cases op state with
  | ok value next =>
    constructor
    · intro continued
      exact ⟨value, next, rfl, continued⟩
    · rintro ⟨_, _, ⟨⟩, continued⟩
      exact continued
  | error error next => simp

/-- The operation returns a value and leaves a state with a property. -/
def Yields (op : EStateM ε σ α) (state : σ) (value : α) (after : σ → Prop) : Prop :=
  ∃ next, op state = .ok value next ∧ after next

theorem yields_pure {value : α} {state : σ} {after : σ → Prop} (holds : after state) :
    Yields (pure value : EStateM ε σ α) state value after :=
  ⟨state, rfl, holds⟩

/-- One operation after another. -/
theorem Yields.bind {op : EStateM ε σ α} {rest : α → EStateM ε σ β} {state : σ} {value : α}
    {result : β} {between after : σ → Prop} (first : Yields op state value between)
    (later : ∀ next, between next → Yields (rest value) next result after) :
    Yields (op >>= rest) state result after := by
  obtain ⟨next, returned, holds⟩ := first
  obtain ⟨final, returned', holds'⟩ := later next holds
  exact ⟨final, (bind_ok returned).trans returned', holds'⟩

/-- What an operation preserves holds after it has returned. -/
theorem Yields.preserves {inv : σ → Prop} {op : EStateM ε σ α} {state : σ} {value : α}
    {after : σ → Prop} (yields : Yields op state value after) (preserves : Preserves inv op)
    (holds : inv state) : Yields op state value fun next => after next ∧ inv next := by
  obtain ⟨next, returned, reached⟩ := yields
  refine ⟨next, returned, reached, ?_⟩
  have kept := preserves state holds
  rw [returned] at kept
  exact kept

theorem except_bind_eq_ok {op : Except ε α} {rest : α → Except ε β} {result : β} :
    (op >>= rest) = .ok result ↔ ∃ value, op = .ok value ∧ rest value = .ok result := by
  cases op with
  | ok value =>
    constructor
    · intro continued
      exact ⟨value, rfl, continued⟩
    · rintro ⟨_, ⟨⟩, continued⟩
      exact continued
  | error error => simp [bind, Except.bind]

end Effects
