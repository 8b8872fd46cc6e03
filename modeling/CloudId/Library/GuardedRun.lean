import Mathlib.Data.List.Infix

/-! Runs of a step function in which a property can be lost. When one step from
a good state is good again exactly under a guard, a whole run is good throughout
exactly when every event meets its guard in the state that finds it. -/
namespace GuardedRun

variable {σ ε : Type}

/-- A condition on every event, in the state that finds it. -/
def Each (step : σ → ε → σ) (guard : σ → ε → Prop) : σ → List ε → Prop
  | _, [] => True
  | state, event :: rest => guard state event ∧ Each step guard (step state event) rest

instance decidableEach {step : σ → ε → σ} {guard : σ → ε → Prop} [∀ state event, Decidable (guard state event)] :
    (state : σ) → (events : List ε) → Decidable (Each step guard state events)
  | _, [] => .isTrue trivial
  | state, event :: rest =>
    have : Decidable (Each step guard (step state event) rest) :=
      decidableEach (step state event) rest
    inferInstanceAs (Decidable (guard state event ∧ Each step guard (step state event) rest))

/-- A property of every state a run passes through, both ends included. -/
def Throughout (step : σ → ε → σ) (property : σ → Prop) (state : σ) (events : List ε) : Prop :=
  ∀ done, done <+: events → property (done.foldl step state)

theorem throughout_nil (step : σ → ε → σ) (property : σ → Prop) (state : σ) :
    Throughout step property state [] ↔ property state := by
  constructor
  · intro good
    exact good [] List.nil_prefix
  · intro good done before
    rw [List.prefix_nil.mp before]
    exact good

theorem throughout_cons (step : σ → ε → σ) (property : σ → Prop) (state : σ) (event : ε)
    (rest : List ε) : Throughout step property state (event :: rest) ↔
      property state ∧ Throughout step property (step state event) rest := by
  constructor
  · intro good
    refine ⟨good [] List.nil_prefix, fun done before => ?_⟩
    exact good (event :: done) (List.cons_prefix_cons.mpr ⟨rfl, before⟩)
  · rintro ⟨start, later⟩ done before
    rcases List.prefix_cons_iff.mp before with rfl | ⟨done, rfl, within⟩
    · exact start
    · exact later done within

/-- The end of a run that is good throughout is good. -/
theorem Throughout.last {step : σ → ε → σ} {property : σ → Prop} {state : σ} {events : List ε}
    (good : Throughout step property state events) : property (events.foldl step state) :=
  good events List.prefix_rfl

/-- **A run is good throughout exactly when each event meets its guard**, given
an invariant and assumptions on the events under which the guard of one step is
exact. -/
theorem throughout_iff_each (invariant : σ → Prop) {step : σ → ε → σ} {property : σ → Prop}
    {guard allowed : σ → ε → Prop}
    (keeps : ∀ state event, invariant state → allowed state event →
      invariant (step state event))
    (exact_ : ∀ state event, invariant state → allowed state event → property state →
      (property (step state event) ↔ guard state event))
    {state : σ} {events : List ε} (inv : invariant state) (start : property state)
    (permitted : Each step allowed state events) :
    Throughout step property state events ↔ Each step guard state events := by
  induction events generalizing state with
  | nil => simp [throughout_nil, Each, start]
  | cons event rest ih =>
    obtain ⟨permitted, later⟩ := permitted
    have next := exact_ state event inv permitted start
    rw [throughout_cons, Each]
    constructor
    · rintro ⟨_, good⟩
      have good_next : property (step state event) := good [] List.nil_prefix
      exact ⟨next.mp good_next, (ih (keeps state event inv permitted) good_next later).mp good⟩
    · rintro ⟨met, each⟩
      exact ⟨start, (ih (keeps state event inv permitted) (next.mpr met) later).mpr each⟩

theorem Throughout.mono {step : σ → ε → σ} {property weaker : σ → Prop} {state : σ}
    {events : List ε} (good : Throughout step property state events)
    (implies : ∀ state, property state → weaker state) :
    Throughout step weaker state events :=
  fun done before => implies _ (good done before)

/-- **An invariant that every event keeps under its guard** holds throughout a run
whose events all meet it. -/
theorem throughout_of_each (invariant : σ → Prop) {step : σ → ε → σ} {guard : σ → ε → Prop}
    (keeps : ∀ state event, invariant state → guard state event → invariant (step state event))
    {state : σ} {events : List ε} (start : invariant state)
    (met : Each step guard state events) : Throughout step invariant state events := by
  induction events generalizing state with
  | nil => exact (throughout_nil ..).mpr start
  | cons event rest ih =>
    exact (throughout_cons ..).mpr ⟨start, ih (keeps state event start met.1) met.2⟩

/-- Where the property has held once, it holds from then on. -/
def Lasts (step : σ → ε → σ) (property : σ → Prop) (state : σ) (events : List ε) : Prop :=
  ∀ done later, done ++ later <+: events → property (done.foldl step state) →
    property ((done ++ later).foldl step state)

/-- **A property that no event ends**, where the invariant holds and the event meets its
guard, lasts. -/
theorem lasts_of_each (invariant : σ → Prop) {step : σ → ε → σ} {guard : σ → ε → Prop}
    {property : σ → Prop}
    (keeps : ∀ state event, invariant state → guard state event → invariant (step state event))
    (stays : ∀ state event, invariant state → property state → property (step state event))
    {state : σ} {events : List ε} (start : invariant state)
    (met : Each step guard state events) : Lasts step property state events := by
  induction events generalizing state with
  | nil =>
    intro done later before held
    rw [List.prefix_nil, List.append_eq_nil_iff] at before
    rw [before.1] at held ⊢
    rw [before.2]
    exact held
  | cons event rest ih =>
    intro done later before held
    cases done with
    | nil =>
      have both : Throughout step (fun state => invariant state ∧ property state) state
          (event :: rest) :=
        throughout_of_each _ (fun state event holds met =>
          ⟨keeps state event holds.1 met, stays state event holds.1 holds.2⟩) ⟨start, held⟩ met
      exact (both later before).2
    | cons first done =>
      obtain ⟨rfl, within⟩ := List.cons_prefix_cons.mp before
      exact ih (keeps state first start met.1) met.2 done later within held

theorem each_of_forall {step : σ → ε → σ} {guard : σ → ε → Prop}
    (holds : ∀ state event, guard state event) (state : σ) (events : List ε) :
    Each step guard state events := by
  induction events generalizing state with
  | nil => trivial
  | cons event rest ih => exact ⟨holds state event, ih _⟩

/-- Two conditions that agree wherever an invariant holds. -/
theorem each_congr (invariant : σ → Prop) {step : σ → ε → σ} {guard guard' : σ → ε → Prop}
    (keeps : ∀ state event, invariant state → invariant (step state event))
    (agree : ∀ state event, invariant state → (guard state event ↔ guard' state event))
    {state : σ} {events : List ε} (inv : invariant state) :
    Each step guard state events ↔ Each step guard' state events := by
  induction events generalizing state with
  | nil => exact Iff.rfl
  | cons event rest ih =>
    rw [Each, Each, agree state event inv, ih (keeps state event inv)]

/-- The same where nothing is assumed of the events. -/
theorem throughout_iff_each_event (invariant : σ → Prop) {step : σ → ε → σ} {property : σ → Prop}
    {guard : σ → ε → Prop} (keeps : ∀ state event, invariant state → invariant (step state event))
    (exact_ : ∀ state event, invariant state → property state →
      (property (step state event) ↔ guard state event))
    {state : σ} {events : List ε} (inv : invariant state) (start : property state) :
    Throughout step property state events ↔ Each step guard state events :=
  throughout_iff_each invariant (fun state event inv (_ : True) => keeps state event inv)
    (fun state event inv _ => exact_ state event inv) inv start
    (each_of_forall (fun _ _ => trivial) state events)

/-- What holds throughout, with what holds of every event, read as a condition
on each event and the state it leads to. -/
theorem Throughout.each_next {step : σ → ε → σ} {property : σ → Prop} {sort : ε → Prop}
    {state : σ} {events : List ε} (good : Throughout step property state events)
    (sorted : ∀ event ∈ events, sort event) :
    Each step (fun state event => sort event ∧ property (step state event)) state events := by
  induction events generalizing state with
  | nil => trivial
  | cons event rest ih =>
    have later := ((throughout_cons ..).mp good).2
    have next : property (step state event) := later [] List.nil_prefix
    exact ⟨⟨sorted event List.mem_cons_self, next⟩,
      ih later fun other listed => sorted other (List.mem_cons_of_mem _ listed)⟩

/-- A condition that reads only a part of the state, along a run of that part. -/
theorem each_view {τ : Type} {step : σ → ε → σ} (part : τ → ε → τ) (view : σ → τ)
    (guard : τ → ε → Prop)
    (simulates : ∀ state event, view (step state event) = part (view state) event)
    (state : σ) (events : List ε) :
    Each step (fun state event => guard (view state) event) state events ↔
      Each part guard (view state) events := by
  induction events generalizing state with
  | nil => exact Iff.rfl
  | cons event rest ih => rw [Each, Each, ih, simulates]

/-! ## What a run overwrites -/

variable {τ δ : Type}

/-- What the events of a run write, in order. -/
def writes (step : σ → ε → σ) (write : σ → ε → Option δ) : σ → List ε → List δ
  | _, [] => []
  | state, event :: rest => (write state event).toList ++ writes step write (step state event) rest

/-- **A part of the state that every event overwrites or keeps is what was written last.** -/
theorem view_last_write {step : σ → ε → σ} {write : σ → ε → Option δ} {view : σ → τ} {made : δ → τ}
    (overwrites : ∀ state event, view (step state event) =
      ((write state event).map made).getD (view state)) (state : σ) (events : List ε) :
    view (events.foldl step state) =
      ((writes step write state events).getLast?.map made).getD (view state) := by
  induction events generalizing state with
  | nil => rfl
  | cons event rest ih =>
    rw [List.foldl_cons, ih, overwrites, writes, List.getLast?_append]
    cases (writes step write (step state event) rest).getLast? with
    | some last => rfl
    | none => cases write state event <;> rfl

/-- Something was written if the run leaves the states from where nothing is. -/
theorem writes_ne_nil {step : σ → ε → σ} {write : σ → ε → Option δ} {before : σ → Prop}
    (stays : ∀ state event, before state → write state event = none → before (step state event))
    {state : σ} {events : List ε} (begins : before state)
    (leaves : ¬ before (events.foldl step state)) : writes step write state events ≠ [] := by
  induction events generalizing state with
  | nil => exact absurd begins leaves
  | cons event rest ih =>
    rw [writes]
    cases written : write state event with
    | some value => simp
    | none => exact ih (stays state event begins written) leaves

end GuardedRun
