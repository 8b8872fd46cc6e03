import Mathlib.Logic.Function.Basic

/-! A local copy of a key-value bucket that others write. The copy is filled by
listing the keys and reading them one by one, then kept by a watch that
delivers every later write in order, and it survives the loss of the
connection. Loading only adds to the copy, so it can miss a write; `Heeded` is
the condition on a write, or on a disconnect, under which it does not, and
`step_keeps_inv` derives that a watching copy with nothing pending is the
bucket. -/
namespace KvMirror

variable {κ υ : Type} [DecidableEq κ]

/-- Where the copy stands: without a listing, reading the listed keys, between
the last read and the watch, or watching with writes not yet applied. -/
inductive Phase (κ υ : Type) where
  | idle
  | loading (rest : List κ)
  | loaded
  | watching (pending : List (κ × Option υ))

structure State (κ υ : Type) where
  bucket : κ → Option υ
  copy : κ → Option υ
  phase : Phase κ υ

/-- A write reaches the watch, if there is one. -/
def Phase.notice (entry : κ × Option υ) : Phase κ υ → Phase κ υ
  | .watching pending => .watching (pending ++ [entry])
  | phase => phase

inductive Event (κ υ : Type) where
  | write (key : κ) (value : Option υ)
  | list (keys : List κ)
  | read
  | finish
  | watch
  | deliver
  | drop

inductive Step : State κ υ → Event κ υ → State κ υ → Prop where
  | write {state : State κ υ} (key : κ) (value : Option υ) :
      Step state (.write key value)
        { state with
          bucket := Function.update state.bucket key value
          phase := state.phase.notice (key, value) }
  | list {state : State κ υ} (keys : List κ) (idle : state.phase = .idle)
      (complete : ∀ key, state.bucket key ≠ none → key ∈ keys) :
      Step state (.list keys) { state with phase := .loading keys }
  | read {state : State κ υ} (key : κ) (rest : List κ) (loading : state.phase = .loading (key :: rest)) :
      Step state .read
        { state with
          copy := Function.update state.copy key ((state.bucket key).or (state.copy key))
          phase := .loading rest }
  | finish {state : State κ υ} (loading : state.phase = .loading []) :
      Step state .finish { state with phase := .loaded }
  | watch {state : State κ υ} (loaded : state.phase = .loaded) :
      Step state .watch { state with phase := .watching [] }
  | deliver {state : State κ υ} (key : κ) (value : Option υ) (pending : List (κ × Option υ))
      (watching : state.phase = .watching ((key, value) :: pending)) :
      Step state .deliver
        { state with
          copy := Function.update state.copy key value
          phase := .watching pending }
  | drop {state : State κ υ} : Step state .drop { state with phase := .idle }

/-- The copy will not miss the event. A value written during the load is still
to be read, or is in the copy already; a key is deleted under a watch, or is
not in the copy; and a watch is lost when the copy has only keys of the bucket. -/
def Heeded (state : State κ υ) : Event κ υ → Prop
  | .write key (some value) =>
    match state.phase with
    | .loading rest => key ∈ rest ∨ state.copy key = some value
    | .loaded => state.copy key = some value
    | _ => True
  | .write key none =>
    match state.phase with
    | .watching _ => True
    | _ => state.copy key = none
  | .drop =>
    match state.phase with
    | .watching _ => ∀ key, state.bucket key = none → state.copy key = none
    | _ => True
  | _ => True

/-- The copy after the pending writes. -/
def replay (pending : List (κ × Option υ)) (copy : κ → Option υ) : κ → Option υ :=
  pending.foldl (fun copy entry => Function.update copy entry.1 entry.2) copy

/-- The invariant, phase by phase. -/
def Inv (state : State κ υ) : Prop :=
  match state.phase with
  | .idle => ∀ key, state.bucket key = none → state.copy key = none
  | .loading rest => (∀ key, state.bucket key = none → state.copy key = none) ∧
      ∀ key, key ∉ rest → state.copy key = state.bucket key
  | .loaded => state.copy = state.bucket
  | .watching pending => replay pending state.copy = state.bucket

/-- In every phase before the watch, the copy has only keys of the bucket. -/
theorem inv_within {state : State κ υ} (inv : Inv state)
    (unwatched : ∀ pending, state.phase ≠ .watching pending) (key : κ)
    (absent : state.bucket key = none) : state.copy key = none := by
  rw [Inv] at inv
  cases phase : state.phase with
  | idle =>
    rw [phase] at inv
    exact inv key absent
  | loading rest =>
    rw [phase] at inv
    exact inv.1 key absent
  | loaded =>
    rw [phase] at inv
    rw [inv]
    exact absent
  | watching pending => exact absurd phase (unwatched pending)

/-- A deleted key that is not in the copy, or a written one, leaves the copy
within the bucket. -/
private theorem within_write {bucket copy : κ → Option υ}
    (within : ∀ key, bucket key = none → copy key = none) {key : κ} {value : Option υ}
    (deleted : value = none → copy key = none) (other : κ)
    (absent : Function.update bucket key value other = none) : copy other = none := by
  by_cases same : other = key
  · subst same
    exact deleted (by simpa using absent)
  · rw [Function.update_of_ne same] at absent
    exact within other absent

private theorem write_keeps_inv {state : State κ υ} (inv : Inv state) (key : κ)
    (value : Option υ) (heeded : Heeded state (.write key value)) :
    Inv { state with
      bucket := Function.update state.bucket key value
      phase := state.phase.notice (key, value) } := by
  cases phase : state.phase with
  | idle =>
    have within := inv_within inv (by simp [phase])
    apply within_write within
    rintro rfl
    simpa [Heeded, phase] using heeded
  | loading rest =>
    have within := inv_within inv (by simp [phase])
    rw [Inv, phase] at inv
    constructor
    · apply within_write within
      rintro rfl
      simpa [Heeded, phase] using heeded
    · intro other unlisted
      change state.copy other = Function.update state.bucket key value other
      by_cases same : other = key
      · subst same
        rw [Function.update_self]
        cases value with
        | none => simpa [Heeded, phase] using heeded
        | some value => simpa [Heeded, phase, unlisted] using heeded
      · rw [Function.update_of_ne same]
        exact inv.2 other unlisted
  | loaded =>
    rw [Inv, phase] at inv
    funext other
    change state.copy other = Function.update state.bucket key value other
    by_cases same : other = key
    · subst same
      rw [Function.update_self]
      cases value <;> simpa [Heeded, phase] using heeded
    · rw [Function.update_of_ne same, inv]
  | watching pending =>
    rw [Inv, phase] at inv
    change replay (pending ++ [(key, value)]) state.copy = Function.update state.bucket key value
    rw [← inv, replay, List.foldl_append]
    rfl

/-- **A heeded event keeps the invariant.** -/
theorem step_keeps_inv {state next : State κ υ} {event : Event κ υ} (inv : Inv state)
    (step : Step state event next) (heeded : Heeded state event) : Inv next := by
  cases step with
  | write key value => exact write_keeps_inv inv key value heeded
  | list keys idle complete =>
    have within := inv_within inv (by simp [idle])
    refine ⟨within, fun key unlisted => ?_⟩
    have absent : state.bucket key = none := by
      by_contra present
      exact unlisted (complete key present)
    rw [within key absent, absent]
  | read key rest loading =>
    rw [Inv, loading] at inv
    obtain ⟨within, settled⟩ := inv
    constructor
    · intro other absent
      change state.bucket other = none at absent
      by_cases same : other = key
      · subst same
        simp [absent, within other absent]
      · simpa [Function.update_of_ne same] using within other absent
    · intro other unlisted
      change Function.update state.copy key _ other = state.bucket other
      by_cases same : other = key
      · subst same
        cases held : state.bucket other with
        | none => simp [within other held]
        | some value => simp
      · rw [Function.update_of_ne same]
        exact settled other (by simp [same, unlisted])
  | finish loading =>
    rw [Inv, loading] at inv
    funext key
    exact inv.2 key List.not_mem_nil
  | watch loaded =>
    rw [Inv, loaded] at inv
    exact inv
  | deliver key value pending watching =>
    rw [Inv, watching] at inv
    exact inv
  | drop =>
    cases phase : state.phase with
    | watching pending =>
      rw [Heeded, phase] at heeded
      exact heeded
    | _ =>
      have within := inv_within inv (by simp [phase])
      exact within

/-- **A watching copy with nothing pending is the bucket.** -/
theorem inv_watching {state : State κ υ} (inv : Inv state) (watching : state.phase = .watching []) :
    state.copy = state.bucket := by
  rw [Inv, watching] at inv
  exact inv

end KvMirror
