import Mathlib.Data.Fintype.Basic
import Mathlib.Data.List.Nodup
import Mathlib.Data.Set.Finite.Lemmas
import Mathlib.Logic.Relation
import Mathlib.Order.WellFounded

/-! Tasks that take and release reader/writer locks with fair queues. A request that
cannot be granted queues up, and behind a queued writer readers queue too. The
tasks that wait for one another form a waiting set; a state without one makes
progress. In a waiting set of tasks that hold no write lock while they ask for
another one, every lock that is asked for is asked for by a writer and held, and if
the locks have an order, some task takes them against it. -/
namespace FairLocks

variable {τ ℓ : Type}

inductive Mode where
  | read
  | write
  deriving DecidableEq

inductive Op (ℓ : Type) where
  | acquire (lock : ℓ) (mode : Mode)
  | release (lock : ℓ)
  deriving DecidableEq

/-! ## Programs -/

section Programs

variable [DecidableEq ℓ]

/-- How a task holds the locks after an operation. -/
def heldAfter (held : ℓ → Option Mode) : Op ℓ → ℓ → Option Mode
  | .acquire lock mode => Function.update held lock (some mode)
  | .release lock => Function.update held lock none

/-- How a task holds the locks that has done these operations. -/
def heldBy (done : List (Op ℓ)) : ℓ → Option Mode := done.foldl heldAfter fun _ => none

/-- Every request of a program meets a rule on what is held by then. -/
def Follows (rule : (ℓ → Option Mode) → ℓ → Mode → Prop) :
    (ℓ → Option Mode) → List (Op ℓ) → Prop
  | _, [] => True
  | held, .acquire lock mode :: rest =>
    rule held lock mode ∧ Follows rule (heldAfter held (.acquire lock mode)) rest
  | held, .release lock :: rest => Follows rule (heldAfter held (.release lock)) rest

instance instDecidableFollows (rule : (ℓ → Option Mode) → ℓ → Mode → Prop)
    [∀ held lock mode, Decidable (rule held lock mode)] :
    ∀ held program, Decidable (Follows rule held program)
  | _, [] => isTrue trivial
  | held, .acquire lock mode :: rest =>
    have := instDecidableFollows rule (heldAfter held (.acquire lock mode)) rest
    inferInstanceAs (Decidable (_ ∧ _))
  | held, .release lock :: rest => instDecidableFollows rule (heldAfter held (.release lock)) rest

theorem follows_append (rule : (ℓ → Option Mode) → ℓ → Mode → Prop) (held : ℓ → Option Mode)
    (first second : List (Op ℓ)) :
    Follows rule held (first ++ second) ↔
      Follows rule held first ∧ Follows rule (first.foldl heldAfter held) second := by
  induction first generalizing held with
  | nil => simp [Follows]
  | cons op rest step =>
    cases op with
    | acquire lock mode => simp only [List.cons_append, Follows, step, List.foldl_cons, and_assoc]
    | release lock => simp only [List.cons_append, Follows, step, List.foldl_cons]

theorem Follows.at_request {rule : (ℓ → Option Mode) → ℓ → Mode → Prop}
    {done rest : List (Op ℓ)} {lock : ℓ} {mode : Mode}
    (follows : Follows rule (fun _ => none) (done ++ .acquire lock mode :: rest)) :
    rule (heldBy done) lock mode :=
  ((follows_append ..).mp follows).2.1

/-- A program that releases all it takes, put before another one. -/
theorem Follows.append {rule : (ℓ → Option Mode) → ℓ → Mode → Prop}
    {first second : List (Op ℓ)} (balanced : heldBy first = fun _ => none)
    (follows : Follows rule (fun _ => none) first)
    (follows' : Follows rule (fun _ => none) second) :
    Follows rule (fun _ => none) (first ++ second) := by
  refine (follows_append ..).mpr ⟨follows, ?_⟩
  rw [heldBy] at balanced
  rwa [balanced]

theorem held_by_append {first : List (Op ℓ)} (balanced : heldBy first = fun _ => none)
    (second : List (Op ℓ)) : heldBy (first ++ second) = heldBy second := by
  rw [heldBy] at balanced
  rw [heldBy, List.foldl_append, balanced, heldBy]

/-- The program asks for a lock while it holds another one. -/
def TakesUnder (program : List (Op ℓ)) (outer inner : ℓ) : Prop :=
  ∃ done mode rest, program = done ++ .acquire inner mode :: rest ∧ heldBy done outer ≠ none

/-- What a rule says where a lock is taken under another one. -/
theorem TakesUnder.follows {program : List (Op ℓ)} {outer inner : ℓ}
    (related : ℓ → ℓ → Prop) (under : TakesUnder program outer inner)
    (follows : Follows (fun held lock _ => ∀ other, held other ≠ none → related other lock)
      (fun _ => none) program) : related outer inner := by
  obtain ⟨done, mode, rest, rfl, holds⟩ := under
  exact follows.at_request outer holds

/-- The lock that is asked for is not held yet. -/
def Fresh (held : ℓ → Option Mode) (lock : ℓ) (_ : Mode) : Prop := held lock = none

/-- Nothing is held in write mode at a request. -/
def NoWriteHeld (held : ℓ → Option Mode) (_ : ℓ) (_ : Mode) : Prop :=
  ∀ lock, held lock ≠ some .write

/-- A write request is made with nothing held. -/
def WritesAlone (held : ℓ → Option Mode) (_ : ℓ) (mode : Mode) : Prop :=
  mode = .write → held = fun _ => none

/-- What is held at a request comes before it in an order of the locks. -/
def Ascends (rank : ℓ → Nat) (held : ℓ → Option Mode) (lock : ℓ) (_ : Mode) : Prop :=
  ∀ other, held other ≠ none → rank other < rank lock

section Decide

variable [Fintype ℓ] (held : ℓ → Option Mode) (lock : ℓ) (mode : Mode)

omit [DecidableEq ℓ] in
instance : Decidable (Fresh held lock mode) := inferInstanceAs (Decidable (_ = _))

instance : Decidable (NoWriteHeld held lock mode) := inferInstanceAs (Decidable (∀ _, _))

instance : Decidable (WritesAlone held lock mode) := inferInstanceAs (Decidable (_ → _))

instance (rank : ℓ → Nat) : Decidable (Ascends rank held lock mode) :=
  inferInstanceAs (Decidable (∀ _, _ → _))

end Decide

theorem TakesUnder.ascends {program : List (Op ℓ)} {outer inner : ℓ} {rank : ℓ → Nat}
    (under : TakesUnder program outer inner)
    (ascends : Follows (Ascends rank) (fun _ => none) program) : rank outer < rank inner :=
  TakesUnder.follows (fun outer inner => rank outer < rank inner) under ascends

theorem Follows.mono {rule weaker : (ℓ → Option Mode) → ℓ → Mode → Prop}
    (implies : ∀ held lock mode, rule held lock mode → weaker held lock mode)
    {held : ℓ → Option Mode} {program : List (Op ℓ)} (follows : Follows rule held program) :
    Follows weaker held program := by
  induction program generalizing held with
  | nil => trivial
  | cons op rest step =>
    cases op with
    | acquire lock mode => exact ⟨implies _ _ _ follows.1, step follows.2⟩
    | release lock => exact step follows

end Programs

/-! ## States -/

/-- What each task has done and has still to do, and the queues, first come first. -/
structure State (τ ℓ : Type) where
  done : τ → List (Op ℓ)
  rest : τ → List (Op ℓ)
  queue : ℓ → List τ

namespace State

variable [DecidableEq ℓ]

def holds (state : State τ ℓ) (task : τ) (lock : ℓ) : Option Mode := heldBy (state.done task) lock

/-- A holder stands against a request. -/
def Blocks (state : State τ ℓ) (holder : τ) (lock : ℓ) : Mode → Prop
  | .read => state.holds holder lock = some .write
  | .write => state.holds holder lock ≠ none

instance (state : State τ ℓ) (holder : τ) (lock : ℓ) (mode : Mode) :
    Decidable (state.Blocks holder lock mode) :=
  match mode with
  | .read => inferInstanceAs (Decidable (_ = _))
  | .write => inferInstanceAs (Decidable (_ ≠ _))

/-- The task asks for the lock next. -/
def Asks (state : State τ ℓ) (task : τ) (lock : ℓ) (mode : Mode) : Prop :=
  (state.rest task).head? = some (.acquire lock mode)

instance (state : State τ ℓ) (task : τ) (lock : ℓ) (mode : Mode) :
    Decidable (state.Asks task lock mode) :=
  inferInstanceAs (Decidable (_ = _))

/-- A request is granted: no other one is queued before it, and no holder stands
against it. -/
def CanAcquire (state : State τ ℓ) (task : τ) (lock : ℓ) (mode : Mode) : Prop :=
  (∀ first ∈ (state.queue lock).head?, first = task) ∧
    ∀ holder, ¬ state.Blocks holder lock mode

/-- The task can take its next acquire or release step. -/
def CanAdvance (state : State τ ℓ) (task : τ) : Prop :=
  match state.rest task with
  | [] => False
  | .release _ :: _ => True
  | .acquire lock mode :: _ => state.CanAcquire task lock mode

instance [Fintype τ] [DecidableEq τ] (state : State τ ℓ) (task : τ) (lock : ℓ) (mode : Mode) :
    Decidable (state.CanAcquire task lock mode) :=
  inferInstanceAs (Decidable (_ ∧ _))

instance [Fintype τ] [DecidableEq τ] (state : State τ ℓ) (task : τ) :
    Decidable (state.CanAdvance task) :=
  match next : state.rest task with
  | [] => isFalse (by simp [CanAdvance, next])
  | .release _ :: _ => isTrue (by simp [CanAdvance, next])
  | .acquire lock mode :: rest =>
    decidable_of_iff (state.CanAcquire task lock mode) (by simp [CanAdvance, next])

variable [DecidableEq τ]

/-- One task waits for another one, which is queued before it or holds the lock. -/
def WaitsFor (state : State τ ℓ) (task other : τ) : Prop :=
  ∃ lock mode, state.Asks task lock mode ∧ ¬ state.CanAcquire task lock mode ∧
    (other ∈ state.queue lock ∧
        (state.queue lock).idxOf other < (state.queue lock).idxOf task ∨
      state.Blocks other lock mode)

/-- Tasks each of which waits for one of them. -/
structure Waiting (state : State τ ℓ) (tasks : Set τ) : Prop where
  nonempty : tasks.Nonempty
  waits : ∀ task ∈ tasks, ∃ other ∈ tasks, state.WaitsFor task other

/-- The task has taken its next step. -/
def advance (state : State τ ℓ) (task : τ) (op : Op ℓ) (rest : List (Op ℓ)) : State τ ℓ where
  done := Function.update state.done task (state.done task ++ [op])
  rest := Function.update state.rest task rest
  queue := state.queue

variable [Fintype τ]

/-- A task goes on: it takes its next step, or its request is queued. -/
def act (state : State τ ℓ) (task : τ) : State τ ℓ :=
  match state.rest task with
  | [] => state
  | .release lock :: rest => state.advance task (.release lock) rest
  | .acquire lock mode :: rest =>
    if state.CanAcquire task lock mode then
      { state.advance task (.acquire lock mode) rest with
        queue := Function.update state.queue lock ((state.queue lock).erase task) }
    else if task ∈ state.queue lock then state
    else { state with queue := Function.update state.queue lock (state.queue lock ++ [task]) }

/-- The state after the tasks have gone on in some order. -/
def run (state : State τ ℓ) (schedule : List τ) : State τ ℓ := schedule.foldl act state

end State

/-- The state before the first step. -/
def State.start (programs : τ → List (Op ℓ)) : State τ ℓ where
  done _ := []
  rest := programs
  queue _ := []

@[simp] theorem start_done (programs : τ → List (Op ℓ)) (task : τ) :
    (State.start programs).done task = [] := rfl

@[simp] theorem start_rest (programs : τ → List (Op ℓ)) (task : τ) :
    (State.start programs).rest task = programs task := rfl

@[simp] theorem start_queue (programs : τ → List (Op ℓ)) :
    (State.start programs).queue = fun _ => [] := rfl

/-! ## Invariants -/

section Invariants

variable [DecidableEq τ] [DecidableEq ℓ]

/-- The tasks are on their programs, and a queued task asks for the lock. -/
structure Inv (programs : τ → List (Op ℓ)) (state : State τ ℓ) : Prop where
  on_program : ∀ task, state.done task ++ state.rest task = programs task
  asks : ∀ task lock, task ∈ state.queue lock → ∃ mode, state.Asks task lock mode
  once : ∀ lock, (state.queue lock).Nodup

omit [DecidableEq τ] [DecidableEq ℓ] in
theorem start_inv (programs : τ → List (Op ℓ)) : Inv programs (.start programs) where
  on_program _ := rfl
  asks _ _ queued := absurd queued List.not_mem_nil
  once _ := List.nodup_nil

omit [DecidableEq ℓ] in
theorem advance_on_program {programs : τ → List (Op ℓ)} {state : State τ ℓ}
    (inv : Inv programs state) {task : τ} {op : Op ℓ} {rest : List (Op ℓ)}
    (next : state.rest task = op :: rest) (other : τ) :
    (state.advance task op rest).done other ++ (state.advance task op rest).rest other =
      programs other := by
  have before := inv.on_program other
  rw [State.advance]
  by_cases same : other = task
  · subst same
    rw [next] at before
    simpa using before
  · simpa [same] using before

variable [Fintype τ]

theorem act_inv {programs : τ → List (Op ℓ)} {state : State τ ℓ} (inv : Inv programs state)
    (task : τ) : Inv programs (state.act task) := by
  rw [State.act]
  split
  · exact inv
  · rename_i lock rest next
    refine ⟨advance_on_program inv next, ?_, inv.once⟩
    intro other at_lock queued
    obtain ⟨mode, asks⟩ := inv.asks other at_lock queued
    have differs : other ≠ task := by
      rintro rfl
      rw [State.Asks, next] at asks
      cases asks
    exact ⟨mode, by rw [State.advance]; simpa [State.Asks, differs] using asks⟩
  · rename_i lock mode rest next
    split
    · refine ⟨advance_on_program inv next, ?_, ?_⟩
      · intro other at_lock queued
        have listed : other ∈ state.queue at_lock ∧ other ≠ task := by
          by_cases same : at_lock = lock
          · subst same
            have erased : other ∈ (state.queue at_lock).erase task := by simpa using queued
            exact ⟨List.mem_of_mem_erase erased, ((inv.once at_lock).mem_erase_iff.mp erased).1⟩
          · have before : other ∈ state.queue at_lock := by simpa [same] using queued
            refine ⟨before, ?_⟩
            rintro rfl
            obtain ⟨_, asks⟩ := inv.asks other at_lock before
            rw [State.Asks, next] at asks
            cases asks
            exact same rfl
        obtain ⟨mode', asks⟩ := inv.asks other at_lock listed.1
        exact ⟨mode', by rw [State.advance]; simpa [State.Asks, listed.2] using asks⟩
      · intro at_lock
        by_cases same : at_lock = lock
        · subst same
          simpa using (inv.once at_lock).erase task
        · simpa [same] using inv.once at_lock
    · split
      · exact inv
      · rename_i absent
        refine ⟨inv.on_program, ?_, ?_⟩
        · intro other at_lock queued
          by_cases same : at_lock = lock
          · subst same
            have listed : other ∈ state.queue at_lock ∨ other = task := by simpa using queued
            rcases listed with before | rfl
            · exact inv.asks other at_lock before
            · exact ⟨mode, by rw [State.Asks, next]; rfl⟩
          · exact inv.asks other at_lock (by simpa [same] using queued)
        · intro at_lock
          by_cases same : at_lock = lock
          · subst same
            simpa using List.nodup_append.mpr ⟨inv.once at_lock, List.nodup_singleton task, by
              intro other listed last at_end
              rw [List.mem_singleton.mp at_end]
              rintro rfl
              exact absent listed⟩
          · simpa [same] using inv.once at_lock

theorem run_inv {programs : τ → List (Op ℓ)} {state : State τ ℓ} (inv : Inv programs state)
    (schedule : List τ) : Inv programs (state.run schedule) := by
  induction schedule generalizing state with
  | nil => exact inv
  | cons task rest step => exact step (act_inv inv task)

end Invariants

/-! ## Waiting sets -/

section WaitingSets

variable [DecidableEq τ] [DecidableEq ℓ] {programs : τ → List (Op ℓ)} {state : State τ ℓ}

theorem waits_for_some {task : τ} {lock : ℓ} {mode : Mode} (asks : state.Asks task lock mode)
    (blocked : ¬ state.CanAcquire task lock mode) : ∃ other, state.WaitsFor task other := by
  have cause := blocked
  rw [State.CanAcquire, not_and_or] at cause
  push Not at cause
  rcases cause with ⟨first, at_head, differs⟩ | ⟨holder, blocks⟩
  · obtain ⟨tail, queue⟩ := List.head?_eq_some_iff.mp at_head
    refine ⟨first, lock, mode, asks, blocked, .inl ⟨?_, ?_⟩⟩
    · rw [queue]
      exact List.mem_cons_self
    · rw [queue, List.idxOf_cons_self, List.idxOf_cons_ne _ differs]
      exact Nat.succ_pos _
  · exact ⟨holder, lock, mode, asks, blocked, .inr blocks⟩

/-- What a task waits for has not finished, when the programs release all they take. -/
theorem awaited_unfinished (inv : Inv programs state)
    (balanced : ∀ task, heldBy (programs task) = fun _ => none) {task other : τ}
    (waits : state.WaitsFor task other) : state.rest other ≠ [] := by
  intro finished
  obtain ⟨lock, mode, -, -, ⟨queued, -⟩ | blocks⟩ := waits
  · obtain ⟨_, asks⟩ := inv.asks other lock queued
    rw [State.Asks, finished] at asks
    cases asks
  · have program := inv.on_program other
    rw [finished, List.append_nil] at program
    have holds : state.holds other lock = none := by
      rw [State.holds, program, balanced other]
    cases mode with
    | read => rw [State.Blocks, holds] at blocks; cases blocks
    | write => exact blocks holds

/-- In a state in which no task can go on, those that have not finished wait for one
another. -/
theorem stuck_waiting (inv : Inv programs state)
    (balanced : ∀ task, heldBy (programs task) = fun _ => none)
    {unfinished : τ} (left : state.rest unfinished ≠ [])
    (stuck : ∀ task, ¬ state.CanAdvance task) :
    state.Waiting {task | state.rest task ≠ []} := by
  refine ⟨⟨unfinished, left⟩, ?_⟩
  intro task remains
  have blocked := stuck task
  rw [State.CanAdvance] at blocked
  split at blocked
  · rename_i next
    exact absurd next remains
  · exact absurd trivial blocked
  · rename_i lock mode rest next
    obtain ⟨other, waits⟩ := waits_for_some (by rw [State.Asks, next]; rfl) blocked
    exact ⟨other, awaited_unfinished inv balanced waits, waits⟩

/-- The tasks on a cycle wait for one another. -/
theorem cycle_waiting {task : τ} (cycle : Relation.TransGen state.WaitsFor task task) :
    state.Waiting {other | Relation.TransGen state.WaitsFor task other ∧
      Relation.TransGen state.WaitsFor other task} := by
  refine ⟨⟨task, cycle, cycle⟩, ?_⟩
  rintro other ⟨reached, back⟩
  rcases Relation.TransGen.head'_iff.mp back with ⟨next, waits, rest⟩
  refine ⟨next, ⟨reached.tail waits, ?_⟩, waits⟩
  rcases Relation.reflTransGen_iff_eq_or_transGen.mp rest with rfl | further
  · exact cycle
  · exact further

omit [DecidableEq τ] [DecidableEq ℓ] in
/-- A task asks for one lock at a time. -/
theorem asks_one {task : τ} {lock lock' : ℓ} {mode mode' : Mode}
    (asks : state.Asks task lock mode) (asks' : state.Asks task lock' mode') :
    lock = lock' ∧ mode = mode' := by
  have same := asks.symm.trans asks'
  injection same with same
  injection same with same_lock same_mode
  exact ⟨same_lock, same_mode⟩

omit [DecidableEq τ] in
/-- A task that asks for a lock while it holds another one takes it under that one. -/
theorem takes_under (inv : Inv programs state) {task : τ} {outer inner : ℓ} {mode : Mode}
    (asks : state.Asks task inner mode) (holds : state.holds task outer ≠ none) :
    TakesUnder (programs task) outer inner := by
  obtain ⟨rest, next⟩ := List.head?_eq_some_iff.mp asks
  exact ⟨state.done task, mode, rest, by rw [← next, inv.on_program], holds⟩

omit [DecidableEq τ] [DecidableEq ℓ] in
/-- A lock that a task asks for is on its program. -/
theorem asks_on_program (inv : Inv programs state) {task : τ} {lock : ℓ} {mode : Mode}
    (asks : state.Asks task lock mode) : .acquire lock mode ∈ programs task := by
  obtain ⟨rest, next⟩ := List.head?_eq_some_iff.mp asks
  rw [← inv.on_program task, next]
  simp

/-- A task of a waiting set holds no lock in write mode. -/
theorem held_for_reading (inv : Inv programs state)
    (reading : ∀ task, Follows NoWriteHeld (fun _ => none) (programs task))
    {tasks : Set τ} (waiting : state.Waiting tasks) {task : τ} (member : task ∈ tasks)
    (lock : ℓ) : state.holds task lock ≠ some .write := by
  obtain ⟨_, -, asked, mode, asks, -⟩ := waiting.waits task member
  obtain ⟨rest, next⟩ := List.head?_eq_some_iff.mp asks
  have follows := reading task
  rw [← inv.on_program task, next] at follows
  exact follows.at_request lock

/-- **A lock that a waiting set asks for is asked for by a writer of the set, and a task
of the set holds it.** The first of the tasks in its queue waits for a holder, which does
not hold it for writing. -/
theorem asked_lock (inv : Inv programs state)
    (reading : ∀ task, Follows NoWriteHeld (fun _ => none) (programs task))
    {tasks : Set τ} (waiting : state.Waiting tasks) {task : τ} (member : task ∈ tasks)
    {lock : ℓ} {mode : Mode} (asks : state.Asks task lock mode) :
    (∃ writer ∈ tasks, state.Asks writer lock .write) ∧
      ∃ holder ∈ tasks, state.holds holder lock ≠ none := by
  let asking : Set τ := {asker | asker ∈ tasks ∧ ∃ mode, state.Asks asker lock mode}
  obtain ⟨first, ⟨in_set, mode', asks'⟩, least⟩ :=
    (measure (state.queue lock).idxOf).wf.has_min asking ⟨task, member, mode, asks⟩
  obtain ⟨other, other_in_set, lock', mode'', asks'', -, cause⟩ := waiting.waits first in_set
  obtain ⟨rfl, rfl⟩ := asks_one asks'' asks'
  rcases cause with ⟨queued, before⟩ | blocks
  · obtain ⟨mode, asks⟩ := inv.asks other lock' queued
    exact absurd before (least other ⟨other_in_set, mode, asks⟩)
  · cases mode'' with
    | read => exact absurd blocks (held_for_reading inv reading waiting other_in_set lock')
    | write => exact ⟨⟨first, in_set, asks'⟩, other, other_in_set, blocks⟩

/-- The rank of the lock that a task asks for. -/
def State.askedRank (state : State τ ℓ) (rank : ℓ → Nat) (task : τ) : Nat :=
  match (state.rest task).head? with
  | some (.acquire lock _) => rank lock
  | _ => 0

omit [DecidableEq τ] [DecidableEq ℓ] in
theorem asked_rank_eq {task : τ} {lock : ℓ} {mode : Mode} (asks : state.Asks task lock mode)
    (rank : ℓ → Nat) : state.askedRank rank task = rank lock := by
  rw [State.askedRank, asks]

/-- In a waiting set some task takes the locks against their order: the holder of the
highest lock that is asked for asks for one that is no higher. -/
theorem against_order [Finite τ] (inv : Inv programs state)
    (reading : ∀ task, Follows NoWriteHeld (fun _ => none) (programs task))
    {tasks : Set τ} (waiting : state.Waiting tasks) (rank : ℓ → Nat) :
    ∃ task ∈ tasks, ¬ Follows (Ascends rank) (fun _ => none) (programs task) := by
  obtain ⟨highest, member, top⟩ :=
    Set.exists_max_image tasks (state.askedRank rank) tasks.toFinite waiting.nonempty
  obtain ⟨_, -, lock, mode, asks, -⟩ := waiting.waits highest member
  obtain ⟨-, holder, in_set, holds⟩ := asked_lock inv reading waiting member asks
  refine ⟨holder, in_set, ?_⟩
  intro ascends
  obtain ⟨_, -, lock', mode', asks', -⟩ := waiting.waits holder in_set
  obtain ⟨rest, next⟩ := List.head?_eq_some_iff.mp asks'
  rw [← inv.on_program holder, next] at ascends
  have above := ascends.at_request lock holds
  have below := top holder in_set
  rw [asked_rank_eq asks', asked_rank_eq asks] at below
  omega

end WaitingSets

/-! ## A deadlock -/

section Deadlock

variable [DecidableEq τ] [DecidableEq ℓ] [Fintype τ] {state : State τ ℓ}

theorem run_append (state : State τ ℓ) (first second : List τ) :
    state.run (first ++ second) = (state.run first).run second :=
  List.foldl_append

/-- The state in which a task has done some operations, with nobody queued. -/
def State.skip (state : State τ ℓ) (task : τ) (ops rest : List (Op ℓ)) : State τ ℓ where
  done := Function.update state.done task (state.done task ++ ops)
  rest := Function.update state.rest task rest
  queue := state.queue

theorem act_eq_skip {task : τ} {op : Op ℓ} {rest : List (Op ℓ)}
    (quiet : state.queue = fun _ => []) (next : state.rest task = op :: rest)
    (fresh : Follows Fresh (state.holds task) [op])
    (unopposed : ∀ lock mode, op = .acquire lock mode → ∀ holder ≠ task,
      ¬ state.Blocks holder lock mode) :
    state.act task = state.skip task [op] rest := by
  rw [State.act, next]
  cases op with
  | release lock => rfl
  | acquire lock mode =>
    have granted : state.CanAcquire task lock mode := by
      refine ⟨by simp [quiet], ?_⟩
      intro holder
      by_cases self : holder = task
      · subst self
        have free : state.holds holder lock = none := fresh.1
        cases mode with
        | read => simp [State.Blocks, free]
        | write => simp [State.Blocks, free]
      · exact unopposed lock mode rfl holder self
    have unchanged :
        Function.update state.queue lock ((state.queue lock).erase task) = state.queue := by
      rw [quiet, List.erase_nil]
      exact Function.update_eq_self lock _
    simp only [granted, if_true, unchanged]
    rfl

/-- A task that nobody opposes goes on alone. -/
theorem run_alone {task : τ} {ops rest : List (Op ℓ)} (quiet : state.queue = fun _ => [])
    (next : state.rest task = ops ++ rest) (fresh : Follows Fresh (state.holds task) ops)
    (unopposed : ∀ lock mode, .acquire lock mode ∈ ops → ∀ holder ≠ task,
      ¬ state.Blocks holder lock mode) :
    state.run (List.replicate ops.length task) = state.skip task ops rest := by
  induction ops generalizing state with
  | nil =>
    rw [List.nil_append] at next
    simp [State.run, State.skip, ← next]
  | cons op ops step =>
    have first : state.act task = state.skip task [op] (ops ++ rest) := by
      refine act_eq_skip quiet next ?_ ?_
      · cases op with
        | acquire lock mode => exact ⟨fresh.1, trivial⟩
        | release lock => trivial
      · rintro lock mode rfl
        exact unopposed lock mode List.mem_cons_self
    have held : (state.skip task [op] (ops ++ rest)).holds task =
        heldAfter (state.holds task) op := by
      funext lock
      simp [State.holds, State.skip, heldBy]
      rfl
    have others : ∀ holder ≠ task, ∀ lock mode,
        (state.skip task [op] (ops ++ rest)).Blocks holder lock mode ↔
          state.Blocks holder lock mode := by
      intro holder other lock mode
      cases mode with
      | read => simp [State.Blocks, State.holds, State.skip, other]
      | write => simp [State.Blocks, State.holds, State.skip, other]
    have last := @step (state.skip task [op] (ops ++ rest)) quiet (by simp [State.skip])
      (by rw [held]; cases op with
        | acquire lock mode => exact fresh.2
        | release lock => exact fresh)
      (by
        intro lock mode later holder other
        rw [others holder other]
        exact unopposed lock mode (List.mem_cons_of_mem _ later) holder other)
    rw [List.length_cons, List.replicate_succ, State.run, List.foldl_cons, first]
    exact last.trans (by simp [State.skip])

/-- The state in which each task stops after a part of its program, with nobody queued. -/
def State.stopped (programs stops : τ → List (Op ℓ)) : State τ ℓ where
  done := stops
  rest task := (programs task).drop (stops task).length
  queue _ := []

theorem run_to_stop {programs stops : τ → List (Op ℓ)} {task : τ} {ops rest : List (Op ℓ)}
    (program : programs task = ops ++ rest) (idle : stops task = [])
    (fresh : Follows Fresh (fun _ => none) (programs task))
    (unopposed : ∀ lock mode, .acquire lock mode ∈ ops → ∀ holder ≠ task,
      ¬ (State.stopped programs stops).Blocks holder lock mode) :
    (State.stopped programs stops).run (List.replicate ops.length task) =
      State.stopped programs (Function.update stops task ops) := by
  have next : (State.stopped programs stops).rest task = ops ++ rest := by
    simp [State.stopped, idle, program]
  have holds : (State.stopped programs stops).holds task = fun _ => none := by
    funext lock
    simp [State.holds, State.stopped, idle, heldBy]
  have fresh_part : Follows Fresh ((State.stopped programs stops).holds task) ops := by
    rw [program] at fresh
    rw [holds]
    exact ((follows_append ..).mp fresh).1
  have rests : Function.update (State.stopped programs stops).rest task rest =
      (State.stopped programs (Function.update stops task ops)).rest := by
    funext other
    by_cases same : other = task
    · subst same
      simp [State.stopped, program]
    · simp [State.stopped, same]
  rw [run_alone rfl next fresh_part unopposed, State.skip, rests]
  simp [State.stopped, idle]

omit [DecidableEq τ] [Fintype τ] in
/-- Tasks that hold nothing stand against no request. -/
theorem stopped_unopposed {programs stops : τ → List (Op ℓ)}
    (nothing_held : ∀ task, heldBy (stops task) = fun _ => none) (holder : τ) (lock : ℓ)
    (mode : Mode) : ¬ (State.stopped programs stops).Blocks holder lock mode := by
  have none_held : (State.stopped programs stops).holds holder lock = none :=
    congrFun (nothing_held holder) lock
  cases mode with
  | read => simp [State.Blocks, none_held]
  | write => simp [State.Blocks, none_held]

/-- A writer that a holder stands against queues up. -/
theorem act_queues {task holder : τ} {lock : ℓ} (asks : state.Asks task lock .write)
    (holds : state.holds holder lock ≠ none) (absent : task ∉ state.queue lock) :
    state.act task =
      { state with queue := Function.update state.queue lock (state.queue lock ++ [task]) } := by
  obtain ⟨rest, next⟩ := List.head?_eq_some_iff.mp asks
  have refused : ¬ state.CanAcquire task lock .write := fun granted => granted.2 holder holds
  rw [State.act, next]
  simp only [refused, absent, if_false]

/-- Two tasks take two locks in different orders, and two others write them. -/
def Inverted (rank : ℓ → Nat) (programs : τ → List (Op ℓ)) : Prop :=
  ∃ up down writer writer' first second, [up, down, writer, writer'].Nodup ∧
    rank first < rank second ∧
    TakesUnder (programs up) first second ∧ TakesUnder (programs down) second first ∧
    .acquire first .write ∈ programs writer ∧ .acquire second .write ∈ programs writer'

/-- The first write request of a program comes with nothing held. -/
theorem before_write {program : List (Op ℓ)} {lock : ℓ}
    (alone : Follows WritesAlone (fun _ => none) program)
    (writes : .acquire lock .write ∈ program) :
    ∃ done rest, program = done ++ .acquire lock .write :: rest ∧
      heldBy done = fun _ => none := by
  obtain ⟨done, rest, rfl⟩ := List.append_of_mem writes
  exact ⟨done, rest, rfl, alone.at_request rfl⟩

/-- Between two tasks that hold a lock each and ask for the other one, the writers of both
locks close a cycle: each of the four waits for the next. -/
theorem writers_close_cycle (quiet : state.queue = fun _ => []) {up down writer writer' : τ}
    {first second : ℓ} {mode mode' : Mode} (locks_differ : first ≠ second)
    (up_writer' : up ≠ writer') (down_writer : down ≠ writer)
    (up_asks : state.Asks up second mode) (up_holds : state.holds up first ≠ none)
    (down_asks : state.Asks down first mode') (down_holds : state.holds down second ≠ none)
    (writer_asks : state.Asks writer first .write)
    (writer_asks' : state.Asks writer' second .write) :
    Relation.TransGen (state.run [writer, writer']).WaitsFor up up := by
  let queued := { state with queue := Function.update state.queue first [writer] }
  have act1 : state.act writer = queued := by
    rw [act_queues writer_asks up_holds (by simp [quiet])]
    simp [queued, quiet]
  let stuck := { state with queue := Function.update queued.queue second [writer'] }
  have act2 : queued.act writer' = stuck := by
    have empty : queued.queue second = [] := by simp [queued, quiet, Ne.symm locks_differ]
    have moved := @act_queues _ _ _ _ _ queued _ _ _ writer_asks' down_holds (by simp [empty])
    rw [moved, empty]
    rfl
  have reached : state.run [writer, writer'] = stuck := (congrArg (State.act · writer') act1).trans act2
  rw [reached]
  have first_queue : stuck.queue first = [writer] := by simp [stuck, queued, locks_differ]
  have second_queue : stuck.queue second = [writer'] := by simp [stuck]
  have up_waits : stuck.WaitsFor up writer' := by
    refine ⟨second, mode, up_asks, ?_, .inl ?_⟩
    · intro granted
      exact up_writer' (granted.1 writer' (by simp [second_queue])).symm
    · simp [second_queue, Ne.symm up_writer']
  have down_waits : stuck.WaitsFor down writer := by
    refine ⟨first, mode', down_asks, ?_, .inl ?_⟩
    · intro granted
      exact down_writer (granted.1 writer (by simp [first_queue])).symm
    · simp [first_queue, Ne.symm down_writer]
  have writer_waits : stuck.WaitsFor writer up :=
    ⟨first, .write, writer_asks, fun granted => granted.2 up up_holds, .inr up_holds⟩
  have writer_waits' : stuck.WaitsFor writer' down :=
    ⟨second, .write, writer_asks', fun granted => granted.2 down down_holds, .inr down_holds⟩
  exact (((Relation.TransGen.single up_waits).tail writer_waits').tail down_waits).tail writer_waits

/-- **An inversion deadlocks under some schedule.** The writers come first and stop before
their requests, then the two others stop between their locks; when the writers have
queued up, each of the four waits for the next. -/
theorem inverted_deadlocks {rank : ℓ → Nat} {programs : τ → List (Op ℓ)}
    (fresh : ∀ task, Follows Fresh (fun _ => none) (programs task))
    (reading : ∀ task, Follows NoWriteHeld (fun _ => none) (programs task))
    (alone : ∀ task, Follows WritesAlone (fun _ => none) (programs task))
    (descends : ∀ task, Follows (Ascends rank) (fun _ => none) (programs task) ∨
      ∀ lock, .acquire lock .write ∉ programs task)
    (inverted : Inverted rank programs) :
    ∃ schedule task,
      Relation.TransGen ((State.start programs).run schedule).WaitsFor task task := by
  obtain ⟨up, down, writer, writer', first, second, distinct, ascending,
    ⟨done, mode, rest, up_program, up_holds⟩, ⟨done', mode', rest', down_program, down_holds⟩,
    writes, writes'⟩ := inverted
  simp only [List.nodup_cons, List.mem_cons, List.not_mem_nil, or_false, not_or,
    not_false_eq_true, List.nodup_nil, and_true] at distinct
  obtain ⟨⟨up_down, up_writer, up_writer'⟩, ⟨down_writer, down_writer'⟩, writer_writer'⟩ := distinct
  have locks_differ : first ≠ second := by
    rintro rfl
    exact ascending.false
  -- the task that takes the locks against their order only reads
  have only_reads : ∀ lock, .acquire lock .write ∉ programs down := by
    refine (descends down).resolve_left ?_
    intro ascends
    rw [down_program] at ascends
    have := ascends.at_request second down_holds
    omega
  obtain ⟨before, after, writer_program, before_alone⟩ := before_write (alone writer) writes
  obtain ⟨before', after', writer_program', before_alone'⟩ := before_write (alone writer') writes'
  let stops1 : τ → List (Op ℓ) := Function.update (fun _ => []) writer before
  let stops2 := Function.update stops1 writer' before'
  let stops3 := Function.update stops2 up done
  let stops4 := Function.update stops3 down done'
  have run1 : (State.start programs).run (List.replicate before.length writer) =
      State.stopped programs stops1 :=
    run_to_stop writer_program rfl (fresh writer)
      fun lock mode _ holder _ => stopped_unopposed (fun _ => rfl) holder lock mode
  have nothing_held1 : ∀ holder, heldBy (stops1 holder) = fun _ => none := by
    refine (Function.forall_update_iff _ fun _ ops => heldBy ops = fun _ => none).mpr ?_
    exact ⟨before_alone, fun _ _ => rfl⟩
  have run2 : (State.stopped programs stops1).run (List.replicate before'.length writer') =
      State.stopped programs stops2 :=
    run_to_stop writer_program' (by simp [stops1, Ne.symm writer_writer']) (fresh writer')
      fun lock mode _ holder _ => stopped_unopposed nothing_held1 holder lock mode
  have nothing_held2 : ∀ holder, heldBy (stops2 holder) = fun _ => none := by
    refine (Function.forall_update_iff _ fun _ ops => heldBy ops = fun _ => none).mpr ?_
    exact ⟨before_alone', fun holder _ => nothing_held1 holder⟩
  have run3 : (State.stopped programs stops2).run (List.replicate done.length up) =
      State.stopped programs stops3 :=
    run_to_stop up_program (by simp [stops2, stops1, up_writer, up_writer']) (fresh up)
      fun lock mode _ holder _ => stopped_unopposed nothing_held2 holder lock mode
  have read_held3 : ∀ holder lock, heldBy (stops3 holder) lock ≠ some .write := by
    refine (Function.forall_update_iff _ fun _ ops => ∀ lock, heldBy ops lock ≠ some .write).mpr ?_
    refine ⟨?_, ?_⟩
    · have follows := reading up
      rw [up_program] at follows
      exact follows.at_request
    · intro holder _ lock
      simp [nothing_held2 holder]
  have run4 : (State.stopped programs stops3).run (List.replicate done'.length down) =
      State.stopped programs stops4 := by
    refine run_to_stop down_program ?_ (fresh down) ?_
    · simp [stops3, stops2, stops1, Ne.symm up_down, down_writer, down_writer']
    · intro lock mode asked holder _
      cases mode with
      | read => exact read_held3 holder lock
      | write => exact absurd (by rw [down_program]; simp [asked]) (only_reads lock)
  let stop := State.stopped programs stops4
  have writer_stop : stops4 writer = before := by
    simp [stops4, stops3, stops2, stops1, Ne.symm down_writer, Ne.symm up_writer, writer_writer']
  have writer_stop' : stops4 writer' = before' := by
    simp [stops4, stops3, stops2, Ne.symm down_writer', Ne.symm up_writer']
  have up_stop : stops4 up = done := by simp [stops4, stops3, up_down]
  have down_stop : stops4 down = done' := by simp [stops4]
  have writer_asks : stop.Asks writer first .write := by
    simp [stop, State.Asks, State.stopped, writer_stop, writer_program]
  have writer_asks' : stop.Asks writer' second .write := by
    simp [stop, State.Asks, State.stopped, writer_stop', writer_program']
  have up_asks : stop.Asks up second mode := by
    simp [stop, State.Asks, State.stopped, up_stop, up_program]
  have down_asks : stop.Asks down first mode' := by
    simp [stop, State.Asks, State.stopped, down_stop, down_program]
  have up_reads : stop.holds up first ≠ none := by
    simpa [stop, State.holds, State.stopped, up_stop] using up_holds
  have down_reads : stop.holds down second ≠ none := by
    simpa [stop, State.holds, State.stopped, down_stop] using down_holds
  refine ⟨List.replicate before.length writer ++ List.replicate before'.length writer' ++
    List.replicate done.length up ++ List.replicate done'.length down ++ [writer, writer'], up, ?_⟩
  simp only [run_append, run1, run2, run3, run4]
  exact writers_close_cycle rfl locks_differ up_writer' down_writer up_asks up_reads down_asks
    down_reads writer_asks writer_asks'

end Deadlock

end FairLocks
