import CloudId.Library.FairLocks
import CloudId.RebuildInterleaving

/-! The order in which the tasks of the service take the locks of its state. All of them
go through identity, BMH state and containers in that order, but the state dump, which
starts at the containers. -/
namespace CloudId
open FairLocks

instance : Fintype StateLock where
  elems := {.identity, .bmh, .containers}
  complete lock := by cases lock <;> decide

/-- The place of a lock in `rebuild_cache`. -/
def StateLock.rank : StateLock → Nat
  | .identity => 0
  | .bmh => 1
  | .containers => 2

namespace Locking

/-- Read guards of one scope: they are dropped last first. -/
def readGuards (locks : List StateLock) : List (Op StateLock) :=
  locks.map (.acquire · .read) ++ locks.reverse.map .release

def rebuildCache : List (Op StateLock) := readGuards [.identity, .bmh, .containers]

/-- Where `resolve_on_demand` returns. -/
inductive Return where
  | cached
  | host
  | fallback
  deriving DecidableEq

def resolveOnDemand : Return → List (Op StateLock)
  | .cached => []
  | .host => readGuards [.identity, .bmh]
  | .fallback => readGuards [.identity, .bmh, .containers]

def debugState : List (Op StateLock) := readGuards [.containers, .bmh, .identity]

/-- What a watcher does between two awaits of its upstream: it changes its part of the
state, or it rebuilds the cache with no guard left. -/
inductive Round where
  | update
  | rebuild
  deriving DecidableEq

def round (lock : StateLock) : Round → List (Op StateLock)
  | .update => [.acquire lock .write, .release lock]
  | .rebuild => rebuildCache

def watcher (lock : StateLock) (rounds : List Round) : List (Op StateLock) :=
  rounds.flatMap (round lock)

end Locking

open Locking

inductive LockTask where
  | rebuildCache
  | resolveOnDemand (at_return : Return)
  | debugState
  | amoWatcher (rounds : List Round)
  | bmhWatcher (rounds : List Round)
  | containerWatcher (rounds : List Round)
  deriving DecidableEq

def LockTask.program : LockTask → List (Op StateLock)
  | .rebuildCache => Locking.rebuildCache
  | .resolveOnDemand at_return => Locking.resolveOnDemand at_return
  | .debugState => Locking.debugState
  | .amoWatcher rounds => watcher .identity rounds
  | .bmhWatcher rounds => watcher .bmh rounds
  | .containerWatcher rounds => watcher .containers rounds

/-! ## The programs -/

/-- What holds at every request of the service. -/
def Orderly (held : StateLock → Option Mode) (lock : StateLock) (mode : Mode) : Prop :=
  Fresh held lock mode ∧ NoWriteHeld held lock mode ∧ WritesAlone held lock mode

instance (held : StateLock → Option Mode) (lock : StateLock) (mode : Mode) :
    Decidable (Orderly held lock mode) :=
  inferInstanceAs (Decidable (_ ∧ _ ∧ _))

theorem round_balanced (lock : StateLock) (part : Round) :
    heldBy (round lock part) = fun _ => none := by
  cases part <;> cases lock <;> decide

theorem watcher_balanced (lock : StateLock) (rounds : List Round) :
    heldBy (watcher lock rounds) = fun _ => none := by
  induction rounds with
  | nil => rfl
  | cons first rest step =>
    rw [watcher, List.flatMap_cons, held_by_append (round_balanced lock first)]
    exact step

theorem program_balanced (task : LockTask) : heldBy task.program = fun _ => none := by
  cases task with
  | rebuildCache => decide
  | resolveOnDemand at_return => cases at_return <;> decide
  | debugState => decide
  | amoWatcher rounds => exact watcher_balanced .identity rounds
  | bmhWatcher rounds => exact watcher_balanced .bmh rounds
  | containerWatcher rounds => exact watcher_balanced .containers rounds

theorem watcher_follows {rule : (StateLock → Option Mode) → StateLock → Mode → Prop}
    {lock : StateLock} (update : rule (fun _ => none) lock .write)
    (rebuild : Follows rule (fun _ => none) Locking.rebuildCache) (rounds : List Round) :
    Follows rule (fun _ => none) (watcher lock rounds) := by
  induction rounds with
  | nil => trivial
  | cons first rest step =>
    refine Follows.append (round_balanced lock first) ?_ step
    cases first with
    | update => exact ⟨update, trivial⟩
    | rebuild => exact rebuild

theorem program_orderly (task : LockTask) : Follows Orderly (fun _ => none) task.program := by
  cases task with
  | rebuildCache => decide
  | resolveOnDemand at_return => cases at_return <;> decide
  | debugState => decide
  | amoWatcher rounds => exact watcher_follows (by decide) (by decide) rounds
  | bmhWatcher rounds => exact watcher_follows (by decide) (by decide) rounds
  | containerWatcher rounds => exact watcher_follows (by decide) (by decide) rounds

/-- Only the state dump goes against the order of the locks. -/
theorem program_ascends {task : LockTask} (other : task ≠ .debugState) :
    Follows (Ascends StateLock.rank) (fun _ => none) task.program := by
  cases task with
  | rebuildCache => decide
  | resolveOnDemand at_return => cases at_return <;> decide
  | debugState => exact absurd rfl other
  | amoWatcher rounds => exact watcher_follows (by simp [Ascends]) (by decide) rounds
  | bmhWatcher rounds => exact watcher_follows (by simp [Ascends]) (by decide) rounds
  | containerWatcher rounds => exact watcher_follows (by simp [Ascends]) (by decide) rounds

/-- It goes down through all of them. -/
theorem debug_descends {lower upper : StateLock} (ascending : lower.rank < upper.rank) :
    TakesUnder Locking.debugState upper lower := by
  cases lower <;> cases upper <;> simp only [StateLock.rank] at ascending
  case identity.bmh =>
    exact ⟨[.acquire .containers .read, .acquire .bmh .read], .read, _, rfl, by decide⟩
  case identity.containers =>
    exact ⟨[.acquire .containers .read, .acquire .bmh .read], .read, _, rfl, by decide⟩
  case bmh.containers =>
    exact ⟨[.acquire .containers .read], .read, _, rfl, by decide⟩
  all_goals omega

theorem debug_under_descends {lower upper : StateLock}
    (under : TakesUnder Locking.debugState upper lower) : lower.rank < upper.rank :=
  TakesUnder.follows (fun upper lower => lower.rank < upper.rank) under (by decide)

theorem debug_only_reads (lock : StateLock) : .acquire lock .write ∉ Locking.debugState := by
  cases lock <;> decide

/-! ## The lock system -/

section System

variable {τ : Type} [Fintype τ] [DecidableEq τ]

/-- The state of the locks after the tasks have gone on in some order. -/
def lockState (tasks : τ → LockTask) (schedule : List τ) : State τ StateLock :=
  (State.start fun task => (tasks task).program).run schedule

/-- The service does not deadlock, whatever the order: some task can take its next step as
long as one has not finished, and no tasks wait for one another in a cycle. -/
def NeverDeadlocks (tasks : τ → LockTask) : Prop :=
  ∀ schedule,
    ((∃ task, (lockState tasks schedule).rest task ≠ []) →
      ∃ task, (lockState tasks schedule).CanAdvance task) ∧
    ∀ task, ¬ Relation.TransGen (lockState tasks schedule).WaitsFor task task

theorem lock_state_inv (tasks : τ → LockTask) (schedule : List τ) :
    Inv (fun task => (tasks task).program) (lockState tasks schedule) :=
  run_inv (FairLocks.start_inv _) schedule

/-- **Tasks that wait for one another are inverted.** A state dump of the set asks for a
lock that one of the other tasks holds, which asks for a later one; a watcher is queued
for each of the two. -/
theorem waiting_inverted {tasks : τ → LockTask} {state : State τ StateLock}
    (inv : Inv (fun task => (tasks task).program) state) {waiters : Set τ}
    (waiting : state.Waiting waiters) :
    Inverted StateLock.rank fun task => (tasks task).program := by
  have reading : ∀ task, Follows NoWriteHeld (fun _ => none) (tasks task).program :=
    fun task => (program_orderly (tasks task)).mono fun _ _ _ orderly => orderly.2.1
  have not_ascending : ∀ {task}, ¬ Follows (Ascends StateLock.rank) (fun _ => none)
      (tasks task).program → tasks task = .debugState := by
    intro task refused
    by_contra other
    exact refused (program_ascends other)
  -- the state dump of the set that asks for the lowest lock
  let dumps : Set τ := {task | task ∈ waiters ∧ tasks task = .debugState}
  obtain ⟨against, against_member, refused⟩ := against_order inv reading waiting StateLock.rank
  obtain ⟨down, ⟨down_member, down_debug⟩, lowest⟩ :=
    Set.exists_min_image dumps (state.askedRank StateLock.rank) dumps.toFinite
      ⟨against, against_member, not_ascending refused⟩
  obtain ⟨_, -, first, mode, down_asks, -⟩ := waiting.waits down down_member
  obtain ⟨⟨writer, -, writer_asks⟩, up, up_member, up_holds⟩ :=
    asked_lock inv reading waiting down_member down_asks
  -- a holder of that lock asks for a later one
  obtain ⟨_, -, second, mode', up_asks, -⟩ := waiting.waits up up_member
  obtain ⟨⟨writer', -, writer_asks'⟩, -⟩ := asked_lock inv reading waiting up_member up_asks
  have up_under : TakesUnder (tasks up).program first second := takes_under inv up_asks up_holds
  have ascending : first.rank < second.rank := by
    by_cases dump : tasks up = .debugState
    · have above := lowest up ⟨up_member, dump⟩
      rw [asked_rank_eq down_asks, asked_rank_eq up_asks] at above
      rw [dump] at up_under
      have below := debug_under_descends up_under
      omega
    · exact up_under.ascends (program_ascends dump)
  have down_under : TakesUnder (tasks down).program second first := by
    rw [down_debug]
    exact debug_descends ascending
  have locks_differ : first ≠ second := by
    rintro rfl
    exact ascending.false
  have writes : .acquire first .write ∈ (tasks writer).program := asks_on_program inv writer_asks
  have writes' : .acquire second .write ∈ (tasks writer').program :=
    asks_on_program inv writer_asks'
  refine ⟨up, down, writer, writer', first, second, ?_, ascending, up_under, down_under, writes,
    writes'⟩
  have up_down : up ≠ down := by
    rintro rfl
    exact locks_differ (asks_one down_asks up_asks).1
  have up_writer : up ≠ writer := by
    rintro rfl
    exact locks_differ (asks_one writer_asks up_asks).1
  have up_writer' : up ≠ writer' := by
    rintro rfl
    have alone := (program_orderly (tasks up)).mono fun _ _ _ orderly => orderly.2.2
    obtain ⟨rest, next⟩ := List.head?_eq_some_iff.mp writer_asks'
    rw [← inv.on_program up, next] at alone
    exact up_holds (congrFun (alone.at_request rfl) first)
  have down_writer : down ≠ writer := by
    rintro rfl
    rw [down_debug] at writes
    exact debug_only_reads first writes
  have down_writer' : down ≠ writer' := by
    rintro rfl
    exact locks_differ (asks_one down_asks writer_asks').1
  have writer_writer' : writer ≠ writer' := by
    rintro rfl
    exact locks_differ (asks_one writer_asks writer_asks').1
  simp [up_down, up_writer, up_writer', down_writer, down_writer', writer_writer']

/-- **The locks are free of deadlock exactly when no two tasks invert their order between
two watchers.** A state dump beside a rebuild or an on-demand request does it, with a
watcher queued for each of the two locks. -/
theorem never_deadlocks_iff (tasks : τ → LockTask) :
    NeverDeadlocks tasks ↔ ¬ Inverted StateLock.rank fun task => (tasks task).program := by
  constructor
  · intro never inverted
    obtain ⟨schedule, task, cycle⟩ := inverted_deadlocks
      (fun task => (program_orderly (tasks task)).mono fun _ _ _ orderly => orderly.1)
      (fun task => (program_orderly (tasks task)).mono fun _ _ _ orderly => orderly.2.1)
      (fun task => (program_orderly (tasks task)).mono fun _ _ _ orderly => orderly.2.2)
      (fun task => by
        by_cases dump : tasks task = .debugState
        · rw [dump]
          exact .inr debug_only_reads
        · exact .inl (program_ascends dump))
      inverted
    exact (never schedule).2 task cycle
  · intro ordered schedule
    have inv := lock_state_inv tasks schedule
    refine ⟨?_, ?_⟩
    · rintro ⟨task, unfinished⟩
      by_contra stuck
      exact ordered (waiting_inverted inv (stuck_waiting inv
        (fun task => program_balanced (tasks task)) unfinished (not_exists.mp stuck)))
    · intro task cycle
      exact ordered (waiting_inverted inv (cycle_waiting cycle))

end System

/-- A state dump, a rebuild, and updates of the container and BMH watchers. -/
def dumpDuringRebuild : Fin 4 → LockTask
  | 0 => .debugState
  | 1 => .rebuildCache
  | 2 => .containerWatcher [.update]
  | 3 => .bmhWatcher [.update]

/-- The dump holds the containers lock and the rebuild the two others when the watchers
queue up, and then nobody goes on. -/
theorem dump_deadlocks : ¬ NeverDeadlocks dumpDuringRebuild := by
  intro never
  have stuck : ∀ task, ¬ (lockState dumpDuringRebuild [0, 1, 1, 2, 3]).CanAdvance task := by
    decide +kernel
  obtain ⟨task, advances⟩ := (never [0, 1, 1, 2, 3]).1 ⟨0, by decide +kernel⟩
  exact stuck task advances

end CloudId
