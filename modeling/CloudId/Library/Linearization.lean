import Mathlib.Data.List.Nodup
import Mathlib.Logic.Relation

/-! Calls that overlap, and an object that serves one operation after the other. Every call stands
somewhere in its program until it is answered, and the answers are logged as they are given. If
each step of a system either answers no call and leaves the object it stands for as it is, or
answers one call as the object would in that moment, the log is a sequential history of the object:
no answer is lost or given twice, and an answer given before a call begins comes before its own. -/
namespace Linearization

variable {σ π ο α : Type}

/-- The calls made so far, in the order in which they began, and the answers given so far. -/
structure Board (π ο α : Type) where
  calls : List (π ⊕ ο × α) := []
  log : List (ℕ × ο × α) := []

namespace Board

variable (board : Board π ο α)

def call (phase : π) : Board π ο α := { board with calls := board.calls ++ [.inl phase] }

def move (index : ℕ) (phase : π) : Board π ο α :=
  { board with calls := board.calls.set index (.inl phase) }

def settle (index : ℕ) (op : ο) (answer : α) : Board π ο α where
  calls := board.calls.set index (.inr (op, answer))
  log := board.log ++ [(index, op, answer)]

/-- The call has not been answered. -/
def Working (index : ℕ) : Prop := ∃ phase, board.calls[index]? = some (.inl phase)

/-- The log has the answers that were given, each of them once. -/
structure Sound : Prop where
  logged : ∀ index op answer,
    (index, op, answer) ∈ board.log ↔ board.calls[index]? = some (.inr (op, answer))
  once : (board.log.map Prod.fst).Nodup

variable {board}

theorem sound_call (sound : board.Sound) (phase : π) : (board.call phase).Sound where
  logged index op answer := by
    refine (sound.logged index op answer).trans ?_
    unfold call
    rw [List.getElem?_append]
    split
    · exact Iff.rfl
    · rename_i outside
      rw [List.getElem?_eq_none (Nat.le_of_not_lt outside)]
      cases index - board.calls.length <;> simp
  once := sound.once

theorem sound_move (sound : board.Sound) {index : ℕ} (working : board.Working index) (phase : π) :
    (board.move index phase).Sound where
  logged other op answer := by
    refine (sound.logged other op answer).trans ?_
    obtain ⟨before, at_index⟩ := working
    obtain ⟨inside, held⟩ := List.getElem?_eq_some_iff.mp at_index
    unfold move
    rw [List.getElem?_set]
    by_cases same : index = other
    · subst same
      simp [inside, held]
    · simp [same]
  once := sound.once

theorem sound_settle (sound : board.Sound) {index : ℕ} (working : board.Working index) (op : ο)
    (answer : α) : (board.settle index op answer).Sound where
  logged other op' answer' := by
    obtain ⟨before, at_index⟩ := working
    obtain ⟨inside, held⟩ := List.getElem?_eq_some_iff.mp at_index
    unfold settle
    rw [List.mem_append, sound.logged, List.getElem?_set]
    by_cases same : index = other
    · subst same
      simp [inside, held, eq_comm]
    · simp [same, Ne.symm same]
  once := by
    obtain ⟨before, at_index⟩ := working
    unfold settle
    rw [List.map_append, List.nodup_append]
    refine ⟨sound.once, List.nodup_singleton _, ?_⟩
    rintro other listed _ last rfl
    obtain ⟨⟨_, op', answer'⟩, given, rfl⟩ := List.mem_map.mp listed
    obtain rfl : _ = index := by simpa using last
    rw [(sound.logged _ _ _).mp given] at at_index
    cases at_index

end Board

/-- From one state of the object to another, by operations that are answered in turn. -/
inductive ServedInTurn (serve : σ → ο → α → σ → Prop) (start : σ) : List (ο × α) → σ → Prop
  | none : ServedInTurn serve start [] start
  | turn {log : List (ο × α)} {state next : σ} {op : ο} {answer : α}
      (earlier : ServedInTurn serve start log state) (served : serve state op answer next) :
      ServedInTurn serve start (log ++ [(op, answer)]) next

/-- What a step does to the calls, for an object in some state before and after it. -/
inductive Move (serve : σ → ο → α → σ → Prop) (board : Board π ο α) (state : σ) :
    Board π ο α → σ → Prop
  | idle : Move serve board state board state
  | call (phase : π) : Move serve board state (board.call phase) state
  | move {index : ℕ} (working : board.Working index) (phase : π) :
      Move serve board state (board.move index phase) state
  | settle {index : ℕ} (working : board.Working index) {op : ο} {answer : α} {next : σ}
      (served : serve state op answer next) :
      Move serve board state (board.settle index op answer) next

variable {serve : σ → ο → α → σ → Prop} {board next : Board π ο α} {state state' : σ}

theorem Move.sound (moved : Move serve board state next state') (sound : board.Sound) :
    next.Sound := by
  cases moved with
  | idle => exact sound
  | call phase => exact Board.sound_call sound phase
  | move working phase => exact Board.sound_move sound working phase
  | settle working served => exact Board.sound_settle sound working _ _

theorem Move.log_grows (moved : Move serve board state next state') : board.log <+: next.log := by
  cases moved with
  | settle working served => exact List.prefix_append _ _
  | _ => exact List.prefix_rfl

theorem Move.served {start : σ} (moved : Move serve board state next state')
    (served : ServedInTurn serve start (board.log.map Prod.snd) state) :
    ServedInTurn serve start (next.log.map Prod.snd) state' := by
  cases moved with
  | settle working answered =>
    unfold Board.settle
    rw [List.map_append]
    exact .turn served answered
  | _ => exact served

section System

variable {ω : Type} {step : ω → ω → Prop} {boardOf : ω → Board π ο α} {reflects : ω → σ → Prop}

/-- Every step of the system is a move for the object it stands for. -/
def Simulates (serve : σ → ο → α → σ → Prop) (step : ω → ω → Prop) (boardOf : ω → Board π ο α)
    (reflects : ω → σ → Prop) : Prop :=
  ∀ world next state, step world next → reflects world state → ∃ state',
    Move serve (boardOf world) state (boardOf next) state' ∧ reflects next state'

/-- **The answers of a system that simulates an object are a history of the object.** -/
theorem linearizable (simulates : Simulates serve step boardOf reflects) {first last : ω} {start : σ}
    (begins : boardOf first = {}) (reflected : reflects first start)
    (run : Relation.ReflTransGen step first last) :
    (boardOf last).Sound ∧ ∃ state,
      ServedInTurn serve start ((boardOf last).log.map Prod.snd) state ∧ reflects last state := by
  induction run with
  | refl =>
    rw [begins]
    exact ⟨⟨fun index op answer => by simp, List.nodup_nil⟩, start, .none, reflected⟩
  | tail _ moves before =>
    obtain ⟨sound, state, served, reflects⟩ := before
    obtain ⟨state', moved, reflects⟩ := simulates _ _ state moves reflects
    exact ⟨moved.sound sound, state', moved.served served, reflects⟩

/-- An answer stands in the log before all that are given later. -/
theorem log_grows (simulates : Simulates serve step boardOf reflects) {first last : ω} {start : σ}
    (reflected : reflects first start) (run : Relation.ReflTransGen step first last) :
    (boardOf first).log <+: (boardOf last).log := by
  have both : (boardOf first).log <+: (boardOf last).log ∧ ∃ state, reflects last state := by
    induction run with
    | refl => exact ⟨List.prefix_rfl, start, reflected⟩
    | tail _ moves before =>
      obtain ⟨grown, state, reflects⟩ := before
      obtain ⟨state', moved, reflects⟩ := simulates _ _ state moves reflects
      exact ⟨grown.trans moved.log_grows, state', reflects⟩
  exact both.1

end System

end Linearization
