import Mathlib.Logic.Function.Basic
import CloudId.Library.FileTree
import CloudId.Library.GuardedRun
import CloudId.Library.Json

/-! A table in memory that is written to its file as a whole after every change
of an entry. What a restart finds is the file. The values an entry may have
after a restart are known from the answers: the last acknowledged one, and those
of the changes since then that were answered with an error. -/
namespace WriteThrough
open FileSystem GuardedRun

variable {κ υ : Type}

structure Table (κ υ : Type) where
  memory : κ → Option υ
  /-- What a restart reads from the file. -/
  file : κ → Option υ
  /-- The values that the answers so far allow an entry to have. -/
  possible : κ → List (Option υ)

/-- A change of an entry, and how the write that follows it ends. -/
structure Change (κ υ : Type) where
  key : κ
  value : Option υ
  ends : WriteEnd

/-- What a restart reads after a write, from what it read before and the memory. -/
def fileAfter (ends : WriteEnd) (before memory : κ → Option υ) : κ → Option υ :=
  match ends with
  | .refused => before
  | .torn => fun _ => none
  | .filled | .saved => memory

variable [DecidableEq κ]

/-- The memory changes in any case. An acknowledged change leaves one possible
value, a refused one adds a value. -/
def Table.after (table : Table κ υ) (change : Change κ υ) : Table κ υ where
  memory := Function.update table.memory change.key change.value
  file := fileAfter change.ends table.file (Function.update table.memory change.key change.value)
  possible :=
    match change.ends with
    | .saved => Function.update table.possible change.key [change.value]
    | _ => Function.update table.possible change.key
        (change.value :: table.possible change.key)

/-- An event that changes at most one entry. -/
def Table.afterEvent (table : Table κ υ) : Option (Change κ υ) → Table κ υ
  | none => table
  | some change => table.after change

/-- A restart finds a possible value of every entry. -/
def Table.Recovers (table : Table κ υ) : Prop := ∀ key, table.file key ∈ table.possible key

/-- The memory has a possible value of every entry. -/
def Table.Consistent (table : Table κ υ) : Prop := ∀ key, table.memory key ∈ table.possible key

/-- The memory and the file are the same table. -/
def Table.Agrees (table : Table κ υ) : Prop := table.memory = table.file

/-- A write that is torn finds no entry that has to be there. -/
def Table.Safe (table : Table κ υ) (change : Change κ υ) : Prop :=
  change.ends = .torn → ∀ key, none ∈ table.possible key ∨ key = change.key ∧ change.value = none

/-- A write that is refused changes nothing. -/
def Table.Idle (table : Table κ υ) (change : Change κ υ) : Prop :=
  change.ends = .refused → table.memory change.key = change.value

theorem mem_update_iff {possible : κ → List (Option υ)} {key probe : κ} {values : List (Option υ)}
    {value : Option υ} : value ∈ Function.update possible key values probe ↔
      probe = key ∧ value ∈ values ∨ probe ≠ key ∧ value ∈ possible probe := by
  by_cases same : probe = key
  · subst same
    simp
  · simp [same]

theorem consistent_after {table : Table κ υ} (consistent : table.Consistent)
    (change : Change κ υ) : (table.after change).Consistent := by
  intro key
  by_cases same : key = change.key
  · subst same
    rw [Table.after]
    cases change.ends <;> simp
  · rw [Table.after]
    cases change.ends <;> simp [same, consistent key]

theorem consistent_after_event {table : Table κ υ} (consistent : table.Consistent)
    (change : Option (Change κ υ)) : (table.afterEvent change).Consistent := by
  cases change with
  | none => exact consistent
  | some change => exact consistent_after consistent change

/-- **After a write a restart finds possible values exactly when the write is
safe.** -/
theorem recovers_after_iff {table : Table κ υ} (consistent : table.Consistent)
    (recovers : table.Recovers) (change : Change κ υ) :
    (table.after change).Recovers ↔ table.Safe change := by
  have whole := consistent_after consistent change
  rw [Table.Safe]
  cases ends : change.ends with
  | refused =>
    simp only [reduceCtorEq, false_imp_iff, iff_true]
    intro key
    have held := recovers key
    rw [Table.after, ends]
    by_cases same : key = change.key
    · subst same
      simp [fileAfter, held]
    · simp [fileAfter, same, held]
  | torn =>
    simp only [true_imp_iff]
    refine forall_congr' fun key => ?_
    rw [Table.after, ends]
    dsimp only
    rw [mem_update_iff, List.mem_cons]
    by_cases same : key = change.key
    · subst same
      simp [fileAfter, eq_comm, or_comm]
    · simp [fileAfter, same]
  | filled =>
    simp only [reduceCtorEq, false_imp_iff, iff_true]
    intro key
    have held := whole key
    rw [Table.after, ends] at held ⊢
    exact held
  | saved =>
    simp only [reduceCtorEq, false_imp_iff, iff_true]
    intro key
    have held := whole key
    rw [Table.after, ends] at held ⊢
    exact held

theorem recovers_after_event_iff {table : Table κ υ} (consistent : table.Consistent)
    (recovers : table.Recovers) (change : Option (Change κ υ)) :
    (table.afterEvent change).Recovers ↔ ∀ made, change = some made → table.Safe made := by
  cases change with
  | none => simpa [Table.afterEvent] using recovers
  | some change => simpa [Table.afterEvent] using recovers_after_iff consistent recovers change

/-- **After a write that is not cut short the memory and the file agree exactly
when a refused write changes nothing.** -/
theorem agrees_after_iff {table : Table κ υ} (agrees : table.Agrees) {change : Change κ υ}
    (whole : change.ends ≠ .torn) : (table.after change).Agrees ↔ table.Idle change := by
  rw [Table.Agrees, Table.Idle, Table.after]
  cases ends : change.ends with
  | refused =>
    simp only [fileAfter, true_imp_iff]
    rw [← agrees]
    exact Function.update_eq_self_iff.trans eq_comm
  | torn => exact absurd ends whole
  | filled => simp [fileAfter]
  | saved => simp [fileAfter]

theorem agrees_after_event_iff {table : Table κ υ} (agrees : table.Agrees)
    {change : Option (Change κ υ)} (whole : ∀ made, change = some made → made.ends ≠ .torn) :
    (table.afterEvent change).Agrees ↔ ∀ made, change = some made → table.Idle made := by
  cases change with
  | none => simpa [Table.afterEvent] using agrees
  | some change => simpa [Table.afterEvent] using agrees_after_iff agrees (whole change rfl)

/-- The entries that are read back after a write, by how the write ends: a file
that cannot be read counts as an empty one. -/
theorem lookup_reads_back {α : Type} [Serialize α] [Deserialize α] (entries : α → HashMap κ υ)
    (empty : α) (no_entry : ∀ key, (entries empty).lookup key = none)
    (codec : TextCodec α fun first second => HashMap.Same (entries first) (entries second))
    {value : α} {before found : Option String} {ends : WriteEnd}
    (reads : ends.ReadsBack before (Serialize.toStringPretty value) found) :
    (entries ((found.bind Deserialize.fromStr).getD empty)).lookup =
      fileAfter ends (entries ((before.bind Deserialize.fromStr).getD empty)).lookup
        (entries value).lookup := by
  obtain ⟨copy, read, same⟩ := codec.reads_back value
  cases reads with
  | refused => rfl
  | torn cut more short split =>
    rw [Option.bind_some, codec.rejects_cut value cut more short split]
    exact funext no_entry
  | unreadable => exact funext no_entry
  | filled =>
    rw [Option.bind_some, read]
    exact funext same
  | saved =>
    rw [Option.bind_some, read]
    exact funext same

end WriteThrough
