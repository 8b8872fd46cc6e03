import CloudId.Library.SpelledPaths

/-! Programs as trees of file commands. The tree says which command comes next after each
answer, so the places that a run touches can be named, and several programs can take
turns on one file tree, command by command. -/
namespace FileSystem
open Effects Disk

/-! ## Commands -/

inductive Command where
  | fileExists (path : String)
  | readToString (path : String)
  | write (path : String) (content : ByteArray)
  | createDirAll (path : String)
  | removeFile (path : String)
  | readDir (path : String)
  | now

namespace Command

@[reducible] def Reply : Command → Type
  | fileExists _ => Bool
  | readToString _ => String
  | write _ _ => Unit
  | createDirAll _ => Unit
  | removeFile _ => Unit
  | readDir _ => List (String × Bool)
  | now => Nat

def run : (command : Command) → FileM command.Reply
  | fileExists path => FileSystem.fileExists path
  | readToString path => FileSystem.readToString path
  | write path content => FileSystem.write path content
  | createDirAll path => FileSystem.createDirAll path
  | removeFile path => FileSystem.removeFile path
  | readDir path => FileSystem.readDir path
  | now => FileSystem.now

/-- The path of a command; a reading of the clock has none. -/
def path? : Command → Option String
  | fileExists path => some path
  | readToString path => some path
  | write path _ => some path
  | createDirAll path => some path
  | removeFile path => some path
  | readDir path => some path
  | now => none

end Command

/-- The answer of an operation, whether it returns or fails. -/
def answer {α : Type} : EStateM.Result FileError Disk α → Except FileError α
  | .ok value _ => .ok value
  | .error error _ => .error error

/-! ## Programs -/

inductive Program (α : Type) where
  | done (result : Except FileError α)
  | step (command : Command) (next : Except FileError command.Reply → Program α)

namespace Program

variable {α β : Type}

protected def bind : Program α → (α → Program β) → Program β
  | done (.ok value), rest => rest value
  | done (.error error), _ => done (.error error)
  | step command next, rest => step command fun reply => (next reply).bind rest

instance : Monad Program where
  pure value := done (.ok value)
  bind := Program.bind

/-- One command, whose failure is that of the program. -/
def call (command : Command) : Program command.Reply := step command done

/-- The result of a failing program as a value. -/
def attempt : Program α → Program (Except FileError α)
  | done result => done (.ok result)
  | step command next => step command fun reply => (next reply).attempt

/-- A program on a tree of its own. -/
def run : Program α → FileM α
  | done (.ok value) => pure value
  | done (.error error) => throw error
  | step command next => fun disk =>
    (next (answer (command.run disk))).run (finalState (command.run disk))

@[simp] theorem run_pure (value : α) : (pure value : Program α).run = (pure value : FileM α) := rfl

theorem run_call (command : Command) : (call command).run = command.run := by
  funext disk
  change (done (answer (command.run disk))).run (finalState (command.run disk)) = _
  cases command.run disk with
  | ok reply next => rfl
  | error error next => rfl

@[simp] theorem run_bind (program : Program α) (rest : α → Program β) :
    (program >>= rest).run = program.run >>= fun value => (rest value).run := by
  induction program with
  | done result =>
    cases result with
    | ok value => rfl
    | error error => rfl
  | step command next step =>
    funext disk
    exact congrFun (step (answer (command.run disk))) (finalState (command.run disk))

@[simp] theorem run_attempt (program : Program α) :
    program.attempt.run = FileSystem.attempt program.run := by
  induction program with
  | done result =>
    cases result with
    | ok value => rfl
    | error error => rfl
  | step command next step =>
    funext disk
    exact congrFun (step (answer (command.run disk))) (finalState (command.run disk))

/-! ### The operations as programs -/

def fileExists (path : String) : Program Bool := call (.fileExists path)

def readToString (path : String) : Program String := call (.readToString path)

def write (path : String) (content : ByteArray) : Program Unit := call (.write path content)

def createDirAll (path : String) : Program Unit := call (.createDirAll path)

def removeFile (path : String) : Program Unit := call (.removeFile path)

def readDir (path : String) : Program (List (String × Bool)) := call (.readDir path)

def now : Program Nat := call .now

@[simp] theorem run_file_exists (path : String) :
    (fileExists path).run = FileSystem.fileExists path := run_call (.fileExists path)

@[simp] theorem run_read_to_string (path : String) :
    (readToString path).run = FileSystem.readToString path := run_call (.readToString path)

@[simp] theorem run_write (path : String) (content : ByteArray) :
    (write path content).run = FileSystem.write path content := run_call (.write path content)

@[simp] theorem run_create_dir_all (path : String) :
    (createDirAll path).run = FileSystem.createDirAll path := run_call (.createDirAll path)

@[simp] theorem run_remove_file (path : String) :
    (removeFile path).run = FileSystem.removeFile path := run_call (.removeFile path)

@[simp] theorem run_read_dir (path : String) :
    (readDir path).run = FileSystem.readDir path := run_call (.readDir path)

@[simp] theorem run_now : now.run = FileSystem.now := run_call .now

end Program

/-! ## What a run touches -/

/-- A command touches the place that its path spells out, and every place whose node it
changes; with a NUL in its path it reaches nothing. -/
def Command.Touches (command : Command) (disk : Disk) (place : List String) : Prop :=
  (∃ path, command.path? = some path ∧ '\x00' ∉ path.toList ∧ place = disk.spelled path) ∨
    disk.node? place ≠ (finalState (command.run disk)).node? place

/-- What the commands of a run touch, on a tree of its own. -/
def Program.Touches {α : Type} : Program α → Disk → List String → Prop
  | done _, _, _ => False
  | step command next, disk, place =>
    command.Touches disk place ∨
      (next (answer (command.run disk))).Touches (finalState (command.run disk)) place

namespace Program

variable {α β : Type}

theorem touches_call (command : Command) (disk : Disk) (place : List String) :
    (call command).Touches disk place ↔ command.Touches disk place := by
  rw [call, Touches, Touches, or_false]

theorem touches_bind (program : Program α) (rest : α → Program β) (disk : Disk)
    (place : List String) :
    (program >>= rest).Touches disk place ↔ program.Touches disk place ∨
      ∃ value next, program.run disk = .ok value next ∧ (rest value).Touches next place := by
  induction program generalizing disk with
  | done result =>
    rw [Touches, false_or]
    cases result with
    | ok value =>
      constructor
      · intro touched
        exact ⟨value, disk, rfl, touched⟩
      · rintro ⟨_, _, ⟨⟩, touched⟩
        exact touched
    | error error =>
      constructor
      · exact False.elim
      · rintro ⟨_, _, ⟨⟩, -⟩
  | step command next step =>
    change command.Touches disk place ∨ ((next _ >>= rest).Touches _ place) ↔ _
    rw [step, Touches, or_assoc]
    rfl

theorem touches_attempt (program : Program α) (disk : Disk) (place : List String) :
    program.attempt.Touches disk place ↔ program.Touches disk place := by
  induction program generalizing disk with
  | done result => exact Iff.rfl
  | step command next step => exact or_congr Iff.rfl (step _ _)

/-! ### A program keeps to places -/

/-- From states with a property the program touches only places of a kind, leaves such a
state, and returns only values of a kind. -/
def KeepsTo (inv : Disk → Prop) (allowed : List String → Prop) (post : α → Prop)
    (program : Program α) : Prop :=
  ∀ disk, inv disk → (∀ place, program.Touches disk place → allowed place) ∧
    inv (finalState (program.run disk)) ∧
    ∀ value next, program.run disk = .ok value next → post value

variable {inv : Disk → Prop} {allowed : List String → Prop}

theorem keeps_to_pure {post : α → Prop} {value : α} (holds : post value) :
    KeepsTo inv allowed post (pure value : Program α) := by
  intro disk reached
  refine ⟨fun _ => False.elim, reached, ?_⟩
  rintro _ _ ⟨⟩
  exact holds

theorem KeepsTo.bind {between : α → Prop} {post : β → Prop} {program : Program α}
    {rest : α → Program β} (first : KeepsTo inv allowed between program)
    (later : ∀ value, between value → KeepsTo inv allowed post (rest value)) :
    KeepsTo inv allowed post (program >>= rest) := by
  intro disk reached
  obtain ⟨touched, kept, returned⟩ := first disk reached
  refine ⟨?_, ?_, ?_⟩
  · intro place touches
    rcases (touches_bind program rest disk place).mp touches with early | ⟨value, next, ran, late⟩
    · exact touched place early
    · rw [ran] at kept
      exact (later value (returned value next ran) next kept).1 place late
  · rw [run_bind]
    cases ran : program.run disk with
    | ok value next =>
      rw [ran] at kept
      rw [finalState_bind_ok ran]
      exact (later value (returned value next ran) next kept).2.1
    | error error next =>
      rw [ran] at kept
      rw [bind_error ran]
      exact kept
  · intro value final ran
    rw [run_bind] at ran
    obtain ⟨early, next, first_ran, rest_ran⟩ := bind_eq_ok.mp ran
    rw [first_ran] at kept
    exact (later early (returned early next first_ran) next kept).2.2 value final rest_ran

theorem KeepsTo.weaken {post post' : α → Prop} {program : Program α}
    (keeps : KeepsTo inv allowed post program) (weaker : ∀ value, post value → post' value) :
    KeepsTo inv allowed post' program := fun disk reached =>
  ⟨(keeps disk reached).1, (keeps disk reached).2.1,
    fun value next ran => weaker value ((keeps disk reached).2.2 value next ran)⟩

theorem KeepsTo.attempt {post : α → Prop} {program : Program α}
    (keeps : KeepsTo inv allowed post program) :
    KeepsTo inv allowed (fun _ => True) program.attempt := by
  intro disk reached
  obtain ⟨touched, kept, -⟩ := keeps disk reached
  refine ⟨fun place touches => touched place ((touches_attempt program disk place).mp touches), ?_,
    fun _ _ _ => trivial⟩
  rw [run_attempt, FileSystem.attempt]
  cases ran : program.run disk with
  | ok value next =>
    rw [ran] at kept
    exact kept
  | error error next =>
    rw [ran] at kept
    exact kept

theorem keeps_to_call {command : Command} {post : command.Reply → Prop}
    (touched : ∀ disk, inv disk → ∀ place, command.Touches disk place → allowed place)
    (kept : Preserves inv command.run)
    (returned : ∀ disk, inv disk → ∀ value next, command.run disk = .ok value next → post value) :
    KeepsTo inv allowed post (call command) := by
  intro disk reached
  rw [run_call]
  exact ⟨fun place touches => touched disk reached place ((touches_call command disk place).mp touches),
    kept disk reached, returned disk reached⟩

end Program

/-! ## Below a directory -/

/-- The path of an operation stays below a directory, or reaches nothing. -/
def Inside (cwd : List String) (base path : String) : Prop :=
  '\x00' ∈ path.toList ∨ spell cwd base <+: spell cwd path

instance (cwd : List String) (base path : String) : Decidable (Inside cwd base path) := by
  unfold Inside
  infer_instance

/-- The directories that making the path can add are all below the base. -/
def MadeInside (cwd : List String) (base path : String) : Prop :=
  '\x00' ∈ path.toList ∨
    ∀ place ∈ passed (if isAbsolute path then [] else cwd) (names path),
      spell cwd base <+: place ∨ OnTheWay cwd base place

instance (cwd : List String) (base path : String) : Decidable (MadeInside cwd base path) := by
  unfold MadeInside
  infer_instance

/-- A sound tree in which the base is an open directory. -/
structure Disk.Serves (cwd : List String) (base : String) (disk : Disk) : Prop where
  sound : disk.Sound
  opens : disk.Opens base (spell cwd base)
  at_cwd : disk.cwd = cwd

theorem Disk.Serves.of_within {cwd : List String} {base : String} {changes : List String → Prop}
    {first second : Disk} (serves : first.Serves cwd base) (within : first.Within changes second) :
    second.Serves cwd base where
  sound := within.sound
  opens := serves.opens.of_keeps_dirs within.keeps
  at_cwd := within.keeps.1.symm.trans serves.at_cwd

/-- Where there is such a tree, the least one is, under any failures. -/
theorem Disk.Serves.skeleton {cwd : List String} {base : String} {disk : Disk}
    (serves : disk.Serves cwd base) (fault : Nat → Option Fault) :
    Serves cwd base { Disk.skeleton cwd base with fault } := by
  have entries : ∀ name ∈ cwd, EntryName name := by
    rw [← serves.at_cwd]
    exact serves.sound.entry_names (by rw [serves.sound.cwd_dir]; rfl)
  obtain ⟨cwd_dir, parents⟩ := skeleton_sound entries serves.opens.no_nul
  obtain ⟨no_nul, walked, is_dir⟩ := skeleton_opens entries serves.opens.no_nul
  have walked : (Disk.skeleton cwd base).walk (if isAbsolute base then [] else cwd) (names base) =
      .ok (spell cwd base) := walked
  have same : ∀ place path, walk { Disk.skeleton cwd base with fault } place path =
      (Disk.skeleton cwd base).walk place path := walk_of_same_nodes rfl
  exact ⟨⟨cwd_dir, parents⟩, ⟨no_nul, (same _ _).trans walked, is_dir⟩, rfl⟩

/-- An operation that leaves the nodes leaves a sound tree. -/
theorem within_of_reads {α : Type} {op : FileM α} {disk : Disk} (sound : disk.Sound)
    (reads : ∀ inv : Disk → Prop, (∀ disk, inv disk → inv disk.tick) → Preserves inv op)
    (changes : List String → Prop) : disk.Within changes (finalState (op disk)) := by
  have kept := reads (disk.Within changes) (fun next within =>
    ⟨within.sound.tick, within.keeps.trans (same_dirs_tick next).keeps, within.changed⟩)
  exact kept disk ⟨sound, .refl disk, fun _ differs => absurd rfl differs⟩

/-- No command but the making of directories changes a place off its path. -/
theorem Command.within {disk : Disk} (sound : disk.Sound) (command : Command)
    (no_dirs : ∀ path, command ≠ .createDirAll path) :
    disk.Within (fun probe => ∃ path, command.path? = some path ∧ '\x00' ∉ path.toList ∧
      probe = disk.spelled path) (finalState (command.run disk)) := by
  have own : ∀ {path next}, command.path? = some path →
      disk.Within (fun probe => '\x00' ∉ path.toList ∧ probe = disk.spelled path) next →
      disk.Within (fun probe => ∃ path, command.path? = some path ∧ '\x00' ∉ path.toList ∧
        probe = disk.spelled path) next := by
    intro path next named within
    exact ⟨within.sound, within.keeps, fun probe differs =>
      ⟨path, named, within.changed probe differs⟩⟩
  cases command with
  | fileExists path =>
    exact within_of_reads sound (fun inv still => file_exists_preserves still path) _
  | readToString path =>
    exact within_of_reads sound (fun inv still => read_to_string_preserves still path) _
  | write path content => exact own rfl (write_within sound path content)
  | createDirAll path => exact absurd rfl (no_dirs path)
  | removeFile path => exact own rfl (remove_within sound path)
  | readDir path => exact within_of_reads sound (fun inv still => read_dir_preserves still path) _
  | now => exact within_of_reads sound (fun inv still => now_preserves still) _

namespace Program

variable {cwd : List String} {base : String}

/-- A command whose path stays below the base keeps to it. -/
theorem keeps_to_inside {command : Command} {post : command.Reply → Prop}
    (inside : ∀ path, command.path? = some path → Inside cwd base path)
    (no_dirs : ∀ path, command ≠ .createDirAll path)
    (returned : ∀ disk, disk.Sound → ∀ value next, command.run disk = .ok value next → post value) :
    KeepsTo (Serves cwd base) (spell cwd base <+: ·) post (call command) := by
  have below : ∀ disk : Disk, disk.cwd = cwd → ∀ place, (∃ path, command.path? = some path ∧
      '\x00' ∉ path.toList ∧ place = disk.spelled path) → spell cwd base <+: place := by
    rintro disk at_cwd place ⟨path, named, clean, rfl⟩
    rw [Disk.spelled, at_cwd]
    exact (inside path named).resolve_left clean
  refine keeps_to_call ?_ ?_ fun disk serves => returned disk serves.sound
  · rintro disk serves place (named | changed)
    · exact below disk serves.at_cwd place named
    · exact below disk serves.at_cwd place
        ((command.within serves.sound no_dirs).changed place changed)
  · intro disk serves
    exact serves.of_within (command.within serves.sound no_dirs)

theorem keeps_to_file_exists {path : String} (inside : Inside cwd base path) :
    KeepsTo (Serves cwd base) (spell cwd base <+: ·) (fun _ => True) (fileExists path) :=
  @keeps_to_inside cwd base (.fileExists path) (fun _ => True) (by rintro _ ⟨⟩; exact inside)
    (by rintro _ ⟨⟩) fun _ _ _ _ _ => trivial

theorem keeps_to_read_to_string {path : String} (inside : Inside cwd base path) :
    KeepsTo (Serves cwd base) (spell cwd base <+: ·) (fun _ => True) (readToString path) :=
  @keeps_to_inside cwd base (.readToString path) (fun _ => True) (by rintro _ ⟨⟩; exact inside)
    (by rintro _ ⟨⟩) fun _ _ _ _ _ => trivial

theorem keeps_to_write {path : String} (inside : Inside cwd base path) (content : ByteArray) :
    KeepsTo (Serves cwd base) (spell cwd base <+: ·) (fun _ => True) (write path content) :=
  @keeps_to_inside cwd base (.write path content) (fun _ => True) (by rintro _ ⟨⟩; exact inside)
    (by rintro _ ⟨⟩) fun _ _ _ _ _ => trivial

theorem keeps_to_remove_file {path : String} (inside : Inside cwd base path) :
    KeepsTo (Serves cwd base) (spell cwd base <+: ·) (fun _ => True) (removeFile path) :=
  @keeps_to_inside cwd base (.removeFile path) (fun _ => True) (by rintro _ ⟨⟩; exact inside)
    (by rintro _ ⟨⟩) fun _ _ _ _ _ => trivial

theorem keeps_to_now :
    KeepsTo (Serves cwd base) (spell cwd base <+: ·) (fun _ => True) now :=
  @keeps_to_inside cwd base .now (fun _ => True) (by rintro _ ⟨⟩) (by rintro _ ⟨⟩)
    fun _ _ _ _ _ => trivial

/-- What a directory of a sound tree lists can be the name of an entry. -/
theorem read_dir_entries {disk next : Disk} (sound : disk.Sound) {path : String}
    {listing : List (String × Bool)} (read : FileSystem.readDir path disk = .ok listing next) :
    ∀ entry ∈ listing, EntryName entry.1 := by
  rw [FileSystem.readDir] at read
  obtain ⟨fault, between, asked, read⟩ := bind_eq_ok.mp read
  have ticked : between = disk.tick := (EStateM.Result.ok.inj asked).2.symm
  cases fault with
  | some fault => cases read
  | none =>
    obtain ⟨_, _, ⟨⟩, read⟩ := bind_eq_ok.mp read
    obtain ⟨⟨place, node⟩, last, -, read⟩ := bind_eq_ok.mp read
    cases node with
    | file content => cases read
    | dir =>
      cases read
      rintro ⟨name, kind⟩ listed
      obtain ⟨node, held, -⟩ := mem_children.mp listed
      rw [ticked] at held
      exact (sound.tick.parents place name (by rw [held]; rfl)).2

theorem keeps_to_read_dir {path : String} (inside : Inside cwd base path) :
    KeepsTo (Serves cwd base) (spell cwd base <+: ·)
      (fun listing => ∀ entry ∈ listing, EntryName entry.1) (readDir path) :=
  @keeps_to_inside cwd base (.readDir path) (fun listing => ∀ entry ∈ listing, EntryName entry.1)
    (by rintro _ ⟨⟩; exact inside) (by rintro _ ⟨⟩)
    fun disk sound listing next read => read_dir_entries sound read

/-- Directories are made below the base only. -/
theorem keeps_to_create_dir_all {path : String} (inside : Inside cwd base path)
    (made : MadeInside cwd base path) :
    KeepsTo (Serves cwd base) (spell cwd base <+: ·) (fun _ => True) (createDirAll path) := by
  refine keeps_to_call ?_ ?_ fun _ _ _ _ _ => trivial
  · rintro disk serves place (⟨own, named, clean, rfl⟩ | changed)
    · cases named
      rw [Disk.spelled, serves.at_cwd]
      exact inside.resolve_left clean
    · obtain ⟨clean, absent, listed⟩ :=
        (create_dir_all_within serves.sound path).changed place changed
      rw [start, serves.at_cwd] at listed
      rcases made.resolve_left clean place listed with below | on_way
      · exact below
      · rw [← serves.at_cwd] at on_way
        rw [serves.sound.on_the_way serves.opens on_way] at absent
        cases absent
  · intro disk serves
    exact serves.of_within (create_dir_all_within serves.sound path)

end Program

end FileSystem
