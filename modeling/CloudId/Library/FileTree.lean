import CloudId.Library.Effects
import CloudId.Library.FileSystem

/-! What the file operations do to the tree. A file below a directory is found by
the directory's path and its own name, whatever the directory's path looks like;
a whole-file operation changes one place, and the directories stay, so every
other path leads where it led before. -/
namespace FileSystem
open Effects

/-! ## Names in a path -/

/-- The names a path spells out, from left to right. -/
def names (path : String) : List String :=
  ((path.toList.splitOn '/').filter (· ≠ [])).map String.ofList

/-- The names of a character list. -/
private def charNames (path : List Char) : List String :=
  ((path.splitOn '/').filter (· ≠ [])).map String.ofList

theorem components_eq (path : String) :
    components path = names path ++ if endsInSlash path then ["."] else [] := rfl

private theorem char_names_slash (first second : List Char) :
    charNames (first ++ '/' :: second) = charNames first ++ charNames second := by
  rw [charNames, List.splitOn_append_cons_self, List.filter_append, List.map_append]
  rfl

private theorem char_names_nil : charNames [] = [] := by
  simp [charNames, List.splitOn_nil]

theorem names_slash (first second : String) :
    names (first ++ "/" ++ second) = names first ++ names second := by
  change charNames (first ++ "/" ++ second).toList = charNames first.toList ++ charNames second.toList
  rw [String.toList_append, String.toList_append, List.append_assoc]
  exact char_names_slash _ _

/-- The name of an entry of a directory: not empty, without a slash, and not one
of the two names that have a meaning of their own. -/
structure Ordinary (name : String) : Prop where
  nonempty : name ≠ ""
  no_slash : '/' ∉ name.toList
  not_dot : name ≠ "."
  not_dots : name ≠ ".."

instance (name : String) : Decidable (Ordinary name) :=
  decidable_of_iff (name ≠ "" ∧ '/' ∉ name.toList ∧ name ≠ "." ∧ name ≠ "..")
    ⟨fun ⟨a, b, c, d⟩ => ⟨a, b, c, d⟩, fun ⟨a, b, c, d⟩ => ⟨a, b, c, d⟩⟩

theorem toList_ne_nil {text : String} (nonempty : text ≠ "") : text.toList ≠ [] := by
  intro empty
  exact nonempty (String.toList_inj.mp (by rw [empty]; rfl))

theorem Ordinary.relative {name : String} (ordinary : Ordinary name) : isAbsolute name = false := by
  rw [isAbsolute, beq_eq_false_iff_ne]
  intro slash
  exact ordinary.no_slash (List.mem_of_mem_head? slash)

theorem Ordinary.open_end {name : String} (ordinary : Ordinary name) : endsInSlash name = false := by
  rw [endsInSlash, beq_eq_false_iff_ne]
  intro slash
  exact ordinary.no_slash (List.mem_of_mem_getLast? slash)

theorem names_single {name : String} (nonempty : name ≠ "") (no_slash : '/' ∉ name.toList) :
    names name = [name] := by
  have single := List.splitOn_eq_singleton no_slash
  rw [names, single]
  simp [toList_ne_nil nonempty]

theorem Ordinary.names_eq {name : String} (ordinary : Ordinary name) : names name = [name] :=
  names_single ordinary.nonempty ordinary.no_slash

/-- A relative path below a directory: its names follow those of the directory. -/
theorem names_join {base path : String} (relative : isAbsolute path = false) :
    names (join base path) = names base ++ names path := by
  rw [join, relative, if_neg Bool.false_ne_true]
  split
  · rename_i bare
    rcases bare with rfl | slash
    · simp [names, List.splitOn_nil]
    · have last : base.toList.getLast? = some '/' := by simpa [endsInSlash] using slash
      obtain ⟨front, split⟩ := List.getLast?_eq_some_iff.mp last
      change charNames (base ++ path).toList = charNames base.toList ++ charNames path.toList
      rw [String.toList_append, split, List.append_assoc, List.singleton_append, char_names_slash,
        char_names_slash, char_names_nil, List.append_nil]
  · exact names_slash base path

theorem ends_in_slash_join {base path : String} (relative : isAbsolute path = false)
    (nonempty : path ≠ "") : endsInSlash (join base path) = endsInSlash path := by
  have shown : ∀ front : String, endsInSlash (front ++ path) = endsInSlash path := by
    intro front
    rw [endsInSlash, endsInSlash, String.toList_append,
      List.getLast?_append_of_ne_nil _ (toList_ne_nil nonempty)]
  rw [join, relative, if_neg Bool.false_ne_true]
  split <;> exact shown _

theorem is_absolute_join {base path : String} (relative : isAbsolute path = false) :
    isAbsolute (join base path) = isAbsolute base := by
  have kept : ∀ more : String, base ≠ "" → isAbsolute (base ++ more) = isAbsolute base := by
    intro more nonempty
    rw [isAbsolute, isAbsolute, String.toList_append,
      List.head?_append_of_ne_nil _ (toList_ne_nil nonempty)]
  rw [join, relative, if_neg Bool.false_ne_true]
  by_cases empty : base = ""
  · subst empty
    rw [if_pos (Or.inl rfl), String.empty_append, relative]
    rfl
  · split
    · exact kept path empty
    · rw [String.append_assoc]
      exact kept _ empty

theorem join_ne_empty {base path : String} (nonempty : path ≠ "") : join base path ≠ "" := by
  have shown : ∀ front : String, front ++ path ≠ "" := by
    intro front empty
    have chars := congrArg String.toList empty
    rw [String.toList_append] at chars
    exact toList_ne_nil nonempty (List.append_eq_nil_iff.mp chars).2
  rw [join]
  split
  · exact nonempty
  · split <;> exact shown _

theorem mem_join {base path : String} (relative : isAbsolute path = false) {c : Char}
    (other : c ≠ '/') :
    c ∈ (join base path).toList ↔ c ∈ base.toList ∨ c ∈ path.toList := by
  rw [join, relative, if_neg Bool.false_ne_true]
  split
  · simp [String.toList_append]
  · simp [String.toList_append, other]

theorem join_relative {base path : String} (relative : isAbsolute path = false)
    (nonempty : base ≠ "") (open_ : endsInSlash base = false) :
    join base path = base ++ "/" ++ path := by
  rw [join, relative, if_neg Bool.false_ne_true, if_neg (by simp [nonempty, open_])]

/-- One name and then more of them, or all at once. -/
theorem join_join {base name path : String} (ordinary : Ordinary name)
    (relative : isAbsolute path = false) :
    join (join base name) path = join base (name ++ "/" ++ path) := by
  have open_ : endsInSlash (join base name) = false := by
    rw [ends_in_slash_join ordinary.relative ordinary.nonempty, ordinary.open_end]
  have whole : isAbsolute (name ++ "/" ++ path) = false := by
    rw [← join_relative relative ordinary.nonempty ordinary.open_end,
      is_absolute_join relative, ordinary.relative]
  rw [join_relative relative (join_ne_empty ordinary.nonempty) open_, join, join, whole,
    ordinary.relative, if_neg Bool.false_ne_true, if_neg Bool.false_ne_true]
  split
  · rw [String.append_assoc, String.append_assoc, String.append_assoc]
  · simp only [String.append_assoc]

/-! ## Walks -/

namespace Disk

theorem walk_append (disk : Disk) (place : List String) (first second : List String) :
    disk.walk place (first ++ second) =
      (disk.walk place first).bind fun next => disk.walk next second := by
  induction first generalizing place with
  | nil => rfl
  | cons component rest step =>
    rw [List.cons_append, walk, walk]
    cases disk.node? place with
    | none => rfl
    | some node =>
      cases node with
      | file content => rfl
      | dir =>
        dsimp only
        split
        · exact step _
        · split
          · exact step _
          · exact step _

/-- Only the nodes and the current directory matter to where a path leads. -/
theorem walk_of_same_nodes {first second : Disk} (nodes : first.nodes = second.nodes)
    (place path : List String) : first.walk place path = second.walk place path := by
  induction path generalizing place with
  | nil => rfl
  | cons component rest step =>
    have here : first.node? place = second.node? place := by rw [node?, node?, nodes]
    rw [walk, walk, here, step, step, step]

theorem resolve_of_same_nodes {first second : Disk} (nodes : first.nodes = second.nodes)
    (cwd : first.cwd = second.cwd) (path : String) : first.resolve path = second.resolve path := by
  rw [resolve, resolve, cwd, walk_of_same_nodes nodes]

/-- The later tree has the directories of the first one, and maybe more. -/
def KeepsDirs (first second : Disk) : Prop :=
  first.cwd = second.cwd ∧
    ∀ place, first.node? place = some .dir → second.node? place = some .dir

theorem KeepsDirs.refl (disk : Disk) : KeepsDirs disk disk := ⟨rfl, fun _ => id⟩

theorem KeepsDirs.trans {first second third : Disk} (before : KeepsDirs first second)
    (after : KeepsDirs second third) : KeepsDirs first third :=
  ⟨before.1.trans after.1, fun place held => after.2 place (before.2 place held)⟩

/-- The two trees have the same directories. -/
def SameDirs (first second : Disk) : Prop :=
  first.cwd = second.cwd ∧
    ∀ place, first.node? place = some .dir ↔ second.node? place = some .dir

theorem SameDirs.trans {first second third : Disk} (before : SameDirs first second)
    (after : SameDirs second third) : SameDirs first third :=
  ⟨before.1.trans after.1, fun place => (before.2 place).trans (after.2 place)⟩

theorem SameDirs.keeps {first second : Disk} (same : SameDirs first second) :
    KeepsDirs first second :=
  ⟨same.1, fun place => (same.2 place).mp⟩

/-- A walk needs directories only. -/
theorem walk_ok_of_keeps_dirs {first second : Disk} (keeps : KeepsDirs first second)
    {place found : List String} {path : List String} (walked : first.walk place path = .ok found) :
    second.walk place path = .ok found := by
  induction path generalizing place with
  | nil => exact walked
  | cons component rest step =>
    rw [walk] at walked ⊢
    rcases here : first.node? place with _ | _ | content
    · rw [here] at walked
      cases walked
    · rw [here] at walked
      rw [keeps.2 place here]
      dsimp only at walked ⊢
      by_cases stays : component = "."
      · rw [if_pos stays] at walked ⊢
        exact step walked
      · rw [if_neg stays] at walked ⊢
        by_cases rises : component = ".."
        · rw [if_pos rises] at walked ⊢
          exact step walked
        · rw [if_neg rises] at walked ⊢
          exact step walked
    · rw [here] at walked
      cases walked

theorem walk_ok_of_same_dirs {first second : Disk} (same : SameDirs first second)
    {place found : List String} {path : List String} (walked : first.walk place path = .ok found) :
    second.walk place path = .ok found :=
  walk_ok_of_keeps_dirs same.keeps walked

theorem SameDirs.symm {first second : Disk} (same : SameDirs first second) :
    SameDirs second first := ⟨same.1.symm, fun place => (same.2 place).symm⟩

/-- Where a walk for the path begins. -/
def start (disk : Disk) (path : String) : List String :=
  if isAbsolute path then [] else disk.cwd

theorem resolve_ok_of_keeps_dirs {first second : Disk} (keeps : KeepsDirs first second)
    {path : String} {place : List String} (resolved : first.resolve path = .ok place) :
    second.resolve path = .ok place := by
  rw [resolve] at resolved ⊢
  split at resolved
  · cases resolved
  · rename_i clean
    split at resolved
    · cases resolved
    · rename_i nonempty
      rw [if_neg clean, if_neg nonempty, ← keeps.1]
      exact walk_ok_of_keeps_dirs keeps resolved

theorem resolve_ok_of_same_dirs {first second : Disk} (same : SameDirs first second)
    {path : String} {place : List String} (resolved : first.resolve path = .ok place) :
    second.resolve path = .ok place :=
  resolve_ok_of_keeps_dirs same.keeps resolved

theorem resolve_ok_iff_of_same_dirs {first second : Disk} (same : SameDirs first second)
    (path : String) (place : List String) :
    first.resolve path = .ok place ↔ second.resolve path = .ok place :=
  ⟨resolve_ok_of_same_dirs same, resolve_ok_of_same_dirs same.symm⟩

/-- A path leads to a directory, whether or not it ends in a slash. -/
structure Opens (disk : Disk) (path : String) (place : List String) : Prop where
  no_nul : '\x00' ∉ path.toList
  walked : disk.walk (disk.start path) (names path) = .ok place
  is_dir : disk.node? place = some .dir

theorem Opens.of_same_dirs {first second : Disk} (same : SameDirs first second)
    (opens : first.Opens path place) : second.Opens path place where
  no_nul := opens.no_nul
  walked := by
    rw [start, ← same.1]
    exact walk_ok_of_same_dirs same opens.walked
  is_dir := (same.2 place).mp opens.is_dir

theorem walk_ordinary {disk : Disk} {place : List String} {name : String}
    (ordinary : Ordinary name) :
    disk.walk place [name] =
      match disk.node? place with
      | none => .error .notFound
      | some (.file _) => .error .notADirectory
      | some .dir => .ok (place ++ [name]) := by
  rw [walk]
  cases disk.node? place with
  | none => rfl
  | some node =>
    cases node with
    | file content => rfl
    | dir => simp [ordinary.not_dot, ordinary.not_dots, walk]

/-- An entry of an open directory is at the name below it. -/
theorem Opens.resolve_join {disk : Disk} (opens : disk.Opens base place) (ordinary : Ordinary name)
    (no_nul : '\x00' ∉ name.toList) : disk.resolve (join base name) = .ok (place ++ [name]) := by
  have clean : '\x00' ∉ (join base name).toList := by
    rw [mem_join ordinary.relative (by decide)]
    exact not_or.mpr ⟨opens.no_nul, no_nul⟩
  rw [resolve, if_neg clean, if_neg (join_ne_empty ordinary.nonempty), components_eq,
    ends_in_slash_join ordinary.relative ordinary.nonempty, ordinary.open_end,
    is_absolute_join ordinary.relative, names_join ordinary.relative, ordinary.names_eq,
    if_neg Bool.false_ne_true, List.append_nil, walk_append]
  have walked := opens.walked
  rw [start] at walked
  rw [walked]
  change disk.walk place [name] = _
  rw [walk_ordinary ordinary, opens.is_dir]

/-- Where an entry resolves, its directory is open. -/
theorem opens_of_resolve_join {disk : Disk} (ordinary : Ordinary name)
    (resolved : disk.resolve (join base name) = .ok place) :
    ∃ parent, disk.Opens base parent ∧ place = parent ++ [name] ∧ '\x00' ∉ name.toList := by
  rw [resolve] at resolved
  split at resolved
  · cases resolved
  · rename_i clean
    rw [mem_join ordinary.relative (by decide), not_or] at clean
    rw [if_neg (join_ne_empty ordinary.nonempty), components_eq,
      ends_in_slash_join ordinary.relative ordinary.nonempty, ordinary.open_end,
      is_absolute_join ordinary.relative, names_join ordinary.relative, ordinary.names_eq,
      if_neg Bool.false_ne_true, List.append_nil, walk_append] at resolved
    cases walked : disk.walk (disk.start base) (names base) with
    | error error =>
      rw [start] at walked
      rw [walked] at resolved
      cases resolved
    | ok parent =>
      have from_start := walked
      rw [start] at from_start
      rw [from_start] at resolved
      change disk.walk parent [name] = .ok place at resolved
      rw [walk_ordinary ordinary] at resolved
      cases here : disk.node? parent with
      | none =>
        rw [here] at resolved
        cases resolved
      | some node =>
        cases node with
        | file content =>
          rw [here] at resolved
          cases resolved
        | dir =>
          rw [here] at resolved
          cases resolved
          exact ⟨parent, ⟨clean.1, walked, here⟩, rfl, clean.2⟩

theorem Opens.join {disk : Disk} (opens : disk.Opens base place) (ordinary : Ordinary name)
    (no_nul : '\x00' ∉ name.toList) (is_dir : disk.node? (place ++ [name]) = some .dir) :
    disk.Opens (join base name) (place ++ [name]) where
  no_nul := by
    rw [mem_join ordinary.relative (by decide)]
    exact not_or.mpr ⟨opens.no_nul, no_nul⟩
  walked := by
    have walked := opens.walked
    rw [start] at walked
    rw [start, is_absolute_join ordinary.relative, names_join ordinary.relative, ordinary.names_eq,
      walk_append, walked]
    change disk.walk place [name] = _
    rw [walk_ordinary ordinary, opens.is_dir]
  is_dir := is_dir

/-! ## What a path holds -/

/-- The content of the file a path leads to. -/
def fileAt (disk : Disk) (path : String) : Option ByteArray :=
  match disk.find path with
  | .ok (_, .file content) => some content
  | _ => none

/-- The text of the file a path leads to. -/
def readText (disk : Disk) (path : String) : Option String :=
  (disk.fileAt path).bind String.fromUTF8?

theorem file_at_of_same_nodes {first second : Disk} (nodes : first.nodes = second.nodes)
    (cwd : first.cwd = second.cwd) (path : String) : first.fileAt path = second.fileAt path := by
  have same : ∀ place, first.node? place = second.node? place := by
    intro place
    rw [node?, node?, nodes]
  rw [fileAt, fileAt, find, find, resolve_of_same_nodes nodes cwd]
  simp only [same]

theorem find_eq_ok {disk : Disk} {path : String} {place : List String} {node : Node} :
    disk.find path = .ok (place, node) ↔
      disk.resolve path = .ok place ∧ disk.node? place = some node := by
  rw [find]
  cases disk.resolve path with
  | error error => simp
  | ok found =>
    dsimp only
    cases here : disk.node? found with
    | none =>
      simp only [reduceCtorEq, Except.ok.injEq, false_iff, not_and]
      rintro rfl
      rw [here]
      exact nofun
    | some held =>
      simp only [Except.ok.injEq, Prod.mk.injEq]
      constructor
      · rintro ⟨rfl, rfl⟩
        exact ⟨rfl, here⟩
      · rintro ⟨rfl, held_node⟩
        exact ⟨rfl, Option.some.inj (here.symm.trans held_node)⟩

theorem file_at_eq_some {disk : Disk} {path : String} {content : ByteArray} :
    disk.fileAt path = some content ↔
      ∃ place, disk.resolve path = .ok place ∧ disk.node? place = some (.file content) := by
  simp only [← find_eq_ok]
  rw [fileAt]
  constructor
  · intro held
    split at held
    · rename_i place found located
      cases held
      exact ⟨place, located⟩
    · cases held
  · rintro ⟨place, located⟩
    rw [located]

/-! ## Changes of one place -/

/-- The tree after one more operation. -/
def tick (disk : Disk) : Disk := { disk with ticks := disk.ticks + 1 }

/-- The tree with a file at a place. -/
def store (disk : Disk) (place : List String) (content : ByteArray) : Disk :=
  { disk with nodes := disk.nodes.insert place (.file content) }

/-- The tree with a directory at a place. -/
def makeDir (disk : Disk) (place : List String) : Disk :=
  { disk with nodes := disk.nodes.insert place .dir }

/-- The tree without what was at a place. -/
def remove (disk : Disk) (place : List String) : Disk :=
  { disk with nodes := disk.nodes.erase place }

theorem node_store {disk : Disk} {place : List String} (below : place ≠ [])
    (content : ByteArray) (probe : List String) :
    (disk.store place content).node? probe =
      if probe = place then some (.file content) else disk.node? probe := by
  rw [node?, node?, store, HashMap.lookup_insert_eq]
  by_cases same : probe = place
  · subst same
    simp [below]
  · simp [same]

theorem node_make_dir {disk : Disk} {place : List String} (probe : List String) :
    (disk.makeDir place).node? probe = if probe = place then some .dir else disk.node? probe := by
  rw [node?, node?, makeDir, HashMap.lookup_insert_eq]
  by_cases same : probe = place
  · subst same
    simp
  · simp [same]

theorem node_remove {disk : Disk} {place : List String} (below : place ≠ [])
    (probe : List String) :
    (disk.remove place).node? probe = if probe = place then none else disk.node? probe := by
  rw [node?, node?, remove, HashMap.lookup_erase_eq]
  by_cases same : probe = place
  · subst same
    simp [below]
  · simp [same]

theorem ne_root_of_not_dir {disk : Disk} {place : List String}
    (open_ : disk.node? place ≠ some .dir) : place ≠ [] := by
  rintro rfl
  exact open_ rfl

theorem same_dirs_tick (disk : Disk) : SameDirs disk disk.tick := ⟨rfl, fun _ => Iff.rfl⟩

theorem same_dirs_store {disk : Disk} {place : List String} (open_ : disk.node? place ≠ some .dir)
    (content : ByteArray) : SameDirs disk (disk.store place content) := by
  refine ⟨rfl, fun probe => ?_⟩
  rw [node_store (ne_root_of_not_dir open_)]
  by_cases same : probe = place
  · subst same
    simp [open_]
  · rw [if_neg same]

theorem same_dirs_remove {disk : Disk} {place : List String} (open_ : disk.node? place ≠ some .dir) :
    SameDirs disk (disk.remove place) := by
  refine ⟨rfl, fun probe => ?_⟩
  rw [node_remove (ne_root_of_not_dir open_)]
  by_cases same : probe = place
  · subst same
    simp [open_]
  · rw [if_neg same]

/-- What paths hold after a file has been written at a place. -/
theorem file_at_store {disk : Disk} {place : List String} (open_ : disk.node? place ≠ some .dir)
    (content : ByteArray) (path : String) :
    (disk.store place content).fileAt path =
      if disk.resolve path = .ok place then some content else disk.fileAt path := by
  have same := same_dirs_store open_ content
  apply Option.ext
  intro held
  simp only [file_at_eq_some, ← resolve_ok_iff_of_same_dirs same, node_store (ne_root_of_not_dir open_)]
  by_cases here : disk.resolve path = .ok place
  · rw [if_pos here, here]
    simp
  · rw [if_neg here, file_at_eq_some]
    constructor
    · rintro ⟨found, resolved, node⟩
      refine ⟨found, resolved, ?_⟩
      have elsewhere : found ≠ place := fun there => here (there ▸ resolved)
      rwa [if_neg elsewhere] at node
    · rintro ⟨found, resolved, node⟩
      refine ⟨found, resolved, ?_⟩
      have elsewhere : found ≠ place := fun there => here (there ▸ resolved)
      rw [if_neg elsewhere]
      exact node

theorem resolve_tick (disk : Disk) (path : String) : disk.tick.resolve path = disk.resolve path :=
  @resolve_of_same_nodes disk.tick disk rfl rfl path

theorem find_tick (disk : Disk) (path : String) : disk.tick.find path = disk.find path := by
  rw [find, find, resolve_tick]
  rfl

@[simp] theorem file_at_tick (disk : Disk) (path : String) : disk.tick.fileAt path = disk.fileAt path := by
  apply Option.ext
  intro content
  rw [file_at_eq_some, file_at_eq_some]
  simp only [← resolve_ok_iff_of_same_dirs (same_dirs_tick disk)]
  rfl

end Disk

/-! ## Operations -/

open Disk

/-- The place a file is written to, which must not be a directory. -/
def Disk.target (disk : Disk) (path : String) : Except FileError (List String) :=
  match disk.resolve path with
  | .error error => .error error
  | .ok place =>
    match disk.node? place with
    | some .dir => .error .isADirectory
    | _ => .ok place

theorem target_tick (disk : Disk) (path : String) : disk.tick.target path = disk.target path := by
  rw [Disk.target, Disk.target, resolve_tick]
  rfl

theorem target_eq_ok {disk : Disk} {path : String} {place : List String} :
    disk.target path = .ok place ↔ disk.resolve path = .ok place ∧ disk.node? place ≠ some .dir := by
  rw [Disk.target]
  cases resolved : disk.resolve path with
  | error error => simp
  | ok found =>
    dsimp only
    by_cases is_dir : disk.node? found = some .dir
    · rw [is_dir]
      simp only [reduceCtorEq, Except.ok.injEq, ne_eq, false_iff, not_and, not_not]
      rintro rfl
      exact is_dir
    · have open_ : (match disk.node? found with
          | some .dir => .error .isADirectory
          | _ => .ok found : Except FileError (List String)) = .ok found := by
        rcases node : disk.node? found with _ | _ | held
        · rfl
        · exact absurd node is_dir
        · rfl
      rw [open_, Except.ok.injEq]
      refine ⟨fun same => ⟨same, same ▸ is_dir⟩, And.left⟩

/-- An operation on the file that a path leads to, once the environment lets it
begin. -/
theorem lift_bind {α β : Type} (result : Except FileError α) (rest : α → FileM β)
    (disk : Disk) : (liftExcept result >>= rest) disk =
      match result with
      | .ok value => rest value disk
      | .error error => .error error disk := by
  cases result <;> rfl

theorem after_fault {α : Type} (rest : Option Fault → FileM α) (disk : Disk) :
    (nextFault >>= rest) disk = rest (disk.fault disk.ticks) disk.tick := bind_ok rfl

theorem after_get {α : Type} (rest : Disk → FileM α) (disk : Disk) :
    (get >>= rest) disk = rest disk disk := bind_ok rfl

theorem write_eq (path : String) (content : ByteArray) (disk : Disk) :
    write path content disk =
      match disk.fault disk.ticks, disk.target path with
      | some .refused, _ => .error .failed disk.tick
      | _, .error error => .error error disk.tick
      | none, .ok place => .ok () (disk.tick.store place content)
      | some (.cut written), .ok place =>
        .error .failed (disk.tick.store place (content.extract 0 written)) := by
  rw [write, after_fault, Disk.target]
  rcases disk.fault disk.ticks with _ | _ | written
  · dsimp only
    rw [after_get, lift_bind, resolve_tick]
    cases disk.resolve path with
    | error error => rfl
    | ok place =>
      have here : disk.tick.node? place = disk.node? place := rfl
      dsimp only
      rw [here]
      rcases disk.node? place with _ | _ | held <;> rfl
  · rfl
  · dsimp only
    rw [after_get, lift_bind, resolve_tick]
    cases disk.resolve path with
    | error error => rfl
    | ok place =>
      have here : disk.tick.node? place = disk.node? place := rfl
      dsimp only
      rw [here]
      rcases disk.node? place with _ | _ | held <;> rfl

/-! ## The end of a write -/

/-- How a write of a whole file ends: it has changed nothing, it has stopped
before the last byte, it has written everything and failed nevertheless, or it
has succeeded. -/
inductive WriteEnd where
  | refused
  | torn
  | filled
  | saved
  deriving DecidableEq

/-- How the next write to a path ends, for a content of that size. -/
def Disk.writeEnd (disk : Disk) (path : String) (size : Nat) : WriteEnd :=
  match disk.fault disk.ticks, disk.target path with
  | some .refused, _ => .refused
  | _, .error _ => .refused
  | none, .ok _ => .saved
  | some (.cut written), .ok _ => if written < size then .torn else .filled

/-- What is read back after a write: what was there, nothing that is the whole
text, or the text. -/
inductive WriteEnd.ReadsBack (before : Option String) (text : String) :
    WriteEnd → Option String → Prop where
  | refused : ReadsBack before text .refused before
  | torn (cut more : String) (short : more ≠ "") (split : text = cut ++ more) :
      ReadsBack before text .torn (some cut)
  | unreadable : ReadsBack before text .torn none
  | filled : ReadsBack before text .filled (some text)
  | saved : ReadsBack before text .saved (some text)

theorem from_utf8_to_utf8 (text : String) : String.fromUTF8? text.toUTF8 = some text := by
  rw [String.toUTF8_eq_toByteArray, String.fromUTF8?, dif_pos text.isValidUTF8]
  rfl

/-- The bytes of a text that was cut short are not text, or a shorter one. -/
theorem from_utf8_cut {text : String} {written : Nat} (short : written < text.toUTF8.size) :
    String.fromUTF8? (text.toUTF8.extract 0 written) = none ∨
      ∃ cut more, more ≠ "" ∧ text = cut ++ more ∧
        String.fromUTF8? (text.toUTF8.extract 0 written) = some cut := by
  rw [String.toUTF8_eq_toByteArray] at short ⊢
  by_cases valid : (text.toByteArray.extract 0 written).IsValidUTF8
  · right
    obtain ⟨front, front_bytes⟩ := valid
    have whole : front.utf8Encode ++ text.toByteArray.extract written text.toByteArray.size =
        text.toList.utf8Encode := by
      rw [← front_bytes, ← ByteArray.extract_eq_extract_append_extract _ (Nat.zero_le _),
        ByteArray.extract_zero_size, String.utf8Encode_toList]
      exact short.le
    obtain ⟨back, split⟩ := List.isPrefix_of_utf8Encode_append_eq_utf8Encode _ whole
    have cut_bytes : (String.ofList front).toByteArray = text.toByteArray.extract 0 written := by
      rw [front_bytes]
      rfl
    have joined : text = String.ofList front ++ String.ofList back := by
      rw [← String.ofList_append, split, String.ofList_toList]
    refine ⟨String.ofList front, String.ofList back, ?_, joined, ?_⟩
    · intro empty
      rw [empty, String.append_empty] at joined
      have sizes := congrArg ByteArray.size cut_bytes
      rw [← joined, ByteArray.size_extract] at sizes
      omega
    · rw [← cut_bytes]
      exact from_utf8_to_utf8 _
  · left
    rw [String.fromUTF8?, dif_neg valid]

private theorem extract_whole {content : ByteArray} {written : Nat}
    (all : content.size ≤ written) : content.extract 0 written = content := by
  apply ByteArray.ext_getElem
  · simp [all]
  · intro index within within'
    simp only [ByteArray.getElem_extract, Nat.zero_add]

/-- The effect of a write, by how it ends. -/
theorem write_end_eq (path : String) (content : ByteArray) (disk : Disk) :
    match disk.writeEnd path content.size with
    | .refused => ∃ error, write path content disk = .error error disk.tick
    | .torn => ∃ place written, disk.target path = .ok place ∧ written < content.size ∧
        write path content disk =
          .error .failed (disk.tick.store place (content.extract 0 written))
    | .filled => ∃ place, disk.target path = .ok place ∧
        write path content disk = .error .failed (disk.tick.store place content)
    | .saved => ∃ place, disk.target path = .ok place ∧
        write path content disk = .ok () (disk.tick.store place content) := by
  rw [Disk.writeEnd, write_eq]
  rcases disk.fault disk.ticks with _ | _ | written
  · cases disk.target path with
    | error error => exact ⟨_, rfl⟩
    | ok place => exact ⟨place, rfl, rfl⟩
  · exact ⟨_, rfl⟩
  · cases disk.target path with
    | error error => exact ⟨_, rfl⟩
    | ok place =>
      by_cases short : written < content.size
      · dsimp only
        rw [if_pos short]
        exact ⟨place, written, rfl, short, rfl⟩
      · dsimp only
        rw [if_neg short, extract_whole (Nat.le_of_not_lt short)]
        exact ⟨place, rfl, rfl⟩

/-- A write changes nothing, or the file at the place that the path leads to. -/
theorem write_changes (path : String) (content : ByteArray) (disk : Disk) :
    finalState (write path content disk) = disk.tick ∨ ∃ place bytes,
      disk.target path = .ok place ∧
        finalState (write path content disk) = disk.tick.store place bytes := by
  have spec := write_end_eq path content disk
  split at spec
  · obtain ⟨error, spec⟩ := spec
    rw [spec]
    exact .inl rfl
  · obtain ⟨place, written, target, -, spec⟩ := spec
    rw [spec]
    exact .inr ⟨place, _, target, rfl⟩
  · obtain ⟨place, target, spec⟩ := spec
    rw [spec]
    exact .inr ⟨place, _, target, rfl⟩
  · obtain ⟨place, target, spec⟩ := spec
    rw [spec]
    exact .inr ⟨place, _, target, rfl⟩

theorem write_keeps_fault (path : String) (content : ByteArray) (disk : Disk) :
    (finalState (write path content disk)).fault = disk.fault := by
  rcases write_changes path content disk with same | ⟨place, bytes, -, stored⟩
  · rw [same]
    rfl
  · rw [stored]
    rfl

/-- Without a write that is cut short, a file is written or refused. -/
theorem write_end_of_uncut {disk : Disk} (uncut : ∀ written, disk.fault disk.ticks ≠ some (.cut written))
    (path : String) (size : Nat) :
    disk.writeEnd path size = .refused ∨ disk.writeEnd path size = .saved := by
  rw [Disk.writeEnd]
  rcases fault : disk.fault disk.ticks with _ | _ | written
  · cases disk.target path with
    | error error => exact Or.inl rfl
    | ok place => exact Or.inr rfl
  · exact Or.inl rfl
  · exact absurd fault (uncut written)

private theorem read_text_stored {disk : Disk} {path : String} {place : List String}
    (target : disk.target path = .ok place) (content : ByteArray) (other : String) :
    (disk.tick.store place content).readText other =
      if disk.resolve other = .ok place then String.fromUTF8? content else disk.readText other := by
  have open_ : disk.tick.node? place ≠ some .dir := (target_eq_ok.mp target).2
  rw [Disk.readText, Disk.readText, file_at_store open_, resolve_tick, file_at_tick]
  split <;> rfl

/-- What the file holds after a write, by how the write ends. -/
theorem write_reads_back (path text : String) (disk : Disk) :
    (disk.writeEnd path text.toUTF8.size).ReadsBack (disk.readText path) text
      ((finalState (write path text.toUTF8 disk)).readText path) := by
  have spec := write_end_eq path text.toUTF8 disk
  split at spec <;> rename_i ends <;> rw [ends]
  · obtain ⟨error, spec⟩ := spec
    rw [spec]
    have same : disk.tick.readText path = disk.readText path := by
      rw [Disk.readText, Disk.readText, file_at_tick]
    rw [finalState, same]
    exact .refused
  · obtain ⟨place, written, target, short, spec⟩ := spec
    rw [spec, finalState, read_text_stored target, if_pos (target_eq_ok.mp target).1]
    rcases from_utf8_cut short with invalid | ⟨cut, more, rest, split, valid⟩
    · rw [invalid]
      exact .unreadable
    · rw [valid]
      exact .torn cut more rest split
  · obtain ⟨place, target, spec⟩ := spec
    rw [spec, finalState, read_text_stored target, if_pos (target_eq_ok.mp target).1,
      from_utf8_to_utf8]
    exact .filled
  · obtain ⟨place, target, spec⟩ := spec
    rw [spec, finalState, read_text_stored target, if_pos (target_eq_ok.mp target).1,
      from_utf8_to_utf8]
    exact .saved

/-- A write changes no file at another place. -/
theorem write_reads_elsewhere {path other : String} {disk : Disk} (content : ByteArray)
    (apart : ∀ place, disk.resolve path = .ok place → disk.resolve other ≠ .ok place) :
    (finalState (write path content disk)).readText other = disk.readText other := by
  rcases write_changes path content disk with same | ⟨place, bytes, target, stored⟩
  · rw [same, Disk.readText, Disk.readText, file_at_tick]
  · rw [stored, read_text_stored target, if_neg (apart place (target_eq_ok.mp target).1)]

/-- A write succeeds exactly when it ends so. -/
theorem write_ok_iff (path : String) (content : ByteArray) (disk : Disk) :
    (∃ final, write path content disk = .ok () final) ↔
      disk.writeEnd path content.size = .saved := by
  have spec := write_end_eq path content disk
  split at spec <;> rename_i ends
  · obtain ⟨error, spec⟩ := spec
    simp [spec, ends]
  · obtain ⟨place, written, target, -, spec⟩ := spec
    simp [spec, ends]
  · obtain ⟨place, target, spec⟩ := spec
    simp [spec, ends]
  · obtain ⟨place, target, spec⟩ := spec
    simp [spec, ends]

/-- Entries of other names are at other places. -/
theorem entries_apart {disk : Disk} {base first second : String} (ordinary : Ordinary first)
    (ordinary' : Ordinary second) (differ : first ≠ second) (place : List String)
    (resolved : disk.resolve (join base first) = .ok place) :
    disk.resolve (join base second) ≠ .ok place := by
  intro resolved'
  obtain ⟨parent, -, rfl, -⟩ := opens_of_resolve_join ordinary resolved
  obtain ⟨parent', -, same, -⟩ := opens_of_resolve_join ordinary' resolved'
  exact differ (List.singleton_inj.mp (List.append_inj' same rfl).2)

/-! ## Operations that only read -/

section Reading

variable {inv : Disk → Prop} (still : ∀ disk : Disk, inv disk → inv disk.tick)

include still

theorem next_fault_preserves : Preserves inv nextFault := still

theorem now_preserves : Preserves inv now := still

theorem file_exists_preserves (path : String) : Preserves inv (fileExists path) := by
  refine (next_fault_preserves still).bind fun fault => ?_
  cases fault with
  | some fault => exact preserves_pure _ _
  | none =>
    refine Preserves.bind (fun _ => id) fun disk => ?_
    split
    · exact preserves_pure _ _
    · exact preserves_pure _ _

omit still in
theorem lift_except_preserves {α : Type} (result : Except FileError α) :
    Preserves inv (liftExcept result) := by
  cases result with
  | ok value => exact preserves_pure _ value
  | error error => exact preserves_throw _ error

theorem read_to_string_preserves (path : String) : Preserves inv (readToString path) := by
  refine (next_fault_preserves still).bind fun fault => ?_
  cases fault with
  | some fault => exact preserves_throw _ _
  | none =>
    refine Preserves.bind (fun _ => id) fun disk => (lift_except_preserves _).bind fun found => ?_
    split
    · exact preserves_throw _ _
    · split
      · exact preserves_pure _ _
      · exact preserves_throw _ _

theorem read_dir_preserves (path : String) : Preserves inv (readDir path) := by
  refine (next_fault_preserves still).bind fun fault => ?_
  cases fault with
  | some fault => exact preserves_throw _ _
  | none =>
    refine Preserves.bind (fun _ => id) fun disk => (lift_except_preserves _).bind fun found => ?_
    split
    · exact preserves_pure _ _
    · exact preserves_throw _ _

omit still in
theorem attempt_preserves {α : Type} {op : FileM α} (preserves : Preserves inv op) :
    Preserves inv (attempt op) := by
  intro disk holds
  have kept := preserves disk holds
  rw [attempt]
  cases result : op disk with
  | ok value next =>
    rw [result] at kept
    exact kept
  | error error next =>
    rw [result] at kept
    exact kept

end Reading

/-- No operation fails for a reason outside the tree. -/
def Disk.Healthy (disk : Disk) : Prop := ∀ tick, disk.fault tick = none

theorem write_ok {disk : Disk} (healthy : disk.Healthy) (target : disk.target path = .ok place)
    (content : ByteArray) : write path content disk = .ok () (disk.tick.store place content) := by
  rw [write_eq, healthy, target]

theorem file_exists_eq {disk : Disk} (healthy : disk.Healthy) (path : String) :
    fileExists path disk = .ok (disk.find path).toBool disk.tick := by
  rw [fileExists, after_fault, healthy]
  dsimp only
  rw [after_get, find_tick]
  cases disk.find path <;> rfl

theorem read_to_string_calm {disk : Disk} (calm : disk.fault disk.ticks = none) (path : String) :
    (∃ text, disk.readText path = some text ∧ readToString path disk = .ok text disk.tick) ∨
      (∃ error, disk.readText path = none ∧ readToString path disk = .error error disk.tick) := by
  rw [readText, fileAt, readToString, after_fault, calm]
  dsimp only
  rw [after_get, lift_bind, find_tick]
  rcases disk.find path with error | ⟨place, _ | content⟩
  · exact Or.inr ⟨_, rfl, rfl⟩
  · exact Or.inr ⟨_, rfl, rfl⟩
  · dsimp only
    cases valid : String.fromUTF8? content with
    | none => exact Or.inr ⟨_, valid, rfl⟩
    | some text => exact Or.inl ⟨text, valid, rfl⟩

theorem read_to_string_faulty {disk : Disk} {fault : Fault} (met : disk.fault disk.ticks = some fault)
    (path : String) : readToString path disk = .error .failed disk.tick := by
  rw [readToString, after_fault, met]
  rfl

theorem read_to_string_eq {disk : Disk} (healthy : disk.Healthy) (path : String) :
    (∃ text, disk.readText path = some text ∧ readToString path disk = .ok text disk.tick) ∨
      (∃ error, disk.readText path = none ∧ readToString path disk = .error error disk.tick) :=
  read_to_string_calm (healthy _) path

theorem read_file_eq {disk : Disk} (healthy : disk.Healthy) {content : ByteArray}
    (held : disk.fileAt path = some content) :
    readToString path disk =
      match String.fromUTF8? content with
      | some text => .ok text disk.tick
      | none => .error .invalidData disk.tick := by
  obtain ⟨place, resolved, node⟩ := file_at_eq_some.mp held
  rw [readToString, after_fault, healthy]
  dsimp only
  rw [after_get, lift_bind, find_tick, find_eq_ok.mpr ⟨resolved, node⟩]
  dsimp only
  cases String.fromUTF8? content with
  | some text => rfl
  | none => rfl

theorem attempt_read_eq {disk : Disk} (healthy : disk.Healthy) (path : String) :
    ∃ result, attempt (readToString path) disk = .ok result disk.tick ∧
      result.toOption = disk.readText path := by
  rcases read_to_string_eq healthy path with ⟨text, held, read⟩ | ⟨error, none_, failed⟩
  · exact ⟨.ok text, by rw [attempt, read], held.symm⟩
  · exact ⟨.error error, by rw [attempt, failed], none_.symm⟩

theorem remove_file_eq {disk : Disk} (healthy : disk.Healthy)
    (found : disk.find path = .ok (place, .file content)) :
    removeFile path disk = .ok () (disk.tick.remove place) := by
  rw [removeFile, after_fault, healthy]
  dsimp only
  rw [after_get, lift_bind, find_tick, found]
  rfl

/-- A removal changes nothing, or the file that the path leads to. -/
theorem remove_file_end (path : String) (disk : Disk) :
    finalState (removeFile path disk) = disk.tick ∨
      ∃ place content, disk.find path = .ok (place, .file content) ∧
        finalState (removeFile path disk) = disk.tick.remove place := by
  rw [removeFile, after_fault]
  cases disk.fault disk.ticks with
  | some fault => exact Or.inl rfl
  | none =>
    dsimp only
    rw [after_get, lift_bind, find_tick]
    rcases disk.find path with error | ⟨place, _ | content⟩
    · exact Or.inl rfl
    · exact Or.inl rfl
    · exact Or.inr ⟨place, content, rfl, rfl⟩

theorem read_dir_eq {disk : Disk} (healthy : disk.Healthy)
    (found : disk.find path = .ok (place, .dir)) :
    readDir path disk = .ok (disk.children place) disk.tick := by
  rw [readDir, after_fault, healthy]
  dsimp only
  rw [after_get, lift_bind, find_tick, found]
  rfl

end FileSystem
