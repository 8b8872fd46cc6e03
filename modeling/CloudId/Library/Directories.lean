import CloudId.Library.FileTree

/-! Directories: making them along a path, listing one, and what is found below an
open one. -/
namespace FileSystem
open Effects Disk

/-! ## Making directories -/

namespace Disk

theorem keeps_dirs_make_dir (disk : Disk) (place : List String) :
    KeepsDirs disk (disk.makeDir place) := by
  refine ⟨rfl, fun probe held => ?_⟩
  rw [node_make_dir]
  split
  · rfl
  · exact held

theorem Opens.of_keeps_dirs {first second : Disk} (keeps : KeepsDirs first second)
    (opens : first.Opens path place) : second.Opens path place where
  no_nul := opens.no_nul
  walked := by
    rw [start, ← keeps.1]
    exact walk_ok_of_keeps_dirs keeps opens.walked
  is_dir := keeps.2 place opens.is_dir

/-- A path opens one directory. -/
theorem Opens.unique {disk : Disk} (first : disk.Opens path place) (second : disk.Opens path place') :
    place = place' :=
  Except.ok.inj (first.walked.symm.trans second.walked)

end Disk

theorem make_dirs_below {component : String} (stays : component ≠ ".") (rises : component ≠ "..")
    (place rest : List String) (disk : Disk) :
    makeDirs place (component :: rest) disk =
      match disk.node? (place ++ [component]) with
      | some .dir => makeDirs (place ++ [component]) rest disk
      | some (.file _) => .error .notADirectory disk
      | none => makeDirs (place ++ [component]) rest (disk.makeDir (place ++ [component])) := by
  rw [makeDirs, if_neg stays, if_neg rises]
  refine (bind_ok rfl).trans ?_
  rcases disk.node? (place ++ [component]) with _ | _ | content
  · rfl
  · rfl
  · rfl

/-- Directories that exist are passed by. -/
theorem make_dirs_existing {disk : Disk} {place found : List String} {path : List String}
    (walked : disk.walk place path = .ok found) (is_dir : disk.node? found = some .dir)
    (rest : List String) : makeDirs place (path ++ rest) disk = makeDirs found rest disk := by
  induction path generalizing place with
  | nil =>
    cases walked
    rfl
  | cons component path step =>
    rw [walk] at walked
    rcases here : disk.node? place with _ | _ | content
    · rw [here] at walked
      cases walked
    · rw [here] at walked
      dsimp only at walked
      rw [List.cons_append, makeDirs]
      by_cases stays : component = "."
      · rw [if_pos stays] at walked ⊢
        exact step walked
      · rw [if_neg stays] at walked ⊢
        by_cases rises : component = ".."
        · rw [if_pos rises] at walked ⊢
          exact step walked
        · rw [if_neg rises] at walked ⊢
          have next_dir : disk.node? (place ++ [component]) = some .dir := by
            cases path with
            | nil =>
              cases walked
              exact is_dir
            | cons later path =>
              rw [walk] at walked
              rcases next : disk.node? (place ++ [component]) with _ | _ | content
              · rw [next] at walked
                cases walked
              · rfl
              · rw [next] at walked
                cases walked
          have passed := make_dirs_below stays rises place (path ++ rest) disk
          rw [makeDirs, if_neg stays, if_neg rises, next_dir] at passed
          exact passed.trans (step walked)
    · rw [here] at walked
      cases walked

/-- What `createDirAll` does to an entry of an open directory. -/
theorem create_dir_all_entry {disk : Disk} (healthy : disk.Healthy) (opens : disk.Opens base place)
    (ordinary : Ordinary name) (no_nul : '\x00' ∉ name.toList) :
    createDirAll (join base name) disk =
      match disk.node? (place ++ [name]) with
      | some .dir => .ok () disk.tick
      | some (.file _) => .error .notADirectory disk.tick
      | none => .ok () (disk.tick.makeDir (place ++ [name])) := by
  have clean : '\x00' ∉ (join base name).toList := by
    rw [mem_join ordinary.relative (by decide)]
    exact not_or.mpr ⟨opens.no_nul, no_nul⟩
  have walked := opens.walked
  rw [start] at walked
  rw [createDirAll]
  refine (bind_ok rfl).trans ?_
  rw [healthy, if_neg clean]
  refine (bind_ok rfl).trans ((bind_ok rfl).trans ?_)
  dsimp only
  rw [components_eq, ends_in_slash_join ordinary.relative ordinary.nonempty, ordinary.open_end,
    is_absolute_join ordinary.relative, names_join ordinary.relative, ordinary.names_eq,
    if_neg Bool.false_ne_true, List.append_nil]
  have passed : makeDirs (disk.start base) (names base ++ [name]) disk.tick =
      makeDirs place [name] disk.tick :=
    make_dirs_existing (walk_ok_of_keeps_dirs (same_dirs_tick disk).keeps opens.walked)
      opens.is_dir [name]
  refine passed.trans ((make_dirs_below ordinary.not_dot ordinary.not_dots place [] disk.tick).trans ?_)
  have here : disk.tick.node? (place ++ [name]) = disk.node? (place ++ [name]) := rfl
  rw [here]
  rcases disk.node? (place ++ [name]) with _ | _ | content
  · rfl
  · rfl
  · rfl

/-- Names with a NUL are refused. -/
theorem create_dir_all_nul (nul : '\x00' ∈ path.toList) (disk : Disk) :
    createDirAll path disk = .error .invalidInput disk.tick := by
  rw [createDirAll]
  refine (bind_ok rfl).trans ?_
  rw [if_pos nul]
  rfl

theorem create_dir_all_clean {disk next : Disk} (made : createDirAll path disk = .ok () next) :
    '\x00' ∉ path.toList := by
  intro nul
  rw [create_dir_all_nul nul] at made
  cases made

theorem write_nul (nul : '\x00' ∈ path.toList) (content : ByteArray) (disk : Disk) :
    ∃ error, write path content disk = .error error disk.tick := by
  have target : disk.target path = .error .invalidInput := by
    rw [Disk.target, resolve, if_pos nul]
  rw [write_eq, target]
  rcases disk.fault disk.ticks with _ | _ | cut
  · exact ⟨_, rfl⟩
  · exact ⟨_, rfl⟩
  · exact ⟨_, rfl⟩

theorem write_clean {disk next : Disk} {content : ByteArray}
    (written : write path content disk = .ok () next) : '\x00' ∉ path.toList := by
  intro nul
  obtain ⟨error, refused⟩ := write_nul nul content disk
  rw [refused] at written
  cases written

/-! ## Below an open directory -/

/-- A name that an entry of a directory can have. -/
structure EntryName (name : String) : Prop extends Ordinary name where
  no_nul : '\x00' ∉ name.toList

instance (name : String) : Decidable (EntryName name) :=
  decidable_of_iff (Ordinary name ∧ '\x00' ∉ name.toList)
    ⟨fun both => ⟨both.1, both.2⟩, fun entry => ⟨entry.toOrdinary, entry.no_nul⟩⟩

/-- What has no slash is an ordinary name with a suffix that is no run of dots. -/
theorem ordinary_append {name suffix : String} (plain : '/' ∉ name.toList)
    (no_slash : '/' ∉ suffix.toList) (marked : ∃ c ∈ suffix.toList, c ≠ '.') :
    Ordinary (name ++ suffix) := by
  obtain ⟨c, listed, not_dot⟩ := marked
  have in_whole : c ∈ (name ++ suffix).toList := by
    rw [String.toList_append]
    exact List.mem_append_right _ listed
  have differs : ∀ dots : String, (∀ d ∈ dots.toList, d = '.') → name ++ suffix ≠ dots := by
    intro dots only_dots same
    rw [same] at in_whole
    exact not_dot (only_dots c in_whole)
  refine ⟨differs "" (by simp), ?_, differs "." (by simp), differs ".." (by simp)⟩
  rw [String.toList_append, List.mem_append, not_or]
  exact ⟨plain, no_slash⟩

theorem Ordinary.append {name suffix : String} (ordinary : Ordinary name)
    (no_slash : '/' ∉ suffix.toList) (marked : ∃ c ∈ suffix.toList, c ≠ '.') :
    Ordinary (name ++ suffix) :=
  ordinary_append ordinary.no_slash no_slash marked

theorem EntryName.append {name suffix : String} (entry : EntryName name)
    (no_slash : '/' ∉ suffix.toList) (marked : ∃ c ∈ suffix.toList, c ≠ '.')
    (no_nul : '\x00' ∉ suffix.toList) : EntryName (name ++ suffix) where
  toOrdinary := entry.toOrdinary.append no_slash marked
  no_nul := by
    rw [String.toList_append, List.mem_append, not_or]
    exact ⟨entry.no_nul, no_nul⟩

theorem find_entry {disk : Disk} (opens : disk.Opens base place) (ordinary : Ordinary name)
    (no_nul : '\x00' ∉ name.toList) :
    disk.find (join base name) =
      match disk.node? (place ++ [name]) with
      | some node => .ok (place ++ [name], node)
      | none => .error .notFound := by
  cases held : disk.node? (place ++ [name]) with
  | none => simp only [find, opens.resolve_join ordinary no_nul, held]
  | some node => simp only [find, opens.resolve_join ordinary no_nul, held]

theorem find_open {disk : Disk} (opens : disk.Opens path place) (nonempty : path ≠ "") :
    disk.find path = .ok (place, .dir) := by
  have walked := opens.walked
  rw [start] at walked
  have resolved : disk.resolve path = .ok place := by
    rw [resolve, if_neg opens.no_nul, if_neg nonempty, components_eq, walk_append, walked]
    change disk.walk place (if endsInSlash path then ["."] else []) = .ok place
    split
    · rw [walk, opens.is_dir]
      rfl
    · rfl
  exact find_eq_ok.mpr ⟨resolved, opens.is_dir⟩

/-- An entry that is not a directory has nothing below it. -/
theorem resolve_in_closed {disk : Disk} (opens : disk.Opens base place) (ordinary : Ordinary sub)
    (closed : disk.node? (place ++ [sub]) ≠ some .dir) (ordinary' : Ordinary name)
    (found : List String) : disk.resolve (join (join base sub) name) ≠ .ok found := by
  intro resolved
  obtain ⟨parent, opens', -, -⟩ := opens_of_resolve_join ordinary' resolved
  have no_nul : '\x00' ∉ sub.toList := by
    have clean := opens'.no_nul
    rw [mem_join ordinary.relative (by decide), not_or] at clean
    exact clean.2
  have same : parent = place ++ [sub] := by
    have walked := opens'.walked
    rw [start, is_absolute_join ordinary.relative, names_join ordinary.relative,
      ordinary.names_eq, walk_append] at walked
    have walked_base := opens.walked
    rw [start] at walked_base
    rw [walked_base] at walked
    change disk.walk place [sub] = .ok parent at walked
    rw [walk_ordinary ordinary, opens.is_dir] at walked
    exact (Except.ok.inj walked).symm
  rw [← same] at closed
  exact closed opens'.is_dir

/-! ## Frames -/

namespace Disk

/-- An open entry of a directory is at its own name. -/
theorem place_of_opens_join {disk : Disk} (ordinary : Ordinary name)
    (opens : disk.Opens (join base name) place) : ∃ parent, place = parent ++ [name] := by
  have found := find_open opens (join_ne_empty ordinary.nonempty)
  obtain ⟨resolved, -⟩ := find_eq_ok.mp found
  obtain ⟨parent, -, there, -⟩ := opens_of_resolve_join ordinary resolved
  exact ⟨parent, there⟩

/-- Files of different names, or in directories of different names, are apart. -/
theorem apart_of_names {disk : Disk} {sub sub' name name' : String} (sub_ordinary : Ordinary sub)
    (sub_ordinary' : Ordinary sub') (ordinary : Ordinary name)
    (differ : (sub, name) ≠ (sub', name')) (opens : disk.Opens (join base sub') place)
    {found : List String} (resolved : disk.resolve (join (join base sub) name) = .ok found) :
    found ≠ place ++ [name'] := by
  rintro rfl
  obtain ⟨parent, opens', same, -⟩ := opens_of_resolve_join ordinary resolved
  obtain ⟨rfl, same_name⟩ := List.append_inj' same rfl
  obtain ⟨front, first⟩ := place_of_opens_join sub_ordinary opens'
  obtain ⟨front', second⟩ := place_of_opens_join sub_ordinary' opens
  obtain ⟨-, same_sub⟩ := List.append_inj' (first.symm.trans second) rfl
  cases same_sub
  cases same_name
  exact differ rfl

/-- The file of an entry of an open directory. -/
theorem file_at_entry {disk : Disk} (opens : disk.Opens base place) (ordinary : Ordinary name)
    (content : ByteArray) : disk.fileAt (join base name) = some content ↔
      '\x00' ∉ name.toList ∧ disk.node? (place ++ [name]) = some (.file content) := by
  rw [file_at_eq_some]
  constructor
  · rintro ⟨found, resolved, node⟩
    obtain ⟨parent, opens', rfl, no_nul⟩ := opens_of_resolve_join ordinary resolved
    rw [opens'.unique opens] at node
    exact ⟨no_nul, node⟩
  · rintro ⟨no_nul, node⟩
    exact ⟨_, opens.resolve_join ordinary no_nul, node⟩

/-- The directory is open and its entry is a file with this content, or no file. -/
def HasEntry (base : String) (place : List String) (name : String) (content : Option ByteArray)
    (disk : Disk) : Prop :=
  disk.Opens base place ∧ disk.fileAt (join base name) = content

/-- What a change has to leave alone for an entry to stay. -/
theorem HasEntry.of_keeps {first second : Disk} {content : Option ByteArray}
    (held : HasEntry base place name content first) (ordinary : Ordinary name)
    (keeps : KeepsDirs first second)
    (same : ∀ content, first.node? (place ++ [name]) = some (.file content) ↔
      second.node? (place ++ [name]) = some (.file content)) :
    HasEntry base place name content second := by
  obtain ⟨opens, held⟩ := held
  have opens' := opens.of_keeps_dirs keeps
  refine ⟨opens', ?_⟩
  rw [← held]
  apply Option.ext
  intro found
  rw [file_at_entry opens' ordinary, file_at_entry opens ordinary, same]

end Disk

theorem make_dirs_keeps (place path : List String) (disk : Disk) :
    KeepsDirs disk (finalState (makeDirs place path disk)) ∧
      ∀ probe content, disk.node? probe = some (.file content) ↔
        (finalState (makeDirs place path disk)).node? probe = some (.file content) := by
  induction path generalizing place disk with
  | nil => exact ⟨.refl disk, fun _ _ => Iff.rfl⟩
  | cons component rest step =>
    by_cases stays : component = "."
    · rw [makeDirs, if_pos stays]
      exact step place disk
    · by_cases rises : component = ".."
      · rw [makeDirs, if_neg stays, if_pos rises]
        exact step place.dropLast disk
      · rw [make_dirs_below stays rises]
        rcases here : disk.node? (place ++ [component]) with _ | _ | content
        · obtain ⟨keeps, files⟩ := step (place ++ [component]) (disk.makeDir (place ++ [component]))
          refine ⟨(keeps_dirs_make_dir disk _).trans keeps, fun probe content => ?_⟩
          rw [← files, node_make_dir]
          split
          · rename_i same
            rw [same, here]
            simp
          · rfl
        · exact step _ disk
        · exact ⟨.refl disk, fun _ _ => Iff.rfl⟩

theorem make_dirs_preserves {base : String} {place : List String} {name : String}
    {content : Option ByteArray} (ordinary : Ordinary name) (start walked : List String) :
    Preserves (HasEntry base place name content) (makeDirs start walked) := by
  intro disk held
  obtain ⟨keeps, files⟩ := make_dirs_keeps start walked disk
  exact held.of_keeps ordinary keeps fun content => files _ content

/-- What `create_dir_all` does after its fault is drawn. -/
theorem faulty_dirs_preserve {inv : Disk → Prop}
    (made : ∀ start walked, Preserves inv (makeDirs start walked)) (path : String)
    (fault : Option Fault) : Preserves inv (do
      let disk ← get
      let start := if isAbsolute path then [] else disk.cwd
      match fault with
      | some .refused => throw .failed
      | some (.cut made) =>
        makeDirs start ((components path).take made)
        throw .failed
      | none => makeDirs start (components path) : FileM Unit) := by
  have got : Preserves inv (get : FileM Disk) := fun _ => id
  refine got.bind fun disk => ?_
  rcases fault with _ | _ | count
  · exact made _ _
  · exact preserves_throw _ _
  · exact (made _ _).bind fun _ => preserves_throw _ _

/-- `create_dir_all` preserves what the making of single directories does. -/
theorem dirs_preserve {inv : Disk → Prop} (still : ∀ disk : Disk, inv disk → inv disk.tick)
    (made : ∀ start walked, Preserves inv (makeDirs start walked)) (path : String) :
    Preserves inv (createDirAll path) := by
  have ticked : Preserves inv nextFault := still
  refine ticked.bind fun fault => ?_
  have continued := faulty_dirs_preserve made path fault
  by_cases nul : '\x00' ∈ path.toList
  · dsimp only
    rw [if_pos nul]
    exact (preserves_throw _ _).bind fun _ => continued
  · dsimp only
    rw [if_neg nul]
    exact continued

/-- Making directories leaves the entries alone. -/
theorem create_dir_all_preserves {base : String} {place : List String} {name : String}
    {content : Option ByteArray} (ordinary : Ordinary name) (path : String) :
    Preserves (HasEntry base place name content) (createDirAll path) := by
  refine dirs_preserve ?_ (make_dirs_preserves ordinary) path
  intro disk held
  exact held.of_keeps ordinary (same_dirs_tick disk).keeps fun _ => Iff.rfl

/-- Making directories changes no file. -/
theorem create_dir_all_files (path : String) (disk : Disk) (probe : List String)
    (content : ByteArray) : (finalState (createDirAll path disk)).node? probe = some (.file content) ↔
      disk.node? probe = some (.file content) := by
  have kept : Preserves (fun later : Disk => later.node? probe = some (.file content) ↔
      disk.node? probe = some (.file content)) (createDirAll path) :=
    dirs_preserve (fun _ => id)
      (fun start walked later => ((make_dirs_keeps start walked later).2 probe content).symm.trans) path
  exact kept disk Iff.rfl

/-- A write or a removal at another place leaves an entry alone. -/
theorem Disk.HasEntry.elsewhere {first second : Disk} {found : List String} {content : Option ByteArray}
    (held : HasEntry base place name content first) (ordinary : Ordinary name)
    (dirs : SameDirs first second) (apart : found ≠ place ++ [name])
    (changed : ∀ probe, probe ≠ found → second.node? probe = first.node? probe) :
    HasEntry base place name content second := by
  refine held.of_keeps ordinary dirs.keeps fun content => ?_
  rw [changed _ apart.symm]

theorem write_preserves {base : String} {place : List String} {name : String}
    {content : Option ByteArray} (ordinary : Ordinary name) {path : String}
    (apart : ∀ disk : Disk, disk.Opens base place → ∀ found, disk.resolve path = .ok found →
      found ≠ place ++ [name]) (bytes : ByteArray) :
    Preserves (HasEntry base place name content) (write path bytes) := by
  intro disk held
  have ticked : HasEntry base place name content disk.tick :=
    held.of_keeps ordinary (same_dirs_tick disk).keeps fun _ => Iff.rfl
  rcases write_changes path bytes disk with same | ⟨found, written, target, stored⟩
  · rw [same]
    exact ticked
  · rw [stored]
    obtain ⟨resolved, open_⟩ := target_eq_ok.mp target
    have open_ : disk.tick.node? found ≠ some .dir := open_
    refine ticked.elsewhere ordinary (same_dirs_store open_ written)
      (apart disk held.1 found resolved) fun probe other => ?_
    rw [node_store (ne_root_of_not_dir open_), if_neg other]

theorem remove_preserves {base : String} {place : List String} {name : String}
    {content : Option ByteArray} (ordinary : Ordinary name) {path : String}
    (apart : ∀ disk : Disk, disk.Opens base place → ∀ found, disk.resolve path = .ok found →
      found ≠ place ++ [name]) :
    Preserves (HasEntry base place name content) (removeFile path) := by
  intro disk held
  have ticked : HasEntry base place name content disk.tick :=
    held.of_keeps ordinary (same_dirs_tick disk).keeps fun _ => Iff.rfl
  rcases remove_file_end path disk with spec | ⟨found, bytes, located, spec⟩
  · rw [spec]
    exact ticked
  · rw [spec]
    obtain ⟨resolved, node⟩ := find_eq_ok.mp located
    have open_ : disk.tick.node? found ≠ some .dir := by
      have node : disk.tick.node? found = some (.file bytes) := node
      rw [node]
      simp
    refine ticked.elsewhere ordinary (same_dirs_remove open_) (apart disk held.1 found resolved)
      fun probe other => ?_
    rw [node_remove (ne_root_of_not_dir open_), if_neg other]

/-! ## Listing a directory -/

def Node.isDir : Node → Bool
  | .dir => true
  | .file _ => false

namespace Disk

theorem mem_children {disk : Disk} {place : List String} {name : String} {is_dir : Bool} :
    (name, is_dir) ∈ disk.children place ↔
      ∃ node, disk.node? (place ++ [name]) = some node ∧ node.isDir = is_dir := by
  have below : place ++ [name] ≠ [] := by simp
  rw [node?, if_neg below, children, List.mem_filterMap]
  constructor
  · rintro ⟨⟨own, node⟩, listed, shown⟩
    dsimp only at shown
    split at shown
    · rename_i last at_last
      split at shown
      · rename_i parent
        injection shown with shown
        injection shown with same_name same_kind
        obtain ⟨front, rfl⟩ := List.getLast?_eq_some_iff.mp at_last
        rw [List.dropLast_concat] at parent
        rw [← parent, ← same_name]
        refine ⟨node, HashMap.lookup_eq_some.mpr listed, ?_⟩
        rw [← same_kind]
        cases node <;> rfl
      · cases shown
    · cases shown
  · rintro ⟨node, held, rfl⟩
    refine ⟨(place ++ [name], node), HashMap.lookup_eq_some.mp held, ?_⟩
    simp
    cases node <;> rfl

/-- A directory lists each name once. -/
theorem children_nodup (disk : Disk) (place : List String) :
    ((disk.children place).map Prod.fst).Nodup := by
  let own : List String → Option String := fun key =>
    if key.dropLast = place then key.getLast? else none
  have listed : (disk.children place).map Prod.fst =
      (disk.nodes.toList.map Prod.fst).filterMap own := by
    rw [children, List.map_filterMap, List.filterMap_map]
    congr 1
    funext entry
    dsimp only [Function.comp, own]
    by_cases parent : entry.1.dropLast = place
    · cases last : entry.1.getLast? <;> simp [parent]
    · cases last : entry.1.getLast? <;> simp [parent]
  rw [listed]
  refine (HashMap.toList_keys_nodup disk.nodes).filterMap ?_
  intro key key' name held held'
  simp only [own, Option.mem_def, Option.ite_none_right_eq_some] at held held'
  obtain ⟨front, rfl⟩ := List.getLast?_eq_some_iff.mp held.2
  obtain ⟨front', rfl⟩ := List.getLast?_eq_some_iff.mp held'.2
  rw [List.dropLast_concat] at held held'
  rw [held.1, held'.1]

end Disk

end FileSystem
