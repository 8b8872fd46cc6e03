import Mathlib.Data.List.Induction
import Mathlib.Data.List.Infix
import CloudId.Library.Directories

/-! Where a path leads by its letters alone: `.` stays, `..` goes up and every other name
goes down, whether or not there is such a directory. A tree without links has a path
lead there or nowhere. -/
namespace FileSystem
open Effects Disk

/-! ## Following names -/

/-- The place that names lead to. -/
def follow (place : List String) : List String → List String
  | [] => place
  | name :: rest =>
    if name = "." then follow place rest
    else if name = ".." then follow place.dropLast rest
    else follow (place ++ [name]) rest

/-- The places that the names go down to on the way. -/
def passed (place : List String) : List String → List (List String)
  | [] => []
  | name :: rest =>
    if name = "." then passed place rest
    else if name = ".." then passed place.dropLast rest
    else (place ++ [name]) :: passed (place ++ [name]) rest

/-- The place that a path spells out from a current directory. -/
def spell (cwd : List String) (path : String) : List String :=
  follow (if isAbsolute path then [] else cwd) (names path)

def Disk.spelled (disk : Disk) (path : String) : List String := spell disk.cwd path

theorem follow_append (place first second : List String) :
    follow place (first ++ second) = follow (follow place first) second := by
  induction first generalizing place with
  | nil => rfl
  | cons name rest step =>
    rw [List.cons_append, follow, follow]
    split
    · exact step place
    · split
      · exact step _
      · exact step _

theorem passed_append (place first second : List String) :
    passed place (first ++ second) = passed place first ++ passed (follow place first) second := by
  induction first generalizing place with
  | nil => rfl
  | cons name rest step =>
    rw [List.cons_append, passed, passed, follow]
    split
    · exact step place
    · split
      · exact step _
      · rw [step, List.cons_append]

theorem walk_follows {disk : Disk} {place found : List String} {path : List String}
    (walked : disk.walk place path = .ok found) : found = follow place path := by
  induction path generalizing place with
  | nil => exact (Except.ok.inj walked).symm
  | cons name rest step =>
    rw [walk] at walked
    rw [follow]
    rcases here : disk.node? place with _ | _ | content
    · rw [here] at walked
      cases walked
    · rw [here] at walked
      dsimp only at walked
      split at walked
      · rename_i stays
        rw [if_pos stays]
        exact step walked
      · rename_i stays
        rw [if_neg stays]
        split at walked
        · rename_i rises
          rw [if_pos rises]
          exact step walked
        · rename_i rises
          rw [if_neg rises]
          exact step walked
    · rw [here] at walked
      cases walked

/-- A path leads to the place that it spells out, if it leads anywhere. -/
theorem resolve_spelled {disk : Disk} {path : String} {found : List String}
    (resolved : disk.resolve path = .ok found) : found = disk.spelled path := by
  rw [resolve] at resolved
  split at resolved
  · cases resolved
  · split at resolved
    · cases resolved
    · rw [walk_follows resolved, components_eq, follow_append]
      change follow (disk.spelled path) _ = _
      split
      · rfl
      · rfl

theorem spelled_join {disk : Disk} {base path : String} (relative : isAbsolute path = false) :
    disk.spelled (join base path) = follow (disk.spelled base) (names path) := by
  rw [Disk.spelled, spell, is_absolute_join relative, names_join relative, follow_append]
  rfl

theorem join_absolute {base path : String} (absolute : isAbsolute path = true) :
    join base path = path := by
  rw [join, if_pos absolute]

theorem follow_ordinary {name : String} (ordinary : Ordinary name) (place : List String) :
    follow place [name] = place ++ [name] := by
  rw [follow, if_neg ordinary.not_dot, if_neg ordinary.not_dots]
  rfl

theorem spelled_join_ordinary {disk : Disk} {base name : String} (ordinary : Ordinary name) :
    disk.spelled (join base name) = disk.spelled base ++ [name] := by
  rw [spelled_join ordinary.relative, ordinary.names_eq, follow_ordinary ordinary]

/-! ## Names with a suffix -/

/-- A suffix that makes a name of whatever comes before it. -/
structure Suffix (suffix : String) : Prop where
  no_slash : '/' ∉ suffix.toList
  marked : ∃ c ∈ suffix.toList, c ≠ '.'

/-- What comes after the last slash. -/
private theorem last_slash (path : String) :
    '/' ∉ path.toList ∨ ∃ front last, '/' ∉ last.toList ∧ path = front ++ "/" ++ last := by
  have split : ∀ chars : List Char, '/' ∉ chars ∨
      ∃ front last, '/' ∉ last ∧ chars = front ++ '/' :: last := by
    intro chars
    induction chars using List.reverseRecOn with
    | nil => exact .inl List.not_mem_nil
    | append_singleton chars c step =>
      by_cases slash : c = '/'
      · subst slash
        exact .inr ⟨chars, [], List.not_mem_nil, rfl⟩
      · rcases step with none_ | ⟨front, last, none_, rfl⟩
        · refine .inl ?_
          simp only [List.mem_append, List.mem_singleton, not_or]
          exact ⟨none_, Ne.symm slash⟩
        · refine .inr ⟨front, last ++ [c], ?_, by simp⟩
          simp only [List.mem_append, List.mem_singleton, not_or]
          exact ⟨none_, Ne.symm slash⟩
  rcases split path.toList with none_ | ⟨front, last, none_, same⟩
  · exact .inl none_
  · refine .inr ⟨String.ofList front, String.ofList last, by simpa using none_, ?_⟩
    rw [← String.toList_inj, same]
    simp

/-- A name with a suffix is ordinary, whatever the name is, if it has no slash. -/
theorem Suffix.ordinary {suffix : String} (shape : Suffix suffix) {name : String}
    (no_slash : '/' ∉ name.toList) : Ordinary (name ++ suffix) :=
  ordinary_append no_slash shape.no_slash shape.marked

/-- The names of a path with a suffix: those of its directory, and a last one. -/
theorem names_suffix (path : String) : ∃ front last, '/' ∉ last.toList ∧
    ∀ suffix, Suffix suffix → names (path ++ suffix) = front ++ [last ++ suffix] := by
  rcases last_slash path with none_ | ⟨front, last, none_, rfl⟩
  · exact ⟨[], path, none_, fun suffix shape => (shape.ordinary none_).names_eq⟩
  · refine ⟨names front, last, none_, fun suffix shape => ?_⟩
    rw [String.append_assoc, names_slash, (shape.ordinary none_).names_eq]

theorem is_absolute_suffix {suffix : String} (shape : Suffix suffix) (path : String) :
    isAbsolute (path ++ suffix) = isAbsolute path := by
  by_cases empty : path = ""
  · subst empty
    rw [String.empty_append]
    have none_ : '/' ∉ ("" : String).toList := by simp
    have relative := (shape.ordinary none_).relative
    rw [String.empty_append] at relative
    rw [relative]
    rfl
  · rw [isAbsolute, isAbsolute, String.toList_append,
      List.head?_append_of_ne_nil _ (toList_ne_nil empty)]

/-- All paths that differ in a suffix lie in one directory. -/
theorem spelled_join_suffix (disk : Disk) (base path : String) :
    ∃ place last, '/' ∉ last.toList ∧ ∀ suffix, Suffix suffix →
      disk.spelled (join base (path ++ suffix)) = place ++ [last ++ suffix] := by
  obtain ⟨front, last, none_, named⟩ := names_suffix path
  cases absolute : isAbsolute path with
  | true =>
    refine ⟨follow [] front, last, none_, fun suffix shape => ?_⟩
    have absolute' : isAbsolute (path ++ suffix) = true :=
      (is_absolute_suffix shape path).trans absolute
    rw [join_absolute absolute', Disk.spelled, spell, if_pos absolute', named suffix shape,
      follow_append, follow_ordinary (shape.ordinary none_)]
  | false =>
    refine ⟨follow (disk.spelled base) front, last, none_, fun suffix shape => ?_⟩
    have relative : isAbsolute (path ++ suffix) = false :=
      (is_absolute_suffix shape path).trans absolute
    rw [spelled_join relative, named suffix shape, follow_append,
      follow_ordinary (shape.ordinary none_)]

/-- The names of a path are parts of it between slashes. -/
theorem mem_names {name : String} (path : String) (listed : name ∈ names path) :
    name ≠ "" ∧ '/' ∉ name.toList ∧ ∀ c ∈ name.toList, c ∈ path.toList := by
  have plain : ∀ part : String, '/' ∉ part.toList → name ∈ names part →
      name ≠ "" ∧ '/' ∉ name.toList ∧ ∀ c ∈ name.toList, c ∈ part.toList := by
    intro part none_ listed
    rw [names, List.splitOn_eq_singleton none_] at listed
    simp only [List.mem_map, List.mem_filter, List.mem_singleton, decide_eq_true_eq] at listed
    obtain ⟨chars, ⟨rfl, nonempty⟩, rfl⟩ := listed
    rw [String.ofList_toList]
    refine ⟨?_, none_, fun _ => id⟩
    rintro rfl
    exact nonempty rfl
  induction len : path.length using Nat.strong_induction_on generalizing path with
  | _ size step =>
    rcases last_slash path with none_ | ⟨front, last, none_, rfl⟩
    · exact plain path none_ listed
    · rw [names_slash, List.mem_append] at listed
      simp only [String.toList_append, List.mem_append]
      rcases listed with listed | listed
      · have shorter : front.length < size := by
          rw [← len, String.length_append, String.length_append]
          have slash : "/".length = 1 := rfl
          omega
        obtain ⟨nonempty, no_slash, chars⟩ := step _ shorter front listed rfl
        exact ⟨nonempty, no_slash, fun c held => .inl (.inl (chars c held))⟩
      · obtain ⟨nonempty, no_slash, chars⟩ := plain last none_ listed
        exact ⟨nonempty, no_slash, fun c held => .inr (chars c held)⟩

/-- A name of a clean path that goes down can be that of an entry. -/
theorem entry_of_mem_names {name path : String} (clean : '\x00' ∉ path.toList)
    (listed : name ∈ names path) (stays : name ≠ ".") (rises : name ≠ "..") : EntryName name := by
  obtain ⟨nonempty, no_slash, chars⟩ := mem_names path listed
  exact ⟨⟨nonempty, no_slash, stays, rises⟩, fun nul => clean (chars _ nul)⟩

/-! ## Sound trees -/

namespace Disk

/-- Every node lies in a directory, under a name that an entry can have. -/
structure Sound (disk : Disk) : Prop where
  cwd_dir : disk.node? disk.cwd = some .dir
  parents : ∀ place name, (disk.node? (place ++ [name])).isSome →
    disk.node? place = some .dir ∧ EntryName name

theorem root_dir (disk : Disk) : disk.node? [] = some .dir := by
  rw [node?, if_pos rfl]

theorem Sound.above {disk : Disk} (sound : disk.Sound) {place : List String} (below : List String)
    (held : (disk.node? (place ++ below)).isSome) :
    below = [] ∨ disk.node? place = some .dir := by
  induction below using List.reverseRecOn with
  | nil => exact .inl rfl
  | append_singleton below name step =>
    rw [← List.append_assoc] at held
    obtain ⟨is_dir, -⟩ := sound.parents _ name held
    rcases step (by rw [is_dir]; rfl) with rfl | above
    · rw [List.append_nil] at is_dir
      exact .inr is_dir
    · exact .inr above

theorem Sound.up {disk : Disk} (sound : disk.Sound) {place : List String}
    (is_dir : disk.node? place = some .dir) : disk.node? place.dropLast = some .dir := by
  rcases List.eq_nil_or_concat place with rfl | ⟨front, name, rfl⟩
  · exact disk.root_dir
  · rw [List.concat_eq_append] at is_dir ⊢
    rw [List.dropLast_concat]
    exact (sound.parents front name (by rw [is_dir]; rfl)).1

theorem Sound.start_dir {disk : Disk} (sound : disk.Sound) (path : String) :
    disk.node? (disk.start path) = some .dir := by
  rw [start]
  split
  · exact disk.root_dir
  · exact sound.cwd_dir

theorem Sound.tick {disk : Disk} (sound : disk.Sound) : disk.tick.Sound :=
  ⟨sound.cwd_dir, sound.parents⟩

/-- A change of one entry of a directory, which is not a directory itself before. -/
theorem Sound.change {first second : Disk} (sound : first.Sound) {place : List String}
    {name : String} (is_dir : first.node? place = some .dir) (entry : EntryName name)
    (open_ : first.node? (place ++ [name]) ≠ some .dir) (cwd : second.cwd = first.cwd)
    (changed : ∀ probe, probe ≠ place ++ [name] → second.node? probe = first.node? probe) :
    second.Sound := by
  have dirs : ∀ probe, first.node? probe = some .dir → second.node? probe = some .dir := by
    intro probe held
    rw [changed probe, held]
    rintro rfl
    exact open_ held
  refine ⟨?_, ?_⟩
  · rw [cwd]
    exact dirs _ sound.cwd_dir
  · intro probe own held
    by_cases here : probe ++ [own] = place ++ [name]
    · obtain ⟨rfl, same⟩ := List.append_inj' here rfl
      cases same
      exact ⟨dirs _ is_dir, entry⟩
    · rw [changed _ here] at held
      obtain ⟨above, own_entry⟩ := sound.parents probe own held
      exact ⟨dirs _ above, own_entry⟩

/-- Where a walk ends: at a directory, or at an entry of one. -/
theorem Sound.walk_end {disk : Disk} (sound : disk.Sound) {place found : List String}
    {path : List String} (is_dir : disk.node? place = some .dir)
    (clean : ∀ name ∈ path, name ≠ "." → name ≠ ".." → EntryName name)
    (walked : disk.walk place path = .ok found) :
    disk.node? found = some .dir ∨
      ∃ parent name, found = parent ++ [name] ∧ disk.node? parent = some .dir ∧ EntryName name := by
  induction path generalizing place with
  | nil =>
    cases walked
    exact .inl is_dir
  | cons name rest step =>
    have clean_rest : ∀ own ∈ rest, own ≠ "." → own ≠ ".." → EntryName own :=
      fun own listed => clean own (List.mem_cons_of_mem _ listed)
    rw [walk, is_dir] at walked
    dsimp only at walked
    split at walked
    · exact step is_dir clean_rest walked
    · rename_i stays
      split at walked
      · exact step (sound.up is_dir) clean_rest walked
      · rename_i rises
        cases rest with
        | nil =>
          cases walked
          exact .inr ⟨place, name, rfl, is_dir, clean name List.mem_cons_self stays rises⟩
        | cons later rest =>
          have next_dir : disk.node? (place ++ [name]) = some .dir := by
            rw [walk] at walked
            rcases here : disk.node? (place ++ [name]) with _ | _ | content
            · rw [here] at walked
              cases walked
            · rfl
            · rw [here] at walked
              cases walked
          exact step next_dir clean_rest walked

end Disk

/-! ## What the operations change -/

/-- The later tree is sound and differs only in places of a kind. -/
structure Disk.Within (changes : List String → Prop) (first second : Disk) : Prop where
  sound : second.Sound
  keeps : KeepsDirs first second
  changed : ∀ place, first.node? place ≠ second.node? place → changes place

theorem Disk.Within.tick {disk : Disk} (sound : disk.Sound) (changes : List String → Prop) :
    disk.Within changes disk.tick where
  sound := sound.tick
  keeps := (same_dirs_tick disk).keeps
  changed _ differs := absurd rfl differs

theorem make_dirs_within {disk : Disk} (sound : disk.Sound) {place : List String}
    (is_dir : disk.node? place = some .dir) (path : List String)
    (clean : ∀ name ∈ path, name ≠ "." → name ≠ ".." → EntryName name) :
    disk.Within (fun probe => disk.node? probe = none ∧ probe ∈ passed place path)
      (finalState (makeDirs place path disk)) := by
  induction path generalizing place disk with
  | nil => exact ⟨sound, .refl disk, fun _ differs => absurd rfl differs⟩
  | cons name rest step =>
    have clean_rest : ∀ own ∈ rest, own ≠ "." → own ≠ ".." → EntryName own :=
      fun own listed => clean own (List.mem_cons_of_mem _ listed)
    by_cases stays : name = "."
    · rw [makeDirs, if_pos stays, passed, if_pos stays]
      exact step sound is_dir clean_rest
    · by_cases rises : name = ".."
      · rw [makeDirs, if_neg stays, if_pos rises, passed, if_neg stays, if_pos rises]
        exact step sound (sound.up is_dir) clean_rest
      · have entry := clean name List.mem_cons_self stays rises
        rw [make_dirs_below stays rises, passed, if_neg stays, if_neg rises]
        rcases here : disk.node? (place ++ [name]) with _ | _ | content
        · have open_ : disk.node? (place ++ [name]) ≠ some .dir := by
            rw [here]
            simp
          have made : (disk.makeDir (place ++ [name])).Sound := by
            refine sound.change is_dir entry open_ rfl fun probe other => ?_
            rw [node_make_dir, if_neg other]
          obtain ⟨last_sound, keeps, changed⟩ :=
            step made (by rw [node_make_dir, if_pos rfl]) clean_rest
          refine ⟨last_sound, (keeps_dirs_make_dir disk _).trans keeps, fun probe differs => ?_⟩
          by_cases same : probe = place ++ [name]
          · rw [same]
            exact ⟨here, List.mem_cons_self⟩
          · have unmade : (disk.makeDir (place ++ [name])).node? probe = disk.node? probe := by
              rw [node_make_dir, if_neg same]
            obtain ⟨absent, listed⟩ := changed probe (by rw [unmade]; exact differs)
            rw [unmade] at absent
            exact ⟨absent, List.mem_cons_of_mem _ listed⟩
        · obtain ⟨last_sound, keeps, changed⟩ := step sound here clean_rest
          exact ⟨last_sound, keeps, fun probe differs =>
            ⟨(changed probe differs).1, List.mem_cons_of_mem _ (changed probe differs).2⟩⟩
        · exact ⟨sound, .refl disk, fun _ differs => absurd rfl differs⟩

theorem clean_components {path : String} (clean : '\x00' ∉ path.toList) :
    ∀ name ∈ components path, name ≠ "." → name ≠ ".." → EntryName name := by
  intro name listed stays rises
  rw [components_eq, List.mem_append] at listed
  rcases listed with listed | listed
  · exact entry_of_mem_names clean listed stays rises
  · split at listed
    · exact absurd (List.mem_singleton.mp listed) stays
    · cases listed

/-- Only missing directories on the way of the path are made. -/
theorem create_dir_all_within {disk : Disk} (sound : disk.Sound) (path : String) :
    disk.Within (fun probe => '\x00' ∉ path.toList ∧ disk.node? probe = none ∧
        probe ∈ passed (disk.start path) (names path))
      (finalState (createDirAll path disk)) := by
  by_cases nul : '\x00' ∈ path.toList
  · rw [create_dir_all_nul nul]
    exact .tick sound _
  · have ticked := (same_dirs_tick disk).keeps
    have listed : ∀ made probe, probe ∈ passed (disk.start path) ((components path).take made) →
        probe ∈ passed (disk.start path) (names path) := by
      intro made probe member
      have in_all : probe ∈ passed (disk.start path) (components path) := by
        rw [← List.take_append_drop made (components path), passed_append]
        exact List.mem_append_left _ member
      rw [components_eq, passed_append, List.mem_append] at in_all
      rcases in_all with in_names | in_end
      · exact in_names
      · split at in_end
        · cases in_end
        · cases in_end
    have taken : ∀ made, disk.Within (fun probe => '\x00' ∉ path.toList ∧
        disk.node? probe = none ∧ probe ∈ passed (disk.start path) (names path))
        (finalState (makeDirs (disk.start path) ((components path).take made) disk.tick)) := by
      intro made
      obtain ⟨last, keeps, changed⟩ := make_dirs_within sound.tick (sound.start_dir path)
        ((components path).take made)
        fun name member => clean_components nul name (List.mem_of_mem_take member)
      refine ⟨last, ticked.trans keeps, fun probe differs => ?_⟩
      obtain ⟨absent, member⟩ := changed probe differs
      exact ⟨nul, absent, listed made probe member⟩
    have asked : nextFault disk = .ok (disk.fault disk.ticks) disk.tick := rfl
    have got : (get : FileM Disk) disk.tick = .ok disk.tick disk.tick := rfl
    rw [createDirAll, finalState_bind_ok asked]
    dsimp only
    rw [if_neg nul, finalState_bind_ok got]
    rcases fault : disk.fault disk.ticks with _ | _ | made
    · have whole := taken (components path).length
      rw [List.take_length] at whole
      exact whole
    · exact .tick sound _
    · have cut := taken made
      change disk.Within _ (finalState ((makeDirs (disk.start path) ((components path).take made) >>=
        fun _ => throw .failed : FileM Unit) disk.tick))
      cases result : makeDirs (disk.start path) ((components path).take made) disk.tick with
      | ok _ next =>
        rw [result] at cut
        rw [finalState_bind_ok result]
        exact cut
      | error error next =>
        rw [result] at cut
        rw [bind_error result]
        exact cut

theorem Disk.Within.trans {changes : List String → Prop} {first second third : Disk}
    (before : first.Within changes second) (after : second.Within changes third) :
    first.Within changes third where
  sound := after.sound
  keeps := before.keeps.trans after.keeps
  changed place differs := by
    by_cases same : first.node? place = second.node? place
    · exact after.changed place (same ▸ differs)
    · exact before.changed place same

theorem Disk.Within.weaken {changes more : List String → Prop} {first second : Disk}
    (within : first.Within changes second) (implies : ∀ place, changes place → more place) :
    first.Within more second where
  sound := within.sound
  keeps := within.keeps
  changed place differs := implies place (within.changed place differs)

theorem resolve_clean {disk : Disk} {path : String} {found : List String}
    (resolved : disk.resolve path = .ok found) : '\x00' ∉ path.toList := by
  intro nul
  rw [resolve, if_pos nul] at resolved
  cases resolved

/-- A file that is put where a path leads. -/
theorem store_within {disk : Disk} (sound : disk.Sound) {path : String} {found : List String}
    (target : disk.target path = .ok found) (content : ByteArray) :
    disk.Within (fun probe => '\x00' ∉ path.toList ∧ probe = disk.spelled path)
      (disk.store found content) := by
  obtain ⟨resolved, open_⟩ := target_eq_ok.mp target
  have clean := resolve_clean resolved
  have changed : ∀ probe, probe ≠ found →
      (disk.store found content).node? probe = disk.node? probe := by
    intro probe other
    rw [node_store (ne_root_of_not_dir open_), if_neg other]
  refine ⟨?_, (same_dirs_store open_ content).keeps, ?_⟩
  · have walked := resolved
    rw [resolve, if_neg clean] at walked
    split at walked
    · cases walked
    · rcases sound.walk_end (sound.start_dir path) (clean_components clean) walked with
        is_dir | ⟨parent, name, rfl, above, entry⟩
      · exact absurd is_dir open_
      · exact sound.change above entry open_ rfl changed
  · intro probe differs
    refine ⟨clean, ?_⟩
    rw [← resolve_spelled resolved]
    by_contra other
    exact differs (changed probe other).symm

/-- A file that is taken from where a path leads. -/
theorem removed_within {disk : Disk} (sound : disk.Sound) {path : String} {found : List String}
    {content : ByteArray} (located : disk.find path = .ok (found, .file content)) :
    disk.Within (fun probe => '\x00' ∉ path.toList ∧ probe = disk.spelled path)
      (disk.remove found) := by
  obtain ⟨resolved, node⟩ := find_eq_ok.mp located
  have open_ : disk.node? found ≠ some .dir := by
    rw [node]
    simp
  have changed : ∀ probe, probe ≠ found → (disk.remove found).node? probe = disk.node? probe := by
    intro probe other
    rw [node_remove (ne_root_of_not_dir open_), if_neg other]
  refine ⟨?_, (same_dirs_remove open_).keeps, ?_⟩
  · rcases List.eq_nil_or_concat found with rfl | ⟨parent, name, rfl⟩
    · exact absurd disk.root_dir open_
    · rw [List.concat_eq_append] at node open_ changed ⊢
      obtain ⟨above, entry⟩ := sound.parents parent name (by rw [node]; rfl)
      exact sound.change above entry open_ rfl changed
  · intro probe differs
    refine ⟨resolve_clean resolved, ?_⟩
    rw [← resolve_spelled resolved]
    by_contra other
    exact differs (changed probe other).symm

/-- Only the place that the path spells out is written. -/
theorem write_within {disk : Disk} (sound : disk.Sound) (path : String) (content : ByteArray) :
    disk.Within (fun probe => '\x00' ∉ path.toList ∧ probe = disk.spelled path)
      (finalState (write path content disk)) := by
  have ticked := Disk.Within.tick sound fun probe =>
    '\x00' ∉ path.toList ∧ probe = disk.spelled path
  rcases write_changes path content disk with same | ⟨place, bytes, target, stored⟩
  · rw [same]
    exact ticked
  · rw [stored]
    rw [← target_tick] at target
    exact ticked.trans (store_within sound.tick target bytes)

/-- Only the place that the path spells out is removed. -/
theorem remove_within {disk : Disk} (sound : disk.Sound) (path : String) :
    disk.Within (fun probe => '\x00' ∉ path.toList ∧ probe = disk.spelled path)
      (finalState (removeFile path disk)) := by
  have ticked := Disk.Within.tick sound fun probe =>
    '\x00' ∉ path.toList ∧ probe = disk.spelled path
  rcases remove_file_end path disk with spec | ⟨found, content, located, spec⟩
  · rw [spec]
    exact ticked
  · rw [spec]
    rw [← find_tick] at located
    exact ticked.trans (removed_within sound.tick located)

/-! ## The least tree in which a path leads to a directory -/

namespace Disk

/-- The directories that are there as soon as the path leads to one. -/
def OnTheWay (cwd : List String) (path : String) (place : List String) : Prop :=
  ∃ probe ∈ cwd :: passed (if isAbsolute path then [] else cwd) (names path), place <+: probe

instance (cwd : List String) (path : String) (place : List String) :
    Decidable (OnTheWay cwd path place) := by
  unfold OnTheWay
  infer_instance

theorem Opens.passed_dirs {disk : Disk} {place found : List String} {path : List String}
    (walked : disk.walk place path = .ok found) (is_dir : disk.node? found = some .dir) :
    ∀ probe ∈ passed place path, disk.node? probe = some .dir := by
  induction path generalizing place with
  | nil =>
    intro probe listed
    cases listed
  | cons name rest step =>
    rw [walk] at walked
    rw [passed]
    rcases here : disk.node? place with _ | _ | content
    · rw [here] at walked
      cases walked
    · rw [here] at walked
      dsimp only at walked
      split at walked
      · rename_i stays
        rw [if_pos stays]
        exact step walked
      · rename_i stays
        rw [if_neg stays]
        split at walked
        · rename_i rises
          rw [if_pos rises]
          exact step walked
        · rename_i rises
          rw [if_neg rises]
          intro probe listed
          rcases List.mem_cons.mp listed with rfl | later
          · cases rest with
            | nil =>
              cases walked
              exact is_dir
            | cons later rest =>
              rw [walk] at walked
              rcases next : disk.node? (place ++ [name]) with _ | _ | content
              · rw [next] at walked
                cases walked
              · rfl
              · rw [next] at walked
                cases walked
          · exact step walked probe later
    · rw [here] at walked
      cases walked

theorem Sound.on_the_way {disk : Disk} (sound : disk.Sound) {path : String} {found place : List String}
    (opens : disk.Opens path found) (on_way : OnTheWay disk.cwd path place) :
    disk.node? place = some .dir := by
  obtain ⟨probe, listed, below, rfl⟩ := on_way
  have held : disk.node? (place ++ below) = some .dir := by
    rcases List.mem_cons.mp listed with same | passed_there
    · rw [same]
      exact sound.cwd_dir
    · have walked := opens.walked
      rw [start] at walked
      exact Opens.passed_dirs walked opens.is_dir _ passed_there
  rcases sound.above below (by rw [held]; rfl) with rfl | above
  · rw [List.append_nil] at held
    exact held
  · exact above

theorem Sound.entry_names {disk : Disk} (sound : disk.Sound) {place : List String}
    (held : (disk.node? place).isSome) : ∀ name ∈ place, EntryName name := by
  induction place using List.reverseRecOn with
  | nil =>
    intro name listed
    cases listed
  | append_singleton place last step =>
    obtain ⟨above, entry⟩ := sound.parents place last held
    intro name listed
    rcases List.mem_append.mp listed with earlier | same
    · exact step (by rw [above]; rfl) name earlier
    · rw [List.mem_singleton.mp same]
      exact entry

theorem mem_passed {place path : List String} {probe : List String} (listed : probe ∈ passed place path) :
    ∀ name ∈ probe, name ∈ place ∨ (name ∈ path ∧ name ≠ "." ∧ name ≠ "..") := by
  induction path generalizing place with
  | nil => cases listed
  | cons component rest step =>
    have widen : ∀ name, name ∈ rest ∧ name ≠ "." ∧ name ≠ ".." →
        name ∈ component :: rest ∧ name ≠ "." ∧ name ≠ ".." :=
      fun name later => ⟨List.mem_cons_of_mem _ later.1, later.2⟩
    rw [passed] at listed
    intro name in_probe
    split at listed
    · exact (step listed name in_probe).imp_right (widen name)
    · rename_i stays
      split at listed
      · exact (step listed name in_probe).imp List.mem_of_mem_dropLast (widen name)
      · rename_i rises
        have below : ∀ own, own ∈ place ++ [component] →
            own ∈ place ∨ (own ∈ component :: rest ∧ own ≠ "." ∧ own ≠ "..") := by
          intro own there
          rcases List.mem_append.mp there with earlier | same
          · exact .inl earlier
          · rw [List.mem_singleton.mp same]
            exact .inr ⟨List.mem_cons_self, stays, rises⟩
        rcases List.mem_cons.mp listed with rfl | later
        · exact below name in_probe
        · rcases step later name in_probe with earlier | later
          · exact below name earlier
          · exact .inr (widen name later)

/-- A walk over directories gets to its end. -/
theorem Sound.walk_dirs {disk : Disk} (sound : disk.Sound) {place : List String} (path : List String)
    (is_dir : disk.node? place = some .dir)
    (dirs : ∀ probe ∈ passed place path, disk.node? probe = some .dir) :
    disk.walk place path = .ok (follow place path) ∧
      disk.node? (follow place path) = some .dir := by
  induction path generalizing place with
  | nil => exact ⟨rfl, is_dir⟩
  | cons name rest step =>
    rw [walk, is_dir, follow]
    rw [passed] at dirs
    dsimp only
    by_cases stays : name = "."
    · rw [if_pos stays] at dirs
      rw [if_pos stays, if_pos stays]
      exact step is_dir dirs
    · by_cases rises : name = ".."
      · rw [if_neg stays, if_pos rises] at dirs
        rw [if_neg stays, if_pos rises, if_neg stays, if_pos rises]
        exact step (sound.up is_dir) dirs
      · rw [if_neg stays, if_neg rises] at dirs
        rw [if_neg stays, if_neg rises, if_neg stays, if_neg rises]
        exact step (dirs _ List.mem_cons_self) fun probe later =>
          dirs probe (List.mem_cons_of_mem _ later)

/-- A tree with no more than the directories on the way of a path. -/
def skeleton (cwd : List String) (path : String) : Disk where
  nodes := (((cwd :: passed (if isAbsolute path then [] else cwd) (names path)).flatMap
    List.inits).filter (· ≠ [])).foldl (fun nodes place => nodes.insert place .dir) ∅
  cwd := cwd

theorem node_skeleton (cwd : List String) (path : String) (place : List String) :
    (skeleton cwd path).node? place = if OnTheWay cwd path place then some .dir else none := by
  have inserted : ∀ (places : List (List String)) (nodes : HashMap (List String) Node),
      (places.foldl (fun nodes place => nodes.insert place .dir) nodes).lookup place =
        if place ∈ places then some .dir else nodes.lookup place := by
    intro places
    induction places with
    | nil =>
      intro nodes
      simp
    | cons first rest step =>
      intro nodes
      rw [List.foldl_cons, step, HashMap.lookup_insert_eq]
      by_cases here : place = first
      · simp [here]
      · simp [here]
  rw [node?, skeleton, inserted]
  by_cases root : place = []
  · subst root
    have on_way : OnTheWay cwd path [] := ⟨cwd, List.mem_cons_self, List.nil_prefix⟩
    rw [if_pos rfl, if_pos on_way]
  · rw [if_neg root]
    have same : place ∈ (((cwd :: passed (if isAbsolute path then [] else cwd) (names path)).flatMap
        List.inits).filter (· ≠ [])) ↔ OnTheWay cwd path place := by
      rw [List.mem_filter, List.mem_flatMap, OnTheWay]
      simp [root, List.mem_inits]
    by_cases on_way : OnTheWay cwd path place
    · rw [if_pos (same.mpr on_way), if_pos on_way]
    · rw [if_neg fun listed => on_way (same.mp listed), if_neg on_way]
      rfl

theorem skeleton_no_file (cwd : List String) (path : String) (place : List String)
    (content : ByteArray) : (skeleton cwd path).node? place ≠ some (.file content) := by
  rw [node_skeleton]
  split
  · simp
  · simp

theorem skeleton_sound {cwd : List String} {path : String} (entries : ∀ name ∈ cwd, EntryName name)
    (clean : '\x00' ∉ path.toList) : (skeleton cwd path).Sound := by
  refine ⟨?_, ?_⟩
  · have on_way : OnTheWay cwd path cwd := ⟨cwd, List.mem_cons_self, List.prefix_refl cwd⟩
    rw [show (skeleton cwd path).cwd = cwd from rfl, node_skeleton, if_pos on_way]
  · intro place name held
    rw [node_skeleton] at held
    split at held
    · rename_i on_way
      obtain ⟨probe, listed, below⟩ := on_way
      have above : OnTheWay cwd path place := ⟨probe, listed, (List.prefix_append _ _).trans below⟩
      refine ⟨by rw [node_skeleton, if_pos above], ?_⟩
      have in_probe : name ∈ probe := below.subset (by simp)
      rcases List.mem_cons.mp listed with rfl | passed_there
      · exact entries name in_probe
      · rcases mem_passed passed_there name in_probe with at_start | ⟨named, stays, rises⟩
        · split at at_start
          · cases at_start
          · exact entries name at_start
        · exact entry_of_mem_names clean named stays rises
    · cases held

theorem skeleton_opens {cwd : List String} {path : String} (entries : ∀ name ∈ cwd, EntryName name)
    (clean : '\x00' ∉ path.toList) :
    (skeleton cwd path).Opens path ((skeleton cwd path).spelled path) := by
  have sound := skeleton_sound entries clean
  obtain ⟨walked, is_dir⟩ := sound.walk_dirs (names path) (sound.start_dir path) (by
    intro probe listed
    have on_way : OnTheWay cwd path probe :=
      ⟨probe, List.mem_cons_of_mem _ listed, List.prefix_refl probe⟩
    rw [node_skeleton, if_pos on_way])
  exact ⟨clean, walked, is_dir⟩

end Disk

/-- Where there are no files, all directories on the way are made. -/
theorem make_dirs_all {disk : Disk} (no_file : ∀ place content, disk.node? place ≠ some (.file content))
    (place path : List String) :
    ∀ probe ∈ passed place path,
      (finalState (makeDirs place path disk)).node? probe = some .dir := by
  induction path generalizing place disk with
  | nil =>
    intro probe listed
    cases listed
  | cons name rest step =>
    rw [passed]
    by_cases stays : name = "."
    · rw [if_pos stays, makeDirs, if_pos stays]
      exact step no_file place
    · by_cases rises : name = ".."
      · rw [if_neg stays, if_pos rises, makeDirs, if_neg stays, if_pos rises]
        exact step no_file place.dropLast
      · rw [if_neg stays, if_neg rises, make_dirs_below stays rises]
        intro probe listed
        rcases here : disk.node? (place ++ [name]) with _ | _ | content
        · have made_no_file : ∀ other content,
              (disk.makeDir (place ++ [name])).node? other ≠ some (.file content) := by
            intro other content
            rw [node_make_dir]
            split
            · simp
            · exact no_file other content
          dsimp only
          rcases List.mem_cons.mp listed with rfl | later
          · exact (make_dirs_keeps _ rest _).1.2 _ (by rw [node_make_dir, if_pos rfl])
          · exact step made_no_file _ probe later
        · dsimp only
          rcases List.mem_cons.mp listed with rfl | later
          · exact (make_dirs_keeps _ rest _).1.2 _ here
          · exact step no_file _ probe later
        · exact absurd here (no_file _ content)

theorem create_dir_all_all {disk : Disk}
    (no_file : ∀ place content, disk.node? place ≠ some (.file content))
    (undisturbed : disk.fault disk.ticks = none) {path : String} (clean : '\x00' ∉ path.toList) :
    ∀ probe ∈ passed (disk.start path) (names path),
      (finalState (createDirAll path disk)).node? probe = some .dir := by
  intro probe listed
  have asked : nextFault disk = .ok none disk.tick := by
    rw [nextFault, undisturbed]
    rfl
  have got : (get : FileM Disk) disk.tick = .ok disk.tick disk.tick := rfl
  rw [createDirAll, finalState_bind_ok asked]
  dsimp only
  rw [if_neg clean, finalState_bind_ok got]
  refine @make_dirs_all disk.tick no_file (disk.start path) (components path) probe ?_
  rw [components_eq, passed_append]
  exact List.mem_append_left _ listed

end FileSystem
