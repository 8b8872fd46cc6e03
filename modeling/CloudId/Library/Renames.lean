import CloudId.Library.SpelledPaths

/-! Renaming a file, and what a path holds while files come and go. A rename is one change of
the tree: there is no moment at which the new name leads to a part of the file. -/
namespace FileSystem
open Effects Disk

/-- `fs::rename` of a file: it leaves its place and replaces the file that the other path
leads to, if there is one. -/
def rename (source target : String) : FileM Unit := do
  match ← nextFault with
  | some _ => throw .failed
  | none =>
    let disk ← get
    match ← liftExcept (disk.find source) with
    | (_, .dir) => throw .isADirectory
    | (old, .file content) =>
      let new ← liftExcept (disk.target target)
      set { disk with nodes := (disk.nodes.erase old).insert new (.file content) }

/-- A rename changes nothing, or it moves the file that the one path leads to. -/
theorem rename_end (source target : String) (disk : Disk) :
    (∃ error, rename source target disk = .error error disk.tick) ∨
      ∃ old content new, disk.find source = .ok (old, .file content) ∧
        disk.target target = .ok new ∧
        rename source target disk = .ok () ((disk.tick.remove old).store new content) := by
  rw [rename, after_fault]
  cases disk.fault disk.ticks with
  | some fault => exact .inl ⟨_, rfl⟩
  | none =>
    dsimp only
    rw [after_get, lift_bind, find_tick]
    rcases disk.find source with error | ⟨old, _ | content⟩
    · exact .inl ⟨_, rfl⟩
    · exact .inl ⟨_, rfl⟩
    · dsimp only
      rw [lift_bind, target_tick]
      cases disk.target target with
      | error error => exact .inl ⟨_, rfl⟩
      | ok new => exact .inr ⟨old, content, new, rfl, rfl, rfl⟩

theorem target_of_same_dirs {first second : Disk} (same : SameDirs first second) {path : String}
    {place : List String} (target : first.target path = .ok place) :
    second.target path = .ok place := by
  obtain ⟨resolved, open_⟩ := target_eq_ok.mp target
  exact target_eq_ok.mpr ⟨resolve_ok_of_same_dirs same resolved, fun is_dir => open_ ((same.2 _).mpr is_dir)⟩

/-- Only the two places that the paths spell out change. -/
theorem rename_within {disk : Disk} (sound : disk.Sound) (source target : String) :
    disk.Within (fun probe => probe = disk.spelled source ∨ probe = disk.spelled target)
      (finalState (rename source target disk)) := by
  have ticked := Disk.Within.tick sound fun probe =>
    probe = disk.spelled source ∨ probe = disk.spelled target
  rcases rename_end source target disk with ⟨error, failed⟩ | ⟨old, content, new, located, at_, moved⟩
  · rw [failed]
    exact ticked
  · rw [moved]
    rw [← find_tick] at located
    rw [← target_tick] at at_
    have open_ : disk.tick.node? old ≠ some .dir := by
      rw [(find_eq_ok.mp located).2]
      simp
    have taken := removed_within sound.tick located
    have put := store_within taken.sound
      (target_of_same_dirs (same_dirs_remove open_) at_) content
    refine (ticked.trans (taken.weaken ?_)).trans (put.weaken ?_)
    · exact fun probe there => .inl there.2
    · exact fun probe there => .inr there.2

/-- After a rename the new path's place holds the file. -/
theorem rename_moves {disk next : Disk} {source target : String}
    (moved : rename source target disk = .ok () next) :
    ∃ content, disk.node? (disk.spelled source) = some (.file content) ∧
      next.node? (disk.spelled target) = some (.file content) := by
  rcases rename_end source target disk with ⟨error, failed⟩ | ⟨old, content, new, located, at_, moved'⟩
  · rw [failed] at moved
    cases moved
  · rw [moved'] at moved
    cases moved
    obtain ⟨resolved, node⟩ := find_eq_ok.mp located
    obtain ⟨resolved', open_⟩ := target_eq_ok.mp at_
    rw [resolve_spelled resolved] at node
    refine ⟨content, node, ?_⟩
    rw [← resolve_spelled resolved', node_store (ne_root_of_not_dir open_), if_pos rfl]

theorem rename_error {disk next : Disk} {source target : String} {error : FileError}
    (failed : rename source target disk = .error error next) : next = disk.tick := by
  rcases rename_end source target disk with ⟨other, failed'⟩ | ⟨_, _, _, _, _, moved⟩
  · rw [failed'] at failed
    cases failed
    rfl
  · rw [moved] at failed
    cases failed

/-! ## Files that come and go -/

/-- After a write that succeeded the file is all there. -/
theorem write_stores {disk next : Disk} {path : String} {content : ByteArray}
    (written : write path content disk = .ok () next) :
    next.node? (disk.spelled path) = some (.file content) := by
  have spec := write_end_eq path content disk
  rw [(write_ok_iff path content disk).mp ⟨next, written⟩] at spec
  obtain ⟨place, target, saved⟩ := spec
  rw [saved] at written
  cases written
  obtain ⟨resolved, open_⟩ := target_eq_ok.mp target
  rw [← resolve_spelled resolved, node_store (ne_root_of_not_dir open_), if_pos rfl]

namespace Disk

/-- The file of a path is at the place that the path spells out. -/
theorem node_of_file_at {disk : Disk} {path : String} {content : ByteArray}
    (held : disk.fileAt path = some content) :
    disk.node? (disk.spelled path) = some (.file content) := by
  obtain ⟨place, resolved, node⟩ := file_at_eq_some.mp held
  rw [← resolve_spelled resolved]
  exact node

/-- Where a path had a file and the directories have stayed, it leads to the file that is at
its place now. -/
theorem file_at_of_keeps {first second : Disk} (keeps : KeepsDirs first second) {path : String}
    {before after : ByteArray} (held : first.fileAt path = some before)
    (node : second.node? (first.spelled path) = some (.file after)) :
    second.fileAt path = some after := by
  obtain ⟨place, resolved, -⟩ := file_at_eq_some.mp held
  rw [← resolve_spelled resolved] at node
  exact file_at_eq_some.mpr ⟨place, resolve_ok_of_keeps_dirs keeps resolved, node⟩

end Disk

end FileSystem
