import CloudId.Library.Directories
import CloudId.Library.SortedMap
import CloudId.Templates
import Mathlib.Data.Prod.Lex

/-! The template store over a table of files. Below the template directory lie the
directories of the image types, and in them text files; what the store does to the tree
and what it answers is determined by that table, whatever the names are. A file that a
name's metadata lives in is an entry like any other one. -/
namespace CloudId
open FileSystem Effects Disk

/-- The files below the template directory: image type, file name, text. -/
abbrev FileTable := String → String → Option String

def FileTable.set (files : FileTable) (imageType file : String) (text : Option String) :
    FileTable := fun otherType other =>
  if otherType = imageType ∧ other = file then text else files otherType other

/-- The tree shows a table of files below the template directory. -/
structure Shows (store : TemplateStore) (disk : Disk) (place : List String)
    (files : FileTable) : Prop where
  healthy : disk.Healthy
  opens : disk.Opens store.templatesDir place
  types : ∀ imageType node, disk.node? (place ++ [imageType]) = some node →
    node = .dir ∧ EntryName imageType
  entries : ∀ imageType file, disk.node? (place ++ [imageType, file]) =
    (files imageType file).map fun text => .file text.toUTF8
  within : ∀ imageType file, (files imageType file).isSome →
    disk.node? (place ++ [imageType]) = some .dir ∧ EntryName file

/-- The data volume with no templates yet. -/
def emptyVolume : Disk where
  nodes := [["data"], ["data", "templates"]].foldl (fun nodes place => nodes.insert place .dir) ∅

/-- The name of a metadata file. -/
def metaName (name : String) : String := name ++ ".meta.json"

theorem meta_name_entry {name : String} (entry : EntryName name) : EntryName (metaName name) :=
  entry.append (by decide) ⟨'m', by decide, by decide⟩ (by decide)

theorem meta_name_ordinary {name : String} (ordinary : Ordinary name) : Ordinary (metaName name) :=
  ordinary.append (by decide) ⟨'m', by decide, by decide⟩

theorem meta_path_eq (store : TemplateStore) (imageType name : String) :
    store.metaPath imageType name = store.templatePath imageType (metaName name) := rfl

namespace Shows

variable {store : TemplateStore} {disk : Disk} {place : List String} {files : FileTable}

theorem tick (shown : Shows store disk place files) : Shows store disk.tick place files where
  healthy := shown.healthy
  opens := shown.opens.of_same_dirs (same_dirs_tick disk)
  types := shown.types
  entries := shown.entries
  within := shown.within

theorem type_opens (shown : Shows store disk place files) {imageType : String}
    (is_dir : disk.node? (place ++ [imageType]) = some .dir) :
    disk.Opens (join store.templatesDir imageType) (place ++ [imageType]) := by
  obtain ⟨-, entry⟩ := shown.types imageType .dir is_dir
  exact shown.opens.join entry.toOrdinary entry.no_nul is_dir

theorem closed_of_absent (shown : Shows store disk place files) {imageType : String}
    (absent : disk.node? (place ++ [imageType]) ≠ some .dir) :
    disk.node? (place ++ [imageType]) = none := by
  rcases here : disk.node? (place ++ [imageType]) with _ | node
  · rfl
  · rw [(shown.types imageType node here).1] at here
    exact absurd here absent

theorem files_none (shown : Shows store disk place files) {imageType file : String}
    (absent : disk.node? (place ++ [imageType]) ≠ some .dir) : files imageType file = none := by
  by_contra held
  exact absent (shown.within imageType file (Option.isSome_iff_ne_none.mpr held)).1

/-- A file of the table is found under its path. -/
theorem find_some (shown : Shows store disk place files) {imageType file text : String}
    (held : files imageType file = some text) :
    disk.find (store.templatePath imageType file) =
      .ok (place ++ [imageType, file], .file text.toUTF8) := by
  obtain ⟨is_dir, entry⟩ := shown.within imageType file (by rw [held]; rfl)
  have node := shown.entries imageType file
  rw [held, Option.map_some] at node
  rw [TemplateStore.templatePath, find_entry (shown.type_opens is_dir) entry.toOrdinary entry.no_nul,
    List.append_assoc, List.singleton_append, node]

/-- Nothing else is. -/
theorem find_none (shown : Shows store disk place files) {imageType file : String}
    (ordinary : Ordinary imageType) (ordinary' : Ordinary file)
    (absent : files imageType file = none) :
    ∃ error, disk.find (store.templatePath imageType file) = .error error := by
  cases located : disk.find (store.templatePath imageType file) with
  | error error => exact ⟨error, rfl⟩
  | ok found =>
    obtain ⟨at_, node⟩ := found
    obtain ⟨resolved, held⟩ := find_eq_ok.mp located
    by_cases is_dir : disk.node? (place ++ [imageType]) = some .dir
    · obtain ⟨parent, opens, rfl, -⟩ := opens_of_resolve_join ordinary' resolved
      rw [opens.unique (shown.type_opens is_dir), List.append_assoc, List.singleton_append,
        shown.entries, absent] at held
      cases held
    · exact absurd resolved (resolve_in_closed shown.opens ordinary is_dir ordinary' at_)

theorem exists_eq (shown : Shows store disk place files) {imageType file : String}
    (ordinary : Ordinary imageType) (ordinary' : Ordinary file) :
    Yields (fileExists (store.templatePath imageType file)) disk (files imageType file).isSome
      (Shows store · place files) := by
  refine ⟨disk.tick, ?_, shown.tick⟩
  rw [file_exists_eq shown.healthy]
  cases held : files imageType file with
  | some text =>
    rw [shown.find_some held]
    rfl
  | none =>
    obtain ⟨error, missing⟩ := shown.find_none ordinary ordinary' held
    rw [missing]
    rfl

theorem read_text (shown : Shows store disk place files) {imageType file : String}
    (ordinary : Ordinary imageType) (ordinary' : Ordinary file) :
    disk.readText (store.templatePath imageType file) = files imageType file := by
  rw [readText, fileAt]
  cases held : files imageType file with
  | some text =>
    rw [shown.find_some held]
    exact from_utf8_to_utf8 text
  | none =>
    obtain ⟨error, missing⟩ := shown.find_none ordinary ordinary' held
    rw [missing]
    rfl

/-- The text of a file, or none when it cannot be read. -/
theorem read_eq (shown : Shows store disk place files) {imageType file : String}
    (ordinary : Ordinary imageType) (ordinary' : Ordinary file) :
    ∃ result, attempt (readToString (store.templatePath imageType file)) disk = .ok result disk.tick ∧
      result.toOption = files imageType file := by
  obtain ⟨result, read, same⟩ :=
    attempt_read_eq shown.healthy (store.templatePath imageType file)
  exact ⟨result, read, same.trans (shown.read_text ordinary ordinary')⟩

theorem read_some (shown : Shows store disk place files) {imageType file text : String}
    (held : files imageType file = some text) :
    Yields (readToString (store.templatePath imageType file)) disk text
      (Shows store · place files) := by
  have text_held : disk.readText (store.templatePath imageType file) = some text := by
    rw [readText, fileAt, shown.find_some held]
    exact from_utf8_to_utf8 text
  rcases read_to_string_eq shown.healthy (store.templatePath imageType file) with
    ⟨found, same, read⟩ | ⟨error, none_there, -⟩
  · rw [text_held] at same
    cases same
    exact ⟨disk.tick, read, shown.tick⟩
  · rw [text_held] at none_there
    cases none_there

/-- The type's directory is there after `createDirAll`. -/
theorem create_type (shown : Shows store disk place files) {imageType : String}
    (entry : EntryName imageType) :
    Yields (createDirAll (join store.templatesDir imageType)) disk () fun next =>
      Shows store next place files ∧ next.node? (place ++ [imageType]) = some .dir := by
  have made := create_dir_all_entry shown.healthy shown.opens entry.toOrdinary entry.no_nul
  by_cases is_dir : disk.node? (place ++ [imageType]) = some .dir
  · rw [is_dir] at made
    exact ⟨disk.tick, made, shown.tick, is_dir⟩
  · rw [shown.closed_of_absent is_dir] at made
    refine ⟨_, made, ⟨shown.healthy, ?_, ?_, ?_, ?_⟩, by rw [node_make_dir, if_pos rfl]⟩
    · exact shown.tick.opens.of_keeps_dirs (keeps_dirs_make_dir _ _)
    · intro other node held
      rw [node_make_dir] at held
      split at held
      · rename_i same
        have same_name : other = imageType := by simpa using same
        rw [same_name]
        exact ⟨(Option.some.inj held).symm, entry⟩
      · exact shown.types other node held
    · intro other file
      have deeper : place ++ [other, file] ≠ place ++ [imageType] := by simp
      rw [node_make_dir, if_neg deeper]
      exact shown.entries other file
    · intro other file held
      obtain ⟨is_dir', entry'⟩ := shown.within other file held
      refine ⟨?_, entry'⟩
      rw [node_make_dir]
      split
      · rfl
      · exact is_dir'

/-- A change of one entry of a type's directory. -/
theorem set_entry {next : Disk} (shown : Shows store disk place files) {imageType file : String}
    (entry : EntryName file) (is_dir : disk.node? (place ++ [imageType]) = some .dir)
    (text : Option String) (healthy : next.Healthy) (dirs : SameDirs disk next)
    (changed : ∀ probe, next.node? probe =
      if probe = place ++ [imageType, file] then text.map fun text => .file text.toUTF8
      else disk.node? probe) :
    Shows store next place (files.set imageType file text) where
  healthy := healthy
  opens := shown.opens.of_same_dirs dirs
  types := by
    intro other node held
    have higher : place ++ [other] ≠ place ++ [imageType, file] := by simp
    rw [changed, if_neg higher] at held
    exact shown.types other node held
  entries := by
    intro other own
    rw [changed, FileTable.set]
    by_cases same : other = imageType ∧ own = file
    · obtain ⟨rfl, rfl⟩ := same
      simp
    · have elsewhere : place ++ [other, own] ≠ place ++ [imageType, file] := by simpa using same
      rw [if_neg elsewhere, if_neg same]
      exact shown.entries other own
  within := by
    intro other own held
    rw [FileTable.set] at held
    have higher : place ++ [other] ≠ place ++ [imageType, file] := by simp
    rw [changed, if_neg higher]
    split at held
    · rename_i same
      rw [same.1, same.2]
      exact ⟨is_dir, entry⟩
    · exact shown.within other own held

theorem not_dir_entry (shown : Shows store disk place files) (imageType file : String) :
    disk.node? (place ++ [imageType, file]) ≠ some .dir := by
  rw [shown.entries]
  cases files imageType file with
  | none => simp
  | some text => simp

theorem write_eq (shown : Shows store disk place files) {imageType file : String}
    (entry : EntryName file) (is_dir : disk.node? (place ++ [imageType]) = some .dir)
    (text : String) :
    Yields (write (store.templatePath imageType file) text.toUTF8) disk () fun next =>
      Shows store next place (files.set imageType file (some text)) ∧
        next.node? (place ++ [imageType]) = some .dir := by
  have open_ : disk.tick.node? (place ++ [imageType, file]) ≠ some .dir :=
    shown.not_dir_entry imageType file
  have target : disk.target (store.templatePath imageType file) = .ok (place ++ [imageType, file]) := by
    refine target_eq_ok.mpr ⟨?_, open_⟩
    rw [TemplateStore.templatePath,
      (shown.type_opens is_dir).resolve_join entry.toOrdinary entry.no_nul, List.append_assoc,
      List.singleton_append]
  have changed : ∀ probe, (disk.tick.store (place ++ [imageType, file]) text.toUTF8).node? probe =
      if probe = place ++ [imageType, file] then some (.file text.toUTF8)
      else disk.node? probe :=
    node_store (ne_root_of_not_dir open_) text.toUTF8
  refine ⟨_, write_ok shown.healthy target _, ?_, ?_⟩
  · exact shown.set_entry entry is_dir (some text) shown.healthy
      ((same_dirs_tick disk).trans (same_dirs_store open_ _)) changed
  · have higher : place ++ [imageType] ≠ place ++ [imageType, file] := by simp
    rw [changed, if_neg higher]
    exact is_dir

theorem remove_eq (shown : Shows store disk place files) {imageType file text : String}
    (held : files imageType file = some text) :
    Yields (removeFile (store.templatePath imageType file)) disk ()
      (Shows store · place (files.set imageType file none)) := by
  have open_ : disk.tick.node? (place ++ [imageType, file]) ≠ some .dir :=
    shown.not_dir_entry imageType file
  obtain ⟨is_dir, entry⟩ := shown.within imageType file (by rw [held]; rfl)
  refine ⟨_, remove_file_eq shown.healthy (shown.find_some held), ?_⟩
  exact shown.set_entry entry is_dir none shown.healthy
    ((same_dirs_tick disk).trans (same_dirs_remove open_)) (node_remove (ne_root_of_not_dir open_))

/-- A type has a directory, or it is not there at all. -/
theorem exists_type (shown : Shows store disk place files) {imageType : String}
    (ordinary : Ordinary imageType) :
    fileExists (join store.templatesDir imageType) disk =
      .ok (disk.node? (place ++ [imageType])).isSome disk.tick := by
  rw [file_exists_eq shown.healthy]
  cases here : disk.node? (place ++ [imageType]) with
  | some node =>
    obtain ⟨-, entry⟩ := shown.types imageType node here
    rw [find_entry shown.opens ordinary entry.no_nul, here]
    rfl
  | none =>
    cases located : disk.find (join store.templatesDir imageType) with
    | error error => rfl
    | ok found =>
      obtain ⟨found, node⟩ := found
      obtain ⟨resolved, held⟩ := find_eq_ok.mp located
      obtain ⟨parent, opens, rfl, -⟩ := opens_of_resolve_join ordinary resolved
      rw [opens.unique shown.opens, here] at held
      cases held

/-- The listing of a type's directory: the files of the table. -/
theorem read_type (shown : Shows store disk place files) {imageType : String}
    (is_dir : disk.node? (place ++ [imageType]) = some .dir) :
    ∃ listing, Yields (readDir (join store.templatesDir imageType)) disk listing
        (Shows store · place files) ∧
      (listing.map Prod.fst).Nodup ∧
      ∀ entry, entry ∈ listing ↔ entry.2 = false ∧ (files imageType entry.1).isSome := by
  obtain ⟨-, name⟩ := shown.types imageType .dir is_dir
  have found : disk.find (join store.templatesDir imageType) = .ok (place ++ [imageType], .dir) := by
    rw [find_entry shown.opens name.toOrdinary name.no_nul, is_dir]
  refine ⟨_, ⟨disk.tick, read_dir_eq shown.healthy found, shown.tick⟩, children_nodup _ _, ?_⟩
  rintro ⟨file, kind⟩
  rw [mem_children, List.append_assoc, List.singleton_append, shown.entries]
  cases files imageType file with
  | none => simp
  | some text =>
    constructor
    · rintro ⟨node, ⟨⟩, rfl⟩
      exact ⟨rfl, rfl⟩
    · rintro ⟨rfl, -⟩
      exact ⟨_, rfl, rfl⟩

/-- The listing of the template directory: the directories of the types. -/
theorem read_types (shown : Shows store disk place files) :
    ∃ listing, Yields (readDir store.templatesDir) disk listing (Shows store · place files) ∧
      (listing.map Prod.fst).Nodup ∧
      ∀ entry, entry ∈ listing ↔
        entry.2 = true ∧ disk.node? (place ++ [entry.1]) = some .dir := by
  have found : disk.find store.templatesDir = .ok (place, .dir) :=
    find_open shown.opens (join_ne_empty (by decide))
  refine ⟨_, ⟨disk.tick, read_dir_eq shown.healthy found, shown.tick⟩, children_nodup _ _, ?_⟩
  rintro ⟨imageType, kind⟩
  rw [mem_children]
  constructor
  · rintro ⟨node, here, rfl⟩
    obtain ⟨rfl, -⟩ := shown.types imageType node here
    exact ⟨rfl, here⟩
  · rintro ⟨rfl, here⟩
    exact ⟨.dir, here, rfl⟩

end Shows

/-! ## The operations over the table -/

namespace FileTable

/-- A file that listings show. -/
def Listed (files : FileTable) (imageType name : String) : Prop :=
  (files imageType name).isSome ∧ Text.endsWith name ".meta.json" = false

/-- The name under which a template is loaded. -/
def found (files : FileTable) (imageType name : String) : Option String :=
  [name, name ++ ".ign.json", name ++ ".ks", name ++ ".yaml"].find? fun candidate =>
    (files imageType candidate).isSome

def delete (files : FileTable) (imageType name : String) : FileTable :=
  if (files imageType name).isSome then
    (files.set imageType name none).set imageType (metaName name) none
  else files

variable [Deserialize TemplateMeta]

/-- The metadata of a name, where its file can be parsed. -/
def record (files : FileTable) (imageType name : String) : Option TemplateMeta :=
  (files imageType (metaName name)).bind Deserialize.fromStr

def summary (files : FileTable) (imageType name : String) : TemplateSummary where
  imageType
  name
  format := TemplateFormat.fromFilename name
  mode := ((files.record imageType name).map TemplateMeta.mode).getD default

/-- The record of a name, or the default one when the clock shows these seconds. -/
def recordAt (files : FileTable) (imageType name : String) (created updated : Nat) : TemplateMeta :=
  (files.record imageType name).getD
    { mode := default, createdAt := utcTimestamp created, updatedAt := utcTimestamp updated }

def load (files : FileTable) (imageType name content : String) (created updated : Nat) :
    LoadedTemplate where
  imageType
  name
  format := TemplateFormat.fromFilename name
  mode := (files.recordAt imageType name created updated).mode
  content
  createdAt := (files.recordAt imageType name created updated).createdAt
  updatedAt := (files.recordAt imageType name created updated).updatedAt

/-- What `get` answers when the clock shows these seconds. -/
def get (files : FileTable) (imageType name : String) (created updated : Nat) :
    Option LoadedTemplate :=
  (files.found imageType name).bind fun resolved =>
    (files imageType resolved).map fun content =>
      files.load imageType resolved content created updated

/-- What a bundle keeps of a file. -/
def bundleEntry (files : FileTable) (imageType name content : String) : BundleEntry where
  imageType
  name
  format := TemplateFormat.fromFilename name
  mode := (files.summary imageType name).mode
  content

variable [Serialize TemplateMeta]

/-- The record that `put` writes when the clock shows these seconds. -/
def putRecord (files : FileTable) (imageType name : String) (req : TemplateCreateRequest)
    (created updated : Nat) : TemplateMeta where
  mode := req.mode
  createdAt := ((files.record imageType name).map TemplateMeta.createdAt).getD (utcTimestamp created)
  updatedAt := utcTimestamp updated

def put (files : FileTable) (imageType name : String) (req : TemplateCreateRequest)
    (created updated : Nat) : FileTable :=
  (files.set imageType name (some req.content)).set imageType (metaName name)
    (some (Serialize.toStringPretty (files.putRecord imageType name req created updated)))

end FileTable

theorem set_absent {files : FileTable} {imageType file : String}
    (absent : files imageType file = none) : files.set imageType file none = files := by
  funext otherType other
  rw [FileTable.set]
  split
  · rename_i same
    rw [same.1, same.2, absent]
  · rfl

theorem meta_name_ne (name : String) : metaName name ≠ name := by
  intro same
  have lengths := congrArg String.length same
  rw [metaName, String.length_append] at lengths
  have some_ : 0 < ".meta.json".length := by decide
  omega

theorem read_meta_preserves [Deserialize TemplateMeta] {inv : Disk → Prop}
    (still : ∀ disk : Disk, inv disk → inv disk.tick) (store : TemplateStore)
    (imageType name : String) : Preserves inv (store.readMeta imageType name) := by
  refine (attempt_preserves (read_to_string_preserves still _)).bind fun result => ?_
  cases result with
  | ok data => exact preserves_pure _ _
  | error error => exact preserves_pure _ _

namespace Shows

variable {store : TemplateStore} {disk : Disk} {place : List String} {files : FileTable}
  {imageType name : String}

theorem delete_eq (shown : Shows store disk place files) (ordinary : Ordinary imageType)
    (ordinary' : Ordinary name) :
    Yields (store.delete imageType name) disk (files imageType name).isSome
      (Shows store · place (files.delete imageType name)) := by
  rw [TemplateStore.delete, FileTable.delete]
  refine (shown.exists_eq ordinary ordinary').bind fun next shown => ?_
  cases held : files imageType name with
  | none => exact yields_pure shown
  | some text =>
    refine (shown.remove_eq held).bind fun next shown => ?_
    refine (shown.exists_eq ordinary (meta_name_ordinary ordinary')).bind fun next shown => ?_
    have differs : metaName name ≠ name := meta_name_ne name
    cases meta_held : files.set imageType name none imageType (metaName name) with
    | none =>
      have same : (files.set imageType name none).set imageType (metaName name) none =
          files.set imageType name none := set_absent meta_held
      simp only [Option.isSome_none, Bool.false_eq_true, if_false]
      refine yields_pure ?_
      rw [Option.isSome_some, if_pos rfl, same]
      exact shown
    | some text' =>
      obtain ⟨after, removed, shown⟩ := shown.remove_eq meta_held
      have attempted : attempt (removeFile (store.metaPath imageType name)) next = .ok (.ok ()) after := by
        rw [attempt, meta_path_eq, removed]
      exact ⟨after, (bind_ok attempted).trans rfl, shown⟩

theorem first_existing_eq (shown : Shows store disk place files) (ordinary : Ordinary imageType)
    (names : List String) (ordinary' : ∀ name ∈ names, Ordinary name) :
    Yields (store.firstExisting imageType names) disk
      (names.find? fun name => (files imageType name).isSome) (Shows store · place files) := by
  induction names generalizing disk with
  | nil => exact yields_pure shown
  | cons name rest step =>
    rw [TemplateStore.firstExisting, List.find?_cons]
    refine (shown.exists_eq ordinary (ordinary' name List.mem_cons_self)).bind fun next shown => ?_
    cases files imageType name with
    | some text => exact yields_pure shown
    | none => exact step shown fun other listed => ordinary' other (List.mem_cons_of_mem _ listed)

theorem candidates_ordinary (ordinary : Ordinary name) :
    ∀ candidate ∈ [name, name ++ ".ign.json", name ++ ".ks", name ++ ".yaml"],
      Ordinary candidate := by
  have ign : Ordinary (name ++ ".ign.json") :=
    ordinary.append (by decide) ⟨'i', by decide, by decide⟩
  have ks : Ordinary (name ++ ".ks") := ordinary.append (by decide) ⟨'k', by decide, by decide⟩
  have yaml : Ordinary (name ++ ".yaml") :=
    ordinary.append (by decide) ⟨'y', by decide, by decide⟩
  simp only [List.mem_cons, List.not_mem_nil, or_false]
  rintro candidate (rfl | rfl | rfl | rfl)
  · exact ordinary
  · exact ign
  · exact ks
  · exact yaml

section Meta

variable [Deserialize TemplateMeta]

theorem read_meta_eq (shown : Shows store disk place files) (ordinary : Ordinary imageType)
    (ordinary' : Ordinary name) :
    store.readMeta imageType name disk = .ok (files.record imageType name) disk.tick := by
  obtain ⟨result, read, same⟩ := shown.read_eq ordinary (meta_name_ordinary ordinary')
  rw [FileTable.record, ← same, TemplateStore.readMeta, meta_path_eq]
  refine (bind_ok read).trans ?_
  cases result with
  | ok data => rfl
  | error error => rfl

theorem get_eq (shown : Shows store disk place files) (ordinary : Ordinary imageType)
    (ordinary' : Ordinary name) :
    ∃ created updated, Yields (store.get imageType name) disk
      (files.get imageType name created updated) (Shows store · place files) := by
  obtain ⟨next, searched, shown⟩ :=
    shown.first_existing_eq ordinary _ (candidates_ordinary ordinary')
  simp only [TemplateStore.get, FileTable.get, FileTable.found]
  cases found : [name, name ++ ".ign.json", name ++ ".ks", name ++ ".yaml"].find?
      fun candidate => (files imageType candidate).isSome with
  | none =>
    rw [found] at searched
    exact ⟨0, 0, Yields.bind ⟨next, searched, shown⟩ fun next shown => yields_pure shown⟩
  | some resolved =>
    rw [found] at searched
    have held := List.find?_some found
    obtain ⟨content, held⟩ := Option.isSome_iff_exists.mp held
    have resolved_ordinary :=
      candidates_ordinary ordinary' resolved (List.mem_of_find?_eq_some found)
    obtain ⟨next', read, shown⟩ := shown.read_some held
    have read_meta := shown.read_meta_eq ordinary resolved_ordinary
    refine ⟨next'.clock (next'.ticks + 1), next'.clock (next'.ticks + 2), ?_⟩
    have loaded : ∀ created updated, ((some resolved).bind fun resolved =>
        (files imageType resolved).map fun content =>
          files.load imageType resolved content created updated) =
        some (files.load imageType resolved content created updated) := by
      intro created updated
      rw [Option.bind_some, held, Option.map_some]
    rw [loaded]
    cases record : files.record imageType resolved with
    | some found =>
      rw [record] at read_meta
      refine ⟨next'.tick, ?_, shown.tick⟩
      refine (bind_ok searched).trans ((bind_ok read).trans ((bind_ok read_meta).trans ?_))
      rw [FileTable.load, FileTable.recordAt, record]
      rfl
    | none =>
      rw [record] at read_meta
      refine ⟨next'.tick.tick.tick, ?_, shown.tick.tick.tick⟩
      refine (bind_ok searched).trans ((bind_ok read).trans ((bind_ok read_meta).trans ?_))
      rw [FileTable.load, FileTable.recordAt, record]
      rfl

/-- What `put` does to the table, when the names can be entries of a directory. -/
theorem put_eq [Serialize TemplateMeta] (shown : Shows store disk place files)
    (entry : EntryName imageType) (entry' : EntryName name) (req : TemplateCreateRequest) :
    ∃ created updated, Yields (store.put imageType name req) disk
      (let record := files.putRecord imageType name req created updated
      { imageType, name, format := .fromFilename name, mode := req.mode, content := req.content
        createdAt := record.createdAt, updatedAt := record.updatedAt })
      (Shows store · place (files.put imageType name req created updated)) := by
  obtain ⟨made, create, shown, is_dir⟩ := shown.create_type entry
  have read_meta := shown.read_meta_eq entry.toOrdinary entry'.toOrdinary
  -- the two writes, from a later state
  have written : ∀ {disk : Disk} (record : TemplateMeta), Shows store disk place files →
      disk.node? (place ++ [imageType]) = some .dir →
      ∃ between last,
        write (store.templatePath imageType name) req.content.toUTF8 disk = .ok () between ∧
        write (store.metaPath imageType name) (Serialize.toStringPretty record).toUTF8 between =
          .ok () last ∧
        Shows store last place ((files.set imageType name (some req.content)).set imageType
          (metaName name) (some (Serialize.toStringPretty record))) := by
    intro disk record shown is_dir
    obtain ⟨between, content_saved, shown, is_dir⟩ := shown.write_eq entry' is_dir req.content
    obtain ⟨last, meta_saved, shown, -⟩ :=
      shown.write_eq (meta_name_entry entry') is_dir (Serialize.toStringPretty record)
    exact ⟨between, last, content_saved, meta_saved, shown⟩
  cases record : files.record imageType name with
  | some found =>
    rw [record] at read_meta
    let updated : TemplateMeta :=
      { mode := req.mode, createdAt := found.createdAt
        updatedAt := utcTimestamp (made.clock (made.ticks + 1)) }
    have shape : files.putRecord imageType name req 0 (made.clock (made.ticks + 1)) = updated := by
      rw [FileTable.putRecord, record]
      rfl
    obtain ⟨between, last, content_saved, meta_saved, shown⟩ :=
      written updated shown.tick.tick is_dir
    refine ⟨0, made.clock (made.ticks + 1), last, ?_, ?_⟩
    · refine (bind_ok create).trans ((bind_ok read_meta).trans ?_)
      refine (bind_ok rfl).trans ((bind_ok rfl).trans ((bind_ok content_saved).trans ?_))
      refine (bind_ok meta_saved).trans ?_
      rw [shape]
      rfl
    · rw [FileTable.put, shape]
      exact shown
  | none =>
    rw [record] at read_meta
    let updated : TemplateMeta :=
      { mode := req.mode, createdAt := utcTimestamp (made.clock (made.ticks + 1))
        updatedAt := utcTimestamp (made.clock (made.ticks + 2)) }
    have shape : files.putRecord imageType name req (made.clock (made.ticks + 1))
        (made.clock (made.ticks + 2)) = updated := by
      rw [FileTable.putRecord, record]
      rfl
    obtain ⟨between, last, content_saved, meta_saved, shown⟩ :=
      written updated shown.tick.tick.tick is_dir
    refine ⟨made.clock (made.ticks + 1), made.clock (made.ticks + 2), last, ?_, ?_⟩
    · refine (bind_ok create).trans ((bind_ok read_meta).trans ?_)
      refine (bind_ok rfl).trans ((bind_ok rfl).trans ((bind_ok content_saved).trans ?_))
      refine (bind_ok meta_saved).trans ?_
      rw [shape]
      rfl
    · rw [FileTable.put, shape]
      exact shown

/-- A successful `put` had names that can be entries of a directory. -/
theorem put_entries [Serialize TemplateMeta] {disk next : Disk} {req : TemplateCreateRequest}
    {loaded : LoadedTemplate} (ordinary : Ordinary imageType) (ordinary' : Ordinary name)
    (put : store.put imageType name req disk = .ok loaded next) :
    EntryName imageType ∧ EntryName name := by
  rw [TemplateStore.put] at put
  obtain ⟨_, made, create, put⟩ := bind_eq_ok.mp put
  obtain ⟨existing, _, -, put⟩ := bind_eq_ok.mp put
  have type_clean := create_dir_all_clean create
  have name_clean : '\x00' ∉ (store.templatePath imageType name).toList := by
    cases existing with
    | some existing =>
      obtain ⟨_, _, -, put⟩ := bind_eq_ok.mp put
      obtain ⟨_, _, -, put⟩ := bind_eq_ok.mp put
      obtain ⟨_, _, saved, -⟩ := bind_eq_ok.mp put
      exact write_clean saved
    | none =>
      obtain ⟨_, _, -, put⟩ := bind_eq_ok.mp put
      obtain ⟨_, _, -, put⟩ := bind_eq_ok.mp put
      obtain ⟨_, _, saved, -⟩ := bind_eq_ok.mp put
      exact write_clean saved
  rw [mem_join ordinary.relative (by decide), not_or] at type_clean
  rw [TemplateStore.templatePath, mem_join ordinary'.relative (by decide), not_or] at name_clean
  exact ⟨⟨ordinary, type_clean.2⟩, ⟨ordinary', name_clean.2⟩⟩

/-! ### Listings -/

theorem summaries_eq (shown : Shows store disk place files) (ordinary : Ordinary imageType)
    (listing : List (String × Bool)) (ordinary' : ∀ entry ∈ listing, Ordinary entry.1) :
    Yields (store.summaries imageType listing) disk
      ((listing.filter fun entry => !Text.endsWith entry.1 ".meta.json").map fun entry =>
        files.summary imageType entry.1)
      (Shows store · place files) := by
  induction listing generalizing disk with
  | nil => exact yields_pure shown
  | cons entry rest step =>
    obtain ⟨fname, kind⟩ := entry
    have later := fun other listed => ordinary' other (List.mem_cons_of_mem _ listed)
    rw [TemplateStore.summaries]
    by_cases hidden : Text.endsWith fname ".meta.json"
    · rw [if_pos hidden, List.filter_cons_of_neg (by simp [hidden])]
      exact step shown later
    · rw [if_neg hidden, List.filter_cons_of_pos (by simpa using hidden), List.map_cons]
      have read : Yields (store.readMeta imageType fname) disk (files.record imageType fname)
          (Shows store · place files) :=
        ⟨disk.tick, shown.read_meta_eq ordinary (ordinary' _ List.mem_cons_self), shown.tick⟩
      refine read.bind fun next shown => ?_
      exact (step shown later).bind fun next shown => yields_pure shown

omit [Deserialize TemplateMeta] in
theorem record_at_mode [Deserialize TemplateMeta] (files : FileTable) (imageType name : String)
    (created updated : Nat) : (files.recordAt imageType name created updated).mode =
      (files.summary imageType name).mode := by
  rw [FileTable.recordAt, FileTable.summary]
  cases files.record imageType name with
  | none => rfl
  | some found => rfl

/-- The summaries of one type: one for each file that listings show. -/
theorem type_summaries (shown : Shows store disk place files)
    (is_dir : disk.node? (place ++ [imageType]) = some .dir) :
    ∃ listed, Yields (do
        let listing ← readDir (join store.templatesDir imageType)
        store.summaries imageType listing) disk listed (Shows store · place files) ∧
      (listed.map TemplateSummary.name).Nodup ∧
      ∀ summary, summary ∈ listed ↔
        ∃ name, files.Listed imageType name ∧ summary = files.summary imageType name := by
  obtain ⟨-, entry⟩ := shown.types imageType .dir is_dir
  obtain ⟨listing, read, distinct, lists⟩ := shown.read_type is_dir
  have ordinary' : ∀ entry ∈ listing, Ordinary entry.1 := by
    intro own listed
    exact (shown.within imageType own.1 ((lists own).mp listed).2).2.toOrdinary
  refine ⟨_, read.bind fun next shown => shown.summaries_eq entry.toOrdinary listing ordinary',
    ?_, ?_⟩
  · rw [List.map_map]
    exact distinct.sublist (List.filter_sublist.map _)
  · intro summary
    simp only [List.mem_map, List.mem_filter, lists, FileTable.Listed]
    constructor
    · rintro ⟨⟨name, kind⟩, ⟨⟨-, held⟩, plain⟩, rfl⟩
      exact ⟨name, ⟨held, by simpa using plain⟩, rfl⟩
    · rintro ⟨name, ⟨held, plain⟩, rfl⟩
      exact ⟨(name, false), ⟨⟨rfl, held⟩, by simpa using plain⟩, rfl⟩

theorem list_by_type_eq (shown : Shows store disk place files) (ordinary : Ordinary imageType) :
    ∃ listed, Yields (store.listByType imageType) disk listed (Shows store · place files) ∧
      (listed.map TemplateSummary.name).SortedLT ∧
      ∀ summary, summary ∈ listed ↔
        ∃ name, files.Listed imageType name ∧ summary = files.summary imageType name := by
  have asked := shown.exists_type ordinary
  simp only [TemplateStore.listByType]
  cases here : disk.node? (place ++ [imageType]) with
  | none =>
    rw [here] at asked
    refine ⟨[], ⟨disk.tick, (bind_ok asked).trans rfl, shown.tick⟩,
      by simp [List.sortedLT_iff_pairwise], ?_⟩
    intro summary
    have absent : ∀ name, ¬ files.Listed imageType name := by
      rintro name ⟨held, -⟩
      rw [shown.files_none (by simp [here])] at held
      cases held
    simp [absent]
  | some node =>
    rw [here] at asked
    obtain ⟨rfl, -⟩ := shown.types imageType node here
    obtain ⟨listed, ⟨last, summarized, shown⟩, distinct, lists⟩ := shown.tick.type_summaries here
    refine ⟨_, ⟨last, (bind_ok asked).trans ?_, shown⟩,
      SortedMap.sort_by_key_sorted (fun _ _ => Iff.rfl) distinct, ?_⟩
    · obtain ⟨listing, between, read, rest⟩ := bind_eq_ok.mp summarized
      exact (bind_ok read).trans (bind_ok rest)
    · intro summary
      rw [List.mem_insertionSort, lists]

theorem summaries_preserves {inv : Disk → Prop} (still : ∀ disk : Disk, inv disk → inv disk.tick)
    (store : TemplateStore) (imageType : String) (listing : List (String × Bool)) :
    Preserves inv (store.summaries imageType listing) := by
  induction listing with
  | nil => exact preserves_pure _ _
  | cons entry rest step =>
    obtain ⟨fname, kind⟩ := entry
    rw [TemplateStore.summaries]
    split
    · exact step
    · exact (read_meta_preserves still store imageType fname).bind fun found =>
        step.bind fun later => preserves_pure _ _

/-- The summaries below the directories of a listing. -/
theorem all_summaries (shown : Shows store disk place files) (listing : List (String × Bool))
    (distinct : (listing.map Prod.fst).Nodup)
    (dirs : ∀ entry ∈ listing, entry.2 = true ∧ disk.node? (place ++ [entry.1]) = some .dir) :
    ∃ listed, Yields (store.allSummaries listing) disk listed (Shows store · place files) ∧
      (listed.map fun summary => (summary.imageType, summary.name)).Nodup ∧
      ∀ summary, summary ∈ listed ↔ ∃ imageType name, imageType ∈ listing.map Prod.fst ∧
        files.Listed imageType name ∧ summary = files.summary imageType name := by
  induction listing generalizing disk with
  | nil => exact ⟨[], yields_pure shown, List.nodup_nil, by simp⟩
  | cons entry rest step =>
    obtain ⟨imageType, kind⟩ := entry
    obtain ⟨absent, distinct_rest⟩ := List.nodup_cons.mp distinct
    obtain ⟨is_true, is_dir⟩ := dirs _ List.mem_cons_self
    dsimp only at is_true is_dir absent
    subst is_true
    obtain ⟨own, summarized, own_distinct, own_lists⟩ := shown.type_summaries is_dir
    let same : Disk → Prop := fun next => next.nodes = disk.nodes
    have still : ∀ next, same next → same next.tick := fun _ => id
    have keeps : Preserves same (do
        let listing ← readDir (join store.templatesDir imageType)
        store.summaries imageType listing) :=
      (read_dir_preserves still _).bind fun listing =>
        summaries_preserves still store imageType listing
    obtain ⟨next, summarized, shown, same_nodes⟩ := summarized.preserves keeps rfl
    have dirs' : ∀ entry ∈ rest, entry.2 = true ∧ next.node? (place ++ [entry.1]) = some .dir := by
      intro entry listed
      rw [node?, same_nodes]
      exact dirs entry (List.mem_cons_of_mem _ listed)
    obtain ⟨later, ⟨last, summarized', shown⟩, later_distinct, later_lists⟩ :=
      step shown distinct_rest dirs'
    obtain ⟨listing, between, read, found⟩ := bind_eq_ok.mp summarized
    refine ⟨own ++ later, ⟨last, ?_, shown⟩, ?_, ?_⟩
    · rw [TemplateStore.allSummaries, if_pos rfl]
      exact (bind_ok read).trans ((bind_ok found).trans (bind_ok summarized'))
    · rw [List.map_append]
      refine List.nodup_append.mpr ⟨?_, later_distinct, ?_⟩
      · refine List.Nodup.of_map Prod.snd ?_
        rw [List.map_map]
        exact own_distinct
      · intro first at_own second at_later same
        obtain ⟨summary, listed, rfl⟩ := List.mem_map.mp at_own
        obtain ⟨summary', listed', rfl⟩ := List.mem_map.mp at_later
        obtain ⟨name, -, rfl⟩ := (own_lists summary).mp listed
        obtain ⟨other, name', there, -, rfl⟩ := (later_lists summary').mp listed'
        have same_type : imageType = other := congrArg Prod.fst same
        rw [same_type] at absent
        exact absent there
    · intro summary
      rw [List.mem_append, own_lists, later_lists]
      constructor
      · rintro (⟨name, held, rfl⟩ | ⟨other, name, listed, held, rfl⟩)
        · exact ⟨imageType, name, List.mem_cons_self, held, rfl⟩
        · exact ⟨other, name, List.mem_cons_of_mem _ listed, held, rfl⟩
      · rintro ⟨other, name, listed, held, rfl⟩
        rcases List.mem_cons.mp listed with rfl | listed
        · exact .inl ⟨name, held, rfl⟩
        · exact .inr ⟨other, name, listed, held, rfl⟩

/-- `list_all`: each file that listings show, once, in the order of type and name. -/
theorem list_all_eq (shown : Shows store disk place files) :
    ∃ listed, Yields store.listAll disk listed (Shows store · place files) ∧
      (listed.map fun summary => toLex (summary.imageType, summary.name)).SortedLT ∧
      ∀ summary, summary ∈ listed ↔
        ∃ imageType name, files.Listed imageType name ∧ summary = files.summary imageType name := by
  have asked : fileExists store.templatesDir disk = .ok true disk.tick := by
    rw [file_exists_eq shown.healthy, find_open shown.opens (join_ne_empty (by decide))]
    rfl
  obtain ⟨listing, read, distinct, types⟩ := shown.tick.read_types
  have kept : Preserves (fun next => next.nodes = disk.tick.nodes) (readDir store.templatesDir) :=
    read_dir_preserves (fun _ => id) _
  obtain ⟨next, read, shown', same⟩ := read.preserves kept rfl
  have dirs : ∀ entry ∈ listing, entry.2 = true ∧ next.node? (place ++ [entry.1]) = some .dir := by
    intro entry listed
    rw [node?, same]
    exact (types entry).mp listed
  obtain ⟨listed, ⟨last, summarized, shown'⟩, once, lists⟩ :=
    shown'.all_summaries listing distinct dirs
  have keyed : (listed.map fun summary => toLex (summary.imageType, summary.name)).Nodup := by
    have lexed := once.map toLex.injective
    rwa [List.map_map] at lexed
  have by_key : ∀ a b : TemplateSummary,
      (a.imageType < b.imageType ∨ (a.imageType = b.imageType ∧ a.name ≤ b.name)) ↔
        toLex (a.imageType, a.name) ≤ toLex (b.imageType, b.name) :=
    fun a b => (Prod.Lex.toLex_le_toLex (x := (a.imageType, a.name))
      (y := (b.imageType, b.name))).symm
  refine ⟨_, ⟨last, ?_, shown'⟩, SortedMap.sort_by_key_sorted by_key keyed, ?_⟩
  · rw [TemplateStore.listAll]
    exact (bind_ok asked).trans ((bind_ok read).trans (bind_ok summarized))
  · intro summary
    rw [List.mem_insertionSort, lists]
    constructor
    · rintro ⟨imageType, name, -, held, rfl⟩
      exact ⟨imageType, name, held, rfl⟩
    · rintro ⟨imageType, name, held, rfl⟩
      refine ⟨imageType, name, ?_, held, rfl⟩
      have is_dir := (shown.within imageType name held.1).1
      exact List.mem_map.mpr ⟨(imageType, true), (types _).mpr ⟨rfl, is_dir⟩, rfl⟩

theorem export_eq (shown : Shows store disk place files) (listed : List TemplateSummary)
    (contents : TemplateSummary → String)
    (held : ∀ summary ∈ listed, Ordinary summary.imageType ∧ Ordinary summary.name ∧
      files summary.imageType summary.name = some (contents summary)) :
    Yields (store.exportEntries listed) disk
      (listed.map fun summary =>
        files.bundleEntry summary.imageType summary.name (contents summary))
      (Shows store · place files) := by
  induction listed generalizing disk with
  | nil => exact yields_pure shown
  | cons summary rest step =>
    obtain ⟨ordinary, ordinary', content⟩ := held summary List.mem_cons_self
    have later := fun other listed => held other (List.mem_cons_of_mem _ listed)
    obtain ⟨created, updated, loaded⟩ := shown.get_eq ordinary ordinary'
    have present : files.get summary.imageType summary.name created updated =
        some (files.load summary.imageType summary.name (contents summary) created updated) := by
      rw [FileTable.get, FileTable.found, List.find?_cons_of_pos (by simp [content]),
        Option.bind_some, content, Option.map_some]
    rw [present] at loaded
    rw [TemplateStore.exportEntries, List.map_cons]
    refine loaded.bind fun next shown => (step shown later).bind fun next shown => ?_
    have entry : files.bundleEntry summary.imageType summary.name (contents summary) =
        { imageType := summary.imageType, name := summary.name
          format := TemplateFormat.fromFilename summary.name
          mode := (files.load summary.imageType summary.name (contents summary) created updated).mode
          content := contents summary } := by
      rw [FileTable.bundleEntry, FileTable.load, record_at_mode]
    rw [entry]
    exact yields_pure shown

/-- `backup`: an entry for each file that listings show, in their order. -/
theorem backup_eq (shown : Shows store disk place files) :
    ∃ (listed : List TemplateSummary) (bundle : TemplateBundle),
      Yields store.backup disk bundle (Shows store · place files) ∧
      (listed.map fun summary => toLex (summary.imageType, summary.name)).SortedLT ∧
      (∀ summary, summary ∈ listed ↔
        ∃ imageType name, files.Listed imageType name ∧ summary = files.summary imageType name) ∧
      bundle.templates = listed.map fun summary => files.bundleEntry summary.imageType
        summary.name ((files summary.imageType summary.name).getD "") := by
  obtain ⟨listed, ⟨next, all, shown⟩, sorted, lists⟩ := shown.list_all_eq
  have held : ∀ summary ∈ listed, Ordinary summary.imageType ∧ Ordinary summary.name ∧
      files summary.imageType summary.name =
        some ((files summary.imageType summary.name).getD "") := by
    intro summary member
    obtain ⟨imageType, name, ⟨present, -⟩, rfl⟩ := (lists summary).mp member
    obtain ⟨is_dir, entry⟩ := shown.within imageType name present
    obtain ⟨text, content⟩ := Option.isSome_iff_exists.mp present
    refine ⟨(shown.types imageType _ is_dir).2.toOrdinary, entry.toOrdinary, ?_⟩
    change files imageType name = some ((files imageType name).getD "")
    rw [content]
    rfl
  obtain ⟨last, exported, shown⟩ := shown.export_eq listed _ held
  let bundle : TemplateBundle :=
    { version := 1, exportedAt := utcTimestamp (last.clock last.ticks)
      templates := listed.map fun summary => files.bundleEntry summary.imageType summary.name
        ((files summary.imageType summary.name).getD "") }
  refine ⟨listed, bundle, ⟨last.tick, ?_, shown.tick⟩, sorted, lists, rfl⟩
  rw [TemplateStore.backup]
  exact (bind_ok all).trans ((bind_ok exported).trans rfl)

end Meta

end Shows

end CloudId
