import CloudId.TemplateMap

/-! How templates interfere. A template owns two files: the one of its name and the one
of its metadata, whose name is made from its own. Two templates meet where the name of
one is the name of the other's metadata file, and then only: there a put or a delete of
the one changes what a reader is told of the other, and no listing shows it. -/
namespace CloudId
open FileSystem Effects Disk

/-- What a reader is told of a template. -/
structure Report where
  content : String
  mode : TemplateMode
  createdAt : String
  deriving DecidableEq

def LoadedTemplate.report (loaded : LoadedTemplate) : Report where
  content := loaded.content
  mode := loaded.mode
  createdAt := loaded.createdAt

def reported : EStateM.Result FileError Disk (Option LoadedTemplate) →
    Except FileError (Option Report)
  | .ok loaded _ => .ok (loaded.map LoadedTemplate.report)
  | .error error _ => .error error

/-- The tree as an undisturbed reader finds it while the clock shows these seconds. -/
def stillAt (disk : Disk) (secs : Nat) : Disk :=
  { disk with fault := fun _ => none, clock := fun _ => secs }

/-- There is a template of exactly this name. -/
def TemplateStore.Holds (store : TemplateStore) (disk : Disk) (imageType name : String) : Prop :=
  (disk.fileAt (store.templatePath imageType name)).isSome

/-- One template's name is that of the other one's metadata file. -/
def Collide (imageType name imageType' name' : String) : Prop :=
  imageType = imageType' ∧ (name' = metaName name ∨ name = metaName name')

section Reports

variable [Deserialize TemplateMeta]

/-- What `get` reports while the clock shows these seconds. -/
def TemplateStore.report (store : TemplateStore) (disk : Disk) (secs : Nat)
    (imageType name : String) : Except FileError (Option Report) :=
  reported (store.get imageType name (stillAt disk secs))

/-- What `get` does with a file of exactly that name. -/
theorem get_held {store : TemplateStore} {disk : Disk} (healthy : disk.Healthy)
    {imageType name : String} {content : ByteArray}
    (held : disk.fileAt (store.templatePath imageType name) = some content) :
    ∃ created updated next, store.get imageType name disk =
      match String.fromUTF8? content with
      | none => .error .invalidData next
      | some text =>
        let found : TemplateMeta :=
          ((disk.readText (store.metaPath imageType name)).bind Deserialize.fromStr).getD
            { mode := default, createdAt := utcTimestamp (disk.clock created)
              updatedAt := utcTimestamp (disk.clock updated) }
        .ok (some
          { imageType, name, format := TemplateFormat.fromFilename name, mode := found.mode
            content := text, createdAt := found.createdAt, updatedAt := found.updatedAt }) next := by
  have there : fileExists (store.templatePath imageType name) disk = .ok true disk.tick := by
    obtain ⟨place, resolved, node⟩ := file_at_eq_some.mp held
    rw [file_exists_eq healthy, find_eq_ok.mpr ⟨resolved, node⟩]
    rfl
  have searched : store.firstExisting imageType
      [name, name ++ ".ign.json", name ++ ".ks", name ++ ".yaml"] disk =
        .ok (some name) disk.tick := by
    rw [TemplateStore.firstExisting]
    exact (bind_ok there).trans rfl
  have healthy_tick : disk.tick.Healthy := healthy
  have healthy_ticks : disk.tick.tick.Healthy := healthy
  have read := read_file_eq healthy_tick ((file_at_tick disk _).trans held)
  obtain ⟨result, attempted, same_text⟩ :=
    attempt_read_eq healthy_ticks (store.metaPath imageType name)
  have same_meta : disk.readText (store.metaPath imageType name) = result.toOption := by
    rw [same_text, readText, readText, file_at_tick, file_at_tick]
  have recorded : store.readMeta imageType name disk.tick.tick =
      .ok (result.toOption.bind Deserialize.fromStr : Option TemplateMeta) disk.tick.tick.tick := by
    rw [TemplateStore.readMeta]
    refine (bind_ok attempted).trans ?_
    cases result with
    | ok data => rfl
    | error error => rfl
  rw [same_meta]
  refine ⟨disk.ticks + 3, disk.ticks + 4, ?_⟩
  rw [TemplateStore.get, bind_ok searched]
  cases text : String.fromUTF8? content with
  | none =>
    rw [text] at read
    exact ⟨_, bind_error read⟩
  | some text' =>
    rw [text] at read
    dsimp only
    rw [bind_ok read, bind_ok recorded]
    cases (result.toOption.bind Deserialize.fromStr : Option TemplateMeta) with
    | some found => exact ⟨_, rfl⟩
    | none => exact ⟨_, rfl⟩

/-- A report is read off the two files of the template. -/
theorem report_eq {store : TemplateStore} {disk : Disk} {imageType name : String}
    {content : ByteArray} (held : disk.fileAt (store.templatePath imageType name) = some content)
    (secs : Nat) :
    store.report disk secs imageType name =
      match String.fromUTF8? content with
      | none => .error .invalidData
      | some text =>
        let found : TemplateMeta :=
          ((disk.readText (store.metaPath imageType name)).bind Deserialize.fromStr).getD
            { mode := default, createdAt := utcTimestamp secs, updatedAt := utcTimestamp secs }
        .ok (some { content := text, mode := found.mode, createdAt := found.createdAt }) := by
  have same : ∀ path, (stillAt disk secs).fileAt path = disk.fileAt path :=
    file_at_of_same_nodes rfl rfl
  have healthy : (stillAt disk secs).Healthy := fun _ => rfl
  obtain ⟨created, updated, next, got⟩ := get_held healthy ((same _).trans held)
  rw [readText, same] at got
  rw [TemplateStore.report, got, readText]
  cases String.fromUTF8? content with
  | none => rfl
  | some text => rfl

/-! ## Names that do not meet -/

theorem report_unmoved {store : TemplateStore} {imageType name : String}
    (ordinary : Ordinary name) {α : Type} {op : FileM α}
    (keeps : ∀ place file, file = name ∨ file = metaName name → ∀ content,
      Preserves (HasEntry (join store.templatesDir imageType) place file content) op)
    {disk : Disk} (held : store.Holds disk imageType name) (secs : Nat) :
    store.report (finalState (op disk)) secs imageType name =
      store.report disk secs imageType name := by
  obtain ⟨content, held⟩ := Option.isSome_iff_exists.mp held
  obtain ⟨found, resolved, node⟩ := file_at_eq_some.mp held
  obtain ⟨place, opens, rfl, -⟩ := opens_of_resolve_join ordinary resolved
  obtain ⟨-, own⟩ := keeps place name (.inl rfl) (some content) disk ⟨opens, held⟩
  obtain ⟨-, meta_file⟩ := keeps place (metaName name) (.inr rfl) _ disk ⟨opens, rfl⟩
  rw [report_eq held, report_eq own, readText, readText, meta_path_eq]
  have same : (finalState (op disk)).fileAt (store.templatePath imageType (metaName name)) =
      disk.fileAt (store.templatePath imageType (metaName name)) := meta_file
  rw [same]

omit [Deserialize TemplateMeta] in
/-- What `put` and `delete` write of one template is no file of another one. -/
theorem files_apart {imageType name imageType' name' : String}
    (distinct : (imageType, name) ≠ (imageType', name'))
    (clear : ¬ Collide imageType name imageType' name') {file file' : String}
    (own : file = name ∨ file = metaName name) (other : file' = name' ∨ file' = metaName name') :
    (imageType, file) ≠ (imageType', file') := by
  intro same
  obtain ⟨rfl, rfl⟩ := Prod.mk.inj same
  rcases own with rfl | rfl
  · rcases other with rfl | named
    · exact distinct rfl
    · exact clear ⟨rfl, .inr named⟩
  · rcases other with named | named
    · exact clear ⟨rfl, .inl named.symm⟩
    · rw [meta_name_inj] at named
      exact distinct (by rw [named])

/-- What the file operations of a `put` preserve, the `put` preserves. -/
theorem put_preserves_of [Serialize TemplateMeta] {inv : Disk → Prop} {store : TemplateStore}
    {imageType name : String} (still : ∀ disk : Disk, inv disk → inv disk.tick)
    (made : Preserves inv (createDirAll (join store.templatesDir imageType)))
    (written : ∀ own, own = name ∨ own = metaName name → ∀ content,
      Preserves inv (write (store.templatePath imageType own) content))
    (req : TemplateCreateRequest) : Preserves inv (store.put imageType name req) := by
  have clock : Preserves inv nowUtc :=
    (now_preserves still).bind fun secs => preserves_pure _ (utcTimestamp secs)
  have saved : ∀ createdAt, Preserves inv (do
      let updatedAt ← nowUtc
      let updated : TemplateMeta := { mode := req.mode, createdAt, updatedAt }
      write (store.templatePath imageType name) req.content.toUTF8
      write (store.metaPath imageType name) (Serialize.toStringPretty updated).toUTF8
      return {
        imageType
        name
        format := TemplateFormat.fromFilename name
        mode := req.mode
        content := req.content
        createdAt
        updatedAt } : FileM LoadedTemplate) := by
    intro createdAt
    refine clock.bind fun updatedAt => (written name (.inl rfl) _).bind fun _ => ?_
    exact (written (metaName name) (.inr rfl) _).bind fun _ => preserves_pure _ _
  refine made.bind fun _ => ?_
  refine (read_meta_preserves still store imageType name).bind fun existing => ?_
  cases existing with
  | some found => exact (preserves_pure _ found.createdAt).bind saved
  | none => exact clock.bind saved

section Frames

variable {store : TemplateStore} {imageType name imageType' file : String} {place : List String}
  {content : Option ByteArray}

omit [Deserialize TemplateMeta] in
theorem entry_tick (ordinary : Ordinary file) (disk : Disk)
    (held : HasEntry (join store.templatesDir imageType') place file content disk) :
    HasEntry (join store.templatesDir imageType') place file content disk.tick :=
  held.of_keeps ordinary (same_dirs_tick disk).keeps fun _ => Iff.rfl

theorem put_preserves [Serialize TemplateMeta] (types : Ordinary imageType ∧ Ordinary imageType')
    (names : Ordinary name ∧ Ordinary file)
    (apart : ∀ own, own = name ∨ own = metaName name → (imageType, own) ≠ (imageType', file))
    (req : TemplateCreateRequest) :
    Preserves (HasEntry (join store.templatesDir imageType') place file content)
      (store.put imageType name req) := by
  refine put_preserves_of (entry_tick names.2) (create_dir_all_preserves names.2 _) ?_ req
  intro own either content
  have ordinary : Ordinary own := by
    rcases either with rfl | rfl
    · exact names.1
    · exact meta_name_ordinary names.1
  refine write_preserves names.2 ?_ content
  intro disk opens found resolved
  exact apart_of_names types.1 types.2 ordinary (apart own either) opens resolved

omit [Deserialize TemplateMeta] in
theorem delete_preserves (types : Ordinary imageType ∧ Ordinary imageType')
    (names : Ordinary name ∧ Ordinary file)
    (apart : ∀ own, own = name ∨ own = metaName name → (imageType, own) ≠ (imageType', file)) :
    Preserves (HasEntry (join store.templatesDir imageType') place file content)
      (store.delete imageType name) := by
  have still : ∀ disk, HasEntry (join store.templatesDir imageType') place file content disk →
      HasEntry (join store.templatesDir imageType') place file content disk.tick :=
    entry_tick names.2
  have removed : ∀ own, Ordinary own → (own = name ∨ own = metaName name) →
      Preserves (HasEntry (join store.templatesDir imageType') place file content)
        (removeFile (store.templatePath imageType own)) := by
    intro own ordinary either
    refine remove_preserves names.2 ?_
    intro disk opens found resolved
    exact apart_of_names types.1 types.2 ordinary (apart own either) opens resolved
  have removed_meta := removed (metaName name) (meta_name_ordinary names.1) (.inr rfl)
  refine (file_exists_preserves still _).bind fun there => ?_
  cases there with
  | false => exact preserves_pure _ _
  | true =>
    refine (removed name names.1 (.inl rfl)).bind fun _ => ?_
    refine (file_exists_preserves still _).bind fun meta_there => ?_
    cases meta_there with
    | false => exact preserves_pure _ _
    | true => exact (attempt_preserves removed_meta).bind fun _ => preserves_pure _ _

end Frames

/-! ## What listings show -/

/-- All names in a call are single path components. -/
def StoreCall.Single : StoreCall → Prop
  | .put imageType name _ => Ordinary imageType ∧ Ordinary name
  | .delete imageType name => Ordinary imageType ∧ Ordinary name
  | .restore bundle => ∀ entry ∈ bundle.templates, Ordinary entry.imageType ∧ Ordinary entry.name

/-- The call puts this template. -/
def StoreCall.Puts (imageType name : String) : StoreCall → Prop
  | .put own_type own _ => own_type = imageType ∧ own = name
  | .delete _ _ => False
  | .restore bundle =>
    ∃ entry ∈ bundle.templates, entry.imageType = imageType ∧ entry.name = name

section Calls

variable [Serialize TemplateMeta]

/-- The tree after calls, of which each may fail. -/
def serve (store : TemplateStore) (calls : List StoreCall) (disk : Disk) : Disk :=
  calls.foldl (fun disk call => finalState (call.run store disk)) disk

/-- The volume shows a table. -/
def Stored (store : TemplateStore) (place : List String) (disk : Disk) : Prop :=
  ∃ files, Shows store disk place files

/-- The volume shows a table with this template, and listings show it. -/
def Standing (store : TemplateStore) (place : List String) (imageType name : String)
    (disk : Disk) : Prop :=
  ∃ files, Shows store disk place files ∧ files.Listed imageType name

end Calls

omit [Deserialize TemplateMeta] in
theorem set_present {files : FileTable} {imageType file text otherType other : String}
    (present : (files otherType other).isSome) :
    (files.set imageType file (some text) otherType other).isSome := by
  rw [FileTable.set]
  split
  · rfl
  · exact present

section Steps

variable {store : TemplateStore} {place : List String} {imageType name : String}

/-- A `put`, also a failing one, leaves a table with the files that there were. -/
theorem put_shows [Serialize TemplateMeta] {disk : Disk} {files : FileTable}
    (shown : Shows store disk place files) (ordinary : Ordinary imageType)
    (ordinary' : Ordinary name) (req : TemplateCreateRequest) :
    ∃ next, Shows store (finalState (store.put imageType name req disk)) place next ∧
      ∀ otherType other, (files otherType other).isSome → (next otherType other).isSome := by
  by_cases entries : EntryName imageType ∧ EntryName name
  · obtain ⟨created, updated, last, put, shown⟩ := shown.put_eq entries.1 entries.2 req
    refine ⟨_, by rw [put]; exact shown, ?_⟩
    intro otherType other present
    exact set_present (set_present present)
  · refine ⟨files, ?_, fun _ _ => id⟩
    have kept : Preserves (Shows store · place files) (store.put imageType name req) := ?_
    · exact kept disk shown
    have still : ∀ disk, Shows store disk place files → Shows store disk.tick place files :=
      fun _ => Shows.tick
    refine put_preserves_of still ?_ ?_ req
    · intro disk shown
      by_cases type_nul : '\x00' ∈ imageType.toList
      · have nul : '\x00' ∈ (join store.templatesDir imageType).toList :=
          (mem_join ordinary.relative (by decide)).mpr (.inr type_nul)
        rw [create_dir_all_nul nul]
        exact shown.tick
      · obtain ⟨next, made, shown, -⟩ := shown.create_type ⟨ordinary, type_nul⟩
        rw [made]
        exact shown
    · intro own either content disk shown
      have nul : '\x00' ∈ (store.templatePath imageType own).toList := by
        by_contra clean
        have relative : isAbsolute own = false := by
          rcases either with rfl | rfl
          · exact ordinary'.relative
          · exact (meta_name_ordinary ordinary').relative
        rw [TemplateStore.templatePath, mem_join relative (by decide),
          mem_join ordinary.relative (by decide), not_or, not_or] at clean
        have name_clean : '\x00' ∉ name.toList := by
          rcases either with rfl | rfl
          · exact clean.2
          · intro listed
            refine clean.2 ?_
            rw [metaName, String.toList_append]
            exact List.mem_append_left _ listed
        exact entries ⟨⟨ordinary, clean.1.2⟩, ⟨ordinary', name_clean⟩⟩
      obtain ⟨error, refused⟩ := write_nul nul content disk
      rw [refused]
      exact shown.tick

theorem put_leaves [Serialize TemplateMeta] {disk next : Disk} {req : TemplateCreateRequest}
    {loaded : LoadedTemplate} (stored : Stored store place disk) (ordinary : Ordinary imageType)
    (ordinary' : Ordinary name) (unmarked : Text.endsWith name ".meta.json" = false)
    (put : store.put imageType name req disk = .ok loaded next) :
    Standing store place imageType name next := by
  obtain ⟨files, shown⟩ := stored
  obtain ⟨entry, entry'⟩ := Shows.put_entries ordinary ordinary' put
  obtain ⟨created, updated, last, put', shown⟩ := shown.put_eq entry entry' req
  obtain ⟨-, rfl⟩ := EStateM.Result.ok.inj (put.symm.trans put')
  refine ⟨_, shown, set_present ?_, unmarked⟩
  rw [FileTable.set, if_pos ⟨rfl, rfl⟩]
  rfl

theorem put_stored [Serialize TemplateMeta] (ordinary : Ordinary imageType)
    (ordinary' : Ordinary name) (req : TemplateCreateRequest) :
    Preserves (Stored store place) (store.put imageType name req) := by
  rintro disk ⟨files, shown⟩
  obtain ⟨next, shown, -⟩ := put_shows shown ordinary ordinary' req
  exact ⟨next, shown⟩

theorem put_standing [Serialize TemplateMeta] {otherType other : String}
    (ordinary : Ordinary imageType) (ordinary' : Ordinary name) (req : TemplateCreateRequest) :
    Preserves (Standing store place otherType other) (store.put imageType name req) := by
  rintro disk ⟨files, shown, present, unmarked⟩
  obtain ⟨next, shown, keeps⟩ := put_shows shown ordinary ordinary' req
  exact ⟨next, shown, keeps otherType other present, unmarked⟩

omit [Deserialize TemplateMeta] in
theorem delete_standing {otherType other : String} (ordinary : Ordinary imageType)
    (ordinary' : Ordinary name) (distinct : (imageType, name) ≠ (otherType, other)) :
    Preserves (Standing store place otherType other) (store.delete imageType name) := by
  rintro disk ⟨files, shown, present, unmarked⟩
  obtain ⟨next, deleted, shown⟩ := shown.delete_eq ordinary ordinary'
  rw [deleted]
  refine ⟨_, shown, ?_, unmarked⟩
  have own : ¬ (otherType = imageType ∧ other = name) := by
    rintro ⟨rfl, rfl⟩
    exact distinct rfl
  have meta_file : ¬ (otherType = imageType ∧ other = metaName name) := by
    rintro ⟨-, marked⟩
    exact ne_meta_name unmarked name marked
  rw [FileTable.delete]
  split
  · rw [FileTable.set, if_neg meta_file, FileTable.set, if_neg own]
    exact present
  · exact present

/-- What puts preserve, a restore preserves. -/
theorem import_preserves [Serialize TemplateMeta] {inv : Disk → Prop}
    (puts : ∀ imageType name req, Ordinary imageType → Ordinary name →
      Preserves inv (store.put imageType name req)) (entries : List BundleEntry)
    (ordinary : ∀ entry ∈ entries, Ordinary entry.imageType ∧ Ordinary entry.name) :
    Preserves inv (store.importEntries entries) := by
  induction entries with
  | nil => exact preserves_pure _ _
  | cons entry rest step =>
    obtain ⟨type_ordinary, name_ordinary⟩ := ordinary entry List.mem_cons_self
    refine (puts _ _ _ type_ordinary name_ordinary).bind fun _ => ?_
    exact (step fun other listed => ordinary other (List.mem_cons_of_mem _ listed)).bind
      fun _ => preserves_pure _ _

/-- What puts and this call's deletion preserve, the call preserves. -/
theorem call_preserves [Serialize TemplateMeta] {inv : Disk → Prop}
    (puts : ∀ imageType name req, Ordinary imageType → Ordinary name →
      Preserves inv (store.put imageType name req))
    {call : StoreCall} (single : call.Single)
    (deletes : ∀ imageType name, call = .delete imageType name →
      Preserves inv (store.delete imageType name)) : Preserves inv (call.run store) := by
  cases call with
  | put imageType name req =>
    exact (puts imageType name req single.1 single.2).bind fun _ => preserves_pure _ _
  | delete imageType name =>
    exact (deletes imageType name rfl).bind fun _ => preserves_pure _ _
  | restore bundle =>
    exact (import_preserves puts bundle.templates single).bind fun _ => preserves_pure _ _

theorem call_standing [Serialize TemplateMeta] {call : StoreCall} (single : call.Single)
    (kept : call ≠ .delete imageType name) :
    Preserves (Standing store place imageType name) (call.run store) := by
  refine call_preserves (fun _ _ req ordinary ordinary' => put_standing ordinary ordinary' req)
    single ?_
  rintro otherType other rfl
  refine delete_standing single.1 single.2 ?_
  intro same
  obtain ⟨rfl, rfl⟩ := Prod.mk.inj same
  exact kept rfl

theorem import_leaves [Serialize TemplateMeta] (unmarked : Text.endsWith name ".meta.json" = false)
    (entries : List BundleEntry) {disk next : Disk} {count : Nat}
    (ordinary : ∀ entry ∈ entries, Ordinary entry.imageType ∧ Ordinary entry.name)
    (stored : Stored store place disk)
    (listed : ∃ entry ∈ entries, entry.imageType = imageType ∧ entry.name = name)
    (imported : store.importEntries entries disk = .ok count next) :
    Standing store place imageType name next := by
  induction entries generalizing disk count with
  | nil =>
    obtain ⟨entry, nowhere, -⟩ := listed
    cases nowhere
  | cons entry rest step =>
    obtain ⟨type_ordinary, name_ordinary⟩ := ordinary entry List.mem_cons_self
    have ordinary_rest := fun other listed => ordinary other (List.mem_cons_of_mem _ listed)
    rw [TemplateStore.importEntries] at imported
    obtain ⟨loaded, between, put, imported⟩ := bind_eq_ok.mp imported
    obtain ⟨later, last, imported, returned⟩ := bind_eq_ok.mp imported
    cases returned
    by_cases here : entry.imageType = imageType ∧ entry.name = name
    · obtain ⟨rfl, rfl⟩ := here
      have standing := put_leaves stored type_ordinary name_ordinary unmarked put
      have kept := import_preserves (fun _ _ req ordinary ordinary' =>
        put_standing ordinary ordinary' req) rest ordinary_rest between standing
      rw [imported] at kept
      exact kept
    · have between_stored := put_stored type_ordinary name_ordinary
        { mode := entry.mode, content := entry.content } disk stored
      rw [put] at between_stored
      refine step ordinary_rest between_stored ?_ imported
      obtain ⟨own, member, same⟩ := listed
      rcases List.mem_cons.mp member with rfl | later
      · exact absurd same here
      · exact ⟨own, later, same⟩

/-- A call that puts a template leaves it there. -/
theorem call_leaves [Serialize TemplateMeta] (unmarked : Text.endsWith name ".meta.json" = false)
    {call : StoreCall} (single : call.Single) (puts : call.Puts imageType name) {disk next : Disk}
    {reply : StoreReply} (stored : Stored store place disk)
    (ran : call.run store disk = .ok reply next) : Standing store place imageType name next := by
  cases call with
  | put own_type own req =>
    obtain ⟨rfl, rfl⟩ := puts
    obtain ⟨loaded, between, put, returned⟩ := bind_eq_ok.mp ran
    cases returned
    exact put_leaves stored single.1 single.2 unmarked put
  | delete own_type own => exact puts.elim
  | restore bundle =>
    obtain ⟨count, between, imported, returned⟩ := bind_eq_ok.mp ran
    cases returned
    exact import_leaves unmarked bundle.templates single stored puts imported

/-- It stays there until it is deleted. -/
theorem serve_standing [Serialize TemplateMeta] (calls : List StoreCall)
    (single : ∀ call ∈ calls, call.Single) (kept : .delete imageType name ∉ calls) {disk : Disk}
    (standing : Standing store place imageType name disk) :
    Standing store place imageType name (serve store calls disk) := by
  induction calls generalizing disk with
  | nil => exact standing
  | cons call rest step =>
    rw [List.mem_cons, not_or] at kept
    refine step (fun other later => single other (List.mem_cons_of_mem _ later)) kept.2 ?_
    exact call_standing (single call List.mem_cons_self) (Ne.symm kept.1) disk standing

/-- `list_all` and `backup` show a template. -/
def TemplateStore.Shown (store : TemplateStore) (disk : Disk) (imageType name : String) : Prop :=
  (∃ listed next, store.listAll disk = .ok listed next ∧
    ∃ summary ∈ listed, summary.imageType = imageType ∧ summary.name = name) ∧
  ∃ bundle next, store.backup disk = .ok bundle next ∧
    ∃ entry ∈ bundle.templates, entry.imageType = imageType ∧ entry.name = name

theorem shown_of_standing {disk : Disk} (standing : Standing store place imageType name disk) :
    store.Shown disk imageType name := by
  obtain ⟨files, shown, listed⟩ := standing
  constructor
  · obtain ⟨all, ⟨next, found, -⟩, -, members⟩ := shown.list_all_eq
    exact ⟨all, next, found, _, (members _).mpr ⟨imageType, name, listed, rfl⟩, rfl, rfl⟩
  · obtain ⟨all, bundle, ⟨next, found, -⟩, -, members, entries⟩ := shown.backup_eq
    refine ⟨bundle, next, found, files.bundleEntry imageType name ((files imageType name).getD ""),
      ?_, rfl, rfl⟩
    rw [entries]
    exact List.mem_map.mpr
      ⟨files.summary imageType name, (members _).mpr ⟨imageType, name, listed, rfl⟩, rfl⟩

end Steps

/-! ## The exact condition -/

section Exact

variable [Serialize TemplateMeta] {store : TemplateStore} {imageType name imageType' name' : String}

/-- A successful put or delete of the one template leaves what a reader is told of the
other one, if that is there. -/
def KeepsOther (store : TemplateStore) (imageType name imageType' name' : String) : Prop :=
  ∀ disk secs, store.Holds disk imageType' name' →
    (∀ req loaded next, store.put imageType name req disk = .ok loaded next →
      store.report next secs imageType' name' = store.report disk secs imageType' name') ∧
    ∀ existed next, store.delete imageType name disk = .ok existed next →
      store.report next secs imageType' name' = store.report disk secs imageType' name'

/-- A template that was put and not deleted since is listed. -/
def AlwaysShown (store : TemplateStore) (imageType name : String) : Prop :=
  ∀ (place : List String) (disk next : Disk) (call : StoreCall) (reply : StoreReply),
    Stored store place disk → call.Single → call.Puts imageType name →
    call.run store disk = .ok reply next → ∀ later : List StoreCall, (∀ call ∈ later, call.Single) → .delete imageType name ∉ later →
      store.Shown (serve store later next) imageType name

theorem keeps_other (types : Ordinary imageType ∧ Ordinary imageType')
    (names : Ordinary name ∧ Ordinary name')
    (distinct : (imageType, name) ≠ (imageType', name'))
    (clear : ¬ Collide imageType name imageType' name') :
    KeepsOther store imageType name imageType' name' := by
  intro disk secs held
  have ordinary : ∀ file, file = name' ∨ file = metaName name' → Ordinary file := by
    rintro file (rfl | rfl)
    · exact names.2
    · exact meta_name_ordinary names.2
  constructor
  · intro req loaded next put
    have kept := report_unmoved names.2 (fun place file other content =>
      put_preserves types ⟨names.1, ordinary file other⟩
        (fun own either => files_apart distinct clear either other) req) held secs
    rw [put] at kept
    exact kept
  · intro existed next deleted
    have kept := report_unmoved names.2 (fun place file other content =>
      delete_preserves types ⟨names.1, ordinary file other⟩
        fun own either => files_apart distinct clear either other) held secs
    rw [deleted] at kept
    exact kept

omit [Serialize TemplateMeta] in
/-- The report of a file of the table. -/
theorem report_shown {disk : Disk} {place : List String} {files : FileTable} {text : String}
    (shown : Shows store disk place files) (ordinary : Ordinary imageType)
    (ordinary' : Ordinary name) (held : files imageType name = some text) (secs : Nat) :
    store.report disk secs imageType name =
      .ok (some
        { content := text
          mode := (files.recordAt imageType name secs secs).mode
          createdAt := (files.recordAt imageType name secs secs).createdAt }) := by
  have content : disk.fileAt (store.templatePath imageType name) = some text.toUTF8 := by
    rw [fileAt, shown.find_some held]
  rw [report_eq content, from_utf8_to_utf8, meta_path_eq,
    shown.read_text ordinary (meta_name_ordinary ordinary')]
  rfl

omit [Serialize TemplateMeta] [Deserialize TemplateMeta] in
theorem holds_shown {disk : Disk} {place : List String} {files : FileTable} {text : String}
    (shown : Shows store disk place files) (held : files imageType name = some text) :
    store.Holds disk imageType name := by
  rw [TemplateStore.Holds, fileAt, shown.find_some held]
  rfl

theorem put_own (files : FileTable) (imageType name : String) (req : TemplateCreateRequest)
    (created updated : Nat) :
    files.put imageType name req created updated imageType name = some req.content := by
  rw [FileTable.put, FileTable.set, if_neg fun same => meta_name_ne name same.2.symm, FileTable.set,
    if_pos ⟨rfl, rfl⟩]

theorem put_own_meta (files : FileTable) (imageType name : String) (req : TemplateCreateRequest)
    (created updated : Nat) :
    files.put imageType name req created updated imageType (metaName name) =
      some (Serialize.toStringPretty (files.putRecord imageType name req created updated)) := by
  rw [FileTable.put, FileTable.set, if_pos ⟨rfl, rfl⟩]

theorem put_other (imageType : String) (files : FileTable) {file : String} (req : TemplateCreateRequest)
    (created updated : Nat) (own : file ≠ name) (own_meta : file ≠ metaName name) :
    files.put imageType name req created updated imageType file = files imageType file := by
  rw [FileTable.put, FileTable.set, if_neg fun same => own_meta same.2, FileTable.set,
    if_neg fun same => own same.2]

variable {disk : Disk} {place : List String}

/-- The template of a metadata file's name gets another content with each put. -/
theorem meta_file_overwritten (codec : ReadsBack) (stored : Stored store place disk)
    (type_entry : EntryName imageType) (entry : EntryName name) :
    ¬ KeepsOther store imageType name imageType (metaName name) := by
  intro keeps
  obtain ⟨before, shown⟩ := stored
  obtain ⟨_, _, start, -, shown⟩ :=
    shown.put_eq type_entry (meta_name_entry entry) { content := "" }
  obtain ⟨files, shown⟩ : Stored store place start := ⟨_, shown⟩
  obtain ⟨created, updated, first, -, shown⟩ :=
    shown.put_eq type_entry entry { mode := .oneshot, content := "" }
  have held := put_own_meta files imageType name { mode := .oneshot, content := "" } created updated
  obtain ⟨created', updated', second, put, shown'⟩ :=
    shown.put_eq type_entry entry { mode := .forever, content := "" }
  have held' := put_own_meta (files.put imageType name { mode := .oneshot, content := "" } created
    updated) imageType name { mode := .forever, content := "" } created' updated'
  have same := (keeps first 0 (holds_shown shown held)).1 _ _ _ put
  have ordinary := type_entry.toOrdinary
  have ordinary' := meta_name_ordinary entry.toOrdinary
  rw [report_shown shown ordinary ordinary' held, report_shown shown' ordinary ordinary' held'] at same
  have texts := congrArg Report.content (Option.some.inj (Except.ok.inj same))
  have records := congrArg (Deserialize.fromStr (α := TemplateMeta)) texts
  rw [codec, codec] at records
  have modes := congrArg TemplateMeta.mode (Option.some.inj records)
  cases modes

/-- A put of a metadata file's name is a change of the other template's mode. -/
theorem mode_overwritten (codec : ReadsBack) (stored : Stored store place disk)
    (type_entry : EntryName imageType) (entry : EntryName name) :
    ¬ KeepsOther store imageType (metaName name) imageType name := by
  intro keeps
  obtain ⟨files, shown⟩ := stored
  obtain ⟨created, updated, first, -, shown⟩ :=
    shown.put_eq type_entry entry { mode := .oneshot, content := "" }
  let record : TemplateMeta := { mode := .forever, createdAt := "", updatedAt := "" }
  obtain ⟨created', updated', second, put, shown'⟩ :=
    shown.put_eq type_entry (meta_name_entry entry) { content := Serialize.toStringPretty record }
  have held := put_own files imageType name { mode := .oneshot, content := "" } created updated
  have same := (keeps first 0 (holds_shown shown held)).1 _ _ _ put
  have differs : name ≠ metaName (metaName name) := by
    intro marked
    have lengths := congrArg String.length marked
    rw [metaName, metaName, String.length_append, String.length_append] at lengths
    have some_ : 0 < ".meta.json".length := by decide
    omega
  have held' := put_other imageType (files.put imageType name { mode := .oneshot, content := "" }
    created updated) { content := Serialize.toStringPretty record } created' updated'
    (meta_name_ne name).symm differs
  rw [held] at held'
  have ordinary := type_entry.toOrdinary
  rw [report_shown shown ordinary entry.toOrdinary held,
    report_shown shown' ordinary entry.toOrdinary held'] at same
  have modes := congrArg Report.mode (Option.some.inj (Except.ok.inj same))
  simp only [FileTable.recordAt, FileTable.record, put_own, put_own_meta, Option.bind_some] at modes
  rw [codec, codec] at modes
  cases modes

/-- What is put under a metadata file's name is not listed. -/
theorem marked_not_shown (stored : Stored store place disk) (type_entry : EntryName imageType)
    (entry : EntryName name) (marked : Text.endsWith name ".meta.json" = true) :
    ¬ AlwaysShown store imageType name := by
  intro always
  obtain ⟨files, shown⟩ := stored
  obtain ⟨created, updated, next, put, shown'⟩ := shown.put_eq type_entry entry { content := "" }
  let call : StoreCall := .put imageType name { content := "" }
  obtain ⟨reply, ran⟩ : ∃ reply, call.run store disk = .ok reply next :=
    ⟨_, (bind_ok put).trans rfl⟩
  have single : call.Single := ⟨type_entry.toOrdinary, entry.toOrdinary⟩
  have puts : call.Puts imageType name := ⟨rfl, rfl⟩
  obtain ⟨⟨listed, last, found, summary, member, same_type, same_name⟩, -⟩ :=
    always place disk next call reply ⟨files, shown⟩ single puts ran [] (by simp) List.not_mem_nil
  obtain ⟨all, ⟨last', found', -⟩, -, members⟩ := shown'.list_all_eq
  obtain ⟨rfl, -⟩ := EStateM.Result.ok.inj (found.symm.trans found')
  obtain ⟨otherType, other, ⟨-, unmarked⟩, rfl⟩ := (members summary).mp member
  have same_name : other = name := same_name
  rw [same_name, marked] at unmarked
  cases unmarked

/-- **Templates interfere through the names of metadata files, and only so.** -/
theorem no_interference_iff (codec : ReadsBack) (empty : EmptyStore store disk place)
    (types : EntryName imageType ∧ EntryName imageType') (names : EntryName name ∧ EntryName name')
    (distinct : (imageType, name) ≠ (imageType', name')) :
    (KeepsOther store imageType name imageType' name' ↔
      ¬ Collide imageType name imageType' name') ∧
    (AlwaysShown store imageType name ↔ Text.endsWith name ".meta.json" = false) := by
  have stored : Stored store place disk := ⟨_, (empty_keeping empty).shown⟩
  constructor
  · constructor
    · rintro keeps ⟨rfl, rfl | rfl⟩
      · exact meta_file_overwritten codec stored types.1 names.1 keeps
      · exact mode_overwritten codec stored types.1 names.2 keeps
    · exact keeps_other ⟨types.1.toOrdinary, types.2.toOrdinary⟩
        ⟨names.1.toOrdinary, names.2.toOrdinary⟩ distinct
  · constructor
    · intro always
      by_contra marked
      rw [Bool.not_eq_false] at marked
      exact marked_not_shown stored types.1 names.1 marked always
    · intro unmarked place disk next call reply stored single puts ran later later_single kept
      exact shown_of_standing (serve_standing later later_single kept
        (call_leaves unmarked single puts stored ran))

end Exact

end Reports

section Sample

attribute [local instance] templateMetaText templateMetaParser

theorem no_interference_iff_sample :
    (KeepsOther { dataDir := "/data" } "fcos" "base" "fcos" "other" ↔
      ¬ Collide "fcos" "base" "fcos" "other") ∧
    (AlwaysShown { dataDir := "/data" } "fcos" "base" ↔
      Text.endsWith "base" ".meta.json" = false) :=
  no_interference_iff template_meta_reads_back empty_volume_empty ⟨by decide, by decide⟩
    ⟨by decide, by decide⟩ (by decide)

/-- The volume after a oneshot template was put, and after another one was put under the
name of its metadata file. -/
def oneshotPut : Disk :=
  finalState (TemplateStore.put { dataDir := "/data" } "fcos" "base"
    { mode := .oneshot, content := "wipe" } emptyVolume)

def metadataPut : Disk :=
  finalState (TemplateStore.put { dataDir := "/data" } "fcos" "base.meta.json"
    { content := "x" } oneshotPut)

/-- The first template is served on every boot then. -/
theorem metadata_name_interferes :
    ¬ ∀ (store : TemplateStore) (imageType name imageType' name' : String),
      EntryName imageType ∧ EntryName imageType' → EntryName name ∧ EntryName name' →
        (imageType, name) ≠ (imageType', name') →
          KeepsOther store imageType name imageType' name' ∧ AlwaysShown store imageType name := by
  intro claimed
  let store : TemplateStore := { dataDir := "/data" }
  obtain ⟨keeps, -⟩ := claimed store "fcos" "base.meta.json" "fcos" "base" ⟨by decide, by decide⟩
    ⟨by decide, by decide⟩ (by decide)
  have held : store.Holds oneshotPut "fcos" "base" := by
    rw [TemplateStore.Holds]
    decide +kernel
  have saved : Effects.isOk
      (TemplateStore.put store "fcos" "base.meta.json" { content := "x" } oneshotPut) = true := by
    decide +kernel
  have before : store.report oneshotPut 0 "fcos" "base" = .ok (some
      { content := "wipe", mode := .oneshot, createdAt := "1970-01-01T00:00:00Z" }) := by
    decide +kernel
  have after : store.report metadataPut 0 "fcos" "base" = .ok (some
      { content := "wipe", mode := .forever, createdAt := "1970-01-01T00:00:00Z" }) := by
    decide +kernel
  cases put : TemplateStore.put store "fcos" "base.meta.json" { content := "x" } oneshotPut with
  | error error next =>
    rw [put] at saved
    cases saved
  | ok loaded next =>
    have same := (keeps oneshotPut 0 held).1 _ _ _ put
    have reached : next = metadataPut := by
      rw [metadataPut, put]
      rfl
    rw [reached, after, before] at same
    cases same

end Sample

end CloudId
