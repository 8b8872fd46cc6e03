import CloudId.TemplatePrograms

/-! Requests for one template that take turns on the volume, one file command at a time.
A put writes the content and then the metadata, a get reads the one and then the other,
and nothing keeps other requests from coming in between. -/
namespace CloudId
open FileSystem Effects Disk

/-- A request for the template. -/
inductive TemplateRequest where
  | put (req : TemplateCreateRequest)
  | get
  deriving DecidableEq

/-- Requests at some points of their programs, and the volume that they share, with a
record of which request wrote each of the two files last, and of which one had written the
content that a request has read. -/
structure Turns where
  disk : Disk
  programs : List (Program (Option LoadedTemplate))
  contentBy : Option Nat := none
  modeBy : Option Nat := none
  readFrom : Nat → Option Nat := fun _ => none

def Command.writes (path : String) : Command → Bool
  | .write own _ => own = path
  | _ => false

def Command.reads (path : String) : Command → Bool
  | .readToString own => own = path
  | _ => false

section Requests

variable [Serialize TemplateMeta] [Deserialize TemplateMeta]

omit [Serialize TemplateMeta] [Deserialize TemplateMeta] in
def answering (program : Program LoadedTemplate) : Program (Option LoadedTemplate) := do
  return some (← program)

def TemplateRequest.program (store : TemplateStore) (imageType name : String) :
    TemplateRequest → Program (Option LoadedTemplate)
  | put req => answering (store.putProgram imageType name req)
  | get => store.getProgram imageType name

namespace Turns

/-- The requests before their first commands. -/
def start (store : TemplateStore) (imageType name : String) (requests : List TemplateRequest)
    (disk : Disk) : Turns where
  disk
  programs := requests.map (TemplateRequest.program store imageType name)

omit [Serialize TemplateMeta] [Deserialize TemplateMeta] in
/-- The next command of a request; a request that is over lets its turn pass. -/
def turn (store : TemplateStore) (imageType name : String) (turns : Turns) (index : Nat) : Turns :=
  match turns.programs[index]? with
  | some (.step command next) =>
    { disk := finalState (command.run turns.disk)
      programs := turns.programs.set index (next (answer (command.run turns.disk)))
      contentBy := if Command.writes (store.templatePath imageType name) command then some index
        else turns.contentBy
      modeBy := if Command.writes (store.metaPath imageType name) command then some index
        else turns.modeBy
      readFrom := if Command.reads (store.templatePath imageType name) command then
          Function.update turns.readFrom index turns.contentBy
        else turns.readFrom }
  | _ => turns

/-- The command whose turn it is. -/
def due (turns : Turns) (index : Nat) : Option Command :=
  match turns.programs[index]? with
  | some (.step command _) => some command
  | _ => none

end Turns

/-! ## The points of the programs -/

/-- Where a request is. -/
inductive Stage where
  | putStart (req : TemplateCreateRequest)
  | putRead (req : TemplateCreateRequest)
  | putStamp (req : TemplateCreateRequest)
  | putSave (req : TemplateCreateRequest) (createdAt : String)
  | putContent (req : TemplateCreateRequest) (record : TemplateMeta)
  | putMetadata (req : TemplateCreateRequest) (record : TemplateMeta)
  | getFrom (candidate : String) (rest : List String)
  | getLoad (resolved : String)
  | getMetadata (resolved content : String)
  | getStamp (resolved content : String)
  | getStamped (resolved content createdAt : String)
  | ended (result : Except FileError (Option LoadedTemplate))

/-- What a put answers. -/
def stored (imageType name : String) (req : TemplateCreateRequest) (record : TemplateMeta) :
    LoadedTemplate where
  imageType
  name
  format := TemplateFormat.fromFilename name
  mode := req.mode
  content := req.content
  createdAt := record.createdAt
  updatedAt := record.updatedAt

/-- What a get answers. -/
def loaded (imageType resolved content : String) (found : TemplateMeta) : LoadedTemplate where
  imageType
  name := resolved
  format := TemplateFormat.fromFilename resolved
  mode := found.mode
  content
  createdAt := found.createdAt
  updatedAt := found.updatedAt

/-- What is left of the program there. -/
def Stage.program (store : TemplateStore) (imageType name : String) :
    Stage → Program (Option LoadedTemplate)
  | putStart req => TemplateRequest.program store imageType name (.put req)
  | putRead req => answering do
    let createdAt ← match ← store.readMetaProgram imageType name with
      | some existing => pure existing.createdAt
      | none => nowUtcProgram
    store.saveProgram imageType name req createdAt
  | putStamp req => answering do
    let createdAt ← nowUtcProgram
    store.saveProgram imageType name req createdAt
  | putSave req createdAt => answering (store.saveProgram imageType name req createdAt)
  | putContent req record => answering do
    Program.write (store.templatePath imageType name) req.content.toUTF8
    Program.write (store.metaPath imageType name) (Serialize.toStringPretty record).toUTF8
    return stored imageType name req record
  | putMetadata req record => answering do
    Program.write (store.metaPath imageType name) (Serialize.toStringPretty record).toUTF8
    return stored imageType name req record
  | getFrom candidate rest => do
    match ← store.firstExistingProgram imageType (candidate :: rest) with
    | none => return none
    | some resolved => store.loadProgram imageType resolved
  | getLoad resolved => store.loadProgram imageType resolved
  | getMetadata resolved content => do
    let found ← match ← store.readMetaProgram imageType resolved with
      | some found => pure found
      | none =>
        pure { mode := default, createdAt := ← nowUtcProgram, updatedAt := ← nowUtcProgram : TemplateMeta }
    return some (loaded imageType resolved content found)
  | getStamp resolved content => do
    let found ←
      pure { mode := default, createdAt := ← nowUtcProgram, updatedAt := ← nowUtcProgram : TemplateMeta }
    return some (loaded imageType resolved content found)
  | getStamped resolved content createdAt => do
    let found ← pure { mode := default, createdAt, updatedAt := ← nowUtcProgram : TemplateMeta }
    return some (loaded imageType resolved content found)
  | ended result => .done result

/-- The stage in which a request starts. -/
def TemplateRequest.stage (name : String) : TemplateRequest → Stage
  | put req => .putStart req
  | get => .getFrom name [name ++ ".ign.json", name ++ ".ks", name ++ ".yaml"]

theorem stage_starts (store : TemplateStore) (imageType name : String) (request : TemplateRequest) :
    (request.stage name).program store imageType name = request.program store imageType name := by
  cases request with
  | put req => rfl
  | get => rfl

/-- One command of a request, over the table of files. -/
inductive Advance (imageType name : String) : Stage → FileTable → Stage → FileTable → Prop where
  | made (req : TemplateCreateRequest) (files : FileTable) :
      Advance imageType name (.putStart req) files (.putRead req) files
  | recalled {req : TemplateCreateRequest} {files : FileTable} {found : TemplateMeta} :
      Advance imageType name (.putRead req) files (.putSave req found.createdAt) files
  | unknown {req : TemplateCreateRequest} {files : FileTable} :
      Advance imageType name (.putRead req) files (.putStamp req) files
  | stamped {req : TemplateCreateRequest} {files : FileTable} (createdAt : String) :
      Advance imageType name (.putStamp req) files (.putSave req createdAt) files
  | dated {req : TemplateCreateRequest} {files : FileTable} {createdAt : String}
      (updatedAt : String) : Advance imageType name (.putSave req createdAt) files
        (.putContent req { mode := req.mode, createdAt, updatedAt }) files
  | content {req : TemplateCreateRequest} {record : TemplateMeta} {files : FileTable} :
      Advance imageType name (.putContent req record) files (.putMetadata req record)
        (files.set imageType name (some req.content))
  | metadata {req : TemplateCreateRequest} {record : TemplateMeta} {files : FileTable} :
      Advance imageType name (.putMetadata req record) files
        (.ended (.ok (some (stored imageType name req record))))
        (files.set imageType (metaName name) (some (Serialize.toStringPretty record)))
  | found {candidate : String} {rest : List String} {files : FileTable}
      (there : (files imageType candidate).isSome) :
      Advance imageType name (.getFrom candidate rest) files (.getLoad candidate) files
  | next {candidate later : String} {rest : List String} {files : FileTable}
      (absent : files imageType candidate = none) :
      Advance imageType name (.getFrom candidate (later :: rest)) files (.getFrom later rest) files
  | missing {candidate : String} {files : FileTable} (absent : files imageType candidate = none) :
      Advance imageType name (.getFrom candidate []) files (.ended (.ok none)) files
  | read {resolved content : String} {files : FileTable}
      (held : files imageType resolved = some content) :
      Advance imageType name (.getLoad resolved) files (.getMetadata resolved content) files
  | described {resolved content : String} {files : FileTable} {record : TemplateMeta}
      (held : files.record imageType resolved = some record) :
      Advance imageType name (.getMetadata resolved content) files
        (.ended (.ok (some (loaded imageType resolved content record)))) files
  | undescribed {resolved content : String} {files : FileTable}
      (absent : files.record imageType resolved = none) :
      Advance imageType name (.getMetadata resolved content) files (.getStamp resolved content) files
  | created {resolved content : String} {files : FileTable} (createdAt : String) :
      Advance imageType name (.getStamp resolved content) files
        (.getStamped resolved content createdAt) files
  | updated {resolved content createdAt : String} {files : FileTable} (updatedAt : String) :
      Advance imageType name (.getStamped resolved content createdAt) files
        (.ended (.ok (some (loaded imageType resolved content
          { mode := default, createdAt, updatedAt })))) files

/-! ### A command is an advance -/

def Stage.writesContent : Stage → Bool
  | putContent _ _ => true
  | _ => false

def Stage.writesMetadata : Stage → Bool
  | putMetadata _ _ => true
  | _ => false

/-- A put that has made the type's directory. -/
def Stage.Begun : Stage → Prop
  | putRead _ => True
  | putStamp _ => True
  | putSave _ _ => True
  | putContent _ _ => True
  | putMetadata _ _ => True
  | _ => False

/-- What a stage relies on. -/
def Stage.Ready (imageType : String) (files : FileTable) : Stage → Prop
  | getFrom candidate rest => ∀ own ∈ candidate :: rest, Ordinary own
  | getLoad resolved => Ordinary resolved ∧ (files imageType resolved).isSome
  | getMetadata resolved _ => Ordinary resolved
  | _ => True

/-- The command of a stage, and the stage that it leads to. -/
structure Advances (store : TemplateStore) (imageType name : String) (place : List String)
    (disk : Disk) (files : FileTable) (stage : Stage) (command : Command)
    (next : Except FileError command.Reply → Program (Option LoadedTemplate)) (later : Stage)
    (laterFiles : FileTable) : Prop where
  step : stage.program store imageType name = .step command next
  advance : Advance imageType name stage files later laterFiles
  program : next (answer (command.run disk)) = later.program store imageType name
  shown : Shows store (finalState (command.run disk)) place laterFiles
  directory : later.Begun ∨ disk.node? (place ++ [imageType]) = some .dir →
    (finalState (command.run disk)).node? (place ++ [imageType]) = some .dir
  content : Command.writes (store.templatePath imageType name) command = stage.writesContent
  metadata : Command.writes (store.metaPath imageType name) command = stage.writesMetadata
  reads : stage = .getLoad name → Command.reads (store.templatePath imageType name) command = true
  describes : ∀ text, stage = .getMetadata name text →
    Command.reads (store.metaPath imageType name) command = true

omit [Serialize TemplateMeta] [Deserialize TemplateMeta] in
theorem join_inj {base first second : String} (relative : isAbsolute first = false)
    (relative' : isAbsolute second = false) (same : join base first = join base second) :
    first = second := by
  have cancel : ∀ front : String, front ++ first = front ++ second → first = second := by
    intro front same
    rw [← String.toList_inj, String.toList_append, String.toList_append] at same
    exact String.toList_inj.mp (List.append_cancel_left same)
  rw [join, join, relative, relative', if_neg Bool.false_ne_true, if_neg Bool.false_ne_true] at same
  split at same
  · exact cancel _ same
  · exact cancel _ same

section Commands

variable {store : TemplateStore} {imageType name : String} {place : List String} {disk : Disk}
  {files : FileTable}

omit [Serialize TemplateMeta] [Deserialize TemplateMeta] in
theorem paths_differ (ordinary : Ordinary name) :
    store.metaPath imageType name ≠ store.templatePath imageType name := by
  intro same
  exact meta_name_ne name (join_inj (meta_name_ordinary ordinary).relative ordinary.relative same)

/-- A command that only reads leads on in an unchanged tree. -/
theorem advances_reading (shown : Shows store disk place files) {stage later : Stage}
    {command : Command} {next : Except FileError command.Reply → Program (Option LoadedTemplate)}
    (step : stage.program store imageType name = .step command next)
    (advance : Advance imageType name stage files later files)
    (begun : later.Begun → disk.node? (place ++ [imageType]) = some .dir)
    (still : finalState (command.run disk) = disk.tick)
    (program : next (answer (command.run disk)) = later.program store imageType name)
    (content : Command.writes (store.templatePath imageType name) command = stage.writesContent)
    (metadata : Command.writes (store.metaPath imageType name) command = stage.writesMetadata)
    (reads : stage = .getLoad name → Command.reads (store.templatePath imageType name) command = true)
    (describes : ∀ text, stage = .getMetadata name text →
      Command.reads (store.metaPath imageType name) command = true) :
    Advances store imageType name place disk files stage command next later files where
  step := step
  advance := advance
  program := program
  shown := by
    rw [still]
    exact shown.tick
  directory := by
    rw [still]
    exact fun either => either.elim begun id
  content := content
  metadata := metadata
  reads := reads
  describes := describes

theorem clock_advances (shown : Shows store disk place files) {stage later : Stage}
    {next : Except FileError Nat → Program (Option LoadedTemplate)}
    (step : stage.program store imageType name = .step .now next)
    (advance : Advance imageType name stage files later files)
    (begun : later.Begun → disk.node? (place ++ [imageType]) = some .dir)
    (program : next (.ok (disk.clock disk.ticks)) = later.program store imageType name)
    (content : stage.writesContent = false) (metadata : stage.writesMetadata = false)
    (no_load : stage ≠ .getLoad name) (no_meta : ∀ text, stage ≠ .getMetadata name text) :
    Advances store imageType name place disk files stage .now next later files :=
  advances_reading shown step advance begun rfl program content.symm metadata.symm
    (fun same => absurd same no_load) fun text same => absurd same (no_meta text)

omit [Serialize TemplateMeta] [Deserialize TemplateMeta] in
theorem read_answer (shown : Shows store disk place files) {file : String}
    (ordinary : Ordinary imageType) (ordinary' : Ordinary file) :
    (answer ((Command.readToString (store.templatePath imageType file)).run disk)).toOption =
      files imageType file ∧
    finalState ((Command.readToString (store.templatePath imageType file)).run disk) = disk.tick := by
  have held := shown.read_text ordinary ordinary'
  rcases read_to_string_eq shown.healthy (store.templatePath imageType file) with
    ⟨text, same, read⟩ | ⟨error, absent, read⟩
  · rw [Command.run, read, ← held, same]
    exact ⟨rfl, rfl⟩
  · rw [Command.run, read, ← held, absent]
    exact ⟨rfl, rfl⟩

omit [Serialize TemplateMeta] [Deserialize TemplateMeta] in
theorem exists_answer (shown : Shows store disk place files) {file : String}
    (ordinary : Ordinary imageType) (ordinary' : Ordinary file) :
    answer ((Command.fileExists (store.templatePath imageType file)).run disk) =
      .ok (files imageType file).isSome ∧
    finalState ((Command.fileExists (store.templatePath imageType file)).run disk) = disk.tick := by
  obtain ⟨last, asked, -⟩ := shown.exists_eq ordinary ordinary'
  have ticked := file_exists_eq shown.healthy (store.templatePath imageType file)
  rw [asked] at ticked
  rw [Command.run, asked]
  exact ⟨rfl, (EStateM.Result.ok.inj ticked).2⟩

/-- A put that has asked for the metadata. -/
def putWith (req : TemplateCreateRequest) : Option TemplateMeta → Stage
  | some existing => .putSave req existing.createdAt
  | none => .putStamp req

theorem put_read_step (store : TemplateStore) (imageType name : String)
    (req : TemplateCreateRequest) :
    ∃ next, (Stage.putRead req).program store imageType name =
        .step (.readToString (store.metaPath imageType name)) next ∧
      ∀ result : Except FileError String, next result = (putWith req
        (result.toOption.bind Deserialize.fromStr)).program store imageType name := by
  refine ⟨_, rfl, fun result => ?_⟩
  cases result with
  | error error => rfl
  | ok text =>
    rw [Except.toOption, Option.bind_some]
    cases parsed : (Deserialize.fromStr text : Option TemplateMeta) with
    | some found =>
      simp only [Program.attempt, Program.bind, pure, parsed]
      rfl
    | none =>
      simp only [Program.attempt, Program.bind, pure, parsed]
      rfl

/-- A get that has asked for the metadata. -/
def getWith (imageType resolved content : String) : Option TemplateMeta → Stage
  | some found => .ended (.ok (some (loaded imageType resolved content found)))
  | none => .getStamp resolved content

theorem get_metadata_step (store : TemplateStore) (imageType name resolved content : String) :
    ∃ next, (Stage.getMetadata resolved content).program store imageType name =
        .step (.readToString (store.metaPath imageType resolved)) next ∧
      ∀ result : Except FileError String, next result = (getWith imageType resolved content
        (result.toOption.bind Deserialize.fromStr)).program store imageType name := by
  refine ⟨_, rfl, fun result => ?_⟩
  cases result with
  | error error => rfl
  | ok text =>
    rw [Except.toOption, Option.bind_some]
    cases parsed : (Deserialize.fromStr text : Option TemplateMeta) with
    | some found =>
      simp only [Program.attempt, Program.bind, pure, parsed]
      rfl
    | none =>
      simp only [Program.attempt, Program.bind, pure, parsed]
      rfl

theorem write_advances (shown : Shows store disk place files) {stage later : Stage}
    {file text : String} {next : Except FileError Unit → Program (Option LoadedTemplate)}
    (entry : EntryName file) (is_dir : disk.node? (place ++ [imageType]) = some .dir)
    (step : stage.program store imageType name =
      .step (.write (store.templatePath imageType file) text.toUTF8) next)
    (advance : Advance imageType name stage files later (files.set imageType file (some text)))
    (program : next (.ok ()) = later.program store imageType name)
    (content : decide (store.templatePath imageType file = store.templatePath imageType name) =
      stage.writesContent)
    (metadata : decide (store.templatePath imageType file = store.metaPath imageType name) =
      stage.writesMetadata)
    (no_load : stage ≠ .getLoad name) (no_meta : ∀ text, stage ≠ .getMetadata name text) :
    Advances store imageType name place disk files stage
      (.write (store.templatePath imageType file) text.toUTF8) next later
      (files.set imageType file (some text)) := by
  obtain ⟨last, saved, shown', is_dir'⟩ := shown.write_eq entry is_dir text
  exact {
    step
    advance
    program := by
      rw [Command.run, saved]
      exact program
    shown := by
      rw [Command.run, saved]
      exact shown'
    directory := by
      rw [Command.run, saved]
      exact fun _ => is_dir'
    content
    metadata
    reads := fun same => absurd same no_load
    describes := fun text same => absurd same (no_meta text) }

/-- Some command leads on from a stage. -/
def Leads (store : TemplateStore) (imageType name : String) (place : List String) (disk : Disk)
    (files : FileTable) (stage : Stage) : Prop :=
  ∃ command next later laterFiles,
    Advances store imageType name place disk files stage command next later laterFiles

theorem put_start_leads (shown : Shows store disk place files) (entry : EntryName imageType)
    (req : TemplateCreateRequest) :
    Leads store imageType name place disk files (.putStart req) := by
  obtain ⟨made, create, shown', is_dir⟩ := shown.create_type entry
  refine ⟨.createDirAll (join store.templatesDir imageType), _, .putRead req, files,
    { step := rfl, advance := .made req files, program := ?_, shown := ?_, directory := ?_
      content := rfl, metadata := rfl, reads := by rintro ⟨⟩, describes := by rintro _ ⟨⟩ }⟩
  · rw [Command.run, create]
    rfl
  · rw [Command.run, create]
    exact shown'
  · rw [Command.run, create]
    exact fun _ => is_dir

theorem put_read_leads (shown : Shows store disk place files) (ordinary : Ordinary imageType)
    (ordinary' : Ordinary name) (is_dir : disk.node? (place ++ [imageType]) = some .dir)
    (req : TemplateCreateRequest) :
    Leads store imageType name place disk files (.putRead req) := by
  obtain ⟨next, step, resumed⟩ := put_read_step store imageType name req
  obtain ⟨held, still⟩ := read_answer shown ordinary (meta_name_ordinary ordinary')
  have program := resumed (answer ((Command.readToString (store.metaPath imageType name)).run disk))
  rw [meta_path_eq, held] at program
  cases record : files.record imageType name with
  | some found =>
    rw [FileTable.record] at record
    rw [record] at program
    exact ⟨_, next, _, files, advances_reading shown step .recalled (fun _ => is_dir) still
      program rfl rfl (by rintro ⟨⟩) (by rintro _ ⟨⟩)⟩
  | none =>
    rw [FileTable.record] at record
    rw [record] at program
    exact ⟨_, next, _, files, advances_reading shown step .unknown (fun _ => is_dir) still
      program rfl rfl (by rintro ⟨⟩) (by rintro _ ⟨⟩)⟩

theorem get_from_leads (shown : Shows store disk place files) (ordinary : Ordinary imageType)
    {candidate : String} (ordinary' : Ordinary candidate) (rest : List String) :
    Leads store imageType name place disk files (.getFrom candidate rest) := by
  obtain ⟨answered, still⟩ := exists_answer shown ordinary ordinary'
  cases held : files imageType candidate with
  | some text =>
    rw [held] at answered
    exact ⟨.fileExists (store.templatePath imageType candidate), _, .getLoad candidate, files,
      advances_reading shown rfl (.found (by rw [held]; rfl)) False.elim still
        (by rw [answered]; rfl) rfl rfl (by rintro ⟨⟩) (by rintro _ ⟨⟩)⟩
  | none =>
    rw [held] at answered
    cases rest with
    | nil =>
      exact ⟨.fileExists (store.templatePath imageType candidate), _, .ended (.ok none), files,
        advances_reading shown rfl (.missing held) False.elim still (by rw [answered]; rfl) rfl rfl
          (by rintro ⟨⟩) (by rintro _ ⟨⟩)⟩
    | cons later rest =>
      exact ⟨.fileExists (store.templatePath imageType candidate), _, .getFrom later rest, files,
        advances_reading shown rfl (.next held) False.elim still (by rw [answered]; rfl) rfl rfl
          (by rintro ⟨⟩) (by rintro _ ⟨⟩)⟩

theorem get_load_leads (shown : Shows store disk place files) (ordinary : Ordinary imageType)
    {resolved : String} (ordinary' : Ordinary resolved) (present : (files imageType resolved).isSome) :
    Leads store imageType name place disk files (.getLoad resolved) := by
  obtain ⟨content, there⟩ := Option.isSome_iff_exists.mp present
  obtain ⟨held, still⟩ := read_answer shown ordinary ordinary'
  rw [there] at held
  have answered :
      answer ((Command.readToString (store.templatePath imageType resolved)).run disk) =
        .ok content := by
    cases result : answer ((Command.readToString (store.templatePath imageType resolved)).run disk) with
    | ok text =>
      rw [result] at held
      exact congrArg Except.ok (Option.some.inj held)
    | error error =>
      rw [result] at held
      cases held
  have reads : Stage.getLoad resolved = .getLoad name →
      Command.reads (store.templatePath imageType name)
        (.readToString (store.templatePath imageType resolved)) = true := by
    rintro ⟨⟩
    exact decide_eq_true rfl
  exact ⟨.readToString (store.templatePath imageType resolved), _, .getMetadata resolved content,
    files, advances_reading shown rfl (.read there) False.elim still (by rw [answered]; rfl) rfl rfl
      reads (by rintro _ ⟨⟩)⟩

theorem get_metadata_leads (shown : Shows store disk place files) (ordinary : Ordinary imageType)
    {resolved : String} (ordinary' : Ordinary resolved) (content : String) :
    Leads store imageType name place disk files (.getMetadata resolved content) := by
  obtain ⟨next, step, resumed⟩ := get_metadata_step store imageType name resolved content
  obtain ⟨held, still⟩ := read_answer shown ordinary (meta_name_ordinary ordinary')
  have program :=
    resumed (answer ((Command.readToString (store.metaPath imageType resolved)).run disk))
  have described : ∀ text, Stage.getMetadata resolved content = .getMetadata name text →
      Command.reads (store.metaPath imageType name)
        (.readToString (store.metaPath imageType resolved)) = true := by
    rintro text ⟨⟩
    exact decide_eq_true rfl
  rw [meta_path_eq, held] at program
  cases record : files.record imageType resolved with
  | some found =>
    rw [FileTable.record] at record
    rw [record] at program
    exact ⟨_, next, _, files, advances_reading shown step (.described record) False.elim still program
      rfl rfl (by rintro ⟨⟩) described⟩
  | none =>
    rw [FileTable.record] at record
    rw [record] at program
    exact ⟨_, next, _, files, advances_reading shown step (.undescribed record) False.elim still program
      rfl rfl (by rintro ⟨⟩) described⟩

/-- **Each command of a request is an advance over the table.** -/
theorem stage_advances (shown : Shows store disk place files) (entry : EntryName imageType)
    (entry' : EntryName name) {stage : Stage} (unfinished : ∀ result, stage ≠ .ended result)
    (ready : stage.Ready imageType files)
    (begun : stage.Begun → disk.node? (place ++ [imageType]) = some .dir) :
    ∃ command next later laterFiles,
      Advances store imageType name place disk files stage command next later laterFiles := by
  have differ : store.metaPath imageType name ≠ store.templatePath imageType name :=
    paths_differ entry'.toOrdinary
  cases stage with
  | putStart req => exact put_start_leads shown entry req
  | putRead req => exact put_read_leads shown entry.toOrdinary entry'.toOrdinary (begun trivial) req
  | putStamp req =>
    exact ⟨.now, _, .putSave req (utcTimestamp (disk.clock disk.ticks)), files,
      clock_advances shown rfl (.stamped _) (fun _ => begun trivial) rfl rfl rfl
        (by rintro ⟨⟩) (by rintro _ ⟨⟩)⟩
  | putSave req createdAt =>
    let record : TemplateMeta :=
      { mode := req.mode, createdAt, updatedAt := utcTimestamp (disk.clock disk.ticks) }
    exact ⟨.now, _, .putContent req record, files,
      clock_advances shown rfl (.dated _) (fun _ => begun trivial) rfl rfl rfl
        (by rintro ⟨⟩) (by rintro _ ⟨⟩)⟩
  | putContent req record =>
    exact ⟨_, _, .putMetadata req record, _, write_advances shown entry' (begun trivial) rfl .content rfl
      (decide_eq_true rfl) (decide_eq_false (Ne.symm differ)) (by rintro ⟨⟩) (by rintro _ ⟨⟩)⟩
  | putMetadata req record =>
    exact ⟨_, _, _, _, write_advances shown (meta_name_entry entry') (begun trivial) rfl .metadata rfl
      (decide_eq_false differ) (decide_eq_true rfl) (by rintro ⟨⟩) (by rintro _ ⟨⟩)⟩
  | getFrom candidate rest =>
    exact get_from_leads shown entry.toOrdinary (ready candidate List.mem_cons_self) rest
  | getLoad resolved => exact get_load_leads shown entry.toOrdinary ready.1 ready.2
  | getMetadata resolved content => exact get_metadata_leads shown entry.toOrdinary ready content
  | getStamp resolved content =>
    exact ⟨.now, _, .getStamped resolved content (utcTimestamp (disk.clock disk.ticks)), files,
      clock_advances shown rfl (.created _) False.elim rfl rfl rfl
        (by rintro ⟨⟩) (by rintro _ ⟨⟩)⟩
  | getStamped resolved content createdAt =>
    let record : TemplateMeta :=
      { mode := default, createdAt, updatedAt := utcTimestamp (disk.clock disk.ticks) }
    exact ⟨.now, _, .ended (.ok (some (loaded imageType resolved content record))), files,
      clock_advances shown rfl (.updated _) False.elim rfl rfl rfl
        (by rintro ⟨⟩) (by rintro _ ⟨⟩)⟩
  | ended result => exact absurd rfl (unfinished result)

theorem stage_steps {stage : Stage} (unfinished : ∀ result, stage ≠ .ended result) :
    ∃ command next, stage.program store imageType name = .step command next := by
  cases stage with
  | ended result => exact absurd rfl (unfinished result)
  | _ => exact ⟨_, _, rfl⟩

end Commands

end Requests

end CloudId
