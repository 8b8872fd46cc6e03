import CloudId.Library.GuardedRun
import CloudId.TemplateMap
import CloudId.TemplateTurns

/-! When concurrent requests for one template keep the pairs of content and mode together.
The content and the metadata are separate files, and nothing holds off other requests
between the two: a put may leave its mode with another one's content. -/
namespace CloudId
open FileSystem Effects Disk

section Requests

variable [Serialize TemplateMeta] [Deserialize TemplateMeta]

omit [Serialize TemplateMeta] [Deserialize TemplateMeta] in
/-- The request that wrote the content last has a command left. -/
def Turns.contentPending (turns : Turns) : Bool :=
  turns.contentBy.any fun writer => (turns.due writer).isSome

def LoadedTemplate.pair (template : LoadedTemplate) : Option String × TemplateMode :=
  (some template.content, template.mode)

def TemplateRequest.pair? : TemplateRequest → Option (Option String × TemplateMode)
  | put req => some (some req.content, req.mode)
  | get => none

/-- The pair of one of the puts. -/
def OfOne (requests : List TemplateRequest) (pair : Option String × TemplateMode) : Prop :=
  some pair ∈ requests.map TemplateRequest.pair?

instance (requests : List TemplateRequest) (pair : Option String × TemplateMode) :
    Decidable (OfOne requests pair) :=
  inferInstanceAs (Decidable (some pair ∈ requests.map TemplateRequest.pair?))

/-! ## Turns that keep pairs together -/

def TemplateRequest.mode? : TemplateRequest → Option TemplateMode
  | put req => some req.mode
  | get => none

/-- The mode that the put at some index asks for. -/
def asked (requests : List TemplateRequest) (writer : Option Nat) : Option TemplateMode :=
  writer.bind fun index => requests[index]?.bind TemplateRequest.mode?

/-- Two puts that ask for one mode. -/
def SameMode (requests : List TemplateRequest) (first second : Option Nat) : Prop :=
  (asked requests first).isSome ∧ asked requests first = asked requests second

instance (requests : List TemplateRequest) (first second : Option Nat) :
    Decidable (SameMode requests first second) :=
  inferInstanceAs (Decidable (_ ∧ _))

section Modes

variable {requests : List TemplateRequest} {writer other : Nat} {req own : TemplateCreateRequest}

omit [Serialize TemplateMeta] [Deserialize TemplateMeta]

theorem asked_put (at_put : requests[writer]? = some (.put req)) :
    asked requests (some writer) = some req.mode := by
  rw [asked, Option.bind_some, at_put]
  rfl

theorem same_mode_of_put (same : SameMode requests (some writer) (some other))
    (at_put : requests[writer]? = some (.put req)) (at_other : requests[other]? = some (.put own)) :
    req.mode = own.mode := by
  have alike := same.2
  rw [asked_put at_put, asked_put at_other] at alike
  exact Option.some.inj alike

/-- The content of a put goes with the mode that it asks for. -/
theorem of_one_of_same_mode (at_put : requests[writer]? = some (.put req)) {mode : TemplateMode}
    (same : req.mode = mode) : OfOne requests (some req.content, mode) :=
  List.mem_map.mpr ⟨.put req, List.mem_of_getElem? at_put, by rw [← same]; rfl⟩

end Modes

/-- A put writes its metadata while the put that wrote the content last has a command left, this
one itself for example, or if that one asked for the same mode. A get reads the metadata while the
put that wrote it last is the one whose content it has read, or one that asked for the same mode;
or while neither file had been written. -/
def TemplateRequest.InOrder (store : TemplateStore) (imageType name : String)
    (requests : List TemplateRequest) (turns : Turns) (index : Nat) (command : Command) :
    TemplateRequest → Prop
  | put _ => Command.writes (store.metaPath imageType name) command = true →
      turns.contentPending = true ∨ SameMode requests turns.contentBy (some index)
  | get => Command.reads (store.metaPath imageType name) command = true →
      turns.readFrom index = turns.modeBy ∨ SameMode requests (turns.readFrom index) turns.modeBy

/-- The turn of a request keeps the pairs together. -/
def InOrder (store : TemplateStore) (imageType name : String) (requests : List TemplateRequest)
    (turns : Turns) (index : Nat) : Prop :=
  ∀ request ∈ requests[index]?, ∀ command ∈ turns.due index,
    request.InOrder store imageType name requests turns index command

instance decidableInOrder (store : TemplateStore) (imageType name : String)
    (requests : List TemplateRequest) (turns : Turns) (index : Nat) (command : Command) :
    (request : TemplateRequest) →
      Decidable (request.InOrder store imageType name requests turns index command)
  | .put _ => inferInstanceAs (Decidable (_ → _ ∨ _))
  | .get => inferInstanceAs (Decidable (_ → _ ∨ _))

instance (store : TemplateStore) (imageType name : String) (requests : List TemplateRequest)
    (turns : Turns) (index : Nat) : Decidable (InOrder store imageType name requests turns index) :=
  inferInstanceAs (Decidable (∀ request ∈ requests[index]?, ∀ command ∈ turns.due index,
    request.InOrder store imageType name requests turns index command))

/-- The request has answered with a template. -/
def Turns.Succeeded (turns : Turns) (index : Nat) : Prop :=
  ∃ template, turns.programs[index]? = some (.done (.ok (some template)))

/-- What the requests may see and leave behind. -/
structure Untorn (store : TemplateStore) (imageType name : String) (disk : Disk)
    (requests : List TemplateRequest) (turns : Turns) : Prop where
  /-- Once all puts have succeeded, the template is that of one of them. -/
  settled : (∃ req, .put req ∈ requests) →
    (∀ (index : Nat) (req : TemplateCreateRequest), requests[index]? = some (.put req) →
      turns.Succeeded index) →
    ∃ template last, store.get imageType name turns.disk = .ok (some template) last ∧
      OfOne requests template.pair
  /-- A get answers with the template of one of the puts, or as one before them did. -/
  concurrent : ∀ (index : Nat) (result : Except FileError (Option LoadedTemplate)),
    requests[index]? = some .get → turns.programs[index]? = some (.done result) →
    ∃ answer, result = .ok answer ∧
      ((∃ template, answer = some template ∧ OfOne requests template.pair) ∨
        ∃ earlier last, store.get imageType name disk = .ok earlier last ∧
          answer.map LoadedTemplate.pair = earlier.map LoadedTemplate.pair)

/-! ## What holds between turns -/

/-- A template that a get may answer with. -/
def Fine (imageType name : String) (initial : FileTable) (requests : List TemplateRequest)
    (content : String) (mode : TemplateMode) : Prop :=
  OfOne requests (some content, mode) ∨
    ∃ resolved, initial.found imageType name = some resolved ∧
      initial imageType resolved = some content ∧ (initial.summary imageType resolved).mode = mode

/-- The content that a put wrote, or that was there before. -/
def ContentOf (imageType name : String) (initial : FileTable) (requests : List TemplateRequest)
    (content : String) : Option Nat → Prop
  | none => initial imageType name = some content
  | some writer => ∃ req, requests[writer]? = some (.put req) ∧ req.content = content

/-- Where a request can be, and what it has seen up to there. -/
def Follows (imageType name : String) (initial : FileTable) (requests : List TemplateRequest)
    (contentBy readFrom : Option Nat) : TemplateRequest → Stage → Prop
  | .put req, .putStart own => own = req
  | .put req, .putRead own => own = req
  | .put req, .putStamp own => own = req
  | .put req, .putSave own _ => own = req
  | .put req, .putContent own record => own = req ∧ record.mode = req.mode
  | .put req, .putMetadata own record => own = req ∧ record.mode = req.mode ∧ contentBy.isSome
  | .put _, .ended result => (∃ template, result = .ok (some template)) ∧ contentBy.isSome
  | .get, .getFrom candidate rest => ∃ passed,
      [name, name ++ ".ign.json", name ++ ".ks", name ++ ".yaml"] = passed ++ candidate :: rest ∧
        ∀ other ∈ passed, initial imageType other = none
  | .get, .getLoad resolved => if resolved = name then contentBy.isSome ∨ (initial imageType name).isSome
      else initial.found imageType name = some resolved
  | .get, .getMetadata resolved content =>
      if resolved = name then ContentOf imageType name initial requests content readFrom
      else initial.found imageType name = some resolved ∧ initial imageType resolved = some content
  | .get, .getStamp _ content => Fine imageType name initial requests content default
  | .get, .getStamped _ content _ => Fine imageType name initial requests content default
  | .get, .ended result => ∃ answer, result = .ok answer ∧
      (answer = none → initial.found imageType name = none) ∧
      ∀ template, answer = some template →
        Fine imageType name initial requests template.content template.mode
  | _, _ => False

omit [Serialize TemplateMeta] in
theorem Follows.mono {imageType name : String} {initial : FileTable} {requests : List TemplateRequest}
    {contentBy contentBy' readFrom : Option Nat} {request : TemplateRequest} {stage : Stage}
    (follows : Follows imageType name initial requests contentBy readFrom request stage)
    (grows : contentBy.isSome → contentBy'.isSome) :
    Follows imageType name initial requests contentBy' readFrom request stage := by
  cases request with
  | put req =>
    cases stage with
    | putMetadata own record => exact ⟨follows.1, follows.2.1, grows follows.2.2⟩
    | ended result => exact ⟨follows.1, grows follows.2⟩
    | _ => exact follows
  | get =>
    cases stage with
    | getLoad resolved =>
      rw [Follows] at follows ⊢
      split at follows
      · rename_i same
        rw [if_pos same]
        exact follows.imp_left grows
      · rename_i other
        rw [if_neg other]
        exact follows
    | _ => exact follows

/-- The requests are at these stages over this table of files. -/
structure Going (store : TemplateStore) (imageType name : String) (place : List String)
    (initial : FileTable) (requests : List TemplateRequest) (turns : Turns) (stages : List Stage)
    (files : FileTable) : Prop where
  programs : turns.programs = stages.map (Stage.program store imageType name)
  shown : Shows store turns.disk place files
  directory : ∀ stage ∈ stages, stage.Begun →
    turns.disk.node? (place ++ [imageType]) = some .dir
  length : stages.length = requests.length
  follows : ∀ (index : Nat) (request : TemplateRequest) (stage : Stage),
    requests[index]? = some request → stages[index]? = some stage →
      Follows imageType name initial requests turns.contentBy (turns.readFrom index) request stage
  before : turns.contentBy = none → files = initial
  content : ∀ writer, turns.contentBy = some writer →
    ∃ req, requests[writer]? = some (.put req) ∧ files imageType name = some req.content
  mode_before : turns.modeBy = none →
    files imageType (metaName name) = initial imageType (metaName name)
  mode : ∀ writer, turns.modeBy = some writer → ∃ req, requests[writer]? = some (.put req) ∧
    (files.summary imageType name).mode = req.mode
  others : ∀ file, file ≠ name → file ≠ metaName name →
    files imageType file = initial imageType file
  settled : ∀ writer result, turns.contentBy = some writer → stages[writer]? = some (.ended result) →
    OfOne requests (files imageType name, (files.summary imageType name).mode)

section Going

variable {store : TemplateStore} {imageType name : String} {place : List String}
  {initial : FileTable} {requests : List TemplateRequest} {turns : Turns} {stages : List Stage}
  {files : FileTable}

/-- What a turn records, with the stage that it is taken in. -/
structure Recorded (name : String) (turns : Turns) (stage : Stage) (index : Nat)
    (turned : Turns) : Prop where
  contentBy : turned.contentBy = if stage.writesContent then some index else turns.contentBy
  modeBy : turned.modeBy = if stage.writesMetadata then some index else turns.modeBy
  read_own : stage = .getLoad name → turned.readFrom index = turns.contentBy
  read_other : ∀ other, other ≠ index → turned.readFrom other = turns.readFrom other

theorem turn_recorded {index : Nat} {stage later : Stage} {command : Command}
    {next : Except FileError command.Reply → Program (Option LoadedTemplate)}
    {laterFiles : FileTable} (due : turns.programs[index]? = some (.step command next))
    (advances : Advances store imageType name place turns.disk files stage command next later
      laterFiles) :
    Recorded name turns stage index (Turns.turn store imageType name turns index) := by
  rw [Turns.turn, due]
  exact {
    contentBy := by
      dsimp only
      rw [advances.content]
    modeBy := by
      dsimp only
      rw [advances.metadata]
    read_own := by
      intro same
      dsimp only
      rw [if_pos (advances.reads same), Function.update_self]
    read_other := by
      intro other differs
      dsimp only
      split
      · exact Function.update_of_ne differs _ _
      · rfl }

theorem Going.due_program (going : Going store imageType name place initial requests turns stages files)
    {index : Nat} {stage : Stage} {command : Command}
    {next : Except FileError command.Reply → Program (Option LoadedTemplate)}
    (at_stage : stages[index]? = some stage)
    (step : stage.program store imageType name = .step command next) :
    turns.programs[index]? = some (.step command next) := by
  rw [going.programs, List.getElem?_map, at_stage, Option.map_some, step]

/-- A turn, given what holds of the files after it. -/
theorem Going.step (going : Going store imageType name place initial requests turns stages files)
    {index : Nat} {request : TemplateRequest} {stage later : Stage} {command : Command}
    {next : Except FileError command.Reply → Program (Option LoadedTemplate)}
    {laterFiles : FileTable} {contentBy modeBy : Option Nat}
    (at_request : requests[index]? = some request) (at_stage : stages[index]? = some stage)
    (advances : Advances store imageType name place turns.disk files stage command next later
      laterFiles)
    (writer : contentBy = if stage.writesContent then some index else turns.contentBy)
    (mode_writer : modeBy = if stage.writesMetadata then some index else turns.modeBy)
    (follows : ∀ source, (stage = .getLoad name → source = turns.contentBy) →
      Follows imageType name initial requests contentBy source request later)
    (before : contentBy = none → laterFiles = initial)
    (content : ∀ writer, contentBy = some writer →
      ∃ req, requests[writer]? = some (.put req) ∧ laterFiles imageType name = some req.content)
    (mode_before : modeBy = none →
      laterFiles imageType (metaName name) = initial imageType (metaName name))
    (mode : ∀ writer, modeBy = some writer → ∃ req, requests[writer]? = some (.put req) ∧
      (laterFiles.summary imageType name).mode = req.mode)
    (others : ∀ file, file ≠ name → file ≠ metaName name →
      laterFiles imageType file = initial imageType file)
    (settled : ∀ writer result, contentBy = some writer →
      (stages.set index later)[writer]? = some (.ended result) →
        OfOne requests (laterFiles imageType name, (laterFiles.summary imageType name).mode)) :
    Going store imageType name place initial requests
      (Turns.turn store imageType name turns index) (stages.set index later) laterFiles := by
  have in_range : index < stages.length := (List.getElem?_eq_some_iff.mp at_stage).1
  have due := going.due_program at_stage advances.step
  have recorded := turn_recorded due advances
  have same_writer : (Turns.turn store imageType name turns index).contentBy = contentBy :=
    recorded.contentBy.trans writer.symm
  have same_mode_writer : (Turns.turn store imageType name turns index).modeBy = modeBy :=
    recorded.modeBy.trans mode_writer.symm
  have programs : (Turns.turn store imageType name turns index).programs =
      turns.programs.set index (later.program store imageType name) := by
    rw [Turns.turn, due, ← advances.program]
  have disk : (Turns.turn store imageType name turns index).disk =
      finalState (command.run turns.disk) := by
    rw [Turns.turn, due]
  have grows : turns.contentBy.isSome → contentBy.isSome := by
    rw [writer]
    split
    · exact fun _ => rfl
    · exact id
  exact {
    programs := by
      rw [programs, List.map_set, ← going.programs]
    shown := by
      rw [disk]
      exact advances.shown
    directory := by
      intro own listed begun
      rw [disk]
      refine advances.directory ?_
      rcases List.mem_or_eq_of_mem_set listed with listed | rfl
      · exact .inr (going.directory own listed begun)
      · exact .inl begun
    length := by
      rw [List.length_set]
      exact going.length
    follows := by
      intro other own_request own at_own at_stage'
      rw [same_writer]
      rcases eq_or_ne other index with rfl | differs
      · rw [List.getElem?_set_self in_range] at at_stage'
        cases at_stage'
        cases at_request.symm.trans at_own
        exact follows _ recorded.read_own
      · rw [List.getElem?_set_ne (Ne.symm differs)] at at_stage'
        rw [recorded.read_other other differs]
        exact (going.follows other own_request own at_own at_stage').mono grows
    before := by rwa [same_writer]
    content := by rwa [same_writer]
    mode_before := by rwa [same_mode_writer]
    mode := by rwa [same_mode_writer]
    others
    settled := by rwa [same_writer] }

/-- A turn that writes nothing. -/
theorem Going.quiet (going : Going store imageType name place initial requests turns stages files)
    {index : Nat} {request : TemplateRequest} {stage later : Stage} {command : Command}
    {next : Except FileError command.Reply → Program (Option LoadedTemplate)}
    (at_request : requests[index]? = some request) (at_stage : stages[index]? = some stage)
    (advances : Advances store imageType name place turns.disk files stage command next later files)
    (quiet : stage.writesContent = false) (quiet' : stage.writesMetadata = false)
    (unsettled : ∀ req, request = .put req → ∀ result, later ≠ .ended result)
    (follows : ∀ source, (stage = .getLoad name → source = turns.contentBy) →
      Follows imageType name initial requests turns.contentBy source request later) :
    Going store imageType name place initial requests
      (Turns.turn store imageType name turns index) (stages.set index later) files := by
  have same_writer : turns.contentBy =
      if stage.writesContent then some index else turns.contentBy := by
    rw [quiet, if_neg Bool.false_ne_true]
  have same_mode_writer : turns.modeBy =
      if stage.writesMetadata then some index else turns.modeBy := by
    rw [quiet', if_neg Bool.false_ne_true]
  refine going.step at_request at_stage advances same_writer same_mode_writer follows going.before
    going.content going.mode_before going.mode going.others ?_
  intro writer result wrote at_writer
  rcases eq_or_ne writer index with rfl | differs
  · obtain ⟨req, at_put, -⟩ := going.content writer wrote
    have in_range : writer < stages.length := (List.getElem?_eq_some_iff.mp at_stage).1
    rw [List.getElem?_set_self in_range] at at_writer
    have is_put : request = .put req := Option.some.inj (at_request.symm.trans at_put)
    exact absurd (Option.some.inj at_writer) (unsettled req is_put result)
  · rw [List.getElem?_set_ne (Ne.symm differs)] at at_writer
    exact going.settled writer result wrote at_writer

/-! ### The names that a get looks for -/

omit [Serialize TemplateMeta] [Deserialize TemplateMeta] in
/-- The names beside the template's own that a get looks for are not written. -/
theorem extension_ne {candidate : String}
    (listed : candidate ∈ [name, name ++ ".ign.json", name ++ ".ks", name ++ ".yaml"])
    (other : candidate ≠ name) :
    candidate ≠ metaName name ∧ metaName candidate ≠ name ∧ metaName candidate ≠ metaName name := by
  have longer : ∀ suffix : String, metaName (name ++ suffix) ≠ name := by
    intro suffix same
    have lengths := congrArg String.length same
    rw [metaName, String.length_append, String.length_append] at lengths
    have some_ : 0 < ".meta.json".length := by decide
    omega
  have apart : ∀ suffix : String, suffix ≠ ".meta.json" → name ++ suffix ≠ metaName name := by
    intro suffix differs same
    rw [metaName, ← String.toList_inj, String.toList_append, String.toList_append] at same
    exact differs (String.toList_inj.mp (List.append_cancel_left same))
  refine ⟨?_, ?_, mt meta_name_inj.mp other⟩
  all_goals
    simp only [List.mem_cons, List.not_mem_nil, or_false] at listed
    rcases listed with rfl | rfl | rfl | rfl
  · exact absurd rfl other
  · exact apart _ (by decide)
  · exact apart _ (by decide)
  · exact apart _ (by decide)
  · exact absurd rfl other
  · exact longer _
  · exact longer _
  · exact longer _

omit [Serialize TemplateMeta] [Deserialize TemplateMeta] in
theorem found_of_passed {passed rest : List String} {candidate : String}
    (split : [name, name ++ ".ign.json", name ++ ".ks", name ++ ".yaml"] = passed ++ candidate :: rest)
    (absent : ∀ other ∈ passed, initial imageType other = none)
    (there : (initial imageType candidate).isSome) : initial.found imageType name = some candidate := by
  rw [FileTable.found, split, List.find?_append]
  have none_passed : passed.find? (fun other => (initial imageType other).isSome) = none := by
    rw [List.find?_eq_none]
    intro other listed
    rw [absent other listed]
    exact Bool.false_ne_true
  rw [none_passed, List.find?_cons, there]
  rfl

omit [Serialize TemplateMeta] [Deserialize TemplateMeta] in
theorem found_listed {resolved : String} (found : initial.found imageType name = some resolved) :
    resolved ∈ [name, name ++ ".ign.json", name ++ ".ks", name ++ ".yaml"] ∧
      (initial imageType resolved).isSome := by
  rw [FileTable.found] at found
  have there := List.find?_some found
  exact ⟨List.mem_of_find?_eq_some found, there⟩

/-- A file that is found has been there from the start, the template's own apart. -/
theorem Going.passed (going : Going store imageType name place initial requests turns stages files)
    {candidate : String}
    (listed : candidate ∈ [name, name ++ ".ign.json", name ++ ".ks", name ++ ".yaml"])
    (absent : files imageType candidate = none) : initial imageType candidate = none := by
  by_cases own : candidate = name
  · rw [own] at absent ⊢
    cases wrote : turns.contentBy with
    | none => rwa [going.before wrote] at absent
    | some writer =>
      obtain ⟨req, -, held⟩ := going.content writer wrote
      rw [held] at absent
      cases absent
  · rwa [going.others candidate own (extension_ne listed own).1] at absent

/-- With one more name passed, all of them are still missing from the start. -/
theorem Going.passed_next
    (going : Going store imageType name place initial requests turns stages files)
    {passed rest : List String} {candidate : String}
    (split : [name, name ++ ".ign.json", name ++ ".ks", name ++ ".yaml"] = passed ++ candidate :: rest)
    (before : ∀ other ∈ passed, initial imageType other = none)
    (absent : files imageType candidate = none) :
    ∀ other ∈ passed ++ [candidate], initial imageType other = none := by
  intro other listed
  rcases List.mem_append.mp listed with listed | listed
  · exact before other listed
  · rw [List.mem_singleton.mp listed]
    refine going.passed ?_ absent
    rw [split]
    exact List.mem_append_right _ List.mem_cons_self

theorem Going.own_there (going : Going store imageType name place initial requests turns stages files)
    (there : (files imageType name).isSome) :
    turns.contentBy.isSome ∨ (initial imageType name).isSome := by
  cases wrote : turns.contentBy with
  | none =>
    rw [going.before wrote] at there
    exact .inr there
  | some writer => exact .inl rfl

theorem Going.own_is_there
    (going : Going store imageType name place initial requests turns stages files)
    (either : turns.contentBy.isSome ∨ (initial imageType name).isSome) :
    (files imageType name).isSome := by
  cases wrote : turns.contentBy with
  | none =>
    rw [going.before wrote]
    rw [wrote] at either
    exact either.resolve_left Bool.false_ne_true
  | some writer =>
    obtain ⟨req, -, held⟩ := going.content writer wrote
    rw [held]
    rfl

/-- The content in place is that of the put which wrote it last. -/
theorem Going.content_of (going : Going store imageType name place initial requests turns stages files)
    {content : String} (held : files imageType name = some content) :
    ContentOf imageType name initial requests content turns.contentBy := by
  cases wrote : turns.contentBy with
  | none => rwa [going.before wrote] at held
  | some writer =>
    obtain ⟨req, at_put, own⟩ := going.content writer wrote
    exact ⟨req, at_put, Option.some.inj (own.symm.trans held)⟩

/-- The summary of a file beside the template's own is that of the start. -/
theorem Going.same_summary
    (going : Going store imageType name place initial requests turns stages files) {candidate : String}
    (listed : candidate ∈ [name, name ++ ".ign.json", name ++ ".ks", name ++ ".yaml"])
    (other : candidate ≠ name) :
    files.summary imageType candidate = initial.summary imageType candidate := by
  obtain ⟨-, apart, apart'⟩ := extension_ne listed other
  rw [FileTable.summary, FileTable.summary, FileTable.record, FileTable.record,
    going.others _ apart apart']

theorem Going.due_over (going : Going store imageType name place initial requests turns stages files)
    {index : Nat} {result : Except FileError (Option LoadedTemplate)}
    (at_stage : stages[index]? = some (.ended result)) : turns.due index = none := by
  rw [Turns.due, going.programs, List.getElem?_map, at_stage]
  rfl

theorem Going.due_step (going : Going store imageType name place initial requests turns stages files)
    {index : Nat} {stage : Stage} {command : Command}
    {next : Except FileError command.Reply → Program (Option LoadedTemplate)}
    (at_stage : stages[index]? = some stage)
    (step : stage.program store imageType name = .step command next) :
    turns.due index = some command := by
  rw [Turns.due, going.due_program at_stage step]

/-! ### The writes -/

theorem Going.write_content (going : Going store imageType name place initial requests turns stages files)
    {index : Nat}
    {req : TemplateCreateRequest} {record : TemplateMeta} {command : Command}
    {next : Except FileError command.Reply → Program (Option LoadedTemplate)}
    (at_request : requests[index]? = some (.put req))
    (at_stage : stages[index]? = some (.putContent req record)) (same_mode : record.mode = req.mode)
    (advances : Advances store imageType name place turns.disk files (.putContent req record) command
      next (.putMetadata req record) (files.set imageType name (some req.content))) :
    Going store imageType name place initial requests (Turns.turn store imageType name turns index)
      (stages.set index (.putMetadata req record))
      (files.set imageType name (some req.content)) := by
  have in_range : index < stages.length := (List.getElem?_eq_some_iff.mp at_stage).1
  have kept : files.set imageType name (some req.content) imageType (metaName name) =
      files imageType (metaName name) := by
    rw [FileTable.set, if_neg (fun same => meta_name_ne name same.2)]
  refine going.step at_request at_stage advances rfl rfl ?_ ?_ ?_ ?_ ?_ ?_ ?_
  · exact fun _ _ => ⟨rfl, same_mode, rfl⟩
  · rintro ⟨⟩
  · rintro writer ⟨⟩
    exact ⟨req, at_request, if_pos ⟨rfl, rfl⟩⟩
  · rw [kept]
    exact going.mode_before
  · rw [FileTable.summary, FileTable.record, kept]
    exact going.mode
  · intro file own other
    rw [FileTable.set, if_neg (fun same => own same.2)]
    exact going.others file own other
  · rintro writer result ⟨⟩ at_writer
    rw [List.getElem?_set_self in_range] at at_writer
    cases at_writer

theorem summary_set_meta (codec : ReadsBack) (files : FileTable) (imageType name : String)
    (record : TemplateMeta) :
    ((files.set imageType (metaName name) (some (Serialize.toStringPretty record))).summary
      imageType name).mode = record.mode := by
  rw [FileTable.summary, FileTable.record, FileTable.set, if_pos ⟨rfl, rfl⟩, Option.bind_some, codec]
  rfl

/-- A put writes its metadata while the put that wrote the content has a command left, or asked
for the same mode. -/
theorem Going.write_metadata (codec : ReadsBack)
    (going : Going store imageType name place initial requests turns stages files) {index : Nat}
    {req : TemplateCreateRequest} {record : TemplateMeta} {command : Command}
    {next : Except FileError command.Reply → Program (Option LoadedTemplate)}
    (at_request : requests[index]? = some (.put req))
    (at_stage : stages[index]? = some (.putMetadata req record)) (same_mode : record.mode = req.mode)
    (wrote : turns.contentBy.isSome)
    (in_order : turns.contentPending = true ∨ SameMode requests turns.contentBy (some index))
    (advances : Advances store imageType name place turns.disk files (.putMetadata req record) command
      next (.ended (.ok (some (stored imageType name req record))))
      (files.set imageType (metaName name) (some (Serialize.toStringPretty record)))) :
    Going store imageType name place initial requests (Turns.turn store imageType name turns index)
      (stages.set index (.ended (.ok (some (stored imageType name req record)))))
      (files.set imageType (metaName name) (some (Serialize.toStringPretty record))) := by
  have same_content : ∀ file, file ≠ metaName name →
      files.set imageType (metaName name) (some (Serialize.toStringPretty record)) imageType file =
        files imageType file := by
    intro file other
    rw [FileTable.set, if_neg (fun same => other same.2)]
  have own : name ≠ metaName name := Ne.symm (meta_name_ne name)
  refine going.step at_request at_stage advances rfl rfl ?_ ?_ ?_ ?_ ?_ ?_ ?_
  · exact fun _ _ => ⟨⟨_, rfl⟩, wrote⟩
  · intro none_wrote
    have none_wrote : turns.contentBy = none := none_wrote
    rw [none_wrote] at wrote
    cases wrote
  · intro writer by_writer
    rw [same_content name own]
    exact going.content writer by_writer
  · rintro ⟨⟩
  · rintro writer ⟨⟩
    exact ⟨req, at_request, (summary_set_meta codec ..).trans same_mode⟩
  · intro file own_file other
    rw [same_content file other]
    exact going.others file own_file other
  · intro writer result by_writer at_writer
    have by_writer : turns.contentBy = some writer := by_writer
    obtain ⟨own_req, at_put, held⟩ := going.content writer by_writer
    rw [same_content name own, summary_set_meta codec, same_mode, held]
    refine of_one_of_same_mode at_put ?_
    rcases in_order with pending | same
    · rcases eq_or_ne writer index with rfl | differs
      · cases at_request.symm.trans at_put
        rfl
      · rw [List.getElem?_set_ne (Ne.symm differs)] at at_writer
        rw [Turns.contentPending, by_writer, Option.any_some, going.due_over at_writer] at pending
        cases pending
    · rw [by_writer] at same
      exact same_mode_of_put same at_put at_request

/-! ### The metadata that a get reads -/

/-- The pair of a get that reads its metadata. -/
theorem Going.fine (going : Going store imageType name place initial requests turns stages files)
    {readFrom : Option Nat} {resolved content : String}
    (follows : Follows imageType name initial requests turns.contentBy readFrom .get
      (.getMetadata resolved content))
    (in_order : resolved = name →
      readFrom = turns.modeBy ∨ SameMode requests readFrom turns.modeBy) :
    Fine imageType name initial requests content (files.summary imageType resolved).mode := by
  rw [Follows] at follows
  split at follows
  · rename_i own
    subst own
    cases readFrom with
    | none =>
      have unwritten : turns.modeBy = none := by
        rcases in_order rfl with same | ⟨asks, -⟩
        · exact same.symm
        · cases asks
      refine .inr ⟨resolved, ?_, follows, ?_⟩
      · exact @found_of_passed _ resolved initial [] _ resolved rfl nofun (by rw [follows]; rfl)
      · rw [FileTable.summary, FileTable.summary, FileTable.record, FileTable.record,
          going.mode_before unwritten]
    | some reader =>
      obtain ⟨req, at_put, rfl⟩ := follows
      refine .inl (of_one_of_same_mode at_put ?_)
      rcases in_order rfl with same | same
      · obtain ⟨own, at_mode, mode⟩ := going.mode reader same.symm
        cases at_put.symm.trans at_mode
        exact mode.symm
      · cases by_writer : turns.modeBy with
        | none =>
          rw [by_writer, SameMode, asked_put at_put] at same
          cases same.2
        | some writer =>
          obtain ⟨own, at_mode, mode⟩ := going.mode writer by_writer
          rw [by_writer] at same
          exact (same_mode_of_put same at_put at_mode).trans mode.symm
  · rename_i other
    obtain ⟨found, held⟩ := follows
    rw [going.same_summary (found_listed found).1 other]
    exact .inr ⟨resolved, found, held, rfl⟩

/-! ### Every turn -/

/-- What a request relies on is there. -/
theorem Going.ready (going : Going store imageType name place initial requests turns stages files)
    (entry' : EntryName name) {index : Nat} {request : TemplateRequest} {stage : Stage}
    (at_request : requests[index]? = some request) (at_stage : stages[index]? = some stage) :
    stage.Ready imageType files := by
  have follows := going.follows index request stage at_request at_stage
  have ordinary := Shows.candidates_ordinary entry'.toOrdinary
  cases request with
  | put req =>
    cases stage with
    | getFrom candidate rest => exact follows.elim
    | getLoad resolved => exact follows.elim
    | getMetadata resolved content => exact follows.elim
    | _ => trivial
  | get =>
    cases stage with
    | getFrom candidate rest =>
      obtain ⟨passed, split, -⟩ := follows
      intro own listed
      refine ordinary own ?_
      rw [split]
      exact List.mem_append_right _ listed
    | getLoad resolved =>
      rw [Follows] at follows
      split at follows
      · rename_i own
        rw [own]
        exact ⟨entry'.toOrdinary, going.own_is_there follows⟩
      · rename_i other
        obtain ⟨listed, there⟩ := found_listed follows
        refine ⟨ordinary resolved listed, ?_⟩
        rwa [going.others resolved other (extension_ne listed other).1]
    | getMetadata resolved content =>
      rw [Follows] at follows
      split at follows
      · rename_i own
        rw [own]
        exact entry'.toOrdinary
      · exact ordinary resolved (found_listed follows.1).1
    | _ => trivial

section Turn

variable {index : Nat} {stage later : Stage} {command : Command}
  {next : Except FileError command.Reply → Program (Option LoadedTemplate)} {laterFiles : FileTable}

theorem Going.put_turn (codec : ReadsBack)
    (going : Going store imageType name place initial requests turns stages files)
    {req : TemplateCreateRequest}
    (at_request : requests[index]? = some (.put req)) (at_stage : stages[index]? = some stage)
    (advances : Advances store imageType name place turns.disk files stage command next later laterFiles)
    (in_order : Command.writes (store.metaPath imageType name) command = true →
      turns.contentPending = true ∨ SameMode requests turns.contentBy (some index)) :
    Going store imageType name place initial requests
      (Turns.turn store imageType name turns index) (stages.set index later) laterFiles := by
  have follows := going.follows index (.put req) stage at_request at_stage
  have moved := advances.advance
  cases moved with
  | made own =>
    exact going.quiet at_request at_stage advances rfl rfl nofun fun _ _ => follows
  | recalled => exact going.quiet at_request at_stage advances rfl rfl nofun fun _ _ => follows
  | unknown => exact going.quiet at_request at_stage advances rfl rfl nofun fun _ _ => follows
  | stamped created =>
    exact going.quiet at_request at_stage advances rfl rfl nofun fun _ _ => follows
  | dated updated =>
    have same : _ = req := follows
    subst same
    exact going.quiet at_request at_stage advances rfl rfl nofun fun _ _ => ⟨rfl, rfl⟩
  | content =>
    obtain ⟨rfl, same_mode⟩ := follows
    exact going.write_content at_request at_stage same_mode advances
  | metadata =>
    obtain ⟨rfl, same_mode, wrote⟩ := follows
    exact going.write_metadata codec at_request at_stage same_mode wrote
      (in_order advances.metadata) advances
  | _ => exact follows.elim

theorem Going.get_turn (going : Going store imageType name place initial requests turns stages files)
    (at_request : requests[index]? = some .get) (at_stage : stages[index]? = some stage)
    (advances : Advances store imageType name place turns.disk files stage command next later laterFiles)
    (in_order : Command.reads (store.metaPath imageType name) command = true →
      turns.readFrom index = turns.modeBy ∨
        SameMode requests (turns.readFrom index) turns.modeBy) :
    Going store imageType name place initial requests
      (Turns.turn store imageType name turns index) (stages.set index later) laterFiles := by
  have follows := going.follows index .get stage at_request at_stage
  have no_put {later : Stage} : ∀ req, TemplateRequest.get = .put req →
      ∀ result, later ≠ .ended result := by
    rintro _ ⟨⟩
  have moved := advances.advance
  cases moved with
  | @found candidate rest _ there =>
    refine going.quiet at_request at_stage advances rfl rfl no_put fun _ _ => ?_
    obtain ⟨passed, split, absent⟩ := follows
    rw [Follows]
    split
    · rename_i own
      rw [own] at there
      exact going.own_there there
    · rename_i other
      have listed : candidate ∈ [name, name ++ ".ign.json", name ++ ".ks", name ++ ".yaml"] := by
        rw [split]
        exact List.mem_append_right _ List.mem_cons_self
      rw [going.others candidate other (extension_ne listed other).1] at there
      exact found_of_passed split absent there
  | @next candidate after rest _ absent =>
    refine going.quiet at_request at_stage advances rfl rfl no_put fun _ _ => ?_
    obtain ⟨passed, split, absent'⟩ := follows
    exact ⟨passed ++ [candidate], by rw [split, List.append_assoc]; rfl,
      going.passed_next split absent' absent⟩
  | @missing candidate _ absent =>
    refine going.quiet at_request at_stage advances rfl rfl no_put fun _ _ => ?_
    obtain ⟨passed, split, absent'⟩ := follows
    refine ⟨none, rfl, fun _ => ?_, by rintro _ ⟨⟩⟩
    rw [FileTable.found, List.find?_eq_none]
    intro other listed
    rw [split] at listed
    rw [going.passed_next split absent' absent other listed]
    exact Bool.false_ne_true
  | @read resolved content _ held =>
    refine going.quiet at_request at_stage advances rfl rfl no_put fun source from_writer => ?_
    rw [Follows] at follows
    split at follows
    · rename_i own
      rw [Follows, if_pos own]
      rw [own] at held from_writer
      rw [from_writer rfl]
      exact going.content_of held
    · rename_i other
      obtain ⟨listed, there⟩ := found_listed follows
      rw [Follows, if_neg other, ← going.others resolved other (extension_ne listed other).1]
      exact ⟨follows, held⟩
  | @described resolved content _ record held =>
    refine going.quiet at_request at_stage advances rfl rfl no_put fun _ _ => ?_
    have fine := going.fine follows fun own =>
      in_order (advances.describes content (by rw [own]))
    rw [FileTable.summary, held] at fine
    refine ⟨_, rfl, by rintro ⟨⟩, ?_⟩
    rintro template ⟨⟩
    exact fine
  | @undescribed resolved content _ absent =>
    refine going.quiet at_request at_stage advances rfl rfl no_put fun _ _ => ?_
    have fine := going.fine follows fun own =>
      in_order (advances.describes content (by rw [own]))
    rw [FileTable.summary, absent] at fine
    exact fine
  | created createdAt =>
    exact going.quiet at_request at_stage advances rfl rfl no_put fun _ _ => follows
  | updated updatedAt =>
    refine going.quiet at_request at_stage advances rfl rfl no_put fun _ _ => ?_
    refine ⟨_, rfl, by rintro ⟨⟩, ?_⟩
    rintro template ⟨⟩
    exact follows
  | _ => exact follows.elim

end Turn

/-- A turn in order: a request that is over lets it pass, the others go on. -/
theorem turn_moves (codec : ReadsBack) (entry : EntryName imageType) (entry' : EntryName name)
    (going : Going store imageType name place initial requests turns stages files) {index : Nat}
    (in_order : InOrder store imageType name requests turns index) :
    Turns.turn store imageType name turns index = turns ∨
      ∃ stage command next later laterFiles, stages[index]? = some stage ∧
        turns.due index = some command ∧
        Advances store imageType name place turns.disk files stage command next later laterFiles ∧
        Going store imageType name place initial requests
          (Turns.turn store imageType name turns index) (stages.set index later) laterFiles := by
  cases at_stage : stages[index]? with
  | none =>
    refine .inl ?_
    rw [Turns.turn, going.programs, List.getElem?_map, at_stage]
    rfl
  | some stage =>
    by_cases ended : ∃ result, stage = .ended result
    · obtain ⟨result, rfl⟩ := ended
      refine .inl ?_
      rw [Turns.turn, going.programs, List.getElem?_map, at_stage]
      rfl
    · have in_range : index < requests.length := by
        rw [← going.length]
        exact (List.getElem?_eq_some_iff.mp at_stage).1
      obtain ⟨request, at_request⟩ : ∃ request, requests[index]? = some request :=
        ⟨_, List.getElem?_eq_getElem in_range⟩
      obtain ⟨command, next, later, laterFiles, advances⟩ := stage_advances going.shown entry entry'
        (fun result same => ended ⟨result, same⟩) (going.ready entry' at_request at_stage)
        (going.directory stage (List.mem_of_getElem? at_stage))
      have due := going.due_step at_stage advances.step
      have order := in_order request at_request command due
      refine .inr ⟨stage, command, next, later, laterFiles, rfl, due, advances, ?_⟩
      cases request with
      | put req => exact going.put_turn codec at_request at_stage advances order
      | get => exact going.get_turn at_request at_stage advances order

/-- **A turn in order keeps the pairs together.** -/
theorem turn_keeps (codec : ReadsBack) (entry : EntryName imageType) (entry' : EntryName name)
    (going : Going store imageType name place initial requests turns stages files) {index : Nat}
    (in_order : InOrder store imageType name requests turns index) :
    ∃ stages files, Going store imageType name place initial requests
      (Turns.turn store imageType name turns index) stages files := by
  rcases turn_moves codec entry entry' going in_order with
    same | ⟨_, _, _, later, laterFiles, -, -, -, kept⟩
  · rw [same]
    exact ⟨stages, files, going⟩
  · exact ⟨stages.set index later, laterFiles, kept⟩

theorem going_start {disk : Disk} (shown : Shows store disk place initial)
    (requests : List TemplateRequest) :
    Going store imageType name place initial requests
      (Turns.start store imageType name requests disk) (requests.map (TemplateRequest.stage name))
      initial where
  programs := by
    rw [Turns.start, List.map_map]
    exact List.map_congr_left fun request _ => (stage_starts store imageType name request).symm
  shown := shown
  directory := by
    intro stage listed begun
    obtain ⟨request, -, rfl⟩ := List.mem_map.mp listed
    cases request with
    | put req => exact begun.elim
    | get => exact begun.elim
  length := List.length_map _
  follows := by
    intro index request stage at_request at_stage
    rw [List.getElem?_map, at_request] at at_stage
    cases at_stage
    cases request with
    | put req => rfl
    | get => exact ⟨[], rfl, nofun⟩
  before := fun _ => rfl
  content := nofun
  mode_before := fun _ => rfl
  mode := nofun
  others := fun _ _ _ => rfl
  settled := nofun

/-! ## What the requests see -/

theorem Going.over_of_done
    (going : Going store imageType name place initial requests turns stages files) {index : Nat}
    {result : Except FileError (Option LoadedTemplate)}
    (finished : turns.programs[index]? = some (.done result)) :
    stages[index]? = some (.ended result) := by
  rw [going.programs, List.getElem?_map] at finished
  cases at_stage : stages[index]? with
  | none =>
    rw [at_stage] at finished
    cases finished
  | some stage =>
    rw [at_stage] at finished
    have same := Option.some.inj finished
    by_cases ended : ∃ result, stage = .ended result
    · obtain ⟨own, rfl⟩ := ended
      cases same
      rfl
    · have steps : ∃ command next, stage.program store imageType name = .step command next :=
        stage_steps fun result same => ended ⟨result, same⟩
      obtain ⟨command, next, step⟩ := steps
      rw [step] at same
      cases same

omit [Serialize TemplateMeta] in
/-- What a get answers when its file is found. -/
theorem get_found {disk : Disk} (shown : Shows store disk place files) (entry : EntryName imageType)
    (entry' : EntryName name) {resolved content : String}
    (found : files.found imageType name = some resolved)
    (held : files imageType resolved = some content) :
    ∃ template last, store.get imageType name disk = .ok (some template) last ∧
      template.pair = (some content, (files.summary imageType resolved).mode) := by
  obtain ⟨created, updated, last, got, -⟩ := shown.get_eq entry.toOrdinary entry'.toOrdinary
  rw [FileTable.get, found, Option.bind_some, held, Option.map_some] at got
  refine ⟨_, last, got, ?_⟩
  rw [LoadedTemplate.pair, ← Shows.record_at_mode files imageType resolved created updated]
  rfl

theorem Going.untorn (going : Going store imageType name place initial requests turns stages files)
    (entry : EntryName imageType) (entry' : EntryName name) {disk : Disk}
    (shown : Shows store disk place initial) :
    Untorn store imageType name disk requests turns where
  settled := by
    rintro ⟨req, listed⟩ all
    obtain ⟨index, at_request⟩ := List.mem_iff_getElem?.mp listed
    obtain ⟨answer, finished⟩ := all index req at_request
    obtain ⟨-, wrote⟩ :=
      going.follows index (.put req) _ at_request (going.over_of_done finished)
    obtain ⟨writer, by_writer⟩ := Option.isSome_iff_exists.mp wrote
    obtain ⟨own, at_writer, held⟩ := going.content writer by_writer
    obtain ⟨answer', finished'⟩ := all writer own at_writer
    have of_one := going.settled writer _ by_writer (going.over_of_done finished')
    have found : files.found imageType name = some name :=
      @found_of_passed _ name files [] _ name rfl nofun (by rw [held]; rfl)
    obtain ⟨template, last, got, pair⟩ := get_found going.shown entry entry' found held
    rw [held] at of_one
    exact ⟨template, last, got, by rwa [pair]⟩
  concurrent := by
    intro index result at_request finished
    obtain ⟨answer, rfl, missing, fine⟩ :=
      going.follows index .get _ at_request (going.over_of_done finished)
    refine ⟨answer, rfl, ?_⟩
    cases answer with
    | none =>
      obtain ⟨created, updated, last, got, -⟩ := shown.get_eq entry.toOrdinary entry'.toOrdinary
      rw [FileTable.get, missing rfl] at got
      exact .inr ⟨none, last, got, rfl⟩
    | some template =>
      rcases fine template rfl with of_one | ⟨resolved, found, held, mode⟩
      · exact .inl ⟨template, rfl, of_one⟩
      · obtain ⟨earlier, last, got, pair⟩ := get_found shown entry entry' found held
        refine .inr ⟨some earlier, last, got, ?_⟩
        rw [Option.map_some, Option.map_some, pair, mode]
        rfl

theorem going_throughout (codec : ReadsBack) {disk : Disk} (shown : Shows store disk place initial)
    (entry : EntryName imageType) (entry' : EntryName name) {schedule : List Nat}
    (in_order : GuardedRun.Each (Turns.turn store imageType name)
      (InOrder store imageType name requests)
      (Turns.start store imageType name requests disk) schedule) :
    GuardedRun.Throughout (Turns.turn store imageType name)
      (fun turns => ∃ stages own, Going store imageType name place initial requests turns stages own)
      (Turns.start store imageType name requests disk) schedule :=
  GuardedRun.throughout_of_each _
    (fun _ _ ⟨_, _, going⟩ order => turn_keeps codec entry entry' going order)
    ⟨_, _, going_start shown requests⟩ in_order

/-- **Concurrent updates of a template are not torn** in a run whose turns keep the pairs
together. -/
theorem untorn_of_in_order (codec : ReadsBack) {disk : Disk} {files : FileTable}
    (shown : Shows store disk place files) (entry : EntryName imageType) (entry' : EntryName name)
    {schedule : List Nat}
    (in_order : GuardedRun.Each (Turns.turn store imageType name)
      (InOrder store imageType name requests)
      (Turns.start store imageType name requests disk) schedule) :
    GuardedRun.Throughout (Turns.turn store imageType name)
      (Untorn store imageType name disk requests)
      (Turns.start store imageType name requests disk) schedule := by
  have going := going_throughout codec shown entry entry' in_order
  exact going.mono fun turns ⟨stages, own, going⟩ => going.untorn entry entry' shown

end Going

end Requests

section Sample

attribute [local instance] templateMetaText templateMetaParser

/-- A put of a template that wipes the disk once, a put of one that does not, and a get. -/
def tornRequests : List TemplateRequest :=
  [.put { mode := .oneshot, content := "wipe" }, .put { mode := .forever, content := "keep" }, .get]

/-- The get comes between the puts. -/
theorem untorn_in_turn : GuardedRun.Throughout (Turns.turn { dataDir := "/data" } "fcos" "base")
    (Untorn { dataDir := "/data" } "fcos" "base" emptyVolume tornRequests)
    (Turns.start { dataDir := "/data" } "fcos" "base" tornRequests emptyVolume)
    [0, 1, 0, 0, 1, 0, 0, 2, 0, 2, 1, 1, 2, 1, 1] :=
  untorn_of_in_order template_meta_reads_back (empty_keeping empty_volume_empty).shown
    (by decide) (by decide) (by decide +kernel)

/-- The turns in which the second put writes its content first and its metadata last. -/
def tornTurns : Turns :=
  [0, 0, 0, 0, 1, 1, 1, 1, 1, 0, 0, 1].foldl (Turns.turn { dataDir := "/data" } "fcos" "base")
    (Turns.start { dataDir := "/data" } "fcos" "base" tornRequests emptyVolume)

/-- The template of a request that has succeeded. -/
def Turns.template? (turns : Turns) (index : Nat) : Option LoadedTemplate :=
  match turns.programs[index]? with
  | some (.done (.ok template)) => template
  | _ => none

theorem succeeded_of_template {turns : Turns} {index : Nat}
    (there : (turns.template? index).isSome) : turns.Succeeded index := by
  rw [Turns.template?] at there
  split at there
  · rename_i template finished
    obtain ⟨template, rfl⟩ := Option.isSome_iff_exists.mp there
    exact ⟨template, finished⟩
  · cases there

/-- The template that wipes the disk is served on every boot then. -/
theorem puts_tear : ¬ ∀ (requests : List TemplateRequest) (schedule : List Nat),
    GuardedRun.Throughout (Turns.turn { dataDir := "/data" } "fcos" "base")
      (Untorn { dataDir := "/data" } "fcos" "base" emptyVolume requests)
      (Turns.start { dataDir := "/data" } "fcos" "base" requests emptyVolume) schedule := by
  intro always
  have untorn : Untorn { dataDir := "/data" } "fcos" "base" emptyVolume tornRequests tornTurns :=
    (always tornRequests [0, 0, 0, 0, 1, 1, 1, 1, 1, 0, 0, 1]).last
  have all : ∀ (index : Nat) (req : TemplateCreateRequest),
      tornRequests[index]? = some (.put req) → tornTurns.Succeeded index := by
    intro index req at_request
    match index with
    | 0 => exact succeeded_of_template (by decide +kernel)
    | 1 => exact succeeded_of_template (by decide +kernel)
    | 2 => cases at_request
    | _ + 3 => cases at_request
  obtain ⟨template, last, got, of_one⟩ :=
    untorn.settled ⟨{ mode := .oneshot, content := "wipe" }, List.mem_cons_self⟩ all
  have served : (answer (TemplateStore.get { dataDir := "/data" } "fcos" "base"
      tornTurns.disk)).toOption.join.map LoadedTemplate.pair = some (some "wipe", .forever) := by
    decide +kernel
  rw [got] at served
  have pair : template.pair = (some "wipe", .forever) := Option.some.inj served
  rw [pair] at of_one
  exact absurd of_one (by decide)

end Sample

end CloudId
