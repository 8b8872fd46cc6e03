import CloudId.ConcurrentPuts

/-! Templates are not torn where no request comes between the two file commands of another one.
That is a condition on the order of the turns alone, whatever the requests ask for. -/
namespace CloudId
open FileSystem Effects Disk

section Requests

variable [Serialize TemplateMeta] [Deserialize TemplateMeta]

/-- A put that has written the content, and is to write the metadata. -/
def Turns.Writing (store : TemplateStore) (imageType name : String) (turns : Turns)
    (index : Nat) : Prop :=
  ∃ command ∈ turns.due index, Command.writes (store.metaPath imageType name) command = true

/-- A get that has read the content, and is to read the metadata. -/
def Turns.Reading (store : TemplateStore) (imageType name : String)
    (requests : List TemplateRequest) (turns : Turns) (index : Nat) : Prop :=
  requests[index]? = some .get ∧
    ∃ command ∈ turns.due index, Command.reads (store.metaPath imageType name) command = true

/-- A turn that comes between the two commands of no other request: a write where no other one is
there, and the read of a content where no put is. -/
structure Undisturbing (store : TemplateStore) (imageType name : String)
    (requests : List TemplateRequest) (turns : Turns) (index : Nat) : Prop where
  writes : ∀ command ∈ turns.due index,
    Command.writes (store.templatePath imageType name) command = true ∨
      Command.writes (store.metaPath imageType name) command = true →
    ∀ other, other ≠ index → ¬ turns.Writing store imageType name other ∧
      ¬ turns.Reading store imageType name requests other
  reads : ∀ command ∈ turns.due index,
    Command.reads (store.templatePath imageType name) command = true →
    ∀ other, other ≠ index → ¬ turns.Writing store imageType name other

/-! ## Who wrote last -/

/-- The put that has written the content alone has written it last, and without one the two files
are of one put; so they are while a get is between its reads. -/
structure Undisturbed (name : String) (turns : Turns) (stages : List Stage) : Prop where
  writing : ∀ index req record, stages[index]? = some (.putMetadata req record) →
    turns.contentBy = some index
  resting : (∀ (index : Nat) req record, stages[index]? ≠ some (Stage.putMetadata req record)) →
    turns.contentBy = turns.modeBy
  reading : ∀ index content, stages[index]? = some (.getMetadata name content) →
    turns.readFrom index = turns.contentBy ∧ turns.contentBy = turns.modeBy

section Advance

variable {imageType name : String} {stage : Stage} {files laterFiles : FileTable}

theorem before_metadata {req : TemplateCreateRequest} {record : TemplateMeta}
    (advance : Advance imageType name stage files (.putMetadata req record) laterFiles) :
    stage = .putContent req record := by
  cases advance
  rfl

theorem before_get_metadata {resolved content : String}
    (advance : Advance imageType name stage files (.getMetadata resolved content) laterFiles) :
    stage = .getLoad resolved := by
  cases advance
  rfl

end Advance

section Turn

variable {store : TemplateStore} {imageType name : String} {place : List String}
  {initial : FileTable} {requests : List TemplateRequest} {turns : Turns} {stages : List Stage}
  {files : FileTable} {index : Nat}

theorem Going.writing (going : Going store imageType name place initial requests turns stages files)
    {req : TemplateCreateRequest} {record : TemplateMeta}
    (at_stage : stages[index]? = some (.putMetadata req record)) :
    turns.Writing store imageType name index :=
  ⟨_, going.due_step at_stage rfl, decide_eq_true rfl⟩

theorem Going.reading (going : Going store imageType name place initial requests turns stages files)
    {content : String} (at_stage : stages[index]? = some (.getMetadata name content)) :
    turns.Reading store imageType name requests index := by
  have in_range : index < requests.length := by
    rw [← going.length]
    exact (List.getElem?_eq_some_iff.mp at_stage).1
  have at_request := List.getElem?_eq_getElem in_range
  have follows := going.follows index _ _ at_request at_stage
  cases request : requests[index] with
  | put req =>
    rw [request] at follows
    exact follows.elim
  | get =>
    rw [request] at at_request
    obtain ⟨next, step, -⟩ := get_metadata_step store imageType name name content
    exact ⟨at_request, _, going.due_step at_stage step, decide_eq_true rfl⟩

omit [Serialize TemplateMeta] [Deserialize TemplateMeta] in
theorem writes_content_eq {stage : Stage} (writes : stage.writesContent = true) :
    ∃ req record, stage = .putContent req record := by
  cases stage with
  | putContent req record => exact ⟨req, record, rfl⟩
  | _ => cases writes

omit [Serialize TemplateMeta] [Deserialize TemplateMeta] in
theorem writes_metadata_eq {stage : Stage} (writes : stage.writesMetadata = true) :
    ∃ req record, stage = .putMetadata req record := by
  cases stage with
  | putMetadata req record => exact ⟨req, record, rfl⟩
  | _ => cases writes

section Advancing

variable {stage later : Stage} {command : Command}
  {next : Except FileError command.Reply → Program (Option LoadedTemplate)} {laterFiles : FileTable}

/-- Where no other request is between its commands, there is only the one whose turn it was to
look at. -/
theorem Undisturbed.of_alone
    (going : Going store imageType name place initial requests turns stages files)
    (at_stage : stages[index]? = some stage)
    (alone : ∀ other, other ≠ index → ¬ turns.Writing store imageType name other ∧
      ¬ turns.Reading store imageType name requests other)
    {moved : Turns} (no_get : ∀ content, later ≠ .getMetadata name content)
    (writing : ∀ req record, later = .putMetadata req record → moved.contentBy = some index)
    (resting : (∀ req record, later ≠ .putMetadata req record) → moved.contentBy = moved.modeBy) :
    Undisturbed name moved (stages.set index later) := by
  have in_range : index < stages.length := (List.getElem?_eq_some_iff.mp at_stage).1
  exact {
    writing := by
      intro other req record at_other
      rcases eq_or_ne other index with rfl | differs
      · rw [List.getElem?_set_self in_range] at at_other
        exact writing req record (Option.some.inj at_other)
      · rw [List.getElem?_set_ne (Ne.symm differs)] at at_other
        exact absurd (going.writing at_other) (alone other differs).1
    resting := by
      intro rests
      refine resting fun req record put => rests index req record ?_
      rw [List.getElem?_set_self in_range, put]
    reading := by
      intro other content at_other
      rcases eq_or_ne other index with rfl | differs
      · rw [List.getElem?_set_self in_range] at at_other
        exact absurd (Option.some.inj at_other) (no_get content)
      · rw [List.getElem?_set_ne (Ne.symm differs)] at at_other
        exact absurd (going.reading at_other) (alone other differs).2 }

/-- A put that writes its content is then the only request between its commands. -/
theorem Undisturbed.write_content
    (going : Going store imageType name place initial requests turns stages files)
    {req : TemplateCreateRequest} {record : TemplateMeta}
    (recorded : Recorded name turns (.putContent req record) index
      (Turns.turn store imageType name turns index))
    (at_stage : stages[index]? = some (.putContent req record))
    (alone : ∀ other, other ≠ index → ¬ turns.Writing store imageType name other ∧
      ¬ turns.Reading store imageType name requests other) :
    Undisturbed name (Turns.turn store imageType name turns index)
      (stages.set index (.putMetadata req record)) := by
  refine of_alone going at_stage alone ?_ ?_ ?_
  · rintro content ⟨⟩
  · exact fun _ _ _ => recorded.contentBy
  · exact fun rests => absurd rfl (rests req record)

/-- A put that writes its metadata has written the content last. -/
theorem Undisturbed.write_metadata
    (going : Going store imageType name place initial requests turns stages files)
    (undisturbed : Undisturbed name turns stages) {req : TemplateCreateRequest} {record : TemplateMeta}
    {result : Except FileError (Option LoadedTemplate)}
    (recorded : Recorded name turns (.putMetadata req record) index
      (Turns.turn store imageType name turns index))
    (at_stage : stages[index]? = some (.putMetadata req record))
    (alone : ∀ other, other ≠ index → ¬ turns.Writing store imageType name other ∧
      ¬ turns.Reading store imageType name requests other) :
    Undisturbed name (Turns.turn store imageType name turns index)
      (stages.set index (.ended result)) := by
  refine of_alone going at_stage alone ?_ ?_ fun _ => ?_
  · rintro content ⟨⟩
  · rintro req record ⟨⟩
  · rw [recorded.contentBy, recorded.modeBy]
    exact undisturbed.writing index req record at_stage

/-- A turn that writes neither file; the content that it may read is followed by its metadata. -/
theorem Undisturbed.quiet
    (going : Going store imageType name place initial requests turns stages files)
    (undisturbed : Undisturbed name turns stages)
    (recorded : Recorded name turns stage index (Turns.turn store imageType name turns index))
    (at_stage : stages[index]? = some stage)
    (advance : Advance imageType name stage files later laterFiles)
    (quiet : stage.writesContent = false) (quiet' : stage.writesMetadata = false)
    (no_put : stage = .getLoad name → ∀ other, other ≠ index →
      ¬ turns.Writing store imageType name other) :
    Undisturbed name (Turns.turn store imageType name turns index) (stages.set index later) := by
  have in_range : index < stages.length := (List.getElem?_eq_some_iff.mp at_stage).1
  have same_content : (Turns.turn store imageType name turns index).contentBy = turns.contentBy := by
    rw [recorded.contentBy, quiet, if_neg Bool.false_ne_true]
  have same_mode : (Turns.turn store imageType name turns index).modeBy = turns.modeBy := by
    rw [recorded.modeBy, quiet', if_neg Bool.false_ne_true]
  have not_writing : ∀ req record, stage ≠ .putMetadata req record := by
    rintro req record rfl
    cases quiet'
  exact {
    writing := by
      intro other req record at_other
      rw [same_content]
      rcases eq_or_ne other index with rfl | differs
      · rw [List.getElem?_set_self in_range] at at_other
        rw [Option.some.inj at_other] at advance
        rw [before_metadata advance] at quiet
        cases quiet
      · rw [List.getElem?_set_ne (Ne.symm differs)] at at_other
        exact undisturbed.writing other req record at_other
    resting := by
      intro rests
      rw [same_content, same_mode]
      refine undisturbed.resting fun other req record at_other => ?_
      rcases eq_or_ne other index with rfl | differs
      · exact not_writing req record (Option.some.inj (at_stage.symm.trans at_other))
      · refine rests other req record ?_
        rwa [List.getElem?_set_ne (Ne.symm differs)]
    reading := by
      intro other content at_other
      rw [same_content, same_mode]
      rcases eq_or_ne other index with rfl | differs
      · rw [List.getElem?_set_self in_range] at at_other
        rw [Option.some.inj at_other] at advance
        have load := before_get_metadata advance
        refine ⟨recorded.read_own load, undisturbed.resting fun own req record at_own => ?_⟩
        rcases eq_or_ne own other with rfl | differs
        · exact not_writing req record (Option.some.inj (at_stage.symm.trans at_own))
        · exact no_put load own differs (going.writing at_own)
      · rw [List.getElem?_set_ne (Ne.symm differs)] at at_other
        rw [recorded.read_other other differs]
        exact undisturbed.reading other content at_other }

theorem Undisturbed.turn
    (going : Going store imageType name place initial requests turns stages files)
    (undisturbed : Undisturbed name turns stages)
    (at_stage : stages[index]? = some stage) (due : turns.due index = some command)
    (advances : Advances store imageType name place turns.disk files stage command next later laterFiles)
    (undisturbing : Undisturbing store imageType name requests turns index) :
    Undisturbed name (Turns.turn store imageType name turns index) (stages.set index later) := by
  have recorded := turn_recorded (going.due_program at_stage advances.step) advances
  have alone := undisturbing.writes command due
  rw [advances.content, advances.metadata] at alone
  cases content : stage.writesContent with
  | true =>
    obtain ⟨req, record, rfl⟩ := writes_content_eq content
    have moved := advances.advance
    cases moved
    exact write_content going recorded at_stage (alone (.inl rfl))
  | false =>
    cases metadata : stage.writesMetadata with
    | true =>
      obtain ⟨req, record, rfl⟩ := writes_metadata_eq metadata
      have moved := advances.advance
      cases moved
      exact write_metadata going undisturbed recorded at_stage (alone (.inr rfl))
    | false =>
      exact undisturbed.quiet going recorded at_stage advances.advance content metadata
        fun load => undisturbing.reads command due (advances.reads load)

end Advancing

/-! ## The schedule -/

/-- A get that reads the metadata of the template itself. -/
theorem Going.reads_own (going : Going store imageType name place initial requests turns stages files)
    (entry' : EntryName name) (at_request : requests[index]? = some .get) {stage : Stage}
    (at_stage : stages[index]? = some stage) {command : Command} (due : turns.due index = some command)
    (reads : Command.reads (store.metaPath imageType name) command = true) :
    ∃ content, stage = .getMetadata name content := by
  have follows := going.follows index .get stage at_request at_stage
  have ready := going.ready entry' at_request at_stage
  have same_path : ∀ file : String, Ordinary file →
      decide (store.templatePath imageType file = store.metaPath imageType name) = true →
      file = metaName name :=
    fun file ordinary same => join_inj ordinary.relative (meta_name_ordinary entry'.toOrdinary).relative
      (of_decide_eq_true same)
  cases stage with
  | getFrom candidate rest =>
    cases (going.due_step at_stage rfl).symm.trans due
    cases reads
  | getLoad resolved =>
    cases (going.due_step at_stage rfl).symm.trans due
    have same := same_path resolved ready.1 reads
    rw [Follows] at follows
    split at follows
    · rename_i own
      exact absurd (same.symm.trans own) (meta_name_ne name)
    · rename_i other
      exact absurd same (extension_ne (found_listed follows).1 other).1
  | getMetadata resolved content =>
    obtain ⟨next, step, -⟩ := get_metadata_step store imageType name resolved content
    cases (going.due_step at_stage step).symm.trans due
    have same := same_path (metaName resolved) (meta_name_ordinary ready) reads
    rw [meta_name_inj] at same
    exact ⟨content, by rw [same]⟩
  | getStamp resolved content =>
    cases (going.due_step at_stage rfl).symm.trans due
    cases reads
  | getStamped resolved content createdAt =>
    cases (going.due_step at_stage rfl).symm.trans due
    cases reads
  | ended result =>
    rw [going.due_over at_stage] at due
    cases due
  | _ => exact follows.elim

/-- Undisturbed requests take their turns in order. -/
theorem Undisturbed.in_order
    (going : Going store imageType name place initial requests turns stages files)
    (undisturbed : Undisturbed name turns stages) (entry : EntryName imageType)
    (entry' : EntryName name) (index : Nat) : InOrder store imageType name requests turns index := by
  intro request at_request command due
  have in_range : index < stages.length := by
    rw [going.length]
    exact (List.getElem?_eq_some_iff.mp at_request).1
  have at_stage := List.getElem?_eq_getElem in_range
  cases request with
  | put req =>
    intro writes
    obtain ⟨own, next, later, laterFiles, advances⟩ := stage_advances going.shown entry entry'
      (fun result same => by
        rw [same] at at_stage
        rw [going.due_over at_stage] at due
        cases due)
      (going.ready entry' at_request at_stage)
      (going.directory _ (List.mem_of_getElem? at_stage))
    cases (going.due_step at_stage advances.step).symm.trans due
    obtain ⟨put, record, at_put⟩ := writes_metadata_eq (advances.metadata.symm.trans writes)
    rw [at_put] at at_stage
    refine .inl ?_
    rw [Turns.contentPending, undisturbed.writing index put record at_stage, Option.any_some, due]
    rfl
  | get =>
    intro reads
    obtain ⟨content, at_get⟩ := going.reads_own entry' at_request at_stage due reads
    rw [at_get] at at_stage
    obtain ⟨from_last, same⟩ := undisturbed.reading index content at_stage
    exact .inl (from_last.trans same)

theorem in_order_of_undisturbed (codec : ReadsBack) (entry : EntryName imageType)
    (entry' : EntryName name)
    (going : Going store imageType name place initial requests turns stages files)
    (undisturbed : Undisturbed name turns stages) {schedule : List Nat}
    (undisturbing : GuardedRun.Each (Turns.turn store imageType name)
      (Undisturbing store imageType name requests) turns schedule) :
    GuardedRun.Each (Turns.turn store imageType name) (InOrder store imageType name requests) turns
      schedule := by
  induction schedule generalizing turns stages files with
  | nil => trivial
  | cons index rest ih =>
    have order := undisturbed.in_order going entry entry' index
    refine ⟨order, ?_⟩
    rcases turn_moves codec entry entry' going order with
      same | ⟨stage, command, next, later, laterFiles, at_stage, due, advances, kept⟩
    · have later := undisturbing.2
      rw [same] at later ⊢
      exact ih going undisturbed later
    · exact ih kept (undisturbed.turn going at_stage due advances undisturbing.1) undisturbing.2

theorem undisturbed_start (disk : Disk) :
    Undisturbed name (Turns.start store imageType name requests disk)
      (requests.map (TemplateRequest.stage name)) where
  writing := by
    intro index req record at_stage
    rw [List.getElem?_map] at at_stage
    obtain ⟨request, -, same⟩ := Option.map_eq_some_iff.mp at_stage
    cases request <;> cases same
  resting := fun _ => rfl
  reading := by
    intro index content at_stage
    rw [List.getElem?_map] at at_stage
    obtain ⟨request, -, same⟩ := Option.map_eq_some_iff.mp at_stage
    cases request <;> cases same

/-- **Requests that do not come between the commands of each other tear nothing**, in any order of
turns. -/
theorem untorn_of_undisturbed (codec : ReadsBack) {disk : Disk}
    (shown : Shows store disk place initial) (entry : EntryName imageType) (entry' : EntryName name)
    {schedule : List Nat}
    (undisturbing : GuardedRun.Each (Turns.turn store imageType name)
      (Undisturbing store imageType name requests)
      (Turns.start store imageType name requests disk) schedule) :
    GuardedRun.Throughout (Turns.turn store imageType name)
      (Untorn store imageType name disk requests)
      (Turns.start store imageType name requests disk) schedule := by
  have in_order := in_order_of_undisturbed codec entry entry' (going_start shown requests)
    (undisturbed_start disk) undisturbing
  exact (going_throughout codec shown entry entry' in_order).mono
    fun turns ⟨stages, own, going⟩ => going.untorn entry entry' shown

end Turn

end Requests

end CloudId
