import CloudId.Library.JsonText
import CloudId.OneshotProofs
import CloudId.Library.WriteThrough

/-! What a restart finds of the assignments and the oneshot completions. Both are
kept in memory and written to a file of their own as a whole, so both are a
`WriteThrough.Table`; the requests are its changes. The state is followed through
runs of requests whose saves may fail, and fail half way. -/
namespace CloudId
open Effects FileSystem GuardedRun WriteThrough

/-! ## Restarts -/

/-- The data volume when operations no longer fail. -/
def calm (disk : Disk) : Disk := { disk with fault := fun _ => none }

theorem calm_healthy (disk : Disk) : (calm disk).Healthy := fun _ => rfl

theorem read_text_calm (disk : Disk) (path : String) :
    (calm disk).readText path = disk.readText path := by
  rw [Disk.readText, Disk.readText, Disk.fileAt, Disk.fileAt, Disk.find, Disk.find,
    @Disk.resolve_of_same_nodes (calm disk) disk rfl rfl path]
  rfl

theorem load_assignments_eq [Deserialize AssignmentsFile] {disk : Disk} (healthy : disk.Healthy) (store : TemplateStore) :
    store.loadAssignments disk =
      .ok (((disk.readText store.assignmentsPath).bind Deserialize.fromStr).getD {}) disk.tick := by
  obtain ⟨result, read, text⟩ := attempt_read_eq healthy store.assignmentsPath
  rw [TemplateStore.loadAssignments, bind_ok read, ← text]
  cases result with
  | ok data => rfl
  | error error => rfl

theorem load_oneshot_eq [Deserialize OneshotState] {disk : Disk} (healthy : disk.Healthy) (store : TemplateStore) :
    store.loadOneshot disk =
      .ok (((disk.readText store.oneshotPath).bind Deserialize.fromStr).getD {}) disk.tick := by
  obtain ⟨result, read, text⟩ := attempt_read_eq healthy store.oneshotPath
  rw [TemplateStore.loadOneshot, bind_ok read, ← text]
  cases result with
  | ok data => rfl
  | error error => rfl

section Restart

variable [Deserialize AssignmentsFile] [Deserialize OneshotState]

/-- The assignments that a restart loads. -/
def Service.reloadedAssignments (service : Service) : HashMap String Assignment :=
  match service.app.templateStore.loadAssignments (calm service.disk) with
  | .ok file _ => file.assignments
  | .error _ _ => ∅

/-- The completions that a restart loads. -/
def Service.reloadedCompletions (service : Service) : HashMap String String :=
  match service.app.templateStore.loadOneshot (calm service.disk) with
  | .ok state _ => state.completed
  | .error _ _ => ∅

/-- The memory holds what a restart would load. -/
structure Service.Loaded (service : Service) : Prop where
  assignments : HashMap.Same service.app.assignments.assignments service.reloadedAssignments
  completions : HashMap.Same service.app.oneshot.completed service.reloadedCompletions

omit [Deserialize OneshotState] in
theorem reloaded_assignments_eq (service : Service) :
    service.reloadedAssignments =
      (((service.disk.readText service.app.templateStore.assignmentsPath).bind
        Deserialize.fromStr).getD ({} : AssignmentsFile)).assignments := by
  delta Service.reloadedAssignments
  rw [load_assignments_eq (calm_healthy _), read_text_calm]

omit [Deserialize AssignmentsFile] in
theorem reloaded_completions_eq (service : Service) :
    service.reloadedCompletions =
      (((service.disk.readText service.app.templateStore.oneshotPath).bind
        Deserialize.fromStr).getD ({} : OneshotState)).completed := by
  delta Service.reloadedCompletions
  rw [load_oneshot_eq (calm_healthy _), read_text_calm]

end Restart

/-! ## Requests that change a file -/

/-- A request that changes the assignments or the completions, or an update of
the records of the hosts by a watcher. -/
inductive RecordEvent where
  | assignmentsPut (hostname : String) (req : AssignmentRequest)
  | assignmentsDelete (hostname : String)
  | oneshotProvisioned (ip : IpAddr)
  | oneshotDelete (hostname : String)
  | hostsLearned (bmh : BmhState)

/-- The answer to a request, and the service after it. -/
def answerOf : EStateM.Result Panic Service Response → Response × Service
  | .ok response service => (response, service)
  | .error _ service => (.panicked, service)

/-- The map with another value at a key, or with none. -/
def assigned {υ : Type} (held : HashMap String υ) (key : String) : Option υ → HashMap String υ
  | some value => held.insert key value
  | none => held.erase key

theorem lookup_assigned {υ : Type} (held : HashMap String υ) (key : String) (value : Option υ) :
    (assigned held key value).lookup = Function.update held.lookup key value := by
  funext probe
  cases value with
  | some value =>
    rw [assigned, HashMap.lookup_insert_eq]
    by_cases same : probe = key <;> simp [same]
  | none =>
    rw [assigned, HashMap.lookup_erase_eq]
    by_cases same : probe = key <;> simp [same]

/-- The answer after a save. -/
def saveAnswer (success : StatusCode) : WriteEnd → Response
  | .saved => .status success
  | _ => .status .internalServerError

/-- A save is answered by how it ends. -/
theorem io_write_eq (path : String) (content : ByteArray) (service : Service)
    (success : StatusCode) :
    ∃ result, Handler.io (write path content) service =
        .ok result { service with disk := finalState (write path content service.disk) } ∧
      orServerError (fun _ => .status success) result =
        saveAnswer success (service.disk.writeEnd path content.size) := by
  have succeeds := write_ok_iff path content service.disk
  rw [Handler.io]
  cases written : write path content service.disk with
  | ok _ disk =>
    refine ⟨.ok (), rfl, ?_⟩
    rw [succeeds.mp ⟨disk, written⟩]
    rfl
  | error error disk =>
    refine ⟨.error error, rfl, ?_⟩
    have failed : service.disk.writeEnd path content.size ≠ .saved := by
      intro saved
      obtain ⟨final, returned⟩ := succeeds.mpr saved
      rw [returned] at written
      cases written
    cases ends : service.disk.writeEnd path content.size with
    | saved => exact absurd ends failed
    | _ => rfl

section Events

variable [Serialize AssignmentsFile] [Serialize OneshotState]

def RecordEvent.handle : RecordEvent → Handler Response
  | .assignmentsPut hostname req => CloudId.assignmentsPut hostname req
  | .assignmentsDelete hostname => CloudId.assignmentsDelete hostname
  | .oneshotProvisioned ip => CloudId.oneshotProvisioned ip
  | .oneshotDelete hostname => CloudId.oneshotDelete hostname
  | .hostsLearned bmh => do
    Handler.modifyApp fun app => { app with bmh }
    return .status .ok

def Service.respond (service : Service) (event : RecordEvent) : Response × Service :=
  answerOf (event.handle service)

/-- The text of the assignments file with another value at a key. -/
def Service.assignmentsTextAfter (service : Service) (hostname : String)
    (value : Option Assignment) : String :=
  Serialize.toStringPretty
    ({ assignments := assigned service.app.assignments.assignments hostname value } :
      AssignmentsFile)

/-- The text of the oneshot file with another value at a key. -/
def Service.oneshotTextAfter (service : Service) (hostname : String) (value : Option String) :
    String :=
  Serialize.toStringPretty
    ({ completed := assigned service.app.oneshot.completed hostname value } : OneshotState)

/-- The change of an assignment, and how the save ends that comes with it. -/
def Service.assignmentSave (service : Service) (hostname : String) (value : Option Assignment) :
    Change String Assignment where
  key := hostname
  value
  ends := service.disk.writeEnd service.app.templateStore.assignmentsPath
    (service.assignmentsTextAfter hostname value).toUTF8.size

/-- The change of a completion, and how the save ends that comes with it. -/
def Service.completionSave (service : Service) (hostname : String) (value : Option String) :
    Change String String where
  key := hostname
  value
  ends := service.disk.writeEnd service.app.templateStore.oneshotPath
    (service.oneshotTextAfter hostname value).toUTF8.size

/-- What an event does to the assignments. -/
def Service.assignmentChange (service : Service) :
    RecordEvent → Option (Change String Assignment)
  | .assignmentsPut hostname req =>
    some (service.assignmentSave hostname
      (some { imageType := req.imageType, template := req.template }))
  | .assignmentsDelete hostname =>
    if hostname ∈ service.app.assignments.assignments then
      some (service.assignmentSave hostname none)
    else none
  | _ => none

/-- What an event does to the completions. The time stamp is read before the
save. -/
def Service.completionChange (service : Service) :
    RecordEvent → Option (Change String String)
  | .oneshotProvisioned ip =>
    (service.app.bmh.ipToHostname.lookup ip).map fun hostname =>
      { service with disk := service.disk.tick }.completionSave hostname
        (some (toString (service.disk.clock service.disk.ticks)))
  | .oneshotDelete hostname =>
    if hostname ∈ service.app.oneshot.completed then some (service.completionSave hostname none)
    else none
  | _ => none

/-- The service after a change of an assignment. -/
def Service.afterAssignmentSave (service : Service) (hostname : String)
    (value : Option Assignment) : Service where
  app := { service.app with
    assignments := { assignments := assigned service.app.assignments.assignments hostname value } }
  disk := finalState (write service.app.templateStore.assignmentsPath
    (service.assignmentsTextAfter hostname value).toUTF8 service.disk)

/-- The service after a change of a completion. -/
def Service.afterCompletionSave (service : Service) (hostname : String) (value : Option String) :
    Service where
  app := { service.app with
    oneshot := { completed := assigned service.app.oneshot.completed hostname value } }
  disk := finalState (write service.app.templateStore.oneshotPath
    (service.oneshotTextAfter hostname value).toUTF8 service.disk)

omit [Serialize OneshotState] in
theorem change_assignments_eq (service : Service) (hostname : String) (value : Option Assignment)
    (success : StatusCode) :
    changeAssignments (assigned · hostname value) success service =
      .ok (saveAnswer success (service.assignmentSave hostname value).ends)
        (service.afterAssignmentSave hostname value) := by
  obtain ⟨result, saved, answer⟩ := io_write_eq service.app.templateStore.assignmentsPath
    (service.assignmentsTextAfter hostname value).toUTF8
    { service with app := { service.app with assignments :=
      { assignments := assigned service.app.assignments.assignments hostname value } } } success
  refine (bind_ok rfl).trans ((bind_ok rfl).trans ((bind_ok saved).trans ?_))
  rw [answer]
  rfl

omit [Serialize AssignmentsFile] in
theorem change_oneshot_eq (service : Service) (hostname : String) (value : Option String)
    (success : StatusCode) :
    changeOneshot (assigned · hostname value) success service =
      .ok (saveAnswer success (service.completionSave hostname value).ends)
        (service.afterCompletionSave hostname value) := by
  obtain ⟨result, saved, answer⟩ := io_write_eq service.app.templateStore.oneshotPath
    (service.oneshotTextAfter hostname value).toUTF8
    { service with app := { service.app with oneshot :=
      { completed := assigned service.app.oneshot.completed hostname value } } } success
  refine (bind_ok rfl).trans ((bind_ok rfl).trans ((bind_ok saved).trans ?_))
  rw [answer]
  rfl

/-- The answer to an event, and the service after it. -/
theorem respond_eq (service : Service) (event : RecordEvent) :
    service.respond event =
      match event with
      | .assignmentsPut hostname req =>
        let value := some { imageType := req.imageType, template := req.template }
        (saveAnswer .ok (service.assignmentSave hostname value).ends,
          service.afterAssignmentSave hostname value)
      | .assignmentsDelete hostname =>
        if hostname ∈ service.app.assignments.assignments then
          (saveAnswer .noContent (service.assignmentSave hostname none).ends,
            service.afterAssignmentSave hostname none)
        else (.status .notFound, service)
      | .oneshotProvisioned ip =>
        match service.app.bmh.ipToHostname.lookup ip with
        | none => (.status .notFound, service)
        | some hostname =>
          let value := some (toString (service.disk.clock service.disk.ticks))
          let stamped := { service with disk := service.disk.tick }
          (saveAnswer .ok (stamped.completionSave hostname value).ends,
            stamped.afterCompletionSave hostname value)
      | .oneshotDelete hostname =>
        if hostname ∈ service.app.oneshot.completed then
          (saveAnswer .noContent (service.completionSave hostname none).ends,
            service.afterCompletionSave hostname none)
        else (.status .notFound, service)
      | .hostsLearned bmh => (.status .ok, { service with app := { service.app with bmh } }) := by
  rw [Service.respond]
  cases event with
  | assignmentsPut hostname req =>
    exact congrArg answerOf (change_assignments_eq service hostname (some _) .ok)
  | assignmentsDelete hostname =>
    refine (congrArg answerOf (bind_ok rfl)).trans ?_
    by_cases held : hostname ∈ service.app.assignments.assignments
    · simp only [held, not_true_eq_false, if_true, if_false]
      exact congrArg answerOf (change_assignments_eq service hostname none .noContent)
    · simp only [held, not_false_eq_true, if_true, if_false]
      rfl
  | oneshotProvisioned ip =>
    refine (congrArg answerOf (bind_ok rfl)).trans ?_
    dsimp only
    cases service.app.bmh.ipToHostname.lookup ip with
    | none => rfl
    | some hostname =>
      refine (congrArg answerOf (bind_ok rfl)).trans ?_
      exact congrArg answerOf
        (change_oneshot_eq { service with disk := service.disk.tick } hostname (some _) .ok)
  | oneshotDelete hostname =>
    refine (congrArg answerOf (bind_ok rfl)).trans ?_
    by_cases held : hostname ∈ service.app.oneshot.completed
    · simp only [held, not_true_eq_false, if_true, if_false]
      exact congrArg answerOf (change_oneshot_eq service hostname none .noContent)
    · simp only [held, not_false_eq_true, if_true, if_false]
      rfl
  | hostsLearned bmh => rfl

end Events

/-! ## What a save leaves in the files -/

def AssignmentsFile.Same (first second : AssignmentsFile) : Prop :=
  HashMap.Same first.assignments second.assignments

def OneshotState.Same (first second : OneshotState) : Prop :=
  HashMap.Same first.completed second.completed

theorem assignments_ordinary : Ordinary "assignments.json" := by decide

theorem oneshot_ordinary : Ordinary "oneshot.json" := by decide

section Files

variable [Serialize AssignmentsFile] [Deserialize AssignmentsFile] [Serialize OneshotState]
  [Deserialize OneshotState]

omit [Deserialize OneshotState] [Serialize OneshotState] in
/-- The assignments that are read back after a save, by how the save ends. -/
theorem reloaded_after_assignment_save
    (codec : TextCodec AssignmentsFile AssignmentsFile.Same) (service : Service)
    (hostname : String) (value : Option Assignment) :
    (service.afterAssignmentSave hostname value).reloadedAssignments.lookup =
      fileAfter (service.assignmentSave hostname value).ends service.reloadedAssignments.lookup
        (Function.update service.app.assignments.assignments.lookup hostname value) := by
  have reads := write_reads_back service.app.templateStore.assignmentsPath
    (service.assignmentsTextAfter hostname value) service.disk
  rw [reloaded_assignments_eq, reloaded_assignments_eq, ← lookup_assigned]
  exact lookup_reads_back AssignmentsFile.assignments {} (fun _ => rfl) codec reads

omit [Deserialize AssignmentsFile] [Serialize AssignmentsFile] in
/-- The completions that are read back after a save, by how the save ends. -/
theorem reloaded_after_completion_save
    (codec : TextCodec OneshotState OneshotState.Same) (service : Service)
    (hostname : String) (value : Option String) :
    (service.afterCompletionSave hostname value).reloadedCompletions.lookup =
      fileAfter (service.completionSave hostname value).ends service.reloadedCompletions.lookup
        (Function.update service.app.oneshot.completed.lookup hostname value) := by
  have reads := write_reads_back service.app.templateStore.oneshotPath
    (service.oneshotTextAfter hostname value) service.disk
  rw [reloaded_completions_eq, reloaded_completions_eq, ← lookup_assigned]
  exact lookup_reads_back OneshotState.completed {} (fun _ => rfl) codec reads

omit [Deserialize AssignmentsFile] [Serialize OneshotState] in
/-- The other file stays. -/
theorem completions_after_assignment_save (service : Service) (hostname : String)
    (value : Option Assignment) :
    (service.afterAssignmentSave hostname value).reloadedCompletions = service.reloadedCompletions := by
  have apart : ∀ place,
      service.disk.resolve service.app.templateStore.assignmentsPath = .ok place →
        service.disk.resolve service.app.templateStore.oneshotPath ≠ .ok place :=
    entries_apart assignments_ordinary oneshot_ordinary (by decide)
  have same : (service.afterAssignmentSave hostname value).disk.readText
      (service.afterAssignmentSave hostname value).app.templateStore.oneshotPath =
        service.disk.readText service.app.templateStore.oneshotPath :=
    write_reads_elsewhere _ apart
  rw [reloaded_completions_eq, reloaded_completions_eq, same]

omit [Deserialize OneshotState] [Serialize AssignmentsFile] in
/-- The other file stays. -/
theorem assignments_after_completion_save (service : Service) (hostname : String)
    (value : Option String) :
    (service.afterCompletionSave hostname value).reloadedAssignments = service.reloadedAssignments := by
  have apart : ∀ place,
      service.disk.resolve service.app.templateStore.oneshotPath = .ok place →
        service.disk.resolve service.app.templateStore.assignmentsPath ≠ .ok place :=
    entries_apart oneshot_ordinary assignments_ordinary (by decide)
  have same : (service.afterCompletionSave hostname value).disk.readText
      (service.afterCompletionSave hostname value).app.templateStore.assignmentsPath =
        service.disk.readText service.app.templateStore.assignmentsPath :=
    write_reads_elsewhere _ apart
  rw [reloaded_assignments_eq, reloaded_assignments_eq, same]

end Files

/-! ## Histories -/

/-- The service, with the values that its answers so far allow the entries of the
two files to have. -/
structure History where
  service : Service
  assignments : String → List (Option Assignment)
  completions : String → List (Option String)

/-- The change has been acknowledged. -/
def Response.acknowledges (response : Response) : Bool :=
  response.statusCode == some .ok || response.statusCode == some .noContent

/-- What an answer to a change allows: only the new value when the change is
acknowledged, otherwise the new value as well. -/
def allowed {υ : Type} (response : Response) (possible : String → List (Option υ)) :
    Option (Change String υ) → String → List (Option υ)
  | none => possible
  | some change => Function.update possible change.key
      (if response.acknowledges then [change.value] else change.value :: possible change.key)

/-- An acknowledged save ends well, and no other does. -/
theorem acknowledges_save {success : StatusCode} (counts : success = .ok ∨ success = .noContent)
    (ends : WriteEnd) : (saveAnswer success ends).acknowledges = decide (ends = .saved) := by
  rcases counts with rfl | rfl <;> cases ends <;> rfl

/-- The possible values after a save. -/
theorem allowed_save {υ : Type} {success : StatusCode}
    (counts : success = .ok ∨ success = .noContent) (table : Table String υ)
    (change : Change String υ) :
    allowed (saveAnswer success change.ends) table.possible (some change) =
      (table.after change).possible := by
  rw [allowed, acknowledges_save counts, Table.after]
  cases change.ends <;> rfl

section Histories

variable [Serialize AssignmentsFile] [Serialize OneshotState]

def History.after (history : History) (event : RecordEvent) : History :=
  let (response, service) := history.service.respond event
  { service
    assignments := allowed response history.assignments (history.service.assignmentChange event)
    completions := allowed response history.completions (history.service.completionChange event) }

variable [Deserialize AssignmentsFile] [Deserialize OneshotState]

/-- What a restart finds is all that is known of the entries. -/
def History.begin (service : Service) : History where
  service
  assignments hostname := [service.reloadedAssignments.lookup hostname]
  completions hostname := [service.reloadedCompletions.lookup hostname]

/-- The assignments as a table that is written through. -/
def History.assignmentTable (history : History) : Table String Assignment where
  memory := history.service.app.assignments.assignments.lookup
  file := history.service.reloadedAssignments.lookup
  possible := history.assignments

/-- The completions as a table that is written through. -/
def History.completionTable (history : History) : Table String String where
  memory := history.service.app.oneshot.completed.lookup
  file := history.service.reloadedCompletions.lookup
  possible := history.completions

omit [Serialize OneshotState] in
/-- The tables after a save of the assignments. -/
theorem tables_after_assignment_save (codec : TextCodec AssignmentsFile AssignmentsFile.Same)
    {history next : History} {hostname : String} {value : Option Assignment} {success : StatusCode}
    (counts : success = .ok ∨ success = .noContent)
    (made : next =
      { service := history.service.afterAssignmentSave hostname value
        assignments := allowed
          (saveAnswer success (history.service.assignmentSave hostname value).ends)
          history.assignments (some (history.service.assignmentSave hostname value))
        completions := history.completions }) :
    next.assignmentTable =
        history.assignmentTable.after (history.service.assignmentSave hostname value) ∧
      next.completionTable = history.completionTable := by
  subst made
  have learned := allowed_save counts history.assignmentTable
    (history.service.assignmentSave hostname value)
  have memory : (assigned history.service.app.assignments.assignments hostname value).lookup =
    Function.update history.service.app.assignments.assignments.lookup hostname value :=
      lookup_assigned ..
  constructor
  · rw [History.assignmentTable, reloaded_after_assignment_save codec]
    exact congrArg₂ (Table.mk · _ ·) memory learned
  · rw [History.completionTable, History.completionTable, completions_after_assignment_save]
    rfl

omit [Serialize AssignmentsFile] in
/-- The tables after a save of the completions. -/
theorem tables_after_completion_save (codec : TextCodec OneshotState OneshotState.Same)
    {history next : History} {service : Service} {hostname : String} {value : Option String}
    {success : StatusCode} (counts : success = .ok ∨ success = .noContent)
    (app : service.app = history.service.app)
    (assignments : service.reloadedAssignments = history.service.reloadedAssignments)
    (completions : service.reloadedCompletions = history.service.reloadedCompletions)
    (made : next =
      { service := service.afterCompletionSave hostname value
        assignments := history.assignments
        completions := allowed
          (saveAnswer success (service.completionSave hostname value).ends)
          history.completions (some (service.completionSave hostname value)) }) :
    next.assignmentTable = history.assignmentTable ∧
      next.completionTable =
        history.completionTable.after (service.completionSave hostname value) := by
  subst made
  have learned := allowed_save counts history.completionTable
    (service.completionSave hostname value)
  have memory : (assigned service.app.oneshot.completed hostname value).lookup =
    Function.update history.service.app.oneshot.completed.lookup hostname value := by
      rw [lookup_assigned, app]
  constructor
  · rw [History.assignmentTable, History.assignmentTable, assignments_after_completion_save,
      assignments, Service.afterCompletionSave, app]
  · rw [History.completionTable, reloaded_after_completion_save codec, completions, app]
    exact congrArg₂ (Table.mk · _ ·) memory learned

/-- The tables after an event. -/
theorem tables_after (assignmentsCodec : TextCodec AssignmentsFile AssignmentsFile.Same)
    (oneshotCodec : TextCodec OneshotState OneshotState.Same) (history : History)
    (event : RecordEvent) :
    (history.after event).assignmentTable =
        history.assignmentTable.afterEvent (history.service.assignmentChange event) ∧
      (history.after event).completionTable =
        history.completionTable.afterEvent (history.service.completionChange event) := by
  have spec := respond_eq history.service event
  rw [History.after, spec]
  cases event with
  | assignmentsPut hostname req =>
    exact tables_after_assignment_save assignmentsCodec (Or.inl rfl : StatusCode.ok = .ok ∨ _) rfl
  | assignmentsDelete hostname =>
    by_cases held : hostname ∈ history.service.app.assignments.assignments
    · simp only [held, if_true, Service.assignmentChange, Service.completionChange]
      exact tables_after_assignment_save assignmentsCodec
        (Or.inr rfl : _ ∨ StatusCode.noContent = .noContent) rfl
    · simp only [held, if_false, Service.assignmentChange, Service.completionChange]
      exact ⟨rfl, rfl⟩
  | oneshotProvisioned ip =>
    have read : ∀ path, history.service.disk.tick.readText path = history.service.disk.readText path :=
      fun path => congrArg (Option.bind · _) (Disk.file_at_tick ..)
    cases known : history.service.app.bmh.ipToHostname.lookup ip with
    | none =>
      simp only [Service.assignmentChange, Service.completionChange, known, Option.map_none]
      exact ⟨rfl, rfl⟩
    | some hostname =>
      simp only [Service.assignmentChange, Service.completionChange, known, Option.map_some]
      refine tables_after_completion_save oneshotCodec (Or.inl rfl : StatusCode.ok = .ok ∨ _)
        rfl ?_ ?_ rfl
      · rw [reloaded_assignments_eq, reloaded_assignments_eq, read]
      · rw [reloaded_completions_eq, reloaded_completions_eq, read]
  | oneshotDelete hostname =>
    by_cases held : hostname ∈ history.service.app.oneshot.completed
    · simp only [held, if_true, Service.assignmentChange, Service.completionChange]
      exact tables_after_completion_save oneshotCodec
        (Or.inr rfl : _ ∨ StatusCode.noContent = .noContent) rfl rfl rfl rfl
    · simp only [held, if_false, Service.assignmentChange, Service.completionChange]
      exact ⟨rfl, rfl⟩
  | hostsLearned bmh => exact ⟨rfl, rfl⟩

/-- A restart finds of every host an assignment and a completion that the answers
so far allow. -/
def History.Recovers (history : History) : Prop :=
  (∀ hostname,
    history.service.reloadedAssignments.lookup hostname ∈ history.assignments hostname) ∧
  ∀ hostname,
    history.service.reloadedCompletions.lookup hostname ∈ history.completions hostname

/-- If the save that comes with the event stops before its last byte, no entry of
its file has to be there. -/
def History.Safe (history : History) (event : RecordEvent) : Prop :=
  (∀ change, history.service.assignmentChange event = some change →
    history.assignmentTable.Safe change) ∧
  ∀ change, history.service.completionChange event = some change →
    history.completionTable.Safe change

/-- **Acknowledged assignments and completions survive a restart exactly as long
as no save is torn over one of them.**  Along every run of requests, whatever
saves fail and wherever they stop: after each of its beginnings a restart finds of
every host what was last acknowledged, or one of the changes that were answered
with an error since then, if and only if every save that stopped before its last
byte found no acknowledged entry in its file. -/
theorem acknowledged_records_survive_iff
    (assignmentsCodec : TextCodec AssignmentsFile AssignmentsFile.Same)
    (oneshotCodec : TextCodec OneshotState OneshotState.Same) (service : Service)
    (loaded : service.Loaded) (events : List RecordEvent) :
    Throughout History.after History.Recovers (.begin service) events ↔
      Each History.after History.Safe (.begin service) events := by
  refine throughout_iff_each_event (fun history : History =>
    history.assignmentTable.Consistent ∧ history.completionTable.Consistent) ?_ ?_ ?_ ?_
  · rintro history event ⟨assignments, completions⟩
    obtain ⟨assignments_after, completions_after⟩ :=
      tables_after assignmentsCodec oneshotCodec history event
    rw [assignments_after, completions_after]
    exact ⟨consistent_after_event assignments _, consistent_after_event completions _⟩
  · rintro history event ⟨assignments, completions⟩ ⟨found, found'⟩
    obtain ⟨assignments_after, completions_after⟩ :=
      tables_after assignmentsCodec oneshotCodec history event
    have recovers : (history.after event).Recovers ↔
        (history.after event).assignmentTable.Recovers ∧
          (history.after event).completionTable.Recovers := Iff.rfl
    rw [recovers, assignments_after, completions_after]
    exact and_congr (recovers_after_event_iff assignments found _)
      (recovers_after_event_iff completions found' _)
  · constructor
    · intro hostname
      exact List.mem_singleton.mpr (loaded.assignments hostname)
    · intro hostname
      exact List.mem_singleton.mpr (loaded.completions hostname)
  · exact ⟨fun _ => List.mem_singleton_self _, fun _ => List.mem_singleton_self _⟩

end Histories

/-! ## The text forms -/

/-- The entries of an object, inserted in turn. -/
def readEntries {υ : Type} (read : Json → Option υ) :
    HashMap String υ → List (String × Json) → Option (HashMap String υ)
  | held, [] => some held
  | held, (key, value) :: rest =>
    match read value with
    | some entry => readEntries read (held.insert key entry) rest
    | none => none

/-- What `derive(Deserialize)` makes of an assignment. -/
def Assignment.read (value : Json) : Option Assignment := do
  let imageType ← (← value.get? "image_type").asStr
  let template ← (← value.get? "template").asStr
  return { imageType, template }

/-- What `derive(Deserialize)` makes of the assignments file. -/
def AssignmentsFile.read (value : Json) : Option AssignmentsFile := do
  let entries ← (← value.get? "assignments").asObject
  return { assignments := ← readEntries Assignment.read ∅ entries }

/-- What `derive(Deserialize)` makes of the oneshot file. -/
def OneshotState.read (value : Json) : Option OneshotState := do
  let entries ← (← value.get? "completed").asObject
  return { completed := ← readEntries Json.asStr ∅ entries }

@[reducible] def assignmentsReader : Deserialize AssignmentsFile where
  fromStr text := (Json.parse text).bind AssignmentsFile.read

@[reducible] def oneshotReader : Deserialize OneshotState where
  fromStr text := (Json.parse text).bind OneshotState.read

theorem read_entries_map {υ : Type} {read : Json → Option υ} {form : υ → Json}
    (back : ∀ value, read (form value) = some value) (entries : List (String × υ))
    (held : HashMap String υ) :
    readEntries read held (entries.map fun entry => (entry.1, form entry.2)) =
      some (entries.foldl (fun held entry => held.insert entry.1 entry.2) held) := by
  induction entries generalizing held with
  | nil => rfl
  | cons entry rest step =>
    rw [List.map_cons, readEntries, back]
    exact step _

theorem textual_members {υ : Type} {form : υ → Json} (textual : ∀ value, (form value).Textual)
    (entries : List (String × υ)) :
    Json.TextualMembers (entries.map fun entry => (entry.1, form entry.2)) := by
  induction entries with
  | nil => trivial
  | cons entry rest step => exact ⟨textual entry.2, step⟩

/-- What is read back of the entries of a map is the map. -/
theorem read_entries_back {υ : Type} {read : Json → Option υ} {form : υ → Json}
    (back : ∀ value, read (form value) = some value) (held : HashMap String υ) :
    ∃ found, readEntries read ∅ (held.toList.map fun entry => (entry.1, form entry.2)) =
      some found ∧ HashMap.Same found held := by
  refine ⟨_, read_entries_map back held.toList ∅, ?_⟩
  exact HashMap.lookup_rebuilt held

/-- What `derive(Serialize)` makes of an assignment. -/
private def assignmentForm (value : Assignment) : Json :=
  .object [("image_type", .string value.imageType), ("template", .string value.template)]

theorem assignments_codec :
    @TextCodec AssignmentsFile assignmentsText assignmentsReader AssignmentsFile.Same := by
  have textual (file : AssignmentsFile) : file.serialize.Textual :=
    ⟨textual_members (fun value : Assignment => show (assignmentForm value).Textual from
      ⟨trivial, trivial, trivial⟩) _, trivial⟩
  refine @TextCodec.mk _ assignmentsText assignmentsReader _ ?_ ?_
  · intro file
    obtain ⟨found, read, same⟩ := read_entries_back (fun value : Assignment =>
      (rfl : Assignment.read (assignmentForm value) = some value)) file.assignments
    refine ⟨{ assignments := found }, ?_, same⟩
    change (Json.parse (file.serialize.pretty 0)).bind AssignmentsFile.read = _
    rw [Json.parse_pretty (textual file), Option.bind_some]
    exact congrArg (fun entries : Option (HashMap String Assignment) =>
      entries.bind fun found => some ({ assignments := found } : AssignmentsFile)) read
  · intro file cut more short split
    change (Json.parse cut).bind AssignmentsFile.read = none
    rw [Json.parse_cut (textual file) 0 split short]
    rfl

theorem oneshot_codec :
    @TextCodec OneshotState oneshotText oneshotReader OneshotState.Same := by
  have textual (state : OneshotState) : state.serialize.Textual :=
    ⟨textual_members (fun value : String => show (Json.string value).Textual from trivial) _,
      trivial⟩
  refine @TextCodec.mk _ oneshotText oneshotReader _ ?_ ?_
  · intro state
    obtain ⟨found, read, same⟩ := read_entries_back (fun value : String =>
      (rfl : (Json.string value).asStr = some value)) state.completed
    refine ⟨{ completed := found }, ?_, same⟩
    change (Json.parse (state.serialize.pretty 0)).bind OneshotState.read = _
    rw [Json.parse_pretty (textual state), Option.bind_some]
    exact congrArg (fun entries : Option (HashMap String String) =>
      entries.bind fun found => some ({ completed := found } : OneshotState)) read
  · intro state cut more short split
    change (Json.parse cut).bind OneshotState.read = none
    rw [Json.parse_cut (textual state) 0 split short]
    rfl

section Sample

attribute [local instance] assignmentsText assignmentsReader oneshotText oneshotReader

/-- The service with two hosts, whose second save of the completions is torn
before its first byte. -/
def twoHosts : Service where
  app :=
    { bmh := { ipToHostname :=
        ((∅ : HashMap IpAddr String).insert (.v4 10 0 0 5) "web1").insert (.v4 10 0 0 6) "web2" }
      templateStore := { dataDir := "/data" }
      config := sharedAddress.config }
  disk := { emptyVolume with fault := fun tick => if tick = 3 then some (.cut 0) else none }

/-- Both hosts report that they are provisioned. -/
def bothProvisioned : List RecordEvent :=
  [.oneshotProvisioned (.v4 10 0 0 5), .oneshotProvisioned (.v4 10 0 0 6)]

theorem two_hosts_loaded : twoHosts.Loaded where
  assignments := by
    have none_yet : twoHosts.reloadedAssignments.keys = [] := by decide +kernel
    exact HashMap.same_of_no_keys rfl none_yet
  completions := by
    have none_yet : twoHosts.reloadedCompletions.keys = [] := by decide +kernel
    exact HashMap.same_of_no_keys rfl none_yet

/-- The two hosts, whose files have the layout of the text forms. -/
theorem acknowledged_records_survive_iff_two_hosts :
    Throughout History.after History.Recovers (.begin twoHosts) bothProvisioned ↔
      Each History.after History.Safe (.begin twoHosts) bothProvisioned :=
  acknowledged_records_survive_iff assignments_codec oneshot_codec twoHosts two_hosts_loaded _

/-- The completion of the first host has been acknowledged; after the torn save
for the second one a restart does not find it. -/
theorem torn_save_forgets_other_host :
    twoHosts.Loaded ∧
    (twoHosts.respond (.oneshotProvisioned (.v4 10 0 0 5))).1 = .status .ok ∧
    ((bothProvisioned.foldl History.after (.begin twoHosts)).completions "web1" = [some "0"] ∧
      (bothProvisioned.foldl History.after (.begin twoHosts)).service.reloadedCompletions.lookup
        "web1" = none) ∧
    ¬ Throughout History.after History.Recovers (.begin twoHosts) bothProvisioned := by
  have known : (bothProvisioned.foldl History.after (.begin twoHosts)).completions "web1" =
      [some "0"] := by decide +kernel
  have lost : (bothProvisioned.foldl History.after
      (.begin twoHosts)).service.reloadedCompletions.lookup "web1" = none := by decide +kernel
  refine ⟨two_hosts_loaded, by decide +kernel, ⟨known, lost⟩, fun survives => ?_⟩
  have found := survives.last.2 "web1"
  rw [known, lost] at found
  simp at found

end Sample

end CloudId
