import CloudId.Library.Linearization
import CloudId.RecordsRun

/-! Overlapping requests to the assignments and the completions. `metadata/handlers.rs` changes a
map under its write lock and keeps the lock until the file is written; a map is listed under the
read lock. The steps of different requests mix as the locks allow, and anything else the service
does may come between them, but for a restart. -/
namespace CloudId
open Effects FileSystem WriteThrough Linearization

/-! ## The steps of a request -/

/-- What a request does to the records, once the host is known. -/
inductive RecordOp where
  | assign (hostname : String) (req : AssignmentRequest)
  | unassign (hostname : String)
  | complete (hostname : String)
  | completeUnknown
  | reset (hostname : String)
  | listAssignments
  | listCompletions

/-- Where a request stands that has not been answered. `oneshot_provisioned` looks up the host
before it waits for a lock. -/
inductive RecordPhase where
  | unnamed (ip : IpAddr)
  | waiting (op : RecordOp)
  | saving (op : RecordOp)

/-- The request that has a write lock, with the change it has made in memory. -/
structure Unsaved (υ : Type) where
  request : ℕ
  op : RecordOp
  key : String
  value : Option υ
  success : StatusCode

structure RecordWorld where
  service : Service
  assignmentsLock : Option (Unsaved Assignment) := none
  completionsLock : Option (Unsaved String) := none
  board : Board RecordPhase RecordOp Response := {}

namespace RecordWorld

/-- The request is answered. -/
def settle (world : RecordWorld) (request : ℕ) (op : RecordOp) (response : Response) : RecordWorld :=
  { world with board := world.board.settle request op response }

/-- An assignment is changed in memory under the lock. -/
def changeAssignment (world : RecordWorld) (request : ℕ) (op : RecordOp) (hostname : String)
    (value : Option Assignment) (success : StatusCode) : RecordWorld :=
  { world with
    service.app.assignments.assignments :=
      assigned world.service.app.assignments.assignments hostname value
    assignmentsLock := some { request, op, key := hostname, value, success }
    board := world.board.move request (.saving op) }

/-- A completion is changed in memory under the lock. -/
def changeCompletion (world : RecordWorld) (request : ℕ) (op : RecordOp) (hostname : String)
    (value : Option String) (success : StatusCode) : RecordWorld :=
  { world with
    service.app.oneshot.completed := assigned world.service.app.oneshot.completed hostname value
    completionsLock := some { request, op, key := hostname, value, success }
    board := world.board.move request (.saving op) }

/-- A request waits while another one has the lock. -/
def unlocked {υ : Type} (lock : Option (Unsaved υ)) (next : RecordWorld) : Option RecordWorld :=
  match lock with
  | some _ => none
  | none => some next

theorem unlocked_eq_some {υ : Type} {lock : Option (Unsaved υ)} {later next : RecordWorld}
    (went : unlocked lock later = some next) : lock = none ∧ later = next := by
  cases lock with
  | some unsaved => cases went
  | none => exact ⟨rfl, Option.some.inj went⟩

/-- A request takes its lock and goes on to the save, if there is one. The time stamp of a
completion is read under the lock. -/
def enter (world : RecordWorld) (request : ℕ) : RecordOp → Option RecordWorld
  | .assign hostname req =>
    unlocked world.assignmentsLock (world.changeAssignment request (.assign hostname req) hostname
      (some { imageType := req.imageType, template := req.template }) .ok)
  | .unassign hostname =>
    unlocked world.assignmentsLock <|
      if hostname ∉ world.service.app.assignments.assignments then
        world.settle request (.unassign hostname) (.status .notFound)
      else world.changeAssignment request (.unassign hostname) hostname none .noContent
  | .complete hostname =>
    let ts := world.service.disk.clock world.service.disk.ticks
    unlocked world.completionsLock ({ world with
      service.disk := world.service.disk.tick }.changeCompletion request
        (.complete hostname) hostname (some (toString ts)) .ok)
  | .completeUnknown => none
  | .reset hostname =>
    unlocked world.completionsLock <|
      if hostname ∉ world.service.app.oneshot.completed then
        world.settle request (.reset hostname) (.status .notFound)
      else world.changeCompletion request (.reset hostname) hostname none .noContent
  | .listAssignments =>
    unlocked world.assignmentsLock
      (world.settle request .listAssignments (.assignments world.service.app.assignments))
  | .listCompletions =>
    unlocked world.completionsLock
      (world.settle request .listCompletions (.oneshot world.service.app.oneshot))

/-- The next step of a request before its save. -/
def go (world : RecordWorld) (request : ℕ) : RecordPhase → Option RecordWorld
  | .unnamed ip =>
    match world.service.app.bmh.ipToHostname.lookup ip with
    | none => some (world.settle request .completeUnknown (.status .notFound))
    | some hostname =>
      some { world with board := world.board.move request (.waiting (.complete hostname)) }
  | .waiting op => world.enter request op
  | .saving _ => none

end RecordWorld

/-- How a request begins that is about assignments or completions. -/
def Request.recordPhase? : Request → Option RecordPhase
  | .assignmentsList => some (.waiting .listAssignments)
  | .assignmentsPut hostname req => some (.waiting (.assign hostname req))
  | .assignmentsDelete hostname => some (.waiting (.unassign hostname))
  | .oneshotList => some (.waiting .listCompletions)
  | .oneshotProvisioned ip => some (.unnamed ip)
  | .oneshotDelete hostname => some (.waiting (.reset hostname))
  | _ => none

/-- Whatever the service does that leaves the assignments, the completions and their files. -/
structure Service.Aside (service next : Service) : Prop where
  assignments : next.app.assignments = service.app.assignments
  oneshot : next.app.oneshot = service.app.oneshot
  store : next.app.templateStore = service.app.templateStore
  saved_assignments : next.disk.readText service.app.templateStore.assignmentsPath =
    service.disk.readText service.app.templateStore.assignmentsPath
  saved_completions : next.disk.readText service.app.templateStore.oneshotPath =
    service.disk.readText service.app.templateStore.oneshotPath

section Steps

variable [Serialize AssignmentsFile] [Serialize OneshotState]

/-- The rest of `changeAssignments` once the map is changed. -/
def persistAssignments (success : StatusCode) : Handler Response := do
  let state ← Handler.app
  let saved ← Handler.io (state.templateStore.saveAssignments state.assignments)
  return orServerError (fun _ => .status success) saved

def persistOneshot (success : StatusCode) : Handler Response := do
  let state ← Handler.app
  let saved ← Handler.io (state.templateStore.saveOneshot state.oneshot)
  return orServerError (fun _ => .status success) saved

namespace RecordWorld

/-- The request that has the lock saves, releases it and is answered. -/
def saveAssignments (world : RecordWorld) : Option RecordWorld :=
  world.assignmentsLock.map fun unsaved =>
    let (response, service) := answerOf (persistAssignments unsaved.success world.service)
    { world.settle unsaved.request unsaved.op response with service, assignmentsLock := none }

def saveCompletions (world : RecordWorld) : Option RecordWorld :=
  world.completionsLock.map fun unsaved =>
    let (response, service) := answerOf (persistOneshot unsaved.success world.service)
    { world.settle unsaved.request unsaved.op response with service, completionsLock := none }

end RecordWorld

inductive RecordStep : RecordWorld → RecordWorld → Prop where
  | call {world : RecordWorld} {request : Request} {phase : RecordPhase}
      (asks : request.recordPhase? = some phase) :
      RecordStep world { world with board := world.board.call phase }
  | go {world next : RecordWorld} {request : ℕ} {phase : RecordPhase}
      (stands : world.board.calls[request]? = some (.inl phase))
      (went : world.go request phase = some next) : RecordStep world next
  | saveAssignments {world next : RecordWorld} (saved : world.saveAssignments = some next) :
      RecordStep world next
  | saveCompletions {world next : RecordWorld} (saved : world.saveCompletions = some next) :
      RecordStep world next
  | aside {world : RecordWorld} {service : Service} (aside : world.service.Aside service) :
      RecordStep world { world with service }

end Steps

/-! ## What may come in between -/

/-- Requests that only read are aside. -/
theorem Service.Untouched.aside {service next : Service} (untouched : service.Untouched next) :
    service.Aside next := by
  obtain ⟨ticks, rfl⟩ := untouched
  have reads (path : String) :
      ({ service.disk with ticks } : Disk).readText path = service.disk.readText path := by
    have found : ({ service.disk with ticks } : Disk).fileAt path = service.disk.fileAt path :=
      @Disk.file_at_of_same_nodes { service.disk with ticks } service.disk rfl rfl path
    simp only [Disk.readText, found]
  exact ⟨rfl, rfl, rfl, reads _, reads _⟩

/-- Changes of templates are aside, at each of their steps. -/
theorem Beside.aside {service : Service} {base : List String} {disk : Disk}
    (opens : service.disk.Opens service.app.templateStore.dataDir base)
    (beside : Beside service.app.templateStore base service.disk disk) :
    service.Aside { service with disk } where
  assignments := rfl
  oneshot := rfl
  store := rfl
  saved_assignments := read_text_entry opens beside.opens assignments_ordinary
    (beside.same _ (by decide))
  saved_completions := read_text_entry opens beside.opens oneshot_ordinary
    (beside.same _ (by decide))

/-- A handler that answers with a file operation changes the data volume alone, however the
operation ends. -/
theorem store_final {α : Type} (service : Service) (op : AppState → FileM α)
    (answer : Except FileError α → Response) :
    finalState ((do
      let state ← Handler.app
      let result ← Handler.io (op state)
      return answer result : Handler Response) service) =
        { service with disk := finalState (op service.app service.disk) } := by
  cases ran : op service.app service.disk with
  | ok value disk =>
    rw [store_answer ran answer]
    rfl
  | error error disk =>
    have io : Handler.io (op service.app) service = .ok (.error error) { service with disk } := by
      rw [Handler.io, ran]
    have answered : (do
        let state ← Handler.app
        let result ← Handler.io (op state)
        return answer result : Handler Response) service =
          .ok (answer (.error error)) { service with disk } :=
      (bind_ok (show Handler.app service = .ok service.app service from rfl)).trans (bind_ok io)
    rw [answered]
    rfl

section Requests

variable [Serialize CloudConfig] [Serialize Json] [Deserialize Json] [Serialize IgnitionConfig]
  [Serialize TemplateMeta] [Deserialize TemplateMeta] [Serialize AssignmentsFile]
  [Serialize OneshotState]

/-- **Every other request with plain names may come in between**, while the directories of the
store are open. -/
theorem plain_request_aside {service : Service} {base : List String}
    (open_ : Beside service.app.templateStore base service.disk service.disk) {request : Request}
    (plain : request.Plain service.app) (other : request.recordPhase? = none) :
    service.Aside (service.after request) := by
  have changed {α : Type} (op : AppState → FileM α)
      (kept : Preserves (Beside service.app.templateStore base service.disk) (op service.app))
      (answer : Except FileError α → Response) : service.Aside (finalState ((do
        let state ← Handler.app
        let result ← Handler.io (op state)
        return answer result : Handler Response) service)) := by
    rw [store_final]
    exact (kept service.disk open_).aside open_.opens
  have read (reads : request.Reads) : service.Aside (service.after request) :=
    (reads_untouched reads service).aside
  rw [after_eq] at read ⊢
  cases request with
  | templatesPut imageType name req =>
    exact changed (fun state => state.templateStore.put imageType name req)
      (Beside.put req plain.type_entry.toOrdinary plain.name_entry.toOrdinary) _
  | templatesDelete imageType name =>
    exact changed (fun state => state.templateStore.delete imageType name)
      (Beside.delete plain.type_ordinary plain.name_ordinary) _
  | templatesRestore bundle =>
    exact changed (fun state => state.templateStore.restore bundle)
      (import_preserves (fun _ _ req => Beside.put req) bundle.templates fun entry listed =>
        ⟨(plain entry listed).type_entry.toOrdinary, (plain entry listed).name_entry.toOrdinary⟩) _
  | rebuildCache => exact ⟨rfl, rfl, rfl, rfl, rfl⟩
  | assignmentsList => cases other
  | assignmentsPut hostname req => cases other
  | assignmentsDelete hostname => cases other
  | oneshotList => cases other
  | oneshotProvisioned ip => cases other
  | oneshotDelete hostname => cases other
  | _ => exact read trivial

theorem plain_request_step {world : RecordWorld} {base : List String}
    (open_ : Beside world.service.app.templateStore base world.service.disk world.service.disk)
    {request : Request} (plain : request.Plain world.service.app)
    (other : request.recordPhase? = none) :
    RecordStep world { world with service := world.service.after request } :=
  .aside (plain_request_aside open_ plain other)

end Requests

/-! ## A request alone -/

section Alone

variable [Serialize CloudConfig] [Serialize Json] [Deserialize Json] [Serialize IgnitionConfig]
  [Serialize TemplateMeta] [Deserialize TemplateMeta] [Serialize AssignmentsFile]
  [Serialize OneshotState]

/-- The only request has been answered as its handler answers. -/
def RecordWorld.Ends (first : RecordWorld) (answered : Response × Service) : Prop :=
  ∃ last op, Relation.ReflTransGen RecordStep first last ∧ last.service = answered.2 ∧
    last.assignmentsLock = none ∧ last.completionsLock = none ∧
    last.board.calls = [.inr (op, answered.1)]

omit [Serialize CloudConfig] [Serialize Json] [Deserialize Json] [Serialize IgnitionConfig]
  [Serialize TemplateMeta] [Deserialize TemplateMeta] in
theorem assignment_alone (service : Service) (op : RecordOp) (hostname : String)
    (value : Option Assignment) (success : StatusCode) :
    RecordWorld.Ends
      ({ service, board := { calls := [.inl (.waiting op)] } : RecordWorld }.changeAssignment 0 op
        hostname value success)
      (answerOf (changeAssignments (assigned · hostname value) success service)) :=
  ⟨_, op, .single (.saveAssignments rfl), rfl, rfl, rfl, rfl⟩

omit [Serialize CloudConfig] [Serialize Json] [Deserialize Json] [Serialize IgnitionConfig]
  [Serialize TemplateMeta] [Deserialize TemplateMeta] in
theorem completion_alone (service : Service) (op : RecordOp) (hostname : String)
    (value : Option String) (success : StatusCode) :
    RecordWorld.Ends
      ({ service, board := { calls := [.inl (.waiting op)] } : RecordWorld }.changeCompletion 0 op
        hostname value success)
      (answerOf (changeOneshot (assigned · hostname value) success service)) :=
  ⟨_, op, .single (.saveCompletions rfl), rfl, rfl, rfl, rfl⟩

/-- **A request that nothing comes between is its handler.** -/
theorem alone_is_handler (service : Service) {request : Request} {phase : RecordPhase}
    (asks : request.recordPhase? = some phase) :
    RecordWorld.Ends { service } (service.answer request) := by
  have called : RecordStep { service } { service, board := { calls := [.inl phase] } } := .call asks
  have goes : ∀ {next : RecordWorld},
      RecordWorld.go { service, board := { calls := [.inl phase] } } 0 phase = some next →
        next.Ends (service.answer request) → RecordWorld.Ends { service } (service.answer request) := by
    rintro next went ⟨last, op, rest, ends⟩
    exact ⟨last, op, .head called (.head (.go rfl went) rest), ends⟩
  cases request with
  | assignmentsList =>
    cases asks
    exact goes rfl ⟨_, _, .refl, rfl, rfl, rfl, rfl⟩
  | assignmentsPut hostname req =>
    cases asks
    exact goes rfl (assignment_alone service _ hostname (some _) .ok)
  | assignmentsDelete hostname =>
    cases asks
    have begins : service.answer (.assignmentsDelete hostname) = answerOf
        ((if hostname ∉ service.app.assignments.assignments then return .status .notFound
        else changeAssignments (assigned · hostname none) .noContent : Handler Response) service) :=
      congrArg answerOf (bind_ok rfl)
    refine goes rfl ?_
    rw [begins]
    dsimp only
    by_cases there : hostname ∈ service.app.assignments.assignments
    · rw [if_neg (not_not.mpr there), if_neg (not_not.mpr there)]
      exact assignment_alone service _ hostname none .noContent
    · rw [if_pos there, if_pos there]
      exact ⟨_, _, .refl, rfl, rfl, rfl, rfl⟩
  | oneshotList =>
    cases asks
    exact goes rfl ⟨_, _, .refl, rfl, rfl, rfl, rfl⟩
  | oneshotProvisioned ip =>
    cases asks
    cases known : service.app.bmh.ipToHostname.lookup ip with
    | none =>
      have answered : service.answer (.oneshotProvisioned ip) = (.status .notFound, service) :=
        congrArg answerOf (provisioned_unknown known)
      rw [answered] at goes ⊢
      refine @goes (RecordWorld.settle { service, board := { calls := [.inl (.unnamed ip)] } } 0
        .completeUnknown (.status .notFound)) ?_ ⟨_, .completeUnknown, .refl, rfl, rfl, rfl, rfl⟩
      simp only [RecordWorld.go, known]
    | some hostname =>
      have answered : service.answer (.oneshotProvisioned ip) = answerOf
          (changeOneshot (assigned · hostname
            (some (toString (service.disk.clock service.disk.ticks)))) .ok
              { service with disk := service.disk.tick }) :=
        congrArg answerOf (provisioned_known known)
      rw [answered] at goes ⊢
      obtain ⟨last, op, rest, ends⟩ := completion_alone
        { service with disk := service.disk.tick } (.complete hostname) hostname
        (some (toString (service.disk.clock service.disk.ticks))) .ok
      refine @goes { service, board := { calls := [.inl (.waiting (.complete hostname))] } } ?_
        ⟨last, op, .head (@RecordStep.go _ _ _ _ 0 (.waiting (.complete hostname)) rfl rfl) rest, ends⟩
      simp only [RecordWorld.go, known]
      rfl
  | oneshotDelete hostname =>
    cases asks
    have begins : service.answer (.oneshotDelete hostname) = answerOf
        ((if hostname ∉ service.app.oneshot.completed then return .status .notFound
        else changeOneshot (assigned · hostname none) .noContent : Handler Response) service) :=
      congrArg answerOf (bind_ok rfl)
    refine goes rfl ?_
    rw [begins]
    dsimp only
    by_cases there : hostname ∈ service.app.oneshot.completed
    · rw [if_neg (not_not.mpr there), if_neg (not_not.mpr there)]
      exact completion_alone service _ hostname none .noContent
    · rw [if_pos there, if_pos there]
      exact ⟨_, _, .refl, rfl, rfl, rfl, rfl⟩
  | _ => cases asks

end Alone

/-! ## The records as an object that serves one request after the other -/

structure RecordTables where
  assignments : Table String Assignment
  completions : Table String String

/-- The change that a request makes to the assignments, and its answer if it is saved. -/
inductive ChangesAssignment (memory : String → Option Assignment) :
    RecordOp → String → Option Assignment → StatusCode → Prop where
  | assign (hostname : String) (req : AssignmentRequest) :
      ChangesAssignment memory (.assign hostname req) hostname
        (some { imageType := req.imageType, template := req.template }) .ok
  | unassign {hostname : String} (held : memory hostname ≠ none) :
      ChangesAssignment memory (.unassign hostname) hostname none .noContent

inductive ChangesCompletion (memory : String → Option String) :
    RecordOp → String → Option String → StatusCode → Prop where
  | complete (hostname ts : String) :
      ChangesCompletion memory (.complete hostname) hostname (some ts) .ok
  | reset {hostname : String} (held : memory hostname ≠ none) :
      ChangesCompletion memory (.reset hostname) hostname none .noContent

/-- How a request is answered in turn. A save may end in any way, and the answer says so. -/
inductive RecordTables.Serve (tables : RecordTables) : RecordOp → Response → RecordTables → Prop where
  | assignment {op : RecordOp} {hostname : String} {value : Option Assignment}
      {success : StatusCode}
      (changes : ChangesAssignment tables.assignments.memory op hostname value success)
      (ends : WriteEnd) :
      tables.Serve op (saveAnswer success ends)
        { tables with assignments := tables.assignments.after { key := hostname, value, ends } }
  | completion {op : RecordOp} {hostname : String} {value : Option String} {success : StatusCode}
      (changes : ChangesCompletion tables.completions.memory op hostname value success)
      (ends : WriteEnd) :
      tables.Serve op (saveAnswer success ends)
        { tables with completions := tables.completions.after { key := hostname, value, ends } }
  | unassigned {hostname : String} (absent : tables.assignments.memory hostname = none) :
      tables.Serve (.unassign hostname) (.status .notFound) tables
  | unmarked {hostname : String} (absent : tables.completions.memory hostname = none) :
      tables.Serve (.reset hostname) (.status .notFound) tables
  | unknown : tables.Serve .completeUnknown (.status .notFound) tables
  | listAssignments {file : AssignmentsFile}
      (shows : file.assignments.lookup = tables.assignments.memory) :
      tables.Serve .listAssignments (.assignments file) tables
  | listCompletions {state : OneshotState}
      (shows : state.completed.lookup = tables.completions.memory) :
      tables.Serve .listCompletions (.oneshot state) tables

/-- No request changes both tables. -/
theorem changes_one_table {first : String → Option Assignment} {second : String → Option String}
    {hostname hostname' : String} {value : Option Assignment} {value' : Option String}
    {success success' : StatusCode} {op : RecordOp} (changes : ChangesAssignment first op hostname value success)
    (changes' : ChangesCompletion second op hostname' value' success') : False := by
  cases changes <;> cases changes'

/-! ## What a lock guards -/

section Guarded

variable {υ : Type}

/-- The memory is ahead of the table by the change under the lock. -/
def ahead (lock : Option (Unsaved υ)) (memory : String → Option υ) : String → Option υ :=
  match lock with
  | none => memory
  | some unsaved => Function.update memory unsaved.key unsaved.value

/-- A map and its file stand for a table, up to the change of the request that has the lock. -/
structure Guards (changes : (String → Option υ) → RecordOp → String → Option υ → StatusCode → Prop)
    (lock : Option (Unsaved υ)) (memory saved : HashMap String υ)
    (board : Board RecordPhase RecordOp Response) (table : Table String υ) : Prop where
  memory : memory.lookup = ahead lock table.memory
  file : saved.lookup = table.file
  changes : ∀ unsaved, lock = some unsaved →
    changes table.memory unsaved.op unsaved.key unsaved.value unsaved.success
  holds : ∀ unsaved, lock = some unsaved →
    board.calls[unsaved.request]? = some (.inl (.saving unsaved.op))

variable {changes : (String → Option υ) → RecordOp → String → Option υ → StatusCode → Prop}
  {lock : Option (Unsaved υ)} {memory saved : HashMap String υ}
  {board : Board RecordPhase RecordOp Response} {table : Table String υ}

theorem Guards.elsewhere (guards : Guards changes lock memory saved board table)
    {next : Board RecordPhase RecordOp Response}
    (kept : ∀ unsaved, lock = some unsaved →
      next.calls[unsaved.request]? = board.calls[unsaved.request]?) :
    Guards changes lock memory saved next table :=
  { guards with holds := fun unsaved held => (kept unsaved held).trans (guards.holds unsaved held) }

/-- A request goes on that is not the one that has the lock. -/
theorem Guards.beside (guards : Guards changes lock memory saved board table) {request : ℕ}
    {phase : RecordPhase} (stands : board.calls[request]? = some (.inl phase))
    (other : ∀ unsaved, lock = some unsaved → phase ≠ .saving unsaved.op)
    {entry : RecordPhase ⊕ RecordOp × Response} {log : List (ℕ × RecordOp × Response)} :
    Guards changes lock memory saved { calls := board.calls.set request entry, log } table := by
  refine guards.elsewhere fun unsaved held => List.getElem?_set_ne fun same => other unsaved held ?_
  rw [same, guards.holds unsaved held] at stands
  cases stands
  rfl

/-- A request takes the lock and changes the map. -/
theorem Guards.change (guards : Guards changes none memory saved board table) {unsaved : Unsaved υ}
    (allowed : changes table.memory unsaved.op unsaved.key unsaved.value unsaved.success)
    (working : board.Working unsaved.request) :
    Guards changes (some unsaved) (assigned memory unsaved.key unsaved.value) saved
      (board.move unsaved.request (.saving unsaved.op)) table where
  memory := by rw [lookup_assigned, guards.memory, ahead, ahead]
  file := guards.file
  changes _ held := by cases held; exact allowed
  holds _ held := by
    cases held
    obtain ⟨phase, stands⟩ := working
    unfold Board.move
    rw [List.getElem?_set_self (List.getElem?_eq_some_iff.mp stands).1]

/-- The save of the request that has the lock. -/
theorem Guards.save {unsaved : Unsaved υ}
    (guards : Guards changes (some unsaved) memory saved board table) {ends : WriteEnd}
    {found : HashMap String υ} (reads : found.lookup = fileAfter ends saved.lookup memory.lookup)
    (next : Board RecordPhase RecordOp Response) :
    Guards changes none memory found next
      (table.after { key := unsaved.key, value := unsaved.value, ends }) where
  memory := guards.memory
  file := by rw [reads, guards.file, guards.memory, ahead, Table.after]
  changes := nofun
  holds := nofun

end Guarded

section Turns

variable [Deserialize AssignmentsFile] [Deserialize OneshotState]

/-- The maps and the files of a world stand for two tables. -/
structure RecordWorld.Reflects (world : RecordWorld) (tables : RecordTables) : Prop where
  assignments : Guards ChangesAssignment world.assignmentsLock
    world.service.app.assignments.assignments world.service.reloadedAssignments world.board
      tables.assignments
  completions : Guards ChangesCompletion world.completionsLock
    world.service.app.oneshot.completed world.service.reloadedCompletions world.board
      tables.completions

namespace RecordWorld

variable {world next : RecordWorld} {tables : RecordTables} {request : ℕ} {op : RecordOp}

/-- A request that waits is answered at once. -/
theorem Reflects.settle (reflects : world.Reflects tables) {phase : RecordPhase}
    (stands : world.board.calls[request]? = some (.inl phase))
    (other : ∀ op, phase ≠ .saving op) (op : RecordOp) (response : Response) :
    (world.settle request op response).Reflects tables where
  assignments := reflects.assignments.beside stands fun _ _ => other _
  completions := reflects.completions.beside stands fun _ _ => other _

theorem Reflects.change_assignment (reflects : world.Reflects tables)
    (free : world.assignmentsLock = none)
    (stands : world.board.calls[request]? = some (.inl (.waiting op))) {hostname : String}
    {value : Option Assignment} {success : StatusCode}
    (changes : ChangesAssignment tables.assignments.memory op hostname value success) :
    (world.changeAssignment request op hostname value success).Reflects tables where
  assignments := by
    have guards := reflects.assignments
    rw [free] at guards
    exact guards.change changes ⟨_, stands⟩
  completions := reflects.completions.beside stands fun _ _ => nofun

theorem Reflects.change_completion (reflects : world.Reflects tables)
    (free : world.completionsLock = none)
    (stands : world.board.calls[request]? = some (.inl (.waiting op))) {hostname : String}
    {value : Option String} {success : StatusCode}
    (changes : ChangesCompletion tables.completions.memory op hostname value success) :
    (world.changeCompletion request op hostname value success).Reflects tables where
  assignments := reflects.assignments.beside stands fun _ _ => nofun
  completions := by
    have guards := reflects.completions
    rw [free] at guards
    exact guards.change changes ⟨_, stands⟩

/-- What else the service does changes neither map nor file. -/
theorem Reflects.aside (reflects : world.Reflects tables) {service : Service}
    (aside : world.service.Aside service) : { world with service }.Reflects tables := by
  have assignments : service.reloadedAssignments = world.service.reloadedAssignments := by
    rw [reloaded_assignments_eq, reloaded_assignments_eq, aside.store, aside.saved_assignments]
  have completions : service.reloadedCompletions = world.service.reloadedCompletions := by
    rw [reloaded_completions_eq, reloaded_completions_eq, aside.store, aside.saved_completions]
  constructor
  · dsimp only
    rw [aside.assignments, assignments]
    exact reflects.assignments
  · dsimp only
    rw [aside.oneshot, completions]
    exact reflects.completions

/-- A request takes its lock. -/
theorem enter_simulates (reflects : world.Reflects tables)
    (stands : world.board.calls[request]? = some (.inl (.waiting op)))
    (went : world.enter request op = some next) : ∃ tables',
      Move RecordTables.Serve world.board tables next.board tables' ∧ next.Reflects tables' := by
  have working : world.board.Working request := ⟨_, stands⟩
  have answered : ∀ op response, tables.Serve op response tables →
      Move RecordTables.Serve world.board tables (world.settle request op response).board tables ∧
        (world.settle request op response).Reflects tables :=
    fun op response served => ⟨.settle working served, reflects.settle stands (fun _ => nofun) _ _⟩
  have listed : world.assignmentsLock = none →
      world.service.app.assignments.assignments.lookup = tables.assignments.memory := fun free => by
    rw [reflects.assignments.memory, free, ahead]
  have marked : world.completionsLock = none →
      world.service.app.oneshot.completed.lookup = tables.completions.memory := fun free => by
    rw [reflects.completions.memory, free, ahead]
  cases op with
  | assign hostname req =>
    obtain ⟨free, rfl⟩ := unlocked_eq_some went
    exact ⟨tables, .move working _, reflects.change_assignment free stands (.assign hostname req)⟩
  | unassign hostname =>
    obtain ⟨free, rfl⟩ := unlocked_eq_some went
    have held : hostname ∈ world.service.app.assignments.assignments ↔
        tables.assignments.memory hostname ≠ none := by
      rw [← listed free, Option.ne_none_iff_isSome]
      exact AList.lookup_isSome.symm
    by_cases there : hostname ∈ world.service.app.assignments.assignments
    · rw [if_neg (not_not.mpr there)]
      exact ⟨tables, .move working _,
        reflects.change_assignment free stands (.unassign (held.mp there))⟩
    · rw [if_pos there]
      exact ⟨tables, answered _ _ (.unassigned (not_not.mp (mt held.mpr there)))⟩
  | complete hostname =>
    obtain ⟨free, rfl⟩ := unlocked_eq_some went
    have aside : world.service.Aside { world.service with disk := world.service.disk.tick } :=
      ⟨rfl, rfl, rfl, congrArg (Option.bind · _) (Disk.file_at_tick ..),
        congrArg (Option.bind · _) (Disk.file_at_tick ..)⟩
    have ticked := reflects.aside aside
    exact ⟨tables, .move working _, ticked.change_completion free stands (.complete hostname _)⟩
  | completeUnknown => cases went
  | reset hostname =>
    obtain ⟨free, rfl⟩ := unlocked_eq_some went
    have held : hostname ∈ world.service.app.oneshot.completed ↔
        tables.completions.memory hostname ≠ none := by
      rw [← marked free, Option.ne_none_iff_isSome]
      exact AList.lookup_isSome.symm
    by_cases there : hostname ∈ world.service.app.oneshot.completed
    · rw [if_neg (not_not.mpr there)]
      exact ⟨tables, .move working _,
        reflects.change_completion free stands (.reset (held.mp there))⟩
    · rw [if_pos there]
      exact ⟨tables, answered _ _ (.unmarked (not_not.mp (mt held.mpr there)))⟩
  | listAssignments =>
    obtain ⟨free, rfl⟩ := unlocked_eq_some went
    exact ⟨tables, answered _ _ (.listAssignments (listed free))⟩
  | listCompletions =>
    obtain ⟨free, rfl⟩ := unlocked_eq_some went
    exact ⟨tables, answered _ _ (.listCompletions (marked free))⟩

theorem go_simulates (reflects : world.Reflects tables) {phase : RecordPhase}
    (stands : world.board.calls[request]? = some (.inl phase))
    (went : world.go request phase = some next) : ∃ tables',
      Move RecordTables.Serve world.board tables next.board tables' ∧ next.Reflects tables' := by
  cases phase with
  | unnamed ip =>
    cases known : world.service.app.bmh.ipToHostname.lookup ip with
    | none =>
      simp only [go, known] at went
      cases went
      exact ⟨tables, .settle ⟨_, stands⟩ .unknown, reflects.settle stands (fun _ => nofun) _ _⟩
    | some hostname =>
      simp only [go, known] at went
      cases went
      refine ⟨tables, .move ⟨_, stands⟩ _, ?_, ?_⟩
      · exact reflects.assignments.beside stands fun _ _ => nofun
      · exact reflects.completions.beside stands fun _ _ => nofun
  | waiting op => exact enter_simulates reflects stands went
  | saving op => cases went

end RecordWorld

variable [Serialize AssignmentsFile] [Serialize OneshotState]

omit [Serialize OneshotState] [Deserialize OneshotState] in
theorem persist_assignments_eq (codec : TextCodec AssignmentsFile AssignmentsFile.Same)
    (service : Service) (success : StatusCode) : ∃ ends next,
      answerOf (persistAssignments success service) = (saveAnswer success ends, next) ∧
      next.app = service.app ∧
      next.reloadedAssignments.lookup = fileAfter ends service.reloadedAssignments.lookup
        service.app.assignments.assignments.lookup ∧
      next.disk.readText service.app.templateStore.oneshotPath =
        service.disk.readText service.app.templateStore.oneshotPath := by
  let path := service.app.templateStore.assignmentsPath
  let text : String := Serialize.toStringPretty service.app.assignments
  obtain ⟨result, saved, answer⟩ := io_write_eq path text.toUTF8 service success
  refine ⟨service.disk.writeEnd path text.toUTF8.size,
    { service with disk := finalState (write path text.toUTF8 service.disk) }, ?_, rfl, ?_, ?_⟩
  · rw [← answer]
    exact congrArg answerOf ((bind_ok rfl).trans (bind_ok saved))
  · rw [reloaded_assignments_eq, reloaded_assignments_eq]
    exact lookup_reads_back AssignmentsFile.assignments {} (fun _ => rfl) codec
      (write_reads_back path text service.disk)
  · exact write_reads_elsewhere _ (entries_apart assignments_ordinary oneshot_ordinary (by decide))

omit [Serialize AssignmentsFile] [Deserialize AssignmentsFile] in
theorem persist_oneshot_eq (codec : TextCodec OneshotState OneshotState.Same)
    (service : Service) (success : StatusCode) : ∃ ends next,
      answerOf (persistOneshot success service) = (saveAnswer success ends, next) ∧
      next.app = service.app ∧
      next.reloadedCompletions.lookup = fileAfter ends service.reloadedCompletions.lookup
        service.app.oneshot.completed.lookup ∧
      next.disk.readText service.app.templateStore.assignmentsPath =
        service.disk.readText service.app.templateStore.assignmentsPath := by
  let path := service.app.templateStore.oneshotPath
  let text : String := Serialize.toStringPretty service.app.oneshot
  obtain ⟨result, saved, answer⟩ := io_write_eq path text.toUTF8 service success
  refine ⟨service.disk.writeEnd path text.toUTF8.size,
    { service with disk := finalState (write path text.toUTF8 service.disk) }, ?_, rfl, ?_, ?_⟩
  · rw [← answer]
    exact congrArg answerOf ((bind_ok rfl).trans (bind_ok saved))
  · rw [reloaded_completions_eq, reloaded_completions_eq]
    exact lookup_reads_back OneshotState.completed {} (fun _ => rfl) codec
      (write_reads_back path text service.disk)
  · exact write_reads_elsewhere _ (entries_apart oneshot_ordinary assignments_ordinary (by decide))

namespace RecordWorld

variable {world next : RecordWorld} {tables : RecordTables}

omit [Serialize OneshotState] in
theorem save_assignments_simulates (codec : TextCodec AssignmentsFile AssignmentsFile.Same)
    (reflects : world.Reflects tables) (saved : world.saveAssignments = some next) : ∃ tables',
      Move RecordTables.Serve world.board tables next.board tables' ∧ next.Reflects tables' := by
  unfold saveAssignments at saved
  cases lock : world.assignmentsLock with
  | none =>
    rw [lock] at saved
    cases saved
  | some unsaved =>
    have guards := reflects.assignments
    rw [lock] at guards
    have stands := guards.holds unsaved rfl
    have changes := guards.changes unsaved rfl
    obtain ⟨ends, service, answered, app, reads, elsewhere⟩ :=
      persist_assignments_eq codec world.service unsaved.success
    rw [lock, Option.map_some, answered] at saved
    cases saved
    refine ⟨_, .settle ⟨_, stands⟩ (.assignment changes ends), ?_, ?_⟩
    · dsimp only [settle]
      rw [app]
      exact guards.save reads _
    · have same : service.reloadedCompletions = world.service.reloadedCompletions := by
        rw [reloaded_completions_eq, reloaded_completions_eq, app, elsewhere]
      dsimp only [settle]
      rw [app, same]
      refine reflects.completions.beside stands ?_
      intro other held both
      have changes' := reflects.completions.changes other held
      rw [← (RecordPhase.saving.inj both)] at changes'
      exact changes_one_table changes changes'

omit [Serialize AssignmentsFile] in
theorem save_completions_simulates (codec : TextCodec OneshotState OneshotState.Same)
    (reflects : world.Reflects tables) (saved : world.saveCompletions = some next) : ∃ tables',
      Move RecordTables.Serve world.board tables next.board tables' ∧ next.Reflects tables' := by
  unfold saveCompletions at saved
  cases lock : world.completionsLock with
  | none =>
    rw [lock] at saved
    cases saved
  | some unsaved =>
    have guards := reflects.completions
    rw [lock] at guards
    have stands := guards.holds unsaved rfl
    have changes := guards.changes unsaved rfl
    obtain ⟨ends, service, answered, app, reads, elsewhere⟩ :=
      persist_oneshot_eq codec world.service unsaved.success
    rw [lock, Option.map_some, answered] at saved
    cases saved
    refine ⟨_, .settle ⟨_, stands⟩ (.completion changes ends), ?_, ?_⟩
    · have same : service.reloadedAssignments = world.service.reloadedAssignments := by
        rw [reloaded_assignments_eq, reloaded_assignments_eq, app, elsewhere]
      dsimp only [settle]
      rw [app, same]
      refine reflects.assignments.beside stands ?_
      intro other held both
      have changes' := reflects.assignments.changes other held
      rw [← (RecordPhase.saving.inj both)] at changes'
      exact changes_one_table changes' changes
    · dsimp only [settle]
      rw [app]
      exact guards.save reads _

end RecordWorld

/-- The requests, step by step, stand for tables that serve one request after the other. -/
theorem record_steps_simulate (assignmentsCodec : TextCodec AssignmentsFile AssignmentsFile.Same)
    (oneshotCodec : TextCodec OneshotState OneshotState.Same) :
    Simulates RecordTables.Serve RecordStep RecordWorld.board RecordWorld.Reflects := by
  intro world next tables step reflects
  cases step with
  | call asks =>
    refine ⟨tables, .call _, ?_, ?_⟩
    · exact reflects.assignments.elsewhere fun unsaved held => List.getElem?_append_left
        (List.getElem?_eq_some_iff.mp (reflects.assignments.holds unsaved held)).1
    · exact reflects.completions.elsewhere fun unsaved held => List.getElem?_append_left
        (List.getElem?_eq_some_iff.mp (reflects.completions.holds unsaved held)).1
  | go stands went => exact RecordWorld.go_simulates reflects stands went
  | saveAssignments saved =>
    exact RecordWorld.save_assignments_simulates assignmentsCodec reflects saved
  | saveCompletions saved => exact RecordWorld.save_completions_simulates oneshotCodec reflects saved
  | aside aside => exact ⟨tables, .idle, reflects.aside aside⟩

/-- The tables of a service that no request is changing. -/
def Service.recordTables (service : Service) : RecordTables where
  assignments := (History.begin service).assignmentTable
  completions := (History.begin service).completionTable

omit [Serialize AssignmentsFile] [Serialize OneshotState] in
theorem begins_reflected (service : Service) :
    RecordWorld.Reflects { service } service.recordTables where
  assignments := ⟨rfl, rfl, nofun, nofun⟩
  completions := ⟨rfl, rfl, nofun, nofun⟩

/-- **Overlapping requests take turns.** However the steps of the requests to the assignments and
the completions mix, and whatever else the service does in between: they are answered as if they had
been served one after the other, in the order of their answers, each answer is given once and comes
before those of all later calls, and the maps and the files are what these turns leave, up to the
changes whose save is still to come. -/
theorem overlapping_requests_take_turns
    (assignmentsCodec : TextCodec AssignmentsFile AssignmentsFile.Same)
    (oneshotCodec : TextCodec OneshotState OneshotState.Same) {service : Service}
    {middle last : RecordWorld} (before : Relation.ReflTransGen RecordStep { service } middle)
    (after : Relation.ReflTransGen RecordStep middle last) :
    last.board.Sound ∧ middle.board.log <+: last.board.log ∧ ∃ tables,
      ServedInTurn RecordTables.Serve service.recordTables (last.board.log.map Prod.snd) tables ∧
      last.Reflects tables := by
  have simulates := record_steps_simulate assignmentsCodec oneshotCodec
  have begins := begins_reflected service
  obtain ⟨-, _, -, reached⟩ := linearizable simulates rfl begins before
  obtain ⟨sound, tables, served, reflects⟩ := linearizable simulates rfl begins (before.trans after)
  exact ⟨sound, log_grows simulates reached after, tables, served, reflects⟩

end Turns

section Sample

attribute [local instance] assignmentsText assignmentsReader oneshotText oneshotReader

/-- One host is assigned a template while the other one reports its completion; the assignment is
saved and listed before the completion is. -/
theorem overlapping_requests_take_turns_two_hosts : ∃ middle last : RecordWorld,
    middle.assignmentsLock.isSome ∧ middle.completionsLock.isSome ∧ last.board.log.length = 2 ∧
    last.board.Sound ∧ middle.board.log <+: last.board.log ∧ ∃ tables,
      ServedInTurn RecordTables.Serve twoHosts.recordTables (last.board.log.map Prod.snd) tables ∧
      last.Reflects tables := by
  let req : AssignmentRequest := { imageType := "fedora-coreos", template := "worker" }
  have assigning := Relation.ReflTransGen.single (r := RecordStep) (a := { service := twoHosts })
    (.call (show (Request.assignmentsPut "web1" req).recordPhase? = _ from rfl))
  have completing := assigning.tail
    (.call (show (Request.oneshotProvisioned (.v4 10 0 0 6)).recordPhase? = _ from rfl))
  have assigned := completing.tail (@RecordStep.go _ _ _ _ 0 (.waiting (.assign "web1" req)) rfl rfl)
  have named := assigned.tail (@RecordStep.go _ _ _ _ 1 (.unnamed (.v4 10 0 0 6)) rfl rfl)
  have before := named.tail (@RecordStep.go _ _ _ _ 1 (.waiting (.complete "web2")) rfl rfl)
  refine ⟨_, _, ?_, ?_, ?_, overlapping_requests_take_turns assignments_codec oneshot_codec before
    (((Relation.ReflTransGen.single (.saveAssignments rfl)).tail
      (.call (show Request.assignmentsList.recordPhase? = _ from rfl))).tail
        (@RecordStep.go _ _ _ _ 2 (.waiting .listAssignments) rfl rfl))⟩
  all_goals rfl

end Sample

end CloudId
