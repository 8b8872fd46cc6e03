import CloudId.Provision

/-! `metadata/handlers.rs`: the handlers of the provisioning endpoints and of the
REST API for templates, assignments and oneshot completions. A handler that
changes assignments or completions keeps its write lock until the change is
persisted; here requests come one after the other. -/
namespace CloudId
open FileSystem

inductive StatusCode where
  | ok
  | noContent
  | notFound
  | internalServerError
  deriving DecidableEq

/-- What a request is answered with. A config comes with the template it was
rendered from, if any, as the log has it. -/
inductive Response where
  | status (code : StatusCode)
  | config (contentType content : String) (loaded : Option LoadedTemplate)
  | template (loaded : LoadedTemplate)
  | templates (list : List TemplateSummary)
  | bundle (bundle : TemplateBundle)
  | restored (count : Nat)
  | assignments (file : AssignmentsFile)
  | oneshot (state : OneshotState)
  /-- The task of the request panicked. -/
  | panicked

/-- The status of an answer without a body. -/
def Response.statusCode : Response → Option StatusCode
  | .status code => some code
  | _ => none

instance (response : Response) (code : StatusCode) : Decidable (response = .status code) :=
  decidable_of_iff (response.statusCode = some code)
    (by cases response <;> simp [Response.statusCode])

/-- An error of the store is an internal server error. -/
def orServerError {α : Type} (answer : α → Response) : Except FileError α → Response
  | .ok value => answer value
  | .error _ => .status .internalServerError

/-! ## Provisioning configs -/

section Configs

variable [Serialize CloudConfig] [Serialize Json] [Deserialize Json] [Deserialize TemplateMeta]

/-- The template system first, then the default of the endpoint. -/
def serveConfig (contentType : String)
    (build : HostMetadata → Option BareMetalHost → Except Panic String) (ip : IpAddr) :
    Handler Response := do
  let state ← Handler.app
  match state.resolveOnDemand ip with
  | none => return .status .notFound
  | some metadata =>
    let bmh := state.getBmh metadata.localHostname
    match ← resolveAndBuild metadata.localHostname metadata bmh with
    | .config content format loaded =>
      return .config format.asContentType content (some loaded)
    | .none =>
      let content ← Handler.orPanic (build metadata bmh)
      return .config contentType content none

/-- `ignition_config`. -/
def ignitionConfig [Serialize IgnitionConfig] : IpAddr → Handler Response :=
  serveConfig "application/json" buildIgnition

/-- `kickstart_config`. -/
def kickstartConfig : IpAddr → Handler Response :=
  serveConfig "text/plain" fun metadata bmh => .ok (buildKickstart metadata bmh)

/-- `user_data`: falls back to Ignition. -/
def userData [Serialize IgnitionConfig] : IpAddr → Handler Response :=
  serveConfig "application/json" buildIgnition

end Configs

/-! ## Templates -/

section Templates

variable [Deserialize TemplateMeta]

/-- `templates_list`. -/
def templatesList : Handler Response := do
  let state ← Handler.app
  return orServerError .templates (← Handler.io state.templateStore.listAll)

/-- `templates_list_by_type`. -/
def templatesListByType (imageType : String) : Handler Response := do
  let state ← Handler.app
  return orServerError .templates (← Handler.io (state.templateStore.listByType imageType))

/-- `templates_get`. -/
def templatesGet (imageType name : String) : Handler Response := do
  let state ← Handler.app
  let found ← Handler.io (state.templateStore.get imageType name)
  return orServerError (fun
    | some template => .template template
    | none => .status .notFound) found

/-- `templates_put`. -/
def templatesPut [Serialize TemplateMeta] (imageType name : String) (req : TemplateCreateRequest) :
    Handler Response := do
  let state ← Handler.app
  return orServerError .template (← Handler.io (state.templateStore.put imageType name req))

/-- `templates_delete`. -/
def templatesDelete (imageType name : String) : Handler Response := do
  let state ← Handler.app
  let deleted ← Handler.io (state.templateStore.delete imageType name)
  return orServerError (fun found => .status (if found then .noContent else .notFound)) deleted

/-- `templates_backup`. -/
def templatesBackup : Handler Response := do
  let state ← Handler.app
  return orServerError .bundle (← Handler.io state.templateStore.backup)

/-- `templates_restore`. -/
def templatesRestore [Serialize TemplateMeta] (bundle : TemplateBundle) : Handler Response := do
  let state ← Handler.app
  return orServerError .restored (← Handler.io (state.templateStore.restore bundle))

end Templates

/-! ## Assignments -/

section Assignments

/-- `assignments_list`. -/
def assignmentsList : Handler Response := return .assignments (← Handler.app).assignments

variable [Serialize AssignmentsFile]

/-- Changes the assignments and persists them; the change stays when the file
cannot be written. -/
def changeAssignments (change : HashMap String Assignment → HashMap String Assignment)
    (success : StatusCode) : Handler Response := do
  Handler.modifyApp fun state =>
    { state with assignments := { assignments := change state.assignments.assignments } }
  let state ← Handler.app
  let saved ← Handler.io (state.templateStore.saveAssignments state.assignments)
  return orServerError (fun _ => .status success) saved

/-- `assignments_put`. -/
def assignmentsPut (hostname : String) (req : AssignmentRequest) : Handler Response :=
  changeAssignments (fun assignments => assignments.insert hostname
    { imageType := req.imageType, template := req.template }) .ok

/-- `assignments_delete`. -/
def assignmentsDelete (hostname : String) : Handler Response := do
  if hostname ∉ (← Handler.app).assignments.assignments then return .status .notFound
  changeAssignments (fun assignments => assignments.erase hostname) .noContent

end Assignments

/-! ## Oneshot completions -/

section Oneshot

/-- `oneshot_list`. -/
def oneshotList : Handler Response := return .oneshot (← Handler.app).oneshot

variable [Serialize OneshotState]

/-- Changes the completions and persists them; the change stays when the file
cannot be written. -/
def changeOneshot (change : HashMap String String → HashMap String String)
    (success : StatusCode) : Handler Response := do
  Handler.modifyApp fun state =>
    { state with oneshot := { completed := change state.oneshot.completed } }
  let state ← Handler.app
  let saved ← Handler.io (state.templateStore.saveOneshot state.oneshot)
  return orServerError (fun _ => .status success) saved

/-- `oneshot_provisioned`: the completion is recorded under the name that the
records of the bare metal hosts have for the address. -/
def oneshotProvisioned (ip : IpAddr) : Handler Response := do
  let state ← Handler.app
  match state.bmh.ipToHostname.lookup ip with
  | none => return .status .notFound
  | some hostname =>
    let ts ← Handler.clock
    changeOneshot (fun completed => completed.insert hostname (toString ts)) .ok

/-- `oneshot_delete`. -/
def oneshotDelete (hostname : String) : Handler Response := do
  if hostname ∉ (← Handler.app).oneshot.completed then return .status .notFound
  changeOneshot (fun completed => completed.erase hostname) .noContent

end Oneshot

/-! ## Requests -/

/-- The requests, and the cache rebuilds of the watchers between them. -/
inductive Request where
  | ignitionConfig (ip : IpAddr)
  | kickstartConfig (ip : IpAddr)
  | userData (ip : IpAddr)
  | templatesList
  | templatesListByType (imageType : String)
  | templatesGet (imageType name : String)
  | templatesPut (imageType name : String) (req : TemplateCreateRequest)
  | templatesDelete (imageType name : String)
  | templatesBackup
  | templatesRestore (bundle : TemplateBundle)
  | assignmentsList
  | assignmentsPut (hostname : String) (req : AssignmentRequest)
  | assignmentsDelete (hostname : String)
  | oneshotList
  | oneshotProvisioned (ip : IpAddr)
  | oneshotDelete (hostname : String)
  | rebuildCache

section Serve

variable [Serialize CloudConfig] [Serialize Json] [Deserialize Json] [Serialize IgnitionConfig]
  [Serialize TemplateMeta] [Deserialize TemplateMeta] [Serialize AssignmentsFile]
  [Serialize OneshotState]

/-- The handler of a request. -/
def Request.handle : Request → Handler Response
  | .ignitionConfig ip => CloudId.ignitionConfig ip
  | .kickstartConfig ip => CloudId.kickstartConfig ip
  | .userData ip => CloudId.userData ip
  | .templatesList => CloudId.templatesList
  | .templatesListByType imageType => CloudId.templatesListByType imageType
  | .templatesGet imageType name => CloudId.templatesGet imageType name
  | .templatesPut imageType name req => CloudId.templatesPut imageType name req
  | .templatesDelete imageType name => CloudId.templatesDelete imageType name
  | .templatesBackup => CloudId.templatesBackup
  | .templatesRestore bundle => CloudId.templatesRestore bundle
  | .assignmentsList => CloudId.assignmentsList
  | .assignmentsPut hostname req => CloudId.assignmentsPut hostname req
  | .assignmentsDelete hostname => CloudId.assignmentsDelete hostname
  | .oneshotList => CloudId.oneshotList
  | .oneshotProvisioned ip => CloudId.oneshotProvisioned ip
  | .oneshotDelete hostname => CloudId.oneshotDelete hostname
  | .rebuildCache => do
    Handler.modifyApp AppState.rebuildCache
    return .status .ok

/-- The answer to a request and the service after it. -/
def Service.answer (service : Service) (request : Request) : Response × Service :=
  match request.handle service with
  | .ok response service => (response, service)
  | .error _ service => (.panicked, service)

/-- The service after a request. -/
def Service.after (service : Service) (request : Request) : Service := (service.answer request).2

/-- The service after a sequence of requests. -/
def Service.run (service : Service) (requests : List Request) : Service :=
  requests.foldl Service.after service

end Serve

end CloudId
