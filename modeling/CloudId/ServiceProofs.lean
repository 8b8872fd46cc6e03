import CloudId.Library.Effects
import CloudId.Handlers

/-! What requests do to the shared state. However the file operations of a
handler end, its effect on the shared state is the same, so a run of requests
can be followed without looking at the data volume. -/
namespace CloudId
open Effects FileSystem

/-! ## Handlers and the shared state -/

theorem handler_app_keeps : Keeps Service.app Handler.app := fun _ => rfl

theorem handler_io_keeps (op : FileM α) : Keeps Service.app (Handler.io op) := by
  intro service
  rw [Handler.io]
  split <;> rfl

theorem handler_or_panic_keeps (result : Except Panic α) :
    Keeps Service.app (Handler.orPanic result) := by
  cases result with
  | ok value => exact keeps_pure _ value
  | error panic => exact keeps_throw _ panic

/-- A handler that answers with the result of one file operation. -/
theorem handler_store_keeps (op : AppState → FileM α) (answer : Except FileError α → Response) :
    Keeps Service.app (do
      let state ← Handler.app
      let result ← Handler.io (op state)
      return answer result) :=
  handler_app_keeps.bind fun _ => (handler_io_keeps _).bind fun _ => keeps_pure _ _

section Configs

variable [Deserialize TemplateMeta]

theorem load_template_keeps (store : TemplateStore) (reference : Option (String × String)) :
    Keeps Service.app (loadTemplate store reference) := by
  cases reference with
  | none => exact keeps_pure _ _
  | some reference =>
    refine (handler_io_keeps _).bind fun found => ?_
    cases found with
    | ok found => exact keeps_pure _ _
    | error error => exact keeps_pure _ _

variable [Serialize Json] [Deserialize Json]

theorem resolve_and_build_keeps (hostname : String) (metadata : HostMetadata)
    (bmh : Option BareMetalHost) :
    Keeps Service.app (resolveAndBuild hostname metadata bmh) := by
  refine handler_app_keeps.bind fun state => ?_
  split
  · exact keeps_pure _ _
  · refine (load_template_keeps _ _).bind fun loaded => ?_
    cases loaded with
    | none => exact keeps_pure _ _
    | some loaded =>
      exact (handler_or_panic_keeps _).bind fun content => keeps_pure _ _

/-- What becomes of the template that was loaded. -/
def builtFrom (config : MetadataConfig) (metadata : HostMetadata) :
    Option LoadedTemplate → Handler TemplateResult
  | some loaded => do
    let content ← Handler.orPanic (renderTemplate config metadata loaded)
    return .config content loaded.format loaded
  | none => return .none

/-- The function goes by the state that finds it. -/
theorem resolve_and_build_begins (hostname : String) (metadata : HostMetadata)
    (bmh : Option BareMetalHost) (service : Service) :
    resolveAndBuild hostname metadata bmh service =
      (if hostname ∈ service.app.oneshot.completed then pure .none
      else loadTemplate service.app.templateStore (resolveTemplateRef service.app hostname bmh) >>=
        builtFrom service.app.config.metadata metadata) service := bind_ok rfl

variable [Serialize CloudConfig]

theorem serve_config_keeps (contentType : String)
    (build : HostMetadata → Option BareMetalHost → Except Panic String) (ip : IpAddr) :
    Keeps Service.app (serveConfig contentType build ip) := by
  refine handler_app_keeps.bind fun state => ?_
  cases state.resolveOnDemand ip with
  | none => exact keeps_pure _ _
  | some metadata =>
    refine (resolve_and_build_keeps _ _ _).bind fun result => ?_
    cases result with
    | config content format loaded => exact keeps_pure _ _
    | none => exact (handler_or_panic_keeps _).bind fun content => keeps_pure _ _

end Configs

theorem change_assignments_app [Serialize AssignmentsFile]
    (change : HashMap String Assignment → HashMap String Assignment) (success : StatusCode)
    (service : Service) :
    (finalState (changeAssignments change success service)).app =
      { service.app with
        assignments := { assignments := change service.app.assignments.assignments } } :=
  ((handler_store_keeps (fun state => state.templateStore.saveAssignments state.assignments) _)
    { service with app := { service.app with
        assignments := { assignments := change service.app.assignments.assignments } } })

theorem change_oneshot_app [Serialize OneshotState]
    (change : HashMap String String → HashMap String String) (success : StatusCode)
    (service : Service) :
    (finalState (changeOneshot change success service)).app =
      { service.app with oneshot := { completed := change service.app.oneshot.completed } } :=
  ((handler_store_keeps (fun state => state.templateStore.saveOneshot state.oneshot) _)
    { service with app := { service.app with
        oneshot := { completed := change service.app.oneshot.completed } } })

/-! ## Requests -/

section Requests

variable [Serialize CloudConfig] [Serialize Json] [Deserialize Json] [Serialize IgnitionConfig]
  [Serialize TemplateMeta] [Deserialize TemplateMeta] [Serialize AssignmentsFile]
  [Serialize OneshotState]

/-- What a request does to the shared state, at a time stamp. -/
def Request.effect (timestamp : String) : Request → AppState → AppState
  | .assignmentsPut hostname req, app =>
    let assignment : Assignment := { imageType := req.imageType, template := req.template }
    { app with assignments := { assignments := app.assignments.assignments.insert hostname assignment } }
  | .assignmentsDelete hostname, app =>
    if hostname ∈ app.assignments.assignments then
      { app with assignments := { assignments := app.assignments.assignments.erase hostname } }
    else app
  | .oneshotProvisioned ip, app =>
    match app.bmh.ipToHostname.lookup ip with
    | some hostname =>
      { app with oneshot := { completed := app.oneshot.completed.insert hostname timestamp } }
    | none => app
  | .oneshotDelete hostname, app =>
    if hostname ∈ app.oneshot.completed then
      { app with oneshot := { completed := app.oneshot.completed.erase hostname } }
    else app
  | .rebuildCache, app => app.rebuildCache
  | _, app => app

theorem after_eq (service : Service) (request : Request) :
    service.after request = finalState (request.handle service) := by
  rw [Service.after, Service.answer]
  split
  · rename_i result
    rw [result]
    rfl
  · rename_i result
    rw [result]
    rfl

/-- However its file operations end, a request changes the shared state in one
way. -/
theorem after_app (service : Service) (request : Request) :
    (service.after request).app =
      request.effect (toString (service.disk.clock service.disk.ticks)) service.app := by
  rw [after_eq]
  cases request with
  | ignitionConfig ip => exact serve_config_keeps _ _ ip service
  | kickstartConfig ip =>
    exact serve_config_keeps "text/plain" (fun metadata bmh => .ok (buildKickstart metadata bmh)) ip
      service
  | userData ip => exact serve_config_keeps _ _ ip service
  | templatesList => exact handler_store_keeps (fun state => state.templateStore.listAll) _ service
  | templatesListByType imageType =>
    exact handler_store_keeps (fun state => state.templateStore.listByType imageType) _ service
  | templatesGet imageType name =>
    exact handler_store_keeps (fun state => state.templateStore.get imageType name) _ service
  | templatesPut imageType name req =>
    exact handler_store_keeps (fun state => state.templateStore.put imageType name req) _ service
  | templatesDelete imageType name =>
    exact handler_store_keeps (fun state => state.templateStore.delete imageType name) _ service
  | templatesBackup =>
    exact handler_store_keeps (fun state => state.templateStore.backup) _ service
  | templatesRestore bundle =>
    exact handler_store_keeps (fun state => state.templateStore.restore bundle) _ service
  | assignmentsList => rfl
  | assignmentsPut hostname req => exact change_assignments_app _ _ service
  | assignmentsDelete hostname =>
    refine (congrArg Service.app (finalState_bind_ok rfl)).trans ?_
    by_cases assigned : hostname ∈ service.app.assignments.assignments
    · simp only [Request.effect, assigned, not_true_eq_false, if_true, if_false]
      exact change_assignments_app _ _ service
    · simp only [Request.effect, assigned, not_false_eq_true, if_true, if_false]
      rfl
  | oneshotList => rfl
  | oneshotProvisioned ip =>
    refine (congrArg Service.app (finalState_bind_ok rfl)).trans ?_
    simp only [Request.effect]
    cases service.app.bmh.ipToHostname.lookup ip with
    | none => rfl
    | some hostname =>
      refine (congrArg Service.app (finalState_bind_ok rfl)).trans ?_
      exact change_oneshot_app _ _ _
  | oneshotDelete hostname =>
    refine (congrArg Service.app (finalState_bind_ok rfl)).trans ?_
    by_cases recorded : hostname ∈ service.app.oneshot.completed
    · simp only [Request.effect, recorded, not_true_eq_false, if_true, if_false]
      exact change_oneshot_app _ _ service
    · simp only [Request.effect, recorded, not_false_eq_true, if_true, if_false]
      rfl
  | rebuildCache => rfl

end Requests

end CloudId
