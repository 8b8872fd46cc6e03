import CloudId.OneshotProofs
import CloudId.Router

/-! What a request over HTTP does, whatever the HTTP library makes of it: it is a request to the
provisioning endpoints, a request for a token, or a request that only reads the shared state. -/
namespace CloudId
open Effects

/-- The handler only reads the shared state. -/
def OnlyReads (handler : Handler Reply) : Prop :=
  ∀ service, ∃ reply, handler service = .ok reply service

theorem answer_page_only_reads (page : AppState → IpAddr → Except StatusCode String) (ip : IpAddr) :
    OnlyReads (answerPage page ip) := by
  intro service
  rw [answerPage, bind_ok (show Handler.app service = .ok service.app service from rfl)]
  cases page service.app ip with
  | ok body => exact ⟨_, rfl⟩
  | error code => exact ⟨_, rfl⟩

/-- The request to the provisioning endpoints that a handler is for. -/
def Endpoint.request? (ip : IpAddr) : (endpoint : Endpoint) → endpoint.Args → Option Request
  | .userData, _ => some (.userData ip)
  | .ignitionConfig, _ => some (.ignitionConfig ip)
  | .kickstartConfig, _ => some (.kickstartConfig ip)
  | .oneshotProvisioned, _ => some (.oneshotProvisioned ip)
  | .templatesList, _ => some .templatesList
  | .templatesBackup, _ => some .templatesBackup
  | .templatesRestore, bundle => some (.templatesRestore bundle)
  | .templatesListByType, imageType => some (.templatesListByType imageType)
  | .templatesGet, (imageType, name) => some (.templatesGet imageType name)
  | .templatesPut, (imageType, name, req) => some (.templatesPut imageType name req)
  | .templatesDelete, (imageType, name) => some (.templatesDelete imageType name)
  | .assignmentsList, _ => some .assignmentsList
  | .assignmentsPut, (host, req) => some (.assignmentsPut host req)
  | .assignmentsDelete, host => some (.assignmentsDelete host)
  | .oneshotList, _ => some .oneshotList
  | .oneshotDelete, host => some (.oneshotDelete host)
  | _, _ => none

/-- The request to the provisioning endpoints that the library makes of a request. -/
def HttpLibrary.request? (library : HttpLibrary) (request : HttpRequest) : Option Request :=
  match library request with
  | .handled endpoint args => endpoint.request? request.ip args
  | .answered _ => none

section Serve

variable [Serialize CloudConfig] [Serialize Json] [Deserialize Json] [Serialize IgnitionConfig]
  [Serialize TemplateMeta] [Deserialize TemplateMeta] [Serialize AssignmentsFile]
  [Serialize OneshotState]

/-- **What a handler does**: it asks for a provisioning request, it issues a token, or it only
reads. -/
theorem handle_cases (ip : IpAddr) (endpoint : Endpoint) (args : endpoint.Args) :
    (∃ named, endpoint.request? ip args = some named ∧
        endpoint.handle ip args = answerRequest named) ∨
      endpoint = .apiToken ∨
      (endpoint.request? ip args = none ∧ OnlyReads (endpoint.handle ip args)) := by
  cases endpoint
  case apiToken => exact .inr (.inl rfl)
  case publicKey =>
    exact .inr (.inr ⟨rfl, answer_page_only_reads (fun state ip => publicKey state ip args) ip⟩)
  -- The rest is a provisioning request, a page of a host or a fixed page.
  all_goals first
    | exact .inl ⟨_, rfl, rfl⟩
    | exact .inr (.inr ⟨rfl, answer_page_only_reads _ _⟩)
    | exact .inr (.inr ⟨rfl, fun _ => ⟨_, rfl⟩⟩)

variable {library : HttpLibrary}

theorem http_of_handled {service : Service} {request : HttpRequest} {endpoint : Endpoint}
    {args : endpoint.Args} (handled : library request = .handled endpoint args) :
    service.http library request =
      (repliedBy (endpoint.handle request.ip args service),
        finalState (endpoint.handle request.ip args service)) := by
  rw [Service.http, handled]

omit [Serialize CloudConfig] [Serialize Json] [Deserialize Json] [Serialize IgnitionConfig]
  [Serialize TemplateMeta] [Deserialize TemplateMeta] [Serialize AssignmentsFile]
  [Serialize OneshotState] in
theorem request_handled {request : HttpRequest} {named : Request}
    (asks : library.request? request = some named) :
    ∃ endpoint args, library request = .handled endpoint args ∧
      endpoint.request? request.ip args = some named := by
  unfold HttpLibrary.request? at asks
  split at asks
  · rename_i endpoint args handled
    exact ⟨endpoint, args, handled, asks⟩
  · cases asks

/-- A provisioning request is answered by its handler. -/
theorem http_of_request {service : Service} {request : HttpRequest} {named : Request}
    (asks : library.request? request = some named) :
    service.http library request =
      (repliedBy (answerRequest named service), service.after named) := by
  obtain ⟨endpoint, args, handled, asks⟩ := request_handled asks
  rw [http_of_handled handled]
  rcases handle_cases request.ip endpoint args with ⟨own, asks', handles⟩ | rfl | ⟨asks', -⟩
  · obtain rfl := Option.some.inj (asks.symm.trans asks')
    rw [handles, after_eq, ← finalState_bind_pure named.handle Reply.served]
    rfl
  · cases asks
  · rw [asks] at asks'
    cases asks'

/-- **What a request does**: a provisioning request, the issue of a token, or nothing. -/
theorem http_cases (library : HttpLibrary) (service : Service) (request : HttpRequest) :
    (∃ named, library.request? request = some named ∧
        service.afterHttp library request = service.after named) ∨
      (∃ header, library request = .handled .apiToken header ∧
        service.afterHttp library request =
          finalState (apiToken request.ip header service)) ∨
      (library.request? request = none ∧ service.afterHttp library request = service) := by
  cases routed : library request with
  | answered status =>
    rw [HttpLibrary.request?, Service.afterHttp, Service.http, routed]
    exact .inr (.inr ⟨rfl, rfl⟩)
  | handled endpoint args =>
    have asks : library.request? request = endpoint.request? request.ip args := by
      rw [HttpLibrary.request?, routed]
    rw [asks]
    rcases handle_cases request.ip endpoint args with ⟨named, asks', -⟩ | rfl | ⟨asks', reads⟩
    · refine .inl ⟨named, asks', ?_⟩
      rw [Service.afterHttp, http_of_request (asks.trans asks')]
    · refine .inr (.inl ⟨args, rfl, ?_⟩)
      rw [← finalState_bind_pure _ Reply.text, Service.afterHttp, http_of_handled routed]
      rfl
    · obtain ⟨reply, answered⟩ := reads service
      refine .inr (.inr ⟨asks', ?_⟩)
      rw [Service.afterHttp, http_of_handled routed, answered]
      rfl

end Serve

/-! ## A library that knows some requests -/

/-- The handler that is called. -/
def Routed.endpoint? : Routed → Option Endpoint
  | handled endpoint _ => some endpoint
  | answered _ => none

/-- A library that is told what to make of some requests, and finds no route for the others. -/
def HttpLibrary.knowing (known : List (HttpRequest × Routed)) : HttpLibrary := fun request =>
  ((known.find? fun entry => entry.1.method = request.method ∧ entry.1.uri = request.uri ∧
    entry.1.body = request.body).map Prod.snd).getD (.answered 404)

theorem knowing_head (request : HttpRequest) (routed : Routed)
    (rest : List (HttpRequest × Routed)) :
    HttpLibrary.knowing ((request, routed) :: rest) request = routed := by
  simp [HttpLibrary.knowing]

theorem knowing_next {request other : HttpRequest} {routed : Routed}
    {rest : List (HttpRequest × Routed)} (differs : other.uri ≠ request.uri) :
    HttpLibrary.knowing ((other, routed) :: rest) request = HttpLibrary.knowing rest request := by
  simp [HttpLibrary.knowing, differs]

theorem knowing_keeps_to {known : List (HttpRequest × Routed)} {table : RouteTable}
    (offered : ∀ entry ∈ known, ∀ endpoint ∈ entry.2.endpoint?,
      ∃ handlers ∈ table.handlers, (entry.1.method.served, endpoint) ∈ handlers) :
    (HttpLibrary.knowing known).KeepsTo table := by
  intro request endpoint args handled
  unfold HttpLibrary.knowing at handled
  cases found : known.find? fun entry => entry.1.method = request.method ∧
      entry.1.uri = request.uri ∧ entry.1.body = request.body with
  | none =>
    rw [found] at handled
    cases handled
  | some entry =>
    rw [found] at handled
    have alike := List.find?_some found
    simp only [decide_eq_true_eq] at alike
    have called : entry.2.endpoint? = some endpoint := congrArg Routed.endpoint? handled
    rw [← alike.1]
    exact offered entry (List.mem_of_find?_eq_some found) endpoint called

end CloudId
