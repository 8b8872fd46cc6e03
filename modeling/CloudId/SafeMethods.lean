import CloudId.Routing
import CloudId.StoreFiles

/-! What HTTP requests leave alone. A request that is neither PUT, POST nor DELETE changes
nothing, whatever it reads and however its file operations end; and no request changes what
the metadata pages show. -/
namespace CloudId
open Effects FileSystem

/-! ## Reading the store -/

section Store

variable [Deserialize TemplateMeta] {inv : Disk → Prop}
  (still : ∀ disk : Disk, inv disk → inv disk.tick) (store : TemplateStore)
include still

omit [Deserialize TemplateMeta] in
theorem now_utc_preserves : Preserves inv nowUtc :=
  (now_preserves still).bind fun _ => preserves_pure _ _

omit [Deserialize TemplateMeta] in
theorem first_existing_preserves (imageType : String) (names : List String) :
    Preserves inv (store.firstExisting imageType names) := by
  induction names with
  | nil => exact preserves_pure _ _
  | cons name rest step =>
    refine (file_exists_preserves still _).bind fun found => ?_
    cases found with
    | true => exact preserves_pure _ _
    | false => exact step

theorem get_preserves (imageType name : String) : Preserves inv (store.get imageType name) := by
  refine (first_existing_preserves still store _ _).bind fun found => ?_
  cases found with
  | none => exact preserves_pure _ _
  | some resolved =>
    refine (read_to_string_preserves still _).bind fun content => ?_
    refine (read_meta_preserves still store _ _).bind fun record => ?_
    cases record with
    | some record => exact preserves_pure _ _
    | none =>
      exact (now_utc_preserves still).bind fun _ => (now_utc_preserves still).bind fun _ =>
        (preserves_pure _ _).bind fun _ => preserves_pure _ _

theorem all_summaries_preserves (listing : List (String × Bool)) :
    Preserves inv (store.allSummaries listing) := by
  induction listing with
  | nil => exact preserves_pure _ _
  | cons entry rest step =>
    obtain ⟨imageType, isDir⟩ := entry
    rw [TemplateStore.allSummaries]
    split
    · exact (read_dir_preserves still _).bind fun files =>
        (Shows.summaries_preserves still store _ _).bind fun summaries =>
          step.bind fun later => preserves_pure _ _
    · exact step

theorem list_all_preserves : Preserves inv store.listAll := by
  refine (file_exists_preserves still _).bind fun found => ?_
  cases found with
  | false => exact preserves_pure _ _
  | true =>
    exact (read_dir_preserves still _).bind fun types =>
      (all_summaries_preserves still store _).bind fun result => preserves_pure _ _

theorem list_by_type_preserves (imageType : String) :
    Preserves inv (store.listByType imageType) := by
  refine (file_exists_preserves still _).bind fun found => ?_
  cases found with
  | false => exact preserves_pure _ _
  | true =>
    exact (read_dir_preserves still _).bind fun files =>
      (Shows.summaries_preserves still store _ _).bind fun result => preserves_pure _ _

theorem export_preserves (listed : List TemplateSummary) :
    Preserves inv (store.exportEntries listed) := by
  induction listed with
  | nil => exact preserves_pure _ _
  | cons summary rest step =>
    refine (get_preserves still store _ _).bind fun found => ?_
    cases found with
    | none => exact step
    | some template => exact step.bind fun later => preserves_pure _ _

theorem backup_preserves : Preserves inv store.backup :=
  (list_all_preserves still store).bind fun listed =>
    (export_preserves still store listed).bind fun _ =>
      (now_utc_preserves still).bind fun _ => preserves_pure _ _

end Store

/-! ## Requests that only read -/

/-- The service is the same, up to how often its environment has been asked. -/
def Service.Untouched (start service : Service) : Prop :=
  ∃ ticks, service = { start with disk := { start.disk with ticks } }

theorem Service.Untouched.refl (service : Service) : service.Untouched service :=
  ⟨service.disk.ticks, rfl⟩

theorem Service.Untouched.trans {first second third : Service} (before : first.Untouched second)
    (after : second.Untouched third) : first.Untouched third := by
  obtain ⟨_, rfl⟩ := before
  obtain ⟨ticks, rfl⟩ := after
  exact ⟨ticks, rfl⟩

/-- A file operation that keeps what a tick keeps leaves the service untouched. -/
theorem io_untouched {start : Service} {α : Type} {op : FileM α}
    (reads : ∀ inv : Disk → Prop, (∀ disk : Disk, inv disk → inv disk.tick) → Preserves inv op) :
    Preserves start.Untouched (Handler.io op) := by
  rintro service ⟨ticks, rfl⟩
  have kept := reads (fun disk => ∃ ticks, disk = { start.disk with ticks })
    (fun _ ⟨ticks, same⟩ => ⟨ticks + 1, by rw [same]; rfl⟩) { start.disk with ticks } ⟨ticks, rfl⟩
  rw [Handler.io]
  cases ran : op { start.disk with ticks } with
  | ok value disk =>
    rw [ran] at kept
    obtain ⟨ticks, rfl⟩ := kept
    exact ⟨ticks, rfl⟩
  | error error disk =>
    rw [ran] at kept
    obtain ⟨ticks, rfl⟩ := kept
    exact ⟨ticks, rfl⟩

theorem io_then_untouched {start : Service} {α β : Type} {op : FileM α}
    (reads : ∀ inv : Disk → Prop, (∀ disk : Disk, inv disk → inv disk.tick) → Preserves inv op)
    (answer : Except FileError α → β) :
    Preserves start.Untouched (do return answer (← Handler.io op)) :=
  (io_untouched reads).bind fun _ => preserves_pure _ _

theorem app_untouched {start : Service} : Preserves start.Untouched Handler.app := fun _ => id

theorem or_panic_untouched {start : Service} {α : Type} (result : Except Panic α) :
    Preserves start.Untouched (Handler.orPanic result) := by
  cases result with
  | ok value => exact preserves_pure _ value
  | error panic => exact preserves_throw _ panic

section Configs

variable [Deserialize TemplateMeta] {start : Service}

theorem load_template_untouched (store : TemplateStore) (reference : Option (String × String)) :
    Preserves start.Untouched (loadTemplate store reference) := by
  cases reference with
  | none => exact preserves_pure _ _
  | some reference =>
    refine (io_untouched fun inv still => get_preserves still store _ _).bind fun found => ?_
    cases found with
    | ok found => exact preserves_pure _ _
    | error error => exact preserves_pure _ _

variable [Serialize Json] [Deserialize Json]

theorem resolve_and_build_untouched (hostname : String) (metadata : HostMetadata)
    (bmh : Option BareMetalHost) :
    Preserves start.Untouched (resolveAndBuild hostname metadata bmh) := by
  refine app_untouched.bind fun state => ?_
  split
  · exact preserves_pure _ _
  · refine (load_template_untouched _ _).bind fun loaded => ?_
    cases loaded with
    | none => exact preserves_pure _ _
    | some loaded => exact (or_panic_untouched _).bind fun content => preserves_pure _ _

theorem serve_config_untouched [Serialize CloudConfig] (contentType : String)
    (build : HostMetadata → Option BareMetalHost → Except Panic String) (ip : IpAddr) :
    Preserves start.Untouched (serveConfig contentType build ip) := by
  refine app_untouched.bind fun state => ?_
  cases state.resolveOnDemand ip with
  | none => exact preserves_pure _ _
  | some metadata =>
    refine (resolve_and_build_untouched _ _ _).bind fun result => ?_
    cases result with
    | config content format loaded => exact preserves_pure _ _
    | none => exact (or_panic_untouched _).bind fun content => preserves_pure _ _

end Configs

section Requests

variable [Serialize CloudConfig] [Serialize Json] [Deserialize Json] [Serialize IgnitionConfig]
  [Serialize TemplateMeta] [Deserialize TemplateMeta] [Serialize AssignmentsFile]
  [Serialize OneshotState]

/-- The requests of GET routes. -/
def Request.Reads : Request → Prop
  | .ignitionConfig _ | .kickstartConfig _ | .userData _ | .templatesList
  | .templatesListByType _ | .templatesGet _ _ | .templatesBackup | .assignmentsList
  | .oneshotList => True
  | _ => False

theorem reads_untouched {request : Request} (reads : request.Reads) (service : Service) :
    service.Untouched (service.after request) := by
  rw [after_eq]
  refine (?_ : Preserves service.Untouched request.handle) service (.refl service)
  cases request with
  | ignitionConfig ip => exact serve_config_untouched _ _ ip
  | kickstartConfig ip =>
    exact serve_config_untouched "text/plain"
      (fun metadata bmh => .ok (buildKickstart metadata bmh)) ip
  | userData ip => exact serve_config_untouched _ _ ip
  | templatesList =>
    exact app_untouched.bind fun state =>
      io_then_untouched (fun inv still => list_all_preserves still state.templateStore) _
  | templatesListByType imageType =>
    exact app_untouched.bind fun state =>
      io_then_untouched (fun inv still => list_by_type_preserves still state.templateStore _) _
  | templatesGet imageType name =>
    exact app_untouched.bind fun state =>
      io_then_untouched (fun inv still => get_preserves still state.templateStore _ _) _
  | templatesBackup =>
    exact app_untouched.bind fun state =>
      io_then_untouched (fun inv still => backup_preserves still state.templateStore) _
  | assignmentsList => exact app_untouched.bind fun state => preserves_pure _ _
  | oneshotList => exact app_untouched.bind fun state => preserves_pure _ _
  | _ => exact reads.elim

end Requests

/-! ## Safe methods -/

/-- The methods of requests that may change something. -/
def changingMethods : List Method := [.put, .post, .delete]

/-- The handlers that may change something. -/
def changingEndpoints : List Endpoint :=
  [.apiToken, .oneshotProvisioned, .templatesRestore, .templatesPut, .templatesDelete,
    .assignmentsPut, .assignmentsDelete, .oneshotDelete]

/-- The routes offer these handlers under these methods only. -/
theorem offered_methods {handlers : MethodRouter} (listed : handlers ∈ router.handlers)
    {method : Method} {endpoint : Endpoint} (offered : (method, endpoint) ∈ handlers) :
    method = .get ∧ endpoint ∉ changingEndpoints ∨
      method ∈ changingMethods ∧ endpoint ∈ changingEndpoints := by
  have table : ∀ handlers ∈ router.handlers, ∀ offer ∈ handlers,
      offer.1 = .get ∧ offer.2 ∉ changingEndpoints ∨
        offer.1 ∈ changingMethods ∧ offer.2 ∈ changingEndpoints := by
    decide +kernel
  exact table handlers listed (method, endpoint) offered

/-- A method other than HEAD is served as itself. -/
theorem served_changing {method : Method} (changing : method.served ∈ changingMethods) :
    method ∈ changingMethods := by
  cases method with
  | head => simp [Method.served, changingMethods] at changing
  | _ => exact changing

/-- A handler that may change something is called for a method that may. -/
theorem changing_of_handled {library : HttpLibrary} (keeps : library.KeepsTo router)
    {request : HttpRequest} {endpoint : Endpoint} {args : endpoint.Args}
    (handled : library request = .handled endpoint args) (changes : endpoint ∈ changingEndpoints) :
    request.method ∈ changingMethods := by
  obtain ⟨handlers, listed, offered⟩ := keeps request endpoint args handled
  rcases offered_methods listed offered with ⟨-, reads⟩ | ⟨changing, -⟩
  · exact absurd changes reads
  · exact served_changing changing

section Http

variable [Serialize CloudConfig] [Serialize Json] [Deserialize Json] [Serialize IgnitionConfig]
  [Serialize TemplateMeta] [Deserialize TemplateMeta] [Serialize AssignmentsFile]
  [Serialize OneshotState] {library : HttpLibrary}

omit [Serialize CloudConfig] [Serialize Json] [Deserialize Json] [Serialize IgnitionConfig]
  [Serialize TemplateMeta] [Deserialize TemplateMeta] [Serialize AssignmentsFile]
  [Serialize OneshotState] in
theorem request_reads {ip : IpAddr} {endpoint : Endpoint} {args : endpoint.Args} {named : Request}
    (safe : endpoint ∉ changingEndpoints) (asks : endpoint.request? ip args = some named) :
    named.Reads := by
  cases endpoint
  case templatesPut | templatesDelete | assignmentsPut | assignmentsDelete | oneshotDelete |
      templatesRestore | oneshotProvisioned =>
    exact absurd (by decide) safe
  all_goals
    cases asks
    try trivial

/-- A request with another method leaves the service untouched. -/
theorem safe_method_untouched (keeps : library.KeepsTo router) (service : Service)
    {request : HttpRequest} (safe : request.method ∉ changingMethods) :
    service.Untouched (service.afterHttp library request) := by
  rcases http_cases library service request with ⟨named, asks, after⟩ | ⟨header, handled, -⟩ |
    ⟨-, same⟩
  · obtain ⟨endpoint, args, handled, asks⟩ := request_handled asks
    rw [after]
    exact reads_untouched
      (request_reads (fun changes => safe (changing_of_handled keeps handled changes)) asks) service
  · exact absurd (changing_of_handled keeps handled (by decide)) safe
  · rw [same]
    exact .refl service

/-- **Safe methods change nothing.** If the HTTP library keeps to the routes, requests that are
neither PUT, POST nor DELETE leave the shared state and the data volume as they were, however
their file operations end. -/
theorem safe_methods_change_nothing (keeps : library.KeepsTo router) (service : Service)
    {requests : List HttpRequest}
    (safe : ∀ request ∈ requests, request.method ∉ changingMethods) :
    service.Untouched (service.runHttp library requests) := by
  induction requests generalizing service with
  | nil => exact .refl service
  | cons request requests step =>
    have first := safe_method_untouched keeps service (safe request List.mem_cons_self)
    exact first.trans (step (service.afterHttp library request) fun other listed =>
      safe other (List.mem_cons_of_mem _ listed))

/-! ## What the metadata pages show -/

/-- Only the records of the provisioning endpoints and the tokens may differ. -/
def SameShown (before after : AppState) : Prop :=
  ∃ assignments oneshot imdsTokens tokenCounter,
    after = { before with assignments, oneshot, imdsTokens, tokenCounter }

/-- The handlers that answer from these records, from the tokens or from the store. -/
def recordEndpoints : List Endpoint :=
  [.apiToken, .userData, .ignitionConfig, .kickstartConfig, .oneshotProvisioned, .templateInfo,
    .templatesList, .templatesBackup, .templatesRestore, .templatesListByType, .templatesGet,
    .templatesPut, .templatesDelete, .assignmentsList, .assignmentsPut, .assignmentsDelete,
    .oneshotList, .oneshotDelete]

omit [Serialize Json] [Deserialize Json] [Serialize IgnitionConfig]
  [Serialize TemplateMeta] [Deserialize TemplateMeta] [Serialize AssignmentsFile]
  [Serialize OneshotState] in
theorem effect_same_shown {request : Request} (own : request ≠ .rebuildCache) (timestamp : String)
    (app : AppState) : SameShown app (request.effect timestamp app) := by
  cases request with
  | assignmentsDelete hostname => rw [Request.effect]; split <;> exact ⟨_, _, _, _, rfl⟩
  | oneshotProvisioned ip => rw [Request.effect]; split <;> exact ⟨_, _, _, _, rfl⟩
  | oneshotDelete hostname => rw [Request.effect]; split <;> exact ⟨_, _, _, _, rfl⟩
  | rebuildCache => exact absurd rfl own
  | _ => exact ⟨_, _, _, _, rfl⟩

omit [Serialize CloudConfig] [Serialize Json] [Deserialize Json] [Serialize IgnitionConfig]
  [Serialize TemplateMeta] [Deserialize TemplateMeta] [Serialize AssignmentsFile]
  [Serialize OneshotState] in
/-- No request over HTTP is a rebuild of the cache. -/
theorem request_ne_rebuild {request : HttpRequest} {named : Request}
    (asks : library.request? request = some named) : named ≠ .rebuildCache := by
  obtain ⟨endpoint, args, -, asks⟩ := request_handled asks
  rintro rfl
  cases endpoint <;> cases asks

omit [Serialize CloudConfig] [Serialize Json] [Deserialize Json] [Serialize IgnitionConfig]
  [Serialize TemplateMeta] [Deserialize TemplateMeta] [Serialize AssignmentsFile]
  [Serialize OneshotState] in
theorem api_token_same_shown (ip : IpAddr) (header : Option String) (service : Service) :
    SameShown service.app (finalState (apiToken ip header service)).app := ⟨_, _, _, _, rfl⟩

theorem after_http_same_shown (library : HttpLibrary) (service : Service) (request : HttpRequest) :
    SameShown service.app (service.afterHttp library request).app := by
  rcases http_cases library service request with ⟨named, asks, after⟩ | ⟨header, -, after⟩ |
    ⟨-, same⟩
  · rw [after, after_app]
    exact effect_same_shown (request_ne_rebuild asks) _ _
  · rw [after]
    exact api_token_same_shown _ _ service
  · rw [same]
    exact ⟨_, _, _, _, rfl⟩

theorem run_http_same_shown (library : HttpLibrary) (service : Service)
    (requests : List HttpRequest) :
    SameShown service.app (service.runHttp library requests).app := by
  induction requests generalizing service with
  | nil => exact ⟨_, _, _, _, rfl⟩
  | cons request requests step =>
    obtain ⟨_, _, _, _, first⟩ := after_http_same_shown library service request
    obtain ⟨_, _, _, _, later⟩ := step (service.afterHttp library request)
    change SameShown service.app ((service.afterHttp library request).runHttp library requests).app
    rw [later, first]
    exact ⟨_, _, _, _, rfl⟩

/-- What a page answers over HTTP. -/
def pageReply : Except StatusCode String → Reply
  | .ok body => .text body
  | .error code => .status code

omit [Serialize CloudConfig] [Serialize Json] [Deserialize Json] [Serialize IgnitionConfig]
  [Serialize TemplateMeta] [Deserialize TemplateMeta] [Serialize AssignmentsFile]
  [Serialize OneshotState] in
theorem answer_page_replied (page : AppState → IpAddr → Except StatusCode String) (ip : IpAddr)
    (service : Service) :
    repliedBy (answerPage page ip service) = pageReply (page service.app ip) := by
  rw [answerPage, bind_ok (show Handler.app service = .ok service.app service from rfl)]
  cases page service.app ip <;> rfl

theorem handle_same_shown {first second : Service} (same : SameShown first.app second.app)
    {endpoint : Endpoint} (page : endpoint ∉ recordEndpoints) (ip : IpAddr)
    (args : endpoint.Args) :
    repliedBy (endpoint.handle ip args first) = repliedBy (endpoint.handle ip args second) := by
  obtain ⟨assignments, oneshot, imdsTokens, tokenCounter, same⟩ := same
  have pages : ∀ shown : AppState → IpAddr → Except StatusCode String,
      shown first.app ip = shown second.app ip →
        repliedBy (answerPage shown ip first) = repliedBy (answerPage shown ip second) := by
    intro shown alike
    rw [answer_page_replied, answer_page_replied, alike]
  cases endpoint
  case publicKey => exact pages (fun state ip => publicKey state ip args) (by rw [same]; rfl)
  case metaDataIndex =>
    change Reply.text (Pages.metaDataIndex first.app ip) =
      Reply.text (Pages.metaDataIndex second.app ip)
    rw [same]
    rfl
  case debugState =>
    change Reply.document (CloudId.debugState first.app) =
      Reply.document (CloudId.debugState second.app)
    rw [same]
    rfl
  -- The rest answers from the store, shows a page of a host or is fixed.
  all_goals first
    | exact absurd (by decide) page
    | exact pages _ (by rw [same]; rfl)
    | rfl

/-- **Requests do not change what the metadata pages show.** Whatever has been asked over HTTP
before, the pages of the metadata tree but the user data, and the state listing, are answered
as they would have been at first. -/
theorem metadata_immune_to_requests (library : HttpLibrary) (service : Service)
    (requests : List HttpRequest) {question : HttpRequest}
    (page : ∀ endpoint args, library question = .handled endpoint args →
      endpoint ∉ recordEndpoints) :
    ((service.runHttp library requests).http library question).1 =
      (service.http library question).1 := by
  cases routed : library question with
  | answered status => rw [Service.http, Service.http, routed]
  | handled endpoint args =>
    rw [http_of_handled routed, http_of_handled routed]
    exact (handle_same_shown (run_http_same_shown library service requests) (page _ _ routed)
      question.ip args).symm

end Http

section Sample

attribute [local instance] cloudConfigText Json.prettyText emptyObjectReader ignitionText
  templateMetaText templateMetaParser assignmentsText oneshotText

/-- A host reads all it can about itself. -/
def curiousHost : List HttpRequest :=
  [{ method := .get, uri := "/latest/user-data", ip := .v4 10 0 0 5 },
    { method := .head, uri := "/config/ignition", ip := .v4 10 0 0 5 },
    { method := .get, uri := "/api/v1/templates/backup", ip := .v4 10 0 0 5 },
    { method := .options, uri := "/api/v1/oneshot/web1", ip := .v4 10 0 0 5 }]

def curiousCalls : HttpLibrary := .knowing (curiousHost.zip
  [.handled .userData (), .handled .ignitionConfig (), .handled .templatesBackup (), .answered 200])

theorem safe_methods_change_nothing_curious_host :
    singleHost.Untouched (singleHost.runHttp curiousCalls curiousHost) :=
  safe_methods_change_nothing (knowing_keeps_to (by decide +kernel)) singleHost (by decide)

/-- Another host forges the records of `web1`. -/
def forgingHost : List HttpRequest :=
  [{ method := .put, uri := "/api/v1/templates/fedora/evil.ks", ip := .v4 10 0 0 6
     body := "\x7b\"content\": \"\"\x7d" },
    { method := .put, uri := "/api/v1/assignments/web1", ip := .v4 10 0 0 6
      body := "\x7b\"image_type\": \"fedora\", \"template\": \"evil.ks\"\x7d" },
    { method := .delete, uri := "/api/v1/oneshot/web1", ip := .v4 10 0 0 6 }]

/-- The host `web1` asks for the first of its keys. -/
def firstKeyRequest : HttpRequest where
  method := .get
  uri := "/latest/meta-data/public-keys/0/openssh-key"
  ip := .v4 10 0 0 5

def forgingCalls : HttpLibrary := .knowing ((forgingHost ++ [firstKeyRequest]).zip
  [.handled .templatesPut ("fedora", "evil.ks", { content := "" }),
    .handled .assignmentsPut ("web1", { imageType := "fedora", template := "evil.ks" }),
    .handled .oneshotDelete "web1", .handled .publicKey 0])

theorem metadata_immune_to_requests_forging_host :
    ((singleHost.runHttp forgingCalls forgingHost).http forgingCalls firstKeyRequest).1 =
      (singleHost.http forgingCalls firstKeyRequest).1 := by
  refine metadata_immune_to_requests forgingCalls singleHost forgingHost
    fun endpoint args handled => ?_
  have called : (forgingCalls firstKeyRequest).endpoint? = some .publicKey := by decide +kernel
  rw [handled] at called
  cases called
  decide

end Sample

end CloudId
