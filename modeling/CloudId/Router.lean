import CloudId.Metadata
import CloudId.TemplateInfo
import CloudId.TemplateMap

/-! `metadata/mod.rs`: the routes of the service, and what the handlers answer. How the HTTP library
takes a request apart is not part of the repository: which handler it calls, with which arguments,
is a parameter, and what the service relies on is an assumption about it. -/
namespace CloudId
open Effects

/-! ## Requests and replies -/

inductive Method where
  | get
  | head
  | put
  | post
  | delete
  | options
  | other (name : String)
  deriving DecidableEq

structure HttpRequest where
  method : Method
  uri : String
  headers : List (String × String) := []
  body : String := ""
  /-- The address that the connection comes from. -/
  ip : IpAddr

inductive Reply where
  | text (body : String)
  | document (value : Json)
  | status (code : StatusCode)
  | served (response : Response)
  /-- The HTTP library has answered by itself. -/
  | unhandled (status : ℕ)
  | panicked

/-- The handlers of `handlers.rs`. -/
inductive Endpoint where
  | apiToken
  | root
  | latest
  | dynamicIndex
  | instanceIdentityIndex
  | instanceIdentityDocument
  | metaDataIndex
  | amiId
  | instanceId
  | instanceType
  | hostname
  | localHostname
  | localIpv4
  | mac
  | placementIndex
  | availabilityZone
  | region
  | servicesIndex
  | servicesDomain
  | servicesPartition
  | networkIndex
  | networkInterfacesIndex
  | networkInterfacesMacs
  | networkMacDetail
  | networkMacDeviceNumber
  | networkMacLocalIpv4s
  | networkMacSubnet
  | publicKeysIndex
  | publicKey
  | userData
  | ignitionConfig
  | kickstartConfig
  | oneshotProvisioned
  | templateInfo
  | templatesList
  | templatesBackup
  | templatesRestore
  | templatesListByType
  | templatesGet
  | templatesPut
  | templatesDelete
  | assignmentsList
  | assignmentsPut
  | assignmentsDelete
  | oneshotList
  | oneshotDelete
  | health
  | debugState
  deriving DecidableEq

/-- What the extractors take from a request for a handler, beside the address of the connection. -/
@[reducible] def Endpoint.Args : Endpoint → Type
  | .apiToken => Option String
  | .networkMacDetail => String
  | .networkMacDeviceNumber => String
  | .networkMacLocalIpv4s => String
  | .networkMacSubnet => String
  | .publicKey => ℕ
  | .templatesRestore => TemplateBundle
  | .templatesListByType => String
  | .templatesGet => String × String
  | .templatesPut => String × String × TemplateCreateRequest
  | .templatesDelete => String × String
  | .assignmentsPut => String × AssignmentRequest
  | .assignmentsDelete => String
  | .oneshotDelete => String
  | _ => Unit

/-! ## The route table -/

/-- The handlers of a path, by method. -/
abbrev MethodRouter := List (Method × Endpoint)

/-- What is given to the HTTP library: routes, and tables that are nested under a prefix. -/
structure RouteTable where
  routes : List (String × MethodRouter)
  nested : List (String × List (String × MethodRouter))

/-- `metadata_routes`. -/
def metadataRoutes : List (String × MethodRouter) := [
  ("/api/token", [(.put, .apiToken)]),
  ("/", [(.get, .latest)]),
  ("/dynamic", [(.get, .dynamicIndex)]),
  ("/dynamic/", [(.get, .dynamicIndex)]),
  ("/dynamic/instance-identity", [(.get, .instanceIdentityIndex)]),
  ("/dynamic/instance-identity/", [(.get, .instanceIdentityIndex)]),
  ("/dynamic/instance-identity/document", [(.get, .instanceIdentityDocument)]),
  ("/meta-data", [(.get, .metaDataIndex)]),
  ("/meta-data/", [(.get, .metaDataIndex)]),
  ("/meta-data/ami-id", [(.get, .amiId)]),
  ("/meta-data/instance-id", [(.get, .instanceId)]),
  ("/meta-data/instance-type", [(.get, .instanceType)]),
  ("/meta-data/hostname", [(.get, .hostname)]),
  ("/meta-data/local-hostname", [(.get, .localHostname)]),
  ("/meta-data/local-ipv4", [(.get, .localIpv4)]),
  ("/meta-data/mac", [(.get, .mac)]),
  ("/meta-data/placement", [(.get, .placementIndex)]),
  ("/meta-data/placement/", [(.get, .placementIndex)]),
  ("/meta-data/placement/availability-zone", [(.get, .availabilityZone)]),
  ("/meta-data/placement/region", [(.get, .region)]),
  ("/meta-data/services", [(.get, .servicesIndex)]),
  ("/meta-data/services/", [(.get, .servicesIndex)]),
  ("/meta-data/services/domain", [(.get, .servicesDomain)]),
  ("/meta-data/services/partition", [(.get, .servicesPartition)]),
  ("/meta-data/network", [(.get, .networkIndex)]),
  ("/meta-data/network/", [(.get, .networkIndex)]),
  ("/meta-data/network/interfaces", [(.get, .networkInterfacesIndex)]),
  ("/meta-data/network/interfaces/", [(.get, .networkInterfacesIndex)]),
  ("/meta-data/network/interfaces/macs", [(.get, .networkInterfacesMacs)]),
  ("/meta-data/network/interfaces/macs/", [(.get, .networkInterfacesMacs)]),
  ("/meta-data/network/interfaces/macs/{mac}/", [(.get, .networkMacDetail)]),
  ("/meta-data/network/interfaces/macs/{mac}/device-number",
    [(.get, .networkMacDeviceNumber)]),
  ("/meta-data/network/interfaces/macs/{mac}/local-ipv4s",
    [(.get, .networkMacLocalIpv4s)]),
  ("/meta-data/network/interfaces/macs/{mac}/subnet-ipv4-cidr-block",
    [(.get, .networkMacSubnet)]),
  ("/meta-data/public-keys", [(.get, .publicKeysIndex)]),
  ("/meta-data/public-keys/", [(.get, .publicKeysIndex)]),
  ("/meta-data/public-keys/{index}/openssh-key", [(.get, .publicKey)]),
  ("/user-data", [(.get, .userData)])]

/-- The prefixes that `router` nests the metadata routes under. -/
def metadataVersions : List String :=
  ["/latest", "/2021-01-03", "/2020-10-27", "/2019-10-01", "/2018-09-24", "/2016-09-02", "/2009-04-04"]

/-- The routes of `router` itself. -/
def serviceRoutes : List (String × MethodRouter) := [
  ("/", [(.get, .root)]),
  ("/config/ignition", [(.get, .ignitionConfig)]),
  ("/config/kickstart", [(.get, .kickstartConfig)]),
  ("/config/provisioned", [(.post, .oneshotProvisioned)]),
  ("/config/template", [(.get, .templateInfo)]),
  ("/api/v1/templates", [(.get, .templatesList)]),
  ("/api/v1/templates/backup", [(.get, .templatesBackup)]),
  ("/api/v1/templates/restore", [(.post, .templatesRestore)]),
  ("/api/v1/templates/{image_type}", [(.get, .templatesListByType)]),
  ("/api/v1/templates/{image_type}/{name}",
    [(.get, .templatesGet), (.put, .templatesPut), (.delete, .templatesDelete)]),
  ("/api/v1/assignments", [(.get, .assignmentsList)]),
  ("/api/v1/assignments/{hostname}",
    [(.put, .assignmentsPut), (.delete, .assignmentsDelete)]),
  ("/api/v1/oneshot", [(.get, .oneshotList)]),
  ("/api/v1/oneshot/{hostname}", [(.delete, .oneshotDelete)]),
  ("/health", [(.get, .health)]),
  ("/api/v1/debug/state", [(.get, .debugState)])]

/-- `router`. -/
def router : RouteTable where
  routes := serviceRoutes
  nested := metadataVersions.map fun version => (version, metadataRoutes)

/-- The handlers of all paths. -/
def RouteTable.handlers (table : RouteTable) : List MethodRouter :=
  (table.routes ++ table.nested.flatMap Prod.snd).map Prod.snd

/-! ## The HTTP library -/

/-- What the HTTP library makes of a request: it calls a handler with what the extractors took, or
it answers by itself, as it does without a route, for a body that it cannot read or for OPTIONS. -/
inductive Routed where
  | handled (endpoint : Endpoint) (args : endpoint.Args)
  | answered (status : ℕ)

abbrev HttpLibrary := HttpRequest → Routed

/-- The method whose handlers are called: GET handlers answer HEAD requests, and the library drops
the body. -/
def Method.served : Method → Method
  | .head => .get
  | method => method

/-- The library calls a handler only for a method that a route has it under. -/
def HttpLibrary.KeepsTo (library : HttpLibrary) (table : RouteTable) : Prop :=
  ∀ request endpoint args, library request = .handled endpoint args →
    ∃ handlers ∈ table.handlers, (request.method.served, endpoint) ∈ handlers

/-! ## Answering -/

/-- A text page of the metadata tree. -/
def answerPage (page : AppState → IpAddr → Except StatusCode String) (ip : IpAddr) :
    Handler Reply := do
  match page (← Handler.app) ip with
  | .ok body => return .text body
  | .error code => return .status code

/-- `template_info`, while no request changes the assignments. -/
def templateInfo (state : AppState) (ip : IpAddr) : TemplateInfo :=
  match state.bmh.ipToHostname.lookup ip with
  | none => .unknownIp
  | some hostname =>
    if hostname ∈ state.oneshot.completed then .oneshotCompleted hostname
    else .template hostname (reportedTemplate false state hostname (state.getBmh hostname))

/-- The answer of a handler. -/
def repliedBy : EStateM.Result Panic Service Reply → Reply
  | .ok reply _ => reply
  | .error _ _ => .panicked

section Serve

variable [Serialize CloudConfig] [Serialize Json] [Deserialize Json] [Serialize IgnitionConfig]
  [Serialize TemplateMeta] [Deserialize TemplateMeta] [Serialize AssignmentsFile]
  [Serialize OneshotState]

/-- A request that `handlers.rs` answers from the service. -/
def answerRequest (request : Request) : Handler Reply := return .served (← request.handle)

/-- The body of a handler, with the address of the connection. -/
def Endpoint.handle (ip : IpAddr) : (endpoint : Endpoint) → endpoint.Args → Handler Reply
  | .apiToken, header => return .text (← CloudId.apiToken ip header)
  | .root, _ => return .text Pages.root
  | .latest, _ => return .text Pages.latest
  | .dynamicIndex, _ => return .text Pages.dynamicIndex
  | .instanceIdentityIndex, _ => return .text Pages.instanceIdentityIndex
  | .instanceIdentityDocument, _ => answerPage Pages.instanceIdentityDocument ip
  | .metaDataIndex, _ => return .text (Pages.metaDataIndex (← Handler.app) ip)
  | .amiId, _ => return .text Pages.amiId
  | .instanceId, _ => answerPage Pages.instanceId ip
  | .instanceType, _ => return .text Pages.instanceType
  | .hostname, _ => answerPage Pages.hostname ip
  | .localHostname, _ => answerPage Pages.localHostname ip
  | .localIpv4, _ => answerPage Pages.localIpv4 ip
  | .mac, _ => answerPage Pages.mac ip
  | .placementIndex, _ => return .text Pages.placementIndex
  | .availabilityZone, _ => answerPage Pages.availabilityZone ip
  | .region, _ => answerPage Pages.region ip
  | .servicesIndex, _ => return .text Pages.servicesIndex
  | .servicesDomain, _ => return .text Pages.servicesDomain
  | .servicesPartition, _ => return .text Pages.servicesPartition
  | .networkIndex, _ => return .text Pages.networkIndex
  | .networkInterfacesIndex, _ => return .text Pages.networkInterfacesIndex
  | .networkInterfacesMacs, _ => answerPage Pages.networkInterfacesMacs ip
  | .networkMacDetail, _ => answerPage Pages.networkMacDetail ip
  | .networkMacDeviceNumber, _ => return .text Pages.networkMacDeviceNumber
  | .networkMacLocalIpv4s, _ => answerPage Pages.networkMacLocalIpv4s ip
  | .networkMacSubnet, _ => answerPage Pages.networkMacSubnet ip
  | .publicKeysIndex, _ => answerPage CloudId.publicKeysIndex ip
  | .publicKey, index => answerPage (fun state ip => CloudId.publicKey state ip index) ip
  | .userData, _ => answerRequest (.userData ip)
  | .ignitionConfig, _ => answerRequest (.ignitionConfig ip)
  | .kickstartConfig, _ => answerRequest (.kickstartConfig ip)
  | .oneshotProvisioned, _ => answerRequest (.oneshotProvisioned ip)
  | .templateInfo, _ => do
    let info := CloudId.templateInfo (← Handler.app) ip
    return .document (info.toJson ip)
  | .templatesList, _ => answerRequest .templatesList
  | .templatesBackup, _ => answerRequest .templatesBackup
  | .templatesRestore, bundle => answerRequest (.templatesRestore bundle)
  | .templatesListByType, imageType => answerRequest (.templatesListByType imageType)
  | .templatesGet, (imageType, name) => answerRequest (.templatesGet imageType name)
  | .templatesPut, (imageType, name, req) => answerRequest (.templatesPut imageType name req)
  | .templatesDelete, (imageType, name) => answerRequest (.templatesDelete imageType name)
  | .assignmentsList, _ => answerRequest .assignmentsList
  | .assignmentsPut, (host, req) => answerRequest (.assignmentsPut host req)
  | .assignmentsDelete, host => answerRequest (.assignmentsDelete host)
  | .oneshotList, _ => answerRequest .oneshotList
  | .oneshotDelete, host => answerRequest (.oneshotDelete host)
  | .health, _ => return .text Pages.health
  | .debugState, _ => return .document (CloudId.debugState (← Handler.app))

/-- The answer of the service to a request, and the service after it. -/
def Service.http (library : HttpLibrary) (service : Service) (request : HttpRequest) :
    Reply × Service :=
  match library request with
  | .answered status => (.unhandled status, service)
  | .handled endpoint args =>
    let result := endpoint.handle request.ip args service
    (repliedBy result, finalState result)

/-- The service after a request. -/
def Service.afterHttp (library : HttpLibrary) (service : Service) (request : HttpRequest) : Service :=
  (service.http library request).2

/-- The service after a sequence of requests. -/
def Service.runHttp (library : HttpLibrary) (service : Service) (requests : List HttpRequest) :
    Service :=
  requests.foldl (Service.afterHttp library) service

end Serve

end CloudId
