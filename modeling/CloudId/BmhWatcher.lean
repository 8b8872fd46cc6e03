import CloudId.Cache
import CloudId.Library.SecondaryIndex

/-! `watcher/bmh.rs`: loading the bare metal hosts of every data network, adding
the names of DHCP leases, and following the watch. A request is known by its
outcome. -/
namespace CloudId
open SecondaryIndex

/-! ## Bare metal hosts -/

/-- The address text of a host: the live one, else the configured one. -/
def BareMetalHost.ipStr (host : BareMetalHost) : Option String :=
  (host.status.bind fun status => if status.ip = "" then none else some status.ip).or
    (if host.spec.ip = "" then none else some host.spec.ip)

/-- The address of a host; absent when its text does not parse. -/
def BareMetalHost.ip? (host : BareMetalHost) : Option IpAddr := host.ipStr.bind IpAddr.parse

/-- The name a host goes by: the configured hostname, else the object's name. -/
def BareMetalHost.effectiveHostname (host : BareMetalHost) : String :=
  if host.spec.hostname = "" then host.metadata.name else host.spec.hostname

/-- `apply_bmh_to_state`. -/
def applyBmhToState (host : BareMetalHost) (bmh : BmhState) : BmhState :=
  let hostname := host.effectiveHostname
  match host.ip? with
  | some ip =>
    { ipToHostname := bmh.ipToHostname.insert ip hostname
      hostLabels := bmh.hostLabels.insert hostname host.metadata.labels
      hostNamespace := bmh.hostNamespace.insert hostname host.metadata.«namespace»
      hosts := bmh.hosts.insert hostname host }
  | none => bmh

/-! ## Loading -/

/-- What comes of the list request for one namespace. -/
inductive BmhAnswer where
  | unreachable
  | refused (status : Nat)
  | unparsable
  | listed (items : List BareMetalHost)

/-- One turn of the load loop: a failed list adds nothing. -/
def loadNamespace (bmh : BmhState) : BmhAnswer → BmhState
  | .unreachable => bmh
  | .refused _ => bmh
  | .unparsable => bmh
  | .listed items => items.foldl (fun bmh host => applyBmhToState host bmh) bmh

/-- `load_all_bmh`, with the discovered namespaces and the answer of each;
nothing changes when the discovery fails. -/
def loadAllBmh (state : AppState) : Option (List (String × BmhAnswer)) → AppState
  | none => state
  | some namespaces =>
    { state with
      bmh := (namespaces.map Prod.snd).foldl loadNamespace {}
      dataNamespaces := namespaces.map Prod.fst }

/-- What comes of the request to one DHCP source. -/
inductive LeaseAnswer where
  | unreachable
  | refused (status : Nat)
  | unparsable
  | listed (leases : List DhcpLease)

/-- Adds the name of a lease, unless its address is known already. -/
def addLease (bmh : BmhState) (lease : DhcpLease) : BmhState :=
  if lease.hostname = "" then bmh
  else
    match IpAddr.parse lease.ip with
    | some ip =>
      if ip ∈ bmh.ipToHostname then bmh
      else { bmh with ipToHostname := bmh.ipToHostname.insert ip lease.hostname }
    | none => bmh

/-- One turn over the DHCP sources. -/
def loadSource (bmh : BmhState) : LeaseAnswer → BmhState
  | .unreachable => bmh
  | .refused _ => bmh
  | .unparsable => bmh
  | .listed leases => leases.foldl addLease bmh

/-- `load_dhcp_leases`, with the answer of each configured source. -/
def loadDhcpLeases (state : AppState) (sources : List LeaseAnswer) : AppState :=
  { state with bmh := sources.foldl loadSource state.bmh }

/-! ## What the answers list -/

namespace BmhAnswer

/-- What a successful answer lists. -/
def items : BmhAnswer → List BareMetalHost
  | .listed items => items
  | _ => []

def failed : BmhAnswer → Bool
  | .listed _ => false
  | _ => true

end BmhAnswer

namespace LeaseAnswer

def leases : LeaseAnswer → List DhcpLease
  | .listed leases => leases
  | _ => []

def failed : LeaseAnswer → Bool
  | .listed _ => false
  | _ => true

end LeaseAnswer

theorem load_namespaces_eq (answers : List BmhAnswer) (bmh : BmhState) :
    answers.foldl loadNamespace bmh =
      (answers.flatMap BmhAnswer.items).foldl (fun bmh host => applyBmhToState host bmh) bmh := by
  induction answers generalizing bmh with
  | nil => rfl
  | cons answer rest step =>
    rw [List.foldl_cons, step, List.flatMap_cons, List.foldl_append]
    cases answer <;> rfl

theorem load_sources_eq (sources : List LeaseAnswer) (bmh : BmhState) :
    sources.foldl loadSource bmh = (sources.flatMap LeaseAnswer.leases).foldl addLease bmh := by
  induction sources generalizing bmh with
  | nil => rfl
  | cons answer rest step =>
    rw [List.foldl_cons, step, List.flatMap_cons, List.foldl_append]
    cases answer <;> rfl

/-! ## Watching -/

/-- What a watch event does to the records of the hosts. -/
def applyWatchEvent (bmh : BmhState) (event : WatchEvent) : BmhState :=
  let hostname := event.object.effectiveHostname
  if event.eventType = "ADDED" ∨ event.eventType = "MODIFIED" then
    applyBmhToState event.object bmh
  else if event.eventType = "DELETED" then
    { ipToHostname := HashMap.retain (fun _ name => name ≠ hostname) bmh.ipToHostname
      hostLabels := bmh.hostLabels.erase hostname
      hostNamespace := bmh.hostNamespace.erase hostname
      hosts := bmh.hosts.erase hostname }
  else bmh

section Rebuild

variable [Serialize CloudConfig]

/-- `handle_watch_event`: the change, then a cache rebuild; an unknown event
type does neither. -/
def handleWatchEvent (state : AppState) (event : WatchEvent) : AppState :=
  if event.eventType = "ADDED" ∨ event.eventType = "MODIFIED" ∨ event.eventType = "DELETED" then
    { state with bmh := applyWatchEvent state.bmh event }.rebuildCache
  else state

/-- One full refresh, as `run_watcher` starts with and `periodic_refresh`
repeats: the hosts, the leases, the cache. -/
def refresh (state : AppState) (namespaces : Option (List (String × BmhAnswer)))
    (sources : List LeaseAnswer) : AppState :=
  (loadDhcpLeases (loadAllBmh state namespaces) sources).rebuildCache

/-- The watch changes the records event by event. -/
theorem handle_watch_event_bmh (state : AppState) (event : WatchEvent) :
    (handleWatchEvent state event).bmh = applyWatchEvent state.bmh event := by
  rw [handleWatchEvent]
  split
  · rfl
  · rename_i unknown
    push Not at unknown
    obtain ⟨notAdded, notModified, notDeleted⟩ := unknown
    rw [applyWatchEvent, if_neg, if_neg notDeleted]
    rintro (added | modified)
    · exact notAdded added
    · exact notModified modified

theorem watch_events_bmh (state : AppState) (events : List WatchEvent) :
    (events.foldl handleWatchEvent state).bmh = events.foldl applyWatchEvent state.bmh := by
  induction events generalizing state with
  | nil => rfl
  | cons event rest step => rw [List.foldl_cons, step, handle_watch_event_bmh]; rfl

end Rebuild

/-! ## The four maps as indexes -/

/-- The name a host is recorded under, if it is recorded at all. -/
def BareMetalHost.recordedName (host : BareMetalHost) : Option String :=
  host.ip?.map fun _ => host.effectiveHostname

/-- Recording a host inserts it in all four maps, each under its own key. -/
theorem apply_bmh_to_state_eq (host : BareMetalHost) (bmh : BmhState) :
    applyBmhToState host bmh =
      { ipToHostname :=
          insertRow BareMetalHost.ip? BareMetalHost.effectiveHostname bmh.ipToHostname host
        hostLabels := insertRow BareMetalHost.recordedName (·.metadata.labels) bmh.hostLabels host
        hostNamespace :=
          insertRow BareMetalHost.recordedName (·.metadata.«namespace») bmh.hostNamespace host
        hosts := insertRow BareMetalHost.recordedName id bmh.hosts host } := by
  cases recorded : host.ip? with
  | some ip => simp [applyBmhToState, insertRow, BareMetalHost.recordedName, recorded]
  | none => simp [applyBmhToState, insertRow, BareMetalHost.recordedName, recorded]

theorem apply_hosts_eq (items : List BareMetalHost) (bmh : BmhState) :
    items.foldl (fun bmh host => applyBmhToState host bmh) bmh =
      { ipToHostname := items.foldl
          (insertRow BareMetalHost.ip? BareMetalHost.effectiveHostname) bmh.ipToHostname
        hostLabels := items.foldl
          (insertRow BareMetalHost.recordedName (·.metadata.labels)) bmh.hostLabels
        hostNamespace := items.foldl
          (insertRow BareMetalHost.recordedName (·.metadata.«namespace»)) bmh.hostNamespace
        hosts := items.foldl (insertRow BareMetalHost.recordedName id) bmh.hosts } := by
  induction items generalizing bmh with
  | nil => rfl
  | cons host rest step => rw [List.foldl_cons, step, apply_bmh_to_state_eq]; rfl

end CloudId
