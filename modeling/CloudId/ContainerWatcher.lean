import CloudId.Cache
import CloudId.Library.Backoff
import CloudId.Library.SecondaryIndex

/-! `watcher/container.rs`: polling mkube for the addresses of the pods and the owners of
the namespaces. A request is known by its outcome. Between its awaits the watcher leaves
the service to the other tasks, so a poll and the cache rebuild after it are two steps. -/
namespace CloudId
open SecondaryIndex

/-! ## Loading -/

/-- What comes of a list request. -/
inductive ListAnswer (α : Type) where
  | unreachable
  | refused (status : Nat)
  | unparsable
  | listed (items : List α)

/-- The items of a list, if the request brings one. -/
def ListAnswer.items? {α : Type} : ListAnswer α → Option (List α)
  | .listed items => some items
  | .unreachable | .refused _ | .unparsable => none

/-- The owner a namespace is annotated with; an empty annotation counts for nothing. -/
def K8sNamespace.owner? (ns : K8sNamespace) : Option String :=
  (ns.metadata.annotations.lookup "vkube.io/owner").filter (· ≠ "")

/-- The owners that a list of namespaces gives. -/
def namespaceOwners (items : List K8sNamespace) : HashMap String String :=
  items.foldl (fun owners ns =>
    match ns.owner? with
    | some owner => owners.insert ns.metadata.name owner
    | none => owners) ∅

/-- The address text of a pod; empty without a status. -/
def K8sPod.ipStr (pod : K8sPod) : String := (pod.status.map K8sPodStatus.podIp).getD ""

/-- The address of a pod; absent when its text is empty or does not parse. -/
def K8sPod.ip? (pod : K8sPod) : Option IpAddr :=
  if pod.ipStr = "" then none else IpAddr.parse pod.ipStr

/-- The name of the first container of a pod, or `main`. -/
def K8sPod.containerName (pod : K8sPod) : String :=
  ((pod.status.bind fun status => status.containerStatuses.head?).map
    K8sContainerStatus.name).getD "main"

/-- What the watcher records of a pod. -/
def K8sPod.info (pod : K8sPod) : ContainerInfo where
  «namespace» := pod.metadata.«namespace»
  podName := pod.metadata.name
  containerName := pod.containerName
  hostname := pod.containerName ++ "." ++ pod.metadata.name

/-- The containers that a list of pods gives, by address. -/
def podContainers (items : List K8sPod) : HashMap IpAddr ContainerInfo :=
  items.foldl (insertRow K8sPod.ip? K8sPod.info) ∅

/-- `load_namespaces`. -/
def loadNamespaces (answer : ListAnswer K8sNamespace) : Option (HashMap String String) :=
  answer.items?.map namespaceOwners

/-- `load_pods`. -/
def loadPods (answer : ListAnswer K8sPod) : Option (HashMap IpAddr ContainerInfo) :=
  answer.items?.map podContainers

/-- `load_container_state`: the namespaces first, then the pods; only with both is the
state replaced. -/
def loadContainerState (state : AppState) (namespaces : ListAnswer K8sNamespace)
    (pods : ListAnswer K8sPod) : Option AppState := do
  let namespaceOwners ← loadNamespaces namespaces
  let ipToContainer ← loadPods pods
  return { state with containers := { ipToContainer, namespaceOwners } }

/-! ## The watcher -/

/-- `max_backoff` of `start`, and the backoff it begins with, in seconds. -/
def maxBackoff : Nat := 60

def firstBackoff : Nat := 1

/-- Where the watcher stands: before an attempt of `run_watcher`, or in the refresh loop
of one, before a load or before the rebuild after it. -/
inductive ContainerStage where
  | connecting (backoff : Nat)
  | refreshing
  | rebuilding
  deriving DecidableEq

/-- The watcher in its service, with the waits between its attempts so far. -/
structure ContainerWatch where
  app : AppState
  stage : ContainerStage := .connecting firstBackoff
  waits : List Nat := []

/-- What one round of requests comes to. The client is built when connecting only. -/
structure Poll where
  client : Bool := true
  namespaces : ListAnswer K8sNamespace
  pods : ListAnswer K8sPod

/-- What the other tasks of the service do meanwhile; only this watcher writes the
containers. -/
structure OtherTask where
  change : AppState → AppState
  keeps : ∀ app, (change app).containers = app.containers

/-- A step of the watcher, or of the service around it. -/
inductive ContainerEvent where
  | poll (poll : Poll)
  | rebuild
  | other (task : OtherTask)

namespace ContainerWatch

/-- An attempt that failed: `start` waits and goes on with a longer backoff. -/
def failed (watch : ContainerWatch) (backoff : Nat) : ContainerWatch where
  app := watch.app
  stage := .connecting (Backoff.next firstBackoff maxBackoff backoff false)
  waits := watch.waits ++ [Backoff.wait firstBackoff backoff false]

/-- A round of requests: the initial load of an attempt has to succeed, a later one that
fails is only logged. -/
def polled (watch : ContainerWatch) (poll : Poll) : ContainerWatch :=
  match watch.stage with
  | .connecting backoff =>
    if poll.client then
      match loadContainerState watch.app poll.namespaces poll.pods with
      | some app => { watch with app, stage := .rebuilding }
      | none => watch.failed backoff
    else watch.failed backoff
  | .refreshing =>
    { watch with
      app := (loadContainerState watch.app poll.namespaces poll.pods).getD watch.app
      stage := .rebuilding }
  | .rebuilding => watch

/-- One step; an event the watcher is not at has no effect. -/
def step [Serialize CloudConfig] (watch : ContainerWatch) : ContainerEvent → ContainerWatch
  | .poll poll => watch.polled poll
  | .rebuild =>
    match watch.stage with
    | .rebuilding => { watch with app := watch.app.rebuildCache, stage := .refreshing }
    | .connecting _ | .refreshing => watch
  | .other task => { watch with app := task.change watch.app }

/-- The watcher after a sequence of steps. -/
def run [Serialize CloudConfig] (watch : ContainerWatch) (events : List ContainerEvent) :
    ContainerWatch :=
  events.foldl step watch

end ContainerWatch

end CloudId
