import CloudId.Resolve
import CloudId.Templates

/-! `cache.rs`: the shared state of the service, the metadata cache computed
from it, on-demand resolution, IMDS tokens and the static identity. The locks
around the state are the subject of `RebuildInterleaving`; here a call sees one
state. -/
namespace CloudId
open FileSystem

/-- IMDSv2 token entry with expiration. -/
structure ImdsToken where
  token : String
  ip : IpAddr
  ttlSecs : UInt32
  createdAt : Nat
  deriving DecidableEq

/-- `ImdsToken::is_expired` at a clock reading in seconds. -/
def ImdsToken.isExpired (entry : ImdsToken) (now : Nat) : Bool :=
  now > entry.createdAt + entry.ttlSecs.toNat

/-- Shared application state holding all caches. -/
structure AppState where
  /-- Precomputed metadata cache. -/
  metadataCache : HashMap IpAddr HostMetadata := ∅
  /-- IMDSv2 tokens by token string. -/
  imdsTokens : HashMap String ImdsToken := ∅
  identity : IdentityState := {}
  bmh : BmhState := {}
  containers : ContainerState := {}
  /-- Discovered data network namespaces. -/
  dataNamespaces : List String := []
  templateStore : TemplateStore
  /-- Host-to-template assignments. -/
  assignments : AssignmentsFile := {}
  /-- Oneshot completion state. -/
  oneshot : OneshotState := {}
  config : Config
  /-- Counter for generating unique tokens. -/
  tokenCounter : UInt64 := 1

/-! ## The metadata cache -/

section Cache

variable [Serialize CloudConfig]

/-- The metadata of a bare metal host, as pass 1 and the on-demand path
compute it. -/
def bmhMetadata (identity : IdentityState) (bmh : BmhState) (config : MetadataConfig)
    (ip : IpAddr) (hostname : String) : Option HostMetadata :=
  resolveHost ip hostname (bmh.hostLabels.lookup hostname) identity config

/-- The metadata of a container, as pass 2 and the on-demand path compute it. -/
def containerMetadata (identity : IdentityState) (containers : ContainerState)
    (config : MetadataConfig) (ip : IpAddr) (info : ContainerInfo) : Option HostMetadata :=
  match containers.namespaceOwners.lookup info.«namespace» with
  | some owner => resolveContainer ip info owner identity config
  | none => none

/-- One insertion of a pass, skipped when nothing was resolved. -/
def insertResolved (cache : HashMap IpAddr HostMetadata) (ip : IpAddr) :
    Option HostMetadata → HashMap IpAddr HostMetadata
  | some found => cache.insert ip found
  | none => cache

/-- Pass 1: bare metal hosts. -/
def insertHosts (identity : IdentityState) (bmh : BmhState) (config : MetadataConfig)
    (cache : HashMap IpAddr HostMetadata) : HashMap IpAddr HostMetadata :=
  bmh.ipToHostname.toList.foldl (fun cache entry =>
    insertResolved cache entry.1 (bmhMetadata identity bmh config entry.1 entry.2)) cache

/-- Pass 2: containers. -/
def insertContainers (identity : IdentityState) (containers : ContainerState)
    (config : MetadataConfig) (cache : HashMap IpAddr HostMetadata) :
    HashMap IpAddr HostMetadata :=
  containers.ipToContainer.toList.foldl (fun cache entry =>
    insertResolved cache entry.1
      (containerMetadata identity containers config entry.1 entry.2)) cache

/-- The cache of an uninterrupted rebuild: cleared, then filled in two passes. -/
def rebuiltCache (identity : IdentityState) (bmh : BmhState) (containers : ContainerState)
    (config : MetadataConfig) : HashMap IpAddr HostMetadata :=
  insertContainers identity containers config (insertHosts identity bmh config ∅)

namespace AppState

/-- `rebuild_cache`. -/
def rebuildCache (state : AppState) : AppState :=
  { state with metadataCache :=
      rebuiltCache state.identity state.bmh state.containers state.config.metadata }

/-- `get_metadata`. -/
def getMetadata (state : AppState) (ip : IpAddr) : Option HostMetadata :=
  state.metadataCache.lookup ip

/-- The on-demand path after a cache miss: the host first, then the container. -/
def resolveUncached (state : AppState) (ip : IpAddr) : Option HostMetadata :=
  let host := match state.bmh.ipToHostname.lookup ip with
    | some hostname => bmhMetadata state.identity state.bmh state.config.metadata ip hostname
    | none => none
  match host with
  | some found => some found
  | none =>
    match state.containers.ipToContainer.lookup ip with
    | some info =>
      containerMetadata state.identity state.containers state.config.metadata ip info
    | none => none

/-- `resolve_on_demand`. -/
def resolveOnDemand (state : AppState) (ip : IpAddr) : Option HostMetadata :=
  match state.getMetadata ip with
  | some found => some found
  | none => state.resolveUncached ip

end AppState

end Cache

namespace AppState

/-- `get_bmh`. -/
def getBmh (state : AppState) (hostname : String) : Option BareMetalHost :=
  state.bmh.hosts.lookup hostname

/-- `is_unknown_ip`. -/
def isUnknownIp (state : AppState) (ip : IpAddr) : Bool := !(ip ∈ state.metadataCache)

/-! ## IMDS tokens -/

/-- `generate_imds_token`, with the clock reading of the issue and those of the
pruning that follows, one for each token. -/
def generateImdsToken (state : AppState) (ip : IpAddr) (ttlSecs : UInt32) (now : Nat)
    (prunedAt : String → Nat) : String × AppState :=
  let seq := state.tokenCounter
  let token := "cloudid-" ++ Text.paddedHex 16 now ++ "-" ++ Text.paddedHex 8 seq.toNat
  let issued := state.imdsTokens.insert token { token, ip, ttlSecs, createdAt := now }
  (token, { state with
    tokenCounter := seq + 1
    imdsTokens := HashMap.retain (fun token entry => !entry.isExpired (prunedAt token)) issued })

/-- `validate_imds_token` at a clock reading. -/
def validateImdsToken (state : AppState) (token : String) (now : Nat) : Option IpAddr :=
  ((state.imdsTokens.lookup token).filter fun entry => !entry.isExpired now).map ImdsToken.ip

end AppState

/-! ## Static identity -/

/-- The keys in one key file: its lines without blanks and comments. -/
def keyFileKeys (index : Nat) (contents : String) : List SshPublicKey :=
  (Text.lines contents).zipIdx.filterMap fun entry =>
    let line := Text.trim entry.1
    if line = "" ∨ Text.startsWith line "#" then none
    else some { name := "file-" ++ toString index ++ "-" ++ toString entry.2, key := line }

/-- The keys of a static user, from the key files that can be read. -/
def staticKeys (readFile : String → Option String) (paths : List String) : List SshPublicKey :=
  paths.zipIdx.flatMap fun entry =>
    match readFile entry.1 with
    | some contents => keyFileKeys entry.2 contents
    | none => []

/-- The record of a static user. -/
def staticUser (readFile : String → Option String) (user : StaticUserConfig) : UserResource where
  kind := "User"
  metadata := { name := user.name }
  spec := {
    displayName := user.name
    uid := user.uid
    gid := user.gid
    shell := user.shell
    sshPublicKeys := staticKeys readFile user.sshKeyFiles
    groups := user.groups }
  status := some { enabled := true }

/-- The name of the static rule at an index. -/
def staticRuleName (index : Nat) : String := "static-rule-" ++ toString index

/-- The record of a static rule. -/
def staticRule (index : Nat) (rule : StaticHostAccessConfig) : HostAccessResource where
  kind := "HostAccess"
  metadata := { name := staticRuleName index }
  spec := {
    subjects := rule.users.map fun name => { kind := .user, name }
    targets := { hosts := rule.hosts }
    sshUsers := rule.sshUsers
    «sudo» := rule.«sudo» }

/-- `load_static_identity`, with the content of the key files that can be read. -/
def loadStaticIdentity (readFile : String → Option String) (config : Config) : IdentityState where
  users := config.staticUsers.foldl (fun users user =>
    users.insert user.name (staticUser readFile user)) ∅
  hostAccess := config.staticHostAccess.zipIdx.foldl (fun rules entry =>
    rules.insert (staticRuleName entry.2) (staticRule entry.2 entry.1)) ∅

/-- `AppState::new`: the static identity, and the template state on the volume. -/
def AppState.new [Deserialize AssignmentsFile] [Deserialize OneshotState]
    (readFile : String → Option String) (config : Config) : FileM AppState := do
  let templateStore : TemplateStore := { dataDir := config.templates.dataDir }
  let _ ← attempt templateStore.init
  let assignments ← templateStore.loadAssignments
  let oneshot ← templateStore.loadOneshot
  return {
    identity := loadStaticIdentity readFile config
    templateStore
    assignments
    oneshot
    config }

end CloudId
