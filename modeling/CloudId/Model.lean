import CloudId.Library.HashMap
import CloudId.Library.Json

/-! The records of `model.rs`: identity resources as AMO stores them, bare
metal hosts and leases as mkube and MicroDNS report them, and the metadata
served to a host. -/
namespace CloudId

/-- SSH public key with a name identifier. -/
structure SshPublicKey where
  name : String
  key : String
  deriving DecidableEq

/-- User as stored in AMO. -/
structure UserSpec where
  displayName : String
  email : Option String := none
  org : String := ""
  uid : UInt32
  gid : UInt32 := 0
  shell : String := "/bin/bash"
  sshPublicKeys : List SshPublicKey := []
  groups : List String := []
  deriving DecidableEq

/-- Group as stored in AMO. -/
structure GroupSpec where
  displayName : String := ""
  gid : UInt32 := 0
  members : List String := []
  org : String := ""
  deriving DecidableEq

inductive SubjectKind where
  | user
  | group
  deriving DecidableEq

/-- Subject reference in a HostAccess rule. -/
structure Subject where
  kind : SubjectKind
  name : String
  deriving DecidableEq

/-- HostAccess targets specifying which hosts the rule applies to. -/
structure HostAccessTargets where
  hosts : List String := []
  hostGroups : List String := []
  hostSelectors : List (HashMap String String) := []
  deriving DecidableEq

/-- HostAccess as stored in AMO. -/
structure HostAccessSpec where
  subjects : List Subject
  targets : HostAccessTargets
  sshUsers : List String := []
  «sudo» : Bool := false
  deriving DecidableEq

/-- HostGroup as stored in AMO. -/
structure HostGroupSpec where
  hosts : List String := []
  labels : HashMap String String := ∅
  deriving DecidableEq

structure ResourceMeta where
  name : String
  «namespace» : String := ""
  labels : HashMap String String := ∅
  annotations : HashMap String String := ∅
  deriving DecidableEq

structure ResourceStatus where
  enabled : Bool := true
  deriving DecidableEq

/-- The resource wrapper AMO uses in its buckets. -/
structure Resource (α : Type) where
  kind : String := ""
  metadata : ResourceMeta
  spec : α
  status : Option ResourceStatus := none
  deriving DecidableEq

abbrev UserResource := Resource UserSpec
abbrev GroupResource := Resource GroupSpec
abbrev HostAccessResource := Resource HostAccessSpec
abbrev HostGroupResource := Resource HostGroupSpec

structure BmhMeta where
  name : String
  «namespace» : String := ""
  labels : HashMap String String := ∅
  deriving DecidableEq

structure BmhSpec where
  bootMacAddress : String := ""
  image : String := ""
  ip : String := ""
  hostname : String := ""
  /-- Template assignment from the BMH object, `image_type/name` or just `name`. -/
  template : Option String := none
  /-- Base Ignition v3 config. -/
  ignition : Option Json := none
  /-- Base kickstart config text. -/
  kickstart : Option String := none

structure BmhStatus where
  ip : String := ""
  deriving DecidableEq

structure BareMetalHost where
  metadata : BmhMeta
  spec : BmhSpec
  status : Option BmhStatus := none

structure WatchEvent where
  eventType : String
  object : BareMetalHost

/-- The metadata of a pod or a namespace. -/
structure K8sObjectMeta where
  name : String := ""
  «namespace» : String := ""
  annotations : HashMap String String := ∅
  deriving DecidableEq

structure K8sContainerStatus where
  name : String := ""
  deriving DecidableEq

structure K8sPodStatus where
  podIp : String := ""
  containerStatuses : List K8sContainerStatus := []
  deriving DecidableEq

structure K8sPod where
  metadata : K8sObjectMeta
  status : Option K8sPodStatus := none
  deriving DecidableEq

structure K8sNamespace where
  metadata : K8sObjectMeta
  deriving DecidableEq

structure DhcpLease where
  ip : String
  hostname : String := ""
  deriving DecidableEq

/-- A set of SSH keys for a specific system user. -/
structure PublicKeyEntry where
  sshUser : String
  keys : List String
  deriving DecidableEq

/-- User account entry for cloud-config user-data. -/
structure CloudConfigUser where
  name : String
  uid : String
  groups : List String
  shell : String
  «sudo» : Option String
  sshAuthorizedKeys : List String
  deriving DecidableEq

structure CloudConfig where
  users : List CloudConfigUser
  deriving DecidableEq

/-- Precomputed metadata for a single host, ready to serve. -/
structure HostMetadata where
  instanceId : String
  hostname : String
  localHostname : String
  localIpv4 : String
  availabilityZone : String
  publicKeys : List PublicKeyEntry
  userData : String
  cloudConfig : CloudConfig
  deriving DecidableEq

/-- What `derive(Serialize)` makes of a cloud-config user: its fields in order,
without an empty group list or an absent sudo rule. -/
def CloudConfigUser.serialize (user : CloudConfigUser) : Json :=
  .object ([("name", .string user.name), ("uid", .string user.uid)] ++
    (if user.groups = [] then [] else [("groups", .strings user.groups)]) ++
    [("shell", .string user.shell)] ++
    (user.«sudo».toList.map fun rule => ("sudo", .string rule)) ++
    [("ssh_authorized_keys", .strings user.sshAuthorizedKeys)])

/-- What `derive(Serialize)` makes of a cloud-config document. -/
def CloudConfig.serialize (config : CloudConfig) : Json :=
  .object [("users", .array (config.users.map CloudConfigUser.serialize))]

/-- The text codec of a cloud-config document with the layout of `Json.pretty`. -/
@[reducible] def cloudConfigText : Serialize CloudConfig where
  toStringPretty config := config.serialize.pretty 0

end CloudId
