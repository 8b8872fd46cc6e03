import CloudId.Library.IpAddr
import CloudId.Model

/-! The shared state of `cache.rs` that the watchers fill in: identity data
from AMO, bare metal hosts and containers from mkube. -/
namespace CloudId

/-- Identity data from AMO (users, groups, host access, host groups). -/
structure IdentityState where
  users : HashMap String UserResource := ∅
  groups : HashMap String GroupResource := ∅
  hostAccess : HashMap String HostAccessResource := ∅
  hostGroups : HashMap String HostGroupResource := ∅

/-- Container identity info for a single container IP. -/
structure ContainerInfo where
  «namespace» : String
  podName : String
  containerName : String
  hostname : String
  deriving DecidableEq

/-- Container state from mkube (pod IPs + namespace owners). -/
structure ContainerState where
  ipToContainer : HashMap IpAddr ContainerInfo := ∅
  namespaceOwners : HashMap String String := ∅

/-- BMH state from mkube (IP -> hostname mappings, BMH labels, full BMH data). -/
structure BmhState where
  ipToHostname : HashMap IpAddr String := ∅
  hostLabels : HashMap String (HashMap String String) := ∅
  hostNamespace : HashMap String String := ∅
  hosts : HashMap String BareMetalHost := ∅

end CloudId
