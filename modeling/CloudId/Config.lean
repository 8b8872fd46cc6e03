import CloudId.Model

/-! The parts of `config.rs` the identity, cache and template code reads. -/
namespace CloudId

structure MetadataConfig where
  domainSuffix : String
  availabilityZone : String
  cacheRebuildIntervalSecs : Nat := 30
  dhcpSources : List String := []
  deriving DecidableEq

/-- A user defined directly in the configuration; its keys are read from files. -/
structure StaticUserConfig where
  name : String
  uid : UInt32 := 1000
  gid : UInt32 := 0
  shell : String := "/bin/bash"
  groups : List String := []
  sshKeyFiles : List String := []
  deriving DecidableEq

/-- A host access rule defined directly in the configuration. -/
structure StaticHostAccessConfig where
  sshUsers : List String
  hosts : List String := []
  users : List String := []
  «sudo» : Bool := false
  deriving DecidableEq

/-- A config-based template assignment (lowest priority fallback). -/
structure TemplateAssignmentConfig where
  hosts : List String
  template : String
  deriving DecidableEq

structure TemplatesConfig where
  dataDir : String := "/var/lib/cloudid"
  assignments : List TemplateAssignmentConfig := []
  deriving DecidableEq

structure Config where
  metadata : MetadataConfig
  staticUsers : List StaticUserConfig := []
  staticHostAccess : List StaticHostAccessConfig := []
  templates : TemplatesConfig := {}
  deriving DecidableEq

end CloudId
