import CloudId.Model
import CloudId.Templates

/-! The Ignition half of `provision.rs`: the users that a host's metadata asks
for, the default config made of them, and merging them into a base config. -/
namespace CloudId
open Json

/-! ## Ignition v3.4.0 -/

structure IgnitionMeta where
  version : String
  deriving DecidableEq

structure IgnitionUser where
  name : String
  uid : Option UInt32 := none
  groups : Option (List String) := none
  shell : Option String := none
  homeDir : Option String := none
  sshAuthorizedKeys : Option (List String) := none
  passwordHash : Option String := none
  deriving DecidableEq

structure IgnitionPasswd where
  users : List IgnitionUser := []
  deriving DecidableEq

structure IgnitionFileContents where
  source : String
  deriving DecidableEq

structure IgnitionFile where
  path : String
  mode : Option UInt32 := none
  overwrite : Option Bool := none
  contents : IgnitionFileContents
  deriving DecidableEq

structure IgnitionStorage where
  files : List IgnitionFile := []
  deriving DecidableEq

structure IgnitionUnit where
  name : String
  enabled : Option Bool := none
  contents : Option String := none
  deriving DecidableEq

structure IgnitionSystemd where
  units : List IgnitionUnit := []
  deriving DecidableEq

structure IgnitionConfig where
  ignition : IgnitionMeta
  passwd : Option IgnitionPasswd := none
  storage : Option IgnitionStorage := none
  systemd : Option IgnitionSystemd := none
  deriving DecidableEq

/-- A field that is left out when it is absent. -/
def optionalField (name : String) (value : Option Json) : List (String × Json) :=
  value.toList.map fun value => (name, value)

/-- A list field that is left out when it is empty. -/
def listField (name : String) (items : List Json) : List (String × Json) :=
  if items.isEmpty then [] else [(name, .array items)]

def unsigned (n : UInt32) : Json := .number (.int n.toNat)

/-- The fields that `derive(Serialize)` writes for a user, in order. -/
def IgnitionUser.fields (user : IgnitionUser) : List (String × Json) :=
  [("name", .string user.name)] ++
    optionalField "uid" (user.uid.map unsigned) ++
    optionalField "groups" (user.groups.map strings) ++
    optionalField "shell" (user.shell.map string) ++
    optionalField "homeDir" (user.homeDir.map string) ++
    optionalField "sshAuthorizedKeys" (user.sshAuthorizedKeys.map strings) ++
    optionalField "passwordHash" (user.passwordHash.map string)

/-- `serde_json::to_value` of a user. -/
def IgnitionUser.toValue (user : IgnitionUser) : Json := ofEntries user.fields

def IgnitionFile.serialize (file : IgnitionFile) : Json :=
  .object ([("path", .string file.path)] ++
    optionalField "mode" (file.mode.map unsigned) ++
    optionalField "overwrite" (file.overwrite.map bool) ++
    [("contents", .object [("source", .string file.contents.source)])])

def IgnitionUnit.serialize (unit : IgnitionUnit) : Json :=
  .object ([("name", .string unit.name)] ++
    optionalField "enabled" (unit.enabled.map bool) ++
    optionalField "contents" (unit.contents.map string))

/-- What `derive(Serialize)` makes of a config, its fields in order. -/
def IgnitionConfig.serialize (config : IgnitionConfig) : Json :=
  .object ([("ignition", .object [("version", .string config.ignition.version)])] ++
    optionalField "passwd" (config.passwd.map fun passwd =>
      .object (listField "users" (passwd.users.map fun user => .object user.fields))) ++
    optionalField "storage" (config.storage.map fun storage =>
      .object (listField "files" (storage.files.map IgnitionFile.serialize))) ++
    optionalField "systemd" (config.systemd.map fun systemd =>
      .object (listField "units" (systemd.units.map IgnitionUnit.serialize))))

/-- The text codec of a config with the layout of `Json.pretty`. -/
@[reducible] def ignitionText : Serialize IgnitionConfig where
  toStringPretty config := config.serialize.pretty 0

/-! ## Users -/

/-- The entry of a system user: just its keys. -/
def systemUser (entry : PublicKeyEntry) : IgnitionUser where
  name := entry.sshUser
  sshAuthorizedKeys := some entry.keys

/-- The entry of an identity user that is no system user, in the wheel group if
it may use sudo. -/
def identityUser (user : CloudConfigUser) : IgnitionUser :=
  let groups :=
    if user.«sudo».isSome ∧ "wheel" ∉ user.groups then user.groups ++ ["wheel"] else user.groups
  { name := user.name
    uid := (Text.parseUnsigned UInt32.size user.uid).map UInt32.ofNat
    groups := if groups = [] then none else some groups
    shell := some user.shell
    sshAuthorizedKeys := some user.sshAuthorizedKeys
    passwordHash := some "" }

/-- Adds the keys that are not there yet, one after the other. -/
def addKeys (keys added : List String) : List String :=
  added.foldl (fun keys key => if key ∈ keys then keys else keys ++ [key]) keys

/-- Adds the keys and settings of an identity user to the entry of the same name. -/
def mergeIdentityUser (user : CloudConfigUser) (existing : IgnitionUser) : IgnitionUser :=
  { existing with
    sshAuthorizedKeys := existing.sshAuthorizedKeys.map fun keys =>
      addKeys keys user.sshAuthorizedKeys
    uid := (Text.parseUnsigned UInt32.size user.uid).map UInt32.ofNat
    groups := if user.groups = [] then existing.groups else some user.groups
    shell := some user.shell }

/-- One turn of the loop over the identity users, with the names seen so far. -/
def addIdentityUser (built : List IgnitionUser × List String) (user : CloudConfigUser) :
    List IgnitionUser × List String :=
  let (users, seen) := built
  if user.name ∈ seen then
    (users.modify (users.findIdx fun existing => existing.name = user.name)
      (mergeIdentityUser user), seen)
  else (users ++ [identityUser user], user.name :: seen)

/-- `build_ignition_users`. -/
def buildIgnitionUsers (metadata : HostMetadata) : List IgnitionUser :=
  (metadata.cloudConfig.users.foldl addIdentityUser
    (metadata.publicKeys.map systemUser, metadata.publicKeys.map PublicKeyEntry.sshUser)).1

/-! ## Generating -/

/-- `url_encode`. -/
def urlEncode (s : String) : String := String.ofList (s.toList.flatMap urlEncodeChar)

/-- The text as a data URI. -/
def dataUri (text : String) : String := "data:," ++ urlEncode text

/-- The config that `generate_ignition` prints. -/
def generatedConfig (metadata : HostMetadata) : IgnitionConfig where
  ignition := { version := "3.4.0" }
  passwd := some { users := buildIgnitionUsers metadata }
  storage := some { files := [{
    path := "/etc/hostname"
    mode := some 420
    overwrite := some true
    contents := { source := dataUri metadata.hostname } }] }

/-- `generate_ignition`. -/
def generateIgnition [Serialize IgnitionConfig] (metadata : HostMetadata) : String :=
  Serialize.toStringPretty (generatedConfig metadata)

/-! ## Merging -/

/-- The text member of a JSON object. -/
def textMember (value : Json) (key : String) : Option String := (value.get? key).bind asStr

/-- `merge_ssh_keys`. -/
def mergeSshKeys (existing : Json) (newUser : IgnitionUser) : Except Panic Json :=
  match newUser.sshAuthorizedKeys with
  | some newKeys =>
    changeEntry "sshAuthorizedKeys" (.array []) (fun
      | .array keys =>
        let known := keys.filterMap asStr
        .ok (.array (keys ++ (newKeys.filter fun key => key ∉ known).map string))
      | other => .ok other) existing
  | none => .ok existing

/-- One turn of the loop over the identity users, with the names that the base
has: a user of the base gets the keys, a new one is added. -/
def mergeUser (existingUsers : List String) (users : List Json) (user : IgnitionUser) :
    Except Panic (List Json) :=
  if user.name ∈ existingUsers then
    users.mapM fun existing =>
      if textMember existing "name" = some user.name then mergeSshKeys existing user
      else .ok existing
  else .ok (users ++ [user.toValue])

/-- Merges the users into the users of the base; a value that is no array stays. -/
def mergeUsers (identityUsers : List IgnitionUser) : Json → Except Panic Json
  | .array users =>
    (identityUsers.foldlM (mergeUser (users.filterMap (textMember · "name"))) users).map array
  | other => .ok other

/-- The file entry for the hostname. -/
def hostnameFile (fqdn : String) : Json :=
  ofEntries [("path", .string "/etc/hostname"), ("mode", unsigned 420), ("overwrite", .bool true),
    ("contents", ofEntries [("source", .string (dataUri fqdn))])]

/-- `ensure_hostname_file`. -/
def ensureHostnameFile (config : Json) (fqdn : String) : Except Panic Json :=
  changeEntry "storage" (.object []) (changeEntry "files" (.array []) fun
    | .array files =>
      if files.any fun file => textMember file "path" = some "/etc/hostname" then
        .ok (.array files)
      else .ok (.array (files ++ [hostnameFile fqdn]))
    | other => .ok other) config

/-- Turns the inline text of a file's contents into a data URI. -/
def normalizeContents : Json → Json
  | .object members =>
    match members.lookup "inline" with
    | some inline =>
      let members := removeMember "inline" members
      match inline.asStr with
      | some text => .object (insertMember "source" (.string (dataUri text)) members)
      | none => .object members
    | none => .object members
  | other => other

/-- `normalize_file_contents`. -/
def normalizeFileContents (config : Json) : Json :=
  mapMember "storage" (mapMember "files" fun
    | .array files => .array (files.map (mapMember "contents" normalizeContents))
    | other => other) config

/-- The base with an `ignition` member. -/
def ensureVersion (base : Json) : Except Panic Json :=
  if (base.get? "ignition").isNone then
    setIndex "ignition" (ofEntries [("version", .string "3.4.0")]) base
  else .ok base

/-- The config that `merge_ignition` prints. -/
def mergedConfig (base : Json) (metadata : HostMetadata) : Except Panic Json := do
  let config ← ensureVersion base
  let config ← changeEntry "passwd" (.object [])
    (changeEntry "users" (.array []) (mergeUsers (buildIgnitionUsers metadata))) config
  let config ← ensureHostnameFile config metadata.hostname
  return normalizeFileContents config

/-- `merge_ignition`. -/
def mergeIgnition [Serialize Json] (base : Json) (metadata : HostMetadata) : Except Panic String :=
  (mergedConfig base metadata).map Serialize.toStringPretty

/-- `build_ignition`. -/
def buildIgnition [Serialize Json] [Serialize IgnitionConfig] (metadata : HostMetadata)
    (bmh : Option BareMetalHost) : Except Panic String :=
  match bmh.bind (·.spec.ignition) with
  | some base => mergeIgnition base metadata
  | none => .ok (generateIgnition metadata)

end CloudId
