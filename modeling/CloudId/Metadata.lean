import CloudId.Cache
import CloudId.Handlers

/-! `metadata/handlers.rs`: the endpoints of the metadata tree. They answer from the
metadata cache, and for MAC addresses from the records of the bare metal hosts. -/
namespace CloudId

/-- `lookup_or_404`. -/
def lookupOr404 (state : AppState) (ip : IpAddr) : Except StatusCode HostMetadata :=
  match state.getMetadata ip with
  | some found => .ok found
  | none => .error .notFound

/-- The lines of the index, from a position on. -/
def indexLines : Nat → List PublicKeyEntry → String
  | _, [] => ""
  | position, entry :: rest =>
    toString position ++ "=" ++ entry.sshUser ++ "\n" ++ indexLines (position + 1) rest

/-- `public_keys_index`. -/
def publicKeysIndex (state : AppState) (ip : IpAddr) : Except StatusCode String :=
  match lookupOr404 state ip with
  | .ok found => .ok (indexLines 0 found.publicKeys)
  | .error code => .error code

/-- The keys of an entry as they are served. -/
def PublicKeyEntry.served (entry : PublicKeyEntry) : String := Text.join "\n" entry.keys

/-- `public_key`. -/
def publicKey (state : AppState) (ip : IpAddr) (index : Nat) : Except StatusCode String :=
  match lookupOr404 state ip with
  | .error code => .error code
  | .ok found =>
    match found.publicKeys[index]? with
    | some entry => .ok entry.served
    | none => .error .notFound

/-- What is served for an entry is what the metadata holds at its position. -/
theorem public_key_ok_iff {state : AppState} {ip : IpAddr} {index : Nat} {keys : String} :
    publicKey state ip index = .ok keys ↔
      ∃ found entry, state.getMetadata ip = some found ∧ found.publicKeys[index]? = some entry ∧
        entry.served = keys := by
  rw [publicKey, lookupOr404]
  cases state.getMetadata ip with
  | none => simp
  | some found =>
    cases there : found.publicKeys[index]? with
    | none => simp [there]
    | some entry => simp [there]

/-! ## The other pages

Directory listings and the values of a host. A page without a lookup is the same for
everyone. -/

namespace Pages

def root : String := "latest\n"

def latest : String := "dynamic\nmeta-data\nuser-data\n"

def dynamicIndex : String := "instance-identity/\n"

def instanceIdentityIndex : String := "document\n"

def placementIndex : String := "availability-zone\nregion\n"

def servicesIndex : String := "domain\npartition\n"

def servicesDomain : String := "amazonaws.com"

def servicesPartition : String := "aws"

def networkIndex : String := "interfaces/\n"

def networkInterfacesIndex : String := "macs/\n"

def amiId : String := "ami-00000000"

def instanceType : String := "baremetal"

def networkMacDeviceNumber : String := "0"

def health : String := "ok"

/-- `meta_data_index`: the network is listed for a known host only. -/
def metaDataIndex (state : AppState) (ip : IpAddr) : String :=
  "ami-id\ninstance-id\ninstance-type\nhostname\nlocal-hostname\nlocal-ipv4\nmac\n" ++
    "placement/\npublic-keys/\nservices/\n" ++
    if (state.getMetadata ip).isSome then "network/\n" else ""

/-- A page that shows something of the cached metadata. -/
def shown (show_ : HostMetadata → String) (state : AppState) (ip : IpAddr) :
    Except StatusCode String :=
  match lookupOr404 state ip with
  | .ok found => .ok (show_ found)
  | .error code => .error code

/-- `instance_identity_document`. -/
def instanceIdentityDocument [Serialize Json] : AppState → IpAddr → Except StatusCode String :=
  shown fun found => Serialize.toStringPretty (Json.ofEntries [
    ("accountId", .string "000000000000"),
    ("architecture", .string "x86_64"),
    ("availabilityZone", .string found.availabilityZone),
    ("imageId", .string "ami-00000000"),
    ("instanceId", .string found.instanceId),
    ("instanceType", .string "baremetal"),
    ("privateIp", .string found.localIpv4),
    ("region", .string found.availabilityZone),
    ("version", .string "2017-09-30")])

def instanceId : AppState → IpAddr → Except StatusCode String := shown HostMetadata.instanceId

def hostname : AppState → IpAddr → Except StatusCode String := shown HostMetadata.hostname

def localHostname : AppState → IpAddr → Except StatusCode String :=
  shown HostMetadata.localHostname

def localIpv4 : AppState → IpAddr → Except StatusCode String := shown HostMetadata.localIpv4

def availabilityZone : AppState → IpAddr → Except StatusCode String :=
  shown HostMetadata.availabilityZone

def region : AppState → IpAddr → Except StatusCode String := shown HostMetadata.availabilityZone

/-- The MAC address of a host: that of its record, or one made of its address. -/
def macAddress (state : AppState) (found : HostMetadata) : String :=
  (((state.getBmh found.localHostname).map fun bmh => bmh.spec.bootMacAddress).filter
    (· ≠ "")).getD ("02:00:" ++ Text.replace found.localIpv4 "." ":")

def mac (state : AppState) : IpAddr → Except StatusCode String := shown (macAddress state) state

def networkInterfacesMacs (state : AppState) : IpAddr → Except StatusCode String :=
  shown (fun found => macAddress state found ++ "/\n") state

/-- `network_mac_detail`, whatever the MAC address in the path. -/
def networkMacDetail : AppState → IpAddr → Except StatusCode String :=
  shown fun _ => "device-number\nlocal-ipv4s\nsubnet-ipv4-cidr-block\n"

def networkMacLocalIpv4s : AppState → IpAddr → Except StatusCode String :=
  shown HostMetadata.localIpv4

/-- The /24 network of an address text with four parts; any other text as it is. -/
def subnetOf (ip : String) : String :=
  match Text.pieces '.' ip with
  | [a, b, c, _] => a ++ "." ++ b ++ "." ++ c ++ ".0/24"
  | _ => ip

def networkMacSubnet : AppState → IpAddr → Except StatusCode String :=
  shown fun found => subnetOf found.localIpv4

end Pages

/-- `debug_state`. -/
def debugState (state : AppState) : Json :=
  let containerIps := state.containers.ipToContainer.toList.map fun entry => Json.ofEntries [
    ("ip", .string (toString entry.1)),
    ("namespace", .string entry.2.«namespace»),
    ("pod", .string entry.2.podName),
    ("container", .string entry.2.containerName),
    ("hostname", .string entry.2.hostname)]
  let nsOwners := state.containers.namespaceOwners.toList.map fun entry =>
    (entry.1, Json.string entry.2)
  let bmhIps := state.bmh.ipToHostname.toList.map fun entry => Json.ofEntries [
    ("ip", .string (toString entry.1)), ("hostname", .string entry.2)]
  let cacheEntries := state.metadataCache.toList.map fun entry => Json.ofEntries [
    ("ip", .string (toString entry.1)),
    ("instance_id", .string entry.2.instanceId),
    ("hostname", .string entry.2.hostname),
    ("public_keys", .array (entry.2.publicKeys.map fun pk => Json.ofEntries [
      ("ssh_user", .string pk.sshUser), ("key_count", .number (.int pk.keys.length))]))]
  Json.ofEntries [
    ("container_ips", .array containerIps),
    ("container_ip_count", .number (.int containerIps.length)),
    ("namespace_owners", Json.ofEntries nsOwners),
    ("bmh_ips", .array bmhIps),
    ("bmh_ip_count", .number (.int bmhIps.length)),
    ("identity_users", .strings state.identity.users.keys),
    ("identity_host_access_rules", .strings state.identity.hostAccess.keys),
    ("cache_entries", .array cacheEntries),
    ("cache_entry_count", .number (.int cacheEntries.length))]

/-! ## Session tokens -/

/-- The cap of a token's lifetime: six hours. -/
def maxTokenTtl : UInt32 := 21600

/-- The lifetime that the header of a token request asks for, capped. -/
def tokenTtl (header : Option String) : UInt32 :=
  min (((header.bind (Text.parseUnsigned (2 ^ 32))).map UInt32.ofNat).getD maxTokenTtl) maxTokenTtl

/-- `api_token`; the readings of the clock for the pruning are one reading here. -/
def apiToken (ip : IpAddr) (header : Option String) : Handler String := do
  let now ← Handler.clock
  let later ← Handler.clock
  let state ← Handler.app
  let (token, state) := state.generateImdsToken ip (tokenTtl header) now fun _ => later
  Handler.modifyApp fun _ => state
  return token

end CloudId
