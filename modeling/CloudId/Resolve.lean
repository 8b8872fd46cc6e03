import Mathlib.Data.Finset.Insert
import Mathlib.Data.List.Sort
import Mathlib.Data.List.Destutter
import Std.Data.TreeMap.Lemmas
import CloudId.Config
import CloudId.State

/-! `resolve.rs`: the metadata of a host from the HostAccess rules that match
it, and the metadata of a container from its namespace owner. The ordered maps
of the source are `Std.TreeMap`s; its loops are folds over the same lists. -/
namespace CloudId

/-- `status` present with `enabled` false. -/
def Resource.isDisabled {α : Type} (resource : Resource α) : Bool :=
  match resource.status with
  | some status => !status.enabled
  | none => false

/-- The keys of a user record, in record order. -/
def Resource.userKeys (user : UserResource) : List String :=
  user.spec.sshPublicKeys.map SshPublicKey.key

/-- The sudo rule of every account that may use sudo. -/
def sudoAll : String := "ALL=(ALL) NOPASSWD:ALL"

/-- The filter of `find_matching_rules`. -/
def ruleMatches (hostname : String) (hostLabels : Option (HashMap String String))
    (identity : IdentityState) (rule : HostAccessResource) : Bool :=
  let targets := rule.spec.targets
  -- Direct hostname match, then host groups, then label selectors.
  if targets.hosts.any fun h => h == hostname || h == "*" then true
  else if targets.hostGroups.any fun hgName =>
      ((identity.hostGroups.lookup hgName).map fun hg =>
        hg.spec.hosts.any fun h => h == hostname).getD false then true
  else
    match hostLabels with
    | some labels => targets.hostSelectors.any fun selector =>
        selector.toList.all fun entry => ((labels.lookup entry.1).map (· == entry.2)).getD false
    | none => false

/-- `find_matching_rules`: the matching rules in the enumeration order of the
rule map. -/
def findMatchingRules (hostname : String) (hostLabels : Option (HashMap String String))
    (identity : IdentityState) : List HostAccessResource :=
  identity.hostAccess.values.filter (ruleMatches hostname hostLabels identity)

/-- Appends a name that was not seen before. -/
def pushUnseen (acc : List String × Finset String) (name : String) :
    List String × Finset String :=
  if name ∈ acc.2 then acc else (acc.1 ++ [name], insert name acc.2)

/-- One turn of the loop of `expand_subjects`. -/
def expandSubject (identity : IdentityState) (acc : List String × Finset String)
    (subject : Subject) : List String × Finset String :=
  match subject.kind with
  | .user => pushUnseen acc subject.name
  | .group =>
    match identity.groups.lookup subject.name with
    | some group => group.spec.members.foldl pushUnseen acc
    | none => acc

/-- `expand_subjects`: users and group members as a list of usernames. -/
def expandSubjects (subjects : List Subject) (identity : IdentityState) : List String :=
  (subjects.foldl (expandSubject identity) ([], ∅)).1

/-- The three accumulators of the rule loop of `resolve_host`. -/
structure Collected where
  keysBySshUser : Std.TreeMap String (List String) := ∅
  cloudConfigUsers : Std.TreeMap String CloudConfigUser := ∅
  seenUsers : Finset String := ∅

/-- `entry(ssh_user).or_default().extend(user_keys)`. -/
def extendKeys (userKeys : List String) (keys : Std.TreeMap String (List String))
    (sshUser : String) : Std.TreeMap String (List String) :=
  keys.insert sshUser (keys.getD sshUser [] ++ userKeys)

/-- The cloud-config entry of a user under a rule. -/
def cloudConfigUser (rule : HostAccessResource) (username : String) (user : UserResource) :
    CloudConfigUser where
  name := username
  uid := toString user.spec.uid.toNat
  groups := user.spec.groups
  shell := user.spec.shell
  «sudo» := if rule.spec.«sudo» then some sudoAll else none
  sshAuthorizedKeys := user.userKeys

/-- One turn of the user loop: the user's keys go to every ssh_user of the
rule, and the first rule that reaches a user fixes its cloud-config entry. -/
def collectUser (identity : IdentityState) (rule : HostAccessResource) (acc : Collected)
    (username : String) : Collected :=
  match identity.users.lookup username with
  | none => acc
  | some user =>
    if user.isDisabled then acc
    else
      let acc := { acc with
        keysBySshUser := rule.spec.sshUsers.foldl (extendKeys user.userKeys) acc.keysBySshUser }
      if username ∈ acc.seenUsers then acc
      else { acc with
        seenUsers := insert username acc.seenUsers
        cloudConfigUsers :=
          acc.cloudConfigUsers.insert username (cloudConfigUser rule username user) }

/-- One turn of the rule loop. -/
def collectRule (identity : IdentityState) (acc : Collected) (rule : HostAccessResource) :
    Collected :=
  (expandSubjects rule.spec.subjects identity).foldl (collectUser identity rule) acc

/-- `sort` followed by `dedup` on a list of keys. -/
def sortDedup (keys : List String) : List String :=
  (keys.insertionSort (· ≤ ·)).destutter (· ≠ ·)

/-- The served form of the collected keys. -/
def publicKeyEntries (keys : Std.TreeMap String (List String)) : List PublicKeyEntry :=
  (keys.map fun _ keys => sortDedup keys).toList.map fun entry =>
    { sshUser := entry.1, keys := entry.2 }

variable [Serialize CloudConfig]

/-- The user-data document of a cloud-config. -/
def renderUserData (cloudConfig : CloudConfig) : String :=
  "#cloud-config\n" ++ Serialize.toStringPretty cloudConfig

/-- `resolve_host`: hostname -> matching HostAccess rules -> users -> keys per
ssh_user and cloud-config. -/
def resolveHost (ip : IpAddr) (hostname : String) (hostLabels : Option (HashMap String String))
    (identity : IdentityState) (config : MetadataConfig) : Option HostMetadata :=
  let matchingRules := findMatchingRules hostname hostLabels identity
  if matchingRules.isEmpty then none
  else
    let collected := matchingRules.foldl (collectRule identity) {}
    -- No enabled users with keys matched.
    if collected.keysBySshUser.isEmpty then none
    else
      let cloudConfig : CloudConfig :=
        { users := collected.cloudConfigUsers.toList.map Prod.snd }
      some {
        instanceId := hostname
        hostname := hostname ++ config.domainSuffix
        localHostname := hostname
        localIpv4 := toString ip
        availabilityZone := config.availabilityZone
        publicKeys := publicKeyEntries collected.keysBySshUser
        userData := renderUserData cloudConfig
        cloudConfig }

/-- `resolve_container`: namespace owner -> keys for the owner, admin and root. -/
def resolveContainer (ip : IpAddr) (info : ContainerInfo) (owner : String)
    (identity : IdentityState) (config : MetadataConfig) : Option HostMetadata :=
  match identity.users.lookup owner with
  | none => none
  | some user =>
    if user.isDisabled then none
    else
      let userKeys := user.userKeys
      if userKeys.isEmpty then none
      else
        -- The owner comes first so that consumers matching on first hit find it.
        let publicKeys : List PublicKeyEntry :=
          (if owner ≠ "root" then [{ sshUser := owner, keys := userKeys }] else []) ++
          (if owner ≠ "admin" ∧ owner ≠ "root" then [{ sshUser := "admin", keys := userKeys }]
            else []) ++
          [{ sshUser := "root", keys := userKeys }]
        let users : List CloudConfigUser :=
          (if owner ≠ "root" then
            [{ name := owner, uid := toString user.spec.uid.toNat, groups := user.spec.groups,
               shell := user.spec.shell, «sudo» := some sudoAll, sshAuthorizedKeys := userKeys }]
            else []) ++
          [{ name := "root", uid := "0", groups := [], shell := "/bin/bash",
             «sudo» := some sudoAll, sshAuthorizedKeys := userKeys }]
        let cloudConfig : CloudConfig := { users }
        some {
          instanceId := info.«namespace» ++ "/" ++ info.podName
          hostname := info.hostname ++ config.domainSuffix
          localHostname := info.hostname
          localIpv4 := toString ip
          availabilityZone := config.availabilityZone
          publicKeys
          userData := renderUserData cloudConfig
          cloudConfig }

end CloudId
