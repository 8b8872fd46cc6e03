import CloudId.Resolve

/-! What the HostAccess rules grant, stated without the loops that compute it:
which rules apply to a host, which users a rule names, which user records
count, and which pair of account and key follows. -/
namespace CloudId

/-- A rule applies to a host by its name or the wildcard, through a host group
that exists and lists it, or through a selector its labels satisfy. -/
def MatchesHost (identity : IdentityState) (hostname : String)
    (hostLabels : Option (HashMap String String)) (rule : HostAccessResource) : Prop :=
  (hostname ∈ rule.spec.targets.hosts ∨ "*" ∈ rule.spec.targets.hosts) ∨
  (∃ name ∈ rule.spec.targets.hostGroups, ∃ group,
    identity.hostGroups.lookup name = some group ∧ hostname ∈ group.spec.hosts) ∨
  (∃ labels, hostLabels = some labels ∧ ∃ selector ∈ rule.spec.targets.hostSelectors,
    ∀ key value, selector.lookup key = some value → labels.lookup key = some value)

/-- A rule names a user directly, or as a member of a group that exists. -/
def Names (identity : IdentityState) (rule : HostAccessResource) (username : String) : Prop :=
  (∃ subject ∈ rule.spec.subjects, subject.kind = .user ∧ subject.name = username) ∨
  (∃ subject ∈ rule.spec.subjects, subject.kind = .group ∧ ∃ group,
    identity.groups.lookup subject.name = some group ∧ username ∈ group.spec.members)

/-- A user record that exists and is not disabled. -/
def ActiveUser (identity : IdentityState) (username : String) (user : UserResource) : Prop :=
  identity.users.lookup username = some user ∧
    ∀ status, user.status = some status → status.enabled = true

/-- Some rule of the state that applies to the host names this active user. -/
structure Reaches (identity : IdentityState) (hostname : String)
    (hostLabels : Option (HashMap String String)) (rule : HostAccessResource) (username : String)
    (user : UserResource) : Prop where
  stored : ∃ name, identity.hostAccess.lookup name = some rule
  applies : MatchesHost identity hostname hostLabels rule
  named : Names identity rule username
  active : ActiveUser identity username user

/-- The rules grant an account to the holder of a key. -/
def Grants (identity : IdentityState) (hostname : String)
    (hostLabels : Option (HashMap String String)) (sshUser key : String) : Prop :=
  ∃ rule username user, Reaches identity hostname hostLabels rule username user ∧
    sshUser ∈ rule.spec.sshUsers ∧ key ∈ user.userKeys

/-- The rules grant some account on the host to some active user. -/
def GrantsAny (identity : IdentityState) (hostname : String)
    (hostLabels : Option (HashMap String String)) : Prop :=
  ∃ rule username user, Reaches identity hostname hostLabels rule username user ∧
    rule.spec.sshUsers ≠ []

/-- Rules that apply to the host and name a common active user agree on sudo. -/
def SudoAgrees (identity : IdentityState) (hostname : String)
    (hostLabels : Option (HashMap String String)) : Prop :=
  ∀ first second username user, Reaches identity hostname hostLabels first username user →
    Reaches identity hostname hostLabels second username user →
    first.spec.«sudo» = second.spec.«sudo»

end CloudId
