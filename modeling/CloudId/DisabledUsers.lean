import CloudId.CacheProofs

/-! Disabled users have no influence. Every use that the resolution makes of a user record goes
through the active users, so two identity states with the same active users, groups and rules
resolve the same. -/
namespace CloudId

/-- The user is absent from a state, or disabled there. -/
def Inactive (identity : IdentityState) (username : String) : Prop :=
  ∀ user, identity.users.lookup username = some user →
    ∃ status, user.status = some status ∧ status.enabled = false

/-- Two states that differ only in the records of users who are inactive in both. -/
structure DifferInInactive (first second : IdentityState) : Prop where
  users : ∀ username, first.users.lookup username = second.users.lookup username ∨
    Inactive first username ∧ Inactive second username
  groups : first.groups = second.groups
  hostAccess : first.hostAccess = second.hostAccess
  hostGroups : first.hostGroups = second.hostGroups

theorem active_user_of_inactive {identity : IdentityState} {username : String}
    (inactive : Inactive identity username) : activeUser? identity username = none := by
  refine Option.eq_none_iff_forall_ne_some.mpr fun user found => ?_
  obtain ⟨held, enabled⟩ := (active_user_iff identity username user).mp found
  obtain ⟨status, has_status, disabled⟩ := inactive user held
  rw [enabled status has_status] at disabled
  cases disabled

section Resolution

variable [Serialize CloudConfig] {first second : IdentityState}

omit [Serialize CloudConfig] in
theorem DifferInInactive.same_active (differ : DifferInInactive first second) :
    activeUser? first = activeUser? second := by
  funext username
  rcases differ.users username with same | ⟨inactive, inactive'⟩
  · rw [activeUser?, activeUser?, same]
  · rw [active_user_of_inactive inactive, active_user_of_inactive inactive']

omit [Serialize CloudConfig] in
/-- The loops over the rules collect the same. -/
theorem DifferInInactive.same_collected (differ : DifferInInactive first second)
    (hostname : String) (hostLabels : Option (HashMap String String)) :
    collectedFor first hostname hostLabels = collectedFor second hostname hostLabels := by
  have matching : findMatchingRules hostname hostLabels first =
      findMatchingRules hostname hostLabels second := by
    have each : ruleMatches hostname hostLabels first = ruleMatches hostname hostLabels second := by
      funext rule
      simp only [ruleMatches, differ.hostGroups]
    rw [findMatchingRules, findMatchingRules, differ.hostAccess, each]
  have expanded : ∀ subjects, expandSubjects subjects first = expandSubjects subjects second := by
    intro subjects
    have each : expandSubject first = expandSubject second := by
      funext acc subject
      rw [expandSubject, expandSubject, differ.groups]
    rw [expandSubjects, expandSubjects, each]
  have visited : ∀ rules, visits first rules = visits second rules := by
    intro rules
    rw [visits, visits]
    refine congrArg (rules.flatMap ·) (funext fun rule => ?_)
    rw [expanded, differ.same_active]
  rw [collectedFor, collectedFor, matching, collect_rules_eq, collect_rules_eq, visited]

theorem DifferInInactive.same_host (differ : DifferInInactive first second) (ip : IpAddr)
    (hostname : String) (hostLabels : Option (HashMap String String)) (config : MetadataConfig) :
    resolveHost ip hostname hostLabels first config =
      resolveHost ip hostname hostLabels second config := by
  rw [resolve_host_eq, resolve_host_eq, differ.same_collected]

theorem DifferInInactive.same_container (differ : DifferInInactive first second) (ip : IpAddr)
    (info : ContainerInfo) (owner : String) (config : MetadataConfig) :
    resolveContainer ip info owner first config = resolveContainer ip info owner second config := by
  rw [resolve_container_eq, resolve_container_eq, differ.same_active]

theorem DifferInInactive.same_cache (differ : DifferInInactive first second) (bmh : BmhState)
    (containers : ContainerState) (config : MetadataConfig) :
    rebuiltCache first bmh containers config = rebuiltCache second bmh containers config := by
  have hosts : bmhMetadata first bmh config = bmhMetadata second bmh config := by
    funext ip hostname
    exact differ.same_host ip hostname _ config
  have pods : containerMetadata first containers config =
      containerMetadata second containers config := by
    funext ip info
    rw [containerMetadata, containerMetadata]
    split
    · exact differ.same_container ip info _ config
    · rfl
  rw [rebuiltCache, rebuiltCache, insertContainers, insertContainers, insertHosts, insertHosts,
    hosts, pods]

/-- **Disabled users cannot influence any host.** -/
theorem disabled_users_have_no_influence (differ : DifferInInactive first second) :
    (∀ ip hostname hostLabels config, resolveHost ip hostname hostLabels first config =
      resolveHost ip hostname hostLabels second config) ∧
    (∀ ip info owner config, resolveContainer ip info owner first config =
      resolveContainer ip info owner second config) ∧
    ∀ state : AppState, ({ state with identity := first } : AppState).rebuildCache.metadataCache =
      ({ state with identity := second } : AppState).rebuildCache.metadataCache :=
  ⟨differ.same_host, differ.same_container,
    fun state => differ.same_cache state.bmh state.containers state.config.metadata⟩

end Resolution

/-- A rule for every host names a user who has these records. -/
def ruledUser (users : HashMap String UserResource) : IdentityState where
  users
  hostAccess := (∅ : HashMap String HostAccessResource).insert "operators"
    (everyHostRule "operators" "alice" "root" true)

/-- A user who was disabled. -/
def disabledUser : UserResource :=
  { plainUser "alice" "ssh-ed25519 AAAA" with status := some { enabled := false } }

section Sample

attribute [local instance] cloudConfigText

theorem disabled_user_as_absent :
    resolveHost (.v4 10 0 0 5) "web1" none
        (ruledUser ((∅ : HashMap String UserResource).insert "alice" disabledUser)) localConfig =
      resolveHost (.v4 10 0 0 5) "web1" none (ruledUser ∅) localConfig := by
  have differ : DifferInInactive
      (ruledUser ((∅ : HashMap String UserResource).insert "alice" disabledUser)) (ruledUser ∅) := by
    have held : ∀ username, (ruledUser ((∅ : HashMap String UserResource).insert "alice"
        disabledUser)).users.lookup username = if username = "alice" then some disabledUser else none :=
      fun username => HashMap.lookup_insert_eq ∅ "alice" username disabledUser
    refine ⟨fun username => ?_, rfl, rfl, rfl⟩
    rw [held]
    split
    · refine .inr ⟨fun user there => ?_, fun user there => ?_⟩
      · rw [held, if_pos ‹_›] at there
        cases there
        exact ⟨_, rfl, rfl⟩
      · have absent : (none : Option UserResource) = some user := there
        cases absent
    · exact .inl rfl
  exact (disabled_users_have_no_influence differ).1 _ _ _ _

end Sample

end CloudId
