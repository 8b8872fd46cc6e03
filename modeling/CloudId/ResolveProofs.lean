import CloudId.Access
import CloudId.Library.SortedMap

/-! `resolve_host` computes what the HostAccess rules grant. The nested loops
are one pass over the visits they make, a visit being a rule together with an
active user it names; each accumulator is then described by the visits made,
and every visit of the pass is a `Reaches` of the access layer. -/
namespace CloudId

/-! ## The filter and the expansion -/

private theorem selector_holds (selector labels : HashMap String String) :
    (selector.toList.all fun entry =>
      ((labels.lookup entry.1).map (· == entry.2)).getD false) = true ↔
      ∀ key value, selector.lookup key = some value → labels.lookup key = some value := by
  simp only [List.all_eq_true, HashMap.lookup_eq_some, Prod.forall]
  refine forall_congr' fun key => forall_congr' fun value => imp_congr_right fun _ => ?_
  rw [← HashMap.lookup_eq_some]
  cases found : labels.lookup key <;> simp

/-- The filter of `find_matching_rules` decides whether a rule applies. -/
theorem rule_matches_iff (identity : IdentityState) (hostname : String)
    (hostLabels : Option (HashMap String String)) (rule : HostAccessResource) :
    ruleMatches hostname hostLabels identity rule = true ↔
      MatchesHost identity hostname hostLabels rule := by
  have direct : (rule.spec.targets.hosts.any fun h => h == hostname || h == "*") = true ↔
      hostname ∈ rule.spec.targets.hosts ∨ "*" ∈ rule.spec.targets.hosts := by
    simp [List.any_eq_true, and_or_left, exists_or]
  have grouped : (rule.spec.targets.hostGroups.any fun hgName =>
      ((identity.hostGroups.lookup hgName).map fun hg =>
        hg.spec.hosts.any fun h => h == hostname).getD false) = true ↔
      ∃ name ∈ rule.spec.targets.hostGroups, ∃ group,
        identity.hostGroups.lookup name = some group ∧ hostname ∈ group.spec.hosts := by
    rw [List.any_eq_true]
    refine exists_congr fun name => and_congr_right fun _ => ?_
    cases found : identity.hostGroups.lookup name <;> simp
  have labelled : (hostLabels.any fun labels => rule.spec.targets.hostSelectors.any fun selector =>
      selector.toList.all fun entry =>
        ((labels.lookup entry.1).map (· == entry.2)).getD false) = true ↔
      ∃ labels, hostLabels = some labels ∧ ∃ selector ∈ rule.spec.targets.hostSelectors,
        ∀ key value, selector.lookup key = some value → labels.lookup key = some value := by
    cases hostLabels with
    | none => simp
    | some labels => simp only [Option.any_some, List.any_eq_true, selector_holds,
        Option.some.injEq, exists_eq_left']
  have unfolded : ruleMatches hostname hostLabels identity rule =
      if rule.spec.targets.hosts.any fun h => h == hostname || h == "*" then true
      else if rule.spec.targets.hostGroups.any fun hgName =>
        ((identity.hostGroups.lookup hgName).map fun hg =>
          hg.spec.hosts.any fun h => h == hostname).getD false then true
      else hostLabels.any fun labels => rule.spec.targets.hostSelectors.any fun selector =>
        selector.toList.all fun entry =>
          ((labels.lookup entry.1).map (· == entry.2)).getD false := by
    cases hostLabels <;> rfl
  rw [MatchesHost, ← direct, ← grouped, ← labelled, unfolded]
  split
  · rename_i hit
    exact iff_of_true rfl (Or.inl hit)
  · rename_i missedHosts
    split
    · rename_i hit
      exact iff_of_true rfl (Or.inr (Or.inl hit))
    · rename_i missedGroups
      exact ⟨fun hit => Or.inr (Or.inr hit),
        fun hit => (hit.resolve_left missedHosts).resolve_left missedGroups⟩

theorem mem_find_matching_rules (identity : IdentityState) (hostname : String)
    (hostLabels : Option (HashMap String String)) (rule : HostAccessResource) :
    rule ∈ findMatchingRules hostname hostLabels identity ↔
      (∃ name, identity.hostAccess.lookup name = some rule) ∧
        MatchesHost identity hostname hostLabels rule := by
  rw [findMatchingRules, List.mem_filter, HashMap.mem_values, rule_matches_iff]

/-- The expansion keeps its list and its seen-set in step. -/
private def InStep (acc : List String × Finset String) : Prop := ∀ name, name ∈ acc.2 ↔ name ∈ acc.1

private theorem push_unseen_in_step (inStep : InStep acc) (name : String) :
    InStep (pushUnseen acc name) ∧
      ∀ probe, probe ∈ (pushUnseen acc name).1 ↔ probe ∈ acc.1 ∨ probe = name := by
  unfold pushUnseen
  split
  · rename_i seen
    refine ⟨inStep, fun probe => ⟨Or.inl, ?_⟩⟩
    rintro (held | rfl)
    · exact held
    · exact (inStep probe).mp seen
  · refine ⟨fun probe => ?_, fun probe => by simp⟩
    simp only [Finset.mem_insert, List.mem_append, List.mem_singleton, inStep probe]
    exact or_comm

private theorem push_members_in_step (members : List String) (inStep : InStep acc) :
    InStep (members.foldl pushUnseen acc) ∧
      ∀ probe, probe ∈ (members.foldl pushUnseen acc).1 ↔ probe ∈ acc.1 ∨ probe ∈ members := by
  induction members generalizing acc with
  | nil => simpa using inStep
  | cons name rest ih =>
    obtain ⟨pushed, shown⟩ := push_unseen_in_step inStep name
    obtain ⟨final, members⟩ := ih pushed
    refine ⟨final, fun probe => ?_⟩
    rw [List.foldl_cons, members, shown, List.mem_cons, or_assoc]

/-- The users one subject stands for. -/
def SubjectNames (identity : IdentityState) (subject : Subject) (username : String) : Prop :=
  (subject.kind = .user ∧ subject.name = username) ∨
  (subject.kind = .group ∧ ∃ group, identity.groups.lookup subject.name = some group ∧
    username ∈ group.spec.members)

private theorem expand_subject_in_step (identity : IdentityState) (subject : Subject)
    (inStep : InStep acc) :
    InStep (expandSubject identity acc subject) ∧
      ∀ probe, probe ∈ (expandSubject identity acc subject).1 ↔
        probe ∈ acc.1 ∨ SubjectNames identity subject probe := by
  unfold expandSubject SubjectNames
  cases subject.kind with
  | user =>
    obtain ⟨pushed, shown⟩ := push_unseen_in_step inStep subject.name
    refine ⟨pushed, fun probe => ?_⟩
    simp [shown, eq_comm]
  | group =>
    cases found : identity.groups.lookup subject.name with
    | none => exact ⟨inStep, fun probe => by simp⟩
    | some group =>
      obtain ⟨pushed, shown⟩ := push_members_in_step group.spec.members inStep
      refine ⟨pushed, fun probe => ?_⟩
      simp [shown]

private theorem expand_all_in_step (identity : IdentityState) (subjects : List Subject)
    (inStep : InStep acc) :
    ∀ probe, probe ∈ (subjects.foldl (expandSubject identity) acc).1 ↔
      probe ∈ acc.1 ∨ ∃ subject ∈ subjects, SubjectNames identity subject probe := by
  induction subjects generalizing acc with
  | nil => simp
  | cons subject rest ih =>
    obtain ⟨pushed, shown⟩ := expand_subject_in_step identity subject inStep
    intro probe
    rw [List.foldl_cons, ih pushed, shown]
    simp [or_assoc]

/-- `expand_subjects` lists exactly the users the rule names. -/
theorem mem_expand_subjects (identity : IdentityState) (rule : HostAccessResource)
    (username : String) :
    username ∈ expandSubjects rule.spec.subjects identity ↔ Names identity rule username := by
  rw [expandSubjects, expand_all_in_step identity rule.spec.subjects (by simp [InStep])]
  simp only [List.not_mem_nil, false_or, SubjectNames, Names, and_or_left, exists_or]

/-! ## One pass over the visits -/

/-- A rule together with an active user it names. -/
structure Visit where
  rule : HostAccessResource
  username : String
  user : UserResource

/-- The record of a user that exists and is not disabled. -/
def activeUser? (identity : IdentityState) (username : String) : Option UserResource :=
  (identity.users.lookup username).filter fun user => !user.isDisabled

/-- The visits of the nested loops over some rules, in the order they happen. -/
def visits (identity : IdentityState) (rules : List HostAccessResource) : List Visit :=
  rules.flatMap fun rule =>
    (expandSubjects rule.spec.subjects identity).filterMap fun username =>
      (activeUser? identity username).map fun user => ⟨rule, username, user⟩

/-- The cloud-config entry a visit would make. -/
def Visit.entry (visit : Visit) : CloudConfigUser :=
  cloudConfigUser visit.rule visit.username visit.user

/-- What one visit does to the accumulators. -/
def Collected.visit (acc : Collected) (visit : Visit) : Collected where
  keysBySshUser := visit.rule.spec.sshUsers.foldl (extendKeys visit.user.userKeys) acc.keysBySshUser
  cloudConfigUsers := if visit.username ∈ acc.seenUsers then acc.cloudConfigUsers
    else acc.cloudConfigUsers.insert visit.username visit.entry
  seenUsers := insert visit.username acc.seenUsers

theorem active_user_iff (identity : IdentityState) (username : String) (user : UserResource) :
    activeUser? identity username = some user ↔ ActiveUser identity username user := by
  rw [activeUser?, Option.filter_eq_some_iff, ActiveUser, Resource.isDisabled]
  refine and_congr_right fun _ => ?_
  cases user.status <;> simp

theorem active_user_unique (first : ActiveUser identity username user)
    (second : ActiveUser identity username user') : user = user' :=
  Option.some.inj (first.1.symm.trans second.1)

private theorem collect_active (rule : HostAccessResource) (acc : Collected)
    (found : activeUser? identity username = some user) :
    collectUser identity rule acc username = acc.visit ⟨rule, username, user⟩ := by
  obtain ⟨held, enabled⟩ := Option.filter_eq_some_iff.mp found
  have enabled : user.isDisabled = false := by simpa using enabled
  by_cases seen : username ∈ acc.seenUsers <;>
    simp [collectUser, held, enabled, seen, Collected.visit, Visit.entry]

private theorem collect_inactive (rule : HostAccessResource) (acc : Collected)
    (missing : activeUser? identity username = none) :
    collectUser identity rule acc username = acc := by
  unfold collectUser
  split
  · rfl
  · rename_i user held
    rw [activeUser?, held, Option.filter_eq_none_iff] at missing
    have disabled : user.isDisabled = true := by simpa using missing user rfl
    rw [if_pos disabled]

/-- The nested loops are one pass over their visits. -/
theorem collect_rules_eq (identity : IdentityState) (rules : List HostAccessResource)
    (acc : Collected) :
    rules.foldl (collectRule identity) acc = (visits identity rules).foldl Collected.visit acc := by
  induction rules generalizing acc with
  | nil => rfl
  | cons rule rest ih =>
    rw [List.foldl_cons, ih, visits, visits, List.flatMap_cons, List.foldl_append]
    congr 1
    rw [collectRule, List.foldl_filterMap]
    congr 1
    funext acc username
    cases found : activeUser? identity username with
    | none => exact collect_inactive rule acc found
    | some user => exact collect_active rule acc found

theorem mem_visits (identity : IdentityState) (rules : List HostAccessResource) (visit : Visit) :
    visit ∈ visits identity rules ↔
      visit.rule ∈ rules ∧ Names identity visit.rule visit.username ∧
        ActiveUser identity visit.username visit.user := by
  simp only [visits, List.mem_flatMap, List.mem_filterMap, Option.map_eq_some_iff,
    active_user_iff, mem_expand_subjects]
  constructor
  · rintro ⟨rule, stored, username, named, user, active, rfl⟩
    exact ⟨stored, named, active⟩
  · rintro ⟨stored, named, active⟩
    exact ⟨visit.rule, stored, visit.username, named, visit.user, active, rfl⟩

/-- The visits of a resolution are the reaches of the access layer. -/
theorem mem_visits_iff_reaches (identity : IdentityState) (hostname : String)
    (hostLabels : Option (HashMap String String)) (visit : Visit) :
    visit ∈ visits identity (findMatchingRules hostname hostLabels identity) ↔
      Reaches identity hostname hostLabels visit.rule visit.username visit.user := by
  rw [mem_visits, mem_find_matching_rules]
  constructor
  · rintro ⟨⟨stored, applies⟩, named, active⟩
    exact ⟨stored, applies, named, active⟩
  · rintro ⟨stored, applies, named, active⟩
    exact ⟨⟨stored, applies⟩, named, active⟩

/-! ## What the accumulators hold -/

private theorem extend_all (userKeys sshUsers : List String)
    (keys : Std.TreeMap String (List String)) (account : String) :
    (∀ key, key ∈ (sshUsers.foldl (extendKeys userKeys) keys).getD account [] ↔
      key ∈ keys.getD account [] ∨ (account ∈ sshUsers ∧ key ∈ userKeys)) ∧
    (account ∈ sshUsers.foldl (extendKeys userKeys) keys ↔
      account ∈ keys ∨ account ∈ sshUsers) := by
  induction sshUsers generalizing keys with
  | nil => simp
  | cons sshUser rest ih =>
    obtain ⟨held, listed⟩ := ih (extendKeys userKeys keys sshUser)
    constructor
    · intro key
      rw [List.foldl_cons, held, extendKeys, Std.TreeMap.getD_insert, List.mem_cons]
      by_cases same : sshUser = account
      · subst same
        simp
        tauto
      · simp [same, Ne.symm same]
    · rw [List.foldl_cons, listed, extendKeys, Std.TreeMap.mem_insert, List.mem_cons,
        Std.LawfulEqCmp.compare_eq_iff_eq]
      tauto

/-- The accumulators after some visits, each one described by the visits alone.
A user's entry is the one its first visit made. -/
structure Describes (acc : Collected) (made : List Visit) : Prop where
  keys : ∀ account key, key ∈ acc.keysBySshUser.getD account [] ↔
    ∃ visit ∈ made, account ∈ visit.rule.spec.sshUsers ∧ key ∈ visit.user.userKeys
  accounts : ∀ account, account ∈ acc.keysBySshUser ↔
    ∃ visit ∈ made, account ∈ visit.rule.spec.sshUsers
  users : ∀ name : String, acc.cloudConfigUsers[name]? =
    (made.find? fun visit => visit.username = name).map Visit.entry
  seen : ∀ name, name ∈ acc.seenUsers ↔ ∃ visit ∈ made, visit.username = name

private theorem describes_visit (described : Describes acc made) (visit : Visit) :
    Describes (acc.visit visit) (made ++ [visit]) where
  keys account key := by
    rw [Collected.visit, (extend_all _ _ _ account).1 key, described.keys]
    simp [or_and_right, exists_or]
  accounts account := by
    rw [Collected.visit, (extend_all _ _ _ account).2, described.accounts]
    simp [or_and_right, exists_or]
  users name := by
    have listed := described.seen visit.username
    simp only [Collected.visit, List.find?_append]
    by_cases same : visit.username = name
    · subst same
      split
      · rename_i seen
        obtain ⟨earlier, member, named⟩ := listed.mp seen
        have found : (made.find? fun v => v.username = visit.username).isSome := by
          rw [List.find?_isSome]
          exact ⟨earlier, member, by simpa using named⟩
        rw [described.users, Option.or_of_isSome found]
      · rename_i unseen
        have missing : (made.find? fun v => v.username = visit.username) = none := by
          rw [List.find?_eq_none]
          intro earlier member named
          exact unseen (listed.mpr ⟨earlier, member, by simpa using named⟩)
        simp [missing]
    · split <;> simp [described.users, same, Std.TreeMap.getElem?_insert]
  seen name := by
    simp only [Collected.visit, Finset.mem_insert, described.seen, List.mem_append,
      List.mem_singleton, or_and_right, exists_or, exists_eq_left]
    rw [or_comm, eq_comm]

private theorem describes_all (visited : List Visit) (described : Describes acc made) :
    Describes (visited.foldl Collected.visit acc) (made ++ visited) := by
  induction visited generalizing acc made with
  | nil => simpa using described
  | cons visit rest ih => simpa using ih (describes_visit described visit)

/-- The accumulators at the end of the loops, described by the visits. -/
theorem collected_describes (identity : IdentityState) (rules : List HostAccessResource) :
    Describes (rules.foldl (collectRule identity) {}) (visits identity rules) := by
  rw [collect_rules_eq]
  have start : Describes {} [] := ⟨by simp, by simp, by simp, by simp⟩
  simpa using describes_all (visits identity rules) start

/-! ## The result -/

/-- The entries served for collected keys, one for each account in ascending
order, with the collected keys of the account sorted and distinct. -/
theorem mem_public_key_entries (keys : Std.TreeMap String (List String)) (entry : PublicKeyEntry) :
    entry ∈ publicKeyEntries keys ↔
      entry.sshUser ∈ keys ∧ entry.keys = sortDedup (keys.getD entry.sshUser []) := by
  simp only [publicKeyEntries, List.mem_map, Prod.exists,
    Std.TreeMap.mem_toList_iff_getElem?_eq_some, Std.TreeMap.getElem?_map, Option.map_eq_some_iff]
  constructor
  · rintro ⟨account, _, ⟨collected, held, rfl⟩, rfl⟩
    refine ⟨?_, ?_⟩
    · exact Std.TreeMap.mem_iff_isSome_getElem?.mpr (by simp [held])
    · simp [Std.TreeMap.getD_eq_getD_getElem?, held]
  · rintro ⟨listed, shown⟩
    obtain ⟨collected, held⟩ := Option.isSome_iff_exists.mp
      (Std.TreeMap.mem_iff_isSome_getElem?.mp listed)
    refine ⟨entry.sshUser, _, ⟨collected, held, rfl⟩, ?_⟩
    rw [Std.TreeMap.getD_eq_getD_getElem?, held] at shown
    cases entry
    simp_all

theorem public_key_accounts_sorted (keys : Std.TreeMap String (List String)) :
    ((publicKeyEntries keys).map PublicKeyEntry.sshUser).SortedLT := by
  have sorted := SortedMap.keys_sorted (keys.map fun _ keys => sortDedup keys)
  rwa [publicKeyEntries, List.map_map]

theorem public_keys_sorted (keys : Std.TreeMap String (List String))
    (member : entry ∈ publicKeyEntries keys) : entry.keys.SortedLT := by
  rw [((mem_public_key_entries keys entry).mp member).2]
  exact SortedMap.sort_destutter_sorted _

/-- The accumulators at the end of the loops of `resolve_host`. -/
def collectedFor (identity : IdentityState) (hostname : String)
    (hostLabels : Option (HashMap String String)) : Collected :=
  (findMatchingRules hostname hostLabels identity).foldl (collectRule identity) {}

/-- The users of the cloud-config document. -/
def Collected.configUsers (collected : Collected) : List CloudConfigUser :=
  collected.cloudConfigUsers.toList.map Prod.snd

/-- The accounts the visits grant are the accounts of the access layer. -/
theorem account_collected_iff (identity : IdentityState) (hostname : String)
    (hostLabels : Option (HashMap String String)) (account : String) :
    account ∈ (collectedFor identity hostname hostLabels).keysBySshUser ↔
      ∃ rule username user, Reaches identity hostname hostLabels rule username user ∧
        account ∈ rule.spec.sshUsers := by
  rw [collectedFor, (collected_describes identity _).accounts]
  constructor
  · rintro ⟨visit, made, granted⟩
    exact ⟨_, _, _, (mem_visits_iff_reaches ..).mp made, granted⟩
  · rintro ⟨rule, username, user, reaches, granted⟩
    exact ⟨⟨rule, username, user⟩, (mem_visits_iff_reaches ..).mpr reaches, granted⟩

/-- The keys collected for an account are the ones granted to it. -/
theorem key_collected_iff (identity : IdentityState) (hostname : String)
    (hostLabels : Option (HashMap String String)) (account key : String) :
    key ∈ (collectedFor identity hostname hostLabels).keysBySshUser.getD account [] ↔
      Grants identity hostname hostLabels account key := by
  rw [collectedFor, (collected_describes identity _).keys]
  constructor
  · rintro ⟨visit, made, granted, held⟩
    exact ⟨_, _, _, (mem_visits_iff_reaches ..).mp made, granted, held⟩
  · rintro ⟨rule, username, user, reaches, granted, held⟩
    exact ⟨⟨rule, username, user⟩, (mem_visits_iff_reaches ..).mpr reaches, granted, held⟩

theorem nothing_collected_iff (identity : IdentityState) (hostname : String)
    (hostLabels : Option (HashMap String String)) :
    (collectedFor identity hostname hostLabels).keysBySshUser.isEmpty = true ↔
      ¬ GrantsAny identity hostname hostLabels := by
  rw [Std.TreeMap.isEmpty_iff_forall_not_mem]
  simp only [account_collected_iff, GrantsAny]
  constructor
  · rintro none ⟨rule, username, user, reaches, granted⟩
    obtain ⟨account, listed⟩ := List.exists_mem_of_ne_nil _ granted
    exact none account ⟨rule, username, user, reaches, listed⟩
  · rintro none account ⟨rule, username, user, reaches, listed⟩
    exact none ⟨rule, username, user, reaches, List.ne_nil_of_mem listed⟩

section

variable [Serialize CloudConfig]

/-- The metadata made of the collected keys and users. -/
def hostMetadata (ip : IpAddr) (hostname : String) (config : MetadataConfig)
    (publicKeys : List PublicKeyEntry) (cloudConfig : CloudConfig) : HostMetadata where
  instanceId := hostname
  hostname := hostname ++ config.domainSuffix
  localHostname := hostname
  localIpv4 := toString ip
  availabilityZone := config.availabilityZone
  publicKeys := publicKeys
  userData := renderUserData cloudConfig
  cloudConfig := cloudConfig

/-- `resolve_host` succeeds exactly when the loops collected an account, and
what it returns depends on nothing but the accumulators. -/
theorem resolve_host_eq (ip : IpAddr) (hostname : String)
    (hostLabels : Option (HashMap String String)) (identity : IdentityState)
    (config : MetadataConfig) :
    resolveHost ip hostname hostLabels identity config =
      if (collectedFor identity hostname hostLabels).keysBySshUser.isEmpty then none
      else some (hostMetadata ip hostname config
        (publicKeyEntries (collectedFor identity hostname hostLabels).keysBySshUser)
        ⟨(collectedFor identity hostname hostLabels).configUsers⟩) := by
  unfold resolveHost collectedFor
  cases findMatchingRules hostname hostLabels identity with
  | nil => rfl
  | cons rule rest => rfl

theorem resolve_host_none_iff (ip : IpAddr) (hostname : String)
    (hostLabels : Option (HashMap String String)) (identity : IdentityState)
    (config : MetadataConfig) :
    resolveHost ip hostname hostLabels identity config = none ↔
      ¬ GrantsAny identity hostname hostLabels := by
  rw [resolve_host_eq, ← nothing_collected_iff]
  split <;> simp_all

theorem resolve_host_some
    (resolved : resolveHost ip hostname hostLabels identity config = some metadata) :
    metadata.publicKeys =
        publicKeyEntries (collectedFor identity hostname hostLabels).keysBySshUser ∧
      metadata.cloudConfig.users = (collectedFor identity hostname hostLabels).configUsers := by
  rw [resolve_host_eq] at resolved
  split at resolved
  · cases resolved
  · cases resolved
    exact ⟨rfl, rfl⟩

end

/-! ## The cloud-config users -/

theorem mem_config_users (described : Describes collected made) (entry : CloudConfigUser) :
    entry ∈ collected.configUsers ↔
      ∃ visit, (made.find? fun v => v.username = entry.name) = some visit ∧ entry = visit.entry := by
  simp only [Collected.configUsers, List.mem_map, Prod.exists,
    Std.TreeMap.mem_toList_iff_getElem?_eq_some, described.users, Option.map_eq_some_iff,
    exists_eq_right]
  constructor
  · rintro ⟨name, visit, found, rfl⟩
    have named : visit.username = name := by simpa using List.find?_some found
    subst named
    exact ⟨visit, found, rfl⟩
  · rintro ⟨visit, found, same⟩
    exact ⟨entry.name, visit, found, same.symm⟩

theorem config_user_names_sorted (described : Describes collected made) :
    (collected.configUsers.map CloudConfigUser.name).SortedLT := by
  have names : collected.configUsers.map CloudConfigUser.name =
      collected.cloudConfigUsers.toList.map Prod.fst := by
    rw [Collected.configUsers, List.map_map]
    apply List.map_congr_left
    rintro ⟨name, entry⟩ listed
    rw [Std.TreeMap.mem_toList_iff_getElem?_eq_some, described.users,
      Option.map_eq_some_iff] at listed
    obtain ⟨visit, found, rfl⟩ := listed
    have named : visit.username = name := by simpa using List.find?_some found
    exact named
  rw [names]
  exact SortedMap.keys_sorted _

/-- The visit that fixed a user's entry, as a reach of the access layer. -/
theorem config_user_reached (identity : IdentityState) (hostname : String)
    (hostLabels : Option (HashMap String String))
    (listed : entry ∈ (collectedFor identity hostname hostLabels).configUsers) :
    ∃ rule user, Reaches identity hostname hostLabels rule entry.name user ∧
      entry = cloudConfigUser rule entry.name user := by
  obtain ⟨visit, found, same⟩ := (mem_config_users (collected_describes identity _) entry).mp listed
  have reaches := (mem_visits_iff_reaches ..).mp (List.mem_of_find?_eq_some found)
  have named : visit.username = entry.name := by simpa using List.find?_some found
  rw [Visit.entry, named] at same
  rw [named] at reaches
  exact ⟨_, _, reaches, same⟩

/-- Every user that is reached has an entry. -/
theorem reached_config_user (reaches : Reaches identity hostname hostLabels rule name user) :
    ∃ entry ∈ (collectedFor identity hostname hostLabels).configUsers, entry.name = name := by
  have made := (mem_visits_iff_reaches identity hostname hostLabels ⟨rule, name, user⟩).mpr reaches
  obtain ⟨visit, found⟩ := Option.isSome_iff_exists.mp (List.find?_isSome
    (p := fun v : Visit => decide (v.username = name)).mpr ⟨_, made, by simp⟩)
  have named : visit.username = name := by simpa using List.find?_some found
  refine ⟨visit.entry, (mem_config_users (collected_describes identity _) _).mpr ?_, named⟩
  refine ⟨visit, ?_, rfl⟩
  rw [show visit.entry.name = name from named]
  exact found

/-- **A host is granted exactly what the rules grant.**  A pair of account and
key is served if and only if some rule that applies to the host lists the
account and names an active user holding the key. Accounts, the keys of each
account and the cloud-config users are strictly ascending, and the
cloud-config users are the active users named by the rules that apply, each
with the data of its record. -/
theorem resolve_host_grants_exactly_the_rules [Serialize CloudConfig] (ip : IpAddr)
    (hostname : String) (hostLabels : Option (HashMap String String)) (identity : IdentityState)
    (config : MetadataConfig) :
    (∀ sshUser key, Grants identity hostname hostLabels sshUser key ↔
      ∃ metadata, resolveHost ip hostname hostLabels identity config = some metadata ∧
        ∃ entry ∈ metadata.publicKeys, entry.sshUser = sshUser ∧ key ∈ entry.keys) ∧
    (∀ metadata, resolveHost ip hostname hostLabels identity config = some metadata →
      (metadata.publicKeys.map PublicKeyEntry.sshUser).SortedLT ∧
      (∀ entry ∈ metadata.publicKeys, entry.keys.SortedLT) ∧
      (metadata.cloudConfig.users.map CloudConfigUser.name).SortedLT ∧
      (∀ name, (∃ entry ∈ metadata.cloudConfig.users, entry.name = name) ↔
        ∃ rule user, Reaches identity hostname hostLabels rule name user) ∧
      (∀ entry ∈ metadata.cloudConfig.users, ∃ user, ActiveUser identity entry.name user ∧
        entry.uid = toString user.spec.uid.toNat ∧ entry.groups = user.spec.groups ∧
        entry.shell = user.spec.shell ∧ entry.sshAuthorizedKeys = user.userKeys)) := by
  constructor
  · intro sshUser key
    constructor
    · intro granted
      obtain ⟨rule, username, user, reaches, listed, held⟩ := granted
      have some : resolveHost ip hostname hostLabels identity config ≠ none := by
        rw [Ne, resolve_host_none_iff, not_not]
        exact ⟨rule, username, user, reaches, List.ne_nil_of_mem listed⟩
      obtain ⟨metadata, resolved⟩ := Option.ne_none_iff_exists'.mp some
      let collected := collectedFor identity hostname hostLabels
      refine ⟨metadata, resolved,
        ⟨sshUser, sortDedup (collected.keysBySshUser.getD sshUser [])⟩, ?_, rfl, ?_⟩
      · rw [(resolve_host_some resolved).1, mem_public_key_entries]
        exact ⟨(account_collected_iff ..).mpr ⟨rule, username, user, reaches, listed⟩, rfl⟩
      · refine (SortedMap.mem_sort_destutter _ _).mpr ((key_collected_iff ..).mpr ?_)
        exact ⟨rule, username, user, reaches, listed, held⟩
    · rintro ⟨metadata, resolved, entry, listed, rfl, held⟩
      rw [(resolve_host_some resolved).1, mem_public_key_entries] at listed
      rwa [listed.2, sortDedup, SortedMap.mem_sort_destutter, key_collected_iff] at held
  · intro metadata resolved
    obtain ⟨keys, users⟩ := resolve_host_some resolved
    rw [keys, users]
    refine ⟨public_key_accounts_sorted _, fun entry => public_keys_sorted _,
      config_user_names_sorted (collected_describes identity _), fun name => ?_, ?_⟩
    · constructor
      · rintro ⟨entry, listed, rfl⟩
        obtain ⟨rule, user, reaches, _⟩ := config_user_reached identity hostname hostLabels listed
        exact ⟨rule, user, reaches⟩
      · rintro ⟨rule, user, reaches⟩
        exact reached_config_user reaches
    · intro entry listed
      obtain ⟨rule, user, reaches, same⟩ := config_user_reached identity hostname hostLabels listed
      refine ⟨user, reaches.active, ?_⟩
      rw [same]
      exact ⟨rfl, rfl, rfl, rfl⟩

/-! ## Enumeration order

The rule map is enumerated in an arbitrary order. Keys are sorted afterwards,
but the entry of a user keeps the sudo rule of whichever rule came first. -/

private theorem reaches_reordered (order : HashMap String HostAccessResource)
    (perm : order.entries.Perm identity.hostAccess.entries) :
    Reaches { identity with hostAccess := order } hostname hostLabels rule username user ↔
      Reaches identity hostname hostLabels rule username user := by
  have same := HashMap.same_of_perm perm
  constructor
  · rintro ⟨⟨name, stored⟩, applies, named, active⟩
    exact ⟨⟨name, (same name).symm.trans stored⟩, applies, named, active⟩
  · rintro ⟨⟨name, stored⟩, applies, named, active⟩
    exact ⟨⟨name, (same name).trans stored⟩, applies, named, active⟩

private theorem grants_any_reordered {order : HashMap String HostAccessResource}
    (perm : order.entries.Perm identity.hostAccess.entries) :
    GrantsAny { identity with hostAccess := order } hostname hostLabels ↔
      GrantsAny identity hostname hostLabels := by
  simp only [GrantsAny, reaches_reordered order perm]

private theorem collected_under_any_order {order : HashMap String HostAccessResource}
    (some : GrantsAny identity hostname hostLabels)
    (perm : order.entries.Perm identity.hostAccess.entries) :
    ¬ (collectedFor { identity with hostAccess := order } hostname
      hostLabels).keysBySshUser.isEmpty = true := by
  rw [nothing_collected_iff, not_not, grants_any_reordered perm]
  exact some

private theorem public_key_entries_eq {first second : Std.TreeMap String (List String)}
    (accounts : ∀ account, account ∈ first ↔ account ∈ second)
    (keys : ∀ account key, key ∈ first.getD account [] ↔ key ∈ second.getD account []) :
    publicKeyEntries first = publicKeyEntries second := by
  have entries : (first.map fun _ keys => sortDedup keys).toList =
      (second.map fun _ keys => sortDedup keys).toList := by
    apply SortedMap.toList_eq_of_lookup
    intro account
    rw [Std.TreeMap.getElem?_map, Std.TreeMap.getElem?_map]
    have listed := accounts account
    have held := keys account
    rw [Std.TreeMap.mem_iff_isSome_getElem?, Std.TreeMap.mem_iff_isSome_getElem?] at listed
    simp only [Std.TreeMap.getD_eq_getD_getElem?] at held
    cases left : first[account]? <;> cases right : second[account]? <;> simp_all
    exact SortedMap.sort_destutter_eq held
  rw [publicKeyEntries, entries, publicKeyEntries]

/-- The keys never depend on the enumeration, whatever the rules say on sudo. -/
private theorem public_keys_reordered {identity : IdentityState}
    {first second : HashMap String HostAccessResource}
    (firstPerm : first.entries.Perm identity.hostAccess.entries)
    (secondPerm : second.entries.Perm identity.hostAccess.entries) :
    publicKeyEntries (collectedFor { identity with hostAccess := first } hostname
        hostLabels).keysBySshUser =
      publicKeyEntries (collectedFor { identity with hostAccess := second } hostname
        hostLabels).keysBySshUser := by
  apply public_key_entries_eq
  · intro account
    simp only [account_collected_iff, reaches_reordered first firstPerm,
      reaches_reordered second secondPerm]
  · intro account key
    simp only [key_collected_iff, Grants, reaches_reordered first firstPerm,
      reaches_reordered second secondPerm]

/-- Two reaches of one user make the same entry when their rules agree on sudo. -/
private theorem entry_agrees (agrees : SudoAgrees identity hostname hostLabels)
    (first : Reaches identity hostname hostLabels rule username user)
    (second : Reaches identity hostname hostLabels rule' username user') :
    cloudConfigUser rule username user = cloudConfigUser rule' username user' := by
  obtain rfl := active_user_unique first.active second.active
  rw [cloudConfigUser, cloudConfigUser, agrees rule rule' username user first second]

private theorem config_users_eq (agrees : SudoAgrees identity hostname hostLabels)
    {first second : HashMap String HostAccessResource}
    (firstPerm : first.entries.Perm identity.hostAccess.entries)
    (secondPerm : second.entries.Perm identity.hostAccess.entries) :
    (collectedFor { identity with hostAccess := first } hostname hostLabels).configUsers =
      (collectedFor { identity with hostAccess := second } hostname hostLabels).configUsers := by
  rw [Collected.configUsers, Collected.configUsers]
  congr 1
  apply SortedMap.toList_eq_of_lookup
  intro name
  -- The first visit of a user may differ, the entry it makes does not.
  have inner {first second : HashMap String HostAccessResource}
      (firstPerm : first.entries.Perm identity.hostAccess.entries)
      (secondPerm : second.entries.Perm identity.hostAccess.entries) (entry : CloudConfigUser)
      (held : (collectedFor { identity with hostAccess := first } hostname
        hostLabels).cloudConfigUsers[name]? = some entry) :
      (collectedFor { identity with hostAccess := second } hostname
        hostLabels).cloudConfigUsers[name]? = some entry := by
    rw [collectedFor, (collected_describes _ _).users, Option.map_eq_some_iff] at held ⊢
    obtain ⟨visit, found, rfl⟩ := held
    have named : visit.username = name := by simpa using List.find?_some found
    have reaches := (reaches_reordered first firstPerm).mp
      ((mem_visits_iff_reaches ..).mp (List.mem_of_find?_eq_some found))
    have made := (mem_visits_iff_reaches ..).mpr ((reaches_reordered second secondPerm).mpr reaches)
    obtain ⟨other, otherFound⟩ := Option.isSome_iff_exists.mp (List.find?_isSome
      (p := fun v : Visit => decide (v.username = name)).mpr ⟨_, made, by simpa using named⟩)
    have otherNamed : other.username = name := by simpa using List.find?_some otherFound
    have otherReaches := (reaches_reordered second secondPerm).mp
      ((mem_visits_iff_reaches ..).mp (List.mem_of_find?_eq_some otherFound))
    refine ⟨other, otherFound, ?_⟩
    rw [Visit.entry, Visit.entry, named, otherNamed]
    rw [named] at reaches
    rw [otherNamed] at otherReaches
    exact entry_agrees agrees otherReaches reaches
  apply Option.ext
  intro entry
  exact ⟨inner firstPerm secondPerm entry, inner secondPerm firstPerm entry⟩

theorem visits_cons (identity : IdentityState) (rule : HostAccessResource)
    (rest : List HostAccessResource) :
    visits identity (rule :: rest) = visits identity [rule] ++ visits identity rest := by
  simp [visits]

/-- Any stored rule comes first in some enumeration. -/
private theorem enumerated_first (m : HashMap String HostAccessResource)
    (stored : m.lookup name = some rule) :
    ∃ order : HashMap String HostAccessResource, order.entries.Perm m.entries ∧
      ∃ rest, order.values = rule :: rest := by
  have member : (⟨name, rule⟩ : Sigma fun _ : String => HostAccessResource) ∈ m.entries :=
    AList.mem_lookup_iff.mp stored
  obtain ⟨before, after, split⟩ := List.append_of_mem member
  have perm : (⟨name, rule⟩ :: (before ++ after)).Perm m.entries := by
    rw [split]
    exact List.perm_middle.symm
  refine ⟨⟨⟨name, rule⟩ :: (before ++ after), ?_⟩, perm, ⟨_, rfl⟩⟩
  exact (List.perm_nodupKeys perm).mpr m.nodupKeys

theorem entry_sudo (rule : HostAccessResource) (username : String) (user : UserResource) :
    (cloudConfigUser rule username user).«sudo».isSome = true ↔ rule.spec.«sudo» = true := by
  simp only [cloudConfigUser]
  split <;> simp_all

/-- When the rules agree, the sudo rule of an entry is the one of every rule
that reaches its user. -/
private theorem config_user_sudo_iff (agrees : SudoAgrees identity hostname hostLabels)
    {order : HashMap String HostAccessResource}
    (perm : order.entries.Perm identity.hostAccess.entries)
    (listed : entry ∈ (collectedFor { identity with hostAccess := order } hostname
      hostLabels).configUsers) :
    entry.«sudo».isSome = true ↔
      ∃ rule user, Reaches identity hostname hostLabels rule entry.name user ∧
        rule.spec.«sudo» = true := by
  obtain ⟨rule, user, reordered, same⟩ := config_user_reached _ hostname hostLabels listed
  have reaches := (reaches_reordered order perm).mp reordered
  have fixed : entry.«sudo».isSome = true ↔ rule.spec.«sudo» = true := by
    rw [same]
    exact entry_sudo rule _ user
  rw [fixed]
  constructor
  · intro granted
    exact ⟨rule, user, reaches, granted⟩
  · rintro ⟨other, user', otherReaches, granted⟩
    obtain rfl := active_user_unique otherReaches.active reaches.active
    rw [agrees rule other entry.name user' reaches otherReaches]
    exact granted

/-- In an enumeration that starts with a rule reaching a user, the user's
entry has the sudo rule of that rule. -/
private theorem first_rule_fixes_sudo
    (reaches : Reaches identity hostname hostLabels rule username user) :
    ∃ order : HashMap String HostAccessResource,
      order.entries.Perm identity.hostAccess.entries ∧
      ∃ entry ∈ (collectedFor { identity with hostAccess := order } hostname
          hostLabels).configUsers,
        entry.name = username ∧ (entry.«sudo».isSome = true ↔ rule.spec.«sudo» = true) := by
  obtain ⟨name, stored⟩ := reaches.stored
  obtain ⟨order, perm, rest, starts⟩ := enumerated_first identity.hostAccess stored
  refine ⟨order, perm, ?_⟩
  let reordered : IdentityState := { identity with hostAccess := order }
  have applies : ruleMatches hostname hostLabels reordered rule = true :=
    (rule_matches_iff ..).mpr reaches.applies
  have rules : findMatchingRules hostname hostLabels reordered =
      rule :: rest.filter (ruleMatches hostname hostLabels reordered) := by
    rw [findMatchingRules, starts, List.filter_cons_of_pos applies]
  have made : (⟨rule, username, user⟩ : Visit) ∈ visits reordered [rule] :=
    (mem_visits ..).mpr ⟨by simp, reaches.named, reaches.active⟩
  obtain ⟨visit, found⟩ := Option.isSome_iff_exists.mp (List.find?_isSome
    (p := fun v : Visit => decide (v.username = username)).mpr ⟨_, made, by simp⟩)
  have named : visit.username = username := by simpa using List.find?_some found
  have fromRule : visit.rule = rule := by
    simpa using ((mem_visits ..).mp (List.mem_of_find?_eq_some found)).1
  refine ⟨visit.entry, ?_, named, ?_⟩
  · refine (mem_config_users (collected_describes reordered _) _).mpr ⟨visit, ?_, rfl⟩
    rw [rules, visits_cons, List.find?_append, show visit.entry.name = username from named, found]
    rfl
  · rw [Visit.entry, fromRule]
    exact entry_sudo rule visit.username visit.user

/-- What order independence asks for: any two enumerations of the rule map give
the same result, in which a user may use sudo exactly when some rule that
applies and names the user says so. -/
def OrderIndependent [Serialize CloudConfig] (ip : IpAddr) (hostname : String)
    (hostLabels : Option (HashMap String String)) (identity : IdentityState)
    (config : MetadataConfig) : Prop :=
  ∀ first second : HashMap String HostAccessResource,
    first.entries.Perm identity.hostAccess.entries →
    second.entries.Perm identity.hostAccess.entries →
    resolveHost ip hostname hostLabels { identity with hostAccess := first } config =
      resolveHost ip hostname hostLabels { identity with hostAccess := second } config ∧
    ∀ metadata,
      resolveHost ip hostname hostLabels { identity with hostAccess := first } config =
        some metadata →
      ∀ entry ∈ metadata.cloudConfig.users, (entry.«sudo».isSome = true ↔
        ∃ rule user, Reaches identity hostname hostLabels rule entry.name user ∧
          rule.spec.«sudo» = true)

/-- Under order independence each rule decides sudo for the users it reaches: it
does so in the enumeration that starts with it. -/
private theorem rule_decides_sudo [Serialize CloudConfig]
    (independent : OrderIndependent ip hostname hostLabels identity config)
    (some : GrantsAny identity hostname hostLabels)
    (reaches : Reaches identity hostname hostLabels rule username user) :
    rule.spec.«sudo» = true ↔
      ∃ rule user, Reaches identity hostname hostLabels rule username user ∧
        rule.spec.«sudo» = true := by
  obtain ⟨order, perm, entry, listed, rfl, fixed⟩ := first_rule_fixes_sudo reaches
  have resolvable : resolveHost ip hostname hostLabels
      { identity with hostAccess := order } config ≠ none := by
    rw [Ne, resolve_host_none_iff, not_not, grants_any_reordered perm]
    exact some
  obtain ⟨metadata, resolved⟩ := Option.ne_none_iff_exists'.mp resolvable
  rw [← fixed]
  refine (independent order order perm perm).2 metadata resolved entry ?_
  rw [(resolve_host_some resolved).2]
  exact listed

/-- **The result is independent of the enumeration order exactly when the rules
leave nothing to the order:** no account is granted at all, or the rules that
apply agree on sudo for every active user they share. -/
theorem resolve_host_order_independent_iff [Serialize CloudConfig] (ip : IpAddr)
    (hostname : String) (hostLabels : Option (HashMap String String)) (identity : IdentityState)
    (config : MetadataConfig) :
    OrderIndependent ip hostname hostLabels identity config ↔
      ¬ GrantsAny identity hostname hostLabels ∨ SudoAgrees identity hostname hostLabels := by
  constructor
  · intro independent
    by_cases some : GrantsAny identity hostname hostLabels
    · right
      intro first second username user firstReaches secondReaches
      apply Bool.eq_iff_iff.mpr
      rw [rule_decides_sudo independent some firstReaches,
        rule_decides_sudo independent some secondReaches]
    · exact Or.inl some
  · rintro condition first second firstPerm secondPerm
    by_cases some : GrantsAny identity hostname hostLabels
    · have agrees := condition.resolve_left (not_not.mpr some)
      constructor
      · rw [resolve_host_eq, resolve_host_eq, if_neg (collected_under_any_order some firstPerm),
          if_neg (collected_under_any_order some secondPerm),
          public_keys_reordered firstPerm secondPerm, config_users_eq agrees firstPerm secondPerm]
      · intro metadata resolved entry listed
        rw [(resolve_host_some resolved).2] at listed
        exact config_user_sudo_iff agrees firstPerm listed
    · have nothing (order : HashMap String HostAccessResource)
          (perm : order.entries.Perm identity.hostAccess.entries) :
          resolveHost ip hostname hostLabels { identity with hostAccess := order } config =
            none := by
        rw [resolve_host_none_iff, grants_any_reordered perm]
        exact some
      rw [nothing first firstPerm, nothing second secondPerm]
      exact ⟨rfl, by rintro metadata ⟨⟩⟩

/-- A user with one key, active. -/
def plainUser (name key : String) : UserResource where
  kind := "User"
  metadata := { name }
  spec := { displayName := name, uid := 1000, sshPublicKeys := [{ name := "laptop", key }] }

/-- A rule that opens one account of every host to one user. -/
def everyHostRule (name username sshUser : String) (sudoRule : Bool) : HostAccessResource where
  kind := "HostAccess"
  metadata := { name }
  spec := {
    subjects := [{ kind := .user, name := username }]
    targets := { hosts := ["*"] }
    sshUsers := [sshUser]
    «sudo» := sudoRule }

/-- Two rules for every host name one user; only the first one grants sudo. -/
def overlappingRules : IdentityState where
  users := (∅ : HashMap String UserResource).insert "alice" (plainUser "alice" "ssh-ed25519 AAAA")
  hostAccess := ((∅ : HashMap String HostAccessResource).insert "readers"
    (everyHostRule "readers" "alice" "admin" false)).insert "operators"
    (everyHostRule "operators" "alice" "root" true)

/-- The same rules, enumerated the other way round. -/
def overlappingRulesSwapped : HashMap String HostAccessResource :=
  ((∅ : HashMap String HostAccessResource).insert "operators"
    (everyHostRule "operators" "alice" "root" true)).insert "readers"
    (everyHostRule "readers" "alice" "admin" false)

def localConfig : MetadataConfig where
  domainSuffix := ".local"
  availabilityZone := "rack1"

/-- Alice gets the sudo rule of whichever of the two rules is enumerated first. -/
theorem resolve_host_sudo_depends_on_order : ¬ @OrderIndependent cloudConfigText
    (.v4 10 0 0 5) "web1" none overlappingRules localConfig := by
  intro independent
  have swapped : overlappingRulesSwapped.entries.Perm overlappingRules.hostAccess.entries :=
    List.Perm.swap _ _ _
  have same := (independent overlappingRules.hostAccess overlappingRulesSwapped
    (List.Perm.refl _) swapped).1
  have sudoRules := congrArg
    (Option.map fun metadata => metadata.cloudConfig.users.map CloudConfigUser.«sudo») same
  revert sudoRules
  decide

end CloudId
