import CloudId.CacheProofs
import CloudId.ContainerWatcher
import CloudId.Library.GuardedRun

/-! What the container watcher makes of its polls. Whatever fails on the way, the containers
are those of the last poll that was answered in full, and after every round the cache opens
exactly the accounts that those containers, their owners and the HostAccess rules open. A rebuild
is one step here; rebuilds that overlap are the subject of `RebuildInterleaving`. -/
namespace CloudId
open GuardedRun SecondaryIndex

/-! ## One poll -/

/-- The pod that an address belongs to: of several with the address, the last one listed. -/
def podAt (pods : List K8sPod) (ip : IpAddr) : Option K8sPod :=
  pods.reverse.find? fun pod => pod.ip? = some ip

/-- The owner of a namespace: of several entries with an owner, the last one listed. -/
def ownerOf (namespaces : List K8sNamespace) (name : String) : Option String :=
  (namespaces.reverse.find? fun ns => ns.metadata.name = name ∧ ns.owner?.isSome).bind
    K8sNamespace.owner?

theorem pod_containers_lookup (pods : List K8sPod) (ip : IpAddr) :
    (podContainers pods).lookup ip = (podAt pods ip).map K8sPod.info := by
  rw [podContainers, lookup_insert_rows_last, AList.lookup_empty, Option.or_none, podAt]

theorem namespace_owners_lookup (namespaces : List K8sNamespace) (name : String) :
    (namespaceOwners namespaces).lookup name = ownerOf namespaces name := by
  have owners : namespaceOwners namespaces = namespaces.foldl
      (insertRow (fun ns => ns.owner?.map fun _ => ns.metadata.name)
        fun ns => ns.owner?.getD "") ∅ := by
    unfold namespaceOwners
    congr 1
    funext owners ns
    cases owned : ns.owner? <;> simp [insertRow, owned]
  rw [owners, lookup_insert_rows_last, AList.lookup_empty, Option.or_none, ownerOf]
  have same : (fun ns : K8sNamespace => decide ((ns.owner?.map fun _ => ns.metadata.name) = some name)) =
      fun ns => decide (ns.metadata.name = name ∧ ns.owner?.isSome) := by
    funext ns
    cases owned : ns.owner? <;> simp
  rw [same]
  cases found : namespaces.reverse.find? fun ns => ns.metadata.name = name ∧ ns.owner?.isSome with
  | none => rfl
  | some ns =>
    have held := List.find?_some found
    obtain ⟨owner, owned⟩ := Option.isSome_iff_exists.mp (of_decide_eq_true held).2
    simp [owned]

/-! ## The polls of a run -/

/-- What a complete poll lists. -/
structure PollData where
  namespaces : List K8sNamespace
  pods : List K8sPod

/-- The containers of a complete poll. -/
def PollData.containers (data : PollData) : ContainerState where
  ipToContainer := podContainers data.pods
  namespaceOwners := namespaceOwners data.namespaces

/-- What a poll lists, when both of its requests bring a list. -/
def Poll.data? (poll : Poll) : Option PollData := do
  let namespaces ← poll.namespaces.items?
  let pods ← poll.pods.items?
  return { namespaces, pods }

/-- What a step of the watcher takes over from mkube. -/
def ContainerWatch.takes (watch : ContainerWatch) : ContainerEvent → Option PollData
  | .poll poll =>
    match watch.stage with
    | .connecting _ => if poll.client then poll.data? else none
    | .refreshing => poll.data?
    | .rebuilding => none
  | .rebuild | .other _ => none

theorem load_container_state_eq (state : AppState) (poll : Poll) :
    loadContainerState state poll.namespaces poll.pods =
      poll.data?.map fun data => { state with containers := data.containers } := by
  cases namespaces : poll.namespaces <;> cases pods : poll.pods <;>
    simp [loadContainerState, loadNamespaces, loadPods, ListAnswer.items?, Poll.data?,
      PollData.containers, namespaces, pods]

section Steps

variable [Serialize CloudConfig]

/-- A step replaces the containers by what it takes over, or keeps them. -/
theorem step_containers (watch : ContainerWatch) (event : ContainerEvent) :
    (watch.step event).app.containers =
      ((watch.takes event).map PollData.containers).getD watch.app.containers := by
  cases event with
  | poll poll =>
    rw [ContainerWatch.step, ContainerWatch.polled, ContainerWatch.takes]
    cases watch.stage with
    | connecting backoff =>
      by_cases client : poll.client
      · rw [load_container_state_eq, if_pos client]
        simp only [client, if_true]
        cases poll.data? <;> rfl
      · simp only [client, Bool.false_eq_true, if_false]
        rfl
    | refreshing =>
      rw [load_container_state_eq]
      cases poll.data? <;> rfl
    | rebuilding => rfl
  | rebuild =>
    rw [ContainerWatch.step, ContainerWatch.takes]
    cases watch.stage <;> rfl
  | other task => exact task.keeps watch.app

/-- Without a complete poll the watcher goes on connecting. -/
theorem step_connecting {watch : ContainerWatch} {event : ContainerEvent}
    (connecting : ∃ backoff, watch.stage = .connecting backoff)
    (nothing : watch.takes event = none) :
    ∃ backoff, (watch.step event).stage = .connecting backoff := by
  obtain ⟨backoff, at_⟩ := connecting
  cases event with
  | poll poll =>
    simp only [ContainerWatch.takes, at_] at nothing
    simp only [ContainerWatch.step, ContainerWatch.polled, at_, load_container_state_eq]
    by_cases client : poll.client
    · rw [if_pos client] at nothing
      simp only [client, nothing]
      exact ⟨_, rfl⟩
    · simp only [client]
      exact ⟨_, rfl⟩
  | rebuild => exact ⟨backoff, by simp [ContainerWatch.step, at_]⟩
  | other task => exact ⟨backoff, at_⟩

/-- What a run of the watcher takes over from mkube, poll by poll. -/
def ContainerWatch.taken (watch : ContainerWatch) (events : List ContainerEvent) : List PollData :=
  writes ContainerWatch.step ContainerWatch.takes watch events

/-- The containers after a run are those of the last complete poll. -/
theorem run_containers (watch : ContainerWatch) (events : List ContainerEvent) :
    (watch.run events).app.containers =
      ((watch.taken events).getLast?.map PollData.containers).getD watch.app.containers :=
  @view_last_write _ _ _ _ ContainerWatch.step ContainerWatch.takes (fun watch => watch.app.containers)
    PollData.containers step_containers watch events

/-- A watcher that is through with connecting has had a complete poll. -/
theorem taken_of_connected {watch : ContainerWatch} {events : List ContainerEvent}
    (begins : ∃ backoff, watch.stage = .connecting backoff)
    (connected : ∀ backoff, (watch.run events).stage ≠ .connecting backoff) :
    ∃ data, (watch.taken events).getLast? = some data := by
  have polls : watch.taken events ≠ [] := by
    refine writes_ne_nil (fun state event => step_connecting) begins ?_
    rintro ⟨backoff, connecting⟩
    exact connected backoff connecting
  exact ⟨_, List.getLast?_eq_some_getLast polls⟩

end Steps

/-! ## What the polls open -/

/-- The metadata of an address open an account to the holder of a key. -/
def AppState.Opens (state : AppState) (ip : IpAddr) (account key : String) : Prop :=
  ∃ metadata, state.getMetadata ip = some metadata ∧
    ∃ entry ∈ metadata.publicKeys, entry.sshUser = account ∧ key ∈ entry.keys

/-- The address is that of a pod whose namespace has an owner with keys. -/
structure OwnedPod (identity : IdentityState) (data : PollData) (ip : IpAddr) (owner : String)
    (user : UserResource) : Prop where
  listed : ∃ pod, podAt data.pods ip = some pod ∧
    ownerOf data.namespaces pod.metadata.«namespace» = some owner
  active : ActiveUser identity owner user
  keyed : user.userKeys ≠ []

/-- The accounts that a container opens to its owner: the owner's own and root, and
admin too unless the owner is root. -/
def OpenToOwner (owner account : String) : Prop :=
  account = owner ∨ account = "root" ∨ account = "admin" ∧ owner ≠ "root"

theorem mem_owner_accounts {owner account : String} :
    account ∈ ownerAccounts owner ↔ OpenToOwner owner account := by
  by_cases root : owner = "root"
  · simp [ownerAccounts, OpenToOwner, root]
  · by_cases admin : owner = "admin"
    · simp only [ownerAccounts, OpenToOwner, admin]
      simp [or_comm]
    · simp [ownerAccounts, OpenToOwner, root, admin, or_comm]

section Access

variable [Serialize CloudConfig]

/-- The accounts of a host are those of its rules. -/
theorem resolve_host_opens_iff (ip : IpAddr) (hostname : String)
    (hostLabels : Option (HashMap String String)) (identity : IdentityState)
    (config : MetadataConfig) (account key : String) :
    (∃ metadata, resolveHost ip hostname hostLabels identity config = some metadata ∧
      ∃ entry ∈ metadata.publicKeys, entry.sshUser = account ∧ key ∈ entry.keys) ↔
      Grants identity hostname hostLabels account key := by
  constructor
  · rintro ⟨metadata, resolved, entry, listed, rfl, held⟩
    rw [(resolve_host_some resolved).1, mem_public_key_entries] at listed
    rwa [listed.2, sortDedup, SortedMap.mem_sort_destutter, key_collected_iff] at held
  · intro granted
    obtain ⟨rule, username, user, reaches, listed, held⟩ := granted
    have resolves : resolveHost ip hostname hostLabels identity config ≠ none := by
      rw [Ne, resolve_host_none_iff, not_not]
      exact ⟨rule, username, user, reaches, List.ne_nil_of_mem listed⟩
    obtain ⟨metadata, resolved⟩ := Option.ne_none_iff_exists'.mp resolves
    let keys := (collectedFor identity hostname hostLabels).keysBySshUser
    refine ⟨metadata, resolved, ⟨account, sortDedup (keys.getD account [])⟩, ?_, rfl, ?_⟩
    · rw [(resolve_host_some resolved).1, mem_public_key_entries]
      exact ⟨(account_collected_iff ..).mpr ⟨rule, username, user, reaches, listed⟩, rfl⟩
    · refine (SortedMap.mem_sort_destutter _ _).mpr ((key_collected_iff ..).mpr ?_)
      exact ⟨rule, username, user, reaches, listed, held⟩

/-- The metadata of a container, from the poll that lists its pod. -/
theorem container_metadata_eq (identity : IdentityState) (data : PollData)
    (config : MetadataConfig) (ip : IpAddr) (metadata : HostMetadata) :
    ((data.containers.ipToContainer.lookup ip).bind
      (containerMetadata identity data.containers config ip)) = some metadata ↔
      ∃ pod owner user, podAt data.pods ip = some pod ∧
        ownerOf data.namespaces pod.metadata.«namespace» = some owner ∧
        ActiveUser identity owner user ∧ user.userKeys ≠ [] ∧
        metadata = ownerMetadata ip pod.info config owner user := by
  rw [PollData.containers, pod_containers_lookup]
  cases listed : podAt data.pods ip with
  | none => simp
  | some pod =>
    rw [Option.map_some, Option.bind_some, containerMetadata, namespace_owners_lookup]
    have info : pod.info.«namespace» = pod.metadata.«namespace» := rfl
    rw [info]
    cases owned : ownerOf data.namespaces pod.metadata.«namespace» with
    | none => simp [owned]
    | some owner =>
      simp only
      rw [resolve_container_eq]
      constructor
      · intro resolved
        obtain ⟨user, kept, rfl⟩ := Option.map_eq_some_iff.mp resolved
        obtain ⟨active, keyed⟩ := Option.filter_eq_some_iff.mp kept
        exact ⟨pod, owner, user, rfl, owned, (active_user_iff ..).mp active, by simpa using keyed, rfl⟩
      · rintro ⟨other, owner', user, same, owned', active, keyed, rfl⟩
        cases same
        rw [owned] at owned'
        cases owned'
        rw [(active_user_iff ..).mpr active, Option.filter_some, if_pos (by simpa using keyed),
          Option.map_some]

/-- What the rules and a complete poll open at an address: a container opens its owner's
accounts, any other address those of the host there. -/
def AccessAt (state : AppState) (data : PollData) (ip : IpAddr) (account key : String) : Prop :=
  (∃ owner user, OwnedPod state.identity data ip owner user ∧ OpenToOwner owner account ∧
    key ∈ user.userKeys) ∨
  (¬ ∃ owner user, OwnedPod state.identity data ip owner user) ∧
    ∃ hostname, state.bmh.ipToHostname.lookup ip = some hostname ∧
      Grants state.identity hostname (state.bmh.hostLabels.lookup hostname) account key

/-- A rebuild opens what the polls and the rules open. -/
theorem rebuild_opens_iff {state : AppState} {data : PollData}
    (containers : state.containers = data.containers) (ip : IpAddr) (account key : String) :
    state.rebuildCache.Opens ip account key ↔ AccessAt state data ip account key := by
  have container := container_metadata_eq state.identity data state.config.metadata ip
  rw [AppState.Opens, rebuilt_cache_lookup, containers]
  by_cases owned : ∃ owner user, OwnedPod state.identity data ip owner user
  · obtain ⟨owner, user, ⟨pod, listed, named⟩, active, keyed⟩ := owned
    rw [(container _).mpr ⟨pod, owner, user, listed, named, active, keyed, rfl⟩, Option.some_or]
    constructor
    · rintro ⟨_, ⟨⟩, entry, member, rfl, held⟩
      obtain ⟨account, opened, rfl⟩ := List.mem_map.mp member
      exact Or.inl ⟨owner, user, ⟨⟨pod, listed, named⟩, active, keyed⟩,
        mem_owner_accounts.mp opened, held⟩
    · rintro (⟨owner', user', ⟨⟨pod', listed', named'⟩, active', -⟩, opened, held⟩ | ⟨none_there, -⟩)
      · rw [listed] at listed'
        cases listed'
        rw [named] at named'
        cases named'
        cases active_user_unique active active'
        exact ⟨_, rfl, ⟨account, user.userKeys⟩,
          List.mem_map.mpr ⟨account, mem_owner_accounts.mpr opened, rfl⟩, rfl, held⟩
      · exact absurd ⟨owner, user, ⟨pod, listed, named⟩, active, keyed⟩ none_there
  · have nothing : ((data.containers.ipToContainer.lookup ip).bind
        (containerMetadata state.identity data.containers state.config.metadata ip)) = none := by
      refine Option.eq_none_iff_forall_ne_some.mpr fun metadata resolved => owned ?_
      obtain ⟨pod, owner, user, listed, named, active, keyed, -⟩ := (container metadata).mp resolved
      exact ⟨owner, user, ⟨pod, listed, named⟩, active, keyed⟩
    rw [nothing, Option.none_or]
    constructor
    · rintro ⟨metadata, resolved, opened⟩
      obtain ⟨hostname, mapped, resolved⟩ := Option.bind_eq_some_iff.mp resolved
      exact Or.inr ⟨owned, hostname, mapped, (resolve_host_opens_iff ..).mp ⟨metadata, resolved, opened⟩⟩
    · rintro (⟨owner, user, there, -⟩ | ⟨-, hostname, mapped, granted⟩)
      · exact absurd ⟨owner, user, there⟩ owned
      · obtain ⟨metadata, resolved, opened⟩ := (resolve_host_opens_iff ip hostname _ _
          state.config.metadata _ _).mpr granted
        exact ⟨metadata, Option.bind_eq_some_iff.mpr ⟨hostname, mapped, resolved⟩, opened⟩

/-- **After every round the cache opens what the last complete poll and the rules open,**
whatever failed on the way and whatever the other watchers changed. -/
theorem container_round_opens_iff (watch : ContainerWatch) (events : List ContainerEvent)
    (begins : ∃ backoff, watch.stage = .connecting backoff)
    (rebuilding : (watch.run events).stage = .rebuilding) :
    ∃ data, (watch.taken events).getLast? = some data ∧
      ∀ ip account key, (watch.run (events ++ [.rebuild])).app.Opens ip account key ↔
        AccessAt (watch.run events).app data ip account key := by
  obtain ⟨data, last⟩ := taken_of_connected begins fun backoff connecting => by
    rw [rebuilding] at connecting
    cases connecting
  have containers : (watch.run events).app.containers = data.containers := by
    rw [run_containers, last]
    rfl
  have rebuilt : (watch.run (events ++ [.rebuild])).app = (watch.run events).app.rebuildCache := by
    rw [ContainerWatch.run, List.foldl_append]
    change ((watch.run events).step .rebuild).app = _
    rw [ContainerWatch.step, rebuilding]
  refine ⟨data, last, fun ip account key => ?_⟩
  rw [rebuilt]
  exact rebuild_opens_iff containers ip account key

end Access

/-- A pod in a namespace that alice owns. -/
def labPod : K8sPod where
  metadata := { name := "build", «namespace» := "lab" }
  status := some { podIp := "10.0.0.5" }

def labNamespace : K8sNamespace where
  metadata := {
    name := "lab"
    annotations := (∅ : HashMap String String).insert "vkube.io/owner" "alice" }

/-- The watcher of a service that has just started. -/
def labWatch : ContainerWatch where
  app := { sharedAddress with containers := {} }

/-- mkube is down at first, and fails again in the middle of the second round. -/
def flakyPolls : List ContainerEvent :=
  [.poll { namespaces := .unreachable, pods := .unreachable },
    .poll { namespaces := .listed [labNamespace], pods := .listed [labPod] }, .rebuild,
    .poll { namespaces := .listed [], pods := .refused 503 }]

theorem container_round_opens_iff_lab :
    ∃ data, (@ContainerWatch.taken cloudConfigText labWatch flakyPolls).getLast? = some data ∧
      ∀ ip account key,
        (@ContainerWatch.run cloudConfigText labWatch (flakyPolls ++ [.rebuild])).app.Opens ip
            account key ↔
          AccessAt (@ContainerWatch.run cloudConfigText labWatch flakyPolls).app data ip account key :=
  @container_round_opens_iff cloudConfigText labWatch flakyPolls ⟨1, rfl⟩ rfl

/-! ## Waiting for mkube -/

/-- The failed attempts so far account for the waits and for the backoff. -/
structure ContainerWatch.Waited (watch : ContainerWatch) (attempts : Nat) : Prop where
  waits : watch.waits =
    Backoff.waits firstBackoff maxBackoff firstBackoff (List.replicate attempts false)
  backoff : ∀ backoff, watch.stage = .connecting backoff →
    backoff = (List.replicate attempts false).foldl (Backoff.next firstBackoff maxBackoff)
      firstBackoff

theorem ContainerWatch.Waited.failed {watch : ContainerWatch} {attempts : Nat}
    (waited : watch.Waited attempts) {backoff : Nat} (connecting : watch.stage = .connecting backoff) :
    (watch.failed backoff).Waited (attempts + 1) := by
  have own := waited.backoff backoff connecting
  constructor
  · rw [List.replicate_succ', Backoff.waits_append, ← own, ← waited.waits]
    rfl
  · intro backoff' later
    rw [List.replicate_succ', List.foldl_append, ← own]
    cases later
    rfl

section Waits

variable [Serialize CloudConfig]

theorem step_waited {watch : ContainerWatch} {attempts : Nat} (waited : watch.Waited attempts)
    (event : ContainerEvent) : ∃ attempts, (watch.step event).Waited attempts := by
  cases event with
  | poll poll =>
    simp only [ContainerWatch.step, ContainerWatch.polled]
    cases at_ : watch.stage with
    | connecting backoff =>
      by_cases client : poll.client
      · cases loadContainerState watch.app poll.namespaces poll.pods with
        | none =>
          simp only [client, if_true]
          exact ⟨_, waited.failed at_⟩
        | some app =>
          simp only [client, if_true]
          exact ⟨attempts, waited.waits, nofun⟩
      · simp only [client, Bool.false_eq_true, if_false]
        exact ⟨_, waited.failed at_⟩
    | refreshing => exact ⟨attempts, waited.waits, nofun⟩
    | rebuilding => exact ⟨attempts, waited⟩
  | rebuild =>
    simp only [ContainerWatch.step]
    cases at_ : watch.stage with
    | connecting backoff => exact ⟨attempts, waited⟩
    | refreshing => exact ⟨attempts, waited⟩
    | rebuilding => exact ⟨attempts, waited.waits, nofun⟩
  | other task => exact ⟨attempts, waited.waits, waited.backoff⟩

/-- A watcher that is through with connecting does not come back to it. -/
theorem step_connected {watch : ContainerWatch}
    (connected : ∀ backoff, watch.stage ≠ .connecting backoff) (event : ContainerEvent) :
    (∀ backoff, (watch.step event).stage ≠ .connecting backoff) ∧
      (watch.step event).waits = watch.waits := by
  cases event with
  | poll poll =>
    simp only [ContainerWatch.step, ContainerWatch.polled]
    cases at_ : watch.stage with
    | connecting backoff => exact absurd at_ (connected backoff)
    | refreshing => exact ⟨nofun, rfl⟩
    | rebuilding => exact ⟨connected, rfl⟩
  | rebuild =>
    simp only [ContainerWatch.step]
    cases at_ : watch.stage with
    | connecting backoff => exact absurd at_ (connected backoff)
    | refreshing => exact ⟨connected, rfl⟩
    | rebuilding => exact ⟨nofun, rfl⟩
  | other task => exact ⟨connected, rfl⟩

/-- **The watcher waits twice as long after each failed attempt, up to a minute, and once it
is connected no outage stops its rounds again.** -/
theorem container_waits {watch : ContainerWatch} (begins : watch.stage = .connecting firstBackoff)
    (fresh : watch.waits = []) (events : List ContainerEvent) :
    (∀ index wait, (watch.run events).waits[index]? = some wait → wait = min (2 ^ index) 60) ∧
      ((∀ backoff, (watch.run events).stage ≠ .connecting backoff) → ∀ more,
        (∀ backoff, (watch.run (events ++ more)).stage ≠ .connecting backoff) ∧
          (watch.run (events ++ more)).waits = (watch.run events).waits) := by
  have waited : ∃ attempts, (watch.run events).Waited attempts := by
    induction events using List.reverseRecOn with
    | nil => exact ⟨0, fresh, fun backoff at_ => by cases begins.symm.trans at_; rfl⟩
    | append_singleton events event step =>
      obtain ⟨attempts, waited⟩ := step
      rw [ContainerWatch.run, List.foldl_append]
      exact step_waited waited event
  constructor
  · intro index wait held
    obtain ⟨attempts, waits, -⟩ := waited
    rw [waits] at held
    have inside : index < (List.replicate attempts false).length := by
      have within := (List.getElem?_eq_some_iff.mp held).1
      simpa using within
    have doubled := Backoff.wait_eq (by decide : firstBackoff ≤ maxBackoff)
      (List.replicate attempts false) (Or.inl ⟨rfl, rfl⟩) (Nat.zero_le index) inside
      fun k _ below => by
        rw [List.length_replicate] at inside
        rw [List.getElem?_replicate, if_pos (by omega)]
    rw [held, Nat.sub_zero] at doubled
    simpa [firstBackoff, maxBackoff] using doubled
  · intro connected more
    induction more using List.reverseRecOn with
    | nil => rw [List.append_nil]; exact ⟨connected, rfl⟩
    | append_singleton more event step =>
      have next := step_connected step.1 event
      rw [← List.append_assoc, ContainerWatch.run, List.foldl_append]
      exact ⟨next.1, next.2.trans step.2⟩

end Waits

theorem container_waits_lab :
    (∀ index wait, (@ContainerWatch.run cloudConfigText labWatch flakyPolls).waits[index]? =
      some wait → wait = min (2 ^ index) 60) ∧
    ((∀ backoff, (@ContainerWatch.run cloudConfigText labWatch flakyPolls).stage ≠
        .connecting backoff) → ∀ more,
      (∀ backoff, (@ContainerWatch.run cloudConfigText labWatch (flakyPolls ++ more)).stage ≠
        .connecting backoff) ∧
      (@ContainerWatch.run cloudConfigText labWatch (flakyPolls ++ more)).waits =
        (@ContainerWatch.run cloudConfigText labWatch flakyPolls).waits) :=
  @container_waits cloudConfigText labWatch rfl rfl flakyPolls

end CloudId
