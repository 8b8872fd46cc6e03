import CloudId.Library.SnapshotCache
import CloudId.Cache
import CloudId.ContainerProofs

/-! What a rebuild puts into the cache, and how that compares with resolving on
demand. The rebuild lets containers overwrite hosts, the on-demand path tries
hosts first, so the two differ exactly at an address that resolves both ways to
different metadata. -/
namespace CloudId
open SnapshotCache

/-- The operations of a rebuild on the cache, in order. -/
def rebuildPlan [Serialize CloudConfig] (config : MetadataConfig) (identity : IdentityState)
    (bmh : BmhState) (containers : ContainerState) : List (CacheOp IpAddr HostMetadata) :=
  .clear :: (offers (bmhMetadata identity bmh config) bmh.ipToHostname.toList ++
    offers (containerMetadata identity containers config) containers.ipToContainer.toList)

/-- The cache as what it holds at each address. -/
def cacheView (cache : HashMap IpAddr HostMetadata) (ip : IpAddr) : Option HostMetadata :=
  cache.lookup ip

theorem cache_view_clear : cacheView ∅ = fun _ => none := rfl

theorem cache_view_insert (cache : HashMap IpAddr HostMetadata) (ip : IpAddr)
    (found : Option HostMetadata) :
    cacheView (insertResolved cache ip found) = (CacheOp.offer ip found).apply (cacheView cache) := by
  cases found with
  | none => rfl
  | some metadata =>
    funext probe
    simp only [cacheView, insertResolved, CacheOp.apply, HashMap.lookup_insert_eq,
      Function.update_apply]

theorem cache_view_pass {α : Type} (found : IpAddr → α → Option HostMetadata)
    (entries : List (IpAddr × α)) (cache : HashMap IpAddr HostMetadata) :
    cacheView (entries.foldl (fun cache entry =>
      insertResolved cache entry.1 (found entry.1 entry.2)) cache) =
      run (offers found entries) (cacheView cache) := by
  induction entries generalizing cache with
  | nil => rfl
  | cons entry rest step =>
    rw [List.foldl_cons, step, cache_view_insert]
    rfl

private theorem or_comm_iff {α : Type} (first second : Option α) :
    second.or first = first.or second ↔
      ∀ a b, first = some a → second = some b → a = b := by
  cases first <;> cases second <;> simp [eq_comm]

section Codec

variable [Serialize CloudConfig]

/-- A rebuild runs its plan. -/
theorem rebuilt_cache_settled (identity : IdentityState) (bmh : BmhState)
    (containers : ContainerState) (config : MetadataConfig) :
    cacheView (rebuiltCache identity bmh containers config) =
      settled (rebuildPlan config identity bmh containers) := by
  rw [rebuiltCache, insertContainers, insertHosts, cache_view_pass, cache_view_pass,
    cache_view_clear, ← run_append]
  rfl

/-- **What a rebuild leaves at an address:** the container's metadata if there
is any, otherwise the host's. -/
theorem rebuilt_cache_lookup (state : AppState) (ip : IpAddr) :
    state.rebuildCache.getMetadata ip =
      ((state.containers.ipToContainer.lookup ip).bind
        (containerMetadata state.identity state.containers state.config.metadata ip)).or
      ((state.bmh.ipToHostname.lookup ip).bind
        (bmhMetadata state.identity state.bmh state.config.metadata ip)) := by
  have settles := congrFun (rebuilt_cache_settled state.identity state.bmh state.containers
    state.config.metadata) ip
  rw [rebuildPlan, settled, run_cons, run_append, run_offers, run_offers] at settles
  rw [CacheOp.apply, Option.or_none] at settles
  exact settles

/-- After a cache miss the on-demand path takes the host's metadata if there is
any, otherwise the container's. -/
theorem resolve_uncached_eq (state : AppState) (ip : IpAddr) :
    state.resolveUncached ip =
      ((state.bmh.ipToHostname.lookup ip).bind
        (bmhMetadata state.identity state.bmh state.config.metadata ip)).or
      ((state.containers.ipToContainer.lookup ip).bind
        (containerMetadata state.identity state.containers state.config.metadata ip)) := by
  rw [AppState.resolveUncached]
  cases state.bmh.ipToHostname.lookup ip with
  | none => cases state.containers.ipToContainer.lookup ip <;> rfl
  | some hostname =>
    simp only [Option.bind_some]
    cases bmhMetadata state.identity state.bmh state.config.metadata ip hostname with
    | none => cases state.containers.ipToContainer.lookup ip <;> rfl
    | some found => rfl

/-- **What the on-demand path finds with an empty cache:** the host's metadata
if there is any, otherwise the container's. -/
theorem resolve_on_demand_uncached (state : AppState) (ip : IpAddr) :
    { state with metadataCache := ∅ }.resolveOnDemand ip =
      ((state.bmh.ipToHostname.lookup ip).bind
        (bmhMetadata state.identity state.bmh state.config.metadata ip)).or
      ((state.containers.ipToContainer.lookup ip).bind
        (containerMetadata state.identity state.containers state.config.metadata ip)) :=
  resolve_uncached_eq { state with metadataCache := ∅ } ip

/-- The address is that of a host the rules grant something on, and also that
of a container whose namespace owner is an active user with keys. -/
structure ResolvesTwice (state : AppState) (ip : IpAddr) (hostname : String)
    (info : ContainerInfo) (owner : String) (user : UserResource) : Prop where
  host : state.bmh.ipToHostname.lookup ip = some hostname
  granted : GrantsAny state.identity hostname (state.bmh.hostLabels.lookup hostname)
  container : state.containers.ipToContainer.lookup ip = some info
  owned : state.containers.namespaceOwners.lookup info.«namespace» = some owner
  active : ActiveUser state.identity owner user
  keyed : user.userKeys ≠ []

private theorem host_resolves_iff (state : AppState) (ip : IpAddr) (hostname : String) :
    GrantsAny state.identity hostname (state.bmh.hostLabels.lookup hostname) ↔
      ∃ metadata, bmhMetadata state.identity state.bmh state.config.metadata ip hostname =
        some metadata := by
  rw [← Option.ne_none_iff_exists', bmhMetadata, Ne, resolve_host_none_iff, not_not]

private theorem agrees_iff_same_metadata (state : AppState) (ip : IpAddr) :
    state.rebuildCache.getMetadata ip =
      { state with metadataCache := ∅ }.resolveOnDemand ip ↔
      ∀ hostname info owner user, ResolvesTwice state ip hostname info owner user →
        resolveHost ip hostname (state.bmh.hostLabels.lookup hostname) state.identity
          state.config.metadata =
        resolveContainer ip info owner state.identity state.config.metadata := by
  rw [rebuilt_cache_lookup, resolve_on_demand_uncached, or_comm_iff]
  constructor
  · rintro agree hostname info owner user ⟨host, granted, container, owned, active, keyed⟩
    obtain ⟨first, resolved⟩ := (host_resolves_iff state ip hostname).mp granted
    obtain ⟨second, found⟩ := Option.isSome_iff_exists.mp ((resolve_container_isSome_iff ip info
      owner state.identity state.config.metadata).mpr ⟨user, active, keyed⟩)
    have same := agree first second (by rw [host, Option.bind_some, resolved])
      (by simp only [container, Option.bind_some, containerMetadata, owned, found])
    rw [found, ← same, ← resolved, bmhMetadata]
  · intro agree first second host container
    obtain ⟨hostname, mapped, resolved⟩ := Option.bind_eq_some_iff.mp host
    obtain ⟨info, listed, found⟩ := Option.bind_eq_some_iff.mp container
    rw [containerMetadata] at found
    split at found
    · rename_i owner owned
      obtain ⟨user, active, keyed⟩ := (resolve_container_isSome_iff ip info owner state.identity
        state.config.metadata).mp (by rw [found]; rfl)
      have granted := (host_resolves_iff state ip hostname).mpr ⟨first, resolved⟩
      have same := agree hostname info owner user ⟨mapped, granted, listed, owned, active, keyed⟩
      rw [bmhMetadata] at resolved
      rw [resolved, found] at same
      exact Option.some.inj same
    · cases found

/-- **The cache agrees with the on-demand path exactly when the address does
not resolve twice,** unless the host and the container it resolves to cannot be
told apart by anything the inputs say of them. -/
theorem cached_eq_on_demand_iff (state : AppState) (ip : IpAddr) :
    state.rebuildCache.getMetadata ip =
      { state with metadataCache := ∅ }.resolveOnDemand ip ↔
      ∀ hostname info owner user, ResolvesTwice state ip hostname info owner user →
        Indistinguishable state.identity hostname (state.bmh.hostLabels.lookup hostname) info
          owner user := by
  rw [agrees_iff_same_metadata]
  refine forall₄_congr fun hostname info owner user => imp_congr_right fun twice => ?_
  exact resolve_host_eq_container_iff ip info state.config.metadata twice.granted twice.active
    twice.keyed

/-- The containers are named as the container watcher names them. -/
def ContainerState.NamedByPod (containers : ContainerState) : Prop :=
  ∀ ip info, containers.ipToContainer.lookup ip = some info →
    info.hostname = info.containerName ++ "." ++ info.podName

/-- With containers named by the watcher, the two paths agree exactly at the
addresses that do not resolve twice. -/
theorem named_containers_agree_iff (state : AppState) (ip : IpAddr)
    (named : state.containers.NamedByPod) :
    state.rebuildCache.getMetadata ip =
      { state with metadataCache := ∅ }.resolveOnDemand ip ↔
      ∀ hostname info owner user, ¬ ResolvesTwice state ip hostname info owner user := by
  rw [agrees_iff_same_metadata]
  refine forall₄_congr fun hostname info owner user => ?_
  constructor
  · intro same twice
    have alike := (resolve_host_eq_container_iff ip info state.config.metadata twice.granted
      twice.active twice.keyed).mp (same twice)
    exact named_container_distinguishable (named ip info twice.container) alike
  · intro once twice
    exact absurd twice once

end Codec

/-- One address is listed both for a bare metal host every rule applies to and
for a container whose namespace alice owns. -/
def sharedAddress : AppState where
  identity := overlappingRules
  bmh := { ipToHostname := (∅ : HashMap IpAddr String).insert (.v4 10 0 0 5) "web1" }
  containers := {
    ipToContainer := (∅ : HashMap IpAddr ContainerInfo).insert (.v4 10 0 0 5)
      { «namespace» := "lab", podName := "build", containerName := "main",
        hostname := "main.build" }
    namespaceOwners := (∅ : HashMap String String).insert "lab" "alice" }
  templateStore := { dataDir := "/var/lib/cloudid" }
  config := { metadata := localConfig }

/-- The cache answers with the container, the on-demand path with the host. -/
theorem shared_address_disagrees :
    (@AppState.rebuildCache cloudConfigText sharedAddress).getMetadata (.v4 10 0 0 5) ≠
      @AppState.resolveOnDemand cloudConfigText { sharedAddress with metadataCache := ∅ }
        (.v4 10 0 0 5) := by
  intro agree
  have names := congrArg (Option.map HostMetadata.localHostname) agree
  revert names
  decide

end CloudId
