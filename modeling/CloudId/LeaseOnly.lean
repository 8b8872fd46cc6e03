import CloudId.RefreshFailures

/-! Hosts whose objects have no address. `apply_bmh_to_state` records the labels and the
object of a host only where the object has an address, so a host that just a lease finds is
served by its name alone. -/
namespace CloudId
open SecondaryIndex

section Resolution

variable [Serialize CloudConfig]

/-- What the records of the hosts resolve an address to. -/
def AppState.resolveBmh (state : AppState) (ip : IpAddr) : Option HostMetadata :=
  match state.bmh.ipToHostname.lookup ip with
  | some hostname => bmhMetadata state.identity state.bmh state.config.metadata ip hostname
  | none => none

/-- A request from the address is resolved with the labels of the host, and the object of
the host is found under its name. -/
structure ServedAs (state : AppState) (host : BareMetalHost) (ip : IpAddr) : Prop where
  labels : state.resolveBmh ip = resolveHost ip host.effectiveHostname
    (some host.metadata.labels) state.identity state.config.metadata
  object : state.getBmh host.effectiveHostname = some host

/-- A host that a lease finds is served as its object says, and every address that an object
declares leads to the object's name. -/
structure KeepsConfiguration (state : AppState) (upstream : Upstream) : Prop where
  leased : ∀ host ∈ upstream.hosts, host.ipStr = none → ∀ lease ∈ upstream.leases, ∀ ip,
    lease.namedIp = some ip → lease.hostname = host.effectiveHostname → ServedAs state host ip
  declared : ∀ host ∈ upstream.hosts, ∀ ip, host.ip? = some ip →
    state.bmh.ipToHostname.lookup ip = some host.effectiveHostname

end Resolution

variable {state : AppState} {upstream : Upstream}

/-- The names of the listed hosts are distinct, and so are their addresses. -/
structure Upstream.Separate (upstream : Upstream) : Prop where
  names : (upstream.hosts.map BareMetalHost.effectiveHostname).Nodup
  addresses : upstream.hosts.Pairwise fun host host' =>
    ∀ ip, host.ip? = some ip → host'.ip? ≠ some ip

/-- An address that an object declares leads to the object's name, whatever the leases. -/
theorem declared_address (separate : upstream.Separate) {host : BareMetalHost}
    (listed : host ∈ upstream.hosts) {ip : IpAddr} (declared : host.ip? = some ip) :
    (refreshed state upstream).bmh.ipToHostname.lookup ip = some host.effectiveHostname := by
  rw [refreshed_bmh]
  refine (AddsNames.leases upstream.leases _).names ip _ ?_
  rw [apply_hosts_eq]
  exact (lookup_insert_rows separate.addresses ∅ ip _).mpr (Or.inl ⟨host, listed, declared, rfl⟩)

/-- Nothing is recorded under the name of a host without an address. -/
theorem addressless_unrecorded (separate : upstream.Separate) {host : BareMetalHost}
    (listed : host ∈ upstream.hosts) (addressless : host.ip? = none) :
    (refreshed state upstream).bmh.hostLabels.lookup host.effectiveHostname = none ∧
      (refreshed state upstream).bmh.hosts.lookup host.effectiveHostname = none := by
  have unrecorded : ∀ other ∈ upstream.hosts,
      other.recordedName ≠ some host.effectiveHostname := by
    intro other there recorded
    obtain ⟨ip, declared, named⟩ := Option.map_eq_some_iff.mp recorded
    obtain rfl := List.inj_on_of_nodup_map separate.names there listed named
    rw [addressless] at declared
    cases declared
  obtain ⟨labels, hosts⟩ := refreshed_records state upstream
  rw [labels, hosts]
  exact ⟨insert_rows_absent unrecorded rfl, insert_rows_absent unrecorded rfl⟩

/-- **A refresh keeps the configuration of the hosts exactly when none of them is found by a
lease alone.**  For every state and every answer of the upstream services whose hosts have
distinct names and addresses. -/
theorem refresh_keeps_configuration_iff [Serialize CloudConfig] (state : AppState)
    (upstream : Upstream) (separate : upstream.Separate) :
    KeepsConfiguration (refresh state (some upstream.namespaces) upstream.sources) upstream ↔
      ∀ host ∈ upstream.hosts, host.ipStr = none → ∀ lease ∈ upstream.leases,
        lease.namedIp.isSome → lease.hostname ≠ host.effectiveHostname := by
  constructor
  · intro keeps host listed addressless lease leased named same
    obtain ⟨ip, named⟩ := Option.isSome_iff_exists.mp named
    have object := (keeps.leased host listed addressless lease leased ip named same).object
    have no_ip : host.ip? = none := by rw [BareMetalHost.ip?, addressless, Option.bind_none]
    have absent : (refreshed state upstream).bmh.hosts.lookup host.effectiveHostname = none :=
      (addressless_unrecorded separate listed no_ip).2
    exact absurd (absent.symm.trans object) (Option.some_ne_none _).symm
  · intro apart
    refine ⟨fun host listed addressless lease leased ip named same => ?_,
      fun host listed ip declared => declared_address separate listed declared⟩
    exact absurd same (apart host listed addressless lease leased (by rw [named]; rfl))

/-- Two hosts have addresses, one of which a lease knows under another name; a third host has
none. -/
def addressedHosts : Upstream where
  namespaces := [("g10", .listed [labelledHost "10.0.0.5" "worker",
      { labelledHost "10.0.0.6" "storage" with metadata.name := "server2" }]),
    ("g11", .listed [{ labelledHost "" "spare" with metadata.name := "server3" }])]
  sources := [.listed [{ ip := "10.0.0.5", hostname := "old-name" }]]

/-- The one host has no address; a lease knows one. -/
def leaseOnlyHost : Upstream where
  namespaces := [("g10", .listed [labelledHost "" "worker"])]
  sources := [.listed [{ ip := "10.0.0.5", hostname := "server1" }]]

section Sample

attribute [local instance] cloudConfigText

theorem refresh_keeps_configuration_addressed :
    KeepsConfiguration (refresh freshApp (some addressedHosts.namespaces) addressedHosts.sources)
      addressedHosts := by
  have addresses : addressedHosts.hosts.map BareMetalHost.ip? =
      [some (.v4 10 0 0 5), some (.v4 10 0 0 6), none] := by decide +kernel
  have apart : (addressedHosts.hosts.map BareMetalHost.ip?).Pairwise fun first second =>
      ∀ ip, first = some ip → second ≠ some ip := by
    rw [addresses]
    simp
  refine (refresh_keeps_configuration_iff freshApp addressedHosts
    ⟨by decide, List.pairwise_map.mp apart⟩).mpr ?_
  intro host listed _ lease leased _
  rw [List.mem_singleton.mp leased]
  revert host
  decide

/-- The object of the host is not found under its name. -/
theorem lease_only_host_loses_object : ¬ ∀ (state : AppState) (upstream : Upstream),
    upstream.Separate →
      KeepsConfiguration (refresh state (some upstream.namespaces) upstream.sources) upstream := by
  intro always
  have keeps := always freshApp leaseOnlyHost
    ⟨List.nodup_singleton _, List.pairwise_singleton _ _⟩
  have named : DhcpLease.namedIp { ip := "10.0.0.5", hostname := "server1" } =
      some (.v4 10 0 0 5) := by decide +kernel
  have served := keeps.leased (labelledHost "" "worker") (List.mem_singleton_self _) rfl _
    (List.mem_singleton_self _) _ named rfl
  cases served.object

end Sample

end CloudId
