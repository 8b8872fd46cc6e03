import CloudId.BmhHistory

/-! A refresh in which some requests fail. `load_all_bmh` empties the records before it
asks the namespaces, so what came from a request that fails now is forgotten, and so is
what came from a lease source: only what a successful answer lists is there afterwards. -/
namespace CloudId
open SecondaryIndex

/-! ## The answers of a refresh -/

/-- The address that a lease names a host for; without a name there is none. -/
def DhcpLease.namedIp (lease : DhcpLease) : Option IpAddr :=
  if lease.hostname = "" then none else IpAddr.parse lease.ip

/-- What comes of the requests of one refresh: the list of each discovered namespace, and
the leases of each configured source. -/
structure Upstream where
  namespaces : List (String × BmhAnswer)
  sources : List LeaseAnswer

namespace Upstream

/-- The hosts that successful answers list, in the order they are recorded. -/
def hosts (upstream : Upstream) : List BareMetalHost :=
  upstream.namespaces.flatMap fun entry => entry.2.items

def leases (upstream : Upstream) : List DhcpLease := upstream.sources.flatMap LeaseAnswer.leases

/-- A successful answer gives the address this name. -/
def Names (upstream : Upstream) (ip : IpAddr) (hostname : String) : Prop :=
  (∃ host ∈ upstream.hosts, host.ip? = some ip ∧ host.effectiveHostname = hostname) ∨
    ∃ lease ∈ upstream.leases, lease.namedIp = some ip ∧ lease.hostname = hostname

/-- A successful answer lists a host that is recorded under this name. -/
def Lists (upstream : Upstream) (hostname : String) (host : BareMetalHost) : Prop :=
  host ∈ upstream.hosts ∧ host.recordedName = some hostname

end Upstream

/-- `load_all_bmh`, then `load_dhcp_leases`. -/
def refreshed (state : AppState) (upstream : Upstream) : AppState :=
  loadDhcpLeases (loadAllBmh state (some upstream.namespaces)) upstream.sources

/-! ## What a refresh records -/

/-- A lease names an address that has no name yet. -/
theorem add_lease_eq (bmh : BmhState) (lease : DhcpLease) :
    addLease bmh lease =
      match lease.namedIp with
      | some ip =>
        if ip ∈ bmh.ipToHostname then bmh
        else { bmh with ipToHostname := bmh.ipToHostname.insert ip lease.hostname }
      | none => bmh := by
  rw [addLease, DhcpLease.namedIp]
  split <;> rfl

/-- Leases add names, and leave what is recorded already. -/
structure AddsNames (before after : BmhState) : Prop where
  names : ∀ ip hostname, before.ipToHostname.lookup ip = some hostname →
    after.ipToHostname.lookup ip = some hostname
  labels : after.hostLabels = before.hostLabels
  namespaces : after.hostNamespace = before.hostNamespace
  hosts : after.hosts = before.hosts

namespace AddsNames

theorem refl (bmh : BmhState) : AddsNames bmh bmh := ⟨fun _ _ held => held, rfl, rfl, rfl⟩

theorem trans {first second third : BmhState} (before : AddsNames first second)
    (after : AddsNames second third) : AddsNames first third where
  names ip hostname held := after.names ip hostname (before.names ip hostname held)
  labels := after.labels.trans before.labels
  namespaces := after.namespaces.trans before.namespaces
  hosts := after.hosts.trans before.hosts

theorem lease (bmh : BmhState) (lease : DhcpLease) : AddsNames bmh (addLease bmh lease) := by
  rw [add_lease_eq]
  cases lease.namedIp with
  | none => exact refl bmh
  | some ip =>
    by_cases known : ip ∈ bmh.ipToHostname
    · simp only [if_pos known]
      exact refl bmh
    · simp only [if_neg known]
      refine ⟨fun probe hostname held => ?_, rfl, rfl, rfl⟩
      have other : probe ≠ ip := by
        rintro rfl
        exact known (AList.lookup_isSome.mp (by rw [held]; rfl))
      rw [HashMap.lookup_insert_eq, if_neg other]
      exact held

theorem leases (leases : List DhcpLease) (bmh : BmhState) :
    AddsNames bmh (leases.foldl addLease bmh) := by
  induction leases generalizing bmh with
  | nil => exact refl bmh
  | cons first rest step => exact (lease bmh first).trans (step _)

end AddsNames

/-- A name that leases leave was there before, or one of them gave it. -/
theorem leases_sound {leases : List DhcpLease} {bmh : BmhState} {ip : IpAddr} {hostname : String}
    (held : (leases.foldl addLease bmh).ipToHostname.lookup ip = some hostname) :
    (∃ lease ∈ leases, lease.namedIp = some ip ∧ lease.hostname = hostname) ∨
      bmh.ipToHostname.lookup ip = some hostname := by
  induction leases generalizing bmh with
  | nil => exact Or.inr held
  | cons lease rest step =>
    rcases step held with ⟨other, listed, named⟩ | held
    · exact Or.inl ⟨other, List.mem_cons_of_mem _ listed, named⟩
    · rw [add_lease_eq] at held
      cases named : lease.namedIp with
      | none =>
        rw [named] at held
        exact Or.inr held
      | some own =>
        simp only [named] at held
        split at held
        · exact Or.inr held
        · rw [HashMap.lookup_insert_eq] at held
          split at held
          · rename_i same
            exact Or.inl ⟨lease, List.mem_cons_self .., named.trans (congrArg some same.symm),
              Option.some.inj held⟩
          · exact Or.inr held

/-- After its lease, an address has a name. -/
theorem leases_complete {leases : List DhcpLease} {lease : DhcpLease} (listed : lease ∈ leases)
    {ip : IpAddr} (named : lease.namedIp = some ip) (bmh : BmhState) :
    ((leases.foldl addLease bmh).ipToHostname.lookup ip).isSome := by
  obtain ⟨before, after, rfl⟩ := List.append_of_mem listed
  rw [List.foldl_append, List.foldl_cons]
  have there : ∃ hostname, (addLease (before.foldl addLease bmh) lease).ipToHostname.lookup ip =
      some hostname := by
    rw [add_lease_eq, named]
    by_cases known : ip ∈ (before.foldl addLease bmh).ipToHostname
    · simp only [if_pos known]
      exact Option.isSome_iff_exists.mp (AList.lookup_isSome.mpr known)
    · simp only [if_neg known]
      exact ⟨lease.hostname, by rw [HashMap.lookup_insert_eq, if_pos rfl]⟩
  obtain ⟨hostname, held⟩ := there
  rw [(AddsNames.leases after _).names ip hostname held]
  rfl

theorem refreshed_bmh (state : AppState) (upstream : Upstream) :
    (refreshed state upstream).bmh = upstream.leases.foldl addLease
      (upstream.hosts.foldl (fun bmh host => applyBmhToState host bmh) {}) := by
  rw [refreshed, loadDhcpLeases, load_sources_eq, loadAllBmh, load_namespaces_eq, List.flatMap_map]
  rfl

/-- What a refresh names is named by its successful answers. -/
theorem refreshed_names_sound {state : AppState} {upstream : Upstream} {ip : IpAddr}
    {hostname : String}
    (held : (refreshed state upstream).bmh.ipToHostname.lookup ip = some hostname) :
    upstream.Names ip hostname := by
  rw [refreshed_bmh] at held
  rcases leases_sound held with leased | held
  · exact Or.inr leased
  · rw [apply_hosts_eq] at held
    rcases insert_rows_sound held with listed | ⟨⟨⟩⟩
    exact Or.inl listed

theorem refreshed_names_complete (state : AppState) {upstream : Upstream} {ip : IpAddr}
    {hostname : String} (named : upstream.Names ip hostname) :
    ∃ found, (refreshed state upstream).bmh.ipToHostname.lookup ip = some found := by
  apply Option.isSome_iff_exists.mp
  rw [refreshed_bmh]
  rcases named with ⟨host, listed, addressed, -⟩ | ⟨lease, listed, leased, -⟩
  · obtain ⟨found, held⟩ := Option.isSome_iff_exists.mp
      (insert_rows_complete BareMetalHost.effectiveHostname listed addressed ∅)
    rw [(AddsNames.leases upstream.leases _).names ip found (by rw [apply_hosts_eq]; exact held)]
    rfl
  · exact leases_complete listed leased _

/-- The records of the hosts are those of the lists, whatever the leases. -/
theorem refreshed_records (state : AppState) (upstream : Upstream) :
    (refreshed state upstream).bmh.hostLabels =
        upstream.hosts.foldl (insertRow BareMetalHost.recordedName (·.metadata.labels)) ∅ ∧
      (refreshed state upstream).bmh.hosts =
        upstream.hosts.foldl (insertRow BareMetalHost.recordedName id) ∅ := by
  rw [refreshed_bmh, (AddsNames.leases ..).labels, (AddsNames.leases ..).hosts, apply_hosts_eq]
  exact ⟨rfl, rfl⟩

/-! ## What is remembered -/

/-- Where an entry of the records came from. -/
inductive Origin where
  | network (ns : String)
  | leaseSource (index : Nat)

/-- The origin of the name of each address, and of the data of each host. -/
structure Provenance where
  names : IpAddr → Origin
  records : String → Origin

namespace Upstream

/-- The request to this origin failed in the refresh. -/
def Failed (upstream : Upstream) : Origin → Prop
  | .network ns => ∃ answer, (ns, answer) ∈ upstream.namespaces ∧ answer.failed
  | .leaseSource index => ∃ answer, upstream.sources[index]? = some answer ∧ answer.failed

/-- A successful answer gives the address another name, or the name to another address. -/
def Renames (upstream : Upstream) (ip : IpAddr) (hostname : String) : Prop :=
  (∃ other, other ≠ hostname ∧ upstream.Names ip other) ∨
    ∃ other, other ≠ ip ∧ upstream.Names other hostname

end Upstream

variable {υ : Type} (upstream : Upstream) (origin : Provenance)

/-- Of the hosts' data of one kind, what came from a failed request is still there, or a
successful answer has other data for the host. -/
def RecordsKept (value : BareMetalHost → υ) (before after : HashMap String υ) : Prop :=
  ∀ hostname found, before.lookup hostname = some found →
    upstream.Failed (origin.records hostname) →
    after.lookup hostname = some found ∨
      ∃ host, upstream.Lists hostname host ∧ value host ≠ found

/-- The refresh forgets nothing that came from a failed request. -/
structure Remembers (before after : BmhState) : Prop where
  names : ∀ ip hostname, before.ipToHostname.lookup ip = some hostname →
    upstream.Failed (origin.names ip) →
    after.ipToHostname.lookup ip = some hostname ∨ upstream.Renames ip hostname
  labels : RecordsKept upstream origin (·.metadata.labels) before.hostLabels after.hostLabels
  hosts : RecordsKept upstream origin id before.hosts after.hosts

/-- Successful answers list everything that came from a failed request. -/
structure Relisted (before : BmhState) : Prop where
  names : ∀ ip hostname, before.ipToHostname.lookup ip = some hostname →
    upstream.Failed (origin.names ip) →
    ∃ ip' hostname', upstream.Names ip' hostname' ∧ (ip' = ip ∨ hostname' = hostname)
  records : ∀ hostname, hostname ∈ before.hostLabels ∨ hostname ∈ before.hosts →
    upstream.Failed (origin.records hostname) → ∃ host, upstream.Lists hostname host

variable {upstream origin}

/-- Data built from the lists alone is kept exactly as far as they list the hosts. -/
theorem records_kept_iff (value : BareMetalHost → υ) (before : HashMap String υ) :
    RecordsKept upstream origin value before
        (upstream.hosts.foldl (insertRow BareMetalHost.recordedName value) ∅) ↔
      ∀ hostname, hostname ∈ before → upstream.Failed (origin.records hostname) →
        ∃ host, upstream.Lists hostname host := by
  constructor
  · intro kept hostname recorded failed
    obtain ⟨found, held⟩ := Option.isSome_iff_exists.mp (AList.lookup_isSome.mpr recorded)
    rcases kept hostname found held failed with still | ⟨host, lists, -⟩
    · rcases insert_rows_sound still with ⟨host, listed, named, -⟩ | ⟨⟨⟩⟩
      exact ⟨host, listed, named⟩
    · exact ⟨host, lists⟩
  · intro relisted hostname found held failed
    have recorded : hostname ∈ before := AList.lookup_isSome.mp (by rw [held]; rfl)
    obtain ⟨host, listed, named⟩ := relisted hostname recorded failed
    obtain ⟨now, rebuilt⟩ := Option.isSome_iff_exists.mp
      (insert_rows_complete value listed named ∅)
    rcases insert_rows_sound rebuilt with ⟨last, listed, named, rfl⟩ | ⟨⟨⟩⟩
    by_cases same : value last = found
    · exact Or.inl (same ▸ rebuilt)
    · exact Or.inr ⟨last, ⟨listed, named⟩, same⟩

/-- **A refresh forgets nothing that came from a failed request exactly when its
successful answers list all of it**: what they do not list is gone. -/
theorem refresh_remembers_iff (state : AppState) (upstream : Upstream) (origin : Provenance) :
    Remembers upstream origin state.bmh (refreshed state upstream).bmh ↔
      Relisted upstream origin state.bmh := by
  obtain ⟨labels, hosts⟩ := refreshed_records state upstream
  constructor
  · rintro ⟨names_kept, labels_kept, hosts_kept⟩
    rw [labels, records_kept_iff] at labels_kept
    rw [hosts, records_kept_iff] at hosts_kept
    refine ⟨fun ip hostname held failed => ?_, fun hostname recorded failed => ?_⟩
    · rcases names_kept ip hostname held failed with
        still | ⟨other, -, named⟩ | ⟨other, -, named⟩
      · exact ⟨ip, hostname, refreshed_names_sound still, Or.inl rfl⟩
      · exact ⟨ip, other, named, Or.inl rfl⟩
      · exact ⟨other, hostname, named, Or.inr rfl⟩
    · rcases recorded with labelled | known
      · exact labels_kept hostname labelled failed
      · exact hosts_kept hostname known failed
  · rintro ⟨names_listed, records_listed⟩
    refine ⟨fun ip hostname held failed => ?_, ?_, ?_⟩
    · obtain ⟨ip', hostname', named, same⟩ := names_listed ip hostname held failed
      by_cases here : ip' = ip
      · subst here
        obtain ⟨now, rebuilt⟩ := refreshed_names_complete state named
        by_cases kept : now = hostname
        · exact Or.inl (kept ▸ rebuilt)
        · exact Or.inr (Or.inl ⟨now, kept, refreshed_names_sound rebuilt⟩)
      · obtain rfl : hostname' = hostname := same.resolve_left here
        exact Or.inr (Or.inr ⟨ip', here, named⟩)
    · rw [labels, records_kept_iff]
      exact fun hostname labelled => records_listed hostname (Or.inl labelled)
    · rw [hosts, records_kept_iff]
      exact fun hostname known => records_listed hostname (Or.inr known)

/-- One host is listed, and then its network cannot be reached. -/
theorem unreachable_network_forgets :
    let first := refreshed freshApp ⟨[("g10", .listed [labelledHost "10.0.0.5" "worker"])], []⟩
    let outage : Upstream := ⟨[("g10", .unreachable)], []⟩
    ¬ Remembers outage ⟨fun _ => .network "g10", fun _ => .network "g10"⟩ first.bmh
      (refreshed first outage).bmh := by
  intro first outage remembers
  have known : first.bmh.ipToHostname.lookup (.v4 10 0 0 5) = some "server1" := by decide +kernel
  rcases remembers.names _ _ known ⟨.unreachable, by simp [outage], rfl⟩ with
    still | ⟨_, _, named⟩ | ⟨_, _, named⟩
  · cases still
  · rcases named with ⟨_, ⟨⟩, _⟩ | ⟨_, ⟨⟩, _⟩
  · rcases named with ⟨_, ⟨⟩, _⟩ | ⟨_, ⟨⟩, _⟩

end CloudId
