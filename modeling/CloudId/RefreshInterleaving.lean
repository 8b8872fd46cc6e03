import CloudId.RebuildInterleaving
import CloudId.RefreshFailures

/-! `periodic_refresh` between the cache rebuilds of the other watchers and the requests
that are resolved on demand, with the same answers of the upstream at every refresh.
`load_all_bmh` empties and refills the records under one write lock; each lease source is
added under another one, so hosts that only a lease names are absent for a while. The
refresh ends with a rebuild of its own, which like every rebuild clears the cache while
others may be filling it. -/
namespace CloudId
open GuardedRun

/-! ## The steps -/

/-- Where the refresh stands. It has the write lock on the records while it is `loading`
them, and while it is `storing` the leases of a source. -/
inductive RefreshPhase where
  | sleeping
  | loading
  | leases (rest : List LeaseAnswer)
  | storing (answer : LeaseAnswer) (rest : List LeaseAnswer)
  | rebuilding (phase : RebuildPhase)

def RefreshPhase.writes : RefreshPhase → Bool
  | .loading => true
  | .storing _ _ => true
  | _ => false

/-- A rebuild that has dropped all its locks but one returns in its next step. -/
def RebuildPhase.returns : RebuildPhase → Bool
  | .bmhDropped => true
  | _ => false

/-- A rebuild that has all its locks clears the cache in its next step. -/
def RebuildPhase.clears : RebuildPhase → Bool
  | .locked => true
  | _ => false

/-- The rebuild that ends the refresh. -/
def RefreshPhase.own : RefreshPhase → Option RebuildPhase
  | .rebuilding phase => some phase
  | _ => none

/-- Where a `resolve_on_demand` stands: before or after its look at the cache. -/
inductive LookupPhase where
  | asked (ip : IpAddr)
  | missed (ip : IpAddr)
  deriving DecidableEq

/-- What a step finished: a rebuild, or a lookup. -/
inductive Outcome where
  | rebuilt
  | resolved (ip : IpAddr) (found : Option HostMetadata)
  deriving DecidableEq

/-- `service` holds the data, the cache and the rebuilds of the other watchers;
`refreshed` records that one refresh is complete. -/
structure RefreshWorld where
  service : RebuildWorld
  refresh : RefreshPhase := .sleeping
  lookups : List LookupPhase := []
  refreshed : Bool := false
  last : Option Outcome := none

inductive RefreshMove where
  | refresh
  | call
  | rebuild (index : Nat)
  | ask (ip : IpAddr)
  | lookup (index : Nat)

/-- The shared state with the data and the cache of a world. -/
def RebuildWorld.app (base : AppState) (world : RebuildWorld) : AppState :=
  { base with
    identity := world.identity
    bmh := world.bmh
    containers := world.containers
    metadataCache := world.cache }

/-- The records after the lists of the namespaces, before any lease. -/
def Upstream.listed (upstream : Upstream) (base : AppState) : BmhState :=
  (loadAllBmh base (some upstream.namespaces)).bmh

namespace RefreshWorld

variable [Serialize CloudConfig]

/-- The service before the first refresh. -/
def start (base : AppState) : RefreshWorld where
  service :=
    { identity := base.identity
      bmh := base.bmh
      containers := base.containers
      cache := base.metadataCache }

/-- The refresh takes the write lock on the records, once no rebuild reads them. -/
def writing (base : AppState) (world : RefreshWorld) (change : BmhState → BmhState)
    (phase : RefreshPhase) : RefreshWorld :=
  match world.service.move base.config.metadata (.acquire .bmh) with
  | some service =>
    { world with service := { service with bmh := change service.bmh }, refresh := phase }
  | none => world

/-- It changes them and releases the lock. -/
def written (world : RefreshWorld) (bmh : BmhState) (phase : RefreshPhase) : RefreshWorld :=
  { world with
    service := { world.service with
      bmh
      writing := Function.update world.service.writing .bmh false }
    refresh := phase }

/-- The next step of `periodic_refresh`. -/
def advance (base : AppState) (upstream : Upstream) (world : RefreshWorld) : RefreshWorld :=
  match world.refresh with
  | .sleeping => world.writing base (fun _ => {}) .loading
  | .loading => world.written (upstream.listed base) (.leases upstream.sources)
  | .leases [] => { world with refresh := .rebuilding .waiting }
  | .leases (answer :: rest) =>
    if answer.failed then { world with refresh := .leases rest }
    else world.writing base id (.storing answer rest)
  | .storing answer rest => world.written (loadSource world.service.bmh answer) (.leases rest)
  | .rebuilding phase =>
    match world.service.advance base.config.metadata phase with
    | some (service, some phase) => { world with service, refresh := .rebuilding phase }
    | some (service, none) =>
      { world with service, refresh := .sleeping, refreshed := true, last := some .rebuilt }
    | none => world

/-- The next step of a lookup: the cache, and on a miss the data, once the refresh does not
write them. -/
def look (base : AppState) (world : RefreshWorld) (index : Nat) : RefreshWorld :=
  match world.lookups[index]? with
  | some (.asked ip) =>
    match (world.service.app base).getMetadata ip with
    | some found =>
      { world with
        lookups := world.lookups.eraseIdx index
        last := some (.resolved ip (some found)) }
    | none => { world with lookups := world.lookups.set index (.missed ip) }
  | some (.missed ip) =>
    if world.service.writing .bmh then world
    else
      { world with
        lookups := world.lookups.eraseIdx index
        last := some (.resolved ip ((world.service.app base).resolveUncached ip)) }
  | none => world

/-- One move; one that has to wait changes nothing. -/
def step (base : AppState) (upstream : Upstream) (world : RefreshWorld) :
    RefreshMove → RefreshWorld
  | .refresh => { world with last := none }.advance base upstream
  | .call => { world with
      service := { world.service with rebuilds := world.service.rebuilds ++ [.waiting] }
      last := none }
  | .rebuild index =>
    match world.service.move base.config.metadata (.rebuild index) with
    | some service =>
      { world with
        service
        last := if world.service.rebuilds[index]?.any RebuildPhase.returns then some .rebuilt
          else none }
    | none => { world with last := none }
  | .ask ip => { world with lookups := world.lookups ++ [.asked ip], last := none }
  | .lookup index => { world with last := none }.look base index

/-- The rebuilds in progress, that of the refresh among them. -/
def inProgress (world : RefreshWorld) : List RebuildPhase :=
  world.refresh.own.toList ++ world.service.rebuilds

end RefreshWorld

/-! ## What a refresh keeps -/

/-- Some entry has metadata for the address. -/
def FoundIn {α : Type} (ip : IpAddr) (resolve : IpAddr → α → Option HostMetadata)
    (entries : List (IpAddr × α)) : Prop :=
  ∃ entry ∈ entries, entry.1 = ip ∧ (resolve ip entry.2).isSome

section Property

variable [Serialize CloudConfig] (base : AppState) (upstream : Upstream) (ip : IpAddr)

/-- A rebuild that has cleared the cache has yet to insert the address. -/
def Owes (world : RebuildWorld) : RebuildPhase → Prop
  | .hosts rest =>
    FoundIn ip (bmhMetadata world.identity world.bmh base.config.metadata) rest ∨
      FoundIn ip (containerMetadata world.identity world.containers base.config.metadata)
        world.containers.ipToContainer.toList
  | .containers rest =>
    FoundIn ip (containerMetadata world.identity world.containers base.config.metadata) rest
  | _ => False

/-- After the first refresh, each rebuild that returns leaves the address in the cache, and
each lookup resolves it. -/
def Served (world : RefreshWorld) : Prop :=
  world.refreshed = true → ∀ outcome ∈ world.last, match outcome with
    | .rebuilt => ip ∈ world.service.cache
    | .resolved asked found => asked = ip → found.isSome

/-- The address resolves without leases, or the lease that names it is loaded. -/
def Known (world : RefreshWorld) : Prop :=
  (AppState.resolveUncached { base with bmh := upstream.listed base } ip).isSome ∨
    ip ∈ world.service.bmh.ipToHostname

/-- The move lets a rebuild return. -/
def Returns (world : RefreshWorld) : RefreshMove → Prop
  | .refresh => world.refresh.own.any RebuildPhase.returns = true
  | .rebuild index => world.refreshed = true ∧
      world.service.rebuilds[index]?.any RebuildPhase.returns = true
  | _ => False

/-- The move goes by the data: a rebuild clears the cache to fill it from them, or a lookup
reads them. -/
def Reads (world : RefreshWorld) : RefreshMove → Prop
  | .rebuild index => world.service.rebuilds[index]?.any RebuildPhase.clears = true
  | .lookup index => world.lookups[index]? = some (.missed ip)
  | _ => False

/-- No rebuild returns while another one has yet to insert the address, and after the first
refresh none begins to fill the cache, and no lookup reads the data, while the lease that
alone names the address is not loaded again. -/
def Settled (world : RefreshWorld) (move : RefreshMove) : Prop :=
  (Returns world move → ∀ phase ∈ world.inProgress, ¬ Owes base ip world.service phase) ∧
    (world.refreshed = true → Reads ip world move → Known base upstream ip world)

instance {α : Type} (resolve : IpAddr → α → Option HostMetadata) (entries : List (IpAddr × α)) :
    Decidable (FoundIn ip resolve entries) :=
  inferInstanceAs (Decidable (∃ entry ∈ entries, _ ∧ _))

instance (world : RebuildWorld) : (phase : RebuildPhase) → Decidable (Owes base ip world phase)
  | .hosts _ => inferInstanceAs (Decidable (_ ∨ _))
  | .containers _ => inferInstanceAs (Decidable (FoundIn ..))
  | .waiting | .identityHeld | .bmhHeld | .locked | .containersDropped | .bmhDropped =>
    .isFalse id

instance (world : RefreshWorld) : Decidable (Known base upstream ip world) :=
  inferInstanceAs (Decidable (_ ∨ _))

instance (world : RefreshWorld) : (move : RefreshMove) → Decidable (Returns world move)
  | .refresh => inferInstanceAs (Decidable (_ = true))
  | .rebuild _ => inferInstanceAs (Decidable (_ = true ∧ _ = true))
  | .call | .ask _ | .lookup _ => .isFalse id

instance (world : RefreshWorld) : (move : RefreshMove) → Decidable (Reads ip world move)
  | .rebuild _ => inferInstanceAs (Decidable (_ = true))
  | .lookup _ => inferInstanceAs (Decidable (_ = some _))
  | .refresh | .call | .ask _ => .isFalse id

instance (world : RefreshWorld) (move : RefreshMove) :
    Decidable (Settled base upstream ip world move) :=
  inferInstanceAs (Decidable ((_ → _) ∧ (_ → _)))

end Property

/-! ## Resolving from parts of the data -/

theorem found_in_cons {α : Type} {ip : IpAddr} {resolve : IpAddr → α → Option HostMetadata}
    {entry : IpAddr × α} {rest : List (IpAddr × α)} :
    FoundIn ip resolve (entry :: rest) ↔
      (entry.1 = ip ∧ (resolve ip entry.2).isSome) ∨ FoundIn ip resolve rest := by
  simp [FoundIn]

theorem found_in_to_list {α : Type} {ip : IpAddr} {resolve : IpAddr → α → Option HostMetadata}
    {m : HashMap IpAddr α} :
    FoundIn ip resolve m.toList ↔ ((m.lookup ip).bind (resolve ip)).isSome := by
  constructor
  · rintro ⟨⟨_, value⟩, listed, rfl, found⟩
    rw [HashMap.lookup_eq_some.mpr listed]
    exact found
  · intro found
    obtain ⟨metadata, bound⟩ := Option.isSome_iff_exists.mp found
    obtain ⟨value, held, resolved⟩ := Option.bind_eq_some_iff.mp bound
    exact ⟨(ip, value), HashMap.lookup_eq_some.mp held, rfl, by rw [resolved]; rfl⟩

section Resolve

variable [Serialize CloudConfig] {base : AppState} {upstream : Upstream} {ip : IpAddr}

/-- What a rebuild owes when it has just cleared the cache is what resolves. -/
theorem owes_all_iff (world : RebuildWorld) :
    Owes base ip world (.hosts world.bmh.ipToHostname.toList) ↔
      ((world.app base).resolveUncached ip).isSome := by
  rw [Owes, found_in_to_list, found_in_to_list, resolve_uncached_eq, Option.isSome_or,
    Bool.or_eq_true]
  rfl

/-- With the identity data and the containers of the base, only the records matter. -/
theorem app_resolves {world : RebuildWorld} (identity : world.identity = base.identity)
    (containers : world.containers = base.containers) :
    (world.app base).resolveUncached ip =
      AppState.resolveUncached { base with bmh := world.bmh } ip := by
  rw [resolve_uncached_eq, resolve_uncached_eq]
  simp only [RebuildWorld.app, identity, containers]

/-- More names resolve more. -/
theorem resolves_mono {before after : BmhState} (adds : AddsNames before after)
    (resolved : (AppState.resolveUncached { base with bmh := before } ip).isSome) :
    (AppState.resolveUncached { base with bmh := after } ip).isSome := by
  rw [resolve_uncached_eq, Option.isSome_or, Bool.or_eq_true] at resolved ⊢
  rcases resolved with host | container
  · left
    cases held : before.ipToHostname.lookup ip with
    | none => simp [held] at host
    | some hostname =>
      simpa [held, adds.names ip hostname held, bmhMetadata, adds.labels] using host
  · exact Or.inr container

/-- A name that is there already resolves like the names to come. -/
theorem resolves_known {before after : BmhState} (adds : AddsNames before after)
    (known : ip ∈ before.ipToHostname)
    (resolved : (AppState.resolveUncached { base with bmh := after } ip).isSome) :
    (AppState.resolveUncached { base with bmh := before } ip).isSome := by
  obtain ⟨hostname, held⟩ := Option.isSome_iff_exists.mp (AList.lookup_isSome.mpr known)
  rw [resolve_uncached_eq, Option.isSome_or, Bool.or_eq_true] at resolved ⊢
  simpa [held, adds.names ip hostname held, bmhMetadata, adds.labels] using resolved

omit [Serialize CloudConfig] in
theorem adds_names_sources (sources : List LeaseAnswer) (bmh : BmhState) :
    AddsNames bmh (sources.foldl loadSource bmh) := by
  rw [load_sources_eq]
  exact AddsNames.leases _ _

end Resolve

/-! ## One step of a rebuild -/

section Rebuild

variable [Serialize CloudConfig] {base : AppState} {ip : IpAddr} {world next : RebuildWorld}
  {phase : RebuildPhase} {phase' : Option RebuildPhase}

/-- The data and the locks, without the cache and the rebuilds. -/
structure DataKept (first second : RebuildWorld) : Prop where
  identity : second.identity = first.identity
  bmh : second.bmh = first.bmh
  containers : second.containers = first.containers

theorem DataKept.owes {first second : RebuildWorld} (same : DataKept first second)
    (phase : RebuildPhase) : Owes base ip second phase ↔ Owes base ip first phase := by
  cases phase <;> simp only [Owes, same.identity, same.bmh, same.containers]

theorem advance_keeps_data
    (advanced : world.advance base.config.metadata phase = some (next, phase')) :
    DataKept world next ∧ next.rebuilds = world.rebuilds := by
  cases phase with
  | waiting | identityHeld | bmhHeld =>
    simp only [RebuildWorld.advance, Option.ite_none_left_eq_some, Option.some.injEq,
      Prod.mk.injEq] at advanced
    obtain ⟨-, rfl, -⟩ := advanced
    exact ⟨⟨rfl, rfl, rfl⟩, rfl⟩
  | hosts rest | containers rest =>
    cases rest <;> cases advanced <;> exact ⟨⟨rfl, rfl, rfl⟩, rfl⟩
  | locked | containersDropped | bmhDropped =>
    cases advanced
    exact ⟨⟨rfl, rfl, rfl⟩, rfl⟩

omit [Serialize CloudConfig] in
theorem mem_insert_resolved {cache : HashMap IpAddr HostMetadata} {own : IpAddr}
    {found : Option HostMetadata} :
    ip ∈ insertResolved cache own found ↔ ip ∈ cache ∨ (own = ip ∧ found.isSome) := by
  cases found with
  | none => simp [insertResolved]
  | some metadata =>
    rw [insertResolved, AList.mem_insert]
    simp [eq_comm, or_comm]

/-- After the clear, a step of a rebuild pays what it does not go on owing. -/
theorem advance_delivers
    (advanced : world.advance base.config.metadata phase = some (next, phase'))
    (filling : phase ≠ .locked) (due : ip ∈ world.cache ∨ Owes base ip world phase) :
    ip ∈ next.cache ∨ ∃ later ∈ phase', Owes base ip next later := by
  cases phase with
  | waiting | identityHeld | bmhHeld =>
    simp only [RebuildWorld.advance, Option.ite_none_left_eq_some, Option.some.injEq,
      Prod.mk.injEq] at advanced
    obtain ⟨-, rfl, -⟩ := advanced
    exact Or.inl (due.resolve_right id)
  | locked => exact absurd rfl filling
  | hosts rest =>
    cases rest with
    | nil =>
      cases advanced
      rcases due with cached | host | container
      · exact Or.inl cached
      · simp [FoundIn] at host
      · exact Or.inr ⟨_, rfl, container⟩
    | cons entry rest =>
      cases advanced
      rw [mem_insert_resolved]
      rcases due with cached | host | container
      · exact Or.inl (Or.inl cached)
      · rcases found_in_cons.mp host with ⟨own, found⟩ | later
        · exact Or.inl (Or.inr ⟨own, own ▸ found⟩)
        · exact Or.inr ⟨_, rfl, Or.inl later⟩
      · exact Or.inr ⟨_, rfl, Or.inr container⟩
  | containers rest =>
    cases rest with
    | nil =>
      cases advanced
      rcases due with cached | container
      · exact Or.inl cached
      · simp [Owes, FoundIn] at container
    | cons entry rest =>
      cases advanced
      rw [mem_insert_resolved]
      rcases due with cached | container
      · exact Or.inl (Or.inl cached)
      · rcases found_in_cons.mp container with ⟨own, found⟩ | later
        · exact Or.inl (Or.inr ⟨own, own ▸ found⟩)
        · exact Or.inr ⟨_, rfl, later⟩
  | containersDropped | bmhDropped =>
    cases advanced
    exact Or.inl (due.resolve_right id)

/-- A clear owes whatever resolves. -/
theorem clear_owes (advanced : world.advance base.config.metadata .locked = some (next, phase'))
    (resolves : ((world.app base).resolveUncached ip).isSome) :
    ∃ later ∈ phase', Owes base ip next later := by
  cases advanced
  exact ⟨_, rfl, (owes_all_iff _).mpr resolves⟩

/-- Who owes something reads the records. -/
theorem Owes.holds (owes : Owes base ip world phase) : phase.holds .bmh = true := by
  cases phase <;> first | exact absurd owes id | rfl

end Rebuild

/-! ## The invariant -/

section Invariant

variable [Serialize CloudConfig] (base : AppState) (upstream : Upstream) (ip : IpAddr)

/-- The records at each stage of the refresh. Under the write lock of `load_all_bmh` nobody
sees them. -/
def RecordsAt (refreshed : Bool) (bmh : BmhState) : RefreshPhase → Prop
  | .sleeping => refreshed = true → bmh = (CloudId.refreshed base upstream).bmh
  | .loading => True
  | .leases rest => ∃ done, upstream.sources = done ++ rest ∧
      bmh = done.foldl loadSource (upstream.listed base)
  | .storing answer rest => ∃ done, upstream.sources = done ++ answer :: rest ∧
      bmh = done.foldl loadSource (upstream.listed base)
  | .rebuilding _ => bmh = (CloudId.refreshed base upstream).bmh

/-- A rebuild has cleared the cache. -/
def RebuildPhase.cleared : RebuildPhase → Bool
  | .hosts _ => true
  | .containers _ => true
  | .containersDropped => true
  | .bmhDropped => true
  | _ => false

/-- The address is in the cache, or some rebuild has yet to insert it. -/
def Due (service : RebuildWorld) (inProgress : List RebuildPhase) : Prop :=
  ip ∈ service.cache ∨ ∃ phase ∈ inProgress, Owes base ip service phase

/-- What holds from the start on. -/
structure Refreshing (world : RefreshWorld) : Prop where
  identity : world.service.identity = base.identity
  containers : world.service.containers = base.containers
  writer : ∀ lock, world.service.writing lock = true ↔ lock = .bmh ∧ world.refresh.writes = true
  exclusive : Exclusive world.service
  records : RecordsAt base upstream world.refreshed world.service.bmh world.refresh
  due : world.refreshed = true ∨ world.refresh.own.any RebuildPhase.cleared = true →
    Due base ip world.service world.inProgress

end Invariant

section Due

variable [Serialize CloudConfig] {base : AppState} {ip : IpAddr} {service stepped : RebuildWorld}
  {phase : RebuildPhase} {phase' : Option RebuildPhase} {before after : List RebuildPhase}

/-- Without anyone who reads the records nothing is owed. -/
theorem Due.cached {inProgress : List RebuildPhase} (due : Due base ip service inProgress)
    (unread : ∀ phase ∈ inProgress, phase.holds .bmh = false) : ip ∈ service.cache := by
  rcases due with cached | ⟨phase, listed, owes⟩
  · exact cached
  · exact absurd owes.holds (by simp [unread phase listed])

theorem Due.advance (due : Due base ip service (before ++ phase :: after))
    (advanced : service.advance base.config.metadata phase = some (stepped, phase'))
    (filling : phase ≠ .locked) : Due base ip stepped (before ++ phase'.toList ++ after) := by
  have kept := (advance_keeps_data advanced).1
  have others : ∀ other, other ∈ before ∨ other ∈ after → Owes base ip service other →
      Due base ip stepped (before ++ phase'.toList ++ after) := by
    intro other listed owes
    refine Or.inr ⟨other, ?_, (kept.owes other).mpr owes⟩
    rcases listed with listed | listed <;> simp [listed]
  have own : ip ∈ service.cache ∨ Owes base ip service phase →
      Due base ip stepped (before ++ phase'.toList ++ after) := by
    intro due
    rcases advance_delivers advanced filling due with cached | ⟨later, goes_on, owes⟩
    · exact Or.inl cached
    · exact Or.inr ⟨later, by simp [Option.mem_def.mp goes_on], owes⟩
  rcases due with cached | ⟨other, listed, owes⟩
  · exact own (Or.inl cached)
  · rcases List.mem_append.mp listed with listed | listed
    · exact others other (Or.inl listed) owes
    · rcases List.mem_cons.mp listed with rfl | listed
      · exact own (Or.inr owes)
      · exact others other (Or.inr listed) owes

theorem Due.clear (resolves : ((service.app base).resolveUncached ip).isSome)
    (advanced : service.advance base.config.metadata .locked = some (stepped, phase')) :
    Due base ip stepped (before ++ phase'.toList ++ after) := by
  obtain ⟨later, goes_on, owes⟩ := clear_owes advanced resolves
  exact Or.inr ⟨later, by simp [Option.mem_def.mp goes_on], owes⟩

end Due

namespace Refreshing

variable [Serialize CloudConfig] {base : AppState} {upstream : Upstream} {ip : IpAddr}
  {world : RefreshWorld}

theorem start (base : AppState) (upstream : Upstream) (ip : IpAddr) :
    Refreshing base upstream ip (.start base) where
  identity := rfl
  containers := rfl
  writer lock := by simp [RefreshWorld.start, RefreshPhase.writes]
  exclusive lock writing := by simp [RefreshWorld.start] at writing
  records := by
    intro refreshed
    cases refreshed
  due := by rintro (refreshed | cleared) <;> contradiction

/-- With the records of a complete refresh, what it resolves is resolved. -/
theorem resolves_full (refreshing : Refreshing base upstream ip world)
    (resolvable : ((refreshed base upstream).resolveUncached ip).isSome)
    (full : world.service.bmh = (refreshed base upstream).bmh) :
    ((world.service.app base).resolveUncached ip).isSome := by
  rw [app_resolves refreshing.identity refreshing.containers, full, resolve_uncached_eq]
  rwa [resolve_uncached_eq] at resolvable

/-- While nobody writes the records, what is known resolves. -/
theorem resolves (refreshing : Refreshing base upstream ip world)
    (resolvable : ((refreshed base upstream).resolveUncached ip).isSome)
    (once : world.refreshed = true) (unwritten : world.refresh.writes = false)
    (known : Known base upstream ip world) :
    ((world.service.app base).resolveUncached ip).isSome := by
  have records := refreshing.records
  cases stage : world.refresh with
  | sleeping =>
    rw [stage] at records
    exact refreshing.resolves_full resolvable (records once)
  | rebuilding phase =>
    rw [stage] at records
    exact refreshing.resolves_full resolvable records
  | loading | storing answer rest =>
    rw [stage] at unwritten
    cases unwritten
  | leases rest =>
    rw [stage] at records
    obtain ⟨done, sources, loaded⟩ := records
    rw [app_resolves refreshing.identity refreshing.containers]
    rcases known with listed | named
    · rw [loaded]
      exact resolves_mono (adds_names_sources done _) listed
    · have all : (refreshed base upstream).bmh = rest.foldl loadSource world.service.bmh := by
        rw [loaded, ← List.foldl_append, ← sources]
        rfl
      refine resolves_known (all ▸ adds_names_sources rest _) named ?_
      rwa [resolve_uncached_eq] at resolvable ⊢

theorem unchanged (refreshing : Refreshing base upstream ip world) (lookups : List LookupPhase)
    (last : Option Outcome) : Refreshing base upstream ip { world with lookups, last } where
  identity := refreshing.identity
  containers := refreshing.containers
  writer := refreshing.writer
  exclusive := refreshing.exclusive
  records := refreshing.records
  due := refreshing.due

/-- A step that leaves the data and the locks alone. -/
theorem keep (refreshing : Refreshing base upstream ip world) {next : RefreshWorld}
    (kept : DataKept world.service next.service)
    (writing : next.service.writing = world.service.writing)
    (writes : next.refresh.writes = world.refresh.writes) (exclusive : Exclusive next.service)
    (records : RecordsAt base upstream next.refreshed next.service.bmh next.refresh)
    (due : next.refreshed = true ∨ next.refresh.own.any RebuildPhase.cleared = true →
      Due base ip next.service next.inProgress) : Refreshing base upstream ip next where
  identity := kept.identity.trans refreshing.identity
  containers := kept.containers.trans refreshing.containers
  writer := by
    intro lock
    rw [writing, writes]
    exact refreshing.writer lock
  exclusive := exclusive
  records := records
  due := due

/-- While the refresh writes the records, no rebuild reads them. -/
theorem unread (refreshing : Refreshing base upstream ip world)
    (writes : world.refresh.writes = true) :
    ∀ phase ∈ world.service.rebuilds, phase.holds .bmh = false :=
  refreshing.exclusive .bmh ((refreshing.writer .bmh).mpr ⟨rfl, writes⟩)

/-- The refresh takes the write lock. -/
theorem writing (refreshing : Refreshing base upstream ip world)
    (change : BmhState → BmhState) {phase : RefreshPhase} (writes : phase.writes = true)
    (alone : world.refresh.own = none)
    (records : RecordsAt base upstream world.refreshed (change world.service.bmh) phase) :
    Refreshing base upstream ip (world.writing base change phase) := by
  rw [RefreshWorld.writing]
  split
  · rename_i service moved
    have exclusive := move_keeps_exclusive refreshing.exclusive moved
    simp only [RebuildWorld.move, Option.ite_none_left_eq_some, not_or, Option.some.injEq,
      List.any_eq_true, not_exists, not_and, Bool.not_eq_true] at moved
    obtain ⟨⟨unwritten, unread⟩, rfl⟩ := moved
    exact {
      identity := refreshing.identity
      containers := refreshing.containers
      writer := by
        intro lock
        by_cases own : lock = .bmh
        · simp [own, writes]
        · simp only [Function.update_of_ne own, refreshing.writer lock, own, false_and]
      exclusive := exclusive
      records := records
      due := by
        rintro (once | cleared)
        · have due := refreshing.due (Or.inl once)
          rw [RefreshWorld.inProgress, alone] at due
          exact Or.inl (due.cached unread)
        · cases phase <;> first | cases cleared | cases writes }
  · exact refreshing

/-- It releases the lock after its change. -/
theorem written (refreshing : Refreshing base upstream ip world)
    (writes : world.refresh.writes = true) {bmh : BmhState} {rest : List LeaseAnswer}
    (records : RecordsAt base upstream world.refreshed bmh (.leases rest)) :
    Refreshing base upstream ip (world.written bmh (.leases rest)) where
  identity := refreshing.identity
  containers := refreshing.containers
  writer := by
    intro lock
    by_cases own : lock = .bmh
    · simp [RefreshWorld.written, RefreshPhase.writes, own]
    · simp only [RefreshWorld.written, RefreshPhase.writes, Function.update_of_ne own,
        refreshing.writer lock, own, false_and]
  exclusive := by
    intro lock writing phase listed
    by_cases own : lock = .bmh
    · simp [RefreshWorld.written, own] at writing
    · simp only [RefreshWorld.written, Function.update_of_ne own] at writing
      exact refreshing.exclusive lock writing phase listed
  records := records
  due := by
    rintro (once | cleared)
    · have alone : world.refresh.own = none := by
        cases stage : world.refresh <;> first | rfl | (rw [stage] at writes; cases writes)
      have due := refreshing.due (Or.inl once)
      rw [RefreshWorld.inProgress, alone] at due
      exact Or.inl (due.cached (refreshing.unread writes))
    · cases cleared

/-- What a rebuild that has cleared the cache comes from. -/
theorem cleared_before {service stepped : RebuildWorld} {phase later : RebuildPhase}
    (advanced : service.advance base.config.metadata phase = some (stepped, some later))
    (filling : phase ≠ .locked) (cleared : later.cleared = true) : phase.cleared = true := by
  cases phase with
  | waiting | identityHeld | bmhHeld =>
    simp only [RebuildWorld.advance, Option.ite_none_left_eq_some, Option.some.injEq,
      Prod.mk.injEq] at advanced
    obtain ⟨-, -, rfl⟩ := advanced
    cases cleared
  | locked => exact absurd rfl filling
  | hosts rest | containers rest | containersDropped | bmhDropped => rfl

/-- A rebuild returns with the cache as it was. -/
theorem returned {service stepped : RebuildWorld} {phase : RebuildPhase}
    (advanced : service.advance base.config.metadata phase = some (stepped, none)) :
    phase = .bmhDropped ∧ stepped = service := by
  cases phase with
  | waiting | identityHeld | bmhHeld => simp [RebuildWorld.advance] at advanced
  | hosts rest | containers rest => cases rest <;> cases advanced
  | locked | containersDropped => cases advanced
  | bmhDropped =>
    cases advanced
    exact ⟨rfl, rfl⟩

/-- The rebuild that ends the refresh goes on. -/
theorem own_rebuild (refreshing : Refreshing base upstream ip world)
    (resolvable : ((refreshed base upstream).resolveUncached ip).isSome) {phase : RebuildPhase}
    (stage : world.refresh = .rebuilding phase) :
    Refreshing base upstream ip (world.advance base upstream) := by
  have records := refreshing.records
  have due := refreshing.due
  simp only [stage, RefreshPhase.own, Option.any_some, RefreshWorld.inProgress,
    Option.toList_some] at due
  rw [stage] at records
  have unwritten : ∀ lock, world.service.writing lock = false := by
    intro lock
    rw [Bool.eq_false_iff, ne_eq, refreshing.writer, stage]
    rintro ⟨-, writes⟩
    cases writes
  have writes : RefreshPhase.writes (.rebuilding phase) = world.refresh.writes := by rw [stage]
  simp only [RefreshWorld.advance, stage]
  split
  · rename_i service later advanced
    obtain ⟨kept, others⟩ := advance_keeps_data advanced
    have writers := (advance_locks advanced).1
    refine refreshing.keep kept writers writes ?_ (kept.bmh.trans records) fun since => ?_
    · intro lock writing
      rw [writers, unwritten] at writing
      cases writing
    · show Due base ip service ([] ++ (some later).toList ++ service.rebuilds)
      rw [others]
      by_cases locked : phase = .locked
      · subst locked
        exact Due.clear (refreshing.resolves_full resolvable records) advanced
      · refine Due.advance (due ?_) advanced locked
        exact since.imp id (cleared_before advanced locked)
  · rename_i service advanced
    obtain ⟨rfl, rfl⟩ := returned advanced
    refine refreshing.keep ⟨rfl, rfl, rfl⟩ rfl writes refreshing.exclusive (fun _ => records)
      fun _ => ?_
    have owed : Due base ip world.service ([] ++ .bmhDropped :: world.service.rebuilds) :=
      due (Or.inr rfl)
    show Due base ip world.service ([] ++ (none : Option RebuildPhase).toList ++ _)
    exact Due.advance owed advanced (by simp)
  · exact refreshing

/-- The rebuild of another watcher goes on. -/
theorem other_rebuild (refreshing : Refreshing base upstream ip world)
    (resolvable : ((refreshed base upstream).resolveUncached ip).isSome) {index : Nat}
    {service : RebuildWorld}
    (moved : world.service.move base.config.metadata (.rebuild index) = some service)
    (settled : Settled base upstream ip world (.rebuild index)) :
    Refreshing base upstream ip { world with service } := by
  obtain ⟨before, phase, after, stepped, phase', split, advanced, rfl, found⟩ := move_rebuild moved
  have exclusive := move_keeps_exclusive refreshing.exclusive moved
  have kept := (advance_keeps_data advanced).1
  have writers := (advance_locks advanced).1
  refine refreshing.keep ⟨kept.identity, kept.bmh, kept.containers⟩ writers rfl exclusive ?_
    fun since => ?_
  · show RecordsAt base upstream world.refreshed stepped.bmh world.refresh
    rw [kept.bmh]
    exact refreshing.records
  · have due := refreshing.due since
    rw [RefreshWorld.inProgress, split, ← List.append_assoc] at due
    show Due base ip stepped (world.refresh.own.toList ++ (before ++ phase'.toList ++ after))
    rw [← List.append_assoc, ← List.append_assoc]
    by_cases locked : phase = .locked
    · subst locked
      refine Due.clear ?_ advanced
      rcases since with once | cleared
      · have unwritten : world.refresh.writes = false := by
          rw [Bool.eq_false_iff]
          intro writes
          have unread := refreshing.unread writes .locked (by simp [split])
          cases unread
        refine refreshing.resolves resolvable once unwritten (settled.2 once ?_)
        rw [Reads, found]
        rfl
      · cases stage : world.refresh with
        | rebuilding own =>
          have records := refreshing.records
          rw [stage] at records
          exact refreshing.resolves_full resolvable records
        | _ =>
          rw [stage] at cleared
          cases cleared
    · exact Due.advance due advanced locked

/-- A step of the refresh. -/
theorem advance (refreshing : Refreshing base upstream ip world)
    (resolvable : ((refreshed base upstream).resolveUncached ip).isSome) :
    Refreshing base upstream ip (world.advance base upstream) := by
  have records := refreshing.records
  have due := refreshing.due
  cases stage : world.refresh with
  | sleeping =>
    simp only [RefreshWorld.advance, stage]
    exact refreshing.writing _ rfl (by rw [stage]; rfl) trivial
  | loading =>
    simp only [RefreshWorld.advance, stage]
    exact refreshing.written (by rw [stage]; rfl) ⟨[], rfl, rfl⟩
  | leases rest =>
    rw [stage] at records due
    obtain ⟨done, sources, loaded⟩ := records
    cases rest with
    | nil =>
      simp only [RefreshWorld.advance, stage]
      refine refreshing.keep ⟨rfl, rfl, rfl⟩ rfl (by rw [stage]; rfl) refreshing.exclusive ?_ ?_
      · show world.service.bmh = (refreshed base upstream).bmh
        rw [loaded, refreshed, loadDhcpLeases, sources, List.append_nil]
        rfl
      · rintro (once | ⟨⟨⟩⟩)
        rcases due (Or.inl once) with cached | ⟨phase, listed, owes⟩
        · exact Or.inl cached
        · rw [RefreshWorld.inProgress, stage] at listed
          exact Or.inr ⟨phase, List.mem_cons_of_mem _ listed, owes⟩
    | cons answer rest =>
      simp only [RefreshWorld.advance, stage]
      split
      · rename_i failed
        have nothing : loadSource world.service.bmh answer = world.service.bmh := by
          cases answer <;> first | rfl | cases failed
        refine refreshing.keep ⟨rfl, rfl, rfl⟩ rfl (by rw [stage]; rfl) refreshing.exclusive ?_ ?_
        · refine ⟨done ++ [answer], by simp [sources], ?_⟩
          rw [List.foldl_append, ← loaded, List.foldl_cons, nothing]
          rfl
        · rw [RefreshWorld.inProgress, stage] at due
          exact due
      · exact refreshing.writing id rfl (by rw [stage]; rfl) ⟨done, sources, loaded⟩
  | storing answer rest =>
    rw [stage] at records
    obtain ⟨done, sources, loaded⟩ := records
    simp only [RefreshWorld.advance, stage]
    refine refreshing.written (by rw [stage]; rfl) ⟨done ++ [answer], by simp [sources], ?_⟩
    rw [List.foldl_append, ← loaded]
    rfl
  | rebuilding phase => exact refreshing.own_rebuild resolvable stage

theorem step (refreshing : Refreshing base upstream ip world)
    (resolvable : ((refreshed base upstream).resolveUncached ip).isSome) (move : RefreshMove)
    (settled : Settled base upstream ip world move) :
    Refreshing base upstream ip (world.step base upstream move) := by
  cases move with
  | refresh => exact (refreshing.unchanged world.lookups none).advance resolvable
  | call =>
    refine refreshing.keep ⟨rfl, rfl, rfl⟩ rfl rfl ?_ refreshing.records fun since => ?_
    · intro lock writing phase listed
      rcases List.mem_append.mp listed with listed | new
      · exact refreshing.exclusive lock writing phase listed
      · rw [List.mem_singleton.mp new]
        rfl
    · rcases refreshing.due since with cached | ⟨phase, listed, owes⟩
      · exact Or.inl cached
      · refine Or.inr ⟨phase, ?_, owes⟩
        show phase ∈ world.refresh.own.toList ++ (world.service.rebuilds ++ [.waiting])
        rw [← List.append_assoc]
        exact List.mem_append_left _ listed
  | rebuild index =>
    rw [RefreshWorld.step]
    split
    · rename_i service moved
      exact (refreshing.other_rebuild resolvable moved settled).unchanged world.lookups _
    · exact refreshing.unchanged world.lookups none
  | ask asked => exact refreshing.unchanged _ none
  | lookup index =>
    simp only [RefreshWorld.step, RefreshWorld.look]
    split
    · split
      · exact refreshing.unchanged _ _
      · exact refreshing.unchanged _ none
    · split
      · exact refreshing.unchanged _ none
      · exact refreshing.unchanged _ _
    · exact refreshing.unchanged _ none

theorem writing_last (change : BmhState → BmhState) (phase : RefreshPhase) :
    (world.writing base change phase).last = world.last := by
  rw [RefreshWorld.writing]
  split <;> rfl

/-- The refresh finishes nothing but its rebuild. -/
theorem advance_finishes (idle : world.last = none) {outcome : Outcome}
    (finished : outcome ∈ (world.advance base upstream).last) :
    outcome = .rebuilt ∧ world.refresh = .rebuilding .bmhDropped ∧
      (world.advance base upstream).service = world.service := by
  have nothing : outcome ∉ world.last := by simp [idle]
  cases stage : world.refresh with
  | sleeping =>
    simp only [RefreshWorld.advance, stage, writing_last] at finished
    exact absurd finished nothing
  | loading | storing answer rest =>
    simp only [RefreshWorld.advance, stage, RefreshWorld.written] at finished
    exact absurd finished nothing
  | leases rest =>
    cases rest with
    | nil =>
      simp only [RefreshWorld.advance, stage] at finished
      exact absurd finished nothing
    | cons answer rest =>
      simp only [RefreshWorld.advance, stage] at finished
      split at finished
      · exact absurd finished nothing
      · rw [writing_last] at finished
        exact absurd finished nothing
  | rebuilding phase =>
    simp only [RefreshWorld.advance, stage] at finished ⊢
    split at finished
    · exact absurd finished nothing
    · rename_i service advanced
      obtain ⟨rfl, rfl⟩ := returned advanced
      cases finished
      exact ⟨rfl, rfl, rfl⟩
    · exact absurd finished nothing

theorem look_refreshed (index : Nat) : (world.look base index).refreshed = world.refreshed := by
  rw [RefreshWorld.look]
  split
  · split <;> rfl
  · split <;> rfl
  · rfl

/-- A lookup finishes with what it found in the cache, or with what the data resolve. -/
theorem look_finishes (idle : world.last = none) {index : Nat} {outcome : Outcome}
    (finished : outcome ∈ (world.look base index).last) :
    ∃ asked found, outcome = .resolved asked found ∧ (found.isSome ∨
      world.lookups[index]? = some (.missed asked) ∧ world.service.writing .bmh = false ∧
        found = (world.service.app base).resolveUncached asked) := by
  have nothing : outcome ∉ world.last := by simp [idle]
  rw [RefreshWorld.look] at finished
  split at finished
  · split at finished
    · cases finished
      exact ⟨_, _, rfl, Or.inl rfl⟩
    · exact absurd finished nothing
  · rename_i asked found
    split at finished
    · exact absurd finished nothing
    · rename_i free
      cases finished
      exact ⟨_, _, rfl, Or.inr ⟨found, by simpa using free, rfl⟩⟩
  · exact absurd finished nothing

/-- When no rebuild has yet to insert the address, it is in the cache. -/
theorem cached (refreshing : Refreshing base upstream ip world)
    (since : world.refreshed = true ∨ world.refresh.own.any RebuildPhase.cleared = true)
    (paid : ∀ phase ∈ world.inProgress, ¬ Owes base ip world.service phase) :
    ip ∈ world.service.cache := by
  rcases refreshing.due since with there | ⟨phase, listed, owes⟩
  · exact there
  · exact absurd owes (paid phase listed)

/-- What is finished in a step is as it should be. -/
theorem served (refreshing : Refreshing base upstream ip world)
    (resolvable : ((refreshed base upstream).resolveUncached ip).isSome) (move : RefreshMove)
    (settled : Settled base upstream ip world move) :
    Served ip (world.step base upstream move) := by
  intro once outcome finished
  cases move with
  | refresh =>
    have finished : outcome ∈ ({ world with last := none }.advance base upstream).last := finished
    obtain ⟨rfl, stage, same⟩ := advance_finishes rfl finished
    show ip ∈ ({ world with last := none }.advance base upstream).service.cache
    rw [same]
    refine refreshing.cached (Or.inr (by rw [stage]; rfl)) (settled.1 ?_)
    rw [Returns, show world.refresh = _ from stage]
    rfl
  | call => cases finished
  | rebuild index =>
    simp only [RefreshWorld.step] at once finished ⊢
    split at once
    · rename_i service moved
      simp only [moved] at finished ⊢
      split at finished
      · rename_i returning
        cases finished
        obtain ⟨before, phase, after, stepped, phase', split, advanced, rfl, found⟩ :=
          move_rebuild moved
        obtain rfl : phase = .bmhDropped := by
          rw [found] at returning
          cases phase <;> first | rfl | cases returning
        cases advanced
        exact refreshing.cached (Or.inl once) (settled.1 ⟨once, returning⟩)
      · cases finished
    · rename_i blocked
      simp only [blocked] at finished
      cases finished
  | ask asked => cases finished
  | lookup index =>
    have finished : outcome ∈ ({ world with last := none }.look base index).last := finished
    obtain ⟨asked, found, rfl, cached | ⟨missed, free, rfl⟩⟩ := look_finishes rfl finished
    · exact fun _ => cached
    · rintro rfl
      have once : world.refreshed = true := by
        rw [RefreshWorld.step, look_refreshed] at once
        exact once
      refine refreshing.resolves resolvable once ?_ (settled.2 once missed)
      rw [Bool.eq_false_iff]
      intro writes
      rw [show world.service.writing .bmh = true from
        (refreshing.writer .bmh).mpr ⟨rfl, writes⟩] at free
      cases free

end Refreshing

section Codec

variable [Serialize CloudConfig]

/-- **After the first refresh a host stays in sight**: every rebuild that returns leaves its
address in the cache and every lookup resolves it, in every run in which no rebuild returns
while another one has yet to insert the address, and nothing goes by the records while the
lease that alone names it is not loaded again. Without leases the latter needs no care. -/
theorem refresh_keeps_host (base : AppState) (upstream : Upstream) (ip : IpAddr)
    (resolvable : ((refreshed base upstream).resolveUncached ip).isSome)
    (moves : List RefreshMove)
    (settled : Each (RefreshWorld.step base upstream) (Settled base upstream ip) (.start base)
      moves) :
    Throughout (RefreshWorld.step base upstream) (Served ip) (.start base) moves := by
  have both := throughout_of_each
    (fun world => Refreshing base upstream ip world ∧ Served ip world)
    (fun world move holds met =>
      ⟨holds.1.step resolvable move met, holds.1.served resolvable move met⟩)
    ⟨Refreshing.start base upstream ip, fun once => by cases once⟩ settled
  exact both.mono fun world holds => holds.2

end Codec

/-! ## Hosts that disappear -/

/-- The rules name alice on every host; no host is known yet. -/
def beforeRefresh : AppState where
  identity := overlappingRules
  templateStore := { dataDir := "/var/lib/cloudid" }
  config := { metadata := localConfig }

/-- One host that only a lease names. -/
def leasedHost : Upstream where
  namespaces := [("g10", .listed [])]
  sources := [.listed [{ ip := "10.0.0.5", hostname := "web1" }]]

attribute [local instance] cloudConfigText

/-- A lookup while another watcher rebuilds the cache. -/
theorem refresh_keeps_host_leased :
    Throughout (RefreshWorld.step beforeRefresh leasedHost) (Served (.v4 10 0 0 5))
      (.start beforeRefresh)
      (List.replicate 14 .refresh ++ .call :: List.replicate 4 (.rebuild 0) ++
        [.ask (.v4 10 0 0 5), .lookup 0, .lookup 0]) :=
  refresh_keeps_host beforeRefresh leasedHost (.v4 10 0 0 5) (by decide +kernel) _
    (by decide +kernel)

/-- One refresh, the list of the next one, and a rebuild of another watcher. -/
def rebuiltBetween : List RefreshMove :=
  List.replicate 16 .refresh ++ .call :: List.replicate 8 (.rebuild 0)

/-- One refresh; two more rebuilds, of which the first returns when the second has cleared
the cache. -/
def rebuiltTwice : List RefreshMove :=
  List.replicate 14 .refresh ++ .call :: .call :: List.replicate 8 (.rebuild 0) ++
    List.replicate 4 (.rebuild 1) ++ [.rebuild 0]

/-- Both runs lose the host, which the first refresh had made resolvable. -/
theorem leased_host_lost :
    ((refreshed beforeRefresh leasedHost).resolveUncached (.v4 10 0 0 5)).isSome ∧
    ¬ Throughout (RefreshWorld.step beforeRefresh leasedHost) (Served (.v4 10 0 0 5))
      (.start beforeRefresh) rebuiltBetween ∧
    ¬ Throughout (RefreshWorld.step beforeRefresh leasedHost) (Served (.v4 10 0 0 5))
      (.start beforeRefresh) rebuiltTwice := by
  refine ⟨by decide +kernel, fun throughout => ?_, fun throughout => ?_⟩
  · have cached : (.v4 10 0 0 5) ∈ (rebuiltBetween.foldl
        (RefreshWorld.step beforeRefresh leasedHost) (.start beforeRefresh)).service.cache :=
      throughout.last (by decide +kernel) .rebuilt (by decide +kernel)
    revert cached
    decide +kernel
  · have cached : (.v4 10 0 0 5) ∈ (rebuiltTwice.foldl
        (RefreshWorld.step beforeRefresh leasedHost) (.start beforeRefresh)).service.cache :=
      throughout.last (by decide +kernel) .rebuilt (by decide +kernel)
    revert cached
    decide +kernel

end CloudId
