import CloudId.CacheProofs

/-! Rebuilds and watcher updates interleaved at their lock and cache
operations. `rebuild_cache` takes the identity, bmh and containers read locks
one after the other, clears the cache, inserts the entries of the two passes
one by one, and drops the locks in reverse order. A watcher update takes one
write lock, changes the data under it any number of times and releases it.
Steps of different tasks mix in any order that reader/writer exclusion allows.

The abstract machine of this design is `SnapshotCache`: a rebuild is active
there while it holds all three locks, and the snapshot is the data under them.
`move_simulates` is the simulation, `idle_cache_is_rebuilt` what it gives. -/
namespace CloudId
open SnapshotCache

inductive StateLock where
  | identity
  | bmh
  | containers
  deriving DecidableEq

/-- Where a rebuild stands; the passes keep the entries still to insert. -/
inductive RebuildPhase where
  | waiting
  | identityHeld
  | bmhHeld
  | locked
  | hosts (rest : List (IpAddr × String))
  | containers (rest : List (IpAddr × ContainerInfo))
  | containersDropped
  | bmhDropped

/-- The read locks a rebuild holds in a phase. -/
def RebuildPhase.holds : RebuildPhase → StateLock → Bool
  | .waiting, _ => false
  | .identityHeld, lock => lock = .identity
  | .bmhHeld, lock => lock ≠ .containers
  | .locked, _ => true
  | .hosts _, _ => true
  | .containers _, _ => true
  | .containersDropped, lock => lock ≠ .containers
  | .bmhDropped, lock => lock = .identity

/-- The locked data, the cache and the tasks. `fresh` records that some rebuild
took its locks after the last write. -/
structure RebuildWorld where
  identity : IdentityState
  bmh : BmhState
  containers : ContainerState
  cache : HashMap IpAddr HostMetadata := ∅
  rebuilds : List RebuildPhase := []
  writing : StateLock → Bool := fun _ => false
  fresh : Bool := false

/-- What happens next: a rebuild is called or goes on, or a watcher takes a
write lock, changes the data under it, or releases it. -/
inductive RebuildMove where
  | call
  | rebuild (index : Nat)
  | acquire (lock : StateLock)
  | writeIdentity (identity : IdentityState)
  | writeBmh (bmh : BmhState)
  | writeContainers (containers : ContainerState)
  | release (lock : StateLock)

namespace RebuildWorld

variable [Serialize CloudConfig]

/-- The next step of a rebuild: the world and phase after it, no phase when the
rebuild returns, nothing when it has to wait for a lock. -/
def advance (config : MetadataConfig) (world : RebuildWorld) :
    RebuildPhase → Option (RebuildWorld × Option RebuildPhase)
  | .waiting => if world.writing .identity then none else some (world, some .identityHeld)
  | .identityHeld => if world.writing .bmh then none else some (world, some .bmhHeld)
  | .bmhHeld =>
    if world.writing .containers then none
    else some ({ world with fresh := true }, some .locked)
  | .locked => some ({ world with cache := ∅ }, some (.hosts world.bmh.ipToHostname.toList))
  | .hosts [] => some (world, some (.containers world.containers.ipToContainer.toList))
  | .hosts ((ip, hostname) :: rest) =>
    let found := bmhMetadata world.identity world.bmh config ip hostname
    some ({ world with cache := insertResolved world.cache ip found }, some (.hosts rest))
  | .containers [] => some (world, some .containersDropped)
  | .containers ((ip, info) :: rest) =>
    let found := containerMetadata world.identity world.containers config ip info
    some ({ world with cache := insertResolved world.cache ip found }, some (.containers rest))
  | .containersDropped => some (world, some .bmhDropped)
  | .bmhDropped => some (world, none)

/-- One move, when it is possible. A writer waits for readers and writers. -/
def move (config : MetadataConfig) (world : RebuildWorld) : RebuildMove → Option RebuildWorld
  | .call => some { world with rebuilds := world.rebuilds ++ [.waiting] }
  | .rebuild index =>
    match world.rebuilds[index]? with
    | none => none
    | some phase =>
      match world.advance config phase with
      | none => none
      | some (next, phase) => some { next with
          rebuilds := world.rebuilds.take index ++ phase.toList ++ world.rebuilds.drop (index + 1) }
  | .acquire lock =>
    if world.writing lock ∨ world.rebuilds.any (·.holds lock) then none
    else some { world with writing := Function.update world.writing lock true }
  | .writeIdentity identity =>
    if world.writing .identity then some { world with identity, fresh := false } else none
  | .writeBmh bmh => if world.writing .bmh then some { world with bmh, fresh := false } else none
  | .writeContainers containers =>
    if world.writing .containers then some { world with containers, fresh := false } else none
  | .release lock =>
    if world.writing lock then some { world with writing := Function.update world.writing lock false }
    else none

/-- A run of moves. -/
def moves (config : MetadataConfig) (world : RebuildWorld) : List RebuildMove → Option RebuildWorld
  | [] => some world
  | next :: rest => (world.move config next).bind fun world => moves config world rest

end RebuildWorld

/-! ## The abstract machine -/

section Codec

variable [Serialize CloudConfig]

/-- The data under the three locks. -/
abbrev Snapshot := IdentityState × BmhState × ContainerState

def RebuildWorld.snapshot (world : RebuildWorld) : Snapshot :=
  (world.identity, world.bmh, world.containers)

def snapshotPlan (config : MetadataConfig) (snapshot : Snapshot) :
    List (CacheOp IpAddr HostMetadata) :=
  rebuildPlan config snapshot.1 snapshot.2.1 snapshot.2.2

/-- The operations of the first pass on some entries. -/
def hostOffers (config : MetadataConfig) (snapshot : Snapshot) :
    List (IpAddr × String) → List (CacheOp IpAddr HostMetadata) :=
  offers (bmhMetadata snapshot.1 snapshot.2.1 config)

/-- The operations of the second pass on some entries. -/
def containerOffers (config : MetadataConfig) (snapshot : Snapshot) :
    List (IpAddr × ContainerInfo) → List (CacheOp IpAddr HostMetadata) :=
  offers (containerMetadata snapshot.1 snapshot.2.2 config)

/-- What a rebuild has still to do while it holds all three locks. -/
def RebuildPhase.todo? (config : MetadataConfig) (snapshot : Snapshot) :
    RebuildPhase → Option (List (CacheOp IpAddr HostMetadata))
  | .locked => some (snapshotPlan config snapshot)
  | .hosts rest => some (hostOffers config snapshot rest ++
      containerOffers config snapshot snapshot.2.2.ipToContainer.toList)
  | .containers rest => some (containerOffers config snapshot rest)
  | _ => none

/-- The abstract state of a world. -/
def RebuildWorld.abstract (config : MetadataConfig) (world : RebuildWorld) :
    SnapshotCache.State IpAddr HostMetadata Snapshot where
  snapshot := world.snapshot
  cache := cacheView world.cache
  active := world.rebuilds.filterMap (RebuildPhase.todo? config world.snapshot)
  fresh := world.fresh

/-- Reader/writer exclusion. -/
def Exclusive (world : RebuildWorld) : Prop :=
  ∀ lock, world.writing lock = true → ∀ phase ∈ world.rebuilds, phase.holds lock = false

/-- A move of the rebuild at an index takes one phase of the list to the next. -/
theorem move_rebuild {config : MetadataConfig} {world next : RebuildWorld} {index : Nat}
    (moved : world.move config (.rebuild index) = some next) :
    ∃ before phase after stepped phase', world.rebuilds = before ++ phase :: after ∧
      world.advance config phase = some (stepped, phase') ∧
      next = { stepped with rebuilds := before ++ phase'.toList ++ after } ∧
      world.rebuilds[index]? = some phase := by
  simp only [RebuildWorld.move] at moved
  split at moved
  · cases moved
  · rename_i phase found
    split at moved
    · cases moved
    · rename_i stepped phase' advanced
      obtain ⟨bound, at_index⟩ := List.getElem?_eq_some_iff.mp found
      refine ⟨_, phase, _, stepped, phase', ?_, advanced, (Option.some.inj moved).symm, found⟩
      rw [← at_index, ← List.drop_eq_getElem_cons bound, List.take_append_drop]

/-- A rebuild step changes no writer and gains only locks no writer holds. -/
theorem advance_locks {config : MetadataConfig} {world next : RebuildWorld}
    {phase : RebuildPhase} {phase' : Option RebuildPhase}
    (advanced : world.advance config phase = some (next, phase')) :
    next.writing = world.writing ∧ ∀ lock, world.writing lock = true →
      phase.holds lock = false → ∀ later ∈ phase', later.holds lock = false := by
  cases phase with
  | waiting | identityHeld | bmhHeld =>
    simp only [RebuildWorld.advance, Option.ite_none_left_eq_some, Option.some.injEq,
      Prod.mk.injEq] at advanced
    obtain ⟨free, rfl, rfl⟩ := advanced
    refine ⟨rfl, ?_⟩
    rintro lock writing _ later ⟨⟩
    cases lock <;> simp_all [RebuildPhase.holds]
  | hosts rest | containers rest =>
    cases rest <;> cases advanced <;> exact ⟨rfl, by rintro lock _ ⟨⟩⟩
  | locked =>
    cases advanced
    exact ⟨rfl, by rintro lock _ ⟨⟩⟩
  | containersDropped =>
    cases advanced
    refine ⟨rfl, ?_⟩
    rintro lock _ free later ⟨⟩
    cases lock <;> simp_all [RebuildPhase.holds]
  | bmhDropped =>
    cases advanced
    exact ⟨rfl, by rintro lock _ _ later ⟨⟩⟩

theorem move_keeps_exclusive {config : MetadataConfig} {world next : RebuildWorld}
    {move : RebuildMove} (exclusive : Exclusive world)
    (moved : world.move config move = some next) : Exclusive next := by
  cases move with
  | call =>
    cases moved
    intro lock writing phase listed
    rcases List.mem_append.mp listed with listed | listed
    · exact exclusive lock writing phase listed
    · rw [List.mem_singleton.mp listed]
      rfl
  | rebuild index =>
    obtain ⟨before, phase, after, stepped, phase', split, advanced, rfl, -⟩ := move_rebuild moved
    obtain ⟨writers, gained⟩ := advance_locks advanced
    intro lock writing other listed
    rw [writers] at writing
    have held := exclusive lock writing
    rw [split] at held
    simp only [List.mem_append, Option.mem_toList] at listed
    rcases listed with (listed | changed) | listed
    · exact held other (by simp [listed])
    · exact gained lock writing (held phase (by simp)) other changed
    · exact held other (by simp [listed])
  | acquire lock =>
    simp only [RebuildWorld.move, Option.ite_none_left_eq_some, not_or, Option.some.injEq] at moved
    obtain ⟨⟨_, unread⟩, rfl⟩ := moved
    intro other writing phase listed
    by_cases same : other = lock
    · subst same
      simp only [List.any_eq_true, not_exists, not_and, Bool.not_eq_true] at unread
      exact unread phase listed
    · simp only [Function.update_of_ne same] at writing
      exact exclusive other writing phase listed
  | writeIdentity data | writeBmh data | writeContainers data =>
    simp only [RebuildWorld.move, Option.ite_none_right_eq_some, Option.some.injEq] at moved
    obtain ⟨_, rfl⟩ := moved
    exact exclusive
  | release lock =>
    simp only [RebuildWorld.move, Option.ite_none_right_eq_some, Option.some.injEq] at moved
    obtain ⟨_, rfl⟩ := moved
    intro other writing phase listed
    by_cases same : other = lock
    · subst same
      simp at writing
    · simp only [Function.update_of_ne same] at writing
      exact exclusive other writing phase listed

/-- While a writer holds a lock, no rebuild holds all three. -/
theorem writing_idle {config : MetadataConfig} {world : RebuildWorld} {lock : StateLock}
    (exclusive : Exclusive world) (writing : world.writing lock = true) :
    (world.abstract config).active = [] := by
  apply List.filterMap_eq_nil_iff.mpr
  intro phase listed
  have free := exclusive lock writing phase listed
  cases phase <;> simp_all [RebuildPhase.holds, RebuildPhase.todo?]

/-- The abstract state around one rebuild, its phase apart. -/
private def around (config : MetadataConfig) (snapshot : Snapshot)
    (before after : List RebuildPhase) (cache : HashMap IpAddr HostMetadata)
    (phase : Option RebuildPhase) (fresh : Bool) :
    SnapshotCache.State IpAddr HostMetadata Snapshot where
  snapshot := snapshot
  cache := cacheView cache
  active := before.filterMap (RebuildPhase.todo? config snapshot) ++
    ((phase.bind (RebuildPhase.todo? config snapshot)).toList ++
      after.filterMap (RebuildPhase.todo? config snapshot))
  fresh := fresh

private theorem abstract_around (config : MetadataConfig) {world : RebuildWorld}
    {before after : List RebuildPhase} {phase : Option RebuildPhase}
    (split : world.rebuilds = before ++ (phase.toList ++ after)) :
    world.abstract config =
      around config world.snapshot before after world.cache phase world.fresh := by
  rw [RebuildWorld.abstract, split, List.filterMap_append, List.filterMap_append, around]
  cases phase with
  | none => rfl
  | some phase => cases todo : phase.todo? config world.snapshot <;> simp [todo]

/-- A step of a rebuild is a step of the abstract machine, or none. -/
theorem rebuild_simulates {config : MetadataConfig} {world stepped : RebuildWorld}
    {before after : List RebuildPhase} {phase : RebuildPhase} {phase' : Option RebuildPhase}
    (split : world.rebuilds = before ++ phase :: after)
    (advanced : world.advance config phase = some (stepped, phase')) :
    Relation.ReflGen (Step (snapshotPlan config)) (world.abstract config)
      ({ stepped with rebuilds := before ++ phase'.toList ++ after }.abstract config) := by
  have old : world.abstract config =
      around config world.snapshot before after world.cache (some phase) world.fresh :=
    abstract_around config split
  have new (stepped : RebuildWorld) (phase' : Option RebuildPhase) :
      { stepped with rebuilds := before ++ phase'.toList ++ after }.abstract config =
        around config stepped.snapshot before after stepped.cache phase' stepped.fresh :=
    abstract_around config (List.append_assoc _ _ _)
  rw [old, new]
  cases phase with
  | waiting | identityHeld =>
    simp only [RebuildWorld.advance, Option.ite_none_left_eq_some, Option.some.injEq,
      Prod.mk.injEq] at advanced
    obtain ⟨_, rfl, rfl⟩ := advanced
    exact .refl
  | bmhHeld =>
    simp only [RebuildWorld.advance, Option.ite_none_left_eq_some, Option.some.injEq,
      Prod.mk.injEq] at advanced
    obtain ⟨_, rfl, rfl⟩ := advanced
    exact .single (.start _ _ rfl)
  | locked =>
    cases advanced
    exact .single (.advance _ _ .clear _ rfl)
  | hosts rest =>
    cases rest with
    | nil =>
      cases advanced
      exact .refl
    | cons entry rest =>
      cases advanced
      simp only [around, cache_view_insert]
      exact .single (.advance _ _ (.offer _ _) _ rfl)
  | containers rest =>
    cases rest with
    | nil =>
      cases advanced
      exact .single (.finish _ _ rfl)
    | cons entry rest =>
      cases advanced
      simp only [around, cache_view_insert]
      exact .single (.advance _ _ (.offer _ _) _ rfl)
  | containersDropped | bmhDropped =>
    cases advanced
    exact .refl

private theorem write_simulates {config : MetadataConfig} {world next : RebuildWorld}
    (sameCache : next.cache = world.cache) (stale : next.fresh = false)
    (idle : (world.abstract config).active = [])
    (nextIdle : (next.abstract config).active = []) :
    Relation.ReflGen (Step (snapshotPlan config)) (world.abstract config)
      (next.abstract config) := by
  have changed : next.abstract config =
      { world.abstract config with snapshot := next.snapshot, fresh := false } :=
    SnapshotCache.State.ext rfl (congrArg cacheView sameCache) (nextIdle.trans idle.symm) stale
  rw [changed]
  exact .single (.change _ idle)

/-- **The interleaved service simulates the abstract machine**, move by move. -/
theorem move_simulates {config : MetadataConfig} {world next : RebuildWorld}
    {move : RebuildMove} (exclusive : Exclusive world)
    (moved : world.move config move = some next) :
    Relation.ReflGen (Step (snapshotPlan config)) (world.abstract config)
      (next.abstract config) := by
  cases move with
  | call =>
    cases moved
    have same : { world with rebuilds := world.rebuilds ++ [RebuildPhase.waiting] }.abstract config =
        world.abstract config := by
      simp [RebuildWorld.abstract, RebuildPhase.todo?, RebuildWorld.snapshot]
    rw [same]
  | rebuild index =>
    obtain ⟨before, phase, after, stepped, phase', split, advanced, rfl, -⟩ := move_rebuild moved
    exact rebuild_simulates split advanced
  | acquire lock =>
    simp only [RebuildWorld.move, Option.ite_none_left_eq_some, not_or, Option.some.injEq] at moved
    obtain ⟨_, rfl⟩ := moved
    exact .refl
  | writeIdentity data | writeBmh data | writeContainers data =>
    simp only [RebuildWorld.move, Option.ite_none_right_eq_some, Option.some.injEq] at moved
    obtain ⟨writing, rfl⟩ := moved
    exact write_simulates rfl rfl (writing_idle exclusive writing)
      (writing_idle exclusive writing)
  | release lock =>
    simp only [RebuildWorld.move, Option.ite_none_right_eq_some, Option.some.injEq] at moved
    obtain ⟨_, rfl⟩ := moved
    exact .refl

/-- What holds in every state of a run: exclusion, and the invariant of the
abstract machine. -/
structure RebuildInv (config : MetadataConfig) (world : RebuildWorld) : Prop where
  exclusive : Exclusive world
  settling : Inv (snapshotPlan config) (world.abstract config)

theorem move_keeps_inv {config : MetadataConfig} {world next : RebuildWorld}
    {move : RebuildMove} (inv : RebuildInv config world)
    (moved : world.move config move = some next) : RebuildInv config next := by
  refine ⟨move_keeps_exclusive inv.exclusive moved, ?_⟩
  have clears (snapshot : Snapshot) : CacheOp.clear ∈ snapshotPlan config snapshot :=
    List.mem_cons_self
  rcases (Relation.reflGen_iff ..).mp (move_simulates inv.exclusive moved) with same | step
  · rw [same]
    exact inv.settling
  · exact step_keeps_inv clears inv.settling step

theorem moves_keep_inv {config : MetadataConfig} {world final : RebuildWorld}
    {run : List RebuildMove} (inv : RebuildInv config world)
    (ran : world.moves config run = some final) : RebuildInv config final := by
  induction run generalizing world with
  | nil =>
    cases ran
    exact inv
  | cons move rest step =>
    obtain ⟨next, moved, ran⟩ := Option.bind_eq_some_iff.mp ran
    exact step (move_keeps_inv inv moved) ran

/-- The service at start-up: some data, an empty cache, no task. -/
def RebuildWorld.start (identity : IdentityState) (bmh : BmhState)
    (containers : ContainerState) : RebuildWorld := { identity, bmh, containers }

theorem start_inv (config : MetadataConfig) (identity : IdentityState) (bmh : BmhState)
    (containers : ContainerState) :
    RebuildInv config (.start identity bmh containers) := by
  constructor
  · rintro lock ⟨⟩
  · constructor
    · intro todo active
      cases active
    · rintro ⟨⟩

/-- **An idle cache is the rebuilt cache.**  In every run, once no rebuild is in
progress and some rebuild took its locks after the last write (so it has also
completed), the cache holds exactly what one uninterrupted rebuild of the
present data would put there, address by address. -/
theorem idle_cache_is_rebuilt (config : MetadataConfig) (identity : IdentityState)
    (bmh : BmhState) (containers : ContainerState) (run : List RebuildMove)
    (world : RebuildWorld)
    (ran : (RebuildWorld.start identity bmh containers).moves config run = some world)
    (idle : world.rebuilds = []) (fresh : world.fresh = true) :
    HashMap.Same world.cache
      (rebuiltCache world.identity world.bmh world.containers config) := by
  have inv := moves_keep_inv (start_inv config identity bmh containers) ran
  have noneActive : (world.abstract config).active = [] := by
    rw [RebuildWorld.abstract, idle]
    rfl
  have settles := inv_settled inv.settling noneActive fresh
  intro ip
  calc world.cache.lookup ip = (world.abstract config).cache ip := rfl
    _ = settled (rebuildPlan config world.identity world.bmh world.containers) ip :=
      congrFun settles ip
    _ = cacheView (rebuiltCache world.identity world.bmh world.containers config) ip :=
      congrFun (rebuilt_cache_settled ..).symm ip

end Codec

/-- A watcher records a host while a first rebuild is under way; then two
rebuilds overlap, and the second clears what the first has inserted. -/
def overlappingRun : List RebuildMove :=
  [.call, .rebuild 0, .acquire .bmh,
    .writeBmh { ipToHostname := (∅ : HashMap IpAddr String).insert (.v4 10 0 0 5) "web1" },
    .release .bmh, .rebuild 0, .call, .rebuild 0, .rebuild 0, .rebuild 0,
    .rebuild 1, .rebuild 1, .rebuild 1, .rebuild 1,
    .rebuild 0, .rebuild 0, .rebuild 0, .rebuild 0,
    .rebuild 0, .rebuild 0, .rebuild 0, .rebuild 0, .rebuild 0]

/-- The service before the run of `overlappingRun`. -/
def startWithRules : RebuildWorld := .start overlappingRules {} {}

/-- The run above ends idle and fresh, with the cache of its last data. -/
theorem idle_cache_is_rebuilt_overlapping : ∃ world,
    @RebuildWorld.moves cloudConfigText localConfig startWithRules overlappingRun = some world ∧
      world.rebuilds = [] ∧ world.fresh = true ∧
      HashMap.Same world.cache (@rebuiltCache cloudConfigText world.identity world.bmh
        world.containers localConfig) :=
  ⟨_, rfl, rfl, rfl, @idle_cache_is_rebuilt cloudConfigText localConfig overlappingRules {} {}
    overlappingRun _ rfl rfl rfl⟩
end CloudId
