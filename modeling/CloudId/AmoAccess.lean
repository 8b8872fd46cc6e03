import CloudId.AmoSession
import CloudId.ServedAccess

/-! From AMO to the hosts. The AMO watcher, the service and those who write to AMO run side by
side; once the watcher has processed what AMO has, the next rebuild of the cache makes the key pages
show what the buckets grant. The static records are no part of AMO, and stay. A rebuild is one step
here; rebuilds that overlap are the subject of `RebuildInterleaving`. -/
namespace CloudId
open Effects

/-! ## What a move does -/

/-- An entry was delivered, and its watch has not processed it. -/
def AmoWorld.Waits (world : AmoWorld) (bucket : AmoBucket) (entry : KvEntry bucket) : Prop :=
  ∃ pending entries, world.session = .watching pending ∧ pending bucket = some entries ∧
    entry ∈ entries

section Moves

variable {world next : AmoWorld} {bucket : AmoBucket} {entry : KvEntry bucket}

/-- Where one bucket has a new queue, what waits is in this queue or waited before. -/
theorem waits_requeued {pending : (bucket : AmoBucket) → Option (List (KvEntry bucket))}
    (session : world.session = .watching pending) {other : AmoBucket} {rest : List (KvEntry other)}
    (turned : next.session = .watching (Function.update pending other (some rest)))
    (within : ∀ entry ∈ rest, world.Waits other entry) (waits : next.Waits bucket entry) :
    world.Waits bucket entry := by
  obtain ⟨after, entries, watching, queued, member⟩ := waits
  rw [turned] at watching
  cases watching
  by_cases same : bucket = other
  · subst same
    rw [Function.update_self] at queued
    cases queued
    exact within entry member
  · rw [Function.update_of_ne same] at queued
    exact ⟨pending, entries, session, queued, member⟩

theorem waits_notified {other : AmoBucket} {written : KvEntry other}
    (turned : next.session = AmoWorld.notify other written world.session)
    (waits : next.Waits bucket entry) :
    world.Waits bucket entry ∨ AmoMove.write other written = .write bucket entry := by
  obtain ⟨after, entries, watching, queued, member⟩ := waits
  rw [turned] at watching
  cases session : world.session with
  | disconnected | loading => simp [session, AmoWorld.notify] at watching
  | watching pending =>
    simp only [session, AmoWorld.notify, AmoSession.watching.injEq] at watching
    subst watching
    by_cases same : bucket = other
    · subst same
      rw [Function.update_self, Option.map_eq_some_iff] at queued
      obtain ⟨waiting, queued, rfl⟩ := queued
      rcases List.mem_append.mp member with member | member
      · exact .inl ⟨pending, waiting, session, queued, member⟩
      · rw [List.mem_singleton.mp member]
        exact .inr rfl
    · rw [Function.update_of_ne same] at queued
      exact .inl ⟨pending, entries, session, queued, member⟩

/-- What waits after a move waited before it, or was just written. -/
theorem waits_cases {move : AmoMove} (moved : world.move move = some next)
    (waits : next.Waits bucket entry) :
    world.Waits bucket entry ∨ move = .write bucket entry := by
  cases move with
  | write other written =>
    cases moved
    exact waits_notified rfl waits
  | watch other =>
    simp only [AmoWorld.move] at moved
    split at moved
    · rename_i pending session
      split at moved <;> cases moved
      refine .inl (waits_requeued session rfl ?_ waits)
      rintro _ ⟨⟩
    · cases moved
  | process other =>
    simp only [AmoWorld.move] at moved
    split at moved
    · rename_i pending session
      split at moved <;> cases moved
      rename_i first rest waiting
      refine .inl (waits_requeued session rfl (fun entry member => ?_) waits)
      exact ⟨pending, first :: rest, session, waiting, List.mem_cons_of_mem _ member⟩
    · cases moved
  | connect | listKeys =>
    obtain ⟨after, entries, watching, -, -⟩ := waits
    simp only [AmoWorld.move] at moved
    split at moved <;> cases moved
    cases watching
  | readKey =>
    obtain ⟨after, entries, watching, -, -⟩ := waits
    simp only [AmoWorld.move] at moved
    split at moved
    · obtain ⟨identity, -, rfl⟩ := Option.map_eq_some_iff.mp moved
      cases watching
    · cases moved
  | loaded =>
    obtain ⟨after, entries, watching, queued, -⟩ := waits
    simp only [AmoWorld.move] at moved
    split at moved
    · split at moved <;> cases moved
      · cases watching
      · cases watching
        cases queued
    · cases moved
  | disconnect =>
    obtain ⟨after, entries, watching, -, -⟩ := waits
    cases moved
    cases watching

/-- A move leaves the identity data, loads a key into it, or applies an entry that waits. -/
theorem identity_cases {move : AmoMove} (moved : world.move move = some next) :
    next.identity = world.identity ∨
      (∃ bucket key,
        loadKey bucket world.identity (world.readKv bucket key) = some next.identity) ∨
      ∃ bucket entry, world.Waits bucket entry ∧
        next.identity = applyEntry bucket world.identity entry := by
  cases move with
  | write | disconnect =>
    cases moved
    exact .inl rfl
  | connect | listKeys =>
    simp only [AmoWorld.move] at moved
    split at moved <;> cases moved
    exact .inl rfl
  | readKey =>
    simp only [AmoWorld.move] at moved
    split at moved
    · obtain ⟨identity, read, rfl⟩ := Option.map_eq_some_iff.mp moved
      exact .inr (.inl ⟨_, _, read⟩)
    · cases moved
  | loaded | watch =>
    simp only [AmoWorld.move] at moved
    split at moved
    · split at moved <;> cases moved <;> exact .inl rfl
    · cases moved
  | process bucket =>
    simp only [AmoWorld.move] at moved
    split at moved
    · rename_i pending session
      split at moved <;> cases moved
      rename_i first rest waiting
      refine .inr (.inr ⟨bucket, first, ?_, rfl⟩)
      exact ⟨pending, first :: rest, session, waiting, List.mem_cons_self⟩
    · cases moved

end Moves

/-! ## The static records -/

/-- Entries are written under names that no static record has. -/
def AmoMove.Apart (initial : IdentityState) : AmoMove → Prop
  | .write bucket entry => entry.key ∉ bucket.records initial
  | _ => True

/-- The static records are as they were, and no entry that waits is about one. -/
structure StaticKept (initial : IdentityState) (world : AmoWorld) : Prop where
  records : ∀ (bucket : AmoBucket) (name : String), name ∈ bucket.records initial →
    (bucket.records world.identity).lookup name = (bucket.records initial).lookup name
  pending : ∀ (bucket : AmoBucket) (entry : KvEntry bucket), world.Waits bucket entry →
    entry.key ∉ bucket.records initial

section Static

variable {initial : IdentityState} {world next : AmoWorld}

theorem start_static_kept (initial : IdentityState) : StaticKept initial (.start initial) := by
  refine ⟨fun bucket name _ => rfl, ?_⟩
  rintro bucket entry ⟨pending, entries, watching, -, -⟩
  cases watching

/-- A change at one name leaves the other names of all buckets. -/
theorem modify_leaves {identity : IdentityState} {bucket other : AmoBucket} {key name : String}
    (differs : other = bucket → name ≠ key)
    {change : HashMap String (Resource bucket.Spec) → HashMap String (Resource bucket.Spec)}
    (at_key : ∀ records name, name ≠ key → (change records).lookup name = records.lookup name) :
    (other.records (bucket.modify change identity)).lookup name =
      (other.records identity).lookup name := by
  by_cases same : other = bucket
  · subst same
    rw [AmoBucket.records_modify, at_key _ _ (differs rfl)]
  · rw [AmoBucket.records_modify_other same]

theorem apply_entry_leaves {identity : IdentityState} {bucket other : AmoBucket}
    {entry : KvEntry bucket} {name : String} (named : entry.Named initial)
    (differs : other = bucket → name ≠ entry.key) :
    (other.records (applyEntry bucket identity entry)).lookup name =
      (other.records identity).lookup name := by
  unfold applyEntry
  cases operation : entry.operation with
  | put =>
    obtain ⟨record, value, own, -⟩ := named operation
    rw [value]
    refine modify_leaves (own ▸ differs) fun records name other => ?_
    rw [HashMap.lookup_insert_eq, if_neg other]
  | delete | purge =>
    refine modify_leaves differs fun records name other => ?_
    rw [HashMap.lookup_erase_eq, if_neg other]

/-- No key of AMO that is loaded has the name of a static record. -/
theorem load_key_leaves (named : NamedWorld initial world) {bucket other : AmoBucket}
    {key name : String} (static : name ∈ other.records initial) {identity : IdentityState}
    (read : loadKey bucket world.identity (world.readKv bucket key) = some identity) :
    (other.records identity).lookup name = (other.records world.identity).lookup name := by
  rw [AmoWorld.readKv] at read
  cases held : (world.kv bucket).lookup key with
  | none =>
    rw [held] at read
    cases read
    rfl
  | some value =>
    obtain ⟨record, rfl, own, nonStatic⟩ := named.stored bucket key value held
    rw [held] at read
    cases read
    have differs : other = bucket → name ≠ key := by
      rintro rfl rfl
      exact nonStatic static
    refine modify_leaves differs fun records name other => ?_
    rw [HashMap.lookup_insert_eq, own, if_neg other]

theorem move_keeps_static {move : AmoMove} (named : NamedWorld initial world)
    (kept : StaticKept initial world) (apart : move.Apart initial)
    (moved : world.move move = some next) : StaticKept initial next where
  records bucket name static := by
    rw [← kept.records bucket name static]
    rcases identity_cases moved with same | ⟨current, key, read⟩ | ⟨current, entry, waits, applied⟩
    · rw [same]
    · exact load_key_leaves named static read
    · have nonStatic := kept.pending current entry waits
      obtain ⟨pending, entries, session, queued, member⟩ := waits
      rw [applied]
      have own := named.pending current entries pending session queued entry member
      refine apply_entry_leaves own ?_
      rintro rfl rfl
      exact nonStatic static
  pending bucket entry waits := by
    rcases waits_cases moved waits with waited | rfl
    · exact kept.pending bucket entry waited
    · exact apart

end Static

/-! ## Runs of AMO and its watcher -/

theorem moves_append {world : AmoWorld} (first second : List AmoMove) :
    world.moves (first ++ second) = (world.moves first).bind fun world => world.moves second := by
  induction first generalizing world with
  | nil => rfl
  | cons move rest step =>
    rw [List.cons_append, AmoWorld.moves, AmoWorld.moves, Option.bind_assoc]
    exact congrArg _ (funext fun _ => step)

/-- What holds of AMO and its watcher in every heeded run that spares the static records. -/
theorem amo_run_keeps {initial : IdentityState} {world last : AmoWorld} {moves : List AmoMove}
    (inv : AmoInv initial world) (kept : StaticKept initial world)
    (own : ∀ move ∈ moves, move.Named initial ∧ move.Apart initial)
    (heeded : HeededRun initial world moves) (ran : world.moves moves = some last) :
    AmoInv initial last ∧ StaticKept initial last := by
  refine ⟨moves_keep_amo_inv inv (fun move listed => (own move listed).1) heeded ran, ?_⟩
  clear heeded
  have named := inv.named
  clear inv
  induction moves generalizing world with
  | nil =>
    cases ran
    exact kept
  | cons move rest step =>
    obtain ⟨next, moved, ran⟩ := Option.bind_eq_some_iff.mp ran
    obtain ⟨named_move, apart⟩ := own move List.mem_cons_self
    exact step (move_keeps_static named kept apart moved)
      (fun move listed => own move (List.mem_cons_of_mem _ listed)) ran
      (move_keeps_named named named_move moved)

/-! ## What AMO grants -/

/-- The identity data has the record of AMO under a name, or else the static one. -/
def Represents (initial : IdentityState) (world : AmoWorld) (identity : IdentityState) : Prop :=
  ∀ (bucket : AmoBucket) (name : String), (bucket.records identity).lookup name =
    ((world.kv bucket).lookup name).join.or ((bucket.records initial).lookup name)

/-- Every bucket is watched, and nothing that was delivered waits. -/
def AmoWorld.CaughtUp (world : AmoWorld) : Prop :=
  world.session = .watching fun _ => some []

/-- A watcher that has caught up knows what AMO has. -/
theorem caught_up_represents {initial : IdentityState} {world : AmoWorld} {moves : List AmoMove}
    (own : ∀ move ∈ moves, move.Named initial ∧ move.Apart initial)
    (heeded : HeededRun initial (.start initial) moves)
    (ran : (AmoWorld.start initial).moves moves = some world) (caughtUp : world.CaughtUp) :
    Represents initial world world.identity := by
  obtain ⟨inv, kept⟩ :=
    amo_run_keeps (start_amo_inv initial) (start_static_kept initial) own heeded ran
  intro bucket name
  by_cases static : name ∈ bucket.records initial
  · have unwritten : ((world.kv bucket).lookup name).join = none := by
      cases held : (world.kv bucket).lookup name with
      | none => rfl
      | some value =>
        obtain ⟨record, -, -, nonStatic⟩ := inv.named.stored bucket name value held
        exact absurd static nonStatic
    rw [kept.records bucket name static, unwritten, Option.none_or]
  · have phase : (world.mirror initial bucket).phase = .watching [] := by
      unfold AmoWorld.mirror
      rw [caughtUp]
      rfl
    have same := congrFun (KvMirror.inv_watching (inv.mirrored bucket) phase) name
    simp only [AmoWorld.mirror, amoRecords, if_neg static] at same
    rw [same, AList.lookup_eq_none.mpr static, Option.or_none]

section Records

variable {first second : IdentityState}

/-- What reaches a host depends on the records alone. -/
theorem Reaches.of_same_records
    (same : ∀ (bucket : AmoBucket) name, (bucket.records second).lookup name =
      (bucket.records first).lookup name)
    {hostname : String} {labels : Option (HashMap String String)} {rule : HostAccessResource}
    {username : String} {user : UserResource}
    (reaches : Reaches first hostname labels rule username user) :
    Reaches second hostname labels rule username user where
  stored := by
    obtain ⟨name, stored⟩ := reaches.stored
    exact ⟨name, (same .hostaccess name).trans stored⟩
  applies := by
    refine reaches.applies.imp_right (Or.imp_left ?_)
    rintro ⟨name, listed, group, found, member⟩
    exact ⟨name, listed, group, (same .hostgroups name).trans found, member⟩
  named := by
    refine reaches.named.imp_right ?_
    rintro ⟨subject, listed, kind, group, found, member⟩
    exact ⟨subject, listed, kind, group, (same .groups _).trans found, member⟩
  active := ⟨(same .users _).trans reaches.active.1, reaches.active.2⟩

theorem OwnedContainer.of_same_records
    (same : ∀ (bucket : AmoBucket) name, (bucket.records second).lookup name =
      (bucket.records first).lookup name)
    {state : AppState} {ip : IpAddr} {owner : String} {user : UserResource}
    (owned : OwnedContainer { state with identity := first } ip owner user) :
    OwnedContainer { state with identity := second } ip owner user where
  listed := owned.listed
  active := ⟨(same .users _).trans owned.active.1, owned.active.2⟩
  keyed := owned.keyed

theorem Admits.of_same_records
    (same : ∀ (bucket : AmoBucket) name, (bucket.records second).lookup name =
      (bucket.records first).lookup name)
    {state : AppState} {ip : IpAddr} {sshUser key : String}
    (admitted : Admits { state with identity := first } ip sshUser key) :
    Admits { state with identity := second } ip sshUser key := by
  cases admitted with
  | container own account held => exact .container (own.of_same_records same) account held
  | host alone known granted =>
    obtain ⟨rule, username, user, reaches, listed, held⟩ := granted
    refine .host (fun owner user own => ?_) known
      ⟨rule, username, user, reaches.of_same_records same, listed, held⟩
    -- A container that is owned under the second records is owned under the first.
    exact alone owner user (own.of_same_records fun bucket name => (same bucket name).symm)

theorem admits_of_same_records
    (same : ∀ (bucket : AmoBucket) name, (bucket.records second).lookup name =
      (bucket.records first).lookup name)
    (state : AppState) {ip : IpAddr} {sshUser key : String} :
    Admits { state with identity := first } ip sshUser key ↔
      Admits { state with identity := second } ip sshUser key :=
  ⟨.of_same_records same, .of_same_records fun bucket name => (same bucket name).symm⟩

end Records

/-! ## The service beside its watcher -/

structure Deployment where
  amo : AmoWorld
  service : Service

/-- What happens next: AMO or its watcher moves, the service answers a request, the other watchers
learn something, or the cache is rebuilt. -/
inductive DeploymentEvent where
  | amo (move : AmoMove)
  | http (request : HttpRequest)
  | hostsLearned (bmh : BmhState) (containers : ContainerState)
  | rebuild

def DeploymentEvent.amoMove? : DeploymentEvent → Option AmoMove
  | .amo move => some move
  | _ => none

theorem amo_moves_map (moves : List AmoMove) :
    (moves.map DeploymentEvent.amo).filterMap DeploymentEvent.amoMove? = moves := by
  rw [List.filterMap_map]
  exact List.filterMap_some

section Runs

variable [Serialize CloudConfig] [Serialize Json] [Deserialize Json] [Serialize IgnitionConfig]
  [Serialize TemplateMeta] [Deserialize TemplateMeta] [Serialize AssignmentsFile]
  [Serialize OneshotState] (library : HttpLibrary)

namespace Deployment

/-- The watcher writes the identity data of the service. -/
def event (deployment : Deployment) : DeploymentEvent → Option Deployment
  | .amo move => (deployment.amo.move move).map fun amo =>
    { amo
      service := deployment.service.progress library
        (.learned amo.identity deployment.service.app.bmh deployment.service.app.containers) }
  | .http request =>
    some { deployment with service := deployment.service.progress library (.http request) }
  | .hostsLearned bmh containers => some { deployment with
      service := deployment.service.progress library
        (.learned deployment.service.app.identity bmh containers) }
  | .rebuild => some { deployment with service := deployment.service.progress library .rebuild }

def run (deployment : Deployment) : List DeploymentEvent → Option Deployment
  | [] => some deployment
  | event :: rest => (deployment.event library event).bind fun next => run next rest

/-- The service has the identity data of the watcher. -/
def Joined (deployment : Deployment) : Prop :=
  deployment.service.app.identity = deployment.amo.identity

variable {library} {deployment last : Deployment}

/-- What an event is for AMO and for the service. -/
theorem event_cases {event : DeploymentEvent} (joined : deployment.Joined)
    (happens : deployment.event library event = some last) :
    last.Joined ∧
      deployment.amo.moves event.amoMove?.toList = some last.amo ∧
      (event ≠ .rebuild →
        last.service.app.metadataCache = deployment.service.app.metadataCache) := by
  cases event with
  | amo move =>
    obtain ⟨amo, moved, rfl⟩ := Option.map_eq_some_iff.mp happens
    exact ⟨rfl, by simp [DeploymentEvent.amoMove?, AmoWorld.moves, moved], fun _ => rfl⟩
  | http request =>
    cases happens
    obtain ⟨_, _, _, _, after⟩ := after_http_same_shown library deployment.service request
    refine ⟨?_, rfl, fun _ => progress_keeps_cache _ _ nofun⟩
    unfold Joined Service.progress
    rw [after]
    exact joined
  | hostsLearned bmh containers =>
    cases happens
    exact ⟨joined, rfl, fun _ => rfl⟩
  | rebuild =>
    cases happens
    exact ⟨joined, rfl, fun other => absurd rfl other⟩

/-- A run of the deployment is a run of AMO and its watcher. -/
theorem run_cases {events : List DeploymentEvent} (joined : deployment.Joined)
    (ran : deployment.run library events = some last) :
    last.Joined ∧
      deployment.amo.moves (events.filterMap DeploymentEvent.amoMove?) = some last.amo ∧
      (.rebuild ∉ events →
        last.service.app.metadataCache = deployment.service.app.metadataCache) := by
  induction events generalizing deployment with
  | nil =>
    cases ran
    exact ⟨joined, rfl, fun _ => rfl⟩
  | cons event rest step =>
    obtain ⟨next, happens, ran⟩ := Option.bind_eq_some_iff.mp ran
    obtain ⟨joined, moved, cached⟩ := event_cases joined happens
    obtain ⟨joined, later, cached'⟩ := step joined ran
    refine ⟨joined, ?_, fun no_rebuild => ?_⟩
    · have split : (event :: rest).filterMap DeploymentEvent.amoMove? =
          event.amoMove?.toList ++ rest.filterMap DeploymentEvent.amoMove? := by
        cases found : event.amoMove? <;> simp [found]
      rw [split, moves_append, moved]
      exact later
    · rw [List.mem_cons, not_or] at no_rebuild
      rw [cached' no_rebuild.2, cached (Ne.symm no_rebuild.1)]

/-- The moves of AMO and its watcher happen beside the service. -/
theorem run_of_moves {world last : AmoWorld} {moves : List AmoMove}
    (ran : world.moves moves = some last) (service : Service) : ∃ after : Service,
    run library { amo := world, service } (moves.map .amo) =
      some { amo := last, service := after } := by
  induction moves generalizing world service with
  | nil =>
    cases ran
    exact ⟨service, rfl⟩
  | cons move rest step =>
    obtain ⟨next, moved, ran⟩ := Option.bind_eq_some_iff.mp ran
    obtain ⟨after, ran⟩ := step ran
      (service.progress library (.learned next.identity service.app.bmh service.app.containers))
    refine ⟨after, Option.bind_eq_some_iff.mpr ⟨_, ?_, ran⟩⟩
    rw [event, moved, Option.map_some]

end Deployment

/-- **What AMO grants is what the hosts are shown.** In every run in which the watcher heeds what
is written to AMO: once it has processed all of it and the cache is rebuilt, the key pages at an
address list exactly the accounts with keys that the records of AMO and the static records beside
them admit there, until the next rebuild. -/
theorem amo_access_is_served {initial : IdentityState} {start middle last : Deployment}
    (begins : start.amo = .start initial) (joined : start.Joined)
    {before after : List DeploymentEvent} (ran : start.run library before = some middle)
    (own : ∀ move ∈ before.filterMap DeploymentEvent.amoMove?,
      move.Named initial ∧ move.Apart initial)
    (heeded : HeededRun initial (.start initial) (before.filterMap DeploymentEvent.amoMove?))
    (caughtUp : middle.amo.CaughtUp) (later : middle.run library (.rebuild :: after) = some last)
    (no_rebuild : .rebuild ∉ after) {identity : IdentityState}
    (represents : Represents initial middle.amo identity) (ip : IpAddr) : ∃ entries,
      ListsAccess entries (Admits { middle.service.app with identity } ip) ∧
      KeyPages library last.service ip entries := by
  obtain ⟨joined, moved, -⟩ := Deployment.run_cases joined ran
  rw [begins] at moved
  have known := caught_up_represents own heeded moved caughtUp
  obtain ⟨rebuilt, happens, later⟩ := Option.bind_eq_some_iff.mp later
  cases happens
  have still : Deployment.Joined
      { amo := middle.amo, service := middle.service.progress library .rebuild } := joined
  have cached := (Deployment.run_cases still later).2.2 no_rebuild
  have shown : last.service.app.getMetadata ip =
      middle.service.app.rebuildCache.getMetadata ip := by
    unfold AppState.getMetadata
    rw [cached]
    rfl
  obtain ⟨entries, lists, pages⟩ := key_pages_of_rebuild shown
  refine ⟨entries, ⟨lists.accounts, fun sshUser key => ?_⟩, pages⟩
  rw [← lists.keys]
  refine (admits_of_same_records (fun bucket name => ?_) middle.service.app).symm
  rw [joined, known bucket name, represents bucket name]

end Runs

section Sample

attribute [local instance] cloudConfigText Json.prettyText emptyObjectReader ignitionText
  templateMetaText templateMetaParser assignmentsText oneshotText

/-- Alice and bob are put as in `heededRun`; once all buckets are watched alice is deleted. -/
def revokedWhileWatched : List AmoMove :=
  heededRun ++ [.watch .groups, .watch .hostaccess, .watch .hostgroups,
    .write .users (deleteUser "alice"), .process .users]

/-- The service of `web1` at its start, before it has read anything of AMO. -/
def unreadHost : Deployment where
  amo := .start {}
  service := { singleHost with app := { singleHost.app with identity := {} } }

/-- Once alice is deleted the cache is rebuilt, and then the host asks for its key pages. -/
theorem amo_access_is_served_revoked : ∃ (amo : AmoWorld) (before last : Service)
    (entries : List PublicKeyEntry),
    (AmoWorld.start {}).moves revokedWhileWatched = some amo ∧
    ((amo.kv .users).lookup "alice").join = none ∧
    ((amo.kv .users).lookup "bob").join = some (plainUser "bob" "ssh-ed25519 BBBB") ∧
    ListsAccess entries (Admits { before.app with identity := amo.identity } (.v4 10 0 0 5)) ∧
    KeyPages keyCalls last (.v4 10 0 0 5) entries := by
  obtain ⟨amo, ran, alice, bob, caughtUp⟩ : ∃ amo,
      (AmoWorld.start {}).moves revokedWhileWatched = some amo ∧
      ((amo.kv .users).lookup "alice").join = none ∧
      ((amo.kv .users).lookup "bob").join = some (plainUser "bob" "ssh-ed25519 BBBB") ∧
      amo.CaughtUp :=
    ⟨_, rfl, rfl, rfl, congrArg AmoSession.watching (funext fun bucket => by cases bucket <;> rfl)⟩
  have own : ∀ move ∈ revokedWhileWatched, move.Named {} ∧ move.Apart {} := by
    have unnamed : ∀ key (bucket : AmoBucket), key ∉ bucket.records {} := fun key bucket => by
      cases bucket <;> exact AList.notMem_empty _
    simp [revokedWhileWatched, heededRun, loadOneUser, AmoMove.Named, AmoMove.Apart,
      put_user_named, delete_user_named, unnamed]
  have heeded : HeededRun {} (.start {}) revokedWhileWatched :=
    ⟨trivial, trivial, fun bucket => by cases bucket <;> trivial, trivial, trivial, trivial,
      trivial, trivial, trivial, trivial, trivial, trivial, trivial, trivial, trivial, trivial,
      trivial, trivial, trivial, trivial, trivial, trivial, trivial⟩
  have known := caught_up_represents own heeded ran caughtUp
  obtain ⟨before, happened⟩ := @Deployment.run_of_moves _ _ _ _ _ _ _ _ keyCalls _ _ _ ran
    unreadHost.service
  have joined : unreadHost.Joined := rfl
  have moves := amo_moves_map revokedWhileWatched
  obtain ⟨entries, lists, pages⟩ := amo_access_is_served keyCalls rfl joined happened
    (moves.symm ▸ own) (moves.symm ▸ heeded) caughtUp
    (show Deployment.run keyCalls { amo, service := before } [.rebuild, .http keysRequest] = some _
      from rfl)
    (by simp) known (.v4 10 0 0 5)
  exact ⟨amo, before, _, entries, ran, alice, bob, lists, pages⟩

end Sample

end CloudId
