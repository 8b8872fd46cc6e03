import CloudId.Library.KvMirror
import CloudId.AmoWatcher
import CloudId.ResolveProofs

/-! The AMO watcher over its whole life: `start` reconnects for ever, and
`run_watcher` connects, loads the four buckets one after the other, and then
runs four watch tasks until one of them ends. Meanwhile others write to the
buckets at any moment. Of NATS it is assumed only that listing and reading see
the bucket as it is, and that a watch delivers, in order, the entries written
after its creation.

The abstract machine is `KvMirror`, once for each bucket: `move_mirrors` shows
that a move of the session is a step of the mirror of one bucket, or of all of
them when the connection is lost. -/
namespace CloudId
open KvMirror (Phase Heeded)

/-- The place of a bucket in the load order. -/
def AmoBucket.rank : AmoBucket → Nat
  | .users => 0
  | .groups => 1
  | .hostaccess => 2
  | .hostgroups => 3

/-- The bucket loaded after this one. -/
def AmoBucket.next : AmoBucket → Option AmoBucket
  | .users => some .groups
  | .groups => some .hostaccess
  | .hostaccess => some .hostgroups
  | .hostgroups => none

/-- Where `run_watcher` stands. While a bucket is loaded its keys are first
unlisted, then read; a watch task first has no watch, then entries that are
delivered but not yet processed. -/
inductive AmoSession where
  | disconnected
  | loading (bucket : AmoBucket) (keys : Option (List String))
  | watching (pending : (bucket : AmoBucket) → Option (List (KvEntry bucket)))

/-- The buckets, the identity data and the watcher. -/
structure AmoWorld where
  kv : (bucket : AmoBucket) → HashMap String (Option (Resource bucket.Spec)) := fun _ => ∅
  identity : IdentityState
  session : AmoSession := .disconnected

inductive AmoMove where
  /-- Somebody writes an entry to a bucket. -/
  | write (bucket : AmoBucket) (entry : KvEntry bucket)
  | connect
  | listKeys
  | readKey
  /-- The load of one bucket is complete. -/
  | loaded
  /-- The watch task of a bucket creates its watch. -/
  | watch (bucket : AmoBucket)
  /-- The watch task of a bucket processes the next entry. -/
  | process (bucket : AmoBucket)
  /-- The connection is lost, or a request fails: `run_watcher` returns. -/
  | disconnect

namespace AmoWorld

/-- The content of a bucket after a write. -/
def writeKv {bucket : AmoBucket} (content : HashMap String (Option (Resource bucket.Spec)))
    (entry : KvEntry bucket) : HashMap String (Option (Resource bucket.Spec)) :=
  match entry.operation with
  | .put => content.insert entry.key entry.value
  | .delete => content.erase entry.key
  | .purge => content.erase entry.key

/-- A written entry joins those its watch has still to process. -/
def notify (bucket : AmoBucket) (entry : KvEntry bucket) : AmoSession → AmoSession
  | .watching pending =>
    .watching (Function.update pending bucket ((pending bucket).map (· ++ [entry])))
  | session => session

/-- What `get` answers for a key of the bucket. -/
def readKv (world : AmoWorld) (bucket : AmoBucket) (key : String) : KeyRead bucket :=
  match (world.kv bucket).lookup key with
  | some value => .found value
  | none => .absent

def move (world : AmoWorld) : AmoMove → Option AmoWorld
  | .write bucket entry => some { world with
      kv := Function.update world.kv bucket (writeKv (world.kv bucket) entry)
      session := notify bucket entry world.session }
  | .connect =>
    match world.session with
    | .disconnected => some { world with session := .loading .users none }
    | _ => none
  | .listKeys =>
    match world.session with
    | .loading bucket none =>
      some { world with session := .loading bucket (some (world.kv bucket).keys) }
    | _ => none
  | .readKey =>
    match world.session with
    | .loading bucket (some (key :: rest)) =>
      (loadKey bucket world.identity (world.readKv bucket key)).map fun identity =>
        { world with identity, session := .loading bucket (some rest) }
    | _ => none
  | .loaded =>
    match world.session with
    | .loading bucket (some []) =>
      match bucket.next with
      | some next => some { world with session := .loading next none }
      | none => some { world with session := .watching fun _ => none }
    | _ => none
  | .watch bucket =>
    match world.session with
    | .watching pending =>
      match pending bucket with
      | none =>
        some { world with session := .watching (Function.update pending bucket (some [])) }
      | some _ => none
    | _ => none
  | .process bucket =>
    match world.session with
    | .watching pending =>
      match pending bucket with
      | some (entry :: rest) => some { world with
          identity := applyEntry bucket world.identity entry
          session := .watching (Function.update pending bucket (some rest)) }
      | _ => none
    | _ => none
  | .disconnect => some { world with session := .disconnected }

/-- A run of moves. -/
def moves (world : AmoWorld) : List AmoMove → Option AmoWorld
  | [] => some world
  | next :: rest => (world.move next).bind fun world => moves world rest

end AmoWorld

/-! ## The mirror of one bucket -/

/-- What an entry leaves under its key. -/
def KvEntry.written {bucket : AmoBucket} (entry : KvEntry bucket) : Option (Resource bucket.Spec) :=
  match entry.operation with
  | .put => entry.value
  | .delete => none
  | .purge => none

/-- The phase of the mirror of a bucket. -/
def AmoSession.phase (bucket : AmoBucket) :
    AmoSession → Phase String (Resource bucket.Spec)
  | .disconnected => .idle
  | .loading current keys =>
    if bucket = current then
      match keys with
      | none => .idle
      | some rest => .loading rest
    else if bucket.rank < current.rank then .loaded
    else .idle
  | .watching pending =>
    match pending bucket with
    | none => .loaded
    | some entries => .watching (entries.map fun entry => (entry.key, entry.written))

/-- The records of a bucket in the identity, without the names that were there
at the start: those are static, and the bucket is never written under them. -/
def amoRecords (initial : IdentityState) (bucket : AmoBucket) (identity : IdentityState)
    (name : String) : Option (Resource bucket.Spec) :=
  if name ∈ bucket.records initial then none else (bucket.records identity).lookup name

/-- The mirror of a bucket in a world. -/
def AmoWorld.mirror (initial : IdentityState) (world : AmoWorld) (bucket : AmoBucket) :
    KvMirror.State String (Resource bucket.Spec) where
  bucket key := ((world.kv bucket).lookup key).join
  copy := amoRecords initial bucket world.identity
  phase := world.session.phase bucket

/-- A put of a record under its own name, which is no static name. -/
def KvEntry.Named (initial : IdentityState) {bucket : AmoBucket} (entry : KvEntry bucket) : Prop :=
  entry.operation = .put → ∃ record, entry.value = some record ∧
    record.metadata.name = entry.key ∧ entry.key ∉ bucket.records initial

/-- All that was written to the buckets was written under its own name. -/
structure NamedWorld (initial : IdentityState) (world : AmoWorld) : Prop where
  stored : ∀ bucket key value, (world.kv bucket).lookup key = some value →
    ∃ record, value = some record ∧ record.metadata.name = key ∧ key ∉ bucket.records initial
  pending : ∀ bucket entries pending, world.session = .watching pending →
    pending bucket = some entries → ∀ entry ∈ entries, entry.Named initial

theorem amo_records_insert {initial identity : IdentityState} {bucket : AmoBucket}
    {record : Resource bucket.Spec} (nonStatic : record.metadata.name ∉ bucket.records initial) :
    amoRecords initial bucket
      (bucket.modify (fun records => records.insert record.metadata.name record) identity) =
      Function.update (amoRecords initial bucket identity) record.metadata.name (some record) := by
  funext name
  rw [amoRecords, AmoBucket.records_modify, HashMap.lookup_insert_eq]
  by_cases same : name = record.metadata.name
  · subst same
    simp [nonStatic]
  · rw [Function.update_of_ne same, if_neg same, amoRecords]

theorem amo_records_erase (initial identity : IdentityState) (bucket : AmoBucket) (key : String) :
    amoRecords initial bucket (bucket.modify (fun records => records.erase key) identity) =
      Function.update (amoRecords initial bucket identity) key none := by
  funext name
  rw [amoRecords, AmoBucket.records_modify, HashMap.lookup_erase_eq]
  by_cases same : name = key
  · subst same
    simp
  · rw [Function.update_of_ne same, if_neg same, amoRecords]

theorem amo_records_other {initial identity : IdentityState} {bucket other : AmoBucket}
    (different : other ≠ bucket)
    (change : HashMap String (Resource bucket.Spec) → HashMap String (Resource bucket.Spec)) :
    amoRecords initial other (bucket.modify change identity) =
      amoRecords initial other identity := by
  funext name
  rw [amoRecords, AmoBucket.records_modify_other different, amoRecords]

/-- A named entry changes the records of its bucket at its key. -/
theorem amo_records_apply {initial identity : IdentityState} {bucket : AmoBucket}
    {entry : KvEntry bucket} (named : entry.Named initial) :
    amoRecords initial bucket (applyEntry bucket identity entry) =
      Function.update (amoRecords initial bucket identity) entry.key entry.written := by
  cases operation : entry.operation with
  | put =>
    obtain ⟨record, value, name, nonStatic⟩ := named operation
    rw [applyEntry, operation, KvEntry.written, operation, value, ← name]
    exact amo_records_insert (name ▸ nonStatic)
  | delete | purge =>
    rw [applyEntry, operation, KvEntry.written, operation]
    exact amo_records_erase initial identity bucket entry.key

theorem amo_records_apply_other {initial identity : IdentityState} {bucket other : AmoBucket}
    (different : other ≠ bucket) (entry : KvEntry bucket) :
    amoRecords initial other (applyEntry bucket identity entry) =
      amoRecords initial other identity := by
  rw [applyEntry]
  split
  · split
    · exact amo_records_other different _
    · rfl
  · exact amo_records_other different _
  · exact amo_records_other different _

/-- What a write leaves in the bucket. -/
theorem write_kv_lookup {bucket : AmoBucket}
    (content : HashMap String (Option (Resource bucket.Spec))) (entry : KvEntry bucket)
    (key : String) :
    ((AmoWorld.writeKv content entry).lookup key).join =
      Function.update (fun key => (content.lookup key).join) entry.key entry.written key := by
  by_cases same : key = entry.key
  · subst same
    rw [Function.update_self, AmoWorld.writeKv, KvEntry.written]
    cases entry.operation <;> simp
  · rw [Function.update_of_ne same, AmoWorld.writeKv]
    cases entry.operation with
    | put | delete | purge => simp [same]

theorem notify_phase (bucket : AmoBucket) (entry : KvEntry bucket) (session : AmoSession) :
    (AmoWorld.notify bucket entry session).phase bucket =
      (session.phase bucket).notice (entry.key, entry.written) := by
  cases session with
  | disconnected => rfl
  | loading current keys =>
    simp only [AmoWorld.notify, AmoSession.phase]
    split
    · split <;> rfl
    · split <;> rfl
  | watching pending =>
    simp only [AmoWorld.notify, AmoSession.phase, Function.update_self]
    cases pending bucket <;> simp [Phase.notice]

theorem notify_phase_other {bucket other : AmoBucket} (different : other ≠ bucket)
    (entry : KvEntry bucket) (session : AmoSession) :
    (AmoWorld.notify bucket entry session).phase other = session.phase other := by
  cases session with
  | disconnected | loading => rfl
  | watching pending =>
    simp only [AmoWorld.notify, AmoSession.phase, Function.update_of_ne different]

/-- A move that the mirrors heed: see `KvMirror.Heeded` for the condition on a
write to a bucket and on losing the connection. -/
def AmoMove.Heeded (initial : IdentityState) (world : AmoWorld) : AmoMove → Prop
  | .write bucket entry =>
    KvMirror.Heeded (world.mirror initial bucket) (.write entry.key entry.written)
  | .disconnect => ∀ bucket, KvMirror.Heeded (world.mirror initial bucket) .drop
  | _ => True

/-- The mirror stays as it is, or takes an event it heeds. -/
def MirrorMoves {κ υ : Type} [DecidableEq κ] (before after : KvMirror.State κ υ) : Prop :=
  after = before ∨ ∃ event, KvMirror.Step before event after ∧ Heeded before event

private theorem mirror_stays {initial : IdentityState} {world next : AmoWorld}
    {bucket : AmoBucket} (kv : next.kv bucket = world.kv bucket)
    (records : amoRecords initial bucket next.identity = amoRecords initial bucket world.identity)
    (phase : next.session.phase bucket = world.session.phase bucket) :
    MirrorMoves (world.mirror initial bucket) (next.mirror initial bucket) := by
  left
  simp only [AmoWorld.mirror, kv, records, phase]

private theorem mirror_steps {initial : IdentityState} {world next : AmoWorld}
    {bucket : AmoBucket} {event : KvMirror.Event String (Resource bucket.Spec)}
    {after : KvMirror.State String (Resource bucket.Spec)}
    (step : KvMirror.Step (world.mirror initial bucket) event after)
    (heeded : Heeded (world.mirror initial bucket) event)
    (kv : ∀ key, ((next.kv bucket).lookup key).join = after.bucket key)
    (records : amoRecords initial bucket next.identity = after.copy)
    (phase : next.session.phase bucket = after.phase) :
    MirrorMoves (world.mirror initial bucket) (next.mirror initial bucket) := by
  right
  refine ⟨event, ?_, heeded⟩
  have reached : next.mirror initial bucket = after := by
    cases after
    rw [AmoWorld.mirror, records, phase]
    congr 1
    exact funext kv
  rw [reached]
  exact step

private theorem write_mirrors {initial : IdentityState} {world next : AmoWorld}
    {bucket : AmoBucket} {entry : KvEntry bucket}
    (moved : world.move (.write bucket entry) = some next)
    (heeded : (AmoMove.write bucket entry).Heeded initial world) (other : AmoBucket) :
    MirrorMoves (world.mirror initial other) (next.mirror initial other) := by
  cases moved
  by_cases same : other = bucket
  · subst same
    refine mirror_steps (.write entry.key entry.written) heeded (fun key => ?_) rfl
      (notify_phase other entry world.session)
    simp only [Function.update_self]
    exact write_kv_lookup _ _ _
  · exact mirror_stays (Function.update_of_ne same _ _) rfl (notify_phase_other same entry _)

private theorem list_mirrors {initial : IdentityState} {world next : AmoWorld}
    (moved : world.move .listKeys = some next) (bucket : AmoBucket) :
    MirrorMoves (world.mirror initial bucket) (next.mirror initial bucket) := by
  simp only [AmoWorld.move] at moved
  split at moved
  · rename_i current session
    cases moved
    by_cases same : bucket = current
    · subst same
      refine mirror_steps (.list (world.kv bucket).keys ?_ fun key present => ?_) trivial
        (fun _ => rfl) rfl (by simp [AmoSession.phase])
      · simp [AmoWorld.mirror, session, AmoSession.phase]
      · by_contra absent
        apply present
        have missing : (world.kv bucket).lookup key = none := AList.lookup_eq_none.mpr absent
        simp only [AmoWorld.mirror, missing, Option.join_none]
    · exact mirror_stays rfl rfl (by simp [session, AmoSession.phase, same])
  · cases moved

private theorem read_mirrors {initial : IdentityState} {world next : AmoWorld}
    (named : NamedWorld initial world) (moved : world.move .readKey = some next)
    (bucket : AmoBucket) :
    MirrorMoves (world.mirror initial bucket) (next.mirror initial bucket) := by
  simp only [AmoWorld.move] at moved
  split at moved
  · rename_i current key rest session
    obtain ⟨identity, read, rfl⟩ := Option.map_eq_some_iff.mp moved
    rw [AmoWorld.readKv] at read
    by_cases same : bucket = current
    · subst same
      refine mirror_steps (.read key rest ?_) trivial (fun _ => rfl) ?_
        (by simp [AmoSession.phase])
      · simp [AmoWorld.mirror, session, AmoSession.phase]
      · cases held : (world.kv bucket).lookup key with
        | none =>
          rw [held] at read
          cases read
          simp [AmoWorld.mirror, held]
        | some value =>
          obtain ⟨record, rfl, name, nonStatic⟩ := named.stored bucket key value held
          rw [held] at read
          cases read
          subst name
          simp only [AmoWorld.mirror, held, Option.join_some, Option.some_or]
          exact amo_records_insert nonStatic
    · refine mirror_stays rfl ?_ (by simp [session, AmoSession.phase, same])
      cases held : (world.kv current).lookup key with
      | none =>
        rw [held] at read
        cases read
        rfl
      | some value =>
        obtain ⟨record, rfl, -⟩ := named.stored current key value held
        rw [held] at read
        cases read
        exact amo_records_other same _
  · cases moved

private theorem loaded_mirrors {initial : IdentityState} {world next : AmoWorld}
    (moved : world.move .loaded = some next) (bucket : AmoBucket) :
    MirrorMoves (world.mirror initial bucket) (next.mirror initial bucket) := by
  simp only [AmoWorld.move] at moved
  split at moved
  · rename_i current session
    by_cases same : bucket = current
    · subst same
      have finished : next.kv = world.kv ∧ next.identity = world.identity ∧
          next.session.phase bucket = .loaded := by
        cases bucket <;> cases moved <;> simp [AmoSession.phase, AmoBucket.rank]
      obtain ⟨kv, identity, phase⟩ := finished
      refine mirror_steps (.finish ?_) trivial (fun _ => by rw [kv]; rfl) (by rw [identity]; rfl) phase
      simp [AmoWorld.mirror, session, AmoSession.phase]
    · have kept : next.kv = world.kv ∧ next.identity = world.identity ∧
          next.session.phase bucket = world.session.phase bucket := by
        cases current <;> cases moved <;> cases bucket <;>
          simp_all [AmoSession.phase, AmoBucket.rank]
      obtain ⟨kv, identity, phase⟩ := kept
      exact mirror_stays (by rw [kv]) (by rw [identity]) phase
  · cases moved

private theorem watch_mirrors {initial : IdentityState} {world next : AmoWorld}
    {bucket : AmoBucket} (moved : world.move (.watch bucket) = some next) (other : AmoBucket) :
    MirrorMoves (world.mirror initial other) (next.mirror initial other) := by
  simp only [AmoWorld.move] at moved
  split at moved
  · rename_i pending session
    split at moved
    · rename_i unwatched
      cases moved
      by_cases same : other = bucket
      · subst same
        refine mirror_steps (.watch ?_) trivial (fun _ => rfl) rfl (by simp [AmoSession.phase])
        simp [AmoWorld.mirror, session, AmoSession.phase, unwatched]
      · exact mirror_stays rfl rfl
          (by simp [session, AmoSession.phase, Function.update_of_ne same])
    · cases moved
  · cases moved

private theorem process_mirrors {initial : IdentityState} {world next : AmoWorld}
    (named : NamedWorld initial world) {bucket : AmoBucket}
    (moved : world.move (.process bucket) = some next) (other : AmoBucket) :
    MirrorMoves (world.mirror initial other) (next.mirror initial other) := by
  simp only [AmoWorld.move] at moved
  split at moved
  · rename_i pending session
    split at moved
    · rename_i entry rest queued
      cases moved
      by_cases same : other = bucket
      · subst same
        have own := named.pending other _ pending session queued entry List.mem_cons_self
        refine mirror_steps (.deliver entry.key entry.written
            (rest.map fun entry => (entry.key, entry.written)) ?_) trivial (fun _ => rfl)
          (amo_records_apply own) (by simp [AmoSession.phase])
        simp [AmoWorld.mirror, session, AmoSession.phase, queued]
      · exact mirror_stays rfl (amo_records_apply_other same entry)
          (by simp [session, AmoSession.phase, Function.update_of_ne same])
    · cases moved
  · cases moved

/-- **Every move of the session is a move of the mirrors.** -/
theorem move_mirrors {initial : IdentityState} {world next : AmoWorld} {move : AmoMove}
    (named : NamedWorld initial world) (moved : world.move move = some next)
    (heeded : move.Heeded initial world) (bucket : AmoBucket) :
    MirrorMoves (world.mirror initial bucket) (next.mirror initial bucket) := by
  cases move with
  | write other entry => exact write_mirrors moved heeded bucket
  | connect =>
    simp only [AmoWorld.move] at moved
    split at moved
    · rename_i session
      cases moved
      refine mirror_stays rfl rfl ?_
      cases bucket <;> simp [session, AmoSession.phase, AmoBucket.rank]
    · cases moved
  | listKeys => exact list_mirrors moved bucket
  | readKey => exact read_mirrors named moved bucket
  | loaded => exact loaded_mirrors moved bucket
  | watch other => exact watch_mirrors moved bucket
  | process other => exact process_mirrors named moved bucket
  | disconnect =>
    cases moved
    exact mirror_steps .drop (heeded bucket) (fun _ => rfl) rfl rfl

/-! ## Runs -/

/-- Puts are made under the record's own name, which is no static name. -/
def AmoMove.Named (initial : IdentityState) : AmoMove → Prop
  | .write _ entry => entry.Named initial
  | _ => True

private theorem write_keeps_named {initial : IdentityState} {world : AmoWorld}
    (named : NamedWorld initial world) {bucket : AmoBucket} {entry : KvEntry bucket}
    (own : entry.Named initial) :
    NamedWorld initial { world with
      kv := Function.update world.kv bucket (AmoWorld.writeKv (world.kv bucket) entry)
      session := AmoWorld.notify bucket entry world.session } := by
  constructor
  · intro other key value held
    by_cases same : other = bucket
    · subst same
      simp only [Function.update_self, AmoWorld.writeKv] at held
      cases operation : entry.operation with
      | put =>
        rw [operation] at held
        rcases HashMap.lookup_insert_eq_some.mp held with ⟨same, rfl⟩ | ⟨-, held⟩
        · obtain ⟨record, written, name, nonStatic⟩ := own operation
          exact ⟨record, written, name.trans same.symm, same ▸ nonStatic⟩
        · exact named.stored other key value held
      | delete | purge =>
        rw [operation] at held
        exact named.stored other key value (HashMap.lookup_erase_eq_some.mp held).2
    · simp only [Function.update_of_ne same] at held
      exact named.stored other key value held
  · intro other entries pending session queued listed member
    cases old : world.session with
    | disconnected | loading => simp [old, AmoWorld.notify] at session
    | watching before =>
      simp only [old, AmoWorld.notify, AmoSession.watching.injEq] at session
      subst session
      by_cases same : other = bucket
      · subst same
        rw [Function.update_self, Option.map_eq_some_iff] at queued
        obtain ⟨waiting, queued, rfl⟩ := queued
        rcases List.mem_append.mp member with member | member
        · exact named.pending other waiting before old queued listed member
        · rw [List.mem_singleton.mp member]
          exact own
      · rw [Function.update_of_ne same] at queued
        exact named.pending other entries before old queued listed member

/-- A session change that queues no new entry keeps the entries named. -/
private theorem session_keeps_named {initial : IdentityState} {world next : AmoWorld}
    (named : NamedWorld initial world) (kv : next.kv = world.kv)
    (queued : ∀ bucket entries pending, next.session = .watching pending →
      pending bucket = some entries → ∀ entry ∈ entries, ∃ older before,
        world.session = .watching before ∧ before bucket = some older ∧ entry ∈ older) :
    NamedWorld initial next := by
  constructor
  · rw [kv]
    exact named.stored
  · intro bucket entries pending session waiting entry member
    obtain ⟨older, before, session, waiting, member⟩ :=
      queued bucket entries pending session waiting entry member
    exact named.pending bucket older before session waiting entry member

/-- So does a new queue of one bucket, with entries of its old one. -/
private theorem queue_keeps_named {initial : IdentityState} {world next : AmoWorld}
    (named : NamedWorld initial world) (kv : next.kv = world.kv)
    {pending : (bucket : AmoBucket) → Option (List (KvEntry bucket))}
    (session : world.session = .watching pending) {bucket : AmoBucket}
    {rest : List (KvEntry bucket)}
    (turned : next.session = .watching (Function.update pending bucket (some rest)))
    (within : ∀ entry ∈ rest, ∃ older, pending bucket = some older ∧ entry ∈ older) :
    NamedWorld initial next := by
  refine session_keeps_named named kv ?_
  intro other entries _ watching queued entry member
  rw [turned] at watching
  cases watching
  by_cases same : other = bucket
  · subst same
    rw [Function.update_self] at queued
    cases queued
    obtain ⟨older, waiting, member⟩ := within entry member
    exact ⟨older, pending, session, waiting, member⟩
  · rw [Function.update_of_ne same] at queued
    exact ⟨entries, pending, session, queued, member⟩

theorem move_keeps_named {initial : IdentityState} {world next : AmoWorld} {move : AmoMove}
    (named : NamedWorld initial world) (own : move.Named initial)
    (moved : world.move move = some next) : NamedWorld initial next := by
  cases move with
  | write bucket entry =>
    cases moved
    exact write_keeps_named named own
  | connect =>
    simp only [AmoWorld.move] at moved
    split at moved <;> cases moved
    exact session_keeps_named named rfl (by rintro _ _ _ ⟨⟩)
  | listKeys =>
    simp only [AmoWorld.move] at moved
    split at moved <;> cases moved
    exact session_keeps_named named rfl (by rintro _ _ _ ⟨⟩)
  | readKey =>
    simp only [AmoWorld.move] at moved
    split at moved
    · obtain ⟨identity, _, rfl⟩ := Option.map_eq_some_iff.mp moved
      exact session_keeps_named named rfl (by rintro _ _ _ ⟨⟩)
    · cases moved
  | loaded =>
    simp only [AmoWorld.move] at moved
    split at moved
    · split at moved <;> cases moved
      · exact session_keeps_named named rfl (by rintro _ _ _ ⟨⟩)
      · exact session_keeps_named named rfl (by rintro _ _ _ ⟨⟩ ⟨⟩)
    · cases moved
  | watch bucket =>
    simp only [AmoWorld.move] at moved
    split at moved
    · rename_i pending session
      split at moved <;> cases moved
      exact queue_keeps_named named rfl session rfl nofun
    · cases moved
  | process bucket =>
    simp only [AmoWorld.move] at moved
    split at moved
    · rename_i pending session
      split at moved <;> cases moved
      rename_i first rest waiting
      refine queue_keeps_named named rfl session rfl fun entry member => ?_
      exact ⟨first :: rest, waiting, List.mem_cons_of_mem _ member⟩
    · cases moved
  | disconnect =>
    cases moved
    exact session_keeps_named named rfl (by rintro _ _ _ ⟨⟩)

/-- Every move of the run is heeded in the state that finds it. -/
def HeededRun (initial : IdentityState) (world : AmoWorld) : List AmoMove → Prop
  | [] => True
  | move :: rest => move.Heeded initial world ∧
      match world.move move with
      | some next => HeededRun initial next rest
      | none => True

/-- What holds in every state of a heeded run. -/
structure AmoInv (initial : IdentityState) (world : AmoWorld) : Prop where
  named : NamedWorld initial world
  mirrored : ∀ bucket, KvMirror.Inv (world.mirror initial bucket)

theorem moves_keep_amo_inv {initial : IdentityState} {world final : AmoWorld}
    {run : List AmoMove} (inv : AmoInv initial world)
    (named : ∀ move ∈ run, move.Named initial) (heeded : HeededRun initial world run)
    (ran : world.moves run = some final) : AmoInv initial final := by
  induction run generalizing world with
  | nil =>
    cases ran
    exact inv
  | cons move rest step =>
    obtain ⟨next, moved, ran⟩ := Option.bind_eq_some_iff.mp ran
    obtain ⟨heeds, later⟩ := heeded
    rw [moved] at later
    refine step ⟨?_, fun bucket => ?_⟩ (fun move listed => named move (by simp [listed])) later ran
    · exact move_keeps_named inv.named (named move List.mem_cons_self) moved
    · rcases move_mirrors inv.named moved heeds bucket with same | ⟨event, steps, heeds⟩
      · rw [same]
        exact inv.mirrored bucket
      · exact KvMirror.step_keeps_inv (inv.mirrored bucket) steps heeds

/-- The service at start-up, with the static identity and nothing in AMO. -/
def AmoWorld.start (initial : IdentityState) : AmoWorld := { identity := initial }

theorem start_amo_inv (initial : IdentityState) : AmoInv initial (.start initial) := by
  refine ⟨⟨?_, ?_⟩, fun bucket name _ => ?_⟩
  · rintro bucket key value ⟨⟩
  · rintro bucket entries pending ⟨⟩
  · change (if name ∈ bucket.records initial then none
      else (bucket.records initial).lookup name) = none
    split
    · rfl
    · exact AList.lookup_eq_none.mpr ‹_›

/-- **The identity follows AMO in every heeded run.**  Whatever is written to
the buckets, and however often the watcher loads, watches and loses the
connection: while a bucket is watched and nothing it delivered is unprocessed,
the identity has a record under a non-static name exactly when the bucket has
one, and it is the bucket's. -/
theorem identity_follows_amo (initial : IdentityState) (run : List AmoMove) (world : AmoWorld)
    (ran : (AmoWorld.start initial).moves run = some world)
    (named : ∀ move ∈ run, move.Named initial)
    (heeded : HeededRun initial (.start initial) run) (bucket : AmoBucket)
    (pending : (bucket : AmoBucket) → Option (List (KvEntry bucket)))
    (watching : world.session = .watching pending) (processed : pending bucket = some [])
    (name : String) (nonStatic : name ∉ bucket.records initial) :
    (bucket.records world.identity).lookup name = ((world.kv bucket).lookup name).join := by
  have inv := (moves_keep_amo_inv (start_amo_inv initial) named heeded ran).mirrored bucket
  have phase : (world.mirror initial bucket).phase = .watching [] := by
    simp [AmoWorld.mirror, watching, AmoSession.phase, processed]
  have same := congrFun (KvMirror.inv_watching inv phase) name
  simpa [AmoWorld.mirror, amoRecords, nonStatic] using same

/-- An entry that puts a plain user under its name. -/
def putUser (name key : String) : KvEntry .users where
  key := name
  operation := .put
  value := some (plainUser name key)

/-- An entry that deletes a user. -/
def deleteUser (name : String) : KvEntry .users where
  key := name
  operation := .delete

/-- The watcher loads the users bucket with one key in it, and the other three
buckets, which are empty. -/
def loadOneUser : List AmoMove :=
  [.listKeys, .readKey, .loaded, .listKeys, .loaded, .listKeys, .loaded, .listKeys, .loaded]

/-- The watcher loads four empty buckets. -/
def loadNothing : List AmoMove :=
  [.listKeys, .loaded, .listKeys, .loaded, .listKeys, .loaded, .listKeys, .loaded]

/-- Alice is put before a first connection is lost, bob while the users are
watched on the second one. -/
def heededRun : List AmoMove :=
  [.connect, .listKeys, .disconnect, .write .users (putUser "alice" "ssh-ed25519 AAAA"),
    .connect] ++ loadOneUser ++
    [.watch .users, .write .users (putUser "bob" "ssh-ed25519 BBBB"), .process .users]

/-- Alice is known and watched, and deleted while the connection is lost. -/
def revokedInOutage : List AmoMove :=
  [.write .users (putUser "alice" "ssh-ed25519 AAAA"), .connect] ++ loadOneUser ++
    [.watch .users, .disconnect, .write .users (deleteUser "alice"), .connect] ++ loadNothing ++
    [.watch .users]

theorem put_user_named (name key : String) : (putUser name key).Named {} := by
  intro _
  exact ⟨_, rfl, rfl, AList.notMem_empty _⟩

theorem delete_user_named (name : String) : (deleteUser name).Named {} := by
  rintro ⟨⟩

/-- After the run the users are those of the bucket. -/
theorem identity_follows_amo_heeded : ∃ world pending,
    (AmoWorld.start {}).moves heededRun = some world ∧ world.session = .watching pending ∧
      pending .users = some [] ∧
      (AmoBucket.users.records world.identity).lookup "bob" =
        ((world.kv .users).lookup "bob").join := by
  refine ⟨_, _, rfl, rfl, rfl, identity_follows_amo {} heededRun _ rfl ?_ ?_ .users _ rfl rfl
    "bob" (AList.notMem_empty _)⟩
  · simp [heededRun, loadOneUser, AmoMove.Named, put_user_named]
  · exact ⟨trivial, trivial, fun bucket => by cases bucket <;> trivial, trivial, trivial, trivial, trivial, trivial, trivial,
      trivial, trivial, trivial, trivial, trivial, trivial, trivial, trivial, trivial⟩

/-- The revoked user is still served after the watcher has loaded the bucket
again and watches it. -/
theorem revoked_user_survives_outage : ∃ world pending,
    (AmoWorld.start {}).moves revokedInOutage = some world ∧
      (∀ move ∈ revokedInOutage, move.Named {}) ∧ world.session = .watching pending ∧
      pending .users = some [] ∧ ((world.kv .users).lookup "alice").join = none ∧
      (world.identity.users).lookup "alice" = some (plainUser "alice" "ssh-ed25519 AAAA") := by
  refine ⟨_, _, rfl, ?_, rfl, rfl, rfl, rfl⟩
  simp [revokedInOutage, loadOneUser, loadNothing, AmoMove.Named, put_user_named,
    delete_user_named]

end CloudId
