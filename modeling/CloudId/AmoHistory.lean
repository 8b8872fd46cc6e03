import CloudId.Library.GuardedRun
import CloudId.Library.SecondaryIndex
import CloudId.Library.SnapshotCache
import CloudId.AmoWatcher
import CloudId.ResolveProofs

/-! What a history of bucket entries leaves in the identity. A put inserts under
the record's own `metadata.name` and a delete removes under the entry's key, so
the identity mirrors the live records only as long as the two names go
together; and records of the static configuration live in the same maps, so a
delete can take one of them away. -/
namespace CloudId
open GuardedRun SecondaryIndex

variable {bucket : AmoBucket}

/-! ## Live records -/

/-- The live records of a bucket after an entry. -/
def recordEntry (live : HashMap String (Resource bucket.Spec)) (entry : KvEntry bucket) :
    HashMap String (Resource bucket.Spec) :=
  match entry.operation with
  | .put =>
    match entry.value with
    | some record => live.insert entry.key record
    | none => live.erase entry.key
  | .delete => live.erase entry.key
  | .purge => live.erase entry.key

/-- The records that are live after a history: last put under their key, and
not deleted, purged or replaced since. -/
def liveRecords (entries : List (KvEntry bucket)) : HashMap String (Resource bucket.Spec) :=
  entries.foldl recordEntry ∅

/-- The identity holds exactly the live records. -/
def Mirrors (live records : HashMap String (Resource bucket.Spec)) : Prop :=
  ∀ record, (∃ name, records.lookup name = some record) ↔ ∃ key, live.lookup key = some record

/-- No two live records carry the same name. -/
def DistinctNames (live : HashMap String (Resource bucket.Spec)) : Prop :=
  ∀ key key' record record', live.lookup key = some record → live.lookup key' = some record' →
    record.metadata.name = record'.metadata.name → key = key'

/-- The value of a put can be parsed. -/
def KvEntry.Parseable (entry : KvEntry bucket) : Prop :=
  entry.operation = .put → ∃ record, entry.value = some record

/-- The entry does the same under its key as under the name: a put replaces a
live record of the same name, if any, and a delete or purge finds that the live
record under its key, if any, is the live record of that name. -/
def KeepsName (live : HashMap String (Resource bucket.Spec)) (entry : KvEntry bucket) : Prop :=
  match entry.operation with
  | .put => ∀ old record, live.lookup entry.key = some old → entry.value = some record →
      old.metadata.name = record.metadata.name
  | .delete => ∀ key record, live.lookup key = some record →
      (key = entry.key ↔ record.metadata.name = entry.key)
  | .purge => ∀ key record, live.lookup key = some record →
      (key = entry.key ↔ record.metadata.name = entry.key)

/-- Records are stored under their own name. -/
def KeyedByName (records : HashMap String (Resource bucket.Spec)) : Prop :=
  ∀ name record, records.lookup name = some record → record.metadata.name = name

theorem KeyedByName.insert {records : HashMap String (Resource bucket.Spec)}
    (keyed : KeyedByName records) (record : Resource bucket.Spec) :
    KeyedByName (records.insert record.metadata.name record) := by
  intro name stored held
  rcases HashMap.lookup_insert_eq_some.mp held with ⟨same, rfl⟩ | ⟨-, held⟩
  · exact same.symm
  · exact keyed name stored held

theorem KeyedByName.erase {records : HashMap String (Resource bucket.Spec)}
    (keyed : KeyedByName records) (removed : String) : KeyedByName (records.erase removed) := by
  intro name stored held
  exact keyed name stored (HashMap.lookup_erase_eq_some.mp held).2

theorem apply_entry_keyed {identity : IdentityState} (keyed : KeyedByName (bucket.records identity))
    (entry : KvEntry bucket) : KeyedByName (bucket.records (applyEntry bucket identity entry)) := by
  rw [applyEntry]
  split
  · split
    · rw [AmoBucket.records_modify]
      exact keyed.insert _
    · exact keyed
  · rw [AmoBucket.records_modify]
    exact keyed.erase entry.key
  · rw [AmoBucket.records_modify]
    exact keyed.erase entry.key

/-- The key under which the identity holds a record. -/
def nameKey (record : Resource bucket.Spec) : Option String := some record.metadata.name

theorem name_key_total (live : HashMap String (Resource bucket.Spec)) : Total nameKey live :=
  fun _ record _ => ⟨record.metadata.name, rfl⟩

theorem DistinctNames.distinct {live : HashMap String (Resource bucket.Spec)}
    (distinct : DistinctNames live) : Distinct nameKey live := by
  intro key key' record record' name held held' named named'
  exact distinct key key' record record' held held' (Option.some.inj (named.trans named'.symm))

/-- Records under their own names mirror the live ones when they index them by
name. -/
theorem mirrors_iff_indexes {live records : HashMap String (Resource bucket.Spec)}
    (keyed : KeyedByName records) : Mirrors live records ↔ Indexes nameKey id live records := by
  constructor
  · intro mirrors name record
    constructor
    · intro stored
      obtain ⟨key, held⟩ := (mirrors record).mp ⟨name, stored⟩
      exact ⟨key, record, held, congrArg some (keyed name record stored), rfl⟩
    · rintro ⟨key, _, held, named, rfl⟩
      obtain ⟨other, stored⟩ := (mirrors _).mpr ⟨key, held⟩
      have own := (keyed other _ stored).symm.trans (Option.some.inj named)
      exact own ▸ stored
  · intro indexes record
    constructor
    · rintro ⟨name, stored⟩
      obtain ⟨key, _, held, -, rfl⟩ := (indexes name record).mp stored
      exact ⟨key, held⟩
    · rintro ⟨key, held⟩
      exact ⟨record.metadata.name, indexes.lookup_row held rfl⟩

/-- A put keeps the mirror exactly when it keeps the name of the live record it
replaces. -/
theorem put_mirrors_iff {live records : HashMap String (Resource bucket.Spec)}
    (keyed : KeyedByName records) (distinct : DistinctNames live) (mirrors : Mirrors live records)
    {key : String} {record : Resource bucket.Spec} (after : DistinctNames (live.insert key record)) :
    Mirrors (live.insert key record) (records.insert record.metadata.name record) ↔
      ∀ old, live.lookup key = some old → old.metadata.name = record.metadata.name := by
  have exact_ := insert_row_indexes_iff ((mirrors_iff_indexes keyed).mp mirrors)
    (name_key_total live) distinct.distinct (name_key_total _) after.distinct
  rw [mirrors_iff_indexes (keyed.insert record)]
  simpa only [insertRow, nameKey, id_eq, Option.some.injEq] using exact_

/-- Removing a key keeps the mirror exactly when the live record under the key
is the live record of that name. -/
theorem erase_mirrors_iff {live records : HashMap String (Resource bucket.Spec)}
    (keyed : KeyedByName records) (distinct : DistinctNames live) (mirrors : Mirrors live records)
    (removed : String) :
    Mirrors (live.erase removed) (records.erase removed) ↔
      ∀ key record, live.lookup key = some record →
        (key = removed ↔ record.metadata.name = removed) := by
  have exact_ := erase_indexes_iff ((mirrors_iff_indexes keyed).mp mirrors) (name_key_total live)
    distinct.distinct removed removed
  rw [mirrors_iff_indexes (keyed.erase removed)]
  simpa only [nameKey, Option.some.injEq] using exact_

/-- The live records and the identity, side by side. -/
structure AmoState (bucket : AmoBucket) where
  live : HashMap String (Resource bucket.Spec) := ∅
  identity : IdentityState := {}

def AmoState.entry (state : AmoState bucket) (entry : KvEntry bucket) : AmoState bucket where
  live := recordEntry state.live entry
  identity := applyEntry bucket state.identity entry

theorem amo_state_entries (state : AmoState bucket) (entries : List (KvEntry bucket)) :
    entries.foldl AmoState.entry state =
      { live := entries.foldl recordEntry state.live
        identity := entries.foldl (applyEntry bucket) state.identity } := by
  induction entries generalizing state with
  | nil => rfl
  | cons entry rest step => exact step (state.entry entry)

/-- One entry keeps the mirror exactly when it keeps the name. -/
theorem entry_mirrors_iff {state : AmoState bucket} {entry : KvEntry bucket}
    (keyed : KeyedByName (bucket.records state.identity)) (distinct : DistinctNames state.live)
    (parseable : entry.Parseable) (after : DistinctNames (state.entry entry).live)
    (mirrors : Mirrors state.live (bucket.records state.identity)) :
    Mirrors (state.entry entry).live (bucket.records (state.entry entry).identity) ↔
      KeepsName state.live entry := by
  simp only [AmoState.entry, recordEntry, applyEntry, KeepsName] at after ⊢
  cases operation : entry.operation with
  | put =>
    obtain ⟨record, value⟩ := parseable operation
    simp only [operation, value, AmoBucket.records_modify] at after ⊢
    rw [put_mirrors_iff keyed distinct mirrors after]
    constructor
    · rintro keeps old _ held ⟨⟩
      exact keeps old held
    · intro keeps old held
      exact keeps old record held rfl
  | delete | purge =>
    simp only [AmoBucket.records_modify]
    exact erase_mirrors_iff keyed distinct mirrors entry.key

/-- **The identity mirrors the bucket exactly as long as every entry keeps the
name.**  For every history of parseable entries in which no two live records
ever carry the same name: after each part of it, the watch loop has left exactly
the live records, if and only if every put keeps the name of the live record it
replaces and every delete or purge finds the record of that name under its key. -/
theorem watch_mirrors_iff [Serialize CloudConfig] (bucket : AmoBucket) (state : AppState)
    (empty : bucket.records state.identity = ∅) (entries : List (KvEntry bucket))
    (parseable : ∀ entry ∈ entries, entry.Parseable)
    (distinct : ∀ done, done <+: entries → DistinctNames (liveRecords done)) :
    (∀ done, done <+: entries →
      Mirrors (liveRecords done) (bucket.records (watchBucket bucket state done).identity)) ↔
      Each recordEntry KeepsName ∅ entries := by
  let start : AmoState bucket := { identity := state.identity }
  have throughout : Throughout AmoState.entry (fun state => DistinctNames state.live) start
      entries := by
    intro done before
    rw [amo_state_entries]
    exact distinct done before
  have exact_ : Throughout AmoState.entry
        (fun state => Mirrors state.live (bucket.records state.identity)) start entries ↔
      Each AmoState.entry (fun state entry => KeepsName state.live entry) start entries :=
    throughout_iff_each
      (fun state => KeyedByName (bucket.records state.identity) ∧ DistinctNames state.live)
      (fun state entry inv permitted => ⟨apply_entry_keyed inv.1 entry, permitted.2⟩)
      (fun state entry inv permitted mirrors =>
        entry_mirrors_iff inv.1 inv.2 permitted.1 permitted.2 mirrors)
      (by simp [start, empty, KeyedByName, DistinctNames])
      (by simp [start, empty, Mirrors]) (throughout.each_next parseable)
  rw [each_view recordEntry AmoState.live KeepsName fun _ _ => rfl] at exact_
  rw [← exact_]
  simp only [Throughout, amo_state_entries, watch_bucket_identity, liveRecords, start]

/-- A put of a record under its own name. -/
def KvEntry.OwnName (entry : KvEntry bucket) : Prop :=
  entry.operation = .put → ∃ record, entry.value = some record ∧
    record.metadata.name = entry.key

/-- Every live record is stored under its own name. -/
def OwnNames (live : HashMap String (Resource bucket.Spec)) : Prop :=
  ∀ key record, live.lookup key = some record → record.metadata.name = key

theorem record_entry_own {live : HashMap String (Resource bucket.Spec)} (own : OwnNames live)
    {entry : KvEntry bucket} (named : entry.OwnName) : OwnNames (recordEntry live entry) := by
  intro key record held
  rw [recordEntry] at held
  cases operation : entry.operation with
  | put =>
    obtain ⟨put, value, name⟩ := named operation
    simp only [operation, value] at held
    rcases HashMap.lookup_insert_eq_some.mp held with ⟨same, rfl⟩ | ⟨-, held⟩
    · exact name.trans same.symm
    · exact own key record held
  | delete | purge =>
    simp only [operation] at held
    exact own key record (HashMap.lookup_erase_eq_some.mp held).2

theorem live_records_own {entries : List (KvEntry bucket)}
    (named : ∀ entry ∈ entries, entry.OwnName) : OwnNames (liveRecords entries) := by
  have inner (entries : List (KvEntry bucket)) (named : ∀ entry ∈ entries, entry.OwnName)
      (live : HashMap String (Resource bucket.Spec)) (own : OwnNames live) :
      OwnNames (entries.foldl recordEntry live) := by
    induction entries generalizing live with
    | nil => exact own
    | cons entry rest step =>
      exact step (fun other listed => named other (List.mem_cons_of_mem _ listed)) _
        (record_entry_own own (named entry List.mem_cons_self))
  exact inner entries named ∅ (by rintro key record ⟨⟩)

theorem OwnNames.distinct {live : HashMap String (Resource bucket.Spec)} (own : OwnNames live) :
    DistinctNames live := by
  intro key key' record record' held held' same
  rw [← own key record held, ← own key' record' held', same]

/-- Only keys of the history are live. -/
theorem live_records_key {entries : List (KvEntry bucket)}
    (held : (liveRecords entries).lookup key = some record) :
    ∃ entry ∈ entries, entry.key = key := by
  have inner (entries : List (KvEntry bucket)) (live : HashMap String (Resource bucket.Spec))
      (held : (entries.foldl recordEntry live).lookup key = some record) :
      live.lookup key = some record ∨ ∃ entry ∈ entries, entry.key = key := by
    induction entries generalizing live with
    | nil => exact Or.inl held
    | cons entry rest step =>
      rcases step _ held with now | ⟨other, listed, named⟩
      · by_cases same : entry.key = key
        · exact Or.inr ⟨entry, List.mem_cons_self, same⟩
        · left
          rw [recordEntry] at now
          split at now
          · split at now <;> simpa [Ne.symm same] using now
          · simpa [Ne.symm same] using now
          · simpa [Ne.symm same] using now
      · exact Or.inr ⟨other, List.mem_cons_of_mem _ listed, named⟩
  rcases inner entries ∅ held with impossible | found
  · cases impossible
  · exact found

/-- A service that knows nobody yet. -/
def freshApp : AppState where
  templateStore := { dataDir := "/var/lib/cloudid" }
  config := { metadata := localConfig }

/-- An entry of the users bucket. -/
def putUnder (key name : String) : KvEntry .users where
  key := key
  operation := .put
  value := some (plainUser name "ssh-ed25519 AAAA")

def deleteKey (key : String) : KvEntry .users where
  key := key
  operation := .delete

theorem put_under_own (name : String) : (putUnder name name).OwnName := by
  intro _
  exact ⟨_, rfl, rfl⟩

theorem delete_key_own (key : String) : (deleteKey key).OwnName := by
  rintro ⟨⟩

/-- In this history every record has its own name. -/
theorem watch_mirrors_iff_own_names :
    (∀ done, done <+: [putUnder "alice" "alice", putUnder "bob" "bob", deleteKey "alice"] →
      Mirrors (liveRecords done)
        (AmoBucket.users.records (@watchBucket cloudConfigText .users freshApp done).identity)) ↔
      Each recordEntry KeepsName ∅
        [putUnder "alice" "alice", putUnder "bob" "bob", deleteKey "alice"] := by
  have named : ∀ entry ∈ [putUnder "alice" "alice", putUnder "bob" "bob", deleteKey "alice"],
      entry.OwnName := by
    simp [put_under_own, delete_key_own]
  refine @watch_mirrors_iff cloudConfigText .users freshApp rfl _ ?_ ?_
  · intro entry listed put
    obtain ⟨record, value, _⟩ := named entry listed put
    exact ⟨record, value⟩
  · intro done before
    exact (live_records_own fun entry listed => named entry (before.subset listed)).distinct

/-- The record of alice was put under another key, and outlives its delete. -/
theorem renamed_user_survives_delete :
    (∀ entry ∈ [putUnder "u-17" "alice", deleteKey "u-17"], entry.Parseable) ∧
    (∀ done, done <+: [putUnder "u-17" "alice", deleteKey "u-17"] →
      DistinctNames (liveRecords done)) ∧
    ¬ Mirrors (liveRecords [putUnder "u-17" "alice", deleteKey "u-17"])
      (AmoBucket.users.records (@watchBucket cloudConfigText .users freshApp
        [putUnder "u-17" "alice", deleteKey "u-17"]).identity) := by
  refine ⟨?_, ?_, ?_⟩
  · simp [KvEntry.Parseable, putUnder, deleteKey]
  · intro done before key key' record record' held held' _
    obtain ⟨entry, listed, rfl⟩ := live_records_key held
    obtain ⟨entry', listed', rfl⟩ := live_records_key held'
    have only (entry : KvEntry .users) (listed : entry ∈ done) : entry.key = "u-17" := by
      have member := before.subset listed
      simp only [List.mem_cons, List.not_mem_nil, or_false] at member
      rcases member with rfl | rfl <;> rfl
    rw [only entry listed, only entry' listed']
  · intro mirrors
    obtain ⟨key, held⟩ := (mirrors (plainUser "alice" "ssh-ed25519 AAAA")).mp ⟨"alice", rfl⟩
    cases held

end CloudId
