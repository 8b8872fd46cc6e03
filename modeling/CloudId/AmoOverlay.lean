import CloudId.AmoHistory

/-! The static identity under the AMO records. Both live in the same maps: a
record of AMO replaces the static record of its name, and what takes the AMO
record away has to leave the static one behind. -/
namespace CloudId
open GuardedRun SnapshotCache

/-! ## The static records -/

/-- The record of the static configuration under a name: the last user of that
name, or the rule at the index the name gives. -/
def staticRecord (readFile : String → Option String) (config : Config) :
    (bucket : AmoBucket) → String → Option (Resource bucket.Spec)
  | .users, name =>
    (config.staticUsers.reverse.find? fun user => user.name = name).map (staticUser readFile)
  | .groups, _ => none
  | .hostaccess, name =>
    (config.staticHostAccess.zipIdx.reverse.find? fun entry => staticRuleName entry.2 = name).map
      fun entry => staticRule entry.2 entry.1
  | .hostgroups, _ => none

theorem static_identity_lookup (readFile : String → Option String) (config : Config)
    (bucket : AmoBucket) (name : String) :
    (bucket.records (loadStaticIdentity readFile config)).lookup name =
      staticRecord readFile config bucket name := by
  cases bucket with
  | users | hostaccess =>
    simp only [AmoBucket.records, loadStaticIdentity, staticRecord, HashMap.lookup_foldl_insert,
      AList.lookup_empty, Option.or_none]
  | groups | hostgroups => rfl

theorem static_rule_name_injective : Function.Injective staticRuleName := by
  intro first second same
  have digits : Nat.toDigits 10 first = Nat.toDigits 10 second := by
    simpa [staticRuleName, Nat.toString_eq_repr, Nat.toList_repr] using congrArg String.toList same
  rw [← Nat.ofDigitChars_ten_toDigits (n := first), digits, Nat.ofDigitChars_ten_toDigits]

/-- The static rule at an index has the name with that index. -/
theorem static_rule_record (readFile : String → Option String) (config : Config) (index : Nat) :
    staticRecord readFile config .hostaccess (staticRuleName index) =
      config.staticHostAccess[index]?.map (staticRule index) := by
  simp only [staticRecord, static_rule_name_injective.eq_iff]
  cases found : config.staticHostAccess.zipIdx.reverse.find? fun entry => entry.2 = index with
  | none =>
    cases rule : config.staticHostAccess[index]? with
    | none => rfl
    | some stored =>
      have listed : (stored, index) ∈ config.staticHostAccess.zipIdx.reverse := by
        simpa [List.mk_mem_zipIdx_iff_getElem?] using rule
      have differs := List.find?_eq_none.mp found _ listed
      simp at differs
  | some entry =>
    have same : entry.2 = index := by simpa using List.find?_some found
    have listed : entry ∈ config.staticHostAccess.zipIdx := by
      simpa using List.mem_of_find?_eq_some found
    subst same
    rw [List.mem_zipIdx_iff_getElem?.mp listed]
    rfl

/-! ## Loads and entries -/

variable {bucket : AmoBucket}

/-- What reaches the identity from one bucket: a complete load of its content,
or an entry of the watch. -/
inductive AmoEvent (bucket : AmoBucket) where
  | load (content : HashMap String (Resource bucket.Spec))
  | watched (entry : KvEntry bucket)

/-- What NATS answers while a bucket with that content is loaded. -/
def contentReads (content : HashMap String (Resource bucket.Spec)) : List (KeyRead bucket) :=
  content.toList.map fun entry => .found (some entry.2)

/-- The live records and the identity after an event. -/
def AmoState.event (state : AmoState bucket) : AmoEvent bucket → AmoState bucket
  | .load content =>
    { live := content, identity := (loadBucket bucket state.identity (contentReads content)).2 }
  | .watched entry => state.entry entry

/-- Records come under their own name. -/
def AmoEvent.OwnName : AmoEvent bucket → Prop
  | .load content => OwnNames content
  | .watched entry => entry.OwnName

/-- The identity serves the live record of every name, and otherwise the static
one. -/
def Overlays (readFile : String → Option String) (config : Config) (state : AmoState bucket) :
    Prop :=
  ∀ name, (bucket.records state.identity).lookup name =
    (state.live.lookup name).or (staticRecord readFile config bucket name)

/-- The event takes no static record away, and leaves no stale one: only
records without a static one of their name are deleted or purged, and a load
finds every live record, or the static record it leaves to be served is equal. -/
def KeepsStatic (readFile : String → Option String) (config : Config)
    (live : HashMap String (Resource bucket.Spec)) : AmoEvent bucket → Prop
  | .load content => ∀ name old, live.lookup name = some old → content.lookup name = none →
      staticRecord readFile config bucket name = some old
  | .watched entry =>
    match entry.operation with
    | .put => True
    | .delete => staticRecord readFile config bucket entry.key = none
    | .purge => staticRecord readFile config bucket entry.key = none

/-- A load inserts the records of the bucket and removes nothing. -/
theorem load_bucket_lookup (identity : IdentityState)
    {content : HashMap String (Resource bucket.Spec)} (own : OwnNames content) (name : String) :
    (bucket.records (loadBucket bucket identity (contentReads content)).2).lookup name =
      (content.lookup name).or ((bucket.records identity).lookup name) := by
  have inner (entries : List (String × Resource bucket.Spec))
      (own : ∀ entry ∈ entries, entry.2.metadata.name = entry.1) (identity : IdentityState) :
      (fun name => (bucket.records (loadBucket bucket identity
        (entries.map fun entry => .found (some entry.2))).2).lookup name) =
      run (offers (fun _ record => some record) entries) fun name =>
        (bucket.records identity).lookup name := by
    induction entries generalizing identity with
    | nil => rfl
    | cons entry rest step =>
      rw [offers_cons, run_cons]
      have first : (fun name => (bucket.records (bucket.modify (fun records =>
            records.insert entry.2.metadata.name entry.2) identity)).lookup name) =
          (CacheOp.offer entry.1 (some entry.2)).apply fun name =>
            (bucket.records identity).lookup name := by
        funext name
        simp only [AmoBucket.records_modify, HashMap.lookup_insert_eq, CacheOp.apply,
          Function.update_apply, own entry List.mem_cons_self]
      rw [← first]
      exact step (fun other listed => own other (List.mem_cons_of_mem _ listed)) _
  have listed : ∀ entry ∈ content.toList, entry.2.metadata.name = entry.1 := by
    intro entry listed
    exact own entry.1 entry.2 (HashMap.lookup_eq_some.mpr listed)
  rw [contentReads, congrFun (inner content.toList listed identity) name, run_offers]
  cases content.lookup name <;> rfl

/-- The live records of a bucket after an event. -/
def recordEvent (live : HashMap String (Resource bucket.Spec)) :
    AmoEvent bucket → HashMap String (Resource bucket.Spec)
  | .load content => content
  | .watched entry => recordEntry live entry

theorem event_live (state : AmoState bucket) (event : AmoEvent bucket) :
    (state.event event).live = recordEvent state.live event := by
  cases event <;> rfl

/-- The service at start-up: the static identity, nothing live. -/
def AmoState.start (readFile : String → Option String) (config : Config) : AmoState bucket where
  identity := loadStaticIdentity readFile config

theorem start_overlays (readFile : String → Option String) (config : Config) :
    Overlays readFile config (AmoState.start readFile config : AmoState bucket) := by
  intro name
  rw [AmoState.start, static_identity_lookup]
  rfl

/-- One event keeps the overlay exactly when it keeps the static records. -/
theorem event_overlays_iff {readFile : String → Option String} {config : Config}
    {state : AmoState bucket} {event : AmoEvent bucket} (own : event.OwnName)
    (overlays : Overlays readFile config state) :
    Overlays readFile config (state.event event) ↔
      KeepsStatic readFile config state.live event := by
  cases event with
  | load content =>
    simp only [Overlays, AmoState.event, load_bucket_lookup state.identity own, overlays _,
      KeepsStatic]
    refine forall_congr' fun name => ?_
    cases content.lookup name with
    | some record => simp
    | none =>
      cases state.live.lookup name with
      | none => simp
      | some old => simp [eq_comm]
  | watched entry =>
    have erased : (∀ name, ((bucket.records state.identity).erase entry.key).lookup name =
        ((state.live.erase entry.key).lookup name).or (staticRecord readFile config bucket name)) ↔
        staticRecord readFile config bucket entry.key = none := by
      constructor
      · intro kept
        have gone := kept entry.key
        simpa using gone.symm
      · intro absent name
        by_cases same : name = entry.key
        · subst same
          simp [absent]
        · rw [AList.lookup_erase_ne same, AList.lookup_erase_ne same, overlays]
    cases operation : entry.operation with
    | put =>
      obtain ⟨record, value, name⟩ := own operation
      simp only [Overlays, AmoState.event, AmoState.entry, recordEntry, applyEntry, operation,
        value, AmoBucket.records_modify, KeepsStatic, iff_true]
      intro probe
      rw [name, HashMap.lookup_insert_eq, HashMap.lookup_insert_eq]
      split
      · rfl
      · exact overlays probe
    | delete | purge =>
      simpa only [Overlays, AmoState.event, AmoState.entry, recordEntry, applyEntry, operation,
        AmoBucket.records_modify, KeepsStatic] using erased

/-- **AMO overlays the static identity exactly as long as no event touches
it.**  For every static configuration and every history of loads and entries
with records under their own names: after each part of it every name has its
live record, and otherwise its static one, if and only if nothing is deleted or
purged under a static name and no load misses a live record, unless the static
record of that name is equal to it. -/
theorem overlays_iff (bucket : AmoBucket) (readFile : String → Option String) (config : Config)
    (events : List (AmoEvent bucket)) (own : ∀ event ∈ events, event.OwnName) :
    (∀ done, done <+: events →
      Overlays readFile config (done.foldl AmoState.event (.start readFile config))) ↔
      Each recordEvent (KeepsStatic readFile config) ∅ events := by
  let start : AmoState bucket := .start readFile config
  have anything : Throughout AmoState.event (fun _ => True) start events := fun _ _ => trivial
  have exact_ : Throughout AmoState.event (Overlays readFile config) start events ↔
      Each AmoState.event (fun state event => KeepsStatic readFile config state.live event) start
        events :=
    throughout_iff_each (fun _ => True) (fun _ _ _ _ => trivial)
      (fun state event _ permitted overlays => event_overlays_iff permitted.1 overlays)
      trivial (start_overlays readFile config) (anything.each_next own)
  rw [each_view recordEvent AmoState.live (KeepsStatic readFile config) event_live] at exact_
  exact exact_

/-- Root is in the static configuration, with a key of its own. -/
def bootstrapConfig : Config where
  metadata := localConfig
  staticUsers := [{ name := "root", uid := 0, sshKeyFiles := ["/etc/cloudid/root.pub"] }]

def bootstrapKeys (path : String) : Option String :=
  if path = "/etc/cloudid/root.pub" then some "ssh-ed25519 RRRR root\n" else none

/-- Alice comes from AMO and goes again; root is left alone. -/
theorem overlays_iff_alice :
    (∀ done, done <+: [AmoEvent.watched (putUnder "alice" "alice"),
        AmoEvent.watched (deleteKey "alice")] →
      Overlays bootstrapKeys bootstrapConfig
        (done.foldl AmoState.event (.start bootstrapKeys bootstrapConfig))) ↔
      Each recordEvent (KeepsStatic bootstrapKeys bootstrapConfig) ∅
        [AmoEvent.watched (putUnder "alice" "alice"), AmoEvent.watched (deleteKey "alice")] := by
  apply overlays_iff
  simp [AmoEvent.OwnName, put_under_own, delete_key_own]

/-- After AMO has put and deleted a record for root, there is no root at all. -/
theorem static_user_deleted :
    (∀ event ∈ [AmoEvent.watched (putUnder "root" "root"), AmoEvent.watched (deleteKey "root")],
      event.OwnName) ∧
    ¬ Overlays bootstrapKeys bootstrapConfig
      ([AmoEvent.watched (putUnder "root" "root"), AmoEvent.watched (deleteKey "root")].foldl
        AmoState.event (.start bootstrapKeys bootstrapConfig)) := by
  constructor
  · simp [AmoEvent.OwnName, put_under_own, delete_key_own]
  · intro overlays
    have root := congrArg Option.isSome (overlays "root")
    revert root
    decide

end CloudId
