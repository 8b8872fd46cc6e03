import CloudId.Cache

/-! `watcher/amo.rs`: the four AMO buckets, loading one of them key by key, and
applying the entries its watch delivers. The source has each function four
times, once for each bucket; here a bucket is a parameter, and the functions
keep their names as its instances. A stored value is known by what
`serde_json::from_slice` makes of it, a record or a parse error. -/
namespace CloudId

/-- The AMO buckets, in the order in which they are loaded. -/
inductive AmoBucket where
  | users
  | groups
  | hostaccess
  | hostgroups
  deriving DecidableEq

namespace AmoBucket

/-- The name of the bucket in NATS. -/
def bucketName : AmoBucket → String
  | .users => "AMO_USERS"
  | .groups => "AMO_GROUPS"
  | .hostaccess => "AMO_HOSTACCESS"
  | .hostgroups => "AMO_HOSTGROUPS"

/-- The specification type of the records of a bucket. -/
@[reducible] def Spec : AmoBucket → Type
  | .users => UserSpec
  | .groups => GroupSpec
  | .hostaccess => HostAccessSpec
  | .hostgroups => HostGroupSpec

/-- The identity records a bucket feeds. -/
def records : (bucket : AmoBucket) → IdentityState → HashMap String (Resource bucket.Spec)
  | .users, identity => identity.users
  | .groups, identity => identity.groups
  | .hostaccess, identity => identity.hostAccess
  | .hostgroups, identity => identity.hostGroups

/-- Changes the identity records a bucket feeds. -/
def modify : (bucket : AmoBucket) →
    (HashMap String (Resource bucket.Spec) → HashMap String (Resource bucket.Spec)) →
    IdentityState → IdentityState
  | .users, change, identity => { identity with users := change identity.users }
  | .groups, change, identity => { identity with groups := change identity.groups }
  | .hostaccess, change, identity => { identity with hostAccess := change identity.hostAccess }
  | .hostgroups, change, identity => { identity with hostGroups := change identity.hostGroups }

@[simp] theorem records_modify (bucket : AmoBucket)
    (change : HashMap String (Resource bucket.Spec) → HashMap String (Resource bucket.Spec))
    (identity : IdentityState) :
    bucket.records (bucket.modify change identity) = change (bucket.records identity) := by
  cases bucket <;> rfl

theorem records_modify_other {bucket other : AmoBucket} (different : other ≠ bucket)
    (change : HashMap String (Resource bucket.Spec) → HashMap String (Resource bucket.Spec))
    (identity : IdentityState) :
    other.records (bucket.modify change identity) = other.records identity := by
  cases bucket <;> cases other <;> first | rfl | exact absurd rfl different

end AmoBucket

/-! ## Loading a bucket -/

/-- The next key of a load as NATS answers for it. -/
inductive KeyRead (bucket : AmoBucket) where
  | keyFailed
  | getFailed
  | absent
  | found (value : Option (Resource bucket.Spec))

/-- One turn of the load loop; `none` when `?` returns the error. -/
def loadKey (bucket : AmoBucket) (identity : IdentityState) :
    KeyRead bucket → Option IdentityState
  | .keyFailed => none
  | .getFailed => none
  | .absent => some identity
  | .found (some record) =>
    some (bucket.modify (fun records => records.insert record.metadata.name record) identity)
  | .found none => some identity

/-- The load loop: whether it came to the end, and what it has loaded. -/
def loadBucket (bucket : AmoBucket) (identity : IdentityState) :
    List (KeyRead bucket) → Bool × IdentityState
  | [] => (true, identity)
  | read :: rest =>
    match loadKey bucket identity read with
    | some identity => loadBucket bucket identity rest
    | none => (false, identity)

/-- `load_bucket_users`. -/
def loadBucketUsers := loadBucket .users

/-- `load_bucket_groups`. -/
def loadBucketGroups := loadBucket .groups

/-- `load_bucket_hostaccess`. -/
def loadBucketHostaccess := loadBucket .hostaccess

/-- `load_bucket_hostgroups`. -/
def loadBucketHostgroups := loadBucket .hostgroups

/-! ## Watching a bucket -/

/-- `kv::Operation`. -/
inductive KvOperation where
  | put
  | delete
  | purge
  deriving DecidableEq

/-- An entry as a watch delivers it; only a put carries a value. -/
structure KvEntry (bucket : AmoBucket) where
  key : String
  operation : KvOperation
  value : Option (Resource bucket.Spec) := none

/-- What an entry does to the identity: a put inserts under the record's own
name, a delete or purge removes under the key. -/
def applyEntry (bucket : AmoBucket) (identity : IdentityState) (entry : KvEntry bucket) :
    IdentityState :=
  match entry.operation with
  | .put =>
    match entry.value with
    | some record =>
      bucket.modify (fun records => records.insert record.metadata.name record) identity
    | none => identity
  | .delete => bucket.modify (fun records => records.erase entry.key) identity
  | .purge => bucket.modify (fun records => records.erase entry.key) identity

variable [Serialize CloudConfig]

/-- One turn of the watch loop: the change, then a cache rebuild. An entry that
cannot be parsed does neither. -/
def watchEntry (bucket : AmoBucket) (state : AppState) (entry : KvEntry bucket) : AppState :=
  if entry.operation = .put ∧ entry.value.isNone then state
  else { state with identity := applyEntry bucket state.identity entry }.rebuildCache

/-- The watch loop over the entries delivered so far. -/
def watchBucket (bucket : AmoBucket) (state : AppState) (entries : List (KvEntry bucket)) :
    AppState :=
  entries.foldl (watchEntry bucket) state

/-- `watch_users`. -/
def watchUsers := watchBucket .users

/-- `watch_groups`. -/
def watchGroups := watchBucket .groups

/-- `watch_hostaccess`. -/
def watchHostaccess := watchBucket .hostaccess

/-- `watch_hostgroups`. -/
def watchHostgroups := watchBucket .hostgroups

/-- The watch loop changes the identity entry by entry. -/
theorem watch_bucket_identity (bucket : AmoBucket) (state : AppState)
    (entries : List (KvEntry bucket)) :
    (watchBucket bucket state entries).identity =
      entries.foldl (applyEntry bucket) state.identity := by
  induction entries generalizing state with
  | nil => rfl
  | cons entry rest step =>
    have one : (watchEntry bucket state entry).identity =
        applyEntry bucket state.identity entry := by
      rw [watchEntry]
      split
      · rename_i unparsed
        obtain ⟨put, missing⟩ := unparsed
        rw [applyEntry, put, Option.isNone_iff_eq_none.mp missing]
      · rfl
    calc (watchBucket bucket (watchEntry bucket state entry) rest).identity
        = rest.foldl (applyEntry bucket) (watchEntry bucket state entry).identity := step _
      _ = (entry :: rest).foldl (applyEntry bucket) state.identity := by rw [one]; rfl

end CloudId
