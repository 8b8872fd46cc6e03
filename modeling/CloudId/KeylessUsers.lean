import CloudId.ResolveProofs

/-! Users without keys. `resolve_host` makes the entry of an account when a rule opens it to
an enabled user, whether or not that user has a key, and decides by these entries whether
anything was granted. -/
namespace CloudId

/-- A matching rule opens some account to an enabled user who has a key. -/
def GrantsKeys (identity : IdentityState) (hostname : String)
    (hostLabels : Option (HashMap String String)) : Prop :=
  ∃ rule username user, Reaches identity hostname hostLabels rule username user ∧
    rule.spec.sshUsers ≠ [] ∧ user.userKeys ≠ []

/-- There is metadata exactly when a key is granted, and every entry of it has a key. -/
structure ServesGrants (identity : IdentityState) (hostname : String)
    (hostLabels : Option (HashMap String String)) (resolved : Option HostMetadata) : Prop where
  granted : resolved.isSome ↔ GrantsKeys identity hostname hostLabels
  filled : ∀ metadata, resolved = some metadata → ∀ entry ∈ metadata.publicKeys, entry.keys ≠ []

/-- Every account that the rules open is open to someone with a key. -/
def KeysForAccounts (identity : IdentityState) (hostname : String)
    (hostLabels : Option (HashMap String String)) : Prop :=
  ∀ rule username user account, Reaches identity hostname hostLabels rule username user →
    account ∈ rule.spec.sshUsers → ∃ key, Grants identity hostname hostLabels account key

variable {identity : IdentityState} {hostname : String}
  {hostLabels : Option (HashMap String String)}

theorem grants_keys_iff : GrantsKeys identity hostname hostLabels ↔
    ∃ account key, Grants identity hostname hostLabels account key := by
  constructor
  · rintro ⟨rule, username, user, reaches, opened, keyed⟩
    obtain ⟨account, listed⟩ := List.exists_mem_of_ne_nil _ opened
    obtain ⟨key, held⟩ := List.exists_mem_of_ne_nil _ keyed
    exact ⟨account, key, rule, username, user, reaches, listed, held⟩
  · rintro ⟨account, key, rule, username, user, reaches, listed, held⟩
    exact ⟨rule, username, user, reaches, List.ne_nil_of_mem listed, List.ne_nil_of_mem held⟩

/-- The entry of an account has no keys exactly when the account is granted to no key. -/
theorem collected_entry_filled_iff {entry : PublicKeyEntry}
    (listed : entry ∈ publicKeyEntries (collectedFor identity hostname hostLabels).keysBySshUser) :
    entry.keys ≠ [] ↔ ∃ key, Grants identity hostname hostLabels entry.sshUser key := by
  have held : ∀ key, key ∈ entry.keys ↔ Grants identity hostname hostLabels entry.sshUser key := by
    intro key
    rw [((mem_public_key_entries _ entry).mp listed).2, sortDedup, SortedMap.mem_sort_destutter,
      key_collected_iff]
  simp only [← held]
  exact ⟨List.exists_mem_of_ne_nil _, fun shared => List.ne_nil_of_mem shared.choose_spec⟩

section Resolution

variable [Serialize CloudConfig]

/-- The accounts of the metadata are the ones that a rule opens. -/
theorem account_served_iff {ip : IpAddr} {config : MetadataConfig} {metadata : HostMetadata}
    (resolved : resolveHost ip hostname hostLabels identity config = some metadata)
    (account : String) :
    (∃ entry ∈ metadata.publicKeys, entry.sshUser = account) ↔
      ∃ rule username user, Reaches identity hostname hostLabels rule username user ∧
        account ∈ rule.spec.sshUsers := by
  rw [← account_collected_iff, (resolve_host_some resolved).1]
  constructor
  · rintro ⟨entry, listed, rfl⟩
    exact ((mem_public_key_entries _ entry).mp listed).1
  · intro collected
    let keys := (collectedFor identity hostname hostLabels).keysBySshUser.getD account []
    exact ⟨⟨account, sortDedup keys⟩, (mem_public_key_entries _ _).mpr ⟨collected, rfl⟩, rfl⟩

/-- **Metadata stands for granted keys when every open account is open to someone with a
key.**  For every identity state and host: the result is metadata exactly when a matching
rule opens an account to an enabled user with a key, and no entry of it is empty, if and
only if every account that a matching rule opens to an enabled user is opened to an enabled
user with a key. -/
theorem resolve_host_serves_grants_iff (ip : IpAddr) (hostname : String)
    (hostLabels : Option (HashMap String String)) (identity : IdentityState)
    (config : MetadataConfig) :
    ServesGrants identity hostname hostLabels
        (resolveHost ip hostname hostLabels identity config) ↔
      KeysForAccounts identity hostname hostLabels := by
  constructor
  · intro serves rule username user account reaches opened
    cases resolved : resolveHost ip hostname hostLabels identity config with
    | none =>
      have nothing := (resolve_host_none_iff ip hostname hostLabels identity config).mp resolved
      exact absurd ⟨rule, username, user, reaches, List.ne_nil_of_mem opened⟩ nothing
    | some metadata =>
      obtain ⟨entry, listed, rfl⟩ :=
        (account_served_iff resolved account).mpr ⟨rule, username, user, reaches, opened⟩
      have filled := serves.filled metadata resolved entry listed
      rw [(resolve_host_some resolved).1] at listed
      exact (collected_entry_filled_iff listed).mp filled
  · intro keyed
    constructor
    · rw [Option.isSome_iff_ne_none, ne_eq, resolve_host_none_iff, not_not, grants_keys_iff]
      constructor
      · rintro ⟨rule, username, user, reaches, opened⟩
        obtain ⟨account, listed⟩ := List.exists_mem_of_ne_nil _ opened
        exact ⟨account, keyed rule username user account reaches listed⟩
      · rintro ⟨account, key, rule, username, user, reaches, listed, -⟩
        exact ⟨rule, username, user, reaches, List.ne_nil_of_mem listed⟩
    · intro metadata resolved entry listed
      obtain ⟨rule, username, user, reaches, opened⟩ :=
        (account_served_iff resolved entry.sshUser).mp ⟨entry, listed, rfl⟩
      rw [(resolve_host_some resolved).1] at listed
      exact (collected_entry_filled_iff listed).mpr
        (keyed rule username user entry.sshUser reaches opened)

end Resolution

/-- A rule opens root on every host to alice, who has no key. -/
def keylessState : IdentityState where
  users := (∅ : HashMap String UserResource).insert "alice"
    { plainUser "alice" "" with spec := { displayName := "alice", uid := 1000 } }
  hostAccess := (∅ : HashMap String HostAccessResource).insert "operators"
    (everyHostRule "operators" "alice" "root" true)

/-- The host has metadata with an empty entry, though no key is granted. -/
theorem keyless_user_makes_metadata : ¬ ∀ (ip : IpAddr) (hostname : String)
    (hostLabels : Option (HashMap String String)) (identity : IdentityState)
    (config : MetadataConfig),
    ServesGrants identity hostname hostLabels
      (@resolveHost cloudConfigText ip hostname hostLabels identity config) := by
  intro always
  have serves := always (.v4 10 0 0 5) "web1" none keylessState localConfig
  have resolved : ((@resolveHost cloudConfigText (.v4 10 0 0 5) "web1" none keylessState
      localConfig).map fun metadata => metadata.publicKeys) =
        some [{ sshUser := "root", keys := [] }] := by decide +kernel
  obtain ⟨metadata, found, entries⟩ := Option.map_eq_some_iff.mp resolved
  exact serves.filled metadata found { sshUser := "root", keys := [] } (by simp [entries]) rfl

end CloudId
