import CloudId.Cache
import CloudId.Library.Effects

/-! IMDS session tokens over whole runs. Every issue takes the next number, which its token
spells out, so no token is issued twice and no issue overwrites another; pruning removes
nothing but expired tokens, which stay expired because the clock does not go back. A clock
reading is below 2^63, so the sum of a reading and a lifetime does not overflow. -/
namespace CloudId
open Effects FileSystem

/-! ## The text of a token -/

/-- The token that is issued at a clock reading under a number. -/
def imdsTokenText (now seq : Nat) : String :=
  "cloudid-" ++ Text.paddedHex 16 now ++ "-" ++ Text.paddedHex 8 seq

theorem imds_token_text_injective {now now' seq seq' : Nat}
    (same : imdsTokenText now seq = imdsTokenText now' seq') : now = now' ∧ seq = seq' := by
  have no_dash : ∀ width n, '-' ∉ (Text.paddedHex width n).toList :=
    Text.not_mem_padded_hex (by decide)
  have chars : ∀ now seq : Nat, (imdsTokenText now seq).toList = "cloudid-".toList ++
      ((Text.paddedHex 16 now).toList ++ '-' :: (Text.paddedHex 8 seq).toList) := by
    intro now seq
    rw [imdsTokenText, String.toList_append, String.toList_append, String.toList_append,
      List.append_assoc, List.append_assoc]
    rfl
  have same_chars := congrArg String.toList same
  rw [chars, chars, List.append_cancel_left_eq] at same_chars
  obtain ⟨times, numbers⟩ := Text.fields_injective (no_dash 16 now) (no_dash 16 now') same_chars
  exact ⟨Text.padded_hex_injective 16 (String.toList_inj.mp times),
    Text.padded_hex_injective 8 (String.toList_inj.mp numbers)⟩

/-! ## Runs -/

/-- A state that a run of the service reaches, with the tokens issued so far and a clock
reading that all readings of the run are up to. -/
inductive Serving : AppState → List ImdsToken → Nat → Prop where
  | start {state : AppState} (none_issued : state.imdsTokens = ∅) (first : state.tokenCounter = 1) :
    Serving state [] 0
  | issue {state : AppState} {issued : List ImdsToken} {clock : Nat}
    (serving : Serving state issued clock) (ip : IpAddr) (ttlSecs : UInt32) (now : Nat)
    (prunedAt : String → Nat) (later : Nat) (after : clock ≤ now)
    (in_time : ∀ token, now ≤ prunedAt token ∧ prunedAt token ≤ later) (not_before : now ≤ later) :
    Serving (state.generateImdsToken ip ttlSecs now prunedAt).2
      (issued ++ [{
        token := (state.generateImdsToken ip ttlSecs now prunedAt).1
        ip
        ttlSecs
        createdAt := now }]) later
  /-- A validation, or a step of anything else in the service. -/
  | other {state state' : AppState} {issued : List ImdsToken} {clock : Nat}
    (serving : Serving state issued clock) (same_tokens : state'.imdsTokens = state.imdsTokens)
    (same_counter : state'.tokenCounter = state.tokenCounter) (now : Nat) (after : clock ≤ now) :
    Serving state' issued now

/-- What the state knows of the tokens issued. -/
structure Tracked (state : AppState) (issued : List ImdsToken) (clock : Nat) : Prop where
  counter : state.tokenCounter = UInt64.ofNat (issued.length + 1)
  numbered : ∀ (index : Nat) (entry : ImdsToken), issued[index]? = some entry →
    entry.token = imdsTokenText entry.createdAt (index + 1)
  only_issued : ∀ token entry, state.imdsTokens.lookup token = some entry →
    entry ∈ issued ∧ entry.token = token
  kept : ∀ entry ∈ issued, clock ≤ entry.createdAt + entry.ttlSecs.toNat →
    state.imdsTokens.lookup entry.token = some entry

theorem tracked_start {state : AppState} (none_issued : state.imdsTokens = ∅)
    (first : state.tokenCounter = 1) : Tracked state [] 0 where
  counter := first
  numbered := nofun
  only_issued := by
    intro token entry held
    rw [none_issued, AList.lookup_empty] at held
    cases held
  kept := nofun

theorem Tracked.issue {state : AppState} {issued : List ImdsToken} {clock : Nat}
    (tracked : Tracked state issued clock) (fewer : issued.length + 1 < 2 ^ 64) (ip : IpAddr)
    (ttlSecs : UInt32) {now later : Nat} {prunedAt : String → Nat} (after : clock ≤ now)
    (in_time : ∀ token, now ≤ prunedAt token ∧ prunedAt token ≤ later) (not_before : now ≤ later) :
    Tracked (state.generateImdsToken ip ttlSecs now prunedAt).2
      (issued ++ [{
        token := (state.generateImdsToken ip ttlSecs now prunedAt).1
        ip
        ttlSecs
        createdAt := now }]) later := by
  have number : state.tokenCounter.toNat = issued.length + 1 := by
    rw [tracked.counter, UInt64.toNat_ofNat_of_lt' fewer]
  let token := imdsTokenText now (issued.length + 1)
  let new : ImdsToken := { token, ip, ttlSecs, createdAt := now }
  have issued_token : (state.generateImdsToken ip ttlSecs now prunedAt).1 = token := by
    change imdsTokenText now state.tokenCounter.toNat = token
    rw [number]
  have tokens : ∀ probe, (state.generateImdsToken ip ttlSecs now prunedAt).2.imdsTokens.lookup probe =
      (if probe = token then some new else state.imdsTokens.lookup probe).filter
        fun entry => !entry.isExpired (prunedAt probe) := by
    intro probe
    have held : (state.generateImdsToken ip ttlSecs now prunedAt).2.imdsTokens =
        HashMap.retain (fun token entry => !entry.isExpired (prunedAt token))
          (state.imdsTokens.insert (imdsTokenText now state.tokenCounter.toNat)
            { token := imdsTokenText now state.tokenCounter.toNat, ip, ttlSecs, createdAt := now }) :=
      rfl
    rw [held, HashMap.lookup_retain, number, HashMap.lookup_insert_eq]
  rw [issued_token]
  have fresh : ∀ entry ∈ issued, entry.token ≠ token := by
    intro entry listed same
    obtain ⟨index, at_index⟩ := List.mem_iff_getElem?.mp listed
    rw [tracked.numbered index entry at_index] at same
    have numbers := (imds_token_text_injective same).2
    have inside := (List.getElem?_eq_some_iff.mp at_index).1
    omega
  exact {
    counter := by
      change state.tokenCounter + 1 = _
      rw [tracked.counter, List.length_append, List.length_singleton, UInt64.ofNat_add (_ + 1)]
      rfl
    numbered := by
      intro index entry at_index
      rw [List.getElem?_append] at at_index
      split at at_index
      · exact tracked.numbered index entry at_index
      · rename_i beyond
        obtain ⟨inside, held⟩ := List.getElem?_eq_some_iff.mp at_index
        rw [List.length_singleton] at inside
        have last : index = issued.length := by omega
        subst last
        have same : new = entry := by simpa using at_index
        rw [← same]
    only_issued := by
      intro probe entry held
      rw [tokens] at held
      obtain ⟨held, -⟩ := Option.filter_eq_some_iff.mp held
      split at held
      · rename_i same
        cases held
        exact ⟨List.mem_append_right _ List.mem_cons_self, same.symm⟩
      · obtain ⟨listed, named⟩ := tracked.only_issued probe entry held
        exact ⟨List.mem_append_left _ listed, named⟩
    kept := by
      intro entry listed alive
      have unexpired : (!entry.isExpired (prunedAt entry.token)) = true := by
        have before := (in_time entry.token).2
        rw [ImdsToken.isExpired]
        simp only [Bool.not_eq_true', decide_eq_false_iff_not]
        omega
      rw [tokens]
      refine Option.filter_eq_some_iff.mpr ⟨?_, unexpired⟩
      rcases List.mem_append.mp listed with listed | listed
      · rw [if_neg (fresh entry listed)]
        exact tracked.kept entry listed (by omega)
      · rw [List.mem_singleton.mp listed, if_pos rfl] }

/-- **Every run keeps track of its tokens.** -/
theorem serving_tracked {state : AppState} {issued : List ImdsToken} {clock : Nat}
    (serving : Serving state issued clock) (fewer : issued.length < 2 ^ 64) :
    Tracked state issued clock := by
  induction serving with
  | start none_issued first => exact tracked_start none_issued first
  | issue serving ip ttlSecs now prunedAt later after in_time not_before step =>
    rw [List.length_append, List.length_singleton] at fewer
    exact (step (by omega)).issue fewer ip ttlSecs after in_time not_before
  | other serving same_tokens same_counter now after step =>
    have tracked := step fewer
    exact {
      counter := by rw [same_counter, tracked.counter]
      numbered := tracked.numbered
      only_issued := by
        rw [same_tokens]
        exact tracked.only_issued
      kept := by
        intro entry listed alive
        rw [same_tokens]
        exact tracked.kept entry listed (after.trans alive) }

/-- A fresh service starts a run. -/
theorem new_serving [Deserialize AssignmentsFile] [Deserialize OneshotState]
    {readFile : String → Option String} {config : Config} {disk disk' : Disk} {state : AppState}
    (made : AppState.new readFile config disk = .ok state disk') : Serving state [] 0 := by
  rw [AppState.new] at made
  obtain ⟨_, _, -, loaded⟩ := bind_eq_ok.mp made
  obtain ⟨assignments, _, -, loaded⟩ := bind_eq_ok.mp loaded
  obtain ⟨oneshot, _, -, made⟩ := bind_eq_ok.mp loaded
  obtain ⟨rfl, -⟩ := EStateM.Result.ok.inj made
  exact .start rfl rfl

/-- **Tokens are unique and bound to their host and lifetime.** -/
theorem imds_tokens_bound {state : AppState} {issued : List ImdsToken} {clock : Nat}
    (serving : Serving state issued clock) (fewer : issued.length < 2 ^ 64) :
    (issued.map ImdsToken.token).Nodup ∧
    (∀ token now ip, clock ≤ now → (state.validateImdsToken token now = some ip ↔
      ∃ entry ∈ issued, entry.token = token ∧ entry.ip = ip ∧
        now ≤ entry.createdAt + entry.ttlSecs.toNat)) ∧
    ∀ entry ∈ issued, clock ≤ entry.createdAt + entry.ttlSecs.toNat →
      state.imdsTokens.lookup entry.token = some entry := by
  have tracked := serving_tracked serving fewer
  refine ⟨?_, fun token now ip after => ?_, tracked.kept⟩
  · rw [List.nodup_iff_getElem?_ne_getElem?]
    intro first second before inside same
    rw [List.length_map] at inside
    have at_first := List.getElem?_eq_getElem (before.trans inside)
    have at_second := List.getElem?_eq_getElem inside
    rw [List.getElem?_map, List.getElem?_map, at_first, at_second] at same
    have tokens : issued[first].token = issued[second].token := Option.some.inj same
    rw [tracked.numbered first _ at_first, tracked.numbered second _ at_second] at tokens
    have numbers := (imds_token_text_injective tokens).2
    omega
  · rw [AppState.validateImdsToken, Option.map_eq_some_iff]
    have alive : ∀ entry : ImdsToken, (!entry.isExpired now) = true ↔
        now ≤ entry.createdAt + entry.ttlSecs.toNat := by
      intro entry
      rw [ImdsToken.isExpired]
      simp only [Bool.not_eq_true', decide_eq_false_iff_not]
      omega
    constructor
    · rintro ⟨entry, found, bound⟩
      obtain ⟨held, unexpired⟩ := Option.filter_eq_some_iff.mp found
      obtain ⟨listed, named⟩ := tracked.only_issued token entry held
      exact ⟨entry, listed, named, bound, (alive entry).mp unexpired⟩
    · rintro ⟨entry, listed, rfl, bound, in_time⟩
      have held := tracked.kept entry listed (after.trans in_time)
      exact ⟨entry, Option.filter_eq_some_iff.mpr ⟨held, (alive entry).mpr in_time⟩, bound⟩

/-- A service that has issued nothing yet. -/
def freshService : AppState where
  templateStore := { dataDir := "/var/lib/cloudid" }
  config := { metadata := { domainSuffix := ".local", availabilityZone := "rack1" } }

/-- Two hosts get a token in one second, and a third one when the second token has expired. -/
def threeIssues : AppState :=
  (((freshService.generateImdsToken (.v4 10 0 0 5) 60 7 fun _ => 7).2.generateImdsToken
    (.v4 10 0 0 6) 10 7 fun _ => 7).2.generateImdsToken (.v4 10 0 0 7) 60 30 fun _ => 30).2

/-- The first token is good up to its last second, and the second one has been pruned. -/
theorem imds_tokens_bound_pruned :
    threeIssues.validateImdsToken (imdsTokenText 7 1) 67 = some (.v4 10 0 0 5) ∧
    threeIssues.validateImdsToken (imdsTokenText 7 2) 30 = none ∧
    imdsTokenText 7 2 ∉ threeIssues.imdsTokens := by
  have started : Serving freshService [] 0 := .start rfl rfl
  have first := started.issue (.v4 10 0 0 5) 60 7 (fun _ => 7) 7 (Nat.zero_le 7)
    (fun _ => ⟨le_rfl, le_rfl⟩) le_rfl
  have second := first.issue (.v4 10 0 0 6) 10 7 (fun _ => 7) 7 le_rfl
    (fun _ => ⟨le_rfl, le_rfl⟩) le_rfl
  have third := second.issue (.v4 10 0 0 7) 60 30 (fun _ => 30) 30 (by decide)
    (fun _ => ⟨le_rfl, le_rfl⟩) le_rfl
  obtain ⟨-, bound, -⟩ := imds_tokens_bound third (by decide)
  refine ⟨(bound _ _ _ (by decide)).mpr ⟨_, List.mem_cons_self, rfl, rfl, by decide⟩, ?_, by decide⟩
  by_contra present
  obtain ⟨ip, valid⟩ := Option.ne_none_iff_exists'.mp present
  obtain ⟨entry, listed, named, -, in_time⟩ := (bound _ _ _ le_rfl).mp valid
  simp only [List.nil_append, List.cons_append, List.mem_cons, List.not_mem_nil, or_false] at listed
  rcases listed with rfl | rfl | rfl
  · exact absurd named (by decide)
  · exact absurd in_time (by decide)
  · exact absurd named (by decide)

end CloudId
