import CloudId.Agent
import CloudId.ServedAccess

/-! The way of a key from the rules to a host. Against a service that rests, a run of `refresh`
installs for every account of the host exactly the keys that the state admits to it, and
`authorized_keys` prints them for the account. -/
namespace CloudId
open GuardedRun

/-! ## What can be delivered -/

/-- The accounts and the keys of the metadata are one line each, and no key is blank. -/
structure HostMetadata.Deliverable (metadata : HostMetadata) : Prop where
  fits : metadata.publicKeys.length ≤ 2 ^ 64
  accounts : ∀ entry ∈ metadata.publicKeys, Text.PlainLine entry.sshUser
  keys : ∀ entry ∈ metadata.publicKeys, ∀ key ∈ entry.keys,
    Text.PlainLine key ∧ Text.trim key ≠ ""

/-- The line of an entry in the index. -/
def entryLine (entry : PublicKeyEntry × Nat) : String := toString entry.2 ++ "=" ++ entry.1.sshUser

theorem split_entry_line (entry : PublicKeyEntry × Nat) :
    Text.splitFirst (entryLine entry) '=' = some (toString entry.2, entry.1.sshUser) := by
  have digits : '=' ∉ (toString entry.2).toList := by
    rw [Nat.toString_eq_repr, Nat.toList_repr]
    intro listed
    exact absurd (Nat.isDigit_of_mem_toDigits (by decide) (by decide) listed) (by decide)
  have chars : entryLine entry =
      String.ofList ((toString entry.2).toList ++ '=' :: entry.1.sshUser.toList) := by
    rw [← String.toList_inj, String.toList_ofList, entryLine, String.toList_append,
      String.toList_append, List.append_assoc]
    rfl
  rw [chars, Text.split_first_append digits, String.ofList_toList, String.ofList_toList]

theorem entry_line_ne_empty (entry : PublicKeyEntry × Nat) : entryLine entry ≠ "" := by
  intro empty
  have split := split_entry_line entry
  rw [empty] at split
  cases split

theorem index_lines_eq (position : Nat) (entries : List PublicKeyEntry) :
    indexLines position entries =
      String.join (((entries.zipIdx position).map entryLine).map (· ++ "\n")) := by
  induction entries generalizing position with
  | nil => rfl
  | cons entry entries step =>
    rw [indexLines, step, List.zipIdx_cons, List.map_cons, List.map_cons, ← String.toList_inj]
    simp [entryLine, String.toList_join]

/-- The agent reads the index as it is written. -/
theorem lines_of_index {entries : List PublicKeyEntry}
    (plain : ∀ entry ∈ entries, Text.PlainLine entry.sshUser) :
    Text.lines (indexLines 0 entries) = entries.zipIdx.map entryLine := by
  rw [index_lines_eq, Text.lines_terminated]
  intro line listed
  obtain ⟨⟨entry, position⟩, there, rfl⟩ := List.mem_map.mp listed
  have account := plain entry (List.fst_mem_of_mem_zipIdx there)
  have chars : (entryLine (entry, position)).toList =
      (toString position).toList ++ '=' :: entry.sshUser.toList := by
    rw [entryLine, String.toList_append, String.toList_append, List.append_assoc]
    rfl
  refine ⟨?_, ?_⟩
  · rw [chars, List.mem_append, List.mem_cons, not_or, not_or]
    refine ⟨fun listed => ?_, by decide, account.unbroken⟩
    rw [Nat.toString_eq_repr, Nat.toList_repr] at listed
    exact absurd (Nat.isDigit_of_mem_toDigits (by decide) (by decide) listed) (by decide)
  · rw [chars, List.getLast?_append_of_ne_nil _ (by simp), List.getLast?_cons]
    cases last : entry.sshUser.toList.getLast? with
    | none => decide
    | some c =>
      have own := account.no_return
      rw [last] at own
      exact own

/-! ## Runs of `refresh` against a service that rests -/

/-- The file that is written for an entry. -/
def PublicKeyEntry.file (entry : PublicKeyEntry) : KeyFile where
  sshUser := entry.sshUser
  path := keysFilePath entry.sshUser
  keys := entry.served

/-- The files that are written for some entries; none is written for blank keys. -/
def keyFilesOf (entries : List PublicKeyEntry) : List KeyFile :=
  (entries.filter fun entry => Text.trim entry.served ≠ "").map PublicKeyEntry.file

/-- The agent goes on, gets its answer, and can install what it got. -/
def RefreshRun.goes (ip : IpAddr) (position : String → Option Nat) (run : RefreshRun) :
    RefreshRun :=
  run.step ip position (.agent true true)

/-- The HTTP library reads the decimal text of a position in the path of a request. -/
def ReadsDecimals (position : String → Option Nat) : Prop :=
  ∀ index < 2 ^ 64, position (toString index) = some index

section Refresh

variable {ip : IpAddr} {position : String → Option Nat} {server : AppState}
  {metadata : HostMetadata}

theorem open_ssh_key_decimal (decimals : ReadsDecimals position)
    (found : server.getMetadata ip = some metadata) {index : Nat}
    (fits : index < 2 ^ 64) {entry : PublicKeyEntry}
    (there : metadata.publicKeys[index]? = some entry) :
    openSshKey ip position server (toString index) = .ok entry.served := by
  rw [openSshKey, decimals index fits]
  exact public_key_ok_iff.mpr ⟨metadata, entry, found, there, rfl⟩

theorem refresh_entry (decimals : ReadsDecimals position)
    (found : server.getMetadata ip = some metadata) {index : Nat}
    (fits : index < 2 ^ 64) {entry : PublicKeyEntry}
    (there : metadata.publicKeys[index]? = some entry) (rest : List String) :
    refreshLine ip position server (entryLine (entry, index)) rest true true =
      (.lines rest, if Text.trim entry.served = "" then none else some entry.file) := by
  have answered := open_ssh_key_decimal decimals found fits there
  rw [refreshLine, if_neg (entry_line_ne_empty _), split_entry_line]
  dsimp only
  rw [answered]
  by_cases blank : Text.trim entry.served = ""
  · simp [blank]
  · simp [blank, PublicKeyEntry.file]

/-- The lines of the index are worked off in order. -/
theorem refresh_lines (decimals : ReadsDecimals position)
    (found : server.getMetadata ip = some metadata)
    (fits : metadata.publicKeys.length ≤ 2 ^ 64) (rest : List PublicKeyEntry) (place : Nat)
    (there : metadata.publicKeys.drop place = rest) (run : RefreshRun)
    (same : run.server = server)
    (at_lines : run.stage = .lines ((rest.zipIdx place).map entryLine)) :
    (RefreshRun.goes ip position)^[rest.length] run =
      { run with stage := .lines [], installed := run.installed ++ keyFilesOf rest } := by
  induction rest generalizing place run with
  | nil =>
    cases run
    simp_all [keyFilesOf]
  | cons entry rest step =>
    have entry_there : metadata.publicKeys[place]? = some entry := by
      rw [← Nat.add_zero place, ← List.getElem?_drop, there]
      rfl
    have below : place < 2 ^ 64 :=
      (List.getElem?_eq_some_iff.mp entry_there).1.trans_le fits
    have rest_there : metadata.publicKeys.drop (place + 1) = rest := by
      rw [← List.drop_drop, there]
      rfl
    have goes : run.goes ip position = { run with
        stage := .lines ((rest.zipIdx (place + 1)).map entryLine)
        installed := run.installed ++ keyFilesOf [entry] } := by
      rw [List.zipIdx_cons, List.map_cons] at at_lines
      rw [RefreshRun.goes, RefreshRun.step, at_lines]
      dsimp only
      rw [same, refresh_entry decimals found below entry_there]
      by_cases blank : Text.trim entry.served = "" <;> simp [keyFilesOf, blank]
    have files : keyFilesOf (entry :: rest) = keyFilesOf [entry] ++ keyFilesOf rest := by
      by_cases blank : Text.trim entry.served = "" <;> simp [keyFilesOf, blank]
    have later := step (place + 1) rest_there (run.goes ip position) (by rw [goes]; exact same)
      (by rw [goes])
    rw [List.length_cons, Function.iterate_succ_apply, later, goes, files, List.append_assoc]

theorem finished_stays (steps : Nat) {run : RefreshRun} (finished : run.stage = .finished) :
    (RefreshRun.goes ip position)^[steps] run = run := by
  have goes : run.goes ip position = run := by
    rw [RefreshRun.goes, RefreshRun.step, finished]
    cases run
    simp_all
  exact Function.iterate_fixed goes steps

/-- **A run of `refresh` against a service that rests** installs the keys of every entry. -/
theorem refresh_run (decimals : ReadsDecimals position)
    (found : server.getMetadata ip = some metadata)
    (deliverable : metadata.Deliverable) {steps : Nat}
    (enough : metadata.publicKeys.length + 2 ≤ steps) :
    let run := (RefreshRun.goes ip position)^[steps] (.start ip server)
    run.stage = .finished ∧ run.installed = keyFilesOf metadata.publicKeys := by
  obtain ⟨more, rfl⟩ := Nat.exists_eq_add_of_le enough
  let begun : RefreshRun := { RefreshRun.start ip server with
    stage := .lines (metadata.publicKeys.zipIdx.map entryLine) }
  have index : (RefreshRun.start ip server).goes ip position = begun := by
    have body : publicKeysIndex server ip = .ok (indexLines 0 metadata.publicKeys) := by
      rw [publicKeysIndex, lookupOr404, found]
    simp [RefreshRun.goes, RefreshRun.step, RefreshRun.start, body,
      lines_of_index deliverable.accounts, begun]
  have lines := refresh_lines decimals found deliverable.fits metadata.publicKeys 0 rfl begun rfl rfl
  have ends : RefreshRun.goes ip position
      { begun with stage := .lines [], installed := begun.installed ++ keyFilesOf metadata.publicKeys } =
      { begun with stage := .finished, installed := keyFilesOf metadata.publicKeys } := by
    simp [RefreshRun.goes, RefreshRun.step, begun, RefreshRun.start]
  have order : metadata.publicKeys.length + 2 + more = more + (1 + (metadata.publicKeys.length + 1)) := by
    omega
  rw [order, Function.iterate_add_apply, Function.iterate_add_apply,
    Function.iterate_succ_apply _ metadata.publicKeys.length, index, lines, Function.iterate_one, ends,
    finished_stays more rfl]
  exact ⟨rfl, rfl⟩

end Refresh

/-! ## Runs of `authorized_keys` against a service that rests -/

/-- The agent goes on and gets its answer. -/
def QueryRun.goes (ip : IpAddr) (position : String → Option Nat) (username : String)
    (localKeys : Option String) (run : QueryRun) : QueryRun :=
  run.step ip position username localKeys (.agent true true)

theorem index_of_entries {entries : List PublicKeyEntry}
    (plain : ∀ entry ∈ entries, Text.PlainLine entry.sshUser) (username : String) :
    indexOf username (indexLines 0 entries) =
      (entries.zipIdx.find? fun entry => entry.1.sshUser = username).map fun entry =>
        toString entry.2 := by
  rw [indexOf, lines_of_index plain, List.findSome?_map]
  induction entries.zipIdx with
  | nil => rfl
  | cons entry rest step =>
    rw [List.findSome?_cons, List.find?_cons]
    simp only [Function.comp_apply, if_neg (entry_line_ne_empty entry), split_entry_line]
    by_cases own : entry.1.sshUser = username
    · simp [own]
    · simp only [own, if_false, decide_false]
      exact step

/-- **A run of `authorized_keys` against a service that rests** prints the keys of the account. -/
theorem query_run {ip : IpAddr} {position : String → Option Nat}
    (decimals : ReadsDecimals position) {server : AppState} {metadata : HostMetadata}
    (found : server.getMetadata ip = some metadata) (deliverable : metadata.Deliverable)
    {entry : PublicKeyEntry} (listed : entry ∈ metadata.publicKeys)
    (once : (metadata.publicKeys.map PublicKeyEntry.sshUser).Nodup) (localKeys : Option String) :
    ((QueryRun.goes ip position entry.sshUser localKeys)^[2] (.start ip server)).printed =
      some entry.served := by
  have body : publicKeysIndex server ip = .ok (indexLines 0 metadata.publicKeys) := by
    rw [publicKeysIndex, lookupOr404, found]
  cases first : metadata.publicKeys.zipIdx.find? fun own => own.1.sshUser = entry.sshUser with
  | none =>
    obtain ⟨index, there⟩ := List.getElem?_of_mem listed
    have other := List.find?_eq_none.mp first (entry, index)
      (List.mk_mem_zipIdx_iff_getElem?.mpr there)
    simp at other
  | some own =>
    obtain ⟨own, index⟩ := own
    have there := List.mk_mem_zipIdx_iff_getElem?.mp (List.mem_of_find?_eq_some first)
    have account : own.sshUser = entry.sshUser := by simpa using List.find?_some first
    obtain rfl := List.inj_on_of_nodup_map once (List.mem_of_getElem? there) listed account
    have below : index < 2 ^ 64 :=
      (List.getElem?_eq_some_iff.mp there).1.trans_le deliverable.fits
    have answered := open_ssh_key_decimal decimals found below there
    rw [Nat.toString_eq_repr] at answered
    have own_index := index_of_entries deliverable.accounts own.sshUser
    rw [first, Option.map_some] at own_index
    simp [QueryRun.goes, QueryRun.step, QueryRun.start, body, own_index, answered]

/-! ## From the rules to the host -/

/-- The file of an entry has its keys as lines. -/
theorem lines_served {metadata : HostMetadata} (deliverable : metadata.Deliverable)
    {entry : PublicKeyEntry} (listed : entry ∈ metadata.publicKeys) :
    Text.lines entry.served = entry.keys := by
  rw [PublicKeyEntry.served]
  rcases List.eq_nil_or_concat entry.keys with none_held | ⟨init, last, keys⟩
  · rw [none_held]
    rfl
  · have own := deliverable.keys entry listed
    rw [keys] at own ⊢
    have nonempty : last ≠ "" := by
      rintro rfl
      exact (own "" (by simp)).2 (by decide)
    rw [List.concat_eq_append, Text.lines_join (fun key held => (own key (by simp [held])).1)
      (own last (by simp)).1.unbroken, if_neg nonempty]

theorem served_not_blank {metadata : HostMetadata} (deliverable : metadata.Deliverable)
    {entry : PublicKeyEntry} (listed : entry ∈ metadata.publicKeys) {key : String}
    (held : key ∈ entry.keys) : Text.trim entry.served ≠ "" := by
  intro blank
  refine (deliverable.keys entry listed key held).2 (Text.trim_eq_empty_iff.mpr fun c inside => ?_)
  exact Text.trim_eq_empty_iff.mp blank c (Text.mem_join_of_mem "\n" held inside)

/-- **The agent delivers what is admitted.** Against a service that rests after a rebuild, a run of
`refresh` installs for each account its keys, those only and once, and `authorized_keys` prints the
same keys. -/
theorem agent_delivers_what_is_admitted [Serialize CloudConfig] (state : AppState) (ip : IpAddr)
    {position : String → Option Nat} (decimals : ReadsDecimals position)
    {steps : Nat} (some_step : 1 ≤ steps)
    (deliverable : ∀ metadata, state.rebuildCache.getMetadata ip = some metadata →
      metadata.Deliverable ∧ metadata.publicKeys.length + 2 ≤ steps) :
    let run := (RefreshRun.goes ip position)^[steps] (.start ip state.rebuildCache)
    run.stage = .finished ∧ (run.installed.map KeyFile.sshUser).Nodup ∧
    (∀ sshUser key, Admits state ip sshUser key ↔
      ∃ file ∈ run.installed, file.sshUser = sshUser ∧ file.path = keysFilePath sshUser ∧
        key ∈ Text.lines file.keys) ∧
    ∀ sshUser, (∃ key, Admits state ip sshUser key) → ∀ localKeys, ∃ printed,
      ((QueryRun.goes ip position sshUser localKeys)^[2] (.start ip state.rebuildCache)).printed =
        some printed ∧ ∀ key, Admits state ip sshUser key ↔ key ∈ Text.lines printed := by
  have left := rebuilt_entries state ip
  cases found : state.rebuildCache.getMetadata ip with
  | none =>
    rw [found] at left
    obtain ⟨more, rfl⟩ := Nat.exists_eq_add_of_le' some_step
    let server := state.rebuildCache
    have refused : publicKeysIndex server ip = .error .notFound := by
      rw [publicKeysIndex, lookupOr404, found]
    have ends : (RefreshRun.start ip server).goes ip position =
        { RefreshRun.start ip server with stage := .finished } := by
      simp [RefreshRun.goes, RefreshRun.step, RefreshRun.start, refused]
    have rests : (RefreshRun.goes ip position)^[more + 1] (.start ip server) =
        { RefreshRun.start ip server with stage := .finished } := by
      rw [Function.iterate_succ_apply, ends, finished_stays more rfl]
    rw [rests]
    refine ⟨rfl, List.nodup_nil, fun sshUser key => iff_of_false (left sshUser key) ?_, ?_⟩
    · rintro ⟨file, installed, -⟩
      cases installed
    · rintro sshUser ⟨key, admitted⟩
      exact absurd admitted (left sshUser key)
  | some metadata =>
    rw [found] at left
    obtain ⟨-, lists⟩ := left
    obtain ⟨plain, enough⟩ := deliverable metadata found
    obtain ⟨finished, installed⟩ := refresh_run decimals found plain enough
    refine ⟨finished, ?_, fun sshUser key => ?_, ?_⟩
    · rw [installed, keyFilesOf, List.map_map]
      exact lists.accounts.sublist (List.filter_sublist.map PublicKeyEntry.sshUser)
    · rw [installed, lists.keys]
      simp only [keyFilesOf, List.mem_map, List.mem_filter, decide_eq_true_eq]
      constructor
      · rintro ⟨entry, listed, rfl, held⟩
        refine ⟨entry.file, ⟨entry, ⟨listed, served_not_blank plain listed held⟩, rfl⟩, rfl, rfl, ?_⟩
        exact (lines_served plain listed).symm ▸ held
      · rintro ⟨_, ⟨entry, ⟨listed, -⟩, rfl⟩, rfl, -, held⟩
        exact ⟨entry, listed, rfl, lines_served plain listed ▸ held⟩
    · rintro sshUser ⟨key, admitted⟩ localKeys
      obtain ⟨entry, listed, rfl, -⟩ := (lists.keys sshUser key).mp admitted
      refine ⟨entry.served, query_run decimals found plain listed lists.accounts localKeys, fun key => ?_⟩
      rw [lists.keys, lines_served plain listed]
      constructor
      · rintro ⟨other, listed', account, held⟩
        obtain rfl := List.inj_on_of_nodup_map lists.accounts listed' listed account
        exact held
      · exact fun held => ⟨entry, listed, rfl, held⟩

/-- The host `web1` has two accounts, with one key. -/
theorem web1_deliverable (metadata : HostMetadata)
    (found : (@AppState.rebuildCache cloudConfigText singleHost.app).getMetadata (.v4 10 0 0 5) =
      some metadata) : metadata.Deliverable ∧ metadata.publicKeys.length + 2 ≤ 4 := by
  have known : ((@AppState.rebuildCache cloudConfigText singleHost.app).getMetadata
      (.v4 10 0 0 5)).map HostMetadata.publicKeys =
        some [{ sshUser := "admin", keys := ["ssh-ed25519 AAAA"] },
          { sshUser := "root", keys := ["ssh-ed25519 AAAA"] }] := by decide +kernel
  rw [found, Option.map_some, Option.some.injEq] at known
  have key : Text.PlainLine "ssh-ed25519 AAAA" ∧ Text.trim "ssh-ed25519 AAAA" ≠ "" :=
    ⟨⟨by decide, by decide⟩, by decide⟩
  have admin : Text.PlainLine "admin" := ⟨by decide, by decide⟩
  have root : Text.PlainLine "root" := ⟨by decide, by decide⟩
  exact ⟨⟨by rw [known]; decide, by simp [known, admin, root], by simp [known, key]⟩,
    by rw [known]; decide⟩

theorem agent_delivers_what_is_admitted_web1 :
    let server := @AppState.rebuildCache cloudConfigText singleHost.app
    let run := (RefreshRun.goes (.v4 10 0 0 5) decimalPosition)^[4] (.start (.v4 10 0 0 5) server)
    run.stage = .finished ∧ (run.installed.map KeyFile.sshUser).Nodup ∧
    (∀ sshUser key, Admits singleHost.app (.v4 10 0 0 5) sshUser key ↔
      ∃ file ∈ run.installed, file.sshUser = sshUser ∧ file.path = keysFilePath sshUser ∧
        key ∈ Text.lines file.keys) ∧
    ∀ sshUser, (∃ key, Admits singleHost.app (.v4 10 0 0 5) sshUser key) → ∀ localKeys, ∃ printed,
      ((QueryRun.goes (.v4 10 0 0 5) decimalPosition sshUser localKeys)^[2]
        (.start (.v4 10 0 0 5) server)).printed = some printed ∧
      ∀ key, Admits singleHost.app (.v4 10 0 0 5) sshUser key ↔ key ∈ Text.lines printed :=
  @agent_delivers_what_is_admitted cloudConfigText singleHost.app (.v4 10 0 0 5) decimalPosition
    (fun _ fits => Text.parse_unsigned_decimal fits) 4 (by decide) web1_deliverable

end CloudId
