import CloudId.Library.GuardedRun
import CloudId.CacheProofs
import CloudId.Metadata

/-! `agent/main.rs`: the host agent. It asks for the index of the public keys, and
then for the keys of one position after another, while the server goes on; so the
metadata may be another one at each request. A run of the agent is followed step
by step between changes of the server. -/
namespace CloudId
open GuardedRun

/-! ## Runs -/

/-- Where `refresh` stands: before the index request, before the remaining lines of
the index, or at its end. -/
inductive RefreshStage where
  | begin
  | lines (rest : List String)
  | finished
  deriving DecidableEq

/-- A file `authorized_keys.d/cloudid` that was written for an account. -/
structure KeyFile where
  sshUser : String
  path : String
  keys : String
  deriving DecidableEq

/-- The path of the key file of an account. -/
def keysFilePath (sshUser : String) : String :=
  (if sshUser = "root" then "/root" else "/home/" ++ sshUser) ++
    "/.ssh/authorized_keys.d/cloudid"

/-- A run of `refresh` against a server that goes on meanwhile. -/
structure RefreshRun where
  server : AppState
  stage : RefreshStage := .begin
  installed : List KeyFile := []
  /-- The metadata of the host at the moments of the run so far. -/
  moments : List HostMetadata

/-- A step: the server changes, or the agent goes on. Its next request may fail to
get an answer, and it may fail to install what it got. -/
inductive AgentStep where
  | serverChanges (server : AppState)
  | agent (answered installs : Bool)

section Refresh

variable (ip : IpAddr) (position : String → Option Nat)

/-- The answer to the request for the keys at an index, as it stands in the path of
the request; a text that the server reads as no position is refused. -/
def openSshKey (server : AppState) (index : String) : Except StatusCode String :=
  match position index with
  | some position => publicKey server ip position
  | none => .error .notFound

/-- What `refresh` does with one line of the index: the rest of the run, and the file
it writes. Without an answer the run ends. -/
def refreshLine (server : AppState) (line : String) (rest : List String)
    (answered installs : Bool) : RefreshStage × Option KeyFile :=
  if line = "" then (.lines rest, none)
  else
    match Text.splitFirst line '=' with
    | none => (.lines rest, none)
    | some (index, sshUser) =>
      if !answered then (.finished, none)
      else
        match openSshKey ip position server index with
        | .error _ => (.lines rest, none)
        | .ok keys =>
          if Text.trim keys = "" ∨ !installs then (.lines rest, none)
          else (.lines rest, some { sshUser, path := keysFilePath sshUser, keys })

/-- One step of a run of `refresh`. -/
def RefreshRun.step (run : RefreshRun) : AgentStep → RefreshRun
  | .serverChanges server =>
    { run with server, moments := run.moments ++ (server.getMetadata ip).toList }
  | .agent answered installs =>
    match run.stage with
    | .finished | .lines [] => { run with stage := .finished }
    | .begin =>
      if !answered then { run with stage := .finished }
      else
        match publicKeysIndex run.server ip with
        | .error _ => { run with stage := .finished }
        | .ok body => { run with stage := .lines (Text.lines body) }
    | .lines (line :: rest) =>
      let (stage, file) := refreshLine ip position run.server line rest answered installs
      { run with stage, installed := run.installed ++ file.toList }

/-- A run that begins now. -/
def RefreshRun.start (server : AppState) : RefreshRun where
  server
  moments := (server.getMetadata ip).toList

end Refresh

/-- The metadata holds this list of keys under the account. -/
def HostMetadata.Holds (metadata : HostMetadata) (sshUser keys : String) : Prop :=
  ∃ entry ∈ metadata.publicKeys, entry.sshUser = sshUser ∧ entry.served = keys

instance (metadata : HostMetadata) (sshUser keys : String) :
    Decidable (metadata.Holds sshUser keys) :=
  inferInstanceAs (Decidable (∃ entry ∈ metadata.publicKeys, _))

/-- Every file that was written for an account contains a list that the metadata
held under the account at some moment of the run. -/
def RefreshRun.InstallsOwnKeys (run : RefreshRun) : Prop :=
  ∀ file ∈ run.installed, ∃ metadata ∈ run.moments, metadata.Holds file.sshUser file.keys

/-- The server reads the index as a position, and the entry that the metadata has
there now is the one of the account. -/
def PositionKept (ip : IpAddr) (position : String → Option Nat) (server : AppState)
    (index sshUser : String) : Prop :=
  ∀ metadata place entry, server.getMetadata ip = some metadata → position index = some place →
    metadata.publicKeys[place]? = some entry → entry.sshUser = sshUser

/-- If the agent asks for the keys of a line now, the line's position has been
kept. -/
def RefreshRun.Kept (ip : IpAddr) (position : String → Option Nat) (run : RefreshRun) :
    AgentStep → Prop
  | .serverChanges _ => True
  | .agent _ _ =>
    ∀ line rest index sshUser, run.stage = .lines (line :: rest) →
      Text.splitFirst line '=' = some (index, sshUser) →
      PositionKept ip position run.server index sshUser

section Refresh

variable {ip : IpAddr} {position : String → Option Nat}

theorem kept_holds {server : AppState} {index sshUser keys : String}
    (kept : PositionKept ip position server index sshUser)
    (served : openSshKey ip position server index = .ok keys) :
    ∃ metadata, server.getMetadata ip = some metadata ∧ metadata.Holds sshUser keys := by
  rw [openSshKey] at served
  cases read : position index with
  | none =>
    rw [read] at served
    cases served
  | some place =>
    rw [read] at served
    obtain ⟨metadata, entry, found, there, same⟩ := public_key_ok_iff.mp served
    exact ⟨metadata, found, entry, List.mem_of_getElem? there,
      kept metadata place entry found read there, same⟩

/-- What one line makes the agent write is what it was served. -/
theorem refresh_line_file {server : AppState} {line : String} {rest : List String}
    {answered installs : Bool} {file : KeyFile}
    (written : (refreshLine ip position server line rest answered installs).2 = some file) :
    ∃ index, Text.splitFirst line '=' = some (index, file.sshUser) ∧
      openSshKey ip position server index = .ok file.keys := by
  rw [refreshLine] at written
  split at written
  · cases written
  · split at written
    · cases written
    · rename_i index sshUser split_
      split at written
      · cases written
      · split at written
        · cases written
        · rename_i keys served
          split at written
          · cases written
          · cases written
            exact ⟨index, split_, served⟩

/-- The metadata of now is one of the moments. -/
def RefreshRun.Witnessed (ip : IpAddr) (run : RefreshRun) : Prop :=
  ∀ metadata, run.server.getMetadata ip = some metadata → metadata ∈ run.moments

/-- A step adds to the moments, and writes at most what one line makes it write. -/
theorem refresh_step_cases (run : RefreshRun) (step : AgentStep) :
    (∃ server, step = .serverChanges server ∧ run.step ip position step =
      { run with server, moments := run.moments ++ (server.getMetadata ip).toList }) ∨
    (∃ stage, (∃ answered installs, step = .agent answered installs) ∧
      run.step ip position step = { run with stage }) ∨
    (∃ answered installs line rest stage file, step = .agent answered installs ∧
      run.stage = .lines (line :: rest) ∧
      (refreshLine ip position run.server line rest answered installs).2 = some file ∧
      run.step ip position step = { run with stage, installed := run.installed ++ [file] }) := by
  cases step with
  | serverChanges server => exact Or.inl ⟨server, rfl, rfl⟩
  | agent answered installs =>
    right
    rw [RefreshRun.step]
    split
    · exact Or.inl ⟨_, ⟨_, _, rfl⟩, rfl⟩
    · exact Or.inl ⟨_, ⟨_, _, rfl⟩, rfl⟩
    · left
      split
      · exact ⟨_, ⟨_, _, rfl⟩, rfl⟩
      · split
        · exact ⟨_, ⟨_, _, rfl⟩, rfl⟩
        · exact ⟨_, ⟨_, _, rfl⟩, rfl⟩
    · rename_i line rest at_line
      cases made : refreshLine ip position run.server line rest answered installs with
      | mk stage file =>
        cases file with
        | none =>
          refine Or.inl ⟨stage, ⟨_, _, rfl⟩, ?_⟩
          simp
        | some file =>
          exact Or.inr ⟨answered, installs, line, rest, stage, file, rfl, at_line, by rw [made], rfl⟩

theorem refresh_step_witnessed {run : RefreshRun} (witnessed : run.Witnessed ip)
    (step : AgentStep) : (run.step ip position step).Witnessed ip := by
  rcases refresh_step_cases run step with ⟨server, -, after⟩ | ⟨stage, -, after⟩ |
    ⟨_, _, _, _, stage, file, -, -, -, after⟩
  · rw [after]
    intro metadata held
    exact List.mem_append_right _ (Option.mem_toList.mpr held)
  · rw [after]
    exact witnessed
  · rw [after]
    exact witnessed

/-- A step that finds the position of its line kept installs own keys only. -/
theorem refresh_step_installs_own {run : RefreshRun} (witnessed : run.Witnessed ip)
    (own : run.InstallsOwnKeys) {step : AgentStep} (kept : run.Kept ip position step) :
    (run.step ip position step).InstallsOwnKeys := by
  rcases refresh_step_cases run step with ⟨server, -, after⟩ | ⟨stage, -, after⟩ |
    ⟨answered, installs, line, rest, stage, file, rfl, at_line, written, after⟩
  · rw [after]
    intro file installed
    obtain ⟨metadata, moment, holds⟩ := own file installed
    exact ⟨metadata, List.mem_append_left _ moment, holds⟩
  · rw [after]
    exact own
  · rw [after]
    intro other installed
    rcases List.mem_append.mp installed with before | now
    · exact own other before
    · rw [List.mem_singleton.mp now]
      obtain ⟨index, split_, served⟩ := refresh_line_file written
      obtain ⟨metadata, found, holds⟩ :=
        kept_holds (kept line rest index file.sshUser at_line split_) served
      exact ⟨metadata, witnessed metadata found, holds⟩

end Refresh

/-! ## The keys command -/

/-- Where `authorized_keys` stands: before the index request, before the request for
the keys of the position that the index has for the account, or at its end. -/
inductive QueryStage where
  | begin
  | asking (index : String)
  | finished
  deriving DecidableEq

/-- A run of `authorized_keys` for an account. -/
structure QueryRun where
  server : AppState
  stage : QueryStage := .begin
  printed : Option String := none
  /-- The metadata of the host at the moments of the run so far. -/
  moments : List HostMetadata

/-- The index of the first line of the account. -/
def indexOf (username body : String) : Option String :=
  (Text.lines body).findSome? fun line =>
    if line = "" then none
    else
      match Text.splitFirst line '=' with
      | some (index, sshUser) => if sshUser = username then some index else none
      | none => none

section Query

variable (ip : IpAddr) (position : String → Option Nat) (username : String)
  (localKeys : Option String)

/-- One step of a run of `authorized_keys`. Where the account has no line, or the
index is refused, the local key file is printed (`try_local_keys`), if it can be
read. -/
def QueryRun.step (run : QueryRun) : AgentStep → QueryRun
  | .serverChanges server =>
    { run with server, moments := run.moments ++ (server.getMetadata ip).toList }
  | .agent answered _ =>
    match run.stage with
    | .finished => run
    | .begin =>
      if !answered then { run with stage := .finished }
      else
        match publicKeysIndex run.server ip with
        | .error _ => { run with stage := .finished, printed := localKeys }
        | .ok body =>
          match indexOf username body with
          | some index => { run with stage := .asking index }
          | none => { run with stage := .finished, printed := localKeys }
    | .asking index =>
      if !answered then { run with stage := .finished }
      else
        match openSshKey ip position run.server index with
        | .error _ => { run with stage := .finished }
        | .ok keys => { run with stage := .finished, printed := some keys }

/-- A run that begins now. -/
def QueryRun.start (server : AppState) : QueryRun where
  server
  moments := (server.getMetadata ip).toList

/-- The text that was printed is a list that the metadata held under the account at
some moment of the run. -/
def QueryRun.PrintsOwnKeys (run : QueryRun) : Prop :=
  ∀ keys, run.printed = some keys → ∃ metadata ∈ run.moments, metadata.Holds username keys

/-- The index that is served now lists the account. -/
def Listed (server : AppState) : Prop :=
  ∃ body index, publicKeysIndex server ip = .ok body ∧ indexOf username body = some index

/-- If the agent asks for the index now, it need not fall back on a local key file;
if it asks for the keys of the account now, the position has been kept. -/
def QueryRun.Kept (run : QueryRun) : AgentStep → Prop
  | .serverChanges _ => True
  | .agent _ _ =>
    (run.stage = .begin → Listed ip username run.server ∨ localKeys = none) ∧
      ∀ index, run.stage = .asking index → PositionKept ip position run.server index username

/-- The metadata of now is one of the moments. -/
def QueryRun.Witnessed (run : QueryRun) : Prop :=
  ∀ metadata, run.server.getMetadata ip = some metadata → metadata ∈ run.moments

end Query

section Query

variable {ip : IpAddr} {position : String → Option Nat} {username : String}
  {localKeys : Option String}

/-- A step adds to the moments, prints nothing new, falls back on the local file, or
prints what it was served. -/
theorem query_step_cases (run : QueryRun) (step : AgentStep) :
    (∃ server, step = .serverChanges server ∧ run.step ip position username localKeys step =
      { run with server, moments := run.moments ++ (server.getMetadata ip).toList }) ∨
    (∃ stage, run.step ip position username localKeys step = { run with stage }) ∨
    (∃ answered installs, step = .agent answered installs ∧ run.stage = .begin ∧
      ¬ Listed ip username run.server ∧ run.step ip position username localKeys step =
        { run with stage := .finished, printed := localKeys }) ∨
    (∃ answered installs index keys, step = .agent answered installs ∧
      run.stage = .asking index ∧ openSshKey ip position run.server index = .ok keys ∧
      run.step ip position username localKeys step =
        { run with stage := .finished, printed := some keys }) := by
  cases step with
  | serverChanges server => exact Or.inl ⟨server, rfl, rfl⟩
  | agent answered installs =>
    right
    rw [QueryRun.step]
    split
    · exact Or.inl ⟨run.stage, rfl⟩
    · rename_i at_begin
      split
      · exact Or.inl ⟨_, rfl⟩
      · split
        · rename_i refused
          refine Or.inr (Or.inl ⟨answered, installs, rfl, at_begin, ?_, rfl⟩)
          rintro ⟨body, index, served, -⟩
          rw [refused] at served
          cases served
        · rename_i body served
          split
          · exact Or.inl ⟨_, rfl⟩
          · rename_i absent
            refine Or.inr (Or.inl ⟨answered, installs, rfl, at_begin, ?_, rfl⟩)
            rintro ⟨other, index, served', listed⟩
            rw [served] at served'
            cases served'
            rw [absent] at listed
            cases listed
    · rename_i index asking
      split
      · exact Or.inl ⟨_, rfl⟩
      · split
        · exact Or.inl ⟨_, rfl⟩
        · rename_i keys served
          exact Or.inr (Or.inr ⟨answered, installs, index, keys, rfl, asking, served, rfl⟩)

theorem query_step_witnessed {run : QueryRun} (witnessed : run.Witnessed ip) (step : AgentStep) :
    (run.step ip position username localKeys step).Witnessed ip := by
  rcases query_step_cases run step with ⟨server, -, after⟩ | ⟨stage, after⟩ |
    ⟨_, _, -, -, -, after⟩ | ⟨_, _, index, keys, -, -, -, after⟩
  · rw [after]
    intro metadata held
    exact List.mem_append_right _ (Option.mem_toList.mpr held)
  · rw [after]
    exact witnessed
  · rw [after]
    exact witnessed
  · rw [after]
    exact witnessed

theorem query_step_prints_own {run : QueryRun} (witnessed : run.Witnessed ip)
    (own : run.PrintsOwnKeys username) {step : AgentStep}
    (kept : run.Kept ip position username localKeys step) :
    (run.step ip position username localKeys step).PrintsOwnKeys username := by
  rcases query_step_cases run step with ⟨server, -, after⟩ | ⟨stage, after⟩ |
    ⟨_, _, rfl, at_begin, unlisted, after⟩ | ⟨_, _, index, keys, rfl, asking, served, after⟩
  · rw [after]
    intro printed shown
    obtain ⟨metadata, moment, holds⟩ := own printed shown
    exact ⟨metadata, List.mem_append_left _ moment, holds⟩
  · rw [after]
    exact own
  · rw [after]
    intro printed shown
    have no_file := (kept.1 at_begin).resolve_left unlisted
    rw [no_file] at shown
    cases shown
  · rw [after]
    intro printed shown
    cases shown
    obtain ⟨metadata, found, holds⟩ := kept_holds (kept.2 index asking) served
    exact ⟨metadata, witnessed metadata found, holds⟩

end Query

/-! ## Whole runs -/

/-- **The agent installs and prints an account's own keys as long as the positions
keep their accounts.**  For every interleaving of a run with changes of the server:
if at each request for keys the position still has the entry of the account in the
index, every key file that `refresh` writes for an account contains a list that the
metadata held under the account at some moment of the run; and so does what
`authorized_keys` prints, if it does not fall back on a local key file. -/
theorem agent_uses_own_keys (ip : IpAddr) (position : String → Option Nat) (username : String)
    (localKeys : Option String) (server : AppState) (steps : List AgentStep) :
    (Each (RefreshRun.step ip position) (RefreshRun.Kept ip position) (.start ip server) steps →
      Throughout (RefreshRun.step ip position) RefreshRun.InstallsOwnKeys (.start ip server)
        steps) ∧
    (Each (QueryRun.step ip position username localKeys)
        (QueryRun.Kept ip position username localKeys) (.start ip server) steps →
      Throughout (QueryRun.step ip position username localKeys)
        (QueryRun.PrintsOwnKeys username) (.start ip server) steps) := by
  constructor
  · intro kept
    exact (throughout_of_each
      (fun run : RefreshRun => run.Witnessed ip ∧ run.InstallsOwnKeys)
      (fun run step good kept => ⟨refresh_step_witnessed good.1 step,
        refresh_step_installs_own good.1 good.2 kept⟩)
      ⟨fun _ held => Option.mem_toList.mpr held,
        fun _ installed => absurd installed List.not_mem_nil⟩ kept).mono fun _ good => good.2
  · intro kept
    exact (throughout_of_each
      (fun run : QueryRun => run.Witnessed ip ∧ run.PrintsOwnKeys username)
      (fun run step good kept => ⟨query_step_witnessed good.1 step,
        query_step_prints_own good.1 good.2 kept⟩)
      ⟨fun _ held => Option.mem_toList.mpr held,
        fun _ shown => by cases shown⟩ kept).mono fun _ good => good.2

section Sample

attribute [local instance] cloudConfigText

/-- Only alice may log in to `web1`, as root. -/
def rootOnly : AppState :=
  { bmh := { ipToHostname := (∅ : HashMap IpAddr String).insert (.v4 10 0 0 5) "web1" }
    identity := {
      users := ((∅ : HashMap String UserResource).insert "alice"
        (plainUser "alice" "ssh-ed25519 AAAA")).insert "bob" (plainUser "bob" "ssh-ed25519 BBBB")
      hostAccess := (∅ : HashMap String HostAccessResource).insert "operators"
        (everyHostRule "operators" "alice" "root" true) }
    templateStore := { dataDir := "/var/lib/cloudid" }
    config := { metadata := localConfig } : AppState }.rebuildCache

/-- A rule has come that lets bob log in as `admin`. -/
def adminAdded : AppState :=
  { rootOnly with identity := { rootOnly.identity with
      hostAccess := rootOnly.identity.hostAccess.insert "readers"
        (everyHostRule "readers" "bob" "admin" false) } }.rebuildCache

/-- The index is served, then the rule comes, then the keys are. -/
def ruleComesBetween : List AgentStep :=
  [.agent true true, .serverChanges adminAdded, .agent true true]

/-- The position in the path of a request, as a `usize` is read. -/
def decimalPosition : String → Option Nat := Text.parseUnsigned (2 ^ 64)

/-- A rule has come that lets bob log in as `web`, behind root in the index. -/
def webAdded : AppState :=
  { rootOnly with identity := { rootOnly.identity with
      hostAccess := rootOnly.identity.hostAccess.insert "readers"
        (everyHostRule "readers" "bob" "web" false) } }.rebuildCache

/-- The index is served, then the rule for `web` comes, then the keys are served. -/
def ruleComesBehind : List AgentStep :=
  [.agent true true, .serverChanges webAdded, .agent true true]

theorem web_added_keeps_root : PositionKept (.v4 10 0 0 5) decimalPosition webAdded "0" "root" := by
  intro metadata place entry found read there
  have at_zero : place = 0 := by
    have zero : decimalPosition "0" = some 0 := by decide
    exact Option.some.inj (read.symm.trans zero)
  have root : ((webAdded.getMetadata (.v4 10 0 0 5)).bind fun metadata =>
      metadata.publicKeys[0]?.map PublicKeyEntry.sshUser) = some "root" := by decide +kernel
  rw [at_zero] at there
  rw [found, Option.bind_some, there] at root
  exact Option.some.inj root

/-- The keys that are served after the rule are installed and printed. -/
theorem agent_uses_own_keys_rule_behind :
    (Throughout (RefreshRun.step (.v4 10 0 0 5) decimalPosition) RefreshRun.InstallsOwnKeys
      (.start (.v4 10 0 0 5) rootOnly) ruleComesBehind ∧
    Throughout (QueryRun.step (.v4 10 0 0 5) decimalPosition "root" none)
      (QueryRun.PrintsOwnKeys "root") (.start (.v4 10 0 0 5) rootOnly) ruleComesBehind) ∧
    (ruleComesBehind.foldl (RefreshRun.step (.v4 10 0 0 5) decimalPosition)
      (.start (.v4 10 0 0 5) rootOnly)).installed =
        [{ sshUser := "root", path := "/root/.ssh/authorized_keys.d/cloudid",
           keys := "ssh-ed25519 AAAA" }] ∧
    (ruleComesBehind.foldl (QueryRun.step (.v4 10 0 0 5) decimalPosition "root" none)
      (.start (.v4 10 0 0 5) rootOnly)).printed = some "ssh-ed25519 AAAA" := by
  have own := agent_uses_own_keys (.v4 10 0 0 5) decimalPosition "root" none rootOnly
    ruleComesBehind
  refine ⟨⟨own.1 ⟨?_, trivial, ?_, trivial⟩, own.2 ⟨⟨fun _ => Or.inr rfl, ?_⟩, trivial,
    ⟨fun _ => Or.inr rfl, ?_⟩, trivial⟩⟩, by decide +kernel, by decide +kernel⟩
  · rintro line rest index sshUser ⟨⟩
  · intro line rest index sshUser at_line split_
    have stage : (ruleComesBehind.take 2 |>.foldl (RefreshRun.step (.v4 10 0 0 5) decimalPosition)
        (.start (.v4 10 0 0 5) rootOnly)).stage = .lines ["0=root"] := by decide +kernel
    cases stage.symm.trans at_line
    have parts : Text.splitFirst "0=root" '=' = some ("0", "root") := by decide
    cases parts.symm.trans split_
    exact web_added_keeps_root
  · rintro index ⟨⟩
  · intro index asking
    have stage : (ruleComesBehind.take 2 |>.foldl
        (QueryRun.step (.v4 10 0 0 5) decimalPosition "root" none)
        (.start (.v4 10 0 0 5) rootOnly)).stage = .asking "0" := by decide +kernel
    cases stage.symm.trans asking
    exact web_added_keeps_root

/-- Bob's key is installed for root, where the metadata never held it. -/
theorem rule_between_installs_other_keys :
    ((ruleComesBetween.foldl (RefreshRun.step (.v4 10 0 0 5) decimalPosition)
      (.start (.v4 10 0 0 5) rootOnly)).installed =
        [{ sshUser := "root", path := "/root/.ssh/authorized_keys.d/cloudid",
           keys := "ssh-ed25519 BBBB" }]) ∧
    ¬ Throughout (RefreshRun.step (.v4 10 0 0 5) decimalPosition) RefreshRun.InstallsOwnKeys
      (.start (.v4 10 0 0 5) rootOnly) ruleComesBetween := by
  have installed : (ruleComesBetween.foldl (RefreshRun.step (.v4 10 0 0 5) decimalPosition)
      (.start (.v4 10 0 0 5) rootOnly)).installed =
        [{ sshUser := "root", path := "/root/.ssh/authorized_keys.d/cloudid",
           keys := "ssh-ed25519 BBBB" }] := by decide +kernel
  have never : ∀ metadata ∈ (ruleComesBetween.foldl
      (RefreshRun.step (.v4 10 0 0 5) decimalPosition)
      (.start (.v4 10 0 0 5) rootOnly)).moments,
      ¬ metadata.Holds "root" "ssh-ed25519 BBBB" := by decide +kernel
  refine ⟨installed, fun own => ?_⟩
  obtain ⟨metadata, moment, holds⟩ := own.last _ (by rw [installed]; exact List.mem_singleton_self _)
  exact never metadata moment holds

end Sample

end CloudId
