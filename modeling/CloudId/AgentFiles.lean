import CloudId.AgentOutages
import CloudId.Library.Renames

/-! `refresh` and the key files it leaves on the host. A run goes from line to line of the
index, and installs the keys of a user in single operations on the file tree, each of which may
fail; it may also be killed between two of them, and the next run begins on what is there. An
operation that fails may have done a part of its work, so what the tree looks like within an
operation is what a failing one leaves. -/
namespace CloudId
open FileSystem Disk Effects GuardedRun

/-! ## Runs -/

/-- The directory in which `refresh` installs the keys of a user. -/
def keysDir (sshUser : String) : String :=
  join (join (homeOf sshUser) ".ssh") "authorized_keys.d"

def keysFile (sshUser : String) : String := join (keysDir sshUser) "cloudid"

def tmpFile (sshUser : String) : String := join (keysDir sshUser) ".cloudid.tmp"

/-- The operations of an installation. -/
inductive InstallStep where
  | createDirAll
  | create
  | writeAll
  | rename
  | removeFile
  deriving DecidableEq

namespace InstallStep

/-- The operation on the files of a user. The permissions of a file are no part of the tree. -/
def run (sshUser keys : String) : InstallStep → FileM Unit
  | createDirAll => FileSystem.createDirAll (keysDir sshUser)
  | create => write (tmpFile sshUser) .empty
  | writeAll => write (tmpFile sshUser) keys.toUTF8
  | rename => FileSystem.rename (tmpFile sshUser) (keysFile sshUser)
  | removeFile => FileSystem.removeFile (tmpFile sshUser)

/-- The operation that comes next, by whether this one has succeeded. -/
def next : InstallStep → Bool → Option InstallStep
  | createDirAll, true => some create
  | createDirAll, false => none
  | create, true => some writeAll
  | create, false => none
  | writeAll, true => some rename
  | writeAll, false => some removeFile
  | rename, true => none
  | rename, false => some removeFile
  | removeFile, _ => none

end InstallStep

/-- Where the agent stands: no run is going on, a run has some lines of the index before it, or
it installs the keys of a user first. -/
inductive AgentStage where
  | idle
  | lines (rest : List String)
  | installing (sshUser keys : String) (step : InstallStep) (rest : List String)
  deriving DecidableEq

/-- A host on which `refresh` is run again and again. -/
structure Host where
  disk : Disk
  stage : AgentStage := .idle
  /-- The users of the lines for which a successful response brought a body, with the body. -/
  received : List (String × String) := []

/-- The agent goes on, with the end of the request that it makes now if it makes one, or it is
killed. -/
inductive HostEvent where
  | goes (ended : RequestEnd)
  | killed
  deriving DecidableEq

namespace Host

/-- What a run does with the index. -/
def takeIndex (host : Host) : RequestEnd → Host
  | .failed => host
  | .response false _ => host
  | .response true none => host
  | .response true (some body) => { host with stage := .lines (Text.lines body) }

/-- What a run does with the next line of the index. -/
def takeLine (host : Host) (line : String) (rest : List String) (ended : RequestEnd) : Host :=
  if line = "" then { host with stage := .lines rest }
  else
    match Text.splitFirst line '=' with
    | none => { host with stage := .lines rest }
    | some (_, sshUser) =>
      match ended with
      | .failed => { host with stage := .idle }
      | .response false _ => { host with stage := .lines rest }
      | .response true none => { host with stage := .idle }
      | .response true (some keys) =>
        { host with
          stage :=
            if Text.trim keys = "" then .lines rest
            else .installing sshUser keys .createDirAll rest
          received := host.received ++ [(sshUser, keys)] }

def step (host : Host) : HostEvent → Host
  | .killed => { host with stage := .idle }
  | .goes ended =>
    match host.stage with
    | .idle => host.takeIndex ended
    | .lines [] => { host with stage := .idle }
    | .lines (line :: rest) => host.takeLine line rest ended
    | .installing sshUser keys step rest =>
      let result := step.run sshUser keys host.disk
      { host with
        disk := finalState result
        stage :=
          match step.next (isOk result) with
          | some next => .installing sshUser keys next rest
          | none => .lines rest }

end Host

/-! ## Key files -/

/-- A user name without a slash. -/
def PlainName (sshUser : String) : Prop := '/' ∉ sshUser.toList

instance (sshUser : String) : Decidable (PlainName sshUser) := by
  unfold PlainName
  infer_instance

/-- The user names of the lines. -/
def userNames (lines : List String) : List String :=
  lines.filterMap fun line => (Text.splitFirst line '=').map Prod.snd

/-- An index that arrives now has plain user names. -/
def Host.PlainIndex (host : Host) : HostEvent → Prop
  | .goes (.response true (some body)) =>
    host.stage = .idle → ∀ sshUser ∈ userNames (Text.lines body), PlainName sshUser
  | _ => True

/-- The two names lead to one home directory. -/
def SameHome (first second : String) : Prop :=
  first = second ∨ (first ∈ ["", "."] ∧ second ∈ ["", "."])

/-- The content is the whole body, not all blank, of a successful response for a line of a user
who shares the home. -/
def Host.Received (host : Host) (sshUser : String) (content : ByteArray) : Prop :=
  ∃ owner keys, (owner, keys) ∈ host.received ∧ SameHome owner sshUser ∧
    Text.trim keys ≠ "" ∧ content = keys.toUTF8

/-- What the key file of each user holds has been received. -/
def Host.HoldsReceived (host : Host) : Prop :=
  ∀ sshUser, PlainName sshUser → ∀ content,
    host.disk.fileAt (keysFile sshUser) = some content → host.Received sshUser content

/-- The key file is there. -/
def Host.HasKeys (sshUser : String) (host : Host) : Prop :=
  (host.disk.fileAt (keysFile sshUser)).isSome

/-- A host before a run: nothing is at the place of a user's key file but what earlier runs
have received. -/
structure Host.Begins (host : Host) : Prop where
  sound : host.disk.Sound
  idle : host.stage = .idle
  received : ∀ sshUser, PlainName sshUser → ∀ content,
    host.disk.node? (host.disk.spelled (keysFile sshUser)) = some (.file content) →
      host.Received sshUser content

/-! ## Places -/

/-- Where the home of a user is. -/
def homePlace (sshUser : String) : List String := spell [] (homeOf sshUser)

def keysPlace (sshUser : String) : List String :=
  homePlace sshUser ++ [".ssh", "authorized_keys.d", "cloudid"]

def tmpPlace (sshUser : String) : List String :=
  homePlace sshUser ++ [".ssh", "authorized_keys.d", ".cloudid.tmp"]

theorem home_absolute (sshUser : String) : isAbsolute (homeOf sshUser) = true := by
  rw [homeOf]
  split
  · decide
  · rw [isAbsolute, String.toList_append]
    rfl

theorem spelled_home (disk : Disk) (sshUser : String) :
    disk.spelled (homeOf sshUser) = homePlace sshUser := by
  rw [Disk.spelled, homePlace, spell, spell, if_pos (home_absolute sshUser),
    if_pos (home_absolute sshUser)]

theorem spelled_keys_dir (disk : Disk) (sshUser : String) :
    disk.spelled (keysDir sshUser) = homePlace sshUser ++ [".ssh", "authorized_keys.d"] := by
  have ssh : Ordinary ".ssh" := by decide
  have keys : Ordinary "authorized_keys.d" := by decide
  rw [keysDir, spelled_join_ordinary keys, spelled_join_ordinary ssh, spelled_home,
    List.append_assoc]
  rfl

theorem spelled_keys_file (disk : Disk) (sshUser : String) :
    disk.spelled (keysFile sshUser) = keysPlace sshUser := by
  have ordinary : Ordinary "cloudid" := by decide
  rw [keysFile, spelled_join_ordinary ordinary, spelled_keys_dir, List.append_assoc]
  rfl

theorem spelled_tmp_file (disk : Disk) (sshUser : String) :
    disk.spelled (tmpFile sshUser) = tmpPlace sshUser := by
  have ordinary : Ordinary ".cloudid.tmp" := by decide
  rw [tmpFile, spelled_join_ordinary ordinary, spelled_keys_dir, List.append_assoc]
  rfl

/-- No temporary file is in the place of a key file. -/
theorem keys_place_ne_tmp_place (sshUser other : String) : keysPlace sshUser ≠ tmpPlace other := by
  intro same
  have ends := (List.append_inj' same rfl).2
  exact absurd ends (by decide)

theorem home_place_eq {sshUser : String} (plain : PlainName sshUser) :
    homePlace sshUser =
      if sshUser = "root" then ["root"]
      else if sshUser = "" ∨ sshUser = "." then ["home"]
      else if sshUser = ".." then []
      else ["home", sshUser] := by
  rw [homePlace, spell, if_pos (home_absolute sshUser), homeOf]
  split
  · decide
  · have home : names ("/home/" ++ sshUser) = "home" :: names sshUser := names_slash "/home" sshUser
    rw [home]
    by_cases empty : sshUser = ""
    · subst empty
      decide
    · rw [names_single empty plain]
      simp only [empty, false_or]
      rfl

/-- Two users have their homes in one place exactly if they share the home. -/
theorem home_place_eq_iff {sshUser other : String} (plain : PlainName sshUser)
    (plain' : PlainName other) : homePlace sshUser = homePlace other ↔ SameHome sshUser other := by
  rw [home_place_eq plain, home_place_eq plain', SameHome, List.mem_pair, List.mem_pair]
  split_ifs <;> grind

/-! ## One operation -/

namespace InstallStep

variable {disk : Disk} {sshUser keys : String}

theorem run_within (sound : disk.Sound) (step : InstallStep) :
    disk.Within (fun _ => True) (finalState (step.run sshUser keys disk)) := by
  cases step with
  | createDirAll => exact (create_dir_all_within sound _).weaken fun _ _ => trivial
  | create => exact (write_within sound _ _).weaken fun _ _ => trivial
  | writeAll => exact (write_within sound _ _).weaken fun _ _ => trivial
  | rename => exact (rename_within sound _ _).weaken fun _ _ => trivial
  | removeFile => exact (remove_within sound _).weaken fun _ _ => trivial

/-- No operation changes the file at the place of a key file, except that the rename replaces
it by the temporary file. -/
theorem run_files (sound : disk.Sound) (step : InstallStep) (owner : String) :
    (∀ content, (finalState (step.run sshUser keys disk)).node? (keysPlace owner) =
        some (.file content) ↔ disk.node? (keysPlace owner) = some (.file content)) ∨
      (step = rename ∧ keysPlace owner = keysPlace sshUser ∧
        ∃ content, disk.node? (tmpPlace sshUser) = some (.file content) ∧
          (finalState (step.run sshUser keys disk)).node? (keysPlace owner) =
            some (.file content)) := by
  have elsewhere : ∀ next, disk.Within (fun probe => '\x00' ∉ (tmpFile sshUser).toList ∧
      probe = disk.spelled (tmpFile sshUser)) next →
      next.node? (keysPlace owner) = disk.node? (keysPlace owner) := by
    intro next within
    by_contra differs
    have there := (within.changed _ (Ne.symm differs)).2
    rw [spelled_tmp_file] at there
    exact keys_place_ne_tmp_place _ _ there
  cases step with
  | createDirAll => exact .inl (create_dir_all_files _ _ _)
  | create =>
    left
    intro content
    rw [run, elsewhere _ (write_within sound _ _)]
  | writeAll =>
    left
    intro content
    rw [run, elsewhere _ (write_within sound _ _)]
  | removeFile =>
    left
    intro content
    rw [run, elsewhere _ (remove_within sound _)]
  | rename =>
    have within := rename_within sound (tmpFile sshUser) (keysFile sshUser)
    rw [spelled_tmp_file, spelled_keys_file] at within
    rw [run]
    cases moved : FileSystem.rename (tmpFile sshUser) (keysFile sshUser) disk with
    | error error next =>
      rw [rename_error moved]
      exact .inl fun _ => Iff.rfl
    | ok value next =>
      obtain ⟨content, held, put⟩ := rename_moves moved
      rw [spelled_tmp_file] at held
      rw [spelled_keys_file] at put
      by_cases same : keysPlace owner = keysPlace sshUser
      · rw [same]
        exact .inr ⟨rfl, rfl, content, held, put⟩
      · left
        intro other
        rw [moved] at within
        have unchanged : next.node? (keysPlace owner) = disk.node? (keysPlace owner) := by
          by_contra differs
          rcases within.changed _ (Ne.symm differs) with at_tmp | at_keys
          · exact keys_place_ne_tmp_place _ _ at_tmp
          · exact same at_keys
        rw [finalState, unchanged]

/-- After the body has been written the temporary file holds it. -/
theorem ready_after {step : InstallStep}
    (goes : step.next (isOk (step.run sshUser keys disk)) = some rename) :
    (finalState (step.run sshUser keys disk)).node? (tmpPlace sshUser) =
      some (.file keys.toUTF8) := by
  cases result : step.run sshUser keys disk with
  | error error next =>
    rw [result] at goes
    cases step <;> cases goes
  | ok value next =>
    rw [result] at goes
    cases step with
    | writeAll =>
      have stored := write_stores result
      rw [spelled_tmp_file] at stored
      exact stored
    | createDirAll => cases goes
    | create => cases goes
    | rename => cases goes
    | removeFile => cases goes

end InstallStep

/-! ## Every run -/

/-- The lines that a run has before it. -/
def AgentStage.rest : AgentStage → List String
  | .idle => []
  | .lines rest => rest
  | .installing _ _ _ rest => rest

namespace Host

/-- What has come before an operation of an installation. -/
structure Installs (host : Host) (sshUser keys : String) (step : InstallStep) : Prop where
  plain : PlainName sshUser
  received : (sshUser, keys) ∈ host.received
  not_blank : Text.trim keys ≠ ""
  ready : step = .rename → host.disk.node? (tmpPlace sshUser) = some (.file keys.toUTF8)

/-- What holds at every moment. -/
structure Safe (host : Host) : Prop where
  sound : host.disk.Sound
  files : ∀ owner, PlainName owner → ∀ content,
    host.disk.node? (keysPlace owner) = some (.file content) → host.Received owner content
  plain : ∀ sshUser ∈ userNames host.stage.rest, PlainName sshUser
  installs : ∀ sshUser keys step rest, host.stage = .installing sshUser keys step rest →
    host.Installs sshUser keys step

theorem Begins.safe {host : Host} (begins : host.Begins) : host.Safe where
  sound := begins.sound
  files := by
    intro owner plain content held
    rw [← spelled_keys_file host.disk] at held
    exact begins.received owner plain content held
  plain := by
    rw [begins.idle]
    exact fun _ => nofun
  installs := by
    intro sshUser keys step rest installing
    rw [begins.idle] at installing
    cases installing

/-- The key files of a safe host hold what has been received. -/
theorem Safe.holds_received {host : Host} (safe : host.Safe) : host.HoldsReceived := by
  intro sshUser plain content held
  have node := node_of_file_at held
  rw [spelled_keys_file] at node
  exact safe.files sshUser plain content node

theorem Received.mono {first second : Host} {sshUser : String} {content : ByteArray}
    (held : first.Received sshUser content)
    (grown : ∀ entry ∈ first.received, entry ∈ second.received) :
    second.Received sshUser content := by
  obtain ⟨owner, keys, listed, shared, not_blank, whole⟩ := held
  exact ⟨owner, keys, grown _ listed, shared, not_blank, whole⟩

/-- The agent goes on to another stage, perhaps with one more body. -/
theorem Safe.move {host : Host} (safe : host.Safe) {stage : AgentStage}
    {received : List (String × String)} (grown : ∀ entry ∈ host.received, entry ∈ received)
    (plain : ∀ sshUser ∈ userNames stage.rest, PlainName sshUser)
    (installs : ∀ sshUser keys step rest, stage = .installing sshUser keys step rest →
      { host with stage, received : Host }.Installs sshUser keys step) :
    { host with stage, received : Host }.Safe where
  sound := safe.sound
  files owner plain content held := (safe.files owner plain content held).mono grown
  plain := plain
  installs := installs

/-- A run goes on with the lines that are left, or it ends. -/
theorem Safe.rest_or_end {host : Host} (safe : host.Safe) {stage : AgentStage}
    (plain : ∀ sshUser ∈ userNames stage.rest, PlainName sshUser)
    (no_install : ∀ sshUser keys step rest, stage ≠ .installing sshUser keys step rest) :
    { host with stage }.Safe :=
  safe.move (fun _ => id) plain fun sshUser keys step rest at_step =>
    absurd at_step (no_install sshUser keys step rest)

theorem user_names_cons {line sshUser : String} {rest : List String}
    (listed : sshUser ∈ userNames rest) : sshUser ∈ userNames (line :: rest) := by
  obtain ⟨other, there, split⟩ := List.mem_filterMap.mp listed
  exact List.mem_filterMap.mpr ⟨other, List.mem_cons_of_mem _ there, split⟩

theorem Safe.take_line {host : Host} (safe : host.Safe) {line : String} {rest : List String}
    (at_line : host.stage = .lines (line :: rest)) (ended : RequestEnd) :
    (host.takeLine line rest ended).Safe := by
  have listed := safe.plain
  rw [at_line] at listed
  have plain : ∀ sshUser ∈ userNames rest, PlainName sshUser :=
    fun sshUser later => listed sshUser (user_names_cons later)
  have skipped : { host with stage := .lines rest }.Safe := safe.rest_or_end plain (by simp)
  have ended_ : { host with stage := .idle }.Safe :=
    safe.rest_or_end (fun _ => nofun) (by simp)
  rw [takeLine]
  split
  · exact skipped
  · split
    · exact skipped
    · rename_i index sshUser split_
      split
      · exact ended_
      · exact skipped
      · exact ended_
      · rename_i keys
        have grown : ∀ entry ∈ host.received, entry ∈ host.received ++ [(sshUser, keys)] :=
          fun _ => List.mem_append_left _
        by_cases blank : Text.trim keys = ""
        · rw [if_pos blank]
          exact safe.move grown plain (by simp)
        · rw [if_neg blank]
          refine safe.move grown plain ?_
          rintro _ _ _ _ ⟨⟩
          refine ⟨?_, List.mem_append_right _ (List.mem_singleton_self _), blank, nofun⟩
          exact listed sshUser (List.mem_filterMap.mpr ⟨line, List.mem_cons_self, by rw [split_]; rfl⟩)

/-- An operation of an installation keeps the host safe, whether or not it succeeds. -/
theorem Safe.install {host : Host} (safe : host.Safe) {sshUser keys : String} {step : InstallStep}
    {rest : List String} (at_step : host.stage = .installing sshUser keys step rest)
    (ended : RequestEnd) : (host.step (.goes ended)).Safe := by
  have installs := safe.installs _ _ _ _ at_step
  have plain := safe.plain
  rw [at_step] at plain
  rw [Host.step, at_step]
  refine ⟨(step.run_within safe.sound).sound, ?_, ?_, ?_⟩
  · intro owner owner_plain content held
    rcases step.run_files safe.sound owner with kept | ⟨renames, same, whole, tmp, put⟩
    · exact (safe.files owner owner_plain content ((kept content).mp held)).mono fun _ => id
    · have bytes : content = keys.toUTF8 := by
        rw [installs.ready renames] at tmp
        cases tmp
        rw [put] at held
        cases held
        rfl
      have shared : SameHome sshUser owner :=
        (home_place_eq_iff installs.plain owner_plain).mp (List.append_inj' same rfl).1.symm
      exact ⟨sshUser, keys, installs.received, shared, installs.not_blank, bytes⟩
  · dsimp only
    split
    · exact plain
    · exact plain
  · intro other keys' later rest' at_later
    dsimp only at at_later
    split at at_later
    · rename_i next goes
      cases at_later
      refine ⟨installs.plain, installs.received, installs.not_blank, ?_⟩
      rintro rfl
      exact InstallStep.ready_after goes
    · cases at_later

theorem Safe.step {host : Host} (safe : host.Safe) {event : HostEvent}
    (plain : host.PlainIndex event) : (host.step event).Safe := by
  cases event with
  | killed => exact safe.rest_or_end (fun _ => nofun) (by simp)
  | goes ended =>
    cases at_stage : host.stage with
    | idle =>
      rw [Host.step, at_stage]
      rcases ended with _ | ⟨_ | _, _ | body⟩
      · exact safe
      · exact safe
      · exact safe
      · exact safe
      · exact safe.rest_or_end (plain at_stage) (by simp)
    | lines rest =>
      cases rest with
      | nil =>
        rw [Host.step, at_stage]
        exact safe.rest_or_end (fun _ => nofun) (by simp)
      | cons line rest =>
        rw [Host.step, at_stage]
        exact safe.take_line at_stage ended
    | installing sshUser keys step rest => exact safe.install at_stage ended

theorem take_line_disk (host : Host) (line : String) (rest : List String) (ended : RequestEnd) :
    (host.takeLine line rest ended).disk = host.disk := by
  rw [takeLine]
  split
  · rfl
  · split
    · rfl
    · rcases ended with _ | ⟨_ | _, _ | keys⟩ <;> rfl

/-- Only the operations of an installation change the files. -/
theorem step_disk (host : Host) (event : HostEvent) :
    (host.step event).disk = host.disk ∨ ∃ sshUser keys, ∃ step : InstallStep,
      (host.step event).disk = finalState (step.run sshUser keys host.disk) := by
  cases event with
  | killed => exact .inl rfl
  | goes ended =>
    rw [Host.step]
    cases host.stage with
    | idle => rcases ended with _ | ⟨_ | _, _ | body⟩ <;> exact .inl rfl
    | lines rest =>
      cases rest with
      | nil => exact .inl rfl
      | cons line rest => exact .inl (take_line_disk host line rest ended)
    | installing sshUser keys step rest => exact .inr ⟨sshUser, keys, step, rfl⟩

/-- No step takes a key file away. -/
theorem Safe.has_keys_step {host : Host} (safe : host.Safe) {sshUser : String} (event : HostEvent)
    (has : host.HasKeys sshUser) : (host.step event).HasKeys sshUser := by
  obtain ⟨before, held⟩ := Option.isSome_iff_exists.mp has
  rcases host.step_disk event with same | ⟨user, keys, step, ran⟩
  · rw [HasKeys, same]
    exact has
  · have node := node_of_file_at held
    rw [spelled_keys_file] at node
    have stays : ∀ after, (finalState (step.run user keys host.disk)).node? (keysPlace sshUser) =
        some (.file after) → (host.step event).HasKeys sshUser := by
      intro after there
      rw [← spelled_keys_file host.disk] at there
      rw [HasKeys, ran, file_at_of_keeps (step.run_within safe.sound).keeps held there]
      rfl
    rcases step.run_files safe.sound sshUser with kept | ⟨-, -, after, -, put⟩
    · exact stays before ((kept before).mpr node)
    · exact stays after put

end Host

/-- The file that `refresh` installs is the one that `try_local_keys` reads. -/
theorem keys_file_eq (sshUser : String) : keysFile sshUser = localKeysFile sshUser := by
  have ssh : Ordinary ".ssh" := by decide
  have keys : Ordinary "authorized_keys.d" := by decide
  rw [keysFile, keysDir, join_join keys (by decide), join_join ssh (by decide)]
  rfl

/-- What the keys command gets from the key file, if anything, has been received. -/
theorem Host.HoldsReceived.printed {host : Host} (holds : host.HoldsReceived) {sshUser : String}
    (plain : PlainName sshUser) {printed : String} {next : Disk}
    (ran : tryLocalKeys sshUser host.disk = .ok printed next) (something : printed ≠ "") :
    host.Received sshUser printed.toUTF8 := by
  cases met : host.disk.fault host.disk.ticks with
  | some fault =>
    rw [try_local_keys_error (read_to_string_faulty met _)] at ran
    cases ran
    exact absurd rfl something
  | none =>
    rcases read_to_string_calm met (localKeysFile sshUser) with ⟨text, held, read⟩ |
      ⟨error, -, failed⟩
    · rw [try_local_keys_ok read] at ran
      cases ran
      obtain ⟨bytes, file, decoded⟩ := Option.bind_eq_some_iff.mp held
      rw [to_utf8_from_utf8 decoded]
      rw [← keys_file_eq] at file
      exact holds sshUser plain bytes file
    · rw [try_local_keys_error failed] at ran
      cases ran
      exact absurd rfl something

/-- The answer of the server to a request for keys. -/
def keysAnswer : Except StatusCode String → RequestEnd
  | .error _ => .response false none
  | .ok keys => .response true (some keys)

/-- Against the server of the model, a line leads to an installation exactly if the run of
`refresh` over the metadata has it write a file, for the same user and with the same keys. -/
theorem take_line_refresh_line {ip : IpAddr} {position : String → Option Nat} (host : Host)
    (server : AppState) (line : String) (rest : List String) (ended : RequestEnd)
    (answered : ∀ index sshUser, Text.splitFirst line '=' = some (index, sshUser) →
      ended = keysAnswer (openSshKey ip position server index)) :
    (host.takeLine line rest ended).stage =
      match (refreshLine ip position server line rest true true).2 with
      | some file => .installing file.sshUser file.keys .createDirAll rest
      | none => .lines rest := by
  rw [Host.takeLine, refreshLine]
  by_cases empty : line = ""
  · rw [if_pos empty, if_pos empty]
  · rw [if_neg empty, if_neg empty]
    rcases split_ : Text.splitFirst line '=' with _ | ⟨index, sshUser⟩
    · rfl
    · rw [answered index sshUser split_]
      dsimp only
      cases openSshKey ip position server index with
      | error status => rfl
      | ok keys =>
        by_cases blank : Text.trim keys = ""
        · simp [keysAnswer, blank]
        · simp [keysAnswer, blank]

/-- **No run of `refresh` destroys working keys.**  Over every sequence of runs, with any ends
of the requests, any failures of the file operations and any kills, the key file of each user
holds at every moment the whole body, not all blank, of a successful response for a line of
that user, unless there is none; and once it is there it stays.  The user names "" and "." lead
to one home, so their file is the one of either. -/
theorem refresh_keeps_working_keys (host : Host) (events : List HostEvent) (begins : host.Begins)
    (plain : Each Host.step Host.PlainIndex host events) :
    Throughout Host.step Host.HoldsReceived host events ∧
      ∀ sshUser, Lasts Host.step (Host.HasKeys sshUser) host events := by
  have keeps : ∀ state event, Host.Safe state → Host.PlainIndex state event →
      (state.step event).Safe := fun _ _ safe => safe.step
  constructor
  · exact (throughout_of_each Host.Safe keeps begins.safe plain).mono fun _ => Host.Safe.holds_received
  · intro sshUser
    exact lasts_of_each Host.Safe keeps (fun _ event safe => safe.has_keys_step event) begins.safe plain

/-- What the key file of each user holds has been received for a line of that very user. -/
def Host.HoldsOwn (host : Host) : Prop :=
  ∀ sshUser, PlainName sshUser → ∀ content,
    host.disk.fileAt (keysFile sshUser) = some content →
      ∃ keys, (sshUser, keys) ∈ host.received ∧ Text.trim keys ≠ "" ∧ content = keys.toUTF8

/-- A host without files. -/
def bareHost : Host where
  disk := {}

theorem bare_host_begins : bareHost.Begins where
  sound := by
    refine ⟨rfl, fun place name held => ?_⟩
    rw [node?, if_neg (by simp)] at held
    cases held
  idle := rfl
  received := by
    intro sshUser plain content held
    rw [spelled_keys_file, node?, if_neg (by simp [keysPlace])] at held
    cases held

/-- The keys of a line arrive, and are installed without a failure. -/
def installed (keys : String) : List HostEvent :=
  .goes (.response true (some keys)) :: List.replicate 4 (.goes .failed)

def indexed (body : String) : HostEvent := .goes (.response true (some body))

instance (host : Host) (event : HostEvent) : Decidable (host.PlainIndex event) :=
  match event with
  | .killed => .isTrue trivial
  | .goes .failed => .isTrue trivial
  | .goes (.response false _) => .isTrue trivial
  | .goes (.response true none) => .isTrue trivial
  | .goes (.response true (some body)) =>
    inferInstanceAs (Decidable (host.stage = .idle →
      ∀ sshUser ∈ userNames (Text.lines body), PlainName sshUser))

/-- Root's keys are installed, and stay. -/
theorem root_keys_stay :
    Throughout Host.step Host.HoldsReceived bareHost
        (indexed "0=root" :: installed "ssh-ed25519 AAAA") ∧
      Lasts Host.step (Host.HasKeys "root") bareHost
        (indexed "0=root" :: installed "ssh-ed25519 AAAA") := by
  have kept := refresh_keeps_working_keys bareHost
    (indexed "0=root" :: installed "ssh-ed25519 AAAA") bare_host_begins (by decide +kernel)
  exact ⟨kept.1, kept.2 "root"⟩

/-- A run for two names of one home. -/
def twoNames : List HostEvent :=
  indexed "0=\n1=." :: installed "ssh-ed25519 AAAA" ++ installed "ssh-ed25519 BBBB"

/-- The user "" gets the keys of the user ".". -/
theorem dot_replaces_keys : ¬ ∀ host events, Host.Begins host →
    Each Host.step Host.PlainIndex host events → Throughout Host.step Host.HoldsOwn host events := by
  intro always
  have holds := (always bareHost twoNames bare_host_begins (by decide +kernel)).last
  have ended : (twoNames.foldl Host.step bareHost).received =
        [("", "ssh-ed25519 AAAA"), (".", "ssh-ed25519 BBBB")] ∧
      (twoNames.foldl Host.step bareHost).disk.fileAt (keysFile "") =
        some "ssh-ed25519 BBBB".toUTF8 := by decide +kernel
  obtain ⟨received, held⟩ := ended
  obtain ⟨keys, listed, -, bytes⟩ := holds "" (by decide) _ held
  rw [received] at listed
  have keys_eq : keys = "ssh-ed25519 AAAA" := by simpa using listed
  rw [keys_eq] at bytes
  exact absurd bytes (by decide +kernel)

end CloudId
