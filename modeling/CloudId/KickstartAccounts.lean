import CloudId.Kickstart
import CloudId.ResolveProofs

/-! The accounts that a kickstart config provisions. Both builders emit a command for each
key of a system user, and for each identity user with each of its keys; merging leaves out
the system users that the installation does not have. -/
namespace CloudId
open Text

/-! ## Commands -/

/-- A command that provisions an account. -/
inductive AccountCommand where
  | sshkey (username key : String)
  | user (user : CloudConfigUser)
  deriving DecidableEq

/-- The line of a command. -/
def AccountCommand.line (blanks : String) : AccountCommand → String
  | .sshkey username key => sshkeyLine username key
  | .user account => userLine blanks account

/-- The commands for a system user. -/
def PublicKeyEntry.commands (entry : PublicKeyEntry) : List AccountCommand :=
  entry.keys.map (.sshkey entry.sshUser)

/-- The commands for an identity user. -/
def CloudConfigUser.commands (user : CloudConfigUser) : List AccountCommand :=
  .user user :: user.sshAuthorizedKeys.map (.sshkey user.name)

/-- What `generate_kickstart` provisions. -/
def generatedCommands (metadata : HostMetadata) : List AccountCommand :=
  metadata.publicKeys.flatMap PublicKeyEntry.commands ++
    metadata.cloudConfig.users.flatMap CloudConfigUser.commands

/-- What `merge_kickstart` provisions, whatever the base. -/
def mergedCommands (metadata : HostMetadata) : List AccountCommand :=
  (metadata.publicKeys.filter fun entry => accountExists metadata entry.sshUser).flatMap
      PublicKeyEntry.commands ++
    metadata.cloudConfig.users.flatMap CloudConfigUser.commands

/-- What `build_kickstart` provisions. -/
def builtCommands (metadata : HostMetadata) (bmh : Option BareMetalHost) : List AccountCommand :=
  match bmh.bind (·.spec.kickstart) with
  | some _ => mergedCommands metadata
  | none => generatedCommands metadata

theorem system_user_lines_eq (blanks : String) (entry : PublicKeyEntry) :
    systemUserLines entry = entry.commands.map (AccountCommand.line blanks) := by
  rw [systemUserLines, PublicKeyEntry.commands, List.map_map]
  rfl

theorem identity_user_lines_eq (blanks : String) (user : CloudConfigUser) :
    identityUserLines blanks user = user.commands.map (AccountCommand.line blanks) := by
  rw [identityUserLines, CloudConfigUser.commands, List.map_cons, List.map_map]
  rfl

/-- The lines of system and identity users are the lines of their commands. -/
theorem account_lines_eq (blanks : String) (entries : List PublicKeyEntry)
    (users : List CloudConfigUser) :
    entries.flatMap systemUserLines ++ users.flatMap (identityUserLines blanks) =
      (entries.flatMap PublicKeyEntry.commands ++ users.flatMap CloudConfigUser.commands).map
        (AccountCommand.line blanks) := by
  rw [List.map_append, List.map_flatMap, List.map_flatMap, funext (system_user_lines_eq blanks),
    funext (identity_user_lines_eq blanks)]

/-! ## The texts -/

/-- The command for the hostname. -/
def hostnameLine (metadata : HostMetadata) : String := "network --hostname=" ++ metadata.hostname

/-- The lines before the commands of a generated config. -/
def generatedHead (metadata : HostMetadata) : List String :=
  ["#version=RHEL9", "# Generated by CloudID", "", "lang en_US.UTF-8", "keyboard us",
    "timezone UTC --utc", hostnameLine metadata, "rootpw --lock", ""]

/-- The lines after them. -/
def generatedTail : List String := ["", "reboot", "", "%packages", "@core", "%end"]

/-- The hostname is due where the base does not set it. -/
def dueHostname (lines : List String) (metadata : HostMetadata) : List String :=
  if lines.any setsHostname then [] else [hostnameLine metadata]

theorem generate_kickstart_eq (metadata : HostMetadata) :
    generateKickstart metadata = join "\n" (generatedHead metadata ++
      (generatedCommands metadata).map (AccountCommand.line " ") ++ (generatedTail ++ [""])) := by
  rw [generateKickstart, join_terminated, generatedCommands, ← account_lines_eq]
  simp only [List.append_assoc]
  rfl

theorem extra_lines_eq (lines : List String) (metadata : HostMetadata) :
    extraLines lines metadata =
      dueHostname lines metadata ++ (mergedCommands metadata).map (AccountCommand.line "  ") := by
  rw [extraLines, mergedCommands, ← account_lines_eq, List.append_assoc]
  rfl

/-- The block that a merge inserts: the added lines, and a blank line after them. -/
def insertedBlock (lines : List String) (metadata : HostMetadata) : List String :=
  if extraLines lines metadata = [] then [] else extraLines lines metadata ++ [""]

theorem merge_kickstart_eq (base : String) (metadata : HostMetadata) :
    mergeKickstart base metadata = join "\n" ((lines base).take ((lines base).findIdx startsSection) ++
      insertedBlock (lines base) metadata ++
      (lines base).drop ((lines base).findIdx startsSection)) := by
  rw [mergeKickstart, insertedBlock]
  split
  · rw [List.append_nil, List.take_append_drop]
  · rfl

/-- What a config holds besides the commands: the base, or the fixed lines. -/
def givenLines (metadata : HostMetadata) (bmh : Option BareMetalHost) : List String :=
  match bmh.bind (·.spec.kickstart) with
  | some base => lines base
  | none => generatedHead metadata ++ (generatedTail ++ [""])

/-- The text is the given lines with the commands one a line at some place, after a command for
the hostname and before a blank line where these are added. -/
def Emits (metadata : HostMetadata) (given : List String) (commands : List AccountCommand)
    (text : String) : Prop :=
  ∃ blanks before hostname separator after,
    text = join "\n" (before ++ hostname ++ commands.map (AccountCommand.line blanks) ++ separator ++
      after) ∧
    before ++ after = given ∧ hostname.Sublist [hostnameLine metadata] ∧ separator.Sublist [""]

theorem generate_kickstart_emits (metadata : HostMetadata) :
    Emits metadata (generatedHead metadata ++ (generatedTail ++ [""])) (generatedCommands metadata)
      (generateKickstart metadata) := by
  refine ⟨" ", generatedHead metadata, [], [], generatedTail ++ [""], ?_, rfl, List.nil_sublist _,
    List.nil_sublist _⟩
  rw [List.append_nil, List.append_nil]
  exact generate_kickstart_eq metadata

theorem due_hostname_sublist (lines : List String) (metadata : HostMetadata) :
    (dueHostname lines metadata).Sublist [hostnameLine metadata] := by
  rw [dueHostname]
  split
  · exact List.nil_sublist _
  · exact List.Sublist.refl _

theorem merge_kickstart_emits (base : String) (metadata : HostMetadata) :
    Emits metadata (lines base) (mergedCommands metadata) (mergeKickstart base metadata) := by
  have whole := List.take_append_drop ((lines base).findIdx startsSection) (lines base)
  rw [merge_kickstart_eq, insertedBlock]
  by_cases nothing : extraLines (lines base) metadata = []
  · rw [if_pos nothing]
    rw [extra_lines_eq, List.append_eq_nil_iff, List.map_eq_nil_iff] at nothing
    refine ⟨"  ", _, [], [], _, ?_, whole, List.nil_sublist _, List.nil_sublist _⟩
    rw [nothing.2]
    simp only [List.map_nil, List.append_nil]
  · rw [if_neg nothing, extra_lines_eq]
    refine ⟨"  ", _, dueHostname (lines base) metadata, [""], _, ?_, whole,
      due_hostname_sublist (lines base) metadata, List.Sublist.refl _⟩
    simp only [List.append_assoc]

theorem build_kickstart_emits (metadata : HostMetadata) (bmh : Option BareMetalHost) :
    Emits metadata (givenLines metadata bmh) (builtCommands metadata bmh)
      (buildKickstart metadata bmh) := by
  rw [buildKickstart, builtCommands, givenLines]
  cases bmh.bind (·.spec.kickstart) with
  | some base => exact merge_kickstart_emits base metadata
  | none => exact generate_kickstart_emits metadata

/-! ## The accounts -/

theorem mem_identity_commands {users : List CloudConfigUser} {command : AccountCommand} :
    command ∈ users.flatMap CloudConfigUser.commands ↔ ∃ account ∈ users,
      command = .user account ∨ ∃ key ∈ account.sshAuthorizedKeys,
        command = .sshkey account.name key := by
  simp only [List.mem_flatMap, CloudConfigUser.commands, List.mem_cons, List.mem_map, eq_comm]

theorem mem_system_commands {entries : List PublicKeyEntry} {command : AccountCommand} :
    command ∈ entries.flatMap PublicKeyEntry.commands ↔ ∃ entry ∈ entries, ∃ key ∈ entry.keys,
      command = .sshkey entry.sshUser key := by
  simp only [List.mem_flatMap, PublicKeyEntry.commands, List.mem_map, eq_comm]

/-- Every key of an entry is provisioned for the entry's user. -/
theorem mem_generated_sshkey {metadata : HostMetadata} {entry : PublicKeyEntry} {key : String}
    (listed : entry ∈ metadata.publicKeys) (held : key ∈ entry.keys) :
    .sshkey entry.sshUser key ∈ generatedCommands metadata :=
  List.mem_append_left _ (mem_system_commands.mpr ⟨entry, listed, key, held, rfl⟩)

/-- The users that a list of commands creates. -/
def Creates (commands : List AccountCommand) (username : String) : Prop :=
  ∃ account, .user account ∈ commands ∧ account.name = username

/-- The two builders provision the same accounts, and keys only for root and the users that
are created. -/
structure SameAccounts (metadata : HostMetadata) : Prop where
  created : ∀ bmh username key, .sshkey username key ∈ builtCommands metadata bmh →
    username = "root" ∨ Creates (builtCommands metadata bmh) username
  keys : ∀ username key, .sshkey username key ∈ mergedCommands metadata ↔
    .sshkey username key ∈ generatedCommands metadata
  users : ∀ account, .user account ∈ mergedCommands metadata ↔
    .user account ∈ generatedCommands metadata

/-- A list of commands that ends with those of the identity users creates all of them. -/
theorem creates_identity_user {metadata : HostMetadata} {username : String}
    {commands : List AccountCommand}
    (identity : username ∈ metadata.cloudConfig.users.map CloudConfigUser.name) :
    Creates (commands ++ metadata.cloudConfig.users.flatMap CloudConfigUser.commands) username := by
  obtain ⟨account, listed, named⟩ := List.mem_map.mp identity
  exact ⟨account, List.mem_append_right _ (mem_identity_commands.mpr ⟨account, listed, .inl rfl⟩),
    named⟩

theorem account_exists_iff (metadata : HostMetadata) (username : String) :
    accountExists metadata username = true ↔ username = "root" ∨
      username ∈ metadata.cloudConfig.users.map CloudConfigUser.name := by
  rw [accountExists, Bool.or_eq_true, decide_eq_true_iff, decide_eq_true_iff]

/-- Merging provisions keys for root and the identity users only. -/
theorem merged_keys_created {metadata : HostMetadata} {username key : String}
    (listed : .sshkey username key ∈ mergedCommands metadata) :
    username = "root" ∨ Creates (mergedCommands metadata) username := by
  have known : accountExists metadata username = true := by
    rcases List.mem_append.mp listed with listed | listed
    · obtain ⟨entry, kept, _, _, ⟨⟩⟩ := mem_system_commands.mp listed
      exact (List.mem_filter.mp kept).2
    · obtain ⟨account, there, ⟨⟨⟩⟩ | ⟨_, _, ⟨⟩⟩⟩ := mem_identity_commands.mp listed
      exact (account_exists_iff metadata account.name).mpr
        (.inr (List.mem_map.mpr ⟨account, there, rfl⟩))
  exact ((account_exists_iff metadata username).mp known).imp id creates_identity_user

/-- **The builders agree exactly when every account with keys is there after the
installation.**  For every metadata and base: the text of either builder has its commands one
a line; and keys are provisioned for root and created users only, and the same accounts by
both builders, if and only if every system user with a key is root or an identity user. -/
theorem kickstart_accounts_agree_iff (metadata : HostMetadata) :
    (∀ bmh, Emits metadata (givenLines metadata bmh) (builtCommands metadata bmh)
      (buildKickstart metadata bmh)) ∧
    (SameAccounts metadata ↔ ∀ entry ∈ metadata.publicKeys, entry.keys ≠ [] →
      accountExists metadata entry.sshUser = true) := by
  refine ⟨build_kickstart_emits metadata, fun same entry listed keyed => ?_, fun known => ?_⟩
  · obtain ⟨key, held⟩ := List.exists_mem_of_ne_nil _ keyed
    have merged := (same.keys entry.sshUser key).mpr (mem_generated_sshkey listed held)
    rw [account_exists_iff]
    refine (merged_keys_created merged).imp id ?_
    rintro ⟨account, created, named⟩
    rcases List.mem_append.mp created with system | identity
    · obtain ⟨_, _, _, _, ⟨⟩⟩ := mem_system_commands.mp system
    · obtain ⟨_, there, ⟨⟨⟩⟩ | ⟨_, _, ⟨⟩⟩⟩ := mem_identity_commands.mp identity
      exact List.mem_map.mpr ⟨account, there, named⟩
  · -- the filter leaves the same commands
    have same : ∀ command, command ∈ mergedCommands metadata ↔
        command ∈ generatedCommands metadata := by
      intro command
      rw [mergedCommands, generatedCommands, List.mem_append, List.mem_append, mem_system_commands,
        mem_system_commands]
      refine or_congr_left ⟨?_, ?_⟩
      · rintro ⟨entry, kept, key, held, same⟩
        exact ⟨entry, List.mem_of_mem_filter kept, key, held, same⟩
      · rintro ⟨entry, listed, key, held, same⟩
        exact ⟨entry, List.mem_filter.mpr ⟨listed, known entry listed (List.ne_nil_of_mem held)⟩, key,
          held, same⟩
    refine ⟨fun bmh username key listed => ?_, fun _ _ => same _, fun _ => same _⟩
    rw [builtCommands] at listed ⊢
    cases base : bmh.bind (·.spec.kickstart) with
    | some text =>
      rw [base] at listed
      exact merged_keys_created listed
    | none =>
      rw [base] at listed
      refine (merged_keys_created ((same _).mpr listed)).imp id ?_
      rintro ⟨account, created, named⟩
      exact ⟨account, (same _).mp created, named⟩

/-- Alice may log in as `core`, which no command creates. -/
def coreMetadata : HostMetadata where
  instanceId := "web1"
  hostname := "web1.local"
  localHostname := "web1"
  localIpv4 := "10.0.0.5"
  availabilityZone := "rack1"
  publicKeys := [{ sshUser := "core", keys := ["ssh-ed25519 AAAA"] }]
  userData := @renderUserData cloudConfigText { users := [alice] }
  cloudConfig := { users := [alice] }
where
  /-- Alice as the rule has her, which grants sudo. -/
  alice : CloudConfigUser :=
    { name := "alice", uid := "1000", groups := [], shell := "/bin/bash", «sudo» := some sudoAll
      sshAuthorizedKeys := ["ssh-ed25519 AAAA"] }

example : @resolveHost cloudConfigText (.v4 10 0 0 5) "web1" none
    { users := (∅ : HashMap String UserResource).insert "alice" (plainUser "alice" "ssh-ed25519 AAAA")
      hostAccess := (∅ : HashMap String HostAccessResource).insert "operators"
        (everyHostRule "operators" "alice" "core" true) } localConfig = some coreMetadata := by
  decide +kernel

theorem core_key_without_account : ¬ ∀ metadata, SameAccounts metadata := by
  intro always
  have listed : .sshkey "core" "ssh-ed25519 AAAA" ∈ generatedCommands coreMetadata := by decide
  rcases (always coreMetadata).created none _ _ listed with root | ⟨account, created, named⟩
  · exact absurd root (by decide)
  · rcases List.mem_append.mp created with system | identity
    · obtain ⟨_, _, _, _, ⟨⟩⟩ := mem_system_commands.mp system
    · obtain ⟨_, there, ⟨⟨⟩⟩ | ⟨_, _, ⟨⟩⟩⟩ := mem_identity_commands.mp identity
      rw [List.mem_singleton.mp there] at named
      exact absurd named (by decide)

end CloudId
