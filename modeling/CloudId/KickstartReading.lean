import CloudId.KickstartMerge
import CloudId.ResolveProofs
import CloudId.Library.ShellWords

/-! Reading the commands of a kickstart config back. The builders print names, options and keys
as they are; a reader takes one command a line, and splits it into words as a shell does. -/
namespace CloudId
open Text
open ShellWords (Solid Quotable)

/-! ## The reader -/

/-- What a command says. -/
inductive Directive where
  | sshkey (username key : String)
  | user (name uid : String) (groups : List String) (shell : String)
  deriving DecidableEq

def AccountCommand.directive : AccountCommand → Directive
  | .sshkey username key => .sshkey username key
  | .user account => .user account.name account.uid account.groups account.shell

/-- The value that a word gives to an option. -/
def optionValue (option word : String) : Option String :=
  if startsWith word option then some (String.ofList (word.toList.drop option.toList.length))
  else none

/-- A command and its options, in the order of the builders. -/
def directiveOf : List String → Option Directive
  | [command, username, key] =>
    if command = "sshkey" then (optionValue "--username=" username).map (.sshkey · key) else none
  | [command, name, uid, shell] =>
    if command = "user" then do
      return .user (← optionValue "--name=" name) (← optionValue "--uid=" uid) []
        (← optionValue "--shell=" shell)
    else none
  | [command, name, uid, groups, shell] =>
    if command = "user" then do
      return .user (← optionValue "--name=" name) (← optionValue "--uid=" uid)
        (pieces ',' (← optionValue "--groups=" groups)) (← optionValue "--shell=" shell)
    else none
  | _ => none

/-- The command of a line. -/
def readDirective (line : String) : Option Directive :=
  (ShellWords.words line.toList).bind fun words => directiveOf (words.map String.ofList)

theorem option_value_eq_some {option word value : String} :
    optionValue option word = some value ↔ word = option ++ value := by
  rw [optionValue]
  constructor
  · intro read
    split at read
    · rename_i starts
      rw [startsWith, List.isPrefixOf_iff_prefix] at starts
      obtain ⟨rest, shape⟩ := starts
      rw [← shape, List.drop_left] at read
      rw [← Option.some.inj read, ← String.toList_inj, String.toList_append, String.toList_ofList,
        shape]
    · cases read
  · rintro rfl
    have starts : startsWith (option ++ value) option = true := by
      rw [startsWith, List.isPrefixOf_iff_prefix, String.toList_append]
      exact List.prefix_append _ _
    rw [if_pos starts, String.toList_append, List.drop_left, String.ofList_toList]

theorem directive_of_sshkey_iff {words : List String} {username key : String} :
    directiveOf words = some (.sshkey username key) ↔
      words = ["sshkey", "--username=" ++ username, key] := by
  constructor
  · intro read
    rw [directiveOf.eq_def] at read
    split at read
    · split at read
      · rename_i command word text named
        obtain ⟨value, given, same⟩ := Option.map_eq_some_iff.mp read
        cases same
        rw [named, option_value_eq_some.mp given]
      · cases read
    · simp [Option.bind_eq_some_iff] at read
    · simp [Option.bind_eq_some_iff] at read
    · cases read
  · rintro rfl
    rw [directiveOf, if_pos rfl, option_value_eq_some.mpr rfl]
    rfl

/-- The word for the groups, if there are any. -/
def groupsWords (groups : List String) : List String :=
  if groups = [] then [] else ["--groups=" ++ join "," groups]

theorem directive_of_user_iff {words : List String} {name uid shell : String}
    {groups : List String} :
    directiveOf words = some (.user name uid groups shell) ↔
      words = ["user", "--name=" ++ name, "--uid=" ++ uid] ++ groupsWords groups ++
        ["--shell=" ++ shell] ∧ ∀ group ∈ groups, ',' ∉ group.toList := by
  constructor
  · intro read
    rw [directiveOf.eq_def] at read
    split at read
    · simp at read
    · split at read
      · rename_i named
        simp only [Option.bind_eq_bind, Option.bind_eq_some_iff, option_value_eq_some,
          Option.pure_def, Option.some.injEq, Directive.user.injEq] at read
        obtain ⟨_, rfl, _, rfl, _, rfl, rfl, rfl, rfl, rfl⟩ := read
        rw [named]
        exact ⟨rfl, fun _ listed => absurd listed List.not_mem_nil⟩
      · cases read
    · split at read
      · rename_i named
        simp only [Option.bind_eq_bind, Option.bind_eq_some_iff, option_value_eq_some,
          Option.pure_def, Option.some.injEq, Directive.user.injEq] at read
        obtain ⟨_, rfl, _, rfl, value, rfl, _, rfl, rfl, rfl, rfl, rfl⟩ := read
        have joined : join "," (pieces ',' value) = value := join_pieces ',' value
        rw [named, groupsWords, if_neg (pieces_ne_nil ',' value), joined]
        exact ⟨rfl, fun _ => not_mem_piece⟩
      · cases read
    · cases read
  · rintro ⟨rfl, apart⟩
    rw [groupsWords]
    split
    · rename_i nothing
      simp [directiveOf, option_value_eq_some.mpr, nothing]
    · rename_i listed
      have split : pieces ',' (join "," groups) = groups := pieces_join apart listed
      simp [directiveOf, option_value_eq_some.mpr, split]

/-! ## The lines -/

/-- Blanks between two words. -/
def Separates (blanks : String) : Prop :=
  blanks.toList ≠ [] ∧ ∀ c ∈ blanks.toList, ShellWords.isBlank c = true

instance (blanks : String) : Decidable (Separates blanks) :=
  have := List.decidableBAll (fun c => ShellWords.isBlank c = true) blanks.toList
  inferInstanceAs (Decidable (_ ∧ _))

/-- The name of an option. -/
def NamesOption (option : String) : Prop := option.toList ≠ [] ∧ Solid option.toList

instance (option : String) : Decidable (NamesOption option) :=
  inferInstanceAs (Decidable (_ ∧ _))

/-- An option of a line, as the shell reader takes it. -/
def shellArgument {blanks option : String} (separates : Separates blanks)
    (names : NamesOption option) (value : String) : ShellWords.Argument where
  blanks := blanks.toList
  option := option.toList
  value := value.toList
  separated := separates.1
  blank := separates.2
  named := names.1
  solid := names.2

/-- A line says what its words say. -/
theorem read_directive_iff {line : String} {directive : Directive} {parts : List String}
    {condition : Prop}
    (only : ∀ words, directiveOf words = some directive ↔ words = parts ∧ condition) :
    readDirective line = some directive ↔
      ShellWords.words line.toList = some (parts.map String.toList) ∧ condition := by
  rw [readDirective, Option.bind_eq_some_iff]
  constructor
  · rintro ⟨words, reads, said⟩
    obtain ⟨same, holds⟩ := (only _).mp said
    refine ⟨?_, holds⟩
    rw [← same, List.map_map, reads]
    refine congrArg some ((List.map_id _).symm.trans (List.map_congr_left fun word _ => ?_))
    exact String.toList_ofList.symm
  · rintro ⟨reads, holds⟩
    refine ⟨_, reads, (only _).mpr ⟨?_, holds⟩⟩
    rw [List.map_map]
    exact (List.map_congr_left fun word _ => String.ofList_toList).trans (List.map_id _)

theorem sshkey_line_read_iff (username key : String) :
    readDirective (sshkeyLine username key) = some (.sshkey username key) ↔
      Solid username.toList ∧ Quotable key.toList := by
  have shape : (sshkeyLine username key).toList = "sshkey".toList ++
      (shellArgument (by decide : Separates " ") (by decide : NamesOption "--username=")
        username).text ++ ShellWords.enclosed key.toList := by
    have head : "sshkey --username=".toList =
        "sshkey".toList ++ (" ".toList ++ "--username=".toList) := by decide
    have quotes : " \"".toList = [' ', '"'] ∧ "\"".toList = ['"'] := by decide
    unfold sshkeyLine
    rw [String.toList_append, String.toList_append, String.toList_append, String.toList_append,
      head, quotes.1, quotes.2, ShellWords.Argument.text, shellArgument, ShellWords.enclosed]
    simp only [List.append_assoc, List.cons_append, List.nil_append]
  have parts : ["sshkey", "--username=" ++ username, key].map String.toList = ["sshkey".toList,
      (shellArgument (by decide : Separates " ") (by decide : NamesOption "--username=")
        username).word, key.toList] := by
    rw [List.map_cons, List.map_cons, String.toList_append]
    rfl
  rw [read_directive_iff fun _ => directive_of_sshkey_iff.trans (iff_of_eq (and_true _)).symm,
    and_true,
    shape, parts, ShellWords.words_enclosed_iff (by decide) (by decide)]
  rfl

/-- The options of a user command. -/
def userArguments {blanks : String} (separates : Separates blanks) (account : CloudConfigUser) :
    List ShellWords.Argument :=
  [shellArgument (by decide : Separates " ") (by decide : NamesOption "--name=") account.name,
    shellArgument (by decide : Separates " ") (by decide : NamesOption "--uid=") account.uid] ++
  (if account.groups = [] then []
    else [shellArgument (by decide : Separates " ") (by decide : NamesOption "--groups=")
      (join "," account.groups)]) ++
  [shellArgument separates (by decide : NamesOption "--shell=") account.shell]

theorem user_line_chars {blanks : String} (separates : Separates blanks)
    (account : CloudConfigUser) : (userLine blanks account).toList =
      "user".toList ++ (userArguments separates account).flatMap ShellWords.Argument.text := by
  have name : "user --name=".toList = "user".toList ++ (" ".toList ++ "--name=".toList) := by decide
  have uid : " --uid=".toList = " ".toList ++ "--uid=".toList := by decide
  have groups : " --groups=".toList = " ".toList ++ "--groups=".toList := by decide
  unfold userLine groupsOption
  rw [userArguments]
  split <;>
    simp only [String.toList_append, name, uid, groups, String.toList_empty, List.flatMap_append,
      List.flatMap_cons, List.flatMap_nil, ShellWords.Argument.text, shellArgument,
      List.append_assoc, List.append_nil]

theorem user_line_words {blanks : String} (separates : Separates blanks)
    (account : CloudConfigUser) :
    (["user", "--name=" ++ account.name, "--uid=" ++ account.uid] ++ groupsWords account.groups ++
        ["--shell=" ++ account.shell]).map String.toList =
      "user".toList :: (userArguments separates account).map ShellWords.Argument.word := by
  rw [groupsWords, userArguments]
  split <;>
    simp only [List.map_cons, List.map_nil, String.toList_append,
      ShellWords.Argument.word, shellArgument, List.cons_append, List.nil_append]

/-- Joined groups are solid when each group is, as a comma is. -/
theorem solid_join_iff {groups : List String} :
    Solid (join "," groups).toList ↔ ∀ group ∈ groups, Solid group.toList := by
  constructor
  · intro solid group listed c inside
    exact solid c (mem_join_of_mem "," listed inside)
  · intro solid c inside
    rcases mem_join inside with comma | ⟨group, listed, there⟩
    · rw [List.mem_singleton.mp (show c ∈ [','] from comma)]
      decide
    · exact solid group listed c there

/-- A user command is read back exactly when the name, the options and each group are solid and
no group has a comma. -/
theorem user_line_read_iff {blanks : String} (separates : Separates blanks)
    (account : CloudConfigUser) :
    readDirective (userLine blanks account) =
        some (.user account.name account.uid account.groups account.shell) ↔
      Solid account.name.toList ∧ Solid account.uid.toList ∧
        (∀ group ∈ account.groups, Solid group.toList ∧ ',' ∉ group.toList) ∧
        Solid account.shell.toList := by
  have reads : ShellWords.words (userLine blanks account).toList =
      some ((["user", "--name=" ++ account.name, "--uid=" ++ account.uid] ++
        groupsWords account.groups ++ ["--shell=" ++ account.shell]).map String.toList) ↔
      Solid account.name.toList ∧ Solid account.uid.toList ∧
        (∀ group ∈ account.groups, Solid group.toList) ∧ Solid account.shell.toList := by
    rw [user_line_chars separates, user_line_words separates,
      ShellWords.words_arguments_iff (by decide) (by decide), userArguments]
    by_cases nothing : account.groups = []
    · rw [if_pos nothing, nothing]
      simp [shellArgument]
    · rw [if_neg nothing]
      simp [shellArgument, solid_join_iff]
  rw [read_directive_iff fun _ => directive_of_user_iff, reads]
  constructor
  · rintro ⟨⟨name, uid, groups, shell⟩, apart⟩
    exact ⟨name, uid, fun group listed => ⟨groups group listed, apart group listed⟩, shell⟩
  · rintro ⟨name, uid, groups, shell⟩
    exact ⟨⟨name, uid, fun group listed => (groups group listed).1, shell⟩,
      fun group listed => (groups group listed).2⟩

/-! ## The configs -/

/-- The lines of both configs are their fixed and base lines, one line for the hostname where it
is due, and one line for each command, which says that command. -/
structure CommandsReadBack (metadata : HostMetadata) : Prop where
  generated : pieces '\n' (generateKickstart metadata) = generatedHead metadata ++
    (generatedCommands metadata).map (AccountCommand.line " ") ++ (generatedTail ++ [""])
  generated_read : ∀ command ∈ generatedCommands metadata,
    readDirective (command.line " ") = some command.directive
  merged : ∀ base, ∃ before separator after, lines base = before ++ after ∧
    separator.Sublist [""] ∧
    pieces '\n' (mergeKickstart base metadata) = before ++ dueHostname (lines base) metadata ++
      (mergedCommands metadata).map (AccountCommand.line "  ") ++ separator ++ after
  merged_read : ∀ command ∈ mergedCommands metadata,
    readDirective (command.line "  ") = some command.directive

/-- A name or an option without blanks, quotes and backslashes. -/
def SolidText (text : String) : Prop := Solid text.toList

/-- A key on one line without double quotes and escaping backslashes. -/
def PrintableKey (key : String) : Prop := '\n' ∉ key.toList ∧ Quotable key.toList

/-- Texts that the builders' lines can hold. -/
structure Printable (metadata : HostMetadata) : Prop where
  hostname : '\n' ∉ metadata.hostname.toList
  system : ∀ entry ∈ metadata.publicKeys, ∀ key ∈ entry.keys,
    SolidText entry.sshUser ∧ PrintableKey key
  users : ∀ user ∈ metadata.cloudConfig.users, SolidText user.name ∧ SolidText user.uid ∧
    (∀ group ∈ user.groups, SolidText group ∧ ',' ∉ group.toList) ∧ SolidText user.shell
  keys : ∀ user ∈ metadata.cloudConfig.users, ∀ key ∈ user.sshAuthorizedKeys, PrintableKey key

/-- Texts that the line of a command can hold. -/
def AccountCommand.Printable : AccountCommand → Prop
  | .sshkey username key => SolidText username ∧ PrintableKey key
  | .user account => SolidText account.name ∧ SolidText account.uid ∧
      (∀ group ∈ account.groups, SolidText group ∧ ',' ∉ group.toList) ∧ SolidText account.shell

theorem solid_unbroken {text : String} (solid : SolidText text) : '\n' ∉ text.toList :=
  fun broken => absurd (solid _ broken).1 (by decide)

theorem append_unbroken_iff {first second : String} :
    '\n' ∉ (first ++ second).toList ↔ '\n' ∉ first.toList ∧ '\n' ∉ second.toList := by
  rw [String.toList_append, List.mem_append, not_or]

/-- A command is printable exactly when its line is one line that says it. -/
theorem command_printable_iff {blanks : String} (separates : Separates blanks)
    (unbroken : '\n' ∉ blanks.toList) (command : AccountCommand) :
    command.Printable ↔ readDirective (command.line blanks) = some command.directive ∧
      '\n' ∉ (command.line blanks).toList := by
  cases command with
  | sshkey username key =>
    rw [AccountCommand.line, AccountCommand.directive, sshkey_line_read_iff]
    constructor
    · rintro ⟨name, text, quotable⟩
      exact ⟨⟨name, quotable⟩, sshkey_line_unbroken (solid_unbroken name) text⟩
    · rintro ⟨⟨name, quotable⟩, line⟩
      unfold sshkeyLine at line
      exact ⟨name, (append_unbroken_iff.mp (append_unbroken_iff.mp line).1).2, quotable⟩
  | user account =>
    rw [AccountCommand.line, AccountCommand.directive, user_line_read_iff separates]
    refine ⟨fun printable => ⟨printable, ?_⟩, fun both => both.1⟩
    obtain ⟨name, uid, groups, shell⟩ := printable
    exact user_line_unbroken unbroken (solid_unbroken name) (solid_unbroken uid)
      (fun group listed => solid_unbroken (groups group listed).1) (solid_unbroken shell)

theorem printable_iff (metadata : HostMetadata) :
    Printable metadata ↔ '\n' ∉ metadata.hostname.toList ∧
      ∀ command ∈ generatedCommands metadata, command.Printable := by
  constructor
  · intro printable
    refine ⟨printable.hostname, fun command listed => ?_⟩
    rcases List.mem_append.mp listed with system | identity
    · obtain ⟨entry, there, key, held, rfl⟩ := mem_system_commands.mp system
      exact printable.system entry there key held
    · obtain ⟨account, there, rfl | ⟨key, held, rfl⟩⟩ := mem_identity_commands.mp identity
      · exact printable.users account there
      · exact ⟨(printable.users account there).1, printable.keys account there key held⟩
  · rintro ⟨hostname, commands⟩
    refine ⟨hostname, fun entry listed key held => ?_, fun account listed => ?_,
      fun account listed key held => ?_⟩
    · exact commands (.sshkey entry.sshUser key) (mem_generated_sshkey listed held)
    · exact commands (.user account) (List.mem_append_right _
        (mem_identity_commands.mpr ⟨account, listed, .inl rfl⟩))
    · exact (commands (.sshkey account.name key) (List.mem_append_right _
        (mem_identity_commands.mpr ⟨account, listed, .inr ⟨key, held, rfl⟩⟩))).2

/-- The commands of a merge are among those of a generated config. -/
theorem generated_of_merged {metadata : HostMetadata} {command : AccountCommand}
    (listed : command ∈ mergedCommands metadata) : command ∈ generatedCommands metadata := by
  rcases List.mem_append.mp listed with system | identity
  · obtain ⟨entry, kept, key, held, same⟩ := mem_system_commands.mp system
    exact List.mem_append_left _ (mem_system_commands.mpr
      ⟨entry, List.mem_of_mem_filter kept, key, held, same⟩)
  · exact List.mem_append_right _ identity

theorem inserted_block_eq (lines : List String) (metadata : HostMetadata) :
    ∃ separator : List String, separator.Sublist [""] ∧ insertedBlock lines metadata =
      dueHostname lines metadata ++ (mergedCommands metadata).map (AccountCommand.line "  ") ++
        separator := by
  rw [insertedBlock, ← extra_lines_eq]
  split
  · rename_i nothing
    exact ⟨[], List.nil_sublist _, by rw [nothing]; rfl⟩
  · exact ⟨[""], List.Sublist.refl _, rfl⟩

theorem generated_head_unbroken {metadata : HostMetadata} {line : String}
    (hostname : '\n' ∉ metadata.hostname.toList) (listed : line ∈ generatedHead metadata) :
    '\n' ∉ line.toList := by
  have fixed : ∀ line ∈ ["#version=RHEL9", "# Generated by CloudID", "", "lang en_US.UTF-8",
      "keyboard us", "timezone UTC --utc"] ++ ["rootpw --lock", ""], '\n' ∉ line.toList := by decide
  have shape : generatedHead metadata = ["#version=RHEL9", "# Generated by CloudID", "",
      "lang en_US.UTF-8", "keyboard us", "timezone UTC --utc"] ++
        hostnameLine metadata :: ["rootpw --lock", ""] := rfl
  rw [shape] at listed
  rcases List.mem_append.mp listed with before | after
  · exact fixed line (List.mem_append_left _ before)
  · rcases List.mem_cons.mp after with rfl | after
    · exact hostname_line_unbroken hostname
    · exact fixed line (List.mem_append_right _ after)

theorem generated_tail_unbroken :
    ∀ line ∈ generatedTail ++ [""], '\n' ∉ line.toList := by decide

/-- **The builders' lines say what they provision exactly for printable texts.**  For every
metadata: the lines of a generated config and of every merge are the fixed and base lines, the
hostname where it is due and one line for each command, and each of these is read back as its
command, if and only if the hostname is one line, names and options are solid text, groups
have no comma, and keys are on one line without double quotes and escaping backslashes. -/
theorem kickstart_reads_back_iff (metadata : HostMetadata) :
    CommandsReadBack metadata ↔ Printable metadata := by
  rw [printable_iff]
  constructor
  · intro back
    have unbroken : ∀ line ∈ generatedHead metadata ++
        (generatedCommands metadata).map (AccountCommand.line " ") ++ (generatedTail ++ [""]),
        '\n' ∉ line.toList := by
      rw [← back.generated]
      exact fun _ => not_mem_piece
    refine ⟨?_, fun command listed => ?_⟩
    · have head : hostnameLine metadata ∈ generatedHead metadata := by simp [generatedHead]
      exact (append_unbroken_iff.mp (unbroken _
        (List.mem_append_left _ (List.mem_append_left _ head)))).2
    · rw [command_printable_iff (by decide : Separates " ") (by decide)]
      exact ⟨back.generated_read command listed, unbroken _ (List.mem_append_left _
        (List.mem_append_right _ (List.mem_map_of_mem listed)))⟩
  · rintro ⟨hostname, commands⟩
    have single := fun command listed =>
      (command_printable_iff (by decide : Separates " ") (by decide) command).mp
        (commands command listed)
    have double := fun command listed =>
      (command_printable_iff (by decide : Separates "  ") (by decide) command).mp
        (commands command (generated_of_merged listed))
    refine ⟨?_, fun command listed => (single command listed).1, fun base => ?_,
      fun command listed => (double command listed).1⟩
    · rw [generate_kickstart_eq]
      refine pieces_join (fun line listed => ?_) (by simp)
      rcases List.mem_append.mp listed with listed | tail
      · rcases List.mem_append.mp listed with head | printed
        · exact generated_head_unbroken hostname head
        · obtain ⟨command, there, rfl⟩ := List.mem_map.mp printed
          exact (single command there).2
      · exact generated_tail_unbroken line tail
    · obtain ⟨separator, blank, block⟩ := inserted_block_eq (lines base) metadata
      refine ⟨(lines base).take ((lines base).findIdx startsSection), separator,
        (lines base).drop ((lines base).findIdx startsSection),
        (List.take_append_drop _ _).symm, blank, ?_⟩
      rw [merge_kickstart_pieces base hostname fun command listed => (double command listed).2, block]
      simp only [List.append_assoc]

/-- Eve's key closes its quotes in the comment, and goes on with a script. -/
def scriptKey : String := "ssh-ed25519 AAAA eve\"\n%post\nuseradd -o -u 0 eve\n%end\n#"

/-- A rule opens root on every host to eve. -/
def scriptState : IdentityState where
  users := (∅ : HashMap String UserResource).insert "eve" (plainUser "eve" scriptKey)
  hostAccess := (∅ : HashMap String HostAccessResource).insert "operators"
    (everyHostRule "operators" "eve" "root" false)

theorem script_key_unquoted : ¬ ∀ (ip : IpAddr) (hostname : String)
    (hostLabels : Option (HashMap String String)) (identity : IdentityState)
    (config : MetadataConfig) (metadata : HostMetadata),
    @resolveHost cloudConfigText ip hostname hostLabels identity config = some metadata →
      CommandsReadBack metadata := by
  intro always
  have resolved : ((@resolveHost cloudConfigText (.v4 10 0 0 5) "web1" none scriptState
      localConfig).map fun metadata => metadata.publicKeys) =
        some [{ sshUser := "root", keys := [scriptKey] }] := by decide +kernel
  obtain ⟨metadata, found, entries⟩ := Option.map_eq_some_iff.mp resolved
  have back := always (.v4 10 0 0 5) "web1" none scriptState localConfig metadata found
  have entry : { sshUser := "root", keys := [scriptKey] } ∈ metadata.publicKeys := by
    rw [entries]
    exact List.mem_singleton_self _
  have listed := mem_generated_sshkey entry (List.mem_singleton_self scriptKey)
  have read := back.generated_read _ listed
  rw [AccountCommand.line, AccountCommand.directive] at read
  have quotable := ((sshkey_line_read_iff "root" scriptKey).mp read).2
  exact quotable.unquoted (by decide)

end CloudId
