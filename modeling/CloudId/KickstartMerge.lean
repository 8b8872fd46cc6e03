import CloudId.KickstartAccounts

/-! Where `merge_kickstart` puts its block. A base is commands and sections; the block stands
before the first package list or post script, and so outside every section of a well formed
base. -/
namespace CloudId
open Text

/-! ## Sections -/

/-- A line that opens a section with one of the names. -/
def opensSection (names : List String) (line : String) : Bool :=
  names.any fun name => startsWith line ("%" ++ name)

/-- Whether a section is open after a line. A section does not open inside another. -/
def sectionStep (names : List String) (inside : Bool) (line : String) : Option Bool :=
  if inside then
    if startsWith line "%end" then some false
    else if opensSection names line then none
    else some true
  else some (opensSection names line)

/-- Every section of the lines is closed, and none opens inside another. -/
def SectionsClosed (names lines : List String) : Prop :=
  lines.foldlM (sectionStep names) false = some false

instance (names lines : List String) : Decidable (SectionsClosed names lines) :=
  inferInstanceAs (Decidable (_ = _))

theorem starts_with_head {line first second : String} (starts : startsWith line (first ++ second)) :
    startsWith line first := by
  rw [startsWith, List.isPrefixOf_iff_prefix] at starts ⊢
  rw [String.toList_append] at starts
  exact (List.prefix_append _ _).trans starts

/-- A line starts with one of two texts only if these agree as far as both go. -/
theorem not_starts_with {line first second : String} (starts : startsWith line first)
    (apart : startsWith first second = false) (apart' : startsWith second first = false) :
    startsWith line second = false := by
  rw [Bool.eq_false_iff] at apart apart' ⊢
  intro starts'
  rw [startsWith, List.isPrefixOf_iff_prefix] at starts starts'
  rcases List.prefix_or_prefix_of_prefix starts starts' with inside | inside
  · exact apart' (List.isPrefixOf_iff_prefix.mpr inside)
  · exact apart (List.isPrefixOf_iff_prefix.mpr inside)

/-- A line that is no directive stands outside a section like the line before it. -/
theorem section_step_plain {names : List String} {line : String}
    (plain : startsWith line "%" = false) : sectionStep names false line = some false := by
  have opens : opensSection names line = false := by
    rw [opensSection, List.any_eq_false]
    intro name _ starts
    rw [starts_with_head starts] at plain
    cases plain
  rw [sectionStep, if_neg Bool.false_ne_true, opens]

theorem sections_closed_append {names first second : List String}
    (closed : SectionsClosed names first) :
    SectionsClosed names (first ++ second) ↔ SectionsClosed names second := by
  rw [SectionsClosed] at closed
  rw [SectionsClosed, List.foldlM_append, closed]
  rfl

theorem sections_closed_plain {names lines : List String}
    (plain : ∀ line ∈ lines, startsWith line "%" = false) : SectionsClosed names lines := by
  induction lines with
  | nil => rfl
  | cons line lines step =>
    rw [SectionsClosed, List.foldlM_cons, section_step_plain (plain line List.mem_cons_self)]
    exact step fun other listed => plain other (List.mem_cons_of_mem _ listed)

/-- A section of well formed lines opens where those before it are closed. -/
theorem sections_closed_before {names before after : List String} {line : String}
    (closed : SectionsClosed names (before ++ line :: after)) (opens : opensSection names line)
    (other : startsWith line "%end" = false) : SectionsClosed names before := by
  rw [SectionsClosed, List.foldlM_append] at closed
  rw [SectionsClosed]
  cases reached : before.foldlM (sectionStep names) false with
  | none =>
    rw [reached] at closed
    cases closed
  | some inside =>
    cases inside with
    | false => rfl
    | true =>
      have stuck : sectionStep names true line = none := by
        rw [sectionStep, if_pos rfl, other, if_neg Bool.false_ne_true, if_pos opens]
      rw [reached, Option.bind_eq_bind, Option.bind_some, List.foldlM_cons, stuck] at closed
      cases closed

/-- A package list or a post script opens a section, and closes none. -/
theorem starts_section_opens {names : List String} (packages : "packages" ∈ names)
    (post : "post" ∈ names) {line : String} (starts : startsSection line) :
    opensSection names line ∧ startsWith line "%end" = false := by
  rw [startsSection, Bool.or_eq_true] at starts
  rcases starts with starts | starts
  · exact ⟨List.any_eq_true.mpr ⟨"packages", packages, starts⟩,
      not_starts_with starts (by decide) (by decide)⟩
  · exact ⟨List.any_eq_true.mpr ⟨"post", post, starts⟩,
      not_starts_with starts (by decide) (by decide)⟩

/-! ## The block -/

/-- No text that the builders print has a line break. -/
structure Unbroken (metadata : HostMetadata) : Prop where
  hostname : '\n' ∉ metadata.hostname.toList
  entries : ∀ entry ∈ metadata.publicKeys, '\n' ∉ entry.sshUser.toList ∧
    ∀ key ∈ entry.keys, '\n' ∉ key.toList
  users : ∀ user ∈ metadata.cloudConfig.users, '\n' ∉ user.name.toList ∧ '\n' ∉ user.uid.toList ∧
    (∀ group ∈ user.groups, '\n' ∉ group.toList) ∧ '\n' ∉ user.shell.toList ∧
    ∀ key ∈ user.sshAuthorizedKeys, '\n' ∉ key.toList

/-- The lines hold a command for each key of root and of the identity users, and for each
identity user. -/
structure Provisioned (metadata : HostMetadata) (lines : List String) : Prop where
  system : ∀ entry ∈ metadata.publicKeys, accountExists metadata entry.sshUser = true →
    ∀ key ∈ entry.keys, sshkeyLine entry.sshUser key ∈ lines
  users : ∀ user ∈ metadata.cloudConfig.users, userLine "  " user ∈ lines
  keys : ∀ user ∈ metadata.cloudConfig.users, ∀ key ∈ user.sshAuthorizedKeys,
    sshkeyLine user.name key ∈ lines

/-- The output is the base with a block before its first package list or post script, or at its
end. -/
structure Injects (base output : String) (before block after : List String) : Prop where
  text : output = join "\n" (before ++ block ++ after)
  read : pieces '\n' output = before ++ block ++ after
  base : lines base = before ++ after
  commands : ∀ line ∈ before, startsSection line = false
  section_after : ∀ line ∈ after.head?, startsSection line = true

theorem starts_with_longer {line head : String} (starts : startsWith line head) (text : String) :
    startsWith (line ++ text) head := by
  rw [startsWith, List.isPrefixOf_iff_prefix] at starts ⊢
  rw [String.toList_append]
  exact starts.trans (List.prefix_append _ _)

theorem command_line_plain (blanks : String) (command : AccountCommand) :
    startsWith (command.line blanks) "%" = false := by
  cases command with
  | sshkey username key =>
    have command : startsWith (sshkeyLine username key) "sshkey" := by
      iterate 4 apply starts_with_longer
      decide
    exact not_starts_with command (by decide) (by decide)
  | user account =>
    have command : startsWith (userLine blanks account) "user" := by
      iterate 7 apply starts_with_longer
      decide
    exact not_starts_with command (by decide) (by decide)

theorem mem_inserted {lines : List String} {metadata : HostMetadata} {line : String}
    (listed : line ∈ insertedBlock lines metadata) : line = "" ∨ line = hostnameLine metadata ∨
      ∃ command ∈ mergedCommands metadata, line = command.line "  " := by
  rw [insertedBlock] at listed
  split at listed
  · cases listed
  · rw [extra_lines_eq] at listed
    rcases List.mem_append.mp listed with added | blank
    · rcases List.mem_append.mp added with due | printed
      · exact .inr (.inl (List.mem_singleton.mp ((due_hostname_sublist lines metadata).subset due)))
      · obtain ⟨command, there, rfl⟩ := List.mem_map.mp printed
        exact .inr (.inr ⟨command, there, rfl⟩)
    · exact .inl (List.mem_singleton.mp blank)

/-- What a merge adds is no directive. -/
theorem inserted_plain {lines : List String} {metadata : HostMetadata} {line : String}
    (listed : line ∈ insertedBlock lines metadata) : startsWith line "%" = false := by
  rcases mem_inserted listed with rfl | rfl | ⟨command, -, rfl⟩
  · decide
  · exact not_starts_with (starts_with_longer (by decide : startsWith "network --hostname=" "network") _) (by decide)
      (by decide)
  · exact command_line_plain "  " command

theorem append_unbroken {first second : String} (unbroken : '\n' ∉ first.toList)
    (unbroken' : '\n' ∉ second.toList) : '\n' ∉ (first ++ second).toList := by
  rw [String.toList_append, List.mem_append, not_or]
  exact ⟨unbroken, unbroken'⟩

theorem sshkey_line_unbroken {username key : String} (name : '\n' ∉ username.toList)
    (text : '\n' ∉ key.toList) : '\n' ∉ (sshkeyLine username key).toList :=
  append_unbroken (append_unbroken (append_unbroken (append_unbroken (by decide) name)
    (by decide)) text) (by decide)

theorem groups_option_unbroken {user : CloudConfigUser}
    (groups : ∀ group ∈ user.groups, '\n' ∉ group.toList) : '\n' ∉ (groupsOption user).toList := by
  rw [groupsOption]
  split
  · exact List.not_mem_nil
  · refine append_unbroken (by decide) fun broken => ?_
    rcases mem_join broken with comma | ⟨group, listed, inside⟩
    · exact absurd comma (by decide)
    · exact groups group listed inside

theorem user_line_unbroken {blanks : String} {user : CloudConfigUser}
    (separator : '\n' ∉ blanks.toList) (name : '\n' ∉ user.name.toList)
    (uid : '\n' ∉ user.uid.toList) (groups : ∀ group ∈ user.groups, '\n' ∉ group.toList)
    (shell : '\n' ∉ user.shell.toList) : '\n' ∉ (userLine blanks user).toList :=
  append_unbroken (append_unbroken (append_unbroken (append_unbroken (append_unbroken
    (append_unbroken (append_unbroken (by decide) name) (by decide)) uid)
    (groups_option_unbroken groups)) separator) (by decide)) shell

/-- The commands for unbroken texts are unbroken. -/
theorem command_line_unbroken {metadata : HostMetadata} (unbroken : Unbroken metadata)
    {command : AccountCommand} (listed : command ∈ mergedCommands metadata) :
    '\n' ∉ (command.line "  ").toList := by
  rcases List.mem_append.mp listed with system | identity
  · obtain ⟨entry, kept, key, held, rfl⟩ := mem_system_commands.mp system
    obtain ⟨name, keys⟩ := unbroken.entries entry (List.mem_of_mem_filter kept)
    exact sshkey_line_unbroken name (keys key held)
  · obtain ⟨account, there, rfl | ⟨key, held, rfl⟩⟩ := mem_identity_commands.mp identity
    · obtain ⟨name, uid, groups, shell, -⟩ := unbroken.users account there
      exact user_line_unbroken (by decide) name uid groups shell
    · obtain ⟨name, -, -, -, keys⟩ := unbroken.users account there
      exact sshkey_line_unbroken name (keys key held)

theorem hostname_line_unbroken {metadata : HostMetadata}
    (hostname : '\n' ∉ metadata.hostname.toList) : '\n' ∉ (hostnameLine metadata).toList :=
  append_unbroken (by decide) hostname

/-- A base without lines sets no hostname, so the block has at least this line. -/
theorem inserted_block_nil (metadata : HostMetadata) : insertedBlock [] metadata ≠ [] := by
  have due : extraLines [] metadata ≠ [] := by
    rw [extra_lines_eq]
    exact List.cons_ne_nil _ _
  rw [insertedBlock, if_neg due]
  exact List.append_ne_nil_of_right_ne_nil _ (List.cons_ne_nil _ _)

/-- The lines of a merge are the pieces of its output, where what it adds is unbroken. -/
theorem merge_kickstart_pieces (base : String) {metadata : HostMetadata}
    (hostname : '\n' ∉ metadata.hostname.toList)
    (commands : ∀ command ∈ mergedCommands metadata, '\n' ∉ (command.line "  ").toList) :
    pieces '\n' (mergeKickstart base metadata) =
      (lines base).take ((lines base).findIdx startsSection) ++ insertedBlock (lines base) metadata ++
        (lines base).drop ((lines base).findIdx startsSection) := by
  rw [merge_kickstart_eq]
  refine pieces_join ?_ ?_
  · intro line listed
    rcases List.mem_append.mp listed with listed | after
    · rcases List.mem_append.mp listed with before | block
      · exact line_unbroken (List.mem_of_mem_take before)
      · rcases mem_inserted block with rfl | rfl | ⟨command, there, rfl⟩
        · exact List.not_mem_nil
        · exact hostname_line_unbroken hostname
        · exact commands command there
    · exact line_unbroken (List.mem_of_mem_drop after)
  · intro nothing
    obtain ⟨nothing, after⟩ := List.append_eq_nil_iff.mp nothing
    obtain ⟨before, block⟩ := List.append_eq_nil_iff.mp nothing
    have whole := List.take_append_drop ((lines base).findIdx startsSection) (lines base)
    rw [before, after] at whole
    rw [← whole] at block
    exact inserted_block_nil metadata block

theorem block_provisions (lines : List String) (metadata : HostMetadata) :
    Provisioned metadata (insertedBlock lines metadata) := by
  have placed : ∀ command ∈ mergedCommands metadata,
      command.line "  " ∈ insertedBlock lines metadata := by
    intro command listed
    have added : command.line "  " ∈ extraLines lines metadata := by
      rw [extra_lines_eq]
      exact List.mem_append_right _ (List.mem_map_of_mem listed)
    rw [insertedBlock, if_neg (List.ne_nil_of_mem added)]
    exact List.mem_append_left _ added
  constructor
  · intro entry listed known key held
    refine placed (.sshkey entry.sshUser key) (List.mem_append_left _ ?_)
    exact mem_system_commands.mpr ⟨entry, List.mem_filter.mpr ⟨listed, known⟩, key, held, rfl⟩
  · intro user listed
    refine placed (.user user) (List.mem_append_right _ ?_)
    exact mem_identity_commands.mpr ⟨user, listed, .inl rfl⟩
  · intro user listed key held
    refine placed (.sshkey user.name key) (List.mem_append_right _ ?_)
    exact mem_identity_commands.mpr ⟨user, listed, .inr ⟨key, held, rfl⟩⟩

theorem take_commands {lines : List String} {line : String}
    (listed : line ∈ lines.take (lines.findIdx startsSection)) : startsSection line = false := by
  obtain ⟨index, below, rfl⟩ := List.mem_take_iff_getElem.mp listed
  exact List.not_of_lt_findIdx (below.trans_le (Nat.min_le_left _ _))

theorem drop_section {lines : List String} {line : String}
    (first : line ∈ (lines.drop (lines.findIdx startsSection)).head?) :
    startsSection line = true := by
  rw [List.head?_drop] at first
  exact List.findIdx_of_getElem?_eq_some first

/-- Before the first package list or post script of a well formed base, or at its end, every
section is closed. -/
theorem sections_closed_take {names lines : List String} (packages : "packages" ∈ names)
    (post : "post" ∈ names) (closed : SectionsClosed names lines) :
    SectionsClosed names (lines.take (lines.findIdx startsSection)) := by
  have whole := List.take_append_drop (lines.findIdx startsSection) lines
  cases rest : lines.drop (lines.findIdx startsSection) with
  | nil =>
    rw [rest, List.append_nil] at whole
    rwa [whole]
  | cons line after =>
    have starts : startsSection line = true := drop_section (by rw [rest]; rfl)
    obtain ⟨opens, other⟩ := starts_section_opens packages post starts
    rw [← whole, rest] at closed
    exact sections_closed_before closed opens other

/-- Alice has an account on the host, and her key opens root. -/
def aliceMetadata : HostMetadata where
  instanceId := "web1"
  hostname := "web1.local"
  localHostname := "web1"
  localIpv4 := "10.0.0.5"
  availabilityZone := "rack1"
  publicKeys := [{ sshUser := "root", keys := ["ssh-ed25519 AAAA alice"] }]
  userData := ""
  cloudConfig := { users := [{
    name := "alice"
    uid := "1001"
    groups := ["wheel"]
    shell := "/bin/bash"
    «sudo» := none
    sshAuthorizedKeys := ["ssh-ed25519 AAAA alice"] }] }

theorem alice_unbroken : Unbroken aliceMetadata := ⟨by decide, by decide, by decide⟩

end CloudId
