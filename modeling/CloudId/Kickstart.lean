import CloudId.Model
import CloudId.Library.Text

/-! The kickstart half of `provision.rs`: the commands for a host's users, the
default config made of them, and merging them into a base text. -/
namespace CloudId
open Text

/-- The command that authorises a key. -/
def sshkeyLine (username key : String) : String :=
  "sshkey --username=" ++ username ++ " \"" ++ key ++ "\""

/-- The groups option of a user command. -/
def groupsOption (user : CloudConfigUser) : String :=
  if user.groups = [] then "" else " --groups=" ++ join "," user.groups

/-- The command that creates an identity user; the two builders differ in the
blanks before the shell. -/
def userLine (blanks : String) (user : CloudConfigUser) : String :=
  "user --name=" ++ user.name ++ " --uid=" ++ user.uid ++ groupsOption user ++ blanks ++
    "--shell=" ++ user.shell

/-- The commands for a system user. -/
def systemUserLines (entry : PublicKeyEntry) : List String :=
  entry.keys.map (sshkeyLine entry.sshUser)

/-- The commands for an identity user. -/
def identityUserLines (blanks : String) (user : CloudConfigUser) : List String :=
  userLine blanks user :: user.sshAuthorizedKeys.map (sshkeyLine user.name)

/-- A line that begins a section. -/
def startsSection (line : String) : Bool :=
  startsWith line "%packages" || startsWith line "%post"

/-- A line that sets the hostname. -/
def setsHostname (line : String) : Bool :=
  startsWith line "network" && contains line "--hostname"

/-- A system user that exists or is created: root, or an identity user. -/
def accountExists (metadata : HostMetadata) (sshUser : String) : Bool :=
  sshUser = "root" || sshUser ∈ metadata.cloudConfig.users.map CloudConfigUser.name

/-- The lines that `merge_kickstart` adds, without the blank line after them. -/
def extraLines (lines : List String) (metadata : HostMetadata) : List String :=
  (if lines.any setsHostname then [] else ["network --hostname=" ++ metadata.hostname]) ++
    (metadata.publicKeys.filter fun entry => accountExists metadata entry.sshUser).flatMap
      systemUserLines ++
    metadata.cloudConfig.users.flatMap (identityUserLines "  ")

/-- `merge_kickstart`: the commands go before the first section. -/
def mergeKickstart (base : String) (metadata : HostMetadata) : String :=
  let lines := Text.lines base
  let insertPos := lines.findIdx startsSection
  let extra := extraLines lines metadata
  join "\n" (if extra = [] then lines
    else lines.take insertPos ++ (extra ++ [""]) ++ lines.drop insertPos)

/-- `generate_kickstart`. -/
def generateKickstart (metadata : HostMetadata) : String :=
  String.join <| List.map (· ++ "\n") <|
    ["#version=RHEL9", "# Generated by CloudID", "", "lang en_US.UTF-8", "keyboard us",
      "timezone UTC --utc", "network --hostname=" ++ metadata.hostname, "rootpw --lock", ""] ++
    metadata.publicKeys.flatMap systemUserLines ++
    metadata.cloudConfig.users.flatMap (identityUserLines " ") ++
    ["", "reboot", "", "%packages", "@core", "%end"]

/-- `build_kickstart`. -/
def buildKickstart (metadata : HostMetadata) (bmh : Option BareMetalHost) : String :=
  match bmh.bind (·.spec.kickstart) with
  | some base => mergeKickstart base metadata
  | none => generateKickstart metadata

end CloudId
