import CloudId.Agent
import CloudId.Library.FileTree

/-! `authorized_keys` in an outage. The agent prints what the service answers for the user, and
falls back on the key file that an earlier refresh left; sshd takes an empty answer for no
keys. -/
namespace CloudId
open FileSystem Disk Effects

/-- How a request ends: it gets no response, or one whose status is a success or not, and
whose body arrives or not. -/
inductive RequestEnd where
  | failed
  | response (success : Bool) (body : Option String)
  deriving DecidableEq

/-- How the requests of a run end: the one for the index, and the one for the keys at an
index. -/
structure RequestEnds where
  publicKeys : RequestEnd
  openSshKey : String → RequestEnd

/-- What a run of the command prints, and whether it ends without an error. -/
structure QueryEnd where
  printed : String
  succeeded : Bool
  deriving DecidableEq

/-- The home directory of an account. -/
def homeOf (username : String) : String :=
  if username = "root" then "/root" else "/home/" ++ username

/-- The key file that `try_local_keys` reads. -/
def localKeysFile (username : String) : String :=
  join (homeOf username) ".ssh/authorized_keys.d/cloudid"

/-- `try_local_keys`: prints the key file, if it can be read. -/
def tryLocalKeys (username : String) : FileM String := do
  match ← attempt (readToString (localKeysFile username)) with
  | .ok keys => return keys
  | .error _ => return ""

/-- `authorized_keys`. -/
def authorizedKeys (ends : RequestEnds) (username : String) : FileM QueryEnd := do
  match ends.publicKeys with
  | .failed => return { printed := "", succeeded := false }
  | .response false _ => return { printed := ← tryLocalKeys username, succeeded := true }
  | .response true none => return { printed := "", succeeded := false }
  | .response true (some body) =>
    match indexOf username body with
    -- Username not found in metadata.
    | none => return { printed := ← tryLocalKeys username, succeeded := true }
    | some index =>
      match ends.openSshKey index with
      | .failed => return { printed := "", succeeded := false }
      | .response true (some keys) => return { printed := keys, succeeded := true }
      | .response true none => return { printed := "", succeeded := false }
      | .response false _ => return { printed := "", succeeded := true }

/-- The run gets the keys of the user from a successful response. -/
def RequestEnds.Give (ends : RequestEnds) (username keys : String) : Prop :=
  ∃ body index, ends.publicKeys = .response true (some body) ∧
    indexOf username body = some index ∧ ends.openSshKey index = .response true (some keys)

/-- The index is refused, or it arrives without a line for the user. -/
def RequestEnds.FallBack (ends : RequestEnds) (username : String) : Prop :=
  (∃ body, ends.publicKeys = .response false body) ∨
    ∃ body, ends.publicKeys = .response true (some body) ∧ indexOf username body = none

/-- The bytes of the key file; there are none where there is no such file. -/
def cachedKeys (disk : Disk) (username : String) : ByteArray :=
  (disk.fileAt (localKeysFile username)).getD .empty

/-- Unless the run gets the user's keys, it prints exactly the bytes of the key file. -/
def KeepsUserIn (ends : RequestEnds) (username : String) (disk : Disk) : Prop :=
  (∀ keys, ¬ ends.Give username keys) → ∃ ended next,
    authorizedKeys ends username disk = .ok ended next ∧
      ended.printed.toUTF8 = cachedKeys disk username

/-- The key file can be read, as text. -/
def Readable (disk : Disk) (username : String) : Prop :=
  disk.fault disk.ticks = none ∧ ∃ text, String.fromUTF8? (cachedKeys disk username) = some text

theorem to_utf8_from_utf8 {bytes : ByteArray} {text : String}
    (read : String.fromUTF8? bytes = some text) : text.toUTF8 = bytes := by
  rw [String.fromUTF8?] at read
  split at read
  · rw [← Option.some.inj read]
    rfl
  · cases read

theorem try_local_keys_ok {username : String} {disk next : Disk} {keys : String}
    (read : readToString (localKeysFile username) disk = .ok keys next) :
    tryLocalKeys username disk = .ok keys next := by
  have attempted : attempt (readToString (localKeysFile username)) disk = .ok (.ok keys) next := by
    rw [attempt, read]
  rw [tryLocalKeys, bind_ok attempted]
  rfl

theorem try_local_keys_error {username : String} {disk next : Disk} {error : FileError}
    (failed : readToString (localKeysFile username) disk = .error error next) :
    tryLocalKeys username disk = .ok "" next := by
  have attempted : attempt (readToString (localKeysFile username)) disk =
      .ok (.error error) next := by
    rw [attempt, failed]
  rw [tryLocalKeys, bind_ok attempted]
  rfl

/-- `try_local_keys` prints the bytes of the key file exactly if there are none or they can be
read. -/
theorem try_local_keys_eq (username : String) (disk : Disk) :
    ∃ printed, tryLocalKeys username disk = .ok printed disk.tick ∧
      (printed.toUTF8 = cachedKeys disk username ↔
        cachedKeys disk username = .empty ∨ Readable disk username) := by
  have nothing : ("" : String).toUTF8 = cachedKeys disk username ↔
      cachedKeys disk username = .empty := eq_comm
  cases met : disk.fault disk.ticks with
  | some fault =>
    refine ⟨"", try_local_keys_error (read_to_string_faulty met _), nothing.trans ?_⟩
    refine (or_iff_left fun readable => ?_).symm
    rw [readable.1] at met
    cases met
  | none =>
    rcases read_to_string_calm met (localKeysFile username) with ⟨text, held, read⟩ |
      ⟨error, unread, failed⟩
    · obtain ⟨bytes, file, decoded⟩ := Option.bind_eq_some_iff.mp held
      have cached : cachedKeys disk username = bytes := by rw [cachedKeys, file, Option.getD_some]
      refine ⟨text, try_local_keys_ok read, iff_of_true ?_ (.inr ⟨met, text, ?_⟩)⟩
      · rw [cached, to_utf8_from_utf8 decoded]
      · rw [cached, decoded]
    · refine ⟨"", try_local_keys_error failed, nothing.trans ?_⟩
      refine ⟨.inl, ?_⟩
      rintro (empty | ⟨-, text, decoded⟩)
      · exact empty
      · rw [readText] at unread
        rw [cachedKeys] at decoded ⊢
        cases file : disk.fileAt (localKeysFile username) with
        | none => rfl
        | some bytes =>
          rw [file] at unread decoded
          rw [Option.bind_some, ← Option.getD_some (a := bytes) (b := ByteArray.empty), decoded] at unread
          cases unread

/-- A run whose index is not refused, and has a line for the user if it arrives, does not fall
back. -/
theorem RequestEnds.not_fall_back {ends : RequestEnds} {username : String} {index : RequestEnd}
    (ended : ends.publicKeys = index) (unrefused : ∀ body, index ≠ .response false body)
    (listed : ∀ body, index = .response true (some body) → indexOf username body ≠ none) :
    ¬ ends.FallBack username := by
  rintro (⟨body, refused⟩ | ⟨body, arrived, unlisted⟩)
  · exact unrefused body (ended.symm.trans refused)
  · exact listed body (ended.symm.trans arrived) unlisted

/-- The command prints what it is given, or the key file in its fallback, or nothing. -/
theorem authorized_keys_cases (ends : RequestEnds) (username : String) :
    (∃ keys, ends.Give username keys) ∨
    (ends.FallBack username ∧ authorizedKeys ends username =
      tryLocalKeys username >>= fun printed => pure { printed, succeeded := true }) ∨
    (¬ ends.FallBack username ∧ ∃ succeeded,
      authorizedKeys ends username = pure { printed := "", succeeded }) := by
  rw [authorizedKeys]
  rcases index : ends.publicKeys with _ | ⟨_ | _, _ | body⟩
  · exact .inr (.inr ⟨RequestEnds.not_fall_back index (by simp) (by simp), false, rfl⟩)
  · exact .inr (.inl ⟨.inl ⟨none, index⟩, rfl⟩)
  · exact .inr (.inl ⟨.inl ⟨some body, index⟩, rfl⟩)
  · exact .inr (.inr ⟨RequestEnds.not_fall_back index (by simp) (by simp), false, rfl⟩)
  · dsimp only
    cases line : indexOf username body with
    | none => exact .inr (.inl ⟨.inr ⟨body, index, line⟩, rfl⟩)
    | some place =>
      have listed : ¬ ends.FallBack username := by
        refine RequestEnds.not_fall_back index (by simp) ?_
        rintro other ⟨⟩
        simp [line]
      dsimp only
      rcases answer : ends.openSshKey place with _ | ⟨_ | _, _ | keys⟩
      · exact .inr (.inr ⟨listed, false, rfl⟩)
      · exact .inr (.inr ⟨listed, true, rfl⟩)
      · exact .inr (.inr ⟨listed, true, rfl⟩)
      · exact .inr (.inr ⟨listed, false, rfl⟩)
      · exact .inl ⟨keys, body, place, index, line, answer⟩

/-- A run that is given keys does not fall back. -/
theorem RequestEnds.Give.not_fall_back {ends : RequestEnds} {username keys : String}
    (gives : ends.Give username keys) : ¬ ends.FallBack username := by
  obtain ⟨body, place, index, line, -⟩ := gives
  refine RequestEnds.not_fall_back index (by simp) ?_
  rintro other ⟨⟩
  simp [line]

/-- **The command keeps a user in through an outage exactly when it reaches the fallback and
can read the key file.**  For every username, key file and pattern of request ends: unless the
run gets the user's keys it prints the bytes of the key file, if and only if it gets them, or
there are none, or the index is refused or has no line for the user and the key file can be
read. -/
theorem keeps_user_in_iff (ends : RequestEnds) (username : String) (disk : Disk) :
    KeepsUserIn ends username disk ↔ (∃ keys, ends.Give username keys) ∨
      cachedKeys disk username = .empty ∨ (ends.FallBack username ∧ Readable disk username) := by
  rcases authorized_keys_cases ends username with ⟨keys, gives⟩ | ⟨falls_back, run⟩ |
    ⟨listed, succeeded, run⟩
  · exact iff_of_true (fun none => absurd gives (none keys)) (.inl ⟨keys, gives⟩)
  · have ungiven : ∀ keys, ¬ ends.Give username keys :=
      fun _ gives => gives.not_fall_back falls_back
    obtain ⟨printed, read, exact_bytes⟩ := try_local_keys_eq username disk
    have ran : authorizedKeys ends username disk =
        .ok { printed, succeeded := true } disk.tick := by
      rw [run, bind_ok read]
      rfl
    rw [or_iff_right (not_exists.mpr ungiven), and_iff_right falls_back, ← exact_bytes]
    constructor
    · intro keeps
      obtain ⟨ended, next, ran', same⟩ := keeps ungiven
      rw [ran] at ran'
      cases ran'
      exact same
    · exact fun same _ => ⟨_, _, ran, same⟩
  · by_cases given : ∃ keys, ends.Give username keys
    · exact iff_of_true (fun none => absurd given (not_exists.mpr none)) (.inl given)
    · have ran : authorizedKeys ends username disk = .ok { printed := "", succeeded } disk := by
        rw [run]
        rfl
      rw [or_iff_right given, or_iff_left fun fallen => listed fallen.1]
      constructor
      · intro keeps
        obtain ⟨ended, next, ran', same⟩ := keeps (not_exists.mp given)
        rw [ran] at ran'
        cases ran'
        exact same.symm
      · exact fun empty _ => ⟨_, _, ran, empty.symm⟩

/-- A host on which root has a key file. -/
def cachedRoot : Disk where
  nodes := ((((∅ : HashMap (List String) Node).insert ["root"] .dir).insert ["root", ".ssh"]
    .dir).insert ["root", ".ssh", "authorized_keys.d"] .dir).insert
      ["root", ".ssh", "authorized_keys.d", "cloudid"] (.file "ssh-ed25519 AAAA".toUTF8)

/-- Nothing answers. -/
def unreachable : RequestEnds where
  publicKeys := .failed
  openSshKey := fun _ => .failed

/-- The command prints nothing, though root has a key file. -/
theorem unreachable_service_prints_nothing : ¬ ∀ ends username disk,
    KeepsUserIn ends username disk := by
  intro always
  have ungiven : ∀ keys, ¬ unreachable.Give "root" keys := by
    rintro keys ⟨body, place, ⟨⟩, -⟩
  obtain ⟨ended, next, ran, same⟩ := always unreachable "root" cachedRoot ungiven
  cases ran
  have held : cachedRoot.fileAt (localKeysFile "root") = some "ssh-ed25519 AAAA".toUTF8 := by
    rw [file_at_eq_some]
    exact ⟨["root", ".ssh", "authorized_keys.d", "cloudid"], by decide +kernel, by rfl⟩
  rw [cachedKeys, held] at same
  exact absurd same (by decide +kernel)

end CloudId
