import Mathlib.Algebra.Order.Ring.Nat
import Mathlib.Data.List.Forall2
import Mathlib.Data.List.TakeDrop

/-! Lossy decoding of UTF-8, as `String::from_utf8_lossy` does it. The longest part of an
encoded character that is cut off becomes one replacement character, and so does every byte
that starts no character. A text that is decoded in pieces is the text in which every
character that falls into two pieces or more is replaced by that many characters at least. -/
namespace Utf8

/-- U+FFFD. -/
def replacement : Char := '\uFFFD'

/-- The bounds of the bytes that follow a lead byte; absent for a byte that leads none. -/
def following (lead : Nat) : Option (List (Nat × Nat)) :=
  if 0xC2 ≤ lead ∧ lead ≤ 0xDF then some [(0x80, 0xBF)]
  else if 0xE0 ≤ lead ∧ lead ≤ 0xEF then
    some [(if lead = 0xE0 then 0xA0 else 0x80, if lead = 0xED then 0x9F else 0xBF), (0x80, 0xBF)]
  else if 0xF0 ≤ lead ∧ lead ≤ 0xF4 then
    some [(if lead = 0xF0 then 0x90 else 0x80, if lead = 0xF4 then 0x8F else 0xBF), (0x80, 0xBF),
      (0x80, 0xBF)]
  else none

/-- A byte within bounds. -/
def InRange (range : Nat × Nat) (byte : UInt8) : Prop :=
  range.1 ≤ byte.toNat ∧ byte.toNat ≤ range.2

instance (range : Nat × Nat) (byte : UInt8) : Decidable (InRange range byte) :=
  inferInstanceAs (Decidable (_ ∧ _))

/-- How many bytes at the front are within the bounds, one after the other. -/
def matched : List (Nat × Nat) → List UInt8 → Nat
  | range :: ranges, byte :: bytes => if InRange range byte then matched ranges bytes + 1 else 0
  | _, _ => 0

/-- The code point of a lead byte and the bytes that follow it. -/
def codePoint (lead : UInt8) (rest : List UInt8) : Nat :=
  rest.foldl (fun value byte => 64 * value + byte.toNat % 64) (lead.toNat % (64 / 2 ^ rest.length))

/-- The first character of some bytes, and how many bytes after the first it takes. -/
def decodeFirst (byte : UInt8) (bytes : List UInt8) : Char × Nat :=
  if byte.toNat < 128 then (Char.ofNat byte.toNat, 0)
  else
    match following byte.toNat with
    | some ranges =>
      let taken := matched ranges bytes
      if taken = ranges.length then (Char.ofNat (codePoint byte (bytes.take taken)), taken)
      else (replacement, taken)
    | none => (replacement, 0)

/-- Decodes after a number of bytes that belong to the character before. -/
def lossyAux : Nat → List UInt8 → List Char
  | _, [] => []
  | skip + 1, _ :: bytes => lossyAux skip bytes
  | 0, byte :: bytes =>
    (decodeFirst byte bytes).1 :: lossyAux (decodeFirst byte bytes).2 bytes

/-- `String::from_utf8_lossy`. -/
def lossy (bytes : List UInt8) : List Char := lossyAux 0 bytes

/-- The bytes of a text. -/
def encode (text : List Char) : List UInt8 := text.flatMap String.utf8EncodeChar

example : lossy [0x63, 0xC3, 0xA9, 0xE2, 0x82, 0x0A] = ['c', 'é', replacement, '\n'] := by decide

/-! ## Encoded characters -/

/-- A byte that may follow a lead byte. -/
def IsContinuation (byte : UInt8) : Prop := InRange (0x80, 0xBF) byte

/-- The bytes of a character above ASCII. -/
structure Parts (c : Char) (lead : UInt8) (rest : List UInt8) (ranges : List (Nat × Nat)) : Prop where
  encoded : String.utf8EncodeChar c = lead :: rest
  above : 128 ≤ lead.toNat
  leads : following lead.toNat = some ranges
  within : List.Forall₂ InRange ranges rest
  value : codePoint lead rest = c.toNat

theorem encoded_ascii {c : Char} (ascii : c.toNat < 128) :
    String.utf8EncodeChar c = [UInt8.ofNat c.toNat] := by
  rw [String.utf8EncodeChar]
  exact if_pos (Nat.le_of_lt_succ ascii)

theorem byte_value {n : Nat} (below : n < 256) : (UInt8.ofNat n).toNat = n := by
  rw [UInt8.toNat_ofNat']
  omega

theorem encoded_parts {c : Char} (above : 128 ≤ c.toNat) :
    ∃ lead rest ranges, Parts c lead rest ranges := by
  have scalar : c.toNat < 0xD800 ∨ 0xDFFF < c.toNat ∧ c.toNat < 0x110000 := c.valid
  have encoded : String.utf8EncodeChar c = if c.toNat ≤ 0x7F then [UInt8.ofNat c.toNat]
      else if c.toNat ≤ 0x7FF then
        [UInt8.ofNat (c.toNat / 64 % 0x20 + 0xC0), UInt8.ofNat (c.toNat % 0x40 + 0x80)]
      else if c.toNat ≤ 0xFFFF then
        [UInt8.ofNat (c.toNat / 4096 % 0x10 + 0xE0), UInt8.ofNat (c.toNat / 64 % 0x40 + 0x80),
          UInt8.ofNat (c.toNat % 0x40 + 0x80)]
      else
        [UInt8.ofNat (c.toNat / 262144 % 0x08 + 0xF0), UInt8.ofNat (c.toNat / 4096 % 0x40 + 0x80),
          UInt8.ofNat (c.toNat / 64 % 0x40 + 0x80), UInt8.ofNat (c.toNat % 0x40 + 0x80)] := rfl
  rw [if_neg (by omega)] at encoded
  have last : (UInt8.ofNat (c.toNat % 0x40 + 0x80)).toNat = c.toNat % 0x40 + 0x80 :=
    byte_value (by omega)
  have second : (UInt8.ofNat (c.toNat / 64 % 0x40 + 0x80)).toNat = c.toNat / 64 % 0x40 + 0x80 :=
    byte_value (by omega)
  by_cases two : c.toNat ≤ 0x7FF
  · rw [if_pos two] at encoded
    have lead : (UInt8.ofNat (c.toNat / 64 % 0x20 + 0xC0)).toNat = c.toNat / 64 % 0x20 + 0xC0 :=
      byte_value (by omega)
    refine ⟨_, _, [(0x80, 0xBF)], encoded, ?_, ?_, .cons ?_ .nil, ?_⟩
    · omega
    · rw [lead, following, if_pos (by omega)]
    · rw [InRange, last]
      omega
    · rw [codePoint, List.foldl_cons, List.foldl_nil, List.length_singleton, lead, last]
      omega
  rw [if_neg two] at encoded
  by_cases three : c.toNat ≤ 0xFFFF
  · rw [if_pos three] at encoded
    have lead : (UInt8.ofNat (c.toNat / 4096 % 0x10 + 0xE0)).toNat = c.toNat / 4096 % 0x10 + 0xE0 :=
      byte_value (by omega)
    let first := c.toNat / 4096 % 0x10 + 0xE0
    refine ⟨_, _, [(if first = 0xE0 then 0xA0 else 0x80, if first = 0xED then 0x9F else 0xBF),
      (0x80, 0xBF)], encoded, ?_, ?_, .cons ?_ (.cons ?_ .nil), ?_⟩
    · omega
    · rw [lead, following, if_neg (by omega), if_pos (by omega)]
    · rw [InRange, second]
      dsimp only
      split <;> split <;> omega
    · rw [InRange, last]
      omega
    · rw [codePoint, List.foldl_cons, List.foldl_cons, List.foldl_nil, lead, second, last]
      dsimp only [List.length_cons, List.length_nil]
      omega
  · rw [if_neg three] at encoded
    have lead : (UInt8.ofNat (c.toNat / 262144 % 0x08 + 0xF0)).toNat =
        c.toNat / 262144 % 0x08 + 0xF0 := byte_value (by omega)
    have first : (UInt8.ofNat (c.toNat / 4096 % 0x40 + 0x80)).toNat =
        c.toNat / 4096 % 0x40 + 0x80 := byte_value (by omega)
    let start := c.toNat / 262144 % 0x08 + 0xF0
    refine ⟨_, _, [(if start = 0xF0 then 0x90 else 0x80, if start = 0xF4 then 0x8F else 0xBF),
      (0x80, 0xBF), (0x80, 0xBF)], encoded, ?_, ?_, .cons ?_ (.cons ?_ (.cons ?_ .nil)), ?_⟩
    · omega
    · rw [lead, following, if_neg (by omega), if_neg (by omega), if_pos (by omega)]
    · rw [InRange, first]
      dsimp only
      split <;> split <;> omega
    · rw [InRange, second]
      omega
    · rw [InRange, last]
      omega
    · rw [codePoint, List.foldl_cons, List.foldl_cons, List.foldl_cons, List.foldl_nil, lead, first,
        second, last]
      dsimp only [List.length_cons, List.length_nil]
      omega

theorem continuation_of_following {lead : Nat} {ranges : List (Nat × Nat)}
    (leads : following lead = some ranges) :
    ∀ range ∈ ranges, 0x80 ≤ range.1 ∧ range.2 ≤ 0xBF := by
  rw [following] at leads
  split at leads
  · cases leads
    simp
  · split at leads
    · cases leads
      simp only [List.forall_mem_cons]
      refine ⟨?_, by omega, nofun⟩
      split <;> split <;> omega
    · split at leads
      · cases leads
        simp only [List.forall_mem_cons]
        refine ⟨?_, by omega, by omega, nofun⟩
        split <;> split <;> omega
      · cases leads

theorem Parts.continuation {c : Char} {lead : UInt8} {rest : List UInt8} {ranges : List (Nat × Nat)}
    (parts : Parts c lead rest ranges) : ∀ byte ∈ rest, IsContinuation byte := by
  have bounds := continuation_of_following parts.leads
  have each : ∀ {ranges : List (Nat × Nat)} {bytes : List UInt8}, List.Forall₂ InRange ranges bytes →
      (∀ range ∈ ranges, 0x80 ≤ range.1 ∧ range.2 ≤ 0xBF) → ∀ byte ∈ bytes, IsContinuation byte := by
    intro ranges bytes within
    induction within with
    | nil => exact fun _ => nofun
    | cons here others step =>
      intro bounds byte listed
      obtain ⟨own, rest⟩ := List.forall_mem_cons.mp bounds
      rcases List.mem_cons.mp listed with rfl | listed
      · exact ⟨Nat.le_trans own.1 here.1, Nat.le_trans here.2 own.2⟩
      · exact step rest byte listed
  exact each parts.within bounds

/-! ## Decoding -/

theorem matched_all {ranges : List (Nat × Nat)} {bytes : List UInt8}
    (within : List.Forall₂ InRange ranges bytes) (more : List UInt8) :
    matched ranges (bytes ++ more) = ranges.length := by
  induction within with
  | nil => rfl
  | cons here others step => rw [List.cons_append, matched, if_pos here, step, List.length_cons]

theorem matched_part {ranges : List (Nat × Nat)} {taken left : List UInt8}
    (within : List.Forall₂ InRange ranges (taken ++ left)) : matched ranges taken = taken.length := by
  induction taken generalizing ranges with
  | nil =>
    cases ranges with
    | nil => rfl
    | cons range ranges => rfl
  | cons byte taken step =>
    cases within with
    | cons here others => rw [matched, if_pos here, step others, List.length_cons]

theorem lossy_aux_eq (skip : Nat) (bytes : List UInt8) : lossyAux skip bytes = lossy (bytes.drop skip) := by
  induction skip generalizing bytes with
  | zero => rfl
  | succ skip step =>
    cases bytes with
    | nil => rfl
    | cons byte bytes => exact step bytes

theorem lossy_cons (byte : UInt8) (bytes : List UInt8) : lossy (byte :: bytes) =
    (decodeFirst byte bytes).1 :: lossy (bytes.drop (decodeFirst byte bytes).2) := by
  rw [← lossy_aux_eq]
  rfl

/-- A whole character is decoded as itself. -/
theorem lossy_char (c : Char) (more : List UInt8) :
    lossy (String.utf8EncodeChar c ++ more) = c :: lossy more := by
  by_cases ascii : c.toNat < 128
  · have value : (UInt8.ofNat c.toNat).toNat = c.toNat := byte_value (by omega)
    rw [encoded_ascii ascii, List.singleton_append, lossy_cons, decodeFirst, value, if_pos ascii,
      Char.ofNat_toNat, List.drop_zero]
  · obtain ⟨lead, rest, ranges, parts⟩ := encoded_parts (Nat.le_of_not_lt ascii)
    have length : ranges.length = rest.length := parts.within.length_eq
    rw [parts.encoded, List.cons_append, lossy_cons, decodeFirst,
      if_neg (Nat.not_lt.mpr parts.above), parts.leads]
    dsimp only
    rw [matched_all parts.within, if_pos rfl, length, List.take_left, List.drop_left, parts.value,
      Char.ofNat_toNat]

/-- A byte in the middle of a character starts none. -/
theorem lossy_continuation {byte : UInt8} (continues : IsContinuation byte) (more : List UInt8) :
    lossy (byte :: more) = replacement :: lossy more := by
  have bounds : 0x80 ≤ byte.toNat ∧ byte.toNat ≤ 0xBF := continues
  have leads_none : following byte.toNat = none := by
    rw [following, if_neg (by omega), if_neg (by omega), if_neg (by omega)]
  rw [lossy_cons, decodeFirst, if_neg (by omega), leads_none]
  rfl

theorem lossy_continuations {bytes : List UInt8} (continue_ : ∀ byte ∈ bytes, IsContinuation byte)
    (more : List UInt8) :
    lossy (bytes ++ more) = List.replicate bytes.length replacement ++ lossy more := by
  induction bytes with
  | nil => rfl
  | cons byte bytes step =>
    obtain ⟨here, others⟩ := List.forall_mem_cons.mp continue_
    rw [List.cons_append, lossy_continuation here, step others, List.length_cons,
      List.replicate_succ, List.cons_append]

/-- The front of a character that is cut off is one replacement character. -/
theorem lossy_front {c : Char} {taken left : List UInt8} (cut : String.utf8EncodeChar c = taken ++ left)
    (some_taken : taken ≠ []) (some_left : left ≠ []) : lossy taken = [replacement] := by
  by_cases ascii : c.toNat < 128
  · rw [encoded_ascii ascii] at cut
    rcases List.singleton_eq_append_iff.mp cut with ⟨none_taken, -⟩ | ⟨-, none_left⟩
    · exact absurd none_taken some_taken
    · exact absurd none_left some_left
  · obtain ⟨lead, rest, ranges, parts⟩ := encoded_parts (Nat.le_of_not_lt ascii)
    rw [parts.encoded] at cut
    cases taken with
    | nil => exact absurd rfl some_taken
    | cons byte taken =>
      obtain ⟨rfl, rfl⟩ := List.cons.inj cut
      have within : List.Forall₂ InRange ranges (taken ++ left) := parts.within
      have short : taken.length ≠ ranges.length := by
        rw [within.length_eq, List.length_append]
        have some := List.length_pos_iff.mpr some_left
        omega
      rw [lossy_cons, decodeFirst, if_neg (Nat.not_lt.mpr parts.above), parts.leads]
      dsimp only
      rw [matched_part within, if_neg short, List.drop_length]
      rfl

/-- What is left of a character that is cut starts no character. -/
theorem continuation_of_cut {c : Char} {taken left : List UInt8}
    (cut : String.utf8EncodeChar c = taken ++ left) (some_taken : taken ≠ []) :
    ∀ byte ∈ left, IsContinuation byte := by
  by_cases ascii : c.toNat < 128
  · rw [encoded_ascii ascii] at cut
    rcases List.singleton_eq_append_iff.mp cut with ⟨none_taken, -⟩ | ⟨-, none_left⟩
    · exact absurd none_taken some_taken
    · rw [none_left]
      exact nofun
  · obtain ⟨lead, rest, ranges, parts⟩ := encoded_parts (Nat.le_of_not_lt ascii)
    rw [parts.encoded] at cut
    cases taken with
    | nil => exact absurd rfl some_taken
    | cons byte taken =>
      obtain ⟨rfl, split⟩ := List.cons.inj cut
      intro own listed
      refine parts.continuation own ?_
      rw [split]
      exact List.mem_append_right _ listed

/-! ## Texts -/

theorem encode_append (first second : List Char) :
    encode (first ++ second) = encode first ++ encode second := List.flatMap_append

theorem encode_cons (c : Char) (text : List Char) :
    encode (c :: text) = String.utf8EncodeChar c ++ encode text := List.flatMap_cons

theorem encoded_ne_nil (c : Char) : String.utf8EncodeChar c ≠ [] := by
  by_cases ascii : c.toNat < 128
  · rw [encoded_ascii ascii]
    exact List.cons_ne_nil _ _
  · obtain ⟨lead, rest, ranges, parts⟩ := encoded_parts (Nat.le_of_not_lt ascii)
    rw [parts.encoded]
    exact List.cons_ne_nil _ _

theorem lossy_encode_append (text : List Char) (more : List UInt8) :
    lossy (encode text ++ more) = text ++ lossy more := by
  induction text with
  | nil => rfl
  | cons c text step => rw [encode_cons, List.append_assoc, lossy_char, step, List.cons_append]

theorem lossy_encode (text : List Char) : lossy (encode text) = text := by
  have decoded := lossy_encode_append text []
  rw [List.append_nil] at decoded
  exact decoded.trans (List.append_nil text)

/-- What follows a text within a text is one. -/
theorem encode_rest {first text : List Char} {more : List UInt8} (split : encode first ++ more = encode text) :
    ∃ rest, text = first ++ rest ∧ more = encode rest := by
  have decoded := lossy_encode_append first more
  rw [split, lossy_encode] at decoded
  rw [decoded, encode_append, List.append_cancel_left_eq] at split
  exact ⟨lossy more, decoded, split⟩

/-- A place where an encoded text is cut: between two characters, or within one. -/
theorem encode_split {taken left : List UInt8} {text : List Char} (split : taken ++ left = encode text) :
    (∃ first rest, text = first ++ rest ∧ taken = encode first ∧ left = encode rest) ∨
    ∃ first c rest front back, text = first ++ c :: rest ∧ taken = encode first ++ front ∧
      left = back ++ encode rest ∧ String.utf8EncodeChar c = front ++ back ∧ front ≠ [] ∧ back ≠ [] := by
  induction text generalizing taken with
  | nil =>
    obtain ⟨rfl, rfl⟩ := List.append_eq_nil_iff.mp split
    exact .inl ⟨[], [], rfl, rfl, rfl⟩
  | cons c text step =>
    rw [encode_cons] at split
    rcases List.append_eq_append_iff.mp split with ⟨back, encoded, rest_is⟩ | ⟨more, taken_is, rest_is⟩
    · by_cases none_taken : taken = []
      · subst none_taken
        rw [List.nil_append] at encoded
        exact .inl ⟨[], c :: text, rfl, rfl, by rw [rest_is, ← encoded, encode_cons]⟩
      · by_cases none_left : back = []
        · subst none_left
          rw [List.append_nil] at encoded
          exact .inl ⟨[c], text, rfl, by rw [encode_cons, encoded]; exact (List.append_nil _).symm, rest_is⟩
        · exact .inr ⟨[], c, text, taken, back, rfl, rfl, rest_is, encoded, none_taken, none_left⟩
    · rcases step rest_is.symm with ⟨first, rest, rfl, more_is, left_is⟩ |
        ⟨first, own, rest, front, back, rfl, more_is, left_is, encoded, some_taken, some_left⟩
      · exact .inl ⟨c :: first, rest, rfl, by rw [taken_is, more_is, encode_cons], left_is⟩
      · refine .inr ⟨c :: first, own, rest, front, back, rfl, ?_, left_is, encoded, some_taken, some_left⟩
        rw [taken_is, more_is, encode_cons, List.append_assoc]

/-! ## Decoding in pieces -/

/-- A text that was read in pieces: a character that fell into several is replaced by that
many characters at least. -/
inductive Spoiled : List Char → List Char → Prop where
  | nil : Spoiled [] []
  | kept (c : Char) {text read : List Char} (spoiled : Spoiled text read) :
    Spoiled (c :: text) (c :: read)
  | cut (c : Char) (pieces : Nat) {text read : List Char} (not_ascii : 128 ≤ c.toNat)
    (several : 2 ≤ pieces) (spoiled : Spoiled text read) :
    Spoiled (c :: text) (List.replicate pieces replacement ++ read)

theorem Spoiled.append {first second read read' : List Char} (spoiled : Spoiled first read)
    (spoiled' : Spoiled second read') : Spoiled (first ++ second) (read ++ read') := by
  induction spoiled with
  | nil => exact spoiled'
  | kept c spoiled step => exact .kept c step
  | cut c pieces not_ascii several spoiled step =>
    rw [List.append_assoc]
    exact .cut c pieces not_ascii several step

theorem Spoiled.refl (text : List Char) : Spoiled text text := by
  induction text with
  | nil => exact .nil
  | cons c text step => exact .kept c step

theorem not_ascii_of_cut {c : Char} {front back : List UInt8}
    (cut : String.utf8EncodeChar c = front ++ back) (some_front : front ≠ []) (some_back : back ≠ []) :
    128 ≤ c.toNat := by
  by_contra ascii
  rw [encoded_ascii (Nat.lt_of_not_le ascii)] at cut
  rcases List.singleton_eq_append_iff.mp cut with ⟨none_front, -⟩ | ⟨-, none_back⟩
  · exact some_front none_front
  · exact some_back none_back

/-- The front of a character, or nothing. -/
def Incomplete (front : List UInt8) : Prop :=
  ∃ c left, String.utf8EncodeChar c = front ++ left ∧ left ≠ []

theorem incomplete_nil : Incomplete [] := ⟨'a', _, rfl, encoded_ne_nil 'a'⟩

/-- What a stream is read as, that starts with the end of a character and ends with the front
of another. -/
structure Reads (pieces : List (List UInt8)) (back : List UInt8) (text : List Char)
    (front : List UInt8) (read : List Char) (lost : Nat) : Prop where
  spoiled : Spoiled text read
  decoded : pieces.flatMap lossy =
    List.replicate back.length replacement ++ (read ++ List.replicate lost replacement)
  lost_front : front ≠ [] → 1 ≤ lost

theorem spoiled_nil {read : List Char} (spoiled : Spoiled [] read) : read = [] := by
  cases spoiled
  rfl

/-- **A text that is decoded in pieces is read spoiled.** -/
theorem lossy_pieces (pieces : List (List UInt8)) : ∀ {back : List UInt8} {text : List Char}
    {front : List UInt8}, (∀ byte ∈ back, IsContinuation byte) → Incomplete front →
    pieces.flatten = back ++ (encode text ++ front) → ∃ read lost, Reads pieces back text front read lost := by
  induction pieces with
  | nil =>
    intro back text front continues incomplete whole
    obtain ⟨rfl, rest⟩ := List.append_eq_nil_iff.mp whole.symm
    obtain ⟨encoded, rfl⟩ := List.append_eq_nil_iff.mp rest
    have no_text : text = [] := by
      cases text with
      | nil => rfl
      | cons c text =>
        rw [encode_cons] at encoded
        exact absurd (List.append_eq_nil_iff.mp encoded).1 (encoded_ne_nil c)
    subst no_text
    exact ⟨[], 0, .nil, rfl, fun some_front => absurd rfl some_front⟩
  | cons piece rest step =>
    intro back text front continues incomplete whole
    rw [List.flatten_cons] at whole
    rcases List.append_eq_append_iff.mp whole with ⟨back', rfl, others⟩ | ⟨piece', rfl, split⟩
    · -- the piece lies within the end of the first character
      obtain ⟨here, later⟩ := List.forall_mem_append.mp continues
      obtain ⟨read, lost, reads⟩ := step later incomplete others
      refine ⟨read, lost, reads.spoiled, ?_, reads.lost_front⟩
      have decoded := lossy_continuations here []
      rw [List.append_nil] at decoded
      rw [List.flatMap_cons, reads.decoded, decoded, List.length_append, List.replicate_add]
      simp only [List.append_assoc]
      rfl
    suffices remaining : ∃ read lost, Spoiled text read ∧
        lossy piece' ++ rest.flatMap lossy = read ++ List.replicate lost replacement ∧
        (front ≠ [] → 1 ≤ lost) by
      obtain ⟨read, lost, spoiled, decoded, lost_front⟩ := remaining
      refine ⟨read, lost, spoiled, ?_, lost_front⟩
      rw [List.flatMap_cons, lossy_continuations continues, List.append_assoc, decoded]
    rcases List.append_eq_append_iff.mp split with ⟨mid, rfl, front_is⟩ | ⟨mid, encoded, others⟩
    · -- the piece ends within the front of the last character
      by_cases between : mid = []
      · subst between
        rw [List.nil_append] at front_is
        obtain ⟨read, lost, reads⟩ := @step [] [] front nofun incomplete front_is.symm
        have none_read := spoiled_nil reads.spoiled
        subst none_read
        refine ⟨text, lost, .refl text, ?_, reads.lost_front⟩
        rw [List.append_nil, lossy_encode, reads.decoded]
        rfl
      · obtain ⟨c, left, cut, some_left⟩ := incomplete
        rw [front_is, List.append_assoc] at cut
        have continues' : ∀ byte ∈ rest.flatten, IsContinuation byte := fun byte listed =>
          continuation_of_cut cut between byte (List.mem_append_left _ listed)
        obtain ⟨read, lost, reads⟩ := @step rest.flatten [] [] continues' incomplete_nil
          (List.append_nil _).symm
        have none_read := spoiled_nil reads.spoiled
        subst none_read
        have lossy_mid := lossy_front cut between
          (fun none_left => some_left (List.append_eq_nil_iff.mp none_left).2)
        refine ⟨text, 1 + rest.flatten.length + lost, .refl text, ?_, fun _ => by omega⟩
        rw [lossy_encode_append, lossy_mid, reads.decoded, List.replicate_add, List.replicate_add]
        simp only [List.append_assoc]
        rfl
    · rcases encode_split encoded.symm with ⟨first, later, rfl, rfl, rfl⟩ |
        ⟨first, c, later, begun, ended, rfl, rfl, rfl, cut, some_begun, some_ended⟩
      · -- the piece ends between two characters
        obtain ⟨read, lost, reads⟩ := @step [] later front nofun incomplete others
        refine ⟨first ++ read, lost, (Spoiled.refl first).append reads.spoiled, ?_, reads.lost_front⟩
        rw [lossy_encode, reads.decoded, List.append_assoc]
        rfl
      · -- the piece cuts a character
        rw [List.append_assoc] at others
        obtain ⟨read, lost, reads⟩ := step (continuation_of_cut cut some_begun) incomplete others
        have several : 2 ≤ 1 + ended.length := by
          have some := List.length_pos_iff.mpr some_ended
          omega
        refine ⟨first ++ (List.replicate (1 + ended.length) replacement ++ read), lost,
          (Spoiled.refl first).append (.cut c _ (not_ascii_of_cut cut some_begun some_ended) several
            reads.spoiled), ?_, reads.lost_front⟩
        rw [lossy_encode_append, lossy_front cut some_begun some_ended, reads.decoded,
          List.replicate_add]
        simp only [List.append_assoc]
        rfl

end Utf8
