import CloudId.Library.Utf8Lossy

/-! Percent-encoding of texts. An encoder writes each character as it is or as the escape of
its byte; such an encoder is undone by decoding, whatever the text, as long as it escapes the
percent sign. Whether the result has legal characters only is a matter of those it keeps. -/
namespace PercentEncoding
open Utf8

/-! ## Decoding -/

/-- The value of a hexadecimal digit, by its code. -/
def hexDigit? (code : Nat) : Option Nat :=
  if 0x30 ≤ code ∧ code ≤ 0x39 then some (code - 0x30)
  else if 0x41 ≤ code ∧ code ≤ 0x46 then some (code - 0x41 + 10)
  else if 0x61 ≤ code ∧ code ≤ 0x66 then some (code - 0x61 + 10)
  else none

/-- The byte that two digits stand for. -/
def pairValue? (high low : Nat) : Option UInt8 :=
  match hexDigit? high, hexDigit? low with
  | some high, some low => some (UInt8.ofNat (16 * high + low))
  | _, _ => none

/-- The byte that an escape at the beginning stands for. -/
def escaped? : List UInt8 → Option UInt8
  | percent :: high :: low :: _ =>
    if percent = 0x25 then pairValue? high.toNat low.toNat else none
  | _ => none

/-- Decodes from left to right, dropping `skip` bytes of an escape already read. -/
def decodeAux : Nat → List UInt8 → List UInt8
  | _, [] => []
  | skip + 1, _ :: rest => decodeAux skip rest
  | 0, byte :: rest =>
    match escaped? (byte :: rest) with
    | some value => value :: decodeAux 2 rest
    | none => byte :: decodeAux 0 rest

/-- Each escape is replaced by its byte, and everything else is kept. -/
def decode (bytes : List UInt8) : List UInt8 := decodeAux 0 bytes

/-- The bytes that a text stands for. -/
def decodeText (text : String) : List UInt8 := decode (encode text.toList)

example : decodeText "a%20b%zz%C3%A9" = encode "a b%zzé".toList := by decide

theorem decode_cons {byte : UInt8} (plain : byte ≠ 0x25) (rest : List UInt8) :
    decode (byte :: rest) = byte :: decode rest := by
  have no_escape : escaped? (byte :: rest) = none := by
    rw [escaped?.eq_def]
    split
    · rename_i same
      cases same
      exact if_neg plain
    · rfl
  rw [decode, decodeAux, no_escape, decode]

theorem decode_append {bytes : List UInt8} (plain : ∀ byte ∈ bytes, byte ≠ 0x25)
    (rest : List UInt8) : decode (bytes ++ rest) = bytes ++ decode rest := by
  induction bytes with
  | nil => rfl
  | cons byte bytes step =>
    rw [List.cons_append, decode_cons (plain byte List.mem_cons_self),
      step fun other listed => plain other (List.mem_cons_of_mem _ listed), List.cons_append]

theorem decode_escape {high low value : UInt8} (pair : pairValue? high.toNat low.toNat = some value)
    (rest : List UInt8) : decode (0x25 :: high :: low :: rest) = value :: decode rest := by
  rw [decode, decodeAux, escaped?, if_pos rfl, pair]
  rfl

/-- No other character has the byte of the percent sign. -/
theorem not_percent {c : Char} (other : c ≠ '%') : ∀ byte ∈ String.utf8EncodeChar c, byte ≠ 0x25 := by
  by_cases ascii : c.toNat < 128
  · rw [encoded_ascii ascii]
    intro byte listed same
    obtain rfl := List.mem_singleton.mp listed
    have code : c.toNat = '%'.toNat := by
      rw [← byte_value (show c.toNat < 256 by omega), same]
      rfl
    exact other (Char.toNat_inj.mp code)
  · obtain ⟨lead, rest, ranges, parts⟩ := encoded_parts (Nat.le_of_not_lt ascii)
    rw [parts.encoded]
    rintro byte listed rfl
    rcases List.mem_cons.mp listed with rfl | listed
    · exact absurd parts.above (by decide)
    · exact absurd (parts.continuation _ listed).1 (by decide)

/-! ## Encoders -/

/-- How an encoder may write a character: as it is, or as the escape of its byte. -/
inductive Written (c : Char) : List Char → Prop where
  | kept : c ≠ '%' → Written c [c]
  | escaped {high low : Char} : c.toNat < 128 → high.toNat < 128 → low.toNat < 128 →
      pairValue? high.toNat low.toNat = some (UInt8.ofNat c.toNat) → Written c ['%', high, low]

/-- An encoder of single characters. -/
def Encoder (write : Char → List Char) : Prop := ∀ c, Written c (write c)

variable {write : Char → List Char}

theorem decode_written {c : Char} {written : List Char} (form : Written c written)
    (rest : List UInt8) :
    decode (encode written ++ rest) = String.utf8EncodeChar c ++ decode rest := by
  cases form with
  | kept other =>
    rw [encode_cons, encode, List.flatMap_nil, List.append_nil, decode_append (not_percent other)]
  | @escaped high low ascii high_ascii low_ascii pair =>
    have bytes : encode ['%', high, low] = [0x25, UInt8.ofNat high.toNat, UInt8.ofNat low.toNat] := by
      rw [encode_cons, encode_cons, encode_cons, encoded_ascii high_ascii, encoded_ascii low_ascii]
      rfl
    have value : pairValue? (UInt8.ofNat high.toNat).toNat (UInt8.ofNat low.toNat).toNat =
        some (UInt8.ofNat c.toNat) := by
      rw [byte_value (by omega), byte_value (by omega), pair]
    rw [bytes, List.cons_append, List.cons_append, List.cons_append, List.nil_append,
      decode_escape value, encoded_ascii ascii]
    rfl

/-- What an encoder wrote is read back. -/
theorem decode_encoded (encoder : Encoder write) (text : List Char) :
    decode (encode (text.flatMap write)) = encode text := by
  induction text with
  | nil => rfl
  | cons c text step =>
    rw [List.flatMap_cons, encode_append, decode_written (encoder c), step, encode_cons]

/-! ## Legal texts -/

/-- A character that a URI may contain. -/
def UriChar (c : Char) : Prop :=
  0x21 ≤ c.toNat ∧ c.toNat ≤ 0x7E ∧ c ∉ ['"', '<', '>', '\\', '^', Char.ofNat 0x60, '\x7b', '|', '\x7d']

instance (c : Char) : Decidable (UriChar c) := inferInstanceAs (Decidable (_ ∧ _))

/-- Two hexadecimal digits follow. -/
def DigitsFollow : List Char → Prop
  | high :: low :: _ => (pairValue? high.toNat low.toNat).isSome
  | _ => False

instance decidableDigitsFollow : (text : List Char) → Decidable (DigitsFollow text)
  | high :: low :: _ => inferInstanceAs (Decidable ((pairValue? high.toNat low.toNat).isSome = true))
  | [_] => isFalse id
  | [] => isFalse id

/-- Every character is legal in a URI, and every percent sign begins an escape. -/
def LegalUri : List Char → Prop
  | [] => True
  | c :: rest => UriChar c ∧ (c = '%' → DigitsFollow rest) ∧ LegalUri rest

instance decidableLegalUri : (text : List Char) → Decidable (LegalUri text)
  | [] => isTrue trivial
  | c :: rest =>
    have := decidableLegalUri rest
    inferInstanceAs (Decidable (UriChar c ∧ (c = '%' → DigitsFollow rest) ∧ LegalUri rest))

theorem uri_char_of_digit {code : Char} (digit : (hexDigit? code.toNat).isSome) : UriChar code := by
  rw [hexDigit?] at digit
  have bounds : 0x30 ≤ code.toNat ∧ code.toNat ≤ 0x39 ∨ 0x41 ≤ code.toNat ∧ code.toNat ≤ 0x46 ∨
      0x61 ≤ code.toNat ∧ code.toNat ≤ 0x66 := by
    split at digit
    · exact .inl ‹_›
    · split at digit
      · exact .inr (.inl ‹_›)
      · split at digit
        · exact .inr (.inr ‹_›)
        · cases digit
  refine ⟨by omega, by omega, fun listed => ?_⟩
  simp only [List.mem_cons, List.not_mem_nil, or_false] at listed
  rcases listed with rfl | rfl | rfl | rfl | rfl | rfl | rfl | rfl | rfl <;>
    exact absurd bounds (by decide)

theorem digits_of_pair {high low : Nat} {value : UInt8} (pair : pairValue? high low = some value) :
    (hexDigit? high).isSome ∧ (hexDigit? low).isSome := by
  rw [pairValue?] at pair
  split at pair
  · rename_i first second
    exact ⟨by rw [first]; rfl, by rw [second]; rfl⟩
  · cases pair

theorem legal_append_iff {front rest : List Char} (legal : LegalUri front) (plain : '%' ∉ front) :
    LegalUri (front ++ rest) ↔ LegalUri rest := by
  induction front with
  | nil => rfl
  | cons c front step =>
    have other : c ≠ '%' := fun same => plain (same ▸ List.mem_cons_self)
    rw [List.cons_append, LegalUri, step legal.2.2 fun listed => plain (List.mem_cons_of_mem _ listed)]
    exact ⟨fun all => all.2.2, fun rest => ⟨legal.1, fun same => absurd same other, rest⟩⟩

theorem legal_written_iff {c : Char} {written : List Char} (form : Written c written)
    (rest : List Char) :
    LegalUri (written ++ rest) ↔ (written = [c] → UriChar c) ∧ LegalUri rest := by
  cases form with
  | kept other =>
    rw [List.singleton_append, LegalUri]
    exact ⟨fun legal => ⟨fun _ => legal.1, legal.2.2⟩,
      fun legal => ⟨legal.1 rfl, fun same => absurd same other, legal.2⟩⟩
  | @escaped high low ascii high_ascii low_ascii pair =>
    obtain ⟨high_digit, low_digit⟩ := digits_of_pair pair
    have not_percent : ∀ {code : Char}, (hexDigit? code.toNat).isSome → code ≠ '%' := by
      rintro _ digit rfl
      exact absurd digit (by decide)
    have digits : DigitsFollow (high :: low :: rest) := by rw [DigitsFollow, pair]; rfl
    change LegalUri ('%' :: high :: low :: rest) ↔ _
    rw [LegalUri, LegalUri, LegalUri]
    constructor
    · rintro ⟨-, -, -, -, -, -, legal⟩
      exact ⟨fun same => by simp at same, legal⟩
    · rintro ⟨-, legal⟩
      exact ⟨by decide, fun _ => digits, uri_char_of_digit high_digit,
        fun same => absurd same (not_percent high_digit), uri_char_of_digit low_digit,
        fun same => absurd same (not_percent low_digit), legal⟩

/-- What an encoder wrote is legal exactly when the characters it kept are. -/
theorem legal_encoded_iff (encoder : Encoder write) (text : List Char) :
    LegalUri (text.flatMap write) ↔ ∀ c ∈ text, write c = [c] → UriChar c := by
  induction text with
  | nil => exact ⟨fun _ => nofun, fun _ => trivial⟩
  | cons c text step =>
    rw [List.flatMap_cons, legal_written_iff (encoder c), step, List.forall_mem_cons]

end PercentEncoding
