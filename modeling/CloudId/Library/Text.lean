import Mathlib.Data.String.Basic

/-! String operations of Rust's `str`, on the characters of a Lean `String`.
Both types hold a sequence of Unicode scalar values, and `str` orders strings
by their UTF-8 bytes, which is the lexicographic order of the characters. -/
namespace Text

/-- `char::is_whitespace`: the Unicode property `White_Space`. -/
def isWhitespace (c : Char) : Bool :=
  let code := c.toNat
  (9 ≤ code && code ≤ 13) || code == 0x20 || code == 0x85 || code == 0xA0 || code == 0x1680 ||
    (0x2000 ≤ code && code ≤ 0x200A) || code == 0x2028 || code == 0x2029 || code == 0x202F ||
    code == 0x205F || code == 0x3000

/-- `str::trim`. -/
def trim (s : String) : String :=
  String.ofList (((s.toList.dropWhile isWhitespace).reverse.dropWhile isWhitespace).reverse)

/-- `str::starts_with` with a string pattern. -/
def startsWith (s pattern : String) : Bool := pattern.toList.isPrefixOf s.toList

/-- `str::ends_with` with a string pattern. -/
def endsWith (s pattern : String) : Bool := pattern.toList.isSuffixOf s.toList

/-- `str::contains` with a string pattern. -/
def contains (s pattern : String) : Bool :=
  s.toList.tails.any fun rest => pattern.toList.isPrefixOf rest

/-- `str::strip_suffix`. -/
def stripSuffix (s pattern : String) : Option String :=
  if endsWith s pattern then
    some (String.ofList (s.toList.take (s.toList.length - pattern.toList.length)))
  else none

/-- `str::trim_end_matches` with one character. -/
def trimEndMatches (s : String) (c : Char) : String :=
  String.ofList ((s.toList.reverse.dropWhile (· == c)).reverse)

/-- `str::find` of a character, as the text before and after its first occurrence. -/
def splitFirst (s : String) (c : Char) : Option (String × String) :=
  match s.toList.dropWhile (· != c) with
  | [] => none
  | _ :: after => some (String.ofList (s.toList.takeWhile (· != c)), String.ofList after)

/-- `str::rfind` of a character, as the text before and after its last occurrence. -/
def splitLast (s : String) (c : Char) : Option (String × String) :=
  match s.toList.reverse.dropWhile (· != c) with
  | [] => none
  | _ :: before =>
    some (String.ofList before.reverse, String.ofList (s.toList.reverse.takeWhile (· != c)).reverse)

/-- Replaces from left to right, dropping `skip` characters of a match already
replaced before looking for the next one. -/
def replaceAux (pattern replacement : List Char) : Nat → List Char → List Char
  | _, [] => []
  | skip + 1, _ :: rest => replaceAux pattern replacement skip rest
  | 0, c :: rest =>
    if pattern.isPrefixOf (c :: rest) then
      replacement ++ replaceAux pattern replacement (pattern.length - 1) rest
    else c :: replaceAux pattern replacement 0 rest

/-- `str::replace` with a non-empty pattern. -/
def replace (s pattern replacement : String) : String :=
  String.ofList (replaceAux pattern.toList replacement.toList 0 s.toList)

/-- The end of a line that a newline closed: one carriage return is part of it. -/
def stripCarriageReturn (line : List Char) : List Char :=
  if line.getLast? = some '\r' then line.dropLast else line

/-- `str::lines`: the pieces between newlines, an empty last piece left out. -/
def lines (s : String) : List String :=
  let pieces := s.toList.splitOn '\n'
  (pieces.dropLast.map stripCarriageReturn ++ pieces.getLast?.toList.filter (· ≠ [])).map
    String.ofList

/-- The pieces of a text between the occurrences of a character. -/
def pieces (separator : Char) (s : String) : List String :=
  (s.toList.splitOn separator).map String.ofList

/-- `[String]::join`. -/
def join (separator : String) (parts : List String) : String := separator.intercalate parts

/-- `{:x}` formatting of a number. -/
def lowerHex (n : Nat) : String := String.ofList (Nat.toDigits 16 n)

/-- `{:0widthx}` formatting of a number. -/
def paddedHex (width n : Nat) : String :=
  let digits := Nat.toDigits 16 n
  String.ofList (List.replicate (width - digits.length) '0' ++ digits)

/-- `{:0width}` formatting of a number. -/
def paddedDecimal (width n : Nat) : String :=
  let digits := Nat.toDigits 10 n
  String.ofList (List.replicate (width - digits.length) '0' ++ digits)

/-- `str::parse` at an unsigned type: an optional plus sign, and decimal digits
whose value stays below the bound. -/
def parseUnsigned (bound : Nat) (s : String) : Option Nat :=
  let digits := if s.toList.head? = some '+' then s.toList.tail else s.toList
  if digits = [] ∨ digits.any (fun c => !c.isDigit) then none
  else
    let value := digits.foldl (fun value c => 10 * value + (c.toNat - '0'.toNat)) 0
    if value < bound then some value else none

example : lines "a\r\nb\n\nc" = ["a", "b", "", "c"] := by decide
example : splitFirst "fcos/a/b" '/' = some ("fcos", "a/b") := by decide
example : replace "x{{A}}y{{A}}" "{{A}}" "1" = "x1y1" := by decide

theorem ends_with_append (s pattern : String) : endsWith (s ++ pattern) pattern = true := by
  rw [endsWith, String.toList_append]
  exact List.isSuffixOf_iff_suffix.mpr (List.suffix_append _ _)

theorem split_first_append {c : Char} {before : List Char} (absent : c ∉ before)
    (after : List Char) :
    splitFirst (String.ofList (before ++ c :: after)) c =
      some (String.ofList before, String.ofList after) := by
  have all : ∀ d ∈ before, (d != c) = true := by
    intro d listed
    exact bne_iff_ne.mpr fun same => absent (same ▸ listed)
  rw [splitFirst, String.toList_ofList, List.dropWhile_append_of_pos all,
    List.takeWhile_append_of_pos all]
  simp

theorem split_first_none {c : Char} {text : List Char} (absent : c ∉ text) :
    splitFirst (String.ofList text) c = none := by
  have all : ∀ d ∈ text, (d != c) = true := by
    intro d listed
    exact bne_iff_ne.mpr fun same => absent (same ▸ listed)
  have nothing : (text ++ []).dropWhile (· != c) = ([] : List Char).dropWhile (· != c) :=
    List.dropWhile_append_of_pos all
  rw [List.append_nil] at nothing
  rw [splitFirst, String.toList_ofList, nothing, List.dropWhile_nil]

/-- Two suffixes of one text are suffixes of one another. -/
theorem not_ends_with_append {s suffix pattern : String}
    (apart : endsWith suffix pattern = false) (apart' : endsWith pattern suffix = false) :
    endsWith (s ++ suffix) pattern = false := by
  rw [Bool.eq_false_iff] at apart apart' ⊢
  intro ends
  rw [endsWith, String.toList_append, List.isSuffixOf_iff_suffix] at ends
  rcases List.suffix_or_suffix_of_suffix ends (List.suffix_append s.toList suffix.toList) with
    inside | inside
  · exact apart (List.isSuffixOf_iff_suffix.mpr inside)
  · exact apart' (List.isSuffixOf_iff_suffix.mpr inside)

theorem strip_suffix_append (s pattern : String) : stripSuffix (s ++ pattern) pattern = some s := by
  rw [stripSuffix, if_pos (ends_with_append s pattern), String.toList_append, List.length_append,
    Nat.add_sub_cancel, List.take_left, String.ofList_toList]

theorem strip_suffix_eq_some {s pattern rest : String} (stripped : stripSuffix s pattern = some rest) :
    s = rest ++ pattern := by
  rw [stripSuffix] at stripped
  split at stripped
  · rename_i ends
    rw [endsWith, List.isSuffixOf_iff_suffix] at ends
    obtain ⟨front, split⟩ := ends
    rw [← split, List.length_append, Nat.add_sub_cancel, List.take_left] at stripped
    rw [← Option.some.inj stripped, ← String.toList_inj, String.toList_append, String.toList_ofList,
      split]
  · cases stripped

theorem strip_suffix_eq_none {s pattern : String} (other : endsWith s pattern = false) :
    stripSuffix s pattern = none := by
  rw [stripSuffix, other]
  rfl

/-! ## Pieces -/

theorem not_mem_split {c : Char} {text piece : List Char} (listed : piece ∈ text.splitOn c) :
    c ∉ piece := by
  induction text generalizing piece with
  | nil =>
    rw [List.splitOn_nil, List.mem_singleton] at listed
    rw [listed]
    exact List.not_mem_nil
  | cons d text step =>
    rw [List.splitOn_cons_eq_if_modifyHead] at listed
    split at listed
    · rcases List.mem_cons.mp listed with rfl | listed
      · exact List.not_mem_nil
      · exact step listed
    · rename_i other
      cases split : text.splitOn c with
      | nil => exact absurd split (List.splitOn_ne_nil c text)
      | cons first rest =>
        rw [split] at listed step
        rcases List.mem_cons.mp listed with rfl | listed
        · rw [List.mem_cons, not_or]
          exact ⟨fun same => other (beq_iff_eq.mpr same.symm), step List.mem_cons_self⟩
        · exact step (List.mem_cons_of_mem _ listed)

theorem not_mem_piece {c : Char} {s piece : String} (listed : piece ∈ pieces c s) :
    c ∉ piece.toList := by
  obtain ⟨text, there, rfl⟩ := List.mem_map.mp listed
  rw [String.toList_ofList]
  exact not_mem_split there

/-- The pieces of a text, joined, are the text. -/
theorem join_pieces (c : Char) (s : String) : join (String.singleton c) (pieces c s) = s := by
  have chars : (pieces c s).map String.toList = s.toList.splitOn c := by
    rw [pieces, List.map_map]
    exact (List.map_congr_left fun text _ => String.toList_ofList).trans (List.map_id _)
  rw [join, ← String.toList_inj, String.toList_intercalate, chars, String.toList_singleton,
    List.intercalate_splitOn]

theorem pieces_ne_nil (c : Char) (s : String) : pieces c s ≠ [] :=
  fun nothing => List.splitOn_ne_nil c s.toList (List.map_eq_nil_iff.mp nothing)

/-- Joined parts are the pieces of the result, when none contains the separator. -/
theorem pieces_join {c : Char} {parts : List String} (free : ∀ part ∈ parts, c ∉ part.toList)
    (some_part : parts ≠ []) : pieces c (join (String.singleton c) parts) = parts := by
  rw [pieces, join, String.toList_intercalate, String.toList_singleton, List.splitOn_intercalate]
  · rw [List.map_map]
    exact (List.map_congr_left fun part _ => String.ofList_toList).trans (List.map_id _)
  · intro text listed
    obtain ⟨part, there, rfl⟩ := List.mem_map.mp listed
    exact free part there
  · rwa [ne_eq, List.map_eq_nil_iff]

/-- A character of a joined text is in the separator or in a part. -/
theorem mem_join {c : Char} {separator : String} {parts : List String}
    (listed : c ∈ (join separator parts).toList) :
    c ∈ separator.toList ∨ ∃ part ∈ parts, c ∈ part.toList := by
  induction parts with
  | nil => cases listed
  | cons part parts step =>
    by_cases last : parts = []
    · rw [last] at listed
      exact .inr ⟨part, List.mem_cons_self, listed⟩
    · rw [join, String.intercalate_cons_of_ne_nil last, String.toList_append, String.toList_append,
        List.mem_append, List.mem_append] at listed
      rcases listed with (first | between) | rest
      · exact .inr ⟨part, List.mem_cons_self, first⟩
      · exact .inl between
      · exact (step rest).imp id fun ⟨other, there, inside⟩ =>
          ⟨other, List.mem_cons_of_mem _ there, inside⟩

theorem mem_join_of_mem {c : Char} (separator : String) {parts : List String} {part : String}
    (listed : part ∈ parts) (inside : c ∈ part.toList) : c ∈ (join separator parts).toList := by
  induction parts with
  | nil => cases listed
  | cons first parts step =>
    by_cases last : parts = []
    · rw [last, List.mem_singleton] at listed
      rw [last, ← listed]
      exact inside
    · rw [join, String.intercalate_cons_of_ne_nil last, String.toList_append, List.mem_append]
      rcases List.mem_cons.mp listed with rfl | later
      · exact .inl (by rw [String.toList_append, List.mem_append]; exact .inl inside)
      · exact .inr (step later)

/-- Lines that end in a newline each are joined by newlines, with nothing after the last. -/
theorem join_terminated (parts : List String) :
    String.join (parts.map (· ++ "\n")) = join "\n" (parts ++ [""]) := by
  rw [join, ← String.toList_inj]
  induction parts with
  | nil => rfl
  | cons part parts step =>
    rw [List.cons_append, String.intercalate_cons_of_ne_nil (by simp), List.map_cons,
      String.toList_append, String.toList_append, ← step, String.toList_join, List.flatMap_cons,
      String.toList_join, String.toList_append]

/-- A line has no newline. -/
theorem line_unbroken {s line : String} (listed : line ∈ lines s) : '\n' ∉ line.toList := by
  obtain ⟨text, there, rfl⟩ := List.mem_map.mp listed
  rw [String.toList_ofList]
  rcases List.mem_append.mp there with closed | last
  · obtain ⟨piece, kept, rfl⟩ := List.mem_map.mp closed
    have unbroken := not_mem_split (List.dropLast_subset _ kept)
    rw [stripCarriageReturn]
    split
    · exact fun inside => unbroken (List.dropLast_subset _ inside)
    · exact unbroken
  · have kept := List.mem_of_mem_filter last
    rw [Option.mem_toList] at kept
    exact not_mem_split (List.mem_of_getLast? kept)

/-! ## Hexadecimal digits -/

/-- The value of a digit that `{:x}` writes. -/
def hexDigitValue (c : Char) : Nat := if c.isDigit then c.toNat - 48 else c.toNat - 87

/-- The value of a text of such digits. -/
def hexValue (digits : List Char) : Nat :=
  digits.foldl (fun value c => 16 * value + hexDigitValue c) 0

theorem hex_digit_value : ∀ d < 16, hexDigitValue (Nat.digitChar d) = d := by decide

theorem hex_value_to_digits (n : Nat) : hexValue (Nat.toDigits 16 n) = n := by
  induction n using Nat.base_induction 16 (by decide) with
  | single m below =>
    rw [Nat.toDigits_of_lt_base below, hexValue, List.foldl_cons, List.foldl_nil,
      hex_digit_value m below]
    omega
  | digit m k below positive step =>
    rw [hexValue] at step
    rw [← Nat.toDigits_append_toDigits (by decide) positive below, hexValue, List.foldl_append, step,
      Nat.toDigits_of_lt_base below, List.foldl_cons, List.foldl_nil, hex_digit_value k below]

theorem hex_value_padded (width n : Nat) : hexValue (paddedHex width n).toList = n := by
  have zeros : ∀ k, (List.replicate k '0').foldl (fun value c => 16 * value + hexDigitValue c) 0 =
      0 := by
    intro k
    induction k with
    | zero => rfl
    | succ k step => exact step
  rw [paddedHex, String.toList_ofList, hexValue, List.foldl_append, zeros]
  exact hex_value_to_digits n

/-- Padded digits are read back, also where the number is too long for its padding. -/
theorem padded_hex_injective (width : Nat) : Function.Injective (paddedHex width) := by
  intro first second same
  rw [← hex_value_padded width first, same, hex_value_padded]

theorem hex_digit_of_mem {c : Char} {n : Nat} (listed : c ∈ Nat.toDigits 16 n) :
    ∃ d < 16, c = Nat.digitChar d := by
  induction n using Nat.base_induction 16 (by decide) with
  | single m below =>
    rw [Nat.toDigits_of_lt_base below] at listed
    exact ⟨m, below, List.mem_singleton.mp listed⟩
  | digit m k below positive step =>
    rw [← Nat.toDigits_append_toDigits (by decide) positive below,
      Nat.toDigits_of_lt_base below] at listed
    rcases List.mem_append.mp listed with listed | listed
    · exact step listed
    · exact ⟨k, below, List.mem_singleton.mp listed⟩

theorem not_mem_padded_hex {c : Char} (no_digit : ∀ d < 16, c ≠ Nat.digitChar d) (width n : Nat) :
    c ∉ (paddedHex width n).toList := by
  rw [paddedHex, String.toList_ofList]
  intro listed
  rcases List.mem_append.mp listed with zero | digit
  · exact no_digit 0 (by decide) (List.eq_of_mem_replicate zero)
  · obtain ⟨d, below, same⟩ := hex_digit_of_mem digit
    exact no_digit d below same

/-- Two fields are told apart by a separator that the first does not contain. -/
theorem fields_injective {separator : Char} {first first' second second' : List Char}
    (absent : separator ∉ first) (absent' : separator ∉ first')
    (same : first ++ separator :: second = first' ++ separator :: second') :
    first = first' ∧ second = second' := by
  induction first generalizing first' with
  | nil =>
    cases first' with
    | nil => exact ⟨rfl, (List.cons.inj same).2⟩
    | cons c rest => exact absurd (List.mem_cons.mpr (.inl (List.cons.inj same).1)) absent'
  | cons c rest step =>
    cases first' with
    | nil => exact absurd (List.mem_cons.mpr (.inl (List.cons.inj same).1.symm)) absent
    | cons c' rest' =>
      obtain ⟨head, tail⟩ := List.cons.inj same
      obtain ⟨rests, seconds⟩ := step (fun there => absent (List.mem_cons_of_mem _ there))
        (fun there => absent' (List.mem_cons_of_mem _ there)) tail
      exact ⟨by rw [head, rests], seconds⟩

/-! ## Decimal fields -/

theorem append_lt_append_iff {first first' second second' : List Char}
    (same : first.length = first'.length) :
    first ++ second < first' ++ second' ↔ first < first' ∨ first = first' ∧ second < second' := by
  induction first generalizing first' with
  | nil =>
    rw [List.eq_nil_of_length_eq_zero same.symm]
    simp
  | cons c rest step =>
    cases first' with
    | nil => cases same
    | cons c' rest' =>
      rw [List.cons_append, List.cons_append, List.cons_lt_cons_iff, List.cons_lt_cons_iff,
        step (Nat.succ.inj same), List.cons.injEq]
      tauto

/-- What two texts begin with alike does not decide between them. -/
theorem cons_lt_cons_self {c : Char} {rest rest' : List Char} :
    c :: rest < c :: rest' ↔ rest < rest' := by
  rw [List.cons_lt_cons_iff]
  simp

/-- The first digit counts for its place. -/
theorem of_digit_chars_cons (c : Char) (rest : List Char) :
    Nat.ofDigitChars 10 (c :: rest) 0 =
      10 ^ rest.length * (c.toNat - '0'.toNat) + Nat.ofDigitChars 10 rest 0 := by
  rw [Nat.ofDigitChars_cons, Nat.ofDigitChars_eq_ofDigitChars_zero, Nat.mul_zero, Nat.zero_add]

theorem of_digit_chars_lt {digits : List Char} (decimal : ∀ c ∈ digits, c.isDigit) :
    Nat.ofDigitChars 10 digits 0 < 10 ^ digits.length := by
  induction digits with
  | nil => decide
  | cons c rest step =>
    have digit := Char.isDigit_iff_toNat.mp (decimal c List.mem_cons_self)
    have below := step fun d listed => decimal d (List.mem_cons_of_mem _ listed)
    have value : c.toNat - '0'.toNat ≤ 9 := Nat.sub_le_sub_right digit.2 _
    have place := Nat.mul_le_mul_left (10 ^ rest.length) value
    rw [of_digit_chars_cons, List.length_cons, Nat.pow_succ]
    omega

theorem place_lt_iff {place high high' low low' : Nat} (below : low < place)
    (below' : low' < place) :
    place * high + low < place * high' + low' ↔ high < high' ∨ high = high' ∧ low < low' := by
  rcases Nat.lt_trichotomy high high' with less | same | more
  · have whole := Nat.mul_le_mul_left place less
    rw [Nat.mul_succ] at whole
    omega
  · rw [same]
    omega
  · have whole := Nat.mul_le_mul_left place more
    rw [Nat.mul_succ] at whole
    omega

/-- Texts of equally many digits are ordered as their values are. -/
theorem digits_lt_iff {digits digits' : List Char} (decimal : ∀ c ∈ digits, c.isDigit)
    (decimal' : ∀ c ∈ digits', c.isDigit) (same : digits.length = digits'.length) :
    digits < digits' ↔ Nat.ofDigitChars 10 digits 0 < Nat.ofDigitChars 10 digits' 0 := by
  induction digits generalizing digits' with
  | nil =>
    rw [List.eq_nil_of_length_eq_zero same.symm]
    simp
  | cons c rest step =>
    cases digits' with
    | nil => cases same
    | cons c' rest' =>
      have lengths : rest.length = rest'.length := Nat.succ.inj same
      have rests := fun d listed => decimal d (List.mem_cons_of_mem _ listed)
      have rests' := fun d listed => decimal' d (List.mem_cons_of_mem _ listed)
      have below := of_digit_chars_lt rests
      have below' := of_digit_chars_lt rests'
      have digit := Char.isDigit_iff_toNat.mp (decimal c List.mem_cons_self)
      have digit' := Char.isDigit_iff_toNat.mp (decimal' c' List.mem_cons_self)
      rw [List.cons_lt_cons_iff, step rests rests' lengths, of_digit_chars_cons,
        of_digit_chars_cons, lengths, place_lt_iff (lengths ▸ below) below', ← Char.toNat_inj]
      have order : c < c' ↔ c.toNat < c'.toNat := UInt32.lt_iff_toNat_lt
      rw [order]
      have zero : '0'.toNat = 48 := rfl
      omega

/-- A number that fits into its padding is written in as many digits. -/
theorem length_padded_decimal {width n : Nat} (fits : n < 10 ^ width) (positive : 0 < width) :
    (paddedDecimal width n).toList.length = width := by
  have short := (Nat.length_toDigits_le_iff (by decide) positive).mpr fits
  rw [paddedDecimal, String.toList_ofList, List.length_append, List.length_replicate]
  exact Nat.sub_add_cancel short

theorem decimal_padded_decimal {width n : Nat} :
    ∀ c ∈ (paddedDecimal width n).toList, c.isDigit := by
  intro c listed
  rw [paddedDecimal, String.toList_ofList] at listed
  rcases List.mem_append.mp listed with zero | digit
  · rw [List.eq_of_mem_replicate zero]
    rfl
  · exact Nat.isDigit_of_mem_toDigits (by decide) (by decide) digit

theorem value_padded_decimal (width n : Nat) :
    Nat.ofDigitChars 10 (paddedDecimal width n).toList 0 = n := by
  rw [paddedDecimal, String.toList_ofList, Nat.ofDigitChars_append, Nat.ofDigitChars_replicate_zero,
    Nat.mul_zero, Nat.ofDigitChars_ten_toDigits]

/-- **A text that begins with a padded number is ordered by the number first,** as long as the
number fits into its padding. -/
theorem padded_decimal_append_lt_iff {width n n' : Nat} {rest rest' : List Char}
    (fits : n < 10 ^ width) (fits' : n' < 10 ^ width) (positive : 0 < width) :
    (paddedDecimal width n).toList ++ rest < (paddedDecimal width n').toList ++ rest' ↔
      n < n' ∨ n = n' ∧ rest < rest' := by
  have lengths : (paddedDecimal width n).toList.length =
      (paddedDecimal width n').toList.length := by
    rw [length_padded_decimal fits positive, length_padded_decimal fits' positive]
  have same : (paddedDecimal width n).toList = (paddedDecimal width n').toList ↔ n = n' := by
    refine ⟨fun same => ?_, fun same => by rw [same]⟩
    rw [← value_padded_decimal width n, same, value_padded_decimal]
  rw [append_lt_append_iff lengths, digits_lt_iff decimal_padded_decimal decimal_padded_decimal
    lengths, value_padded_decimal, value_padded_decimal, same]

/-- The same where a separator follows the number. -/
theorem padded_field_lt_iff {width n n' : Nat} {separator : Char} {rest rest' : List Char}
    (fits : n < 10 ^ width) (fits' : n' < 10 ^ width) (positive : 0 < width) :
    (paddedDecimal width n).toList ++ separator :: rest <
        (paddedDecimal width n').toList ++ separator :: rest' ↔
      n < n' ∨ n = n' ∧ rest < rest' := by
  rw [padded_decimal_append_lt_iff fits fits' positive, cons_lt_cons_self]

/-- A text without a line break that `lines` takes as one line: it does not end in a carriage
return either. -/
structure PlainLine (text : String) : Prop where
  unbroken : '\n' ∉ text.toList
  no_return : text.toList.getLast? ≠ some '\r'

/-- **Joined lines are the lines of the result,** and an empty last one is not counted. -/
theorem lines_join {parts : List String} {last : String} (plain : ∀ part ∈ parts, PlainLine part)
    (unbroken : '\n' ∉ last.toList) : lines (join "\n" (parts ++ [last])) =
      parts ++ if last = "" then [] else [last] := by
  have split : (join "\n" (parts ++ [last])).toList.splitOn '\n' =
      (parts ++ [last]).map String.toList := by
    rw [join, String.toList_intercalate, show "\n".toList = ['\n'] from rfl,
      List.splitOn_intercalate]
    · intro text listed
      obtain ⟨part, there, rfl⟩ := List.mem_map.mp listed
      rcases List.mem_append.mp there with before | at_end
      · exact (plain part before).unbroken
      · rwa [List.mem_singleton.mp at_end]
    · simp
  have kept : parts.map (fun part => stripCarriageReturn part.toList) = parts.map String.toList :=
    List.map_congr_left fun part listed => if_neg (plain part listed).no_return
  have closed : (parts.map String.toList).map String.ofList = parts := by
    rw [List.map_map]
    exact (List.map_congr_left fun part _ => String.ofList_toList).trans (List.map_id _)
  have pieces : (parts ++ [last]).map String.toList = parts.map String.toList ++ [last.toList] :=
    List.map_append
  unfold lines
  dsimp only
  rw [split, pieces, List.dropLast_concat, List.map_map, List.getLast?_concat, List.map_append]
  change (parts.map fun part => stripCarriageReturn part.toList).map String.ofList ++ _ = _
  rw [kept, closed]
  congr 1
  by_cases empty : last = ""
  · rw [if_pos empty, empty]
    rfl
  · have chars : last.toList ≠ [] := fun none => empty (String.toList_eq_nil_iff.mp none)
    simp [empty, chars]

theorem lines_terminated {parts : List String} (plain : ∀ part ∈ parts, PlainLine part) :
    lines (String.join (parts.map (· ++ "\n"))) = parts := by
  rw [join_terminated, lines_join plain (by decide), if_pos rfl, List.append_nil]

/-- Nothing is left of a text without its blanks exactly if it has nothing else. -/
theorem trim_eq_empty_iff {s : String} : trim s = "" ↔ ∀ c ∈ s.toList, isWhitespace c = true := by
  have passed : ∀ text : List Char, text.dropWhile isWhitespace = [] ↔
      ∀ c ∈ text, isWhitespace c = true := by
    intro text
    constructor
    · intro nothing c listed
      rw [← @List.takeWhile_append_dropWhile _ isWhitespace text, nothing, List.append_nil] at listed
      exact List.all_eq_true.mp List.all_takeWhile c listed
    · intro blank
      by_contra left
      have first := List.head_dropWhile_not isWhitespace left
      rw [blank _ (List.dropWhile_subset _ (List.head_mem left))] at first
      cases first
  rw [trim, ← String.toList_eq_nil_iff, String.toList_ofList, List.reverse_eq_nil_iff, passed]
  constructor
  · intro blank
    refine (passed _).mp (by_contra fun left => ?_)
    have first := List.head_dropWhile_not isWhitespace left
    rw [blank _ (List.mem_reverse.mpr (List.head_mem left))] at first
    cases first
  · intro blank c listed
    exact blank c (List.dropWhile_subset _ (List.mem_reverse.mp listed))

/-- What is written in decimal digits is read back. -/
theorem parse_unsigned_decimal {bound n : Nat} (fits : n < bound) :
    parseUnsigned bound (toString n) = some n := by
  have digits : ∀ c ∈ Nat.toDigits 10 n, c.isDigit = true :=
    fun c => Nat.isDigit_of_mem_toDigits (by decide) (by decide)
  have unsigned : (Nat.toDigits 10 n).head? ≠ some '+' := fun sign =>
    absurd (digits '+' (List.mem_of_mem_head? sign)) (by decide)
  have value : (Nat.toDigits 10 n).foldl (fun value c => 10 * value + (c.toNat - '0'.toNat)) 0 = n := by
    rw [← Nat.ofDigitChars_eq_foldl, Nat.ofDigitChars_ten_toDigits]
  have no_other : ((Nat.toDigits 10 n).any fun c => !c.isDigit) = false := by
    simpa [List.any_eq_false] using digits
  unfold parseUnsigned
  rw [Nat.toString_eq_repr, Nat.toList_repr, if_neg unsigned]
  dsimp only
  rw [if_neg (by simp [Nat.toDigits_ne_nil, no_other]), value, if_pos fits]

end Text
