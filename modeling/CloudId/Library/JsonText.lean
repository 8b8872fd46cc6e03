import Mathlib.Tactic.IntervalCases
import Mathlib.Tactic.SplitIfs
import CloudId.Library.Json

/-! Reading JSON text. The reader takes any text of values without numbers; it
gives back what `Json.pretty` prints, and it never takes a text that was cut
short. The latter needs no look at the printer: a value that was read stays
the value read when more text follows it. -/
namespace Json

/-! ## The reader -/

/-- Whitespace between the tokens. -/
def isSpace (c : Char) : Bool := c == ' ' || c == '\n' || c == '\r' || c == '\t'

def skipSpace (input : List Char) : List Char := input.dropWhile isSpace

/-- What an escape of one character stands for. -/
def unescape (c : Char) : Option Char :=
  if c = '"' then some '"'
  else if c = '\\' then some '\\'
  else if c = '/' then some '/'
  else if c = 'n' then some '\n'
  else if c = 'r' then some '\r'
  else if c = 't' then some '\t'
  else if c = 'b' then some (Char.ofNat 8)
  else if c = 'f' then some (Char.ofNat 12)
  else none

def hexDigit? (c : Char) : Option Nat :=
  if '0' ≤ c ∧ c ≤ '9' then some (c.toNat - '0'.toNat)
  else if 'a' ≤ c ∧ c ≤ 'f' then some (c.toNat - 'a'.toNat + 10)
  else if 'A' ≤ c ∧ c ≤ 'F' then some (c.toNat - 'A'.toNat + 10)
  else none

/-- Where the reader of a string stands: between characters, after a backslash,
or before some more digits of a code. -/
inductive StringMode where
  | plain
  | escape
  | code (left value : Nat)

/-- The characters up to the closing quote, and what follows it. -/
def readChars : StringMode → List Char → Option (List Char × List Char)
  | _, [] => none
  | .plain, c :: rest =>
    if c = '"' then some ([], rest)
    else if c = '\\' then readChars .escape rest
    else if c.toNat < 32 then none
    else (readChars .plain rest).map fun found => (c :: found.1, found.2)
  | .escape, c :: rest =>
    if c = 'u' then readChars (.code 3 0) rest
    else
      match unescape c with
      | some c => (readChars .plain rest).map fun found => (c :: found.1, found.2)
      | none => none
  | .code left value, c :: rest =>
    match hexDigit? c with
    | none => none
    | some digit =>
      match left with
      | left + 1 => readChars (.code left (16 * value + digit)) rest
      | 0 =>
        (readChars .plain rest).map fun found => (Char.ofNat (16 * value + digit) :: found.1, found.2)

/-- A fixed word. -/
def readWord (word : String) (value : Json) (input : List Char) : Option (Json × List Char) :=
  if word.toList <+: input then some (value, input.drop word.toList.length) else none

mutual

/-- A value at the start of the input, and what follows it. -/
def readValue : Nat → List Char → Option (Json × List Char)
  | 0, _ => none
  | fuel + 1, input =>
    match skipSpace input with
    | [] => none
    | c :: rest =>
      if c = '"' then
        (readChars .plain rest).map fun found => (string (String.ofList found.1), found.2)
      else if c = '[' then
        if (skipSpace rest).head? = some ']' then some (array [], (skipSpace rest).tail)
        else (readItems fuel rest).map fun found => (array found.1, found.2)
      else if c = '\x7b' then
        if (skipSpace rest).head? = some '\x7d' then some (object [], (skipSpace rest).tail)
        else (readMembers fuel rest).map fun found => (object found.1, found.2)
      else if c = 'n' then readWord "ull" null rest
      else if c = 't' then readWord "rue" (bool true) rest
      else if c = 'f' then readWord "alse" (bool false) rest
      else none

/-- The items of an array, up to its closing bracket. -/
def readItems : Nat → List Char → Option (List Json × List Char)
  | 0, _ => none
  | fuel + 1, input =>
    match readValue fuel input with
    | none => none
    | some (item, rest) =>
      match skipSpace rest with
      | [] => none
      | c :: after =>
        if c = ',' then (readItems fuel after).map fun found => (item :: found.1, found.2)
        else if c = ']' then some ([item], after)
        else none

/-- The members of an object, up to its closing brace. -/
def readMembers : Nat → List Char → Option (List (String × Json) × List Char)
  | 0, _ => none
  | fuel + 1, input =>
    match readValue fuel input with
    | some (string key, rest) =>
      match skipSpace rest with
      | [] => none
      | c :: after =>
        if c ≠ ':' then none
        else
          match readValue fuel after with
          | none => none
          | some (value, rest) =>
            match skipSpace rest with
            | [] => none
            | c :: after =>
              if c = ',' then
                (readMembers fuel after).map fun found => ((key, value) :: found.1, found.2)
              else if c = '\x7d' then some ([(key, value)], after)
              else none
    | _ => none

end

/-- Reads a text that is one value and whitespace. -/
def parse (text : String) : Option Json :=
  match readValue (text.toList.length + 1) text.toList with
  | some (value, rest) => if skipSpace rest = [] then some value else none
  | none => none

example : (parse "\x7b\"a\": [null, \"x\\u0041\\n\"]\x7d").map (pretty 0) =
    some ((object [("a", array [null, string "xA\n"])]).pretty 0) := by decide +kernel

/-! ## A longer input -/

private theorem skip_space_append (more : List Char) (found : skipSpace input = c :: rest) :
    skipSpace (input ++ more) = c :: (rest ++ more) := by
  induction input with
  | nil => cases found
  | cons first input step =>
    rw [skipSpace, List.dropWhile_cons] at found
    rw [List.cons_append, skipSpace, List.dropWhile_cons]
    split at found
    · rename_i space
      rw [if_pos space]
      exact step found
    · rename_i nonspace
      rw [if_neg nonspace]
      cases found
      rfl

private theorem read_chars_append {mode : StringMode} (more : List Char)
    (found : readChars mode input = some (text, rest)) :
    readChars mode (input ++ more) = some (text, rest ++ more) := by
  induction input generalizing mode text with
  | nil => cases mode <;> cases found
  | cons c input step =>
    have later (mode : StringMode) (d : Char)
        (found : (readChars mode input).map (fun found => (d :: found.1, found.2)) =
          some (text, rest)) :
        (readChars mode (input ++ more)).map (fun found => (d :: found.1, found.2)) =
          some (text, rest ++ more) := by
      obtain ⟨⟨chars, left⟩, held, same⟩ := Option.map_eq_some_iff.mp found
      cases same
      rw [step held]
      rfl
    rw [List.cons_append]
    cases mode with
    | plain =>
      rw [readChars] at found ⊢
      split_ifs at found ⊢
      · cases found
        rfl
      · exact step found
      · exact later _ _ found
    | escape =>
      rw [readChars] at found ⊢
      split_ifs at found ⊢
      · exact step found
      · cases meaning : unescape c with
        | none => simp [meaning] at found
        | some d =>
          simp only [meaning] at found ⊢
          exact later _ _ found
    | code left value =>
      rw [readChars] at found ⊢
      cases digit : hexDigit? c with
      | none => simp [digit] at found
      | some d =>
        simp only [digit] at found ⊢
        cases left with
        | zero => exact later _ _ found
        | succ left => exact step found

private theorem read_word_append {word : String} (more : List Char)
    (found : readWord word value input = some (result, rest)) :
    readWord word value (input ++ more) = some (result, rest ++ more) := by
  rw [readWord] at found ⊢
  split at found
  · rename_i starts
    cases found
    rw [if_pos (starts.trans (List.prefix_append _ _)), List.drop_append_of_le_length starts.length_le]
  · cases found

/-- What one reader reads, another reads from a longer input. -/
private def Extends {α : Type} (short long : List Char → Option (α × List Char)) : Prop :=
  ∀ input result rest more, short input = some (result, rest) →
    long (input ++ more) = some (result, rest ++ more)

private theorem Extends.map {α β : Type} {short long : List Char → Option (α × List Char)}
    (extends_ : Extends short long) (make : α → β) :
    Extends (fun input => (short input).map fun found => (make found.1, found.2))
      fun input => (long input).map fun found => (make found.1, found.2) := by
  intro input result rest more found
  obtain ⟨⟨value, left⟩, held, same⟩ := Option.map_eq_some_iff.mp found
  cases same
  simp only [extends_ _ _ _ more held, Option.map_some]

private theorem read_value_blank (blank : skipSpace input = []) : readValue fuel input = none := by
  cases fuel with
  | zero => rfl
  | succ fuel =>
    rw [readValue]
    simp [blank]

private theorem read_items_blank (blank : skipSpace input = []) : readItems fuel input = none := by
  cases fuel with
  | zero => rfl
  | succ fuel =>
    rw [readItems]
    simp [read_value_blank blank]

private theorem read_members_blank (blank : skipSpace input = []) :
    readMembers fuel input = none := by
  cases fuel with
  | zero => rfl
  | succ fuel =>
    rw [readMembers]
    simp [read_value_blank blank]

/-- A block in brackets, which may close at once. -/
private theorem Extends.block {close : Char} {empty : Json}
    {short long : List Char → Option (Json × List Char)} (extends_ : Extends short long)
    (blank : ∀ input, skipSpace input = [] → short input = none) :
    Extends
      (fun input => if (skipSpace input).head? = some close
        then some (empty, (skipSpace input).tail) else short input)
      fun input => if (skipSpace input).head? = some close
        then some (empty, (skipSpace input).tail) else long input := by
  intro input result rest more found
  cases skipped : skipSpace input with
  | nil => simp [skipped, blank input skipped] at found
  | cons c after =>
    simp only [skipped, skip_space_append more skipped, List.head?_cons] at found ⊢
    split_ifs at found ⊢
    · cases found
      rfl
    · exact extends_ _ _ _ more found

private theorem read_value_append (items : Extends (readItems fuel) (readItems fuel'))
    (members : Extends (readMembers fuel) (readMembers fuel')) :
    Extends (readValue (fuel + 1)) (readValue (fuel' + 1)) := by
  intro input result rest more found
  have strings : Extends (readChars .plain) (readChars .plain) :=
    fun _ _ _ more found => read_chars_append more found
  rw [readValue] at found ⊢
  cases skipped : skipSpace input with
  | nil => simp [skipped] at found
  | cons c input =>
    simp only [skipped, skip_space_append more skipped] at found ⊢
    by_cases quote : c = '"'
    · rw [if_pos quote] at found ⊢
      exact strings.map (fun chars => string (String.ofList chars)) _ _ _ more found
    rw [if_neg quote] at found ⊢
    by_cases bracket : c = '['
    · rw [if_pos bracket] at found ⊢
      refine (items.map array).block (fun input blank => ?_) _ _ _ more found
      rw [read_items_blank blank, Option.map_none]
    rw [if_neg bracket] at found ⊢
    by_cases brace : c = '\x7b'
    · rw [if_pos brace] at found ⊢
      refine (members.map object).block (fun input blank => ?_) _ _ _ more found
      rw [read_members_blank blank, Option.map_none]
    rw [if_neg brace] at found ⊢
    split_ifs at found ⊢
    · exact read_word_append more found
    · exact read_word_append more found
    · exact read_word_append more found

private theorem read_items_append (values : Extends (readValue fuel) (readValue fuel'))
    (items : Extends (readItems fuel) (readItems fuel')) :
    Extends (readItems (fuel + 1)) (readItems (fuel' + 1)) := by
  intro input result rest more found
  rw [readItems] at found ⊢
  cases first : readValue fuel input with
  | none => simp [first] at found
  | some read =>
    obtain ⟨item, left⟩ := read
    simp only [first, values _ _ _ more first] at found ⊢
    cases skipped : skipSpace left with
    | nil => simp [skipped] at found
    | cons c after =>
      simp only [skipped, skip_space_append more skipped] at found ⊢
      split_ifs at found ⊢
      · exact items.map (item :: ·) _ _ _ more found
      · cases found
        rfl

private theorem read_members_append (values : Extends (readValue fuel) (readValue fuel'))
    (members : Extends (readMembers fuel) (readMembers fuel')) :
    Extends (readMembers (fuel + 1)) (readMembers (fuel' + 1)) := by
  intro input result rest more found
  rw [readMembers] at found ⊢
  split at found
  · rename_i key left first
    rw [values _ _ _ more first]
    cases skipped : skipSpace left with
    | nil => simp [skipped] at found
    | cons c after =>
      simp only [skipped, skip_space_append more skipped] at found ⊢
      split_ifs at found ⊢
      cases second : readValue fuel after with
      | none => simp [second] at found
      | some read =>
        obtain ⟨value, left⟩ := read
        simp only [second, values _ _ _ more second] at found ⊢
        cases skipped : skipSpace left with
        | nil => simp [skipped] at found
        | cons c after =>
          simp only [skipped, skip_space_append more skipped] at found ⊢
          split_ifs at found ⊢
          · exact members.map ((key, value) :: ·) _ _ _ more found
          · cases found
            rfl
  · cases found

private theorem read_append (enough : fuel ≤ fuel') :
    Extends (readValue fuel) (readValue fuel') ∧ Extends (readItems fuel) (readItems fuel') ∧
      Extends (readMembers fuel) (readMembers fuel') := by
  induction fuel generalizing fuel' with
  | zero => exact ⟨fun _ _ _ _ => nofun, fun _ _ _ _ => nofun, fun _ _ _ _ => nofun⟩
  | succ fuel step =>
    obtain ⟨fuel', rfl⟩ : ∃ less, fuel' = less + 1 := ⟨fuel' - 1, by omega⟩
    obtain ⟨values, items, members⟩ := step (Nat.le_of_succ_le_succ enough)
    exact ⟨read_value_append items members, read_items_append values items,
      read_members_append values members⟩

/-- **What was read stays what is read** when more text follows, and with more
fuel. -/
theorem read_value_extends {input rest : List Char} {value : Json} (more : List Char)
    (enough : fuel ≤ fuel') (read : readValue fuel input = some (value, rest)) :
    readValue fuel' (input ++ more) = some (value, rest ++ more) :=
  (read_append enough).1 _ _ _ more read

/-! ## Reading what was printed -/

/-- The code of a control character is four digits, two of them zero. -/
private theorem control_code : ∀ code < 32, ∃ high low,
    (Text.paddedHex 4 code).toList = ['0', '0', high, low] ∧
      hexDigit? high = some (code / 16) ∧ hexDigit? low = some (code % 16) := by
  intro code small
  interval_cases code <;> exact ⟨_, _, rfl, rfl, rfl⟩

private theorem read_escaped_char (c : Char) (rest : List Char) :
    readChars .plain (escapeChar c ++ rest) =
      (readChars .plain rest).map fun found => (c :: found.1, found.2) := by
  rw [escapeChar]
  by_cases quote : c = '"'
  · subst quote
    rfl
  rw [if_neg quote]
  by_cases backslash : c = '\\'
  · subst backslash
    rfl
  rw [if_neg backslash]
  by_cases newline : c = '\n'
  · subst newline
    rfl
  rw [if_neg newline]
  by_cases return_ : c = '\r'
  · subst return_
    rfl
  rw [if_neg return_]
  by_cases tab : c = '\t'
  · subst tab
    rfl
  rw [if_neg tab]
  have of_code (code : Nat) (same : c.toNat = code) : c = Char.ofNat code := by
    rw [← same, Char.ofNat_toNat]
  by_cases backspace : c.toNat = 8
  · rw [if_pos backspace, of_code 8 backspace]
    rfl
  rw [if_neg backspace]
  by_cases feed : c.toNat = 12
  · rw [if_pos feed, of_code 12 feed]
    rfl
  rw [if_neg feed]
  by_cases control : c.toNat < 32
  · obtain ⟨high, low, digits, first, second⟩ := control_code c.toNat control
    have value : 16 * (16 * (16 * (16 * 0 + 0) + 0) + c.toNat / 16) + c.toNat % 16 = c.toNat := by
      omega
    have zero : hexDigit? '0' = some 0 := rfl
    rw [if_pos control, digits]
    simp only [List.cons_append, List.nil_append, readChars, if_true, zero, first, second, value, Char.ofNat_toNat]
    rfl
  · rw [if_neg control, List.singleton_append, readChars, if_neg quote, if_neg backslash,
      if_neg control]

private theorem read_escaped (text rest : List Char) :
    readChars .plain (text.flatMap escapeChar ++ '"' :: rest) = some (text, rest) := by
  induction text with
  | nil => rfl
  | cons c text step =>
    rw [List.flatMap_cons, List.append_assoc, read_escaped_char, step, Option.map_some]

mutual

/-- A value without numbers. -/
def Textual : Json → Prop
  | number _ => False
  | array items => TextualItems items
  | object members => TextualMembers members
  | _ => True

def TextualItems : List Json → Prop
  | [] => True
  | item :: items => item.Textual ∧ TextualItems items

def TextualMembers : List (String × Json) → Prop
  | [] => True
  | (_, value) :: members => value.Textual ∧ TextualMembers members

end

/-- The reader takes a value off the front of a text, at any fuel that covers
the text of the value. -/
private def ReadsAs (text : String) (value : Json) : Prop :=
  ∀ fuel rest, text.toList.length ≤ fuel →
    readValue fuel (text.toList ++ rest) = some (value, rest)

private theorem skip_newline (depth : Nat) (input : List Char) :
    skipSpace ((newline depth).toList ++ input) = skipSpace input := by
  have spaces (count : Nat) :
      skipSpace (List.replicate count ' ' ++ input) = skipSpace input := by
    induction count with
    | zero => rfl
    | succ count step => exact step
  have spelled : (newline depth).toList = '\n' :: List.replicate (2 * depth) ' ' := by
    simp [newline]
  rw [spelled]
  exact spaces (2 * depth)

private theorem read_value_newline (depth : Nat) (fuel : Nat) (input : List Char) :
    readValue fuel ((newline depth).toList ++ input) = readValue fuel input := by
  cases fuel with
  | zero => rfl
  | succ fuel => rw [readValue, readValue, skip_newline]

private theorem ReadsAs.of_step {text : String} {value : Json} (some_ : text.toList ≠ [])
    (step : ∀ fuel rest, text.toList.length ≤ fuel + 1 →
      readValue (fuel + 1) (text.toList ++ rest) = some (value, rest)) : ReadsAs text value := by
  intro fuel rest enough
  cases fuel with
  | zero => exact absurd (List.length_eq_zero_iff.mp (Nat.le_zero.mp enough)) some_
  | succ fuel => exact step fuel rest enough

private theorem quote_reads (text : String) : ReadsAs (quote text) (string text) := by
  refine .of_step (by simp [quote]) fun fuel rest _ => ?_
  have spelled : (quote text).toList ++ rest =
      '"' :: (text.toList.flatMap escapeChar ++ '"' :: rest) := by
    simp [quote]
  rw [spelled, readValue]
  change (readChars .plain _).map _ = _
  rw [read_escaped, Option.map_some, String.ofList_toList]

/-- What is read as a value does not start with a closing bracket. -/
private theorem ReadsAs.unclosed {text : String} {value : Json} (reads : ReadsAs text value)
    (bracket : close = ']' ∨ close = '\x7d') (rest : List Char) :
    (skipSpace (text.toList ++ rest)).head? ≠ some close := by
  intro closes
  obtain ⟨after, skipped⟩ := List.head?_eq_some_iff.mp closes
  have read := reads (text.toList.length + 1) rest (Nat.le_succ _)
  rw [readValue, skipped] at read
  rcases bracket with rfl | rfl <;> cases read

private theorem array_reads (inner : String) (items : List Json)
    (unclosed : ∀ rest, (skipSpace (inner.toList ++ ']' :: rest)).head? ≠ some ']')
    (read : ∀ fuel rest, inner.toList.length < fuel →
      readItems fuel (inner.toList ++ ']' :: rest) = some (items, rest)) :
    ReadsAs ("[" ++ inner ++ "]") (array items) := by
  refine .of_step (by simp) fun fuel rest enough => ?_
  have spelled : ("[" ++ inner ++ "]").toList ++ rest = '[' :: (inner.toList ++ ']' :: rest) := by
    simp
  have bound : inner.toList.length < fuel := by
    simp at enough ⊢
    omega
  rw [spelled, readValue]
  change (if (skipSpace (inner.toList ++ ']' :: rest)).head? = some ']' then _ else _) = _
  rw [if_neg (unclosed rest), read fuel rest bound]
  rfl

private theorem object_reads (inner : String) (members : List (String × Json))
    (unclosed : ∀ rest, (skipSpace (inner.toList ++ '\x7d' :: rest)).head? ≠ some '\x7d')
    (read : ∀ fuel rest, inner.toList.length < fuel →
      readMembers fuel (inner.toList ++ '\x7d' :: rest) = some (members, rest)) :
    ReadsAs ("\x7b" ++ inner ++ "\x7d") (object members) := by
  refine .of_step (by simp) fun fuel rest enough => ?_
  have spelled : ("\x7b" ++ inner ++ "\x7d").toList ++ rest =
      '\x7b' :: (inner.toList ++ '\x7d' :: rest) := by
    simp
  have bound : inner.toList.length < fuel := by
    simp at enough ⊢
    omega
  rw [spelled, readValue]
  change (if (skipSpace (inner.toList ++ '\x7d' :: rest)).head? = some '\x7d' then _ else _) = _
  rw [if_neg (unclosed rest), read fuel rest bound]
  rfl

/-- The reader of items takes a printed list, the first item of which reads. -/
private def ItemsRead (text : String) (items : List Json) : Prop :=
  ∀ fuel rest, text.toList.length < fuel →
    readItems fuel (text.toList ++ ']' :: rest) = some (items, rest)

private theorem items_read_last {first : String} {item : Json} (reads : ReadsAs first item)
    (depth depth' : Nat) : ItemsRead (newline depth ++ first ++ newline depth') [item] := by
  intro fuel rest enough
  obtain ⟨fuel, rfl⟩ : ∃ less, fuel = less + 1 := ⟨fuel - 1, by omega⟩
  have spelled : (newline depth ++ first ++ newline depth').toList ++ ']' :: rest =
      (newline depth).toList ++ (first.toList ++ ((newline depth').toList ++ ']' :: rest)) := by
    simp
  have bound : first.toList.length ≤ fuel := by
    simp at enough ⊢
    omega
  rw [spelled, readItems, read_value_newline, reads fuel _ bound]
  simp only [skip_newline]
  rfl

private theorem items_read_cons {first more : String} {item : Json} {items : List Json}
    (reads : ReadsAs first item) (depth : Nat) (later : ItemsRead more items) :
    ItemsRead (newline depth ++ first ++ "," ++ more) (item :: items) := by
  intro fuel rest enough
  obtain ⟨fuel, rfl⟩ : ∃ less, fuel = less + 1 := ⟨fuel - 1, by omega⟩
  have spelled : (newline depth ++ first ++ "," ++ more).toList ++ ']' :: rest =
      (newline depth).toList ++ (first.toList ++ (',' :: (more.toList ++ ']' :: rest))) := by
    simp
  have bound : first.toList.length ≤ fuel ∧ more.toList.length < fuel := by
    simp at enough ⊢
    omega
  rw [spelled, readItems, read_value_newline, reads fuel _ bound.1]
  change (readItems fuel (more.toList ++ ']' :: rest)).map _ = _
  rw [later fuel rest bound.2]
  rfl

/-- The reader of members takes a printed list, the first member of which reads. -/
private def MembersRead (text : String) (members : List (String × Json)) : Prop :=
  ∀ fuel rest, text.toList.length < fuel →
    readMembers fuel (text.toList ++ '\x7d' :: rest) = some (members, rest)

private theorem members_read_last {first key : String} {value : Json} (reads : ReadsAs first value)
    (depth depth' : Nat) :
    MembersRead (newline depth ++ quote key ++ ": " ++ first ++ newline depth') [(key, value)] := by
  intro fuel rest enough
  obtain ⟨fuel, rfl⟩ : ∃ less, fuel = less + 1 := ⟨fuel - 1, by omega⟩
  have spelled : (newline depth ++ quote key ++ ": " ++ first ++ newline depth').toList ++
      '\x7d' :: rest = (newline depth).toList ++ ((quote key).toList ++ (':' ::
        (' ' :: (first.toList ++ ((newline depth').toList ++ '\x7d' :: rest))))) := by
    simp
  have bound : (quote key).toList.length ≤ fuel ∧ first.toList.length + 2 ≤ fuel := by
    simp at enough ⊢
    omega
  have value_read := reads fuel ((newline depth').toList ++ '\x7d' :: rest) (by omega)
  rw [spelled, readMembers, read_value_newline, quote_reads key fuel _ bound.1]
  obtain ⟨fuel, rfl⟩ : ∃ less, fuel = less + 1 := ⟨fuel - 1, by omega⟩
  have spaced : readValue (fuel + 1) (' ' :: (first.toList ++ ((newline depth').toList ++
      '\x7d' :: rest))) = some (value, (newline depth').toList ++ '\x7d' :: rest) := value_read
  change (match readValue (fuel + 1) (' ' :: _) with
    | none => none
    | some (value, rest) => _) = _
  rw [spaced]
  simp only [skip_newline]
  rfl

private theorem members_read_cons {first more key : String} {value : Json}
    {members : List (String × Json)} (reads : ReadsAs first value) (depth : Nat)
    (later : MembersRead more members) :
    MembersRead (newline depth ++ quote key ++ ": " ++ first ++ "," ++ more)
      ((key, value) :: members) := by
  intro fuel rest enough
  obtain ⟨fuel, rfl⟩ : ∃ less, fuel = less + 1 := ⟨fuel - 1, by omega⟩
  have spelled : (newline depth ++ quote key ++ ": " ++ first ++ "," ++ more).toList ++
      '\x7d' :: rest = (newline depth).toList ++ ((quote key).toList ++ (':' ::
        (' ' :: (first.toList ++ (',' :: (more.toList ++ '\x7d' :: rest)))))) := by
    simp
  have bound : (quote key).toList.length ≤ fuel ∧ first.toList.length + 2 ≤ fuel ∧
      more.toList.length < fuel := by
    simp at enough ⊢
    omega
  have value_read := reads fuel (',' :: (more.toList ++ '\x7d' :: rest)) (by omega)
  have more_read := later fuel rest bound.2.2
  rw [spelled, readMembers, read_value_newline, quote_reads key fuel _ bound.1]
  obtain ⟨fuel, rfl⟩ : ∃ less, fuel = less + 1 := ⟨fuel - 1, by omega⟩
  have spaced : readValue (fuel + 1) (' ' :: (first.toList ++ (',' :: (more.toList ++
      '\x7d' :: rest)))) = some (value, ',' :: (more.toList ++ '\x7d' :: rest)) := value_read
  change (match readValue (fuel + 1) (' ' :: _) with
    | none => none
    | some (value, rest) => _) = _
  rw [spaced]
  change (readMembers (fuel + 1) (more.toList ++ '\x7d' :: rest)).map _ = _
  rw [more_read]
  rfl

private theorem ReadsAs.newline_unclosed {text : String} {value : Json} (reads : ReadsAs text value)
    (bracket : close = ']' ∨ close = '\x7d') (depth : Nat) (more : String) (rest : List Char) :
    (skipSpace ((newline depth ++ text ++ more).toList ++ rest)).head? ≠ some close := by
  have spelled : (newline depth ++ text ++ more).toList ++ rest =
      (newline depth).toList ++ (text.toList ++ (more.toList ++ rest)) := by
    simp
  rw [spelled, skip_newline]
  exact reads.unclosed bracket _

mutual

private theorem pretty_reads : ∀ (value : Json) (depth : Nat), value.Textual →
    ReadsAs (value.pretty depth) value
  | null, depth, _ => by
    rw [pretty]
    exact .of_step (by decide) fun _ _ _ => rfl
  | bool true, depth, _ => by
    rw [pretty]
    exact .of_step (by decide) fun _ _ _ => rfl
  | bool false, depth, _ => by
    rw [pretty]
    exact .of_step (by decide) fun _ _ _ => rfl
  | string text, depth, _ => by
    rw [pretty]
    exact quote_reads text
  | array [], depth, _ => by
    rw [pretty]
    exact .of_step (by decide) fun _ _ _ => rfl
  | array (item :: items), depth, textual => by
    obtain ⟨first, later⟩ := textual
    have reads := pretty_reads item (depth + 1) first
    have inner := array_reads (newline (depth + 1) ++ item.pretty (depth + 1) ++
      prettyItems (depth + 1) items ++ newline depth) (item :: items)
      (fun rest => by
        rw [String.append_assoc]
        exact reads.newline_unclosed (.inl rfl) _ _ _)
      (items_read items depth reads later)
    rw [pretty]
    simpa only [String.append_assoc] using inner
  | object [], depth, _ => by
    rw [pretty]
    exact .of_step (by decide) fun _ _ _ => rfl
  | object ((key, value) :: members), depth, textual => by
    obtain ⟨first, later⟩ := textual
    have reads := pretty_reads value (depth + 1) first
    have inner := object_reads (newline (depth + 1) ++ quote key ++ ": " ++
      value.pretty (depth + 1) ++ prettyMembers (depth + 1) members ++ newline depth)
      ((key, value) :: members)
      (fun rest => by
        have unclosed := (quote_reads key).newline_unclosed (.inr rfl) (depth + 1)
          (": " ++ value.pretty (depth + 1) ++ prettyMembers (depth + 1) members ++ newline depth)
          ('\x7d' :: rest)
        simpa only [String.append_assoc] using unclosed)
      (members_read members depth key reads later)
    rw [pretty]
    simpa only [String.append_assoc] using inner

private theorem items_read : ∀ (items : List Json) (depth : Nat) {first : String} {item : Json},
    ReadsAs first item → TextualItems items →
    ItemsRead (newline (depth + 1) ++ first ++ prettyItems (depth + 1) items ++ newline depth)
      (item :: items)
  | [], depth, first, item, reads, _ => by
    rw [prettyItems, String.append_empty]
    exact items_read_last reads _ _
  | next :: items, depth, first, item, reads, textual => by
    obtain ⟨second, later⟩ := textual
    have more := items_read items depth (pretty_reads next (depth + 1) second) later
    rw [prettyItems]
    simpa only [String.append_assoc] using items_read_cons reads (depth + 1) more

private theorem members_read : ∀ (members : List (String × Json)) (depth : Nat) (key : String)
    {first : String} {value : Json}, ReadsAs first value → TextualMembers members →
    MembersRead (newline (depth + 1) ++ quote key ++ ": " ++ first ++
      prettyMembers (depth + 1) members ++ newline depth) ((key, value) :: members)
  | [], depth, key, first, value, reads, _ => by
    rw [prettyMembers, String.append_empty]
    exact members_read_last reads _ _
  | (next, held) :: members, depth, key, first, value, reads, textual => by
    obtain ⟨second, later⟩ := textual
    have more := members_read members depth next (pretty_reads held (depth + 1) second) later
    rw [prettyMembers]
    simpa only [String.append_assoc] using members_read_cons reads (depth + 1) more

end

/-- **What is printed is read back.** -/
theorem parse_pretty {value : Json} (textual : value.Textual) (depth : Nat) :
    parse (value.pretty depth) = some value := by
  have read := pretty_reads value depth textual _ [] (Nat.le_succ _)
  rw [List.append_nil] at read
  rw [parse, read]
  rfl

/-- **A text that was cut short is not read:** no strict beginning of a printed
value is a text. -/
theorem parse_cut {value : Json} {cut more : String} (textual : value.Textual) (depth : Nat)
    (split : value.pretty depth = cut ++ more) (lost : more ≠ "") : parse cut = none := by
  rw [parse]
  cases read : readValue (cut.toList.length + 1) cut.toList with
  | none => rfl
  | some found =>
    obtain ⟨other, rest⟩ := found
    have whole := pretty_reads value depth textual ((value.pretty depth).toList.length + 1) []
      (Nat.le_succ _)
    have enough : cut.toList.length + 1 ≤ (value.pretty depth).toList.length + 1 := by
      simp [split]
    have longer := read_value_extends more.toList enough read
    rw [← String.toList_append, ← split] at longer
    rw [List.append_nil, longer] at whole
    have nothing : rest ++ more.toList = [] := congrArg Prod.snd (Option.some.inj whole)
    exact absurd (String.toList_eq_nil_iff.mp (List.append_eq_nil_iff.mp nothing).2) lost

end Json
