import Mathlib.Data.List.Infix
import CloudId.Library.Text

/-! Substitution of several patterns in a text. A text is read as tokens: characters, and slots
where a pattern stands. Substituting at once replaces the slots; replacing the patterns one
after another does the same as long as no characters spell a pattern that is still to be
replaced. -/
namespace Substitution

variable {ι : Type} {pattern : ι → List Char}

/-! ## Tokens -/

/-- No pattern overlaps another, or itself. -/
structure NonOverlapping (pattern : ι → List Char) : Prop where
  some_char : ∀ i, pattern i ≠ []
  same : ∀ i j, pattern i <+: pattern j → i = j
  apart : ∀ i j rest, rest <:+ pattern i → rest ≠ [] → rest ≠ pattern i →
    ¬ rest <+: pattern j ∧ ¬ pattern j <+: rest

/-- The text of tokens. -/
def spell (pattern : ι → List Char) (tokens : List (Char ⊕ ι)) : List Char :=
  tokens.flatMap (Sum.elim (fun c => [c]) pattern)

theorem spell_char (c : Char) (tokens : List (Char ⊕ ι)) :
    spell pattern (.inl c :: tokens) = c :: spell pattern tokens := rfl

theorem spell_slot (i : ι) (tokens : List (Char ⊕ ι)) :
    spell pattern (.inr i :: tokens) = pattern i ++ spell pattern tokens := List.flatMap_cons

/-- Characters of the tokens spell a pattern. -/
def Spelled (pattern : ι → List Char) (i : ι) (tokens : List (Char ⊕ ι)) : Prop :=
  (pattern i).map Sum.inl <:+: tokens

/-- What remains of a pattern after its first character can stand before tokens only in
characters. -/
theorem rest_prefix_spell (separate : NonOverlapping pattern) {i : ι} {rest : List Char}
    {tokens : List (Char ⊕ ι)} (part : rest <:+ pattern i) (proper : rest ≠ pattern i)
    (spelled : rest <+: spell pattern tokens) : rest.map Sum.inl <+: tokens := by
  induction rest generalizing tokens with
  | nil => exact List.nil_prefix
  | cons c rest step =>
    cases tokens with
    | nil => exact absurd (List.prefix_nil.mp spelled) (List.cons_ne_nil _ _)
    | cons token tokens =>
      cases token with
      | inl d =>
        rw [spell_char] at spelled
        obtain ⟨rfl, later⟩ := List.cons_prefix_cons.mp spelled
        have shorter : rest <:+ pattern i := (List.suffix_cons c rest).trans part
        have other : rest ≠ pattern i := by
          intro same
          have longer := part.length_le
          rw [← same, List.length_cons] at longer
          omega
        exact List.cons_prefix_cons.mpr ⟨rfl, step shorter other later⟩
      | inr j =>
        rw [spell_slot] at spelled
        obtain ⟨within, beyond⟩ := separate.apart i j _ part (List.cons_ne_nil _ _) proper
        rcases List.prefix_or_prefix_of_prefix spelled (List.prefix_append _ _) with inside | inside
        · exact absurd inside within
        · exact absurd inside beyond

/-- A pattern stands at a character only if characters spell it. -/
theorem prefix_spell_char (separate : NonOverlapping pattern) {i : ι} {c : Char}
    {tokens : List (Char ⊕ ι)} (here : pattern i <+: spell pattern (.inl c :: tokens)) :
    (pattern i).map Sum.inl <+: .inl c :: tokens := by
  obtain ⟨d, rest, shape⟩ := List.exists_cons_of_ne_nil (separate.some_char i)
  rw [shape] at here ⊢
  rw [spell_char] at here
  obtain ⟨rfl, later⟩ := List.cons_prefix_cons.mp here
  have part : rest <:+ pattern i := by
    rw [shape]
    exact List.suffix_cons d rest
  have proper : rest ≠ pattern i := by
    rw [shape]
    exact List.ne_cons_self
  exact List.cons_prefix_cons.mpr ⟨rfl, rest_prefix_spell separate part proper later⟩

/-- Characters that spell a pattern are one in the text. -/
theorem spell_prefix {i : ι} {tokens : List (Char ⊕ ι)} (here : (pattern i).map Sum.inl <+: tokens) :
    pattern i <+: spell pattern tokens := by
  obtain ⟨after, rfl⟩ := here
  have chars : ((pattern i).map Sum.inl).flatMap (Sum.elim (fun c => [c]) pattern) = pattern i := by
    rw [List.flatMap_map]
    exact List.flatMap_singleton' _
  rw [spell, List.flatMap_append, chars]
  exact List.prefix_append _ _

/-- At a slot stands its own pattern and no other. -/
theorem prefix_spell_slot (separate : NonOverlapping pattern) {i j : ι} {tokens : List (Char ⊕ ι)} :
    pattern i <+: spell pattern (.inr j :: tokens) ↔ i = j := by
  rw [spell_slot]
  constructor
  · intro here
    rcases List.prefix_or_prefix_of_prefix here (List.prefix_append _ _) with inside | inside
    · exact separate.same i j inside
    · exact (separate.same j i inside).symm
  · rintro rfl
    exact List.prefix_append _ _

/-- Inside a slot no pattern begins. -/
theorem not_prefix_inside (separate : NonOverlapping pattern) {i j : ι} {rest after : List Char}
    (part : rest <:+ pattern j) (some_char : rest ≠ []) (proper : rest ≠ pattern j) :
    ¬ pattern i <+: rest ++ after := by
  intro here
  obtain ⟨within, beyond⟩ := separate.apart j i rest part some_char proper
  rcases List.prefix_or_prefix_of_prefix here (List.prefix_append _ _) with inside | inside
  · exact beyond inside
  · exact within inside

/-! ## One pattern -/

/-- The tokens with text in the slots of one pattern. -/
def fillOne [DecidableEq ι] (i : ι) (value : List Char) (tokens : List (Char ⊕ ι)) :
    List (Char ⊕ ι) :=
  tokens.flatMap (Sum.elim (fun c => [.inl c]) fun j => if j = i then value.map .inl else [.inr j])

theorem replace_skip (found value front after : List Char) :
    Text.replaceAux found value front.length (front ++ after) = Text.replaceAux found value 0 after := by
  induction front with
  | nil => rfl
  | cons c front step => exact step

/-- Text is kept while the pattern does not begin in it. -/
theorem replace_kept {found value front after : List Char}
    (absent : ∀ rest, rest <:+ front → rest ≠ [] → ¬ found <+: rest ++ after) :
    Text.replaceAux found value 0 (front ++ after) = front ++ Text.replaceAux found value 0 after := by
  induction front with
  | nil => rfl
  | cons c front step =>
    have here := absent (c :: front) List.suffix_rfl (List.cons_ne_nil _ _)
    rw [← List.isPrefixOf_iff_prefix, List.cons_append] at here
    rw [List.cons_append, Text.replaceAux, if_neg here,
      step fun rest part => absent rest (part.trans (List.suffix_cons c front))]
    rfl

theorem replace_found {found value after : List Char} (some_char : found ≠ []) :
    Text.replaceAux found value 0 (found ++ after) = value ++ Text.replaceAux found value 0 after := by
  obtain ⟨c, rest, rfl⟩ := List.exists_cons_of_ne_nil some_char
  have here : (c :: rest).isPrefixOf (c :: (rest ++ after)) = true :=
    List.isPrefixOf_iff_prefix.mpr (List.prefix_append (c :: rest) after)
  rw [List.cons_append, Text.replaceAux, if_pos here]
  exact congrArg (value ++ ·) (replace_skip (c :: rest) value rest after)

theorem spell_value (value : List Char) (tokens : List (Char ⊕ ι)) :
    spell pattern (value.map .inl ++ tokens) = value ++ spell pattern tokens := by
  rw [spell, List.flatMap_append, List.flatMap_map]
  exact congrArg (· ++ spell pattern tokens) (List.flatMap_singleton' _)

/-- Where no characters spell a pattern, replacing it fills its slots. -/
theorem replace_spell [DecidableEq ι] (separate : NonOverlapping pattern) {i : ι} (value : List Char)
    {tokens : List (Char ⊕ ι)} (clean : ¬ Spelled pattern i tokens) :
    Text.replaceAux (pattern i) value 0 (spell pattern tokens) =
      spell pattern (fillOne i value tokens) := by
  induction tokens with
  | nil => rfl
  | cons token tokens step =>
    have rest := step fun later => clean (later.trans (List.suffix_cons _ _).isInfix)
    cases token with
    | inl c =>
      have here : ¬ (pattern i).isPrefixOf (c :: spell pattern tokens) = true := fun here =>
        clean (prefix_spell_char separate (List.isPrefixOf_iff_prefix.mp here)).isInfix
      rw [spell_char, Text.replaceAux, if_neg here, rest]
      rfl
    | inr j =>
      have shape : fillOne i value (.inr j :: tokens) =
          (if j = i then value.map .inl else [.inr j]) ++ fillOne i value tokens := List.flatMap_cons
      rw [spell_slot, shape]
      by_cases same : j = i
      · rw [if_pos same, same, replace_found (separate.some_char i), rest, spell_value]
      · have absent : ∀ part, part <:+ pattern j → part ≠ [] →
            ¬ pattern i <+: part ++ spell pattern tokens := by
          intro part within some_char
          by_cases whole : part = pattern j
          · rw [whole, ← spell_slot, prefix_spell_slot separate]
            exact fun other => same other.symm
          · exact not_prefix_inside separate within some_char whole
        rw [if_neg same, replace_kept absent, rest, List.singleton_append, spell_slot]

/-! ## Occurrences -/

/-- The places at which a list holds another. -/
def occurrences {α : Type} [DecidableEq α] (found text : List α) : Nat :=
  text.tails.countP fun rest => found <+: rest

theorem occurrences_nil {α : Type} [DecidableEq α] {found : List α} (some_char : found ≠ []) :
    occurrences found [] = 0 := by
  simp [occurrences, some_char]

theorem occurrences_cons {α : Type} [DecidableEq α] (found : List α) (c : α) (text : List α) :
    occurrences found (c :: text) =
      occurrences found text + if found <+: c :: text then 1 else 0 := by
  simp only [occurrences, List.tails_cons, List.countP_cons, decide_eq_true_eq]

theorem occurrences_eq_zero {α : Type} [DecidableEq α] {found text : List α} :
    occurrences found text = 0 ↔ ¬ found <:+: text := by
  rw [occurrences, List.countP_eq_zero, List.infix_iff_prefix_suffix]
  simp only [List.mem_tails, decide_eq_true_eq, not_exists, not_and]
  exact ⟨fun none rest here part => none rest part here,
    fun none rest part here => none rest here part⟩

theorem occurrences_kept {found front after : List Char}
    (absent : ∀ rest, rest <:+ front → rest ≠ [] → ¬ found <+: rest ++ after) :
    occurrences found (front ++ after) = occurrences found after := by
  induction front with
  | nil => rfl
  | cons c front step =>
    have here := absent (c :: front) List.suffix_rfl (List.cons_ne_nil _ _)
    rw [List.cons_append] at here
    rw [List.cons_append, occurrences_cons, if_neg here]
    exact step fun rest part => absent rest (part.trans (List.suffix_cons c front))

/-- The slots of one pattern. -/
def slots [DecidableEq ι] (i : ι) (tokens : List (Char ⊕ ι)) : Nat :=
  tokens.countP fun token => token = .inr i

theorem slots_append [DecidableEq ι] (i : ι) (first second : List (Char ⊕ ι)) :
    slots i (first ++ second) = slots i first + slots i second := List.countP_append

/-- Inside its slot a pattern stands once, and no other does. -/
theorem occurrences_slot [DecidableEq ι] (separate : NonOverlapping pattern) (i j : ι)
    (after : List Char) (whole : pattern i <+: pattern j ++ after ↔ i = j) :
    occurrences (pattern i) (pattern j ++ after) =
      occurrences (pattern i) after + if i = j then 1 else 0 := by
  obtain ⟨c, rest, shape⟩ := List.exists_cons_of_ne_nil (separate.some_char j)
  have inside : ∀ part, part <:+ rest → part ≠ [] → ¬ pattern i <+: part ++ after := by
    intro part within some_char
    have tail : rest <:+ pattern j := by
      rw [shape]
      exact List.suffix_cons c rest
    refine not_prefix_inside separate (within.trans tail) some_char fun same => ?_
    have shorter := within.length_le
    rw [same, shape, List.length_cons] at shorter
    omega
  rw [shape] at whole ⊢
  rw [List.cons_append] at whole ⊢
  rw [occurrences_cons, occurrences_kept inside]
  simp only [whole]

/-- A pattern occurs in a text at its slots and where characters spell it. -/
theorem occurrences_spell [DecidableEq ι] (separate : NonOverlapping pattern) (i : ι)
    (tokens : List (Char ⊕ ι)) : occurrences (pattern i) (spell pattern tokens) =
      slots i tokens + occurrences ((pattern i).map .inl) tokens := by
  have some_char := separate.some_char i
  induction tokens with
  | nil =>
    rw [occurrences_nil (by rwa [ne_eq, List.map_eq_nil_iff])]
    exact occurrences_nil some_char
  | cons token tokens step =>
    rw [occurrences_cons ((pattern i).map Sum.inl), slots, List.countP_cons, ← slots]
    cases token with
    | inl c =>
      have same : (pattern i <+: c :: spell pattern tokens) ↔
          ((pattern i).map .inl <+: .inl c :: tokens) :=
        ⟨prefix_spell_char separate, spell_prefix⟩
      rw [spell_char, occurrences_cons, step]
      simp only [same, reduceCtorEq, decide_false, Bool.false_eq_true, if_false]
      omega
    | inr j =>
      obtain ⟨c, rest, shape⟩ := List.exists_cons_of_ne_nil some_char
      have other : ¬ (pattern i).map Sum.inl <+: .inr j :: tokens := by
        rw [shape, List.map_cons, List.cons_prefix_cons]
        exact fun both => Sum.inl_ne_inr both.1
      rw [spell_slot, occurrences_slot separate i j _
        (by rw [← spell_slot]; exact prefix_spell_slot separate), step, if_neg other]
      simp only [Sum.inr.injEq, decide_eq_true_eq, eq_comm (a := i)]
      omega

/-! ## Reading a text -/

/-- The tokens of a text: the patterns that stand in it, from left to right. -/
def parseAux (pattern : ι → List Char) (order : List ι) : Nat → List Char → List (Char ⊕ ι)
  | _, [] => []
  | skip + 1, _ :: rest => parseAux pattern order skip rest
  | 0, c :: rest =>
    match order.find? fun i => (pattern i).isPrefixOf (c :: rest) with
    | some i => .inr i :: parseAux pattern order ((pattern i).length - 1) rest
    | none => .inl c :: parseAux pattern order 0 rest

def parse (pattern : ι → List Char) (order : List ι) (text : List Char) : List (Char ⊕ ι) :=
  parseAux pattern order 0 text

theorem parse_skip (order : List ι) (front after : List Char) :
    parseAux pattern order front.length (front ++ after) = parse pattern order after := by
  induction front with
  | nil => rfl
  | cons c front step => exact step

/-- A text begins with a pattern, or with a character at which none stands. -/
theorem parse_cons (separate : NonOverlapping pattern) (order : List ι) (c : Char) (rest : List Char) :
    (∃ i after, c :: rest = pattern i ++ after ∧
      parse pattern order (c :: rest) = .inr i :: parse pattern order after) ∨
    ((∀ i ∈ order, ¬ pattern i <+: c :: rest) ∧
      parse pattern order (c :: rest) = .inl c :: parse pattern order rest) := by
  rw [parse, parseAux]
  cases found : order.find? fun i => (pattern i).isPrefixOf (c :: rest) with
  | some i =>
    have starts : (pattern i).isPrefixOf (c :: rest) = true := by simpa using List.find?_some found
    obtain ⟨after, whole⟩ := List.isPrefixOf_iff_prefix.mp starts
    obtain ⟨d, inner, shape⟩ := List.exists_cons_of_ne_nil (separate.some_char i)
    refine .inl ⟨i, after, whole.symm, ?_⟩
    rw [shape, List.cons_append] at whole
    dsimp only
    rw [shape, ← (List.cons.inj whole).2]
    exact congrArg (.inr i :: ·) (parse_skip order inner after)
  | none =>
    refine .inr ⟨fun i listed here => ?_, rfl⟩
    have absent := List.find?_eq_none.mp found i listed
    exact absent (List.isPrefixOf_iff_prefix.mpr here)

/-- The tokens of a text spell it, and no characters of them a pattern. -/
theorem parse_spell (separate : NonOverlapping pattern) (order : List ι) (text : List Char) :
    spell pattern (parse pattern order text) = text ∧
      ∀ i ∈ order, ¬ Spelled pattern i (parse pattern order text) := by
  induction size : text.length using Nat.strong_induction_on generalizing text with
  | _ length step =>
    cases text with
    | nil =>
      refine ⟨rfl, fun i _ spelled => separate.some_char i ?_⟩
      exact List.map_eq_nil_iff.mp (List.infix_nil.mp spelled)
    | cons c rest =>
      rcases parse_cons separate order c rest with ⟨j, after, whole, read⟩ | ⟨absent, read⟩
      · have shorter : after.length < length := by
          have positive := List.length_pos_iff.mpr (separate.some_char j)
          rw [← size, whole, List.length_append]
          omega
        obtain ⟨spells, clean⟩ := step after.length shorter after rfl
        rw [read, spell_slot, spells, whole]
        refine ⟨rfl, fun i listed spelled => ?_⟩
        rcases List.infix_cons_iff.mp spelled with here | later
        · obtain ⟨d, inner, shape⟩ := List.exists_cons_of_ne_nil (separate.some_char i)
          rw [shape, List.map_cons, List.cons_prefix_cons] at here
          exact Sum.inl_ne_inr here.1
        · exact clean i listed later
      · have shorter : rest.length < length := by
          rw [← size, List.length_cons]
          omega
        obtain ⟨spells, clean⟩ := step rest.length shorter rest rfl
        rw [read, spell_char, spells]
        refine ⟨rfl, fun i listed spelled => ?_⟩
        rcases List.infix_cons_iff.mp spelled with here | later
        · have stands := spell_prefix here
          rw [spell_char, spells] at stands
          exact absent i listed stands
        · exact clean i listed later

/-- A pattern occurs in a text where it stands as a token. -/
theorem occurrences_parse [DecidableEq ι] (separate : NonOverlapping pattern) {order : List ι} {i : ι}
    (listed : i ∈ order) (text : List Char) :
    occurrences (pattern i) text = slots i (parse pattern order text) := by
  obtain ⟨spells, clean⟩ := parse_spell separate order text
  have counted := occurrences_spell separate i (parse pattern order text)
  rwa [spells, occurrences_eq_zero.mpr (clean i listed), Nat.add_zero] at counted

/-! ## All patterns -/

section Order

variable [DecidableEq ι] (values : ι → List Char)

/-- The patterns of a list are replaced one after another. -/
def sequential (pattern : ι → List Char) (order : List ι) (text : List Char) : List Char :=
  order.foldl (fun text i => Text.replaceAux (pattern i) (values i) 0 text) text

/-- Every pattern that stands in the text is replaced, and all else is kept. -/
def atOnce (pattern : ι → List Char) (order : List ι) (text : List Char) : List Char :=
  (parse pattern order text).flatMap (Sum.elim (fun c => [c]) values)

/-- The tokens with the values of some patterns in their slots. -/
def fill (done : List ι) (tokens : List (Char ⊕ ι)) : List (Char ⊕ ι) :=
  tokens.flatMap (Sum.elim (fun c => [.inl c])
    fun j => if j ∈ done then (values j).map .inl else [.inr j])

variable {values}

theorem fill_nil (tokens : List (Char ⊕ ι)) : fill values [] tokens = tokens := by
  refine (List.flatMap_congr fun token _ => ?_).trans (List.flatMap_singleton' tokens)
  cases token <;> rfl

/-- One more pattern fills its slots in the tokens filled so far. -/
theorem fill_snoc {done : List ι} {i : ι} (fresh : i ∉ done) (tokens : List (Char ⊕ ι)) :
    fill values (done ++ [i]) tokens = fillOne i (values i) (fill values done tokens) := by
  rw [fillOne, fill, fill, List.flatMap_assoc]
  refine List.flatMap_congr fun token _ => ?_
  cases token with
  | inl c => rfl
  | inr j =>
    by_cases filled : j ∈ done
    · have other : j ≠ i := fun same => fresh (same ▸ filled)
      have kept : (values j).flatMap (fun c => [(.inl c : Char ⊕ ι)]) = (values j).map .inl :=
        List.map_eq_flatMap.symm
      simp [filled, List.flatMap_map, kept]
    · by_cases same : j = i
      · simp [same, fresh]
      · simp [filled, same]

theorem slots_fill {done : List ι} {i : ι} (fresh : i ∉ done) (tokens : List (Char ⊕ ι)) :
    slots i (fill values done tokens) = slots i tokens := by
  induction tokens with
  | nil => rfl
  | cons token tokens step =>
    have shape : fill values done (token :: tokens) = Sum.elim (fun c => [.inl c])
        (fun j => if j ∈ done then (values j).map .inl else [.inr j]) token ++
          fill values done tokens := List.flatMap_cons
    rw [shape, slots_append, step, ← List.singleton_append, slots_append]
    refine congrArg (· + slots i tokens) ?_
    cases token with
    | inl c => rfl
    | inr j =>
      by_cases filled : j ∈ done
      · have other : j ≠ i := fun same => fresh (same ▸ filled)
        simp [slots, filled, other, List.countP_eq_zero]
      · simp [filled]

/-- With all patterns filled in, the tokens spell the substitution at once. -/
theorem at_once_eq {order : List ι} (all : ∀ i, i ∈ order) (text : List Char) :
    atOnce values pattern order text =
      spell pattern (fill values order (parse pattern order text)) := by
  rw [atOnce, spell, fill, List.flatMap_assoc]
  refine List.flatMap_congr fun token _ => ?_
  cases token with
  | inl c => rfl
  | inr i =>
    rw [Sum.elim_inr, Sum.elim_inr, if_pos (all i), List.flatMap_map]
    exact (List.flatMap_singleton' (values i)).symm

omit [DecidableEq ι] in
theorem sequential_snoc (done : List ι) (i : ι) (text : List Char) :
    sequential values pattern (done ++ [i]) text =
      Text.replaceAux (pattern i) (values i) 0 (sequential values pattern done text) := by
  rw [sequential, List.foldl_append]
  rfl

/-- At a pattern's turn no characters spell it, with the values of the earlier ones filled in. -/
def Unspelled (values : ι → List Char) (pattern : ι → List Char) (order : List ι)
    (text : List Char) : Prop :=
  ∀ done i rest, order = done ++ i :: rest →
    ¬ Spelled pattern i (fill values done (parse pattern order text))

/-- At its turn a pattern occurs as often as in the text to begin with. -/
def ReplacedOnce (values : ι → List Char) (pattern : ι → List Char) (order : List ι)
    (text : List Char) : Prop :=
  ∀ done i rest, order = done ++ i :: rest →
    occurrences (pattern i) (sequential values pattern done text) = occurrences (pattern i) text

variable {order : List ι} (separate : NonOverlapping pattern) (nodup : order.Nodup) (text : List Char)
include separate nodup

/-- One turn: while the text is that of the filled tokens, the pattern occurs as often as to
begin with exactly when no characters spell it, and then the text stays so. -/
theorem turn {done rest : List ι} {i : ι} (shape : order = done ++ i :: rest)
    (so_far : sequential values pattern done text =
      spell pattern (fill values done (parse pattern order text))) :
    (occurrences (pattern i) (sequential values pattern done text) = occurrences (pattern i) text ↔
      ¬ Spelled pattern i (fill values done (parse pattern order text))) ∧
    (¬ Spelled pattern i (fill values done (parse pattern order text)) →
      sequential values pattern (done ++ [i]) text =
        spell pattern (fill values (done ++ [i]) (parse pattern order text))) := by
  have listed : i ∈ order := by
    rw [shape]
    exact List.mem_append_right _ List.mem_cons_self
  have fresh : i ∉ done := by
    rw [shape, List.nodup_append] at nodup
    exact fun earlier => nodup.2.2 i earlier i List.mem_cons_self rfl
  constructor
  · rw [so_far, occurrences_spell separate, occurrences_parse separate listed,
      slots_fill fresh, Nat.add_eq_left, occurrences_eq_zero]
    rfl
  · intro clean
    rw [sequential_snoc, so_far, replace_spell separate (values i) clean, fill_snoc fresh]

/-- While every pattern is replaced once, the text is that of the filled tokens. -/
theorem filled_of_turns {done : List ι}
    (turns : ∀ before i rest, done = before ++ i :: rest →
      occurrences (pattern i) (sequential values pattern before text) = occurrences (pattern i) text ∨
      ¬ Spelled pattern i (fill values before (parse pattern order text)))
    {rest : List ι} (shape : order = done ++ rest) :
    sequential values pattern done text =
      spell pattern (fill values done (parse pattern order text)) := by
  induction done using List.reverseRecOn generalizing rest with
  | nil =>
    rw [fill_nil]
    exact (parse_spell separate order text).1.symm
  | append_singleton done i step =>
    have shape' : order = done ++ i :: rest := by rw [shape, List.append_assoc]; rfl
    have so_far := step (fun before j after split => turns before j (after ++ [i])
      (by rw [split, List.append_assoc]; rfl)) shape'
    have here := turn separate nodup text shape' so_far
    exact here.2 ((turns done i [] rfl).elim here.1.mp id)

/-- Replacing one after another substitutes at once, each pattern replaced as often as it
occurs to begin with, exactly when at no turn characters spell the pattern. -/
theorem sequential_once_iff (all : ∀ i, i ∈ order) :
    sequential values pattern order text = atOnce values pattern order text ∧
        ReplacedOnce values pattern order text ↔
      Unspelled values pattern order text := by
  constructor
  · rintro ⟨-, once⟩ done i rest shape
    have so_far : sequential values pattern done text =
        spell pattern (fill values done (parse pattern order text)) :=
      filled_of_turns separate nodup text (fun before j after split => .inl (once before j
        (after ++ i :: rest) (by rw [shape, split, List.append_assoc]; rfl))) shape
    exact (turn separate nodup text shape so_far).1.mp (once done i rest shape)
  · intro clean
    have so_far : ∀ done rest, order = done ++ rest → sequential values pattern done text =
        spell pattern (fill values done (parse pattern order text)) := by
      intro done rest shape
      exact filled_of_turns separate nodup text (fun before j after split =>
        .inr (clean before j (after ++ rest) (by rw [shape, split, List.append_assoc]; rfl))) shape
    constructor
    · rw [at_once_eq all, so_far order [] (List.append_nil _).symm]
    · intro done i rest shape
      exact (turn separate nodup text shape (so_far done (i :: rest) shape)).1.mpr
        (clean done i rest shape)

end Order

end Substitution
