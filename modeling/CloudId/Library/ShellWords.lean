import Mathlib.Data.List.Chain
import Mathlib.Data.List.Count

/-! Shell-style words of a line. Blanks separate words; single quotes keep everything between
them, and double quotes everything but a backslash before a double quote or a backslash, which
it makes literal. A reader keeps or drops each character of the line. -/
namespace ShellWords

/-- Where a reader stands; a backslash may be pending. -/
inductive Mode where
  | plain
  | single
  | double
  | escaped
  | doubleEscaped
  deriving DecidableEq

/-- A reader: its complete words, the word it is in, and what it dropped. -/
structure Reader where
  mode : Mode
  words : List (List Char)
  word : Option (List Char)
  dropped : List Char
  deriving DecidableEq

def isBlank (c : Char) : Bool := c == ' ' || c == '\t' || c == '\r' || c == '\n'

def isQuoting (c : Char) : Bool := c == '"' || c == '\x27' || c == '\\'

/-- Characters that become part of the word. -/
def Reader.keep (reader : Reader) (kept : List Char) (mode : Mode) : Reader :=
  { reader with mode, word := some (reader.word.getD [] ++ kept) }

/-- A quote or a backslash that is none of the word, but begins it. -/
def Reader.drop (reader : Reader) (c : Char) (mode : Mode) : Reader :=
  { reader with mode, word := some (reader.word.getD []), dropped := reader.dropped ++ [c] }

/-- A blank that ends the word. -/
def Reader.separate (reader : Reader) (c : Char) : Reader :=
  { reader with
    words := reader.words ++ reader.word.toList
    word := none
    dropped := reader.dropped ++ [c] }

/-- One character of the line. -/
def feed (reader : Reader) (c : Char) : Reader :=
  match reader.mode with
  | .plain =>
    if isBlank c then reader.separate c
    else if c = '"' then reader.drop c .double
    else if c = '\x27' then reader.drop c .single
    else if c = '\\' then reader.drop c .escaped
    else reader.keep [c] .plain
  | .single => if c = '\x27' then reader.drop c .plain else reader.keep [c] .single
  | .double =>
    if c = '"' then reader.drop c .plain
    else if c = '\\' then { reader with mode := .doubleEscaped }
    else reader.keep [c] .double
  | .escaped => reader.keep [c] .plain
  | .doubleEscaped =>
    if c = '"' ∨ c = '\\' then (reader.drop '\\' .double).keep [c] .double
    else reader.keep ['\\', c] .double

/-- A reader at the beginning of a line. -/
def start : Reader := { mode := .plain, words := [], word := none, dropped := [] }

/-- The reader at the end of a line. -/
def read (line : List Char) : Reader := line.foldl feed start

/-- The words of a line, unless it ends inside quotes. -/
def words (line : List Char) : Option (List (List Char)) :=
  if (read line).mode = .plain then some ((read line).words ++ (read line).word.toList) else none

/-! ## What a reader holds -/

/-- What a reader has kept or dropped. -/
def Reader.contents (reader : Reader) : List Char :=
  reader.words.flatten ++ reader.word.getD [] ++ reader.dropped

/-- What a reader still holds back. -/
def Mode.pending : Mode → List Char
  | .doubleEscaped => ['\\']
  | _ => []

theorem keep_contents (reader : Reader) (kept : List Char) (mode : Mode) (x : Char) :
    (reader.keep kept mode).contents.count x = reader.contents.count x + kept.count x := by
  simp only [Reader.contents, Reader.keep, Option.getD_some, List.count_append]
  omega

theorem drop_contents (reader : Reader) (c : Char) (mode : Mode) (x : Char) :
    (reader.drop c mode).contents.count x = reader.contents.count x + [c].count x := by
  simp only [Reader.contents, Reader.drop, Option.getD_some, List.count_append]
  omega

theorem Reader.flatten_words (reader : Reader) :
    (reader.words ++ reader.word.toList).flatten = reader.words.flatten ++ reader.word.getD [] := by
  cases reader.word <;> simp

theorem separate_contents (reader : Reader) (c x : Char) :
    (reader.separate c).contents.count x = reader.contents.count x + [c].count x := by
  simp only [Reader.contents, Reader.separate, Reader.flatten_words, Option.getD_none,
    List.append_nil, List.count_append]
  omega

theorem feed_contents (reader : Reader) (c x : Char) :
    (feed reader c).contents.count x + (feed reader c).mode.pending.count x =
      reader.contents.count x + reader.mode.pending.count x + [c].count x := by
  rw [feed]
  cases mode : reader.mode with
  | plain =>
    dsimp only
    split_ifs
    · rw [separate_contents, Reader.separate, mode]
      rfl
    · exact drop_contents reader c .double x
    · exact drop_contents reader c .single x
    · exact drop_contents reader c .escaped x
    · exact keep_contents reader [c] .plain x
  | single =>
    dsimp only
    split_ifs
    · exact drop_contents reader c .plain x
    · exact keep_contents reader [c] .single x
  | double =>
    dsimp only
    split_ifs with quote escape
    · exact drop_contents reader c .plain x
    · rw [escape]
      rfl
    · exact keep_contents reader [c] .double x
  | escaped => exact keep_contents reader [c] .plain x
  | doubleEscaped =>
    dsimp only
    split_ifs
    · rw [keep_contents, drop_contents]
      rfl
    · have both : ['\\', c].count x = ['\\'].count x + [c].count x := by
        rw [← List.count_append]
        rfl
      rw [keep_contents, both, ← Nat.add_assoc]
      rfl

/-- A reader loses no character and makes none up. -/
theorem run_contents (line : List Char) (reader : Reader) (x : Char) :
    (line.foldl feed reader).contents.count x + (line.foldl feed reader).mode.pending.count x =
      reader.contents.count x + reader.mode.pending.count x + line.count x := by
  induction line generalizing reader with
  | nil => rfl
  | cons c line step =>
    have both : (c :: line).count x = [c].count x + line.count x := by
      rw [← List.count_append]
      rfl
    rw [List.foldl_cons, step, feed_contents, both, Nat.add_assoc]

/-- A line that is read has its words and what the reader dropped. -/
theorem words_count {line : List Char} {parts : List (List Char)} (reads : words line = some parts)
    (x : Char) : line.count x = parts.flatten.count x + (read line).dropped.count x := by
  rw [words] at reads
  split at reads
  · rename_i plain
    have whole := run_contents line start x
    rw [← read, plain] at whole
    rw [← Option.some.inj reads, Reader.flatten_words, ← List.count_append]
    exact (whole.trans (Nat.zero_add _)).symm
  · cases reads

theorem feed_dropped (reader : Reader) (c : Char) : reader.dropped <+: (feed reader c).dropped := by
  obtain ⟨mode, words, word, dropped⟩ := reader
  cases mode with
  | escaped => exact List.prefix_rfl
  | plain | single | double | doubleEscaped =>
    simp only [feed]
    split_ifs <;> simp [Reader.separate, Reader.drop, Reader.keep]

theorem run_dropped (line : List Char) (reader : Reader) :
    reader.dropped <+: (line.foldl feed reader).dropped := by
  induction line generalizing reader with
  | nil => exact List.prefix_rfl
  | cons c line step => exact (feed_dropped reader c).trans (step (feed reader c))

theorem mem_run_dropped {reader : Reader} {c : Char} (dropped : c ∈ reader.dropped)
    (line : List Char) : c ∈ (line.foldl feed reader).dropped :=
  (run_dropped line reader).subset dropped

/-! ## Plain text -/

theorem feed_blank {reader : Reader} (plain : reader.mode = .plain) {c : Char} (blank : isBlank c) :
    feed reader c = reader.separate c := by
  rw [feed, plain]
  exact if_pos blank

theorem feed_plain {reader : Reader} (plain : reader.mode = .plain) {c : Char}
    (other : isBlank c = false) (quoting : isQuoting c = false) :
    feed reader c = reader.keep [c] .plain := by
  simp only [isQuoting, Bool.or_eq_false_iff, beq_eq_false_iff_ne] at quoting
  rw [feed, plain]
  dsimp only
  rw [other, if_neg Bool.false_ne_true, if_neg quoting.1.1, if_neg quoting.1.2, if_neg quoting.2]

/-- A quote or a backslash in plain text is dropped. -/
theorem feed_quoting {reader : Reader} (plain : reader.mode = .plain) {c : Char}
    (quoting : isQuoting c) : c ∈ (feed reader c).dropped := by
  have dropped : c ∈ reader.dropped ++ [c] := List.mem_append_right _ List.mem_cons_self
  simp only [isQuoting, Bool.or_eq_true, beq_iff_eq] at quoting
  rw [feed, plain]
  dsimp only
  split_ifs with blank double single escape
  · exact dropped
  · exact dropped
  · exact dropped
  · exact dropped
  · exact absurd quoting (by simp only [double, single, escape, or_self, not_false_eq_true])

/-- From plain text on, the first quote or backslash is dropped. -/
theorem quoting_dropped {line : List Char} {reader : Reader} (plain : reader.mode = .plain)
    {c : Char} (listed : c ∈ line) (quoting : isQuoting c) :
    ∃ d ∈ line, isQuoting d ∧ d ∈ (line.foldl feed reader).dropped := by
  induction line generalizing reader with
  | nil => cases listed
  | cons d line step =>
    by_cases first : isQuoting d
    · exact ⟨d, List.mem_cons_self, first, mem_run_dropped (feed_quoting plain first) line⟩
    · have later : c ∈ line := by
        rcases List.mem_cons.mp listed with rfl | later
        · exact absurd quoting first
        · exact later
      have still : (feed reader d).mode = .plain := by
        by_cases blank : isBlank d
        · rw [feed_blank plain blank]
          exact plain
        · rw [feed_plain plain (Bool.eq_false_iff.mpr blank) (Bool.eq_false_iff.mpr first)]
          rfl
      obtain ⟨e, there, quotes, dropped⟩ := step still later
      exact ⟨e, List.mem_cons_of_mem _ there, quotes, dropped⟩

/-- Text without quotes and backslashes loses its blanks. -/
theorem run_unquoted {line : List Char} (unquoted : ∀ c ∈ line, isQuoting c = false)
    (reader : Reader) (plain : reader.mode = .plain) :
    (line.foldl feed reader).mode = .plain ∧
      (line.foldl feed reader).dropped = reader.dropped ++ line.filter isBlank := by
  induction line generalizing reader with
  | nil => exact ⟨plain, (List.append_nil _).symm⟩
  | cons c line step =>
    have rest := step fun d listed => unquoted d (List.mem_cons_of_mem _ listed)
    rw [List.foldl_cons, List.filter_cons]
    by_cases blank : isBlank c
    · rw [feed_blank plain blank, if_pos blank, List.append_cons]
      exact rest _ plain
    · rw [feed_plain plain (Bool.eq_false_iff.mpr blank) (unquoted c List.mem_cons_self),
        if_neg blank]
      exact rest _ rfl

/-- Text without blanks, quotes and backslashes is part of a word. -/
def Solid (text : List Char) : Prop := ∀ c ∈ text, isBlank c = false ∧ isQuoting c = false

instance (text : List Char) : Decidable (Solid text) := List.decidableBAll _ text

theorem run_solid {text : List Char} (solid : Solid text) (words : List (List Char))
    (word dropped : List Char) :
    text.foldl feed ⟨.plain, words, some word, dropped⟩ =
      ⟨.plain, words, some (word ++ text), dropped⟩ := by
  induction text generalizing word with
  | nil => rw [List.append_nil, List.foldl_nil]
  | cons c text step =>
    obtain ⟨other, quoting⟩ := solid c List.mem_cons_self
    rw [List.foldl_cons, feed_plain rfl other quoting, Reader.keep, Option.getD_some,
      step fun d listed => solid d (List.mem_cons_of_mem _ listed), List.append_assoc,
      List.singleton_append]

/-! ## Double quotes -/

/-- A backslash is followed by no character that it makes literal. -/
def Unescaping (c d : Char) : Prop := c = '\\' → d ≠ '"' ∧ d ≠ '\\'

instance (c d : Char) : Decidable (Unescaping c d) := inferInstanceAs (Decidable (_ → _))

/-- Text that double quotes keep as it is. -/
structure Quotable (text : List Char) : Prop where
  unquoted : '"' ∉ text
  unescaping : (text ++ ['"']).IsChain Unescaping

theorem feed_double {reader : Reader} (double : reader.mode = .double) {c : Char}
    (unquoted : c ≠ '"') (other : c ≠ '\\') : feed reader c = reader.keep [c] .double := by
  rw [feed, double]
  dsimp only
  rw [if_neg unquoted, if_neg other]

theorem feed_escape {reader : Reader} (double : reader.mode = .double) :
    feed reader '\\' = { reader with mode := .doubleEscaped } := by
  rw [feed, double]
  rfl

theorem feed_unescaped {reader : Reader} (pending : reader.mode = .doubleEscaped) {c : Char}
    (unquoted : c ≠ '"') (other : c ≠ '\\') :
    feed reader c = reader.keep ['\\', c] .double := by
  rw [feed, pending]
  exact if_neg (not_or.mpr ⟨unquoted, other⟩)

/-- A pending backslash that makes a character literal is dropped. -/
theorem feed_escaped {reader : Reader} (pending : reader.mode = .doubleEscaped) {c : Char}
    (escapes : c = '"' ∨ c = '\\') : '\\' ∈ (feed reader c).dropped := by
  rw [feed, pending]
  dsimp only
  rw [if_pos escapes]
  exact List.mem_append_right _ List.mem_cons_self

/-- Quotable text is read as it is up to the closing quote, also after a backslash. -/
theorem run_quotable (text : List Char) (unquoted : '"' ∉ text) (words : List (List Char))
    (word dropped : List Char) :
    ((text ++ ['"']).IsChain Unescaping →
      (text ++ ['"']).foldl feed ⟨.double, words, some word, dropped⟩ =
        ⟨.plain, words, some (word ++ text), dropped ++ ['"']⟩) ∧
    (('\\' :: text ++ ['"']).IsChain Unescaping →
      (text ++ ['"']).foldl feed ⟨.doubleEscaped, words, some word, dropped⟩ =
        ⟨.plain, words, some (word ++ '\\' :: text), dropped ++ ['"']⟩) := by
  induction text generalizing word with
  | nil =>
    refine ⟨fun _ => ?_, fun chain => ?_⟩
    · rw [List.append_nil]
      rfl
    · exact absurd rfl ((List.isChain_cons_cons.mp chain).1 rfl).1
  | cons c text step =>
    have first : c ≠ '"' := fun same => unquoted (same ▸ List.mem_cons_self)
    have rest := step fun listed => unquoted (List.mem_cons_of_mem _ listed)
    refine ⟨fun chain => ?_, fun chain => ?_⟩
    · by_cases escape : c = '\\'
      · rw [escape] at chain ⊢
        exact (rest word).2 chain
      · rw [List.cons_append, List.foldl_cons, feed_double rfl first escape, Reader.keep,
          Option.getD_some]
        exact ((rest (word ++ [c])).1 chain.tail).trans (by rw [List.append_assoc]; rfl)
    · have other : c ≠ '\\' := ((List.isChain_cons_cons.mp chain).1 rfl).2
      rw [List.cons_append, List.foldl_cons, feed_unescaped rfl first other, Reader.keep,
        Option.getD_some]
      exact ((rest (word ++ ['\\', c])).1 chain.tail.tail).trans (by rw [List.append_assoc]; rfl)

/-- Text that loses no backslash up to the closing quote is quotable, also after a backslash. -/
theorem unescaping_of_kept (text : List Char) (unquoted : '"' ∉ text) (reader : Reader)
    (kept : '\\' ∉ ((text ++ ['"']).foldl feed reader).dropped) :
    (reader.mode = .double → (text ++ ['"']).IsChain Unescaping) ∧
    (reader.mode = .doubleEscaped → ('\\' :: text ++ ['"']).IsChain Unescaping) := by
  induction text generalizing reader with
  | nil =>
    refine ⟨fun _ => List.isChain_singleton _, fun pending => ?_⟩
    exact absurd (feed_escaped pending (.inl rfl)) kept
  | cons c text step =>
    have first : c ≠ '"' := fun same => unquoted (same ▸ List.mem_cons_self)
    have rest := step (fun listed => unquoted (List.mem_cons_of_mem _ listed)) (feed reader c) kept
    refine ⟨fun double => ?_, fun pending => ?_⟩
    · by_cases escape : c = '\\'
      · rw [escape] at rest ⊢
        exact rest.2 (by rw [feed_escape double])
      · have chain := rest.1 (by rw [feed_double double first escape]; rfl)
        exact List.isChain_cons.mpr ⟨fun _ _ same => absurd same escape, chain⟩
    · have other : c ≠ '\\' := by
        intro escape
        exact kept (mem_run_dropped (feed_escaped pending (.inr escape)) (text ++ ['"']))
      have chain := rest.1 (by rw [feed_unescaped pending first other]; rfl)
      exact List.isChain_cons_cons.mpr ⟨fun _ => ⟨first, other⟩,
        List.isChain_cons.mpr ⟨fun _ _ same => absurd same other, chain⟩⟩

/-- Outside single quotes and after no plain backslash. -/
def Mode.Doubling (mode : Mode) : Prop :=
  mode = .plain ∨ mode = .double ∨ mode = .doubleEscaped

theorem feed_quotes {reader : Reader} {c : Char} (mode : reader.mode.Doubling)
    (single : '\x27' ∉ (feed reader c).dropped) (escape : '\\' ∉ (feed reader c).dropped) :
    (feed reader c).mode.Doubling ∧
      (feed reader c).dropped.count '"' = reader.dropped.count '"' + [c].count '"' := by
  have last : ∀ d, d ∈ reader.dropped ++ [d] := fun _ => List.mem_append_right _ List.mem_cons_self
  have none : c ≠ '"' → reader.dropped.count '"' = reader.dropped.count '"' + [c].count '"' := by
    intro other
    rw [List.count_singleton, if_neg (fun same => other (eq_of_beq same)), Nat.add_zero]
  rcases mode with plain | double | pending
  · rw [feed, plain] at single escape ⊢
    dsimp only at single escape ⊢
    split_ifs at single escape ⊢ with blank quote apostrophe backslash
    · exact ⟨.inl plain, List.count_append⟩
    · exact ⟨.inr (.inl rfl), List.count_append⟩
    · exact absurd (last _) (apostrophe ▸ single)
    · exact absurd (last _) (backslash ▸ escape)
    · exact ⟨.inl rfl, none quote⟩
  · rw [feed, double]
    dsimp only
    split_ifs with quote backslash
    · exact ⟨.inl rfl, List.count_append⟩
    · exact ⟨.inr (.inr rfl), none quote⟩
    · exact ⟨.inr (.inl rfl), none quote⟩
  · by_cases escapes : c = '"' ∨ c = '\\'
    · exact absurd (feed_escaped pending escapes) escape
    · obtain ⟨quote, other⟩ := not_or.mp escapes
      rw [feed_unescaped pending quote other]
      exact ⟨.inr (.inl rfl), none quote⟩

/-- Unless an apostrophe or a backslash is dropped, every double quote is. -/
theorem quotes_dropped (line : List Char) (reader : Reader) (mode : reader.mode.Doubling)
    (single : '\x27' ∉ (line.foldl feed reader).dropped)
    (escape : '\\' ∉ (line.foldl feed reader).dropped) :
    (line.foldl feed reader).dropped.count '"' = reader.dropped.count '"' + line.count '"' := by
  induction line generalizing reader with
  | nil => rfl
  | cons c line step =>
    obtain ⟨still, one⟩ := feed_quotes mode (fun dropped => single (mem_run_dropped dropped line))
      fun dropped => escape (mem_run_dropped dropped line)
    have both : (c :: line).count '"' = [c].count '"' + line.count '"' := by
      rw [← List.count_append]
      rfl
    rw [List.foldl_cons, step (feed reader c) still single escape, one, both, Nat.add_assoc]

/-! ## Lines -/

/-- An option of a line: blanks before it, and a value attached to it. -/
structure Argument where
  blanks : List Char
  option : List Char
  value : List Char
  separated : blanks ≠ []
  blank : ∀ c ∈ blanks, isBlank c = true
  named : option ≠ []
  solid : Solid option

def Argument.text (argument : Argument) : List Char :=
  argument.blanks ++ argument.option ++ argument.value

def Argument.word (argument : Argument) : List Char := argument.option ++ argument.value

theorem run_blanks {blanks : List Char} (blank : ∀ c ∈ blanks, isBlank c = true)
    (words : List (List Char)) (dropped : List Char) :
    blanks.foldl feed ⟨.plain, words, none, dropped⟩ =
      ⟨.plain, words, none, dropped ++ blanks⟩ := by
  induction blanks generalizing dropped with
  | nil => rw [List.append_nil, List.foldl_nil]
  | cons c blanks step =>
    rw [List.foldl_cons, feed_blank rfl (blank c List.mem_cons_self), Reader.separate,
      Option.toList_none, List.append_nil, step fun d listed => blank d (List.mem_cons_of_mem _ listed),
      List.append_assoc, List.singleton_append]

/-- Solid text after a blank begins a word. -/
theorem run_word {text : List Char} (solid : Solid text) (some_text : text ≠ [])
    (words : List (List Char)) (dropped : List Char) :
    text.foldl feed ⟨.plain, words, none, dropped⟩ = ⟨.plain, words, some text, dropped⟩ := by
  obtain ⟨c, rest, rfl⟩ := List.exists_cons_of_ne_nil some_text
  obtain ⟨other, quoting⟩ := solid c List.mem_cons_self
  rw [List.foldl_cons, feed_plain rfl other quoting]
  exact run_solid (fun d listed => solid d (List.mem_cons_of_mem _ listed)) words [c] dropped

/-- An option with a solid value is read as a word. -/
theorem run_argument (argument : Argument) (words : List (List Char)) (word dropped : List Char) :
    (argument.blanks ++ argument.option).foldl feed ⟨.plain, words, some word, dropped⟩ =
      ⟨.plain, words ++ [word], some argument.option, dropped ++ argument.blanks⟩ := by
  obtain ⟨c, rest, shape⟩ := List.exists_cons_of_ne_nil argument.separated
  have blank := argument.blank
  rw [shape] at blank ⊢
  rw [List.foldl_append, List.foldl_cons, feed_blank rfl (blank c List.mem_cons_self)]
  rw [Reader.separate, run_blanks fun d listed => blank d (List.mem_cons_of_mem _ listed),
    run_word argument.solid argument.named, List.append_assoc, List.singleton_append]
  rfl

theorem run_arguments (arguments : List Argument)
    (solid : ∀ argument ∈ arguments, Solid argument.value) (words : List (List Char))
    (word dropped : List Char) :
    ∃ before last gone,
      (arguments.flatMap Argument.text).foldl feed ⟨.plain, words, some word, dropped⟩ =
        ⟨.plain, before, some last, gone⟩ ∧
      before ++ [last] = words ++ [word] ++ arguments.map Argument.word := by
  induction arguments generalizing words word dropped with
  | nil => exact ⟨words, word, dropped, rfl, (List.append_nil _).symm⟩
  | cons argument arguments step =>
    obtain ⟨before, last, gone, reads, parts⟩ :=
      step (fun other listed => solid other (List.mem_cons_of_mem _ listed)) (words ++ [word])
        argument.word (dropped ++ argument.blanks)
    refine ⟨before, last, gone, ?_, ?_⟩
    · rw [List.flatMap_cons, List.foldl_append, Argument.text, List.foldl_append, run_argument,
        run_solid (solid argument List.mem_cons_self)]
      exact reads
    · rw [parts, List.map_cons, List.append_assoc (words ++ [word]), List.singleton_append]

theorem not_quoting_of_blank {c : Char} (blank : isBlank c) : isQuoting c = false := by
  simp only [isBlank, Bool.or_eq_true, beq_iff_eq] at blank
  rcases blank with ((rfl | rfl) | rfl) | rfl <;> rfl

theorem count_arguments (arguments : List Argument) (x : Char) :
    (arguments.flatMap Argument.text).count x =
      (arguments.map Argument.word).flatten.count x +
        (arguments.flatMap Argument.blanks).count x := by
  induction arguments with
  | nil => rfl
  | cons argument arguments step =>
    rw [List.flatMap_cons, List.map_cons, List.flatten_cons, List.flatMap_cons, List.count_append,
      List.count_append, List.count_append, step, Argument.text, Argument.word, List.count_append,
      List.count_append, List.count_append]
    omega

/-- A line of options is read back exactly when their values are solid. -/
theorem words_arguments_iff {command : List Char} (named : command ≠ []) (solid : Solid command)
    (arguments : List Argument) :
    words (command ++ arguments.flatMap Argument.text) =
      some (command :: arguments.map Argument.word) ↔
    ∀ argument ∈ arguments, Solid argument.value := by
  constructor
  · intro reads argument listed c inside
    have count := words_count reads
    rw [List.flatten_cons] at count
    have gone : ∀ x, (read (command ++ arguments.flatMap Argument.text)).dropped.count x =
        (arguments.flatMap Argument.blanks).count x := by
      intro x
      have balance := count x
      rw [List.count_append, List.count_append, count_arguments] at balance
      omega
    -- only blanks are dropped, so nothing is quoted
    have unquoted : ∀ d ∈ command ++ arguments.flatMap Argument.text, isQuoting d = false := by
      intro d there
      rw [Bool.eq_false_iff]
      intro quoting
      obtain ⟨e, -, quotes, dropped⟩ := quoting_dropped (rfl : start.mode = .plain) there quoting
      have blank := List.count_pos_iff.mp ((List.count_pos_iff.mpr dropped).trans_eq (gone e))
      obtain ⟨other, -, held⟩ := List.mem_flatMap.mp blank
      rw [not_quoting_of_blank (other.blank e held)] at quotes
      cases quotes
    have word : c ∈ argument.text := List.mem_append_right _ inside
    have there : c ∈ command ++ arguments.flatMap Argument.text :=
      List.mem_append_right _ (List.mem_flatMap.mpr ⟨argument, listed, word⟩)
    refine ⟨?_, unquoted c there⟩
    -- and every blank is, so the words have none
    rw [Bool.eq_false_iff]
    intro blank
    have dropped := (run_unquoted unquoted start rfl).2
    rw [← read, start, List.nil_append] at dropped
    have all := List.count_filter (l := command ++ arguments.flatMap Argument.text) blank
    have kept : c ∈ command ++ (arguments.map Argument.word).flatten :=
      List.mem_append_right _ (List.mem_flatten.mpr
        ⟨argument.word, List.mem_map_of_mem listed, List.mem_append_right _ inside⟩)
    have positive := List.count_pos_iff.mpr kept
    have balance := count c
    rw [dropped, all] at balance
    omega
  · intro values
    obtain ⟨before, last, gone, reads, parts⟩ := run_arguments arguments values [] command []
    have whole : read (command ++ arguments.flatMap Argument.text) =
        ⟨.plain, before, some last, gone⟩ := by
      rw [read, List.foldl_append, start, run_word solid named, reads]
    rw [words, whole, if_pos rfl]
    exact congrArg some parts

/-- A quoted word at the end of a line. -/
def enclosed (quoted : List Char) : List Char := ' ' :: '"' :: (quoted ++ ['"'])

/-- The reader after a command and an option's name. -/
def Argument.begun (argument : Argument) (command : List Char) : Reader :=
  ⟨.plain, [command], some argument.option, argument.blanks⟩

theorem read_enclosed {command : List Char} (named : command ≠ []) (solid : Solid command)
    (argument : Argument) (quoted : List Char) :
    read (command ++ argument.text ++ enclosed quoted) =
      (quoted ++ ['"']).foldl feed
        (feed (feed (argument.value.foldl feed (argument.begun command)) ' ') '"') := by
  rw [read, List.foldl_append, List.foldl_append, start, run_word solid named, Argument.text,
    List.foldl_append, run_argument]
  rfl

section Enclosed

variable {command quoted : List Char} {argument : Argument}
  (reads : words (command ++ argument.text ++ enclosed quoted) =
    some [command, argument.word, quoted])
include reads

/-- Of a line with a quoted word that is read back, the blanks and the quotes around the word
are dropped. -/
theorem enclosed_dropped (x : Char) :
    (read (command ++ argument.text ++ enclosed quoted)).dropped.count x =
      argument.blanks.count x + [' ', '"', '"'].count x := by
  have balance := words_count reads x
  have ends : (enclosed quoted).count x = [' ', '"', '"'].count x + quoted.count x := by
    have parts : enclosed quoted = [' ', '"'] ++ quoted ++ ['"'] := rfl
    have fixed : [' ', '"', '"'] = [' ', '"'] ++ ['"'] := rfl
    rw [parts, fixed, List.count_append, List.count_append, List.count_append]
    omega
  have held : [command, argument.word, quoted].flatten =
      command ++ (argument.word ++ (quoted ++ [])) := rfl
  have text : argument.text.count x = argument.blanks.count x + argument.word.count x := by
    rw [Argument.text, Argument.word, List.append_assoc, List.count_append]
  rw [held, List.append_nil] at balance
  simp only [List.count_append, text, ends] at balance
  omega

theorem enclosed_kept {c : Char} (quoting : isQuoting c) (other : c ≠ '"') :
    c ∉ (read (command ++ argument.text ++ enclosed quoted)).dropped := by
  intro dropped
  have positive := (List.count_pos_iff.mpr dropped).trans_eq (enclosed_dropped reads c)
  rw [← List.count_append, List.count_pos_iff] at positive
  rcases List.mem_append.mp positive with blank | fixed
  · rw [not_quoting_of_blank (argument.blank c blank)] at quoting
    cases quoting
  · rcases List.mem_cons.mp fixed with rfl | quote
    · cases quoting
    · exact other (List.eq_of_mem_replicate (n := 2) quote)

/-- The two double quotes are the only ones of the line. -/
theorem enclosed_free : '"' ∉ argument.value ∧ '"' ∉ quoted := by
  have two := quotes_dropped (command ++ argument.text ++ enclosed quoted) start (.inl rfl)
    (enclosed_kept reads rfl (by decide)) (enclosed_kept reads rfl (by decide))
  have around : (enclosed quoted).count '"' = 2 + quoted.count '"' := by
    have parts : enclosed quoted = [' ', '"'] ++ quoted ++ ['"'] := rfl
    have each : [' ', '"'].count '"' = 1 ∧ ['"'].count '"' = 1 := by decide
    rw [parts, List.count_append, List.count_append, each.1, each.2]
    omega
  have blanks : argument.blanks.count '"' = 0 :=
    List.count_eq_zero.mpr fun listed => absurd (argument.blank _ listed) (by decide)
  have fixed : [' ', '"', '"'].count '"' = 2 ∧ start.dropped.count '"' = 0 := by decide
  rw [← read, enclosed_dropped reads, blanks, fixed.1, fixed.2, List.count_append,
    List.count_append, around, Argument.text, List.count_append] at two
  exact ⟨List.count_eq_zero.mp (by omega), List.count_eq_zero.mp (by omega)⟩

end Enclosed

/-- A line with one option and a quoted word is read back exactly when the value is solid and
the word quotable. -/
theorem words_enclosed_iff {command : List Char} (named : command ≠ []) (solid : Solid command)
    (argument : Argument) (quoted : List Char) :
    words (command ++ argument.text ++ enclosed quoted) = some [command, argument.word, quoted] ↔
      Solid argument.value ∧ Quotable quoted := by
  have whole := read_enclosed named solid argument quoted
  constructor
  · intro reads
    have kept := fun {c} => enclosed_kept (c := c) reads
    rw [whole] at kept
    have unquoted : ∀ c ∈ argument.value, isQuoting c = false := by
      intro c there
      rw [Bool.eq_false_iff]
      intro quoting
      obtain ⟨d, inside, quotes, dropped⟩ :=
        quoting_dropped (rfl : (argument.begun command).mode = .plain) there quoting
      refine kept quotes (fun same => (enclosed_free reads).1 (same ▸ inside)) ?_
      exact mem_run_dropped ((feed_dropped _ '"').subset ((feed_dropped _ ' ').subset dropped)) _
    obtain ⟨plain, dropped⟩ := run_unquoted unquoted (argument.begun command) rfl
    rw [feed_blank plain rfl] at whole kept
    refine ⟨fun c there => ⟨?_, unquoted c there⟩, (enclosed_free reads).2, ?_⟩
    · -- a blank of the value would be dropped besides those around it
      rw [Bool.eq_false_iff]
      intro blank
      have earlier := ((feed_dropped
        ((argument.value.foldl feed (argument.begun command)).separate ' ') '"').trans
          (run_dropped (quoted ++ ['"']) _)).count_le c
      rw [← whole, enclosed_dropped reads] at earlier
      have here : ((argument.value.foldl feed (argument.begun command)).separate ' ').dropped =
          argument.blanks ++ argument.value.filter isBlank ++ [' '] :=
        congrArg (· ++ [' ']) dropped
      have fixed : [' ', '"', '"'].count c = [' '].count c + ['"', '"'].count c := by
        rw [← List.count_append]
        rfl
      have quotes : ['"', '"'].count c = 0 := by
        rw [List.count_eq_zero]
        intro listed
        rw [List.eq_of_mem_replicate (n := 2) listed] at blank
        cases blank
      have positive := List.count_pos_iff.mpr there
      rw [here, List.count_append, List.count_append, List.count_filter blank, fixed] at earlier
      omega
    · exact (unescaping_of_kept quoted (enclosed_free reads).2 _ (kept rfl (by decide))).1
        (by rw [feed, Reader.separate, plain]; rfl)
  · rintro ⟨solid, quotable⟩
    have after := (run_quotable quoted quotable.unquoted ([command] ++ [argument.word]) []
      (argument.blanks ++ [' '] ++ ['"'])).1 quotable.unescaping
    have reads : read (command ++ argument.text ++ enclosed quoted) =
        ⟨.plain, [command, argument.word], some quoted, argument.blanks ++ [' '] ++ ['"'] ++ ['"']⟩ := by
      rw [whole, Argument.begun, run_solid solid]
      exact after
    rw [words, reads]
    rfl

end ShellWords
