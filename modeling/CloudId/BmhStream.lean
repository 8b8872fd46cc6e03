import Mathlib.Data.List.TakeWhile
import CloudId.BmhWatcher
import CloudId.Library.Utf8Lossy

/-! The watch stream of one namespace. Its loop decodes every chunk by itself, so a character
that falls into two chunks is lost, and the line it is in is read otherwise; when no character
of a finished line is cut, the lines are those of the decoded stream, however it is cut. -/
namespace CloudId
open Utf8

/-! ## The loop -/

/-- Takes the complete lines off the buffer and handles those that are not blank. A line
takes at least its newline off, so the length of the buffer is enough fuel. -/
def processLines {σ : Type} (handle : σ → String → σ) : Nat → String × σ → String × σ
  | 0, loop => loop
  | fuel + 1, (buffer, state) =>
    match Text.splitFirst buffer '\n' with
    | none => (buffer, state)
    | some (before, after) =>
      let line := Text.trim before
      processLines handle fuel (after, if line = "" then state else handle state line)

/-- One turn of the chunk loop: the chunk joins the buffer. -/
def watchChunk {σ : Type} (handle : σ → String → σ) (loop : String × σ) (chunk : List UInt8) :
    String × σ :=
  let buffer := loop.1 ++ String.ofList (lossy chunk)
  processLines handle buffer.length (buffer, loop.2)

/-- The chunk loop of `watch_namespace`, with what is done with a line. -/
def watchChunks {σ : Type} (handle : σ → String → σ) (state : σ) (chunks : List (List UInt8)) : σ :=
  (chunks.foldl (watchChunk handle) ("", state)).2

/-- The lines that the loop extracts. -/
def extractedLines (chunks : List (List UInt8)) : List String :=
  watchChunks (fun lines line => lines ++ [line]) [] chunks

section Events

variable [Deserialize WatchEvent]

/-- The events that the loop passes on. -/
def passedEvents (chunks : List (List UInt8)) : List WatchEvent :=
  watchChunks (fun events line =>
    match Deserialize.fromStr line with
    | some event => events ++ [event]
    | none => events) [] chunks

/-- `watch_namespace`: a line that is no event is skipped. -/
def watchNamespace [Serialize CloudConfig] (state : AppState) (chunks : List (List UInt8)) : AppState :=
  watchChunks (fun state line =>
    match Deserialize.fromStr line with
    | some event => handleWatchEvent state event
    | none => state) state chunks

end Events

/-! ## Lines -/

/-- The lines of a text that a newline ends, trimmed and without blank ones. -/
def decodedLines (text : List Char) : List String :=
  ((text.splitOn '\n').dropLast.map fun line => Text.trim (String.ofList line)).filter (· ≠ "")

/-- What stands after the last newline. -/
def lastLine (text : List Char) : List Char := (text.splitOn '\n').getLastD []

@[elab_as_elim]
theorem line_induction {motive : List Char → Prop} (unfinished : ∀ text, '\n' ∉ text → motive text)
    (finished : ∀ line rest, '\n' ∉ line → motive rest → motive (line ++ '\n' :: rest))
    (text : List Char) : motive text := by
  by_cases there : '\n' ∈ text
  · obtain ⟨line, rest, split, first⟩ := List.eq_append_cons_of_mem there
    rw [split]
    have shorter : rest.length < text.length := by
      rw [split, List.length_append, List.length_cons]
      omega
    exact finished line rest first (line_induction unfinished finished rest)
  · exact unfinished text there
termination_by text.length

theorem decoded_unfinished {text : List Char} (no_newline : '\n' ∉ text) : decodedLines text = [] := by
  rw [decodedLines, List.splitOn_eq_singleton no_newline]
  rfl

theorem last_unfinished {text : List Char} (no_newline : '\n' ∉ text) : lastLine text = text := by
  rw [lastLine, List.splitOn_eq_singleton no_newline]
  rfl

/-- The text of a line, unless it is blank. -/
def lineText (line : List Char) : List String :=
  if Text.trim (String.ofList line) = "" then [] else [Text.trim (String.ofList line)]

theorem decoded_finished {line : List Char} (no_newline : '\n' ∉ line) (rest : List Char) :
    decodedLines (line ++ '\n' :: rest) = lineText line ++ decodedLines rest := by
  rw [decodedLines, List.splitOn_append_cons_self, List.splitOn_eq_singleton no_newline,
    List.singleton_append, List.dropLast_cons_of_ne_nil (List.splitOn_ne_nil _ _), List.map_cons,
    List.filter_cons, lineText]
  by_cases blank : Text.trim (String.ofList line) = ""
  · rw [if_pos blank, if_neg (by simpa using blank)]
    rfl
  · rw [if_neg blank, if_pos (by simpa using blank)]
    rfl

theorem last_finished {line : List Char} (no_newline : '\n' ∉ line) (rest : List Char) :
    lastLine (line ++ '\n' :: rest) = lastLine rest := by
  rw [lastLine, List.splitOn_append_cons_self, List.splitOn_eq_singleton no_newline,
    List.singleton_append, List.getLastD_cons]
  cases split : rest.splitOn '\n' with
  | nil => exact absurd split (List.splitOn_ne_nil _ _)
  | cons piece pieces =>
    rw [lastLine, split, List.getLastD_cons, List.getLastD_cons]

theorem decoded_append (first second : List Char) :
    decodedLines (first ++ second) = decodedLines first ++ decodedLines (lastLine first ++ second) := by
  induction first using line_induction with
  | unfinished text no_newline => rw [decoded_unfinished no_newline, last_unfinished no_newline]; rfl
  | finished line rest no_newline step =>
    rw [List.append_assoc, List.cons_append, decoded_finished no_newline, decoded_finished no_newline,
      last_finished no_newline, step, List.append_assoc]

theorem last_append (first second : List Char) :
    lastLine (first ++ second) = lastLine (lastLine first ++ second) := by
  induction first using line_induction with
  | unfinished text no_newline => rw [last_unfinished no_newline]
  | finished line rest no_newline step =>
    rw [List.append_assoc, List.cons_append, last_finished no_newline, last_finished no_newline, step]

theorem last_no_newline (text : List Char) : '\n' ∉ lastLine text := by
  induction text using line_induction with
  | unfinished text no_newline => rwa [last_unfinished no_newline]
  | finished line rest no_newline step => rwa [last_finished no_newline]

/-! ## The loop extracts the lines of what it has decoded -/

theorem process_lines_eq {σ : Type} (handle : σ → String → σ) (text : List Char) :
    ∀ (fuel : Nat) (state : σ), text.length ≤ fuel →
      processLines handle fuel (String.ofList text, state) =
        (String.ofList (lastLine text), (decodedLines text).foldl handle state) := by
  induction text using line_induction with
  | unfinished text no_newline =>
    intro fuel state enough
    rw [decoded_unfinished no_newline, last_unfinished no_newline, List.foldl_nil]
    cases fuel with
    | zero => rfl
    | succ fuel => rw [processLines, Text.split_first_none no_newline]
  | finished line rest no_newline step =>
    intro fuel state enough
    rw [List.length_append, List.length_cons] at enough
    cases fuel with
    | zero => omega
    | succ fuel =>
      rw [processLines, Text.split_first_append no_newline]
      dsimp only
      rw [step fuel _ (by omega), decoded_finished no_newline, last_finished no_newline,
        List.foldl_append, lineText]
      split
      · rfl
      · rfl

theorem watch_chunks_from {σ : Type} (handle : σ → String → σ) (chunks : List (List UInt8)) :
    ∀ (buffer : List Char) (state : σ), '\n' ∉ buffer →
      chunks.foldl (watchChunk handle) (String.ofList buffer, state) =
        (String.ofList (lastLine (buffer ++ chunks.flatMap lossy)),
          (decodedLines (buffer ++ chunks.flatMap lossy)).foldl handle state) := by
  induction chunks with
  | nil =>
    intro buffer state no_newline
    rw [List.flatMap_nil, List.append_nil, decoded_unfinished no_newline, last_unfinished no_newline]
    rfl
  | cons chunk chunks step =>
    intro buffer state no_newline
    have length : (String.ofList buffer ++ String.ofList (lossy chunk)).length =
        (buffer ++ lossy chunk).length := by
      rw [← String.ofList_append, String.length_ofList]
    have processed := process_lines_eq handle (buffer ++ lossy chunk)
      (String.ofList buffer ++ String.ofList (lossy chunk)).length state length.ge
    rw [String.ofList_append] at processed
    rw [List.foldl_cons, watchChunk, processed, step _ _ (last_no_newline _), List.flatMap_cons,
      ← List.append_assoc, decoded_append (buffer ++ lossy chunk), last_append (buffer ++ lossy chunk),
      List.foldl_append]

/-- **The loop handles the lines of what it has decoded**, each once and in order. -/
theorem watch_chunks_eq {σ : Type} (handle : σ → String → σ) (state : σ) (chunks : List (List UInt8)) :
    watchChunks handle state chunks = (decodedLines (chunks.flatMap lossy)).foldl handle state :=
  congrArg Prod.snd (watch_chunks_from handle chunks [] state List.not_mem_nil)

/-! ## Solid characters -/

/-- The characters of a text that are no whitespace. -/
def solid (text : List Char) : Nat := text.countP fun c => !Text.isWhitespace c

theorem solid_append (first second : List Char) : solid (first ++ second) = solid first + solid second :=
  List.countP_append

theorem solid_drop_while (text : List Char) : solid (text.dropWhile Text.isWhitespace) = solid text := by
  induction text with
  | nil => rfl
  | cons c text step =>
    rw [List.dropWhile_cons]
    split
    · rename_i white
      rw [step, solid, solid, List.countP_cons_of_neg (by simpa using white)]
    · rfl

/-- Trimming leaves the solid characters. -/
theorem solid_trim (line : List Char) : solid (Text.trim (String.ofList line)).toList = solid line := by
  have reversed : ∀ text : List Char, solid text.reverse = solid text := fun text => List.countP_reverse
  rw [Text.trim, String.toList_ofList, String.toList_ofList, reversed, solid_drop_while, reversed,
    solid_drop_while]

/-- The solid characters of all lines. -/
def weight (lines : List String) : Nat := (lines.map fun line => solid line.toList).sum

theorem weight_line (line : List Char) (lines : List String) :
    weight (lineText line ++ lines) = solid line + weight lines := by
  rw [weight, weight, lineText]
  split
  · rename_i blank
    have none_solid : solid line = 0 := by rw [← solid_trim, blank]; rfl
    rw [none_solid, Nat.zero_add]
    rfl
  · rw [List.singleton_append, List.map_cons, List.sum_cons, solid_trim]

theorem weight_unfinished {text : List Char} (no_newline : '\n' ∉ text) : weight (decodedLines text) = 0 := by
  rw [decoded_unfinished no_newline]
  rfl

/-- An empty line is left out. -/
theorem decoded_newline (text : List Char) : decodedLines ('\n' :: text) = decodedLines text :=
  @decoded_finished [] List.not_mem_nil text

theorem weight_cons (c : Char) {text : List Char} (newline : '\n' ∈ text) :
    weight (decodedLines (c :: text)) = solid [c] + weight (decodedLines text) := by
  by_cases same : c = '\n'
  · rw [same, decoded_newline]
    exact (Nat.zero_add _).symm
  · obtain ⟨line, rest, rfl, first⟩ := List.eq_append_cons_of_mem newline
    have first' : '\n' ∉ c :: line := by
      rw [List.mem_cons, not_or]
      exact ⟨Ne.symm same, first⟩
    rw [← List.cons_append, decoded_finished first', weight_line, decoded_finished first, weight_line,
      ← Nat.add_assoc, ← solid_append]
    rfl

theorem weight_cons_unfinished (c : Char) {text : List Char} (no_newline : '\n' ∉ text) :
    weight (decodedLines (c :: text)) = 0 := by
  by_cases same : c = '\n'
  · rw [same, decoded_newline, weight_unfinished no_newline]
  · refine weight_unfinished ?_
    rw [List.mem_cons, not_or]
    exact ⟨Ne.symm same, no_newline⟩

theorem weight_append (front : List Char) {text : List Char} (newline : '\n' ∈ text) :
    weight (decodedLines (front ++ text)) = solid front + weight (decodedLines text) := by
  induction front with
  | nil => exact (Nat.zero_add _).symm
  | cons c front step =>
    rw [List.cons_append, weight_cons c (List.mem_append_right _ newline), step, ← Nat.add_assoc,
      ← solid_append]
    rfl

/-! ## Spoiled texts -/

theorem replacement_solid (n : Nat) : solid (List.replicate n replacement) = n := by
  rw [solid, List.countP_replicate, if_pos (by decide)]

theorem no_newline_in_replacements (n : Nat) : '\n' ∉ List.replicate n replacement := fun listed =>
  absurd (List.eq_of_mem_replicate listed) (by decide)

theorem solid_char (c : Char) : solid [c] ≤ 1 := List.countP_le_length

theorem spoiled_newline {text read : List Char} (spoiled : Spoiled text read) :
    '\n' ∈ read ↔ '\n' ∈ text := by
  induction spoiled with
  | nil => exact Iff.rfl
  | kept c spoiled step => rw [List.mem_cons, List.mem_cons, step]
  | cut c pieces not_ascii several spoiled step =>
    have other : '\n' ≠ c := by
      rintro rfl
      exact absurd not_ascii (by decide)
    rw [List.mem_append, List.mem_cons, step, or_iff_right (no_newline_in_replacements pieces),
      or_iff_right other]

theorem spoiled_solid {text read : List Char} (spoiled : Spoiled text read) : solid text ≤ solid read := by
  induction spoiled with
  | nil => exact le_rfl
  | @kept c text read spoiled step =>
    have split := solid_append [c] text
    have split' := solid_append [c] read
    rw [List.singleton_append] at split split'
    omega
  | @cut c pieces text read not_ascii several spoiled step =>
    have split := solid_append [c] text
    have one := solid_char c
    rw [List.singleton_append] at split
    rw [solid_append, replacement_solid]
    omega

theorem spoiled_weight {text read : List Char} (spoiled : Spoiled text read) :
    weight (decodedLines text) ≤ weight (decodedLines read) := by
  induction spoiled with
  | nil => exact le_rfl
  | @kept c text read spoiled step =>
    by_cases newline : '\n' ∈ text
    · rw [weight_cons c newline, weight_cons c ((spoiled_newline spoiled).mpr newline)]
      omega
    · rw [weight_cons_unfinished c newline]
      exact Nat.zero_le _
  | @cut c pieces text read not_ascii several spoiled step =>
    by_cases newline : '\n' ∈ text
    · have one := solid_char c
      rw [weight_cons c newline, weight_append _ ((spoiled_newline spoiled).mpr newline),
        replacement_solid]
      omega
    · rw [weight_cons_unfinished c newline]
      exact Nat.zero_le _

/-- What follows the last newline makes no line. -/
theorem decoded_unfinished_end (text : List Char) {rest : List Char} (no_newline : '\n' ∉ rest) :
    decodedLines (text ++ rest) = decodedLines text := by
  have none_later : decodedLines (lastLine text ++ rest) = [] := by
    refine decoded_unfinished ?_
    rw [List.mem_append, not_or]
    exact ⟨last_no_newline text, no_newline⟩
  rw [decoded_append, none_later, List.append_nil]

theorem newline_encoded {text : List Char} : 10 ∈ encode text ↔ '\n' ∈ text := by
  rw [encode, List.mem_flatMap]
  constructor
  · rintro ⟨c, listed, there⟩
    by_cases ascii : c.toNat < 128
    · rw [encoded_ascii ascii, List.mem_singleton] at there
      have value := congrArg UInt8.toNat there
      rw [byte_value (by omega)] at value
      have same : c = '\n' := Char.toNat_inj.mp value.symm
      rwa [← same]
    · obtain ⟨lead, rest, ranges, parts⟩ := encoded_parts (Nat.le_of_not_lt ascii)
      rw [parts.encoded] at there
      rcases List.mem_cons.mp there with here | later
      · have above := parts.above
        rw [← here] at above
        exact absurd above (by decide)
      · have continues := parts.continuation 10 later
        exact absurd continues.1 (by decide)
  · intro listed
    exact ⟨'\n', listed, by decide⟩

theorem newline_not_continuation {bytes : List UInt8} (continues : ∀ byte ∈ bytes, IsContinuation byte) :
    10 ∉ bytes := fun listed => absurd (continues 10 listed).1 (by decide)

/-! ## Cuttings -/

/-- A cutting keeps the characters of the finished lines whole: as long as a newline is still
to come, every chunk ends between two characters. -/
def KeepsCharacters (chunks : List (List UInt8)) : Prop :=
  ∀ before after, chunks = before ++ after → 10 ∈ after.flatten →
    ∃ text, before.flatten = encode text

/-- A cutting that keeps the characters is read as the text is, up to the last newline. -/
theorem keeping_read {chunks : List (List UInt8)} : ∀ {text : List Char},
    chunks.flatten = encode text → KeepsCharacters chunks → ∃ finished rest rest',
      text = finished ++ rest ∧ chunks.flatMap lossy = finished ++ rest' ∧ '\n' ∉ rest ∧ '\n' ∉ rest' := by
  induction chunks with
  | nil =>
    intro text whole keeps
    refine ⟨[], text, [], rfl, rfl, ?_, List.not_mem_nil⟩
    rw [← newline_encoded, ← whole]
    exact List.not_mem_nil
  | cons chunk chunks step =>
    intro text whole keeps
    rw [List.flatten_cons] at whole
    by_cases newline : 10 ∈ chunks.flatten
    · obtain ⟨first, chunk_is⟩ := keeps [chunk] chunks rfl newline
      rw [List.flatten_singleton] at chunk_is
      subst chunk_is
      obtain ⟨later, rfl, whole'⟩ := encode_rest whole
      have keeps' : KeepsCharacters chunks := by
        intro before after split newline
        obtain ⟨text, encoded⟩ := keeps (encode first :: before) after (by rw [split]; rfl) newline
        rw [List.flatten_cons] at encoded
        obtain ⟨rest, -, before_is⟩ := encode_rest encoded
        exact ⟨rest, before_is⟩
      obtain ⟨finished, rest, rest', rfl, decoded, no_newline, no_newline'⟩ := step whole' keeps'
      refine ⟨first ++ finished, rest, rest', (List.append_assoc _ _ _).symm, ?_, no_newline, no_newline'⟩
      rw [List.flatMap_cons, lossy_encode, decoded, List.append_assoc]
    · rcases encode_split whole with ⟨first, later, rfl, rfl, others⟩ |
        ⟨first, c, later, front, back, rfl, rfl, others, cut, some_front, some_back⟩
      · have no_newline : '\n' ∉ later := by
          rw [← newline_encoded, ← others]
          exact newline
        obtain ⟨read, lost, reads⟩ := @lossy_pieces chunks [] later [] nofun incomplete_nil
          (others.trans (List.append_nil _).symm)
        refine ⟨first, later, read ++ List.replicate lost replacement, rfl, ?_, no_newline, ?_⟩
        · rw [List.flatMap_cons, lossy_encode, reads.decoded]
          rfl
        · rw [List.mem_append, not_or, spoiled_newline reads.spoiled]
          exact ⟨no_newline, no_newline_in_replacements lost⟩
      · have no_newline : '\n' ∉ later := by
          rw [← newline_encoded]
          rw [others, List.mem_append, not_or] at newline
          exact newline.2
        have other : '\n' ≠ c := by
          rintro rfl
          exact absurd (not_ascii_of_cut cut some_front some_back) (by decide)
        obtain ⟨read, lost, reads⟩ := @lossy_pieces chunks back later []
          (continuation_of_cut cut some_front) incomplete_nil
          (others.trans (by rw [List.append_nil]))
        refine ⟨first, c :: later, replacement :: (List.replicate back.length replacement ++
          (read ++ List.replicate lost replacement)), rfl, ?_, ?_, ?_⟩
        · rw [List.flatMap_cons, lossy_encode_append, lossy_front cut some_front some_back,
            reads.decoded, List.append_assoc]
          rfl
        · rw [List.mem_cons, not_or]
          exact ⟨other, no_newline⟩
        · simp only [List.mem_cons, List.mem_append, not_or, spoiled_newline reads.spoiled]
          exact ⟨by decide, no_newline_in_replacements _, no_newline, no_newline_in_replacements _⟩

/-- A cutting that cuts a character of a finished line is read with more solid characters. -/
theorem cutting_heavier {before after : List (List UInt8)} {text : List Char}
    (whole : (before ++ after).flatten = encode text) (newline : 10 ∈ after.flatten)
    (cut_here : ¬ ∃ first, before.flatten = encode first) :
    weight (decodedLines text) < weight (decodedLines ((before ++ after).flatMap lossy)) := by
  rw [List.flatten_append] at whole
  rcases encode_split whole with ⟨first, later, -, before_is, -⟩ |
    ⟨first, c, later, front, back, rfl, before_is, after_is, cut, some_front, some_back⟩
  · exact absurd ⟨first, before_is⟩ cut_here
  have continues := continuation_of_cut cut some_front
  obtain ⟨read, lost, reads⟩ := @lossy_pieces before [] first front nofun
    ⟨c, back, cut, some_back⟩ before_is
  obtain ⟨read', lost', reads'⟩ := @lossy_pieces after back later [] continues incomplete_nil
    (after_is.trans (by rw [List.append_nil]))
  have newline_later : '\n' ∈ later := by
    rw [after_is, List.mem_append] at newline
    exact newline_encoded.mp (newline.resolve_left (newline_not_continuation continues))
  have newline_read := (spoiled_newline reads'.spoiled).mpr newline_later
  have decoded : (before ++ after).flatMap lossy = (read ++ (List.replicate lost replacement ++
      List.replicate back.length replacement)) ++ read' ++ List.replicate lost' replacement := by
    rw [List.flatMap_append, reads.decoded, reads'.decoded]
    simp only [List.append_assoc]
    rfl
  have some_lost := reads.lost_front some_front
  have some_more := List.length_pos_iff.mpr some_back
  have one := solid_char c
  have lighter := spoiled_solid reads.spoiled
  have lighter' := spoiled_weight reads'.spoiled
  rw [decoded, decoded_unfinished_end _ (no_newline_in_replacements lost'),
    weight_append _ newline_read, solid_append, solid_append, replacement_solid, replacement_solid,
    weight_append first (List.mem_cons_of_mem _ newline_later), weight_cons c newline_later]
  omega

theorem extracted_lines_eq (chunks : List (List UInt8)) :
    extractedLines chunks = decodedLines (chunks.flatMap lossy) := by
  have collected : ∀ lines done : List String,
      lines.foldl (fun lines line => lines ++ [line]) done = done ++ lines := by
    intro lines
    induction lines with
    | nil => exact fun done => (List.append_nil done).symm
    | cons line lines step =>
      intro done
      rw [List.foldl_cons, step, List.append_assoc, List.singleton_append]
  rw [extractedLines, watch_chunks_eq, collected, List.nil_append]

/-- **The loop extracts the lines of a text exactly when no character of a finished line is
cut.** -/
theorem extracted_lines_iff {chunks : List (List UInt8)} {text : List Char}
    (whole : chunks.flatten = encode text) :
    extractedLines chunks = decodedLines text ↔ KeepsCharacters chunks := by
  rw [extracted_lines_eq]
  constructor
  · intro same before after split newline
    by_contra cut_here
    subst split
    have heavier := cutting_heavier whole newline cut_here
    rw [same] at heavier
    exact absurd heavier (lt_irrefl _)
  · intro keeps
    obtain ⟨finished, rest, rest', rfl, decoded, no_newline, no_newline'⟩ := keeping_read whole keeps
    rw [decoded, decoded_unfinished_end _ no_newline', decoded_unfinished_end _ no_newline]

section Events

variable [Deserialize WatchEvent]

/-- The watch applies the events that it passes on. -/
theorem watch_namespace_eq [Serialize CloudConfig] (state : AppState) (chunks : List (List UInt8)) :
    watchNamespace state chunks = (passedEvents chunks).foldl handleWatchEvent state := by
  have passed : ∀ (lines : List String) (done : List WatchEvent),
      (lines.foldl (fun events line =>
        match Deserialize.fromStr line with
        | some event => events ++ [event]
        | none => events) done).foldl handleWatchEvent state =
      lines.foldl (fun state line =>
        match Deserialize.fromStr line with
        | some event => handleWatchEvent state event
        | none => state) (done.foldl handleWatchEvent state) := by
    intro lines
    induction lines with
    | nil => exact fun done => rfl
    | cons line lines step =>
      intro done
      rw [List.foldl_cons, List.foldl_cons, step]
      split
      · rw [List.foldl_append]
        rfl
      · rfl
  rw [watchNamespace, passedEvents, watch_chunks_eq, watch_chunks_eq, passed]
  rfl

/-- Two cuttings of one text are read alike: the same lines and the same events, and the lines
are those of the text. -/
structure ReadAlike (text : List Char) (first second : List (List UInt8)) : Prop where
  lines : extractedLines first = extractedLines second
  events : passedEvents first = passedEvents second
  complete : extractedLines first = decodedLines text

/-- **A watch stream is read independently of how it is cut exactly when no character of a
finished line is.** -/
theorem watch_read_alike_iff {text : List Char} {first second : List (List UInt8)}
    (whole : first.flatten = encode text) (whole' : second.flatten = encode text) :
    ReadAlike text first second ↔ KeepsCharacters first ∧ KeepsCharacters second := by
  rw [← extracted_lines_iff whole, ← extracted_lines_iff whole']
  constructor
  · intro alike
    exact ⟨alike.complete, alike.lines.symm.trans alike.complete⟩
  · rintro ⟨complete, complete'⟩
    refine ⟨complete.trans complete'.symm, ?_, complete⟩
    rw [extracted_lines_eq] at complete complete'
    rw [passedEvents, passedEvents, watch_chunks_eq, watch_chunks_eq, complete, complete']

end Events

theorem watch_read_alike_between_characters :
    @ReadAlike ⟨fun _ => none⟩ ['é', '\n'] [[0xC3, 0xA9, 0x0A]] [[0xC3, 0xA9], [0x0A]] ↔
      KeepsCharacters [[0xC3, 0xA9, 0x0A]] ∧ KeepsCharacters [[0xC3, 0xA9], [0x0A]] :=
  @watch_read_alike_iff ⟨fun _ => none⟩ _ _ _ (by decide) (by decide)

/-- A character that is cut in two is lost. -/
theorem watch_cut_in_two : ¬ ∀ (text : List Char) (first second : List (List UInt8)),
    first.flatten = encode text → second.flatten = encode text →
      extractedLines first = extractedLines second := by
  intro always
  have same := always ['é', '\n'] [[0xC3, 0xA9, 0x0A]] [[0xC3], [0xA9, 0x0A]] (by decide) (by decide)
  revert same
  decide +kernel

end CloudId
