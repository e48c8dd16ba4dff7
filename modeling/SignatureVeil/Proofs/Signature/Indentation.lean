import Mathlib.Data.List.Forall2
import SignatureVeil.Proofs.Signature.FoldTargets

/-!
# Blanks at the ends of lines

How far a line is indented, and what blanks stand at its end, decides nothing:
it opens and closes a signature as it would without them.  A text in which
only such blanks are changed therefore has signatures on the same lines, and
the same blocks in it may be folded.
-/

namespace SignatureVeil

namespace Signature

/-! ## Words between blanks -/

section Words

variable {lead trail : List Char} (leadBlank : Blanks lead)
  (trailBlank : Blanks trail) (word : List Char)

include trailBlank in
theorem dropWhile_append_blanks :
    (word ++ trail).dropWhile isBlank = word.dropWhile isBlank ++
      if word.dropWhile isBlank = [] then [] else trail := by
  have nothing : trail.dropWhile isBlank = [] :=
    List.dropWhile_eq_nil_iff.mpr trailBlank
  rw [List.dropWhile_append, nothing]
  cases word.dropWhile isBlank <;> simp

include trailBlank in
/-- No opening ends with a blank, so blanks complete none. -/
theorem dropPrefix?_append_blanks {opening : List Char} {last : Char}
    (ends : opening.getLast? = some last) (ink : isBlank last = false) :
    (word ++ trail).dropPrefix? opening =
      (word.dropPrefix? opening).map (· ++ trail) := by
  ext remainder
  simp only [Option.map_eq_some_iff, List.dropPrefix?_eq_some_iff, beq_iff_eq]
  constructor
  · rintro ⟨opening, sameWord, rfl⟩
    rcases List.append_eq_append_iff.mp sameWord with
      ⟨between, rfl, trailEq⟩ | ⟨between, wordEq, rfl⟩
    · cases between with
      | nil => exact ⟨[], ⟨word, by simp, by simp⟩, trailEq⟩
      | cons first between =>
          rw [List.getLast?_append_of_ne_nil _ (by simp)] at ends
          have member := List.mem_of_getLast? ends
          have inTrail : last ∈ trail := by
            rw [trailEq]
            exact List.mem_append_left _ member
          simp [trailBlank last inTrail] at ink
    · exact ⟨between, ⟨opening, wordEq, rfl⟩, rfl⟩
  · rintro ⟨between, ⟨opening, rfl, rfl⟩, rfl⟩
    exact ⟨opening, by simp, rfl⟩

namespace Kind

include leadBlank trailBlank

theorem inline_isCloser_of_blanks :
    Kind.inline.isCloser (lead ++ word ++ trail) =
      Kind.inline.isCloser word := by
  rw [isCloser, isCloser, List.reverse_append,
    List.dropWhile_append_of_pos trailBlank.reverse, List.reverse_append,
    dropWhile_append_blanks leadBlank.reverse]
  cases word.reverse.dropWhile isBlank <;> rfl

theorem inline_opener?_of_blanks :
    Kind.inline.opener? (lead ++ word ++ trail) =
      (Kind.inline.opener? word).map (· ++ trail) := by
  rw [opener?, opener?, List.append_assoc,
    List.dropWhile_append_of_pos leadBlank,
    dropWhile_append_blanks trailBlank]
  cases word.dropWhile isBlank with
  | nil => rfl
  | cons initial rest =>
      rw [if_neg (by simp)]
      exact dropPrefix?_append_blanks trailBlank _ rfl rfl

end Kind

end Words

/-! ## Roles of lines -/

/-- What decides how the automaton reads a line: whether the line opens a
signature, and then whether it closes it as well, and whether it closes one
that is open already. -/
structure Role where
  opener : Option Bool
  closer : Bool
  deriving DecidableEq, Repr

def Kind.role (kind : Kind) (content : List Char) : Role :=
  ⟨(kind.opener? content).map kind.isCloser, kind.isCloser content⟩

theorem Kind.inline_role_of_blanks {lead trail : List Char}
    (leadBlank : Blanks lead) (trailBlank : Blanks trail) (word : List Char) :
    Kind.inline.role (lead ++ word ++ trail) = Kind.inline.role word := by
  have closes : Kind.inline.isCloser ∘ (· ++ trail) = Kind.inline.isCloser := by
    have empty : Blanks [] := nofun
    exact funext (inline_isCloser_of_blanks empty trailBlank)
  rw [role, role, inline_opener?_of_blanks leadBlank trailBlank,
    inline_isCloser_of_blanks leadBlank trailBlank, Option.map_map, closes]

/-- Blanks at the ends of a line do not count. -/
theorem Kind.role_eq_of_trimBlanks (kind : Kind) {content content' : List Char}
    (same : trimBlanks content = trimBlanks content') :
    kind.role content = kind.role content' := by
  cases kind with
  | block => rw [role, role, opener?, opener?, isCloser, isCloser, same]
  | inline =>
      obtain ⟨lead, trail, leadBlank, trailBlank, contentEq⟩ :=
        exists_blanks_around content
      obtain ⟨lead', trail', leadBlank', trailBlank', contentEq'⟩ :=
        exists_blanks_around content'
      rw [contentEq, contentEq', inline_role_of_blanks leadBlank trailBlank,
        inline_role_of_blanks leadBlank' trailBlank', same]

/-! ## What the automaton sees -/

section Outlines

variable {Sight : Type}

/-- A line as the automaton sees it, with what there is to see where it starts
and where its content ends. -/
structure Outline (Sight : Type) where
  role : Role
  start : Sight
  stop : Sight

def Kind.outlines (kind : Kind) (see : Nat → Sight) :
    Nat → List TextLine → List (Outline Sight)
  | _, [] => []
  | offset, line :: lines =>
      ⟨kind.role line.content, see offset,
          see (offset + utf8Width line.content)⟩ ::
        kind.outlines see
          (offset + utf8Width line.content + utf8Width line.ending) lines

/-- What there is to see at both ends of each region, if the automaton is idle
or inside a signature with the given start. -/
def readOutlines : Option Sight → List (Outline Sight) → List (Sight × Sight)
  | _, [] => []
  | none, line :: lines =>
      match line.role.opener with
      | none => readOutlines none lines
      | some true => (line.start, line.stop) :: readOutlines none lines
      | some false => readOutlines (some line.start) lines
  | some start, line :: lines =>
      if line.role.closer then
        (start, line.stop) :: readOutlines none lines
      else
        readOutlines (some start) lines

def Mode.start? : Mode → Option Nat
  | .idle => none
  | .inside start => some start

/-- Outlines are all that the automaton needs. -/
theorem Kind.readLines_map (kind : Kind) (see : Nat → Sight) (mode : Mode)
    (offset : Nat) (lines : List TextLine) :
    (kind.readLines mode offset lines).map
        (fun region => (see region.start, see region.stop)) =
      readOutlines (mode.start?.map see) (kind.outlines see offset lines) := by
  induction lines generalizing mode offset with
  | nil => cases mode <;> rfl
  | cons line lines ih =>
      rw [readLines, List.map_append, ih]
      cases mode with
      | idle =>
          cases opens : kind.opener? line.content with
          | none =>
              simp [readLine, outlines, readOutlines, role, Mode.start?,
                opens]
          | some remainder =>
              cases closes : kind.isCloser remainder <;>
                simp [readLine, outlines, readOutlines, role, Mode.start?,
                  opens, closes]
      | inside start =>
          cases closes : kind.isCloser line.content <;>
            simp [readLine, outlines, readOutlines, role, Mode.start?, closes]

end Outlines

/-! ## Lines of an editor -/

/-- The line of an editor on which an offset lies. -/
def lineAt (text : String) (offset : Nat) : UInt32 :=
  ((LineIndex.ofText text).position offset).line

/-- The lines of an editor on which a region starts and ends. -/
def Region.lineSpan (text : String) (region : Region) : UInt32 × UInt32 :=
  ((region.range text).start.line, (region.range text).stop.line)

/-- Outlines of lines with the given roles and line breaks, below some other
lines. -/
def numberedOutlines : Nat → List (Role × List Char) → List (Outline UInt32)
  | _, [] => []
  | above, (role, ending) :: lines =>
      ⟨role, UInt32.ofNat above, UInt32.ofNat above⟩ ::
        numberedOutlines (above + ending.count '\n') lines

section Text

variable {text : String}

theorem lineAt_of_cut {front back : List Char}
    (cut : text.toList = front ++ back) :
    lineAt text (utf8Width front) = UInt32.ofNat (front.count '\n') := by
  rw [lineAt, LineIndex.position_of_cut cut]
  rfl

theorem Kind.outlines_lineAt (kind : Kind) {front rest : List Char}
    {lines : List TextLine} (consists : Consists rest lines)
    (cut : text.toList = front ++ rest) :
    kind.outlines (lineAt text) (utf8Width front) lines =
      numberedOutlines (front.count '\n')
        (lines.map fun line => (kind.role line.content, line.ending)) := by
  have stop {content behind : List Char} {front : List Char}
      (unbroken : Unbroken content)
      (cut : text.toList = front ++ (content ++ behind)) :
      lineAt text (utf8Width front + utf8Width content) =
        UInt32.ofNat (front.count '\n') := by
    rw [← List.append_assoc] at cut
    rw [← utf8Width_append, lineAt_of_cut cut, List.count_append,
      count_newline_of_unbroken unbroken, Nat.add_zero]
  induction consists generalizing front with
  | @last content unbroken =>
      have cut' : text.toList = front ++ (content ++ []) := by
        rw [cut, List.append_nil]
      simp [outlines, numberedOutlines, lineAt_of_cut cut, stop unbroken cut']
  | @cons content ending rest lines unbroken ends nonempty later ih =>
      have cut' : text.toList = (front ++ (content ++ ending)) ++ rest := by
        simpa using cut
      have below := ih cut'
      simp only [utf8Width_append, List.count_append,
        count_newline_of_unbroken unbroken, Nat.zero_add, ← Nat.add_assoc]
        at below
      simp [outlines, numberedOutlines, lineAt_of_cut cut, stop unbroken cut,
        below]

theorem map_lineSpan_regions (kind : Kind) :
    (regions kind text).map (Region.lineSpan text) =
      readOutlines none (numberedOutlines 0
        ((textLines text.toList).map fun line =>
          (kind.role line.content, line.ending))) := by
  have consists := consists_textLines text.toList
  have whole : text.toList = [] ++ text.toList := rfl
  have read := kind.readLines_map (lineAt text) .idle (utf8Width [])
    (textLines text.toList)
  rw [kind.outlines_lineAt consists whole] at read
  rw [regions_eq_of_consists kind consists]
  exact read

end Text

/-! ## Texts that differ in blanks only -/

/-- A line without the blanks at both ends of its content. -/
def trimLine (line : TextLine) : TextLine :=
  ⟨trimBlanks line.content, line.ending⟩

theorem map_role_eq_of_trimLine (kind : Kind) {lines lines' : List TextLine}
    (same : lines.map trimLine = lines'.map trimLine) :
    lines.map (fun line => (kind.role line.content, line.ending)) =
      lines'.map fun line => (kind.role line.content, line.ending) := by
  rw [← List.forall₂_eq_eq_eq, List.forall₂_map_left_iff,
    List.forall₂_map_right_iff] at same ⊢
  refine same.imp fun line line' trimmed => ?_
  rw [trimLine, trimLine, TextLine.mk.injEq] at trimmed
  rw [kind.role_eq_of_trimBlanks trimmed.1, trimmed.2]

/-- One caret for each span of lines that does not hold the cursor line. -/
def caretsOutside (cursorLine : UInt32) (spans : List (UInt32 × UInt32)) :
    List Selection :=
  (spans.filter fun span => !(span.1 ≤ cursorLine && cursorLine ≤ span.2)).map
    fun span => .caret ⟨span.1, 0⟩

theorem foldTargets_eq_caretsOutside (document : Document) :
    document.foldTargets = caretsOutside document.cursorLine
      ((regions .block document.text).map
        (Region.lineSpan document.text)) := by
  rw [caretsOutside, List.filter_map, List.map_map, Document.foldTargets_eq,
    blockRanges, List.filter_map, List.map_map]
  rfl

/-- If two texts have the same line breaks, and their lines are the same but
for the blanks at both ends, then they have as many regions of each kind, on
the same lines, and the same blocks in them may be folded. -/
theorem lineSpans_eq_of_trimLine {text text' : String}
    (same : (textLines text.toList).map trimLine =
      (textLines text'.toList).map trimLine) :
    (∀ kind, (regions kind text).map (Region.lineSpan text) =
      (regions kind text').map (Region.lineSpan text')) ∧
    ∀ id id' language language' selections,
      Document.foldTargets ⟨id, language, text, selections⟩ =
        Document.foldTargets ⟨id', language', text', selections⟩ := by
  have spans (kind : Kind) : (regions kind text).map (Region.lineSpan text) =
      (regions kind text').map (Region.lineSpan text') := by
    rw [map_lineSpan_regions, map_lineSpan_regions,
      map_role_eq_of_trimLine kind same]
  refine ⟨spans, fun id id' language language' selections => ?_⟩
  rw [foldTargets_eq_caretsOutside, foldTargets_eq_caretsOutside]
  exact congrArg (caretsOutside _) (spans .block)

/-- Breaks of all kinds, a line of blanks only, and an inline signature that
opens on one line and closes on another. -/
theorem lineSpans_eq_of_trimLine_reindented :
    let text := "\tsig do\r\n   \n\tvoid\n end \rsig \x7b é\t\n\x7d \n"
    let text' := "sig do \r\n\n  void\t\nend\r\t sig \x7b é\n \x7d\n"
    (textLines text.toList).map trimLine =
        (textLines text'.toList).map trimLine ∧
      (∀ kind, (regions kind text).map (Region.lineSpan text) =
        (regions kind text').map (Region.lineSpan text')) ∧
      (regions .block text).map (Region.lineSpan text) = [(0, 3)] ∧
      (regions .inline text).map (Region.lineSpan text) = [(3, 4)] ∧
      Document.foldTargets ⟨0, "ruby", text, [.caret ⟨4, 0⟩]⟩ =
        Document.foldTargets ⟨1, "ruby", text', [.caret ⟨4, 0⟩]⟩ := by
  have same : (textLines
      "\tsig do\r\n   \n\tvoid\n end \rsig \x7b é\t\n\x7d \n".toList).map
        trimLine = (textLines
      "sig do \r\n\n  void\t\nend\r\t sig \x7b é\n \x7d\n".toList).map
        trimLine := by decide +kernel
  obtain ⟨spans, targets⟩ := lineSpans_eq_of_trimLine same
  exact ⟨same, spans, by decide +kernel, by decide +kernel,
    targets 0 1 "ruby" "ruby" [.caret ⟨4, 0⟩]⟩

end Signature

end SignatureVeil
