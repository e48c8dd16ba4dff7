import SignatureVeil.Proofs.Text.Places
import Mathlib.Data.List.Basic

/-!
# The lines of a text

A text is cut into lines at `\r\n`, at `\n`, and at a lone `\r`.  Between two
places in the same line neither a line starts nor one ends, so whatever is
read without a line break stays within the line.
-/

namespace SignatureVeil

structure TextLine where
  content : List Char
  ending : List Char
  deriving DecidableEq, Repr

/-- The lines of a text.  A text that ends with a line break has an empty last
line. -/
def textLines : List Char → List TextLine
  | [] => [⟨[], []⟩]
  | character :: rest =>
      match textLines rest with
      | [] => []
      | line :: lines =>
          if character = '\n' then
            ⟨[], ['\n']⟩ :: line :: lines
          else if character = '\r' then
            if rest.head? = some '\n' then
              ⟨[], ['\r', '\n']⟩ :: lines
            else
              ⟨[], ['\r']⟩ :: line :: lines
          else
            ⟨character :: line.content, line.ending⟩ :: lines

/-- What can stand between the content of a line and the rest of the text. -/
inductive Ending : (ending rest : List Char) → Prop where
  | text : Ending [] []
  | newline (rest : List Char) : Ending ['\n'] rest
  | pair (rest : List Char) : Ending ['\r', '\n'] rest
  | carriageReturn {rest : List Char} (alone : rest.head? ≠ some '\n') :
      Ending ['\r'] rest

inductive Consists : List Char → List TextLine → Prop where
  | last {content : List Char} (unbroken : Unbroken content) :
      Consists content [⟨content, []⟩]
  | cons {content ending rest : List Char} {lines : List TextLine}
      (unbroken : Unbroken content) (ends : Ending ending rest)
      (nonempty : ending ≠ []) (later : Consists rest lines) :
      Consists (content ++ (ending ++ rest)) (⟨content, ending⟩ :: lines)

/-- If a text begins with `\n`, its first line is empty. -/
theorem Consists.of_newline {rest : List Char} {line : TextLine}
    {lines : List TextLine}
    (consists : Consists ('\n' :: rest) (line :: lines)) :
    Consists rest lines := by
  generalize begins : '\n' :: rest = text at consists
  cases consists with
  | last unbroken =>
      subst begins
      exact absurd (.inl rfl) (unbroken '\n' (by simp))
  | @cons content ending rest' _ unbroken ends nonempty later =>
      cases content with
      | nil =>
          cases ends with
          | text => exact absurd rfl nonempty
          | newline =>
              obtain rfl : rest = rest' := by simpa using begins
              exact later
          | pair => simp at begins
          | carriageReturn => simp at begins
      | cons character content =>
          obtain rfl : '\n' = character := (List.cons.inj begins).1
          exact absurd (.inl rfl) (unbroken '\n' (by simp))

theorem consists_textLines (text : List Char) :
    Consists text (textLines text) := by
  induction text with
  | nil => exact .last (by simp [Unbroken])
  | cons character rest ih =>
      have empty : Unbroken [] := by simp [Unbroken]
      unfold textLines
      generalize textLines rest = found at ih
      cases found with
      | nil => cases ih
      | cons line lines =>
          by_cases newline : character = '\n'
          · subst newline
            exact .cons empty (.newline rest) (by simp) ih
          by_cases carriage : character = '\r'
          · subst carriage
            by_cases paired : rest.head? = some '\n'
            · simp only [newline, paired, if_true, if_false]
              obtain ⟨rest, rfl⟩ := List.head?_eq_some_iff.mp paired
              exact .cons empty (.pair rest) (by simp) ih.of_newline
            · simp only [newline, paired, if_true, if_false]
              exact .cons empty (.carriageReturn paired) (by simp) ih
          simp only [newline, carriage, if_false]
          cases ih with
          | last unbroken => exact .last (unbroken.cons newline carriage)
          | cons unbroken ends nonempty later =>
              exact .cons (unbroken.cons newline carriage) ends nonempty later

/-! ## Places in a line -/

section Line

variable {before content ending rest : List Char}

/-- What follows the content of a line does not go on with the line. -/
theorem Ending.head?_isBreak (ends : Ending ending rest) {character : Char}
    (follows : (ending ++ rest).head? = some character) :
    character = '\n' ∨ character = '\r' := by
  cases ends <;> simp_all [eq_comm]

/-- Without a line break nothing can be read beyond the line. -/
theorem exists_remainder {word : List Char} {next : Place}
    (ends : Ending ending rest) (wordUnbroken : Unbroken word)
    (reads : Place.Reads ⟨before, content ++ (ending ++ rest)⟩ word next) :
    ∃ remainder, content = word ++ remainder ∧
      next = ⟨word.reverse ++ before, remainder ++ (ending ++ rest)⟩ := by
  obtain ⟨nextBefore, nextAfter⟩ := next
  obtain rfl : nextBefore = word.reverse ++ before := reads.before_eq
  have same : word ++ nextAfter = content ++ (ending ++ rest) :=
    reads.after_eq.symm
  rcases List.append_eq_append_iff.mp same with
    ⟨remainder, contentEq, afterEq⟩ | ⟨beyond, wordEq, afterEq⟩
  · exact ⟨remainder, contentEq, by rw [afterEq]⟩
  · cases beyond with
    | nil => exact ⟨[], by simpa using wordEq.symm, by simpa using afterEq.symm⟩
    | cons character beyond =>
        have isBreak := ends.head?_isBreak (by rw [afterEq]; rfl)
        exact absurd isBreak (wordUnbroken character (by simp [wordEq]))

/-- The content of a line reaches up to a place where the line ends. -/
theorem atLineEnd_of_ending (before : List Char) (ends : Ending ending rest)
    (unbroken : Unbroken content) (nonempty : content ≠ []) :
    Place.atLineEnd ⟨content.reverse ++ before, ending ++ rest⟩ = true := by
  cases ends with
  | text => rfl
  | newline =>
      have noReturn : (content.reverse ++ before).head? ≠ some '\r' := by
        have reads : Place.Reads ⟨before, content⟩ content
            ⟨content.reverse ++ before, []⟩ := ⟨by simp, rfl⟩
        obtain ⟨character, member, previous⟩ := reads.exists_previous nonempty
        intro isReturn
        rw [isReturn] at previous
        obtain rfl := Option.some.inj previous
        exact unbroken _ member (.inr rfl)
      simpa [Place.atLineEnd] using noReturn
  | pair => rfl
  | carriageReturn => rfl

/-- No line ends before its content does. -/
theorem eq_nil_of_atLineEnd {after : List Char} (unbroken : Unbroken content)
    (lineEnd : Place.atLineEnd ⟨before, content ++ after⟩ = true) :
    content = [] := by
  cases content with
  | nil => rfl
  | cons character content =>
      have isBreak : character = '\n' ∨ character = '\r' :=
        Place.head?_eq_of_atLineEnd lineEnd rfl
      exact absurd isBreak (unbroken character (by simp))

/-- A place in a line lies before some of the content, or before a part of the
line break. -/
theorem Ending.place_in_line {earlier more : List Char}
    (ends : Ending ending rest) (inside : content ++ ending = earlier ++ more)
    (unfinished : more ≠ []) :
    (∃ left, left ≠ [] ∧ content = earlier ++ left) ∨
      ∃ character left, more = character :: left ∧
        (character = '\n' ∨ character = '\r') := by
  have breaks : ∀ character ∈ ending, character = '\n' ∨ character = '\r' := by
    cases ends <;> simp
  rcases List.append_eq_append_iff.mp inside with
    ⟨beyond, -, endingEq⟩ | ⟨left, contentEq, moreEq⟩
  · cases more with
    | nil => exact absurd rfl unfinished
    | cons character left =>
        exact .inr ⟨character, left, rfl,
          breaks character (by simp [endingEq])⟩
  · cases left with
    | nil =>
        cases more with
        | nil => exact absurd rfl unfinished
        | cons character more =>
            have endingEq : character :: more = ending := by simpa using moreEq
            exact .inr ⟨character, more, rfl,
              breaks character (by simp [← endingEq])⟩
    | cons character left =>
        exact .inl ⟨character :: left, by simp, contentEq⟩

/-- Behind a line break a line starts. -/
theorem Ending.atLineStart (ends : Ending ending rest)
    (nonempty : ending ≠ []) :
    Place.atLineStart ⟨ending.reverse ++ before, rest⟩ = true := by
  cases ends with
  | text => exact absurd rfl nonempty
  | newline => rfl
  | pair => rfl
  | carriageReturn alone => simpa [Place.atLineStart] using alone

end Line

end SignatureVeil
