import SignatureVeil.Text.Place
import Mathlib.Data.List.Basic

/-!
# Reading from place to place

A word that is read leads from one place of a text to a later one.  This file
orders the places of a text by what is read between them, connects that order
to byte offsets, and says exactly where the scans over blanks, over a given
word, and to the first place with a property lead.
-/

namespace SignatureVeil

@[simp]
theorem utf8Width_append (first second : List Char) :
    utf8Width (first ++ second) = utf8Width first + utf8Width second := by
  induction first with
  | nil => simp [utf8Width]
  | cons character rest ih => simp [utf8Width, ih, Nat.add_assoc]

@[simp]
theorem utf8Width_reverse (word : List Char) :
    utf8Width word.reverse = utf8Width word := by
  induction word with
  | nil => rfl
  | cons character rest ih => simp [utf8Width, ih, Nat.add_comm]

theorem length_le_utf8Width (word : List Char) :
    word.length ≤ utf8Width word := by
  induction word with
  | nil => simp
  | cons character rest ih =>
      have := character.utf8Size_pos
      simp only [List.length_cons, utf8Width]
      omega

theorem eq_nil_of_utf8Width_eq_zero {word : List Char}
    (width : utf8Width word = 0) : word = [] := by
  have := length_le_utf8Width word
  exact List.eq_nil_of_length_eq_zero (by omega)

/-- A text is cut in one way only where its first part has a given width. -/
theorem append_inj_of_utf8Width {front front' back back' : List Char}
    (same : front ++ back = front' ++ back')
    (widths : utf8Width front = utf8Width front') :
    front = front' ∧ back = back' := by
  rcases List.append_eq_append_iff.mp same with
    ⟨more, parts, others⟩ | ⟨more, parts, others⟩ <;>
  · have width := congrArg utf8Width parts
    rw [utf8Width_append] at width
    obtain rfl : more = [] := eq_nil_of_utf8Width_eq_zero (by omega)
    simp_all

/-- A word of spaces and tabs only. -/
def Blanks (word : List Char) : Prop :=
  ∀ character ∈ word, isBlank character = true

/-- A word in which no line ends. -/
def Unbroken (word : List Char) : Prop :=
  ∀ character ∈ word, ¬ (character = '\n' ∨ character = '\r')

theorem isBlank_eq_false_of_break {character : Char}
    (isBreak : character = '\n' ∨ character = '\r') :
    isBlank character = false := by
  rcases isBreak with rfl | rfl <;> decide

theorem Blanks.reverse {word : List Char} (blank : Blanks word) :
    Blanks word.reverse :=
  fun character member => blank character (List.mem_reverse.mp member)

theorem Blanks.unbroken {word : List Char} (blank : Blanks word) :
    Unbroken word := by
  intro character member isBreak
  have ink := isBlank_eq_false_of_break isBreak
  simp [blank character member] at ink

theorem Unbroken.append {first second : List Char}
    (firstUnbroken : Unbroken first) (secondUnbroken : Unbroken second) :
    Unbroken (first ++ second) := by
  intro character member
  rcases List.mem_append.mp member with member | member
  · exact firstUnbroken character member
  · exact secondUnbroken character member

theorem Unbroken.left {first second : List Char}
    (unbroken : Unbroken (first ++ second)) : Unbroken first :=
  fun character member => unbroken character (by simp [member])

theorem Unbroken.right {first second : List Char}
    (unbroken : Unbroken (first ++ second)) : Unbroken second :=
  fun character member => unbroken character (by simp [member])

theorem Unbroken.cons {character : Char} {word : List Char}
    (noNewline : character ≠ '\n') (noReturn : character ≠ '\r')
    (unbroken : Unbroken word) : Unbroken (character :: word) := by
  intro other member
  rcases List.mem_cons.mp member with rfl | member
  · simp [noNewline, noReturn]
  · exact unbroken other member

namespace Place

theorem head?_eq_of_atLineEnd {place : Place}
    (lineEnd : place.atLineEnd = true) {character : Char}
    (next : place.after.head? = some character) :
    character = '\n' ∨ character = '\r' := by
  unfold atLineEnd at lineEnd
  split at lineEnd
  case h_1 atEnd => simp [atEnd] at next
  case h_2 atReturn => exact .inr (by simpa [atReturn] using next.symm)
  case h_3 atBreak => exact .inl (by simpa [atBreak] using next.symm)
  case h_4 => simp at lineEnd

/-- No blank follows the end of a line. -/
theorem not_blank_of_atLineEnd {place : Place}
    (lineEnd : place.atLineEnd = true) :
    ∀ character ∈ place.after.head?, isBlank character = false := by
  intro character next
  exact isBlank_eq_false_of_break
    (head?_eq_of_atLineEnd lineEnd (Option.mem_def.mp next))

/-- Behind any character but a line break no line starts. -/
theorem head?_eq_of_atLineStart {place : Place}
    (lineStart : place.atLineStart = true) {character : Char}
    (previous : place.before.head? = some character) :
    character = '\n' ∨ character = '\r' := by
  unfold atLineStart at lineStart
  split at lineStart
  case h_1 atStart => simp [atStart] at previous
  case h_2 pastBreak => exact .inl (by simpa [pastBreak] using previous.symm)
  case h_3 pastReturn =>
      exact .inr (by simpa [pastReturn] using previous.symm)
  case h_4 => simp at lineStart

/-- Reading a word leads from one place to another. -/
structure Reads (first : Place) (word : List Char) (second : Place) :
    Prop where
  after_eq : first.after = word ++ second.after
  before_eq : second.before = word.reverse ++ first.before

namespace Reads

variable {first second third : Place} {word word' : List Char}

theorem refl (place : Place) : place.Reads [] place :=
  ⟨rfl, rfl⟩

theorem trans (reads : first.Reads word second)
    (reads' : second.Reads word' third) :
    first.Reads (word ++ word') third :=
  ⟨by simp [reads.after_eq, reads'.after_eq],
    by simp [reads.before_eq, reads'.before_eq]⟩

theorem eq_of_nil (reads : first.Reads [] second) : second = first := by
  cases first
  cases second
  simpa using And.intro reads.before_eq reads.after_eq.symm

theorem eq_nil_of_self (reads : first.Reads word first) : word = [] := by
  simpa using reads.after_eq

/-- Where a word leads to is determined by the place and the word. -/
theorem unique (reads : first.Reads word second)
    (reads' : first.Reads word third) : second = third := by
  cases second
  cases third
  have sameAfter := reads.after_eq.symm.trans reads'.after_eq
  have sameBefore := reads.before_eq.trans reads'.before_eq.symm
  simp_all

/-- What is read between two places is determined by them. -/
theorem word_unique (reads : first.Reads word second)
    (reads' : first.Reads word' second) : word = word' :=
  List.append_cancel_right (reads.after_eq.symm.trans reads'.after_eq)

theorem split (reads : first.Reads (word ++ word') third) :
    ∃ second, first.Reads word second ∧ second.Reads word' third := by
  refine ⟨⟨word.reverse ++ first.before, word' ++ third.after⟩, ⟨?_, rfl⟩,
    ⟨rfl, ?_⟩⟩
  · simpa using reads.after_eq
  · simpa using reads.before_eq

theorem cons {before rest : List Char} {character : Char}
    (reads : Reads ⟨character :: before, rest⟩ word second) :
    Reads ⟨before, character :: rest⟩ (character :: word) second :=
  ⟨by simpa using reads.after_eq, by simpa using reads.before_eq⟩

theorem eq_of_atEnd {before : List Char}
    (reads : Reads ⟨before, []⟩ word second) : second = ⟨before, []⟩ := by
  have empty : word = [] := by
    have := reads.after_eq
    simp_all
  subst empty
  exact reads.eq_of_nil

/-- A word is empty, or begins with the character that follows the place. -/
theorem cons_cases {before rest : List Char} {character : Char}
    (reads : Reads ⟨before, character :: rest⟩ word second) :
    (word = [] ∧ second = ⟨before, character :: rest⟩) ∨
      ∃ more, word = character :: more ∧
        Reads ⟨character :: before, rest⟩ more second := by
  cases word with
  | nil => exact .inl ⟨rfl, reads.eq_of_nil⟩
  | cons other more =>
      have same := reads.after_eq
      simp only [List.cons_append, List.cons.injEq] at same
      obtain ⟨rfl, rfl⟩ := same
      refine .inr ⟨more, rfl, rfl, ?_⟩
      simpa using reads.before_eq

theorem offset_eq (reads : first.Reads word second) :
    second.offset = first.offset + utf8Width word := by
  simp [offset, reads.before_eq, Nat.add_comm]

theorem offset_le (reads : first.Reads word second) :
    first.offset ≤ second.offset := by
  have := reads.offset_eq
  omega

theorem offset_lt (reads : first.Reads word second) (nonempty : word ≠ []) :
    first.offset < second.offset := by
  have := reads.offset_eq
  have := length_le_utf8Width word
  have := List.length_pos_iff.mpr nonempty
  omega

/-- The character that is read first stands behind the first place. -/
theorem exists_next (reads : first.Reads word second) (nonempty : word ≠ []) :
    ∃ character ∈ word, first.after.head? = some character := by
  cases word with
  | nil => exact absurd rfl nonempty
  | cons character word =>
      exact ⟨character, by simp, by simp [reads.after_eq]⟩

/-- The character that is read last stands before the second place. -/
theorem exists_previous (reads : first.Reads word second)
    (nonempty : word ≠ []) :
    ∃ character ∈ word, second.before.head? = some character := by
  refine ⟨word.getLast nonempty, List.getLast_mem nonempty, ?_⟩
  rw [reads.before_eq, List.head?_append_of_ne_nil _ (by simpa using nonempty),
    List.head?_reverse, List.getLast?_eq_some_getLast nonempty]

/-- Of two words that are read from one place, one begins with the other. -/
theorem compare (reads : first.Reads word second)
    (reads' : first.Reads word' third) :
    (∃ more, word' = word ++ more ∧ second.Reads more third) ∨
      ∃ more, more ≠ [] ∧ word = word' ++ more ∧ third.Reads more second := by
  have same : word ++ second.after = word' ++ third.after :=
    reads.after_eq.symm.trans reads'.after_eq
  rcases List.append_eq_append_iff.mp same with
    ⟨more, rfl, secondAfter⟩ | ⟨more, rfl, thirdAfter⟩
  · obtain ⟨middle, toMiddle, fromMiddle⟩ := reads'.split
    obtain rfl := reads.unique toMiddle
    exact .inl ⟨more, rfl, fromMiddle⟩
  · obtain ⟨middle, toMiddle, fromMiddle⟩ := reads.split
    obtain rfl := reads'.unique toMiddle
    by_cases empty : more = []
    · subst empty
      obtain rfl := fromMiddle.eq_of_nil
      exact .inl ⟨[], by simp, .refl _⟩
    · exact .inr ⟨more, empty, rfl, fromMiddle⟩

/-- Behind a word without a line break no line starts. -/
theorem atLineStart_eq_false (reads : first.Reads word second)
    (unbroken : Unbroken word) (nonempty : word ≠ []) :
    second.atLineStart = false := by
  by_contra lineStart
  obtain ⟨character, member, previous⟩ := reads.exists_previous nonempty
  exact unbroken character member (head?_eq_of_atLineStart
    ((Bool.not_eq_false _).mp lineStart) previous)

/-- Places that are read from one place and have the same offset agree. -/
theorem eq_of_offset_eq (reads : first.Reads word second)
    (reads' : first.Reads word' third)
    (offsets : second.offset = third.offset) :
    second = third := by
  rcases reads.compare reads' with ⟨more, -, later⟩ | ⟨more, nonempty, -, later⟩
  · by_cases empty : more = []
    · subst empty
      exact later.eq_of_nil.symm
    · have := later.offset_lt empty
      omega
  · have := later.offset_lt nonempty
    omega

end Reads

def LiesIn (place : Place) (text : List Char) : Prop :=
  place.before.reverse ++ place.after = text

theorem start_liesIn (text : List Char) : (start text).LiesIn text :=
  rfl

theorem LiesIn.reads {text word : List Char} {first second : Place}
    (lies : first.LiesIn text) (reads : first.Reads word second) :
    second.LiesIn text := by
  simpa [LiesIn, reads.before_eq, reads.after_eq] using lies

theorem LiesIn.eq_of_offset_eq {text : List Char} {first second : Place}
    (firstLies : first.LiesIn text) (secondLies : second.LiesIn text)
    (offsets : first.offset = second.offset) : first = second := by
  obtain ⟨before, after⟩ :=
    append_inj_of_utf8Width (firstLies.trans secondLies.symm)
      (by rwa [utf8Width_reverse, utf8Width_reverse])
  cases first
  cases second
  rw [Place.mk.injEq]
  exact ⟨List.reverse_injective before, after⟩

/-- The places of a text are in the order of their byte offsets. -/
theorem LiesIn.exists_reads {text : List Char} {first second : Place}
    (firstLies : first.LiesIn text) (secondLies : second.LiesIn text)
    (inOrder : first.offset ≤ second.offset) :
    ∃ word, first.Reads word second := by
  have same := firstLies.trans secondLies.symm
  rcases List.append_eq_append_iff.mp same with
    ⟨more, before, after⟩ | ⟨more, before, after⟩
  · refine ⟨more, after, ?_⟩
    simpa using congrArg List.reverse before
  · have width := congrArg utf8Width before
    simp only [utf8Width_append, utf8Width_reverse] at width
    simp only [offset] at inOrder
    have : more = [] := eq_nil_of_utf8Width_eq_zero (by omega)
    subst this
    refine ⟨[], by simpa using after.symm, ?_⟩
    simpa using (congrArg List.reverse before).symm

/-! ## Blanks and words -/

theorem pastBlanks_append (before lead rest : List Char)
    (blank : Blanks lead)
    (stopped : ∀ character ∈ rest.head?, isBlank character = false) :
    pastBlanks before (lead ++ rest) = ⟨lead.reverse ++ before, rest⟩ := by
  induction lead generalizing before with
  | nil =>
      cases rest with
      | nil => rfl
      | cons character rest =>
          have : isBlank character = false := stopped character rfl
          simp [pastBlanks, this]
  | cons character lead ih =>
      have isBlank : isBlank character = true := blank character (by simp)
      have laterBlank : Blanks lead := fun other member =>
        blank other (by simp [member])
      simp [pastBlanks, isBlank, ih (character :: before) laterBlank]

/-- The scan over blanks goes on until no blank follows. -/
theorem skipBlanks_eq {place next : Place} {lead : List Char}
    (reads : place.Reads lead next) (blank : Blanks lead)
    (stopped : ∀ character ∈ next.after.head?, isBlank character = false) :
    place.skipBlanks = next := by
  rw [skipBlanks, reads.after_eq, pastBlanks_append _ _ _ blank stopped,
    ← reads.before_eq]

theorem exists_reads_skipBlanks (place : Place) :
    ∃ lead, Blanks lead ∧ place.Reads lead place.skipBlanks ∧
      ∀ character ∈ place.skipBlanks.after.head?,
        isBlank character = false := by
  obtain ⟨before, after⟩ := place
  induction after generalizing before with
  | nil =>
      exact ⟨[], by simp [Blanks], .refl _, by simp [skipBlanks, pastBlanks]⟩
  | cons character rest ih =>
      by_cases blank : isBlank character = true
      · obtain ⟨lead, leadBlank, reads, stopped⟩ := ih (character :: before)
        have same : skipBlanks ⟨before, character :: rest⟩ =
            skipBlanks ⟨character :: before, rest⟩ := by
          simp [skipBlanks, pastBlanks, blank]
        refine ⟨character :: lead, ?_, ?_, ?_⟩
        · simpa [Blanks, blank] using leadBlank
        · rw [same]
          exact reads.cons
        · rw [same]
          exact stopped
      · have same : skipBlanks ⟨before, character :: rest⟩ =
            ⟨before, character :: rest⟩ := by
          simp [skipBlanks, pastBlanks, blank]
        refine ⟨[], by simp [Blanks], ?_, ?_⟩
        · rw [same]
          exact .refl _
        · rw [same]
          simpa using blank

theorem skipWord?_eq_some_iff {word : List Char} {place next : Place} :
    place.skipWord? word = some next ↔ place.Reads word next := by
  induction word generalizing place with
  | nil =>
      simp only [skipWord?, Option.some.injEq]
      constructor
      · rintro rfl
        exact .refl _
      · intro reads
        exact reads.eq_of_nil.symm
  | cons expected word ih =>
      obtain ⟨before, after⟩ := place
      cases after with
      | nil =>
          simp only [skipWord?, reduceCtorEq, false_iff]
          intro reads
          simpa using reads.after_eq
      | cons character rest =>
          by_cases same : character = expected
          · subst same
            simp only [skipWord?, if_true, ih]
            constructor
            · exact Reads.cons
            · intro reads
              rcases reads.cons_cases with ⟨empty, -⟩ | ⟨more, same, later⟩
              · simp at empty
              · obtain rfl : word = more := by simpa using same
                exact later
          · simp only [skipWord?, same, if_false, reduceCtorEq, false_iff]
            intro reads
            exact same (by simpa using congrArg List.head? reads.after_eq)

/-! ## Seeking -/

section Seek

variable {α : Type} {find? : Place → Option α}

/-- Nothing is found at any place behind `place` that lies before `next`. -/
def NothingBefore (find? : Place → Option α) (place next : Place) : Prop :=
  ∀ word earlier more, place.Reads word earlier → earlier.Reads more next →
    more ≠ [] → find? earlier = none

theorem NothingBefore.self (place : Place) :
    NothingBefore find? place place := by
  intro word earlier more reads reads' nonempty
  have := (reads.trans reads').eq_nil_of_self
  simp_all

theorem seek_cons_of_eq_none {before rest : List Char} {character : Char}
    (missed : find? ⟨before, character :: rest⟩ = none) :
    seek find? ⟨before, character :: rest⟩ =
      seek find? ⟨character :: before, rest⟩ := by
  simp only [seek, seekFrom, missed]

/-- A word is passed over if nothing is found at any place within it. -/
theorem seek_append {before word rest : List Char}
    (missed : ∀ earlier more, word = earlier ++ more → more ≠ [] →
      find? ⟨earlier.reverse ++ before, more ++ rest⟩ = none) :
    seek find? ⟨before, word ++ rest⟩ =
      seek find? ⟨word.reverse ++ before, rest⟩ := by
  induction word generalizing before with
  | nil => rfl
  | cons character word ih =>
      have missedHere : find? ⟨before, character :: (word ++ rest)⟩ = none :=
        missed [] (character :: word) rfl (by simp)
      rw [List.cons_append, seek_cons_of_eq_none missedHere, ih]
      · simp
      · intro earlier more wordEq nonempty
        have missedLater := missed (character :: earlier) more
          (by simp [wordEq]) nonempty
        simpa using missedLater

theorem seek_eq_none_iff {place : Place} :
    place.seek find? = none ↔
      ∀ word next, place.Reads word next → find? next = none := by
  obtain ⟨before, after⟩ := place
  induction after generalizing before with
  | nil =>
      simp only [seek, seekFrom]
      constructor
      · intro missed word next reads
        rw [reads.eq_of_atEnd, missed]
      · intro missed
        exact missed [] _ (.refl _)
  | cons character rest ih =>
      have step : seek find? ⟨before, character :: rest⟩ = none ↔
          find? ⟨before, character :: rest⟩ = none ∧
            seek find? ⟨character :: before, rest⟩ = none := by
        simp only [seek, seekFrom]
        split <;> simp_all
      rw [step, ih]
      constructor
      · rintro ⟨missedHere, missedLater⟩ word next reads
        rcases reads.cons_cases with ⟨-, rfl⟩ | ⟨more, -, later⟩
        · exact missedHere
        · exact missedLater more next later
      · intro missed
        exact ⟨missed [] _ (.refl _),
          fun word next reads => missed _ next reads.cons⟩

/-- Something is found at the first place that has it. -/
theorem seek_eq_some_iff {place : Place} {found : α} :
    place.seek find? = some found ↔
      ∃ word next, place.Reads word next ∧ find? next = some found ∧
        NothingBefore find? place next := by
  obtain ⟨before, after⟩ := place
  induction after generalizing before with
  | nil =>
      simp only [seek, seekFrom]
      constructor
      · intro here
        refine ⟨[], _, .refl _, here, ?_⟩
        exact .self _
      · rintro ⟨word, next, reads, here, -⟩
        rwa [reads.eq_of_atEnd] at here
  | cons character rest ih =>
      cases here : find? ⟨before, character :: rest⟩ with
      | some value =>
          simp only [seek, seekFrom, here, Option.some.injEq]
          constructor
          · rintro rfl
            exact ⟨[], _, .refl _, here, .self _⟩
          · rintro ⟨word, next, reads, there, nothing⟩
            rcases reads.cons_cases with ⟨-, rfl⟩ | ⟨more, rfl, -⟩
            · exact Option.some.inj (here.symm.trans there)
            · have := nothing [] _ _ (.refl _) reads (by simp)
              simp [here] at this
      | none =>
          rw [seek_cons_of_eq_none here, ih]
          constructor
          · rintro ⟨word, next, reads, there, nothing⟩
            refine ⟨_, next, reads.cons, there, ?_⟩
            intro word' earlier more reads' reads'' nonempty
            rcases reads'.cons_cases with ⟨-, rfl⟩ | ⟨word', -, later⟩
            · exact here
            · exact nothing word' earlier more later reads'' nonempty
          · rintro ⟨word, next, reads, there, nothing⟩
            rcases reads.cons_cases with ⟨-, rfl⟩ | ⟨word, -, later⟩
            · simp [here] at there
            · refine ⟨word, next, later, there, ?_⟩
              intro word' earlier more reads' reads'' nonempty
              exact nothing _ earlier more reads'.cons reads'' nonempty

end Seek

end Place

end SignatureVeil
