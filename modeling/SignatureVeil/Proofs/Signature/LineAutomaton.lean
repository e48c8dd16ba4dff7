import SignatureVeil.Proofs.Signature.LineRecognizer

/-!
# Finding signatures line by line

The regions of a text can be found by an automaton with two modes that reads
one line after the other.  A line that opens a signature takes it from idle to
inside, and the first line that closes the signature takes it back and emits a
region.  The main result is that the matcher and the automaton agree; its core
is that one line changes what is left to report exactly as one step of the
automaton does.
-/

namespace SignatureVeil

namespace Signature

/-- What the automaton remembers between two lines. -/
inductive Mode where
  | idle
  /-- A signature is open that starts at this byte offset. -/
  | inside (start : Nat)
  deriving DecidableEq, Repr

namespace Kind

/-- Read a line whose first character has the given byte offset, and emit the
region that ends with the line. -/
def readLine (kind : Kind) (mode : Mode) (offset : Nat)
    (content : List Char) : Mode × Option Region :=
  match mode with
  | .idle =>
      match kind.opener? content with
      | none => (.idle, none)
      | some remainder =>
          if kind.isCloser remainder then
            (.idle, some ⟨kind, offset, offset + utf8Width content⟩)
          else
            (.inside offset, none)
  | .inside start =>
      if kind.isCloser content then
        (.idle, some ⟨kind, start, offset + utf8Width content⟩)
      else
        (.inside start, none)

/-- Read lines one after the other.  A signature that is still open behind the
last line is dropped. -/
def readLines (kind : Kind) : Mode → Nat → List TextLine → List Region
  | _, _, [] => []
  | mode, offset, line :: lines =>
      let (next, emitted) := kind.readLine mode offset line.content
      emitted.toList ++ kind.readLines next
        (offset + utf8Width line.content + utf8Width line.ending) lines

/-! ## Passing over places -/

section Line

variable {kind : Kind} {before content ending rest : List Char}

/-- The matcher passes over a word if the last region ends behind it or no
signature starts in it. -/
theorem regionsFrom_append {resume : Nat} {word : List Char}
    (passed : ∀ earlier more, word = earlier ++ more → more ≠ [] →
      utf8Width before + utf8Width earlier < resume ∨
        kind.match? ⟨earlier.reverse ++ before, more ++ rest⟩ = none) :
    kind.regionsFrom resume (utf8Width before) before (word ++ rest) =
      kind.regionsFrom resume (utf8Width (word.reverse ++ before))
        (word.reverse ++ before) rest := by
  induction word generalizing before with
  | nil => rfl
  | cons character word ih =>
      have passedHere : ¬ resume ≤ utf8Width before ∨
          kind.match? ⟨before, character :: (word ++ rest)⟩ = none := by
        rcases passed [] (character :: word) rfl (by simp) with early | missed
        · exact .inl (by simpa [utf8Width] using early)
        · exact .inr missed
      rw [List.cons_append, regionsFrom_cons_of_passed passedHere, ih]
      · simp
      · intro earlier more wordEq unfinished
        have passedLater := passed (character :: earlier) more
          (by simp [wordEq]) unfinished
        simpa [utf8Width, Nat.add_comm, Nat.add_left_comm, Nat.add_assoc]
          using passedLater

/-- Without a line break only the first place of a word can start a
signature. -/
theorem match?_eq_none_of_unbroken {word after : List Char}
    (unbroken : Unbroken word)
    (missed : kind.match? ⟨before, word ++ after⟩ = none) :
    kind.match? ⟨word.reverse ++ before, after⟩ = none := by
  by_cases atStart : word = []
  · subst atStart
    exact missed
  · have reads : Place.Reads ⟨before, word ++ after⟩ word
        ⟨word.reverse ++ before, after⟩ := ⟨rfl, rfl⟩
    exact match?_eq_none_of_atLineStart kind
      (reads.atLineStart_eq_false unbroken atStart)

/-- Within a line that starts no signature, or in which a region still lasts,
nothing is reported. -/
theorem regionsFrom_line {resume : Nat} (ends : Ending ending rest)
    (unbroken : Unbroken content)
    (passed : utf8Width before + utf8Width content ≤ resume ∨
      kind.match? ⟨before, content ++ (ending ++ rest)⟩ = none) :
    kind.regionsFrom resume (utf8Width before) before
        (content ++ (ending ++ rest)) =
      kind.regionsFrom resume
        (utf8Width (ending.reverse ++ (content.reverse ++ before)))
        (ending.reverse ++ (content.reverse ++ before)) rest := by
  rw [← List.append_assoc, regionsFrom_append, List.reverse_append,
    List.append_assoc]
  intro earlier more inside unfinished
  rcases ends.place_in_line inside unfinished with
    ⟨left, nonempty, rfl⟩ | ⟨character, left, rfl, isBreak⟩
  · rcases passed with lasting | missed
    · have := length_le_utf8Width left
      have := List.length_pos_iff.mpr nonempty
      rw [utf8Width_append] at lasting
      exact .inl (by omega)
    · have lineEq : earlier ++ left ++ (ending ++ rest) =
          earlier ++ (more ++ rest) := by
        rw [← List.append_assoc, inside, List.append_assoc]
      rw [lineEq] at missed
      exact .inr (match?_eq_none_of_unbroken unbroken.left missed)
  · exact .inr (match?_eq_none_of_break kind isBreak)

/-- Where the last region ended does not matter once it is over. -/
theorem regionsFrom_of_le {resume resume' offset : Nat} {after : List Char}
    (ended : resume ≤ offset) (ended' : resume' ≤ offset) :
    kind.regionsFrom resume offset before after =
      kind.regionsFrom resume' offset before after := by
  induction after generalizing offset before with
  | nil => rfl
  | cons character after ih =>
      have later : kind.regionsFrom resume (offset + character.utf8Size)
          (character :: before) after =
            kind.regionsFrom resume' (offset + character.utf8Size)
              (character :: before) after :=
        ih (by omega) (by omega)
      simp only [regionsFrom, ended, ended', if_true, later]

/-- Nothing is reported from a place behind which no signature closes. -/
theorem regionsFrom_eq_nil {resume offset : Nat} {after : List Char}
    (noClosing : Place.seek kind.close? ⟨before, after⟩ = none) :
    kind.regionsFrom resume offset before after = [] := by
  induction after generalizing offset before with
  | nil => rfl
  | cons character after ih =>
      have nothing := Place.seek_eq_none_iff.mp noClosing
      have missed : kind.match? ⟨before, character :: after⟩ = none := by
        rw [match?_eq_none_iff]
        rintro stop ⟨opened, inner, closing, opens, between, closes⟩
        obtain ⟨opening, -, -, toOpened⟩ := opens.reads
        have noCloser := nothing _ closing (toOpened.trans between)
        simp [close?_eq_some_iff.mpr closes] at noCloser
      have noClosingLater :
          Place.seek kind.close? ⟨character :: before, after⟩ = none := by
        rw [Place.seek_eq_none_iff]
        intro word next reads
        exact nothing _ next reads.cons
      simp only [regionsFrom, missed, ih noClosingLater, ite_self]

end Line

/-! ## The simulation -/

/-- What the matcher still reports from the start of a line on. -/
def reported (kind : Kind) (mode : Mode) (before after : List Char) :
    List Region :=
  match mode with
  | .idle =>
      kind.regionsFrom (utf8Width before) (utf8Width before) before after
  | .inside start =>
      match Place.seek kind.close? ⟨before, after⟩ with
      | none => []
      | some stop =>
          ⟨kind, start, stop.offset⟩ ::
            kind.regionsFrom stop.offset (utf8Width before) before after

section Simulation

variable {kind : Kind} {before content ending rest remainder : List Char}

/-- The region that ends with the line is all that the line contributes. -/
theorem regionsFrom_behind_line (ends : Ending ending rest)
    (unbroken : Unbroken content) :
    kind.regionsFrom (utf8Width before + utf8Width content)
        (utf8Width before) before (content ++ (ending ++ rest)) =
      kind.reported .idle (ending.reverse ++ (content.reverse ++ before))
        rest := by
  rw [regionsFrom_line ends unbroken (.inl (Nat.le_refl _)), reported]
  apply regionsFrom_of_le
  · simp only [utf8Width_append, utf8Width_reverse]
    omega
  · exact Nat.le_refl _

/-- A region that is still open behind the line has to close later. -/
theorem regionsFrom_beyond_line (start : Nat) (ends : Ending ending rest)
    (unbroken : Unbroken content) :
    (match Place.seek kind.close?
        ⟨ending.reverse ++ (content.reverse ++ before), rest⟩ with
      | none => []
      | some stop =>
          ⟨kind, start, stop.offset⟩ ::
            kind.regionsFrom stop.offset (utf8Width before) before
              (content ++ (ending ++ rest))) =
      kind.reported (.inside start)
        (ending.reverse ++ (content.reverse ++ before)) rest := by
  rw [reported]
  cases sought : Place.seek kind.close?
      ⟨ending.reverse ++ (content.reverse ++ before), rest⟩ with
  | none => rfl
  | some stop =>
      obtain ⟨inner, closing, reads, closes, -⟩ :=
        Place.seek_eq_some_iff.mp sought
      obtain ⟨word, -, -, toStop⟩ := (close?_eq_some_iff.mp closes).reads
      have beyond := (reads.trans toStop).offset_le
      simp only [Place.offset, utf8Width_append, utf8Width_reverse] at beyond
      have lasting : utf8Width before + utf8Width content ≤ stop.offset := by
        simp only [Place.offset]
        omega
      simp only [regionsFrom_line ends unbroken (.inl lasting)]

/-- Where a signature opens, the region up to the nearest closing behind the
opening is reported, or nothing at all if there is no such closing. -/
theorem reported_opener {opened : Place}
    (opens : kind.open? ⟨before, content⟩ = some opened) :
    kind.reported .idle before content =
      match opened.seek kind.close? with
      | none => []
      | some stop =>
          ⟨kind, utf8Width before, stop.offset⟩ ::
            kind.regionsFrom stop.offset (utf8Width before) before content := by
  have matched : kind.match? ⟨before, content⟩ = opened.seek kind.close? := by
    rw [match?, opens, Option.bind_some]
  obtain ⟨opening, nonempty, openingUnbroken, toOpened⟩ :=
    (open?_eq_some_iff.mp opens).reads
  rw [reported]
  cases sought : opened.seek kind.close? with
  | none =>
      obtain ⟨openedBefore, left⟩ := opened
      obtain rfl : openedBefore = opening.reverse ++ before :=
        toOpened.before_eq
      obtain rfl : content = opening ++ left := toOpened.after_eq
      rw [sought] at matched
      rw [regionsFrom_append, regionsFrom_eq_nil sought]
      rintro earlier more rfl -
      rw [List.append_assoc] at matched
      exact .inr (match?_eq_none_of_unbroken openingUnbroken.left matched)
  | some stop =>
      obtain ⟨inner, closing, reads, closes, -⟩ :=
        Place.seek_eq_some_iff.mp sought
      obtain ⟨word, -, -, toStop⟩ := (close?_eq_some_iff.mp closes).reads
      have behind : utf8Width before < stop.offset :=
        Nat.lt_of_lt_of_le (toOpened.offset_lt nonempty)
          (reads.trans toStop).offset_le
      have notYet : ¬ stop.offset ≤ utf8Width before := by omega
      obtain ⟨initial, -, next⟩ := toOpened.exists_next nonempty
      obtain ⟨left, rfl⟩ : ∃ left, content = initial :: left := by
        simpa [List.head?_eq_some_iff] using next
      rw [sought] at matched
      simp only [regionsFrom_cons_of_match? (Nat.le_refl _) matched,
        regionsFrom_cons_of_passed (.inl notYet)]

theorem reported_line_of_noOpener (ends : Ending ending rest)
    (unbroken : Unbroken content) (noOpener : kind.opener? content = none) :
    kind.reported .idle before (content ++ (ending ++ rest)) =
      kind.reported .idle (ending.reverse ++ (content.reverse ++ before))
        rest := by
  have missed : kind.match? ⟨before, content ++ (ending ++ rest)⟩ = none := by
    rw [match?, open?_eq_none_of_opener? ends unbroken noOpener,
      Option.bind_none]
  rw [reported, regionsFrom_line ends unbroken (.inr missed), reported]
  apply regionsFrom_of_le
  · simp only [utf8Width_append, utf8Width_reverse]
    omega
  · exact Nat.le_refl _

theorem reported_line_of_opener (ends : Ending ending rest)
    (unbroken : Unbroken content)
    (lineStart :
      Place.atLineStart ⟨before, content ++ (ending ++ rest)⟩ = true)
    (isOpener : kind.opener? content = some remainder) :
    kind.reported .idle before (content ++ (ending ++ rest)) =
      if kind.isCloser remainder then
        ⟨kind, utf8Width before, utf8Width before + utf8Width content⟩ ::
          kind.reported .idle (ending.reverse ++ (content.reverse ++ before))
            rest
      else
        kind.reported (.inside (utf8Width before))
          (ending.reverse ++ (content.reverse ++ before)) rest := by
  obtain ⟨opening, nonempty, rfl, opens⟩ :=
    exists_open?_of_opener? ends unbroken lineStart isOpener
  rw [reported_opener opens]
  cases isCloser : kind.isCloser remainder with
  | true =>
      -- Nothing is left of the line of a block, so it cannot close there.
      have wholeLine : kind = .block → Place.atLineStart
          ⟨opening.reverse ++ before, remainder ++ (ending ++ rest)⟩ =
            true := by
        rintro rfl
        obtain ⟨rfl, -⟩ := opener?_eq_some_iff.mp isOpener
        simp [Kind.isCloser, trimBlanks] at isCloser
      rw [seek_of_isCloser ends unbroken.right isCloser wholeLine, if_pos rfl,
        ← regionsFrom_behind_line ends unbroken, ← List.append_assoc,
        ← List.reverse_append]
      simp only [Place.offset, utf8Width_append, utf8Width_reverse,
        Nat.add_comm]
  | false =>
      rw [seek_of_not_isCloser ends unbroken.right isCloser,
        if_neg Bool.false_ne_true, ← regionsFrom_beyond_line _ ends unbroken]
      simp only [List.reverse_append, List.append_assoc]

theorem reported_line_of_inside (start : Nat) (ends : Ending ending rest)
    (unbroken : Unbroken content)
    (lineStart :
      Place.atLineStart ⟨before, content ++ (ending ++ rest)⟩ = true) :
    kind.reported (.inside start) before (content ++ (ending ++ rest)) =
      if kind.isCloser content then
        ⟨kind, start, utf8Width before + utf8Width content⟩ ::
          kind.reported .idle (ending.reverse ++ (content.reverse ++ before))
            rest
      else
        kind.reported (.inside start)
          (ending.reverse ++ (content.reverse ++ before)) rest := by
  cases isCloser : kind.isCloser content with
  | true =>
      rw [if_pos rfl, ← regionsFrom_behind_line ends unbroken, reported,
        seek_of_isCloser ends unbroken isCloser fun _ => lineStart]
      simp only [Place.offset, utf8Width_append, utf8Width_reverse,
        Nat.add_comm]
  | false =>
      rw [if_neg Bool.false_ne_true, reported,
        seek_of_not_isCloser ends unbroken isCloser,
        regionsFrom_beyond_line start ends unbroken]

/-- One line changes what is left to report as one step of the automaton
does. -/
theorem reported_line (mode : Mode) (ends : Ending ending rest)
    (unbroken : Unbroken content)
    (lineStart :
      Place.atLineStart ⟨before, content ++ (ending ++ rest)⟩ = true) :
    kind.reported mode before (content ++ (ending ++ rest)) =
      (kind.readLine mode (utf8Width before) content).2.toList ++
        kind.reported (kind.readLine mode (utf8Width before) content).1
          (ending.reverse ++ (content.reverse ++ before)) rest := by
  cases mode with
  | idle =>
      cases isOpener : kind.opener? content with
      | none =>
          rw [reported_line_of_noOpener ends unbroken isOpener]
          simp [readLine, isOpener]
      | some remainder =>
          rw [reported_line_of_opener ends unbroken lineStart isOpener]
          cases isCloser : kind.isCloser remainder <;>
            simp [readLine, isOpener, isCloser]
  | inside start =>
      rw [reported_line_of_inside start ends unbroken lineStart]
      cases isCloser : kind.isCloser content <;> simp [readLine, isCloser]

end Simulation

theorem reported_atEnd (kind : Kind) (mode : Mode) (before : List Char) :
    kind.reported mode before [] = [] := by
  cases mode with
  | idle => rfl
  | inside start =>
      have noClosing : Place.seek kind.close? ⟨before, []⟩ = none := by
        rw [Place.seek_eq_none_iff]
        intro word next reads
        rw [reads.eq_of_atEnd]
        by_contra found
        obtain ⟨stop, found⟩ := Option.ne_none_iff_exists'.mp found
        obtain ⟨ending, nonempty, -, toStop⟩ :=
          (close?_eq_some_iff.mp found).reads
        obtain ⟨character, -, follows⟩ := toStop.exists_next nonempty
        simp at follows
      rw [reported, noClosing]

theorem readLines_eq_reported {kind : Kind} {text : List Char}
    {lines : List TextLine} (consists : Consists text lines)
    (before : List Char) (mode : Mode)
    (lineStart : Place.atLineStart ⟨before, text⟩ = true) :
    kind.readLines mode (utf8Width before) lines =
      kind.reported mode before text := by
  induction consists generalizing before mode with
  | @last content unbroken =>
      have line : kind.reported mode before (content ++ ([] ++ [])) = _ :=
        reported_line mode Ending.text unbroken (by simpa using lineStart)
      rw [reported_atEnd] at line
      simpa [readLines] using line.symm
  | @cons content ending rest lines unbroken ends nonempty later ih =>
      have nextStart : Place.atLineStart
          ⟨ending.reverse ++ (content.reverse ++ before), rest⟩ = true :=
        ends.atLineStart nonempty
      have width : utf8Width before + utf8Width content + utf8Width ending =
          utf8Width (ending.reverse ++ (content.reverse ++ before)) := by
        simp only [utf8Width_append, utf8Width_reverse]
        omega
      rw [reported_line mode ends unbroken lineStart, ← ih _ _ nextStart,
        ← width]
      rfl

end Kind

theorem regions_eq_of_consists (kind : Kind) {text : String}
    {lines : List TextLine} (consists : Consists text.toList lines) :
    regions kind text = kind.readLines .idle 0 lines :=
  (Kind.readLines_eq_reported consists [] .idle rfl).symm

/-- The matcher reports the regions that the automaton emits. -/
theorem regions_eq_readLines (kind : Kind) (text : String) :
    Consists text.toList (textLines text.toList) ∧
      regions kind text = kind.readLines .idle 0 (textLines text.toList) := by
  have consists := consists_textLines text.toList
  exact ⟨consists, regions_eq_of_consists kind consists⟩

end Signature

end SignatureVeil
