import SignatureVeil.Proofs.Signature.Composition

/-!
# Where a signature closes

A signature that opens on a line and does not close in what is left of it goes
on through the lines below, up to the first one that closes it.  This is so
for both kinds: an inline signature takes up one line only if its line ends
with the closing brace, and otherwise it takes along whatever stands above the
next line that does.
-/

namespace SignatureVeil

/-! ## One line among others -/

theorem Consists.exists_around {text : List Char}
    {earlier later : List TextLine} {line : TextLine}
    (consists : Consists text (earlier ++ line :: later)) :
    ∃ front rest, text = front ++ (line.content ++ (line.ending ++ rest)) ∧
      utf8Width front = linesWidth earlier ∧ Unbroken line.content ∧
      Ending line.ending rest ∧ (later ≠ [] → line.ending ≠ []) := by
  induction earlier generalizing text with
  | nil =>
      rw [List.nil_append] at consists
      cases consists with
      | last unbroken =>
          exact ⟨[], [], by simp, rfl, unbroken, .text, absurd rfl⟩
      | cons unbroken ends nonempty later =>
          exact ⟨[], _, rfl, rfl, unbroken, ends, fun _ => nonempty⟩
  | cons first earlier ih =>
      generalize shown : first :: earlier ++ line :: later = lines at consists
      cases consists with
      | last => simp at shown
      | @cons content ending _ _ unbroken ends nonempty others =>
          obtain ⟨rfl, rfl⟩ := List.cons.inj shown
          obtain ⟨front, rest, rfl, width, properties⟩ := ih others
          refine ⟨content ++ (ending ++ front), rest, by simp, ?_, properties⟩
          simp [width, Nat.add_assoc]

namespace Signature

namespace Kind

/-! ## Open signatures -/

/-- A signature that starts at a byte offset is open behind some lines: one of
them opens it and does not close it, and no line below does. -/
inductive IsOpen (kind : Kind) : List TextLine → Nat → Prop where
  | opened {earlier : List TextLine} {line : TextLine}
      {remainder : List Char}
      (opens : kind.opener? line.content = some remainder)
      (goesOn : kind.isCloser remainder = false) :
      IsOpen kind (earlier ++ [line]) (linesWidth earlier)
  | lasting {earlier : List TextLine} {line : TextLine} {start : Nat}
      (isOpen : IsOpen kind earlier start)
      (goesOn : kind.isCloser line.content = false) :
      IsOpen kind (earlier ++ [line]) start

/-- A region ends where the content of a line does.  Either the line opens the
signature and closes it as well, or it is the first to close one that is open
behind the lines above it. -/
inductive Spans (kind : Kind) : List TextLine → Region → Prop where
  | within {earlier later : List TextLine} {line : TextLine}
      {remainder : List Char}
      (opens : kind.opener? line.content = some remainder)
      (closes : kind.isCloser remainder = true) :
      Spans kind (earlier ++ line :: later)
        ⟨kind, linesWidth earlier, linesWidth earlier + utf8Width line.content⟩
  | across {earlier later : List TextLine} {line : TextLine} {start : Nat}
      (isOpen : kind.IsOpen earlier start)
      (closes : kind.isCloser line.content = true) :
      Spans kind (earlier ++ line :: later)
        ⟨kind, start, linesWidth earlier + utf8Width line.content⟩

theorem IsOpen.exists_opener {kind : Kind} {lines : List TextLine}
    {start : Nat} (isOpen : kind.IsOpen lines start) :
    ∃ earlier line later remainder, lines = earlier ++ line :: later ∧
      linesWidth earlier = start ∧
      kind.opener? line.content = some remainder ∧
      kind.isCloser remainder = false := by
  induction isOpen with
  | @opened earlier line remainder opens goesOn =>
      exact ⟨earlier, line, [], remainder, rfl, rfl, opens, goesOn⟩
  | @lasting _ last _ _ _ ih =>
      obtain ⟨earlier, line, later, remainder, rfl, properties⟩ := ih
      exact ⟨earlier, line, later ++ [last], remainder, by simp, properties⟩

/-- What the automaton remembers is an open signature. -/
def Remembers (kind : Kind) (lines : List TextLine) : Mode → Prop
  | .idle => True
  | .inside start => kind.IsOpen lines start

section Automaton

variable {kind : Kind} {mode : Mode} {earlier : List TextLine}
  {line : TextLine}

theorem Remembers.readLine (remembers : kind.Remembers earlier mode)
    (line : TextLine) (later : List TextLine) :
    kind.Remembers (earlier ++ [line])
        (kind.readLine mode (linesWidth earlier) line.content).1 ∧
      ∀ region ∈ (kind.readLine mode (linesWidth earlier) line.content).2,
        kind.Spans (earlier ++ line :: later) region := by
  cases mode with
  | idle =>
      simp only [Kind.readLine]
      split
      case h_1 => exact ⟨trivial, by simp⟩
      case h_2 remainder opens =>
          split
          case isTrue closes =>
              refine ⟨trivial, ?_⟩
              rintro region ⟨⟩
              exact .within opens closes
          case isFalse goesOn =>
              exact ⟨.opened opens (by simpa using goesOn), by simp⟩
  | inside start =>
      simp only [Kind.readLine]
      split
      case isTrue closes =>
          refine ⟨trivial, ?_⟩
          rintro region ⟨⟩
          exact .across remembers closes
      case isFalse goesOn =>
          exact ⟨.lasting remembers (by simpa using goesOn), by simp⟩

theorem Remembers.modeBehind (remembers : kind.Remembers earlier mode)
    (lines : List TextLine) :
    kind.Remembers (earlier ++ lines)
      (kind.modeBehind mode (linesWidth earlier) lines) := by
  induction lines generalizing earlier mode with
  | nil => simpa [Kind.modeBehind] using remembers
  | cons line lines ih =>
      have next := ih (remembers.readLine line lines).1
      simpa [Kind.modeBehind, Nat.add_assoc] using next

theorem Remembers.spans (remembers : kind.Remembers earlier mode)
    (lines : List TextLine) :
    ∀ region ∈ kind.readLines mode (linesWidth earlier) lines,
      kind.Spans (earlier ++ lines) region := by
  induction lines generalizing earlier mode with
  | nil => nofun
  | cons line lines ih =>
      obtain ⟨next, here⟩ := remembers.readLine line lines
      intro region emitted
      simp only [Kind.readLines, List.mem_append, Option.mem_toList] at emitted
      rcases emitted with onLine | later
      · exact here region onLine
      · simpa using ih next region (by simpa [Nat.add_assoc] using later)

theorem spans_of_mem_regions {text : String} {region : Region}
    (member : region ∈ regions kind text) :
    kind.Spans (textLines text.toList) region := by
  rw [regions_eq_of_consists kind (consists_textLines text.toList)] at member
  have start : kind.Remembers [] .idle := trivial
  exact start.spans _ region member

/-! ## Lines that close nothing -/

/-- Behind the opening a line goes on to its end, so it closes a signature
only if what is left of it does. -/
theorem isCloser_of_opener? {content remainder : List Char}
    (opens : kind.opener? content = some remainder)
    (goesOn : kind.isCloser remainder = false) :
    kind.isCloser content = false := by
  rw [Bool.eq_false_iff] at goesOn ⊢
  intro closes
  cases kind with
  | block =>
      simp only [opener?] at opens
      split at opens
      case isTrue opening => simp [isCloser, opening] at closes
      case isFalse => contradiction
  | inline =>
      obtain ⟨lead, -, rfl⟩ := opener?_eq_some_iff.mp opens
      obtain ⟨inner, trail, trailBlank, sameLine⟩ := isCloser_iff.mp closes
      have sameLine' : (lead ++ ['s', 'i', 'g', ' ']) ++ '{' :: remainder =
          inner ++ '}' :: trail := by simpa using sameLine
      rcases List.append_eq_append_iff.mp sameLine' with
        ⟨between, -, braces⟩ | ⟨between, -, braces⟩
      · cases between with
        | nil => simp at braces
        | cons brace between =>
            exact goesOn (isCloser_iff.mpr
              ⟨between, trail, trailBlank, (List.cons.inj braces).2⟩)
      · have member : '{' ∈ '}' :: trail := by simp [braces]
        have blank := trailBlank '{' (by simpa using member)
        simp [isBlank] at blank

/-- While no line closes the open signature, it stays open and nothing is
emitted. -/
theorem readLines_of_passed (start offset : Nat) {lines : List TextLine}
    (passed : ∀ line ∈ lines, kind.isCloser line.content = false) :
    kind.readLines (.inside start) offset lines = [] ∧
      kind.modeBehind (.inside start) offset lines = .inside start := by
  induction lines generalizing offset with
  | nil => exact ⟨rfl, rfl⟩
  | cons line lines ih =>
      have here := passed line List.mem_cons_self
      have below := ih
        (offset + utf8Width line.content + utf8Width line.ending)
        fun other member => passed other (.tail _ member)
      simpa [Kind.readLines, Kind.modeBehind, Kind.readLine, here] using below

theorem stop_le_of_mem_readLines {offset : Nat} {lines : List TextLine}
    {region : Region} (member : region ∈ kind.readLines mode offset lines) :
    region.stop ≤ offset + linesWidth lines := by
  induction lines generalizing mode offset with
  | nil => cases member
  | cons line lines ih =>
      rw [linesWidth_cons]
      rcases List.mem_append.mp member with here | below
      · have := stop_of_readLine (Option.mem_toList.mp here)
        omega
      · have := ih below
        omega

/-- Behind a line that opens a signature and does not close it a signature is
open, this one or one in which the line stands. -/
theorem Remembers.readLine_of_opener {remainder : List Char}
    (remembers : kind.Remembers earlier mode)
    (opens : kind.opener? line.content = some remainder)
    (goesOn : kind.isCloser remainder = false) :
    ∃ start ≤ linesWidth earlier,
      kind.readLine mode (linesWidth earlier) line.content =
        (.inside start, none) := by
  cases mode with
  | idle =>
      refine ⟨linesWidth earlier, Nat.le_refl _, ?_⟩
      simp [Kind.readLine, opens, goesOn]
  | inside start =>
      obtain ⟨above, opener, between, -, rfl, width, -, -⟩ :=
        remembers.exists_opener
      refine ⟨start, ?_, ?_⟩
      · rw [linesWidth_append, width]
        exact Nat.le_add_right _ _
      · simp [Kind.readLine, isCloser_of_opener? opens goesOn]

end Automaton

/-! ## Signatures that do not close on their line -/

section Unclosed

variable {kind : Kind} {text : String} {earlier later : List TextLine}
  {line : TextLine} {remainder : List Char}

theorem exists_regions_eq
    (lines : textLines text.toList = earlier ++ line :: later)
    (opens : kind.opener? line.content = some remainder)
    (goesOn : kind.isCloser remainder = false) :
    ∃ start ≤ linesWidth earlier,
      regions kind text = kind.readLines .idle 0 earlier ++
        kind.readLines (.inside start) (linesWidth (earlier ++ [line]))
          later := by
  have idle : kind.Remembers [] .idle := trivial
  obtain ⟨start, above, reads⟩ :=
    (idle.modeBehind earlier).readLine_of_opener opens goesOn
  refine ⟨start, above, ?_⟩
  rw [List.nil_append, linesWidth_nil] at reads
  rw [regions_eq_of_consists kind (consists_textLines text.toList), lines,
    readLines_append, Nat.zero_add, readLines, reads]
  simp [Nat.add_assoc]

theorem stop_le_of_neverClosed
    (lines : textLines text.toList = earlier ++ line :: later)
    (opens : kind.opener? line.content = some remainder)
    (goesOn : kind.isCloser remainder = false)
    (never : ∀ other ∈ later, kind.isCloser other.content = false) :
    ∀ region ∈ regions kind text, region.stop ≤ linesWidth earlier := by
  obtain ⟨start, -, regionsEq⟩ := exists_regions_eq lines opens goesOn
  rw [(readLines_of_passed _ _ never).1, List.append_nil] at regionsEq
  intro region member
  rw [regionsEq] at member
  have := stop_le_of_mem_readLines member
  omega

theorem exists_region_across {passed below : List TextLine}
    {closer : TextLine}
    (lines : textLines text.toList =
      earlier ++ line :: (passed ++ closer :: below))
    (opens : kind.opener? line.content = some remainder)
    (goesOn : kind.isCloser remainder = false)
    (passedOver : ∀ other ∈ passed, kind.isCloser other.content = false)
    (closes : kind.isCloser closer.content = true) :
    ∃ region ∈ regions kind text, region.start ≤ linesWidth earlier ∧
      region.stop = linesWidth (earlier ++ line :: passed) +
        utf8Width closer.content := by
  obtain ⟨start, above, regionsEq⟩ := exists_regions_eq lines opens goesOn
  obtain ⟨nothing, isOpen⟩ :=
    readLines_of_passed start (linesWidth (earlier ++ [line])) passedOver
  refine ⟨⟨kind, start, linesWidth (earlier ++ [line]) + linesWidth passed +
    utf8Width closer.content⟩, ?_, above, ?_⟩
  · rw [regionsEq, readLines_append, nothing, isOpen]
    simp [readLines, readLine, closes]
  · rw [← linesWidth_append, List.append_assoc, List.singleton_append]

end Unclosed

end Kind

/-! ## Regions in one line -/

/-- No line breaks within a region. -/
def Region.InOneLine (text : List Char) (region : Region) : Prop :=
  ∃ front body back, text = front ++ (body ++ back) ∧
    utf8Width front = region.start ∧
    utf8Width front + utf8Width body = region.stop ∧ Unbroken body

theorem Region.InOneLine.line_eq {text : String} {region : Region}
    (inOneLine : region.InOneLine text.toList) :
    (region.range text).start.line = (region.range text).stop.line := by
  obtain ⟨front, body, back, cut, start, stop, unbroken⟩ := inOneLine
  have cut' : text.toList = (front ++ body) ++ back := by
    rw [cut, List.append_assoc]
  rw [range, LineIndex.range, ← start, ← stop, ← utf8Width_append,
    LineIndex.position_of_cut cut, LineIndex.position_of_cut cut']
  simp [endPosition, count_newline_of_unbroken unbroken]

theorem placedLines_mem {earlier later : List TextLine} {line : TextLine} :
    (linesWidth earlier, line) ∈ placedLines 0 (earlier ++ line :: later) := by
  simp [placedLines_append, placedLines]

/-- What is open below its line does not end in it. -/
theorem Kind.IsOpen.not_inOneLine {kind : Kind} {text : List Char}
    {earlier later : List TextLine} {line : TextLine} {start : Nat}
    (isOpen : kind.IsOpen earlier start)
    (consists : Consists text (earlier ++ line :: later)) (width : Nat) :
    ¬ Region.InOneLine text ⟨kind, start, linesWidth earlier + width⟩ := by
  obtain ⟨above, opener, passed, -, rfl, rfl, -, -⟩ := isOpen.exists_opener
  rw [List.append_assoc, List.cons_append] at consists
  obtain ⟨front, rest, rfl, frontWidth, unbroken, ends, nonempty⟩ :=
    consists.exists_around
  rintro ⟨front', body, back, cut, start, stop, bodyUnbroken⟩
  obtain ⟨rfl, same⟩ :=
    append_inj_of_utf8Width cut (frontWidth.trans start.symm)
  have reads : Place.Reads ⟨[], opener.content ++ (opener.ending ++ rest)⟩
      body ⟨body.reverse, back⟩ := ⟨same, by simp⟩
  obtain ⟨remainder, contentEq, -⟩ := exists_remainder ends bodyUnbroken reads
  have contentWidth := congrArg utf8Width contentEq
  have endingLength := length_le_utf8Width opener.ending
  have endingPositive := List.length_pos_iff.mpr (nonempty (by simp))
  simp only [linesWidth_append, linesWidth_cons] at stop
  rw [utf8Width_append] at contentWidth
  omega

/-- A region starts with a line that opens its signature, and is in one line
if and only if the rest of that line closes the signature. -/
theorem exists_opener_of_mem_regions {kind : Kind} {text : String}
    {region : Region} (member : region ∈ regions kind text) :
    ∃ line remainder,
      (region.start, line) ∈ placedLines 0 (textLines text.toList) ∧
      kind.opener? line.content = some remainder ∧
      (region.InOneLine text.toList ↔ kind.isCloser remainder = true) := by
  have consists := consists_textLines text.toList
  have spans := Kind.spans_of_mem_regions member
  generalize textLines text.toList = lines at spans consists
  cases spans with
  | @within earlier later line remainder opens closes =>
      refine ⟨line, remainder, placedLines_mem, opens, iff_of_true ?_ closes⟩
      obtain ⟨front, rest, cut, width, unbroken, -, -⟩ := consists.exists_around
      exact ⟨front, line.content, _, cut, width, by rw [width], unbroken⟩
  | @across earlier later line start isOpen closes =>
      have apart := isOpen.not_inOneLine consists (utf8Width line.content)
      obtain ⟨above, opener, passed, remainder, rfl, rfl, opens, goesOn⟩ :=
        isOpen.exists_opener
      refine ⟨opener, remainder, ?_, opens,
        iff_of_false apart (by simp [goesOn])⟩
      rw [List.append_assoc]
      exact placedLines_mem

/-- An inline signature starts with a line that opens it and ends with the
first line that ends with a closing brace, which may be the same line.  If it
is not, the signature is found together with the lines up to there, or as a
part of one that was open already, and it is not found at all if no line below
ends with a closing brace. -/
theorem inline_closes (text : String) :
    (∀ region ∈ regions .inline text,
      Kind.inline.Spans (textLines text.toList) region) ∧
    (∀ region ∈ regions .inline text, ∃ line remainder,
      (region.start, line) ∈ placedLines 0 (textLines text.toList) ∧
        Kind.inline.opener? line.content = some remainder ∧
        (region.InOneLine text.toList ↔
          Kind.inline.isCloser remainder = true)) ∧
    (∀ region ∈ regions .inline text, region.InOneLine text.toList →
      (region.range text).start.line = (region.range text).stop.line) ∧
    ∀ earlier line later remainder,
      textLines text.toList = earlier ++ line :: later →
      Kind.inline.opener? line.content = some remainder →
      Kind.inline.isCloser remainder = false →
      ((∀ other ∈ later, Kind.inline.isCloser other.content = false) →
        ∀ region ∈ regions .inline text,
          region.stop ≤ linesWidth earlier) ∧
      ∀ passed closer below, later = passed ++ closer :: below →
        (∀ other ∈ passed, Kind.inline.isCloser other.content = false) →
        Kind.inline.isCloser closer.content = true →
        ∃ region ∈ regions .inline text,
          region.start ≤ linesWidth earlier ∧
            region.stop = linesWidth (earlier ++ line :: passed) +
              utf8Width closer.content := by
  refine ⟨fun _ => Kind.spans_of_mem_regions,
    fun _ => exists_opener_of_mem_regions, fun _ _ => Region.InOneLine.line_eq,
    fun earlier line later remainder lines opens goesOn => ⟨?_, ?_⟩⟩
  · exact Kind.stop_le_of_neverClosed lines opens goesOn
  · rintro passed closer below rfl
    exact Kind.exists_region_across lines opens goesOn

/-- A call stands behind the closing brace, and the signature takes along the
line below. -/
theorem inline_closes_below :
    let text := "sig \x7b void \x7d.foo\n\x7d\n"
    regions .inline text = [⟨.inline, 0, 18⟩] ∧
      Region.range text ⟨.inline, 0, 18⟩ = ⟨⟨0, 0⟩, ⟨1, 1⟩⟩ ∧
      ¬ ∀ region ∈ regions .inline text,
        (region.range text).start.line = (region.range text).stop.line := by
  decide +kernel

end Signature

end SignatureVeil
