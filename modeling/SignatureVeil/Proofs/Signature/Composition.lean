import Mathlib.Algebra.Order.Ring.Nat
import SignatureVeil.Proofs.Signature.LineBreaks

/-!
# Texts put together

The line automaton reads a text that is put together from two parts as it
reads the first part and then, from the mode that it has reached, the second.
At a `\n` the parts share no line, so nothing that comes later changes what is
found before it, and where no signature is left open the second part is read
as if it stood alone, with its offsets moved by the width of the first.
-/

namespace SignatureVeil

/-! ## Lines on both sides of a seam -/

theorem textLines_append_of_unbroken {content rest : List Char}
    {line : TextLine} {lines : List TextLine} (unbroken : Unbroken content)
    (later : textLines rest = line :: lines) :
    textLines (content ++ rest) =
      ⟨content ++ line.content, line.ending⟩ :: lines := by
  induction content with
  | nil => exact later
  | cons character content ih =>
      have ink := unbroken character List.mem_cons_self
      rw [not_or] at ink
      have unbroken' : Unbroken content := fun other member =>
        unbroken other (.tail _ member)
      rw [List.cons_append, textLines, ih unbroken']
      simp only [ink.1, ink.2, if_false, List.cons_append]

/-- A text consists of its lines and of no others. -/
theorem Consists.eq_textLines {text : List Char} {lines : List TextLine}
    (consists : Consists text lines) : lines = textLines text := by
  induction consists with
  | @last content unbroken =>
      have empty : textLines [] = [⟨[], []⟩] := rfl
      have whole := textLines_append_of_unbroken unbroken empty
      simpa using whole.symm
  | @cons content ending rest lines unbroken ends nonempty later ih =>
      have broken : textLines (ending ++ rest) = ⟨[], ending⟩ :: lines := by
        cases later' : lines with
        | nil => cases later' ▸ later
        | cons line others =>
            rw [later'] at ih
            cases ends with
            | text => exact absurd rfl nonempty
            | newline => simp [textLines, ← ih]
            | pair => simp [textLines, ← ih]
            | carriageReturn alone => simp [textLines, ← ih, alone]
      have whole := textLines_append_of_unbroken unbroken broken
      simpa using whole.symm

def linesWidth (lines : List TextLine) : Nat :=
  (lines.map fun line =>
    utf8Width line.content + utf8Width line.ending).sum

@[simp]
theorem linesWidth_nil : linesWidth [] = 0 :=
  rfl

@[simp]
theorem linesWidth_cons (line : TextLine) (lines : List TextLine) :
    linesWidth (line :: lines) =
      utf8Width line.content + utf8Width line.ending + linesWidth lines := by
  simp [linesWidth]

@[simp]
theorem linesWidth_append (front back : List TextLine) :
    linesWidth (front ++ back) = linesWidth front + linesWidth back := by
  simp [linesWidth]

theorem Consists.linesWidth_eq {text : List Char} {lines : List TextLine}
    (consists : Consists text lines) : linesWidth lines = utf8Width text := by
  induction consists with
  | last => simp [utf8Width]
  | cons _ _ _ _ ih => simp [ih, Nat.add_assoc]

/-- The lines of a text that starts at a byte offset, each with the offset of
its first character. -/
def placedLines : Nat → List TextLine → List (Nat × TextLine)
  | _, [] => []
  | offset, line :: lines =>
      (offset, line) :: placedLines
        (offset + utf8Width line.content + utf8Width line.ending) lines

theorem le_of_mem_placedLines {offset start : Nat} {line : TextLine}
    {lines : List TextLine} (member : (start, line) ∈ placedLines offset lines) :
    offset ≤ start := by
  induction lines generalizing offset with
  | nil => cases member
  | cons first lines ih =>
      rcases List.mem_cons.mp member with here | later
      · exact Nat.le_of_eq (congrArg Prod.fst here).symm
      · have := ih later
        omega

theorem placedLines_append (offset : Nat) (front back : List TextLine) :
    placedLines offset (front ++ back) =
      placedLines offset front ++
        placedLines (offset + linesWidth front) back := by
  induction front generalizing offset with
  | nil => rfl
  | cons line front ih =>
      simp [placedLines, ih, Nat.add_assoc]

namespace Signature

namespace Kind

/-! ## The automaton on parts of a text -/

/-- What the automaton remembers behind the last of some lines. -/
def modeBehind (kind : Kind) : Mode → Nat → List TextLine → Mode
  | mode, _, [] => mode
  | mode, offset, line :: lines =>
      kind.modeBehind (kind.readLine mode offset line.content).1
        (offset + utf8Width line.content + utf8Width line.ending) lines

theorem readLines_append (kind : Kind) (mode : Mode) (offset : Nat)
    (front back : List TextLine) :
    kind.readLines mode offset (front ++ back) =
      kind.readLines mode offset front ++
        kind.readLines (kind.modeBehind mode offset front)
          (offset + linesWidth front) back := by
  induction front generalizing mode offset with
  | nil => rfl
  | cons line front ih =>
      simp [readLines, modeBehind, ih, Nat.add_assoc]

/-- An empty line neither opens nor closes a signature. -/
@[simp]
theorem readLine_nil (kind : Kind) (mode : Mode) (offset : Nat) :
    kind.readLine mode offset [] = (mode, none) := by
  cases kind <;> cases mode <;> rfl

@[simp]
theorem readLines_empty (kind : Kind) (mode : Mode) (offset : Nat)
    (ending : List Char) :
    kind.readLines mode offset [⟨[], ending⟩] = [] := by
  simp [readLines]

/-- With a `\n` behind it a text has lines that no later text changes, and the
automaton emits the same regions in them as in the text itself. -/
theorem exists_lines_before_newline (kind : Kind) {text : List Char}
    {lines : List TextLine} (consists : Consists text lines) :
    ∃ front,
      (∀ {rest later}, Consists rest later →
        Consists (text ++ '\n' :: rest) (front ++ later)) ∧
      ∀ mode offset, kind.readLines mode offset front =
        kind.readLines mode offset lines := by
  induction consists with
  | @last content unbroken =>
      refine ⟨[⟨content, ['\n']⟩], fun {rest later} others => ?_, ?_⟩
      · exact .cons unbroken (.newline rest) (by simp) others
      · intro mode offset
        rfl
  | @cons content ending rest lines unbroken ends nonempty later ih =>
      by_cases joins : ending = ['\r'] ∧ rest = []
      · -- The lone `\r` at the end of the text and the `\n` are one line break.
        obtain ⟨rfl, rfl⟩ := joins
        obtain rfl := later.eq_textLines
        refine ⟨[⟨content, ['\r', '\n']⟩], fun {rest later} others => ?_, ?_⟩
        · simpa using
            Consists.cons unbroken (.pair rest) (by simp) others
        · intro mode offset
          simp [readLines, textLines]
      · obtain ⟨front, extends_, emits⟩ := ih
        refine ⟨⟨content, ending⟩ :: front, fun {rest' later'} others => ?_, ?_⟩
        · have ends' : Ending ending (rest ++ '\n' :: rest') := by
            cases ends with
            | text => exact absurd rfl nonempty
            | newline => exact .newline _
            | pair => exact .pair _
            | carriageReturn alone =>
                have nonempty' : rest ≠ [] := by simpa using joins
                refine .carriageReturn ?_
                rwa [List.head?_append_of_ne_nil _ nonempty']
          simpa using Consists.cons unbroken ends' nonempty (extends_ others)
        · intro mode offset
          simp only [readLines, emits]

end Kind

/-! ## Signatures left open -/

/-- Where the last of some regions ends. -/
def lastStop (found : List Region) : Nat :=
  (found.getLast?.map Region.stop).getD 0

/-- A region ends with the content of the line that it is emitted for. -/
theorem Kind.stop_of_readLine {kind : Kind} {mode : Mode} {offset : Nat}
    {content : List Char} {region : Region}
    (emitted : (kind.readLine mode offset content).2 = some region) :
    region.stop = offset + utf8Width content := by
  cases mode with
  | idle =>
      simp only [readLine] at emitted
      split at emitted
      · simp at emitted
      · split at emitted
        · rw [← Option.some.inj emitted]
        · simp at emitted
  | inside start =>
      simp only [readLine] at emitted
      split at emitted
      · rw [← Option.some.inj emitted]
      · simp at emitted

/-- A signature that is open behind some lines was open before them and they
end no region, or one of them opens it behind all regions that they end. -/
theorem Kind.opener_of_modeBehind (kind : Kind) {mode : Mode}
    {offset start : Nat} {lines : List TextLine}
    (isOpen : kind.modeBehind mode offset lines = .inside start) :
    (mode = .inside start ∧ kind.readLines mode offset lines = []) ∨
      ∃ line, (start, line) ∈ placedLines offset lines ∧
        kind.opener? line.content ≠ none ∧
        ∀ region ∈ kind.readLines mode offset lines,
          region.stop ≤ start := by
  induction lines generalizing mode offset with
  | nil => exact .inl ⟨isOpen, rfl⟩
  | cons line lines ih =>
      rcases ih isOpen with ⟨openBefore, nothing⟩ | ⟨opener, member, opens, ended⟩
      · cases mode with
        | idle =>
            right
            have opened : kind.opener? line.content ≠ none ∧ offset = start ∧
                (kind.readLine .idle offset line.content).2 = none := by
              simp only [readLine] at openBefore ⊢
              split at openBefore
              · simp at openBefore
              · split at openBefore
                · simp at openBefore
                · simp_all
            obtain ⟨opens, rfl, emitsNone⟩ := opened
            exact ⟨line, List.mem_cons_self, opens, by
              simp [readLines, emitsNone, nothing]⟩
        | inside start' =>
            left
            simp only [readLine] at openBefore
            split at openBefore
            · simp at openBefore
            · rename_i noCloser
              refine ⟨openBefore, ?_⟩
              simpa [readLines, readLine, noCloser] using nothing
      · have behindLine := le_of_mem_placedLines member
        refine .inr ⟨opener, List.mem_cons_of_mem _ member, opens, ?_⟩
        intro region emitted
        rcases List.mem_append.mp emitted with here | later
        · have := stop_of_readLine (Option.mem_toList.mp here)
          omega
        · exact ended region later

theorem Kind.modeBehind_eq_idle (kind : Kind) {offset : Nat}
    {lines : List TextLine}
    (noOpener : ∀ placed ∈ placedLines offset lines,
      lastStop (kind.readLines .idle offset lines) ≤ placed.1 →
      kind.opener? placed.2.content = none) :
    kind.modeBehind .idle offset lines = .idle := by
  cases reached : kind.modeBehind .idle offset lines with
  | idle => rfl
  | inside start =>
      rcases kind.opener_of_modeBehind reached with
        ⟨isInside, -⟩ | ⟨line, member, opens, ended⟩
      · simp at isInside
      · refine absurd (noOpener _ member ?_) opens
        cases last : (kind.readLines .idle offset lines).getLast? with
        | none => simp [lastStop, last]
        | some region =>
            simpa [lastStop, last] using
              ended region (List.mem_of_getLast? last)

/-! ## Moving regions -/

/-- The same region with other text of the given width in front of it. -/
def Region.shift (distance : Nat) (region : Region) : Region :=
  { region with
    start := distance + region.start
    stop := distance + region.stop }

def Mode.shift (distance : Nat) : Mode → Mode
  | .idle => .idle
  | .inside start => .inside (distance + start)

theorem Kind.readLine_shift (kind : Kind) (distance : Nat) (mode : Mode)
    (offset : Nat) (content : List Char) :
    kind.readLine (mode.shift distance) (distance + offset) content =
      ((kind.readLine mode offset content).1.shift distance,
        (kind.readLine mode offset content).2.map
          (Region.shift distance)) := by
  cases mode with
  | idle =>
      simp only [readLine, Mode.shift]
      split
      · rfl
      · split <;> simp [Region.shift, Nat.add_assoc]
  | inside start =>
      simp only [readLine, Mode.shift]
      split <;> simp [Region.shift, Nat.add_assoc]

theorem Kind.readLines_shift (kind : Kind) (distance : Nat) (mode : Mode)
    (offset : Nat) (lines : List TextLine) :
    kind.readLines (mode.shift distance) (distance + offset) lines =
      (kind.readLines mode offset lines).map (Region.shift distance) := by
  induction lines generalizing mode offset with
  | nil => rfl
  | cons line lines ih =>
      simp only [readLines, readLine_shift, Nat.add_assoc, ih,
        List.map_append, Option.toList_map]

/-- A region starts and ends between two characters of the text. -/
theorem Kind.isCut_of_mem_regionsFrom (kind : Kind)
    {resume : Nat} {before after : List Char} {region : Region}
    (member :
      region ∈ kind.regionsFrom resume (utf8Width before) before after) :
    IsCut (before.reverse ++ after) region.start ∧
      IsCut (before.reverse ++ after) region.stop := by
  induction after generalizing resume before with
  | nil => cases member
  | cons character rest ih =>
      have later {resume : Nat}
          (member : region ∈ kind.regionsFrom resume
            (utf8Width before + character.utf8Size) (character :: before)
            rest) :
          IsCut (before.reverse ++ character :: rest) region.start ∧
            IsCut (before.reverse ++ character :: rest) region.stop := by
        have width : utf8Width before + character.utf8Size =
            utf8Width (character :: before) := by
          rw [utf8Width, Nat.add_comm]
        rw [width] at member
        simpa using ih member
      simp only [regionsFrom] at member
      split at member
      · split at member
        · rename_i stop found
          rcases List.mem_cons.mp member with rfl | member
          · obtain ⟨word, -, reads⟩ := (occurs_of_match? found).reads
            have here : Place.LiesIn ⟨before, character :: rest⟩
                (before.reverse ++ character :: rest) :=
              rfl
            have lies := here.reads reads
            exact ⟨⟨before.reverse, _, rfl, utf8Width_reverse _⟩,
              stop.before.reverse, stop.after, lies.symm,
              utf8Width_reverse _⟩
          · exact later member
        · exact later member
      · exact later member

/-! ## Ranges below other text -/

end Signature

/-- Behind a `\n` nothing of what stands before it is on the last line. -/
theorem lastLine_newline_append (front back : List Char) :
    lastLine (front ++ '\n' :: back) = lastLine back := by
  rw [lastLine, lastLine, List.rtakeWhile, List.rtakeWhile,
    List.reverse_append, List.reverse_cons, List.append_assoc,
    List.takeWhile_append]
  split
  · rename_i whole
    have same := (List.takeWhile_prefix _).eq_of_length whole
    rw [same]
    simp
  · rfl

/-- A position in a text, seen with more lines above. -/
structure Position.IsBelow (lines : Nat) (lower upper : Position) : Prop where
  line : lower.line.toNat = upper.line.toNat + lines
  character : lower.character = upper.character

structure Range.IsBelow (lines : Nat) (lower upper : Range) : Prop where
  start : lower.start.IsBelow lines upper.start
  stop : lower.stop.IsBelow lines upper.stop

/-- A place keeps its column below a text that ends with a line break. -/
theorem LineIndex.position_isBelow {front back : String} {offset : Nat}
    (ends : front.toList.getLast? = some '\n')
    (isCut : IsCut back.toList offset)
    (small : utf8Width (front ++ back).toList < 2 ^ 32) :
    Position.IsBelow (front.toList.count '\n')
      ((ofText (front ++ back)).position (utf8Width front.toList + offset))
      ((ofText back).position offset) := by
  obtain ⟨above, rest, cut, rfl⟩ := isCut
  have joined : (front ++ back).toList =
      (front.toList ++ above) ++ rest := by
    rw [String.toList_append, cut, List.append_assoc]
  have column : lastLine (front.toList ++ above) = lastLine above := by
    obtain ⟨lines, ended⟩ := List.getLast?_eq_some_iff.mp ends
    rw [ended, List.append_assoc, List.singleton_append,
      lastLine_newline_append]
  rw [← utf8Width_append, position_of_cut joined, position_of_cut cut]
  refine ⟨?_, by simp only [endPosition, column]⟩
  have length := length_le_utf8Width (front ++ back).toList
  have counted := List.count_le_length
    (a := '\n') (l := (front ++ back).toList)
  rw [joined, List.count_append, List.count_append] at counted
  rw [joined] at length small
  simp only [endPosition, UInt32.toNat_ofNat', List.count_append]
  rw [Nat.mod_eq_of_lt (by omega), Nat.mod_eq_of_lt (by omega)]
  omega

namespace Signature

section Composition

variable (kind : Kind)

theorem regions_isPrefix (first second : String) :
    regions kind first <+: regions kind (first ++ "\n" ++ second) := by
  obtain ⟨lines, extends_, emits⟩ :=
    kind.exists_lines_before_newline (consists_textLines first.toList)
  have whole : Consists (first ++ "\n" ++ second).toList
      (lines ++ textLines second.toList) := by
    simpa using extends_ (consists_textLines second.toList)
  rw [regions_eq_of_consists kind (consists_textLines first.toList),
    regions_eq_of_consists kind whole, Kind.readLines_append, emits]
  exact List.prefix_append _ _

theorem regions_append {front back : String}
    (ends : front.toList.getLast? = some '\n')
    (noOpener : ∀ placed ∈ placedLines 0 (textLines front.toList),
      lastStop (regions kind front) ≤ placed.1 →
      kind.opener? placed.2.content = none) :
    regions kind (front ++ back) = regions kind front ++
      (regions kind back).map (Region.shift (utf8Width front.toList)) := by
  obtain ⟨text, ended⟩ := List.getLast?_eq_some_iff.mp ends
  obtain ⟨lines, extends_, -⟩ :=
    kind.exists_lines_before_newline (consists_textLines text)
  have frontLines : Consists front.toList (lines ++ textLines []) := by
    rw [ended]
    exact extends_ (consists_textLines [])
  have joinedLines : Consists (front ++ back).toList
      (lines ++ textLines back.toList) := by
    simpa [ended] using extends_ (consists_textLines back.toList)
  have width : linesWidth lines = utf8Width front.toList := by
    simpa [textLines, utf8Width] using frontLines.linesWidth_eq
  have frontRegions : regions kind front = kind.readLines .idle 0 lines := by
    rw [regions_eq_of_consists kind frontLines, Kind.readLines_append]
    simp [textLines]
  have idle : kind.modeBehind .idle 0 lines = .idle := by
    apply kind.modeBehind_eq_idle
    intro placed member
    rw [← frontRegions]
    apply noOpener placed
    rw [← frontLines.eq_textLines, placedLines_append]
    exact List.mem_append_left _ member
  rw [regions_eq_of_consists kind joinedLines, Kind.readLines_append,
    ← frontRegions, idle, width, Nat.zero_add,
    regions_eq_of_consists kind (consists_textLines back.toList)]
  exact congrArg _
    (kind.readLines_shift (utf8Width front.toList) .idle 0 _)

theorem range_isBelow {front back : String} {region : Region}
    (ends : front.toList.getLast? = some '\n')
    (small : utf8Width (front ++ back).toList < 2 ^ 32)
    (member : region ∈ regions kind back) :
    Range.IsBelow (front.toList.count '\n')
      (Region.range (front ++ back) (region.shift (utf8Width front.toList)))
      (Region.range back region) := by
  have member' :
      region ∈ kind.regionsFrom 0 (utf8Width []) [] back.toList :=
    member
  obtain ⟨start, stop⟩ := kind.isCut_of_mem_regionsFrom member'
  exact ⟨LineIndex.position_isBelow ends start small,
    LineIndex.position_isBelow ends stop small⟩

/-- What is found in a text stays as it is when lines are added behind it.
When a text is put behind whole lines that leave no signature open, the
regions of both parts are found, the later ones moved by the width of the
lines and, in the editor, down by their number. -/
theorem regions_composed :
    (∀ first second : String,
      regions kind first <+: regions kind (first ++ "\n" ++ second)) ∧
    ∀ front back : String, front.toList.getLast? = some '\n' →
      (∀ placed ∈ placedLines 0 (textLines front.toList),
        lastStop (regions kind front) ≤ placed.1 →
        kind.opener? placed.2.content = none) →
      regions kind (front ++ back) = regions kind front ++
        (regions kind back).map (Region.shift (utf8Width front.toList)) ∧
      (utf8Width (front ++ back).toList < 2 ^ 32 →
        ∀ region ∈ regions kind back,
          Range.IsBelow (front.toList.count '\n')
            (Region.range (front ++ back)
              (region.shift (utf8Width front.toList)))
            (Region.range back region)) :=
  ⟨regions_isPrefix kind, fun _ _ ends noOpener =>
    ⟨regions_append kind ends noOpener, fun small _ member =>
      range_isBelow kind ends small member⟩⟩

end Composition

/-- The first part ends with a closed block and a closing too many, and the
second begins with one. -/
theorem regions_composed_closed :
    let front := "é\r\nsig do\n void\rend\nend\n"
    let back := "end\nsig do\n  é\nend\n"
    front.toList.getLast? = some '\n' ∧
      lastStop (regions .block front) = 20 ∧
      regions .block (front ++ back) = [⟨.block, 4, 20⟩, ⟨.block, 29, 44⟩] ∧
      regions .block (front ++ back) = regions .block front ++
        (regions .block back).map (Region.shift 25) ∧
      Range.IsBelow 4 (Region.range (front ++ back) ⟨.block, 29, 44⟩)
        (Region.range back ⟨.block, 4, 19⟩) := by
  have closed := (regions_composed .block).2
    "é\r\nsig do\n void\rend\nend\n" "end\nsig do\n  é\nend\n"
    (by decide +kernel) (by decide +kernel)
  have below := closed.2 (by decide +kernel) ⟨.block, 4, 19⟩
    (by decide +kernel)
  exact ⟨by decide +kernel, by decide +kernel, by decide +kernel, closed.1,
    below⟩

end Signature

end SignatureVeil
