import SignatureVeil.Document
import SignatureVeil.Proofs.Position.Locating
import SignatureVeil.Proofs.Signature.LineAutomaton

/-!
# Line breaks of either kind

Two texts whose lines have the same contents may break them by `\n` or `\r\n`,
line by line as they like.  The line automaton then goes through the same
modes in both, at other byte offsets but at the same positions of the editor,
so the signatures have the same ranges and the same blocks may be folded.
-/

namespace SignatureVeil

namespace LineIndex

/-- The position of a place between two characters is found by counting. -/
theorem position_of_cut {text : String} {front back : List Char}
    (cut : text.toList = front ++ back) :
    (ofText text).position (utf8Width front) = endPosition front := by
  obtain ⟨front', back', cut', greatest, position⟩ :=
    position_isPositionAt text (utf8Width front)
  have isCut : IsCut text.toList (utf8Width front) := ⟨front, back, cut, rfl⟩
  have width : utf8Width front ≤ utf8Width text.toList := by
    rw [cut, utf8Width_append]
    omega
  have same : utf8Width front' = utf8Width front := by
    apply Nat.le_antisymm
    · exact greatest.1.2.trans (Nat.min_le_left _ _)
    · exact greatest.2 ⟨isCut, by omega⟩
  rw [position, (append_inj_of_utf8Width (cut'.symm.trans cut) same).1]

end LineIndex

/-! ## Counting line by line -/

theorem lastLine_append_of_notMem {front content : List Char}
    (inLine : '\n' ∉ content) :
    lastLine (front ++ content) = lastLine front ++ content := by
  have goesOn : ∀ character ∈ content.reverse,
      decide (character ≠ '\n') = true := by
    intro character member
    rw [decide_eq_true_eq]
    rintro rfl
    exact inLine (List.mem_reverse.mp member)
  rw [lastLine, List.rtakeWhile, List.reverse_append,
    List.takeWhile_append_of_pos goesOn, List.reverse_append,
    List.reverse_reverse]
  rfl

theorem lastLine_append {front content : List Char}
    (unbroken : Unbroken content) :
    lastLine (front ++ content) = lastLine front ++ content :=
  lastLine_append_of_notMem fun member => unbroken '\n' member (.inl rfl)

theorem count_newline_of_unbroken {content : List Char}
    (unbroken : Unbroken content) : content.count '\n' = 0 :=
  List.count_eq_zero.mpr fun member => unbroken '\n' member (.inl rfl)

/-- A line break that is no lone `\r`. -/
theorem Ending.eq_of_plain {ending rest : List Char}
    (ends : Ending ending rest) (nonempty : ending ≠ [])
    (plain : ending ≠ ['\r']) : ending = ['\n'] ∨ ending = ['\r', '\n'] := by
  cases ends <;> simp_all

/-- A line starts behind both of two texts, and as many lines have been broken
before it. -/
structure Level (front front' : List Char) : Prop where
  count : front.count '\n' = front'.count '\n'
  start : lastLine front = []
  start' : lastLine front' = []

namespace Level

variable {front front' content ending ending' : List Char}

theorem endPosition_eq (level : Level front front')
    (unbroken : Unbroken content) :
    endPosition (front ++ content) = endPosition (front' ++ content) := by
  simp only [endPosition, lastLine_append unbroken, level.start, level.start',
    List.count_append, level.count]

/-- Both lines are broken, in one way or the other. -/
theorem next (level : Level front front') (unbroken : Unbroken content)
    (breaks : ending = ['\n'] ∨ ending = ['\r', '\n'])
    (breaks' : ending' = ['\n'] ∨ ending' = ['\r', '\n']) :
    Level (front ++ (content ++ ending)) (front' ++ (content ++ ending')) := by
  have behind (before : List Char) {ending : List Char}
      (breaks : ending = ['\n'] ∨ ending = ['\r', '\n']) :
      lastLine (before ++ (content ++ ending)) = [] ∧
        (before ++ (content ++ ending)).count '\n' =
          before.count '\n' + 1 := by
    have count := count_newline_of_unbroken unbroken
    rcases breaks with rfl | rfl <;>
      simp [lastLine, List.rtakeWhile, count]
  have first := behind front breaks
  have second := behind front' breaks'
  exact ⟨by rw [first.2, second.2, level.count], first.1, second.1⟩

end Level

namespace Signature

/-! ## Two runs of the automaton -/

section Runs

variable {text text' : String}

def Region.range (text : String) (region : Region) : Range :=
  (LineIndex.ofText text).range region.start region.stop

/-- The automaton is idle in both runs, or inside signatures that start at the
same position. -/
inductive Mode.Alike (text text' : String) : Mode → Mode → Prop where
  | idle : Alike text text' .idle .idle
  | inside {start start' : Nat}
      (same : (LineIndex.ofText text).position start =
        (LineIndex.ofText text').position start') :
      Alike text text' (.inside start) (.inside start')

theorem Kind.readLine_alike (kind : Kind) {mode mode' : Mode}
    {offset offset' : Nat} {content : List Char}
    (alike : Mode.Alike text text' mode mode')
    (starts : (LineIndex.ofText text).position offset =
      (LineIndex.ofText text').position offset')
    (stops : (LineIndex.ofText text).position (offset + utf8Width content) =
      (LineIndex.ofText text').position (offset' + utf8Width content)) :
    Mode.Alike text text' (kind.readLine mode offset content).1
        (kind.readLine mode' offset' content).1 ∧
      (kind.readLine mode offset content).2.map (Region.range text) =
        (kind.readLine mode' offset' content).2.map (Region.range text') := by
  cases alike with
  | idle =>
      simp only [readLine]
      split
      · exact ⟨.idle, rfl⟩
      · split
        · exact ⟨.idle, by
            simp [Region.range, LineIndex.range, starts, stops]⟩
        · exact ⟨.inside starts, rfl⟩
  | inside same =>
      simp only [readLine]
      split
      · exact ⟨.idle, by simp [Region.range, LineIndex.range, same, stops]⟩
      · exact ⟨.inside same, rfl⟩

/-- The first line of either text, whatever comes behind it. -/
theorem Kind.readLine_level (kind : Kind) {mode mode' : Mode}
    {front front' content behind behind' : List Char}
    (cut : text.toList = front ++ (content ++ behind))
    (cut' : text'.toList = front' ++ (content ++ behind'))
    (level : Level front front') (unbroken : Unbroken content)
    (alike : Mode.Alike text text' mode mode') :
    Mode.Alike text text' (kind.readLine mode (utf8Width front) content).1
        (kind.readLine mode' (utf8Width front') content).1 ∧
      (kind.readLine mode (utf8Width front) content).2.map
          (Region.range text) =
        (kind.readLine mode' (utf8Width front') content).2.map
          (Region.range text') := by
  apply kind.readLine_alike alike
  · rw [LineIndex.position_of_cut cut, LineIndex.position_of_cut cut']
    have empty : Unbroken [] := by simp [Unbroken]
    simpa using level.endPosition_eq empty
  · rw [← List.append_assoc] at cut cut'
    rw [← utf8Width_append, ← utf8Width_append,
      LineIndex.position_of_cut cut, LineIndex.position_of_cut cut']
    exact level.endPosition_eq unbroken

theorem Kind.readLines_alike (kind : Kind) {mode mode' : Mode}
    {front front' rest rest' : List Char} {lines lines' : List TextLine}
    (consists : Consists rest lines) (consists' : Consists rest' lines')
    (contents : lines.map TextLine.content = lines'.map TextLine.content)
    (plain : ∀ line ∈ lines, line.ending ≠ ['\r'])
    (plain' : ∀ line ∈ lines', line.ending ≠ ['\r'])
    (cut : text.toList = front ++ rest) (cut' : text'.toList = front' ++ rest')
    (level : Level front front') (alike : Mode.Alike text text' mode mode') :
    (kind.readLines mode (utf8Width front) lines).map (Region.range text) =
      (kind.readLines mode' (utf8Width front') lines').map
        (Region.range text') := by
  induction lines generalizing front front' rest rest' lines' mode mode' with
  | nil => cases consists
  | cons line lines ih =>
      cases lines' with
      | nil => simp at contents
      | cons line' lines' =>
          obtain ⟨sameContent, others⟩ := List.cons.inj contents
          cases consists with
          | last unbroken =>
              cases consists' with
              | last =>
                  obtain rfl := sameContent
                  have emitted := (kind.readLine_level
                    (cut.trans (by rw [List.append_nil]))
                    (cut'.trans (by rw [List.append_nil]))
                    level unbroken alike).2
                  simp [readLines, ← Option.toList_map, emitted]
              | cons _ _ _ later =>
                  obtain rfl := List.map_eq_nil_iff.mp others.symm
                  cases later
          | cons unbroken ends nonempty later =>
              cases consists' with
              | last =>
                  obtain rfl := List.map_eq_nil_iff.mp others
                  cases later
              | cons _ ends' nonempty' later' =>
                  obtain rfl := sameContent
                  obtain ⟨nextAlike, emitted⟩ :=
                    kind.readLine_level cut cut' level unbroken alike
                  have nextLevel := level.next unbroken
                    (ends.eq_of_plain nonempty (plain _ List.mem_cons_self))
                    (ends'.eq_of_plain nonempty' (plain' _ List.mem_cons_self))
                  have rest := ih later later' others
                    (fun line member => plain line (.tail _ member))
                    (fun line member => plain' line (.tail _ member))
                    (by simpa using cut) (by simpa using cut') nextLevel
                    nextAlike
                  simp only [readLines, List.map_append, ← Option.toList_map,
                    emitted]
                  simpa only [utf8Width_append, Nat.add_assoc] using
                    congrArg _ rest

end Runs

/-- The ranges of a text, and the blocks in it that may be folded, depend on
the contents of its lines only, and not on whether they are broken by `\n` or
`\r\n`. -/
theorem ranges_eq_of_contents {text text' : String}
    (contents : (textLines text.toList).map TextLine.content =
      (textLines text'.toList).map TextLine.content)
    (plain : ∀ line ∈ textLines text.toList, line.ending ≠ ['\r'])
    (plain' : ∀ line ∈ textLines text'.toList, line.ending ≠ ['\r']) :
    ranges text = ranges text' ∧
      ∀ id id' language language' selections,
        Document.foldTargets ⟨id, language, text, selections⟩ =
          Document.foldTargets ⟨id', language', text', selections⟩ := by
  have same (kind : Kind) : (regions kind text).map (Region.range text) =
      (regions kind text').map (Region.range text') := by
    rw [regions_eq_of_consists kind (consists_textLines text.toList),
      regions_eq_of_consists kind (consists_textLines text'.toList)]
    have start : Level [] [] := ⟨rfl, rfl, rfl⟩
    exact kind.readLines_alike (consists_textLines _) (consists_textLines _)
      contents plain plain' rfl rfl start .idle
  refine ⟨?_, fun id id' language language' selections => ?_⟩
  · exact congrArg Kind.all.flatMap (funext same)
  · have blocks := same .block
    let cursorLine := (selections.headD .origin).active.line
    exact congrArg (fun blocks : List Range =>
      (blocks.filter fun block => !block.containsLine cursorLine).map
        fun block => Selection.caret ⟨block.start.line, 0⟩) blocks

/-- A block and an inline signature with breaks of both kinds, once the other
way round. -/
theorem ranges_eq_of_contents_mixed :
    let text := "é\nsig do\r\n  void\n end \r\nsig \x7b x \x7d\n"
    let text' := "é\r\nsig do\n  void\r\n end \nsig \x7b x \x7d\r\n"
    (textLines text.toList).map TextLine.content =
        (textLines text'.toList).map TextLine.content ∧
      ranges text = ranges text' ∧
      ranges text = [⟨⟨1, 0⟩, ⟨3, 5⟩⟩, ⟨⟨4, 0⟩, ⟨4, 9⟩⟩] := by
  have contents : (textLines
      "é\nsig do\r\n  void\n end \r\nsig \x7b x \x7d\n".toList).map
        TextLine.content = (textLines
      "é\r\nsig do\n  void\r\n end \nsig \x7b x \x7d\r\n".toList).map
        TextLine.content := by decide +kernel
  refine ⟨contents, (ranges_eq_of_contents contents ?_ ?_).1, ?_⟩ <;>
    decide +kernel

end Signature

end SignatureVeil
