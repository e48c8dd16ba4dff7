import Mathlib.Data.List.DropRight
import SignatureVeil.Proofs.Position.Bisection
import SignatureVeil.Proofs.Position.Boundaries

/-!
# Positions agree with counting

A byte offset stands for the last place between two characters at or before
it.  The position of the offset counts what lies before that place: the `\n`
characters give the line, and the UTF-16 code units behind the last of them
give the column.  The index finds the same position for every text and offset,
and none of its checks ever fails.
-/

namespace SignatureVeil

/-! ## The table of line starts -/

/-- Only `\n` is written with a byte that is ten. -/
theorem newline_mem_utf8EncodeChar {character : Char} :
    10 ∈ String.utf8EncodeChar character ↔ character = '\n' := by
  constructor
  · intro member
    have value : character.val.toNat = 10 := by
      simp only [String.utf8EncodeChar] at member
      split_ifs at member
      all_goals
        simp only [List.mem_cons, List.not_mem_nil, or_false,
          ← UInt8.toNat_inj, UInt8.toNat_ofNat', UInt8.reduceToNat] at member
        omega
    exact Char.ext (UInt32.toNat_inj.mp value)
  · rintro rfl
    decide

theorem lineStartsFrom_append (offset : Nat) (front back : List UInt8) :
    lineStartsFrom offset (front ++ back) =
      lineStartsFrom offset front ++
        lineStartsFrom (offset + front.length) back := by
  induction front generalizing offset with
  | nil => rfl
  | cons byte front ih =>
      have reach : offset + 1 + front.length =
          offset + (byte :: front).length := by
        rw [List.length_cons]
        omega
      simp only [List.cons_append, lineStartsFrom, ih, reach]
      split <;> rfl

theorem lineStartsFrom_eq_nil {offset : Nat} {bytes : List UInt8}
    (unbroken : 10 ∉ bytes) : lineStartsFrom offset bytes = [] := by
  induction bytes generalizing offset with
  | nil => rfl
  | cons byte bytes ih =>
      rw [List.mem_cons, not_or] at unbroken
      rw [lineStartsFrom, if_neg (Ne.symm unbroken.1), ih unbroken.2]

theorem mem_lineStartsFrom {offset start : Nat} {bytes : List UInt8}
    (member : start ∈ lineStartsFrom offset bytes) :
    offset < start ∧ start ≤ offset + bytes.length := by
  induction bytes generalizing offset with
  | nil => simp [lineStartsFrom] at member
  | cons byte bytes ih =>
      rw [lineStartsFrom] at member
      rw [List.length_cons]
      split at member
      · rcases List.mem_cons.mp member with rfl | member
        · omega
        · have := ih member
          omega
      · have := ih member
        omega

theorem length_lineStartsFrom (offset : Nat) (text : List Char) :
    (lineStartsFrom offset (utf8Bytes text)).length = text.count '\n' := by
  induction text generalizing offset with
  | nil => rfl
  | cons character rest ih =>
      rw [utf8Bytes_cons, lineStartsFrom_append, List.length_append, ih]
      by_cases newline : character = '\n'
      · subst newline
        rw [List.count_cons_self, Nat.add_comm]
        rfl
      · have unbroken : 10 ∉ String.utf8EncodeChar character := by
          rwa [newline_mem_utf8EncodeChar]
        rw [lineStartsFrom_eq_nil unbroken, List.count_cons_of_ne newline]
        exact Nat.zero_add _

/-- The line on which a text ends. -/
def lastLine (text : List Char) : List Char :=
  text.rtakeWhile (· ≠ '\n')

/-- The lines of a text up to its last `\n`. -/
def wholeLines (text : List Char) : List Char :=
  text.rdropWhile (· ≠ '\n')

theorem wholeLines_append_lastLine (text : List Char) :
    wholeLines text ++ lastLine text = text :=
  List.rdropWhile_append_rtakeWhile

theorem newline_notMem_lastLine (text : List Char) : '\n' ∉ lastLine text := by
  intro member
  simpa using List.mem_rtakeWhile_imp member

theorem wholeLines_cases (text : List Char) :
    wholeLines text = [] ∨ ∃ lines, wholeLines text = lines ++ ['\n'] := by
  rcases (wholeLines text).eq_nil_or_concat with empty | ⟨lines, last, concat⟩
  · exact .inl empty
  · have nonempty : wholeLines text ≠ [] := by simp [concat]
    have ends : (wholeLines text).getLast nonempty = '\n' := by
      have ends := List.rdropWhile_last_not _ text nonempty
      rwa [decide_eq_true_eq, not_not] at ends
    have lastEq : last = '\n' := by simpa [concat] using ends
    exact .inr ⟨lines, by rw [concat, lastEq, List.concat_eq_append]⟩

theorem count_wholeLines (text : List Char) :
    (wholeLines text).count '\n' = text.count '\n' := by
  have lastCount : (lastLine text).count '\n' = 0 :=
    List.count_eq_zero.mpr (newline_notMem_lastLine text)
  have parts := congrArg (List.count '\n') (wholeLines_append_lastLine text)
  rwa [List.count_append, lastCount, Nat.add_zero] at parts

/-- The last of the lines that start in a text starts behind its last
`\n`. -/
theorem getElem?_lineStarts (text : List Char) :
    (0 :: lineStartsFrom 0 (utf8Bytes text))[text.count '\n']? =
      some (utf8Width (wholeLines text)) := by
  rw [← count_wholeLines]
  rcases wholeLines_cases text with empty | ⟨lines, whole⟩
  · rw [empty]
    rfl
  · have number : (wholeLines text).count '\n' =
        (lineStartsFrom 0 (utf8Bytes lines)).length + 1 := by
      rw [whole, List.count_append, length_lineStartsFrom]
      rfl
    have whole' : lineStartsFrom 0 (utf8Bytes (wholeLines text)) =
        lineStartsFrom 0 (utf8Bytes lines) ++
          [utf8Width (wholeLines text)] := by
      rw [whole, utf8Bytes_append, lineStartsFrom_append, length_utf8Bytes,
        utf8Width_append, Nat.zero_add]
      rfl
    have starts : lineStartsFrom 0 (utf8Bytes text) =
        lineStartsFrom 0 (utf8Bytes lines) ++
          utf8Width (wholeLines text) ::
            lineStartsFrom (0 + (utf8Bytes (wholeLines text)).length)
              (utf8Bytes (lastLine text)) := by
      have parts := lineStartsFrom_append 0 (utf8Bytes (wholeLines text))
        (utf8Bytes (lastLine text))
      rwa [← utf8Bytes_append, wholeLines_append_lastLine, whole',
        List.append_assoc] at parts
    rw [number, List.getElem?_cons_succ, starts,
      List.getElem?_append_right (Nat.le_refl _), Nat.sub_self]
    rfl

/-- The position behind a text, found by counting. -/
def endPosition (text : List Char) : Position :=
  ⟨.ofNat (text.count '\n'), .ofNat (utf16Width (lastLine text))⟩

/-- A position counts what lies before the last cut of a text at or before a
byte offset, where an offset behind the text stands for its end. -/
def IsPositionAt (text : List Char) (offset : Nat) (position : Position) :
    Prop :=
  ∃ front back, text = front ++ back ∧
    IsGreatest {cut | IsCut text cut ∧ cut ≤ min offset (utf8Width text)}
      (utf8Width front) ∧
    position = endPosition front

namespace LineIndex

section Cut

variable {text : String} {front back : List Char}

theorem toList_lineStarts (cut : text.toList = front ++ back) :
    (ofText text).lineStarts.toList =
      (0 :: lineStartsFrom 0 (utf8Bytes front)) ++
        lineStartsFrom (utf8Width front) (utf8Bytes back) := by
  simp only [ofText, cut, utf8Bytes_append, lineStartsFrom_append,
    length_utf8Bytes, Nat.zero_add, List.cons_append]

/-- The lines that start at or before a cut are those of the part in front of
it. -/
theorem splitsAt_lineStarts (cut : text.toList = front ++ back) :
    SplitsAt (· ≤ utf8Width front) (ofText text).lineStarts
      (front.count '\n' + 1) := by
  have starts := toList_lineStarts cut
  have frontCount : (0 :: lineStartsFrom 0 (utf8Bytes front)).length =
      front.count '\n' + 1 := by
    rw [List.length_cons, length_lineStartsFrom]
  constructor
  · rw [← Array.length_toList, starts, List.length_append, frontCount]
    exact Nat.le_add_right _ _
  · intro number start inFront found
    rw [← Array.getElem?_toList, starts,
      List.getElem?_append_left (frontCount ▸ inFront)] at found
    rw [decide_eq_true_eq]
    rcases List.mem_cons.mp (List.mem_of_getElem? found) with rfl | member
    · exact Nat.zero_le _
    · have bounds := mem_lineStartsFrom member
      rw [length_utf8Bytes] at bounds
      omega
  · intro number start behind found
    rw [← Array.getElem?_toList, starts,
      List.getElem?_append_right (frontCount ▸ behind)] at found
    have bounds := mem_lineStartsFrom (List.mem_of_getElem? found)
    simpa using bounds.1

/-- The start of the line on which the part in front of a cut ends. -/
theorem entry_lineStarts (cut : text.toList = front ++ back) :
    Checked.entry (ofText text).lineStarts (front.count '\n') =
      .ok (utf8Width (wholeLines front)) := by
  have inFront :
      front.count '\n' < (0 :: lineStartsFrom 0 (utf8Bytes front)).length := by
    rw [List.length_cons, length_lineStartsFrom]
    exact Nat.lt_succ_self _
  rw [Checked.entry, ← Array.getElem?_toList, toList_lineStarts cut,
    List.getElem?_append_left inFront, getElem?_lineStarts]

theorem locate_eq (cut : text.toList = front ++ back) {offset : Nat}
    (snapped : snapBack (utf8Bytes text.toList)
      (min offset (utf8Width text.toList)) = .ok (utf8Width front)) :
    (ofText text).locate offset = .ok (endPosition front) := by
  have count : partitionPoint (· ≤ utf8Width front) (ofText text).lineStarts =
      front.count '\n' + 1 :=
    partitionPoint_eq (splitsAt_lineStarts cut)
  have column : Checked.slice text.toList (utf8Width (wholeLines front))
      (utf8Width front) = .ok (lastLine front) := by
    have sliced := slice_append (wholeLines front) (lastLine front) back
    rwa [← List.append_assoc, wholeLines_append_lastLine, ← cut] at sliced
  have textEq : (ofText text).text = text.toList := rfl
  simp only [locate, bind, Except.bind, textEq, length_utf8Bytes, snapped,
    count, Checked.pred, entry_lineStarts cut, column]
  rfl

end Cut

theorem exists_locate (text : String) (offset : Nat) :
    ∃ position, IsPositionAt text.toList offset position ∧
      (ofText text).locate offset = .ok position := by
  obtain ⟨boundary, snapped, greatest⟩ :=
    snapBack_spec text.toList (min offset (utf8Width text.toList))
  obtain ⟨front, back, cut, rfl⟩ := greatest.1.1
  exact ⟨endPosition front, ⟨front, back, cut, greatest, rfl⟩,
    locate_eq cut snapped⟩

theorem position_isPositionAt (text : String) (offset : Nat) :
    IsPositionAt text.toList offset ((ofText text).position offset) := by
  obtain ⟨position, isPosition, located⟩ := exists_locate text offset
  rwa [LineIndex.position, located]

theorem lineCount_ofText (text : String) :
    (ofText text).lineCount = 1 + text.toList.count '\n' := by
  have starts : (ofText text).lineStarts.size =
      (lineStartsFrom 0 (utf8Bytes text.toList)).length + 1 :=
    rfl
  rw [lineCount, starts, length_lineStartsFrom, Nat.add_comm]

/-- The index agrees with counting for every text and offset, and no trap ever
stops the search. -/
theorem agrees_with_counting (text : String) :
    (ofText text).lineCount = 1 + text.toList.count '\n' ∧
      (∀ offset, ∃ position, IsPositionAt text.toList offset position ∧
        (ofText text).locate offset = .ok position) ∧
      ∀ start stop,
        IsPositionAt text.toList start ((ofText text).range start stop).start ∧
        IsPositionAt text.toList stop ((ofText text).range start stop).stop :=
  ⟨lineCount_ofText text, exists_locate text, fun start stop =>
    ⟨position_isPositionAt text start, position_isPositionAt text stop⟩⟩

end LineIndex

end SignatureVeil
