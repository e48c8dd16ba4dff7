import Mathlib.Order.Bounds.Basic
import SignatureVeil.LineIndex
import SignatureVeil.Proofs.Text.Places

/-!
# Boundaries of characters

A text is a list of characters, and its offsets count bytes.  A byte offset is
a boundary if the text can be cut there between two characters.  Reading the
bytes tells the boundaries: a byte begins a character, and is no later byte of
one, exactly at a boundary before the end.
-/

namespace SignatureVeil

@[simp]
theorem utf8Bytes_cons (character : Char) (rest : List Char) :
    utf8Bytes (character :: rest) =
      String.utf8EncodeChar character ++ utf8Bytes rest :=
  rfl

theorem utf8Bytes_append (front back : List Char) :
    utf8Bytes (front ++ back) = utf8Bytes front ++ utf8Bytes back := by
  simp [utf8Bytes]

@[simp]
theorem length_utf8Bytes (text : List Char) :
    (utf8Bytes text).length = utf8Width text := by
  induction text with
  | nil => rfl
  | cons character rest ih => simp [utf8Width, ih]

/-- The text can be cut between two characters at a byte offset. -/
def IsCut (text : List Char) (offset : Nat) : Prop :=
  ∃ front back, text = front ++ back ∧ utf8Width front = offset

theorem isCut_zero (text : List Char) : IsCut text 0 :=
  ⟨[], text, rfl, rfl⟩

theorem isCut_nil_iff {offset : Nat} : IsCut [] offset ↔ offset = 0 := by
  constructor
  · rintro ⟨front, back, textEq, rfl⟩
    obtain ⟨rfl, -⟩ := List.append_eq_nil_iff.mp textEq.symm
    rfl
  · rintro rfl
    exact isCut_zero []

theorem isCut_cons_iff {character : Char} {rest : List Char} {offset : Nat} :
    IsCut (character :: rest) offset ↔
      offset = 0 ∨ ∃ later, IsCut rest later ∧
        offset = character.utf8Size + later := by
  constructor
  · rintro ⟨front, back, textEq, rfl⟩
    cases front with
    | nil => exact .inl rfl
    | cons initial front =>
        obtain ⟨rfl, rfl⟩ := List.cons.inj textEq
        exact .inr ⟨_, ⟨front, back, rfl, rfl⟩, rfl⟩
  · rintro (rfl | ⟨later, ⟨front, back, rfl, rfl⟩, rfl⟩)
    · exact isCut_zero _
    · exact ⟨character :: front, back, rfl, rfl⟩

/-- The bytes of a character past its first one begin no character. -/
theorem isBoundary_cons_of_lt {character : Char} {rest : List Char}
    {offset : Nat} (inside : offset < character.utf8Size) :
    isBoundary (utf8Bytes (character :: rest)) offset =
      decide (offset = 0) := by
  have bound : offset < (String.utf8EncodeChar character).length := by
    simpa using inside
  rw [isBoundary, utf8Bytes_cons, List.getElem?_append_left bound,
    List.getElem?_eq_getElem bound]
  simp only [UInt8.isUTF8FirstByte_getElem_utf8EncodeChar]

theorem isBoundary_cons_add (character : Char) (rest : List Char)
    (later : Nat) :
    isBoundary (utf8Bytes (character :: rest)) (character.utf8Size + later) =
      isBoundary (utf8Bytes rest) later := by
  have here : (utf8Bytes (character :: rest))[character.utf8Size + later]? =
      (utf8Bytes rest)[later]? := by
    rw [utf8Bytes_cons, List.getElem?_append_right (by simp)]
    simp
  rw [isBoundary, isBoundary, here]
  simp

theorem isBoundary_iff {text : List Char} {offset : Nat} :
    isBoundary (utf8Bytes text) offset = true ↔ IsCut text offset := by
  induction text generalizing offset with
  | nil =>
      rw [isCut_nil_iff]
      exact decide_eq_true_iff
  | cons character rest ih =>
      rw [isCut_cons_iff]
      by_cases inside : offset < character.utf8Size
      · rw [isBoundary_cons_of_lt inside, decide_eq_true_eq]
        constructor
        · exact .inl
        · rintro (atStart | ⟨later, -, beyond⟩)
          · exact atStart
          · omega
      · obtain ⟨later, rfl⟩ := Nat.exists_eq_add_of_le (Nat.not_lt.mp inside)
        have := character.utf8Size_pos
        rw [isBoundary_cons_add, ih]
        constructor
        · intro cut
          exact .inr ⟨later, cut, rfl⟩
        · rintro (atStart | ⟨later', cut, same⟩)
          · omega
          · obtain rfl : later = later' := by omega
            exact cut

/-- Going back byte by byte ends at the last boundary, and never goes below
the start of the text. -/
theorem snapBack_spec (text : List Char) (offset : Nat) :
    ∃ boundary, snapBack (utf8Bytes text) offset = .ok boundary ∧
      IsGreatest {cut | IsCut text cut ∧ cut ≤ offset} boundary := by
  induction offset with
  | zero =>
      have atStart := isBoundary_iff.mpr (isCut_zero text)
      refine ⟨0, by rw [snapBack, if_pos atStart],
        ⟨isCut_zero text, Nat.le_refl _⟩, ?_⟩
      exact fun cut ⟨_, bound⟩ => bound
  | succ offset ih =>
      by_cases here : isBoundary (utf8Bytes text) (offset + 1) = true
      · refine ⟨offset + 1, by rw [snapBack, if_pos here],
          ⟨isBoundary_iff.mp here, Nat.le_refl _⟩, ?_⟩
        exact fun cut ⟨_, bound⟩ => bound
      · obtain ⟨boundary, found, ⟨isCut, bound⟩, greatest⟩ := ih
        refine ⟨boundary, by rw [snapBack, if_neg here, found],
          ⟨isCut, Nat.le_succ_of_le bound⟩, ?_⟩
        rintro cut ⟨cutIsCut, cutBound⟩
        have elsewhere : cut ≠ offset + 1 := by
          rintro rfl
          exact here (isBoundary_iff.mpr cutIsCut)
        exact greatest ⟨cutIsCut, by omega⟩

/-! ## Slices -/

theorem cut?_append (front back : List Char) :
    cut? (utf8Width front) (front ++ back) = some (front, back) := by
  induction front with
  | nil => cases back <;> simp [cut?, utf8Width]
  | cons character front ih =>
      have := character.utf8Size_pos
      have notYet : utf8Width (character :: front) ≠ 0 := by
        simp only [utf8Width]
        omega
      have fits : character.utf8Size ≤ utf8Width (character :: front) :=
        Nat.le_add_right _ _
      have left : utf8Width (character :: front) - character.utf8Size =
          utf8Width front :=
        Nat.add_sub_cancel_left _ _
      rw [List.cons_append, cut?, if_neg notYet, if_pos fits, left, ih]
      rfl

theorem slice_append (front between back : List Char) :
    Checked.slice (front ++ (between ++ back)) (utf8Width front)
      (utf8Width (front ++ between)) = .ok between := by
  have inOrder : utf8Width front ≤ utf8Width (front ++ between) := by
    rw [utf8Width_append]
    omega
  have width : utf8Width (front ++ between) - utf8Width front =
      utf8Width between := by
    rw [utf8Width_append]
    omega
  simp only [Checked.slice, if_pos inOrder, cut?_append, Option.bind_some,
    width]

end SignatureVeil
