import Mathlib.Data.List.Basic
import Mathlib.Data.List.TakeWhile
import SignatureVeil.Storage.PathText

/-!
# Parts of paths

A path is the parts between its slashes, and can be put together from them.
The path to the directory of an entry is the beginning of the path to the
entry, up to parts that stay where they are.
-/

namespace SignatureVeil

namespace PathText

variable {path : PathText} {parts above : List String} {name : String}

/-! ## Splitting and joining -/

theorem slash_notMem_splitOn (text : List Char) :
    ∀ part ∈ text.splitOn '/', '/' ∉ part := by
  induction text with
  | nil => simp
  | cons character rest ih =>
      rw [List.splitOn_cons_eq_if_modifyHead]
      split
      · rw [List.forall_mem_cons]
        exact ⟨by simp, ih⟩
      · rename_i different
        cases split : rest.splitOn '/' with
        | nil => exact absurd split (List.splitOn_ne_nil _ _)
        | cons first later =>
            rw [split, List.forall_mem_cons] at ih
            rw [List.modifyHead_cons, List.forall_mem_cons]
            refine ⟨?_, ih.2⟩
            rw [List.mem_cons, not_or]
            exact ⟨fun same => different (by simpa using same.symm), ih.1⟩

theorem slash_notMem_of_mem_parts {part : String} (member : part ∈ path.parts) :
    '/' ∉ part.toList := by
  obtain ⟨characters, listed, rfl⟩ := List.mem_map.mp member
  simpa using slash_notMem_splitOn _ _ listed

theorem parts_ne_nil : path.parts ≠ [] := by
  simp [PathText.parts]

theorem toList_ofParts (parts : List String) :
    (ofParts parts).toList = ['/'].intercalate (parts.map String.toList) := by
  simp [ofParts, String.toList_intercalate]

theorem parts_ofParts (nonempty : parts ≠ [])
    (unbroken : ∀ part ∈ parts, '/' ∉ part.toList) :
    (ofParts parts).parts = parts := by
  rw [PathText.parts, toList_ofParts, List.splitOn_intercalate _ _ (by simpa)]
  · simp
  · simpa using unbroken

theorem ofParts_parts (path : PathText) : ofParts path.parts = path := by
  apply String.toList_injective
  rw [toList_ofParts, PathText.parts, List.map_map]
  have same : String.toList ∘ String.ofList = id := by
    funext characters
    simp
  rw [same, List.map_id, List.intercalate_splitOn]

/-- What stands before some of the parts of a path. -/
theorem exists_eq_append {below : List String} (nonempty : above ≠ [])
    (split : path.parts = above ++ below) :
    ∃ rest : String, path = ofParts above ++ rest := by
  rw [← ofParts_parts path, split]
  cases below with
  | nil => exact ⟨"", by simp⟩
  | cons first below =>
      refine ⟨"/" ++ ofParts (first :: below), ?_⟩
      rw [ofParts, String.intercalate_append_of_ne_nil nonempty (by simp),
        String.append_assoc]
      rfl

theorem isUsable_ofParts {below : List String} (usable : path.isUsable = true)
    (nonempty : ofParts above ≠ "") (split : path.parts = above ++ below) :
    (ofParts above).isUsable = true := by
  have someParts : above ≠ [] := by
    rintro rfl
    simp [ofParts] at nonempty
  obtain ⟨rest, longer⟩ := exists_eq_append someParts split
  simp only [isUsable, Bool.and_eq_true, Bool.not_eq_true',
    decide_eq_true_eq, List.contains_eq_mem, decide_eq_false_iff_not,
    String.isEmpty_eq_false_iff] at usable ⊢
  obtain ⟨⟨-, short⟩, noZero⟩ := usable
  rw [longer, String.utf8ByteSize_append] at short
  rw [longer, String.toList_append, List.mem_append, not_or] at noZero
  exact ⟨⟨nonempty, by omega⟩, noZero.1⟩

/-! ## Trimming -/

theorem exists_append_trimEnd (parts : List String) :
    ∃ stays, parts = trimEnd parts ++ stays ∧
      ∀ part ∈ stays, PathStep.ofPart part = .stay := by
  refine ⟨(parts.reverse.takeWhile
    fun part => PathStep.ofPart part = .stay).reverse, ?_, ?_⟩
  · rw [trimEnd, trimStart, ← List.reverse_append, List.takeWhile_append_dropWhile,
      List.reverse_reverse]
  · intro part member
    have stays := List.mem_takeWhile_imp (List.mem_reverse.mp member)
    simpa using stays

theorem moves_of_trimEnd {front : List String} {last : String}
    (trimmed : trimEnd parts = front ++ [last]) :
    PathStep.ofPart last ≠ .stay := by
  have reversed : trimStart parts.reverse = last :: front.reverse := by
    rw [← List.reverse_reverse (trimStart _)]
    change (trimEnd parts).reverse = _
    simp [trimmed]
  have head := List.head?_dropWhile_not
    (fun part => decide (PathStep.ofPart part = .stay)) parts.reverse
  rw [trimStart] at reversed
  simpa [reversed] using head

theorem trimEnd_concat (moves : PathStep.ofPart name ≠ .stay) :
    trimEnd (above ++ [name]) = above ++ [name] := by
  simp [trimEnd, trimStart, moves]

/-! ## The directory of an entry -/

theorem lastStep_ne_stay {front : List String} {last : String}
    (split : path.parts = front ++ [last])
    (moves : PathStep.ofPart last ≠ .stay) : path.lastStep ≠ .stay := by
  have nonempty : last.isEmpty = false := by
    rw [String.isEmpty_eq_false_iff]
    rintro rfl
    exact moves rfl
  simpa [lastStep, split, nonempty] using moves

/-- The beginning of a path, up to parts that stay where they are, is a path
of its own. -/
theorem ofParts_trimEnd {below : List String} (usable : path.isUsable = true)
    (split : path.parts = above ++ below) (nonempty : trimEnd above ≠ []) :
    (ofParts (trimEnd above)).parts = trimEnd above ∧
      (ofParts (trimEnd above)).lastStep ≠ .stay ∧
      (ofParts (trimEnd above)).isUsable = true := by
  obtain ⟨stays, trimmed, -⟩ := exists_append_trimEnd above
  have parts : (ofParts (trimEnd above)).parts = trimEnd above := by
    apply parts_ofParts nonempty
    intro part member
    have listed : part ∈ path.parts := by
      rw [split, trimmed]
      simp [member]
    exact slash_notMem_of_mem_parts listed
  obtain ⟨front, last, ends⟩ :=
    (List.eq_nil_or_concat' (trimEnd above)).resolve_left nonempty
  have moves : (ofParts (trimEnd above)).lastStep ≠ .stay :=
    lastStep_ne_stay (parts.trans ends) (moves_of_trimEnd ends)
  have split' : path.parts = trimEnd above ++ (stays ++ below) := by
    rw [split, ← List.append_assoc, ← trimmed]
  refine ⟨parts, moves, isUsable_ofParts usable ?_ split'⟩
  intro empty
  rw [empty] at moves
  exact moves rfl

/-- The path to the directory of an entry. -/
theorem parent?_eq (split : path.parts = above ++ [name])
    (moves : PathStep.ofPart name ≠ .stay) :
    path.parent? = some (if trimEnd above = [] then "." else
      ofParts (trimEnd above)) := by
  rw [parent?, split, trimEnd_concat moves]
  split
  · simp_all
  · rw [List.dropLast_concat]
    split <;> simp_all

end PathText

end SignatureVeil
