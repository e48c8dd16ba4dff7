import SignatureVeil.Proofs.Binary.NarrowReading
import SignatureVeil.Proofs.Json.Numbers

/-!
# Numbers with 32 bits that are written and read again

A number with 32 bits is written with its own shortest digits, but read with
64 bits.  It is the number that is found when the result is narrowed.
-/

namespace SignatureVeil

open BinaryFormat

/-- Scaling by a power of ten that takes one step. -/
def scaleOnce (magnitude : Nat) (power : Int) : Nat :=
  if power < 0 then
    double.divide magnitude (double.powerOfTen (-power).toNat)
  else
    double.multiply magnitude (double.powerOfTen power.toNat)

theorem scaleByTen?_eq_scaleOnce {magnitude : Nat} {power : Int}
    (low : -(largestPower : Int) ≤ power) (high : power ≤ largestPower)
    (finite : scaleOnce magnitude power < double.infinity) :
    double.scaleByTen? magnitude power =
      some (scaleOnce magnitude power) := by
  unfold scaleOnce at finite ⊢
  split at finite
  case isTrue lowers =>
    rw [if_pos lowers, scaleByTen?_of_neg magnitude lowers low]
  case isFalse raises =>
    rw [if_neg raises,
      scaleByTen?_of_nonneg (not_lt.mp raises) high finite]

/-- The spelling of a finite number with 32 bits, without its sign. -/
def singleSpelling (magnitude : Nat) : Spelling :=
  if magnitude = 0 then
    ⟨['0'], some ['0'], none⟩
  else
    FloatLayout.single.spelling (single.shortest magnitude)

theorem writeFinite_single (value : Single) :
    FloatLayout.single.writeFinite value =
      Json.minusSign value.negative ++
        (singleSpelling value.magnitude).text := by
  rw [FloatLayout.writeFinite, FloatLayout.write_eq, singleSpelling,
    Json.minusSign]
  split <;> split <;> simp_all [Spelling.text, Spelling.fractionText,
    Spelling.powerText]

theorem singleSpelling_wellFormed (magnitude : Nat) :
    (singleSpelling magnitude).WellFormed := by
  rw [singleSpelling]
  split
  case isTrue =>
    exact ⟨List.forall_mem_singleton.mpr (by decide), List.cons_ne_nil _ _,
      by simp, by simp⟩
  case isFalse nonzero =>
    exact FloatLayout.spelling_wellFormed
      (digits_shortest_pos (Nat.pos_of_ne_zero nonzero) (by decide)) _

theorem isInteger_singleSpelling (magnitude : Nat) :
    (singleSpelling magnitude).isInteger = false := by
  rw [singleSpelling]
  split
  · rfl
  · exact FloatLayout.isInteger_spelling _ _

def singleLiteral (negative : Bool) (magnitude : Nat) : DecimalLiteral :=
  (singleSpelling magnitude).literal negative

theorem singleLiteral_succ (negative : Bool) (previous : Nat) :
    singleLiteral negative (previous + 1) =
      (FloatLayout.single.spelling
        (single.shortest (previous + 1))).literal negative := by
  rw [singleLiteral, singleSpelling, if_neg previous.succ_ne_zero]

/-- What is found where the spelling of a number with 32 bits is read, is
narrowed to the number. -/
def ReadsBack (negative : Bool) (magnitude : Nat) : Prop :=
  ∃ found, Json.floatOf? (singleLiteral negative magnitude) = some found ∧
    found.convert .single = ⟨negative, magnitude⟩

/-- Reading in one step, as far as it can be checked by evaluation. -/
@[mk_iff]
structure ReadsBackOnce (negative : Bool) (magnitude : Nat)
    (leading : Nat × Int) : Prop where
  low : -(largestPower : Int) ≤ leading.2
  high : leading.2 ≤ largestPower
  finite : scaleOnce (double.nearest leading.1 1) leading.2 < double.infinity
  narrowed : (⟨negative, scaleOnce (double.nearest leading.1 1) leading.2⟩ :
    Double).convert .single = ⟨negative, magnitude⟩

instance (negative : Bool) (magnitude : Nat) (leading : Nat × Int) :
    Decidable (ReadsBackOnce negative magnitude leading) :=
  decidable_of_iff _ (readsBackOnce_iff negative magnitude leading).symm

theorem ReadsBackOnce.readsBack {negative : Bool} {magnitude : Nat}
    (once : ReadsBackOnce negative magnitude
      (singleLiteral negative magnitude).leading) :
    ReadsBack negative magnitude :=
  ⟨_, floatOf?_of_leading rfl
    (scaleByTen?_eq_scaleOnce once.low once.high once.finite), once.narrowed⟩

theorem readsBackOnce_delicate : ∀ magnitude ∈ delicateMagnitudes,
    ∀ negative, ∀ more < 2,
      ReadsBackOnce negative (magnitude + more)
        (singleLiteral negative (magnitude + more)).leading := by
  decide +kernel

section

variable {previous : Nat} (finite : previous + 1 < single.infinity)

include finite

theorem readsBack_ordinary (ordinary : previous ∉ delicateMagnitudes)
    (ordinary' : previous + 1 ∉ delicateMagnitudes) (negative : Bool) :
    ReadsBack negative (previous + 1) := by
  have narrow : 4 * single.hiddenBit ≤ Nat.pow 10 17 := by decide
  have positive := digits_shortest_pos previous.succ_pos narrow
  have small : (singleLiteral negative (previous + 1)).digits < 10 ^ 19 := by
    rw [singleLiteral_succ]
    exact FloatLayout.spelling_digits_lt
      (digits_shortest_lt previous.succ_pos narrow) (by decide) negative
  have few (fewer : (single.shortest (previous + 1)).digits < 10 ^ 15) :
      (singleLiteral negative (previous + 1)).digits < 10 ^ 15 := by
    rw [singleLiteral_succ]
    exact FloatLayout.spelling_digits_lt fewer (by decide) negative
  rw [singleLiteral_succ] at few
  obtain ⟨scaled, result, narrowed⟩ := exists_scaled_shortest
    (FloatLayout.spelling_digits_pos positive .single negative) small.le few
    finite ordinary ordinary'
    (FloatLayout.spelling_value .single positive negative) negative
  rw [← singleLiteral_succ] at result
  have fits : (singleLiteral negative (previous + 1)).digits < Nat.pow 2 64 :=
    small.trans (by decide)
  exact ⟨_, floatOf?_of_leading (DecimalLiteral.leading_eq fits) result,
    narrowed⟩

/-- Every positive number with 32 bits is read back from its shortest
digits. -/
theorem readsBack_succ (negative : Bool) :
    ReadsBack negative (previous + 1) := by
  by_cases delicate : previous ∈ delicateMagnitudes
  · exact (readsBackOnce_delicate _ delicate negative 1 (by decide)).readsBack
  · by_cases delicate' : previous + 1 ∈ delicateMagnitudes
    · exact (readsBackOnce_delicate _ delicate' negative 0
        (by decide)).readsBack
    · exact readsBack_ordinary finite delicate delicate' negative

end

theorem readsBack {magnitude : Nat} (finite : magnitude < single.infinity)
    (negative : Bool) : ReadsBack negative magnitude := by
  cases magnitude with
  | zero =>
      exact ⟨_, JsonNumber.floatOf?_zero negative, by cases negative <;> decide⟩
  | succ previous => exact readsBack_succ finite negative

/-- A finite number with 32 bits is written as a number that is narrowed to
it, whatever stands behind it. -/
theorem readNumber_writeFinite {value : Single}
    (finite : value.isFinite = true) {rest : List Char}
    (ends : Json.NumberEnds rest) :
    ∃ found : Double, Json.readNumber .full
        (FloatLayout.single.writeFinite value ++ rest) =
          .ok (.float found, rest) ∧
      found.convert .single = value := by
  obtain ⟨found, same, narrowed⟩ :=
    readsBack (decide_eq_true_eq.mp finite) value.negative
  refine ⟨found, ?_, narrowed⟩
  rw [writeFinite_single, List.append_assoc]
  exact Json.readNumber_append (singleSpelling_wellFormed _) ends
    (JsonNumber.numberOf?_real (isInteger_singleSpelling _) same)

end SignatureVeil
