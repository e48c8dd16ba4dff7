import SignatureVeil.Proofs.Binary.Nearest
import SignatureVeil.Proofs.Json.Trees
import SignatureVeil.Proofs.Storage.Replacing

/-!
# Opacities from zero to one

The style that the editor is given has its opacity limited to the numbers from
zero to one.  This does so for every opacity but one that is no number, which
is neither below nor above and stays as it is.  Only a section that spells the
word for it in a string gives such an opacity.
-/

namespace SignatureVeil

namespace Binary

variable {format : BinaryFormat}

/-- The number of a finite value. -/
def number (value : Binary format) : ℚ :=
  if value.negative then
    -format.value value.magnitude
  else
    format.value value.magnitude

/-- A value that is a number from zero to one. -/
structure InUnit (value : Binary format) : Prop where
  finite : value.isFinite = true
  nonneg : 0 ≤ value.number
  le_one : value.number ≤ 1

theorem InUnit.isNaN_eq_false {value : Binary format}
    (inUnit : value.InUnit) : value.isNaN = false := by
  have finite : value.magnitude < format.infinity :=
    of_decide_eq_true inUnit.finite
  exact decide_eq_false (by omega)

theorem value_oneMagnitude :
    BinaryFormat.single.value (oneMagnitude .single) = 1 := by
  have magnitude : oneMagnitude .single = 127 * 2 ^ 23 := by decide
  have significand : BinaryFormat.single.significand (127 * 2 ^ 23) =
      2 ^ 23 := by
    decide
  have scale : BinaryFormat.single.scale (127 * 2 ^ 23) = -23 := by decide
  rw [magnitude, BinaryFormat.value, significand, scale]
  norm_num

theorem inUnit_clampToUnit {value : Single} (isNumber : value.isNaN = false) :
    value.clampToUnit.InUnit := by
  have grows : StrictMono BinaryFormat.single.value :=
    BinaryFormat.value_strictMono
  rw [clampToUnit, isNumber, if_neg Bool.false_ne_true]
  split
  case isTrue =>
    exact ⟨by decide, by simp [number, BinaryFormat.value_zero],
      by simp [number, BinaryFormat.value_zero]⟩
  case isFalse notBelow =>
    split
    case isTrue =>
      exact ⟨by decide, by simp [number, value_oneMagnitude],
        by simp [number, value_oneMagnitude]⟩
    case isFalse notAbove =>
      have finite : value.magnitude < BinaryFormat.single.infinity :=
        (not_lt.mp notAbove).trans_lt (by decide)
      have same : value.number =
          BinaryFormat.single.value value.magnitude := by
        rw [number]
        split
        case isTrue negative =>
          have zero : value.magnitude = 0 := by simpa [negative] using notBelow
          rw [zero, BinaryFormat.value_zero, neg_zero]
        case isFalse => rfl
      refine ⟨decide_eq_true finite, ?_, ?_⟩
      · rw [same]
        exact BinaryFormat.value_nonneg _
      · rw [same, ← value_oneMagnitude]
        exact grows.monotone (not_lt.mp notAbove)

/-- Limiting an opacity fails only if it is no number. -/
theorem inUnit_clampToUnit_iff {value : Single} :
    value.clampToUnit.InUnit ↔ value.isNaN = false := by
  refine ⟨fun inUnit => ?_, inUnit_clampToUnit⟩
  cases isNaN : value.isNaN with
  | false => rfl
  | true =>
      have limited := inUnit.isNaN_eq_false
      rw [clampToUnit, if_pos isNaN, isNaN] at limited
      exact limited

/-! ## Texts that stand for no number -/

theorem isNaN_eq_false_of_le {negative : Bool} {magnitude : Nat}
    (notAbove : magnitude ≤ format.infinity) :
    (⟨negative, magnitude⟩ : Binary format).isNaN = false :=
  decide_eq_false (not_lt.mpr notAbove)

theorem eq_of_toLower_eq_n {character : Char}
    (lower : character.toLower = 'n') : character = 'n' ∨ character = 'N' := by
  unfold Char.toLower at lower
  split at lower
  case isTrue =>
    right
    apply Char.ext
    have same : character.val + 32 = 110 := congrArg Char.val lower
    have less := congrArg (· - 32) same
    simpa using less
  case isFalse => exact .inl lower

/-- Whether a word is the one for no number, in letters of either case. -/
def IsNaNWord (word : List Char) : Prop :=
  word.map Char.toLower = "nan".toList

theorem IsNaNWord.decimalOf?_eq_none {word : List Char}
    (isWord : IsNaNWord word) (negative : Bool) :
    decimalOf? negative word = none := by
  obtain ⟨first, rest, rfl, lower, -⟩ := List.map_eq_cons_iff.mp isWord
  rcases eq_of_toLower_eq_n lower with rfl | rfl <;> rfl

theorem isNaN_ofWord?_iff {negative : Bool} {word : List Char}
    {value : Single} (found : ofWord? .single negative word = some value) :
    value.isNaN = true ↔ IsNaNWord word := by
  simp only [ofWord?] at found
  split at found
  case isTrue infinite =>
    obtain rfl := Option.some.inj found
    refine iff_of_false (by cases negative <;> decide) fun isWord => ?_
    rw [isWord] at infinite
    contradiction
  case isFalse =>
    split at found
    case isTrue isWord =>
      obtain rfl := Option.some.inj found
      exact iff_of_true (by cases negative <;> decide) isWord
    case isFalse => contradiction

theorem isNaN_ofText_iff {text : List Char} {value : Single}
    (found : ofText .single text = .ok value) :
    value.isNaN = true ↔ IsNaNWord (takeSign text).2 := by
  simp only [ofText] at found
  split at found
  case isTrue => contradiction
  case isFalse =>
    split at found
    case h_1 literal isDecimal =>
      obtain rfl := Except.ok.inj found
      have isNumber : (ofDecimal (takeSign text).1 literal.digits
          literal.exponent : Single).isNaN = false :=
        isNaN_eq_false_of_le (BinaryFormat.ofDecimal_le_infinity _ _ _)
      rw [isNumber]
      refine iff_of_false Bool.false_ne_true fun isWord => ?_
      rw [isWord.decimalOf?_eq_none] at isDecimal
      contradiction
    case h_2 =>
      split at found
      case h_1 word =>
        obtain rfl := Except.ok.inj found
        exact isNaN_ofWord?_iff word
      case h_2 => contradiction

theorem isNaN_convert {value : Double} (finite : value.isFinite = true) :
    (value.convert .single).isNaN = false := by
  have finite' : value.magnitude < BinaryFormat.double.infinity :=
    of_decide_eq_true finite
  have isNumber : value.isNaN = false := decide_eq_false (by omega)
  rw [convert, isNumber, if_neg Bool.false_ne_true, if_neg finite'.ne]
  exact isNaN_eq_false_of_le (BinaryFormat.nearest_le_infinity _ _ _)

end Binary

/-! ## Sections whose opacity is no number -/

namespace Settings

open Json (exists_of_bind_eq_ok lookup?)

/-- What a section gives for the opacity. -/
def givenOpacity? : Json → Option Json
  | .object members => lookup? "opacity" members
  | .array items => items[1]?
  | _ => none

/-- Whether a value is a string that spells the word for no number, with an
optional sign in front and with white space around it. -/
def SpellsNaN (value : Json) : Prop :=
  ∃ text : String, value = .string text ∧
    Binary.IsNaNWord (takeSign (trimWhitespace text.toList)).2

theorem isNaN_decodeOpacity_iff {value : Json} {opacity : Single}
    (numbers : ∀ number ∈ value.numbers, number.WellFormed)
    (decodes : decodeOpacity value = .ok opacity) :
    opacity.isNaN = true ↔ SpellsNaN value := by
  cases value with
  | number number =>
      obtain rfl := Except.ok.inj decodes
      refine iff_of_false ?_ nofun
      rw [Bool.not_eq_true]
      cases number with
      | integer value =>
          exact Binary.isNaN_eq_false_of_le
            (BinaryFormat.nearest_le_infinity _ _ _)
      | float value =>
          exact Binary.isNaN_convert
            (decide_eq_true (numbers (.float value) (by simp [Json.numbers])))
  | string text =>
      simp only [decodeOpacity] at decodes
      split at decodes
      case h_1 found =>
        obtain rfl := Except.ok.inj decodes
        refine (Binary.isNaN_ofText_iff found).trans
          ⟨fun isWord => ⟨text, rfl, isWord⟩, ?_⟩
        rintro ⟨_, same, isWord⟩
        obtain rfl := Json.string.inj same
        exact isWord
      case h_2 => contradiction
  | _ => contradiction

theorem isNaN_decodeOr_iff {value : Option Json} {opacity : Single}
    (numbers : ∀ given ∈ value, ∀ number ∈ given.numbers, number.WellFormed)
    (decodes : decodeOr default.opacity decodeOpacity value = .ok opacity) :
    opacity.isNaN = true ↔ ∃ given ∈ value, SpellsNaN given := by
  cases value with
  | none =>
      obtain rfl := Except.ok.inj decodes
      exact iff_of_false (by decide) (by simp)
  | some given =>
      rw [isNaN_decodeOpacity_iff (numbers given rfl) decodes]
      simp

/-- The opacity of a section is decoded from what the section gives for it. -/
theorem decodeOr_givenOpacity? {value : Json} {settings : Settings}
    (decodes : ofSection? value = .ok settings) :
    decodeOr default.opacity decodeOpacity (givenOpacity? value) =
      .ok settings.opacity := by
  cases value with
  | object members =>
      obtain ⟨color, -, decodes⟩ := exists_of_bind_eq_ok decodes
      obtain ⟨enabled, -, decodes⟩ := exists_of_bind_eq_ok decodes
      obtain ⟨opacity, found, decodes⟩ := exists_of_bind_eq_ok decodes
      obtain rfl := Except.ok.inj decodes
      exact found
  | array items =>
      obtain ⟨enabled, -, decodes⟩ := exists_of_bind_eq_ok decodes
      obtain ⟨opacity, found, decodes⟩ := exists_of_bind_eq_ok decodes
      obtain ⟨color, -, decodes⟩ := exists_of_bind_eq_ok decodes
      split at decodes
      · contradiction
      · obtain rfl := Except.ok.inj decodes
        exact found
  | _ => contradiction

theorem mem_numbers_of_lookup? {key : String}
    {members : List (String × Json)} {given : Json}
    (found : lookup? key members = some given) {number : JsonNumber}
    (isNumber : number ∈ given.numbers) :
    number ∈ (Json.object members).numbers := by
  rw [Json.numbers, Json.numbersOfMembers_eq]
  induction members with
  | nil => contradiction
  | cons member members ih =>
      rw [List.flatMap_cons]
      rw [lookup?] at found
      split at found
      case isTrue =>
        obtain rfl := Option.some.inj found
        exact List.mem_append_left _ isNumber
      case isFalse => exact List.mem_append_right _ (ih found)

theorem mem_numbers_of_givenOpacity? {value given : Json}
    (found : givenOpacity? value = some given) {number : JsonNumber}
    (isNumber : number ∈ given.numbers) : number ∈ value.numbers := by
  cases value with
  | object members => exact mem_numbers_of_lookup? found isNumber
  | array items =>
      rw [Json.numbers, Json.numbersOfItems_eq]
      exact List.mem_flatMap.mpr
        ⟨given, List.mem_of_getElem? found, isNumber⟩
  | _ => contradiction

/-- Whether a section is accepted although the opacity that it gives is no
number. -/
def AcceptsNaN (value : Json) : Prop :=
  ∃ settings given, ofSection? value = .ok settings ∧
    givenOpacity? value = some given ∧ SpellsNaN given

theorem isNaN_ofSection_iff {value : Json}
    (numbers : ∀ number ∈ value.numbers, number.WellFormed) :
    (ofSection value).1.opacity.isNaN = true ↔ AcceptsNaN value := by
  cases decodes : ofSection? value with
  | error fault =>
      have settings : (ofSection value).1 = default := by
        cases value <;> simp [ofSection, decodes]
      rw [settings, AcceptsNaN]
      refine iff_of_false (by decide) ?_
      rintro ⟨settings, given, decodes', -⟩
      rw [decodes] at decodes'
      contradiction
  | ok settings =>
      have opacity := decodeOr_givenOpacity? decodes
      rw [ofSection_of_ok decodes, isNaN_decodeOr_iff (fun given isGiven
        number isNumber => numbers number
          (mem_numbers_of_givenOpacity? isGiven isNumber)) opacity]
      constructor
      · rintro ⟨given, isGiven, spells⟩
        exact ⟨settings, given, decodes, isGiven, spells⟩
      · rintro ⟨-, given, -, isGiven, spells⟩
        exact ⟨given, isGiven, spells⟩

/-- The opacity of the style that a section leads to is a number from zero to
one, unless the section is accepted with an opacity that is no number. -/
theorem inUnit_style_iff {value : Json}
    (numbers : ∀ number ∈ value.numbers, number.WellFormed) :
    (ofSection value).1.style.opacity.InUnit ↔ ¬AcceptsNaN value := by
  rw [style, Binary.inUnit_clampToUnit_iff, ← isNaN_ofSection_iff numbers,
    Bool.not_eq_true]

end Settings

end SignatureVeil
