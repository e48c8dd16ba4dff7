import SignatureVeil.Proofs.Json.NumberLiterals
import SignatureVeil.Proofs.Settings.ValueForm

/-!
# Opacities with and without quotes

The same literal can stand for an opacity with quotes around it or without.
With quotes it is rounded to 32 bits at once.  Without them it is a number,
which is read with 64 bits first unless it is an integer, and then narrowed.
That is seldom another opacity, and never one further away than the next.
-/

namespace SignatureVeil

open BinaryFormat

/-! ## Literals without quotes -/

namespace NumberLiteral

variable {literal : NumberLiteral}

theorem toSingle_of_isInteger (isInteger : literal.fraction = none ∧
    literal.power = none) (fits : literal.decimal.digits < Nat.pow 2 64) :
    literal.toSingle =
      ⟨literal.negative, single.nearest literal.decimal.digits 1⟩ := by
  have exponent : literal.decimal.exponent = 0 := by
    simp [decimal, DecimalLiteral.exponent, fractionDigits, isInteger]
  rw [toSingle, DecimalLiteral.toSingle, exponent, Binary.ofDecimal,
    ofDecimal_zero fits]
  rfl

theorem number?_eq (literal : NumberLiteral) :
    literal.number? =
      if literal.fraction.isNone && literal.power.isNone &&
          !literal.negative && decide (literal.decimal.digits < 2 ^ 64) then
        some (.integer literal.decimal.digits)
      else if literal.fraction.isNone && literal.power.isNone &&
          literal.negative && decide (literal.decimal.digits ≠ 0) &&
            decide (literal.decimal.digits ≤ 2 ^ 63) then
        some (.integer (-(literal.decimal.digits : Int)))
      else
        (Json.floatOf? literal.decimal).map .float := by
  rw [← Option.isNone_map (f := DigitRun.digits),
    ← Option.isNone_map (x := literal.power) (f := WrittenPower.value)]
  rfl

/-- An integer with 64 bits is narrowed to what its digits are rounded to, and
every other literal is read as a floating-point value. -/
theorem number?_cases {number : JsonNumber}
    (read : literal.number? = some number) :
    number.toSingle = literal.toSingle ∨
      ∃ found, number = .float found ∧
        Json.floatOf? literal.decimal = some found ∧
        (literal.IsWord → literal.decimal.digits = 0) := by
  rw [number?_eq] at read
  split at read
  case isTrue isWord =>
    obtain rfl := Option.some.inj read
    left
    simp only [Bool.and_eq_true, Option.isNone_iff_eq_none, Bool.not_eq_true',
      decide_eq_true_eq] at isWord
    obtain ⟨⟨isInteger, sign⟩, fits⟩ := isWord
    rw [toSingle_of_isInteger isInteger fits, sign]
    rfl
  case isFalse notWord =>
    split at read
    case isTrue isWord =>
      obtain rfl := Option.some.inj read
      left
      simp only [Bool.and_eq_true, Option.isNone_iff_eq_none,
        decide_eq_true_eq] at isWord
      obtain ⟨⟨⟨isInteger, sign⟩, nonzero⟩, fits⟩ := isWord
      have below : -(literal.decimal.digits : Int) < 0 := by omega
      rw [toSingle_of_isInteger isInteger (fits.trans_lt (by decide)), sign,
        JsonNumber.toSingle, Binary.ofInt, Int.natAbs_neg, Int.natAbs_natCast,
        decide_eq_true below]
    case isFalse notWord' =>
      obtain ⟨found, isFloat, rfl⟩ := Option.map_eq_some_iff.mp read
      refine .inr ⟨found, rfl, isFloat, fun ⟨fraction, power, fits⟩ => ?_⟩
      by_contra nonzero
      cases sign : literal.negative with
      | false =>
          rw [sign, if_neg Bool.false_ne_true] at fits
          have fits' : literal.decimal.digits < 2 ^ 64 := by omega
          rw [fraction, power, sign, decide_eq_true fits'] at notWord
          exact notWord rfl
      | true =>
          rw [sign, if_pos rfl] at fits
          rw [fraction, power, sign, decide_eq_true nonzero,
            decide_eq_true fits] at notWord'
          exact notWord' rfl

/-- The number that a literal is read as is narrowed to what the literal is
rounded to at once, or to a number next to it; and that only for a literal with
a point, a power or more than 64 bits, and close to a middle. -/
theorem number?_near {number : JsonNumber}
    (read : literal.number? = some number) :
    number.toSingle.Neighbours literal.toSingle ∧
      (number.toSingle ≠ literal.toSingle →
        ¬ literal.IsWord ∧ NearMiddle literal.value) := by
  rcases number?_cases read with same | ⟨found, rfl, isFloat, zero⟩
  · rw [same]
    exact ⟨.refl _, fun different => absurd rfl different⟩
  · obtain ⟨neighbours, only⟩ := DecimalLiteral.convert_floatOf?_near
      literal.whole.decimal literal.decimal_fraction isFloat
    refine ⟨neighbours, fun different => ?_⟩
    have near := only different
    refine ⟨fun isWord => not_nearMiddle_zero ?_, near⟩
    have nothing : literal.decimal.value = 0 := by
      rw [DecimalLiteral.value, zero isWord, Nat.cast_zero, zero_mul]
    rwa [nothing] at near

theorem exists_number?
    (inside : literal.value ≤ double.value (lastDouble - 3)) :
    ∃ number, literal.number? = some number := by
  obtain ⟨found, isFloat⟩ := DecimalLiteral.exists_floatOf?
    literal.whole.decimal literal.decimal_fraction inside
  rw [number?_eq, isFloat]
  split
  · exact ⟨_, rfl⟩
  · split <;> exact ⟨_, rfl⟩

end NumberLiteral

namespace Settings

open Json (Fault depthLimit readValue)

/-! ## Sections with an opacity -/

/-- A section with an opacity alone. -/
def opacitySection (opacity : List Char) : String :=
  .ofList ('\x7b' :: memberText true [] [' '] "opacity" opacity ['\x7d'])

/-- A text is decoded to settings, directly and from the value that it stands
for. -/
def Decodes (text : String) (settings : Settings) : Prop :=
  parse text = .ok settings ∧
    (Json.parse text).map ofSection? = .ok (.ok settings)

theorem Decodes.unique {text : String} {settings settings' : Settings}
    (decodes : Decodes text settings) (decodes' : Decodes text settings') :
    settings = settings' :=
  Except.ok.inj (decodes.1.symm.trans decodes'.1)

section

variable {opacity : List Char}

theorem toList_opacitySection : (opacitySection opacity).toList =
    '\x7b' :: memberText true [] [' '] "opacity" opacity ['\x7d'] :=
  String.toList_ofList

theorem exists_length_memberText (opacity : List Char) : ∃ limit,
    (memberText true [] [' '] "opacity" opacity ['\x7d']).length = limit + 2 :=
  Nat.exists_eq_add_of_le' (by
    simp only [memberText, Json.writeString, List.length_append,
      List.length_cons]
    omega)

/-- The value of a section is read as far as its opacity can be. -/
theorem parse_opacitySection
    {result : Except Fault (Json × List Char)}
    (reads : readValue .full (depthLimit - 1) (opacity ++ ['\x7d']) = result)
    (ends : ∀ value rest, result = .ok (value, rest) → rest = ['\x7d']) :
    Json.parse (opacitySection opacity) =
      result.map fun (value, _) => .object [("opacity", value)] := by
  obtain ⟨limit, long⟩ := exists_length_memberText opacity
  rw [← Json.readValue_skipSpace blank_space] at reads
  have colon (text : List Char) : Json.readColon (':' :: text) = .ok text := rfl
  rw [Json.parse, toList_opacitySection, depthLimit, readValue,
    Json.readValueWith, Json.skipSpace_cons rfl]
  simp only [long]
  rw [memberText, Json.writeString, List.cons_append, List.append_assoc,
    List.singleton_append, Json.readMembers]
  simp only [Json.nextKey_separator blank_nil, Json.readString_write, colon,
    bind, Except.bind]
  change readValue .full 126 _ = _ at reads
  rw [reads]
  cases result with
  | error fault => rfl
  | ok found =>
      obtain ⟨value, rest⟩ := found
      obtain rfl := ends value rest rfl
      have closes : Json.nextKey false ['\x7d'] = .ok (.close []) := rfl
      simp only [Json.readMembers, closes, bind, Except.bind]
      rfl

theorem decodes_opacitySection {value : Json} {decoded : Single}
    (reads : readValue .full (depthLimit - 1) (opacity ++ ['\x7d']) =
      .ok (value, ['\x7d']))
    (decodes : decodeOpacity value = .ok decoded) :
    Decodes (opacitySection opacity)
      { (default : Settings) with opacity := decoded } := by
  constructor
  · obtain ⟨limit, long⟩ := exists_length_memberText opacity
    have isOpacity : readOpacity ([' '] ++ (opacity ++ ['\x7d'])) =
        .ok (decoded, ['\x7d']) := by
      rw [readOpacity, Json.readValue_skipSpace blank_space, reads]
      simp only [decodes, bind, Except.bind, pure, Except.pure]
    have closing := readMembers_closing blank_nil limit false
      { opacity := some decoded } []
    rw [List.nil_append] at closing
    rw [parse, toList_opacitySection, readSettings, Json.skipSpace_cons rfl]
    simp only [long, readMembers_memberText blank_nil, readMember_opacity,
      isOpacity, closing, bind, Except.bind]
    rfl
  · rw [parse_opacitySection reads fun _ _ same => by cases same; rfl]
    simp [Except.map, ofSection?, Json.lookup?, decodeOr, decodes, bind,
      Except.bind, pure, Except.pure]

theorem not_decodes_opacitySection {fault : Fault}
    (reads : readValue .full (depthLimit - 1) (opacity ++ ['\x7d']) =
      .error fault) (settings : Settings) :
    ¬ Decodes (opacitySection opacity) settings := by
  rintro ⟨-, decodes⟩
  rw [parse_opacitySection reads nofun] at decodes
  exact absurd decodes nofun

end

/-! ## Literals as opacities -/

section

variable (literal : NumberLiteral)

theorem numberEnds_brace : Json.NumberEnds ['\x7d'] :=
  Json.numberEnds_closing blank_nil (.inr rfl) []

/-- A literal between quotes is decoded to what it is rounded to at once. -/
theorem decodes_quoted :
    Decodes (opacitySection ('"' :: (literal.text ++ ['"'])))
      { (default : Settings) with opacity := literal.toSingle } := by
  have reads : readValue .full (depthLimit - 1)
      ('"' :: (literal.text ++ ['"']) ++ ['\x7d']) =
        .ok (.string (.ofList literal.text), ['\x7d']) := by
    rw [← literal.writeString_text]
    exact Json.readValue_of_forall
      (fun nested => Json.readValueWith_string nested _ _) _
  refine decodes_opacitySection reads ?_
  rw [decodeOpacity, opacityOfText, String.toList_ofList,
    trimWhitespace_eq literal.isPlain_of_mem_text, literal.ofText_text]

/-- A literal without quotes is decoded exactly if it is not too large, and
then to what the number that it is read as is narrowed to. -/
theorem decodes_bare_iff (settings : Settings) :
    Decodes (opacitySection literal.text) settings ↔
      ∃ number, literal.number? = some number ∧
        settings = { (default : Settings) with opacity := number.toSingle } := by
  have reads := literal.readValue_text (depthLimit - 1) numberEnds_brace
  cases read : literal.number? with
  | none =>
      rw [read] at reads
      constructor
      · intro decodes
        exact absurd decodes (not_decodes_opacitySection reads settings)
      · rintro ⟨_, same, -⟩
        contradiction
  | some number =>
      rw [read] at reads
      have decodes := decodes_opacitySection reads rfl
      constructor
      · intro decodes'
        exact ⟨number, rfl, decodes'.unique decodes⟩
      · rintro ⟨_, same, rfl⟩
        cases same
        exact decodes

/-- A literal between quotes is always decoded, and to what it is rounded to at
once.  Without quotes it is decoded unless it is one of the very last numbers
with 64 bits or beyond them.  Both opacities are the same or next to each other,
and they are the same for every integer with 64 bits and for every literal that
is not close to a middle between two opacities. -/
theorem decodes_quoted_near_bare :
    Decodes (opacitySection ('"' :: (literal.text ++ ['"'])))
        { (default : Settings) with opacity := literal.toSingle } ∧
      (∃ rounded, single.Rounds literal.value rounded ∧
        literal.toSingle =
          ⟨literal.negative, min single.infinity rounded⟩) ∧
      (literal.value ≤ double.value (lastDouble - 3) →
        ∃ settings, Decodes (opacitySection literal.text) settings) ∧
      ∀ settings, Decodes (opacitySection literal.text) settings →
        ∃ opacity : Single,
          settings = { (default : Settings) with opacity := opacity } ∧
            opacity.Neighbours literal.toSingle ∧
            (opacity ≠ literal.toSingle →
              ¬ literal.IsWord ∧ NearMiddle literal.value) := by
  refine ⟨decodes_quoted literal, ?_, fun inside => ?_,
    fun settings decodes => ?_⟩
  · obtain ⟨rounded, rounds, same⟩ := exists_rounds_ofDecimal
      literal.decimal.digits literal.decimal.exponent
    exact ⟨rounded, rounds, congrArg (Binary.mk literal.negative) same⟩
  · obtain ⟨number, read⟩ := NumberLiteral.exists_number? inside
    exact ⟨_, (decodes_bare_iff literal _).mpr ⟨number, read, rfl⟩⟩
  · obtain ⟨number, read, rfl⟩ := (decodes_bare_iff literal settings).mp decodes
    exact ⟨_, rfl, NumberLiteral.number?_near read⟩

end

/-- `1.0000000596046448`, which is just above the middle between one and the
next number with 32 bits; the middle is the nearest number with 64 bits. -/
def justAboveMiddle : NumberLiteral where
  negative := false
  whole := ⟨['1'], List.all_eq_true.mp rfl, by decide⟩
  fraction := some ⟨"0000000596046448".toList,
    List.all_eq_true.mp (by decide), by decide⟩
  power := none
  zeroAlone := fun _ same => absurd (List.cons.inj same).1 (by decide)

theorem justAboveMiddle_le :
    justAboveMiddle.value ≤ double.value lastDouble := by
  have grows : StrictMono double.value := value_strictMono
  obtain ⟨rounded, rounds, same⟩ := double.exists_rounds_decimal
    justAboveMiddle.decimal.digits justAboveMiddle.decimal.exponent
  have nearest : double.nearest
      (justAboveMiddle.decimal.digits *
        Nat.pow 10 justAboveMiddle.decimal.exponent.toNat)
      (Nat.pow 10 (-justAboveMiddle.decimal.exponent).toNat) =
        4607182419068452864 := by
    decide +kernel
  have small : rounded + 1 ≤ lastDouble := by
    have : double.infinity = lastDouble + 1 := rfl
    have : lastDouble = 9218868437227405311 := by decide
    omega
  calc justAboveMiddle.value
      ≤ double.middle rounded := rounds.le_middle
    _ ≤ double.value (rounded + 1) := (middle_lt_value_succ _ _).le
    _ ≤ double.value lastDouble := grows.monotone small

theorem not_forall_decodes_alike :
    ¬ ∀ literal : NumberLiteral, literal.value ≤ double.value lastDouble →
      ∃ settings,
        Decodes (opacitySection ('"' :: (literal.text ++ ['"']))) settings ∧
          Decodes (opacitySection literal.text) settings := by
  intro alike
  obtain ⟨settings, quoted, bare⟩ := alike justAboveMiddle justAboveMiddle_le
  obtain ⟨number, read, same⟩ := (decodes_bare_iff _ settings).mp bare
  have different : justAboveMiddle.number?.map JsonNumber.toSingle ≠
      some justAboveMiddle.toSingle := by
    decide +kernel
  have opacity := congrArg Settings.opacity
    ((decodes_quoted justAboveMiddle).unique quoted)
  rw [same] at opacity
  rw [read] at different
  exact different (congrArg some opacity.symm)

end Settings

end SignatureVeil
