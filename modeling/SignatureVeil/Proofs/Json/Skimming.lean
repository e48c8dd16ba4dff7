import SignatureVeil.Proofs.Json.NumberText

/-!
# Values that are skimmed

A text that is read with everything checked can also be skimmed, and the same
text is left behind the value.  No reader leaves more than it was given, so
that a value cannot be nested more deeply than its text is long.
-/

namespace SignatureVeil

namespace Json

/-- Skimming a text leaves the same rest of it as reading. -/
structure SkimsTo {Result : Type} (text rest : List Char)
    (skimmed : Except Fault (Result × List Char)) : Prop where
  exists_eq : ∃ result, skimmed = .ok (result, rest)
  length_le : rest.length ≤ text.length

section

variable {Result Result' : Type} {text text' rest : List Char}
  {skimmed : Except Fault (Result × List Char)}

theorem SkimsTo.of_eq {result : Result} (same : skimmed = .ok (result, rest))
    (length_le : rest.length ≤ text.length) : SkimsTo text rest skimmed :=
  ⟨⟨result, same⟩, length_le⟩

theorem SkimsTo.mono (skims : SkimsTo text rest skimmed)
    (longer : text.length ≤ text'.length) : SkimsTo text' rest skimmed :=
  ⟨skims.exists_eq, skims.length_le.trans longer⟩

end

theorem length_skipSpace_le (text : List Char) :
    (skipSpace text).length ≤ text.length :=
  List.length_dropWhile_le _ _

variable {text rest : List Char}

theorem length_readWord {word : List Char}
    (read : readWord word text = .ok rest) : rest.length ≤ text.length := by
  induction word generalizing text with
  | nil =>
      cases read
      exact le_rfl
  | cons expected word ih =>
      cases text with
      | nil => contradiction
      | cons character text =>
          rw [readWord] at read
          split at read
          · exact (ih read).trans (Nat.le_succ _)
          · contradiction

/-! ## Strings -/

/-- What a skimming reader has seen of an escape.  It does not look for the
second half of a surrogate pair. -/
def StringMode.skimmed : StringMode → StringMode
  | .plain | .lead _ => .plain
  | .escape | .leadEscape _ => .escape
  | .hex _ missing value => .hex none missing value

theorem exists_of_push_eq_ok {character : Char}
    {read : Except Fault (List Char × List Char)}
    {characters rest : List Char}
    (same : push character read = .ok (characters, rest)) :
    ∃ behind, read = .ok (behind, rest) := by
  cases read with
  | ok found =>
      cases same
      exact ⟨_, rfl⟩
  | error => contradiction

theorem SkimsTo.cons {Result : Type} {character : Char}
    {skimmed : Except Fault (Result × List Char)}
    (skims : SkimsTo text rest skimmed) :
    SkimsTo (character :: text) rest skimmed :=
  skims.mono (Nat.le_succ _)

theorem SkimsTo.push {read : Except Fault (List Char × List Char)}
    (skims : SkimsTo text rest read) (character : Char) :
    SkimsTo text rest (push character read) := by
  obtain ⟨⟨characters, rfl⟩, length_le⟩ := skims
  exact .of_eq rfl length_le

section

-- one character in each of the modes, if all that is behind it is skimmed
variable {character : Char} {characters : List Char}
  (skims : ∀ {mode : StringMode} {characters : List Char},
    readCharacters .full mode text = .ok (characters, rest) →
      SkimsTo text rest (readCharacters .skim mode.skimmed text))

include skims

theorem skims_plain (read : readCharacters .full .plain (character :: text) =
      .ok (characters, rest)) :
    SkimsTo (character :: text) rest
      (readCharacters .skim .plain (character :: text)) := by
  rw [readCharacters] at read ⊢
  split at read
  · cases read
    exact .of_eq (if_pos ‹_›) (Nat.le_succ _)
  · rw [if_neg ‹_›]
    split at read
    · rw [if_pos ‹_›]
      exact (skims read).cons
    · rw [if_neg ‹_›]
      split at read
      · contradiction
      · obtain ⟨_, behind⟩ := exists_of_push_eq_ok read
        rw [if_neg ‹_›]
        exact ((skims behind).push _).cons

theorem skims_escape (read : readCharacters .full .escape (character :: text) =
      .ok (characters, rest)) :
    SkimsTo (character :: text) rest
      (readCharacters .skim .escape (character :: text)) := by
  rw [readCharacters] at read ⊢
  split at read
  · rw [if_pos ‹_›]
    split at read
    · contradiction
    · rw [if_neg ‹_›]
      exact (skims read).cons
  · rw [if_neg ‹_›]
    cases meant : unescape? character with
    | none =>
        rw [meant] at read
        contradiction
    | some found =>
        rw [meant] at read
        obtain ⟨_, behind⟩ := exists_of_push_eq_ok read
        exact ((skims behind).push _).cons

theorem skims_hex {lead : Option Nat} {missing value : Nat}
    (read : readCharacters .full (.hex lead missing value)
      (character :: text) = .ok (characters, rest)) :
    SkimsTo (character :: text) rest
      (readCharacters .skim (.hex none missing value) (character :: text)) := by
  rw [readCharacters] at read ⊢
  cases found : hexValue? character with
  | none =>
      rw [found] at read
      contradiction
  | some digit =>
      rw [found] at read
      simp only [] at read ⊢
      split at read
      · rw [if_pos ‹_›]
        exact (skims read).cons
      · rw [if_neg ‹_›]
        simp only [EscapeMeaning.ofUnit]
        split at read
        · obtain ⟨_, behind⟩ := exists_of_push_eq_ok read
          exact ((skims behind).push _).cons
        · exact ((skims read).push _).cons
        · contradiction

/-- The backslash that must follow is the beginning of an escape. -/
theorem skims_lead {first : Nat}
    (read : readCharacters .full (.lead first) (character :: text) =
      .ok (characters, rest)) :
    SkimsTo (character :: text) rest
      (readCharacters .skim .plain (character :: text)) := by
  rw [readCharacters.eq_def] at read
  simp only [] at read
  split at read
  case isTrue backslash =>
    subst backslash
    exact (skims read).cons
  case isFalse => contradiction

theorem skims_leadEscape {first : Nat}
    (read : readCharacters .full (.leadEscape first) (character :: text) =
      .ok (characters, rest)) :
    SkimsTo (character :: text) rest
      (readCharacters .skim .escape (character :: text)) := by
  rw [readCharacters.eq_def] at read
  simp only [] at read
  split at read
  case isTrue letter =>
    subst letter
    rw [readCharacters, if_pos rfl]
    split at read
    · contradiction
    · rw [if_neg ‹_›]
      exact (skims read).cons
  case isFalse => contradiction

end

theorem skims_readCharacters {mode : StringMode} {characters : List Char}
    (read : readCharacters .full mode text = .ok (characters, rest)) :
    SkimsTo text rest (readCharacters .skim mode.skimmed text) := by
  induction text generalizing mode characters with
  | nil => cases mode <;> contradiction
  | cons character text ih =>
      cases mode with
      | plain => exact skims_plain ih read
      | escape => exact skims_escape ih read
      | hex lead missing value => exact skims_hex ih read
      | lead first => exact skims_lead ih read
      | leadEscape first => exact skims_leadEscape ih read

theorem skims_readString {value : String}
    (read : readString .full text = .ok (value, rest)) :
    SkimsTo text rest (readString .skim text) := by
  unfold readString at read ⊢
  split at read
  case h_1 same =>
    cases read
    obtain ⟨⟨characters, skimmed⟩, length_le⟩ := skims_readCharacters same
    rw [StringMode.skimmed] at skimmed
    rw [skimmed]
    exact .of_eq rfl length_le
  case h_2 => contradiction

/-! ## Numbers -/

section

variable {digits : List Char}

theorem readDigits_skim (read : readDigits .full text = .ok (digits, rest)) :
    readDigits .skim text = .ok (digits, rest) ∧
      rest.length ≤ text.length := by
  cases text with
  | nil => contradiction
  | cons character text =>
      rw [readDigits] at read ⊢
      split at read
      · rw [if_pos ‹_›]
        refine ⟨read, ?_⟩
        cases read
        exact List.length_dropWhile_le _ _
      · contradiction

theorem readWhole_skim (read : readWhole .full text = .ok (digits, rest)) :
    readWhole .skim text = .ok (digits, rest) ∧
      rest.length ≤ text.length := by
  rw [readWhole] at read ⊢
  obtain ⟨⟨found, behind⟩, same, read⟩ := exists_of_bind_eq_ok read
  obtain ⟨skimmed, length_le⟩ := readDigits_skim same
  rw [skimmed]
  refine ⟨read, ?_⟩
  simp only [] at read
  split at read
  · contradiction
  · cases read
    exact length_le

theorem readFraction_skim {fraction : Option (List Char)}
    (read : readFraction .full text = .ok (fraction, rest)) :
    readFraction .skim text = .ok (fraction, rest) ∧
      rest.length ≤ text.length := by
  unfold readFraction at read ⊢
  split at read
  case h_1 behind =>
    obtain ⟨⟨found, _⟩, same, read⟩ := exists_of_bind_eq_ok read
    obtain ⟨skimmed, length_le⟩ := readDigits_skim same
    cases read
    simp only [skimmed]
    exact ⟨rfl, length_le.trans (Nat.le_succ _)⟩
  case h_2 =>
    refine ⟨read, ?_⟩
    cases read
    exact le_rfl

theorem length_takeSign_le (text : List Char) :
    (takeSign text).2.length ≤ text.length := by
  unfold takeSign
  split
  · exact Nat.le_succ _
  · exact Nat.le_succ _
  · exact le_rfl

theorem readExponent_skim {power : Option Int}
    (read : readExponent .full text = .ok (power, rest)) :
    readExponent .skim text = .ok (power, rest) ∧
      rest.length ≤ text.length := by
  unfold readExponent at read ⊢
  split at read
  case h_3 =>
    refine ⟨read, ?_⟩
    cases read
    exact le_rfl
  all_goals
    rename_i behind
    have shorter := length_takeSign_le behind
    generalize takeSign behind = signed at read shorter ⊢
    obtain ⟨⟨found, _⟩, same, read⟩ := exists_of_bind_eq_ok read
    obtain ⟨skimmed, length_le⟩ := readDigits_skim same
    cases read
    simp only [skimmed]
    exact ⟨rfl, (length_le.trans shorter).trans (Nat.le_succ _)⟩

/-- The parts of a number behind its sign. -/
def readUnsigned (rigor : Rigor) (negative : Bool) (text : List Char) :
    Except Fault (JsonNumber × List Char) := do
  let (whole, rest) ← readWhole rigor text
  let (fraction, rest) ← readFraction rigor rest
  let (power, rest) ← readExponent rigor rest
  match rigor with
  | .skim => return (.integer 0, rest)
  | .full =>
      match numberOf? negative whole fraction power with
      | some found => return (found, rest)
      | none => .error .malformed

theorem readNumber_eq (rigor : Rigor) (text : List Char) :
    readNumber rigor text =
      match text with
      | '-' :: rest => readUnsigned rigor true rest
      | _ => readUnsigned rigor false text := by
  cases text with
  | nil => rfl
  | cons character rest =>
      by_cases sign : character = '-'
      · rw [sign]
        rfl
      · simp only [readNumber, List.cons.injEq, sign, false_and, imp_self,
          implies_true]
        rfl

theorem skims_readUnsigned {negative : Bool} {number : JsonNumber}
    (read : readUnsigned .full negative text = .ok (number, rest)) :
    SkimsTo text rest (readUnsigned .skim negative text) := by
  obtain ⟨⟨whole, behind⟩, first, read⟩ := exists_of_bind_eq_ok read
  obtain ⟨⟨fraction, behind'⟩, second, read⟩ := exists_of_bind_eq_ok read
  obtain ⟨⟨power, behind''⟩, third, read⟩ := exists_of_bind_eq_ok read
  obtain ⟨first, length_le⟩ := readWhole_skim first
  obtain ⟨second, length_le'⟩ := readFraction_skim second
  obtain ⟨third, length_le''⟩ := readExponent_skim third
  obtain rfl : behind'' = rest := by
    simp only [] at read
    split at read
    · cases read
      rfl
    · contradiction
  simp only [readUnsigned, first, second, third, bind, Except.bind]
  exact .of_eq rfl ((length_le''.trans length_le').trans length_le)

theorem skims_readNumber {number : JsonNumber}
    (read : readNumber .full text = .ok (number, rest)) :
    SkimsTo text rest (readNumber .skim text) := by
  rw [readNumber_eq] at read ⊢
  split at read
  · exact (skims_readUnsigned read).cons
  · exact skims_readUnsigned read

end

/-! ## Values -/

theorem skims_readAtom {value : Json}
    (read : readAtom .full text = .ok (value, rest)) :
    SkimsTo text rest (readAtom .skim text) := by
  have word {word more : List Char} {value value' : Json}
      (read : (do return (value', ← readWord word more)) =
        Except.ok (value, rest)) :
      SkimsTo more rest (do return (value', ← readWord word more)) := by
    obtain ⟨behind, same, read⟩ := exists_of_bind_eq_ok read
    cases read
    rw [same]
    exact .of_eq rfl (length_readWord same)
  unfold readAtom at read ⊢
  split at read
  · contradiction
  · exact (word read).cons
  · exact (word read).cons
  · exact (word read).cons
  · obtain ⟨⟨found, behind⟩, same, read⟩ := exists_of_bind_eq_ok read
    cases read
    obtain ⟨⟨skimmed, same⟩, length_le⟩ := skims_readString same
    simp only [same]
    exact (SkimsTo.of_eq rfl length_le).cons
  · split at read
    · obtain ⟨⟨found, behind⟩, same, read⟩ := exists_of_bind_eq_ok read
      cases read
      obtain ⟨⟨skimmed, same⟩, length_le⟩ := skims_readNumber same
      rw [if_pos ‹_›, same]
      exact .of_eq rfl length_le
    · contradiction

/-! ## Items and members -/

/-- The text at which a reader goes on. -/
def Next.onward : Next → List Char
  | .part text => text
  | .close rest => rest

theorem length_nextItem_le {first : Bool} {next : Next}
    (found : nextItem first text = .ok next) :
    next.onward.length ≤ text.length := by
  have spaced := length_skipSpace_le text
  unfold nextItem at found
  split at found
  case h_1 => contradiction
  case h_2 same =>
    cases found
    rw [same] at spaced
    exact (Nat.le_succ _).trans spaced
  case h_3 character behind _ same =>
    rw [same] at spaced
    split at found
    · cases found
      exact spaced
    · split at found
      · have spaced' := length_skipSpace_le behind
        split at found
        · contradiction
        · contradiction
        · cases found
          exact (spaced'.trans (Nat.le_succ _)).trans spaced
      · contradiction

theorem length_nextKey_le {first : Bool} {next : Next}
    (found : nextKey first text = .ok next) :
    next.onward.length ≤ text.length := by
  have spaced := length_skipSpace_le text
  unfold nextKey at found
  split at found
  case h_1 => contradiction
  case h_2 same =>
    cases found
    rw [same] at spaced
    exact (Nat.le_succ _).trans spaced
  case h_3 character behind _ same =>
    rw [same] at spaced
    split at found
    · split at found
      · cases found
        exact (Nat.le_succ _).trans spaced
      · contradiction
    · split at found
      · have spaced' := length_skipSpace_le behind
        split at found
        · contradiction
        case h_2 same' =>
          cases found
          rw [same'] at spaced'
          exact (((Nat.le_succ _).trans spaced').trans (Nat.le_succ _)).trans
            spaced
        · contradiction
      · contradiction

theorem length_readColon_le (read : readColon text = .ok rest) :
    rest.length ≤ text.length := by
  have spaced := length_skipSpace_le text
  unfold readColon at read
  split at read
  case h_1 => contradiction
  case h_2 same =>
    cases read
    rw [same] at spaced
    exact (Nat.le_succ _).trans spaced
  case h_3 => contradiction

section

variable {read skim : List Char → Except Fault (Json × List Char)}
  {bound : Nat} (skims : ∀ text value rest, text.length ≤ bound →
    read text = .ok (value, rest) → SkimsTo text rest (skim text))

include skims

theorem skims_readItems {limit : Nat} {first : Bool} {items : List Json}
    (short : text.length ≤ bound)
    (found : readItems read limit first text = .ok (items, rest)) :
    SkimsTo text rest (readItems skim limit first text) := by
  induction limit generalizing first text items with
  | zero => contradiction
  | succ limit ih =>
      obtain ⟨next, same, found⟩ := exists_of_bind_eq_ok found
      have shorter := length_nextItem_le same
      rw [readItems, same]
      cases next with
      | close behind =>
          cases found
          exact .of_eq rfl shorter
      | part part =>
          obtain ⟨⟨item, behind⟩, isItem, found⟩ := exists_of_bind_eq_ok found
          obtain ⟨⟨items, _⟩, areItems, found⟩ := exists_of_bind_eq_ok found
          cases found
          rw [Next.onward] at shorter
          obtain ⟨⟨item, isItem⟩, length_le⟩ :=
            skims _ _ _ (shorter.trans short) isItem
          obtain ⟨⟨items, areItems⟩, length_le'⟩ :=
            ih ((length_le.trans shorter).trans short) areItems
          simp only [bind, Except.bind, isItem, areItems]
          exact .of_eq rfl ((length_le'.trans length_le).trans shorter)

theorem skims_readMembers {limit : Nat} {first : Bool}
    {members found : List (String × Json)} (short : text.length ≤ bound)
    (same : readMembers .full read limit first members text =
      .ok (found, rest)) (members' : List (String × Json)) :
    SkimsTo text rest (readMembers .skim skim limit first members' text) := by
  induction limit generalizing first text members members' with
  | zero => contradiction
  | succ limit ih =>
      obtain ⟨next, isNext, same⟩ := exists_of_bind_eq_ok same
      have shorter := length_nextKey_le isNext
      rw [readMembers, isNext]
      cases next with
      | close behind =>
          cases same
          exact .of_eq rfl shorter
      | part part =>
          obtain ⟨⟨key, behind⟩, isKey, same⟩ := exists_of_bind_eq_ok same
          obtain ⟨behind', isColon, same⟩ := exists_of_bind_eq_ok same
          obtain ⟨⟨value, behind''⟩, isValue, same⟩ :=
            exists_of_bind_eq_ok same
          rw [Next.onward] at shorter
          obtain ⟨⟨key', isKey⟩, length_le⟩ := skims_readString isKey
          have length_le' := length_readColon_le isColon
          have shorter' := (length_le'.trans length_le).trans shorter
          obtain ⟨⟨value', isValue⟩, length_le''⟩ :=
            skims _ _ _ (shorter'.trans short) isValue
          have shorter'' := length_le''.trans shorter'
          simp only [bind, Except.bind, isKey, isColon, isValue]
          exact (ih (shorter''.trans short) same _).mono shorter''

end

/-! ## Values with parts -/

theorem readValueWith_of_atom {rigor : Rigor}
    {nested : Option (List Char → Except Fault (Json × List Char))}
    (noArray : ∀ behind, skipSpace text ≠ '[' :: behind)
    (noObject : ∀ behind, skipSpace text ≠ '{' :: behind) :
    readValueWith rigor nested text = readAtom rigor (skipSpace text) := by
  unfold readValueWith
  split
  · exact absurd ‹_› (noArray _)
  · exact absurd ‹_› (noObject _)
  · rfl

theorem readValue_of_atom {rigor : Rigor}
    (noArray : ∀ behind, skipSpace text ≠ '[' :: behind)
    (noObject : ∀ behind, skipSpace text ≠ '{' :: behind) (depth : Nat) :
    readValue rigor depth text = readAtom rigor (skipSpace text) := by
  cases depth <;>
    rw [readValue, readValueWith_of_atom noArray noObject]

/-- One more bracket around what can be skimmed. -/
theorem skims_readValueWith
    {nested : Option (List Char → Except Fault (Json × List Char))}
    (skims : ∀ read, nested = some read → ∀ depth text value rest,
      text.length ≤ depth → read text = .ok (value, rest) →
        SkimsTo text rest (readValue .skim depth text))
    {depth : Nat} {value : Json} (short : text.length ≤ depth)
    (found : readValueWith .full nested text = .ok (value, rest)) :
    SkimsTo text rest (readValue .skim depth text) := by
  have spaced := length_skipSpace_le text
  unfold readValueWith at found
  split at found
  case h_1 behind same =>
    rw [same, List.length_cons] at spaced
    obtain ⟨depth, rfl⟩ := Nat.exists_eq_add_of_le' (show 1 ≤ depth by omega)
    split at found
    case h_1 => contradiction
    case h_2 read =>
      obtain ⟨⟨items, _⟩, areItems, found⟩ := exists_of_bind_eq_ok found
      cases found
      obtain ⟨⟨items', skimmed⟩, length_le⟩ :=
        skims_readItems (skims read rfl depth) (by omega) areItems
      rw [readValue, readValueWith, same]
      simp only [skimmed, bind, Except.bind]
      exact .of_eq rfl (by omega)
  case h_2 behind same =>
    rw [same, List.length_cons] at spaced
    obtain ⟨depth, rfl⟩ := Nat.exists_eq_add_of_le' (show 1 ≤ depth by omega)
    split at found
    case h_1 => contradiction
    case h_2 read =>
      obtain ⟨⟨members, _⟩, areMembers, found⟩ := exists_of_bind_eq_ok found
      cases found
      obtain ⟨⟨members', skimmed⟩, length_le⟩ :=
        skims_readMembers (skims read rfl depth) (by omega) areMembers []
      rw [readValue, readValueWith, same]
      simp only [skimmed, bind, Except.bind]
      exact .of_eq rfl (by omega)
  case h_3 noArray noObject =>
    rw [readValue_of_atom noArray noObject]
    exact (skims_readAtom found).mono spaced

/-- A value that is read can be skimmed to any depth that is not less than the
length of its text. -/
theorem skims_readValue {depth depth' : Nat} {value : Json}
    (short : text.length ≤ depth')
    (read : readValue .full depth text = .ok (value, rest)) :
    SkimsTo text rest (readValue .skim depth' text) := by
  induction depth generalizing depth' text value rest with
  | zero =>
      refine skims_readValueWith ?_ short read
      rintro _ ⟨⟩
  | succ depth ih =>
      refine skims_readValueWith ?_ short read
      rintro _ ⟨⟩ depth' text value rest short read
      exact ih short read

theorem skipValue_of_readValue {depth : Nat} {value : Json}
    (read : readValue .full depth text = .ok (value, rest)) :
    skipValue text = .ok rest := by
  obtain ⟨⟨skimmed, same⟩, -⟩ := skims_readValue le_rfl read
  rw [skipValue, same]
  rfl

end Json

end SignatureVeil
