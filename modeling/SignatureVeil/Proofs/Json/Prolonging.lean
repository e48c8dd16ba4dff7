import SignatureVeil.Proofs.Json.RoundTrip
import SignatureVeil.Proofs.Json.Skimming

/-!
# Texts that are prolonged

What has been read is read in the same way when more text is put behind, as
long as the reader had seen where it ends.  A string, an array and an object
end with a character of their own, so nothing behind them can change them; a
number goes on as long as there are digits, so it only is as it was if some
other character follows it.  Within an array or an object one always does.
-/

namespace SignatureVeil

namespace Json

variable {text rest : List Char} (more : List Char)

/-! ## White space and words -/

/-- The front of a text that passes a test ends where it did, if something
stands behind it. -/
theorem span_prolonged {passes : Char → Bool}
    (ends : text.dropWhile passes ≠ []) :
    (text ++ more).takeWhile passes = text.takeWhile passes ∧
      (text ++ more).dropWhile passes = text.dropWhile passes ++ more := by
  induction text with
  | nil => exact absurd rfl ends
  | cons character text ih =>
      cases passed : passes character with
      | true =>
          rw [List.dropWhile_cons_of_pos passed] at ends ⊢
          rw [List.cons_append, List.takeWhile_cons_of_pos passed,
            List.takeWhile_cons_of_pos passed,
            List.dropWhile_cons_of_pos passed, (ih ends).1, (ih ends).2]
          exact ⟨rfl, rfl⟩
      | false => simp [passed]

theorem skipSpace_prolonged {character : Char}
    (same : skipSpace text = character :: rest) :
    skipSpace (text ++ more) = character :: (rest ++ more) := by
  have ends : text.dropWhile isSpace ≠ [] :=
    List.ne_nil_of_mem (same ▸ List.mem_cons_self)
  rw [skipSpace, (span_prolonged more ends).2, ← skipSpace, same,
    List.cons_append]

theorem readWord_prolonged {word : List Char}
    (read : readWord word text = .ok rest) :
    readWord word (text ++ more) = .ok (rest ++ more) := by
  induction word generalizing text with
  | nil =>
      cases read
      rfl
  | cons expected word ih =>
      cases text with
      | nil => contradiction
      | cons character text =>
          rw [List.cons_append]
          rw [readWord] at read ⊢
          split at read
          · rw [if_pos ‹_›]
            exact ih read
          · contradiction

/-! ## Strings -/

/-- There are no fewer bytes for the digits of an escape. -/
theorem lacksHexDigits_prolonged (enough : ¬ lacksHexDigits text = true) :
    ¬ lacksHexDigits (text ++ more) = true := by
  rw [lacksHexDigits, decide_eq_true_eq] at enough ⊢
  rw [List.take_append, utf8Width_append]
  omega

theorem push_prolonged {character : Char}
    {read read' : Except Fault (List Char × List Char)}
    {characters : List Char}
    (same : push character read = .ok (characters, rest))
    (prolonged : ∀ behind, read = .ok (behind, rest) →
      read' = .ok (behind, rest ++ more)) :
    push character read' = .ok (characters, rest ++ more) := by
  cases read with
  | ok found =>
      cases same
      rw [prolonged _ rfl]
      rfl
  | error => contradiction

section

-- one character in each of the modes, if what is behind it may be prolonged
variable {character : Char} {characters : List Char}
  (prolonged : ∀ {mode : StringMode} {characters : List Char},
    readCharacters .full mode text = .ok (characters, rest) →
      readCharacters .full mode (text ++ more) =
        .ok (characters, rest ++ more))

include prolonged

theorem plain_prolonged
    (read : readCharacters .full .plain (character :: text) =
      .ok (characters, rest)) :
    readCharacters .full .plain (character :: (text ++ more)) =
      .ok (characters, rest ++ more) := by
  rw [readCharacters] at read ⊢
  split at read
  · rw [if_pos ‹_›]
    cases read
    rfl
  · rw [if_neg ‹_›]
    split at read
    · rw [if_pos ‹_›]
      exact prolonged read
    · rw [if_neg ‹_›]
      split at read
      · contradiction
      · rw [if_neg ‹_›]
        exact push_prolonged more read fun _ => prolonged

theorem escape_prolonged
    (read : readCharacters .full .escape (character :: text) =
      .ok (characters, rest)) :
    readCharacters .full .escape (character :: (text ++ more)) =
      .ok (characters, rest ++ more) := by
  rw [readCharacters] at read ⊢
  split at read
  · rw [if_pos ‹_›]
    split at read
    · contradiction
    · rw [if_neg (lacksHexDigits_prolonged more ‹_›)]
      exact prolonged read
  · rw [if_neg ‹_›]
    split at read
    · exact push_prolonged more read fun _ => prolonged
    · contradiction

theorem hex_prolonged {lead : Option Nat} {missing value : Nat}
    (read : readCharacters .full (.hex lead missing value)
      (character :: text) = .ok (characters, rest)) :
    readCharacters .full (.hex lead missing value)
      (character :: (text ++ more)) = .ok (characters, rest ++ more) := by
  rw [readCharacters] at read ⊢
  split at read
  · contradiction
  · split at read
    · rw [if_pos ‹_›]
      exact prolonged read
    · rw [if_neg ‹_›]
      split at read
      · exact push_prolonged more read fun _ => prolonged
      · exact prolonged read
      · contradiction

theorem lead_prolonged {first : Nat}
    (read : readCharacters .full (.lead first) (character :: text) =
      .ok (characters, rest)) :
    readCharacters .full (.lead first) (character :: (text ++ more)) =
      .ok (characters, rest ++ more) := by
  rw [readCharacters.eq_def] at read ⊢
  simp only [] at read ⊢
  split at read
  · rw [if_pos ‹_›]
    exact prolonged read
  · contradiction

theorem leadEscape_prolonged {first : Nat}
    (read : readCharacters .full (.leadEscape first) (character :: text) =
      .ok (characters, rest)) :
    readCharacters .full (.leadEscape first) (character :: (text ++ more)) =
      .ok (characters, rest ++ more) := by
  rw [readCharacters.eq_def] at read ⊢
  simp only [] at read ⊢
  split at read
  · rw [if_pos ‹_›]
    split at read
    · contradiction
    · rw [if_neg (lacksHexDigits_prolonged more ‹_›)]
      exact prolonged read
  · contradiction

end

theorem readCharacters_prolonged {mode : StringMode} {characters : List Char}
    (read : readCharacters .full mode text = .ok (characters, rest)) :
    readCharacters .full mode (text ++ more) =
      .ok (characters, rest ++ more) := by
  induction text generalizing mode characters with
  | nil => cases mode <;> contradiction
  | cons character text ih =>
      rw [List.cons_append]
      cases mode with
      | plain => exact plain_prolonged more ih read
      | escape => exact escape_prolonged more ih read
      | hex lead missing value => exact hex_prolonged more ih read
      | lead first => exact lead_prolonged more ih read
      | leadEscape first => exact leadEscape_prolonged more ih read

theorem readString_prolonged {value : String}
    (read : readString .full text = .ok (value, rest)) :
    readString .full (text ++ more) = .ok (value, rest ++ more) := by
  unfold readString at read ⊢
  split at read
  case h_1 same =>
    cases read
    rw [readCharacters_prolonged more same]
  case h_2 => contradiction

/-! ## Numbers -/

theorem ne_nil_of_length_le {shorter longer : List Char}
    (length_le : shorter.length ≤ longer.length) (nonempty : shorter ≠ []) :
    longer ≠ [] :=
  List.length_pos_iff.mp
    ((List.length_pos_iff.mpr nonempty).trans_le length_le)

theorem takeSign_prolonged {negative : Bool} {unsigned : List Char}
    (same : takeSign text = (negative, unsigned)) (nonempty : unsigned ≠ []) :
    takeSign (text ++ more) = (negative, unsigned ++ more) := by
  cases text with
  | nil =>
      cases same
      contradiction
  | cons character text =>
      rw [List.cons_append]
      unfold takeSign at same ⊢
      split at same <;> cases same <;> simp_all

section

variable (nonempty : rest ≠ [])

include nonempty

theorem readDigits_prolonged {digits : List Char}
    (read : readDigits .full text = .ok (digits, rest)) :
    readDigits .full (text ++ more) = .ok (digits, rest ++ more) := by
  cases text with
  | nil => contradiction
  | cons character text =>
      rw [List.cons_append]
      rw [readDigits] at read ⊢
      split at read
      · cases read
        rw [if_pos ‹_›, spanDigits, ← List.cons_append,
          (span_prolonged more nonempty).1, (span_prolonged more nonempty).2]
      · contradiction

theorem readWhole_prolonged {digits : List Char}
    (read : readWhole .full text = .ok (digits, rest)) :
    readWhole .full (text ++ more) = .ok (digits, rest ++ more) := by
  obtain ⟨⟨found, behind⟩, same, read⟩ := exists_of_bind_eq_ok read
  simp only [] at read
  split at read
  · contradiction
  · cases read
    rw [readWhole, readDigits_prolonged more nonempty same]
    simp only [bind, Except.bind]

theorem readFraction_prolonged {fraction : Option (List Char)}
    (read : readFraction .full text = .ok (fraction, rest)) :
    readFraction .full (text ++ more) = .ok (fraction, rest ++ more) := by
  unfold readFraction at read
  split at read
  case h_1 behind =>
    obtain ⟨⟨found, _⟩, same, read⟩ := exists_of_bind_eq_ok read
    cases read
    rw [List.cons_append, readFraction,
      readDigits_prolonged more nonempty same]
    rfl
  case h_2 noPoint =>
    cases read
    obtain ⟨character, behind, rfl⟩ := List.exists_cons_of_ne_nil nonempty
    rw [List.cons_append, readFraction]
    rintro _ ⟨⟩
    exact noPoint _ rfl

theorem readExponent_prolonged {power : Option Int}
    (read : readExponent .full text = .ok (power, rest)) :
    readExponent .full (text ++ more) = .ok (power, rest ++ more) := by
  unfold readExponent at read
  split at read
  case h_3 noSmall noCapital =>
    cases read
    obtain ⟨character, behind, rfl⟩ := List.exists_cons_of_ne_nil nonempty
    rw [List.cons_append, readExponent]
    · rintro _ ⟨⟩
      exact noSmall _ rfl
    · rintro _ ⟨⟩
      exact noCapital _ rfl
  all_goals
    rename_i behind
    generalize signed : takeSign behind = found at read
    obtain ⟨negative, unsigned⟩ := found
    obtain ⟨⟨digits, _⟩, same, read⟩ := exists_of_bind_eq_ok read
    cases read
    rw [List.cons_append, readExponent, takeSign_prolonged more signed
      (ne_nil_of_length_le (readDigits_skim same).2 nonempty)]
    simp only [readDigits_prolonged more nonempty same, bind, Except.bind]
    rfl

theorem readUnsigned_prolonged {negative : Bool} {number : JsonNumber}
    (read : readUnsigned .full negative text = .ok (number, rest)) :
    readUnsigned .full negative (text ++ more) = .ok (number, rest ++ more) := by
  obtain ⟨⟨whole, behind⟩, first, read⟩ := exists_of_bind_eq_ok read
  obtain ⟨⟨fraction, behind'⟩, second, read⟩ := exists_of_bind_eq_ok read
  obtain ⟨⟨power, behind''⟩, third, read⟩ := exists_of_bind_eq_ok read
  simp only [] at read
  split at read
  case h_1 value =>
    cases read
    have nonempty' :=
      ne_nil_of_length_le (readExponent_skim third).2 nonempty
    have nonempty'' :=
      ne_nil_of_length_le (readFraction_skim second).2 nonempty'
    rw [readUnsigned, readWhole_prolonged more nonempty'' first]
    simp only [readFraction_prolonged more nonempty' second,
      readExponent_prolonged more nonempty third, bind, Except.bind, value]
    rfl
  case h_2 => contradiction

theorem readNumber_prolonged {number : JsonNumber}
    (read : readNumber .full text = .ok (number, rest)) :
    readNumber .full (text ++ more) = .ok (number, rest ++ more) := by
  rw [readNumber_eq] at read ⊢
  split at read
  case h_1 => exact readUnsigned_prolonged more nonempty read
  case h_2 noSign =>
    have signed : text ≠ [] :=
      ne_nil_of_length_le (skims_readUnsigned read).length_le nonempty
    obtain ⟨character, behind, rfl⟩ := List.exists_cons_of_ne_nil signed
    rw [List.cons_append]
    split
    case h_1 same =>
      obtain ⟨rfl, -⟩ := List.cons.inj same
      exact absurd rfl (noSign behind)
    case h_2 => exact readUnsigned_prolonged more nonempty read

theorem readAtom_prolonged {value : Json}
    (read : readAtom .full text = .ok (value, rest)) :
    readAtom .full (text ++ more) = .ok (value, rest ++ more) := by
  have word {word behind : List Char} {value' : Json}
      (read : (do return (value', ← readWord word behind)) =
        Except.ok (value, rest)) :
      (do return (value', ← readWord word (behind ++ more))) =
        Except.ok (value, rest ++ more) := by
    obtain ⟨_, same, read⟩ := exists_of_bind_eq_ok read
    cases read
    rw [readWord_prolonged more same]
    rfl
  unfold readAtom at read
  split at read
  · contradiction
  · exact word read
  · exact word read
  · exact word read
  · obtain ⟨⟨found, _⟩, same, read⟩ := exists_of_bind_eq_ok read
    cases read
    rw [List.cons_append, readAtom, readString_prolonged more same]
    rfl
  · split at read
    case isTrue starts =>
      obtain ⟨⟨found, _⟩, same, read⟩ := exists_of_bind_eq_ok read
      cases read
      simp only [Bool.or_eq_true, decide_eq_true_eq] at starts
      exact readAtom_number starts (readNumber_prolonged more nonempty same)
    case isFalse => contradiction

end

/-! ## Items and members -/

/-- More text behind a part or behind a bracket. -/
def Next.prolonged (more : List Char) : Next → Next
  | .part text => .part (text ++ more)
  | .close rest => .close (rest ++ more)

theorem nextItem_prolonged {first : Bool} {next : Next}
    (found : nextItem first text = .ok next) :
    nextItem first (text ++ more) = .ok (next.prolonged more) := by
  unfold nextItem at found
  split at found
  case h_1 => contradiction
  case h_2 same =>
    cases found
    rw [nextItem, skipSpace_prolonged more same]
    rfl
  case h_3 character behind opens same =>
    have opens' : ∀ rest, character :: (behind ++ more) ≠ ']' :: rest := by
      rintro _ ⟨⟩
      exact opens rfl
    rw [nextItem, skipSpace_prolonged more same]
    split
    case h_1 same' => exact absurd same' (List.cons_ne_nil _ _)
    case h_2 same' => exact absurd same' (opens' _)
    case h_3 same' =>
      obtain ⟨rfl, rfl⟩ := List.cons.inj same'
      split at found
      case isTrue isFirst =>
        cases found
        rw [if_pos isFirst]
        rfl
      case isFalse notFirst =>
        rw [if_neg notFirst]
        split at found
        case isTrue comma =>
          rw [if_pos comma]
          split at found
          case h_1 => contradiction
          case h_2 => contradiction
          case h_3 noEnd opens =>
            cases found
            obtain ⟨initial, item, same⟩ := List.exists_cons_of_ne_nil noEnd
            rw [skipSpace_prolonged more same, same]
            split
            case h_1 same' => exact absurd same' (List.cons_ne_nil _ _)
            case h_2 same' =>
              obtain ⟨rfl, -⟩ := List.cons.inj same'
              exact absurd same (opens _)
            case h_3 => rfl
        case isFalse => contradiction

theorem nextKey_prolonged {first : Bool} {next : Next}
    (found : nextKey first text = .ok next) :
    nextKey first (text ++ more) = .ok (next.prolonged more) := by
  unfold nextKey at found
  split at found
  case h_1 => contradiction
  case h_2 same =>
    cases found
    rw [nextKey, skipSpace_prolonged more same]
    rfl
  case h_3 character behind opens same =>
    have opens' : ∀ rest, character :: (behind ++ more) ≠ '}' :: rest := by
      rintro _ ⟨⟩
      exact opens rfl
    rw [nextKey, skipSpace_prolonged more same]
    split
    case h_1 same' => exact absurd same' (List.cons_ne_nil _ _)
    case h_2 same' => exact absurd same' (opens' _)
    case h_3 same' =>
      obtain ⟨rfl, rfl⟩ := List.cons.inj same'
      split at found
      case isTrue isFirst =>
        rw [if_pos isFirst]
        split at found
        case isTrue quote =>
          cases found
          rw [if_pos quote]
          rfl
        case isFalse => contradiction
      case isFalse notFirst =>
        rw [if_neg notFirst]
        split at found
        case isTrue comma =>
          rw [if_pos comma]
          split at found
          case h_1 => contradiction
          case h_2 same =>
            cases found
            rw [skipSpace_prolonged more same]
            rfl
          case h_3 => contradiction
        case isFalse => contradiction

theorem readColon_prolonged (read : readColon text = .ok rest) :
    readColon (text ++ more) = .ok (rest ++ more) := by
  unfold readColon at read
  split at read
  case h_1 => contradiction
  case h_2 same =>
    cases read
    rw [readColon, skipSpace_prolonged more same]
    rfl
  case h_3 => contradiction

section

variable {read : List Char → Except Fault (Json × List Char)}
  (prolonged : ∀ text value rest, read text = .ok (value, rest) →
    rest ≠ [] → read (text ++ more) = .ok (value, rest ++ more))

include prolonged

/-- Behind each item a comma or a bracket has been seen.  The limit on the
number of parts may grow with the text. -/
theorem readItems_prolonged {limit limit' : Nat} {first : Bool}
    {items : List Json} (enough : limit ≤ limit')
    (found : readItems read limit first text = .ok (items, rest)) :
    readItems read limit' first (text ++ more) = .ok (items, rest ++ more) := by
  induction limit generalizing limit' first text items with
  | zero => contradiction
  | succ limit ih =>
      obtain ⟨limit', rfl⟩ := Nat.exists_eq_add_of_le' (Nat.one_le_of_lt enough)
      obtain ⟨next, same, found⟩ := exists_of_bind_eq_ok found
      rw [readItems, nextItem_prolonged more same]
      cases next with
      | close behind =>
          cases found
          rfl
      | part part =>
          obtain ⟨⟨item, behind⟩, isItem, found⟩ := exists_of_bind_eq_ok found
          obtain ⟨⟨items, _⟩, areItems, found⟩ := exists_of_bind_eq_ok found
          cases found
          have goesOn : behind ≠ [] := by
            rintro rfl
            cases limit <;> contradiction
          simp only [Next.prolonged, bind, Except.bind,
            prolonged _ _ _ isItem goesOn,
            ih (Nat.le_of_succ_le_succ enough) areItems]
          rfl

theorem readMembers_prolonged {limit limit' : Nat} {first : Bool}
    {members found : List (String × Json)} (enough : limit ≤ limit')
    (same : readMembers .full read limit first members text =
      .ok (found, rest)) :
    readMembers .full read limit' first members (text ++ more) =
      .ok (found, rest ++ more) := by
  induction limit generalizing limit' first text members with
  | zero => contradiction
  | succ limit ih =>
      obtain ⟨limit', rfl⟩ := Nat.exists_eq_add_of_le' (Nat.one_le_of_lt enough)
      obtain ⟨next, isNext, same⟩ := exists_of_bind_eq_ok same
      rw [readMembers, nextKey_prolonged more isNext]
      cases next with
      | close behind =>
          cases same
          rfl
      | part part =>
          obtain ⟨⟨key, behind⟩, isKey, same⟩ := exists_of_bind_eq_ok same
          obtain ⟨behind', isColon, same⟩ := exists_of_bind_eq_ok same
          obtain ⟨⟨value, behind''⟩, isValue, same⟩ :=
            exists_of_bind_eq_ok same
          have goesOn : behind'' ≠ [] := by
            rintro rfl
            cases limit <;> contradiction
          simp only [Next.prolonged, bind, Except.bind,
            readString_prolonged more isKey, readColon_prolonged more isColon,
            prolonged _ _ _ isValue goesOn]
          exact ih (Nat.le_of_succ_le_succ enough) same

end

/-! ## Values -/

/-- A value ends with a bracket of its own. -/
def Bracketed : Json → Prop
  | .array _ => True
  | .object _ => True
  | _ => False

/-- A value that has no brackets. -/
theorem readAtomValue_prolonged
    {nested : Option (List Char → Except Fault (Json × List Char))}
    {value : Json} (nonempty : rest ≠ [])
    (noArray : ∀ behind, skipSpace text ≠ '[' :: behind)
    (noObject : ∀ behind, skipSpace text ≠ '\x7b' :: behind)
    (found : readAtom .full (skipSpace text) = .ok (value, rest)) :
    readValueWith .full nested (text ++ more) = .ok (value, rest ++ more) := by
  obtain ⟨character, behind, same⟩ : ∃ character behind,
      skipSpace text = character :: behind := by
    refine List.exists_cons_of_ne_nil fun atEnd => ?_
    rw [atEnd] at found
    contradiction
  have same' := skipSpace_prolonged more same
  rw [readValueWith_of_atom]
  · rw [same']
    rw [same] at found
    exact readAtom_prolonged more nonempty found
  · intro _ opens
    obtain ⟨rfl, -⟩ := List.cons.inj (same'.symm.trans opens)
    exact noArray _ same
  · intro _ opens
    obtain ⟨rfl, -⟩ := List.cons.inj (same'.symm.trans opens)
    exact noObject _ same

/-- A value keeps its end if something follows it or if it has a bracket. -/
theorem readValueWith_prolonged
    {nested : Option (List Char → Except Fault (Json × List Char))}
    (prolonged : ∀ read, nested = some read → ∀ text value rest,
      read text = .ok (value, rest) → rest ≠ [] →
        read (text ++ more) = .ok (value, rest ++ more))
    {value : Json} (ends : rest ≠ [] ∨ value.Bracketed)
    (found : readValueWith .full nested text = .ok (value, rest)) :
    readValueWith .full nested (text ++ more) = .ok (value, rest ++ more) := by
  have longer (behind : List Char) :
      behind.length ≤ (behind ++ more).length := by simp
  unfold readValueWith at found
  split at found
  case h_1 behind same =>
    rw [readValueWith, skipSpace_prolonged more same]
    split at found
    case h_1 => contradiction
    case h_2 read =>
      obtain ⟨⟨items, _⟩, areItems, found⟩ := exists_of_bind_eq_ok found
      cases found
      simp only [bind, Except.bind, readItems_prolonged more
        (prolonged read rfl) (longer behind) areItems]
      rfl
  case h_2 behind same =>
    rw [readValueWith, skipSpace_prolonged more same]
    split at found
    case h_1 => contradiction
    case h_2 read =>
      obtain ⟨⟨members, _⟩, areMembers, found⟩ := exists_of_bind_eq_ok found
      cases found
      simp only [bind, Except.bind, readMembers_prolonged more
        (prolonged read rfl) (longer behind) areMembers]
      rfl
  case h_3 noArray noObject =>
    refine readAtomValue_prolonged more ?_ noArray noObject found
    refine ends.resolve_right fun bracketed => ?_
    have flat : WellFormed 0 value := readAtom_wellFormed found
    cases flat <;> exact bracketed

theorem readValue_prolonged {depth : Nat} {value : Json}
    (ends : rest ≠ [] ∨ value.Bracketed)
    (read : readValue .full depth text = .ok (value, rest)) :
    readValue .full depth (text ++ more) = .ok (value, rest ++ more) := by
  induction depth generalizing text value rest with
  | zero =>
      refine readValueWith_prolonged more ?_ ends read
      rintro _ ⟨⟩
  | succ depth ih =>
      refine readValueWith_prolonged more ?_ ends read
      rintro _ ⟨⟩ text value rest read nonempty
      exact ih (.inl nonempty) read

/-- What has been written is read to its last character, so no array or object
is read from a part of it that comes to an end before. -/
theorem parse_ne_of_cut {value found : Json} {torn : String}
    (wellFormed : WellFormed depthLimit value) (missing : more ≠ [])
    (cut : value.toPrettyText.toList = torn.toList ++ more)
    (bracketed : found.Bracketed) : parse torn ≠ .ok found := by
  intro parsed
  obtain ⟨⟨value', rest⟩, read, parsed⟩ := exists_of_bind_eq_ok parsed
  obtain ⟨_, -, same⟩ := exists_of_bind_eq_ok parsed
  cases same
  have whole := readValue_write wellFormed 0 numberEnds_nil
  have written : writePretty 0 value = torn.toList ++ more := by
    rw [← cut, toPrettyText, String.toList_ofList]
  rw [List.append_nil, written,
    readValue_prolonged more (.inr bracketed) read] at whole
  exact missing
    (List.append_eq_nil_iff.mp (Prod.mk.inj (Except.ok.inj whole)).2).2

end Json

end SignatureVeil
