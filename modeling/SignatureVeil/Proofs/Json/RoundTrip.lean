import SignatureVeil.Proofs.Json.Strings
import SignatureVeil.Proofs.Json.Trees

/-!
# Values that are written and read again

A value that a text can hold is read where it was written, with one part on
each line, but that its numbers are those that are read where its numbers were
written.
-/

namespace SignatureVeil

namespace Json

variable {rest : List Char}

/-! ## White space -/

/-- White space only. -/
def Blank (text : List Char) : Prop :=
  ∀ character ∈ text, isSpace character = true

theorem blank_newLine (depth : Nat) : Blank (newLine depth) := by
  refine List.forall_mem_cons.mpr ⟨rfl, fun character isMember => ?_⟩
  rw [List.eq_of_mem_replicate isMember]
  rfl

theorem blank_closingLine (depth : Nat) (isEmpty : Bool) :
    Blank (closingLine depth isEmpty) := by
  cases isEmpty with
  | true => exact fun _ isMember => absurd isMember List.not_mem_nil
  | false => exact blank_newLine depth

theorem skipSpace_append {space : List Char} (blank : Blank space)
    (text : List Char) : skipSpace (space ++ text) = skipSpace text :=
  List.dropWhile_append_of_pos blank

theorem skipSpace_cons {character : Char} (shown : isSpace character = false)
    (text : List Char) : skipSpace (character :: text) = character :: text :=
  List.dropWhile_cons_of_neg (by rw [shown]; exact Bool.false_ne_true)

theorem isDigit_eq_false_of_isSpace {character : Char}
    (space : isSpace character = true) :
    character.isDigit = false ∧ character ≠ '.' ∧ character ≠ 'e' ∧
      character ≠ 'E' := by
  simp only [isSpace, Bool.or_eq_true, decide_eq_true_eq] at space
  rcases space with ((rfl | rfl) | rfl) | rfl <;> decide

/-- A bracket ends a number, with white space before it or without. -/
theorem numberEnds_closing {space : List Char} (blank : Blank space)
    {bracket : Char} (closes : bracket = ']' ∨ bracket = '}')
    (rest : List Char) : NumberEnds (space ++ bracket :: rest) := by
  intro character first
  cases space with
  | nil =>
      obtain rfl := Option.some.inj first
      rcases closes with rfl | rfl <;> decide
  | cons head space =>
      obtain rfl := Option.some.inj first
      exact isDigit_eq_false_of_isSpace (blank head List.mem_cons_self)

theorem numberEnds_comma (rest : List Char) : NumberEnds (',' :: rest) := by
  intro character first
  obtain rfl := Option.some.inj first
  decide

/-! ## Values without parts -/

/-- What is read in the same way whatever reads items and members. -/
theorem readValue_of_forall {rigor : Rigor} {text : List Char}
    {result : Except Fault (Json × List Char)}
    (reads : ∀ nested, readValueWith rigor nested text = result)
    (depth : Nat) : readValue rigor depth text = result := by
  cases depth with
  | zero => exact reads none
  | succ depth => exact reads (some (readValue rigor depth))

theorem readValue_skipSpace {space : List Char} (blank : Blank space)
    (rigor : Rigor) (depth : Nat) (text : List Char) :
    readValue rigor depth (space ++ text) = readValue rigor depth text := by
  cases depth <;>
    rw [readValue, readValueWith, readValueWith, skipSpace_append blank]

/-- The first character of a number. -/
def StartsNumber (character : Char) : Prop :=
  character = '-' ∨ character.isDigit = true

theorem StartsNumber.ne {character other : Char}
    (starts : StartsNumber character) (notSign : other ≠ '-')
    (notDigit : other.isDigit = false) : character ≠ other := by
  rintro rfl
  rcases starts with sign | digit
  · exact notSign sign
  · exact absurd (digit.symm.trans notDigit) nofun

theorem StartsNumber.cons_ne {character other : Char} {more : List Char}
    (starts : StartsNumber character) (notSign : other ≠ '-')
    (notDigit : other.isDigit = false) (rest : List Char) :
    character :: more ≠ other :: rest :=
  fun same => starts.ne notSign notDigit (List.cons.inj same).1

theorem StartsNumber.shown {character : Char}
    (starts : StartsNumber character) : isSpace character = false := by
  simp [isSpace, starts.ne]

theorem exists_signed_text_eq_cons {spelling : Spelling}
    (wellFormed : spelling.WellFormed) (negative : Bool) :
    ∃ character more, minusSign negative ++ spelling.text = character :: more ∧
      StartsNumber character := by
  cases negative with
  | true => exact ⟨'-', _, rfl, .inl rfl⟩
  | false =>
      obtain ⟨digit, more, text, decimal⟩ := exists_text_eq_cons wellFormed
      exact ⟨digit, more, text, .inr decimal⟩

theorem exists_write_eq_cons (number : JsonNumber) :
    ∃ character more, number.write = character :: more ∧
      StartsNumber character := by
  rw [JsonNumber.write_eq]
  exact exists_signed_text_eq_cons number.spelling_wellFormed _

theorem readAtom_of_starts {character : Char} {more : List Char}
    (starts : StartsNumber character) :
    readAtom .full (character :: more) = (do
      let (value, rest) ← readNumber .full (character :: more)
      return (.number value, rest)) := by
  have number : (character = '-' || character.isDigit) = true := by
    simpa [StartsNumber] using starts
  unfold readAtom
  split
  case h_1 same => exact absurd same nofun
  case h_2 same =>
    exact absurd same (starts.cons_ne (by decide) (by decide) _)
  case h_3 same =>
    exact absurd same (starts.cons_ne (by decide) (by decide) _)
  case h_4 same =>
    exact absurd same (starts.cons_ne (by decide) (by decide) _)
  case h_5 same =>
    exact absurd same (starts.cons_ne (by decide) (by decide) _)
  case h_6 same =>
    obtain ⟨rfl, rfl⟩ := List.cons.inj same
    rw [if_pos number]

theorem readAtom_number {character : Char} {more : List Char}
    {number : JsonNumber} (starts : StartsNumber character)
    (read : readNumber .full (character :: more) = .ok (number, rest)) :
    readAtom .full (character :: more) = .ok (.number number, rest) := by
  rw [readAtom_of_starts starts, read]
  rfl

section

variable (nested : Option (List Char → Except Fault (Json × List Char)))

theorem readValueWith_of_starts {character : Char} {more : List Char}
    {number : JsonNumber} (starts : StartsNumber character)
    (read : readNumber .full (character :: more) = .ok (number, rest)) :
    readValueWith .full nested (character :: more) =
      .ok (.number number, rest) := by
  rw [readValueWith, skipSpace_cons starts.shown]
  split
  case h_1 same =>
    exact absurd same (starts.cons_ne (by decide) (by decide) _)
  case h_2 same =>
    exact absurd same (starts.cons_ne (by decide) (by decide) _)
  case h_3 => exact readAtom_number starts read

theorem readValueWith_number {number : JsonNumber}
    (wellFormed : number.WellFormed) (ends : NumberEnds rest) :
    readValueWith .full nested (number.write ++ rest) =
      .ok (.number number.reread, rest) := by
  have read := JsonNumber.readNumber_write wellFormed ends
  obtain ⟨character, more, written, starts⟩ := exists_write_eq_cons number
  rw [written, List.cons_append] at read ⊢
  exact readValueWith_of_starts nested starts read

theorem readValueWith_string (value : String) (rest : List Char) :
    readValueWith .full nested (writeString value ++ rest) =
      .ok (.string value, rest) := by
  have read := readString_write rest value
  rw [writeString, List.cons_append, List.append_assoc, List.singleton_append]
  rw [readValueWith, skipSpace_cons rfl]
  change (readString .full _ >>= _) = _
  rw [read]
  rfl

theorem readValueWith_null (rest : List Char) :
    readValueWith .full nested (writeNull ++ rest) = .ok (.null, rest) := by
  rfl

theorem readValueWith_bool (value : Bool) (rest : List Char) :
    readValueWith .full nested (writeBool value ++ rest) =
      .ok (.bool value, rest) := by
  cases value <;> rfl

end

/-! ## Items -/

/-- What stands between one part and the next. -/
def separator (first : Bool) : List Char :=
  if first then [] else [',']

theorem exists_writePretty_eq_cons (depth : Nat) (value : Json) :
    ∃ character more, writePretty depth value = character :: more ∧
      isSpace character = false ∧ character ≠ ']' := by
  cases value with
  | null => exact ⟨'n', _, rfl, rfl, by decide⟩
  | bool value =>
      cases value with
      | true => exact ⟨'t', _, rfl, rfl, by decide⟩
      | false => exact ⟨'f', _, rfl, rfl, by decide⟩
  | number value =>
      obtain ⟨character, more, written, starts⟩ := exists_write_eq_cons value
      exact ⟨character, more, written, starts.shown,
        starts.ne (by decide) (by decide)⟩
  | string value => exact ⟨'"', _, rfl, rfl, by decide⟩
  | array items => exact ⟨'[', _, rfl, rfl, by decide⟩
  | object members => exact ⟨'{', _, rfl, rfl, by decide⟩

section

variable {space : List Char} (blank : Blank space)

include blank

theorem nextItem_closing (first : Bool) (rest : List Char) :
    nextItem first (space ++ ']' :: rest) = .ok (.close rest) := by
  rw [nextItem, skipSpace_append blank, skipSpace_cons rfl]
  rfl

theorem nextItem_separator (first : Bool) {character : Char}
    (shown : isSpace character = false) (opens : character ≠ ']')
    (more : List Char) :
    nextItem first (separator first ++ (space ++ character :: more)) =
      .ok (.part (character :: more)) := by
  have skipped : skipSpace (space ++ character :: more) = character :: more := by
    rw [skipSpace_append blank, skipSpace_cons shown]
  cases first with
  | true =>
      rw [separator, if_pos rfl, List.nil_append, nextItem, skipped]
      split
      case h_1 same => exact absurd same nofun
      case h_2 same => exact absurd (List.cons.inj same).1 opens
      case h_3 same => rw [if_pos rfl, same]
  | false =>
      rw [separator, if_neg Bool.false_ne_true, List.singleton_append, nextItem,
        skipSpace_cons rfl]
      split
      case h_1 same => exact absurd same nofun
      case h_2 same => exact absurd (List.cons.inj same).1 (by decide)
      case h_3 same =>
        obtain ⟨rfl, rfl⟩ := List.cons.inj same
        rw [if_neg Bool.false_ne_true, if_pos rfl, skipped]
        split
        case h_1 same => exact absurd same nofun
        case h_2 same => exact absurd (List.cons.inj same).1 opens
        case h_3 same => rfl

end

theorem numberEnds_items {space : List Char} (blank : Blank space)
    (depth : Nat) (items : List Json) (rest : List Char) :
    NumberEnds (writePrettyItems depth false items ++
      (space ++ ']' :: rest)) := by
  cases items with
  | nil => exact numberEnds_closing blank (.inl rfl) rest
  | cons item items => exact numberEnds_comma _

/-- If each item is read where it was written, the items are. -/
theorem readItems_write {read : List Char → Except Fault (Json × List Char)}
    {meaning : Json → Json} {depth : Nat} {items : List Json}
    (reads : ∀ item ∈ items, ∀ rest, NumberEnds rest →
      read (writePretty depth item ++ rest) = .ok (meaning item, rest))
    {space : List Char} (blank : Blank space) (limit : Nat)
    (enough : items.length < limit) (first : Bool) (rest : List Char) :
    readItems read limit first
        (writePrettyItems depth first items ++ (space ++ ']' :: rest)) =
      .ok (items.map meaning, rest) := by
  induction items generalizing limit first with
  | nil =>
      obtain ⟨limit, rfl⟩ := Nat.exists_eq_add_one_of_ne_zero
        (Nat.ne_zero_of_lt enough)
      rw [writePrettyItems, List.nil_append, readItems,
        nextItem_closing blank]
      rfl
  | cons item items ih =>
      obtain ⟨limit, rfl⟩ := Nat.exists_eq_add_one_of_ne_zero
        (Nat.ne_zero_of_lt enough)
      obtain ⟨readsItem, readsItems⟩ := List.forall_mem_cons.mp reads
      have ends := numberEnds_items blank depth items rest
      have behind := ih readsItems limit (Nat.lt_of_succ_lt_succ enough) false
      obtain ⟨character, more, written, shown, opens⟩ :=
        exists_writePretty_eq_cons depth item
      have next := nextItem_separator (blank_newLine depth) first shown opens
        (more ++ (writePrettyItems depth false items ++
          (space ++ ']' :: rest)))
      rw [← List.cons_append, ← written, separator] at next
      simp only [writePrettyItems, List.append_assoc, readItems, next, bind,
        Except.bind, readsItem _ ends, behind]
      rfl

/-! ## Members -/

section

variable {space : List Char} (blank : Blank space)

include blank

theorem nextKey_closing (first : Bool) (rest : List Char) :
    nextKey first (space ++ '}' :: rest) = .ok (.close rest) := by
  rw [nextKey, skipSpace_append blank, skipSpace_cons rfl]
  rfl

theorem nextKey_separator (first : Bool) (more : List Char) :
    nextKey first (separator first ++ (space ++ '"' :: more)) =
      .ok (.part more) := by
  have skipped : skipSpace (space ++ '"' :: more) = '"' :: more := by
    rw [skipSpace_append blank, skipSpace_cons rfl]
  cases first with
  | true =>
      rw [separator, if_pos rfl, List.nil_append, nextKey, skipped]
      rfl
  | false =>
      rw [separator, if_neg Bool.false_ne_true, List.singleton_append, nextKey,
        skipSpace_cons rfl]
      split
      case h_1 same => exact absurd same nofun
      case h_2 same => exact absurd (List.cons.inj same).1 (by decide)
      case h_3 same =>
        obtain ⟨rfl, rfl⟩ := List.cons.inj same
        rw [if_neg Bool.false_ne_true, if_pos rfl, skipped]
        rfl

end

theorem numberEnds_members {space : List Char} (blank : Blank space)
    (depth : Nat) (members : List (String × Json)) (rest : List Char) :
    NumberEnds (writePrettyMembers depth false members ++
      (space ++ '}' :: rest)) := by
  cases members with
  | nil => exact numberEnds_closing blank (.inr rfl) rest
  | cons member members => exact numberEnds_comma _

theorem writePrettyMembers_cons_append (depth : Nat) (first : Bool)
    (key : String) (value : Json) (members : List (String × Json))
    (rest : List Char) :
    writePrettyMembers depth first ((key, value) :: members) ++ rest =
      separator first ++ (newLine depth ++
        '"' :: (key.toList.flatMap escapeCharacter ++ '"' :: ':' :: ' ' ::
          (writePretty depth value ++
            (writePrettyMembers depth false members ++ rest)))) := by
  simp [writePrettyMembers, writeString, separator]

/-- If the value of each member is read where it was written, the members are,
behind those that have been read. -/
theorem readMembers_write
    {read : List Char → Except Fault (Json × List Char)}
    {meaning : Json → Json} {depth : Nat}
    {found members : List (String × Json)} (ascending : Ascending members)
    (above : ∀ old ∈ found, ∀ member ∈ members, old.1 < member.1)
    (reads : ∀ member ∈ members, ∀ rest, NumberEnds rest →
      read (' ' :: (writePretty depth member.2 ++ rest)) =
        .ok (meaning member.2, rest))
    {space : List Char} (blank : Blank space) (limit : Nat)
    (enough : members.length < limit) (first : Bool) (rest : List Char) :
    readMembers .full read limit first found
        (writePrettyMembers depth first members ++ (space ++ '}' :: rest)) =
      .ok (found ++ members.map fun member => (member.1, meaning member.2),
        rest) := by
  induction members generalizing found limit first with
  | nil =>
      obtain ⟨limit, rfl⟩ := Nat.exists_eq_add_one_of_ne_zero
        (Nat.ne_zero_of_lt enough)
      rw [writePrettyMembers, List.nil_append, readMembers,
        nextKey_closing blank, List.map_nil, List.append_nil]
      rfl
  | cons member members ih =>
      obtain ⟨limit, rfl⟩ := Nat.exists_eq_add_one_of_ne_zero
        (Nat.ne_zero_of_lt enough)
      obtain ⟨key, value⟩ := member
      obtain ⟨below, ascending⟩ := List.pairwise_cons.mp ascending
      obtain ⟨readsValue, readsMembers⟩ := List.forall_mem_cons.mp reads
      have last : ∀ old ∈ found, old.1 < key := fun old isOld =>
        above old isOld (key, value) List.mem_cons_self
      have above' : ∀ old ∈ found ++ [(key, meaning value)],
          ∀ member ∈ members, old.1 < member.1 :=
        List.forall_mem_append.mpr
          ⟨fun old isOld member isMember =>
            above old isOld member (List.mem_cons_of_mem _ isMember),
            List.forall_mem_singleton.mpr below⟩
      have ends := numberEnds_members blank depth members rest
      have behind := ih ascending above' readsMembers limit
        (Nat.lt_of_succ_lt_succ enough) false
      have value' := readsValue _ ends
      rw [writePrettyMembers_cons_append]
      generalize writePrettyMembers depth false members ++ (space ++ '}' :: rest)
        = tail at behind value' ⊢
      have colon : readColon (':' :: ' ' :: (writePretty depth value ++ tail)) =
          .ok (' ' :: (writePretty depth value ++ tail)) := rfl
      simp only [readMembers, nextKey_separator (blank_newLine depth),
        readString_write, colon, value', insert_eq_append last, behind, bind,
        Except.bind]
      rw [List.append_assoc, List.singleton_append, List.map_cons]

/-! ## Values -/

theorem length_le_writePrettyItems (depth : Nat) (first : Bool)
    (items : List Json) :
    items.length ≤ (writePrettyItems depth first items).length := by
  induction items generalizing first with
  | nil => exact Nat.zero_le _
  | cons item items ih =>
      have := ih false
      simp only [writePrettyItems, newLine, List.length_append,
        List.length_cons]
      omega

theorem length_le_writePrettyMembers (depth : Nat) (first : Bool)
    (members : List (String × Json)) :
    members.length ≤ (writePrettyMembers depth first members).length := by
  induction members generalizing first with
  | nil => exact Nat.zero_le _
  | cons member members ih =>
      have := ih false
      simp only [writePrettyMembers, newLine, List.length_append,
        List.length_cons]
      omega

theorem readValue_array {depth level : Nat} {items : List Json}
    (reads : ∀ item ∈ items, ∀ rest, NumberEnds rest →
      readValue .full depth (writePretty (level + 1) item ++ rest) =
        .ok (item.mapNumbers JsonNumber.reread, rest)) (rest : List Char) :
    readValue .full (depth + 1) (writePretty level (.array items) ++ rest) =
      .ok ((Json.array items).mapNumbers JsonNumber.reread, rest) := by
  have blank := blank_closingLine level items.isEmpty
  have enough : items.length < (writePrettyItems (level + 1) true items ++
      (closingLine level items.isEmpty ++ ']' :: rest)).length := by
    have := length_le_writePrettyItems (level + 1) true items
    simp only [List.length_append, List.length_cons]
    omega
  rw [writePretty, List.cons_append, List.append_assoc, List.append_assoc,
    List.singleton_append, readValue, readValueWith, skipSpace_cons rfl,
    mapNumbers, mapNumbersOfItems_eq]
  simp only [readItems_write reads blank _ enough, bind, Except.bind]
  rfl

theorem readValue_object {depth level : Nat} {members : List (String × Json)}
    (ascending : Ascending members)
    (reads : ∀ member ∈ members, ∀ rest, NumberEnds rest →
      readValue .full depth (writePretty (level + 1) member.2 ++ rest) =
        .ok (member.2.mapNumbers JsonNumber.reread, rest)) (rest : List Char) :
    readValue .full (depth + 1) (writePretty level (.object members) ++ rest) =
      .ok ((Json.object members).mapNumbers JsonNumber.reread, rest) := by
  have reads' : ∀ member ∈ members, ∀ rest, NumberEnds rest →
      readValue .full depth
          (' ' :: (writePretty (level + 1) member.2 ++ rest)) =
        .ok (member.2.mapNumbers JsonNumber.reread, rest) :=
    fun member isMember rest ends =>
      (readValue_skipSpace (List.forall_mem_singleton.mpr rfl) _ _ _).trans
        (reads member isMember rest ends)
  have blank := blank_closingLine level members.isEmpty
  have enough : members.length <
      (writePrettyMembers (level + 1) true members ++
        (closingLine level members.isEmpty ++ '}' :: rest)).length := by
    have := length_le_writePrettyMembers (level + 1) true members
    simp only [List.length_append, List.length_cons]
    omega
  have noneFound : ∀ old ∈ ([] : List (String × Json)),
      ∀ member ∈ members, old.1 < member.1 :=
    fun _ isOld => absurd isOld List.not_mem_nil
  rw [writePretty, List.cons_append, List.append_assoc, List.append_assoc,
    List.singleton_append, readValue, readValueWith, skipSpace_cons rfl,
    mapNumbers, mapNumbersOfMembers_eq]
  simp only [readMembers_write ascending noneFound reads' blank _ enough,
    bind, Except.bind]
  rfl

theorem readValue_write {depth : Nat} {value : Json}
    (wellFormed : WellFormed depth value) (level : Nat)
    (ends : NumberEnds rest) :
    readValue .full depth (writePretty level value ++ rest) =
      .ok (value.mapNumbers JsonNumber.reread, rest) := by
  induction wellFormed generalizing level rest with
  | null =>
      exact readValue_of_forall (fun nested => readValueWith_null nested rest) _
  | bool value =>
      exact readValue_of_forall
        (fun nested => readValueWith_bool nested value rest) _
  | number wellFormed =>
      exact readValue_of_forall
        (fun nested => readValueWith_number nested wellFormed ends) _
  | string value =>
      exact readValue_of_forall
        (fun nested => readValueWith_string nested value rest) _
  | array items_wellFormed ih =>
      exact readValue_array (fun item isItem _ => ih item isItem (level + 1))
        rest
  | object ascending members_wellFormed ih =>
      exact readValue_object ascending
        (fun member isMember _ => ih member isMember (level + 1)) rest

/-- The text of a value is read as that value, with its numbers reread. -/
theorem parse_toPrettyText {value : Json}
    (wellFormed : WellFormed depthLimit value) :
    parse value.toPrettyText = .ok (value.mapNumbers JsonNumber.reread) := by
  have read := readValue_write wellFormed 0 numberEnds_nil
  rw [List.append_nil] at read
  rw [parse, toPrettyText, String.toList_ofList, read]
  rfl

end Json

end SignatureVeil
