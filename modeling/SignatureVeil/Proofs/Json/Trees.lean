import Mathlib.Data.String.Basic
import SignatureVeil.Proofs.Json.Numbers

/-!
# Values that a text can hold

Values that are read have limits: their arrays and objects stand within each
other only so deep, their numbers fit the formats, and the keys of their
objects ascend.  Putting members into an object keeps the order of its keys
and all its other members.
-/

namespace SignatureVeil

namespace Json

/-! ## Members -/

section

variable {key name : String} {value : Json} {members : List (String × Json)}

/-- The keys of the members ascend, so that each key stands there once. -/
def Ascending (members : List (String × Json)) : Prop :=
  members.Pairwise fun first second => first.1 < second.1

theorem lookup?_insert_self (key : String) (value : Json)
    (members : List (String × Json)) :
    lookup? key (insert key value members) = some value := by
  induction members with
  | nil => exact if_pos rfl
  | cons member members ih =>
      rw [insert]
      split
      case isTrue same => exact if_pos rfl
      case isFalse other =>
        split
        case isTrue => exact if_pos rfl
        case isFalse => exact (if_neg other).trans ih

theorem lookup?_insert_of_ne (other : name ≠ key) (value : Json)
    (members : List (String × Json)) :
    lookup? name (insert key value members) = lookup? name members := by
  induction members with
  | nil => exact if_neg other.symm
  | cons member members ih =>
      rw [insert]
      split
      case isTrue same =>
        rw [lookup?, if_neg other.symm, lookup?, same, if_neg other.symm]
      case isFalse =>
        split
        case isTrue => exact if_neg other.symm
        case isFalse => rw [lookup?, ih, ← lookup?]

theorem mem_of_lookup? (found : lookup? key members = some value) :
    (key, value) ∈ members := by
  induction members with
  | nil => exact absurd found nofun
  | cons member members ih =>
      rw [lookup?] at found
      split at found
      case isTrue same =>
        obtain rfl := Option.some.inj found
        exact same ▸ List.mem_cons_self
      case isFalse => exact List.mem_cons_of_mem _ (ih found)

theorem mem_of_mem_insert {member : String × Json}
    (isMember : member ∈ insert key value members) :
    member = (key, value) ∨ member ∈ members := by
  induction members with
  | nil => exact .inl (List.mem_singleton.mp isMember)
  | cons first members ih =>
      rw [insert] at isMember
      split at isMember
      case isTrue =>
        exact (List.mem_cons.mp isMember).imp_right (List.mem_cons_of_mem _)
      case isFalse =>
        split at isMember
        case isTrue => exact List.mem_cons.mp isMember
        case isFalse =>
          rcases List.mem_cons.mp isMember with rfl | behind
          · exact .inr List.mem_cons_self
          · exact (ih behind).imp_right (List.mem_cons_of_mem _)

theorem Ascending.insert (ascending : Ascending members) (key : String)
    (value : Json) : Ascending (insert key value members) := by
  induction members with
  | nil => exact List.pairwise_singleton _ _
  | cons first members ih =>
      obtain ⟨below, ascending⟩ := List.pairwise_cons.mp ascending
      rw [Json.insert]
      split
      case isTrue same =>
        exact List.pairwise_cons.mpr ⟨same ▸ below, ascending⟩
      case isFalse other =>
        split
        case isTrue less =>
          refine List.pairwise_cons.mpr ⟨fun member isMember => ?_,
            List.pairwise_cons.mpr ⟨below, ascending⟩⟩
          rcases List.mem_cons.mp isMember with rfl | behind
          · exact less
          · exact less.trans (below member behind)
        case isFalse notLess =>
          refine List.pairwise_cons.mpr ⟨fun member isMember => ?_,
            ih ascending⟩
          rcases mem_of_mem_insert isMember with rfl | behind
          · exact lt_of_le_of_ne (not_lt.mp notLess) other
          · exact below member behind

/-- A member whose key comes behind all others is put at the end. -/
theorem insert_eq_append (last : ∀ member ∈ members, member.1 < key) :
    insert key value members = members ++ [(key, value)] := by
  induction members with
  | nil => rfl
  | cons first members ih =>
      obtain ⟨below, last⟩ := List.forall_mem_cons.mp last
      rw [insert, if_neg below.ne, if_neg below.asymm, ih last,
        List.cons_append]

end

/-! ## Well-formed values -/

/-- A value with limited depth, whose numbers fit the formats and in whose
objects the keys ascend. -/
inductive WellFormed : Nat → Json → Prop
  | null {depth : Nat} : WellFormed depth .null
  | bool {depth : Nat} (value : Bool) : WellFormed depth (.bool value)
  | number {depth : Nat} {value : JsonNumber} (wellFormed : value.WellFormed) :
      WellFormed depth (.number value)
  | string {depth : Nat} (value : String) : WellFormed depth (.string value)
  | array {depth : Nat} {items : List Json}
      (items_wellFormed : ∀ item ∈ items, WellFormed depth item) :
      WellFormed (depth + 1) (.array items)
  | object {depth : Nat} {members : List (String × Json)}
      (ascending : Ascending members)
      (members_wellFormed : ∀ member ∈ members, WellFormed depth member.2) :
      WellFormed (depth + 1) (.object members)

theorem wellFormed_object_iff {depth : Nat} {members : List (String × Json)} :
    WellFormed (depth + 1) (.object members) ↔
      Ascending members ∧ ∀ member ∈ members, WellFormed depth member.2 := by
  constructor
  · rintro (_ | _ | _ | _ | _ | ⟨ascending, members_wellFormed⟩)
    exact ⟨ascending, members_wellFormed⟩
  · exact fun ⟨ascending, members_wellFormed⟩ =>
      .object ascending members_wellFormed

/-! ## Numbers in a value -/

mutual

def numbers : Json → List JsonNumber
  | .null => []
  | .bool _ => []
  | .number value => [value]
  | .string _ => []
  | .array items => numbersOfItems items
  | .object members => numbersOfMembers members

def numbersOfItems : List Json → List JsonNumber
  | [] => []
  | item :: items => numbers item ++ numbersOfItems items

def numbersOfMembers : List (String × Json) → List JsonNumber
  | [] => []
  | (_, value) :: members => numbers value ++ numbersOfMembers members

end

mutual

/-- The value with each of its numbers changed, and nothing else. -/
def mapNumbers (change : JsonNumber → JsonNumber) : Json → Json
  | .null => .null
  | .bool value => .bool value
  | .number value => .number (change value)
  | .string value => .string value
  | .array items => .array (mapNumbersOfItems change items)
  | .object members => .object (mapNumbersOfMembers change members)

def mapNumbersOfItems (change : JsonNumber → JsonNumber) :
    List Json → List Json
  | [] => []
  | item :: items => mapNumbers change item :: mapNumbersOfItems change items

def mapNumbersOfMembers (change : JsonNumber → JsonNumber) :
    List (String × Json) → List (String × Json)
  | [] => []
  | (key, value) :: members =>
      (key, mapNumbers change value) :: mapNumbersOfMembers change members

end

theorem numbersOfItems_eq (items : List Json) :
    numbersOfItems items = items.flatMap numbers := by
  induction items with
  | nil => rfl
  | cons item items ih => rw [numbersOfItems, ih, List.flatMap_cons]

theorem numbersOfMembers_eq (members : List (String × Json)) :
    numbersOfMembers members = members.flatMap (numbers ·.2) := by
  induction members with
  | nil => rfl
  | cons member members ih => rw [numbersOfMembers, ih, List.flatMap_cons]

theorem mapNumbersOfItems_eq (change : JsonNumber → JsonNumber)
    (items : List Json) :
    mapNumbersOfItems change items = items.map (mapNumbers change) := by
  induction items with
  | nil => rfl
  | cons item items ih => rw [mapNumbersOfItems, ih, List.map_cons]

theorem mapNumbersOfMembers_eq (change : JsonNumber → JsonNumber)
    (members : List (String × Json)) :
    mapNumbersOfMembers change members =
      members.map fun member => (member.1, mapNumbers change member.2) := by
  induction members with
  | nil => rfl
  | cons member members ih => rw [mapNumbersOfMembers, ih, List.map_cons]

theorem lookup?_mapNumbersOfMembers (change : JsonNumber → JsonNumber)
    (key : String) (members : List (String × Json)) :
    lookup? key (mapNumbersOfMembers change members) =
      (lookup? key members).map (mapNumbers change) := by
  induction members with
  | nil => rfl
  | cons member members ih =>
      rw [mapNumbersOfMembers, lookup?, lookup?, ih]
      split <;> rfl

theorem WellFormed.numbers {depth : Nat} {value : Json}
    (wellFormed : WellFormed depth value) :
    ∀ number ∈ value.numbers, number.WellFormed := by
  induction wellFormed with
  | null => exact fun _ isNumber => absurd isNumber List.not_mem_nil
  | bool => exact fun _ isNumber => absurd isNumber List.not_mem_nil
  | number wellFormed => exact List.forall_mem_singleton.mpr wellFormed
  | string => exact fun _ isNumber => absurd isNumber List.not_mem_nil
  | array items_wellFormed ih =>
      intro number isNumber
      rw [Json.numbers, numbersOfItems_eq] at isNumber
      obtain ⟨item, isItem, isNumber⟩ := List.mem_flatMap.mp isNumber
      exact ih item isItem number isNumber
  | object ascending members_wellFormed ih =>
      intro number isNumber
      rw [Json.numbers, numbersOfMembers_eq] at isNumber
      obtain ⟨member, isMember, isNumber⟩ := List.mem_flatMap.mp isNumber
      exact ih member isMember number isNumber

/-! ## Values that are read -/

theorem readAtom_wellFormed {text rest : List Char} {value : Json} {depth : Nat}
    (read : readAtom .full text = .ok (value, rest)) :
    WellFormed depth value := by
  unfold readAtom at read
  split at read
  case h_1 => exact absurd read nofun
  case h_2 =>
    obtain ⟨_, -, same⟩ := exists_of_bind_eq_ok read
    cases same
    exact .null
  case h_3 =>
    obtain ⟨_, -, same⟩ := exists_of_bind_eq_ok read
    cases same
    exact .bool true
  case h_4 =>
    obtain ⟨_, -, same⟩ := exists_of_bind_eq_ok read
    cases same
    exact .bool false
  case h_5 =>
    obtain ⟨_, -, same⟩ := exists_of_bind_eq_ok read
    cases same
    exact .string _
  case h_6 =>
    split at read
    case isTrue =>
      obtain ⟨_, number, same⟩ := exists_of_bind_eq_ok read
      cases same
      exact .number (JsonNumber.readNumber_wellFormed number)
    case isFalse => exact absurd read nofun

section

variable {read : List Char → Except Fault (Json × List Char)}
  {property : Json → Prop}
  (sound : ∀ text value rest, read text = .ok (value, rest) → property value)

include sound

theorem forall_mem_readItems {limit : Nat} {first : Bool}
    {text rest : List Char} {items : List Json}
    (found : readItems read limit first text = .ok (items, rest)) :
    ∀ item ∈ items, property item := by
  induction limit generalizing first text items with
  | zero => exact absurd found nofun
  | succ limit ih =>
      obtain ⟨next, -, found⟩ := exists_of_bind_eq_ok found
      cases next with
      | close =>
          cases found
          exact fun _ isMember => absurd isMember List.not_mem_nil
      | part text =>
          obtain ⟨⟨item, behind⟩, isItem, found⟩ := exists_of_bind_eq_ok found
          obtain ⟨⟨items, _⟩, areItems, found⟩ := exists_of_bind_eq_ok found
          cases found
          exact List.forall_mem_cons.mpr
            ⟨sound text item behind isItem, ih areItems⟩

theorem readMembers_ascending {limit : Nat} {first : Bool}
    {members found : List (String × Json)} {text rest : List Char}
    (ascending : Ascending members)
    (holds : ∀ member ∈ members, property member.2)
    (same : readMembers .full read limit first members text =
      .ok (found, rest)) :
    Ascending found ∧ ∀ member ∈ found, property member.2 := by
  induction limit generalizing first members text with
  | zero => exact absurd same nofun
  | succ limit ih =>
      obtain ⟨next, -, same⟩ := exists_of_bind_eq_ok same
      cases next with
      | close =>
          cases same
          exact ⟨ascending, holds⟩
      | part text =>
          obtain ⟨⟨key, _⟩, -, same⟩ := exists_of_bind_eq_ok same
          obtain ⟨text, -, same⟩ := exists_of_bind_eq_ok same
          obtain ⟨⟨value, behind⟩, isValue, same⟩ := exists_of_bind_eq_ok same
          refine ih (ascending.insert key value) ?_ same
          intro member isMember
          rcases mem_of_mem_insert isMember with rfl | old
          · exact sound text value behind isValue
          · exact holds member old

end

theorem readValue_wellFormed {depth : Nat} {text rest : List Char}
    {value : Json} (read : readValue .full depth text = .ok (value, rest)) :
    WellFormed depth value := by
  induction depth generalizing text value rest with
  | zero =>
      rw [readValue, readValueWith] at read
      split at read
      case h_1 => exact absurd read nofun
      case h_2 => exact absurd read nofun
      case h_3 => exact readAtom_wellFormed read
  | succ depth ih =>
      rw [readValue, readValueWith] at read
      split at read
      case h_1 =>
        obtain ⟨⟨items, _⟩, areItems, same⟩ := exists_of_bind_eq_ok read
        cases same
        exact .array (forall_mem_readItems (fun _ _ _ => ih) areItems)
      case h_2 =>
        obtain ⟨⟨members, _⟩, areMembers, same⟩ := exists_of_bind_eq_ok read
        cases same
        obtain ⟨ascending, holds⟩ := readMembers_ascending (fun _ _ _ => ih)
          List.Pairwise.nil (fun _ isMember => absurd isMember List.not_mem_nil)
          areMembers
        exact .object ascending holds
      case h_3 => exact readAtom_wellFormed read

theorem parse_wellFormed {text : String} {value : Json}
    (parsed : parse text = .ok value) : WellFormed depthLimit value := by
  obtain ⟨⟨value, rest⟩, read, parsed⟩ := exists_of_bind_eq_ok parsed
  obtain ⟨_, -, same⟩ := exists_of_bind_eq_ok parsed
  cases same
  exact readValue_wellFormed read

end Json

end SignatureVeil
