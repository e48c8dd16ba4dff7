import SignatureVeil.Proofs.Json.Trees

/-!
# The members of an object as they stand in its text

In a text, the members of an object may stand in any order, and a key may stand
there more than once.  The object that is read has each key once, with the
value that is behind the last one.
-/

namespace SignatureVeil

namespace Json

/-- Read the members of an object up to its closing bracket, and keep all of
them in their order. -/
def readEntries (read : List Char → Except Fault (Json × List Char)) :
    (limit : Nat) → (first : Bool) → List Char →
      Except Fault (List (String × Json) × List Char)
  | 0, _, _ => .error .ended
  | limit + 1, first, text => do
      match ← nextKey first text with
      | .close rest => return ([], rest)
      | .part text =>
          let (key, rest) ← readString .full text
          let rest ← readColon rest
          let (value, rest) ← read rest
          let (entries, rest) ← readEntries read limit false rest
          return ((key, value) :: entries, rest)

/-- The keys at the top level of an object, in the order in which they stand in
its text, and as often.  A text that holds no object has none. -/
def keysInText (text : String) : List String :=
  match skipSpace text.toList with
  | '{' :: rest =>
      match readEntries (readValue .full (depthLimit - 1)) rest.length true
        rest with
      | .ok (entries, _) => entries.map Prod.fst
      | .error _ => []
  | _ => []

/-- Put entries into an ordered list of members, one after the other. -/
def insertAll (members entries : List (String × Json)) :
    List (String × Json) :=
  entries.foldl (fun members entry => insert entry.1 entry.2 members) members

section

variable {read : List Char → Except Fault (Json × List Char)} {limit : Nat}
  {first : Bool} {members found : List (String × Json)}
  {text rest : List Char}

theorem exists_readEntries
    (same : readMembers .full read limit first members text =
      .ok (found, rest)) :
    ∃ entries, readEntries read limit first text = .ok (entries, rest) ∧
      found = insertAll members entries := by
  induction limit generalizing first members text with
  | zero => contradiction
  | succ limit ih =>
      obtain ⟨next, isNext, same⟩ := exists_of_bind_eq_ok same
      rw [readEntries, isNext]
      cases next with
      | close behind =>
          cases same
          exact ⟨[], rfl, rfl⟩
      | part part =>
          obtain ⟨⟨key, behind⟩, isKey, same⟩ := exists_of_bind_eq_ok same
          obtain ⟨behind', isColon, same⟩ := exists_of_bind_eq_ok same
          obtain ⟨⟨value, behind''⟩, isValue, same⟩ :=
            exists_of_bind_eq_ok same
          obtain ⟨entries, later, rfl⟩ := ih same
          simp only [bind, Except.bind, isKey, isColon, isValue, later]
          exact ⟨(key, value) :: entries, rfl, rfl⟩

/-! ## Values with brackets -/

variable {depth : Nat} {value : Json} {behind : List Char}

theorem exists_array_of_readValue (same : skipSpace text = '[' :: behind)
    (isValue : readValue .full depth text = .ok (value, rest)) :
    ∃ less items, depth = less + 1 ∧ value = .array items ∧
      readItems (readValue .full less) behind.length true behind =
        .ok (items, rest) := by
  cases depth with
  | zero =>
      rw [readValue, readValueWith, same] at isValue
      contradiction
  | succ less =>
      rw [readValue, readValueWith, same] at isValue
      obtain ⟨⟨items, _⟩, areItems, isValue⟩ := exists_of_bind_eq_ok isValue
      cases isValue
      exact ⟨less, items, rfl, rfl, areItems⟩

theorem exists_object_of_readValue (same : skipSpace text = '{' :: behind)
    (isValue : readValue .full depth text = .ok (value, rest)) :
    ∃ less entries, depth = less + 1 ∧
      value = .object (insertAll [] entries) ∧
      readEntries (readValue .full less) behind.length true behind =
        .ok (entries, rest) := by
  cases depth with
  | zero =>
      rw [readValue, readValueWith, same] at isValue
      contradiction
  | succ less =>
      rw [readValue, readValueWith, same] at isValue
      obtain ⟨⟨members, _⟩, areMembers, isValue⟩ :=
        exists_of_bind_eq_ok isValue
      cases isValue
      obtain ⟨entries, areEntries, rfl⟩ := exists_readEntries areMembers
      exact ⟨less, entries, rfl, rfl, areEntries⟩

end

theorem lookup?_eq_none {key : String} {entries : List (String × Json)}
    (absent : (entries.map Prod.fst).count key = 0) :
    lookup? key entries = none := by
  induction entries with
  | nil => rfl
  | cons entry entries ih =>
      rw [List.map_cons, List.count_cons] at absent
      have other : entry.1 ≠ key := by
        intro same
        simp [same] at absent
      rw [lookup?, if_neg other]
      exact ih (by omega)

/-- The value of a key that stands in a text at most once. -/
theorem lookup?_insertAll {key : String}
    {entries : List (String × Json)}
    (once : (entries.map Prod.fst).count key ≤ 1)
    (members : List (String × Json)) :
    lookup? key (insertAll members entries) =
      (lookup? key entries).or (lookup? key members) := by
  induction entries generalizing members with
  | nil => rfl
  | cons entry entries ih =>
      obtain ⟨name, value⟩ := entry
      rw [List.map_cons, List.count_cons] at once
      have later := ih (by omega) (insert name value members)
      rw [insertAll, List.foldl_cons, ← insertAll, later, lookup?]
      split
      case isTrue same =>
        rw [same, beq_self_eq_true, if_pos rfl] at once
        rw [lookup?_eq_none (by omega), Option.none_or, same,
          lookup?_insert_self]
        rfl
      case isFalse other =>
        rw [lookup?_insert_of_ne (Ne.symm other)]

end Json

end SignatureVeil
