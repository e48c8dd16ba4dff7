import SignatureVeil.Proofs.Json.Entries
import SignatureVeil.Proofs.Json.Skimming
import SignatureVeil.Settings.TextReader

/-!
# The two ways of decoding a section

A section can be decoded from the value that its text stands for, or from the
text while it is read.  Whatever else the text holds, both ways accept the
same sections and give the same settings, if no setting is given twice.
-/

namespace SignatureVeil

theorem toOption_bind {Error Result Result' : Type}
    (first : Except Error Result) (next : Result → Except Error Result') :
    (first >>= next).toOption =
      first.toOption.bind fun found => (next found).toOption := by
  cases first <;> rfl

theorem eq_ok_iff_toOption {Error Result : Type}
    {outcome : Except Error Result} {result : Result} :
    outcome = .ok result ↔ outcome.toOption = some result := by
  cases outcome <;> simp [Except.toOption]

namespace Settings

open Json (Fault depthLimit lookup? nextItem readColon readValue skipSpace)

/-! ## Single settings -/

/-- Reading a setting from a text gives what its value is decoded to, and goes
on behind the value. -/
def Follows {Result : Type} (decode : Json → Except SectionFault Result)
    (read : List Char → Except Fault (Result × List Char)) : Prop :=
  ∀ text value rest,
    readValue .full (depthLimit - 1) text = .ok (value, rest) →
      (read text).toOption = (decode value).toOption.map (·, rest)

theorem follows_readAtomAs {Result : Type}
    {decode : Json → Except SectionFault Result}
    (noArray : ∀ items, (decode (.array items)).toOption = none)
    (noObject : ∀ members, (decode (.object members)).toOption = none) :
    Follows decode (readAtomAs decode) := by
  intro text value rest isValue
  unfold readAtomAs
  split
  case h_1 behind same =>
    obtain ⟨-, items, -, rfl, -⟩ :=
      Json.exists_array_of_readValue same isValue
    rw [noArray]
    rfl
  case h_2 behind same =>
    obtain ⟨-, entries, -, rfl, -⟩ :=
      Json.exists_object_of_readValue same isValue
    rw [noObject]
    rfl
  case h_3 isAtom isAtom' =>
    rw [Json.readValue_of_atom isAtom isAtom'] at isValue
    rw [isValue]
    simp only [bind, Except.bind]
    cases decode value <;> rfl

theorem follows_readOpacity : Follows decodeOpacity readOpacity := by
  intro text value rest isValue
  rw [readOpacity, isValue]
  simp only [bind, Except.bind]
  cases decodeOpacity value <;> rfl

theorem follows_readEnabled :
    Follows decodeEnabled (readAtomAs decodeEnabled) :=
  follows_readAtomAs (fun _ => rfl) fun _ => rfl

theorem follows_readColor : Follows decodeColor (readAtomAs decodeColor) :=
  follows_readAtomAs (fun _ => rfl) fun _ => rfl

/-! ## Members -/

/-- What becomes of a setting if a text gives it at most once. -/
def merge {Result : Type} (found : Option Result)
    (decode : Json → Except SectionFault Result) :
    Option Json → Option (Option Result)
  | none => some found
  | some value =>
      if found.isSome then none else (decode value).toOption.map some

theorem merge_none {Result : Type} (found : Option Result)
    (decode : Json → Except SectionFault Result) :
    merge found decode none = some found :=
  rfl

theorem toOption_decodeOr {Result : Type} (absent : Result)
    (decode : Json → Except SectionFault Result) (value : Option Json) :
    (decodeOr absent decode value).toOption =
      (merge none decode value).map (·.getD absent) := by
  cases value with
  | none => rfl
  | some value =>
      rw [decodeOr, merge]
      cases decode value <;> rfl

/-- Add a member to the settings that have been found, unless the same setting
has been found before. -/
def Partial.put (found : Partial) (key : String) (value : Json) :
    Option Partial :=
  if key = "enabled" then
    (merge found.enabled decodeEnabled (some value)).map
      ({ found with enabled := · })
  else if key = "opacity" then
    (merge found.opacity decodeOpacity (some value)).map
      ({ found with opacity := · })
  else if key = "backgroundColor" then
    (merge found.backgroundColor decodeColor (some value)).map
      ({ found with backgroundColor := · })
  else
    some found

def Partial.putAll (found : Partial) : List (String × Json) → Option Partial
  | [] => some found
  | (key, value) :: rest => (found.put key value).bind (·.putAll rest)

section

variable {text rest : List Char} {found : Partial}

section

variable {behind : List Char} {value : Json}
  (isColon : readColon text = .ok behind)
  (isValue : readValue .full (depthLimit - 1) behind = .ok (value, rest))

include isColon isValue

/-- A setting is read behind its colon, unless it has been found before. -/
theorem toOption_readGiven {Result : Type}
    {decode : Json → Except SectionFault Result}
    {read : List Char → Except Fault (Result × List Char)}
    (follows : Follows decode read) (before : Option Result)
    (put : Option Result → Partial) :
    (if before.isSome then .error .unfit
      else do
        let (result, rest) ← read (← readColon text)
        return (put (some result), rest) :
      Except Fault (Partial × List Char)).toOption =
      ((merge before decode (some value)).map put).map (·, rest) := by
  rw [merge]
  split
  · rfl
  · rw [isColon]
    change (read behind >>= _).toOption = _
    rw [toOption_bind, follows _ _ _ isValue]
    cases decode value <;> rfl

theorem toOption_readMember (key : String) :
    (readMember key found text).toOption =
      (found.put key value).map (·, rest) := by
  unfold readMember Partial.put
  split
  · exact toOption_readGiven isColon isValue follows_readEnabled _
      ({ found with enabled := · })
  split
  · exact toOption_readGiven isColon isValue follows_readOpacity _
      ({ found with opacity := · })
  split
  · exact toOption_readGiven isColon isValue follows_readColor _
      ({ found with backgroundColor := · })
  · simp only [isColon, Json.skipValue_of_readValue isValue, bind, Except.bind]
    rfl

end

theorem toOption_readMembers {limit : Nat} {first : Bool}
    {entries : List (String × Json)}
    (areEntries : Json.readEntries (readValue .full (depthLimit - 1)) limit
      first text = .ok (entries, rest)) :
    (readMembers limit first found text).toOption =
      (found.putAll entries).map (·, rest) := by
  induction limit generalizing first found text entries with
  | zero => contradiction
  | succ limit ih =>
      obtain ⟨next, isNext, areEntries⟩ :=
        Json.exists_of_bind_eq_ok areEntries
      rw [readMembers, isNext]
      cases next with
      | close behind =>
          cases areEntries
          rfl
      | part part =>
          obtain ⟨⟨key, behind⟩, isKey, areEntries⟩ :=
            Json.exists_of_bind_eq_ok areEntries
          obtain ⟨behind', isColon, areEntries⟩ :=
            Json.exists_of_bind_eq_ok areEntries
          obtain ⟨⟨value, behind''⟩, isValue, areEntries⟩ :=
            Json.exists_of_bind_eq_ok areEntries
          obtain ⟨⟨entries, _⟩, later, areEntries⟩ :=
            Json.exists_of_bind_eq_ok areEntries
          cases areEntries
          have member : (readMember key found behind).toOption =
              (found.put key value).map (·, behind'') :=
            toOption_readMember isColon isValue key
          change (Json.readString .full part >>= _).toOption = _
          rw [isKey]
          change (readMember key found behind >>= _).toOption = _
          rw [toOption_bind, member, Partial.putAll]
          cases found.put key value with
          | none => rfl
          | some found => exact ih later

end

section

variable {entries : List (String × Json)}
  (once : ∀ name ∈ ["enabled", "opacity", "backgroundColor"],
    (entries.map Prod.fst).count name ≤ 1)

include once

theorem putAll_eq (found : Partial) :
    found.putAll entries = (do
      let enabled ← merge found.enabled decodeEnabled
        (lookup? "enabled" entries)
      let opacity ← merge found.opacity decodeOpacity
        (lookup? "opacity" entries)
      let color ← merge found.backgroundColor decodeColor
        (lookup? "backgroundColor" entries)
      return ⟨enabled, opacity, color⟩) := by
  induction entries generalizing found with
  | nil => rfl
  | cons entry entries ih =>
      obtain ⟨key, value⟩ := entry
      simp only [List.map_cons, List.count_cons] at once
      have later (found : Partial) := ih
        (fun name isName => (Nat.le_add_right _ _).trans (once name isName))
        found
      -- a setting that is given here is not given again behind it
      have given (isName : key ∈ ["enabled", "opacity", "backgroundColor"]) :
          lookup? key entries = none := by
        refine Json.lookup?_eq_none ?_
        have := once key isName
        rw [beq_self_eq_true, if_pos rfl] at this
        omega
      rw [Partial.putAll, Partial.put]
      split
      case isTrue same =>
        subst same
        have absent := given (by decide)
        cases merged : merge found.enabled decodeEnabled (some value) <;>
          simp [later, lookup?, absent, merged, merge_none]
      case isFalse notEnabled =>
        split
        case isTrue same =>
          subst same
          have absent := given (by decide)
          cases merged : merge found.opacity decodeOpacity (some value) <;>
            simp [later, lookup?, absent, merged, merge_none]
        case isFalse notOpacity =>
          split
          case isTrue same =>
            subst same
            have absent := given (by decide)
            cases merged : merge found.backgroundColor decodeColor
              (some value) <;>
              simp [later, lookup?, absent, merged, merge_none]
          case isFalse notColor =>
            simp [later, lookup?, notEnabled, notOpacity, notColor]

theorem toOption_ofSection?_object :
    (ofSection? (.object (Json.insertAll [] entries))).toOption =
      (Partial.putAll {} entries).map Partial.complete := by
  have given {name : String}
      (isName : name ∈ ["enabled", "opacity", "backgroundColor"]) :
      lookup? name (Json.insertAll [] entries) = lookup? name entries := by
    rw [Json.lookup?_insertAll (once name isName), lookup?, Option.or_none]
  rw [ofSection?, given (by decide), given (by decide), given (by decide),
    putAll_eq once]
  simp only [toOption_bind, toOption_decodeOr]
  cases merge none decodeColor (lookup? "backgroundColor" entries) <;>
    cases merge none decodeEnabled (lookup? "enabled" entries) <;>
      cases merge none decodeOpacity (lookup? "opacity" entries) <;> rfl

end

/-! ## Items -/

section

variable {text rest : List Char} {items : List Json}

theorem skipSpace_of_close {first : Bool}
    (ends : nextItem first text = .ok (.close rest)) :
    skipSpace text = ']' :: rest := by
  unfold nextItem at ends
  split at ends
  case h_1 => contradiction
  case h_2 same =>
    cases ends
    exact same
  case h_3 =>
    split at ends
    · cases ends
    · split at ends
      · split at ends <;> cases ends
      · contradiction

theorem skipSpace_of_part {part : List Char}
    (goesOn : nextItem false text = .ok (.part part)) :
    ∃ behind, skipSpace text = ',' :: behind := by
  unfold nextItem at goesOn
  split at goesOn
  case h_1 => contradiction
  case h_2 => cases goesOn
  case h_3 character behind _ same =>
    rw [if_neg Bool.false_ne_true] at goesOn
    split at goesOn
    case isTrue comma => exact ⟨behind, comma ▸ same⟩
    case isFalse => contradiction

/-- An item that may be absent is read, and all items behind it are left. -/
theorem exists_readItemOr {Result : Type}
    {decode : Json → Except SectionFault Result}
    {read : List Char → Except Fault (Result × List Char)}
    (follows : Follows decode read) (absent : Result) {limit : Nat}
    {first : Bool}
    (areItems : Json.readItems (readValue .full (depthLimit - 1)) limit first
      text = .ok (items, rest)) :
    ∃ limit' behind,
      (readItemOr absent read first text).toOption =
          (decodeOr absent decode items.head?).toOption.map (·, behind) ∧
        Json.readItems (readValue .full (depthLimit - 1)) limit' false behind =
          .ok (items.tail, rest) := by
  cases limit with
  | zero => contradiction
  | succ limit =>
      obtain ⟨next, isNext, areItems⟩ := Json.exists_of_bind_eq_ok areItems
      rw [readItemOr, isNext]
      cases next with
      | close behind =>
          cases areItems
          have ends := skipSpace_of_close isNext
          refine ⟨1, text, rfl, ?_⟩
          rw [Json.readItems, nextItem, ends]
          rfl
      | part part =>
          obtain ⟨⟨item, behind⟩, isItem, areItems⟩ :=
            Json.exists_of_bind_eq_ok areItems
          obtain ⟨⟨items, _⟩, later, areItems⟩ :=
            Json.exists_of_bind_eq_ok areItems
          cases areItems
          exact ⟨limit, behind, follows _ _ _ isItem, later⟩

theorem toOption_readClose {limit : Nat}
    (areItems : Json.readItems (readValue .full (depthLimit - 1)) limit false
      text = .ok (items, rest)) :
    (readClose text).toOption = if items = [] then some rest else none := by
  cases limit with
  | zero => contradiction
  | succ limit =>
      obtain ⟨next, isNext, areItems⟩ := Json.exists_of_bind_eq_ok areItems
      cases next with
      | close behind =>
          cases areItems
          rw [readClose, skipSpace_of_close isNext]
          rfl
      | part part =>
          obtain ⟨⟨item, _⟩, -, areItems⟩ := Json.exists_of_bind_eq_ok areItems
          obtain ⟨⟨items, _⟩, -, areItems⟩ :=
            Json.exists_of_bind_eq_ok areItems
          cases areItems
          obtain ⟨behind, comma⟩ := skipSpace_of_part isNext
          rw [readClose, comma]
          rfl

theorem toOption_readItems {limit : Nat}
    (areItems : Json.readItems (readValue .full (depthLimit - 1)) limit true
      text = .ok (items, rest)) :
    (readItems text).toOption =
      (ofSection? (.array items)).toOption.map (·, rest) := by
  obtain ⟨_, behind, enabled, areItems⟩ :=
    exists_readItemOr follows_readEnabled default.enabled areItems
  obtain ⟨_, behind', opacity, areItems⟩ :=
    exists_readItemOr follows_readOpacity default.opacity areItems
  obtain ⟨_, behind'', color, areItems⟩ :=
    exists_readItemOr follows_readColor default.backgroundColor areItems
  have close := toOption_readClose areItems
  have second : items[1]? = items.tail.head? := by
    rcases items with _ | ⟨_, _ | _⟩ <;> rfl
  have third : items[2]? = items.tail.tail.head? := by
    rcases items with _ | ⟨_, _ | ⟨_, _ | _⟩⟩ <;> rfl
  have longer : items.tail.tail.tail = [] ↔ ¬ 3 < items.length := by
    rw [← List.length_eq_zero_iff]
    simp
    omega
  rw [readItems, toOption_bind, enabled, ofSection?, second, third,
    ← List.head?_eq_getElem?]
  cases decodeOr default.enabled decodeEnabled items.head? with
  | error => rfl
  | ok decoded =>
      change (readItemOr default.opacity readOpacity false behind >>= _).toOption
        = _
      rw [toOption_bind, opacity]
      cases decodeOr default.opacity decodeOpacity items.tail.head? with
      | error => rfl
      | ok decoded' =>
          change (readItemOr default.backgroundColor
            (readAtomAs decodeColor) false behind' >>= _).toOption = _
          rw [toOption_bind, color]
          cases decodeOr default.backgroundColor decodeColor
            items.tail.tail.head? with
          | error => rfl
          | ok decoded'' =>
              change (readClose behind'' >>= _).toOption = _
              rw [toOption_bind, close]
              by_cases more : 3 < items.length
              · rw [if_neg (longer.not.mpr (not_not.mpr more))]
                simp only [bind, Except.bind, if_pos more]
                rfl
              · rw [if_pos (longer.mpr more)]
                simp only [bind, Except.bind, if_neg more]
                rfl

end

/-! ## Whole sections -/

section

variable {text rest : List Char} {value : Json}

/-- No value without parts is a section. -/
theorem toOption_ofSection?_atom
    (isAtom : Json.readAtom .full text = .ok (value, rest)) :
    (ofSection? value).toOption = none := by
  unfold Json.readAtom at isAtom
  split at isAtom
  case h_1 => contradiction
  case h_6 =>
    split at isAtom
    case isTrue =>
      obtain ⟨_, -, isAtom⟩ := Json.exists_of_bind_eq_ok isAtom
      cases isAtom
      rfl
    case isFalse => contradiction
  all_goals
    obtain ⟨_, -, isAtom⟩ := Json.exists_of_bind_eq_ok isAtom
    cases isAtom
    rfl

theorem toOption_readSettings
    (isValue : readValue .full depthLimit text = .ok (value, rest))
    (once : ∀ behind entries, skipSpace text = '{' :: behind →
      Json.readEntries (readValue .full (depthLimit - 1)) behind.length true
        behind = .ok (entries, rest) →
      ∀ name ∈ ["enabled", "opacity", "backgroundColor"],
        (entries.map Prod.fst).count name ≤ 1) :
    (readSettings text).toOption =
      (ofSection? value).toOption.map (·, rest) := by
  have depth {less : Nat} (same : depthLimit = less + 1) :
      less = depthLimit - 1 := by
    omega
  unfold readSettings
  split
  case h_1 behind same =>
    obtain ⟨less, items, isLess, rfl, areItems⟩ :=
      Json.exists_array_of_readValue same isValue
    rw [depth isLess] at areItems
    exact toOption_readItems areItems
  case h_2 behind same =>
    obtain ⟨less, entries, isLess, rfl, areEntries⟩ :=
      Json.exists_object_of_readValue same isValue
    rw [depth isLess] at areEntries
    rw [toOption_bind, toOption_readMembers areEntries,
      toOption_ofSection?_object (once behind entries same areEntries)]
    cases Partial.putAll {} entries <;> rfl
  case h_3 noArray noObject =>
    rw [Json.readValue_of_atom noArray noObject] at isValue
    rw [isValue, toOption_ofSection?_atom isValue]
    rfl

end

/-- A text that is a JSON value, and that gives no setting twice, is decoded
directly exactly if its value is, and to the same settings. -/
theorem parse_iff_ofSection? {text : String} {value : Json}
    (parsed : Json.parse text = .ok value)
    (once : ∀ name ∈ ["enabled", "opacity", "backgroundColor"],
      (Json.keysInText text).count name ≤ 1) (settings : Settings) :
    parse text = .ok settings ↔ ofSection? value = .ok settings := by
  obtain ⟨⟨value, rest⟩, isValue, parsed⟩ := Json.exists_of_bind_eq_ok parsed
  obtain ⟨_, ends, parsed⟩ := Json.exists_of_bind_eq_ok parsed
  cases parsed
  have agree := toOption_readSettings isValue
    (fun behind entries same areEntries => by
      simp only [Json.keysInText, same, areEntries] at once
      exact once)
  rw [eq_ok_iff_toOption, eq_ok_iff_toOption, parse, toOption_bind, agree]
  cases ofSection? value with
  | error => rfl
  | ok found =>
      change (Json.expectEnd rest >>= _).toOption = _ ↔ _
      rw [ends]
      exact Iff.rfl

/-- A section with an escaped key, and with members that are no settings. -/
def mixedText : String :=
  "\x7b\"theme\": [\x7b\x7d, -1e-7], \"\\u006fpacity\": \"inf\", " ++
    "\"theme\": \"\\u00e9\", \"enabled\": false\x7d"

def mixedSettings : Settings :=
  ⟨false, ⟨false, BinaryFormat.single.infinity⟩, "transparent"⟩

theorem exists_parse_mixedText : ∃ value,
    Json.parse mixedText = .ok value ∧
      ofSection? value = .ok mixedSettings := by
  have decoded : ((Json.parse mixedText).toOption.bind fun value =>
      (ofSection? value).toOption) = some mixedSettings := by
    decide +kernel
  obtain ⟨value, parsed, decodes⟩ := Option.bind_eq_some_iff.mp decoded
  exact ⟨value, eq_ok_iff_toOption.mpr parsed, eq_ok_iff_toOption.mpr decodes⟩

theorem parse_iff_ofSection?_mixed : ∃ value,
    Json.parse mixedText = .ok value ∧
      Json.keysInText mixedText = ["theme", "opacity", "theme", "enabled"] ∧
      (∀ name ∈ ["enabled", "opacity", "backgroundColor"],
        (Json.keysInText mixedText).count name ≤ 1) ∧
      ofSection? value = .ok mixedSettings ∧
      parse mixedText = .ok mixedSettings := by
  obtain ⟨value, parsed, decodes⟩ := exists_parse_mixedText
  have keys : Json.keysInText mixedText =
      ["theme", "opacity", "theme", "enabled"] := by
    decide +kernel
  have once : ∀ name ∈ ["enabled", "opacity", "backgroundColor"],
      (Json.keysInText mixedText).count name ≤ 1 := by
    rw [keys]
    decide
  exact ⟨value, parsed, keys, once, decodes,
    (parse_iff_ofSection? parsed once mixedSettings).mpr decodes⟩

end Settings

end SignatureVeil
