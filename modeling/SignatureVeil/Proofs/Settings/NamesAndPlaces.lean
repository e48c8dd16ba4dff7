import SignatureVeil.Proofs.Settings.Agreement
import SignatureVeil.Proofs.Settings.ValueForm

/-!
# Settings by their names and by their places

A section may give the settings as the members of an object or as the items of
an array.  Both are decoded alike, although an object is visited in the order
of its keys and an array in the order of its items: what is not given keeps
its default, what is of the wrong kind makes the whole section be refused, and
members that are no settings are as good as absent.
-/

namespace SignatureVeil

namespace Settings

open Json (exists_of_bind_eq_ok insertAll lookup?)

/-- The names of the settings, in the order in which an array lists them. -/
def memberNames : List String :=
  ["enabled", "opacity", "backgroundColor"]

/-- An object that gives under their names what an array lists. -/
def named (items : List Json) : Json :=
  .object (insertAll [] (memberNames.zip items))

/-- An object with these further members. -/
def withMembers (extra : List (String × Json)) : Json → Json
  | .object members => .object (insertAll members extra)
  | value => value

/-! ## Members and items -/

theorem lookup?_insertAll_of_notMem {name : String}
    {extra : List (String × Json)}
    (other : ∀ entry ∈ extra, entry.1 ≠ name)
    (members : List (String × Json)) :
    lookup? name (insertAll members extra) = lookup? name members := by
  have absent : (extra.map Prod.fst).count name = 0 := by
    refine List.count_eq_zero.mpr fun isName => ?_
    obtain ⟨entry, isEntry, same⟩ := List.mem_map.mp isName
    exact other entry isEntry same
  rw [Json.lookup?_insertAll (by omega), Json.lookup?_eq_none absent,
    Option.none_or]

/-- Entries that are put in under the names of a list are found again in the
places of their names. -/
theorem lookup?_insertAll_zip {name : String} {place : Nat}
    {names : List String} (isPlace : names[place]? = some name)
    (apart : names.Nodup) (items : List Json)
    (members : List (String × Json)) :
    lookup? name (insertAll members (names.zip items)) =
      items[place]?.or (lookup? name members) := by
  induction names generalizing place items members with
  | nil => contradiction
  | cons first names ih =>
      obtain ⟨isNew, apart⟩ := List.nodup_cons.mp apart
      cases items with
      | nil => rfl
      | cons item items =>
          rw [List.zip_cons_cons, insertAll, List.foldl_cons, ← insertAll]
          cases place with
          | zero =>
              obtain rfl : first = name := Option.some.inj isPlace
              rw [lookup?_insertAll_of_notMem, Json.lookup?_insert_self]
              · rfl
              · rintro entry isEntry rfl
                exact isNew (List.of_mem_zip isEntry).1
          | succ place =>
              have isLater : name ∈ names := List.mem_of_getElem? isPlace
              rw [ih isPlace apart, Json.lookup?_insert_of_ne]
              · rfl
              · rintro rfl
                exact isNew isLater

theorem lookup?_named {name : String} {place : Nat}
    (isPlace : memberNames[place]? = some name) (items : List Json) :
    lookup? name (insertAll [] (memberNames.zip items)) = items[place]? := by
  rw [lookup?_insertAll_zip isPlace (by decide)]
  exact Option.or_none

/-! ## Sections -/

variable {items : List Json}

/-- The items of an array and the members of an object are decoded in another
order, but to the same settings. -/
theorem toOption_ofSection?_named (few : items.length ≤ 3) :
    (ofSection? (.array items)).toOption =
      (ofSection? (named items)).toOption := by
  have notMany : ¬3 < items.length := by omega
  have isFirst : memberNames[0]? = some "enabled" := rfl
  have isSecond : memberNames[1]? = some "opacity" := rfl
  have isThird : memberNames[2]? = some "backgroundColor" := rfl
  simp only [ofSection?, named, lookup?_named isFirst, lookup?_named isSecond,
    lookup?_named isThird, if_neg notMany]
  cases decodeOr default.enabled decodeEnabled items[0]? <;>
    cases decodeOr default.opacity decodeOpacity items[1]? <;>
    cases decodeOr default.backgroundColor decodeColor items[2]? <;> rfl

theorem ofSection?_withMembers {extra : List (String × Json)}
    (unknown : ∀ entry ∈ extra, entry.1 ∉ memberNames) (value : Json) :
    ofSection? (withMembers extra value) = ofSection? value := by
  have unread {name : String} (isName : name ∈ memberNames)
      (members : List (String × Json)) :
      lookup? name (insertAll members extra) = lookup? name members := by
    refine lookup?_insertAll_of_notMem ?_ members
    rintro entry isEntry rfl
    exact unknown entry isEntry isName
  cases value with
  | object members =>
      have isFirst : "enabled" ∈ memberNames := by decide
      have isSecond : "opacity" ∈ memberNames := by decide
      have isThird : "backgroundColor" ∈ memberNames := by decide
      simp only [withMembers, ofSection?, unread isFirst, unread isSecond,
        unread isThird]
  | _ => rfl

theorem ofSection?_of_many (many : 3 < items.length) :
    ∃ fault, ofSection? (.array items) = .error fault := by
  rw [ofSection?]
  cases decodeOr default.enabled decodeEnabled items[0]? with
  | error fault => exact ⟨fault, rfl⟩
  | ok enabled =>
      cases decodeOr default.opacity decodeOpacity items[1]? with
      | error fault => exact ⟨fault, rfl⟩
      | ok opacity =>
          cases decodeOr default.backgroundColor decodeColor items[2]? with
          | error fault => exact ⟨fault, rfl⟩
          | ok color => exact ⟨.tooManyItems items.length, if_pos many⟩

/-- What an array does not list keeps its default. -/
theorem defaults_of_ofSection? {settings : Settings}
    (decodes : ofSection? (.array items) = .ok settings) :
    (items[0]? = none → settings.enabled = default.enabled) ∧
      (items[1]? = none → settings.opacity = default.opacity) ∧
      (items[2]? = none →
        settings.backgroundColor = default.backgroundColor) := by
  obtain ⟨enabled, isEnabled, decodes⟩ := exists_of_bind_eq_ok decodes
  obtain ⟨opacity, isOpacity, decodes⟩ := exists_of_bind_eq_ok decodes
  obtain ⟨color, isColor, decodes⟩ := exists_of_bind_eq_ok decodes
  split at decodes
  case isTrue => contradiction
  case isFalse =>
    obtain rfl : ⟨enabled, opacity, color⟩ = settings :=
      Except.ok.inj decodes
    refine ⟨fun missing => ?_, fun missing => ?_, fun missing => ?_⟩
    · rw [missing] at isEnabled
      exact (Except.ok.inj isEnabled).symm
    · rw [missing] at isOpacity
      exact (Except.ok.inj isOpacity).symm
    · rw [missing] at isColor
      exact (Except.ok.inj isColor).symm

/-- An array of at most three items is accepted exactly if the object that
gives them under their names is, with the same settings, and what it does not
list keeps its default; a longer array is refused.  Further members of the
object change nothing, not even the fault.  Lenient decoding gives the
settings of strict decoding, or else all the defaults. -/
theorem named_as_listed {extra : List (String × Json)}
    (unknown : ∀ entry ∈ extra, entry.1 ∉ memberNames) (items : List Json) :
    (items.length ≤ 3 → ∀ settings,
        ofSection? (.array items) = .ok settings ↔
          ofSection? (named items) = .ok settings) ∧
      (∀ settings, ofSection? (.array items) = .ok settings →
        (items.length ≤ 0 → settings.enabled = default.enabled) ∧
        (items.length ≤ 1 → settings.opacity = default.opacity) ∧
        (items.length ≤ 2 →
          settings.backgroundColor = default.backgroundColor)) ∧
      (3 < items.length → ∃ fault, ofSection? (.array items) = .error fault) ∧
      ofSection? (withMembers extra (named items)) =
        ofSection? (named items) ∧
      ∀ value ∈ [.array items, named items, withMembers extra (named items)],
        (∀ settings, ofSection? value = .ok settings →
          ofSection value = (settings, false)) ∧
        ∀ fault, ofSection? value = .error fault →
          ofSection value = (default, true) := by
  refine ⟨fun few settings => ?sameSettings, fun settings decodes => ?missing,
    ofSection?_of_many, ofSection?_withMembers unknown (named items),
    fun value isSection => ⟨fun settings => ofSection_of_ok,
      fun fault => ofSection_of_error ?present⟩⟩
  case sameSettings =>
    rw [eq_ok_iff_toOption, eq_ok_iff_toOption, toOption_ofSection?_named few]
  case missing =>
    simp only [← List.getElem?_eq_none_iff]
    exact defaults_of_ofSection? decodes
  case present =>
    rintro rfl
    simp [named, withMembers] at isSection

/-- Two items, and a member that is no setting. -/
theorem named_as_listed_two :
    (∀ entry ∈ [("theme", Json.null)], entry.1 ∉ memberNames) ∧
      ofSection (withMembers [("theme", .null)]
          (named [.bool false, .string " 0.5 "])) =
        (⟨false, .ofDecimal false 5 (-1), "transparent"⟩, false) ∧
      ∃ fault, ofSection?
        (.array [.bool false, .string " 0.5 ", .string "red", .null]) =
          .error fault := by
  have unknown : ∀ entry ∈ [("theme", Json.null)], entry.1 ∉ memberNames := by
    decide
  obtain ⟨listed, -, -, further, lenient⟩ :=
    named_as_listed unknown [.bool false, .string " 0.5 "]
  obtain ⟨-, -, refused, -, -⟩ := named_as_listed unknown
    [.bool false, .string " 0.5 ", .string "red", .null]
  have decodes : ofSection? (.array [.bool false, .string " 0.5 "]) =
      .ok ⟨false, .ofDecimal false 5 (-1), "transparent"⟩ := by
    rfl
  refine ⟨unknown, (lenient _ (by simp)).1 _ ?_, refused (by decide)⟩
  rw [further]
  exact (listed (by decide) _).mp decodes

end Settings

end SignatureVeil
