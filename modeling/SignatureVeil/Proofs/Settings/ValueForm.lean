import SignatureVeil.Proofs.Binary.Widening
import SignatureVeil.Proofs.Json.RoundTrip
import SignatureVeil.Settings.Encoding
import SignatureVeil.Settings.TextReader

/-!
# Settings that are encoded and decoded again

The value form of settings whose opacity is finite is decoded to the same
settings, and so is its text, whichever way it is read and laid out: what a
number loses on its way through a text is too little to change the opacity.
Settings whose opacity is not finite are encoded with null in its place, which
no decoding accepts.
-/

namespace SignatureVeil

namespace Settings

open Json (Blank Fault NumberEnds blank_newLine readColon readString
  separator writeBool writeString)

/-! ## Opacities -/

theorem opacityValue_wellFormed (opacity : Single) (depth : Nat) :
    (opacityValue opacity).WellFormed depth := by
  unfold opacityValue
  split
  case isTrue finite =>
    exact .number (Binary.convert_double_finite finite)
  case isFalse => exact .null

theorem toJson_wellFormed (settings : Settings) (depth : Nat) :
    settings.toJson.WellFormed (depth + 1) := by
  refine .object ?_ ?_
  · simp only [Json.Ascending, List.pairwise_cons, List.mem_cons,
      List.not_mem_nil, or_false, forall_eq_or_imp, forall_eq]
    exact ⟨⟨by decide, by decide⟩, by decide, nofun, .nil⟩
  · exact List.forall_mem_cons.mpr ⟨.string _, List.forall_mem_cons.mpr
      ⟨.bool _, List.forall_mem_singleton.mpr
        (opacityValue_wellFormed _ _)⟩⟩

section

variable {opacity : Single}

theorem decodeOpacity_opacityValue (finite : opacity.isFinite = true) :
    decodeOpacity (opacityValue opacity) = .ok opacity := by
  rw [opacityValue, if_pos finite]
  exact congrArg Except.ok (Binary.convert_convert finite)

/-- Reading the number of a finite opacity again does not change the
opacity. -/
theorem decodeOpacity_reread (finite : opacity.isFinite = true) :
    decodeOpacity ((opacityValue opacity).mapNumbers JsonNumber.reread) =
      .ok opacity := by
  have wellFormed : (JsonNumber.float (opacity.convert .double)).WellFormed :=
    Binary.convert_double_finite finite
  obtain ⟨magnitude, same, near, near', -⟩ := JsonNumber.near_reread wellFormed
  rw [opacityValue, if_pos finite, Json.mapNumbers, same]
  exact congrArg Except.ok (Binary.convert_single_of_near finite near near')

end

/-! ## Values in a text -/

section

variable {space : List Char} (blank : Blank space)

include blank

theorem readAtomAs_eq {α : Type} {decode : Json → Except SectionFault α}
    {value : Json} {decoded : α} {character : Char} {more rest : List Char}
    (shown : Json.isSpace character = false)
    (isAtom : character ≠ '[' ∧ character ≠ '{')
    (reads : Json.readAtom .full (character :: more) = .ok (value, rest))
    (decodes : decode value = .ok decoded) :
    readAtomAs decode (space ++ character :: more) = .ok (decoded, rest) := by
  rw [readAtomAs, Json.skipSpace_append blank, Json.skipSpace_cons shown]
  split
  case h_1 same => exact absurd (List.cons.inj same).1 isAtom.1
  case h_2 same => exact absurd (List.cons.inj same).1 isAtom.2
  case h_3 => simp only [reads, decodes, bind, Except.bind, pure, Except.pure]

theorem readAtomAs_writeBool (value : Bool) (rest : List Char) :
    readAtomAs decodeEnabled (space ++ (writeBool value ++ rest)) =
      .ok (value, rest) := by
  cases value <;> exact readAtomAs_eq blank rfl (by decide) rfl rfl

theorem readAtomAs_writeString (value : String) (rest : List Char) :
    readAtomAs decodeColor (space ++ (writeString value ++ rest)) =
      .ok (value, rest) := by
  rw [writeString, List.cons_append, List.append_assoc, List.singleton_append]
  have reads : Json.readAtom .full ('"' ::
      (value.toList.flatMap Json.escapeCharacter ++ '"' :: rest)) =
        .ok (.string value, rest) := by
    rw [Json.readAtom, Json.readString_write]
    rfl
  exact readAtomAs_eq blank rfl (by decide) reads rfl

theorem readOpacity_write {opacity : Single} (finite : opacity.isFinite = true)
    {rest : List Char} (ends : NumberEnds rest) :
    readOpacity (space ++
        (Json.writeCompact (opacityValue opacity) ++ rest)) =
      .ok (opacity, rest) := by
  have wellFormed : (JsonNumber.float (opacity.convert .double)).WellFormed :=
    Binary.convert_double_finite finite
  have decodes := decodeOpacity_reread finite
  rw [opacityValue, if_pos finite] at decodes ⊢
  rw [readOpacity, Json.readValue_skipSpace blank, Json.writeCompact,
    Json.readValue_of_forall fun nested =>
      Json.readValueWith_number nested wellFormed ends]
  simp only [Json.mapNumbers] at decodes
  simp only [decodes, bind, Except.bind, pure, Except.pure]

theorem readOpacity_null (rest : List Char) :
    readOpacity (space ++ (Json.writeNull ++ rest)) = .error .unfit := by
  rw [readOpacity, Json.readValue_skipSpace blank,
    Json.readValue_of_forall fun nested => Json.readValueWith_null nested rest]
  rfl

end

/-! ## Members in a text -/

/-- A member in a text, with white space before its key and its value. -/
def memberText (first : Bool) (space gap : List Char) (key : String)
    (value rest : List Char) : List Char :=
  separator first ++ (space ++ (writeString key ++
    ':' :: (gap ++ (value ++ rest))))

theorem readMembers_memberText {space : List Char} (blank : Blank space)
    (limit : Nat) (first : Bool) (found : Partial) (gap : List Char)
    (key : String) (value rest : List Char) :
    readMembers (limit + 1) first found
        (memberText first space gap key value rest) =
      (readMember key found (':' :: (gap ++ (value ++ rest))) >>=
        fun (found, rest) => readMembers limit false found rest) := by
  rw [memberText, writeString, List.cons_append, List.append_assoc,
    List.singleton_append]
  simp only [readMembers, Json.nextKey_separator blank, Json.readString_write,
    bind, Except.bind]

theorem readMembers_closing {space : List Char} (blank : Blank space)
    (limit : Nat) (first : Bool) (found : Partial) (rest : List Char) :
    readMembers (limit + 1) first found (space ++ '}' :: rest) =
      .ok (found, rest) := by
  rw [readMembers, Json.nextKey_closing blank]
  rfl

theorem readColon_cons (text : List Char) : readColon (':' :: text) = .ok text :=
  rfl

section

variable {gap : List Char} {found : Partial}

theorem readMember_color (blank : Blank gap)
    (fresh : found.backgroundColor = none) (value : String)
    (rest : List Char) :
    readMember "backgroundColor" found
        (':' :: (gap ++ (writeString value ++ rest))) =
      .ok ({ found with backgroundColor := some value }, rest) := by
  simp [readMember, fresh, readColon_cons, readAtomAs_writeString blank, bind,
    Except.bind, pure, Except.pure]

theorem readMember_enabled (blank : Blank gap) (fresh : found.enabled = none)
    (value : Bool) (rest : List Char) :
    readMember "enabled" found (':' :: (gap ++ (writeBool value ++ rest))) =
      .ok ({ found with enabled := some value }, rest) := by
  simp [readMember, fresh, readColon_cons, readAtomAs_writeBool blank, bind,
    Except.bind, pure, Except.pure]

theorem readMember_opacity (fresh : found.opacity = none) (text : List Char) :
    readMember "opacity" found (':' :: text) =
      (readOpacity text >>= fun (opacity, rest) =>
        .ok ({ found with opacity := some opacity }, rest)) := by
  simp [readMember, fresh, readColon_cons, bind, Except.bind, pure,
    Except.pure]

end

/-! ## Texts -/

/-- The text of the value form, with white space before each key, each value
and the closing bracket. -/
def objectText (space gap ending : List Char) (settings : Settings) :
    List Char :=
  '{' :: memberText true space gap "backgroundColor"
    (writeString settings.backgroundColor)
    (memberText false space gap "enabled" (writeBool settings.enabled)
      (memberText false space gap "opacity"
        (Json.writeCompact (opacityValue settings.opacity)) (ending ++ ['}'])))

theorem writeCompact_toJson (settings : Settings) :
    Json.writeCompact settings.toJson = objectText [] [] [] settings := by
  simp [toJson, objectText, memberText, Json.writeCompact,
    Json.writeCompactMembers, separator]

theorem writePretty_opacityValue (depth : Nat) (opacity : Single) :
    Json.writePretty depth (opacityValue opacity) =
      Json.writeCompact (opacityValue opacity) := by
  unfold opacityValue
  split <;> rw [Json.writePretty, Json.writeCompact]

theorem writePretty_toJson (settings : Settings) :
    Json.writePretty 0 settings.toJson =
      objectText (Json.newLine 1) [' '] (Json.newLine 0) settings := by
  simp [toJson, objectText, memberText, Json.writePretty,
    Json.writePrettyMembers, Json.closingLine, separator,
    writePretty_opacityValue]

section

variable {space gap ending : List Char} (blank : Blank space)
  (blank' : Blank gap) {settings : Settings}

include blank blank'

/-- What is left of reading a text once its opacity is reached. -/
theorem exists_readSettings_objectText (ending : List Char)
    (settings : Settings) :
    ∃ limit, readSettings (objectText space gap ending settings) = (do
      let (opacity, rest) ← readOpacity (gap ++
        (Json.writeCompact (opacityValue settings.opacity) ++
          (ending ++ ['}'])))
      let (found, rest) ← readMembers (limit + 1) false
        ⟨settings.enabled, opacity, settings.backgroundColor⟩ rest
      return (found.complete, rest)) := by
  obtain ⟨limit, long⟩ : ∃ limit,
      (objectText space gap ending settings).tail.length = limit + 4 :=
    Nat.exists_eq_add_of_le' (by
      simp only [objectText, memberText, writeString, List.tail_cons,
        List.length_append, List.length_cons]
      omega)
  refine ⟨limit, ?_⟩
  rw [objectText, List.tail_cons] at long
  rw [objectText, readSettings, Json.skipSpace_cons rfl]
  simp only [long, readMembers_memberText blank, readMember_color blank',
    readMember_enabled blank', readMember_opacity, bind, Except.bind, pure,
    Except.pure]
  cases readOpacity (gap ++
    (Json.writeCompact (opacityValue settings.opacity) ++
      (ending ++ ['}']))) <;> rfl

theorem readSettings_objectText (blank'' : Blank ending)
    (finite : settings.opacity.isFinite = true) :
    readSettings (objectText space gap ending settings) =
      .ok (settings, []) := by
  obtain ⟨limit, read⟩ :=
    exists_readSettings_objectText blank blank' ending settings
  rw [read, readOpacity_write blank' finite
    (Json.numberEnds_closing blank'' (.inr rfl) [])]
  simp only [bind, Except.bind, readMembers_closing blank'']
  rfl

theorem readSettings_objectText_of_not_finite (ending : List Char)
    (infinite : settings.opacity.isFinite = false) :
    readSettings (objectText space gap ending settings) = .error .unfit := by
  obtain ⟨limit, read⟩ :=
    exists_readSettings_objectText blank blank' ending settings
  rw [opacityValue, infinite, if_neg Bool.false_ne_true, Json.writeCompact,
    readOpacity_null blank'] at read
  exact read

end

theorem blank_nil : Blank [] :=
  fun _ isMember => absurd isMember List.not_mem_nil

theorem blank_space : Blank [' '] :=
  List.forall_mem_singleton.mpr rfl

/-! ## Decoding what was encoded -/

/-- The settings of the members of the value form. -/
theorem ofSection?_members (enabled : Bool) (opacity : Json) (color : String) :
    ofSection? (.object [("backgroundColor", .string color),
        ("enabled", .bool enabled), ("opacity", opacity)]) =
      (decodeOpacity opacity).map (⟨enabled, ·, color⟩) := by
  cases found : decodeOpacity opacity <;>
    simp [ofSection?, Json.lookup?, decodeOr, decodeColor, decodeEnabled, found,
      bind, Except.bind, pure, Except.pure, Except.map]

section

variable {value : Json} {settings : Settings}

theorem ofSection_of_ok (decodes : ofSection? value = .ok settings) :
    ofSection value = (settings, false) := by
  cases value with
  | null => exact absurd decodes nofun
  | _ => simp only [ofSection, decodes]

theorem ofSection_of_error {fault : SectionFault} (present : value ≠ .null)
    (refuses : ofSection? value = .error fault) :
    ofSection value = (default, true) := by
  cases value with
  | null => exact absurd rfl present
  | _ => simp only [ofSection, refuses]

end

/-- Settings with a finite opacity are decoded to themselves, bit for bit: from
their value form, from its text in either layout, and from the value that is
read from such a text.  The value form of other settings has null for the
opacity; it is refused as a whole, and the defaults are in force. -/
theorem decode_toJson (settings : Settings) :
    (settings.opacity.isFinite = true →
      ofSection? settings.toJson = .ok settings ∧
      ofSection settings.toJson = (settings, false) ∧
      parse settings.toJson.toText = .ok settings ∧
      parse settings.toJson.toPrettyText = .ok settings ∧
      (Json.parse settings.toJson.toPrettyText).map ofSection =
        .ok (settings, false)) ∧
    (settings.opacity.isFinite = false →
      settings.toJson.member? "opacity" = some .null ∧
      ofSection? settings.toJson = .error .opacityKind ∧
      parse settings.toJson.toText = .error .unfit ∧
      parse settings.toJson.toPrettyText = .error .unfit ∧
      ofSection settings.toJson = (default, true)) := by
  constructor
  · intro finite
    have strict : ofSection? settings.toJson = .ok settings := by
      rw [toJson, ofSection?_members, decodeOpacity_opacityValue finite]
      rfl
    have reread : ofSection? (settings.toJson.mapNumbers JsonNumber.reread) =
        .ok settings := by
      simp only [toJson, Json.mapNumbers, Json.mapNumbersOfMembers]
      rw [ofSection?_members, decodeOpacity_reread finite]
      rfl
    refine ⟨strict, ofSection_of_ok strict, ?_, ?_, ?_⟩
    · rw [parse, Json.toText, String.toList_ofList, writeCompact_toJson,
        readSettings_objectText blank_nil blank_nil blank_nil finite]
      rfl
    · rw [parse, Json.toPrettyText, String.toList_ofList, writePretty_toJson,
        readSettings_objectText (blank_newLine 1) blank_space (blank_newLine 0)
          finite]
      rfl
    · rw [Json.parse_toPrettyText (settings.toJson_wellFormed 126)]
      exact congrArg Except.ok (ofSection_of_ok reread)
  · intro infinite
    have null : opacityValue settings.opacity = .null := by
      rw [opacityValue, infinite, if_neg Bool.false_ne_true]
    have strict : ofSection? settings.toJson = .error .opacityKind := by
      rw [toJson, ofSection?_members, null]
      rfl
    have present : settings.toJson ≠ .null := by simp [toJson]
    refine ⟨?_, strict, ?_, ?_, ofSection_of_error present strict⟩
    · simp [toJson, Json.member?, Json.lookup?, null]
    · rw [parse, Json.toText, String.toList_ofList, writeCompact_toJson,
        readSettings_objectText_of_not_finite blank_nil blank_nil [] infinite]
      rfl
    · rw [parse, Json.toPrettyText, String.toList_ofList, writePretty_toJson,
        readSettings_objectText_of_not_finite (blank_newLine 1) blank_space _
          infinite]
      rfl

/-- A negative zero, and a color full of escapes. -/
def unusualSettings : Settings :=
  ⟨false, ⟨true, 0⟩, "\"\\\n\u0001é"⟩

/-- Settings whose opacity is infinite. -/
def infiniteSettings : Settings :=
  ⟨true, ⟨false, BinaryFormat.single.infinity⟩, "black"⟩

theorem decode_toJson_unusual :
    unusualSettings.opacity.isFinite = true ∧
      parse unusualSettings.toJson.toText = .ok unusualSettings ∧
      infiniteSettings.opacity.isFinite = false ∧
      ofSection infiniteSettings.toJson = (default, true) := by
  have finite : unusualSettings.opacity.isFinite = true := by decide
  have infinite : infiniteSettings.opacity.isFinite = false := by decide
  obtain ⟨-, -, decodes, -⟩ := (decode_toJson unusualSettings).1 finite
  obtain ⟨-, -, -, -, refused⟩ := (decode_toJson infiniteSettings).2 infinite
  exact ⟨finite, decodes, infinite, refused⟩

end Settings

end SignatureVeil
