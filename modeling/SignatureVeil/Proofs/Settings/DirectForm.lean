import SignatureVeil.Proofs.Json.SingleNumbers
import SignatureVeil.Proofs.Settings.ValueForm

/-!
# Settings that are written directly

The direct form of settings is a text with the settings in a fixed order and
with the digits that the opacity needs with its own 32 bits.  Whatever the
opacity is, this text and the text of the value form are decoded alike.
-/

namespace SignatureVeil

namespace Settings

open Json (NumberEnds numberEnds_comma separator writeBool writeString)

theorem readOpacity_writeOpacity {opacity : Single}
    (finite : opacity.isFinite = true) {rest : List Char}
    (ends : NumberEnds rest) :
    readOpacity (writeOpacity opacity ++ rest) = .ok (opacity, rest) := by
  obtain ⟨found, read, narrowed⟩ := readNumber_writeFinite finite ends
  obtain ⟨character, more, written, starts⟩ := Json.exists_signed_text_eq_cons
    (singleSpelling_wellFormed opacity.magnitude) opacity.negative
  have decodes : decodeOpacity (.number (.float found)) = .ok opacity :=
    congrArg Except.ok narrowed
  rw [writeOpacity, if_pos finite]
  rw [writeFinite_single, written, List.cons_append] at read ⊢
  rw [readOpacity, Json.readValue_of_forall fun nested =>
    Json.readValueWith_of_starts nested starts read]
  simp only [decodes, bind, Except.bind, pure, Except.pure]

/-- The members of the direct form, one behind the other. -/
theorem write_eq (settings : Settings) :
    settings.write = '{' :: memberText true [] [] "enabled"
      (writeBool settings.enabled)
      (memberText false [] [] "opacity" (writeOpacity settings.opacity)
        (memberText false [] [] "backgroundColor"
          (writeString settings.backgroundColor) ['}'])) := by
  simp [write, memberText, separator]

/-- What is left of reading the direct form once its opacity is reached. -/
theorem exists_readSettings_write (settings : Settings) :
    ∃ limit, readSettings settings.write = (do
      let (opacity, rest) ← readOpacity (writeOpacity settings.opacity ++
        memberText false [] [] "backgroundColor"
          (writeString settings.backgroundColor) ['}'])
      let (found, rest) ← readMembers (limit + 2) false
        ⟨settings.enabled, opacity, none⟩ rest
      return (found.complete, rest)) := by
  obtain ⟨limit, long⟩ : ∃ limit, settings.write.tail.length = limit + 4 :=
    Nat.exists_eq_add_of_le' (by
      simp only [write_eq, memberText, writeString, List.tail_cons,
        List.length_append, List.length_cons]
      omega)
  refine ⟨limit, ?_⟩
  rw [write_eq, List.tail_cons] at long
  rw [write_eq, readSettings, Json.skipSpace_cons rfl]
  simp only [long, readMembers_memberText blank_nil,
    readMember_enabled blank_nil, readMember_opacity, bind, Except.bind, pure,
    Except.pure]
  rw [List.nil_append]
  cases readOpacity (writeOpacity settings.opacity ++
    memberText false [] [] "backgroundColor"
      (writeString settings.backgroundColor) ['}']) <;> rfl

theorem readSettings_write {settings : Settings}
    (finite : settings.opacity.isFinite = true) :
    readSettings settings.write = .ok (settings, []) := by
  obtain ⟨limit, read⟩ := exists_readSettings_write settings
  have closing := readMembers_closing blank_nil limit false
    ⟨settings.enabled, settings.opacity, settings.backgroundColor⟩ []
  have ends : NumberEnds (memberText false [] [] "backgroundColor"
      (writeString settings.backgroundColor) ['}']) :=
    numberEnds_comma _
  rw [List.nil_append] at closing
  simp only [read, readOpacity_writeOpacity finite ends,
    readMembers_memberText blank_nil, readMember_color blank_nil,
    bind, Except.bind, closing]
  rfl

theorem readSettings_write_of_not_finite {settings : Settings}
    (infinite : settings.opacity.isFinite = false) :
    readSettings settings.write = .error .unfit := by
  obtain ⟨limit, read⟩ := exists_readSettings_write settings
  have null (rest : List Char) :
      readOpacity (Json.writeNull ++ rest) = .error .unfit :=
    readOpacity_null blank_nil rest
  rw [writeOpacity, infinite, if_neg Bool.false_ne_true, null] at read
  exact read

/-- The direct form of settings with a finite opacity is decoded to the same
settings, bit for bit; otherwise it is refused.  The text of the value form
gives the same result. -/
theorem parse_toText (settings : Settings) :
    parse settings.toText =
        (if settings.opacity.isFinite then .ok settings
          else .error .unfit) ∧
      parse settings.toJson.toText = parse settings.toText := by
  have parsed : parse settings.toText =
      if settings.opacity.isFinite then .ok settings else .error .unfit := by
    rw [parse, toText, String.toList_ofList]
    cases finite : settings.opacity.isFinite with
    | true =>
        rw [readSettings_write finite]
        rfl
    | false =>
        rw [readSettings_write_of_not_finite finite]
        rfl
  have parsed' : parse settings.toJson.toText =
      if settings.opacity.isFinite then .ok settings else .error .unfit := by
    rw [parse, Json.toText, String.toList_ofList, writeCompact_toJson]
    cases finite : settings.opacity.isFinite with
    | true =>
        rw [readSettings_objectText blank_nil blank_nil blank_nil finite]
        rfl
    | false =>
        rw [readSettings_objectText_of_not_finite blank_nil blank_nil []
          finite]
        rfl
  exact ⟨parsed, parsed'.trans parsed.symm⟩

end Settings

end SignatureVeil
