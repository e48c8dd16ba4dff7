import SignatureVeil.Proofs.Storage.Persistence

/-!
# Settings that are replaced and read

Settings that replace those of a settings file are read from it again if their
opacity is finite.  An opacity can also be decoded as infinite or as no number,
but it cannot be encoded then, and the settings that are read are the defaults.
-/

namespace SignatureVeil

/-! ## Opacities that can be decoded -/

namespace BinaryFormat

theorem nearest_le_infinity (format : BinaryFormat)
    (numerator denominator : Nat) :
    format.nearest numerator denominator ≤ format.infinity := by
  unfold nearest
  split
  · exact Nat.zero_le _
  · exact Nat.min_le_left _ _

theorem ofDecimal_le_infinity (format : BinaryFormat) (digits : Nat)
    (exponent : Int) : format.ofDecimal digits exponent ≤ format.infinity := by
  unfold ofDecimal
  split
  · exact Nat.zero_le _
  · simp only []
    split
    · exact le_rfl
    · split
      · exact Nat.zero_le _
      · exact nearest_le_infinity _ _ _

end BinaryFormat

namespace Binary

variable {format target : BinaryFormat}

/-- Of the magnitudes that stand for no number, only one is ever made. -/
def IsCanonical (value : Binary format) : Prop :=
  value.magnitude ≤ format.infinity ∨
    value.magnitude = format.infinity + format.hiddenBit / 2

theorem isCanonical_convert (target : BinaryFormat) (value : Binary format) :
    (value.convert target).IsCanonical := by
  unfold convert
  split
  · exact .inr rfl
  · split
    · exact .inl le_rfl
    · exact .inl (BinaryFormat.nearest_le_infinity _ _ _)

theorem isCanonical_ofWord? {negative : Bool} {word : List Char}
    {value : Binary format}
    (found : ofWord? format negative word = some value) :
    value.IsCanonical := by
  simp only [ofWord?] at found
  split at found
  · obtain rfl := Option.some.inj found
    exact .inl le_rfl
  · split at found
    · obtain rfl := Option.some.inj found
      exact .inr rfl
    · contradiction

theorem isCanonical_ofText {text : List Char} {value : Binary format}
    (found : ofText format text = .ok value) : value.IsCanonical := by
  simp only [ofText] at found
  split at found
  · contradiction
  · split at found
    · obtain rfl := Except.ok.inj found
      exact .inl (BinaryFormat.ofDecimal_le_infinity _ _ _)
    · split at found
      case h_1 word =>
        obtain rfl := Except.ok.inj found
        exact isCanonical_ofWord? word
      case h_2 => contradiction

end Binary

namespace Settings

theorem isCanonical_decodeOpacity {value : Json} {opacity : Single}
    (decodes : decodeOpacity value = .ok opacity) : opacity.IsCanonical := by
  cases value with
  | number number =>
      obtain rfl := Except.ok.inj decodes
      cases number with
      | integer value => exact .inl (BinaryFormat.nearest_le_infinity _ _ _)
      | float value => exact Binary.isCanonical_convert _ value
  | string text =>
      simp only [decodeOpacity] at decodes
      split at decodes
      case h_1 found =>
        obtain rfl := Except.ok.inj decodes
        exact Binary.isCanonical_ofText found
      case h_2 => contradiction
  | _ => contradiction

/-- A word for an opacity that is infinite or no number. -/
def opacityWord (opacity : Single) : String :=
  (if opacity.negative then "-" else "") ++
    (if opacity.isNaN then "nan" else "inf")

theorem decodeOpacity_opacityWord {opacity : Single}
    (canonical : opacity.IsCanonical) (infinite : opacity.isFinite = false) :
    decodeOpacity (.string (opacityWord opacity)) = .ok opacity := by
  obtain ⟨negative, magnitude⟩ := opacity
  have large : BinaryFormat.single.infinity ≤ magnitude :=
    not_lt.mp (of_decide_eq_false infinite)
  rcases canonical with notAbove | rfl
  · obtain rfl : magnitude = BinaryFormat.single.infinity :=
      Nat.le_antisymm notAbove large
    cases negative <;> decide
  · cases negative <;> decide

theorem isCanonical_decodeOr {value : Option Json} {opacity : Single}
    (decodes : decodeOr default.opacity decodeOpacity value = .ok opacity) :
    opacity.IsCanonical := by
  cases value with
  | none =>
      obtain rfl := Except.ok.inj decodes
      exact .inl (by decide)
  | some value => exact isCanonical_decodeOpacity decodes

theorem isFinite_default : default.opacity.isFinite = true := by
  decide

/-- The settings that some section is decoded to are those whose opacity can be
made at all. -/
theorem exists_section_iff (settings : Settings) :
    (∃ value, ofSection? value = .ok settings) ↔
      settings.opacity.IsCanonical := by
  constructor
  · rintro ⟨value, decodes⟩
    cases value with
    | object members =>
        obtain ⟨color, -, decodes⟩ := Json.exists_of_bind_eq_ok decodes
        obtain ⟨enabled, -, decodes⟩ := Json.exists_of_bind_eq_ok decodes
        obtain ⟨opacity, found, decodes⟩ := Json.exists_of_bind_eq_ok decodes
        obtain rfl := Except.ok.inj decodes
        exact isCanonical_decodeOr found
    | array items =>
        obtain ⟨enabled, -, decodes⟩ := Json.exists_of_bind_eq_ok decodes
        obtain ⟨opacity, found, decodes⟩ := Json.exists_of_bind_eq_ok decodes
        obtain ⟨color, -, decodes⟩ := Json.exists_of_bind_eq_ok decodes
        split at decodes
        · contradiction
        · obtain rfl := Except.ok.inj decodes
          exact isCanonical_decodeOr found
    | _ => contradiction
  · intro canonical
    cases finite : settings.opacity.isFinite with
    | true => exact ⟨settings.toJson, ((decode_toJson settings).1 finite).1⟩
    | false =>
        refine ⟨_, (ofSection?_members settings.enabled
          (.string (opacityWord settings.opacity))
          settings.backgroundColor).trans ?_⟩
        rw [decodeOpacity_opacityWord canonical finite]
        rfl

end Settings

/-! ## Replacing the settings of a file -/

namespace SettingsFile

theorem settings_setSettings (file : SettingsFile) (settings : Settings) :
    (file.setSettings settings).settings =
      if settings.opacity.isFinite then
        (settings, [])
      else
        (.default, [.sectionRefused]) := by
  obtain ⟨keeps, refuses⟩ := Settings.decode_toJson settings
  rw [SettingsFile.settings, sectionNamed_setSettings_self]
  cases finite : settings.opacity.isFinite with
  | true =>
      obtain ⟨-, decodes, -⟩ := keeps finite
      rw [decodes]
      rfl
  | false =>
      obtain ⟨-, -, -, -, refused⟩ := refuses finite
      rw [refused]
      rfl

theorem settings_setSettings_eq_iff (file : SettingsFile)
    (settings : Settings) :
    (file.setSettings settings).settings.1 = settings ↔
      settings.opacity.isFinite = true := by
  rw [settings_setSettings]
  cases finite : settings.opacity.isFinite with
  | true => exact ⟨fun _ => rfl, fun _ => rfl⟩
  | false =>
      refine ⟨fun same => ?_, nofun⟩
      have finite' := Settings.isFinite_default
      change Settings.default = settings at same
      rw [same, finite] at finite'
      exact finite'

theorem isFinite_of_setSettings (file : SettingsFile) (settings : Settings) :
    (file.setSettings settings).settings.1.opacity.isFinite = true := by
  rw [settings_setSettings]
  cases finite : settings.opacity.isFinite with
  | true => exact finite
  | false => exact Settings.isFinite_default

/-- Some section is decoded to settings exactly if their opacity is finite,
infinite, or the one magnitude that stands for no number.  If they replace the
settings of a file, the file holds these settings if the opacity is finite, and
otherwise a section that is refused.  So replacing the settings by those that
are in force changes nothing unless their opacity is not finite, and this
happens only before settings have been replaced. -/
theorem settings_of_replaced (file : SettingsFile) (settings : Settings) :
    ((∃ value, Settings.ofSection? value = .ok settings) ↔
      settings.opacity.IsCanonical) ∧
    (file.setSettings settings).settings =
      (if settings.opacity.isFinite then
        (settings, [])
      else
        (.default, [.sectionRefused])) ∧
    ((file.setSettings settings).settings.1 = settings ↔
      settings.opacity.isFinite = true) ∧
    ((file.setSettings settings).setSettings
        (file.setSettings settings).settings.1).settings.1 =
      (file.setSettings settings).settings.1 :=
  ⟨Settings.exists_section_iff settings, settings_setSettings file settings,
    settings_setSettings_eq_iff file settings,
    (settings_setSettings_eq_iff _ _).mpr
      (isFinite_of_setSettings file settings)⟩

/-- A settings file whose section has an infinite opacity. -/
def infiniteFile : SettingsFile :=
  ⟨"settings.json", [(configurationSection, .object [
    ("backgroundColor", .string "red"), ("enabled", .bool false),
    ("opacity", .string "inf")])]⟩

/-- Replacing the settings that are in force by themselves loses all of
them. -/
theorem settings_replaced_infinite :
    infiniteFile.settings =
        (⟨false, ⟨false, BinaryFormat.single.infinity⟩, "red"⟩, []) ∧
      (infiniteFile.setSettings infiniteFile.settings.1).settings =
        (.default, [.sectionRefused]) ∧
      Settings.default ≠ infiniteFile.settings.1 := by
  have read : infiniteFile.settings =
      (⟨false, ⟨false, BinaryFormat.single.infinity⟩, "red"⟩, []) := by
    decide
  rw [read, settings_setSettings]
  exact ⟨rfl, rfl, by decide⟩

end SettingsFile

end SignatureVeil
