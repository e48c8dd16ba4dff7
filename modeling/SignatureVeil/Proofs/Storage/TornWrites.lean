import SignatureVeil.Proofs.Json.Prolonging
import SignatureVeil.Proofs.Storage.Persistence

/-!
# Files that were not written to their end

A settings file is written in place, so when writing is cut off, the file
holds the bytes of the text up to some byte.  These may end within a string, a
number or a character.  Only the last byte of the text closes the object that
it opens with, so no part of the text is read as settings: the defaults are
loaded, and nothing that the text would have said.
-/

namespace SignatureVeil

/-- What is left behind whole characters is whole characters. -/
theorem isValidUTF8_of_append {front back : ByteArray}
    (valid : front.IsValidUTF8) (whole : (front ++ back).IsValidUTF8) :
    back.IsValidUTF8 := by
  obtain ⟨characters, rfl⟩ := valid
  induction characters with
  | nil => simpa using whole
  | cons character characters ih =>
      rw [← List.singleton_append, List.utf8Encode_append,
        ByteArray.append_assoc,
        ByteArray.isValidUTF8_utf8Encode_singleton_append_iff] at whole
      exact ih whole

/-- Bytes in front of a text that are a text are some of its characters. -/
theorem exists_append_of_toUTF8 {text : String} {torn more : ByteArray}
    (cut : text.toUTF8 = torn ++ more) {front : String}
    (isText : String.fromUTF8? torn = some front) :
    ∃ back, text = front ++ back ∧ back.toUTF8 = more := by
  unfold String.fromUTF8? at isText
  split at isText
  case isTrue valid =>
    obtain rfl := Option.some.inj isText
    have whole : (torn ++ more).IsValidUTF8 := cut ▸ text.isValidUTF8
    refine ⟨⟨more, isValidUTF8_of_append valid whole⟩, ?_, rfl⟩
    rw [← String.toByteArray_inj, String.toByteArray_append]
    exact cut
  case isFalse => contradiction

namespace SettingsFile

variable {file : SettingsFile} {tree : FileTree} {path : PathText}
  {torn more : ByteArray}

/-- A part of the text of a settings file holds no sections. -/
theorem sectionsOf?_of_cut {front back : String}
    (wellFormed : file.WellFormed) (missing : back ≠ "")
    (cut : file.text = front ++ back) : sectionsOf? front = none := by
  unfold sectionsOf?
  split
  case h_1 members parsed =>
    have missing' : back.toList ≠ [] := by simpa using missing
    have cut' := congrArg String.toList cut
    rw [String.toList_append] at cut'
    exact absurd parsed
      (Json.parse_ne_of_cut _ wellFormed missing' cut' trivial)
  case h_2 => rfl

/-- Where no sections can be read, the defaults are loaded. -/
theorem load_eq_withDefaults
    (unread : ∀ text, readText? tree path = some text →
      sectionsOf? text = none) : (load tree path).1 = withDefaults path := by
  unfold load
  split
  case h_1 text isText =>
    rw [unread text isText]
  case h_2 => rfl

theorem load_of_cut (wellFormed : file.WellFormed)
    (cut : file.text.toUTF8 = torn ++ more) (missing : more ≠ .empty)
    (reads : tree.read? path = some torn) :
    (load tree path).1 = withDefaults path := by
  refine load_eq_withDefaults fun front isText => ?_
  rw [readText?, reads, Option.bind_some] at isText
  obtain ⟨back, parts, rfl⟩ := exists_append_of_toUTF8 cut isText
  refine sectionsOf?_of_cut wellFormed ?_ parts
  rintro rfl
  exact missing rfl

/-- A successful save writes the text of the settings file, and from a file
that holds the beginning of this text but not all of it, the defaults are
loaded. -/
theorem load_of_torn_save (tree : FileTree) (path : PathText)
    (changes : List Settings) :
    (∀ before saved,
      ((load tree path).1.setAll changes).save before = (saved, true) →
        saved.read? path =
          some ((load tree path).1.setAll changes).text.toUTF8) ∧
    ∀ torn more,
      ((load tree path).1.setAll changes).text.toUTF8 = torn ++ more →
      more ≠ .empty → ∀ crashed other, crashed.read? other = some torn →
        (load crashed other).1 = withDefaults other := by
  have wellFormed := (load_wellFormed tree path).setAll changes
  have samePath := (path_setAll (load tree path).1 changes).trans
    (load_path tree path)
  refine ⟨fun before saved succeeds => ?_, ?_⟩
  · rw [← read?_of_save succeeds, samePath]
  · intro torn more cut missing crashed other reads
    exact load_of_cut wellFormed cut missing reads

/-- A home directory with a settings file in which a brace and an accent stand
in a string. -/
def accentedHome : FileTree :=
  homeWith "\x7b\"a\": \"\x7dé\"\x7d".toUTF8

/-- The settings file that is loaded there. -/
def accentedFile : SettingsFile :=
  (load accentedHome "home/settings.json").1.setAll []

def accentedBytes : ByteArray :=
  accentedFile.text.toUTF8

theorem exists_save_accentedHome :
    ∃ saved, accentedFile.save accentedHome = (saved, true) := by
  have reads : accentedHome.read? "home/settings.json" =
      some "\x7b\"a\": \"\x7dé\"\x7d".toUTF8 := by
    decide +kernel
  have samePath : accentedFile.path = "home/settings.json" :=
    (path_setAll _ []).trans (load_path accentedHome "home/settings.json")
  obtain ⟨place, leads, present⟩ := FileTree.read?_eq_some_iff.mp reads
  exact ⟨_, save_of_file (samePath ▸ leads) present⟩

/-- The file is saved, and its text is cut within the accented letter. -/
theorem load_of_torn_save_accented :
    (∃ saved, accentedFile.save accentedHome = (saved, true) ∧
      saved.read? "home/settings.json" = some accentedBytes) ∧
    accentedBytes = accentedBytes.extract 0 12 ++
      accentedBytes.extract 12 16 ∧
    accentedBytes.extract 12 16 ≠ .empty ∧
    (homeWith (accentedBytes.extract 0 12)).read? "home/settings.json" =
      some (accentedBytes.extract 0 12) ∧
    (load (homeWith (accentedBytes.extract 0 12)) "home/settings.json").1 =
      withDefaults "home/settings.json" := by
  have torn := load_of_torn_save accentedHome "home/settings.json" []
  obtain ⟨saved, succeeds⟩ := exists_save_accentedHome
  have cut : accentedBytes = accentedBytes.extract 0 12 ++
      accentedBytes.extract 12 16 := by decide +kernel
  have missing : accentedBytes.extract 12 16 ≠ .empty := by decide +kernel
  have reads : (homeWith (accentedBytes.extract 0 12)).read?
      "home/settings.json" = some (accentedBytes.extract 0 12) := by
    decide +kernel
  exact ⟨⟨saved, succeeds, torn.1 _ _ succeeds⟩, cut, missing, reads,
    torn.2 _ _ cut missing _ _ reads⟩

end SettingsFile

end SignatureVeil
