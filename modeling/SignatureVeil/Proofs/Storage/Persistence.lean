import SignatureVeil.Proofs.Settings.ValueForm
import SignatureVeil.Proofs.Storage.Loading

/-!
# Settings files that are saved and loaded again

All that a settings file holds can be written and read: what was loaded is
what a text can hold, and so are the settings that are set.  The own section
is the encoding of the last settings, and all other sections stay as they were
loaded.  After the file is saved, the next one that is loaded holds the same
sections, but for the numbers that are not integers, which may be a few
magnitudes away.
-/

namespace SignatureVeil

namespace SettingsFile

/-- A settings file that a text can hold. -/
def WellFormed (file : SettingsFile) : Prop :=
  (Json.object file.root).WellFormed Json.depthLimit

variable {file : SettingsFile}

/-! ## Sections -/

theorem sectionNamed_setSettings_self (file : SettingsFile)
    (settings : Settings) :
    (file.setSettings settings).sectionNamed configurationSection =
      settings.toJson := by
  rw [sectionNamed, setSettings, Json.lookup?_insert_self, Option.getD_some]

theorem sectionNamed_setSettings_of_ne {name : String}
    (other : name ≠ configurationSection) (file : SettingsFile)
    (settings : Settings) :
    (file.setSettings settings).sectionNamed name = file.sectionNamed name := by
  rw [sectionNamed, setSettings, Json.lookup?_insert_of_ne other, ← sectionNamed]

/-- Set some settings, one after the other. -/
def setAll (file : SettingsFile) (changes : List Settings) : SettingsFile :=
  changes.foldl setSettings file

theorem path_setAll (file : SettingsFile) (changes : List Settings) :
    (file.setAll changes).path = file.path := by
  induction changes generalizing file with
  | nil => rfl
  | cons settings changes ih => exact ih _

theorem sectionNamed_setAll_of_ne {name : String}
    (other : name ≠ configurationSection) (file : SettingsFile)
    (changes : List Settings) :
    (file.setAll changes).sectionNamed name = file.sectionNamed name := by
  induction changes generalizing file with
  | nil => rfl
  | cons settings changes ih =>
      exact (ih _).trans (sectionNamed_setSettings_of_ne other file settings)

/-- The own section is the encoding of the settings that were set last, or
what it was if none were set. -/
theorem sectionNamed_setAll_self (file : SettingsFile)
    (changes : List Settings) :
    (file.setAll changes).sectionNamed configurationSection =
      (changes.getLast?.map Settings.toJson).getD
        (file.sectionNamed configurationSection) := by
  rcases List.eq_nil_or_concat' changes with rfl | ⟨earlier, last, rfl⟩
  · rfl
  · rw [setAll, List.foldl_append, List.foldl_cons, List.foldl_nil,
      sectionNamed_setSettings_self, List.getLast?_concat, Option.map_some,
      Option.getD_some]

/-! ## Well-formed files -/

theorem withDefaults_wellFormed (path : PathText) :
    (withDefaults path).WellFormed :=
  .object (List.pairwise_singleton _ _)
    (List.forall_mem_singleton.mpr (Settings.default.toJson_wellFormed 125))

theorem sectionsOf?_wellFormed {text : String}
    {sections : List (String × Json)}
    (found : sectionsOf? text = some sections) :
    (Json.object sections).WellFormed Json.depthLimit := by
  unfold sectionsOf? at found
  split at found
  case h_1 parsed =>
    obtain rfl := Option.some.inj found
    exact Json.parse_wellFormed parsed
  case h_2 => exact absurd found nofun

theorem load_wellFormed (tree : FileTree) (path : PathText) :
    (load tree path).1.WellFormed := by
  unfold load
  split
  · split
    case h_1 found => exact sectionsOf?_wellFormed found
    case h_2 => exact withDefaults_wellFormed path
  · exact withDefaults_wellFormed path

theorem load_path (tree : FileTree) (path : PathText) :
    (load tree path).1.path = path := by
  unfold load
  split
  · split <;> rfl
  · rfl

theorem WellFormed.setSettings (wellFormed : file.WellFormed)
    (settings : Settings) : (file.setSettings settings).WellFormed := by
  obtain ⟨ascending, members⟩ := Json.wellFormed_object_iff.mp wellFormed
  refine Json.wellFormed_object_iff.mpr ⟨ascending.insert _ _, ?_⟩
  intro member isMember
  rcases Json.mem_of_mem_insert isMember with rfl | old
  · exact settings.toJson_wellFormed 125
  · exact members member old

theorem WellFormed.setAll (wellFormed : file.WellFormed)
    (changes : List Settings) : (file.setAll changes).WellFormed := by
  induction changes generalizing file with
  | nil => exact wellFormed
  | cons settings changes ih => exact ih (wellFormed.setSettings settings)

/-- The numbers of a section are numbers of the file. -/
theorem WellFormed.numbers (wellFormed : file.WellFormed) (name : String) :
    ∀ number ∈ (file.sectionNamed name).numbers, number.WellFormed := by
  obtain ⟨-, members⟩ := Json.wellFormed_object_iff.mp wellFormed
  unfold sectionNamed
  cases found : Json.lookup? name file.root with
  | none => exact fun _ isNumber => absurd isNumber List.not_mem_nil
  | some value => exact (members _ (Json.mem_of_lookup? found)).numbers

/-! ## Loading what was saved -/

/-- A settings file with all its numbers reread. -/
def reread (file : SettingsFile) : SettingsFile :=
  { file with root :=
      Json.mapNumbersOfMembers JsonNumber.reread file.root }

theorem sectionNamed_reread (file : SettingsFile) (name : String) :
    file.reread.sectionNamed name =
      (file.sectionNamed name).mapNumbers JsonNumber.reread := by
  rw [sectionNamed, reread, Json.lookup?_mapNumbersOfMembers, sectionNamed]
  cases Json.lookup? name file.root <;> rfl

theorem read?_of_save {tree saved : FileTree}
    (succeeds : file.save tree = (saved, true)) :
    saved.read? file.path = some file.text.toUTF8 := by
  unfold save at succeeds
  split at succeeds
  split at succeeds
  case isTrue =>
    split at succeeds
    case h_1 writes =>
      obtain rfl := (Prod.mk.inj succeeds).1
      exact FileTree.read?_of_write? writes
    case h_2 => exact absurd (Prod.mk.inj succeeds).2 nofun
  case isFalse => exact absurd (Prod.mk.inj succeeds).2 nofun

theorem sectionsOf?_text (wellFormed : file.WellFormed) :
    sectionsOf? file.text = some file.reread.root := by
  rw [sectionsOf?, text, Json.parse_toPrettyText wellFormed, Json.mapNumbers]
  rfl

theorem load_of_text {tree : FileTree} {path : PathText} {text : String}
    {sections : List (String × Json)}
    (reads : tree.read? path = some text.toUTF8)
    (found : sectionsOf? text = some sections) :
    load tree path = (⟨path, sections⟩, tree, []) := by
  have readText : readText? tree path = some text := by
    rw [readText?, reads, Option.bind_some]
    exact dif_pos text.isValidUTF8
  rw [load, readText]
  simp only [found]

theorem load_of_save {tree saved : FileTree} (wellFormed : file.WellFormed)
    (succeeds : file.save tree = (saved, true)) :
    load saved file.path = (file.reread, saved, []) :=
  load_of_text (read?_of_save succeeds) (sectionsOf?_text wellFormed)

/-! ## A number that does not stay the same -/

/-- A settings file in which some other section has a number that is not an
integer. -/
def toleranceText : String :=
  "\x7b\n  \"editor\": \x7b\n    \"tolerance\": 1.0000000000000001e-24\n  \x7d\n\x7d"

/-- The magnitude of the number `1.0000000000000001e-24`. -/
def upperTolerance : Nat :=
  4247835366853742248

/-- The magnitude of the number `1e-24`. -/
def lowerTolerance : Nat :=
  4247835366853742247

/-- A settings file with such a number. -/
def toleranceFile (magnitude : Nat) : SettingsFile :=
  ⟨"home/settings.json", [("editor",
    .object [("tolerance", .number (.float ⟨false, magnitude⟩))])]⟩

theorem toleranceFile_wellFormed {magnitude : Nat}
    (finite : magnitude < BinaryFormat.double.infinity) :
    (toleranceFile magnitude).WellFormed :=
  .object (List.pairwise_singleton _ _) (List.forall_mem_singleton.mpr
    (.object (List.pairwise_singleton _ _) (List.forall_mem_singleton.mpr
      (.number finite))))

theorem toleranceFile_text :
    (toleranceFile upperTolerance).text = toleranceText := by
  decide +kernel

/-- The number is read as the one below it, which is read as the number
again. -/
theorem reread_tolerance :
    (JsonNumber.float ⟨false, upperTolerance⟩).reread =
        .float ⟨false, lowerTolerance⟩ ∧
      (JsonNumber.float ⟨false, lowerTolerance⟩).reread =
        .float ⟨false, upperTolerance⟩ := by
  constructor
  · refine JsonNumber.reread_float (by decide) (floatOf?_of_neg
      (?_ : _ = ((10000000000000001 : Nat), (-40 : Int))) ?_ ?_ ?_) <;>
      decide +kernel
  · refine JsonNumber.reread_float (by decide) (floatOf?_of_neg
      (?_ : _ = ((1 : Nat), (-24 : Int))) ?_ ?_ ?_) <;>
      decide +kernel

theorem toleranceFile_reread :
    (toleranceFile upperTolerance).reread = toleranceFile lowerTolerance ∧
      (toleranceFile lowerTolerance).reread = toleranceFile upperTolerance := by
  have reread (magnitude : Nat) : (toleranceFile magnitude).reread =
      ⟨"home/settings.json", [("editor", .object [("tolerance",
        .number (JsonNumber.float ⟨false, magnitude⟩).reread)])]⟩ :=
    rfl
  rw [reread, reread, reread_tolerance.1, reread_tolerance.2]
  exact ⟨rfl, rfl⟩

def toleranceHome : FileTree :=
  homeWith toleranceText.toUTF8

theorem read?_toleranceHome :
    toleranceHome.read? "home/settings.json" = some toleranceText.toUTF8 := by
  decide +kernel

theorem load_toleranceHome : load toleranceHome "home/settings.json" =
    (toleranceFile lowerTolerance, toleranceHome, []) := by
  have found := sectionsOf?_text (toleranceFile_wellFormed
    (show upperTolerance < BinaryFormat.double.infinity by decide))
  rw [toleranceFile_text, toleranceFile_reread.1] at found
  exact load_of_text read?_toleranceHome found

theorem exists_save_toleranceHome {file : SettingsFile}
    (samePath : file.path = "home/settings.json") :
    ∃ saved, file.save toleranceHome = (saved, true) := by
  obtain ⟨place, leads, present⟩ :=
    FileTree.read?_eq_some_iff.mp read?_toleranceHome
  exact ⟨_, save_of_file (samePath ▸ leads) present⟩

/-! ## Sections that were saved -/

/-- Whatever settings are set, all sections but the own one stay as they were
loaded.  Once the file is saved, loading it finds every section again with the
same integers; its other numbers keep their signs and are at most seven
magnitudes away. -/
theorem load_of_save_setAll (tree : FileTree) (path : PathText)
    (changes : List Settings) :
    (∀ name, name ≠ configurationSection →
      ((load tree path).1.setAll changes).sectionNamed name =
        (load tree path).1.sectionNamed name) ∧
    ((load tree path).1.setAll changes).sectionNamed configurationSection =
      (changes.getLast?.map Settings.toJson).getD
        ((load tree path).1.sectionNamed configurationSection) ∧
    ∀ before saved,
      ((load tree path).1.setAll changes).save before = (saved, true) →
      ∃ loaded, load saved path = (loaded, saved, []) ∧ ∀ name,
        loaded.sectionNamed name =
          (((load tree path).1.setAll changes).sectionNamed name).mapNumbers
            JsonNumber.reread ∧
        ∀ number ∈
          (((load tree path).1.setAll changes).sectionNamed name).numbers,
          number.Near number.reread := by
  have wellFormed := (load_wellFormed tree path).setAll changes
  have samePath := (path_setAll (load tree path).1 changes).trans
    (load_path tree path)
  refine ⟨fun name other => sectionNamed_setAll_of_ne other _ changes,
    sectionNamed_setAll_self _ changes, fun before saved succeeds => ?_⟩
  have loads := load_of_save wellFormed succeeds
  rw [samePath] at loads
  exact ⟨_, loads, fun name => ⟨sectionNamed_reread _ name,
    fun number isNumber =>
      JsonNumber.near_reread (wellFormed.numbers name number isNumber)⟩⟩

theorem load_of_save_setAll_tolerance :
    "editor" ≠ configurationSection ∧ ∃ saved,
      ((load toleranceHome "home/settings.json").1.setAll [.default]).save
        toleranceHome = (saved, true) ∧
      ((load toleranceHome "home/settings.json").1.setAll
        [.default]).sectionNamed "editor" =
          (load toleranceHome "home/settings.json").1.sectionNamed "editor" ∧
      ∃ loaded, load saved "home/settings.json" = (loaded, saved, []) ∧
        loaded.sectionNamed "editor" =
          (((load toleranceHome "home/settings.json").1.setAll
            [.default]).sectionNamed "editor").mapNumbers
              JsonNumber.reread := by
  have other : "editor" ≠ configurationSection := by decide
  obtain ⟨saved, succeeds⟩ := exists_save_toleranceHome
    ((path_setAll (load toleranceHome "home/settings.json").1 [.default]).trans
      (load_path toleranceHome "home/settings.json"))
  have kept := load_of_save_setAll toleranceHome "home/settings.json" [.default]
  obtain ⟨loaded, loads, sections⟩ := kept.2.2 toleranceHome saved succeeds
  exact ⟨other, saved, succeeds, kept.1 "editor" other, loaded, loads,
    (sections "editor").1⟩

/-- After saving and loading, a section need not be what it was. -/
theorem load_of_save_other_number :
    ((load toleranceHome "home/settings.json").1.save toleranceHome).2 = true ∧
      (load ((load toleranceHome "home/settings.json").1.save toleranceHome).1
        "home/settings.json").1.sectionNamed "editor" ≠
          (load toleranceHome "home/settings.json").1.sectionNamed "editor" := by
  obtain ⟨saved, succeeds⟩ := exists_save_toleranceHome
    (show (toleranceFile lowerTolerance).path = "home/settings.json" from rfl)
  have loads := load_of_save (toleranceFile_wellFormed
    (show lowerTolerance < BinaryFormat.double.infinity by decide))
    succeeds
  rw [toleranceFile_reread.2] at loads
  rw [load_toleranceHome]
  simp only [succeeds, true_and]
  change (load saved (toleranceFile lowerTolerance).path).1.sectionNamed
    "editor" ≠ _
  rw [loads]
  have different :
      ((toleranceFile upperTolerance).sectionNamed "editor").numbers ≠
        ((toleranceFile lowerTolerance).sectionNamed "editor").numbers := by
    decide
  exact fun same => different (congrArg Json.numbers same)

end SettingsFile

end SignatureVeil
