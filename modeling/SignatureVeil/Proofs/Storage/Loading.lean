import SignatureVeil.Proofs.Storage.Files
import SignatureVeil.Proofs.Storage.Paths
import SignatureVeil.Storage.SettingsFile

/-!
# Loading beside a file

Loading reads a file that holds text and leaves it alone, whether the text is
an object, some other JSON, or no JSON at all.  A file whose bytes are no text
counts as absent: the defaults are written in its place.
-/

namespace SignatureVeil

namespace FileTree

variable {tree : FileTree} {place : TreePlace} {path : PathText}
  {content : ByteArray}

/-- The directory of a file is there already. -/
theorem makeDirectories_parent (leads : tree.locate? path = some place)
    (file : tree.entry? place = some (.file content)) :
    ∀ parent ∈ path.parent?, tree.makeDirectories parent = (tree, true) := by
  intro parent isParent
  simp only [locate?, Option.ite_none_right_eq_some] at leads
  obtain ⟨usable, leads⟩ := leads
  obtain ⟨above, name, split⟩ :=
    (List.eq_nil_or_concat' path.parts).resolve_left PathText.parts_ne_nil
  rw [PathText.steps, split, List.map_append, List.map_singleton] at leads
  obtain ⟨⟨_, named⟩, directory, leads, isDirectory⟩ :=
    exists_directory_of_file leads file
  rw [PathText.parent?_eq split (by simp [named]), Option.mem_some_iff]
    at isParent
  subst isParent
  split
  · -- the file is in the root
    rfl
  rename_i nonempty
  obtain ⟨parts, moves, usable'⟩ :=
    PathText.ofParts_trimEnd usable split nonempty
  obtain ⟨stays, trimmed, idle⟩ := PathText.exists_append_trimEnd above
  rw [trimmed, List.map_append] at leads
  have leads' : tree.follow? []
      (PathText.ofParts (PathText.trimEnd above)).steps = some directory := by
    rw [PathText.steps, parts]
    exact follow?_of_stays (by simpa using idle) leads
  exact makeDirectories_eq_self usable' moves leads' isDirectory

end FileTree

namespace SettingsFile

variable {tree : FileTree} {place : TreePlace} {path : PathText}
  {content : ByteArray}

/-- Where there is a file, saving replaces it and does nothing else. -/
theorem save_of_file {file : SettingsFile}
    (leads : tree.locate? file.path = some place)
    (present : tree.entry? place = some (.file content)) :
    file.save tree = (tree.put place (.file file.text.toUTF8), true) := by
  have notDirectory : tree.isDirectory place = false := by
    simp [FileTree.isDirectory, present, FileEntry.isDirectory]
  have writes : tree.write? file.path file.text.toUTF8 =
      some (tree.put place (.file file.text.toUTF8)) :=
    FileTree.write?_eq_some_iff.mpr ⟨place, leads, notDirectory, rfl⟩
  have made := FileTree.makeDirectories_parent leads present
  unfold save
  cases isParent : file.path.parent? with
  | none => simp only [writes, if_true]
  | some parent => simp only [made parent isParent, writes, if_true]

/-- Loading keeps a file that is there exactly if its bytes are UTF-8, and
then it changes nothing at all.  Any other file is replaced by the defaults. -/
theorem load_keeps_iff_text (present : tree.read? path = some content) :
    ((load tree path).2.1.read? path = some content ↔ content.IsValidUTF8) ∧
      (content.IsValidUTF8 → (load tree path).2.1 = tree) ∧
      (¬ content.IsValidUTF8 → ∃ place, tree.locate? path = some place ∧
        (load tree path).2.1 =
          tree.put place (.file (withDefaults path).text.toUTF8)) := by
  have readText : readText? tree path = String.fromUTF8? content := by
    rw [readText?, present, Option.bind_some]
  by_cases valid : content.IsValidUTF8
  · have kept : (load tree path).2.1 = tree := by
      rw [load, readText, String.fromUTF8?, dif_pos valid]
      simp only []
      split <;> rfl
    simp [kept, present, valid]
  · obtain ⟨place, leads, file⟩ := FileTree.read?_eq_some_iff.mp present
    have saved : (withDefaults path).save tree =
        (tree.put place (.file (withDefaults path).text.toUTF8), true) :=
      save_of_file leads file
    have replaced : (load tree path).2.1 =
        tree.put place (.file (withDefaults path).text.toUTF8) := by
      rw [load, readText, String.fromUTF8?, dif_neg valid]
      simp only [saved]
    have notDirectory : tree.isDirectory place = false := by
      simp [FileTree.isDirectory, file, FileEntry.isDirectory]
    have reads := FileTree.read?_of_write?
      (FileTree.write?_eq_some_iff.mpr ⟨place, leads, notDirectory, replaced⟩)
    refine ⟨?_, fun isValid => absurd isValid valid, fun _ =>
      ⟨place, leads, replaced⟩⟩
    constructor
    · intro kept
      rw [reads, Option.some.injEq] at kept
      exact kept ▸ (withDefaults path).text.isValidUTF8
    · exact fun isValid => absurd isValid valid

/-- A home directory with a settings file. -/
def homeWith (content : ByteArray) : FileTree :=
  ⟨[(["home", "settings.json"], .file content), (["home"], .directory)]⟩

theorem load_keeps_iff_text_malformed :
    (homeWith "\x7b not json".toUTF8).read? "home/settings.json" =
        some "\x7b not json".toUTF8 ∧
      "\x7b not json".toUTF8.IsValidUTF8 ∧
      (load (homeWith "\x7b not json".toUTF8) "home/settings.json").2.1 =
        homeWith "\x7b not json".toUTF8 := by
  have present : (homeWith "\x7b not json".toUTF8).read? "home/settings.json" =
      some "\x7b not json".toUTF8 := by decide +kernel
  have valid := "\x7b not json".isValidUTF8
  exact ⟨present, valid, (load_keeps_iff_text present).2.1 valid⟩

/-- A file whose bytes are not UTF-8 does not survive loading. -/
theorem load_replaces_bytes :
    (homeWith ⟨#[0xFF]⟩).read? "home/settings.json" = some ⟨#[0xFF]⟩ ∧
      (load (homeWith ⟨#[0xFF]⟩) "home/settings.json").2.1.read?
        "home/settings.json" ≠ some ⟨#[0xFF]⟩ := by
  decide +kernel

end SettingsFile

end SignatureVeil
