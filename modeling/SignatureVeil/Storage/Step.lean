import SignatureVeil.Storage.SettingsFile

/-!
# Working with a settings file

A tree of files, the settings file that was loaded last, and what can be done
with both, step by step.  All paths start from a home directory, which is there
at first and can be removed like any other one.  Each step returns something
and may leave records in the log.
-/

namespace SignatureVeil

inductive StorageStep where
  /-- Write a file, and make the directories that it is in. -/
  | writeFile (path : PathText) (content : ByteArray)
  | makeDirectory (path : PathText)
  | remove (path : PathText)
  | readEntry (path : PathText)
  /-- Load a settings file.  The empty path is not the home directory; it
  leads nowhere. -/
  | load (path : PathText)
  | loadDefault
  | sectionNamed (name : String)
  | settings
  | setSettings (settings : Settings)
  | save
  | path

inductive StorageResult where
  | nothing
  | unloaded
  | entry (entry : Option FileEntry)
  | json (value : Json)
  | settings (settings : Settings)
  | replaced
  | saved (succeeded : Bool)
  | path (path : PathText)

/-- The directory that all paths start from. -/
def homeDirectory : String :=
  "home"

/-- A tree of files, and the settings file that was loaded last. -/
structure Storage where
  tree : FileTree := ⟨[([homeDirectory], .directory)]⟩
  file : Option SettingsFile := none

namespace Storage

/-- The path from the root for a path that starts from the home directory. -/
def fromRoot (path : PathText) : PathText :=
  PathText.join homeDirectory path

/-- Write a file, and make the directories that it is in. -/
def writeFile (storage : Storage) (path : PathText) (content : ByteArray) :
    Storage :=
  let path := fromRoot path
  let tree :=
    match path.parent? with
    | some parent => (storage.tree.makeDirectories parent).1
    | none => storage.tree
  { storage with tree := (tree.write? path content).getD tree }

/-- Load the settings file at a path that starts from the root. -/
def load (storage : Storage) (path : PathText) :
    StorageResult × List LogRecord × Storage :=
  let (file, tree, log) := SettingsFile.load storage.tree path
  (.nothing, log, ⟨tree, some file⟩)

/-- Carry out a step that needs a settings file. -/
def useFile (storage : Storage)
    (use : SettingsFile → StorageResult × List LogRecord × Storage) :
    StorageResult × List LogRecord × Storage :=
  match storage.file with
  | some file => use file
  | none => (.unloaded, [], storage)

def step (storage : Storage) :
    StorageStep → StorageResult × List LogRecord × Storage
  | .writeFile path content =>
      (.nothing, [], storage.writeFile path content)
  | .makeDirectory path =>
      let (tree, _) := storage.tree.makeDirectories (fromRoot path)
      (.nothing, [], { storage with tree })
  | .remove path =>
      let tree := storage.tree.remove (fromRoot path)
      (.nothing, [], { storage with tree })
  | .readEntry path =>
      (.entry (storage.tree.find? (fromRoot path)), [], storage)
  | .load path => storage.load (if path.isEmpty then path else fromRoot path)
  | .loadDefault => storage.load (SettingsFile.locate homeDirectory)
  | .sectionNamed name =>
      storage.useFile fun file =>
        (.json (file.sectionNamed name), [], storage)
  | .settings =>
      storage.useFile fun file =>
        let (settings, log) := file.settings
        (.settings settings, log, storage)
  | .setSettings settings =>
      storage.useFile fun file =>
        (.replaced, [], { storage with file := file.setSettings settings })
  | .save =>
      storage.useFile fun file =>
        let (tree, saved) := file.save storage.tree
        (.saved saved, [], { storage with tree })
  | .path =>
      storage.useFile fun file => (.path file.path.behindFirst, [], storage)

/-- Carry out steps one after the other, and return what each of them returns
and logs. -/
def reports (storage : Storage) :
    List StorageStep → List (StorageResult × List LogRecord)
  | [] => []
  | first :: rest =>
      let (result, log, storage) := storage.step first
      (result, log) :: storage.reports rest

end Storage

end SignatureVeil
