import SignatureVeil.Json.Printer
import SignatureVeil.Json.Reader
import SignatureVeil.LogRecord
import SignatureVeil.Settings.Encoding
import SignatureVeil.Settings.Section
import SignatureVeil.Storage.FileTree

/-!
# The settings file

A settings file holds one JSON object, with a member for each section of the
configuration.  Loading never fails: where no text can be read, the defaults
are used and written for the next time, and where the text is not an object,
the defaults are used and the file is left as it is.  All sections but the own
one are kept as they are found.
-/

namespace SignatureVeil

/-- A settings file in memory. -/
structure SettingsFile where
  path : PathText
  root : List (String × Json)

namespace SettingsFile

/-- Where the settings file is found below a directory for configurations. -/
def locate (directory : PathText) : PathText :=
  (directory.join "sig-hider").join "settings.json"

/-- Where the settings file of a user is found.  The directory for
configurations may be given, but only by an absolute path; otherwise it is in
the home directory. -/
def defaultPath (home : PathText) (given : Option PathText) : PathText :=
  match given with
  | some directory =>
      if directory.toList.head? = some '/' then
        locate directory
      else
        locate (home.join ".config")
  | none => locate (home.join ".config")

/-- A settings file that holds the default settings only. -/
def withDefaults (path : PathText) : SettingsFile :=
  ⟨path, [(configurationSection, Settings.default.toJson)]⟩

def text (file : SettingsFile) : String :=
  (Json.object file.root).toPrettyText

/-- Write the file, and make the directories that it is in.  The flag says
whether the file is written; if not, some of the directories may be made. -/
def save (file : SettingsFile) (tree : FileTree) : FileTree × Bool :=
  let (tree, made) :=
    match file.path.parent? with
    | some parent => tree.makeDirectories parent
    | none => (tree, true)
  if made then
    match tree.write? file.path file.text.toUTF8 with
    | some written => (written, true)
    | none => (tree, false)
  else
    (tree, false)

/-- The text that can be read at a path: there must be a file, and it must
hold UTF-8. -/
def readText? (tree : FileTree) (path : PathText) : Option String :=
  (tree.read? path).bind String.fromUTF8?

/-- The sections in the text of a settings file. -/
def sectionsOf? (text : String) : Option (List (String × Json)) :=
  match Json.parse text with
  | .ok (.object members) => some members
  | _ => none

def load (tree : FileTree) (path : PathText) :
    SettingsFile × FileTree × List LogRecord :=
  match readText? tree path with
  | some text =>
      match sectionsOf? text with
      | some sections => (⟨path, sections⟩, tree, [])
      | none => (withDefaults path, tree, [.fileRefused])
  | none =>
      let file := withDefaults path
      let (tree, saved) := file.save tree
      (file, tree, if saved then [] else [.defaultsNotWritten])

/-- A section of the configuration; a section that is absent is null. -/
def sectionNamed (file : SettingsFile) (name : String) : Json :=
  (Json.lookup? name file.root).getD .null

/-- The settings in force, and the log records of reading them. -/
def settings (file : SettingsFile) : Settings × List LogRecord :=
  let (settings, refused) := Settings.ofSection
    (file.sectionNamed configurationSection)
  (settings, if refused then [.sectionRefused] else [])

def setSettings (file : SettingsFile) (settings : Settings) : SettingsFile :=
  { file with root :=
      Json.insert configurationSection settings.toJson file.root }

end SettingsFile

end SignatureVeil
