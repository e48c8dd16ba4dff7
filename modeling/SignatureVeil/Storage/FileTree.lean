import SignatureVeil.Storage.PathText

/-!
# Trees of files

A tree of files maps places to files and directories.  A place is the list of
the names that lead to it from the root, which is a directory.  A written path
is followed from the root, and every step needs a directory to be taken in; so
a path that ends with a slash leads to directories only.  A file can only be
written where a directory holds it and no directory is in its place.
-/

namespace SignatureVeil

/-- The names on the way from the root to an entry. -/
abbrev TreePlace := List String

inductive FileEntry where
  | file (content : ByteArray)
  | directory

def FileEntry.isDirectory : FileEntry → Bool
  | .directory => true
  | .file _ => false

structure FileTree where
  entries : List (TreePlace × FileEntry) := []

namespace FileTree

/-! ## Places -/

def entry? (tree : FileTree) (place : TreePlace) : Option FileEntry :=
  if place = [] then
    some .directory
  else
    (tree.entries.find? fun entry => entry.1 = place).map Prod.snd

def isDirectory (tree : FileTree) (place : TreePlace) : Bool :=
  (tree.entry? place).any FileEntry.isDirectory

def put (tree : FileTree) (place : TreePlace) (entry : FileEntry) : FileTree :=
  ⟨(place, entry) :: tree.entries.filter fun other => other.1 ≠ place⟩

/-- Remove everything below a place, but not what is there itself. -/
def clear (tree : FileTree) (place : TreePlace) : FileTree :=
  ⟨tree.entries.filter fun other =>
    other.1 = place || !place.isPrefixOf other.1⟩

/-- Remove what is at a place and everything below it. -/
def prune (tree : FileTree) (place : TreePlace) : FileTree :=
  ⟨tree.entries.filter fun other => !place.isPrefixOf other.1⟩

/-! ## Following paths -/

/-- The place of an entry of some name, unless the name is too long. -/
def child? (place : TreePlace) (name : String) : Option TreePlace :=
  if name.utf8ByteSize ≤ PathText.longestName then
    some (place ++ [name])
  else
    none

/-- Where steps lead from a place.  There need not be anything at the place
where they end. -/
def follow? (tree : FileTree) (place : TreePlace) :
    List PathStep → Option TreePlace
  | [] => some place
  | step :: rest =>
      if tree.isDirectory place then
        match step with
        | .stay => tree.follow? place rest
        | .up => tree.follow? place.dropLast rest
        | .down name =>
            match child? place name with
            | some inner => tree.follow? inner rest
            | none => none
      else
        none

def locate? (tree : FileTree) (path : PathText) : Option TreePlace :=
  if path.isUsable then tree.follow? [] path.steps else none

def find? (tree : FileTree) (path : PathText) : Option FileEntry :=
  (tree.locate? path).bind tree.entry?

/-! ## Files and directories -/

def read? (tree : FileTree) (path : PathText) : Option ByteArray :=
  match tree.find? path with
  | some (.file content) => some content
  | _ => none

def write? (tree : FileTree) (path : PathText) (content : ByteArray) :
    Option FileTree :=
  match tree.locate? path with
  | some place =>
      if tree.isDirectory place then
        none
      else
        some (tree.put place (.file content))
  | none => none

/-- Take steps from a directory, and make the directories on the way that are
absent.  The flag says whether the way could be gone to its end; if not, what
has been made is left. -/
def makeWay (tree : FileTree) (place : TreePlace) :
    List PathStep → FileTree × Bool
  | [] => (tree, true)
  | .stay :: rest => tree.makeWay place rest
  | .up :: rest => tree.makeWay place.dropLast rest
  | .down name :: rest =>
      match child? place name with
      | none => (tree, false)
      | some inner =>
          match tree.entry? inner with
          | some .directory => tree.makeWay inner rest
          | some (.file _) => (tree, false)
          | none => (tree.put inner .directory).makeWay inner rest

/-- Make a directory and all directories above it, where they are absent.  If
the last step of the path stays where it is, the directory itself is not made,
and has to be there already. -/
def makeDirectories (tree : FileTree) (path : PathText) : FileTree × Bool :=
  if path.isUsable then
    match path.lastStep, path.parent? with
    | .stay, some parent =>
        let made := (tree.makeWay [] parent.steps).1
        (made, (made.find? path).any FileEntry.isDirectory)
    | _, _ => tree.makeWay [] path.steps
  else
    (tree, false)

/-- Remove what a path leads to with everything below it.  If the last step of
the path is not the name of an entry, the entry itself is left. -/
def remove (tree : FileTree) (path : PathText) : FileTree :=
  match tree.locate? path, path.lastStep with
  | some place, .down _ => tree.prune place
  | some place, _ => tree.clear place
  | none, _ => tree

end FileTree

end SignatureVeil
