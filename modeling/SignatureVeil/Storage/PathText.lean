/-!
# Written paths

A path is written as steps with slashes between them.  An empty step and `.`
stay where they are, `..` leads to the directory above, and any other step is
the name of an entry.  A path that is empty or too long, or that holds the
character zero, leads nowhere.
-/

namespace SignatureVeil

/-- One step on the way to an entry. -/
inductive PathStep where
  | stay
  | up
  | down (name : String)
  deriving DecidableEq, Repr

def PathStep.ofPart (part : String) : PathStep :=
  if part = "" || part = "." then .stay
  else if part = ".." then .up
  else .down part

abbrev PathText := String

namespace PathText

/-- The length of the longest path, in bytes. -/
def longest : Nat := 4095

/-- The length of the longest name of an entry, in bytes. -/
def longestName : Nat := 255

/-- What is written between the slashes. -/
def parts (path : PathText) : List String :=
  (path.toList.splitOn '/').map .ofList

/-- The path in which these parts stand between slashes. -/
def ofParts (parts : List String) : PathText :=
  "/".intercalate parts

def steps (path : PathText) : List PathStep :=
  path.parts.map .ofPart

/-- Whether a path can lead anywhere. -/
def isUsable (path : PathText) : Bool :=
  !path.isEmpty && path.utf8ByteSize ≤ longest && !path.toList.contains '\x00'

/-- Put `name` behind a path.  A path that ends with `/`, or that is empty,
gets no other one. -/
def join (path : PathText) (name : String) : PathText :=
  if path.isEmpty || path.toList.getLast? = some '/' then
    path ++ name
  else
    path ++ "/" ++ name

/-- The last step of a path.  Slashes at the end do not count. -/
def lastStep (path : PathText) : PathStep :=
  match path.parts.reverse.dropWhile String.isEmpty with
  | part :: _ => .ofPart part
  | [] => .stay

/-- Parts without those at the beginning that stay where they are. -/
def trimStart (parts : List String) : List String :=
  parts.dropWhile fun part => PathStep.ofPart part = .stay

/-- Parts without those at the end that stay where they are. -/
def trimEnd (parts : List String) : List String :=
  (trimStart parts.reverse).reverse

/-- The path to the directory in which the last step of a path is taken.  A
path that stays where it is has none. -/
def parent? (path : PathText) : Option PathText :=
  match trimEnd path.parts with
  | [] => none
  | parts =>
      match trimEnd parts.dropLast with
      | [] => some "."
      | above => some (ofParts above)

/-- A path without its first step, and without the parts at either end that
stay where they are. -/
def behindFirst (path : PathText) : PathText :=
  ofParts (trimStart (trimEnd (path.parts.drop 1)))

end PathText

end SignatureVeil
