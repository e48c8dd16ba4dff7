import SignatureVeil.Json.Reader
import SignatureVeil.Settings.Section

/-!
# Settings directly from JSON text

The text of a section is decoded while it is read, without building a value
first, and reading stops at the first fault.  A value of the wrong kind is a
fault as soon as it has been read, before the text behind it is looked at; of
an array or object of the wrong kind only the opening bracket is read, unless
it stands for the opacity, which is always read as a whole.  A setting that is
given twice is a fault at its second key.  Values of other keys are skimmed.
-/

namespace SignatureVeil

namespace Settings

open Json (Fault)

/-- The settings of an object that have been read so far. -/
structure Partial where
  enabled : Option Bool := none
  opacity : Option Single := none
  backgroundColor : Option String := none
  deriving DecidableEq, Repr

/-- Fill in the defaults of the settings that have not been read. -/
def Partial.complete (found : Partial) : Settings :=
  { enabled := found.enabled.getD default.enabled
    opacity := found.opacity.getD default.opacity
    backgroundColor := found.backgroundColor.getD default.backgroundColor }

/-- Read a value whose kind is decided by `decode`.  Only atoms are read to
their end; an array or object is of the wrong kind from its bracket on. -/
def readAtomAs {α : Type} (decode : Json → Except SectionFault α)
    (text : List Char) : Except Fault (α × List Char) :=
  match Json.skipSpace text with
  | '[' :: _ | '{' :: _ => .error .unfit
  | text => do
      let (value, rest) ← Json.readAtom .full text
      match decode value with
      | .ok decoded => return (decoded, rest)
      | .error _ => .error .unfit

/-- Read the opacity.  It is read as a whole, whatever it is. -/
def readOpacity (text : List Char) : Except Fault (Single × List Char) := do
  let (value, rest) ← Json.readValue .full (Json.depthLimit - 1) text
  match decodeOpacity value with
  | .ok decoded => return (decoded, rest)
  | .error _ => .error .unfit

/-- Read the value of a key that has just been read, from its colon on. -/
def readMember (key : String) (found : Partial) (text : List Char) :
    Except Fault (Partial × List Char) :=
  if key = "enabled" then
    if found.enabled.isSome then
      .error .unfit
    else do
      let (value, rest) ← readAtomAs decodeEnabled (← Json.readColon text)
      return ({ found with enabled := some value }, rest)
  else if key = "opacity" then
    if found.opacity.isSome then
      .error .unfit
    else do
      let (value, rest) ← readOpacity (← Json.readColon text)
      return ({ found with opacity := some value }, rest)
  else if key = "backgroundColor" then
    if found.backgroundColor.isSome then
      .error .unfit
    else do
      let (value, rest) ← readAtomAs decodeColor (← Json.readColon text)
      return ({ found with backgroundColor := some value }, rest)
  else do
    let rest ← Json.skipValue (← Json.readColon text)
    return (found, rest)

/-- Read the members of an object up to its closing bracket.  There are at
most `limit` parts left, the bracket included. -/
def readMembers :
    (limit : Nat) → (first : Bool) → Partial → List Char →
      Except Fault (Partial × List Char)
  | 0, _, _, _ => .error .ended
  | limit + 1, first, found, text => do
      match ← Json.nextKey first text with
      | .close rest => return (found, rest)
      | .part text =>
          let (key, rest) ← Json.readString .full text
          let (found, rest) ← readMember key found rest
          readMembers limit false found rest

/-- Read one item of an array, if the array has not ended.  An array that has
ended is left before its closing bracket. -/
def readItemOr {α : Type} (absent : α)
    (read : List Char → Except Fault (α × List Char))
    (first : Bool) (text : List Char) : Except Fault (α × List Char) := do
  match ← Json.nextItem first text with
  | .close _ => return (absent, text)
  | .part text => read text

/-- An array must end behind its last setting. -/
def readClose (text : List Char) : Except Fault (List Char) :=
  match Json.skipSpace text with
  | [] => .error .ended
  | ']' :: rest => .ok rest
  | _ => .error .malformed

/-- Read the items of an array behind its opening bracket. -/
def readItems (text : List Char) : Except Fault (Settings × List Char) := do
  let (enabled, text) ←
    readItemOr default.enabled (readAtomAs decodeEnabled) true text
  let (opacity, text) ← readItemOr default.opacity readOpacity false text
  let (color, text) ←
    readItemOr default.backgroundColor (readAtomAs decodeColor) false text
  let rest ← readClose text
  return (⟨enabled, opacity, color⟩, rest)

def readSettings (text : List Char) : Except Fault (Settings × List Char) :=
  match Json.skipSpace text with
  | '[' :: rest => readItems rest
  | '{' :: rest => do
      let (found, rest) ← readMembers rest.length true {} rest
      return (found.complete, rest)
  | text => do
      let _ ← Json.readAtom .full text
      .error .unfit

def parse (text : String) : Except Fault Settings := do
  let (settings, rest) ← readSettings text.toList
  Json.expectEnd rest
  return settings

end Settings

end SignatureVeil
