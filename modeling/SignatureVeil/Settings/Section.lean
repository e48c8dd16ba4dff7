import SignatureVeil.Binary.Layout
import SignatureVeil.Binary.Reading
import SignatureVeil.Json.Value
import SignatureVeil.Settings.Basic
import SignatureVeil.Text.Quoted
import SignatureVeil.Text.Whitespace

/-!
# Settings from a configuration section

A section is an object whose members are all optional, or an array that lists
the settings in a fixed order and may end early.  Strict decoding reports the
first wrong value it meets; members of an object are met in the order of their
keys.  The settings in force come from lenient decoding, which takes the
defaults for a section that is absent or that strict decoding refuses.
-/

namespace SignatureVeil

/-- What a wrong value is, as far as a message tells. -/
inductive ValueKind where
  | null
  | boolean (value : Bool)
  | integer (value : Int)
  | float (value : Double)
  | string (value : String)
  | sequence
  | map
  deriving DecidableEq, Repr

def ValueKind.of : Json → ValueKind
  | .null => .null
  | .bool value => .boolean value
  | .number (.integer value) => .integer value
  | .number (.float value) => .float value
  | .string value => .string value
  | .array _ => .sequence
  | .object _ => .map

def ValueKind.description : ValueKind → String
  | .null => "null"
  | .boolean value => "boolean `" ++ toString value ++ "`"
  | .integer value => "integer `" ++ toString value ++ "`"
  | .float value =>
      "floating point `" ++
        .ofList (FloatLayout.double.writeFinite value) ++ "`"
  | .string value => "string " ++ quote value
  | .sequence => "sequence"
  | .map => "map"

inductive ExpectedKind where
  | boolean
  | string
  | settings
  deriving DecidableEq, Repr

def ExpectedKind.description : ExpectedKind → String
  | .boolean => "a boolean"
  | .string => "a string"
  | .settings => "struct SigSettings"

inductive SectionFault where
  | wrongKind (found : ValueKind) (expected : ExpectedKind)
  /-- The opacity is neither a number nor a string. -/
  | opacityKind
  /-- The opacity is a string that is not a written number. -/
  | opacityText (fault : FloatFault)
  /-- An array has more items than there are settings. -/
  | tooManyItems (count : Nat)
  deriving DecidableEq, Repr

def SectionFault.message : SectionFault → String
  | .wrongKind found expected =>
      "invalid type: " ++ found.description ++ ", expected " ++
        expected.description
  | .opacityKind =>
      "data did not match any variant of untagged enum RawOpacity"
  | .opacityText fault => fault.message
  | .tooManyItems count =>
      "invalid length " ++ toString count ++
        ", expected fewer elements in array"

/-- A JSON number as an opacity.  Integers are rounded once, and other numbers
from the value that they already are rounded to. -/
def JsonNumber.toSingle : JsonNumber → Single
  | .integer value => .ofInt value
  | .float value => value.convert .single

namespace Settings

def decodeEnabled : Json → Except SectionFault Bool
  | .bool value => .ok value
  | value => .error (.wrongKind (.of value) .boolean)

/-- Decode a string as an opacity, without the white space around it. -/
def opacityOfText (text : String) : Except FloatFault Single :=
  Binary.ofText .single (trimWhitespace text.toList)

/-- Decode the opacity, which may be written as a number or as a string. -/
def decodeOpacity : Json → Except SectionFault Single
  | .number value => .ok value.toSingle
  | .string text =>
      match opacityOfText text with
      | .ok value => .ok value
      | .error fault => .error (.opacityText fault)
  | _ => .error .opacityKind

def decodeColor : Json → Except SectionFault String
  | .string value => .ok value
  | value => .error (.wrongKind (.of value) .string)

def decodeOr {α : Type} (absent : α) (decode : Json → Except SectionFault α) :
    Option Json → Except SectionFault α
  | none => .ok absent
  | some value => decode value

/-- Strict decoding: the settings that a section holds, or the first fault in
it. -/
def ofSection? : Json → Except SectionFault Settings
  | .object members => do
      let color ← decodeOr default.backgroundColor decodeColor
        (Json.lookup? "backgroundColor" members)
      let enabled ← decodeOr default.enabled decodeEnabled
        (Json.lookup? "enabled" members)
      let opacity ← decodeOr default.opacity decodeOpacity
        (Json.lookup? "opacity" members)
      return ⟨enabled, opacity, color⟩
  | .array items => do
      let enabled ← decodeOr default.enabled decodeEnabled items[0]?
      let opacity ← decodeOr default.opacity decodeOpacity items[1]?
      let color ← decodeOr default.backgroundColor decodeColor items[2]?
      if 3 < items.length then
        .error (.tooManyItems items.length)
      else
        return ⟨enabled, opacity, color⟩
  | value => .error (.wrongKind (.of value) .settings)

/-- Lenient decoding: the settings in force, and whether a warning is due
because a section that is present has been refused. -/
def ofSection (value : Json) : Settings × Bool :=
  match value with
  | .null => (default, false)
  | value =>
      match ofSection? value with
      | .ok settings => (settings, false)
      | .error _ => (default, true)

end Settings

end SignatureVeil
