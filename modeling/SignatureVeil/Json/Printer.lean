import SignatureVeil.Binary.Layout
import SignatureVeil.Json.Value

/-!
# Writing JSON text

Values are written either without any white space, or with each item and
member on a line of its own.  Integers are written in decimal and other
numbers with a point or an exponent, so the two kinds of numbers stay apart.
Strings are written as they are, but for quotes, backslashes and control
characters.
-/

namespace SignatureVeil

def JsonNumber.write : JsonNumber → List Char
  | .integer value => (toString value).toList
  | .float value => FloatLayout.double.writeFinite value

namespace Json

/-- One character of a string as it stands between the quotes. -/
def escapeCharacter (character : Char) : List Char :=
  match character with
  | '"' => ['\\', '"']
  | '\\' => ['\\', '\\']
  | '\x08' => ['\\', 'b']
  | '\x0c' => ['\\', 'f']
  | '\n' => ['\\', 'n']
  | '\r' => ['\\', 'r']
  | '\t' => ['\\', 't']
  | _ =>
      if character.toNat < 0x20 then
        ['\\', 'u', '0', '0', Nat.digitChar (character.toNat / 16),
          Nat.digitChar (character.toNat % 16)]
      else
        [character]

def writeString (value : String) : List Char :=
  '"' :: (value.toList.flatMap escapeCharacter ++ ['"'])

def writeBool (value : Bool) : List Char :=
  if value then ['t', 'r', 'u', 'e'] else ['f', 'a', 'l', 's', 'e']

def writeNull : List Char :=
  ['n', 'u', 'l', 'l']

mutual

def writeCompact : Json → List Char
  | .null => writeNull
  | .bool value => writeBool value
  | .number value => value.write
  | .string value => writeString value
  | .array items => '[' :: (writeCompactItems true items ++ [']'])
  | .object members => '{' :: (writeCompactMembers true members ++ ['}'])

def writeCompactItems (first : Bool) : List Json → List Char
  | [] => []
  | item :: rest =>
      (if first then [] else [',']) ++ writeCompact item ++
        writeCompactItems false rest

def writeCompactMembers (first : Bool) : List (String × Json) → List Char
  | [] => []
  | (key, value) :: rest =>
      (if first then [] else [',']) ++ writeString key ++
        ':' :: (writeCompact value ++ writeCompactMembers false rest)

end

/-- The beginning of a line at some depth: two spaces for each level. -/
def newLine (depth : Nat) : List Char :=
  '\n' :: List.replicate (2 * depth) ' '

/-- The end of a list of parts: a line of its own for the bracket, if there
are parts. -/
def closingLine (depth : Nat) (isEmpty : Bool) : List Char :=
  if isEmpty then [] else newLine depth

mutual

/-- Write a value with one part on each line, at some depth. -/
def writePretty (depth : Nat) : Json → List Char
  | .null => writeNull
  | .bool value => writeBool value
  | .number value => value.write
  | .string value => writeString value
  | .array items =>
      '[' :: (writePrettyItems (depth + 1) true items ++
        closingLine depth items.isEmpty ++ [']'])
  | .object members =>
      '{' :: (writePrettyMembers (depth + 1) true members ++
        closingLine depth members.isEmpty ++ ['}'])

def writePrettyItems (depth : Nat) (first : Bool) : List Json → List Char
  | [] => []
  | item :: rest =>
      (if first then [] else [',']) ++ newLine depth ++
        writePretty depth item ++ writePrettyItems depth false rest

def writePrettyMembers (depth : Nat) (first : Bool) :
    List (String × Json) → List Char
  | [] => []
  | (key, value) :: rest =>
      (if first then [] else [',']) ++ newLine depth ++ writeString key ++
        ':' :: ' ' :: (writePretty depth value ++
          writePrettyMembers depth false rest)

end

/-- The text of a value, without white space. -/
def toText (value : Json) : String :=
  .ofList (writeCompact value)

/-- The text of a value, with one part on each line and no line break at its
end. -/
def toPrettyText (value : Json) : String :=
  .ofList (writePretty 0 value)

end Json

end SignatureVeil
