import SignatureVeil.Binary.Scaling
import SignatureVeil.Json.Value
import SignatureVeil.Text.DecimalLiteral
import SignatureVeil.Text.Place

/-!
# Reading JSON text

Strict JSON: spaces, tabs, line feeds and carriage returns may stand between
the parts, and nothing else is added to the grammar.  A reader takes the text
that is left and returns what it read together with the rest of the text; it
stops at the first fault.  Values are nested to a limited depth.

A value that is read only to get past it is skimmed: its grammar is checked in
the same way, but its numbers may be of any size and its escapes may name
halves of surrogate pairs.
-/

namespace SignatureVeil

namespace Json

/-- Why a text cannot be read. -/
inductive Fault where
  /-- The text ends too early. -/
  | ended
  /-- The text breaks the grammar or a limit. -/
  | malformed
  /-- The text is well formed so far, but a value is not of the kind that is
  asked for. -/
  | unfit
  deriving DecidableEq, Repr

/-- How thoroughly a value is read. -/
inductive Rigor where
  /-- Everything is checked, and the value is built. -/
  | full
  /-- Only the grammar is checked; the value that is built has no meaning. -/
  | skim
  deriving DecidableEq, Repr

/-- White space between the parts of a JSON text. -/
def isSpace (character : Char) : Bool :=
  character = ' ' || character = '\t' || character = '\n' || character = '\r'

def skipSpace (text : List Char) : List Char :=
  text.dropWhile isSpace

def readWord : List Char → List Char → Except Fault (List Char)
  | [], text => .ok text
  | _ :: _, [] => .error .ended
  | expected :: word, character :: rest =>
      if character = expected then readWord word rest else .error .malformed

/-! ## Strings -/

/-- What the reader of a string has seen of an escape. -/
inductive StringMode where
  | plain
  | escape
  /-- Hexadecimal digits are being read.  They follow the first half `lead` of
  a surrogate pair, if it is given. -/
  | hex (lead : Option Nat) (missing value : Nat)
  /-- The first half of a surrogate pair has been read. -/
  | lead (lead : Nat)
  /-- The first half of a surrogate pair and a backslash have been read. -/
  | leadEscape (lead : Nat)
  deriving DecidableEq, Repr

/-- The character that stands behind a backslash for another one. -/
def unescape? : Char → Option Char
  | '"' => some '"'
  | '\\' => some '\\'
  | '/' => some '/'
  | 'b' => some '\x08'
  | 'f' => some '\x0c'
  | 'n' => some '\n'
  | 'r' => some '\r'
  | 't' => some '\t'
  | _ => none

def hexValue? (character : Char) : Option Nat :=
  if '0' ≤ character ∧ character ≤ '9' then
    some (character.toNat - '0'.toNat)
  else if 'a' ≤ character ∧ character ≤ 'f' then
    some (character.toNat - 'a'.toNat + 10)
  else if 'A' ≤ character ∧ character ≤ 'F' then
    some (character.toNat - 'A'.toNat + 10)
  else
    none

/-- Whether fewer than four bytes of text are left, too few for the digits of
an escape. -/
def lacksHexDigits (text : List Char) : Bool :=
  utf8Width (text.take 4) < 4

/-- A unit that opens a surrogate pair. -/
def isLead (unit : Nat) : Bool :=
  0xD800 ≤ unit && unit ≤ 0xDBFF

/-- A unit that closes a surrogate pair. -/
def isTrail (unit : Nat) : Bool :=
  0xDC00 ≤ unit && unit ≤ 0xDFFF

/-- The character that a surrogate pair stands for. -/
def pairedChar (lead trail : Nat) : Char :=
  .ofNat (0x10000 + (lead - 0xD800) * 0x400 + (trail - 0xDC00))

/-- What a finished escape means: a character, or the first half of a
surrogate pair whose other half must follow. -/
inductive EscapeMeaning where
  | character (value : Char)
  | lead (value : Nat)
  | refused
  deriving DecidableEq, Repr

/-- Interpret the four digits of an escape, behind the first half of a
surrogate pair or by themselves. -/
def EscapeMeaning.ofUnit (rigor : Rigor) (lead : Option Nat) (unit : Nat) :
    EscapeMeaning :=
  match rigor, lead with
  | .skim, _ => .character (.ofNat unit)
  | .full, some first =>
      if isTrail unit then .character (pairedChar first unit) else .refused
  | .full, none =>
      if isLead unit then
        .lead unit
      else if isTrail unit then
        .refused
      else
        .character (.ofNat unit)

/-- Put a character before the characters that a reader returns. -/
def push (character : Char) :
    Except Fault (List Char × List Char) → Except Fault (List Char × List Char)
  | .ok (characters, rest) => .ok (character :: characters, rest)
  | .error fault => .error fault

/-- Read the characters of a string up to its closing quote. -/
def readCharacters (rigor : Rigor) :
    StringMode → List Char → Except Fault (List Char × List Char)
  | _, [] => .error .ended
  | .plain, character :: rest =>
      if character = '"' then
        .ok ([], rest)
      else if character = '\\' then
        readCharacters rigor .escape rest
      else if character.toNat < 0x20 then
        .error .malformed
      else
        push character (readCharacters rigor .plain rest)
  | .escape, character :: rest =>
      if character = 'u' then
        if lacksHexDigits rest then
          .error .ended
        else
          readCharacters rigor (.hex none 4 0) rest
      else
        match unescape? character with
        | some meant => push meant (readCharacters rigor .plain rest)
        | none => .error .malformed
  | .hex lead missing value, character :: rest =>
      match hexValue? character with
      | none => .error .malformed
      | some digit =>
          if 1 < missing then
            readCharacters rigor
              (.hex lead (missing - 1) (16 * value + digit)) rest
          else
            match EscapeMeaning.ofUnit rigor lead (16 * value + digit) with
            | .character meant =>
                push meant (readCharacters rigor .plain rest)
            | .lead first => readCharacters rigor (.lead first) rest
            | .refused => .error .malformed
  | .lead first, character :: rest =>
      if character = '\\' then
        readCharacters rigor (.leadEscape first) rest
      else
        .error .malformed
  | .leadEscape first, character :: rest =>
      if character = 'u' then
        if lacksHexDigits rest then
          .error .ended
        else
          readCharacters rigor (.hex (some first) 4 0) rest
      else
        .error .malformed

/-- Read a string whose opening quote has been read. -/
def readString (rigor : Rigor) (text : List Char) :
    Except Fault (String × List Char) :=
  match readCharacters rigor .plain text with
  | .ok (characters, rest) => .ok (.ofList characters, rest)
  | .error fault => .error fault

/-! ## Numbers -/

/-- The fault of a number that lacks a digit at the end of the text. -/
def Rigor.faultAtEnd : Rigor → Fault
  | .full => .ended
  | .skim => .malformed

def readDigits (rigor : Rigor) (text : List Char) :
    Except Fault (List Char × List Char) :=
  match text with
  | [] => .error rigor.faultAtEnd
  | character :: _ =>
      if character.isDigit then .ok (spanDigits text) else .error .malformed

/-- Read the digits before the point.  A zero may only stand there alone. -/
def readWhole (rigor : Rigor) (text : List Char) :
    Except Fault (List Char × List Char) := do
  let (digits, rest) ← readDigits rigor text
  match digits with
  | '0' :: _ :: _ => .error .malformed
  | _ => .ok (digits, rest)

/-- Read a point and the digits behind it, if there is a point. -/
def readFraction (rigor : Rigor) (text : List Char) :
    Except Fault (Option (List Char) × List Char) :=
  match text with
  | '.' :: rest => do
      let (digits, rest) ← readDigits rigor rest
      return (some digits, rest)
  | _ => .ok (none, text)

def readExponent (rigor : Rigor) (text : List Char) :
    Except Fault (Option Int × List Char) :=
  match text with
  | 'e' :: rest | 'E' :: rest => do
      let (negative, rest) := takeSign rest
      let (digits, rest) ← readDigits rigor rest
      return (some (signedNumber negative digits), rest)
  | _ => .ok (none, text)

/-- The floating-point value that a literal is read as: its leading digits,
rounded, and then scaled by the power of ten that belongs to them.  The result
can differ from the nearest value in the last place.  There is none if it
would be too large. -/
def floatOf? (literal : DecimalLiteral) : Option Double :=
  let (digits, power) := literal.leading
  (BinaryFormat.double.scaleByTen?
    (BinaryFormat.double.nearest digits 1) power).map fun magnitude =>
      ⟨literal.negative, magnitude⟩

/-- The number that a literal stands for.  An integer that does not fit into
64 bits, and a negative zero, are floating-point values. -/
def numberOf? (negative : Bool) (whole : List Char)
    (fraction : Option (List Char)) (power : Option Int) : Option JsonNumber :=
  let literal : DecimalLiteral :=
    ⟨negative, whole, fraction.getD [], power.getD 0⟩
  let isInteger := fraction.isNone && power.isNone
  if isInteger && !negative && literal.digits < Nat.pow 2 64 then
    some (.integer literal.digits)
  else if isInteger && negative && literal.digits ≠ 0 &&
      literal.digits ≤ Nat.pow 2 63 then
    some (.integer (-(literal.digits : Int)))
  else
    (floatOf? literal).map .float

def readNumber (rigor : Rigor) (text : List Char) :
    Except Fault (JsonNumber × List Char) := do
  let (negative, rest) :=
    match text with
    | '-' :: rest => (true, rest)
    | _ => (false, text)
  let (whole, rest) ← readWhole rigor rest
  let (fraction, rest) ← readFraction rigor rest
  let (power, rest) ← readExponent rigor rest
  match rigor with
  | .skim => return (.integer 0, rest)
  | .full =>
      match numberOf? negative whole fraction power with
      | some found => return (found, rest)
      | none => .error .malformed

/-! ## Values -/

/-- Read a value that is neither an array nor an object. -/
def readAtom (rigor : Rigor) (text : List Char) :
    Except Fault (Json × List Char) :=
  match text with
  | [] => .error .ended
  | 'n' :: rest => do
      return (.null, ← readWord ['u', 'l', 'l'] rest)
  | 't' :: rest => do
      return (.bool true, ← readWord ['r', 'u', 'e'] rest)
  | 'f' :: rest => do
      return (.bool false, ← readWord ['a', 'l', 's', 'e'] rest)
  | '"' :: rest => do
      let (value, rest) ← readString rigor rest
      return (.string value, rest)
  | character :: _ =>
      if character = '-' || character.isDigit then do
        let (value, rest) ← readNumber rigor text
        return (.number value, rest)
      else
        .error .malformed

/-- Where a reader stands between two parts of an array or object. -/
inductive Next where
  | part (text : List Char)
  | close (rest : List Char)
  deriving DecidableEq, Repr

/-- Find the next item of an array, or its end. -/
def nextItem (first : Bool) (text : List Char) : Except Fault Next :=
  match skipSpace text with
  | [] => .error .ended
  | ']' :: rest => .ok (.close rest)
  | character :: rest =>
      if first then
        .ok (.part (character :: rest))
      else if character = ',' then
        match skipSpace rest with
        | [] => .error .ended
        | ']' :: _ => .error .malformed
        | item => .ok (.part item)
      else
        .error .malformed

/-- Find the key of the next member of an object, behind its opening quote, or
the end of the object. -/
def nextKey (first : Bool) (text : List Char) : Except Fault Next :=
  match skipSpace text with
  | [] => .error .ended
  | '}' :: rest => .ok (.close rest)
  | character :: rest =>
      if first then
        if character = '"' then .ok (.part rest) else .error .malformed
      else if character = ',' then
        match skipSpace rest with
        | [] => .error .ended
        | '"' :: key => .ok (.part key)
        | _ => .error .malformed
      else
        .error .malformed

def readColon (text : List Char) : Except Fault (List Char) :=
  match skipSpace text with
  | [] => .error .ended
  | ':' :: rest => .ok rest
  | _ => .error .malformed

/-- Read the items of an array up to its closing bracket.  There are at most
`limit` parts left, the bracket included. -/
def readItems (read : List Char → Except Fault (Json × List Char)) :
    (limit : Nat) → (first : Bool) → List Char →
      Except Fault (List Json × List Char)
  | 0, _, _ => .error .ended
  | limit + 1, first, text => do
      match ← nextItem first text with
      | .close rest => return ([], rest)
      | .part text =>
          let (item, rest) ← read text
          let (items, rest) ← readItems read limit false rest
          return (item :: items, rest)

/-- Read the members of an object up to its closing bracket and add them to
those given.  There are at most `limit` parts left, the bracket included. -/
def readMembers (rigor : Rigor)
    (read : List Char → Except Fault (Json × List Char)) :
    (limit : Nat) → (first : Bool) → List (String × Json) → List Char →
      Except Fault (List (String × Json) × List Char)
  | 0, _, _, _ => .error .ended
  | limit + 1, first, members, text => do
      match ← nextKey first text with
      | .close rest => return (members, rest)
      | .part text =>
          let (key, rest) ← readString rigor text
          let rest ← readColon rest
          let (value, rest) ← read rest
          readMembers rigor read limit false (insert key value members) rest

/-- Read a value whose items and members are read by `nested`, or which may
have none. -/
def readValueWith (rigor : Rigor)
    (nested : Option (List Char → Except Fault (Json × List Char)))
    (text : List Char) : Except Fault (Json × List Char) :=
  match skipSpace text with
  | '[' :: rest =>
      match nested with
      | none => .error .malformed
      | some read => do
          let (items, rest) ← readItems read rest.length true rest
          return (.array items, rest)
  | '{' :: rest =>
      match nested with
      | none => .error .malformed
      | some read => do
          let (members, rest) ←
            readMembers rigor read rest.length true [] rest
          return (.object members, rest)
  | text => readAtom rigor text

/-- Read a value in which at most `depth` arrays and objects stand within each
other. -/
def readValue (rigor : Rigor) :
    (depth : Nat) → List Char → Except Fault (Json × List Char)
  | 0 => readValueWith rigor none
  | depth + 1 => readValueWith rigor (some (readValue rigor depth))

/-- Arrays and objects may stand within each other this many times. -/
def depthLimit : Nat :=
  127

/-- Skim a value, however deeply it is nested, and return what follows.  It
cannot be nested more deeply than it has characters. -/
def skipValue (text : List Char) : Except Fault (List Char) := do
  let (_, rest) ← readValue .skim text.length text
  return rest

/-- Nothing but white space may follow a value. -/
def expectEnd (text : List Char) : Except Fault Unit :=
  if (skipSpace text).isEmpty then .ok () else .error .malformed

def parse (text : String) : Except Fault Json := do
  let (value, rest) ← readValue .full depthLimit text.toList
  expectEnd rest
  return value

end Json

end SignatureVeil
