/-!
# Places in a text

A place lies between two characters of a text, or at one of its ends.  It
keeps the characters before it, nearest first, and the characters after it,
so that a scan can look both ways.  This file says where a line starts and
ends, when line breaks are written `\n`, `\r\n` or as a lone `\r`, and how a
scan moves over blanks, over a given word, and to the first place that has a
given property.
-/

namespace SignatureVeil

/-- The number of bytes that a list of characters takes in UTF-8. -/
def utf8Width : List Char → Nat
  | [] => 0
  | character :: rest => character.utf8Size + utf8Width rest

/-- The number of UTF-16 code units of one character: two for the characters
above the basic plane. -/
def utf16Size (character : Char) : Nat :=
  if character.val < 0x10000 then 1 else 2

/-- The number of UTF-16 code units that a list of characters takes. -/
def utf16Width : List Char → Nat
  | [] => 0
  | character :: rest => utf16Size character + utf16Width rest

/-- Indentation is made of spaces and tabs only. -/
def isBlank (character : Char) : Bool :=
  character = ' ' || character = '\t'

/-- A place between two characters of a text. -/
structure Place where
  /-- The characters before the place, the nearest one first. -/
  before : List Char
  /-- The characters after the place, in reading order. -/
  after : List Char
  deriving DecidableEq, Repr

namespace Place

def start (text : List Char) : Place :=
  ⟨[], text⟩

def offset (place : Place) : Nat :=
  utf8Width place.before

/-- A line starts at the start of the text, after `\n`, and after a `\r` that
does not belong to `\r\n`. -/
def atLineStart (place : Place) : Bool :=
  match place.before with
  | [] => true
  | '\n' :: _ => true
  | '\r' :: _ => place.after.head? != some '\n'
  | _ => false

/-- A line ends at the end of the text, before `\r`, and before a `\n` that
does not belong to `\r\n`. -/
def atLineEnd (place : Place) : Bool :=
  match place.after with
  | [] => true
  | '\r' :: _ => true
  | '\n' :: _ => place.before.head? != some '\r'
  | _ => false

/-- The place behind the blanks that stand between `before` and what is left
of the text. -/
def pastBlanks (before : List Char) : List Char → Place
  | [] => ⟨before, []⟩
  | character :: rest =>
      if isBlank character then
        pastBlanks (character :: before) rest
      else
        ⟨before, character :: rest⟩

/-- Move over all blanks that follow a place. -/
def skipBlanks (place : Place) : Place :=
  pastBlanks place.before place.after

/-- Move over blanks to the end of the line, if there is nothing else on the
way. -/
def finishLine? (place : Place) : Option Place :=
  if place.skipBlanks.atLineEnd then
    some place.skipBlanks
  else
    none

/-- Move over the given word, if it follows the place. -/
def skipWord? : List Char → Place → Option Place
  | [], place => some place
  | expected :: word, ⟨before, character :: rest⟩ =>
      if character = expected then
        skipWord? word ⟨character :: before, rest⟩
      else
        none
  | _ :: _, ⟨_, []⟩ => none

/-- What `find?` yields at the first place, between `before` and the end of
the text, at which it yields anything. -/
def seekFrom {α : Type} (find? : Place → Option α) (before : List Char) :
    List Char → Option α
  | [] => find? ⟨before, []⟩
  | character :: rest =>
      match find? ⟨before, character :: rest⟩ with
      | some found => some found
      | none => seekFrom find? (character :: before) rest

/-- What `find?` yields at the first place, from the given one on, at which it
yields anything. -/
def seek {α : Type} (find? : Place → Option α) (place : Place) : Option α :=
  seekFrom find? place.before place.after

end Place

end SignatureVeil
