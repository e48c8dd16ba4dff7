import SignatureVeil.Text.Place
import SignatureVeil.Position

/-!
# From byte offsets to positions

A line index keeps the byte offsets at which the lines of a text start, where
a line ends with `\n`.  To locate an offset it is first moved back to the
start of the character that it lies in; the line is then found in the table of
starts by bisection, and the column is the number of UTF-16 code units of the
characters between the start of the line and the offset.  Each step that could
go wrong says so with a trap.
-/

namespace SignatureVeil

/-- The bytes of a list of characters in UTF-8. -/
def utf8Bytes (text : List Char) : List UInt8 :=
  text.flatMap String.utf8EncodeChar

/-- What stops a computation for good. -/
inductive Trap where
  | underflow
  | noEntry (number : Nat)
  /-- These byte offsets do not enclose whole characters of a text. -/
  | noSlice (start stop : Nat)
  deriving DecidableEq, Repr

/-- A character starts at a byte offset, or the text ends there. -/
def isBoundary (bytes : List UInt8) (offset : Nat) : Bool :=
  match bytes[offset]? with
  | some byte => decide byte.IsUTF8FirstByte
  | none => offset = bytes.length

/-- The last boundary at or before an offset, found byte by byte. -/
def snapBack (bytes : List UInt8) : Nat → Except Trap Nat
  | 0 => if isBoundary bytes 0 then .ok 0 else .error .underflow
  | offset + 1 =>
      if isBoundary bytes (offset + 1) then
        .ok (offset + 1)
      else
        snapBack bytes offset

/-- Cut a text in two behind the given number of bytes. -/
def cut? (bytes : Nat) : List Char → Option (List Char × List Char)
  | [] => if bytes = 0 then some ([], []) else none
  | character :: rest =>
      if bytes = 0 then
        some ([], character :: rest)
      else if character.utf8Size ≤ bytes then
        (cut? (bytes - character.utf8Size) rest).map fun (front, back) =>
          (character :: front, back)
      else
        none

namespace Checked

def pred : Nat → Except Trap Nat
  | 0 => .error .underflow
  | previous + 1 => .ok previous

def entry (table : Array Nat) (number : Nat) : Except Trap Nat :=
  match table[number]? with
  | some value => .ok value
  | none => .error (.noEntry number)

/-- The characters of a text between two byte offsets. -/
def slice (text : List Char) (start stop : Nat) :
    Except Trap (List Char) :=
  if start ≤ stop then
    match (cut? start text).bind fun (_, back) => cut? (stop - start) back with
    | some (between, _) => .ok between
    | none => .error (.noSlice start stop)
  else
    .error (.noSlice start stop)

end Checked

/-- Bisection: the number of the first entry, from `low` on and before `high`,
that the test does not hold for, or `high` itself. -/
def bisect (isBefore : Nat → Bool) (table : Array Nat) (low high : Nat) : Nat :=
  if low < high then
    let middle := low + (high - low) / 2
    if table[middle]?.any isBefore then
      bisect isBefore table (middle + 1) high
    else
      bisect isBefore table low middle
  else
    low
termination_by high - low

/-- The number of entries at the front of a table that a test holds for. -/
def partitionPoint (isBefore : Nat → Bool) (table : Array Nat) : Nat :=
  bisect isBefore table 0 table.size

/-- The offsets behind each `\n` in bytes that start at an offset. -/
def lineStartsFrom (offset : Nat) : List UInt8 → List Nat
  | [] => []
  | byte :: rest =>
      if byte = 10 then
        (offset + 1) :: lineStartsFrom (offset + 1) rest
      else
        lineStartsFrom (offset + 1) rest

/-- A text and the table of its line starts. -/
structure LineIndex where
  text : List Char
  lineStarts : Array Nat
  deriving DecidableEq, Repr

namespace LineIndex

def ofText (text : String) : LineIndex where
  text := text.toList
  lineStarts := (0 :: lineStartsFrom 0 (utf8Bytes text.toList)).toArray

def lineCount (index : LineIndex) : Nat :=
  index.lineStarts.size

/-- The position of a byte offset; an offset behind the text counts as its
end. -/
def locate (index : LineIndex) (offset : Nat) : Except Trap Position := do
  let bytes := utf8Bytes index.text
  let offset ← snapBack bytes (min offset bytes.length)
  let line ← Checked.pred (partitionPoint (· ≤ offset) index.lineStarts)
  let lineStart ← Checked.entry index.lineStarts line
  let column ← Checked.slice index.text lineStart offset
  return ⟨.ofNat line, .ofNat (utf16Width column)⟩

/-- The position of a byte offset.  That no trap stops the search is a fact
about all texts and offsets. -/
def position (index : LineIndex) (offset : Nat) : Position :=
  match index.locate offset with
  | .ok position => position
  | .error _ => default

/-- The range between two byte offsets, each mapped by itself. -/
def range (index : LineIndex) (start stop : Nat) : Range :=
  ⟨index.position start, index.position stop⟩

end LineIndex

def offsetToPosition (text : String) (offset : Nat) : Position :=
  (LineIndex.ofText text).position offset

end SignatureVeil
