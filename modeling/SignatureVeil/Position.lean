/-!
# Positions, ranges and selections

An editor names a place in a document by a line and a column.  Lines are
counted from zero, and columns count UTF-16 code units from the start of the
line, both in 32 bits.  Positions are ordered by line first; a range is a span
between two positions, and a selection is a span with a moving end.
-/

namespace SignatureVeil

/-- A line and a column, as an editor counts them. -/
structure Position where
  line : UInt32
  character : UInt32
  deriving DecidableEq, Repr, Inhabited

/-- Positions in reading order: lines decide, and columns decide within a
line. -/
def Position.compare (first second : Position) : Ordering :=
  (Ord.compare first.line second.line).then
    (Ord.compare first.character second.character)

/-- A span between two positions, without its end. -/
structure Range where
  start : Position
  stop : Position
  deriving DecidableEq, Repr, Inhabited

/-- A range holds all lines from the one it starts on to the one it ends
on. -/
def Range.containsLine (range : Range) (line : UInt32) : Bool :=
  range.start.line ≤ line && line ≤ range.stop.line

/-- A selection reaches from the place where it was begun to the place of the
cursor. -/
structure Selection where
  anchor : Position
  active : Position
  deriving DecidableEq, Repr, Inhabited

namespace Selection

/-- The selection that holds no text and has its cursor at a position. -/
def caret (position : Position) : Selection :=
  ⟨position, position⟩

def origin : Selection :=
  caret ⟨0, 0⟩

def isEmpty (selection : Selection) : Bool :=
  selection.anchor = selection.active

end Selection

end SignatureVeil
