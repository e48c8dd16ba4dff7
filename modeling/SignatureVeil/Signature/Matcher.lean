import SignatureVeil.Text.Place

/-!
# Finding signatures in a text

A block signature runs from a line that says `sig do` to the nearest later
line that says `end`.  An inline signature runs from a line that begins with
`sig {` to the nearest `}` that ends a line.  Both are found by plain text,
without parsing the language.  The regions of one kind are collected from left
to right; the search for the next one starts where the previous one ended.
-/

namespace SignatureVeil

namespace Signature

/-- The two ways to write a signature. -/
inductive Kind where
  /-- A signature written `sig do … end`, both on lines of their own. -/
  | block
  /-- A signature written `sig { … }`, closing at the end of a line. -/
  | inline
  deriving DecidableEq, Repr

def Kind.all : List Kind :=
  [.block, .inline]

def Kind.name : Kind → String
  | .block => "Block"
  | .inline => "Inline"

/-- A signature found in a text, as a span of byte offsets. -/
structure Region where
  kind : Kind
  start : Nat
  stop : Nat
  deriving DecidableEq, Repr

/-- The place behind the opening of a signature that starts at `place`.  A
block opens with a line that holds `sig do` and blanks only, and is open from
the end of that line on; an inline signature opens with `sig {` at the
beginning of a line. -/
def Kind.open? (kind : Kind) (place : Place) : Option Place :=
  if place.atLineStart then
    match kind with
    | .block =>
        (place.skipBlanks.skipWord? ['s', 'i', 'g', ' ', 'd', 'o']).bind
          Place.finishLine?
    | .inline => place.skipBlanks.skipWord? ['s', 'i', 'g', ' ', '{']
  else
    none

/-- The place behind the closing of a signature whose closing starts at
`place`.  A block closes with a line that holds `end` and blanks only; an
inline signature closes with `}` and blanks at the end of a line. -/
def Kind.close? (kind : Kind) (place : Place) : Option Place :=
  match kind with
  | .block =>
      if place.atLineStart then
        (place.skipBlanks.skipWord? ['e', 'n', 'd']).bind Place.finishLine?
      else
        none
  | .inline => (place.skipWord? ['}']).bind Place.finishLine?

/-- The end of the signature that starts at `place`: the nearest closing
behind its opening. -/
def Kind.match? (kind : Kind) (place : Place) : Option Place :=
  (kind.open? place).bind fun opened => opened.seek kind.close?

/-- The regions that start at the place between `before` and the rest of the
text or behind it, but not before the offset `resume`.  The argument `offset`
is the byte offset of that place. -/
def Kind.regionsFrom (kind : Kind) (resume offset : Nat)
    (before : List Char) : List Char → List Region
  | [] => []
  | character :: rest =>
      let next := offset + character.utf8Size
      if resume ≤ offset then
        match kind.match? ⟨before, character :: rest⟩ with
        | some stop =>
            ⟨kind, offset, stop.offset⟩ ::
              kind.regionsFrom stop.offset next (character :: before) rest
        | none => kind.regionsFrom resume next (character :: before) rest
      else
        kind.regionsFrom resume next (character :: before) rest

def regions (kind : Kind) (text : String) : List Region :=
  kind.regionsFrom 0 0 [] text.toList

end Signature

end SignatureVeil
