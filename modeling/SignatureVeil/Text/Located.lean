import SignatureVeil.Text.DecimalLiteral

/-!
# Texts that name a place

What is said about a source may end with the place that it is about, as in
` at line 3 column 14`.  Such an ending is read as two numbers and written
anew, so it has one form.  Lines count from one: the line zero is no place, and
an ending that names it is left out.
-/

namespace SignatureVeil

structure SourcePlace where
  line : Nat
  column : Nat
  deriving DecidableEq, Repr

namespace SourcePlace

/-- What stands before the number of the line. -/
def lineMark : List Char :=
  " at line ".toList

/-- What stands before the number of the column. -/
def columnMark : List Char :=
  " column ".toList

/-- The number that digits spell, if there are digits and the number is below
`2 ^ 64`. -/
def number? (digits : List Char) : Option Nat :=
  let number := Nat.ofDigitChars 10 digits 0
  if digits.isEmpty || Nat.pow 2 64 ≤ number then none else some number

/-- The place whose numbers, with the mark between them, are the whole
text. -/
def ofText? (text : List Char) : Option SourcePlace :=
  let (line, rest) := spanDigits text
  if columnMark.isPrefixOf rest then
    let (column, rest) := spanDigits (rest.drop columnMark.length)
    match number? line, number? column with
    | some line, some column =>
        if rest.isEmpty then some ⟨line, column⟩ else none
    | _, _ => none
  else
    none

/-- A place as the ending of a text. -/
def ending (place : SourcePlace) : String :=
  if place.line = 0 then
    ""
  else
    .ofList lineMark ++ toString place.line ++
      .ofList columnMark ++ toString place.column

end SourcePlace

/-- What stands before and behind the last occurrence of `mark` in a text. -/
def splitAtLast? (mark : List Char) :
    List Char → Option (List Char × List Char)
  | [] => none
  | first :: rest =>
      match splitAtLast? mark rest with
      | some (before, behind) => some (first :: before, behind)
      | none =>
          if mark.isPrefixOf (first :: rest) then
            some ([], (first :: rest).drop mark.length)
          else
            none

/-- A text, and the place that it names at its end. -/
structure LocatedText where
  words : String
  place : Option SourcePlace := none
  deriving DecidableEq, Repr

namespace LocatedText

/-- Take the place off the end of a text, if it names one. -/
def ofText (text : String) : LocatedText :=
  match splitAtLast? SourcePlace.lineMark text.toList with
  | none => { words := text }
  | some (before, behind) =>
      match SourcePlace.ofText? behind with
      | some place => ⟨.ofList before, some place⟩
      | none => { words := text }

def text (located : LocatedText) : String :=
  match located.place with
  | some place => located.words ++ place.ending
  | none => located.words

end LocatedText

end SignatureVeil
