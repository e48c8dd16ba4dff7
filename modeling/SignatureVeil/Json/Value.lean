import SignatureVeil.Binary.Format

/-!
# JSON values

A JSON number is either an integer, if it was written as one and fits into 64
bits with or without a sign, or else a floating-point value.  The members of
an object are kept in ascending order of their keys, each key once.
-/

namespace SignatureVeil

inductive JsonNumber where
  /-- A number written without point and exponent. -/
  | integer (value : Int)
  /-- Any other number; it is finite. -/
  | float (value : Double)
  deriving DecidableEq, Repr

inductive Json where
  | null
  | bool (value : Bool)
  | number (value : JsonNumber)
  | string (value : String)
  | array (items : List Json)
  | object (members : List (String × Json))
  deriving Inhabited, Repr

namespace Json

/-- The value of the first member with a given key. -/
def lookup? (key : String) : List (String × Json) → Option Json
  | [] => none
  | (name, value) :: rest =>
      if name = key then some value else lookup? key rest

/-- The member of an object with a given key; any other value has no
members. -/
def member? (value : Json) (key : String) : Option Json :=
  match value with
  | .object members => lookup? key members
  | _ => none

/-- Put a member into an ordered list of members.  A member with the same key
is replaced. -/
def insert (key : String) (value : Json) :
    List (String × Json) → List (String × Json)
  | [] => [(key, value)]
  | (name, old) :: rest =>
      if name = key then
        (key, value) :: rest
      else if key < name then
        (key, value) :: (name, old) :: rest
      else
        (name, old) :: insert key value rest

end Json

end SignatureVeil
