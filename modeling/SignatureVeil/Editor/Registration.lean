/-!
# Registrations and their release

A registration is held until it is given back, dropped or replaced, and is
released at that moment.  An empty registration has nothing to release.  The
registry holds registrations under keys and counts the releases.
-/

namespace SignatureVeil

/-- What is held under a key. -/
inductive Registration where
  /-- It is released when it is no longer held. -/
  | active
  /-- There is nothing to release. -/
  | empty
  deriving DecidableEq, Repr

def Registration.description (registration : Registration) : String :=
  "Subscription \x7b active: " ++ toString (registration == .active) ++ " \x7d"

/-- To drop a registration takes out what there is to release, and releases
it.  The releases are counted. -/
def Registration.drop (released : Nat) : Registration → Nat
  | .active => released + 1
  | .empty => released

/-- To give a registration back is to drop it. -/
def Registration.unsubscribe (released : Nat) (registration : Registration) :
    Nat :=
  registration.drop released

/-- Registrations under keys, in ascending order of the keys, and the number
of releases so far. -/
structure Registry where
  released : Nat := 0
  held : List (Int × Registration) := []
  deriving DecidableEq, Repr

inductive RegistryStep where
  | create (registration : Registration) (key : Int)
  | unsubscribe (key : Int)
  | drop (key : Int)
  deriving DecidableEq, Repr

namespace Registry

/-- Hold a registration in a list in ascending order of keys. -/
def hold (key : Int) (registration : Registration) :
    List (Int × Registration) → List (Int × Registration)
  | [] => [(key, registration)]
  | (name, other) :: rest =>
      if name = key then
        (key, registration) :: rest
      else if key < name then
        (key, registration) :: (name, other) :: rest
      else
        (name, other) :: hold key registration rest

/-- The releases once what is held under a key, if there is anything, has come
to an end. -/
def releasedBy (ending : Nat → Registration → Nat) (registry : Registry)
    (key : Int) : Nat :=
  match registry.held.find? fun entry => entry.1 = key with
  | some (_, registration) => ending registry.released registration
  | none => registry.released

/-- Hold nothing under a key any more. -/
def remove (key : Int) (held : List (Int × Registration)) :
    List (Int × Registration) :=
  held.filter fun entry => entry.1 ≠ key

def step (registry : Registry) : RegistryStep → Registry
  -- what is replaced is dropped
  | .create registration key =>
      { released := registry.releasedBy Registration.drop key
        held := hold key registration registry.held }
  | .unsubscribe key =>
      { released := registry.releasedBy Registration.unsubscribe key
        held := remove key registry.held }
  | .drop key =>
      { released := registry.releasedBy Registration.drop key
        held := remove key registry.held }

def states (registry : Registry) : List RegistryStep → List Registry
  | [] => []
  | first :: rest =>
      registry.step first :: (registry.step first).states rest

end Registry

end SignatureVeil
