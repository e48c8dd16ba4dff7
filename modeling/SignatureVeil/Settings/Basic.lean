import SignatureVeil.Binary.Format

/-!
# Settings

The user can switch the hiding of signatures on and off and choose the opacity
and the background color of hidden signatures.  The style that the editor is
given has its opacity limited to the range from zero to one.
-/

namespace SignatureVeil

/-- The section of the configuration that holds the settings. -/
def configurationSection : String :=
  "byesig"

structure Settings where
  enabled : Bool := true
  /-- How much of hidden signatures is seen: zero is nothing, one is all. -/
  opacity : Single := .ofDecimal false 3 (-1)
  /-- Any color that the editor understands. -/
  backgroundColor : String := "transparent"
  deriving DecidableEq, Repr

def Settings.default : Settings :=
  {}

/-- How the editor is to draw hidden signatures. -/
structure DecorationStyle where
  opacity : Single
  backgroundColor : String
  deriving DecidableEq, Repr

def Settings.style (settings : Settings) : DecorationStyle :=
  ⟨settings.opacity.clampToUnit, settings.backgroundColor⟩

end SignatureVeil
