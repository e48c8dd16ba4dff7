import SignatureVeil.Editor.Interaction

/-!
# Dimming signatures

All signatures are drawn with one decoration style.  The style is made anew
each time, so that it always follows the settings in force, and the old one is
disposed of first, which removes what was drawn with it.
-/

namespace SignatureVeil

structure Visibility where
  style : Option StyleToken := none
  deriving DecidableEq, Repr

namespace Visibility

def teardown (visibility : Visibility) : Interaction Visibility :=
  match visibility.style with
  | some token => .ask (.disposeStyle token) fun _ => .done ⟨none⟩
  | none => .done visibility

/-- Replace the style in use by one that follows the given settings, and
return its token. -/
def restyle (visibility : Visibility) (settings : Settings) :
    Interaction StyleToken := do
  let _ ← visibility.teardown
  Interaction.request (.createStyle settings.style)

/-- Dim every signature in a document of the target language.  If hiding is
disabled, the style is replaced all the same, and nothing is drawn. -/
def apply (visibility : Visibility) (shown : Option Document)
    (settings : Settings) : Interaction (Visibility × Outcome) := do
  match ← Interaction.target shown with
  | none => return (visibility, .ok ())
  | some document =>
      let token ← visibility.restyle settings
      if settings.enabled then
        let ranges := Signature.ranges document.text
        Interaction.log (.decorating document.id ranges.length)
        let outcome ← Interaction.request (.applyDecorations token ranges)
        return (⟨some token⟩, outcome)
      else
        Interaction.log .hidingDisabled
        return (⟨some token⟩, .ok ())

end Visibility

end SignatureVeil
