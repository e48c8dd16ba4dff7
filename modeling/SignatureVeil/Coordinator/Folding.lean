import SignatureVeil.Editor.Interaction

/-!
# Folding block signatures

The fold commands of an editor act on its selections.  So the blocks to fold
are selected first, then everything is unfolded, the selected blocks are
folded, and the primary selection of the user is put back.  A command that
fails ends the sequence where it is.
-/

namespace SignatureVeil

/-- Fold every block signature that does not hold the cursor. -/
def foldBlocks (shown : Option Document) (settings : Settings) :
    Interaction Outcome := do
  match ← Interaction.target shown with
  | none => return .ok ()
  | some document =>
      if !settings.enabled then
        return .ok ()
      else if document.foldTargets.isEmpty then
        Interaction.log (.nothingToFold document.id)
        return .ok ()
      else
        let targets := document.foldTargets
        Interaction.log (.folding document.id targets.length)
        .ask (.setSelections targets) fun _ =>
          .ask (.execute .unfoldAll) fun (unfolded : Outcome) =>
            match unfolded with
            | .error failure => .done (.error failure)
            | .ok _ =>
                .ask (.execute .fold) fun (folded : Outcome) =>
                  match folded with
                  | .error failure => .done (.error failure)
                  | .ok _ =>
                      .ask (.setSelections [document.primarySelection])
                        fun _ => .done (.ok ())

end SignatureVeil
