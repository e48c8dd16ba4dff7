import SignatureVeil.Coordinator.Folding
import SignatureVeil.Proofs.Workspace.Ensures
import SignatureVeil.Proofs.Workspace.Posting

/-!
# Folding and the selections of the user

Folding selects the blocks first and puts the primary selection of the user
back last.  So the selection survives if nothing fails.  If a command fails,
the document is left with the carets of the blocks.
-/

namespace SignatureVeil

/-- Whether a step of the editor leaves the document alone, now and later. -/
def EditorStep.KeepsDocument : EditorStep → Prop
  | .focus _ | .setText _ | .select _ | .hook _ _ => False
  | .configure _ | .failOn _ | .delay _ | .fire _ | .invoke _ => True

/-- A document is shown, and no hook changes that. -/
structure Shows (document : Document) (workspace : Workspace) : Prop where
  shown : workspace.editor.document = some document
  hooks : ∀ hook ∈ workspace.editor.hooks,
    ∀ step ∈ hook.steps, step.KeepsDocument

/-- What passes while folding waits may be anything that leaves the document
alone: in particular, commands may begin or cease to fail. -/
def KeepsDocument (before after : Workspace) : Prop :=
  ∀ document, Shows document before → Shows document after

section Editor

variable {document : Document} {workspace : Workspace}

theorem Shows.step (shows : Shows document workspace) {step : EditorStep}
    (keeps : step.KeepsDocument) : Shows document (workspace.step step) := by
  have posted {other : Workspace}
      (same : Workspace.SameSurroundings workspace other) :
      Shows document other := by
    constructor
    · rw [same.editor, shows.shown]
    · rw [same.editor]
      exact shows.hooks
  cases step with
  | configure configuration => exact ⟨shows.shown, shows.hooks⟩
  | failOn failing => exact ⟨shows.shown, shows.hooks⟩
  | delay latency => exact ⟨shows.shown, shows.hooks⟩
  | fire event => exact posted (Workspace.emitAll_same _ _)
  | invoke id =>
      change Shows document (workspace.invoke id).2
      unfold Workspace.invoke
      split
      · exact shows
      · split
        · exact shows
        · exact posted (Workspace.emit_same _ _)
  | _ => contradiction

theorem Shows.steps (shows : Shows document workspace)
    {steps : List EditorStep} (keep : ∀ step ∈ steps, step.KeepsDocument) :
    Shows document (workspace.steps steps) := by
  induction steps generalizing workspace with
  | nil => exact shows
  | cons step rest ih =>
      obtain ⟨first, later⟩ := List.forall_mem_cons.mp keep
      exact ih (shows.step first) later

theorem Shows.record (shows : Shows document workspace)
    (primitive : Primitive) (call : EditorCall) :
    Shows document (workspace.record primitive call) := by
  unfold Workspace.record
  simp only [Editor.takeHook]
  split
  · exact ⟨shows.shown, shows.hooks⟩
  · rename_i hook found
    have waits := List.mem_of_find?_eq_some found
    have taken : Shows document { workspace with editor :=
        { workspace.editor.record call with
          hooks := workspace.editor.hooks.eraseP fun hook =>
            hook.primitive = primitive } } :=
      ⟨shows.shown, fun hook left =>
        shows.hooks hook (List.mem_of_mem_eraseP left)⟩
    exact taken.steps (shows.hooks hook waits)

theorem Shows.setSelections (shows : Shows document workspace)
    (selections : List Selection) :
    Shows { document with selections }
      (workspace.answer (.setSelections selections)).2 := by
  apply Shows.record
  refine ⟨?_, shows.hooks⟩
  simp [Workspace.updateEditor, Editor.select, Editor.updateDocument,
    shows.shown]

end Editor

/-- What folding does once there is something to fold. -/
def foldTargeted (document : Document) : Interaction Outcome := do
  Interaction.log (.folding document.id document.foldTargets.length)
  .ask (.setSelections document.foldTargets) fun _ =>
    .ask (.execute .unfoldAll) fun (unfolded : Outcome) =>
      match unfolded with
      | .error failure => .done (.error failure)
      | .ok _ =>
          .ask (.execute .fold) fun (folded : Outcome) =>
            match folded with
            | .error failure => .done (.error failure)
            | .ok _ =>
                .ask (.setSelections [document.primarySelection])
                  fun _ => .done (.ok ())

variable {document : Document} {settings : Settings} {workspace : Workspace}

theorem foldBlocks_eq (target : document.isTarget = true)
    (enabled : settings.enabled = true) :
    foldBlocks (some document) settings =
      if document.foldTargets = [] then do
        Interaction.log (.nothingToFold document.id)
        return .ok ()
      else
        foldTargeted document := by
  unfold foldBlocks Interaction.target
  simp only [target, if_true]
  change (if (!settings.enabled) = true then _ else _) = _
  simp only [enabled, Bool.not_true, Bool.false_eq_true, if_false,
    List.isEmpty_iff]
  rfl

open Workspace

theorem ensures_foldTargeted (shows : Shows document workspace) :
    Ensures KeepsDocument (fun _ => True)
      (fun outcome last => match outcome with
        | .ok _ => Shows
            { document with selections := [document.primarySelection] } last
        | .error _ => Shows
            { document with selections := document.foldTargets } last)
      (foldTargeted document) workspace := by
  have logged : Shows document { workspace with log := workspace.log ++
      [.folding document.id document.foldTargets.length] } :=
    ⟨shows.shown, shows.hooks⟩
  have selected := logged.setSelections document.foldTargets
  intro unfolded passed
  have selectedUnfolded := passed _ (selected.record _ _)
  refine ⟨trivial, ?_⟩
  cases unfolded.editor.outcomeOf (.execute .unfoldAll) with
  | error failure => exact selectedUnfolded
  | ok _ =>
      intro folded passed
      have selectedFolded := passed _ (selectedUnfolded.record _ _)
      refine ⟨trivial, ?_⟩
      cases folded.editor.outcomeOf (.execute .fold) with
      | error failure => exact selectedFolded
      | ok _ =>
          exact selectedFolded.setSelections [document.primarySelection]

/-- If folding succeeds, the primary selection is that of the user, and the
blocks to fold are still the same.  If a command fails, the carets of the
blocks are what is left. -/
theorem selections_after_foldBlocks (shows : Shows document workspace)
    (target : document.isTarget = true) (enabled : settings.enabled = true)
    {outcome : Outcome} {last : Workspace}
    (carried : Carried KeepsDocument outcome last
      (foldBlocks (some document) settings) workspace) :
    match outcome with
    | .ok _ => ∃ kept, last.editor.document = some kept ∧
        kept.primarySelection = document.primarySelection ∧
        kept.foldTargets = document.foldTargets
    | .error _ => document.foldTargets ≠ [] ∧ last.editor.document =
        some { document with selections := document.foldTargets } := by
  rw [foldBlocks_eq target enabled] at carried
  split at carried
  · have logged : Shows document { workspace with log := workspace.log ++
        [.nothingToFold document.id] } := ⟨shows.shown, shows.hooks⟩
    have idle : Ensures KeepsDocument (fun _ => True)
        (fun outcome last => outcome = .ok () ∧ Shows document last)
        (do
          Interaction.log (.nothingToFold document.id)
          return (.ok () : Outcome)) workspace := ⟨rfl, logged⟩
    obtain ⟨rfl, untouched⟩ := idle.carried carried
    exact ⟨document, untouched.shown, rfl, rfl⟩
  · rename_i blocks
    have folded := (ensures_foldTargeted shows).carried carried
    cases outcome with
    | error failure => exact ⟨blocks, folded.shown⟩
    | ok _ => exact ⟨_, folded.shown, rfl, rfl⟩

/-- A block, and the cursor of the user on a line below it. -/
def blockAboveCursor : Document :=
  ⟨1, "ruby", "sig do\nend\nx\n", [.caret ⟨2, 1⟩]⟩

theorem foldBlocks_blockAboveCursor :
    foldBlocks (some blockAboveCursor) {} = foldTargeted blockAboveCursor := by
  rw [foldBlocks_eq (by decide) (by decide)]
  exact if_neg (by decide +kernel)

def showingBlock (failing : List Primitive) : Workspace :=
  { editor := { document := some blockAboveCursor, failing } }

theorem shows_showingBlock (failing : List Primitive) :
    Shows blockAboveCursor (showingBlock failing) :=
  ⟨rfl, fun _ member => absurd member List.not_mem_nil⟩

/-- Nothing fails, and the cursor is put back. -/
theorem selections_after_foldBlocks_kept : ∃ last,
    Carried KeepsDocument (.ok ()) last
        (foldBlocks (some blockAboveCursor) {}) (showingBlock []) ∧
      ∃ kept, last.editor.document = some kept ∧
        kept.primarySelection = .caret ⟨2, 1⟩ := by
  obtain ⟨last, carried⟩ : ∃ last, Carried KeepsDocument (.ok ()) last
      (foldBlocks (some blockAboveCursor) {}) (showingBlock []) := by
    rw [foldBlocks_blockAboveCursor]
    apply Exists.intro
    apply Carried.waited rfl fun _ shows => shows
    apply Carried.waited rfl fun _ shows => shows
    exact .finished rfl
  obtain ⟨kept, shown, same, -⟩ := selections_after_foldBlocks
    (shows_showingBlock []) (by decide) (by decide) carried
  exact ⟨last, carried, kept, shown, same⟩

/-- If the first command fails, the cursor is left at the block. -/
theorem primarySelection_lost :
    ¬ ∀ (document : Document) (settings : Settings) (workspace : Workspace)
      (outcome : Outcome) (last : Workspace),
      Shows document workspace → document.isTarget = true →
        settings.enabled = true →
        Carried KeepsDocument outcome last
          (foldBlocks (some document) settings) workspace →
        last.editor.document.map Document.primarySelection =
          some document.primarySelection := by
  intro survives
  have shows := shows_showingBlock [.execute .unfoldAll]
  obtain ⟨failure, last, carried⟩ : ∃ failure last,
      Carried KeepsDocument (.error failure) last
        (foldTargeted blockAboveCursor)
        (showingBlock [.execute .unfoldAll]) := by
    apply Exists.intro
    apply Exists.intro
    apply Carried.waited rfl fun _ shows => shows
    exact .finished rfl
  have left := (ensures_foldTargeted shows).carried carried
  rw [← foldBlocks_blockAboveCursor] at carried
  have same := survives _ _ _ _ _ shows (by decide) (by decide) carried
  rw [left.shown] at same
  revert same
  decide +kernel

end SignatureVeil
