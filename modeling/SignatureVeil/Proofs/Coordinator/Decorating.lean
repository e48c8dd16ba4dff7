import SignatureVeil.Proofs.Coordinator.Requests
import SignatureVeil.Proofs.Workspace.Resemblance

/-!
# Decorating apart from folding

What a coordinator does about a message is to draw, to wait for a quiet period
or to give back what it has, and to fold or to unfold after that.  The first
part is a message of its own: it makes the same requests in all workspaces that
resemble each other, and it determines the coordinator that is left.  Whatever
comes of the commands, the second part changes neither.
-/

namespace SignatureVeil

open Interaction

/-- Replace the style, which removes the decorations. -/
def Coordinator.reveal (coordinator : Coordinator) :
    Interaction (Option Coordinator) := do
  let shown ← Interaction.request .document
  match ← Interaction.target shown with
  | none => return some coordinator
  | some _ =>
      let settings ← Interaction.settings
      let token ← coordinator.visibility.restyle settings
      return some { coordinator with visibility := ⟨some token⟩ }

/-- What a coordinator does about a message apart from folding and unfolding,
and apart from a note of failure. -/
def Coordinator.decorate (coordinator : Coordinator) (message : Message) :
    Interaction (Option Coordinator) :=
  match message with
  | .shutdown => do
      let _ ← coordinator.deactivate
      return none
  | .documentChanged => do
      Interaction.log (.handling message)
      let coordinator ← coordinator.scheduleHide
      return some coordinator
  | .command .showSignatures => do
      Interaction.log (.handling message)
      coordinator.reveal
  | .activeEditorChanged | .command .hideSignatures | .debounceElapsed => do
      Interaction.log (.handling message)
      let (coordinator, _) ← coordinator.hide
      return some coordinator

/-- An interaction makes the requests of another one, where the selections of
documents do not matter, and then does no more than to fold or to unfold.  By
then it is settled to what its result leads. -/
inductive Shadows {α β : Type} (who : α → β) :
    Interaction α → Interaction β → Prop where
  | settled {interaction : Interaction α} {result : β}
      (folds : interaction.Asks Request.IsFolding fun found =>
        who found = result) :
      Shadows who interaction (.done result)
  | document {next : Option Document → Interaction α}
      {next' : Option Document → Interaction β}
      (goesOn : ∀ shown shown',
        shown.map Document.unselected = shown'.map Document.unselected →
          Shadows who (next shown) (next' shown')) :
      Shadows who (.ask .document next) (.ask .document next')
  | ask {request : Request} {next : request.Answer → Interaction α}
      {next' : request.Answer → Interaction β}
      (decorates : request.IsDecorating)
      (goesOn : ∀ answer, Shadows who (next answer) (next' answer)) :
      Shadows who (.ask request next) (.ask request next')

theorem Request.IsDecorating.allowsDrawing :
    AllowsDrawing Request.IsDecorating :=
  ⟨⟨fun _ => trivial, fun _ _ => trivial⟩, fun _ => trivial, fun _ => trivial,
    fun _ _ => trivial⟩

theorem Request.IsFolding.remark {entry : LogRecord}
    (remark : entry.isRemark = true) : (Request.log entry).IsFolding := by
  cases entry with
  | debounceScheduled delay message => cases remark
  | _ => rfl

theorem Request.IsFolding.allowsFolding : AllowsFolding Request.IsFolding :=
  ⟨⟨fun _ => trivial, fun _ => Request.IsFolding.remark⟩, fun _ => trivial,
    fun _ => trivial⟩

section

variable {α β γ : Type} {who : α → β}

theorem Interaction.bind_assoc {first : Interaction γ}
    {next : γ → Interaction α} {last : α → Interaction β} :
    first >>= next >>= last = first >>= fun result => next result >>= last := by
  induction first with
  | done result => rfl
  | ask request answered ih =>
      exact congrArg (Interaction.ask request) (funext ih)

theorem Interaction.bind_done (interaction : Interaction α) :
    interaction >>= Interaction.done = interaction := by
  induction interaction with
  | done result => rfl
  | ask request next ih =>
      exact congrArg (Interaction.ask request) (funext ih)

/-- What both do first does not matter if it only serves to decorate. -/
theorem shadows_after {first : Interaction γ} {next : γ → Interaction α}
    {next' : γ → Interaction β} {ends : γ → Prop}
    (decorates : first.Asks Request.IsDecorating ends)
    (goesOn : ∀ result, Shadows who (next result) (next' result)) :
    Shadows who (first >>= next) (first >>= next') := by
  induction first with
  | done result => exact goesOn result
  | ask request answered ih =>
      exact .ask decorates.1 fun answer => ih answer (decorates.2 answer)

/-- What is done after an interaction does not matter if it only serves to
fold. -/
theorem Shadows.before {who' : γ → β} {interaction : Interaction α}
    {decoration : Interaction β} {next : α → Interaction γ}
    (shadows : Shadows who interaction decoration)
    (folds : ∀ result, (next result).Asks Request.IsFolding fun found =>
      who' found = who result) :
    Shadows who' (interaction >>= next) decoration := by
  induction shadows with
  | settled settles =>
      refine .settled (settles.bind fun result same => ?_)
      exact (folds result).mono (fun _ allowed => allowed)
        fun _ same' => same'.trans same
  | document _ ih => exact .document fun shown shown' same => ih _ _ same
  | ask decorates _ ih => exact .ask decorates ih

/-! ## Documents apart from their selections -/

theorem apply_unselected (visibility : Visibility) (shown : Option Document)
    (settings : Settings) :
    visibility.apply (shown.map Document.unselected) settings =
      visibility.apply shown settings := by
  cases shown with
  | none => rfl
  | some document =>
      change (if document.isTarget = true then _ else _ : Interaction _) >>= _ =
        (if document.isTarget = true then _ else _) >>= _
      split <;> rfl

variable {shown shown' : Option Document}

theorem shadows_target {next : Option Document → Interaction α}
    {next' : Option Document → Interaction β}
    (same : shown.map Document.unselected = shown'.map Document.unselected)
    (none : Shadows who (next none) (next' none))
    (some : ∀ document document',
      Shadows who (next (some document)) (next' (some document'))) :
    Shadows who (Interaction.target shown >>= next)
      (Interaction.target shown' >>= next') := by
  cases shown with
  | none =>
      cases shown' with
      | none => exact .ask trivial fun _ => none
      | some document' => cases same
  | some document =>
      cases shown' with
      | none => cases same
      | some document' =>
          have alike : document.unselected = document'.unselected :=
            Option.some.inj same
          obtain ⟨id, language, text, selections⟩ := document
          obtain ⟨id', language', text', selections'⟩ := document'
          obtain ⟨rfl, rfl, rfl, -⟩ := Document.mk.inj alike
          unfold Interaction.target Document.isTarget
          simp only []
          split
          · exact some _ _
          · exact .ask trivial fun _ => none

/-! ## What a coordinator does -/

theorem hide_bind (coordinator : Coordinator)
    (next : Coordinator × Outcome → Interaction α) :
    coordinator.hide >>= next =
      Interaction.settings >>= fun settings =>
        .ask .document fun (shown : Option Document) =>
          coordinator.visibility.apply shown settings >>= fun applied =>
            next ({ coordinator with visibility := applied.1 }, applied.2) := by
  rw [Coordinator.hide, bind_assoc]
  congr 1
  funext settings
  refine congrArg (Interaction.ask .document) (funext fun shown => ?_)
  change coordinator.visibility.apply shown settings >>= _ >>= next = _
  exact bind_assoc

theorem shadows_hide {next : Coordinator × Outcome → Interaction α}
    {next' : Coordinator × Outcome → Interaction β} (coordinator : Coordinator)
    (goesOn : ∀ result, Shadows who (next result) (next' result)) :
    Shadows who (coordinator.hide >>= next) (coordinator.hide >>= next') := by
  have allows := Request.IsDecorating.allowsDrawing
  rw [hide_bind, hide_bind]
  apply shadows_after allows.settings
  refine fun settings => .document fun shown shown' same => ?_
  rw [← apply_unselected _ shown, same, apply_unselected]
  exact shadows_after (allows.apply _ _ _) fun applied => goesOn _

end

/-- To hide and to fold is to draw first and to fold then. -/
theorem shadows_hideAndFold (coordinator : Coordinator) :
    Shadows (some ∘ Prod.fst) coordinator.hideAndFold
      (coordinator.hide >>= fun result => .done (some result.1)) := by
  have folds := Request.IsFolding.allowsFolding
  apply shadows_hide coordinator
  rintro ⟨changed, failure | _⟩
  · exact .settled rfl
  apply Shadows.settled
  apply folds.settings.bind
  refine fun settings _ => ⟨trivial, fun shown => ?_⟩
  exact (folds.foldBlocks shown settings).bind fun _ _ => rfl

theorem shadows_showAndUnfold (coordinator : Coordinator) :
    Shadows (some ∘ Prod.fst) coordinator.showAndUnfold
      coordinator.reveal := by
  have allows := Request.IsDecorating.allowsDrawing
  refine .document fun shown shown' same => ?_
  change Shadows _ (Interaction.target shown >>= _)
    (Interaction.target shown' >>= _)
  refine shadows_target same (.settled rfl) fun _ _ => ?_
  refine shadows_after allows.settings fun settings => ?_
  refine shadows_after (allows.restyle _ settings) fun token => .settled ?_
  simp only []
  split
  · exact ⟨trivial, fun _ => rfl⟩
  · exact rfl

theorem shadows_scheduleHide (coordinator : Coordinator) :
    Shadows (some ∘ Prod.fst)
      (coordinator.scheduleHide >>= fun changed =>
        .done (changed, (.ok () : Outcome)))
      (coordinator.scheduleHide >>= fun changed => .done (some changed)) := by
  have schedules : coordinator.scheduleHide.Asks Request.IsDecorating
      fun changed => changed.visibility = coordinator.visibility :=
    asks_scheduleHide (fun _ => trivial) (fun _ => trivial) fun _ _ => trivial
  exact shadows_after schedules fun _ => .settled rfl

theorem shadows_handle (coordinator : Coordinator) {message : Message}
    (goesOn : message ≠ .shutdown) :
    Shadows (some ∘ Prod.fst) (coordinator.handle message)
      (coordinator.decorate message) := by
  cases message with
  | activeEditorChanged =>
      exact .ask trivial fun _ => shadows_hideAndFold coordinator
  | documentChanged =>
      exact .ask trivial fun _ => shadows_scheduleHide coordinator
  | command given =>
      cases given with
      | hideSignatures =>
          exact .ask trivial fun _ => shadows_hideAndFold coordinator
      | showSignatures =>
          exact .ask trivial fun _ => shadows_showAndUnfold coordinator
  | debounceElapsed =>
      have hides : Shadows (some ∘ Prod.fst) (coordinator.hide >>= .done)
          (coordinator.hide >>= fun result => .done (some result.1)) :=
        shadows_hide coordinator fun _ => .settled rfl
      rw [bind_done] at hides
      exact .ask trivial fun _ => hides
  | shutdown => exact absurd rfl goesOn

/-- To serve a message is to decorate first and to fold then. -/
theorem shadows_serve (coordinator : Coordinator) (message : Message) :
    Shadows id (coordinator.serve message) (coordinator.decorate message) := by
  by_cases ends : message = .shutdown
  · subst ends
    have deactivates : coordinator.deactivate.Asks Request.IsDecorating
        fun _ => True :=
      asks_deactivate (fun _ _ => trivial) (fun _ => trivial) trivial
        fun _ => trivial
    exact shadows_after deactivates fun _ => .settled rfl
  · rw [Coordinator.serve, if_neg ends]
    apply (shadows_handle coordinator ends).before
    rintro ⟨changed, failure | _⟩
    · exact ⟨rfl, fun _ => rfl⟩
    · exact rfl

/-! ## Carrying it out -/

namespace Workspace

/-- What is left of an interaction is to fold, and nothing has been done since
some workspace but to fold. -/
inductive FoldsFrom {α : Type} (clocked : Bool) (result : α)
    (last : Workspace) : Progress α → Prop where
  | finished {workspace : Workspace}
      (resembles : Resembles clocked last workspace)
      (tame : workspace.IsTame) :
      FoldsFrom clocked result last (.finished result workspace)
  | waiting {command : EditorCommand} {time : Nat}
      {next : Outcome → Interaction α} {workspace : Workspace}
      (resembles : Resembles clocked last workspace)
      (tame : workspace.IsTame)
      (folds : ∀ outcome, (next outcome).Asks Request.IsFolding
        fun found => found = result) :
      FoldsFrom clocked result last (.waiting command time next workspace)

variable {α : Type} {clocked : Bool} {other workspace : Workspace}

theorem foldsFrom_perform {interaction : Interaction α} {result : α}
    (folds : interaction.Asks Request.IsFolding fun found => found = result)
    (resembles : Resembles clocked other workspace)
    (tame : workspace.IsTame) :
    FoldsFrom clocked result other (workspace.perform interaction) := by
  have stands := perform_preserves
    (fun later => Resembles clocked other later ∧ later.IsTame)
    (fun kept folds => ⟨kept.1.trans (resembles_answer kept.2 folds),
      kept.2.answer _⟩)
    folds ⟨resembles, tame⟩
  cases performed : workspace.perform interaction with
  | finished found last =>
      rw [performed] at stands
      obtain ⟨⟨resembles, tame⟩, rfl⟩ := stands
      exact .finished resembles tame
  | waiting command time next earlier =>
      rw [performed] at stands
      obtain ⟨⟨resembles, tame⟩, folds⟩ := stands
      exact .waiting resembles tame folds

end Workspace

open Workspace

/-- In workspaces that resemble each other an interaction does what its
decoration does, and then no more than to fold. -/
theorem Shadows.perform {α : Type} {clocked : Bool}
    {other workspace : Workspace} {interaction decoration : Interaction α}
    (shadows : Shadows id interaction decoration)
    (resembles : Resembles clocked other workspace)
    (tame : workspace.IsTame) :
    ∃ result last, other.perform decoration = .finished result last ∧
      FoldsFrom clocked result last (workspace.perform interaction) := by
  induction shadows generalizing other workspace with
  | @settled _ result folds =>
      exact ⟨result, other, rfl, foldsFrom_perform folds resembles tame⟩
  | document _ ih => exact ih _ _ resembles.document.symm resembles tame
  | @ask request next next' decorates _ ih =>
      obtain ⟨same, later⟩ := resembles.answer decorates
      obtain ⟨result, last, performed, folds⟩ :=
        ih (workspace.answer request).1 later (tame.answer request)
      rw [← same] at performed
      refine ⟨result, last, ?_, ?_⟩
      · cases request with
        | execute command => exact absurd decorates id
        | _ => exact performed
      · cases request with
        | execute command => exact absurd decorates id
        | _ => exact folds

end SignatureVeil
