import SignatureVeil.Proofs.Workspace.Holdings
import SignatureVeil.Proofs.Workspace.Resemblance

/-!
# A workspace that nobody else works in

Nothing but an interaction touches the text that is shown, the configuration
and the styles.  While the interaction waits, time passes, messages are posted,
selections are moved, and commands begin or cease to fail; the hooks do no more
than that either.  Then what the interaction has read is still true when it
ends, and the calls that have been made are its own.
-/

namespace SignatureVeil

/-- Whether a step of the editor leaves the document, the configuration and
the hooks alone. -/
def EditorStep.IsQuiet : EditorStep → Prop
  | .failOn _ | .delay _ | .fire _ | .invoke _ => True
  | _ => False

/-- Documents that differ in their selections only do not differ once they have
the same selections. -/
theorem map_selections_of_unselected {shown shown' : Option Document}
    (same : shown'.map Document.unselected = shown.map Document.unselected)
    (selections : List Selection) :
    (shown'.map fun document => { document with selections }) =
      shown.map fun document => { document with selections } := by
  have again := congrArg
    (Option.map fun document : Document => { document with selections }) same
  rw [Option.map_map, Option.map_map] at again
  exact again

namespace Workspace

/-- Whether nothing that hooks do touches the document, the configuration or
other hooks. -/
def IsQuiet (workspace : Workspace) : Prop :=
  ∀ hook ∈ workspace.editor.hooks, ∀ step ∈ hook.steps, step.IsQuiet

/-- What happens around an interaction while it waits: the document stays as
it is apart from its selections, and so does the configuration. -/
structure Bystands (before after : Workspace) : Prop where
  spares : Spares before after
  document : after.editor.document.map Document.unselected =
    before.editor.document.map Document.unselected
  configuration :
    after.editor.configuration = before.editor.configuration
  quiet : before.IsQuiet → after.IsQuiet

theorem Bystands.refl (workspace : Workspace) :
    Bystands workspace workspace :=
  ⟨(Still.refl _).spares, rfl, rfl, id⟩

/-- A document, if any, is shown under a configuration, and no hook is going
to change that.  These calls have been made, and the next style gets this
name. -/
structure Stands (shown : Option Document) (configuration : Json)
    (calls : List EditorCall) (next : StyleToken) (workspace : Workspace) :
    Prop where
  document : workspace.editor.document = shown
  configuration : workspace.editor.configuration = configuration
  calls : workspace.editor.calls = calls
  nextToken : workspace.editor.nextToken = next
  quiet : workspace.IsQuiet

namespace Stands

variable {shown : Option Document} {configuration : Json}
  {calls : List EditorCall} {next : StyleToken} {workspace later : Workspace}

theorem of_editor (stands : Stands shown configuration calls next workspace)
    (same : later.editor = workspace.editor) :
    Stands shown configuration calls next later := by
  obtain ⟨document, configured, called, named, quiet⟩ := stands
  rw [← same] at document configured called named
  exact ⟨document, configured, called, named, by rwa [IsQuiet, same]⟩

theorem step (stands : Stands shown configuration calls next workspace)
    {step : EditorStep} (quiet : step.IsQuiet) :
    Stands shown configuration calls next (workspace.step step) := by
  obtain ⟨document, configured, called, named, hooks⟩ := stands
  cases step with
  | failOn failing => exact ⟨document, configured, called, named, hooks⟩
  | delay latency => exact ⟨document, configured, called, named, hooks⟩
  | fire event =>
      exact of_editor ⟨document, configured, called, named, hooks⟩
        (emitAll_same _ _).editor
  | invoke id =>
      apply of_editor ⟨document, configured, called, named, hooks⟩
      change (workspace.invoke id).2.editor = workspace.editor
      unfold invoke
      split
      · rfl
      · split
        · rfl
        · exact (emit_same _ _).editor
  | _ => contradiction

theorem steps (stands : Stands shown configuration calls next workspace)
    {steps : List EditorStep} (quiet : ∀ step ∈ steps, step.IsQuiet) :
    Stands shown configuration calls next (workspace.steps steps) := by
  induction steps generalizing workspace with
  | nil => exact stands
  | cons step rest ih =>
      obtain ⟨first, others⟩ := List.forall_mem_cons.mp quiet
      exact ih (stands.step first) others

theorem record (stands : Stands shown configuration calls next workspace)
    (primitive : Primitive) (call : EditorCall) :
    Stands shown configuration (calls ++ [call]) next
      (workspace.record primitive call) := by
  rw [record_eq]
  have recorded : Stands shown configuration (calls ++ [call]) next
      ((workspace.updateEditor fun editor => editor.record call).unhooked
        primitive) :=
    ⟨stands.document, stands.configuration,
      congrArg (· ++ [call]) stands.calls, stands.nextToken,
      fun hook left => stands.quiet hook (List.mem_of_mem_eraseP left)⟩
  apply recorded.steps
  intro step member
  obtain ⟨hook, waits, -, inHook⟩ := exists_hook_of_mem_stepsAt member
  exact stands.quiet hook waits step inHook

theorem bystands (stands : Stands shown configuration calls next workspace)
    (bystands : Bystands workspace later) :
    ∃ shown', shown'.map Document.unselected =
        shown.map Document.unselected ∧
      Stands shown' configuration calls next later := by
  refine ⟨later.editor.document, ?_, rfl, ?_, ?_, ?_, ?_⟩
  · rw [bystands.document, stands.document]
  · exact bystands.configuration.trans stands.configuration
  · exact bystands.spares.calls.trans stands.calls
  · exact bystands.spares.nextToken.trans stands.nextToken
  · exact bystands.quiet stands.quiet

/-! ## Requests -/

theorem log (stands : Stands shown configuration calls next workspace)
    (entry : LogRecord) :
    Stands shown configuration calls next
      (workspace.answer (.log entry)).2 :=
  stands.of_editor rfl

theorem createStyle (stands : Stands shown configuration calls next workspace)
    (style : DecorationStyle) :
    (workspace.answer (.createStyle style)).1 = next ∧
      Stands shown configuration (calls ++ [.createStyle next style])
        (next + 1) (workspace.answer (.createStyle style)).2 := by
  obtain ⟨document, configured, called, rfl, hooks⟩ := stands
  have named : Stands shown configuration calls
      (workspace.editor.nextToken + 1)
      (workspace.updateEditor fun editor =>
        { editor with nextToken := workspace.editor.nextToken + 1 }) :=
    ⟨document, configured, called, rfl, hooks⟩
  exact ⟨rfl, named.record _ _⟩

theorem setSelections
    (stands : Stands shown configuration calls next workspace)
    (selections : List Selection) :
    Stands (shown.map fun document => { document with selections })
      configuration (calls ++ [.setSelections selections]) next
      (workspace.answer (.setSelections selections)).2 := by
  obtain ⟨rfl, configured, called, named, hooks⟩ := stands
  have selected : Stands (workspace.editor.document.map fun document =>
      { document with selections }) configuration calls next
      (workspace.updateEditor fun editor => editor.select selections) :=
    ⟨rfl, configured, called, named, hooks⟩
  exact selected.record _ _

end Stands

end Workspace

/-! ## An editor that obeys -/

/-- Whether an answer to a request is not a failure. -/
def Request.Heeded : (request : Request) → request.Answer → Prop
  | .applyDecorations _ _, (outcome : Outcome) => outcome = .ok ()
  | .execute _, (outcome : Outcome) => outcome = .ok ()
  | _, _ => True

section

variable {α β : Type} {ends : α → Prop} {interaction : Interaction α}

/-- If nothing fails that it asks for, an interaction ends with a result of
some kind. -/
def Interaction.Heeds (ends : α → Prop) : Interaction α → Prop
  | .done result => ends result
  | .ask request next =>
      ∀ answer, request.Heeded answer → (next answer).Heeds ends

theorem Interaction.Heeds.bind {next : α → Interaction β}
    {ends' : β → Prop} (heeds : interaction.Heeds ends)
    (continues : ∀ result, ends result → (next result).Heeds ends') :
    (interaction >>= next).Heeds ends' := by
  induction interaction with
  | done result => exact continues result heeds
  | ask request answered ih =>
      exact fun answer heeded => ih answer (heeds answer heeded)

theorem heeds_of_asks {allowed : Request → Prop}
    (asks : interaction.Asks allowed ends) : interaction.Heeds ends := by
  induction interaction with
  | done result => exact asks
  | ask request next ih => exact fun answer _ => ih answer (asks.2 answer)

namespace Workspace

/-- Nothing that is asked of the editor fails, and no hook waits. -/
structure Obeys (workspace : Workspace) : Prop where
  failing : workspace.editor.failing = []
  hooks : workspace.editor.hooks = []

variable {workspace last : Workspace} {passes : Workspace → Workspace → Prop}

theorem Obeys.outcomeOf (obeys : workspace.Obeys) (primitive : Primitive) :
    workspace.editor.outcomeOf primitive = .ok () := by
  rw [Editor.outcomeOf, obeys.failing, if_neg List.not_mem_nil]

theorem Obeys.record (obeys : workspace.Obeys) (primitive : Primitive)
    (call : EditorCall) : (workspace.record primitive call).Obeys := by
  obtain ⟨failing, hooks⟩ := obeys
  have noSteps : workspace.stepsAt primitive = [] := by
    rw [stepsAt, hooks]
    rfl
  rw [record_eq, noSteps]
  exact ⟨failing, congrArg (List.eraseP _) hooks⟩

theorem Obeys.answer (obeys : workspace.Obeys) (request : Request) :
    request.Heeded (workspace.answer request).1 ∧
      (workspace.answer request).2.Obeys := by
  cases request with
  | createStyle style =>
      have named : (workspace.updateEditor fun editor =>
          { editor with nextToken := workspace.editor.nextToken + 1 }).Obeys :=
        ⟨obeys.failing, obeys.hooks⟩
      exact ⟨trivial, named.record _ _⟩
  | setSelections selections =>
      have selected : (workspace.updateEditor fun editor =>
          editor.select selections).Obeys := ⟨obeys.failing, obeys.hooks⟩
      exact ⟨trivial, selected.record _ _⟩
  | disposeStyle token => exact ⟨trivial, obeys.record _ _⟩
  | applyDecorations token ranges =>
      exact ⟨(obeys.record _ _).outcomeOf _, obeys.record _ _⟩
  | execute command =>
      exact ⟨(obeys.record _ _).outcomeOf _, obeys.record _ _⟩
  | _ => exact ⟨trivial, obeys.failing, obeys.hooks⟩

/-- Where nothing fails, also while an interaction waits, it ends as it does if
nothing fails. -/
theorem ensures_of_heeds (heeds : interaction.Heeds ends)
    (obeys : workspace.Obeys)
    (obedient : ∀ {before after : Workspace}, passes before after →
      before.Obeys → after.Obeys) :
    Ensures passes (fun _ => True)
      (fun result later => ends result ∧ later.Obeys) interaction
      workspace := by
  induction interaction generalizing workspace with
  | done result => exact ⟨heeds, obeys⟩
  | ask request next ih =>
      cases request with
      | execute command =>
          intro later meanwhile
          have resumed := obedient meanwhile (obeys.record _ _)
          exact ⟨trivial, ih _ (heeds _ (resumed.outcomeOf _)) resumed⟩
      | _ =>
          obtain ⟨heeded, later⟩ := obeys.answer _
          exact ih _ (heeds _ heeded) later

/-- Every interaction can be carried out with nothing happening meanwhile. -/
theorem exists_carried (interaction : Interaction α) (workspace : Workspace) :
    ∃ result last, Carried Eq result last interaction workspace := by
  induction interaction generalizing workspace with
  | done result => exact ⟨result, workspace, .finished rfl⟩
  | ask request next ih =>
      obtain ⟨result, last, carried⟩ := ih (workspace.answer request).1
        (workspace.answer request).2
      refine ⟨result, last, ?_⟩
      cases request with
      | execute command => exact .waited rfl rfl carried
      | _ => exact carried.of_perform rfl

end Workspace

end

end SignatureVeil
