import SignatureVeil.Proofs.Editor.Exchanges
import SignatureVeil.Proofs.Workspace.Ensures
import SignatureVeil.Proofs.Workspace.Posting

/-!
# What a workspace records

A workspace answers the requests of an interaction, and the calls that its
editor records meanwhile are those of the exchanges.  The steps of hooks make
no calls, and nothing is logged of them.
-/

namespace SignatureVeil

namespace Workspace

theorem calls_step (workspace : Workspace) (step : EditorStep) :
    (workspace.step step).editor.calls = workspace.editor.calls := by
  cases step with
  | fire event => exact congrArg Editor.calls (emitAll_same _ _).editor
  | invoke id =>
      change (workspace.invoke id).2.editor.calls = _
      unfold invoke
      split
      · rfl
      · split
        · rfl
        · exact congrArg Editor.calls (emit_same _ _).editor
  | _ => rfl

theorem calls_steps (workspace : Workspace) (steps : List EditorStep) :
    (workspace.steps steps).editor.calls = workspace.editor.calls := by
  induction steps generalizing workspace with
  | nil => rfl
  | cons step rest ih => exact (ih _).trans (calls_step workspace step)

theorem calls_record (workspace : Workspace) (primitive : Primitive)
    (call : EditorCall) :
    (workspace.record primitive call).editor.calls =
      workspace.editor.calls ++ [call] := by
  rw [record, calls_steps]
  simp only [Editor.takeHook]
  split <;> rfl

theorem log_emit (workspace : Workspace) (sink : Sink) :
    (workspace.emit sink).2.log = workspace.log := by
  unfold emit
  split
  · simp only [wake]
    split <;> rfl
  · rfl

theorem log_emitAll (workspace : Workspace) (sinks : List Sink) :
    (workspace.emitAll sinks).2.log = workspace.log := by
  induction sinks generalizing workspace with
  | nil => rfl
  | cons sink rest ih => exact (ih _).trans (log_emit workspace sink)

theorem log_step (workspace : Workspace) (step : EditorStep) :
    (workspace.step step).log = workspace.log := by
  cases step with
  | fire event => exact log_emitAll workspace _
  | invoke id =>
      change (workspace.invoke id).2.log = _
      unfold invoke
      split
      · rfl
      · split
        · rfl
        · exact log_emit workspace _
  | _ => rfl

theorem log_steps (workspace : Workspace) (steps : List EditorStep) :
    (workspace.steps steps).log = workspace.log := by
  induction steps generalizing workspace with
  | nil => rfl
  | cons step rest ih => exact (ih _).trans (log_step workspace step)

/-- A workspace records the call of every exchange. -/
theorem calls_answer (workspace : Workspace) (request : Request) :
    (workspace.answer request).2.editor.calls =
      workspace.editor.calls ++
        (Exchange.call? ⟨request, (workspace.answer request).1⟩).toList := by
  cases request with
  | document | configuration _ | startTimer _ _ | cancelTimer _ | log _ =>
      exact (List.append_nil _).symm
  | listen topic sink => rfl
  | unlisten listener => rfl
  | _ => exact calls_record _ _ _

variable {α : Type}

/-- The calls that have been recorded from some workspace on are those of the
exchanges that an interaction has gone through. -/
def Records (interaction : Interaction α) (workspace : Workspace) :
    Progress α → Prop
  | .finished result last => ∃ exchanges,
      interaction.Yields exchanges result ∧
        last.editor.calls = workspace.editor.calls ++ editorCalls exchanges
  | .waiting command _ next earlier => ∃ exchanges,
      (∀ (outcome : Outcome) rest result, (next outcome).Yields rest result →
        interaction.Yields (exchanges ++ ⟨.execute command, outcome⟩ :: rest)
          result) ∧
      earlier.editor.calls =
        workspace.editor.calls ++ editorCalls exchanges ++ [.execute command]

theorem Records.ask {request : Request}
    {next : request.Answer → Interaction α} {workspace : Workspace}
    {progress : Progress α}
    (records : Records (next (workspace.answer request).1)
      (workspace.answer request).2 progress) :
    Records (.ask request next) workspace progress := by
  cases progress with
  | finished result last =>
      obtain ⟨exchanges, yields, recorded⟩ := records
      refine ⟨_ :: exchanges, .ask yields, ?_⟩
      rw [recorded, calls_answer, List.append_assoc, ← editorCalls_cons]
  | waiting command time resumed earlier =>
      obtain ⟨exchanges, resumes, recorded⟩ := records
      refine ⟨_ :: exchanges, fun outcome rest result yields =>
        .ask (resumes outcome rest result yields), ?_⟩
      rw [recorded, calls_answer, editorCalls_cons]
      simp only [List.append_assoc]

theorem records_perform (interaction : Interaction α)
    (workspace : Workspace) :
    Records interaction workspace (workspace.perform interaction) := by
  induction interaction generalizing workspace with
  | done result => exact ⟨[], .done result, (List.append_nil _).symm⟩
  | ask request next ih =>
      cases request with
      | execute command =>
          refine ⟨[], fun _ _ _ yields => .ask yields, ?_⟩
          exact (calls_record _ _ _).trans (by rw [editorCalls]; simp)
      | _ => exact Records.ask (ih _ _)

/-- If nobody else makes calls, an interaction goes through exchanges whose
calls are all that is recorded until it ends. -/
theorem Carried.exists_yields {passes : Workspace → Workspace → Prop}
    {interaction : Interaction α} {workspace last : Workspace} {result : α}
    (carried : Carried passes result last interaction workspace)
    (silent : ∀ {before after : Workspace}, passes before after →
      after.editor.calls = before.editor.calls) :
    ∃ exchanges, interaction.Yields exchanges result ∧
      last.editor.calls = workspace.editor.calls ++ editorCalls exchanges := by
  induction carried with
  | @finished interaction workspace performed =>
      have records := records_perform interaction workspace
      rwa [performed] at records
  | @waited interaction workspace _ _ _ _ _ performed meanwhile _ ih =>
      obtain ⟨later, yields, continued⟩ := ih
      have records := records_perform interaction workspace
      rw [performed] at records
      obtain ⟨exchanges, resumes, recorded⟩ := records
      refine ⟨_, resumes _ _ _ yields, ?_⟩
      rw [continued, silent meanwhile, recorded, editorCalls_append,
        editorCalls_cons]
      simp only [List.append_assoc]
      rfl

end Workspace

end SignatureVeil
