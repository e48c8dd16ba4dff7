import SignatureVeil.Proofs.Coordinator.Possessions

/-!
# Operations that are interrupted

An operation that waits for a command can be given up there.  What it has left
to do makes light requests only, and the coordinator that it would return is
the one that is there already.  If it went on undisturbed it would leave what
is held as it is.  So that coordinator possesses what is held while the
operation waits.
-/

namespace SignatureVeil

open Interaction

namespace Workspace

variable {workspace before after : Workspace}

/-! ## Light requests -/

/-- Two workspaces do not differ in what is held, nor in how it has come to be
held. -/
structure Alike (before after : Workspace) : Prop where
  created : createdTokens after.editor.calls =
    createdTokens before.editor.calls
  registered : registeredListeners after.editor.calls =
    registeredListeners before.editor.calls
  released : releasedListeners after.editor.calls =
    releasedListeners before.editor.calls
  stage : TokenStage.absent.afterAll? after.editor.calls =
    TokenStage.absent.afterAll? before.editor.calls
  listeners : after.editor.listeners = before.editor.listeners
  nextToken : after.editor.nextToken = before.editor.nextToken
  nextListener : after.editor.nextListener = before.editor.nextListener
  agenda : after.agenda = before.agenda

theorem Alike.refl (workspace : Workspace) : Alike workspace workspace :=
  ⟨rfl, rfl, rfl, rfl, rfl, rfl, rfl, rfl⟩

theorem Alike.trans {first second third : Workspace}
    (alike : Alike first second) (alike' : Alike second third) :
    Alike first third where
  created := alike'.created.trans alike.created
  registered := alike'.registered.trans alike.registered
  released := alike'.released.trans alike.released
  stage := alike'.stage.trans alike.stage
  listeners := alike'.listeners.trans alike.listeners
  nextToken := alike'.nextToken.trans alike.nextToken
  nextListener := alike'.nextListener.trans alike.nextListener
  agenda := alike'.agenda.trans alike.agenda

/-- What is recorded of a light request. -/
theorem calls_of_light (workspace : Workspace) {request : Request}
    (light : request.IsLight) :
    createdTokens (workspace.answeredCalls request) = [] ∧
      registeredListeners (workspace.answeredCalls request) = [] ∧
      releasedListeners (workspace.answeredCalls request) = [] ∧
      ∀ stage : TokenStage,
        stage.afterAll? (workspace.answeredCalls request) = some stage := by
  cases request with
  | document | configuration _ | setSelections _ | execute _ | log _ =>
      exact ⟨rfl, rfl, rfl, fun _ => rfl⟩
  | _ => exact absurd light id

theorem agenda_of_light (workspace : Workspace) {request : Request}
    (light : request.IsLight) :
    (workspace.answer request).2.agenda = workspace.agenda := by
  cases request with
  | setSelections _ | execute _ => exact (still_record _ _ _).agenda
  | document | configuration _ | log _ => rfl
  | _ => exact absurd light id

theorem alike_answer (workspace : Workspace) {request : Request}
    (light : request.IsLight) :
    Alike workspace (workspace.answer request).2 := by
  obtain ⟨createsNone, registersNone, releasesNone, stays⟩ :=
    calls_of_light workspace light
  have tokens := gives_token workspace request
  have listeners := gives_listener workspace request
  rw [createsNone] at tokens
  rw [registersNone] at listeners
  have calls := workspace.calls_answer request
  rw [← answeredCalls] at calls
  refine ⟨?_, ?_, ?_, ?_, (keeps_answer light.isVisual workspace).1,
    tokens.same, listeners.same, agenda_of_light workspace light⟩ <;> rw [calls]
  · rw [createdTokens, List.filterMap_append, ← createdTokens,
      ← createdTokens, createsNone, List.append_nil]
  · rw [registeredListeners_append, registersNone, List.append_nil]
  · rw [releasedListeners_append, releasesNone, List.append_nil]
  · simp only [TokenStage.afterAll?_append, stays, Option.bind_fun_some]

variable {α : Type} {interaction : Interaction α} {ends : α → Prop}

/-- What makes light requests only can be carried out undisturbed. -/
theorem exists_undisturbed (asks : interaction.Asks Request.IsLight ends)
    (workspace : Workspace) : ∃ result last,
      Carried Spares result last interaction workspace ∧
        Alike workspace last ∧ ends result := by
  induction interaction generalizing workspace with
  | done result => exact ⟨result, workspace, .finished rfl, .refl _, asks⟩
  | ask request next ih =>
      have alike := alike_answer workspace asks.1
      obtain ⟨result, last, carried, alike', ending⟩ :=
        ih (workspace.answer request).1 (asks.2 _) (workspace.answer request).2
      refine ⟨result, last, ?_, alike.trans alike', ending⟩
      cases request with
      | execute command => exact .waited rfl (Still.refl _).spares carried
      | _ => exact carried.of_perform rfl

end Workspace

open Workspace

variable {workspace last : Workspace} {coordinator changed : Coordinator}

theorem Coordinator.Possesses.of_alike
    (possesses : coordinator.Possesses last) (alike : Alike workspace last) :
    coordinator.Possesses workspace := by
  obtain ⟨⟨numbered, -, perm, timers⟩, listeners, stage⟩ := possesses
  refine ⟨⟨⟨?_, ?_, ?_, ?_⟩, rfl, ?_, ?_⟩, ?_, ?_⟩
  · rw [← alike.created]
    exact numbered.created
  · rw [← alike.created, ← alike.nextToken]
    exact numbered.tokens
  · rw [← alike.registered]
    exact numbered.registered
  · rw [← alike.registered, ← alike.nextListener]
    exact numbered.listeners
  · rw [← alike.registered, ← alike.released, ← alike.listeners]
    exact perm
  · rw [← alike.agenda]
    exact timers
  · rw [← alike.listeners]
    exact listeners
  · rw [← alike.stage]
    exact stage

/-! ## Operations -/

/-- What is left of an interaction when it waits makes light requests only,
and it is settled by then to what the result leads. -/
def Interaction.Settles {α β : Type} (who : α → β) : Interaction α → Prop
  | .done _ => True
  | .ask (.execute _) next => ∃ settled, ∀ outcome,
      (next outcome).Asks Request.IsLight fun result => who result = settled
  | .ask _ next => ∀ answer, (next answer).Settles who

section

variable {α β γ : Type} {who : α → β} {interaction : Interaction α}

theorem settles_of_light {settled : β}
    (asks : interaction.Asks Request.IsLight fun result =>
      who result = settled) : interaction.Settles who := by
  induction interaction with
  | done result => trivial
  | ask request next ih =>
      cases request with
      | execute command => exact ⟨settled, asks.2⟩
      | _ => exact fun answer => ih answer (asks.2 answer)

theorem settles_of_prompt {ends : α → Prop}
    (asks : interaction.Asks Request.IsPrompt ends) :
    interaction.Settles who := by
  induction interaction with
  | done result => trivial
  | ask request next ih =>
      cases request with
      | execute command => exact absurd rfl (asks.1 command)
      | _ => exact fun answer => ih answer (asks.2 answer)

/-- Prompt requests may precede an interaction. -/
theorem settles_after {first : Interaction γ} {next : γ → Interaction α}
    {ends : γ → Prop} (asks : first.Asks Request.IsPrompt ends)
    (settles : ∀ result, ends result → (next result).Settles who) :
    (first >>= next).Settles who := by
  induction first with
  | done result => exact settles result asks
  | ask request answered ih =>
      cases request with
      | execute command => exact absurd rfl (asks.1 command)
      | _ => exact fun answer => ih answer (asks.2 answer)

theorem settles_map (settles : interaction.Settles who) :
    (interaction >>= fun result => .done (who result)).Settles id := by
  induction interaction with
  | done result => trivial
  | ask request next ih =>
      cases request with
      | execute command =>
          obtain ⟨settled, asks⟩ := settles
          exact ⟨settled, fun outcome => (asks outcome).bind
            fun _ same => same⟩
      | _ => exact fun answer => ih answer (settles answer)

theorem settled_of_waiting {earlier : Workspace} {command : EditorCommand}
    {time : Nat} {next : Outcome → Interaction α}
    (settles : interaction.Settles who)
    (performed : workspace.perform interaction =
      .waiting command time next earlier) : ∃ settled, ∀ outcome,
    (next outcome).Asks Request.IsLight fun result => who result = settled := by
  induction interaction generalizing workspace with
  | done result => cases performed
  | ask request answered ih =>
      cases request with
      | execute command =>
          cases performed
          exact settles
      | _ => exact ih _ (settles _) performed

theorem Workspace.Halted.exists_settled
    {passes : Workspace → Workspace → Prop} {rest : Outcome → Interaction α}
    (halted : Halted passes rest last interaction workspace)
    (settles : interaction.Settles who) : ∃ settled, ∀ outcome,
      (rest outcome).Asks Request.IsLight fun result =>
        who result = settled := by
  induction halted with
  | waiting performed _ => exact settled_of_waiting settles performed
  | resumed performed _ _ ih =>
      obtain ⟨_, asks⟩ := settled_of_waiting settles performed
      exact ih (settles_of_light (asks _))

end

theorem prompt_of_drawing {α : Type} {interaction : Interaction α}
    {ends : α → Prop} (asks : interaction.Asks Request.IsDrawing ends) :
    interaction.Asks Request.IsPrompt ends := by
  refine asks.mono ?_ fun _ holds => holds
  rintro _ drawing command rfl
  exact drawing

theorem settles_hideAndFold (coordinator : Coordinator) :
    coordinator.hideAndFold.Settles Prod.fst := by
  apply settles_after (prompt_of_drawing (draws_hide coordinator))
  rintro ⟨hidden, failure | _⟩ -
  · trivial
  apply settles_after (prompt_of_drawing
    (draws_of_inquiry inquires_settings))
  intro settings _ shown
  exact settles_of_light ((asks_foldBlocks shown settings).bind
    fun _ _ => rfl)

theorem settles_showAndUnfold (coordinator : Coordinator) :
    coordinator.showAndUnfold.Settles Prod.fst := by
  intro shown
  apply settles_after (prompt_of_drawing
    (draws_of_inquiry (inquires_target shown)))
  rintro (_ | document) -
  · trivial
  apply settles_after (prompt_of_drawing
    (draws_of_inquiry inquires_settings))
  intro settings _
  apply settles_after (prompt_of_drawing
    (draws_restyle coordinator.visibility settings))
  intro token _
  simp only []
  split
  · exact ⟨_, fun _ => rfl⟩
  · trivial

theorem prompt_scheduleHide (coordinator : Coordinator) :
    coordinator.scheduleHide.Asks Request.IsPrompt
      fun changed => changed.visibility = coordinator.visibility :=
  asks_scheduleHide (fun _ => nofun) (fun _ => nofun) fun _ _ => nofun

theorem settles_handle (coordinator : Coordinator) {message : Message}
    (goesOn : message ≠ .shutdown) :
    (coordinator.handle message).Settles Prod.fst := by
  apply settles_after (prompt_of_drawing (draws_of_inquiry (inquires_log _)))
  intro _ _
  cases message with
  | activeEditorChanged => exact settles_hideAndFold coordinator
  | documentChanged =>
      exact settles_after (prompt_scheduleHide coordinator) fun _ _ => trivial
  | command given =>
      cases given with
      | hideSignatures => exact settles_hideAndFold coordinator
      | showSignatures => exact settles_showAndUnfold coordinator
  | debounceElapsed =>
      exact settles_of_prompt (prompt_of_drawing (draws_hide coordinator))
  | shutdown => exact absurd rfl goesOn

theorem settles_carryOut {operation : Operation}
    (stays : ¬ operation.Closes) (coordinator : Coordinator) :
    (operation.carryOut coordinator).Settles id := by
  cases operation with
  | handle message =>
      refine settles_map (settles_handle coordinator ?_)
      rintro rfl
      exact stays trivial
  | hideAndFold => exact settles_map (settles_hideAndFold coordinator)
  | showAndUnfold => exact settles_map (settles_showAndUnfold coordinator)
  | scheduleHide =>
      exact settles_of_prompt (prompt_scheduleHide coordinator)
  | deactivate => exact absurd trivial stays

/-- An operation is interrupted while it waits.  Whatever it has left to do,
the coordinator that it would return is the one that is left. -/
def Operation.Interrupted (operation : Operation)
    (coordinator changed : Coordinator) (workspace last : Workspace) : Prop :=
  ∃ rest, Halted Spares rest last (operation.carryOut coordinator) workspace ∧
    ∀ outcome, (rest outcome).Asks Request.IsLight
      fun result => result = changed

/-- Wherever an operation waits, there is a coordinator that is left. -/
theorem Workspace.Halted.exists_interrupted {operation : Operation}
    {rest : Outcome → Interaction Coordinator} (stays : ¬ operation.Closes)
    (halted : Halted Spares rest last (operation.carryOut coordinator)
      workspace) :
    ∃ changed, operation.Interrupted coordinator changed workspace last := by
  obtain ⟨changed, settled⟩ :=
    halted.exists_settled (settles_carryOut stays coordinator)
  exact ⟨changed, rest, halted, settled⟩

theorem Coordinator.Possesses.interrupted {operation : Operation}
    (possesses : coordinator.Possesses workspace)
    (stays : ¬ operation.Closes)
    (interrupted : operation.Interrupted coordinator changed workspace last) :
    coordinator.Remains changed workspace last := by
  obtain ⟨rest, halted, settled⟩ := interrupted
  -- had the operation gone on undisturbed, it would have ended well, and all
  -- that it had left to do changes nothing
  obtain ⟨_, final, carried, alike, rfl⟩ := halted.exists_carried
    fun outcome => exists_undisturbed (settled outcome) last
  have remains := possesses.operated stays carried
  exact ⟨remains.possesses.of_alike alike, remains.channel,
    alike.listeners.symm.trans remains.listeners⟩

end SignatureVeil
