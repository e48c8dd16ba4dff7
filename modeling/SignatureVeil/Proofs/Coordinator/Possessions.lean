import SignatureVeil.Proofs.Coordinator.Lifetime
import SignatureVeil.Proofs.Coordinator.Scheduled
import SignatureVeil.Proofs.Workspace.Holdings

/-!
# What a coordinator possesses

A coordinator knows the names of all that is held in its workspace: of every
listener that is registered, of the timer, if one runs, and of the style that
is in use.  Its operations keep it so, whatever happens while they wait.  A
coordinator that is deactivated gives everything back without waiting.
-/

namespace SignatureVeil

open Workspace

/-- The operations that deactivate a coordinator. -/
def Operation.Closes : Operation → Prop
  | .deactivate | .handle .shutdown => True
  | _ => False

/-- What stands in a workspace is known to the coordinator, and the calls have
led to a stage at which its style is in use. -/
structure Coordinator.Possesses (coordinator : Coordinator)
    (workspace : Workspace) : Prop where
  holds : Holds workspace.editor.listeners coordinator.debouncer.timer
    workspace
  listeners : coordinator.listeners =
    workspace.editor.listeners.map Listener.id
  stage : ∃ stage, TokenStage.absent.afterAll? workspace.editor.calls =
    some stage ∧ Fits coordinator stage

/-- Nothing is held in a workspace. -/
structure Workspace.Vacant (workspace : Workspace) : Prop where
  holds : Holds [] none workspace
  stage : TokenStage.absent.afterAll? workspace.editor.calls = some .absent

variable {workspace last : Workspace} {listeners : List Listener}
  {timer : Option TimerId} {coordinator changed : Coordinator}

theorem Coordinator.Possesses.spares
    (possesses : coordinator.Possesses workspace)
    (spares : Spares workspace last) : coordinator.Possesses last where
  holds := by
    rw [spares.listeners]
    exact possesses.holds.spares spares
  listeners := by rw [spares.listeners, possesses.listeners]
  stage := by
    rw [spares.calls]
    exact possesses.stage

theorem Workspace.Vacant.spares (vacant : Vacant workspace)
    (spares : Spares workspace last) : Vacant last where
  holds := vacant.holds.spares spares
  stage := by
    rw [spares.calls]
    exact vacant.stage

/-! ## Parts of an interaction -/

section

variable {α : Type} {interaction : Interaction α} {result : α}
  (carried : Carried Spares result last interaction workspace)

include carried

/-- The calls of an interaction that is carried out lead on from the stage
that has been reached. -/
theorem Workspace.Carried.exists_stage {ends : α → TokenStage → Prop}
    {stage : TokenStage}
    (reached : TokenStage.absent.afterAll? workspace.editor.calls = some stage)
    (leads : Leads ends interaction stage) :
    ∃ next, TokenStage.absent.afterAll? last.editor.calls = some next ∧
      ends result next := by
  obtain ⟨exchanges, yields, recorded⟩ :=
    carried.exists_yields fun spares => spares.calls
  obtain ⟨next, continued, fits⟩ := leads.yields yields
  refine ⟨next, ?_, fits⟩
  rw [recorded, TokenStage.afterAll?_append, reached]
  exact continued

theorem Workspace.Holds.kept (holds : Holds listeners timer workspace)
    {ends : α → Prop} (asks : interaction.Asks Request.IsVisual ends) :
    Holds listeners timer last ∧ ends result :=
  carried.preserves (Holds listeners timer)
    (fun holds visual => holds.answer visual) asks holds
    fun holds spares => holds.spares spares

end

/-! ## The timer -/

theorem Workspace.Holds.cancelled {debouncer : Debouncer}
    (holds : Holds listeners debouncer.timer workspace) :
    Holds listeners none { workspace with
      agenda := debouncer.cancelled workspace.agenda } where
  numbered := holds.numbered
  registered := holds.registered
  released := holds.released
  timers running member := by
    have own := holds.timers running (Debouncer.mem_timers_cancelled member)
    simp only [Debouncer.cancelled, own, Option.elim] at member
    exact absurd rfl (Agenda.mem_timers_cancel.mp member).2

theorem Workspace.Holds.scheduled {debouncer : Debouncer}
    (holds : Holds listeners debouncer.timer workspace) (sink : Sink)
    (log : List LogRecord) :
    Holds listeners (some workspace.agenda.nextTimer) { workspace with
      agenda := debouncer.scheduled sink workspace.agenda
      log } where
  numbered := holds.numbered
  registered := holds.registered
  released := holds.released
  timers running member := by
    rcases Agenda.mem_timers_start.mp member with earlier | rfl
    · exact nomatch holds.cancelled.timers running earlier
    · exact congrArg some (debouncer.nextTimer_cancelled workspace.agenda).symm

/-! ## Operations -/

/-- A coordinator goes on with the same channel, and no listener is registered
or released. -/
structure Coordinator.Remains (before after : Coordinator)
    (workspace last : Workspace) : Prop where
  possesses : after.Possesses last
  channel : after.channel = before.channel
  listeners : last.editor.listeners = workspace.editor.listeners

theorem Coordinator.Remains.trans {first second third : Coordinator}
    {before middle after : Workspace}
    (remains : first.Remains second before middle)
    (remains' : second.Remains third middle after) :
    first.Remains third before after where
  possesses := remains'.possesses
  channel := remains'.channel.trans remains.channel
  listeners := remains'.listeners.trans remains.listeners

section

variable {α : Type} {interaction : Interaction α} {result : α}
  (possesses : coordinator.Possesses workspace)

include possesses

theorem Coordinator.Possesses.visual {ends : α → Prop}
    (carried : Carried Spares result last interaction workspace)
    (asks : interaction.Asks Request.IsVisual ends) (who : α → Coordinator)
    (continues : ∀ result, ends result → coordinator.Continues (who result))
    (leads : ∀ stage, Fits coordinator stage →
      Leads (fun result next => Fits (who result) next) interaction stage) :
    coordinator.Remains (who result) workspace last := by
  obtain ⟨stage, reached, fits⟩ := possesses.stage
  obtain ⟨next, reached', fits'⟩ := carried.exists_stage reached
    (leads stage fits)
  obtain ⟨holds, ending⟩ := possesses.holds.kept carried asks
  have goesOn := continues result ending
  have same := holds.registered
  refine ⟨⟨?_, ?_, next, reached', fits'⟩, goesOn.channel, same⟩
  · rwa [same, goesOn.debouncer]
  · rw [goesOn.listeners, possesses.listeners, same]

/-- What makes light requests only does not concern the coordinator. -/
theorem Coordinator.Possesses.light {ends : α → Prop}
    (carried : Carried Spares result last interaction workspace)
    (asks : interaction.Asks Request.IsLight ends) :
    coordinator.Remains coordinator workspace last ∧ ends result := by
  have visual := asks.mono (fun _ light => Request.IsLight.isVisual light)
    fun _ holds => holds
  have plain := asks.mono (fun _ light => Request.IsLight.isPlain light)
    fun _ holds => holds
  refine ⟨possesses.visual carried visual (fun _ => coordinator)
    (fun _ _ => ⟨rfl, rfl, rfl⟩) fun stage fits => ?_,
    (possesses.holds.kept carried visual).2⟩
  refine (leads_of_plain plain stage).mono ?_
  rintro _ _ ⟨-, rfl⟩
  exact fits

theorem Coordinator.Possesses.scheduleHide
    (carried : Carried Spares changed last coordinator.scheduleHide
      workspace) : coordinator.Remains changed workspace last := by
  obtain ⟨log, scheduling⟩ := coordinator.debouncer.exists_perform_schedule
    ⟨.debounceElapsed, coordinator.channel⟩ workspace
  obtain ⟨debouncer, middle, scheduled, returned⟩ := carried.exists_of_bind
  obtain ⟨rfl, rfl⟩ := scheduled.of_finished scheduling
  obtain ⟨rfl, rfl⟩ := returned.of_finished rfl
  exact ⟨⟨possesses.holds.scheduled _ log, possesses.listeners,
    possesses.stage⟩, rfl, rfl⟩

theorem Coordinator.Possesses.handle {message : Message} {outcome : Outcome}
    (goesOn : message ≠ .shutdown)
    (carried : Carried Spares (changed, outcome) last
      (coordinator.handle message) workspace) :
    coordinator.Remains changed workspace last := by
  -- edits are the only messages that concern the timer
  by_cases edit : message = .documentChanged
  · subst edit
    obtain ⟨_, logged, logging, continued⟩ := carried.exists_of_bind
    obtain ⟨remains, -⟩ := possesses.light logging (asks_log _)
    obtain ⟨_, _, scheduling, returned⟩ := continued.exists_of_bind
    obtain ⟨same, rfl⟩ := returned.of_finished rfl
    obtain ⟨rfl, -⟩ := Prod.mk.inj same
    exact remains.trans (remains.possesses.scheduleHide scheduling)
  · exact possesses.visual carried (asks_handle coordinator edit goesOn)
      Prod.fst (fun _ continues => continues)
      fun stage fits => leads_handle fits message

theorem Coordinator.Possesses.operated {operation : Operation}
    (stays : ¬ operation.Closes)
    (carried : Carried Spares changed last (operation.carryOut coordinator)
      workspace) : coordinator.Remains changed workspace last := by
  cases operation with
  | handle message =>
      obtain ⟨⟨_, _⟩, _, handled, returned⟩ := carried.exists_of_bind
      obtain ⟨rfl, rfl⟩ := returned.of_finished rfl
      refine possesses.handle ?_ handled
      rintro rfl
      exact stays trivial
  | hideAndFold =>
      obtain ⟨_, _, hidden, returned⟩ := carried.exists_of_bind
      obtain ⟨rfl, rfl⟩ := returned.of_finished rfl
      exact possesses.visual hidden (asks_hideAndFold coordinator) Prod.fst
        (fun _ continues => continues) fun _ fits => leads_hideAndFold fits
  | showAndUnfold =>
      obtain ⟨_, _, shown, returned⟩ := carried.exists_of_bind
      obtain ⟨rfl, rfl⟩ := returned.of_finished rfl
      exact possesses.visual shown (asks_showAndUnfold coordinator) Prod.fst
        (fun _ continues => continues) fun _ fits => leads_showAndUnfold fits
  | scheduleHide => exact possesses.scheduleHide carried
  | deactivate => exact absurd trivial stays

/-- A message loop that goes on has handled its message and has possibly
logged a failure. -/
theorem Coordinator.Possesses.served {message : Message}
    (carried : Carried Spares (some changed) last (coordinator.serve message)
      workspace) : coordinator.Remains changed workspace last := by
  by_cases ends : message = .shutdown
  · rw [Coordinator.serve, if_pos ends] at carried
    obtain ⟨_, _, -, returned⟩ := carried.exists_of_bind
    cases (returned.of_finished rfl).1
  · rw [Coordinator.serve, if_neg ends] at carried
    obtain ⟨⟨_, outcome⟩, _, handled, continued⟩ := carried.exists_of_bind
    have remains := possesses.handle ends handled
    cases outcome with
    | ok _ =>
        obtain ⟨same, rfl⟩ := continued.of_finished rfl
        obtain rfl := Option.some.inj same
        exact remains
    | error failure =>
        obtain ⟨_, _, logging, returned⟩ := continued.exists_of_bind
        obtain ⟨same, rfl⟩ := returned.of_finished rfl
        obtain rfl := Option.some.inj same
        exact remains.trans
          (remains.possesses.light logging (asks_log _)).1

end

/-! ## Deactivation -/

theorem Workspace.Holds.exists_teardown
    (holds : Holds listeners timer workspace) (visibility : Visibility) :
    ∃ last, workspace.perform visibility.teardown = .finished ⟨none⟩ last ∧
      Holds listeners timer last := by
  obtain ⟨style⟩ := visibility
  cases style with
  | none => exact ⟨workspace, rfl, holds⟩
  | some token =>
      have visual : (Request.disposeStyle token).IsVisual := trivial
      exact ⟨_, rfl, holds.answer visual⟩

theorem Workspace.Holds.exists_unlisten
    (holds : Holds listeners timer workspace) :
    ∃ last, workspace.perform
        (Coordinator.unlisten (listeners.map Listener.id)) =
          .finished () last ∧ Holds [] timer last := by
  induction listeners generalizing workspace with
  | nil => exact ⟨workspace, rfl, holds⟩
  | cons listener rest ih => exact ih holds.unlisten

/-- The coordinator that is left of a coordinator that is deactivated. -/
def Coordinator.deactivated (coordinator : Coordinator) : Coordinator :=
  { coordinator with
    debouncer := { coordinator.debouncer with timer := none }
    visibility := ⟨none⟩
    listeners := [] }

/-- Deactivating a coordinator again does nothing. -/
theorem Coordinator.deactivate_deactivated (coordinator : Coordinator) :
    coordinator.deactivated.deactivate = .done coordinator.deactivated :=
  rfl

/-- A coordinator is deactivated at once, and nothing is held any more. -/
theorem Workspace.Holds.exists_deactivate
    (holds : Holds listeners coordinator.debouncer.timer workspace)
    (own : coordinator.listeners = listeners.map Listener.id) :
    ∃ last, workspace.perform coordinator.deactivate =
        .finished coordinator.deactivated last ∧ Holds [] none last := by
  obtain ⟨torn, tearing, holds⟩ :=
    holds.cancelled.exists_teardown coordinator.visibility
  -- whether the end is logged does not matter to what is held
  have closing {workspace : Workspace}
      (holds : Holds listeners none workspace) :
      ∃ last, workspace.perform (do
          Coordinator.unlisten coordinator.listeners
          return coordinator.deactivated) =
        .finished coordinator.deactivated last ∧ Holds [] none last := by
    obtain ⟨last, unlistening, holds⟩ := holds.exists_unlisten
    refine ⟨last, ?_, holds⟩
    rw [perform_bind, own, unlistening]
    rfl
  rw [Coordinator.deactivate, perform_bind, Debouncer.perform_cancel,
    Progress.bind, perform_bind, tearing, Progress.bind]
  change ∃ last, Workspace.perform
    (if coordinator.listeners.isEmpty = true then _ else _) _ = _ ∧ _
  split
  · exact closing holds
  · have visual : (Request.log .deactivated).IsVisual := trivial
    exact closing (holds.answer visual)

section

variable (possesses : coordinator.Possesses workspace)

include possesses

theorem Coordinator.Possesses.deactivated
    (carried : Carried Spares changed last coordinator.deactivate workspace) :
    changed = coordinator.deactivated ∧ Vacant last := by
  obtain ⟨stage, reached, fits⟩ := possesses.stage
  obtain ⟨_, absent, -, rfl⟩ := carried.exists_stage reached
    (leads_deactivate fits)
  obtain ⟨_, performed, holds⟩ :=
    possesses.holds.exists_deactivate possesses.listeners
  obtain ⟨rfl, rfl⟩ := carried.of_finished performed
  exact ⟨rfl, holds, absent⟩

theorem Coordinator.Possesses.shutDown {outcome : Outcome}
    (carried : Carried Spares (changed, outcome) last
      (coordinator.handle .shutdown) workspace) :
    changed = coordinator.deactivated ∧ Vacant last := by
  obtain ⟨_, _, logging, continued⟩ := carried.exists_of_bind
  obtain ⟨remains, -⟩ := possesses.light logging (asks_log _)
  obtain ⟨_, _, deactivating, returned⟩ := continued.exists_of_bind
  obtain ⟨same, rfl⟩ := returned.of_finished rfl
  obtain ⟨rfl, -⟩ := Prod.mk.inj same
  exact remains.possesses.deactivated deactivating

/-- A message loop that ends has deactivated its coordinator. -/
theorem Coordinator.Possesses.ended {message : Message}
    (carried : Carried Spares none last (coordinator.serve message)
      workspace) : Vacant last := by
  by_cases ends : message = .shutdown
  · rw [Coordinator.serve, if_pos ends] at carried
    obtain ⟨_, _, deactivating, returned⟩ := carried.exists_of_bind
    obtain ⟨-, rfl⟩ := returned.of_finished rfl
    exact (possesses.deactivated deactivating).2
  · rw [Coordinator.serve, if_neg ends] at carried
    obtain ⟨⟨_, outcome⟩, _, -, continued⟩ := carried.exists_of_bind
    cases outcome with
    | ok _ => cases (continued.of_finished rfl).1
    | error failure =>
        obtain ⟨_, _, -, returned⟩ := continued.exists_of_bind
        cases (returned.of_finished rfl).1

end

/-! ## Activation -/

theorem Workspace.Holds.exists_listenTo
    (holds : Holds listeners timer workspace) (channel : ChannelId)
    (topics : List (Topic × Message)) :
    ∃ added last, workspace.perform (Coordinator.listenTo channel topics) =
        .finished (added.map Listener.id) last ∧
      Holds (listeners ++ added) timer last ∧
      added.map Listener.subscription =
        topics.map fun pair => (pair.1, ⟨pair.2, channel⟩) := by
  induction topics generalizing workspace listeners with
  | nil => exact ⟨[], workspace, rfl, by rwa [List.append_nil], rfl⟩
  | cons pair rest ih =>
      obtain ⟨topic, message⟩ := pair
      obtain ⟨added, last, performed, holds, subscribed⟩ :=
        ih (holds.listen topic ⟨message, channel⟩)
      rw [List.append_assoc, List.singleton_append] at holds
      refine ⟨_, last, ?_, holds, ?_⟩
      · change Workspace.perform (Coordinator.listenTo channel rest >>= _)
          (workspace.answer (.listen topic ⟨message, channel⟩)).2 = _
        rw [perform_bind, performed]
        rfl
      · rw [List.map_cons, List.map_cons, subscribed]
        rfl

/-- What is registered when a coordinator listens to all topics. -/
def subscriptions (channel : ChannelId) : List (Topic × Sink) :=
  Coordinator.topics.map fun pair => (pair.1, ⟨pair.2, channel⟩)

/-- A coordinator listens to all topics and to nothing else. -/
def Coordinator.Attends (coordinator : Coordinator) (workspace : Workspace) :
    Prop :=
  workspace.editor.listeners.map Listener.subscription =
    subscriptions coordinator.channel

theorem Coordinator.Remains.attends
    (remains : coordinator.Remains changed workspace last)
    (attends : coordinator.Attends workspace) : changed.Attends last := by
  rw [Coordinator.Attends, remains.listeners, remains.channel]
  exact attends

/-- A coordinator that listens to all topics and has done nothing else. -/
theorem Workspace.Vacant.listening {channel : ChannelId}
    {names : List ListenerId} (vacant : Vacant workspace)
    (carried : Carried Spares names last
      (Coordinator.listenTo channel Coordinator.topics) workspace) :
    Coordinator.Possesses { channel, listeners := names } last ∧
      Coordinator.Attends { channel, listeners := names } last := by
  have listening : (Coordinator.listenTo channel Coordinator.topics).Asks
      Request.IsPlain fun _ => True := asks_listenTo fun _ _ => trivial
  obtain ⟨_, reached, -, rfl⟩ :=
    carried.exists_stage vacant.stage (leads_of_plain listening .absent)
  obtain ⟨added, _, performed, holds, subscribed⟩ :=
    vacant.holds.exists_listenTo channel Coordinator.topics
  obtain ⟨rfl, rfl⟩ := carried.of_finished performed
  rw [List.nil_append] at holds
  have same := holds.registered
  refine ⟨⟨?_, ?_, .absent, reached, rfl⟩, ?_⟩
  · rwa [same]
  · rw [same]
  · rwa [Coordinator.Attends, same]

/-- An activation that succeeds leaves the coordinator with all that is held
and listening to all topics.  If it fails, nothing is held. -/
def Workspace.Attended (workspace : Workspace) :
    Except Failure Coordinator → Prop
  | .error _ => Vacant workspace
  | .ok coordinator =>
      coordinator.Possesses workspace ∧ coordinator.Attends workspace

theorem Coordinator.Possesses.concluded {outcome : Outcome}
    {result : Except Failure Coordinator}
    (possesses : coordinator.Possesses workspace)
    (attends : coordinator.Attends workspace)
    (carried : Carried Spares result last (coordinator.conclude outcome)
      workspace) : Attended last result := by
  cases outcome with
  | error failure =>
      obtain ⟨_, _, deactivating, returned⟩ := carried.exists_of_bind
      obtain ⟨rfl, rfl⟩ := returned.of_finished rfl
      exact (possesses.deactivated deactivating).2
  | ok _ =>
      obtain ⟨_, _, logging, returned⟩ := carried.exists_of_bind
      obtain ⟨rfl, rfl⟩ := returned.of_finished rfl
      obtain ⟨remains, -⟩ := possesses.light logging (asks_log _)
      exact ⟨remains.possesses, remains.attends attends⟩

theorem Workspace.Vacant.activated {channel : ChannelId}
    {result : Except Failure Coordinator} (vacant : Vacant workspace)
    (carried : Carried Spares result last (Coordinator.activate channel)
      workspace) : Attended last result := by
  obtain ⟨names, _, listening, continued⟩ := carried.exists_of_bind
  obtain ⟨possesses, attends⟩ := vacant.listening listening
  obtain ⟨shown, asked, asking, continued⟩ := continued.exists_of_bind
  obtain ⟨-, rfl⟩ := asking.of_finished rfl
  let initial : Coordinator := { channel, listeners := names }
  cases shown with
  | none =>
      have concluding : Carried Spares result last
        (initial.conclude (.ok ())) asked := continued
      exact possesses.concluded attends concluding
  | some document =>
      obtain ⟨_, _, hidden, concluding⟩ := continued.exists_of_bind
      have remains := possesses.visual hidden (asks_hideAndFold initial)
        Prod.fst (fun _ continues => continues)
        fun _ fits => leads_hideAndFold fits
      exact remains.possesses.concluded (remains.attends attends) concluding

end SignatureVeil
