import SignatureVeil.Proofs.Workspace.Ensures
import SignatureVeil.Proofs.Workspace.Posting

/-!
# Where messages come from

Messages are posted by the steps of the editor, also by those that hooks run
in the middle of an interaction, by timers, and by whoever holds a sink.  Each
of these posts to sinks that can be named beforehand.  What is posted to an
open channel is appended to its queue, in the order of the sinks, and nothing
else happens to the queue unless a message is taken.
-/

namespace SignatureVeil

/-- The kind of a request at which hooks can run. -/
def Request.primitive? : Request → Option Primitive
  | .createStyle _ => some .createStyle
  | .disposeStyle _ => some .disposeStyle
  | .applyDecorations _ _ => some .applyDecorations
  | .setSelections _ => some .setSelections
  | .execute command => some (.execute command)
  | _ => none

namespace Workspace

/-! ## The sinks that are posted to -/

/-- The sinks that a step of the editor posts to. -/
def sinksOfStep (workspace : Workspace) : EditorStep → List Sink
  | .fire event => workspace.sinksOf (.event event)
  | .invoke id => (Command.ofId? id).toList.flatMap fun command =>
      (workspace.sinksOf (.command command)).take 1
  | _ => []

/-- The sinks that the hooks at a request post to. -/
def sinksOfRequest (workspace : Workspace) (request : Request) : List Sink :=
  request.primitive?.toList.flatMap fun primitive =>
    (workspace.editor.takeHook primitive).1.flatMap workspace.sinksOfStep

/-- The sinks that are posted to while an interaction is carried out as far as
it goes without waiting. -/
def sinksOfInteraction {α : Type} : Interaction α → Workspace → List Sink
  | .done _, _ => []
  | .ask (.execute command) _, workspace =>
      workspace.sinksOfRequest (.execute command)
  | .ask request next, workspace =>
      workspace.sinksOfRequest request ++
        sinksOfInteraction (next (workspace.answer request).1)
          (workspace.answer request).2

/-! ## Deliveries -/

/-- Messages have been posted to some sinks, and have arrived in all channels
that are open. -/
structure Delivers (sinks : List Sink) (before after : Workspace) : Prop where
  isOpen : ∀ channel, after.isOpen channel = before.isOpen channel
  queue : ∀ channel, before.isOpen channel = true →
    after.queue channel = before.queue channel ++ messagesTo channel sinks

variable {workspace before after : Workspace} {sinks sinks' : List Sink}

theorem messagesTo_append (channel : ChannelId) (sinks sinks' : List Sink) :
    messagesTo channel (sinks ++ sinks') =
      messagesTo channel sinks ++ messagesTo channel sinks' := by
  simp only [messagesTo, List.filter_append, List.map_append]

/-- Nothing is delivered where the channels stay as they are. -/
theorem delivers_nothing (same : after.channels = before.channels) :
    Delivers [] before after := by
  constructor
  · intro channel
    rw [isOpen, same, isOpen]
  · intro channel _
    rw [queue, same, queue, messagesTo, List.filter_nil, List.map_nil,
      List.append_nil]

theorem Delivers.trans {first second third : Workspace}
    (delivers : Delivers sinks first second)
    (delivers' : Delivers sinks' second third) :
    Delivers (sinks ++ sinks') first third where
  isOpen channel := (delivers'.isOpen channel).trans (delivers.isOpen channel)
  queue channel isOpen := by
    have stillOpen := (delivers.isOpen channel).trans isOpen
    rw [delivers'.queue channel stillOpen, delivers.queue channel isOpen,
      messagesTo_append, List.append_assoc]

theorem delivers_emitAll (workspace : Workspace) (sinks : List Sink) :
    Delivers sinks workspace (workspace.emitAll sinks).2 :=
  ⟨(emitAll_same workspace sinks).isOpen,
    fun _ isOpen => queue_emitAll isOpen sinks⟩

theorem delivers_emit (workspace : Workspace) (sink : Sink) :
    Delivers [sink] workspace (workspace.emit sink).2 :=
  delivers_emitAll workspace [sink]

theorem delivers_fireTimers (workspace : Workspace) :
    Delivers (workspace.agenda.due.map Timer.sink) workspace
      workspace.fireTimers := by
  obtain ⟨-, -, isOpen, queue⟩ := fireTimers_spec workspace
  exact ⟨isOpen, queue⟩

theorem listeners_step (workspace : Workspace) (step : EditorStep) :
    (workspace.step step).editor.listeners = workspace.editor.listeners := by
  cases step with
  | fire event =>
      exact congrArg Editor.listeners (emitAll_same workspace _).editor
  | invoke id =>
      change (workspace.invoke id).2.editor.listeners = _
      unfold invoke
      split
      · rfl
      · split
        · rfl
        · exact congrArg Editor.listeners (emit_same workspace _).editor
  | _ => rfl

theorem delivers_step (workspace : Workspace) (step : EditorStep) :
    Delivers (workspace.sinksOfStep step) workspace (workspace.step step) := by
  cases step with
  | fire event => exact delivers_emitAll workspace _
  | invoke id =>
      rw [sinksOfStep]
      change Delivers _ workspace (workspace.invoke id).2
      unfold invoke
      split
      case h_1 unknown =>
        rw [unknown]
        exact delivers_nothing rfl
      case h_2 command known =>
        rw [known, Option.toList_some, List.flatMap_singleton]
        split
        case h_1 unheard =>
          rw [unheard]
          exact delivers_nothing rfl
        case h_2 sink rest heard =>
          rw [heard]
          exact delivers_emit workspace sink
  | _ => exact delivers_nothing rfl

theorem sinksOfStep_eq
    (same : after.editor.listeners = before.editor.listeners) :
    after.sinksOfStep = before.sinksOfStep := by
  funext step
  unfold sinksOfStep sinksOf
  rw [same]

/-- No step changes who listens, so the sinks of later steps are known as
well. -/
theorem delivers_steps (workspace : Workspace) (steps : List EditorStep) :
    Delivers (steps.flatMap workspace.sinksOfStep) workspace
      (workspace.steps steps) := by
  induction steps generalizing workspace with
  | nil => exact delivers_nothing rfl
  | cons step rest ih =>
      have later := ih (workspace.step step)
      rw [sinksOfStep_eq (listeners_step workspace step)] at later
      exact (delivers_step workspace step).trans later

theorem takeHook_steps (editor : Editor) (primitive : Primitive) :
    (editor.takeHook primitive).1 =
      ((editor.hooks.find? fun hook => hook.primitive = primitive).map
        Hook.steps).getD [] := by
  unfold Editor.takeHook
  split
  case h_1 none => rw [none]; rfl
  case h_2 hook found => rw [found]; rfl

theorem listeners_takeHook (editor : Editor) (primitive : Primitive) :
    (editor.takeHook primitive).2.listeners = editor.listeners := by
  unfold Editor.takeHook
  split <;> rfl

/-- What the editor does before it records a request does not matter, if it
changes neither hooks nor listeners. -/
theorem delivers_record {changed : Workspace}
    (hooks : changed.editor.hooks = workspace.editor.hooks)
    (listeners : changed.editor.listeners = workspace.editor.listeners)
    (channels : changed.channels = workspace.channels)
    (primitive : Primitive) (call : EditorCall) :
    Delivers ((workspace.editor.takeHook primitive).1.flatMap
      workspace.sinksOfStep) workspace (changed.record primitive call) := by
  let recorded : Workspace := { changed with
    editor := ((changed.editor.record call).takeHook primitive).2 }
  have moved : Delivers [] workspace recorded := delivers_nothing channels
  have delivers := delivers_steps recorded
    ((changed.editor.record call).takeHook primitive).1
  have heard : recorded.editor.listeners = workspace.editor.listeners :=
    (listeners_takeHook _ _).trans listeners
  have waiting : ((changed.editor.record call).takeHook primitive).1 =
      (workspace.editor.takeHook primitive).1 := by
    rw [takeHook_steps, takeHook_steps, ← hooks]
    rfl
  rw [sinksOfStep_eq heard] at delivers
  rw [← waiting]
  exact moved.trans delivers

theorem delivers_answer (workspace : Workspace) (request : Request) :
    Delivers (workspace.sinksOfRequest request) workspace
      (workspace.answer request).2 := by
  have recorded {primitive : Primitive} (changed : Workspace)
      (hooked : request.primitive? = some primitive)
      (hooks : changed.editor.hooks = workspace.editor.hooks)
      (listeners : changed.editor.listeners = workspace.editor.listeners)
      (channels : changed.channels = workspace.channels) (call : EditorCall) :
      Delivers (workspace.sinksOfRequest request) workspace
        (changed.record primitive call) := by
    rw [sinksOfRequest, hooked, Option.toList_some, List.flatMap_singleton]
    exact delivers_record hooks listeners channels primitive call
  cases request with
  | createStyle style => apply recorded <;> rfl
  | disposeStyle token => exact recorded _ rfl rfl rfl rfl _
  | applyDecorations token ranges => exact recorded _ rfl rfl rfl rfl _
  | setSelections selections => apply recorded <;> rfl
  | execute command => exact recorded _ rfl rfl rfl rfl _
  | _ => exact delivers_nothing rfl

/-- The workspace where an interaction stands. -/
def Progress.surroundings {α : Type} : Progress α → Workspace
  | .finished _ last => last
  | .waiting _ _ _ earlier => earlier

theorem delivers_perform {α : Type} (interaction : Interaction α)
    (workspace : Workspace) :
    Delivers (sinksOfInteraction interaction workspace) workspace
      (workspace.perform interaction).surroundings := by
  induction interaction generalizing workspace with
  | done result => exact delivers_nothing rfl
  | ask request next ih =>
      have answered := delivers_answer workspace request
      cases request with
      | execute command => exact answered
      | _ => exact answered.trans (ih _ _)

/-- Taking a message leaves the rest of the queue. -/
theorem queue_of_take? {channel : ChannelId} {message : Message}
    {left : Workspace} (isOpen : workspace.isOpen channel = true)
    (taken : workspace.take? channel = some (message, left)) :
    left.isOpen channel = true ∧
      workspace.queue channel = message :: left.queue channel := by
  obtain ⟨same, queue⟩ := take?_eq_some isOpen taken
  exact ⟨(same.isOpen channel).trans isOpen, queue⟩

/-! ## What goes on around a coordinator -/

/-- Something goes on around a coordinator, and messages are posted to some
sinks: the editor takes a step of its own, somebody posts, time passes, timers
fire, or it is noticed where something has come up. -/
inductive Moves : List Sink → Workspace → Workspace → Prop where
  | edited (workspace : Workspace) (step : EditorStep) :
      Moves (workspace.sinksOfStep step) workspace (workspace.step step)
  | posted (workspace : Workspace) (sink : Sink) :
      Moves [sink] workspace (workspace.emit sink).2
  | elapsed (workspace : Workspace) {time : Nat}
      (noEarlier : workspace.agenda.now ≤ time) :
      Moves [] workspace (workspace.setClock time)
  | fired (workspace : Workspace) :
      Moves (workspace.agenda.due.map Timer.sink) workspace
        workspace.fireTimers
  | noticed (workspace : Workspace) (woken : List ChannelId) :
      Moves [] workspace { workspace with woken }

/-- Nothing goes on but that time passes. -/
inductive Elapses : List Sink → Workspace → Workspace → Prop where
  | elapsed (workspace : Workspace) {time : Nat}
      (noEarlier : workspace.agenda.now ≤ time) :
      Elapses [] workspace (workspace.setClock time)

theorem Elapses.moves (elapses : Elapses sinks before after) :
    Moves sinks before after := by
  obtain ⟨_, noEarlier⟩ := elapses
  exact .elapsed _ noEarlier

theorem Moves.delivers (moves : Moves sinks before after) :
    Delivers sinks before after := by
  cases moves with
  | edited _ step => exact delivers_step before step
  | posted _ sink => exact delivers_emit before sink
  | elapsed _ noEarlier => exact delivers_nothing rfl
  | fired => exact delivers_fireTimers before
  | noticed => exact delivers_nothing rfl

end Workspace

end SignatureVeil
