import SignatureVeil.Proofs.Workspace.Carrying
import SignatureVeil.Proofs.Workspace.Posting

/-!
# Who announces that a quiet period is over

The end of a quiet period is announced by timers alone.  No listener posts it,
and as long as nobody asks for a timer, whatever the editor and an interaction
do appends other messages to a channel and changes nothing else about it.
-/

namespace SignatureVeil

/-- Whether a request leaves the timers alone and does not have the end of a
quiet period announced by anyone else. -/
def Request.IsCalm : Request → Prop
  | .startTimer _ _ | .cancelTimer _ => False
  | .listen _ sink => sink.message ≠ .debounceElapsed
  | _ => True

theorem Request.IsVisual.isCalm {request : Request}
    (visual : request.IsVisual) : request.IsCalm := by
  cases request <;> trivial

namespace Workspace

/-- A channel is open, and no listener announces in it that a quiet period is
over. -/
structure Awaits (channel : ChannelId) (workspace : Workspace) : Prop where
  isOpen : workspace.isOpen channel = true
  silent : ∀ listener ∈ workspace.editor.listeners,
    listener.sink.channel = channel →
      listener.sink.message ≠ .debounceElapsed

structure Calm (channel : ChannelId) (before after : Workspace) : Prop where
  awaits : Awaits channel after
  agenda : after.agenda = before.agenda
  queue : ∃ more, after.queue channel = before.queue channel ++ more ∧
    .debounceElapsed ∉ more

variable {channel : ChannelId} {workspace first second third : Workspace}

theorem Awaits.of_same (awaits : Awaits channel first)
    (isOpen : second.isOpen channel = first.isOpen channel)
    (editor : second.editor = first.editor) : Awaits channel second where
  isOpen := isOpen.trans awaits.isOpen
  silent := by
    rw [editor]
    exact awaits.silent

theorem Awaits.fireTimers (awaits : Awaits channel workspace) :
    Awaits channel workspace.fireTimers := by
  obtain ⟨editor, -, isOpen, -⟩ := fireTimers_spec workspace
  exact awaits.of_same (isOpen channel) editor

theorem Calm.refl (awaits : Awaits channel workspace) :
    Calm channel workspace workspace :=
  ⟨awaits, rfl, [], (List.append_nil _).symm, List.not_mem_nil⟩

theorem Calm.trans (calm : Calm channel first second)
    (calm' : Calm channel second third) : Calm channel first third := by
  obtain ⟨more, queue, other⟩ := calm.queue
  obtain ⟨more', queue', other'⟩ := calm'.queue
  refine ⟨calm'.awaits, calm'.agenda.trans calm.agenda, more ++ more', ?_, ?_⟩
  · rw [queue', queue, List.append_assoc]
  · rw [List.mem_append]
    exact not_or.mpr ⟨other, other'⟩

theorem calm_of_listeners (awaits : Awaits channel workspace) (editor : Editor)
    (listeners : ∀ listener ∈ editor.listeners,
      listener ∈ workspace.editor.listeners) :
    Calm channel workspace { workspace with editor } :=
  ⟨⟨awaits.isOpen, fun listener listed =>
      awaits.silent listener (listeners listener listed)⟩,
    rfl, [], (List.append_nil _).symm, List.not_mem_nil⟩

theorem calm_emitAll (awaits : Awaits channel workspace) {sinks : List Sink}
    (other : ∀ sink ∈ sinks, sink.channel = channel →
      sink.message ≠ .debounceElapsed) :
    Calm channel workspace (workspace.emitAll sinks).2 := by
  have same := emitAll_same workspace sinks
  refine ⟨awaits.of_same (same.isOpen channel) same.editor, same.agenda,
    messagesTo channel sinks, queue_emitAll awaits.isOpen sinks, ?_⟩
  intro posted
  exact other _ (mem_messagesTo.mp posted) rfl rfl

theorem calm_emit (awaits : Awaits channel workspace) {sink : Sink}
    (other : sink.channel = channel → sink.message ≠ .debounceElapsed) :
    Calm channel workspace (workspace.emit sink).2 := by
  have posted : Calm channel workspace (workspace.emitAll [sink]).2 := by
    apply calm_emitAll awaits
    intro single member
    obtain rfl := List.mem_singleton.mp member
    exact other
  exact posted

theorem Awaits.sinksOf (awaits : Awaits channel workspace) (topic : Topic) :
    ∀ sink ∈ workspace.sinksOf topic, sink.channel = channel →
      sink.message ≠ .debounceElapsed := by
  intro sink member here
  simp only [Workspace.sinksOf, List.mem_map, List.mem_filter,
    decide_eq_true_eq] at member
  obtain ⟨listener, ⟨listed, -⟩, rfl⟩ := member
  exact awaits.silent listener listed here

theorem calm_step (awaits : Awaits channel workspace) (step : EditorStep) :
    Calm channel workspace (workspace.step step) := by
  cases step with
  | fire event => exact calm_emitAll awaits (awaits.sinksOf (.event event))
  | invoke id =>
      change Calm channel workspace (workspace.invoke id).2
      unfold invoke
      split
      · exact .refl awaits
      · rename_i command _
        split
        · exact .refl awaits
        · rename_i sink rest sinks
          exact calm_emit awaits
            (awaits.sinksOf (.command command) sink (by simp [sinks]))
  | _ => exact calm_of_listeners awaits _ fun _ listed => listed

theorem calm_steps (awaits : Awaits channel workspace)
    (steps : List EditorStep) :
    Calm channel workspace (workspace.steps steps) := by
  induction steps generalizing workspace with
  | nil => exact .refl awaits
  | cons step rest ih =>
      have first := calm_step awaits step
      exact first.trans (ih first.awaits)

theorem calm_record (awaits : Awaits channel workspace)
    (primitive : Primitive) (call : EditorCall) :
    Calm channel workspace (workspace.record primitive call) := by
  have recorded : Calm channel workspace { workspace with
      editor := ((workspace.editor.record call).takeHook primitive).2 } := by
    apply calm_of_listeners awaits
    simp only [Editor.takeHook]
    split <;> exact fun _ listed => listed
  exact recorded.trans (calm_steps recorded.awaits _)

theorem calm_answer (awaits : Awaits channel workspace) {request : Request}
    (calm : request.IsCalm) :
    Calm channel workspace (workspace.answer request).2 := by
  cases request with
  | document => exact .refl awaits
  | configuration name => exact .refl awaits
  | createStyle style =>
      have counted := calm_of_listeners awaits { workspace.editor with
        nextToken := workspace.editor.nextToken + 1 } fun _ listed => listed
      exact counted.trans (calm_record counted.awaits _ _)
  | disposeStyle token => exact calm_record awaits _ _
  | applyDecorations token ranges => exact calm_record awaits _ _
  | setSelections selections =>
      have selected := calm_of_listeners awaits
        (workspace.editor.select selections) fun _ listed => listed
      exact selected.trans (calm_record selected.awaits _ _)
  | execute command => exact calm_record awaits _ _
  | listen topic sink =>
      refine ⟨⟨awaits.isOpen, ?_⟩, rfl, [], (List.append_nil _).symm,
        List.not_mem_nil⟩
      intro listener listed
      rcases List.mem_append.mp listed with earlier | new
      · exact awaits.silent listener earlier
      · obtain rfl := List.mem_singleton.mp new
        exact fun _ => calm
  | unlisten listener =>
      exact calm_of_listeners awaits _ fun other listed =>
        (List.mem_filter.mp listed).1
  | startTimer delay sink => exact absurd calm id
  | cancelTimer timer => exact absurd calm id
  | log entry =>
      exact ⟨⟨awaits.isOpen, awaits.silent⟩, rfl, [],
        (List.append_nil _).symm, List.not_mem_nil⟩

variable {α : Type} {interaction : Interaction α} {ends : α → Prop}

/-- Everything has been calm where an interaction stands, and will be when it
goes on. -/
def StandsCalm (channel : ChannelId) (ends : α → Prop)
    (workspace : Workspace) : Progress α → Prop
  | .finished result last => Calm channel workspace last ∧ ends result
  | .waiting _ _ next earlier => Calm channel workspace earlier ∧
      ∀ outcome, (next outcome).Asks Request.IsCalm ends

theorem StandsCalm.of_calm {progress : Progress α}
    (stands : StandsCalm channel ends second progress)
    (calm : Calm channel first second) :
    StandsCalm channel ends first progress := by
  cases progress with
  | finished result last => exact ⟨calm.trans stands.1, stands.2⟩
  | waiting command time next earlier =>
      exact ⟨calm.trans stands.1, stands.2⟩

theorem standsCalm_perform (asks : interaction.Asks Request.IsCalm ends)
    (awaits : Awaits channel workspace) :
    StandsCalm channel ends workspace (workspace.perform interaction) := by
  induction interaction generalizing workspace with
  | done result => exact ⟨.refl awaits, asks⟩
  | ask request next ih =>
      obtain ⟨here, continues⟩ := asks
      have answered := calm_answer awaits here
      cases request with
      | execute command => exact ⟨answered, continues⟩
      | _ => exact (ih _ (continues _) answered.awaits).of_calm answered

/-- A property that is kept by everything calm and by what passes meanwhile is
kept by an interaction that makes calm requests. -/
theorem Carried.keeps {passes : Workspace → Workspace → Prop}
    {holds : Workspace → Prop} {last : Workspace} {result : α}
    (carried : Carried passes result last interaction workspace)
    (asks : interaction.Asks Request.IsCalm ends) (start : holds workspace)
    (awaits : ∀ {before}, holds before → Awaits channel before)
    (calmly : ∀ {before after}, holds before → Calm channel before after →
      holds after)
    (passing : ∀ {before after}, holds before → passes before after →
      holds after) :
    holds last ∧ ends result :=
  carried.preserves holds
    (fun start calm => calmly start (calm_answer (awaits start) calm)) asks
    start passing

end Workspace

end SignatureVeil
