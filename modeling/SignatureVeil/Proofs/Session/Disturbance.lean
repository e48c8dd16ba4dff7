import Mathlib.Logic.Relation
import SignatureVeil.Coordinator.Basic
import SignatureVeil.Proofs.Workspace.Display
import SignatureVeil.Proofs.Workspace.Posting
import SignatureVeil.Proofs.Workspace.Timers

/-!
# What happens around a coordinator

While a coordinator waits, and at every request that it makes, the user may
edit and switch documents, and commands of the editor may begin to fail.  Time
passes, timers run out, and messages are posted.  None of this touches what is
drawn, and whatever changes the text that is shown leaves a message behind in
the channel of the coordinator.
-/

namespace SignatureVeil

/-- A message that neither shows signatures nor shuts down. -/
def Message.IsWork (message : Message) : Prop :=
  message ≠ .command .showSignatures ∧ message ≠ .shutdown

/-- Something that can happen in the editor at any time. -/
inductive Disturbance where
  | edit (text : String)
  /-- The user switches to another document, or to none. -/
  | switch (document : Option Document)
  | hide
  | select (selections : List Selection)
  /-- These commands fail from now on, and no others. -/
  | fail (commands : List EditorCommand)

def Disturbance.steps : Disturbance → List EditorStep
  | .edit text => [.setText text, .fire .documentChanged]
  | .switch document => [.focus document, .fire .activeEditorChanged]
  | .hide => [.invoke (Command.id .hideSignatures)]
  | .select selections => [.select selections]
  | .fail commands => [.failOn (commands.map .execute)]

namespace Workspace

/-- One thing that happens around a coordinator. -/
inductive Happens : Workspace → Workspace → Prop where
  | disturb (workspace : Workspace) (disturbance : Disturbance) :
      Happens workspace (workspace.steps disturbance.steps)
  | post (workspace : Workspace) (sink : Sink) (work : sink.message.IsWork) :
      Happens workspace (workspace.emit sink).2
  | clock (workspace : Workspace) {time : Nat}
      (later : workspace.agenda.now ≤ time) :
      Happens workspace (workspace.setClock time)
  | timers (workspace : Workspace) : Happens workspace workspace.fireTimers

/-- What happens between two turns of a coordinator. -/
abbrev Passes : Workspace → Workspace → Prop :=
  Relation.ReflTransGen Happens

/-- Signatures are to be hidden, nothing but commands of the editor can fail,
and all hooks are made of disturbances. -/
structure Obliging (editor : Editor) : Prop where
  enabled : (Settings.ofSection
    (editor.sectionNamed configurationSection)).1.enabled = true
  failing : ∀ primitive ∈ editor.failing,
    ∃ command, primitive = .execute command
  hooks : ∀ hook ∈ editor.hooks, ∃ disturbances : List Disturbance,
    hook.steps = disturbances.flatMap Disturbance.steps

/-- A coordinator listens at a channel, and nobody else posts to it. -/
structure Wired (channel : ChannelId) (workspace : Workspace) : Prop
    extends Obliging workspace.editor where
  isOpen : workspace.isOpen channel = true
  listens : ∀ event : EditorEvent,
    ⟨event.message, channel⟩ ∈ workspace.sinksOf (.event event)
  posts : ∀ listener ∈ workspace.editor.listeners,
    listener.sink.channel = channel →
      (listener.topic, listener.sink.message) ∈ Coordinator.topics
  work : ∀ message ∈ workspace.queue channel, message.IsWork
  timers : ∀ timer ∈ workspace.agenda.timers,
    timer.sink.channel = channel → timer.sink.message = .debounceElapsed

/-- A message waits in a channel, or a timer will post one. -/
def Busy (channel : ChannelId) (workspace : Workspace) : Prop :=
  workspace.queue channel ≠ [] ∨
    ∃ timer ∈ workspace.agenda.timers, timer.sink.channel = channel

/-- What a coordinator can rely on between its steps: it stays wired, only it
starts timers, and a change of the text that is shown makes its channel
busy. -/
structure Steady (channel : ChannelId) (before after : Workspace) : Prop where
  wired : Wired channel after
  timers : ∀ timer ∈ after.agenda.timers, timer ∈ before.agenda.timers
  busy : Busy channel before → Busy channel after
  target : after.editor.targetText? = before.editor.targetText? ∨
    Busy channel after

/-- What a coordinator can rely on when it is not its turn. -/
structure Leaves (channel : ChannelId) (before after : Workspace) : Prop
    extends Steady channel before after where
  drawn : after.editor.drawn = before.editor.drawn

variable {channel : ChannelId} {workspace first second third : Workspace}

theorem Steady.trans (steady : Steady channel first second)
    (steady' : Steady channel second third) : Steady channel first third where
  wired := steady'.wired
  timers timer member := steady.timers timer (steady'.timers timer member)
  busy busy := steady'.busy (steady.busy busy)
  target := by
    rcases steady'.target with same' | busy
    · rcases steady.target with same | busy
      · exact .inl (same'.trans same)
      · exact .inr (steady'.busy busy)
    · exact .inr busy

theorem Leaves.refl (wired : Wired channel workspace) :
    Leaves channel workspace workspace :=
  ⟨⟨wired, fun _ member => member, fun busy => busy, .inl rfl⟩, rfl⟩

theorem Leaves.trans (leaves : Leaves channel first second)
    (leaves' : Leaves channel second third) : Leaves channel first third :=
  ⟨leaves.toSteady.trans leaves'.toSteady, leaves'.drawn.trans leaves.drawn⟩

/-! ## Posting -/

theorem Wired.of_same {before after : Workspace} (wired : Wired channel before)
    (same : SameSurroundings before after)
    (work : ∀ message ∈ after.queue channel, message.IsWork) :
    Wired channel after where
  isOpen := by rw [same.isOpen, wired.isOpen]
  listens := by simpa only [sinksOf, same.editor] using wired.listens
  posts := by simpa only [same.editor] using wired.posts
  work := work
  timers := by simpa only [same.agenda] using wired.timers
  enabled := by simpa only [same.editor] using wired.enabled
  failing := by simpa only [same.editor] using wired.failing
  hooks := by simpa only [same.editor] using wired.hooks

/-- Posting work adds to the queue and leaves everything else as it is. -/
theorem leaves_emitAll (wired : Wired channel workspace) {sinks : List Sink}
    (work : ∀ sink ∈ sinks, sink.channel = channel → sink.message.IsWork) :
    Leaves channel workspace (workspace.emitAll sinks).2 := by
  have same := emitAll_same workspace sinks
  have queue := queue_emitAll wired.isOpen sinks
  refine ⟨⟨wired.of_same same ?_, by simp [same.agenda], ?_,
    .inl (by rw [same.editor])⟩, by rw [same.editor]⟩
  · intro message member
    rw [queue, List.mem_append, mem_messagesTo] at member
    rcases member with waiting | posted
    · exact wired.work message waiting
    · exact work _ posted rfl
  · rintro (waiting | running)
    · left
      rw [queue]
      exact List.append_ne_nil_of_left_ne_nil waiting _
    · right
      rwa [same.agenda]

theorem leaves_emit (wired : Wired channel workspace) {sink : Sink}
    (work : sink.channel = channel → sink.message.IsWork) :
    Leaves channel workspace (workspace.emit sink).2 := by
  have posted : Leaves channel workspace (workspace.emitAll [sink]).2 := by
    apply leaves_emitAll wired
    intro other member
    obtain rfl := List.mem_singleton.mp member
    exact work
  exact posted

/-- Only the order to show signatures is no work among the topics. -/
theorem work_of_topic {topic : Topic} {message : Message}
    (listed : (topic, message) ∈ Coordinator.topics)
    (other : topic ≠ .command .showSignatures) : message.IsWork := by
  simp only [Coordinator.topics, EditorEvent.all, Command.all, List.map_cons,
    List.map_nil, List.cons_append, List.nil_append, List.mem_cons,
    Prod.mk.injEq, List.not_mem_nil, or_false] at listed
  rcases listed with ⟨-, rfl⟩ | ⟨-, rfl⟩ | ⟨-, rfl⟩ | ⟨rfl, -⟩
  · simp [Message.IsWork, EditorEvent.message]
  · simp [Message.IsWork, EditorEvent.message]
  · simp [Message.IsWork]
  · exact absurd rfl other

theorem Wired.work_of_sinksOf (wired : Wired channel workspace)
    (topic : Topic) (other : topic ≠ .command .showSignatures) :
    ∀ sink ∈ workspace.sinksOf topic, sink.channel = channel →
      sink.message.IsWork := by
  intro sink member here
  simp only [sinksOf, List.mem_map, List.mem_filter, decide_eq_true_eq]
    at member
  obtain ⟨listener, ⟨listed, rfl⟩, rfl⟩ := member
  exact work_of_topic (wired.posts listener listed here) other

theorem leaves_fire (wired : Wired channel workspace) (event : EditorEvent) :
    Leaves channel workspace (workspace.fire event).2 ∧
      Busy channel (workspace.fire event).2 := by
  have posted : Leaves channel workspace (workspace.fire event).2 :=
    leaves_emitAll wired (wired.work_of_sinksOf _ (by simp))
  refine ⟨posted, .inl ?_⟩
  rw [fire, queue_emitAll wired.isOpen]
  have message := mem_messagesTo.mpr (wired.listens event)
  exact List.append_ne_nil_of_right_ne_nil _ (List.ne_nil_of_mem message)

theorem leaves_hide (wired : Wired channel workspace) :
    Leaves channel workspace
      (workspace.invoke (Command.id .hideSignatures)).2 := by
  have known : Command.ofId? (Command.id .hideSignatures) =
      some .hideSignatures := by decide
  have work := wired.work_of_sinksOf (.command .hideSignatures) (by simp)
  simp only [invoke, known]
  split
  · exact .refl wired
  · rename_i sink rest sinks
    exact leaves_emit wired (work sink (by simp [sinks]))

/-! ## Changes of the editor -/

theorem Wired.updateEditor (wired : Wired channel workspace)
    (update : Editor → Editor) (obliging : Obliging (update workspace.editor))
    (listeners : (update workspace.editor).listeners =
      workspace.editor.listeners) :
    Wired channel (workspace.updateEditor update) :=
  { obliging with
    isOpen := wired.isOpen
    listens := by
      simpa only [sinksOf, Workspace.updateEditor, listeners]
        using wired.listens
    posts := by
      simpa only [Workspace.updateEditor, listeners] using wired.posts
    work := wired.work
    timers := wired.timers }

theorem Wired.steady (wired : Wired channel workspace)
    (update : Editor → Editor) (obliging : Obliging (update workspace.editor))
    (listeners : (update workspace.editor).listeners =
      workspace.editor.listeners)
    (target : (update workspace.editor).targetText? =
      workspace.editor.targetText?) :
    Steady channel workspace (workspace.updateEditor update) :=
  ⟨wired.updateEditor update obliging listeners, fun _ running => running,
    fun busy => busy, .inl target⟩

/-- If the text that is shown may have changed, posting makes up for it. -/
theorem leaves_of_fire {update : Editor → Editor}
    (rewired : Wired channel (workspace.updateEditor update))
    (drawn : (update workspace.editor).drawn = workspace.editor.drawn)
    (event : EditorEvent) :
    Leaves channel workspace
      ((workspace.updateEditor update).fire event).2 := by
  obtain ⟨posted, busy⟩ := leaves_fire rewired event
  exact ⟨⟨posted.wired, posted.timers, fun _ => busy, .inr busy⟩,
    posted.drawn.trans drawn⟩

theorem targetText?_select (editor : Editor) (selections : List Selection) :
    (editor.select selections).targetText? = editor.targetText? := by
  simp only [Editor.targetText?, Editor.select, Editor.updateDocument]
  cases editor.document with
  | none => rfl
  | some document =>
      have language : Document.isTarget { document with selections } =
          document.isTarget := rfl
      simp only [Option.map_some, Option.filter_some, language]
      split <;> rfl

theorem leaves_select (wired : Wired channel workspace)
    (selections : List Selection) :
    Leaves channel workspace
      (workspace.updateEditor fun editor => editor.select selections) :=
  ⟨wired.steady (fun editor => editor.select selections)
    ⟨wired.enabled, wired.failing, wired.hooks⟩ rfl (targetText?_select _ _),
    rfl⟩

theorem leaves_disturb (wired : Wired channel workspace)
    (disturbance : Disturbance) :
    Leaves channel workspace (workspace.steps disturbance.steps) := by
  cases disturbance with
  | edit text =>
      have edited := wired.updateEditor
        (fun editor => editor.updateDocument fun document =>
          { document with text })
        ⟨wired.enabled, wired.failing, wired.hooks⟩ rfl
      exact leaves_of_fire edited rfl .documentChanged
  | switch document =>
      have switched := wired.updateEditor
        (fun editor => { editor with document })
        ⟨wired.enabled, wired.failing, wired.hooks⟩ rfl
      exact leaves_of_fire switched rfl .activeEditorChanged
  | hide => exact leaves_hide wired
  | select selections => exact leaves_select wired selections
  | fail commands =>
      have onlyCommands : ∀ primitive ∈ commands.map Primitive.execute,
          ∃ command, primitive = .execute command := by
        intro primitive member
        obtain ⟨command, -, rfl⟩ := List.mem_map.mp member
        exact ⟨command, rfl⟩
      exact ⟨wired.steady
        (fun editor => { editor with failing := commands.map .execute })
        ⟨wired.enabled, onlyCommands, wired.hooks⟩ rfl rfl, rfl⟩

/-! ## The passing of time -/

theorem leaves_fireTimers (wired : Wired channel workspace) :
    Leaves channel workspace workspace.fireTimers := by
  have cleared : Wired channel
      { workspace with agenda := workspace.agenda.clearDue } :=
    { wired with timers := fun timer member =>
        wired.timers timer (Agenda.mem_timers_clearDue.mp member).1 }
  have work : ∀ sink ∈ workspace.agenda.due.map Timer.sink,
      sink.channel = channel → sink.message.IsWork := by
    intro sink member here
    obtain ⟨timer, isDue, rfl⟩ := List.mem_map.mp member
    rw [wired.timers timer (Agenda.mem_due.mp isDue).1 here]
    simp [Message.IsWork]
  have posted := leaves_emitAll cleared work
  refine ⟨⟨posted.wired, ?_, ?_, posted.target⟩, posted.drawn⟩
  · intro timer member
    exact (Agenda.mem_timers_clearDue.mp (posted.timers timer member)).1
  · rintro (waiting | ⟨timer, running, rfl⟩)
    · exact posted.busy (.inl waiting)
    · by_cases isDue : timer.deadline ≤ workspace.agenda.now
      · left
        have posting : timer.sink ∈ workspace.agenda.due.map Timer.sink :=
          List.mem_map_of_mem (Agenda.mem_due.mpr ⟨running, isDue⟩)
        have message := mem_messagesTo.mpr posting
        rw [fireTimers, queue_emitAll cleared.isOpen]
        exact List.append_ne_nil_of_right_ne_nil _ (List.ne_nil_of_mem message)
      · apply posted.busy
        exact .inr ⟨timer, Agenda.mem_timers_clearDue.mpr ⟨running, isDue⟩, rfl⟩

theorem Happens.leaves {before after : Workspace}
    (happens : Happens before after) (wired : Wired channel before) :
    Leaves channel before after := by
  cases happens with
  | disturb disturbance => exact leaves_disturb wired disturbance
  | post sink work => exact leaves_emit wired fun _ => work
  | clock later =>
      exact ⟨⟨{ wired with }, fun _ member => member, fun busy => busy,
        .inl rfl⟩, rfl⟩
  | timers => exact leaves_fireTimers wired

theorem Passes.leaves {before after : Workspace}
    (passes : Passes before after) (wired : Wired channel before) :
    Leaves channel before after := by
  induction passes with
  | refl => exact .refl wired
  | tail _ happens ih => exact ih.trans (happens.leaves ih.wired)

/-! ## Requests -/

theorem leaves_disturbances (wired : Wired channel workspace)
    (disturbances : List Disturbance) :
    Leaves channel workspace
      (workspace.steps (disturbances.flatMap Disturbance.steps)) := by
  induction disturbances generalizing workspace with
  | nil => exact .refl wired
  | cons disturbance rest ih =>
      have first := leaves_disturb wired disturbance
      rw [List.flatMap_cons, steps, List.foldl_append]
      exact first.trans (ih first.wired)

/-- A hook runs disturbances once and is gone. -/
theorem leaves_takeHook (wired : Wired channel workspace)
    (primitive : Primitive) :
    Leaves channel workspace
      ({ workspace with
        editor := (workspace.editor.takeHook primitive).2 }.steps
          (workspace.editor.takeHook primitive).1) := by
  simp only [Editor.takeHook]
  cases found : workspace.editor.hooks.find?
      fun hook => hook.primitive = primitive with
  | none => exact .refl wired
  | some hook =>
      obtain ⟨disturbances, steps⟩ :=
        wired.hooks hook (List.mem_of_find?_eq_some found)
      have left : ∀ other ∈ workspace.editor.hooks.eraseP
          (fun hook => hook.primitive = primitive),
          ∃ disturbances : List Disturbance,
            other.steps = disturbances.flatMap Disturbance.steps :=
        fun other member => wired.hooks other (List.mem_of_mem_eraseP member)
      have taken : Leaves channel workspace
          (workspace.updateEditor fun editor => { editor with
            hooks := editor.hooks.eraseP
              fun hook => hook.primitive = primitive }) :=
        ⟨wired.steady _ ⟨wired.enabled, wired.failing, left⟩ rfl rfl, rfl⟩
      have disturbed := leaves_disturbances taken.wired disturbances
      rw [← steps] at disturbed
      exact taken.trans disturbed

/-- Recording a call changes what is drawn as the call says, and nothing else
that matters. -/
theorem steady_record (wired : Wired channel workspace)
    (primitive : Primitive) (call : EditorCall) :
    Steady channel workspace (workspace.record primitive call) ∧
      (workspace.record primitive call).editor.drawn =
        EditorCall.redraw workspace.editor.drawn call := by
  have recorded := wired.steady (fun editor => editor.record call)
    ⟨wired.enabled, wired.failing, wired.hooks⟩ rfl rfl
  have hooked := leaves_takeHook recorded.wired primitive
  exact ⟨recorded.trans hooked.toSteady,
    hooked.drawn.trans (Editor.drawn_record _ _)⟩

/-- A call that draws nothing disturbs no more than what may happen anyway. -/
theorem leaves_record (wired : Wired channel workspace)
    (primitive : Primitive) {call : EditorCall}
    (undrawn : ∀ drawn, EditorCall.redraw drawn call = drawn) :
    Leaves channel workspace (workspace.record primitive call) := by
  obtain ⟨steady, drawn⟩ := steady_record wired primitive call
  exact ⟨steady, drawn.trans (undrawn _)⟩

end Workspace

end SignatureVeil
