import SignatureVeil.Proofs.Coordinator.Decorating
import SignatureVeil.Proofs.Session.ServingInOrder

/-!
# Folding does not disturb drawing

A message loop takes messages while the editor and its surroundings change.
Two such courses, in which the same messages are taken and the same changes
happen in the same order, can differ in which commands fail, in how long they
take, and in what is selected.  What is drawn does not differ, and neither do
the timers that are started: both are those of a coordinator that does not fold
at all.
-/

namespace SignatureVeil

open Workspace Interaction

/-! ## Courses of events -/

/-- Something that happens in the course of a message loop and may matter to
drawing. -/
inductive Occurrence where
  /-- The loop takes a message. -/
  | taken (message : Message)
  | edited (step : EditorStep)
  | elapsed (time : Nat)
  /-- The timers whose deadline has come post their messages. -/
  | fired

/-- Something happens around a message loop that does not matter to drawing.
To let other commands fail from now on is such a thing.  That time passes
belongs here if the clock is not heeded. -/
inductive Unnoticed (clocked : Bool) : Workspace → Workspace → Prop where
  | inert (workspace : Workspace) {step : EditorStep} (inert : step.IsInert) :
      Unnoticed clocked workspace (workspace.step step)
  | failing (workspace : Workspace) {primitives : List Primitive}
      (same : .applyDecorations ∈ primitives ↔
        .applyDecorations ∈ workspace.editor.failing) :
      Unnoticed clocked workspace (workspace.step (.failOn primitives))
  | posted (workspace : Workspace) (sink : Sink) :
      Unnoticed clocked workspace (workspace.emit sink).2
  | noticed (workspace : Workspace) (woken : List ChannelId) :
      Unnoticed clocked workspace { workspace with woken }
  | elapsed (workspace : Workspace) (time : Nat) (unheeded : clocked = false) :
      Unnoticed clocked workspace (workspace.setClock time)
  | fired (workspace : Workspace) (unheeded : clocked = false) :
      Unnoticed clocked workspace workspace.fireTimers

/-- A message loop and its surroundings go through a course of occurrences.
Whatever else happens in between does not matter to drawing: commands end, the
loop goes on with the message that it has taken, and others post. -/
inductive Plays (clocked : Bool) (first : MessageLoop) (start : Workspace) :
    List Occurrence → Option MessageLoop → Workspace → Prop where
  | begun : Plays clocked first start [] (some first) start
  | unnoticed {course : List Occurrence} {loop : Option MessageLoop}
      {workspace later : Workspace}
      (plays : Plays clocked first start course loop workspace)
      (unnoticed : Unnoticed clocked workspace later) :
      Plays clocked first start course loop later
  | resumed {course : List Occurrence} {loop : MessageLoop}
      {workspace : Workspace}
      (plays : Plays clocked first start course (some loop) workspace)
      (isOver : loop.isOver workspace.agenda.now = true) :
      Plays clocked first start course (some loop.resume) workspace
  | ran {course : List Occurrence} {loop : MessageLoop}
      {workspace : Workspace}
      (plays : Plays clocked first start course (some loop) workspace) :
      Plays clocked first start
        (course ++ (loop.takesNext workspace).map .taken)
        (loop.run 1 workspace).1 (loop.run 1 workspace).2
  | edited {course : List Occurrence} {loop : Option MessageLoop}
      {workspace : Workspace} {step : EditorStep}
      (plays : Plays clocked first start course loop workspace)
      (tame : step.IsTame) :
      Plays clocked first start (course ++ [.edited step]) loop
        (workspace.step step)
  | elapsed {course : List Occurrence} {loop : Option MessageLoop}
      {workspace : Workspace}
      (plays : Plays clocked first start course loop workspace)
      (time : Nat) :
      Plays clocked first start (course ++ [.elapsed time]) loop
        (workspace.setClock time)
  | fired {course : List Occurrence} {loop : Option MessageLoop}
      {workspace : Workspace}
      (plays : Plays clocked first start course loop workspace) :
      Plays clocked first start (course ++ [.fired]) loop
        workspace.fireTimers

/-! ## A coordinator that does not fold -/

/-- A coordinator that does not fold, if it has not been deactivated, and its
surroundings. -/
structure Decorator where
  holder : Option Coordinator
  workspace : Workspace

namespace Decorator

/-- Do without waiting what is to be done about a message. -/
def take (decorator : Decorator) (message : Message) : Decorator :=
  match decorator.holder with
  | none => decorator
  | some coordinator =>
      match decorator.workspace.perform (coordinator.decorate message) with
      | .finished holder workspace => { holder, workspace }
      | .waiting _ _ _ workspace => { decorator with workspace }

def go (decorator : Decorator) : Occurrence → Decorator
  | .taken message => decorator.take message
  | .edited step =>
      { decorator with workspace := decorator.workspace.step step }
  | .elapsed time =>
      { decorator with workspace := decorator.workspace.setClock time }
  | .fired => { decorator with workspace := decorator.workspace.fireTimers }

end Decorator

/-- A loop holds a coordinator, or will do so when it has folded. -/
inductive Bears : Option MessageLoop → Option Coordinator → Prop where
  | idle {channel : ChannelId} {holder : Coordinator} :
      Bears (some ⟨channel, .idle holder⟩) (some holder)
  | waiting {channel : ChannelId} {command : EditorCommand} {time : Nat}
      {rest : Outcome → Interaction (Option Coordinator)}
      {holder : Option Coordinator}
      (folds : ∀ outcome, (rest outcome).Asks Request.IsFolding
        fun found => found = holder) :
      Bears (some ⟨channel, .waiting command time rest⟩) holder
  | resuming {channel : ChannelId} {command : EditorCommand}
      {rest : Outcome → Interaction (Option Coordinator)}
      {holder : Option Coordinator}
      (folds : ∀ outcome, (rest outcome).Asks Request.IsFolding
        fun found => found = holder) :
      Bears (some ⟨channel, .resuming command rest⟩) holder
  | ended : Bears none none

/-- A loop and its surroundings do not differ from a coordinator that does not
fold, and its surroundings, in what matters to drawing. -/
structure Mirrors (clocked : Bool) (decorator : Decorator)
    (loop : Option MessageLoop) (workspace : Workspace) : Prop where
  bears : Bears loop decorator.holder
  resembles : Resembles clocked decorator.workspace workspace
  tame : workspace.IsTame

variable {clocked : Bool} {workspace later : Workspace}
  {loop : Option MessageLoop}

theorem resembles_setClock {other : Workspace}
    (resembles : Resembles clocked other workspace) (time : Nat) :
    Resembles clocked (other.setClock time) (workspace.setClock time) :=
  { resembles with
    agenda := fun heeded =>
      congrArg (Agenda.setClock · time) (resembles.agenda heeded) }

theorem hooks_fireTimers (workspace : Workspace) :
    workspace.fireTimers.editor.hooks = workspace.editor.hooks :=
  congrArg Editor.hooks (fireTimers_spec workspace).1

theorem resembles_fireTimers {other : Workspace}
    (resembles : Resembles clocked other workspace) :
    Resembles clocked other.fireTimers workspace.fireTimers := by
  have cleared : Resembles clocked
      { other with agenda := other.agenda.clearDue }
      { workspace with agenda := workspace.agenda.clearDue } :=
    { resembles with
      agenda := fun heeded =>
        congrArg Agenda.clearDue (resembles.agenda heeded) }
  exact ((resembles_emitAll _ _).symm.trans cleared).trans
    (resembles_emitAll _ _)

/-- The clock and the timers that are running do not matter if they are not
heeded. -/
theorem resembles_of_unheeded {agenda : Agenda} (unheeded : clocked = false)
    (nextTimer : agenda.nextTimer = workspace.agenda.nextTimer) :
    Resembles clocked workspace { workspace with agenda } :=
  ⟨rfl, rfl, .rfl, rfl, rfl, rfl, rfl, nextTimer.symm,
    fun heeded => absurd heeded (by rw [unheeded]; exact Bool.false_ne_true)⟩

theorem Unnoticed.resembles (unnoticed : Unnoticed clocked workspace later) :
    Resembles clocked workspace later := by
  cases unnoticed with
  | inert inert => exact resembles_inert inert workspace
  | failing same =>
      exact { Resembles.refl workspace with fails := same.symm }
  | posted sink => exact resembles_emit workspace sink
  | noticed => exact resembles_of_same rfl rfl rfl
  | elapsed time unheeded => exact resembles_of_unheeded unheeded rfl
  | fired unheeded =>
      have cleared : Resembles clocked workspace
          { workspace with agenda := workspace.agenda.clearDue } :=
        resembles_of_unheeded unheeded rfl
      exact cleared.trans (resembles_emitAll _ _)

theorem Unnoticed.isTame (unnoticed : Unnoticed clocked workspace later)
    (tame : workspace.IsTame) : later.IsTame := by
  cases unnoticed with
  | @inert step inert =>
      refine tame.step (.plain ?_)
      rintro primitive steps rfl
      exact inert
  | failing => exact tame
  | posted sink =>
      exact tame.of_hooks (congrArg Editor.hooks
        (emit_same workspace sink).editor)
  | noticed | elapsed => exact tame
  | fired => exact tame.of_hooks (hooks_fireTimers workspace)

/-! ## Mirroring -/

variable {held : Option Coordinator} {surroundings : Workspace}
  {channel : ChannelId} {decorator : Decorator}

/-- A loop that has drawn goes on as one that holds a coordinator. -/
theorem Workspace.FoldsFrom.mirrors {progress : Progress (Option Coordinator)}
    (folds : FoldsFrom clocked held surroundings progress)
    (channel : ChannelId) :
    Mirrors clocked ⟨held, surroundings⟩
      (MessageLoop.after channel progress).1
      (MessageLoop.after channel progress).2 := by
  cases folds with
  | finished resembles tame =>
      cases held with
      | none =>
          exact ⟨.ended, resembles.trans (resembles_of_same rfl rfl rfl), tame⟩
      | some holder => exact ⟨.idle, resembles, tame⟩
  | waiting resembles tame folds => exact ⟨.waiting folds, resembles, tame⟩

theorem Bears.resumed {loop : MessageLoop} (bears : Bears (some loop) held) :
    Bears (some loop.resume) held := by
  cases bears with
  | idle => exact .idle
  | waiting folds => exact .resuming folds
  | resuming folds => exact .resuming folds

/-- To take a message is to decorate first and to fold then, and to go on
after a command is to fold. -/
theorem Mirrors.ran {loop : MessageLoop}
    (mirrors : Mirrors clocked decorator (some loop) workspace) :
    Mirrors clocked
      (((loop.takesNext workspace).map .taken).foldl Decorator.go decorator)
      (loop.run 1 workspace).1 (loop.run 1 workspace).2 := by
  obtain ⟨held, surroundings⟩ := decorator
  obtain ⟨bears, resembles, tame⟩ := mirrors
  have once := loop.runsOnce workspace
  generalize loop.sinksNext workspace = sinks,
    loop.takesNext workspace = takes, loop.run 1 workspace = result at once ⊢
  cases once with
  | stays => exact ⟨bears, resembles, tame⟩
  | @took channel holder _ left message took =>
      cases bears with
      | idle =>
          obtain ⟨same, agenda, log⟩ := take?_same took
          have resembles' :=
            resembles.trans (resembles_of_same same agenda log)
          obtain ⟨result, last, performed, folds⟩ :=
            (shadows_serve holder message).perform resembles'
              (tame.of_hooks (congrArg Editor.hooks same))
          have decorated : Decorator.go ⟨some holder, surroundings⟩
              (.taken message) = ⟨result, last⟩ := by
            simp only [Decorator.go, Decorator.take, performed]
          rw [List.map_singleton, List.foldl_cons, decorated]
          exact folds.mirrors channel
  | continued =>
      cases bears with
      | resuming folds =>
          exact (foldsFrom_perform (folds _) resembles tame).mirrors _

theorem Plays.mirrors {first : Coordinator} {start : Workspace}
    {course : List Occurrence} (tame : start.IsTame)
    (plays : Plays clocked ⟨channel, .idle first⟩ start course loop
      workspace) :
    Mirrors clocked (course.foldl Decorator.go ⟨some first, start⟩) loop
      workspace := by
  induction plays with
  | begun => exact ⟨.idle, .refl start, tame⟩
  | unnoticed _ unnoticed ih =>
      exact ⟨ih.bears, ih.resembles.trans unnoticed.resembles,
        unnoticed.isTame ih.tame⟩
  | resumed _ _ ih => exact ⟨ih.bears.resumed, ih.resembles, ih.tame⟩
  | ran _ ih =>
      rw [List.foldl_append]
      exact ih.ran
  | edited _ steps ih =>
      rw [List.foldl_concat]
      exact ⟨ih.bears, ih.resembles.step _, ih.tame.step steps⟩
  | elapsed _ time ih =>
      rw [List.foldl_concat]
      exact ⟨ih.bears, resembles_setClock ih.resembles time, ih.tame⟩
  | fired _ ih =>
      rw [List.foldl_concat]
      exact ⟨ih.bears, resembles_fireTimers ih.resembles,
        ih.tame.of_hooks (hooks_fireTimers _)⟩

section

variable {first : Coordinator} {start workspace' : Workspace}
  {course : List Occurrence} {loop' : Option MessageLoop}

/-- Whichever commands fail, and whatever is selected, courses of the same
occurrences do not differ in what is drawn, with its tokens, styles and ranges,
nor in which timers are started.  If the clock is heeded the same timers are
running at the same time. -/
theorem Plays.undisturbed (tame : start.IsTame)
    (plays : Plays clocked ⟨channel, .idle first⟩ start course loop workspace)
    (plays' : Plays clocked ⟨channel, .idle first⟩ start course loop'
      workspace') :
    drawingCalls workspace'.editor.calls =
        drawingCalls workspace.editor.calls ∧
      scheduledIn workspace'.log = scheduledIn workspace.log ∧
      workspace'.agenda.nextTimer = workspace.agenda.nextTimer ∧
      (clocked = true → workspace'.agenda = workspace.agenda) := by
  have resembles := (plays.mirrors tame).resembles.symm.trans
    (plays'.mirrors tame).resembles
  exact ⟨resembles.drawn.symm, resembles.scheduled.symm,
    resembles.nextTimer.symm, fun heeded => (resembles.agenda heeded).symm⟩

theorem Plays.take {first loop : MessageLoop} (message : Message)
    (plays : Plays clocked first start course (some loop) workspace)
    (takes : loop.takesNext workspace = [message])
    (goesOn : (loop.run 1 workspace).1.isSome = true) :
    Plays clocked first start (course ++ [.taken message])
      (some ((loop.run 1 workspace).1.get goesOn))
      (loop.run 1 workspace).2 := by
  have ran := plays.ran
  rw [takes] at ran
  rwa [Option.some_get]

theorem Plays.goOn {first loop : MessageLoop}
    (plays : Plays clocked first start course (some loop) workspace)
    (takes : loop.takesNext workspace = [])
    (goesOn : (loop.run 1 workspace).1.isSome = true) :
    Plays clocked first start course
      (some ((loop.run 1 workspace).1.get goesOn))
      (loop.run 1 workspace).2 := by
  have ran := plays.ran
  rw [takes, List.map_nil, List.append_nil] at ran
  rwa [Option.some_get]

/-- A command fails in one course and not in the other.  So the calls differ,
but not those that serve to draw. -/
theorem Plays.undisturbed_failing : ∃ start loop loop' workspace workspace',
    start.IsTame ∧
      Plays true ⟨0, .idle { channel := 0 }⟩ start
        [.taken .activeEditorChanged, .edited (.setText "x\n"),
          .taken .documentChanged] loop workspace ∧
      Plays true ⟨0, .idle { channel := 0 }⟩ start
        [.taken .activeEditorChanged, .edited (.setText "x\n"),
          .taken .documentChanged] loop' workspace' ∧
      .execute .fold ∈ workspace.editor.calls ∧
      .execute .fold ∉ workspace'.editor.calls ∧
      drawingCalls workspace'.editor.calls =
        drawingCalls workspace.editor.calls ∧
      scheduledIn workspace'.log = scheduledIn workspace.log ∧
      workspace'.agenda = workspace.agenda := by
  let document : Document :=
    ⟨1, "ruby", "sig do\nend\nx\n", [.caret ⟨2, 0⟩]⟩
  let start : Workspace :=
    { editor := { document := some document }
      channels := [{ queue := [.activeEditorChanged, .documentChanged] }] }
  have tame : start.IsTame := fun _ member => absurd member List.not_mem_nil
  have setsText : (EditorStep.setText "x\n").IsTame :=
    .plain fun _ _ same => by cases same
  have idle : Plays true ⟨0, .idle { channel := 0 }⟩ start [] _ start := .begun
  have unfolding := idle.take .activeEditorChanged (by decide +kernel)
    (by decide +kernel)
  have folding := (unfolding.resumed (by decide +kernel)).goOn
    (by decide +kernel) (by decide +kernel)
  have folded := (folding.resumed (by decide +kernel)).goOn
    (by decide +kernel) (by decide +kernel)
  have scheduled := (folded.edited setsText).take .documentChanged
    (by decide +kernel) (by decide +kernel)
  have draws : .applyDecorations ∈ [Primitive.execute .unfoldAll] ↔
      .applyDecorations ∈ start.editor.failing := by decide
  have fails := idle.unnoticed (.failing _ draws)
  have unfolding' := fails.take .activeEditorChanged (by decide +kernel)
    (by decide +kernel)
  have failed := (unfolding'.resumed (by decide +kernel)).goOn
    (by decide +kernel) (by decide +kernel)
  have scheduled' := (failed.edited setsText).take .documentChanged
    (by decide +kernel) (by decide +kernel)
  obtain ⟨drawn, timing, -, agenda⟩ := scheduled.undisturbed tame scheduled'
  exact ⟨start, _, _, _, _, tame, scheduled, scheduled', by decide +kernel,
    by decide +kernel, drawn, timing, agenda rfl⟩

end

end SignatureVeil
