import SignatureVeil.Proofs.Workspace.Carrying
import SignatureVeil.Proofs.Workspace.Recording

/-!
# What drawing depends on

Whoever draws sees the document without its selections, the configuration, the
names that are given to styles, and whether drawing fails.  Two workspaces
that do not differ in this, nor in what has been drawn and which timers have
been started, resemble each other.  A request that serves to draw or to wait
has the same answer in both, and they resemble each other afterwards.  To
select, to fold and to unfold leaves a workspace resembling what it was.
-/

namespace SignatureVeil

/-! ## Drawing -/

/-- Whether requests of some kind serve to draw. -/
def Primitive.isDrawing : Primitive → Bool
  | .createStyle | .disposeStyle | .applyDecorations => true
  | .setSelections | .execute _ => false

def EditorCall.isDrawing : EditorCall → Bool
  | .createStyle _ _ | .disposeStyle _ | .applyDecorations _ _ => true
  | _ => false

/-- The calls that serve to draw, with their tokens, styles and ranges. -/
def drawingCalls (calls : List EditorCall) : List EditorCall :=
  calls.filter EditorCall.isDrawing

def LogRecord.scheduled? : LogRecord → Option (Nat × Message)
  | .debounceScheduled delay message => some (delay, message)
  | _ => none

/-- What has been scheduled according to a log: how long to wait, and what to
post then. -/
def scheduledIn (log : List LogRecord) : List (Nat × Message) :=
  log.filterMap LogRecord.scheduled?

theorem drawingCalls_append (earlier later : List EditorCall) :
    drawingCalls (earlier ++ later) =
      drawingCalls earlier ++ drawingCalls later :=
  List.filter_append earlier later

theorem scheduledIn_append (earlier later : List LogRecord) :
    scheduledIn (earlier ++ later) = scheduledIn earlier ++ scheduledIn later :=
  List.filterMap_append

/-- A document apart from its selections. -/
def Document.unselected (document : Document) : Document :=
  { document with selections := [] }

/-- The hooks that wait for requests that serve to draw. -/
def drawingHooks (hooks : List Hook) : List Hook :=
  hooks.filter fun hook => hook.primitive.isDrawing

/-! ## Steps that do not matter to drawing -/

/-- Whether a step of the editor does not matter to drawing, whatever the
editor shows. -/
def EditorStep.IsInert : EditorStep → Prop
  | .select _ | .delay _ | .fire _ | .invoke _ => True
  | _ => False

/-- Whether all that a step of the editor can bring about at requests to
select, to fold or to unfold does not matter to drawing. -/
inductive EditorStep.IsTame : EditorStep → Prop where
  | plain {step : EditorStep}
      (noHook : ∀ primitive steps, step ≠ .hook primitive steps) : IsTame step
  | hook {primitive : Primitive} {steps : List EditorStep}
      (tame : ∀ step ∈ steps, IsTame step)
      (inert : primitive.isDrawing = false → ∀ step ∈ steps, step.IsInert) :
      IsTame (.hook primitive steps)

structure Hook.IsTame (hook : Hook) : Prop where
  tame : ∀ step ∈ hook.steps, step.IsTame
  inert : hook.primitive.isDrawing = false →
    ∀ step ∈ hook.steps, step.IsInert

/-- Whether nothing that happens in a workspace at requests to select, to fold
or to unfold matters to drawing. -/
def Workspace.IsTame (workspace : Workspace) : Prop :=
  ∀ hook ∈ workspace.editor.hooks, hook.IsTame

/-- Whether a request serves to draw, or to wait for a quiet period, or to
give something back. -/
def Request.IsDecorating : Request → Prop
  | .document | .setSelections _ | .execute _ | .listen _ _ => False
  | _ => True

/-- Whether a request serves to fold or to unfold. -/
def Request.IsFolding : Request → Prop
  | .document | .configuration _ | .setSelections _ | .execute _ => True
  | .log entry => entry.scheduled? = none
  | _ => False

/-! ## Resemblance -/

namespace Workspace

/-- Two workspaces do not differ in what drawing depends on, nor in what has
been drawn or scheduled.  Their clocks and timers are the same if these are
heeded. -/
structure Resembles (clocked : Bool) (other workspace : Workspace) : Prop where
  document : other.editor.document.map Document.unselected =
    workspace.editor.document.map Document.unselected
  configuration :
    other.editor.configuration = workspace.editor.configuration
  fails : .applyDecorations ∈ other.editor.failing ↔
    .applyDecorations ∈ workspace.editor.failing
  hooks : drawingHooks other.editor.hooks =
    drawingHooks workspace.editor.hooks
  nextToken : other.editor.nextToken = workspace.editor.nextToken
  drawn : drawingCalls other.editor.calls =
    drawingCalls workspace.editor.calls
  scheduled : scheduledIn other.log = scheduledIn workspace.log
  nextTimer : other.agenda.nextTimer = workspace.agenda.nextTimer
  agenda : clocked = true → other.agenda = workspace.agenda

variable {clocked : Bool} {other workspace : Workspace}

theorem Resembles.refl (workspace : Workspace) :
    Resembles clocked workspace workspace :=
  ⟨rfl, rfl, .rfl, rfl, rfl, rfl, rfl, rfl, fun _ => rfl⟩

theorem Resembles.trans {third : Workspace}
    (resembles : Resembles clocked other workspace)
    (resembles' : Resembles clocked workspace third) :
    Resembles clocked other third where
  document := resembles.document.trans resembles'.document
  configuration := resembles.configuration.trans resembles'.configuration
  fails := resembles.fails.trans resembles'.fails
  hooks := resembles.hooks.trans resembles'.hooks
  nextToken := resembles.nextToken.trans resembles'.nextToken
  drawn := resembles.drawn.trans resembles'.drawn
  scheduled := resembles.scheduled.trans resembles'.scheduled
  nextTimer := resembles.nextTimer.trans resembles'.nextTimer
  agenda heeded := (resembles.agenda heeded).trans (resembles'.agenda heeded)

theorem Resembles.symm (resembles : Resembles clocked other workspace) :
    Resembles clocked workspace other where
  document := resembles.document.symm
  configuration := resembles.configuration.symm
  fails := resembles.fails.symm
  hooks := resembles.hooks.symm
  nextToken := resembles.nextToken.symm
  drawn := resembles.drawn.symm
  scheduled := resembles.scheduled.symm
  nextTimer := resembles.nextTimer.symm
  agenda heeded := (resembles.agenda heeded).symm

/-- A workspace resembles another one if they have the same editor, agenda and
log. -/
theorem resembles_of_same {before after : Workspace}
    (editor : after.editor = before.editor)
    (agenda : after.agenda = before.agenda) (log : after.log = before.log) :
    Resembles clocked before after := by
  constructor <;> simp only [editor, agenda, log, implies_true]

/-! ## Steps of the editor -/

theorem resembles_emit (workspace : Workspace) (sink : Sink) :
    Resembles clocked workspace (workspace.emit sink).2 :=
  resembles_of_same (emit_same workspace sink).editor
    (emit_same workspace sink).agenda (log_emit workspace sink)

theorem resembles_emitAll (workspace : Workspace) (sinks : List Sink) :
    Resembles clocked workspace (workspace.emitAll sinks).2 :=
  resembles_of_same (emitAll_same workspace sinks).editor
    (emitAll_same workspace sinks).agenda (log_emitAll workspace sinks)

theorem unselected_select (document : Option Document)
    (selections : List Selection) :
    (document.map fun document =>
        { document with selections }).map Document.unselected =
      document.map Document.unselected := by
  cases document <;> rfl

theorem resembles_inert {step : EditorStep} (inert : step.IsInert)
    (workspace : Workspace) :
    Resembles clocked workspace (workspace.step step) := by
  cases step with
  | select selections =>
      exact { Resembles.refl workspace with
        document := (unselected_select _ selections).symm }
  | delay milliseconds => exact { Resembles.refl workspace with }
  | fire event => exact resembles_emitAll workspace _
  | invoke id =>
      change Resembles clocked workspace (workspace.invoke id).2
      unfold invoke
      split
      · exact .refl workspace
      · split
        · exact .refl workspace
        · exact resembles_emit workspace _
  | _ => exact absurd inert id

theorem resembles_inert_steps {steps : List EditorStep}
    (inert : ∀ step ∈ steps, step.IsInert) (workspace : Workspace) :
    Resembles clocked workspace (workspace.steps steps) := by
  induction steps generalizing workspace with
  | nil => exact .refl workspace
  | cons step rest ih =>
      obtain ⟨first, later⟩ := List.forall_mem_cons.mp inert
      exact (resembles_inert first workspace).trans (ih later _)

/-- What the editor does by itself it does in the same way where drawing
depends on the same. -/
theorem Resembles.step (resembles : Resembles clocked other workspace)
    (step : EditorStep) :
    Resembles clocked (other.step step) (workspace.step step) := by
  have inert (inert : step.IsInert) :
      Resembles clocked (other.step step) (workspace.step step) :=
    ((resembles_inert inert other).symm.trans resembles).trans
      (resembles_inert inert workspace)
  cases step with
  | focus document => exact { resembles with document := rfl }
  | setText text =>
      refine { resembles with document := ?_ }
      -- the text is replaced in the same way without the selections
      have replaced (document : Option Document) :
          (document.map fun document => { document with text }).map
              Document.unselected =
            (document.map Document.unselected).map fun document =>
              { document with text } := by
        cases document <;> rfl
      change (other.editor.document.map _).map _ =
        (workspace.editor.document.map _).map _
      rw [replaced, replaced, resembles.document]
  | configure configuration =>
      exact { resembles with configuration := rfl }
  | failOn failing => exact { resembles with fails := .rfl }
  | hook primitive steps =>
      refine { resembles with hooks := ?_ }
      change drawingHooks (other.editor.hooks ++ _) =
        drawingHooks (workspace.editor.hooks ++ _)
      rw [drawingHooks, drawingHooks, List.filter_append, List.filter_append]
      exact congrArg (· ++ _) resembles.hooks
  | select selections => exact inert trivial
  | delay milliseconds => exact inert trivial
  | fire event => exact inert trivial
  | invoke id => exact inert trivial

theorem Resembles.steps (resembles : Resembles clocked other workspace)
    (steps : List EditorStep) :
    Resembles clocked (other.steps steps) (workspace.steps steps) := by
  induction steps generalizing other workspace with
  | nil => exact resembles
  | cons step rest ih => exact ih (resembles.step step)

theorem IsTame.of_hooks {before after : Workspace} (tame : before.IsTame)
    (hooks : after.editor.hooks = before.editor.hooks) : after.IsTame := by
  rwa [IsTame, hooks]

theorem IsTame.step (tame : workspace.IsTame) {step : EditorStep}
    (steps : step.IsTame) : (workspace.step step).IsTame := by
  cases step with
  | fire event =>
      exact tame.of_hooks (congrArg Editor.hooks
        (emitAll_same workspace _).editor)
  | invoke id =>
      change IsTame (workspace.invoke id).2
      unfold invoke
      split
      · exact tame
      · split
        · exact tame
        · exact tame.of_hooks (congrArg Editor.hooks
            (emit_same workspace _).editor)
  | hook primitive steps =>
      intro hook member
      rcases List.mem_append.mp member with member | member
      · exact tame hook member
      · obtain rfl := List.mem_singleton.mp member
        cases steps with
        | plain noHook => exact absurd rfl (noHook _ _)
        | hook tame inert => exact ⟨tame, inert⟩
  | _ => exact tame

theorem IsTame.steps (tame : workspace.IsTame) {steps : List EditorStep}
    (areTame : ∀ step ∈ steps, step.IsTame) :
    (workspace.steps steps).IsTame := by
  induction steps generalizing workspace with
  | nil => exact tame
  | cons step rest ih =>
      obtain ⟨first, later⟩ := List.forall_mem_cons.mp areTame
      exact ih (tame.step first) later

/-! ## Hooks -/

theorem takeHook_eq (editor : Editor) (primitive : Primitive) :
    editor.takeHook primitive =
      (((editor.hooks.find? fun hook => hook.primitive = primitive).map
          Hook.steps).getD [],
        { editor with
          hooks := editor.hooks.eraseP fun hook =>
            hook.primitive = primitive }) := by
  unfold Editor.takeHook
  split
  case h_1 none =>
    rw [none, List.eraseP_of_forall_not (List.find?_eq_none.mp none)]
    rfl
  case h_2 hook found =>
    rw [found]
    rfl

theorem find?_drawingHooks {primitive : Primitive}
    (draws : primitive.isDrawing = true) (hooks : List Hook) :
    (drawingHooks hooks).find? (fun hook => hook.primitive = primitive) =
      hooks.find? fun hook => hook.primitive = primitive := by
  rw [drawingHooks, List.find?_filter]
  congr 1
  funext hook
  by_cases here : hook.primitive = primitive
  · simp [here, draws]
  · simp [here]

theorem drawingHooks_eraseP {primitive : Primitive}
    (draws : primitive.isDrawing = true) (hooks : List Hook) :
    drawingHooks (hooks.eraseP fun hook => hook.primitive = primitive) =
      (drawingHooks hooks).eraseP fun hook => hook.primitive = primitive := by
  rw [drawingHooks, drawingHooks, List.eraseP_filter]
  congr 2
  funext hook
  by_cases here : hook.primitive = primitive
  · simp [here, draws]
  · simp [here]

/-- A hook that does not wait for a request that serves to draw may be
taken. -/
theorem drawingHooks_eraseP_of_not {primitive : Primitive}
    (other : primitive.isDrawing = false) (hooks : List Hook) :
    drawingHooks (hooks.eraseP fun hook => hook.primitive = primitive) =
      drawingHooks hooks := by
  induction hooks with
  | nil => rfl
  | cons hook rest ih =>
      rw [drawingHooks, drawingHooks] at ih ⊢
      rw [List.eraseP_cons]
      by_cases here : hook.primitive = primitive
      · have dropped : hook.primitive.isDrawing = false := here ▸ other
        rw [decide_eq_true here, cond_true, List.filter_cons, dropped]
        rfl
      · rw [decide_eq_false here, cond_false, List.filter_cons,
          List.filter_cons, ih]

/-! ## Requests -/

/-- The editor without the next hook that waits for requests of some kind. -/
def unhooked (workspace : Workspace) (primitive : Primitive) : Workspace :=
  workspace.updateEditor fun editor => { editor with
    hooks := editor.hooks.eraseP fun hook => hook.primitive = primitive }

/-- The steps that wait first for a request of some kind. -/
def stepsAt (workspace : Workspace) (primitive : Primitive) :
    List EditorStep :=
  ((workspace.editor.hooks.find? fun hook =>
    hook.primitive = primitive).map Hook.steps).getD []

theorem exists_hook_of_mem_stepsAt {primitive : Primitive} {step : EditorStep}
    (member : step ∈ workspace.stepsAt primitive) :
    ∃ hook ∈ workspace.editor.hooks, hook.primitive = primitive ∧
      step ∈ hook.steps := by
  unfold Workspace.stepsAt at member
  cases found : workspace.editor.hooks.find? fun hook =>
      hook.primitive = primitive with
  | none =>
      rw [found] at member
      cases member
  | some hook =>
      rw [found] at member
      have here := List.find?_some found
      exact ⟨hook, List.mem_of_find?_eq_some found, of_decide_eq_true here,
        member⟩

theorem record_eq (workspace : Workspace) (primitive : Primitive)
    (call : EditorCall) :
    workspace.record primitive call =
      ((workspace.updateEditor fun editor => editor.record call).unhooked
        primitive).steps (workspace.stepsAt primitive) := by
  rw [record, takeHook_eq]
  rfl

theorem IsTame.stepsAt (tame : workspace.IsTame) (primitive : Primitive) :
    (∀ step ∈ workspace.stepsAt primitive, step.IsTame) ∧
      (primitive.isDrawing = false →
        ∀ step ∈ workspace.stepsAt primitive, step.IsInert) := by
  constructor
  · intro step member
    obtain ⟨hook, waits, -, inHook⟩ := exists_hook_of_mem_stepsAt member
    exact (tame hook waits).tame step inHook
  · intro other step member
    obtain ⟨hook, waits, rfl, inHook⟩ := exists_hook_of_mem_stepsAt member
    exact (tame hook waits).inert other step inHook

theorem IsTame.record (tame : workspace.IsTame) (primitive : Primitive)
    (call : EditorCall) : (workspace.record primitive call).IsTame := by
  rw [record_eq]
  have left : ((workspace.updateEditor fun editor =>
      editor.record call).unhooked primitive).IsTame :=
    fun hook member => tame hook (List.mem_of_mem_eraseP member)
  exact left.steps (tame.stepsAt primitive).1

/-- What is recorded of a request that does not serve to draw, and the steps
that wait for it, do not matter. -/
theorem resembles_record {primitive : Primitive} {call : EditorCall}
    (tame : workspace.IsTame) (other : primitive.isDrawing = false)
    (undrawn : call.isDrawing = false) :
    Resembles clocked workspace (workspace.record primitive call) := by
  rw [record_eq]
  have left : Resembles clocked workspace
      ((workspace.updateEditor fun editor => editor.record call).unhooked
        primitive) := by
    refine { Resembles.refl workspace with hooks := ?_, drawn := ?_ }
    · exact (drawingHooks_eraseP_of_not other _).symm
    · change _ = drawingCalls (workspace.editor.calls ++ [call])
      rw [drawingCalls_append, drawingCalls, drawingCalls, List.filter_cons,
        undrawn]
      exact (List.append_nil _).symm
  exact left.trans
    (resembles_inert_steps ((tame.stepsAt primitive).2 other) _)

theorem Resembles.record (resembles : Resembles clocked other workspace)
    (primitive : Primitive) (draws : primitive.isDrawing = true)
    (call : EditorCall) :
    Resembles clocked (other.record primitive call)
      (workspace.record primitive call) := by
  have same : other.stepsAt primitive = workspace.stepsAt primitive := by
    rw [stepsAt, stepsAt, ← find?_drawingHooks draws, resembles.hooks,
      find?_drawingHooks draws]
  rw [record_eq, record_eq, same]
  apply Resembles.steps
  refine { resembles with hooks := ?_, drawn := ?_ }
  · change drawingHooks (other.editor.hooks.eraseP _) =
      drawingHooks (workspace.editor.hooks.eraseP _)
    rw [drawingHooks_eraseP draws, drawingHooks_eraseP draws,
      resembles.hooks]
  · change drawingCalls (other.editor.calls ++ [call]) =
      drawingCalls (workspace.editor.calls ++ [call])
    rw [drawingCalls_append, drawingCalls_append, resembles.drawn]

/-- A request that serves to draw or to wait has the same answer where drawing
depends on the same. -/
theorem Resembles.answer (resembles : Resembles clocked other workspace)
    {request : Request} (decorates : request.IsDecorating) :
    (other.answer request).1 = (workspace.answer request).1 ∧
      Resembles clocked (other.answer request).2
        (workspace.answer request).2 := by
  cases request with
  | configuration name =>
      refine ⟨?_, resembles⟩
      change other.editor.sectionNamed name = workspace.editor.sectionNamed name
      rw [Editor.sectionNamed, Editor.sectionNamed, resembles.configuration]
  | createStyle style =>
      have counted : Resembles clocked
          (other.updateEditor fun editor =>
            { editor with nextToken := workspace.editor.nextToken + 1 })
          (workspace.updateEditor fun editor =>
            { editor with nextToken := workspace.editor.nextToken + 1 }) :=
        { resembles with nextToken := rfl }
      refine ⟨resembles.nextToken, ?_⟩
      change Resembles clocked (Workspace.record _ _
        (.createStyle other.editor.nextToken style)) _
      rw [resembles.nextToken]
      exact counted.record .createStyle rfl _
  | disposeStyle token =>
      exact ⟨rfl, resembles.record .disposeStyle rfl _⟩
  | applyDecorations token ranges =>
      have recorded := resembles.record .applyDecorations rfl
        (.applyDecorations token ranges)
      refine ⟨?_, recorded⟩
      change Editor.outcomeOf _ _ = Editor.outcomeOf _ _
      rw [Editor.outcomeOf, Editor.outcomeOf, if_congr recorded.fails rfl rfl]
  | unlisten listener =>
      refine ⟨rfl, { resembles with drawn := ?_ }⟩
      change drawingCalls (other.editor.calls ++ [_]) =
        drawingCalls (workspace.editor.calls ++ [_])
      rw [drawingCalls_append, drawingCalls_append, resembles.drawn]
  | startTimer delay sink =>
      refine ⟨resembles.nextTimer, { resembles with
        nextTimer := congrArg (· + 1) resembles.nextTimer, agenda := ?_ }⟩
      intro heeded
      change (other.agenda.start delay sink).2 =
        (workspace.agenda.start delay sink).2
      rw [resembles.agenda heeded]
  | cancelTimer timer =>
      refine ⟨rfl, { resembles with agenda := fun heeded => ?_ }⟩
      exact congrArg (Agenda.cancel · timer) (resembles.agenda heeded)
  | log entry =>
      refine ⟨rfl, { resembles with scheduled := ?_ }⟩
      change scheduledIn (other.log ++ [entry]) =
        scheduledIn (workspace.log ++ [entry])
      rw [scheduledIn_append, scheduledIn_append, resembles.scheduled]
  | document | setSelections _ | execute _ | listen _ _ =>
      exact absurd decorates id

theorem IsTame.answer (tame : workspace.IsTame) (request : Request) :
    (workspace.answer request).2.IsTame := by
  cases request with
  | createStyle _ | setSelections _ =>
      refine IsTame.record ?_ _ _
      exact tame.of_hooks rfl
  | disposeStyle _ | applyDecorations _ _ | execute _ =>
      exact IsTame.record tame _ _
  | _ => exact tame

/-- To fold and to unfold does not matter to drawing. -/
theorem resembles_answer (tame : workspace.IsTame) {request : Request}
    (folds : request.IsFolding) :
    Resembles clocked workspace (workspace.answer request).2 := by
  cases request with
  | document | configuration _ => exact .refl workspace
  | setSelections selections =>
      have selected : Resembles clocked workspace
          (workspace.updateEditor fun editor => editor.select selections) :=
        { Resembles.refl workspace with
          document := (unselected_select _ selections).symm }
      exact selected.trans (resembles_record tame rfl rfl)
  | execute command => exact resembles_record tame rfl rfl
  | log entry =>
      refine { Resembles.refl workspace with scheduled := ?_ }
      change _ = scheduledIn (workspace.log ++ [entry])
      rw [scheduledIn_append, scheduledIn, scheduledIn,
        List.filterMap_cons_none folds]
      exact (List.append_nil _).symm
  | _ => exact absurd folds id

end Workspace

end SignatureVeil
