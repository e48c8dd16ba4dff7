import Mathlib.Logic.Relation
import SignatureVeil.Proofs.Coordinator.Requests
import SignatureVeil.Proofs.Workspace.Carrying
import SignatureVeil.Proofs.Workspace.Deliveries
import SignatureVeil.Proofs.Workspace.Recording

/-!
# Messages that are handled in turn

Messages are taken from a channel one after the other and handled, each to its
end before the next is taken, while other things go on.  Nobody else makes
calls, so what the editor records are the calls of each message in turn.  A
coordinator never logs that a message failed: whoever hands it the messages
makes a note of each failure, and of nothing else.
-/

namespace SignatureVeil

open Interaction

/-! ## Failures in the log -/

/-- Whether a record says that a message failed. -/
def LogRecord.isFailure : LogRecord → Bool
  | .failed _ _ => true
  | _ => false

/-- The failures that a log tells of. -/
def failuresIn (log : List LogRecord) : List LogRecord :=
  log.filter LogRecord.isFailure

/-- Whether a request does not log a failure. -/
def Request.IsDiscreet : Request → Prop
  | .log entry => entry.isFailure = false
  | _ => True

/-- Whether a message was handled without failing is noted in the log. -/
def Workspace.noted (workspace : Workspace) (message : Message) :
    Outcome → Workspace
  | .ok _ => workspace
  | .error failure => (workspace.answer (.log (.failed message failure))).2

namespace Workspace

variable {workspace before after : Workspace}

theorem failuresIn_answer {request : Request} (discreet : request.IsDiscreet)
    (workspace : Workspace) :
    failuresIn (workspace.answer request).2.log = failuresIn workspace.log := by
  cases request with
  | log entry =>
      change failuresIn (workspace.log ++ [entry]) = _
      rw [failuresIn, List.filter_append, List.filter_cons_of_neg, ← failuresIn,
        List.filter_nil, List.append_nil]
      rw [show entry.isFailure = false from discreet]
      exact Bool.false_ne_true
  | document | configuration _ | listen _ _ | unlisten _ | startTimer _ _
  | cancelTimer _ => rfl
  | _ => exact congrArg failuresIn (log_steps _ _)

/-- What goes on by itself neither makes calls nor is it logged. -/
theorem Moves.silent {sinks : List Sink} (moves : Moves sinks before after) :
    after.editor.calls = before.editor.calls ∧ after.log = before.log := by
  cases moves with
  | edited _ step => exact ⟨calls_step before step, log_step before step⟩
  | posted _ sink =>
      exact ⟨congrArg Editor.calls (emit_same before sink).editor,
        log_emit before sink⟩
  | elapsed | noticed => exact ⟨rfl, rfl⟩
  | fired =>
      exact ⟨congrArg Editor.calls (fireTimers_spec before).1,
        log_emitAll _ _⟩

/-- Other things go on for a while. -/
abbrev GoesOn : Workspace → Workspace → Prop :=
  Relation.ReflTransGen fun before after => ∃ sinks, Moves sinks before after

theorem GoesOn.silent (goesOn : GoesOn before after) :
    after.editor.calls = before.editor.calls ∧ after.log = before.log := by
  induction goesOn with
  | refl => exact ⟨rfl, rfl⟩
  | tail _ moves ih =>
      obtain ⟨sinks, moves⟩ := moves
      obtain ⟨calls, log⟩ := moves.silent
      exact ⟨calls.trans ih.1, log.trans ih.2⟩

end Workspace

/-! ## What a coordinator logs -/

theorem Request.IsDiscreet.remark {entry : LogRecord}
    (remark : entry.isRemark = true) : (Request.log entry).IsDiscreet := by
  cases entry with
  | failed message failure => cases remark
  | _ => rfl

theorem Request.IsDiscreet.allowsDrawing : AllowsDrawing Request.IsDiscreet :=
  ⟨⟨fun _ => trivial, fun _ => Request.IsDiscreet.remark⟩, fun _ => trivial,
    fun _ => trivial, fun _ _ => trivial⟩

theorem Request.IsDiscreet.allowsFolding : AllowsFolding Request.IsDiscreet :=
  ⟨⟨fun _ => trivial, fun _ => Request.IsDiscreet.remark⟩, fun _ => trivial,
    fun _ => trivial⟩

theorem discreet_scheduleHide (coordinator : Coordinator) :
    coordinator.scheduleHide.Asks Request.IsDiscreet fun _ => True := by
  have scheduling : (coordinator.debouncer.schedule
      ⟨.debounceElapsed, coordinator.channel⟩).Asks Request.IsDiscreet
        fun _ => True := by
    apply (asks_cancel fun _ _ => trivial).bind
    exact fun _ _ => ⟨rfl, fun _ => ⟨trivial, fun _ => trivial⟩⟩
  exact scheduling.bind fun _ _ => trivial

theorem discreet_deactivate (coordinator : Coordinator) :
    coordinator.deactivate.Asks Request.IsDiscreet fun _ => True :=
  asks_deactivate (fun _ _ => trivial) (fun _ => trivial) rfl fun _ => trivial

/-- A coordinator that handles a message does not log that it failed. -/
theorem discreet_handle (coordinator : Coordinator) (message : Message) :
    (coordinator.handle message).Asks Request.IsDiscreet fun _ => True := by
  have draws := Request.IsDiscreet.allowsDrawing
  have folds := Request.IsDiscreet.allowsFolding
  have hideAndFold := (draws.hideAndFold folds trivial coordinator).mono
    (fun _ discreet => discreet) fun _ _ => trivial
  apply (draws.log rfl).bind
  intro _ _
  cases message with
  | activeEditorChanged => exact hideAndFold
  | documentChanged =>
      exact (discreet_scheduleHide coordinator).bind fun _ _ => trivial
  | command given =>
      cases given with
      | hideSignatures => exact hideAndFold
      | showSignatures =>
          exact (draws.showAndUnfold folds trivial coordinator).mono
            (fun _ discreet => discreet) fun _ _ => trivial
  | debounceElapsed =>
      exact (draws.hide trivial coordinator).mono
        (fun _ discreet => discreet) fun _ _ => trivial
  | shutdown => exact (discreet_deactivate coordinator).bind fun _ _ => trivial

/-! ## Turns -/

/-- A message that was handled: what came of it, and what the editor recorded
of it. -/
structure Turn where
  message : Message
  outcome : Outcome
  calls : List EditorCall

/-- The note that is made of a failure. -/
def Turn.failure? (turn : Turn) : Option LogRecord :=
  match turn.outcome with
  | .ok _ => none
  | .error failure => some (.failed turn.message failure)

open Workspace

/-- The messages of a channel have been taken and handled in turn, while other
things went on. -/
inductive InTurn (channel : ChannelId) (first : Coordinator)
    (start : Workspace) : List Turn → Coordinator → Workspace → Prop where
  | begun : InTurn channel first start [] first start
  | passed {turns : List Turn} {holder : Coordinator}
      {workspace later : Workspace} {sinks : List Sink}
      (inTurn : InTurn channel first start turns holder workspace)
      (moves : Moves sinks workspace later) :
      InTurn channel first start turns holder later
  | handled {turns : List Turn} {holder changed : Coordinator}
      {workspace left last : Workspace} {message : Message}
      {outcome : Outcome} {calls : List EditorCall}
      (inTurn : InTurn channel first start turns holder workspace)
      (taken : workspace.take? channel = some (message, left))
      (goesOn : message ≠ .shutdown)
      (carried : Carried GoesOn (changed, outcome) last
        (holder.handle message) left)
      (recorded : last.editor.calls = left.editor.calls ++ calls) :
      InTurn channel first start (turns ++ [⟨message, outcome, calls⟩])
        changed (last.noted message outcome)

variable {channel : ChannelId} {first holder changed : Coordinator}
  {start workspace left last : Workspace} {turns : List Turn}
  {message : Message} {outcome : Outcome}

theorem Workspace.take?_same {left : Workspace}
    (taken : workspace.take? channel = some (message, left)) :
    left.editor = workspace.editor ∧ left.agenda = workspace.agenda ∧
      left.log = workspace.log := by
  unfold take? at taken
  split at taken
  · contradiction
  · obtain ⟨-, rfl⟩ := Prod.mk.inj (Option.some.inj taken)
    exact ⟨rfl, rfl, rfl⟩

theorem Workspace.calls_noted (workspace : Workspace) (message : Message)
    (outcome : Outcome) :
    (workspace.noted message outcome).editor.calls =
      workspace.editor.calls := by
  cases outcome <;> rfl

theorem Workspace.failuresIn_noted (workspace : Workspace) (turn : Turn) :
    failuresIn (workspace.noted turn.message turn.outcome).log =
      failuresIn workspace.log ++ turn.failure?.toList := by
  obtain ⟨message, outcome, calls⟩ := turn
  cases outcome with
  | ok _ => exact (List.append_nil _).symm
  | error failure => exact List.filter_append _ _

/-- An order to shut down does not get a turn. -/
theorem InTurn.shutdown_notMem (inTurn : InTurn channel first start turns
    holder workspace) : .shutdown ∉ turns.map Turn.message := by
  induction inTurn with
  | begun => exact List.not_mem_nil
  | passed _ _ ih => exact ih
  | handled _ _ goesOn _ _ ih =>
      rw [List.map_append, List.mem_append, List.map_singleton,
        List.mem_singleton, not_or]
      exact ⟨ih, goesOn.symm⟩

/-- What the editor has recorded are the calls of the turns, one after the
other. -/
theorem InTurn.calls (inTurn : InTurn channel first start turns holder
    workspace) :
    workspace.editor.calls =
      start.editor.calls ++ turns.flatMap Turn.calls := by
  induction inTurn with
  | begun => exact (List.append_nil _).symm
  | passed _ moves ih => rw [moves.silent.1, ih]
  | handled _ taken _ _ recorded ih =>
      rw [calls_noted, recorded, (take?_same taken).1, ih, List.flatMap_append,
        List.flatMap_singleton, List.append_assoc]

/-- For each message that failed there is one note, and there are no others. -/
theorem InTurn.failures (inTurn : InTurn channel first start turns holder
    workspace) :
    failuresIn workspace.log =
      failuresIn start.log ++ turns.filterMap Turn.failure? := by
  induction inTurn with
  | begun => exact (List.append_nil _).symm
  | passed _ moves ih => rw [moves.silent.2, ih]
  | @handled turns holder changed workspace left last message outcome calls
      _ taken _ carried recorded ih =>
      have kept := (carried.preserves
        (fun later => failuresIn later.log = failuresIn left.log)
        (fun same discreet => (failuresIn_answer discreet _).trans same)
        (discreet_handle _ _) rfl
        fun same goesOn => by rw [(GoesOn.silent goesOn).2, same]).1
      rw [failuresIn_noted last ⟨message, outcome, calls⟩, kept,
        (take?_same taken).2.2, ih, List.filterMap_append, List.append_assoc]
      cases outcome <;> rfl

end SignatureVeil
