import SignatureVeil.Session.Basic

/-!
# Steps of a session

What can be done in a session, what each step returns, and what can be seen of
the session after the step.  A session is settled after each step.
-/

namespace SignatureVeil

inductive SessionStep where
  | editor (step : EditorStep)
  /-- Replace the coordinator by a new one. -/
  | activate
  | advance (milliseconds : Nat)
  | post (message : Message)
  /-- Close the channel that is received from. -/
  | close
  /-- Take a message without handling it. -/
  | next
  | run
  /-- Decorate a document with the style that belongs to no coordinator. -/
  | visibilityApply (shown : Option Document) (settings : Settings)
  | visibilityRestyle (settings : Settings)
  | visibilityTeardown
  | foldBlocks (shown : Option Document) (settings : Settings)
  | handle (message : Message)
  | hideAndFold
  | showAndUnfold
  | drain
  | scheduleHide
  | deactivate
  /-- Let go of the coordinator. -/
  | drop
  deriving Repr

inductive StepResult where
  | nothing
  /-- There is no coordinator to do it. -/
  | inactive
  | outcome (outcome : Outcome)
  | count (count : Nat)
  | accepted (accepted : Option Bool)
  | message (message : Option Message)
  | token (token : StyleToken)
  | drained (handled : List (Message × Outcome))

namespace Session

/-- Call an operation of the coordinator that returns an outcome. -/
def callCoordinator (session : Session)
    (operation : Coordinator → Interaction (Coordinator × Outcome)) :
    StepResult × Session :=
  match session.coordinator with
  | none => (.inactive, session)
  | some coordinator =>
      let ((coordinator, outcome), session) :=
        await (operation coordinator) session
      (.outcome outcome, { session with coordinator := some coordinator })

/-- Call an operation of the coordinator that returns nothing. -/
def changeCoordinator (session : Session)
    (operation : Coordinator → Interaction Coordinator) :
    StepResult × Session :=
  match session.coordinator with
  | none => (.inactive, session)
  | some coordinator =>
      let (coordinator, session) := await (operation coordinator) session
      (.nothing, { session with coordinator := some coordinator })

def editorStep (session : Session) (step : EditorStep) :
    StepResult × Session :=
  match step with
  | .fire event =>
      let (count, workspace) := session.workspace.fire event
      (.count count, session.withWorkspace workspace)
  | .invoke id =>
      let (accepted, workspace) := session.workspace.invoke id
      (.accepted accepted, session.withWorkspace workspace)
  | step => (.nothing, session.withWorkspace (session.workspace.step step))

def perform (session : Session) : SessionStep → StepResult × Session
  | .editor step => session.editorStep step
  | .activate =>
      let (outcome, session) := session.activate
      (.outcome outcome, session)
  | .advance milliseconds =>
      (.nothing, session.wait milliseconds)
  | .post message =>
      let (accepted, session) := session.post message
      (.accepted accepted, session)
  | .close => (.nothing, session.closeReceiver)
  | .next =>
      let (message, session) := session.takeMessage
      (.message message, session)
  | .run => (.nothing, session.startLoop)
  | .visibilityApply shown settings =>
      let ((visibility, outcome), session) :=
        await (session.visibility.apply shown settings) session
      (.outcome outcome, { session with visibility })
  | .visibilityRestyle settings =>
      let (token, session) :=
        await (session.visibility.restyle settings) session
      (.token token, { session with visibility := ⟨some token⟩ })
  | .visibilityTeardown =>
      let (visibility, session) := await session.visibility.teardown session
      (.nothing, { session with visibility })
  | .foldBlocks shown settings =>
      let (outcome, session) :=
        await (SignatureVeil.foldBlocks shown settings) session
      (.outcome outcome, session)
  | .handle message =>
      session.callCoordinator fun coordinator => coordinator.handle message
  | .hideAndFold => session.callCoordinator Coordinator.hideAndFold
  | .showAndUnfold => session.callCoordinator Coordinator.showAndUnfold
  | .drain =>
      match session.coordinator with
      | none => (.inactive, session)
      | some coordinator =>
          let (handled, coordinator, session) := drain coordinator session
          (.drained handled, { session with coordinator := some coordinator })
  | .scheduleHide => session.changeCoordinator Coordinator.scheduleHide
  | .deactivate => session.changeCoordinator Coordinator.deactivate
  | .drop =>
      match session.coordinator with
      | none => (.inactive, session)
      | some _ => (.nothing, session.dropCoordinator)

end Session

structure StepReport where
  result : StepResult
  /-- The requests that the editor recorded during the step. -/
  calls : List EditorCall
  log : List LogRecord
  /-- Whether the coordinator waits for the end of a quiet period. -/
  pending : Option Bool
  queued : Option Nat
  listeners : Nat
  running : Bool
  /-- The token of the style that belongs to no coordinator. -/
  style : Option StyleToken
  selections : Option (List Selection)
  time : Nat

namespace Session

def step (session : Session) (step : SessionStep) : StepReport × Session :=
  let before := session.workspace
  let (result, session) := session.perform step
  let session := session.settle
  let workspace := session.workspace
  ({ result
     calls := workspace.editor.calls.drop before.editor.calls.length
     log := workspace.log.drop before.log.length
     pending := session.coordinator.map fun coordinator =>
       workspace.isPending coordinator.debouncer
     queued := session.receiver.map fun channel =>
       (workspace.queue channel).length
     listeners := workspace.editor.listeners.length
     running := !session.loops.isEmpty
     style := session.visibility.style
     selections := workspace.editor.document.map Document.selections
     time := session.now }, session)

def reports (session : Session) : List SessionStep → List StepReport
  | [] => []
  | first :: rest =>
      let (report, session) := session.step first
      report :: session.reports rest

end Session

end SignatureVeil
