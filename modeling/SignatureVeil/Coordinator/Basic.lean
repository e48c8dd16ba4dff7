import SignatureVeil.Coordinator.Debouncer
import SignatureVeil.Coordinator.Folding
import SignatureVeil.Coordinator.Visibility

/-!
# The coordinator

The coordinator listens to the editor, owns the decoration style and the
timer of the quiet period, and acts on the messages that are posted to its
channel.  It asks for the document and the settings anew each time it acts.
When it is deactivated it gives back everything it owns.
-/

namespace SignatureVeil

/-- The coordinator between two messages. -/
structure Coordinator where
  channel : ChannelId
  visibility : Visibility := {}
  debouncer : Debouncer := {}
  listeners : List ListenerId := []
  deriving DecidableEq, Repr

namespace Coordinator

/-- The topics that the coordinator listens to, each with the message that is
posted for it. -/
def topics : List (Topic × Message) :=
  EditorEvent.all.map (fun event => (.event event, event.message)) ++
    Command.all.map fun command => (.command command, .command command)

def listenTo (channel : ChannelId) :
    List (Topic × Message) → Interaction (List ListenerId)
  | [] => .done []
  | (topic, message) :: rest =>
      .ask (.listen topic ⟨message, channel⟩) fun (listener : ListenerId) => do
        let listeners ← listenTo channel rest
        return listener :: listeners

def unlisten : List ListenerId → Interaction Unit
  | [] => .done ()
  | listener :: rest => .ask (.unlisten listener) fun _ => unlisten rest

/-- Decorate the signatures of the document that is shown. -/
def hide (coordinator : Coordinator) :
    Interaction (Coordinator × Outcome) := do
  let settings ← Interaction.settings
  let shown ← Interaction.request .document
  let (visibility, outcome) ← coordinator.visibility.apply shown settings
  return ({ coordinator with visibility }, outcome)

/-- Decorate, and fold what may be folded. -/
def hideAndFold (coordinator : Coordinator) :
    Interaction (Coordinator × Outcome) := do
  let (coordinator, hidden) ← coordinator.hide
  match hidden with
  | .error failure => return (coordinator, .error failure)
  | .ok _ =>
      let settings ← Interaction.settings
      let shown ← Interaction.request .document
      let folded ← foldBlocks shown settings
      return (coordinator, folded)

/-- Replace the style, which removes the decorations, and unfold everything if
hiding is enabled. -/
def showAndUnfold (coordinator : Coordinator) :
    Interaction (Coordinator × Outcome) := do
  let shown ← Interaction.request .document
  match ← Interaction.target shown with
  | none => return (coordinator, .ok ())
  | some _ =>
      let settings ← Interaction.settings
      let token ← coordinator.visibility.restyle settings
      let coordinator := { coordinator with visibility := ⟨some token⟩ }
      if settings.enabled then
        let unfolded ← Interaction.request (.execute .unfoldAll)
        return (coordinator, unfolded)
      else
        return (coordinator, .ok ())

/-- Begin the quiet period anew. -/
def scheduleHide (coordinator : Coordinator) : Interaction Coordinator := do
  let debouncer ← coordinator.debouncer.schedule
    ⟨.debounceElapsed, coordinator.channel⟩
  return { coordinator with debouncer }

/-- Give back the timer, the style and the listeners.  Doing so again does
nothing. -/
def deactivate (coordinator : Coordinator) : Interaction Coordinator := do
  let debouncer ← coordinator.debouncer.cancel
  let visibility ← coordinator.visibility.teardown
  unless coordinator.listeners.isEmpty do
    Interaction.log .deactivated
  unlisten coordinator.listeners
  return { coordinator with debouncer, visibility, listeners := [] }

def handle (coordinator : Coordinator) (message : Message) :
    Interaction (Coordinator × Outcome) := do
  Interaction.log (.handling message)
  match message with
  | .activeEditorChanged | .command .hideSignatures =>
      coordinator.hideAndFold
  | .command .showSignatures => coordinator.showAndUnfold
  | .documentChanged =>
      let coordinator ← coordinator.scheduleHide
      return (coordinator, .ok ())
  | .debounceElapsed => coordinator.hide
  | .shutdown =>
      let coordinator ← coordinator.deactivate
      return (coordinator, .ok ())

/-- Announce an activation that succeeded.  If it failed, everything is given
back. -/
def conclude (coordinator : Coordinator) (outcome : Outcome) :
    Interaction (Except Failure Coordinator) :=
  match outcome with
  | .error failure => do
      let _ ← coordinator.deactivate
      return .error failure
  | .ok _ => do
      Interaction.log .activated
      return .ok coordinator

/-- Listen to the editor, and hide the signatures of the document that is
already shown. -/
def activate (channel : ChannelId) :
    Interaction (Except Failure Coordinator) := do
  let listeners ← listenTo channel topics
  let coordinator : Coordinator := { channel, listeners }
  let shown : Option Document ← Interaction.request .document
  let (coordinator, outcome) ←
    if shown.isSome then
      coordinator.hideAndFold
    else
      pure (coordinator, .ok ())
  coordinator.conclude outcome

/-- One turn of the message loop.  The order to shut down ends the loop; the
failure of any other message is logged, and the loop goes on. -/
def serve (coordinator : Coordinator) (message : Message) :
    Interaction (Option Coordinator) := do
  if message = .shutdown then
    let _ ← coordinator.deactivate
    return none
  else
    let (coordinator, outcome) ← coordinator.handle message
    match outcome with
    | .error failure => Interaction.log (.failed message failure)
    | .ok _ => pure ()
    return some coordinator

end Coordinator

end SignatureVeil
