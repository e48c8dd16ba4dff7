import SignatureVeil.Session.MessageLoop

/-!
# Sessions

A session is a workspace together with the message loops that run in it and
with a coordinator that is not in a loop, whose operations are called directly.
Time passes only when the session is told to let it pass, or while an
operation that was called directly waits for an editor command.

Operations and loops take turns.  An operation that was called directly goes
first, then the loops at whose channels something has come up, in that order,
then the timers whose deadline has come post their messages, and the loops
serve these.  Only then do waits end: those of all commands whose time has
come, in the order in which they began, and the next turn begins.  When no
wait ends any more the session is settled.
-/

namespace SignatureVeil

structure Session where
  workspace : Workspace := {}
  /-- The coordinator that is not in a loop. -/
  coordinator : Option Coordinator := none
  /-- The channel whose messages the session may take. -/
  receiver : Option ChannelId := none
  /-- The channel of the last activation that succeeded. -/
  sender : Option ChannelId := none
  /-- The message loops that run; the one that went on last is the last. -/
  loops : List MessageLoop := []
  /-- A decoration style that belongs to no coordinator. -/
  visibility : Visibility := {}

namespace Session

def withWorkspace (session : Session) (workspace : Workspace) : Session :=
  { session with workspace }

def now (session : Session) : Nat :=
  session.workspace.agenda.now

def setClock (session : Session) (time : Nat) : Session :=
  session.withWorkspace (session.workspace.setClock time)

/-! ## Taking turns -/

/-- Let one loop go on until it waits or ends.  A loop that waits for a
command is let alone. -/
def runLoop (session : Session) (channel : ChannelId) : Session :=
  match session.loops.find? fun loop => loop.channel = channel with
  | none => session
  | some loop =>
      if loop.wakeTime?.isSome then
        session
      else
        let (loop, workspace) :=
          loop.run (session.workspace.workload + 2) session.workspace
        let others :=
          session.loops.filter fun other => other.channel ≠ channel
        { session with workspace, loops := others ++ loop.toList }

/-- Attend to the channels at which something has come up, one after the
other, but to at most `limit` of them. -/
def attendUpTo : (limit : Nat) → Session → Session
  | 0, session => session
  | limit + 1, session =>
      match session.workspace.woken with
      | [] => session
      | channel :: _ =>
          let session := session.runLoop channel
          attendUpTo limit
            (session.withWorkspace (session.workspace.attend channel))

/-- Attend to the channels at which something has come up, until there are
none left.  A message that is posted meanwhile makes for one channel more. -/
def attend (session : Session) : Session :=
  attendUpTo (session.workspace.woken.length + session.workspace.workload)
    session

/-- Do everything that can be done before another wait ends. -/
def finishTurn (session : Session) : Session :=
  let session := session.attend
  (session.withWorkspace session.workspace.fireTimers).attend

/-- Whether a loop waits for a command whose time has come. -/
def hasEndedWait (session : Session) : Bool :=
  session.loops.any fun loop => loop.isOver session.now

/-- End the waits for all commands whose time has come. -/
def endWaits (session : Session) : Session :=
  let ended := session.loops.filter fun loop => loop.isOver session.now
  let workspace :=
    (ended.map MessageLoop.channel).foldl Workspace.wake session.workspace
  { session with
    workspace
    loops := session.loops.map fun loop =>
      if loop.isOver session.now then loop.resume else loop }

/-- Take turns until no wait ends any more, but at most `limit` times. -/
def settleUpTo : (limit : Nat) → Session → Session
  | 0, session => session
  | limit + 1, session =>
      let session := session.finishTurn
      if session.hasEndedWait then
        settleUpTo limit session.endWaits
      else
        session

/-- Do everything that can be done at the present time.  There are at most two
commands for every loop that waits and for every message. -/
def settle (session : Session) : Session :=
  settleUpTo (2 * (session.workspace.workload +
    session.workspace.agenda.timers.length + session.loops.length) + 1) session

/-! ## Passing time -/

/-- The time of the next timer that runs out or command that ends. -/
def nextTime? (session : Session) : Option Nat :=
  (session.workspace.agenda.timers.map Timer.deadline ++
    session.loops.filterMap MessageLoop.wakeTime?).min?

/-- Let time pass from `time` to `target`, and let everything happen that is
to happen in between.  What is due at the target itself is left undone. -/
def elapseFrom (time target : Nat) (session : Session) : Session :=
  match session.nextTime? with
  | none => session.setClock target
  | some next =>
      let stop := max (time + 1) next
      if stop < target then
        elapseFrom stop target (session.setClock stop).endWaits.settle
      else
        session.setClock target
termination_by target - time

/-- Wait for some milliseconds, and let the others go on meanwhile.  Whoever
waits goes on before them when the time has come.  A wait of no length lasts
until the others have had their turn. -/
def wait (session : Session) (milliseconds : Nat) : Session :=
  let target := session.workspace.agenda.timeAfter milliseconds
  if target ≤ session.now then
    session.finishTurn.endWaits
  else
    (elapseFrom session.now target session.settle).endWaits

/-! ## Calling operations -/

/-- Carry out an interaction to its end, and wait at every editor command. -/
def await {α : Type} : Interaction α → Session → α × Session
  | .done result, session => (result, session)
  | .ask (.execute command) next, session =>
      let session :=
        session.withWorkspace (session.workspace.begin command)
      let session := session.wait session.workspace.editor.latency
      await (next (session.workspace.editor.outcomeOf (.execute command)))
        session
  | .ask request next, session =>
      let (answer, workspace) := session.workspace.answer request
      await (next answer) (session.withWorkspace workspace)

/-- Close the channel that the session may take messages from. -/
def closeReceiver (session : Session) : Session :=
  match session.receiver with
  | some channel =>
      { session with
        workspace := session.workspace.closeChannel channel
        receiver := none }
  | none => session

def dropCoordinator (session : Session) : Session :=
  match session.coordinator with
  | some coordinator =>
      let (_, session) := await coordinator.deactivate session
      { session with coordinator := none }
  | none => session

def activate (session : Session) : Outcome × Session :=
  let session := session.dropCoordinator.closeReceiver
  let (channel, workspace) := session.workspace.openChannel
  let (result, session) :=
    await (Coordinator.activate channel) (session.withWorkspace workspace)
  match result with
  | .ok coordinator =>
      (.ok (), { session with
        coordinator := some coordinator
        receiver := some channel
        sender := some channel })
  | .error failure =>
      (.error failure,
        session.withWorkspace (session.workspace.closeChannel channel))

/-- Post a message to the channel of the last activation that succeeded, and
return whether it is accepted. -/
def post (session : Session) (message : Message) : Option Bool × Session :=
  match session.sender with
  | some channel =>
      let (accepted, workspace) := session.workspace.emit ⟨message, channel⟩
      (some accepted, session.withWorkspace workspace)
  | none => (none, session)

def takeMessage (session : Session) : Option Message × Session :=
  match session.receiver with
  | some channel =>
      match session.workspace.take? channel with
      | some (message, workspace) =>
          (some message, session.withWorkspace workspace)
      | none => (none, session)
  | none => (none, session)

/-- Move the coordinator and the channel that is received from into a message
loop, if both are there. -/
def startLoop (session : Session) : Session :=
  match session.coordinator, session.receiver with
  | some coordinator, some channel =>
      { session with
        workspace := session.workspace.wake channel
        coordinator := none
        receiver := none
        loops := session.loops ++ [⟨channel, .idle coordinator⟩] }
  | _, _ => session

/-- Handle messages until none is left, those that arrive meanwhile included,
but at most `limit` of them. -/
def drainUpTo : (limit : Nat) → Coordinator → Session →
    List (Message × Outcome) × Coordinator × Session
  | 0, coordinator, session => ([], coordinator, session)
  | limit + 1, coordinator, session =>
      match session.takeMessage with
      | (none, session) => ([], coordinator, session)
      | (some message, session) =>
          let ((coordinator, outcome), session) :=
            await (coordinator.handle message) session
          let (handled, coordinator, session) :=
            drainUpTo limit coordinator session
          ((message, outcome) :: handled, coordinator, session)

/-- Handle messages until none is left, those that arrive meanwhile included.
Every message can start a timer that posts one more. -/
def drain (coordinator : Coordinator) (session : Session) :
    List (Message × Outcome) × Coordinator × Session :=
  drainUpTo (2 * session.workspace.workload +
    session.workspace.agenda.timers.length + 1) coordinator session

end Session

end SignatureVeil
