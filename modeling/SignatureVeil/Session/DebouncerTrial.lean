import SignatureVeil.Session.Basic

/-!
# A debouncer by itself

A debouncer is tried out on a channel of its own.  After each step everything
that has been posted is taken from the channel.
-/

namespace SignatureVeil

/-- A debouncer, and a session with the channel that it posts to. -/
structure DebouncerTrial where
  session : Session
  channel : ChannelId
  debouncer : Debouncer

inductive DebouncerStep where
  | schedule (message : Message)
  | cancel
  | advance (milliseconds : Nat)
  | close
  /-- Let go of the debouncer and use one with another delay. -/
  | replace (delay : Nat)
  deriving DecidableEq, Repr

structure DebouncerReport where
  delay : Nat
  pending : Bool
  received : List Message
  time : Nat
  log : List LogRecord

namespace DebouncerTrial

def ofDelay (delay : Nat) : DebouncerTrial :=
  let (channel, workspace) := ({} : Workspace).openChannel
  ⟨{ workspace }, channel, { delay }⟩

def call (trial : DebouncerTrial)
    (operation : Debouncer → Interaction Debouncer) : DebouncerTrial :=
  let (debouncer, session) :=
    Session.await (operation trial.debouncer) trial.session
  { trial with debouncer, session }

def perform (trial : DebouncerTrial) : DebouncerStep → DebouncerTrial
  | .schedule message =>
      trial.call fun debouncer => debouncer.schedule ⟨message, trial.channel⟩
  | .cancel => trial.call Debouncer.cancel
  | .advance milliseconds =>
      { trial with session := trial.session.wait milliseconds }
  | .close =>
      let workspace := trial.session.workspace.closeChannel trial.channel
      { trial with session := trial.session.withWorkspace workspace }
  | .replace delay =>
      let trial := trial.call Debouncer.cancel
      { trial with debouncer := { delay } }

def step (trial : DebouncerTrial) (step : DebouncerStep) :
    DebouncerReport × DebouncerTrial :=
  let before := trial.session.workspace
  let trial := trial.perform step
  let session := trial.session.settle
  let workspace := session.workspace
  ({ delay := trial.debouncer.delay
     pending := workspace.isPending trial.debouncer
     received := workspace.queue trial.channel
     time := session.now
     log := workspace.log.drop before.log.length },
    { trial with session :=
        session.withWorkspace (workspace.setQueue trial.channel []) })

def reports (trial : DebouncerTrial) :
    List DebouncerStep → List DebouncerReport
  | [] => []
  | first :: rest =>
      let (report, trial) := trial.step first
      report :: trial.reports rest

end DebouncerTrial

end SignatureVeil
