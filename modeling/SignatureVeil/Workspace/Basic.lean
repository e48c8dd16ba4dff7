import SignatureVeil.Coordinator.Debouncer
import SignatureVeil.Editor.Interaction
import SignatureVeil.Workspace.Agenda
import SignatureVeil.Workspace.Editor

/-!
# The surroundings of the coordinator

A workspace is an editor, the channels that messages are posted to, the timers
that are running, and the log.  It answers every request.  The steps of a hook
run as soon as the request they wait for has been recorded, before it takes
time and before it is decided whether it fails.

The workspace also remembers at which channels something has come up, so that
whoever serves them can do so in that order.
-/

namespace SignatureVeil

/-- A channel with the messages that wait in it.  A closed channel accepts no
messages and has none. -/
structure Channel where
  isOpen : Bool := true
  queue : List Message := []
  deriving DecidableEq, Repr

structure Workspace where
  editor : Editor := {}
  /-- All channels, each at the place of its name. -/
  channels : List Channel := []
  agenda : Agenda := {}
  log : List LogRecord := []
  /-- The channels at which something has come up that has not been attended
  to, in the order in which it came up. -/
  woken : List ChannelId := []
  deriving Repr

namespace Workspace

/-! ## Channels -/

/-- Open another channel, and return its name. -/
def openChannel (workspace : Workspace) : ChannelId × Workspace :=
  (workspace.channels.length,
    { workspace with channels := workspace.channels ++ [{}] })

def isOpen (workspace : Workspace) (channel : ChannelId) : Bool :=
  (workspace.channels[channel]?).any Channel.isOpen

def queue (workspace : Workspace) (channel : ChannelId) : List Message :=
  match workspace.channels[channel]? with
  | some found => found.queue
  | none => []

def setQueue (workspace : Workspace) (channel : ChannelId)
    (queue : List Message) : Workspace :=
  { workspace with channels :=
      workspace.channels.modify channel fun found => { found with queue } }

/-- Close a channel.  The messages in it are lost. -/
def closeChannel (workspace : Workspace) (channel : ChannelId) : Workspace :=
  { workspace with channels :=
      workspace.channels.set channel { isOpen := false } }

/-- Remember that something has come up at a channel. -/
def wake (workspace : Workspace) (channel : ChannelId) : Workspace :=
  if channel ∈ workspace.woken then
    workspace
  else
    { workspace with woken := workspace.woken ++ [channel] }

/-- Forget what has come up at a channel. -/
def attend (workspace : Workspace) (channel : ChannelId) : Workspace :=
  { workspace with
    woken := workspace.woken.filter fun other => other ≠ channel }

/-- Post to a sink, and return whether it is accepted. -/
def emit (workspace : Workspace) (sink : Sink) : Bool × Workspace :=
  if workspace.isOpen sink.channel then
    let posted := workspace.setQueue sink.channel
      (workspace.queue sink.channel ++ [sink.message])
    (true, posted.wake sink.channel)
  else
    (false, workspace)

/-- Post to a sink a number of times, and return each time whether it is
accepted. -/
def emitTimes (workspace : Workspace) (sink : Sink) :
    Nat → List Bool × Workspace
  | 0 => ([], workspace)
  | count + 1 =>
      let (accepted, workspace) := workspace.emit sink
      let (later, workspace) := workspace.emitTimes sink count
      (accepted :: later, workspace)

/-- Post to some sinks, and return how many accept. -/
def emitAll (workspace : Workspace) : List Sink → Nat × Workspace
  | [] => (0, workspace)
  | sink :: rest =>
      let (accepted, workspace) := workspace.emit sink
      let (count, workspace) := workspace.emitAll rest
      ((if accepted then 1 else 0) + count, workspace)

/-- Take the message that has waited longest in a channel. -/
def take? (workspace : Workspace) (channel : ChannelId) :
    Option (Message × Workspace) :=
  match workspace.queue channel with
  | [] => none
  | message :: rest => some (message, workspace.setQueue channel rest)

/-! ## Steps of the editor -/

/-- The sinks that are registered for a topic, the oldest first. -/
def sinksOf (workspace : Workspace) (topic : Topic) : List Sink :=
  (workspace.editor.listeners.filter fun listener =>
    listener.topic = topic).map Listener.sink

/-- Report an event to all who listen, and return how many accept. -/
def fire (workspace : Workspace) (event : EditorEvent) : Nat × Workspace :=
  workspace.emitAll (workspace.sinksOf (.event event))

/-- Post to the oldest sink that is registered for the command with an
identifier, and return whether it accepts.  There is no answer for an unknown
identifier. -/
def invoke (workspace : Workspace) (id : String) :
    Option Bool × Workspace :=
  match Command.ofId? id with
  | none => (none, workspace)
  | some command =>
      match workspace.sinksOf (.command command) with
      | [] => (some false, workspace)
      | sink :: _ =>
          let (accepted, workspace) := workspace.emit sink
          (some accepted, workspace)

def updateEditor (workspace : Workspace) (update : Editor → Editor) :
    Workspace :=
  { workspace with editor := update workspace.editor }

def step (workspace : Workspace) : EditorStep → Workspace
  | .focus document =>
      workspace.updateEditor fun editor => { editor with document }
  | .setText text =>
      workspace.updateEditor fun editor =>
        editor.updateDocument fun document => { document with text }
  | .select selections =>
      workspace.updateEditor fun editor => editor.select selections
  | .configure configuration =>
      workspace.updateEditor fun editor => { editor with configuration }
  | .failOn failing =>
      workspace.updateEditor fun editor => { editor with failing }
  | .delay latency =>
      workspace.updateEditor fun editor => { editor with latency }
  | .hook primitive steps =>
      workspace.updateEditor fun editor =>
        { editor with hooks := editor.hooks ++ [⟨primitive, steps⟩] }
  | .fire event => (workspace.fire event).2
  | .invoke id => (workspace.invoke id).2

def steps (workspace : Workspace) (steps : List EditorStep) : Workspace :=
  steps.foldl step workspace

/-! ## Answering requests -/

/-- Record a request, and run the steps that wait for it. -/
def record (workspace : Workspace) (primitive : Primitive)
    (call : EditorCall) : Workspace :=
  let (hooked, editor) := (workspace.editor.record call).takeHook primitive
  { workspace with editor }.steps hooked

/-- Record an editor command.  How it ends is decided later. -/
def begin (workspace : Workspace) (command : EditorCommand) : Workspace :=
  workspace.record (.execute command) (.execute command)

def answer (workspace : Workspace) :
    (request : Request) → request.Answer × Workspace
  | .document => (workspace.editor.document, workspace)
  | .configuration name => (workspace.editor.sectionNamed name, workspace)
  | .createStyle style =>
      let token := workspace.editor.nextToken
      let workspace := workspace.updateEditor fun editor =>
        { editor with nextToken := token + 1 }
      (token, workspace.record .createStyle (.createStyle token style))
  | .disposeStyle token =>
      ((), workspace.record .disposeStyle (.disposeStyle token))
  | .applyDecorations token ranges =>
      let workspace := workspace.record .applyDecorations
        (.applyDecorations token ranges)
      (workspace.editor.outcomeOf .applyDecorations, workspace)
  | .setSelections selections =>
      let workspace := workspace.updateEditor fun editor =>
        editor.select selections
      ((), workspace.record .setSelections (.setSelections selections))
  | .execute command =>
      let workspace := workspace.begin command
      (workspace.editor.outcomeOf (.execute command), workspace)
  | .listen topic sink =>
      (workspace.editor.nextListener,
        workspace.updateEditor fun editor => editor.listen topic sink)
  | .unlisten listener =>
      ((), workspace.updateEditor fun editor => editor.unlisten listener)
  | .startTimer delay sink =>
      let (timer, agenda) := workspace.agenda.start delay sink
      (timer, { workspace with agenda })
  | .cancelTimer timer =>
      ((), { workspace with agenda := workspace.agenda.cancel timer })
  | .log entry => ((), { workspace with log := workspace.log ++ [entry] })

/-- Where an interaction stands that has been carried out as far as it goes
without waiting. -/
inductive Progress (α : Type) where
  | finished (result : α) (workspace : Workspace)
  /-- It waits for a command to end at some time. -/
  | waiting (command : EditorCommand) (time : Nat)
      (next : Outcome → Interaction α) (workspace : Workspace)

/-- Carry out an interaction as far as it goes without waiting.  It waits at
every editor command, also at one that takes no time. -/
def perform {α : Type} : Interaction α → Workspace → Progress α
  | .done result, workspace => .finished result workspace
  | .ask (.execute command) next, workspace =>
      let workspace := workspace.begin command
      .waiting command
        (workspace.agenda.timeAfter workspace.editor.latency) next workspace
  | .ask request next, workspace =>
      let (answer, workspace) := workspace.answer request
      perform (next answer) workspace

/-- Let every timer whose deadline has come post to its sink. -/
def fireTimers (workspace : Workspace) : Workspace :=
  let sinks := workspace.agenda.due.map Timer.sink
  let workspace :=
    { workspace with agenda := workspace.agenda.clearDue }
  (workspace.emitAll sinks).2

/-- Whether a debouncer has a timer that is still running. -/
def isPending (workspace : Workspace) (debouncer : Debouncer) : Bool :=
  debouncer.timer.any workspace.agenda.isRunning

/-- An upper bound for the messages that can still be taken from the channels
before time passes: those that wait, and those that hooks can post. -/
def workload (workspace : Workspace) : Nat :=
  let waiting := workspace.channels.map fun channel => channel.queue.length
  let hooked := workspace.editor.hooks.map fun hook =>
    EditorStep.emissionsOf hook.steps
  waiting.foldr (· + ·) 0 +
    hooked.foldr (· + ·) 0 * workspace.editor.listeners.length

def setClock (workspace : Workspace) (time : Nat) : Workspace :=
  { workspace with agenda := workspace.agenda.setClock time }

end Workspace

end SignatureVeil
