import SignatureVeil.Coordinator.Basic
import SignatureVeil.Workspace.Basic

/-!
# Message loops

A message loop owns a coordinator and serves the messages of one channel, one
at a time and in the order in which they were posted.  At every command of the
editor the loop waits, and messages may pile up in the channel; even a command
that takes no time lets others go on first.  The loop ends with the order to
shut down, and the messages behind it are lost.
-/

namespace SignatureVeil

inductive Activity where
  | idle (coordinator : Coordinator)
  /-- It waits for an editor command to end at some time. -/
  | waiting (command : EditorCommand) (time : Nat)
      (next : Outcome → Interaction (Option Coordinator))
  /-- The editor command that it waited for has ended. -/
  | resuming (command : EditorCommand)
      (next : Outcome → Interaction (Option Coordinator))

/-- A message loop and the channel that it serves. -/
structure MessageLoop where
  channel : ChannelId
  activity : Activity

namespace MessageLoop

/-- The time at which a loop stops waiting for a command. -/
def wakeTime? (loop : MessageLoop) : Option Nat :=
  match loop.activity with
  | .waiting _ time _ => some time
  | _ => none

/-- Whether a loop waits for a command that has ended by some time. -/
def isOver (loop : MessageLoop) (time : Nat) : Bool :=
  loop.wakeTime?.any fun ending => ending ≤ time

def resume (loop : MessageLoop) : MessageLoop :=
  match loop.activity with
  | .waiting command _ next => { loop with activity := .resuming command next }
  | _ => loop

/-- Begin or continue to serve one message, if there is something to do. -/
def advance? (loop : MessageLoop) (workspace : Workspace) :
    Option (Workspace.Progress (Option Coordinator)) :=
  match loop.activity with
  | .idle coordinator =>
      match workspace.take? loop.channel with
      | some (message, workspace) =>
          some (workspace.perform (coordinator.serve message))
      | none => none
  | .waiting _ _ _ => none
  | .resuming command next =>
      some (workspace.perform
        (next (workspace.editor.outcomeOf (.execute command))))

/-- Let a loop go on until it waits, for a message or for a command, or ends.
It serves at most `limit` messages. -/
def run : (limit : Nat) → MessageLoop → Workspace →
    Option MessageLoop × Workspace
  | 0, loop, workspace => (some loop, workspace)
  | limit + 1, loop, workspace =>
      match loop.advance? workspace with
      | none => (some loop, workspace)
      | some (.finished none workspace) =>
          (none, workspace.closeChannel loop.channel)
      | some (.finished (some coordinator) workspace) =>
          run limit ⟨loop.channel, .idle coordinator⟩ workspace
      | some (.waiting command time next workspace) =>
          (some ⟨loop.channel, .waiting command time next⟩, workspace)

end MessageLoop

end SignatureVeil
