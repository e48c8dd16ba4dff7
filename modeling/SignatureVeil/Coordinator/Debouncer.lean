import SignatureVeil.Editor.Interaction

/-!
# Waiting for a quiet period

A debouncer posts a message once nothing has been scheduled for the length of
its delay.  Scheduling cancels the timer that is still running and starts
another one, so a burst of calls leads to one message.
-/

namespace SignatureVeil

/-- The length of the quiet period after an edit, in milliseconds. -/
def hideDelay : Nat :=
  200

/-- A delay and the timer that was started last, unless it was cancelled. -/
structure Debouncer where
  delay : Nat := hideDelay
  timer : Option TimerId := none
  deriving DecidableEq, Repr

namespace Debouncer

def cancel (debouncer : Debouncer) : Interaction Debouncer :=
  match debouncer.timer with
  | some timer =>
      .ask (.cancelTimer timer) fun _ => .done { debouncer with timer := none }
  | none => .done debouncer

/-- Post to a sink after the delay, unless something is scheduled before. -/
def schedule (debouncer : Debouncer) (sink : Sink) :
    Interaction Debouncer := do
  let debouncer ← debouncer.cancel
  Interaction.log (.debounceScheduled debouncer.delay sink.message)
  .ask (.startTimer debouncer.delay sink) fun (timer : TimerId) =>
    .done { debouncer with timer := some timer }

end Debouncer

end SignatureVeil
