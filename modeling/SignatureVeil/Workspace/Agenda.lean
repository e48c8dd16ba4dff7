import SignatureVeil.Editor.Request

/-!
# Time and timers

An agenda is a clock together with the timers that have been started and have
neither run out nor been cancelled.  A timer posts to its sink once the clock
has reached its deadline.  No wait is longer than thirty years: whoever asks
for a longer one waits thirty years.
-/

namespace SignatureVeil

structure Timer where
  id : TimerId
  /-- The time at which it runs out, in milliseconds. -/
  deadline : Nat
  sink : Sink
  deriving DecidableEq, Repr

/-- The longest wait in milliseconds: thirty years of 365 days. -/
def longestWait : Nat :=
  30 * 365 * 24 * 60 * 60 * 1000

/-- A clock and the timers that are running, the oldest first. -/
structure Agenda where
  now : Nat := 0
  timers : List Timer := []
  nextTimer : TimerId := 1
  deriving DecidableEq, Repr

namespace Agenda

/-- The time at which a wait ends that begins now. -/
def timeAfter (agenda : Agenda) (delay : Nat) : Nat :=
  agenda.now + min delay longestWait

def start (agenda : Agenda) (delay : Nat) (sink : Sink) :
    TimerId × Agenda :=
  let timer : Timer := ⟨agenda.nextTimer, agenda.timeAfter delay, sink⟩
  (timer.id, { agenda with
    timers := agenda.timers ++ [timer]
    nextTimer := agenda.nextTimer + 1 })

/-- Cancel a timer.  A timer that is not running is let alone. -/
def cancel (agenda : Agenda) (id : TimerId) : Agenda :=
  { agenda with timers := agenda.timers.filter fun timer => timer.id ≠ id }

def isRunning (agenda : Agenda) (id : TimerId) : Bool :=
  agenda.timers.any fun timer => timer.id = id

/-- The timers whose deadline has come, by deadline and then by age. -/
def due (agenda : Agenda) : List Timer :=
  (agenda.timers.filter fun timer => timer.deadline ≤ agenda.now).mergeSort
    fun first second => first.deadline ≤ second.deadline

/-- The agenda without the timers whose deadline has come. -/
def clearDue (agenda : Agenda) : Agenda :=
  { agenda with
    timers := agenda.timers.filter fun timer => agenda.now < timer.deadline }

def setClock (agenda : Agenda) (time : Nat) : Agenda :=
  { agenda with now := time }

end Agenda

end SignatureVeil
