import Mathlib.Data.List.Basic
import SignatureVeil.Workspace.Agenda

/-!
# Timers that run

Which timers run after one has been started, one has been cancelled, or those
that are due have been cleared, and which of them post to a channel.
-/

namespace SignatureVeil

namespace Agenda

variable {agenda : Agenda} {timer : Timer}

theorem mem_timers_start {delay : Nat} {sink : Sink} :
    timer ∈ (agenda.start delay sink).2.timers ↔
      timer ∈ agenda.timers ∨
        timer = ⟨agenda.nextTimer, agenda.timeAfter delay, sink⟩ := by
  simp only [start, List.mem_append, List.mem_singleton]

theorem mem_timers_cancel {id : TimerId} :
    timer ∈ (agenda.cancel id).timers ↔
      timer ∈ agenda.timers ∧ timer.id ≠ id := by
  simp only [cancel, List.mem_filter, decide_eq_true_eq]

theorem mem_due :
    timer ∈ agenda.due ↔
      timer ∈ agenda.timers ∧ timer.deadline ≤ agenda.now := by
  simp only [due, List.mem_mergeSort, List.mem_filter, decide_eq_true_eq]

theorem mem_timers_clearDue :
    timer ∈ agenda.clearDue.timers ↔
      timer ∈ agenda.timers ∧ ¬ timer.deadline ≤ agenda.now := by
  simp only [clearDue, List.mem_filter, decide_eq_true_eq, Nat.not_le]

/-- The timers that post to a channel. -/
def timersOf (agenda : Agenda) (channel : ChannelId) : List Timer :=
  agenda.timers.filter fun timer => timer.sink.channel = channel

variable {channel : ChannelId}

theorem timersOf_cancel {id : TimerId}
    (own : ∀ timer ∈ agenda.timersOf channel, timer.id = id) :
    (agenda.cancel id).timersOf channel = [] := by
  apply List.filter_eq_nil_iff.mpr
  intro timer member
  obtain ⟨running, other⟩ := mem_timers_cancel.mp member
  rw [decide_eq_true_eq]
  intro here
  exact other (own timer (List.mem_filter.mpr ⟨running, by simp [here]⟩))

theorem timersOf_start (agenda : Agenda) (delay : Nat) (message : Message)
    (channel : ChannelId) :
    (agenda.start delay ⟨message, channel⟩).2.timersOf channel =
      agenda.timersOf channel ++
        [⟨agenda.nextTimer, agenda.timeAfter delay, ⟨message, channel⟩⟩] := by
  simp [timersOf, start]

theorem timersOf_clearDue (agenda : Agenda) (channel : ChannelId) :
    agenda.clearDue.timersOf channel = (agenda.timersOf channel).filter
      fun timer => agenda.now < timer.deadline := by
  simp [timersOf, clearDue, Bool.and_comm]

theorem perm_filter_due (agenda : Agenda) (channel : ChannelId) :
    (agenda.due.filter fun timer => timer.sink.channel = channel).Perm
      ((agenda.timersOf channel).filter
        fun timer => timer.deadline ≤ agenda.now) := by
  have sorted := (List.mergeSort_perm (agenda.timers.filter
    fun timer => timer.deadline ≤ agenda.now)
      fun first second => first.deadline ≤ second.deadline).filter
        fun timer => timer.sink.channel = channel
  simpa [timersOf, due, Bool.and_comm] using sorted

end Agenda

end SignatureVeil
