import SignatureVeil.Coordinator.Debouncer
import SignatureVeil.Proofs.Workspace.Posting
import SignatureVeil.Proofs.Workspace.Timers

/-!
# The timer of a debouncer

A debouncer that alone starts timers for a channel has at most one there.  It
is replaced when the debouncer is scheduled, it is gone when the debouncer is
cancelled, and when it fires it posts its message and is gone as well.
-/

namespace SignatureVeil

/-- The message that the timer of a debouncer is going to post in a channel,
and when, if there is a timer. -/
def Scheduled (channel : ChannelId) (debouncer : Debouncer)
    (agenda : Agenda) : Option (Message × Nat) → Prop
  | none => agenda.timersOf channel = []
  | some (message, deadline) => ∃ id, debouncer.timer = some id ∧
      agenda.timersOf channel = [⟨id, deadline, ⟨message, channel⟩⟩]

namespace Debouncer

/-- The agenda after a debouncer has been cancelled. -/
def cancelled (debouncer : Debouncer) (agenda : Agenda) : Agenda :=
  debouncer.timer.elim agenda agenda.cancel

/-- The agenda after a debouncer has been scheduled. -/
def scheduled (debouncer : Debouncer) (sink : Sink) (agenda : Agenda) :
    Agenda :=
  ((debouncer.cancelled agenda).start debouncer.delay sink).2

theorem now_cancelled (debouncer : Debouncer) (agenda : Agenda) :
    (debouncer.cancelled agenda).now = agenda.now := by
  unfold cancelled
  cases debouncer.timer <;> rfl

theorem nextTimer_cancelled (debouncer : Debouncer) (agenda : Agenda) :
    (debouncer.cancelled agenda).nextTimer = agenda.nextTimer := by
  unfold cancelled
  cases debouncer.timer <;> rfl

theorem now_scheduled (debouncer : Debouncer) (sink : Sink)
    (agenda : Agenda) :
    (debouncer.scheduled sink agenda).now = agenda.now :=
  now_cancelled debouncer agenda

theorem mem_timers_cancelled {debouncer : Debouncer} {agenda : Agenda}
    {timer : Timer} (running : timer ∈ (debouncer.cancelled agenda).timers) :
    timer ∈ agenda.timers := by
  unfold cancelled at running
  cases own : debouncer.timer with
  | none =>
      rw [own] at running
      exact running
  | some id =>
      rw [own] at running
      exact (Agenda.mem_timers_cancel.mp running).1

theorem mem_timers_scheduled {debouncer : Debouncer} {sink : Sink}
    {agenda : Agenda} {timer : Timer}
    (running : timer ∈ (debouncer.scheduled sink agenda).timers) :
    timer ∈ agenda.timers ∨ timer.sink = sink := by
  rcases Agenda.mem_timers_start.mp running with earlier | rfl
  · exact .inl (mem_timers_cancelled earlier)
  · exact .inr rfl

theorem perform_cancel (debouncer : Debouncer) (workspace : Workspace) :
    workspace.perform debouncer.cancel =
      .finished { debouncer with timer := none }
        { workspace with agenda := debouncer.cancelled workspace.agenda } := by
  obtain ⟨delay, timer⟩ := debouncer
  cases timer <;> rfl

theorem exists_perform_schedule (debouncer : Debouncer) (sink : Sink)
    (workspace : Workspace) :
    ∃ log, workspace.perform (debouncer.schedule sink) =
      .finished ⟨debouncer.delay, some workspace.agenda.nextTimer⟩
        { workspace with
          agenda := debouncer.scheduled sink workspace.agenda
          log } := by
  obtain ⟨delay, timer⟩ := debouncer
  cases timer <;> exact ⟨_, rfl⟩

end Debouncer

namespace Scheduled

variable {channel : ChannelId} {debouncer : Debouncer} {agenda : Agenda}
  {pending : Option (Message × Nat)} {message : Message} {deadline : Nat}

theorem length_timersOf (scheduled : Scheduled channel debouncer agenda
    pending) : (agenda.timersOf channel).length ≤ 1 := by
  cases pending with
  | none => simp [show agenda.timersOf channel = [] from scheduled]
  | some post =>
      obtain ⟨id, -, only⟩ := scheduled
      simp [only]

theorem timersOf_cancelled
    (scheduled : Scheduled channel debouncer agenda pending) :
    (debouncer.cancelled agenda).timersOf channel = [] := by
  unfold Debouncer.cancelled
  cases pending with
  | none =>
      have empty : agenda.timersOf channel = [] := scheduled
      cases debouncer.timer with
      | none => exact empty
      | some id => exact Agenda.timersOf_cancel (by simp [empty])
  | some post =>
      obtain ⟨id, own, only⟩ := scheduled
      rw [own]
      exact Agenda.timersOf_cancel (by simp [only])

theorem schedule (scheduled : Scheduled channel debouncer agenda pending)
    (message : Message) (delay : Nat) :
    Scheduled channel ⟨delay, some agenda.nextTimer⟩
      (debouncer.scheduled ⟨message, channel⟩ agenda)
      (some (message, agenda.timeAfter debouncer.delay)) := by
  refine ⟨agenda.nextTimer, rfl, ?_⟩
  rw [Debouncer.scheduled, Agenda.timersOf_start,
    scheduled.timersOf_cancelled, List.nil_append, Agenda.timeAfter,
    debouncer.now_cancelled, debouncer.nextTimer_cancelled]
  rfl

/-- Before its deadline a timer neither posts nor stops running. -/
theorem not_due (scheduled : Scheduled channel debouncer agenda pending)
    (early : ∀ message deadline, pending = some (message, deadline) →
      agenda.now < deadline) :
    Workspace.messagesTo channel (agenda.due.map Timer.sink) = [] ∧
      Scheduled channel debouncer agenda.clearDue pending := by
  have running : ∀ timer ∈ agenda.timersOf channel,
      agenda.now < timer.deadline := by
    intro timer member
    cases pending with
    | none =>
        simp [show agenda.timersOf channel = [] from scheduled] at member
    | some post =>
        obtain ⟨id, -, only⟩ := scheduled
        rw [only, List.mem_singleton] at member
        rw [member]
        exact early _ _ rfl
  have kept : agenda.clearDue.timersOf channel = agenda.timersOf channel := by
    rw [Agenda.timersOf_clearDue, List.filter_eq_self]
    simpa using running
  have none : ((agenda.timersOf channel).filter
      fun timer => timer.deadline ≤ agenda.now) = [] := by
    rw [List.filter_eq_nil_iff]
    simpa using running
  have notDue := agenda.perm_filter_due channel
  rw [none, List.perm_nil] at notDue
  refine ⟨by rw [Workspace.messagesTo_map_sink, notDue, List.map_nil], ?_⟩
  unfold Scheduled at scheduled ⊢
  rw [kept]
  exact scheduled

/-- A timer whose time has come posts its message once. -/
theorem due (scheduled : Scheduled channel debouncer agenda
      (some (message, deadline)))
    (isDue : deadline ≤ agenda.now) :
    Workspace.messagesTo channel (agenda.due.map Timer.sink) = [message] ∧
      Scheduled channel debouncer agenda.clearDue none := by
  obtain ⟨id, -, only⟩ := scheduled
  have due := agenda.perm_filter_due channel
  rw [only, List.filter_singleton, decide_eq_true isDue] at due
  rw [Workspace.messagesTo_map_sink, Scheduled, Agenda.timersOf_clearDue, only,
    List.perm_singleton.mp due]
  simpa using isDue

end Scheduled

end SignatureVeil
