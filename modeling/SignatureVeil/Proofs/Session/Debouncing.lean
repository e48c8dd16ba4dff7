import SignatureVeil.Proofs.Coordinator.Scheduled
import SignatureVeil.Session.DebouncerTrial

/-!
# The law of a debouncer

A debouncer is scheduled and cancelled at any times, and a timer whose time
has come posts sooner or later.  The history of such a trial tells which
messages are posted: each is owed to the last call before it.
-/

namespace SignatureVeil

/-- Something that can happen in the trial of a debouncer.  Timers whose time
has come post when it is their turn, which need not be at once. -/
inductive DebouncerMove where
  | schedule (message : Message)
  | cancel
  /-- Let go of the debouncer and use one with another delay. -/
  | replace (delay : Nat)
  | elapse (milliseconds : Nat)
  | fire

inductive DebouncerEvent where
  | scheduled (delay : Nat) (message : Message) (time : Nat)
  | cancelled
  | posted (message : Message) (time : Nat)
  deriving DecidableEq

namespace DebouncerEvent

def posted? : DebouncerEvent → Option Message
  | .posted message _ => some message
  | _ => none

/-- The message that an event leads to, and when. -/
def owed? : DebouncerEvent → Option (Message × Nat)
  | .scheduled delay message start =>
      some (message, start + min delay longestWait)
  | _ => none

end DebouncerEvent

namespace DebouncerTrial

def received (trial : DebouncerTrial) : List Message :=
  trial.session.workspace.queue trial.channel

def timers (trial : DebouncerTrial) : List Timer :=
  trial.session.workspace.agenda.timers

def isPending (trial : DebouncerTrial) : Bool :=
  trial.session.workspace.isPending trial.debouncer

def move (trial : DebouncerTrial) : DebouncerMove → DebouncerTrial
  | .schedule message => trial.perform (.schedule message)
  | .cancel => trial.perform .cancel
  | .replace delay => trial.perform (.replace delay)
  | .elapse milliseconds =>
      { trial with session :=
          trial.session.setClock (trial.session.now + milliseconds) }
  | .fire =>
      { trial with session :=
          trial.session.withWorkspace trial.session.workspace.fireTimers }

/-- What a move adds to the history. -/
def events (trial : DebouncerTrial) : DebouncerMove → List DebouncerEvent
  | .schedule message =>
      [.scheduled trial.debouncer.delay message trial.session.now]
  | .cancel | .replace _ => [.cancelled]
  | .elapse _ => []
  | .fire =>
      ((trial.move .fire).received.drop trial.received.length).map
        fun message => .posted message trial.session.now

def moves (trial : DebouncerTrial) (moves : List DebouncerMove) :
    DebouncerTrial :=
  moves.foldl move trial

def history (trial : DebouncerTrial) :
    List DebouncerMove → List DebouncerEvent
  | [] => []
  | first :: rest => trial.events first ++ (trial.move first).history rest

/-- Every message in a history is owed to the event right before it, and is
not posted too early. -/
def Owed (history : List DebouncerEvent) : Prop :=
  ∀ earlier message time later,
    history = earlier ++ .posted message time :: later →
      ∃ before delay start,
        earlier = before ++ [.scheduled delay message start] ∧
          start + min delay longestWait ≤ time

structure Reflects (trial : DebouncerTrial)
    (history : List DebouncerEvent) : Prop where
  isOpen : trial.session.workspace.isOpen trial.channel = true
  received : trial.received = history.filterMap DebouncerEvent.posted?
  owed : Owed history
  alone : ∀ timer ∈ trial.timers, timer.sink.channel = trial.channel
  scheduled : Scheduled trial.channel trial.debouncer
    trial.session.workspace.agenda
    (history.getLast?.bind DebouncerEvent.owed?)

variable {trial : DebouncerTrial} {past : List DebouncerEvent}

theorem owed_concat {event : DebouncerEvent} (owed : Owed past)
    (new : ∀ message time, event = .posted message time →
      ∃ before delay start,
        past = before ++ [.scheduled delay message start] ∧
          start + min delay longestWait ≤ time) :
    Owed (past ++ [event]) := by
  intro earlier message time later same
  rcases Workspace.append_cons_eq_concat same with
    ⟨rfl, posted, -⟩ | ⟨between, rfl, -⟩
  · exact new message time posted
  · exact owed _ _ _ _ rfl

/-- Only a call to schedule leads to a message. -/
theorem exists_call {message : Message} {deadline : Nat}
    (owed : past.getLast?.bind DebouncerEvent.owed? =
      some (message, deadline)) :
    ∃ before delay start, past = before ++ [.scheduled delay message start] ∧
      deadline = start + min delay longestWait := by
  rcases List.eq_nil_or_concat past with rfl | ⟨before, event, rfl⟩
  · contradiction
  · rw [List.concat_eq_append] at owed ⊢
    rw [List.getLast?_concat] at owed
    cases event with
    | scheduled delay message start =>
        obtain ⟨rfl, rfl⟩ := Prod.mk.inj (Option.some.inj owed)
        exact ⟨before, delay, start, rfl, rfl⟩
    | cancelled | posted _ _ => contradiction

/-! ## Calls -/

/-- An interaction that does not wait is carried out the same way when it is
called directly. -/
theorem await_of_finished {α : Type} {interaction : Interaction α}
    {session : Session} {result : α} {last : Workspace}
    (performed : session.workspace.perform interaction =
      .finished result last) :
    Session.await interaction session =
      (result, session.withWorkspace last) := by
  induction interaction generalizing session with
  | done other =>
      obtain ⟨rfl, rfl⟩ := Workspace.Progress.finished.inj performed
      rfl
  | ask request next ih =>
      cases request with
      | execute command => contradiction
      | _ => exact ih _ performed

theorem move_cancel (trial : DebouncerTrial) : trial.move .cancel =
    { trial with
      debouncer := { trial.debouncer with timer := none }
      session := trial.session.withWorkspace { trial.session.workspace with
        agenda :=
          trial.debouncer.cancelled trial.session.workspace.agenda } } := by
  have called := await_of_finished
    (trial.debouncer.perform_cancel trial.session.workspace)
  simp only [move, perform, call, called]

theorem move_schedule (trial : DebouncerTrial) (message : Message) :
    ∃ log, trial.move (.schedule message) =
      { trial with
        debouncer := ⟨trial.debouncer.delay,
          some trial.session.workspace.agenda.nextTimer⟩
        session := trial.session.withWorkspace { trial.session.workspace with
          agenda := trial.debouncer.scheduled ⟨message, trial.channel⟩
            trial.session.workspace.agenda
          log } } := by
  obtain ⟨log, performed⟩ := trial.debouncer.exists_perform_schedule
    ⟨message, trial.channel⟩ trial.session.workspace
  have called := await_of_finished performed
  exact ⟨log, by simp only [move, perform, call, called]⟩

theorem reflects_cancel (reflects : Reflects trial past) :
    Reflects (trial.move .cancel) (past ++ [.cancelled]) := by
  have noTimer := reflects.scheduled.timersOf_cancelled
  rw [move_cancel]
  refine ⟨reflects.isOpen, ?_, owed_concat reflects.owed (by simp),
    fun timer running =>
      reflects.alone timer (Debouncer.mem_timers_cancelled running), ?_⟩
  · rw [List.filterMap_append]
    exact reflects.received.trans (List.append_nil _).symm
  · rw [List.getLast?_concat]
    exact noTimer

/-- A debouncer that is let go of leaves no timer to the next one. -/
theorem reflects_replace (reflects : Reflects trial past) (delay : Nat) :
    Reflects (trial.move (.replace delay)) (past ++ [.cancelled]) := by
  have cancelled := reflects_cancel reflects
  refine ⟨cancelled.isOpen, cancelled.received, cancelled.owed,
    cancelled.alone, ?_⟩
  have noTimer := cancelled.scheduled
  rw [List.getLast?_concat] at noTimer ⊢
  exact noTimer

theorem reflects_schedule (reflects : Reflects trial past)
    (message : Message) :
    Reflects (trial.move (.schedule message))
      (past ++ [.scheduled trial.debouncer.delay message
        trial.session.now]) := by
  have scheduled := reflects.scheduled.schedule message trial.debouncer.delay
  obtain ⟨log, moved⟩ := move_schedule trial message
  rw [moved]
  refine ⟨reflects.isOpen, ?_, owed_concat reflects.owed (by simp), ?_, ?_⟩
  · rw [List.filterMap_append]
    exact reflects.received.trans (List.append_nil _).symm
  · intro timer running
    rcases Debouncer.mem_timers_scheduled running with earlier | posts
    · exact reflects.alone timer earlier
    · exact congrArg Sink.channel posts
  · rw [List.getLast?_concat]
    exact scheduled

theorem reflects_elapse (reflects : Reflects trial past)
    (milliseconds : Nat) :
    Reflects (trial.move (.elapse milliseconds)) past :=
  ⟨reflects.isOpen, reflects.received, reflects.owed, reflects.alone,
    reflects.scheduled⟩

/-! ## Firing -/

theorem Reflects.alone_fire (reflects : Reflects trial past) :
    ∀ timer ∈ (trial.move .fire).timers,
      timer.sink.channel = trial.channel := by
  obtain ⟨-, agenda, -, -⟩ :=
    Workspace.fireTimers_spec trial.session.workspace
  intro timer running
  have running : timer ∈ trial.session.workspace.fireTimers.agenda.timers :=
    running
  rw [agenda] at running
  exact reflects.alone timer (Agenda.mem_timers_clearDue.mp running).1

theorem events_fire (reflects : Reflects trial past) :
    trial.events .fire = (Workspace.messagesTo trial.channel
      (trial.session.workspace.agenda.due.map Timer.sink)).map
        fun message => .posted message trial.session.now := by
  obtain ⟨-, -, -, queue⟩ :=
    Workspace.fireTimers_spec trial.session.workspace
  change (((trial.move .fire).received).drop _).map _ = _
  rw [show (trial.move .fire).received = _ from queue _ reflects.isOpen]
  exact congrArg _ List.drop_left

/-- Before the time of its timer has come, a debouncer posts nothing. -/
theorem reflects_fire_early (reflects : Reflects trial past)
    (early : ∀ message deadline,
      past.getLast?.bind DebouncerEvent.owed? = some (message, deadline) →
        trial.session.now < deadline) :
    trial.events .fire = [] ∧ Reflects (trial.move .fire) past := by
  obtain ⟨-, agenda, isOpen, queue⟩ :=
    Workspace.fireTimers_spec trial.session.workspace
  obtain ⟨posted, scheduled⟩ := reflects.scheduled.not_due early
  have queue := queue _ reflects.isOpen
  rw [posted, List.append_nil] at queue
  refine ⟨by rw [events_fire reflects, posted, List.map_nil],
    (isOpen _).trans reflects.isOpen, queue.trans reflects.received,
    reflects.owed, reflects.alone_fire, ?_⟩
  rw [← agenda] at scheduled
  exact scheduled

/-- The timer of a call posts its message once its time has come. -/
theorem reflects_fire_due {before : List DebouncerEvent}
    {delay start : Nat} {message : Message}
    (reflects : Reflects trial
      (before ++ [.scheduled delay message start]))
    (isDue : start + min delay longestWait ≤ trial.session.now) :
    trial.events .fire = [.posted message trial.session.now] ∧
      Reflects (trial.move .fire) (before ++ [.scheduled delay message start] ++
        [.posted message trial.session.now]) := by
  obtain ⟨-, agenda, isOpen, queue⟩ :=
    Workspace.fireTimers_spec trial.session.workspace
  have scheduled := reflects.scheduled
  rw [List.getLast?_concat] at scheduled
  obtain ⟨posted, noTimer⟩ := scheduled.due isDue
  have queue := queue _ reflects.isOpen
  rw [posted] at queue
  refine ⟨by rw [events_fire reflects, posted, List.map_singleton],
    (isOpen _).trans reflects.isOpen, ?_, ?_, reflects.alone_fire, ?_⟩
  · rw [List.filterMap_append, ← reflects.received]
    exact queue
  · apply owed_concat reflects.owed
    rintro _ _ ⟨⟩
    exact ⟨before, delay, start, rfl, isDue⟩
  · rw [List.getLast?_concat]
    rw [← agenda] at noTimer
    exact noTimer

theorem reflects_fire (reflects : Reflects trial past) :
    Reflects (trial.move .fire) (past ++ trial.events .fire) := by
  by_cases isDue : ∃ message deadline,
      past.getLast?.bind DebouncerEvent.owed? = some (message, deadline) ∧
        deadline ≤ trial.session.now
  · obtain ⟨message, deadline, owed, isDue⟩ := isDue
    obtain ⟨before, delay, start, rfl, rfl⟩ := exists_call owed
    obtain ⟨posted, reflects'⟩ := reflects_fire_due reflects isDue
    rwa [posted]
  · have early : ∀ message deadline,
        past.getLast?.bind DebouncerEvent.owed? = some (message, deadline) →
          trial.session.now < deadline := by
      intro message deadline owed
      exact Nat.lt_of_not_le fun due => isDue ⟨message, deadline, owed, due⟩
    obtain ⟨nothing, reflects'⟩ := reflects_fire_early reflects early
    rwa [nothing, List.append_nil]

/-! ## Trials -/

theorem reflects_move (reflects : Reflects trial past)
    (move : DebouncerMove) :
    Reflects (trial.move move) (past ++ trial.events move) := by
  cases move with
  | schedule message => exact reflects_schedule reflects message
  | cancel => exact reflects_cancel reflects
  | replace delay => exact reflects_replace reflects delay
  | elapse milliseconds =>
      rw [events, List.append_nil]
      exact reflects_elapse reflects milliseconds
  | fire => exact reflects_fire reflects

theorem reflects_moves (reflects : Reflects trial past)
    (moves : List DebouncerMove) :
    Reflects (trial.moves moves) (past ++ trial.history moves) := by
  induction moves generalizing trial past with
  | nil =>
      rw [history, List.append_nil]
      exact reflects
  | cons first rest ih =>
      rw [history, ← List.append_assoc]
      exact ih (reflects_move reflects first)

theorem reflects_ofDelay (delay : Nat) : Reflects (ofDelay delay) [] :=
  ⟨rfl, rfl, by simp [Owed], List.forall_mem_nil _, rfl⟩

theorem Reflects.timersOf_eq (reflects : Reflects trial past) :
    trial.session.workspace.agenda.timersOf trial.channel = trial.timers :=
  List.filter_eq_self.mpr fun timer running =>
    decide_eq_true (reflects.alone timer running)

theorem Reflects.length_timers (reflects : Reflects trial past) :
    trial.timers.length ≤ 1 := by
  rw [← reflects.timersOf_eq]
  exact reflects.scheduled.length_timersOf

theorem Reflects.isPending_iff (reflects : Reflects trial past) :
    trial.isPending = true ↔ ∃ before delay message start,
      past = before ++ [.scheduled delay message start] := by
  have scheduled := reflects.scheduled
  constructor
  · intro pending
    obtain ⟨id, -, runs⟩ := (Option.any_eq_true _ _).mp pending
    obtain ⟨timer, running, -⟩ := List.any_eq_true.mp runs
    have running : timer ∈ trial.timers := running
    rw [← reflects.timersOf_eq] at running
    cases owed : past.getLast?.bind DebouncerEvent.owed? with
    | none =>
        rw [owed] at scheduled
        rw [show Agenda.timersOf _ _ = [] from scheduled] at running
        contradiction
    | some post =>
        obtain ⟨before, delay, start, call, -⟩ := exists_call owed
        exact ⟨before, delay, _, start, call⟩
  · rintro ⟨before, delay, message, start, rfl⟩
    rw [List.getLast?_concat] at scheduled
    obtain ⟨id, own, only⟩ := scheduled
    rw [reflects.timersOf_eq] at only
    have runs : trial.timers.any (fun timer => timer.id = id) = true := by
      simp [only]
    exact (Option.any_eq_true _ _).mpr ⟨id, own, runs⟩

/-- What a history says about a debouncer.  At most one timer runs.  What has
been posted is what has been received, each message being owed to the call
right before it, and not posted before that call's delay is over, or the
longest wait if that is less.  The debouncer is pending exactly if the last
event was a call, and then it posts that message alone, once it is due. -/
structure Debounces (trial : DebouncerTrial)
    (history : List DebouncerEvent) : Prop where
  atMostOne : trial.timers.length ≤ 1
  received : trial.received = history.filterMap DebouncerEvent.posted?
  owed : ∀ earlier message time later,
    history = earlier ++ .posted message time :: later →
      ∃ before delay start,
        earlier = before ++ [.scheduled delay message start] ∧
          start + min delay longestWait ≤ time
  pending : trial.isPending = true ↔ ∃ before delay message start,
    history = before ++ [.scheduled delay message start]
  fires : ∀ before delay message start,
    history = before ++ [.scheduled delay message start] →
      start + min delay longestWait ≤ trial.session.now →
        trial.events .fire = [.posted message trial.session.now]

/-- Every trial keeps to the law of debouncers, however its calls, its timers
and the passing of time are interleaved. -/
theorem debounces (delay : Nat) (moves : List DebouncerMove) :
    Debounces ((ofDelay delay).moves moves)
      ((ofDelay delay).history moves) := by
  have reflects := reflects_moves (reflects_ofDelay delay) moves
  rw [List.nil_append] at reflects
  refine ⟨reflects.length_timers, reflects.received, reflects.owed,
    reflects.isPending_iff, ?_⟩
  intro before delay message start same isDue
  rw [same] at reflects
  exact (reflects_fire_due reflects isDue).1

/-- A delay that is longer than the longest wait is cut short. -/
theorem posted_before_delay :
    ¬ ∀ (delay : Nat) (moves : List DebouncerMove) earlier message time later,
      (ofDelay delay).history moves =
          earlier ++ .posted message time :: later →
        ∃ before delay start,
          earlier = before ++ [.scheduled delay message start] ∧
            start + delay ≤ time := by
  intro waits
  have cut : (ofDelay (longestWait + 1)).history
      [.schedule .debounceElapsed, .elapse longestWait, .fire] =
        [.scheduled (longestWait + 1) .debounceElapsed 0] ++
          [.posted .debounceElapsed longestWait] := by
    decide +kernel
  obtain ⟨before, delay, start, call, late⟩ := waits _ _ _ _ _ _ cut
  have same := (List.append_inj' ((List.nil_append _).trans call) rfl).2
  simp only [List.cons.injEq, DebouncerEvent.scheduled.injEq] at same
  omega

end DebouncerTrial

end SignatureVeil
