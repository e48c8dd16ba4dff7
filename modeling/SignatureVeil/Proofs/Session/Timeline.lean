import Mathlib.Data.List.Induction
import SignatureVeil.Coordinator.Basic
import SignatureVeil.Proofs.Coordinator.Scheduled
import SignatureVeil.Proofs.Workspace.Calm

/-!
# The timeline of a message loop

A timeline tells when a message loop takes its messages, and when a timer
announces the end of a quiet period.  An announcement waits in the channel
behind the messages that were posted before it.  So it is taken when these have
been taken, and not before.
-/

namespace SignatureVeil

inductive LoopEvent where
  /-- The loop takes a message and begins to serve it. -/
  | taken (message : Message) (time : Nat)
  /-- A timer announces that a quiet period is over, when these messages wait
  in the channel. -/
  | announced (time : Nat) (ahead : List Message)
  deriving DecidableEq

def LoopEvent.time : LoopEvent → Nat
  | .taken _ time | .announced time _ => time

def LoopEvent.message? : LoopEvent → Option Message
  | .taken message _ => some message
  | .announced _ _ => none

def takenMessages (timeline : List LoopEvent) : List Message :=
  timeline.filterMap LoopEvent.message?

def LoopEvent.pendingEdit? (pending : Option Nat) : LoopEvent → Option Nat
  | .taken .documentChanged time => some time
  | .announced _ _ => none
  | _ => pending

/-- When the last edit was taken, unless the end of its quiet period has been
announced. -/
def pendingEdit? (timeline : List LoopEvent) : Option Nat :=
  timeline.foldl LoopEvent.pendingEdit? none

/-- What is to be posted for the pending edit, and when. -/
def pendingPost? (timeline : List LoopEvent) : Option (Message × Nat) :=
  (pendingEdit? timeline).map fun start =>
    (.debounceElapsed, start + hideDelay)

/-- An announcement of some time waits behind these messages, if nothing has
been taken but what the timeline tells. -/
def Announced (timeline : List LoopEvent) (ahead : List Message)
    (time : Nat) : Prop :=
  ∃ before announcedAt since,
    timeline =
        before ++ .announced announcedAt (takenMessages since ++ ahead) ::
          since ∧
      announcedAt ≤ time

/-- Every announcement comes from the last edit before it, at the end of its
quiet period, and is taken when all that was ahead of it has been taken. -/
structure Lawful (timeline : List LoopEvent) : Prop where
  sorted : timeline.Pairwise fun first second => first.time ≤ second.time
  announced : ∀ before time ahead after,
    timeline = before ++ .announced time ahead :: after →
      ∃ start, pendingEdit? before = some start ∧ start + hideDelay ≤ time
  taken : ∀ before time after,
    timeline = before ++ .taken .debounceElapsed time :: after →
      Announced before [] time

variable {timeline : List LoopEvent} {ahead : List Message} {time : Nat}

theorem pendingEdit?_concat (timeline : List LoopEvent) (event : LoopEvent) :
    pendingEdit? (timeline ++ [event]) =
      event.pendingEdit? (pendingEdit? timeline) := by
  simp [pendingEdit?]

theorem takenMessages_concat (timeline : List LoopEvent) (event : LoopEvent) :
    takenMessages (timeline ++ [event]) =
      takenMessages timeline ++ event.message?.toList := by
  rw [takenMessages, List.filterMap_append]
  cases event <;> rfl

/-- Whether an event is neither an edit nor an announcement. -/
def LoopEvent.IsNeutral : LoopEvent → Prop
  | .taken .documentChanged _ | .announced _ _ => False
  | _ => True

theorem LoopEvent.IsNeutral.pendingEdit?_eq {event : LoopEvent}
    (neutral : event.IsNeutral) (pending : Option Nat) :
    event.pendingEdit? pending = pending := by
  cases event with
  | taken message time =>
      cases message with
      | documentChanged => exact absurd neutral id
      | _ => rfl
  | announced time ahead => exact absurd neutral id

theorem pendingEdit?_append_of_neutral (before : List LoopEvent)
    {since : List LoopEvent} (neutral : ∀ event ∈ since, event.IsNeutral) :
    pendingEdit? (before ++ since) = pendingEdit? before := by
  induction since generalizing before with
  | nil => rw [List.append_nil]
  | cons event rest ih =>
      obtain ⟨here, others⟩ := List.forall_mem_cons.mp neutral
      rw [List.append_cons, ih _ others, pendingEdit?_concat,
        here.pendingEdit?_eq]

theorem exists_edit_of_pendingEdit? {start : Nat}
    (pending : pendingEdit? timeline = some start) :
    ∃ before since, timeline = before ++ .taken .documentChanged start :: since ∧
      ∀ event ∈ since, event.IsNeutral := by
  induction timeline using List.reverseRecOn with
  | nil => contradiction
  | append_singleton earlier event ih =>
      rw [pendingEdit?_concat] at pending
      by_cases neutral : event.IsNeutral
      · rw [neutral.pendingEdit?_eq] at pending
        obtain ⟨before, since, rfl, others⟩ := ih pending
        refine ⟨before, since ++ [event], List.append_assoc _ _ _, ?_⟩
        intro other member
        rcases List.mem_append.mp member with earlier | last
        · exact others other earlier
        · rwa [List.mem_singleton.mp last]
      · cases event with
        | announced time ahead => contradiction
        | taken message time =>
            cases message with
            | documentChanged =>
                obtain rfl := Option.some.inj pending
                exact ⟨earlier, [], rfl, by simp⟩
            | _ => exact absurd trivial neutral

theorem Announced.concat {event : LoopEvent} {later : Nat}
    (waits : Announced timeline (event.message?.toList ++ ahead) time)
    (noEarlier : time ≤ later) :
    Announced (timeline ++ [event]) ahead later := by
  obtain ⟨before, announcedAt, since, rfl, earlier⟩ := waits
  refine ⟨before, announcedAt, since ++ [event], ?_,
    Nat.le_trans earlier noEarlier⟩
  rw [takenMessages_concat, List.append_assoc, List.append_assoc,
    List.cons_append]

theorem lawful_nil : Lawful [] := by
  constructor <;> simp

theorem Lawful.sorted_concat (lawful : Lawful timeline) {event : LoopEvent}
    (noEarlier : ∀ other ∈ timeline, other.time ≤ event.time) :
    (timeline ++ [event]).Pairwise
      fun first second => first.time ≤ second.time := by
  apply List.pairwise_append.mpr
  refine ⟨lawful.sorted, List.pairwise_singleton _ _, ?_⟩
  intro other member last same
  obtain rfl := List.mem_singleton.mp same
  exact noEarlier other member

theorem Lawful.announce (lawful : Lawful timeline) {start : Nat}
    (noEarlier : ∀ other ∈ timeline, other.time ≤ time)
    (pending : pendingEdit? timeline = some start)
    (isDue : start + hideDelay ≤ time) (ahead : List Message) :
    Lawful (timeline ++ [.announced time ahead]) := by
  refine ⟨lawful.sorted_concat noEarlier, ?_, ?_⟩
  · intro before time' ahead' after same
    rcases Workspace.append_cons_eq_concat same with
      ⟨rfl, new, -⟩ | ⟨between, rfl, -⟩
    · obtain ⟨rfl, rfl⟩ := LoopEvent.announced.inj new
      exact ⟨start, pending, isDue⟩
    · exact lawful.announced _ _ _ _ rfl
  · intro before time' after same
    rcases Workspace.append_cons_eq_concat same with
      ⟨-, new, -⟩ | ⟨between, rfl, -⟩
    · contradiction
    · exact lawful.taken _ _ _ rfl

theorem Lawful.take (lawful : Lawful timeline) {message : Message}
    (noEarlier : ∀ other ∈ timeline, other.time ≤ time)
    (waits : message = .debounceElapsed → Announced timeline [] time) :
    Lawful (timeline ++ [.taken message time]) := by
  refine ⟨lawful.sorted_concat noEarlier, ?_, ?_⟩
  · intro before time' ahead' after same
    rcases Workspace.append_cons_eq_concat same with
      ⟨-, new, -⟩ | ⟨between, rfl, -⟩
    · contradiction
    · exact lawful.announced _ _ _ _ rfl
  · intro before time' after same
    rcases Workspace.append_cons_eq_concat same with
      ⟨rfl, new, -⟩ | ⟨between, rfl, -⟩
    · obtain ⟨elapsed, rfl⟩ := LoopEvent.taken.inj new
      exact waits elapsed
    · exact lawful.taken _ _ _ rfl

/-- Edits that were taken before an announcement were taken a quiet period
before it. -/
theorem Lawful.edited_before_announced (lawful : Lawful timeline)
    {before after : List LoopEvent}
    (same : timeline = before ++ .announced time ahead :: after)
    {edited : Nat} (edit : .taken .documentChanged edited ∈ before) :
    edited + hideDelay ≤ time := by
  obtain ⟨start, pending, isDue⟩ := lawful.announced _ _ _ _ same
  obtain ⟨earlier, since, rfl, neutral⟩ := exists_edit_of_pendingEdit? pending
  have sorted := lawful.sorted
  rw [same] at sorted
  obtain ⟨-, -, first⟩ :=
    List.pairwise_append.mp (List.pairwise_append.mp sorted).1
  -- The edit is the pending one, or came before it.
  have last : edited ≤ start := by
    rcases List.mem_append.mp edit with old | recent
    · exact first _ old _ List.mem_cons_self
    · rcases List.mem_cons.mp recent with edit | recent
      · exact Nat.le_of_eq (LoopEvent.taken.inj edit).2
      · exact absurd (neutral _ recent) id
  omega

theorem Lawful.not_announced_between (lawful : Lawful timeline)
    {before between after : List LoopEvent} {start next : Nat}
    (same : timeline = before ++ .taken .documentChanged start :: between ++
      .taken .documentChanged next :: after)
    (close : next < start + hideDelay) :
    .announced time ahead ∉ between := by
  intro member
  obtain ⟨first, second, rfl⟩ := List.append_of_mem member
  have split : timeline =
      (before ++ .taken .documentChanged start :: first) ++
        .announced time ahead ::
          (second ++ .taken .documentChanged next :: after) := by
    simp [same]
  have started := lawful.edited_before_announced split
    (List.mem_append_right _ List.mem_cons_self)
  have sorted := lawful.sorted
  rw [split] at sorted
  have noLater := (List.pairwise_cons.mp
    (List.pairwise_append.mp sorted).2.1).1 _
      (List.mem_append_right _ List.mem_cons_self)
  have noLater : time ≤ next := noLater
  omega

/-! ## Surroundings -/

namespace Workspace

/-- An announcement has been posted behind the messages that were ahead. -/
def Kept (ahead messages : List Message) : Prop :=
  ∃ behind, messages = ahead ++ .debounceElapsed :: behind

theorem Kept.append {ahead messages : List Message}
    (kept : Kept ahead messages) (more : List Message) :
    Kept ahead (messages ++ more) := by
  obtain ⟨behind, rfl⟩ := kept
  exact ⟨behind ++ more, List.append_assoc _ _ _⟩

/-- What a timeline says about the channel of a loop. -/
structure Recounts (channel : ChannelId) (timeline : List LoopEvent)
    (workspace : Workspace) : Prop where
  awaits : Awaits channel workspace
  past : ∀ event ∈ timeline, event.time ≤ workspace.agenda.now
  waiting : ∀ ahead behind,
    workspace.queue channel = ahead ++ .debounceElapsed :: behind →
      Announced timeline ahead workspace.agenda.now
  kept : ∀ before time ahead since,
    timeline = before ++ .announced time ahead :: since →
      Kept ahead (takenMessages since ++ workspace.queue channel)
  lawful : Lawful timeline

/-- A timeline is that of a loop whose coordinator has some debouncer. -/
structure Follows (channel : ChannelId) (debouncer : Debouncer)
    (timeline : List LoopEvent) (workspace : Workspace) : Prop
    extends Recounts channel timeline workspace where
  delay : debouncer.delay = hideDelay
  scheduled : Scheduled channel debouncer workspace.agenda
    (pendingPost? timeline)

variable {channel : ChannelId} {debouncer : Debouncer}
  {workspace later : Workspace}

theorem Recounts.calm (recounts : Recounts channel timeline workspace)
    (calm : Calm channel workspace later) :
    Recounts channel timeline later := by
  obtain ⟨more, queue, other⟩ := calm.queue
  refine ⟨calm.awaits, ?_, ?_, ?_, recounts.lawful⟩
  · rw [calm.agenda]
    exact recounts.past
  · intro ahead behind queued
    rw [calm.agenda]
    rw [queue] at queued
    -- No message among those that are new is an announcement.
    rcases List.append_eq_append_iff.mp queued with
      ⟨among, -, new⟩ | ⟨between, waited, rest⟩
    · exact absurd (by simp [new]) other
    · cases between with
      | nil =>
          rw [List.nil_append] at rest
          exact absurd (by simp [← rest]) other
      | cons first between =>
          obtain ⟨rfl, -⟩ := List.cons.inj rest
          exact recounts.waiting _ _ waited
  · intro before time ahead since same
    rw [queue, ← List.append_assoc]
    exact (recounts.kept _ _ _ _ same).append more

theorem Follows.calm (follows : Follows channel debouncer timeline workspace)
    (calm : Calm channel workspace later) :
    Follows channel debouncer timeline later where
  toRecounts := follows.toRecounts.calm calm
  delay := follows.delay
  scheduled := by
    rw [calm.agenda]
    exact follows.scheduled

theorem Follows.setClock
    (follows : Follows channel debouncer timeline workspace)
    (noEarlier : workspace.agenda.now ≤ time) :
    Follows channel debouncer timeline (workspace.setClock time) where
  awaits := ⟨follows.awaits.isOpen, follows.awaits.silent⟩
  past event member := Nat.le_trans (follows.past event member) noEarlier
  waiting ahead behind queued := by
    obtain ⟨before, announcedAt, since, same, earlier⟩ :=
      follows.waiting ahead behind queued
    exact ⟨before, announcedAt, since, same, Nat.le_trans earlier noEarlier⟩
  kept := follows.kept
  lawful := follows.lawful
  delay := follows.delay
  scheduled := follows.scheduled

theorem Recounts.past_concat
    (recounts : Recounts channel timeline workspace) {event : LoopEvent}
    (now : event.time = workspace.agenda.now) :
    ∀ other ∈ timeline ++ [event], other.time ≤ workspace.agenda.now := by
  intro other member
  rcases List.mem_append.mp member with earlier | new
  · exact recounts.past other earlier
  · rw [List.mem_singleton.mp new]
    exact Nat.le_of_eq now

/-- Taking a message from the channel. -/
theorem Recounts.take (recounts : Recounts channel timeline workspace)
    {message : Message}
    (taken : workspace.take? channel = some (message, later)) :
    Recounts channel (timeline ++ [.taken message workspace.agenda.now])
      later := by
  obtain ⟨same, queue⟩ := take?_eq_some recounts.awaits.isOpen taken
  refine ⟨recounts.awaits.of_same (same.isOpen channel) same.editor,
    ?_, ?_, ?_, ?_⟩
  · rw [same.agenda]
    exact recounts.past_concat rfl
  · intro ahead behind queued
    -- What waits now has been waiting behind the message that is taken.
    rw [queued] at queue
    rw [same.agenda]
    exact (recounts.waiting (message :: ahead) behind queue).concat
      (Nat.le_refl _)
  · intro before time ahead since split
    rcases append_cons_eq_concat split with
      ⟨-, new, -⟩ | ⟨between, earlier, rfl⟩
    · contradiction
    · have kept := recounts.kept _ _ _ _ earlier
      rw [queue] at kept
      rw [takenMessages_concat, List.append_assoc]
      exact kept
  · apply recounts.lawful.take recounts.past
    rintro rfl
    exact recounts.waiting [] _ queue

/-- Taking a message that leads to no new timer. -/
theorem Follows.take (follows : Follows channel debouncer timeline workspace)
    {message : Message} (noEdit : message ≠ .documentChanged)
    (taken : workspace.take? channel = some (message, later)) :
    Follows channel debouncer
      (timeline ++ [.taken message workspace.agenda.now]) later := by
  obtain ⟨same, -⟩ := take?_eq_some follows.awaits.isOpen taken
  have neutral :
      (LoopEvent.taken message workspace.agenda.now).IsNeutral := by
    cases message with
    | documentChanged => exact absurd rfl noEdit
    | _ => trivial
  refine ⟨follows.toRecounts.take taken, follows.delay, ?_⟩
  rw [pendingPost?, pendingEdit?_concat, neutral.pendingEdit?_eq, same.agenda]
  exact follows.scheduled

/-! ## Announcements -/

/-- The announcements that are made in a channel when timers fire. -/
def announcements (workspace : Workspace) (channel : ChannelId) :
    List LoopEvent :=
  (messagesTo channel (workspace.agenda.due.map Timer.sink)).map
    fun _ => .announced workspace.agenda.now (workspace.queue channel)

/-- Before the time of its timer has come, nothing happens in a channel. -/
theorem Follows.fireTimers_early
    (follows : Follows channel debouncer timeline workspace)
    (early : ∀ message deadline,
      pendingPost? timeline = some (message, deadline) →
        workspace.agenda.now < deadline) :
    workspace.announcements channel = [] ∧
      Follows channel debouncer timeline workspace.fireTimers := by
  obtain ⟨-, agenda, -, queue⟩ := fireTimers_spec workspace
  obtain ⟨posted, scheduled⟩ := follows.scheduled.not_due early
  have queue := queue channel follows.awaits.isOpen
  rw [posted, List.append_nil] at queue
  refine ⟨by rw [announcements, posted, List.map_nil],
    ⟨follows.awaits.fireTimers, ?_, ?_, ?_, follows.lawful⟩,
    follows.delay, ?_⟩
  · rw [agenda]
    exact follows.past
  · rw [agenda, queue]
    exact follows.waiting
  · rw [queue]
    exact follows.kept
  · rw [agenda]
    exact scheduled

/-- Posting an announcement to the channel. -/
theorem Recounts.announce (recounts : Recounts channel timeline workspace)
    {start : Nat} (awaits : Awaits channel later)
    (now : later.agenda.now = workspace.agenda.now)
    (queue : later.queue channel =
      workspace.queue channel ++ [.debounceElapsed])
    (pending : pendingEdit? timeline = some start)
    (isDue : start + hideDelay ≤ workspace.agenda.now) :
    Recounts channel
      (timeline ++
        [.announced workspace.agenda.now (workspace.queue channel)])
      later := by
  refine ⟨awaits, ?_, ?_, ?_,
    recounts.lawful.announce recounts.past pending isDue _⟩
  · rw [now]
    exact recounts.past_concat rfl
  · intro ahead behind queued
    rw [queue] at queued
    rw [now]
    rcases append_cons_eq_concat queued with
      ⟨rfl, -, -⟩ | ⟨between, waited, -⟩
    · exact ⟨timeline, _, [], rfl, Nat.le_refl _⟩
    · exact (recounts.waiting ahead between waited).concat (Nat.le_refl _)
  · intro before time ahead since split
    rw [queue]
    rcases append_cons_eq_concat split with
      ⟨rfl, new, rfl⟩ | ⟨between, earlier, rfl⟩
    · obtain ⟨-, rfl⟩ := LoopEvent.announced.inj new
      exact ⟨[], rfl⟩
    · have kept := (recounts.kept _ _ _ _ earlier).append [.debounceElapsed]
      rw [List.append_assoc] at kept
      rw [takenMessages_concat, List.append_assoc]
      exact kept

/-- The timer of a pending edit makes an announcement once its time has
come. -/
theorem Follows.fireTimers_due
    (follows : Follows channel debouncer timeline workspace) {start : Nat}
    (pending : pendingEdit? timeline = some start)
    (isDue : start + hideDelay ≤ workspace.agenda.now) :
    workspace.announcements channel =
        [.announced workspace.agenda.now (workspace.queue channel)] ∧
      Follows channel debouncer
        (timeline ++
          [.announced workspace.agenda.now (workspace.queue channel)])
        workspace.fireTimers := by
  obtain ⟨-, agenda, -, queue⟩ := fireTimers_spec workspace
  have scheduled := follows.scheduled
  rw [pendingPost?, pending] at scheduled
  obtain ⟨posted, noTimer⟩ := scheduled.due isDue
  have queue := queue channel follows.awaits.isOpen
  rw [posted] at queue
  have now : workspace.fireTimers.agenda.now = workspace.agenda.now := by
    rw [agenda]
    rfl
  refine ⟨by rw [announcements, posted, List.map_singleton],
    follows.toRecounts.announce follows.awaits.fireTimers now queue pending
      isDue, follows.delay, ?_⟩
  -- The timer is gone, and with the announcement no edit is pending.
  rw [pendingPost?, pendingEdit?_concat, agenda]
  exact noTimer

theorem Follows.fireTimers
    (follows : Follows channel debouncer timeline workspace) :
    Follows channel debouncer
      (timeline ++ workspace.announcements channel) workspace.fireTimers := by
  by_cases isDue : ∃ start, pendingEdit? timeline = some start ∧
      start + hideDelay ≤ workspace.agenda.now
  · obtain ⟨start, pending, isDue⟩ := isDue
    obtain ⟨announced, fired⟩ := follows.fireTimers_due pending isDue
    rwa [announced]
  · have early : ∀ message deadline,
        pendingPost? timeline = some (message, deadline) →
          workspace.agenda.now < deadline := by
      intro message deadline pending
      obtain ⟨start, edit, same⟩ := Option.map_eq_some_iff.mp pending
      obtain ⟨-, rfl⟩ := Prod.mk.inj same
      exact Nat.lt_of_not_le fun due => isDue ⟨start, edit, due⟩
    obtain ⟨none, fired⟩ := follows.fireTimers_early early
    rwa [none, List.append_nil]

/-! ## Edits -/

theorem exists_perform_edit (coordinator : Coordinator)
    (workspace : Workspace) :
    ∃ log, workspace.perform (coordinator.serve .documentChanged) =
      .finished
        (some { coordinator with debouncer :=
          ⟨coordinator.debouncer.delay, some workspace.agenda.nextTimer⟩ })
        { workspace with
          agenda := coordinator.debouncer.scheduled
            ⟨.debounceElapsed, coordinator.channel⟩ workspace.agenda
          log } := by
  obtain ⟨channel, visibility, ⟨delay, timer⟩, listeners⟩ := coordinator
  cases timer <;> exact ⟨_, rfl⟩

/-- Serving an edit starts the quiet period anew. -/
theorem Follows.edit (follows : Follows channel debouncer timeline workspace)
    (taken : workspace.take? channel = some (.documentChanged, later))
    {coordinator : Coordinator} (own : coordinator.debouncer = debouncer)
    (here : coordinator.channel = channel) :
    ∃ changed last,
      later.perform (coordinator.serve .documentChanged) =
          .finished (some changed) last ∧
        changed.channel = channel ∧
        Follows channel changed.debouncer
          (timeline ++ [.taken .documentChanged workspace.agenda.now])
          last := by
  obtain ⟨same, -⟩ := take?_eq_some follows.awaits.isOpen taken
  have recounts := follows.toRecounts.take taken
  obtain ⟨log, performed⟩ := exists_perform_edit coordinator later
  have now := Debouncer.now_scheduled coordinator.debouncer
    ⟨.debounceElapsed, coordinator.channel⟩ later.agenda
  have scheduled := follows.scheduled.schedule .debounceElapsed
    debouncer.delay
  refine ⟨_, _, performed, here,
    ⟨?_, ?_, ?_, recounts.kept, recounts.lawful⟩, ?_, ?_⟩
  · exact ⟨recounts.awaits.isOpen, recounts.awaits.silent⟩
  · rw [now]
    exact recounts.past
  · rw [now]
    exact recounts.waiting
  · exact (congrArg Debouncer.delay own).trans follows.delay
  · rw [pendingPost?, pendingEdit?_concat, own, here, same.agenda]
    rw [Agenda.timeAfter, follows.delay] at scheduled
    exact follows.delay.symm ▸ scheduled

end Workspace

end SignatureVeil
