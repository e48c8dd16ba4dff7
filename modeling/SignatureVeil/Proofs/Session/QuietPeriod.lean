import SignatureVeil.Proofs.Coordinator.Requests
import SignatureVeil.Proofs.Session.NoEditLost
import SignatureVeil.Proofs.Session.Timeline

/-!
# Quiet periods in the runs of a message loop

A message loop serves its messages while the user does anything, time passes,
and timers fire.  The end of a quiet period is announced only when nothing has
been edited for its length, as far as edits have been served by then.  An edit
that waits in the channel ahead of the announcement is served first, and the
announcement cannot be taken back any more.
-/

namespace SignatureVeil

open Workspace Interaction

/-- Something that happens around a message loop, apart from its timer. -/
inductive Goes : Workspace → Workspace → Prop where
  | edited (workspace : Workspace) (step : EditorStep) :
      Goes workspace (workspace.step step)
  | posted (workspace : Workspace) {sink : Sink}
      (other : sink.message ≠ .debounceElapsed) :
      Goes workspace (workspace.emit sink).2
  | elapsed (workspace : Workspace) {time : Nat}
      (noEarlier : workspace.agenda.now ≤ time) :
      Goes workspace (workspace.setClock time)

/-- What happens while a coordinator is activated. -/
abbrev Around : Workspace → Workspace → Prop :=
  Relation.ReflTransGen fun before after =>
    Goes before after ∨ after = before.fireTimers

/-- Nobody posts to the channel that is opened next. -/
structure Unused (workspace : Workspace) : Prop where
  unheard : ∀ listener ∈ workspace.editor.listeners,
    listener.sink.channel ≠ workspace.openChannel.1
  untimed : ∀ timer ∈ workspace.agenda.timers,
    timer.sink.channel ≠ workspace.openChannel.1

/-- The message that a loop takes next, if it is not occupied. -/
def MessageLoop.takes (loop : MessageLoop) (workspace : Workspace) :
    List LoopEvent :=
  match loop.activity with
  | .idle _ => (workspace.queue loop.channel).head?.toList.map
      fun message => .taken message workspace.agenda.now
  | _ => []

/-- A message loop after some timeline, and its surroundings, at any point of
any run that follows a successful activation. -/
inductive Runs : List LoopEvent → MessageLoop → Workspace → Prop where
  | activated {before after : Workspace} {coordinator : Coordinator}
      (unused : Unused before)
      (carried : Carried Around (.ok coordinator) after
        (Coordinator.activate before.openChannel.1) before.openChannel.2) :
      Runs [] ⟨before.openChannel.1, .idle coordinator⟩ after
  | passed {timeline : List LoopEvent} {loop : MessageLoop}
      {workspace later : Workspace} (runs : Runs timeline loop workspace)
      (goes : Goes workspace later) : Runs timeline loop later
  | fired {timeline : List LoopEvent} {loop : MessageLoop}
      {workspace : Workspace} (runs : Runs timeline loop workspace) :
      Runs (timeline ++ workspace.announcements loop.channel) loop
        workspace.fireTimers
  | resumed {timeline : List LoopEvent} {loop : MessageLoop}
      {workspace : Workspace} (runs : Runs timeline loop workspace)
      (ended : loop.isOver workspace.agenda.now = true) :
      Runs timeline loop.resume workspace
  | served {timeline : List LoopEvent} {loop next : MessageLoop}
      {workspace later : Workspace} (runs : Runs timeline loop workspace)
      (ran : loop.run 1 workspace = (some next, later)) :
      Runs (timeline ++ loop.takes workspace) next later

variable {channel : ChannelId} {debouncer : Debouncer}
  {timeline : List LoopEvent} {workspace later : Workspace}

theorem Workspace.Follows.goes (follows : Follows channel debouncer timeline workspace)
    (goes : Goes workspace later) :
    Follows channel debouncer timeline later := by
  cases goes with
  | edited step => exact follows.calm (calm_step follows.awaits step)
  | posted other => exact follows.calm (calm_emit follows.awaits fun _ => other)
  | elapsed noEarlier => exact follows.setClock noEarlier

/-! ## Activation -/

/-- As long as nothing has been scheduled, nothing is announced. -/
theorem Workspace.Follows.around (follows : Follows channel {} [] workspace)
    (around : Around workspace later) : Follows channel {} [] later := by
  induction around with
  | refl => exact follows
  | tail _ last ih =>
      rcases last with goes | rfl
      · exact ih.goes goes
      · exact (ih.fireTimers_early fun _ _ pending => nomatch pending).2

theorem Unused.follows (unused : Unused workspace) :
    Follows workspace.openChannel.1 {} [] workspace.openChannel.2 := by
  refine ⟨⟨⟨isOpen_openChannel workspace, ?_⟩, by simp, ?_, by simp,
    lawful_nil⟩, rfl, ?_⟩
  · intro listener listed here
    exact absurd here (unused.unheard listener listed)
  · intro ahead behind queued
    rw [queue_openChannel] at queued
    simp at queued
  · apply List.filter_eq_nil_iff.mpr
    intro timer running
    simpa using unused.untimed timer running

/-- A coordinator that has just been activated has scheduled nothing. -/
def Unscheduled (channel : ChannelId) (result : Except Failure Coordinator) :
    Prop :=
  ∀ coordinator, result = .ok coordinator →
    coordinator.debouncer = {} ∧ coordinator.channel = channel

theorem asks_of_visual {α : Type} {interaction : Interaction α}
    {ends : α → Prop} (asks : interaction.Asks Request.IsVisual ends) :
    interaction.Asks Request.IsCalm ends :=
  asks.mono (fun _ visual => visual.isCalm) fun _ holds => holds

theorem asks_conclude {coordinator : Coordinator}
    (unscheduled : coordinator.debouncer = {}) (outcome : Outcome) :
    (coordinator.conclude outcome).Asks Request.IsCalm
      (Unscheduled coordinator.channel) := by
  cases outcome with
  | ok _ =>
      refine ⟨trivial, fun _ other same => ?_⟩
      obtain rfl := Except.ok.inj same
      exact ⟨unscheduled, rfl⟩
  | error failure =>
      have deactivating : coordinator.deactivate.Asks Request.IsCalm
          fun _ => True := by
        apply asks_deactivate _ (fun _ => trivial) trivial fun _ => trivial
        simp [unscheduled]
      apply deactivating.bind
      intro _ _ other same
      contradiction

theorem asks_activate (channel : ChannelId) :
    (Coordinator.activate channel).Asks Request.IsCalm
      (Unscheduled channel) := by
  have listening : (Coordinator.listenTo channel Coordinator.topics).Asks
      Request.IsCalm fun _ => True := by
    apply asks_listenTo
    simp [Coordinator.topics, EditorEvent.all, Command.all, Request.IsCalm,
      EditorEvent.message]
  apply listening.bind
  refine fun listeners _ => ⟨trivial, fun shown => ?_⟩
  have unscheduled : ({ channel, listeners } : Coordinator).debouncer = {} :=
    rfl
  cases shown with
  | none => exact asks_conclude unscheduled (.ok ())
  | some document =>
      apply (asks_of_visual (asks_hideAndFold { channel, listeners })).bind
      rintro ⟨coordinator, outcome⟩ keeps
      have concluding := asks_conclude keeps.debouncer outcome
      rwa [keeps.channel] at concluding

/-! ## Serving -/

/-- An interaction that asks for no command is carried out at once. -/
theorem exists_finished {α : Type} {interaction : Interaction α}
    {ends : α → Prop}
    (asks : interaction.Asks Request.IsPrompt ends) (workspace : Workspace) :
    ∃ result last, workspace.perform interaction = .finished result last ∧
        ends result := by
  induction interaction generalizing workspace with
  | done result => exact ⟨result, workspace, rfl, asks⟩
  | ask request next ih =>
      have goesOn := ih _ (asks.2 (workspace.answer request).1)
        (workspace.answer request).2
      cases request with
      | execute command => exact absurd rfl (asks.1 command)
      | _ => exact goesOn

/-- A coordinator goes on with the same debouncer. -/
def KeepsGoing (channel : ChannelId) (debouncer : Debouncer)
    (result : Option Coordinator) : Prop :=
  ∃ coordinator, result = some coordinator ∧
    coordinator.debouncer = debouncer ∧ coordinator.channel = channel

/-- A loop is idle with some debouncer, or will be when it has served its
message. -/
def Heeds (channel : ChannelId) (debouncer : Debouncer) : Activity → Prop
  | .idle coordinator => KeepsGoing channel debouncer (some coordinator)
  | .waiting _ _ next | .resuming _ next => ∀ outcome,
      (next outcome).Asks Request.IsCalm (KeepsGoing channel debouncer)

/-- What a loop does next, and where, if it goes on at all. -/
def activity? : Progress (Option Coordinator) → Option (Activity × Workspace)
  | .finished none _ => none
  | .finished (some coordinator) last => some (.idle coordinator, last)
  | .waiting command time next earlier =>
      some (.waiting command time next, earlier)

theorem run_one_cases {loop next : MessageLoop}
    (ran : loop.run 1 workspace = (some next, later)) :
    (loop.advance? workspace = none ∧ next = loop ∧ later = workspace) ∨
      ∃ progress activity, loop.advance? workspace = some progress ∧
        activity? progress = some (activity, later) ∧
        next = ⟨loop.channel, activity⟩ := by
  simp only [MessageLoop.run] at ran
  cases advanced : loop.advance? workspace with
  | none =>
      rw [advanced] at ran
      obtain ⟨same, rfl⟩ := Prod.mk.inj ran
      exact .inl ⟨rfl, (Option.some.inj same).symm, rfl⟩
  | some progress =>
      rw [advanced] at ran
      right
      cases progress with
      | finished result last =>
          cases result with
          | none => cases (Prod.mk.inj ran).1
          | some coordinator =>
              obtain ⟨same, rfl⟩ := Prod.mk.inj ran
              exact ⟨_, _, rfl, rfl, (Option.some.inj same).symm⟩
      | waiting command time rest earlier =>
          obtain ⟨same, rfl⟩ := Prod.mk.inj ran
          exact ⟨_, _, rfl, rfl, (Option.some.inj same).symm⟩

/-- An order to shut down ends a loop at once. -/
theorem activity?_shutdown (coordinator : Coordinator)
    (workspace : Workspace) :
    activity? (workspace.perform (coordinator.serve .shutdown)) = none := by
  have ending : (coordinator.serve .shutdown).Asks Request.IsPrompt
      fun result => result = none :=
    (prompt_deactivate coordinator).bind fun _ _ => rfl
  obtain ⟨_, last, performed, rfl⟩ := exists_finished ending workspace
  rw [performed]
  rfl

theorem heeds_of_standsCalm
    (follows : Follows channel debouncer timeline workspace)
    {progress : Progress (Option Coordinator)} {activity : Activity}
    (stands : StandsCalm channel (KeepsGoing channel debouncer) workspace
      progress)
    (goesOn : activity? progress = some (activity, later)) :
    Heeds channel debouncer activity ∧
      Follows channel debouncer timeline later := by
  cases progress with
  | finished result last =>
      obtain ⟨calm, coordinator, rfl, keeps⟩ := stands
      obtain ⟨rfl, rfl⟩ := Prod.mk.inj (Option.some.inj goesOn)
      exact ⟨⟨coordinator, rfl, keeps⟩, follows.calm calm⟩
  | waiting command time next earlier =>
      obtain ⟨rfl, rfl⟩ := Prod.mk.inj (Option.some.inj goesOn)
      exact ⟨stands.2, follows.calm stands.1⟩

theorem follows_served
    (follows : Follows channel debouncer timeline workspace)
    {message : Message} {left : Workspace} {coordinator : Coordinator}
    {activity : Activity}
    (taken : workspace.take? channel = some (message, left))
    (heeds : KeepsGoing channel debouncer (some coordinator))
    (goesOn : activity? (left.perform (coordinator.serve message)) =
      some (activity, later)) :
    ∃ debouncer, Heeds channel debouncer activity ∧
      Follows channel debouncer
        (timeline ++ [.taken message workspace.agenda.now]) later := by
  obtain ⟨_, same, own, here⟩ := heeds
  obtain rfl := Option.some.inj same
  by_cases edit : message = .documentChanged
  · -- Only here a timer is started, and the debouncer is another one.
    subst edit
    obtain ⟨changed, last, performed, here', follows'⟩ :=
      follows.edit taken own here
    rw [performed] at goesOn
    obtain ⟨rfl, rfl⟩ := Prod.mk.inj (Option.some.inj goesOn)
    exact ⟨changed.debouncer, ⟨changed, rfl, rfl, here'⟩, follows'⟩
  · have goes : message ≠ .shutdown := by
      rintro rfl
      rw [activity?_shutdown] at goesOn
      contradiction
    have takes := follows.take edit taken
    have serving : (coordinator.serve message).Asks Request.IsCalm
        (KeepsGoing channel debouncer) := by
      apply (asks_of_visual (asks_serve coordinator edit goes)).mono
        fun _ calm => calm
      rintro _ ⟨changed, rfl, keeps⟩
      exact ⟨changed, rfl, keeps.debouncer.trans own, keeps.channel.trans here⟩
    exact ⟨debouncer, heeds_of_standsCalm takes
      (standsCalm_perform serving takes.awaits) goesOn⟩

/-- A loop that cannot go on takes nothing. -/
theorem takes_of_advance?_eq_none {loop : MessageLoop}
    (stays : loop.advance? workspace = none) : loop.takes workspace = [] := by
  obtain ⟨channel, activity⟩ := loop
  cases activity with
  | idle coordinator =>
      have empty : workspace.queue channel = [] := by
        cases queued : workspace.queue channel with
        | nil => rfl
        | cons message rest =>
            simp [MessageLoop.advance?, take?, queued] at stays
      simp [MessageLoop.takes, empty]
  | waiting command time next => rfl
  | resuming command next => rfl

theorem follows_advanced {loop : MessageLoop}
    {progress : Progress (Option Coordinator)} {activity : Activity}
    (heeds : Heeds loop.channel debouncer loop.activity)
    (follows : Follows loop.channel debouncer timeline workspace)
    (advanced : loop.advance? workspace = some progress)
    (goesOn : activity? progress = some (activity, later)) :
    ∃ debouncer, Heeds loop.channel debouncer activity ∧
      Follows loop.channel debouncer (timeline ++ loop.takes workspace)
        later := by
  obtain ⟨channel, started⟩ := loop
  cases started with
  | idle coordinator =>
      simp only [MessageLoop.advance?] at advanced
      cases taken : workspace.take? channel with
      | none => simp [taken] at advanced
      | some head =>
          obtain ⟨message, left⟩ := head
          simp only [taken, Option.some.injEq] at advanced
          obtain ⟨-, queue⟩ := take?_eq_some follows.awaits.isOpen taken
          have takes : MessageLoop.takes ⟨channel, .idle coordinator⟩
              workspace = [.taken message workspace.agenda.now] := by
            simp [MessageLoop.takes, queue]
          rw [takes]
          exact follows_served follows taken heeds (advanced ▸ goesOn)
  | waiting command time next => simp [MessageLoop.advance?] at advanced
  | resuming command next =>
      have stands := standsCalm_perform
        (heeds (workspace.editor.outcomeOf (.execute command))) follows.awaits
      rw [Option.some.inj advanced] at stands
      rw [show MessageLoop.takes ⟨channel, .resuming command next⟩ workspace =
        [] from rfl, List.append_nil]
      exact ⟨debouncer, heeds_of_standsCalm follows stands goesOn⟩

theorem Runs.exists_follows {loop : MessageLoop}
    (runs : Runs timeline loop workspace) :
    ∃ debouncer, Heeds loop.channel debouncer loop.activity ∧
      Follows loop.channel debouncer timeline workspace := by
  induction runs with
  | activated unused carried =>
      obtain ⟨follows, unscheduled⟩ := carried.keeps (asks_activate _)
        unused.follows (fun follows => follows.awaits)
        (fun follows calm => follows.calm calm)
        fun follows around => follows.around around
      exact ⟨{}, ⟨_, rfl, unscheduled _ rfl⟩, follows⟩
  | passed _ goes ih =>
      obtain ⟨debouncer, heeds, follows⟩ := ih
      exact ⟨debouncer, heeds, follows.goes goes⟩
  | fired _ ih =>
      obtain ⟨debouncer, heeds, follows⟩ := ih
      exact ⟨debouncer, heeds, follows.fireTimers⟩
  | @resumed _ loop _ _ _ ih =>
      obtain ⟨debouncer, heeds, follows⟩ := ih
      obtain ⟨channel, activity⟩ := loop
      cases activity <;> exact ⟨debouncer, heeds, follows⟩
  | served _ ran ih =>
      obtain ⟨debouncer, heeds, follows⟩ := ih
      rcases run_one_cases ran with
        ⟨stays, rfl, rfl⟩ | ⟨progress, activity, advanced, goesOn, rfl⟩
      · rw [takes_of_advance?_eq_none stays, List.append_nil]
        exact ⟨debouncer, heeds, follows⟩
      · exact follows_advanced heeds follows advanced goesOn

/-! ## The law -/

/-- What holds of the edits and the announcements in a run. -/
structure KeepsQuiet (channel : ChannelId) (timeline : List LoopEvent)
    (workspace : Workspace) : Prop where
  /-- The end of a quiet period is taken when exactly those messages have been
  taken that were ahead of its announcement.  All edits that were served before
  the announcement were served at least a quiet period earlier.  So if no edit
  was ahead, this is true of all edits that have been served. -/
  quiet : ∀ before time after,
    timeline = before ++ .taken .debounceElapsed time :: after →
      ∃ earlier announcedAt ahead since,
        before = earlier ++ .announced announcedAt ahead :: since ∧
          takenMessages since = ahead ∧ announcedAt ≤ time ∧
          (∀ edited, .taken .documentChanged edited ∈ earlier →
            edited + hideDelay ≤ announcedAt) ∧
          (.documentChanged ∉ ahead →
            ∀ edited, .taken .documentChanged edited ∈ before →
              edited + hideDelay ≤ time)
  /-- Every announcement is owed to the last edit, and to no other. -/
  owed : ∀ before time ahead after,
    timeline = before ++ .announced time ahead :: after →
      ∃ earlier start since,
        before = earlier ++ .taken .documentChanged start :: since ∧
          (∀ event ∈ since, event.IsNeutral) ∧ start + hideDelay ≤ time
  /-- Nothing is announced between edits that follow each other closely. -/
  coalesced : ∀ before start between next after,
    timeline = before ++ .taken .documentChanged start :: between ++
        .taken .documentChanged next :: after →
      next < start + hideDelay →
        ∀ time ahead, .announced time ahead ∉ between
  /-- As long as no other edit is served, a single timer is going to announce
  the end of the quiet period, and does so once its time has come. -/
  pending : ∀ before start since,
    timeline = before ++ .taken .documentChanged start :: since →
      (∀ event ∈ since, event.IsNeutral) →
        (∃ id, workspace.agenda.timersOf channel =
          [⟨id, start + hideDelay, ⟨.debounceElapsed, channel⟩⟩]) ∧
        (start + hideDelay ≤ workspace.agenda.now →
          workspace.announcements channel =
            [.announced workspace.agenda.now (workspace.queue channel)])
  /-- An announcement waits in the channel until it is taken. -/
  kept : ∀ before time ahead since,
    timeline = before ++ .announced time ahead :: since →
      Kept ahead (takenMessages since ++ workspace.queue channel)

theorem Runs.keepsQuiet {loop : MessageLoop}
    (runs : Runs timeline loop workspace) :
    KeepsQuiet loop.channel timeline workspace := by
  obtain ⟨debouncer, -, follows⟩ := runs.exists_follows
  have lawful := follows.lawful
  refine ⟨?_, ?_, ?_, ?_, follows.kept⟩
  · intro before time after same
    obtain ⟨earlier, announcedAt, since, rfl, noLater⟩ :=
      lawful.taken _ _ _ same
    rw [List.append_assoc, List.cons_append] at same
    have quiet : ∀ edited, .taken .documentChanged edited ∈ earlier →
        edited + hideDelay ≤ announcedAt :=
      fun _ edit => lawful.edited_before_announced same edit
    refine ⟨earlier, announcedAt, _, since, rfl, (List.append_nil _).symm,
      noLater, quiet, ?_⟩
    intro noEdit edited edit
    rcases List.mem_append.mp edit with edit | recent
    · exact Nat.le_trans (quiet edited edit) noLater
    · rcases List.mem_cons.mp recent with edit | recent
      · contradiction
      · rw [List.append_nil] at noEdit
        have taken : .documentChanged ∈ takenMessages since :=
          List.mem_filterMap.mpr ⟨_, recent, rfl⟩
        exact absurd taken noEdit
  · intro before time ahead after same
    obtain ⟨start, pending, isDue⟩ := lawful.announced _ _ _ _ same
    obtain ⟨earlier, since, edit, neutral⟩ :=
      exists_edit_of_pendingEdit? pending
    exact ⟨earlier, start, since, edit, neutral, isDue⟩
  · intro before start between next after same close time ahead
    exact lawful.not_announced_between same close
  · intro before start since same neutral
    have pending : pendingEdit? timeline = some start := by
      rw [same, List.append_cons, pendingEdit?_append_of_neutral _ neutral]
      exact pendingEdit?_concat _ _
    have scheduled := follows.scheduled
    rw [pendingPost?, pending] at scheduled
    obtain ⟨id, -, only⟩ := scheduled
    exact ⟨⟨id, only⟩, fun isDue => (follows.fireTimers_due pending isDue).1⟩

theorem unused_empty : Unused {} where
  unheard := by simp
  untimed := by simp

theorem Runs.serve {loop : MessageLoop}
    (runs : Runs timeline loop workspace)
    (goesOn : (loop.run 1 workspace).1.isSome = true) :
    Runs (timeline ++ loop.takes workspace)
      ((loop.run 1 workspace).1.get goesOn) (loop.run 1 workspace).2 :=
  runs.served (Prod.ext (Option.some_get goesOn).symm rfl)

/-- A single edit is followed by a quiet period. -/
theorem Runs.keepsQuiet_edited : ∃ timeline loop workspace,
    Runs timeline loop workspace ∧
      timeline = [.taken .documentChanged 0, .announced 200 [],
        .taken .debounceElapsed 200] ∧
      KeepsQuiet loop.channel timeline workspace := by
  have activated : Runs [] ⟨0, .idle _⟩ _ :=
    .activated unused_empty (.finished rfl)
  have changed := activated.passed (.edited _ (.fire .documentChanged))
  have scheduled := changed.serve (by decide +kernel)
  have elapsed := scheduled.passed
    (.elapsed _ (show _ ≤ 200 by decide +kernel))
  have hidden := elapsed.fired.serve (by decide +kernel)
  exact ⟨_, _, _, hidden, by decide +kernel, hidden.keepsQuiet⟩

/-- An announcement can be taken as soon as an edit has been served.  Here the
loop serves another message until both wait, the edit ahead of the
announcement that an earlier edit has led to. -/
theorem debounceElapsed_after_edit :
    ¬ ∀ timeline loop workspace, Runs timeline loop workspace →
      ∀ before time after edited,
        timeline = before ++ .taken .debounceElapsed time :: after →
          .taken .documentChanged edited ∈ before →
            edited + hideDelay ≤ time := by
  intro quiet
  have activated : Runs [] ⟨0, .idle _⟩ _ :=
    .activated unused_empty (.finished rfl)
  have opened := activated.passed
    (.edited _ (.focus (some ⟨1, "ruby", "", []⟩)))
  have slow := opened.passed (.edited _ (.delay 250))
  have changed := slow.passed (.edited _ (.fire .documentChanged))
  have scheduled := changed.serve (by decide +kernel)
  have invoked := scheduled.passed
    (.edited _ (.invoke (Command.id .showSignatures)))
  have waiting := invoked.serve (by decide +kernel)
  have changedAgain := waiting.passed
    (.edited _ (.fire .documentChanged))
  have elapsed := changedAgain.passed
    (.elapsed _ (show _ ≤ 200 by decide +kernel))
  have ended := elapsed.fired.passed
    (.elapsed _ (show _ ≤ 250 by decide +kernel))
  have shown := (ended.resumed (by decide +kernel)).serve (by decide +kernel)
  have rescheduled := shown.serve (by decide +kernel)
  have hidden := rescheduled.serve (by decide +kernel)
  have late := quiet _ _ _ hidden
    [.taken .documentChanged 0, .taken (.command .showSignatures) 0,
      .announced 200 [.documentChanged], .taken .documentChanged 250]
    250 [] 250 (by decide +kernel) (by decide)
  simp [hideDelay] at late

end SignatureVeil
