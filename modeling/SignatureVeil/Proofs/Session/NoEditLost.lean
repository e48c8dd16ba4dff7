import SignatureVeil.Proofs.Session.Redrawing
import SignatureVeil.Proofs.Workspace.Holdings
import SignatureVeil.Session.MessageLoop

/-!
# No edit is lost

A coordinator is activated, and its message loop runs, while the user edits,
switches documents and asks for signatures to be hidden, while commands fail
and timers run out, in any order.  Whenever a document of the target language
is shown, nothing waits in the channel and no timer runs, what is drawn is the
signatures of the text that is shown.
-/

namespace SignatureVeil

open Workspace

/-! ## Activation -/

/-- Nothing is drawn, and nobody posts to the channel that is opened next. -/
structure Ready (workspace : Workspace) : Prop
    extends Obliging workspace.editor where
  blank : workspace.editor.drawn = []
  unheard : ∀ listener ∈ workspace.editor.listeners,
    listener.sink.channel ≠ workspace.openChannel.1
  untimed : ∀ timer ∈ workspace.agenda.timers,
    timer.sink.channel ≠ workspace.openChannel.1

/-- Listeners have been added, one for each topic. -/
structure Subscribed (channel : ChannelId) (topics : List (Topic × Message))
    (before after : Workspace) : Prop where
  rest : ∃ listeners nextListener calls,
    after = { before with
      editor := { before.editor with listeners, nextListener, calls } }
  drawn : after.editor.drawn = before.editor.drawn
  listeners : after.editor.listeners.map Listener.subscription =
    before.editor.listeners.map Listener.subscription ++
      topics.map fun pair => (pair.1, ⟨pair.2, channel⟩)

variable {channel : ChannelId} {workspace : Workspace}
  {during : Workspace → Prop}

theorem ensures_listenTo (channel : ChannelId)
    (topics : List (Topic × Message)) (workspace : Workspace) :
    Ensures Passes during
      (fun _ later => Subscribed channel topics workspace later)
      (Coordinator.listenTo channel topics) workspace := by
  induction topics generalizing workspace with
  | nil => exact ⟨⟨_, _, _, rfl⟩, rfl, by simp⟩
  | cons pair rest ih =>
      obtain ⟨topic, message⟩ := pair
      have first : Subscribed channel [(topic, message)] workspace
          (workspace.answer (.listen topic ⟨message, channel⟩)).2 := by
        refine ⟨⟨_, _, _, rfl⟩, ?_, ?_⟩
        · exact Editor.drawn_record workspace.editor _
        · change (workspace.editor.listeners ++ [_]).map _ = _
          rw [List.map_append]
          rfl
      apply (ih _).bind
      intro listeners later subscribed
      obtain ⟨_, _, _, firstRest⟩ := first.rest
      obtain ⟨_, _, _, laterRest⟩ := subscribed.rest
      refine ⟨⟨_, _, _, laterRest.trans (by rw [firstRest])⟩,
        subscribed.drawn.trans first.drawn, ?_⟩
      rw [subscribed.listeners, first.listeners, List.append_assoc]
      rfl

theorem isOpen_openChannel (workspace : Workspace) :
    workspace.openChannel.2.isOpen workspace.openChannel.1 = true := by
  simp [openChannel, isOpen]

theorem queue_openChannel (workspace : Workspace) :
    workspace.openChannel.2.queue workspace.openChannel.1 = [] := by
  simp [openChannel, queue]

theorem Ready.wired {later : Workspace} (ready : Ready workspace)
    (subscribed : Subscribed workspace.openChannel.1 Coordinator.topics
      workspace.openChannel.2 later) :
    Wired workspace.openChannel.1 later := by
  obtain ⟨listeners, nextListener, calls, rfl⟩ := subscribed.rest
  have subscriptions := subscribed.listeners
  refine { enabled := ready.enabled, failing := ready.failing
           hooks := ready.hooks, isOpen := isOpen_openChannel workspace
           listens := ?_, posts := ?_, work := ?_, timers := ?_ }
  · intro event
    have listed : (Topic.event event,
        (⟨event.message, workspace.openChannel.1⟩ : Sink)) ∈
          listeners.map Listener.subscription := by
      rw [subscriptions]
      apply List.mem_append_right
      cases event <;> simp [Coordinator.topics, EditorEvent.all]
    obtain ⟨listener, member, subscription⟩ := List.mem_map.mp listed
    obtain ⟨topic, sink⟩ := Prod.mk.inj subscription
    simp only [sinksOf, List.mem_map, List.mem_filter, decide_eq_true_eq]
    exact ⟨listener, ⟨member, topic⟩, sink⟩
  · intro listener member here
    have listed := List.mem_map_of_mem (f := Listener.subscription) member
    rw [subscriptions, List.mem_append] at listed
    rcases listed with earlier | new
    · obtain ⟨other, otherMember, same⟩ := List.mem_map.mp earlier
      obtain ⟨-, sink⟩ := Prod.mk.inj same
      rw [← sink] at here
      exact absurd here (ready.unheard other otherMember)
    · obtain ⟨⟨topic, message⟩, topics, same⟩ := List.mem_map.mp new
      obtain ⟨rfl, sink⟩ := Prod.mk.inj same
      rwa [← sink]
  · intro message member
    have empty := queue_openChannel workspace
    change message ∈ workspace.openChannel.2.queue workspace.openChannel.1
      at member
    simp [empty] at member
  · intro timer member here
    exact absurd here (ready.untimed timer member)

/-- If an activation succeeds, its coordinator is at work. -/
def TendsIfOk (channel : ChannelId) (result : Except Failure Coordinator)
    (workspace : Workspace) : Prop :=
  ∀ coordinator, result = .ok coordinator →
    Tends channel coordinator workspace

theorem ensures_conclude {coordinator : Coordinator}
    (tends : Tends channel coordinator workspace) (outcome : Outcome) :
    Ensures Passes (fun _ => True) (TendsIfOk channel)
      (coordinator.conclude outcome) workspace := by
  cases outcome with
  | error failure =>
      apply (ensures_of_forall (fun _ _ => trivial) _ _).bind
      rintro _ _ - other failed
      contradiction
  | ok _ =>
      apply (ensures_log tends.owns.wired _).bind
      rintro - logged leaves other same
      obtain rfl := Except.ok.inj same
      exact tends.of_leaves leaves

theorem ensures_activate (ready : Ready workspace) :
    Ensures Passes (fun _ => True) (TendsIfOk workspace.openChannel.1)
      (Coordinator.activate workspace.openChannel.1)
      workspace.openChannel.2 := by
  apply (ensures_listenTo _ _ _).bind
  intro listeners later subscribed
  have wired := ready.wired subscribed
  have blank : later.editor.drawn = [] := subscribed.drawn.trans ready.blank
  have owns : Owns workspace.openChannel.1
      { channel := workspace.openChannel.1, listeners } later := by
    refine ⟨rfl, wired, ?_, ?_⟩
    · simp [Editor.DrawsOnlyWith, blank]
    · obtain ⟨_, _, _, rfl⟩ := subscribed.rest
      intro timer member here
      exact absurd here (ready.untimed timer member)
  have asked : Ensures Passes (fun _ => True)
      (fun shown final => shown = later.editor.document ∧ final = later)
      (Interaction.request .document) later := ⟨rfl, rfl⟩
  apply asked.bind
  rintro shown final ⟨rfl, rfl⟩
  cases shown : final.editor.document with
  | none =>
      have covered : Covered workspace.openChannel.1 final := by
        right
        simp [Editor.targetText?, shown]
      exact ensures_conclude ⟨owns, covered⟩ (.ok ())
  | some document =>
      have hidden := (ensures_hideAndFold owns).mono (fun _ _ => trivial)
        fun _ _ tends => tends
      exact hidden.bind fun result later tends =>
        ensures_conclude tends result.2

/-! ## Runs -/

/-- A message loop and its surroundings, at any point of any run that follows a
successful activation. -/
inductive Reachable : MessageLoop → Workspace → Prop where
  | activated {before after : Workspace} {coordinator : Coordinator}
      (ready : Ready before)
      (carried : Carried Passes (.ok coordinator) after
        (Coordinator.activate before.openChannel.1) before.openChannel.2) :
      Reachable ⟨before.openChannel.1, .idle coordinator⟩ after
  | passed {loop : MessageLoop} {workspace later : Workspace}
      (reachable : Reachable loop workspace)
      (happens : Happens workspace later) : Reachable loop later
  | resumed {loop : MessageLoop} {workspace : Workspace}
      (reachable : Reachable loop workspace) : Reachable loop.resume workspace
  | served {loop next : MessageLoop} {workspace later : Workspace}
      (reachable : Reachable loop workspace)
      (ran : loop.run 1 workspace = (some next, later)) : Reachable next later

/-- What the rest of a message ensures, from some workspace on. -/
def EndsWell (channel : ChannelId) (rest : Interaction (Option Coordinator))
    (workspace : Workspace) : Prop :=
  Ensures Passes (fun later => Wired channel later ∧ Covered channel later)
    (fun result later => ∃ coordinator, result = some coordinator ∧
      Tends channel coordinator later)
    rest workspace

/-- What holds of a loop at every point of a run. -/
def Attentive (loop : MessageLoop) (workspace : Workspace) : Prop :=
  match loop.activity with
  | .idle coordinator => Tends loop.channel coordinator workspace
  | .waiting command _ next | .resuming command next =>
      ∀ later, Passes workspace later →
        (Wired loop.channel later ∧ Covered loop.channel later) ∧
        EndsWell loop.channel
          (next (later.editor.outcomeOf (.execute command))) later

theorem Attentive.covered {loop : MessageLoop}
    (attentive : Attentive loop workspace) :
    Covered loop.channel workspace := by
  obtain ⟨channel, activity⟩ := loop
  cases activity with
  | idle coordinator => exact Tends.covered attentive
  | waiting command time next => exact (attentive workspace .refl).1.2
  | resuming command next => exact (attentive workspace .refl).1.2

theorem Attentive.passed {loop : MessageLoop} {later : Workspace}
    (attentive : Attentive loop workspace)
    (happens : Happens workspace later) : Attentive loop later := by
  obtain ⟨channel, activity⟩ := loop
  cases activity with
  | idle coordinator =>
      have tends : Tends channel coordinator workspace := attentive
      exact tends.of_leaves (happens.leaves tends.owns.wired)
  | waiting command time next =>
      exact fun last passes => attentive last (.head happens passes)
  | resuming command next =>
      exact fun last passes => attentive last (.head happens passes)

theorem Attentive.resumed {loop : MessageLoop}
    (attentive : Attentive loop workspace) :
    Attentive loop.resume workspace := by
  obtain ⟨channel, activity⟩ := loop
  cases activity <;> exact attentive

/-- A loop only takes work, and what it does with it ends well. -/
theorem Attentive.exists_endsWell {loop : MessageLoop}
    {progress : Progress (Option Coordinator)}
    (attentive : Attentive loop workspace)
    (advanced : loop.advance? workspace = some progress) :
    ∃ rest earlier, earlier.perform rest = progress ∧
      EndsWell loop.channel rest earlier := by
  obtain ⟨channel, activity⟩ := loop
  cases activity with
  | idle coordinator =>
      have tends : Tends channel coordinator workspace := attentive
      have wired := tends.owns.wired
      simp only [MessageLoop.advance?] at advanced
      cases taken : workspace.take? channel with
      | none => simp [taken] at advanced
      | some head =>
          obtain ⟨message, left⟩ := head
          simp only [taken, Option.some.injEq] at advanced
          obtain ⟨same, queue⟩ := take?_eq_some wired.isOpen taken
          have work : ∀ other ∈ message :: left.queue channel,
              other.IsWork := by
            rw [← queue]
            exact wired.work
          have owns : Owns channel coordinator left :=
            { channel_eq := tends.owns.channel_eq
              wired := wired.of_same same fun other member =>
                work other (List.mem_cons_of_mem _ member)
              draws := by rw [same.editor]; exact tends.owns.draws
              timers := by rw [same.agenda]; exact tends.owns.timers }
          exact ⟨_, left, advanced,
            ensures_serve owns (work message List.mem_cons_self)⟩
  | waiting command time next => simp [MessageLoop.advance?] at advanced
  | resuming command next =>
      exact ⟨_, workspace, Option.some.inj advanced,
        (attentive workspace .refl).2⟩

theorem Attentive.served {loop next : MessageLoop} {later : Workspace}
    (attentive : Attentive loop workspace)
    (ran : loop.run 1 workspace = (some next, later)) :
    Attentive next later := by
  simp only [MessageLoop.run] at ran
  cases advanced : loop.advance? workspace with
  | none =>
      rw [advanced] at ran
      obtain ⟨same, rfl⟩ := Prod.mk.inj ran
      obtain rfl := Option.some.inj same
      exact attentive
  | some progress =>
      obtain ⟨rest, earlier, performed, endsWell⟩ :=
        attentive.exists_endsWell advanced
      have stands := endsWell.perform
      rw [performed] at stands
      rw [advanced] at ran
      cases progress with
      | finished result last =>
          obtain ⟨coordinator, rfl, tends⟩ := stands
          obtain ⟨same, rfl⟩ := Prod.mk.inj ran
          obtain rfl := Option.some.inj same
          exact tends
      | waiting command time rest last =>
          obtain ⟨same, rfl⟩ := Prod.mk.inj ran
          obtain rfl := Option.some.inj same
          exact stands

theorem Reachable.attentive {loop : MessageLoop}
    (reachable : Reachable loop workspace) : Attentive loop workspace := by
  induction reachable with
  | activated ready carried =>
      exact (ensures_activate ready).carried carried _ rfl
  | passed _ happens ih => exact ih.passed happens
  | resumed _ ih => exact ih.resumed
  | served _ ran ih => exact ih.served ran

/-- No message waits for a loop, and no timer will post one. -/
def MessageLoop.IsQuiet (loop : MessageLoop) (workspace : Workspace) : Prop :=
  workspace.queue loop.channel = [] ∧
    match loop.activity with
    | .idle coordinator => workspace.isPending coordinator.debouncer = false
    | _ => ∀ timer ∈ workspace.agenda.timers,
        timer.sink.channel ≠ loop.channel

theorem Owns.isPending_of_running {coordinator : Coordinator}
    (owns : Owns channel coordinator workspace) {timer : Timer}
    (running : timer ∈ workspace.agenda.timers)
    (here : timer.sink.channel = channel) :
    workspace.isPending coordinator.debouncer = true := by
  rw [isPending, owns.timers timer running here, Option.any_some,
    Agenda.isRunning, List.any_eq_true]
  exact ⟨timer, running, by simp⟩

theorem Attentive.not_busy {loop : MessageLoop}
    (attentive : Attentive loop workspace) (quiet : loop.IsQuiet workspace) :
    ¬ Busy loop.channel workspace := by
  obtain ⟨channel, activity⟩ := loop
  obtain ⟨empty, noTimer⟩ := quiet
  rintro (waiting | ⟨timer, running, here⟩)
  · exact waiting empty
  · cases activity with
    | idle coordinator =>
        have tends : Tends channel coordinator workspace := attentive
        have pending := tends.owns.isPending_of_running running here
        simp only [pending, Bool.true_eq_false] at noTimer
    | waiting command time next => exact noTimer timer running here
    | resuming command next => exact noTimer timer running here

/-- Whenever a loop is quiet and a document of the target language is shown,
the signatures of its text are drawn, and nothing else is. -/
theorem drawn_of_isQuiet {loop : MessageLoop} {document : Document}
    (reachable : Reachable loop workspace) (quiet : loop.IsQuiet workspace)
    (shown : workspace.editor.document = some document)
    (target : document.isTarget = true) :
    ∃ token, workspace.editor.drawn =
      [(token, Signature.ranges document.text)] := by
  rcases reachable.attentive.covered with busy | upToDate
  · exact absurd busy (reachable.attentive.not_busy quiet)
  · apply upToDate
    simp [Editor.targetText?, shown, target]

theorem ready_empty : Ready {} where
  enabled := rfl
  failing := by simp
  hooks := by simp
  blank := rfl
  unheard := by simp
  untimed := by simp

/-- The user switches to a document after an activation without one. -/
theorem drawn_of_isQuiet_switched : ∃ loop workspace document,
    Reachable loop workspace ∧ loop.IsQuiet workspace ∧
      workspace.editor.document = some document ∧
      document.isTarget = true ∧ document.text = "sig \x7b x \x7d" ∧
      ∃ token, workspace.editor.drawn =
        [(token, Signature.ranges document.text)] := by
  have activated : Reachable ⟨0, .idle _⟩ _ :=
    .activated ready_empty (.finished rfl)
  have switched := activated.passed
    (.disturb _ (.switch (some ⟨1, "ruby", "sig \x7b x \x7d", []⟩)))
  have served : Reachable _ _ := switched.served rfl
  exact ⟨_, _, _, served, ⟨rfl, rfl⟩, rfl, rfl, rfl,
    drawn_of_isQuiet served ⟨rfl, rfl⟩ rfl rfl⟩

end SignatureVeil
