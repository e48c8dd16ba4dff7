import SignatureVeil.Proofs.Coordinator.Aftermath
import SignatureVeil.Session.Step

/-!
# Consuming a channel in a session

A message loop takes the messages of its channel one after the other and
serves them, with waits in between, until it ends.  What it has taken and what
the editor has recorded then fit together as when messages are served one
after the other.  In the same way to drain a channel is to hand its messages
to the coordinator.
-/

namespace SignatureVeil

open Workspace Interaction

/-! ## Message loops -/

/-- The message that a loop takes next, if it takes one. -/
def MessageLoop.takesNext (loop : MessageLoop) (workspace : Workspace) :
    List Message :=
  match loop.activity with
  | .idle _ => (workspace.queue loop.channel).head?.toList
  | _ => []

/-- What a message loop and its surroundings have come to when some messages
have been taken, where nobody else makes calls.  When the loop has ended there
is none. -/
inductive MessageLoop.Reaches (first : MessageLoop) (start : Workspace) :
    List Message → Option MessageLoop → Workspace → Prop where
  | begun : Reaches first start [] (some first) start
  | passed {taken : List Message} {loop : Option MessageLoop}
      {workspace later : Workspace}
      (reaches : Reaches first start taken loop workspace)
      (silent : later.editor.calls = workspace.editor.calls) :
      Reaches first start taken loop later
  | resumed {taken : List Message} {loop : MessageLoop}
      {workspace : Workspace}
      (reaches : Reaches first start taken (some loop) workspace) :
      Reaches first start taken (some loop.resume) workspace
  | ran {taken : List Message} {loop : MessageLoop}
      {next : Option MessageLoop} {workspace later : Workspace}
      (reaches : Reaches first start taken (some loop) workspace)
      (ran : loop.run 1 workspace = (next, later)) :
      Reaches first start (taken ++ loop.takesNext workspace) next later

variable {coordinator changed : Coordinator} {start workspace : Workspace}
  {taken messages : List Message} {message : Message}

theorem Coordinator.Serves.concat {served : List Episode}
    {exchanges : List Exchange} {holder : Option Coordinator}
    (serves : coordinator.Serves messages served (some changed))
    (serving : (changed.serve message).Yields exchanges holder) :
    coordinator.Serves (messages ++ [message])
      (served ++ [⟨message.purpose, exchanges⟩]) holder := by
  generalize same : some changed = goesOn at serves
  induction serves with
  | nil coordinator =>
      obtain rfl := Option.some.inj same
      cases holder with
      | none => exact .ended serving []
      | some middle => exact .cons serving (.nil middle)
  | ended => contradiction
  | cons first _ ih => exact .cons first (ih same)

/-- The messages that have been taken are served, and what is left to do about
the last one of them is the rest of an interaction. -/
inductive Underway (coordinator : Coordinator) (start : Workspace)
    (rest : Interaction (Option Coordinator)) (workspace : Workspace) :
    List Message → Prop where
  | intro {earlier : List Message} {message : Message}
      {served : List Episode} {changed : Coordinator} {lead : List Exchange}
      (serves : coordinator.Serves earlier served (some changed))
      (continues : ∀ exchanges holder, rest.Yields exchanges holder →
        (changed.serve message).Yields (lead ++ exchanges) holder)
      (recorded : workspace.editor.calls = start.editor.calls ++
        (callsOf served ++ editorCalls lead)) :
      Underway coordinator start rest workspace (earlier ++ [message])

/-- The messages that have been taken are served. -/
def Served (coordinator : Coordinator) (start : Workspace)
    (taken : List Message) (holder : Option Coordinator)
    (workspace : Workspace) : Prop :=
  ∃ served, coordinator.Serves taken served holder ∧
    workspace.editor.calls = start.editor.calls ++ callsOf served

/-- How far a message loop has come with the messages that it has taken. -/
def StandsWith (coordinator : Coordinator) (start : Workspace)
    (taken : List Message) (workspace : Workspace) :
    Option MessageLoop → Prop
  | none => Served coordinator start taken none workspace
  | some ⟨_, .idle changed⟩ =>
      Served coordinator start taken (some changed) workspace
  | some ⟨_, .waiting _ _ next⟩ | some ⟨_, .resuming _ next⟩ => ∀ outcome,
      Underway coordinator start (next outcome) workspace taken

section

variable {rest : Interaction (Option Coordinator)} {later : Workspace}

theorem Underway.perform
    (underway : Underway coordinator start rest workspace taken) :
    match workspace.perform rest with
    | .finished holder last => Served coordinator start taken holder last
    | .waiting _ _ next earlier => ∀ outcome,
        Underway coordinator start (next outcome) earlier taken := by
  obtain @⟨_, message, _, changed, lead, serves, continues, recorded⟩ :=
    underway
  have records := records_perform rest workspace
  cases stands : workspace.perform rest with
  | finished holder last =>
      rw [stands] at records
      obtain ⟨exchanges, yields, added⟩ := records
      refine ⟨_, serves.concat (continues exchanges holder yields), ?_⟩
      rw [added, recorded, callsOf_concat, editorCalls_append]
      simp only [List.append_assoc]
  | waiting command time next earlier =>
      rw [stands] at records
      obtain ⟨exchanges, resumes, added⟩ := records
      intro outcome
      -- the command is recorded before it is known how it ends
      have continues' : ∀ more holder, (next outcome).Yields more holder →
          (changed.serve message).Yields
            (lead ++ exchanges ++ [⟨.execute command, outcome⟩] ++ more)
            holder := by
        intro more holder yields
        simpa only [List.append_assoc, List.cons_append, List.nil_append]
          using continues _ holder (resumes outcome more holder yields)
      refine .intro serves continues' ?_
      rw [added, recorded, editorCalls_append, editorCalls_append]
      simp only [List.append_assoc]
      rfl

theorem Underway.passed
    (underway : Underway coordinator start rest workspace taken)
    (silent : later.editor.calls = workspace.editor.calls) :
    Underway coordinator start rest later taken := by
  obtain ⟨serves, continues, recorded⟩ := underway
  exact .intro serves continues (silent.trans recorded)

theorem StandsWith.passed {loop : Option MessageLoop}
    (stands : StandsWith coordinator start taken workspace loop)
    (silent : later.editor.calls = workspace.editor.calls) :
    StandsWith coordinator start taken later loop := by
  rcases loop with _ | ⟨channel, _ | _ | _⟩
  · obtain ⟨served, serves, recorded⟩ := stands
    exact ⟨served, serves, silent.trans recorded⟩
  · obtain ⟨served, serves, recorded⟩ := stands
    exact ⟨served, serves, silent.trans recorded⟩
  · exact fun outcome => (stands outcome).passed silent
  · exact fun outcome => (stands outcome).passed silent

theorem StandsWith.resumed {loop : MessageLoop}
    (stands : StandsWith coordinator start taken workspace (some loop)) :
    StandsWith coordinator start taken workspace (some loop.resume) := by
  obtain ⟨channel, activity⟩ := loop
  cases activity <;> exact stands

/-- Where a loop can go on, it is underway with the message that it takes, or
with the one that it has taken before. -/
theorem StandsWith.exists_underway {loop : MessageLoop}
    {progress : Progress (Option Coordinator)}
    (stands : StandsWith coordinator start taken workspace (some loop))
    (advanced : loop.advance? workspace = some progress) :
    ∃ rest earlier, earlier.perform rest = progress ∧
      Underway coordinator start rest earlier
        (taken ++ loop.takesNext workspace) := by
  obtain ⟨channel, changed | _ | ⟨command, next⟩⟩ := loop
  · obtain ⟨served, serves, recorded⟩ := stands
    simp only [MessageLoop.advance?, take?, MessageLoop.takesNext]
      at advanced ⊢
    cases queued : workspace.queue channel with
    | nil => simp [queued] at advanced
    | cons message rest =>
        rw [queued] at advanced
        refine ⟨_, _, Option.some.inj advanced, ?_⟩
        have continues : ∀ exchanges holder,
            (changed.serve message).Yields exchanges holder →
              (changed.serve message).Yields ([] ++ exchanges) holder :=
          fun _ _ yields => yields
        refine .intro serves continues ?_
        rw [editorCalls, List.filterMap_nil, List.append_nil]
        exact recorded
  · simp [MessageLoop.advance?] at advanced
  · refine ⟨_, workspace, Option.some.inj advanced, ?_⟩
    rw [MessageLoop.takesNext, List.append_nil]
    exact stands _

theorem takesNext_of_advance?_eq_none {loop : MessageLoop}
    (stays : loop.advance? workspace = none) :
    loop.takesNext workspace = [] := by
  obtain ⟨channel, activity⟩ := loop
  cases activity with
  | idle changed =>
      cases queued : workspace.queue channel with
      | nil => simp [MessageLoop.takesNext, queued]
      | cons message rest =>
          simp [MessageLoop.advance?, take?, queued] at stays
  | waiting command time next => rfl
  | resuming command next => rfl

theorem StandsWith.ran {loop : MessageLoop} {next : Option MessageLoop}
    (stands : StandsWith coordinator start taken workspace (some loop))
    (ran : loop.run 1 workspace = (next, later)) :
    StandsWith coordinator start (taken ++ loop.takesNext workspace) later
      next := by
  simp only [MessageLoop.run] at ran
  cases advanced : loop.advance? workspace with
  | none =>
      rw [advanced] at ran
      obtain ⟨rfl, rfl⟩ := Prod.mk.inj ran
      rw [takesNext_of_advance?_eq_none advanced, List.append_nil]
      exact stands
  | some progress =>
      obtain ⟨rest, earlier, performed, underway⟩ :=
        stands.exists_underway advanced
      have reached := underway.perform
      rw [performed] at reached
      rw [advanced] at ran
      cases progress with
      | finished holder last =>
          cases holder <;> obtain ⟨rfl, rfl⟩ := Prod.mk.inj ran <;>
            exact reached
      | waiting command time next last =>
          obtain ⟨rfl, rfl⟩ := Prod.mk.inj ran
          exact reached

end

/-- However long it takes, what the editor has recorded once a message loop has
ended are the calls of serving the messages that it has taken. -/
theorem MessageLoop.Reaches.served {channel : ChannelId}
    {loop : Option MessageLoop}
    (reaches : Reaches ⟨channel, .idle coordinator⟩ start taken loop
      workspace) :
    StandsWith coordinator start taken workspace loop := by
  induction reaches with
  | begun => exact ⟨[], .nil coordinator, by simp [callsOf, editorCalls]⟩
  | passed _ silent ih => exact ih.passed silent
  | resumed _ ih => exact ih.resumed
  | ran _ ran ih => exact ih.ran ran

/-! ## Sessions without message loops -/

namespace Session

/-- No message loop runs after something, and no calls have been made. -/
structure Rests (before after : Session) : Prop where
  alone : after.loops = []
  calls : after.workspace.editor.calls = before.workspace.editor.calls

variable {session before after : Session}

theorem Rests.trans {last : Session} (rests : Rests before after)
    (rests' : Rests after last) : Rests before last :=
  ⟨rests'.alone, rests'.calls.trans rests.calls⟩

theorem Rests.endWaits (rests : Rests before after) :
    Rests before after.endWaits := by
  have same : after.endWaits = after := by
    have alone := rests.alone
    obtain ⟨⟩ := after
    subst alone
    rfl
  rwa [same]

theorem rests_attendUpTo (limit : Nat) (alone : session.loops = []) :
    Rests session (attendUpTo limit session) := by
  induction limit generalizing session with
  | zero => exact ⟨alone, rfl⟩
  | succ limit ih =>
      rw [attendUpTo]
      split
      · exact ⟨alone, rfl⟩
      · rename_i channel _ _
        simp only [runLoop, alone, List.find?_nil]
        have attended : Rests session
            (session.withWorkspace (session.workspace.attend channel)) :=
          ⟨alone, rfl⟩
        exact attended.trans (ih alone)

theorem rests_finishTurn (alone : session.loops = []) :
    Rests session session.finishTurn := by
  have attended : Rests session session.attend := rests_attendUpTo _ alone
  have fired : Rests session.attend
      (session.attend.withWorkspace session.attend.workspace.fireTimers) :=
    ⟨attended.alone, congrArg Editor.calls (emitAll_same _ _).editor⟩
  exact (attended.trans fired).trans (rests_attendUpTo _ fired.alone)

theorem rests_settleUpTo (limit : Nat) (alone : session.loops = []) :
    Rests session (settleUpTo limit session) := by
  induction limit generalizing session with
  | zero => exact ⟨alone, rfl⟩
  | succ limit ih =>
      have finished := rests_finishTurn alone
      rw [settleUpTo]
      split
      · exact finished.endWaits.trans (ih finished.endWaits.alone)
      · exact finished

theorem rests_elapseFrom (time target : Nat) (alone : session.loops = []) :
    Rests session (elapseFrom time target session) := by
  fun_induction elapseFrom time target session with
  | case1 => exact ⟨alone, rfl⟩
  | case2 time session next _ stop _ ih =>
      have moved : Rests session (session.setClock stop) := ⟨alone, rfl⟩
      have settled : Rests (session.setClock stop).endWaits
          (session.setClock stop).endWaits.settle :=
        rests_settleUpTo _ moved.endWaits.alone
      exact (moved.endWaits.trans settled).trans (ih settled.alone)
  | case3 => exact ⟨alone, rfl⟩

theorem rests_wait (milliseconds : Nat) (alone : session.loops = []) :
    Rests session (session.wait milliseconds) := by
  simp only [wait]
  split
  · exact (rests_finishTurn alone).endWaits
  · have settled : Rests session session.settle := rests_settleUpTo _ alone
    exact (settled.trans (rests_elapseFrom _ _ settled.alone)).endWaits

/-- An interaction that is called directly goes through exchanges whose calls
are all that the editor records meanwhile. -/
theorem exists_yields_await {α : Type} (interaction : Interaction α)
    (alone : session.loops = []) :
    (await interaction session).2.loops = [] ∧ ∃ exchanges,
      interaction.Yields exchanges (await interaction session).1 ∧
        (await interaction session).2.workspace.editor.calls =
          session.workspace.editor.calls ++ editorCalls exchanges := by
  induction interaction generalizing session with
  | done result => exact ⟨alone, [], .done result, (List.append_nil _).symm⟩
  | ask request next ih =>
      -- what is asked is recorded first, and then the session may rest
      have continues (middle : Session) (answer : request.Answer)
          (rests : middle.loops = [])
          (recorded : middle.workspace.editor.calls =
            session.workspace.editor.calls ++
              (Exchange.call? ⟨request, answer⟩).toList) :
          (await (next answer) middle).2.loops = [] ∧ ∃ exchanges,
            (Interaction.ask request next).Yields exchanges
                (await (next answer) middle).1 ∧
              (await (next answer) middle).2.workspace.editor.calls =
                session.workspace.editor.calls ++ editorCalls exchanges := by
        obtain ⟨alone', exchanges, yields, added⟩ := ih answer rests
        refine ⟨alone', _, .ask yields, ?_⟩
        rw [added, recorded, editorCalls_cons, List.append_assoc]
      have answered := continues
        (session.withWorkspace (session.workspace.answer request).2) _ alone
        (calls_answer session.workspace request)
      cases request with
      | execute command =>
          let begun :=
            session.withWorkspace (session.workspace.begin command)
          have waited : Rests begun
              (begun.wait begun.workspace.editor.latency) :=
            rests_wait _ alone
          exact continues _ _ waited.alone
            (waited.calls.trans (calls_record _ _ _))
      | _ => exact answered

theorem rests_takeMessage (alone : session.loops = []) :
    Rests session session.takeMessage.2 := by
  unfold takeMessage
  cases session.receiver with
  | none => exact ⟨alone, rfl⟩
  | some channel =>
      simp only [take?]
      cases session.workspace.queue channel <;> exact ⟨alone, rfl⟩

/-- In a session without message loops, to drain the channel is to hand the
messages to the coordinator one after the other. -/
theorem handles_drainUpTo (limit : Nat) (coordinator : Coordinator)
    (alone : session.loops = []) :
    ∃ episodes,
      coordinator.Handles
          ((drainUpTo limit coordinator session).1.map Prod.fst) episodes
          (drainUpTo limit coordinator session).2.1 ∧
        (drainUpTo limit coordinator session).2.2.workspace.editor.calls =
          session.workspace.editor.calls ++ callsOf episodes := by
  induction limit generalizing coordinator session with
  | zero =>
      exact ⟨[], .nil coordinator, by simp [drainUpTo, callsOf, editorCalls]⟩
  | succ limit ih =>
      have rests := rests_takeMessage alone
      rw [drainUpTo]
      cases taken : session.takeMessage with
      | mk message? left =>
          rw [taken] at rests
          cases message? with
          | none =>
              exact ⟨[], .nil coordinator, by
                simpa [callsOf, editorCalls] using rests.calls⟩
          | some message =>
              obtain ⟨alone', exchanges, yields, added⟩ :=
                exists_yields_await (coordinator.handle message) rests.alone
              obtain ⟨episodes, handles, recorded⟩ := ih
                (await (coordinator.handle message) left).1.1 alone'
              refine ⟨_, .cons yields handles, ?_⟩
              rw [callsOf_cons, ← List.append_assoc, ← rests.calls, ← added]
              exact recorded

/-- What a channel that is drained has led to is what a message loop could have
led to, and the aftermath of an order to shut down. -/
theorem calls_drain (coordinator : Coordinator)
    (alone : session.loops = []) :
    ∃ served holder after,
      coordinator.Serves ((drain coordinator session).1.map Prod.fst) served
          holder ∧
        Aftermath
          (behindShutdown ((drain coordinator session).1.map Prod.fst))
          after ∧
        (drain coordinator session).2.2.workspace.editor.calls =
          session.workspace.editor.calls ++
            (callsOf served ++ callsOf after) := by
  obtain ⟨_, handles, recorded⟩ := handles_drainUpTo _ coordinator alone
  obtain ⟨_, _, after, served, holder, -, -, -, -, aftermath, serves, -,
    apart⟩ := handles.exists_aftermath
  refine ⟨served, holder, after, serves, aftermath, ?_⟩
  rw [← apart]
  exact recorded

/-! ## A channel that is drained past the order to shut down -/

/-- A session after some steps. -/
def afterSteps (session : Session) (steps : List SessionStep) : Session :=
  steps.foldl (fun session step => (session.step step).2) session

/-- A session that shows a signature.  In the channel of its coordinator there
is an order to shut down, and behind it another editor and an edit are
announced. -/
def shutDownQueued : Session :=
  afterSteps {} [.editor (.focus (some ⟨1, "ruby", "sig \x7b void \x7d", []⟩)),
    .activate, .post .shutdown, .post .activeEditorChanged,
    .post .documentChanged]

/-- The message loop ends with the order and gives back the style and the
listeners.  Whoever drains the channel goes on: another style is made and drawn
with, and a timer is started. -/
theorem calls_behind_shutdown :
    (shutDownQueued.step .run).1.running = false ∧
      (shutDownQueued.step .run).1.calls =
        [.disposeStyle 1, .unlisten 1, .unlisten 2, .unlisten 3,
          .unlisten 4] ∧
      (shutDownQueued.step .drain).1.calls =
        (shutDownQueued.step .run).1.calls ++
          [.createStyle 2 Settings.default.style,
            .applyDecorations 2 [⟨⟨0, 0⟩, ⟨0, 12⟩⟩]] ∧
      (shutDownQueued.step .drain).1.pending = some true := by
  decide +kernel

end Session

end SignatureVeil
