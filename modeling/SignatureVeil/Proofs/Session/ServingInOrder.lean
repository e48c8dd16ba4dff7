import SignatureVeil.Proofs.Coordinator.Turns
import SignatureVeil.Proofs.Session.Consuming
import SignatureVeil.Proofs.Session.QuietPeriod

/-!
# Serving messages in the order in which they are posted

Whatever goes on around a message loop, it hands to its coordinator exactly
the messages that are posted ahead of the first order to shut down, each of
them once and in the order in which they are posted.  That order is the only
thing that ends the loop.  As long as it goes on, nothing but time is needed
for it to take all the messages that wait.
-/

namespace SignatureVeil

open Workspace Interaction

/-! ## The course of a message loop -/

namespace MessageLoop

/-- The sinks that hooks post to when a loop is run for one message. -/
def sinksNext (loop : MessageLoop) (workspace : Workspace) : List Sink :=
  match loop.activity with
  | .idle holder =>
      match workspace.take? loop.channel with
      | some (message, left) => sinksOfInteraction (holder.serve message) left
      | none => []
  | .waiting _ _ _ => []
  | .resuming command next =>
      sinksOfInteraction
        (next (workspace.editor.outcomeOf (.execute command))) workspace

/-- What a message loop and its surroundings come to when messages are posted
to some sinks, and the loop takes some messages.  It is run for one message
each time, and it goes on after a command only when the time has come.  When
the loop has ended there is none. -/
inductive Passage (moves : List Sink → Workspace → Workspace → Prop)
    (first : MessageLoop) (start : Workspace) :
    List Sink → List Message → Option MessageLoop → Workspace → Prop where
  | begun : Passage moves first start [] [] (some first) start
  | moved {posted sinks : List Sink} {taken : List Message}
      {loop : Option MessageLoop} {workspace later : Workspace}
      (passage : Passage moves first start posted taken loop workspace)
      (moved : moves sinks workspace later) :
      Passage moves first start (posted ++ sinks) taken loop later
  | resumed {posted : List Sink} {taken : List Message} {loop : MessageLoop}
      {workspace : Workspace}
      (passage : Passage moves first start posted taken (some loop) workspace)
      (isOver : loop.isOver workspace.agenda.now = true) :
      Passage moves first start posted taken (some loop.resume) workspace
  | ran {posted : List Sink} {taken : List Message} {loop : MessageLoop}
      {workspace : Workspace}
      (passage : Passage moves first start posted taken (some loop)
        workspace) :
      Passage moves first start (posted ++ loop.sinksNext workspace)
        (taken ++ loop.takesNext workspace) (loop.run 1 workspace).1
        (loop.run 1 workspace).2

/-- What becomes of a loop, and of its surroundings, when it has gone on as
far as it does without waiting. -/
def after (channel : ChannelId) :
    Progress (Option Coordinator) → Option MessageLoop × Workspace
  | .finished none last => (none, last.closeChannel channel)
  | .finished (some holder) last => (some ⟨channel, .idle holder⟩, last)
  | .waiting command time next earlier =>
      (some ⟨channel, .waiting command time next⟩, earlier)

variable {moves : List Sink → Workspace → Workspace → Prop}
  {first loop : MessageLoop} {start workspace : Workspace}
  {posted : List Sink} {taken : List Message}

theorem run_one (loop : MessageLoop) (workspace : Workspace) :
    loop.run 1 workspace =
      ((loop.advance? workspace).map (after loop.channel)).getD
        (some loop, workspace) := by
  simp only [run]
  cases loop.advance? workspace with
  | none => rfl
  | some progress =>
      cases progress with
      | finished result last => cases result <;> rfl
      | waiting command time next earlier => rfl

/-- A loop that is run for some messages goes on as if it were run for one
after the other. -/
theorem run_succ (limit : Nat) (loop : MessageLoop) (workspace : Workspace) :
    loop.run (limit + 1) workspace = loop.run 1 workspace ∨
      ∃ next later, loop.run 1 workspace = (some next, later) ∧
        loop.run (limit + 1) workspace = next.run limit later := by
  rw [run_one, run]
  cases loop.advance? workspace with
  | none => exact .inl rfl
  | some progress =>
      cases progress with
      | finished result last =>
          cases result with
          | none => exact .inl rfl
          | some holder => exact .inr ⟨_, _, rfl, rfl⟩
      | waiting command time next earlier => exact .inl rfl

theorem Passage.serve
    (passage : Passage moves first start posted taken (some loop) workspace)
    (goesOn : (loop.run 1 workspace).1.isSome = true) :
    Passage moves first start (posted ++ loop.sinksNext workspace)
      (taken ++ loop.takesNext workspace)
      (some ((loop.run 1 workspace).1.get goesOn))
      (loop.run 1 workspace).2 := by
  rw [Option.some_get]
  exact passage.ran

theorem Passage.finish
    (passage : Passage moves first start posted taken (some loop) workspace)
    (ends : (loop.run 1 workspace).1.isNone = true) :
    Passage moves first start (posted ++ loop.sinksNext workspace)
      (taken ++ loop.takesNext workspace) none (loop.run 1 workspace).2 := by
  rw [← Option.isNone_iff_eq_none.mp ends]
  exact passage.ran

/-- A loop may be run for any number of messages at a time. -/
theorem Passage.run
    (passage : Passage moves first start posted taken (some loop) workspace)
    (limit : Nat) :
    ∃ posted' taken', Passage moves first start posted' taken'
      (loop.run limit workspace).1 (loop.run limit workspace).2 := by
  induction limit generalizing loop workspace posted taken with
  | zero => exact ⟨posted, taken, passage⟩
  | succ limit ih =>
      rcases run_succ limit loop workspace with once | ⟨next, later, ran, same⟩
      · rw [once]
        exact ⟨_, _, passage.ran⟩
      · have passage' := passage.ran
        rw [ran] at passage'
        rw [same]
        exact ih passage'

theorem Passage.trans {posted' : List Sink} {taken' : List Message}
    {next : Option MessageLoop} {later : Workspace}
    (passage : Passage moves first start posted taken (some loop) workspace)
    (passage' : Passage moves loop workspace posted' taken' next later) :
    Passage moves first start (posted ++ posted') (taken ++ taken') next
      later := by
  induction passage' with
  | begun => simpa only [List.append_nil] using passage
  | moved _ moved ih => simpa only [List.append_assoc] using ih.moved moved
  | resumed _ isOver ih => exact ih.resumed isOver
  | ran _ ih => simpa only [List.append_assoc] using ih.ran

theorem Passage.mono {moves' : List Sink → Workspace → Workspace → Prop}
    {next : Option MessageLoop}
    (passage : Passage moves first start posted taken next workspace)
    (weaker : ∀ {sinks before after}, moves sinks before after →
      moves' sinks before after) :
    Passage moves' first start posted taken next workspace := by
  induction passage with
  | begun => exact .begun
  | moved _ moved ih => exact ih.moved (weaker moved)
  | resumed _ isOver ih => exact ih.resumed isOver
  | ran _ ih => exact ih.ran

/-- What a loop does when it is run for one message, what it takes then, and
which sinks hooks post to meanwhile: it does nothing, or it serves a message,
or it goes on after a command. -/
inductive RunsOnce : MessageLoop → Workspace → List Sink → List Message →
    Option MessageLoop × Workspace → Prop where
  | stays {loop : MessageLoop} {workspace : Workspace} :
      RunsOnce loop workspace [] [] (some loop, workspace)
  | took {channel : ChannelId} {holder : Coordinator}
      {workspace left : Workspace} {message : Message}
      (took : workspace.take? channel = some (message, left)) :
      RunsOnce ⟨channel, .idle holder⟩ workspace
        (sinksOfInteraction (holder.serve message) left) [message]
        (after channel (left.perform (holder.serve message)))
  | continued {channel : ChannelId} {workspace : Workspace}
      {command : EditorCommand}
      {next : Outcome → Interaction (Option Coordinator)} :
      RunsOnce ⟨channel, .resuming command next⟩ workspace
        (sinksOfInteraction
          (next (workspace.editor.outcomeOf (.execute command))) workspace) []
        (after channel (workspace.perform
          (next (workspace.editor.outcomeOf (.execute command)))))

theorem runsOnce (loop : MessageLoop) (workspace : Workspace) :
    loop.RunsOnce workspace (loop.sinksNext workspace)
      (loop.takesNext workspace) (loop.run 1 workspace) := by
  obtain ⟨channel, activity⟩ := loop
  cases activity with
  | idle holder =>
      cases queued : workspace.queue channel with
      | nil =>
          simp only [sinksNext, takesNext, run, advance?, take?, queued]
          exact .stays
      | cons message rest =>
          simp only [sinksNext, takesNext, run_one, advance?, take?, queued]
          exact .took (by rw [take?, queued])
  | waiting command time next => exact .stays
  | resuming command next =>
      rw [run_one]
      exact .continued

/-- A loop serves the message that waits longest. -/
theorem run_one_of_take? {channel : ChannelId} (holder : Coordinator)
    {message : Message} {left : Workspace}
    (took : workspace.take? channel = some (message, left)) :
    takesNext ⟨channel, .idle holder⟩ workspace = [message] ∧
      run 1 ⟨channel, .idle holder⟩ workspace =
        after channel (left.perform (holder.serve message)) := by
  unfold take? at took
  split at took
  · contradiction
  · rename_i queued
    obtain ⟨rfl, rfl⟩ := Prod.mk.inj (Option.some.inj took)
    simp only [takesNext, run_one, advance?, take?, queued]
    exact ⟨rfl, rfl⟩

end MessageLoop

/-! ## Where a message loop stands -/

/-- What is left to do once a command has ended brings something that has been
begun to its end. -/
def Completes (command : EditorCommand)
    (next : Outcome → Interaction (Option Coordinator))
    (serving : Interaction (Option Coordinator))
    (begun workspace : Workspace) : Prop :=
  ∀ {later last result}, GoesOn workspace later →
    Carried GoesOn result last
        (next (later.editor.outcomeOf (.execute command))) later →
      Carried GoesOn result last serving begun

section

variable (channel : ChannelId) (first : Coordinator) (start : Workspace)

/-- A message has been taken after others have had their turns, and serving it
has come to a command. -/
inductive InHand (command : EditorCommand)
    (next : Outcome → Interaction (Option Coordinator))
    (workspace : Workspace) : List Message → Prop where
  | intro {turns : List Turn} {holder : Coordinator} {before left : Workspace}
      {message : Message}
      (inTurn : InTurn channel first start turns holder before)
      (took : before.take? channel = some (message, left))
      (goesOn : message ≠ .shutdown)
      (completes : Completes command next (holder.serve message) left
        workspace) :
      InHand command next workspace (turns.map Turn.message ++ [message])

/-- How far a message loop has come with the messages that it has taken. -/
inductive Stands :
    List Message → Option MessageLoop → Workspace → Prop where
  | idle {turns : List Turn} {holder : Coordinator} {workspace : Workspace}
      (inTurn : InTurn channel first start turns holder workspace) :
      Stands (turns.map Turn.message) (some ⟨channel, .idle holder⟩)
        workspace
  | waiting {taken : List Message} {command : EditorCommand} {time : Nat}
      {next : Outcome → Interaction (Option Coordinator)}
      {workspace : Workspace}
      (inHand : InHand channel first start command next workspace taken) :
      Stands taken (some ⟨channel, .waiting command time next⟩) workspace
  | resuming {taken : List Message} {command : EditorCommand}
      {next : Outcome → Interaction (Option Coordinator)}
      {workspace : Workspace}
      (inHand : InHand channel first start command next workspace taken) :
      Stands taken (some ⟨channel, .resuming command next⟩) workspace
  | ended {turns : List Turn} {holder returned : Coordinator}
      {before left last workspace : Workspace}
      (inTurn : InTurn channel first start turns holder before)
      (took : before.take? channel = some (.shutdown, left))
      (performed : left.perform holder.deactivate = .finished returned last)
      (goesOn : GoesOn (last.closeChannel channel) workspace) :
      Stands (turns.map Turn.message ++ [.shutdown]) none workspace

end

section

variable {channel : ChannelId} {first holder : Coordinator}
  {start before left workspace later last : Workspace} {turns : List Turn}
  {taken : List Message} {message : Message} {command : EditorCommand}
  {next : Outcome → Interaction (Option Coordinator)}
  {result : Option Coordinator} {sinks : List Sink}

/-- A message that is served to its end is handled, and its failure noted. -/
theorem exists_handled_of_served (goesOn : message ≠ .shutdown)
    (carried : Carried GoesOn result last (holder.serve message) left) :
    ∃ changed outcome handled, result = some changed ∧
      last = handled.noted message outcome ∧
        Carried GoesOn (changed, outcome) handled (holder.handle message)
          left := by
  rw [Coordinator.serve, if_neg goesOn] at carried
  obtain ⟨⟨changed, outcome⟩, handled, handling, noting⟩ :=
    carried.exists_of_bind
  cases outcome with
  | ok _ =>
      obtain ⟨rfl, rfl⟩ := noting.of_finished rfl
      exact ⟨changed, _, _, rfl, rfl, handling⟩
  | error failure =>
      obtain ⟨rfl, rfl⟩ := noting.of_finished rfl
      exact ⟨changed, _, _, rfl, rfl, handling⟩

/-- An order to shut down is served without waiting. -/
theorem exists_deactivated (holder : Coordinator) (left : Workspace) :
    ∃ returned last,
      left.perform holder.deactivate = .finished returned last ∧
        left.perform (holder.serve .shutdown) = .finished none last := by
  obtain ⟨returned, last, performed, -⟩ :=
    exists_finished (prompt_deactivate holder) left
  refine ⟨returned, last, performed, ?_⟩
  rw [Coordinator.serve, if_pos rfl, perform_bind, performed]
  rfl

theorem InHand.moved
    (inHand : InHand channel first start command next workspace taken)
    (moves : Moves sinks workspace later) :
    InHand channel first start command next later taken := by
  obtain ⟨inTurn, took, goesOn, completes⟩ := inHand
  exact ⟨inTurn, took, goesOn, fun goes => completes (goes.head ⟨_, moves⟩)⟩

theorem Stands.moved {loop : Option MessageLoop}
    (stands : Stands channel first start taken loop workspace)
    (moves : Moves sinks workspace later) :
    Stands channel first start taken loop later := by
  cases stands with
  | idle inTurn => exact .idle (inTurn.passed moves)
  | waiting inHand => exact .waiting (inHand.moved moves)
  | resuming inHand => exact .resuming (inHand.moved moves)
  | ended inTurn took performed goesOn =>
      exact .ended inTurn took performed (goesOn.tail ⟨_, moves⟩)

/-- A message whose serving is carried on is in hand, or has had its turn. -/
theorem stands_after {rest : Interaction (Option Coordinator)}
    (inTurn : InTurn channel first start turns holder before)
    (took : before.take? channel = some (message, left))
    (goesOn : message ≠ .shutdown)
    (completes : ∀ {result last},
      Carried GoesOn result last rest workspace →
        Carried GoesOn result last (holder.serve message) left) :
    Stands channel first start (turns.map Turn.message ++ [message])
      (MessageLoop.after channel (workspace.perform rest)).1
      (MessageLoop.after channel (workspace.perform rest)).2 := by
  cases performed : workspace.perform rest with
  | finished result last =>
      obtain ⟨changed, outcome, handled, rfl, rfl, handling⟩ :=
        exists_handled_of_served goesOn (completes (.finished performed))
      obtain ⟨exchanges, -, recorded⟩ :=
        handling.exists_yields fun goes => (GoesOn.silent goes).1
      have idle := Stands.idle
        (inTurn.handled took goesOn handling recorded)
      rwa [List.map_append] at idle
  | waiting command time next earlier =>
      exact .waiting ⟨inTurn, took, goesOn, fun goes carried =>
        completes (.waited performed goes carried)⟩

theorem Stands.ran {loop : MessageLoop}
    (stands : Stands channel first start taken (some loop) workspace) :
    Stands channel first start (taken ++ loop.takesNext workspace)
      (loop.run 1 workspace).1 (loop.run 1 workspace).2 := by
  have once := loop.runsOnce workspace
  generalize loop.sinksNext workspace = sinks,
    loop.takesNext workspace = takes, loop.run 1 workspace = result at once ⊢
  cases once with
  | stays => rwa [List.append_nil]
  | @took _ holder _ left message took =>
      cases stands with
      | idle inTurn =>
          by_cases ends : message = .shutdown
          · obtain ⟨returned, last, performed, served⟩ :=
              exists_deactivated holder left
            rw [ends, served]
            exact .ended inTurn (ends ▸ took) performed .refl
          · exact stands_after inTurn took ends fun carried => carried
  | continued =>
      cases stands with
      | resuming inHand =>
          obtain ⟨inTurn, took, goesOn, completes⟩ := inHand
          rw [List.append_nil]
          exact stands_after inTurn took goesOn fun carried =>
            completes .refl carried

theorem MessageLoop.Passage.stands {posted : List Sink}
    {loop : Option MessageLoop}
    (passage : Passage Moves ⟨channel, .idle first⟩ start posted taken loop
      workspace) : Stands channel first start taken loop workspace := by
  induction passage with
  | begun => exact .idle .begun
  | moved _ moves ih => exact ih.moved moves
  | resumed _ _ ih =>
      cases ih with
      | idle inTurn => exact .idle inTurn
      | waiting inHand => exact .resuming inHand
      | resuming inHand => exact .resuming inHand
  | ran _ ih => exact ih.ran

theorem Stands.shutdown_notMem {loop : MessageLoop}
    (stands : Stands channel first start taken (some loop) workspace) :
    .shutdown ∉ taken := by
  have inHand {command next}
      (inHand : InHand channel first start command next workspace taken) :
      .shutdown ∉ taken := by
    obtain ⟨inTurn, -, goesOn, -⟩ := inHand
    rw [List.mem_append, List.mem_singleton, not_or]
    exact ⟨inTurn.shutdown_notMem, goesOn.symm⟩
  cases stands with
  | idle inTurn => exact inTurn.shutdown_notMem
  | waiting waits => exact inHand waits
  | resuming resumes => exact inHand resumes

/-! ## What waits in the channel -/

/-- What has been taken is what arrived first, and as long as the loop goes
on the rest waits in its open channel. -/
structure KeepsOrder (channel : ChannelId) (arrived taken : List Message)
    (loop : Option MessageLoop) (workspace : Workspace) : Prop where
  taken_prefix : taken <+: arrived
  goesOn : ∀ going, loop = some going → going.channel = channel ∧
    workspace.isOpen channel = true ∧
      arrived = taken ++ workspace.queue channel

variable {arrived : List Message}

theorem KeepsOrder.moved {loop : Option MessageLoop}
    (keeps : KeepsOrder channel arrived taken loop workspace)
    (delivers : Delivers sinks workspace later) :
    KeepsOrder channel (arrived ++ messagesTo channel sinks) taken loop
      later := by
  refine ⟨keeps.taken_prefix.trans (List.prefix_append _ _), ?_⟩
  intro going same
  obtain ⟨here, isOpen, order⟩ := keeps.goesOn going same
  refine ⟨here, (delivers.isOpen channel).trans isOpen, ?_⟩
  rw [delivers.queue channel isOpen, ← List.append_assoc, ← order]

theorem keepsOrder_after {progress : Progress (Option Coordinator)}
    (delivers : Delivers sinks workspace progress.surroundings)
    (isOpen : workspace.isOpen channel = true)
    (order : arrived = taken ++ workspace.queue channel) :
    KeepsOrder channel (arrived ++ messagesTo channel sinks) taken
      (MessageLoop.after channel progress).1
      (MessageLoop.after channel progress).2 := by
  have arrives : arrived ++ messagesTo channel sinks =
      taken ++ progress.surroundings.queue channel := by
    rw [delivers.queue channel isOpen, ← List.append_assoc, ← order]
  refine ⟨arrives ▸ List.prefix_append _ _, ?_⟩
  have stillOpen := (delivers.isOpen channel).trans isOpen
  intro going same
  cases progress with
  | finished result last =>
      cases result with
      | none => cases same
      | some changed =>
          obtain rfl := Option.some.inj same
          exact ⟨rfl, stillOpen, arrives⟩
  | waiting command time next earlier =>
      obtain rfl := Option.some.inj same
      exact ⟨rfl, stillOpen, arrives⟩

theorem KeepsOrder.ran {loop : MessageLoop}
    (keeps : KeepsOrder channel arrived taken (some loop) workspace) :
    KeepsOrder channel
      (arrived ++ messagesTo channel (loop.sinksNext workspace))
      (taken ++ loop.takesNext workspace) (loop.run 1 workspace).1
      (loop.run 1 workspace).2 := by
  obtain ⟨here, isOpen, order⟩ := keeps.goesOn loop rfl
  have once := loop.runsOnce workspace
  generalize loop.sinksNext workspace = sinks,
    loop.takesNext workspace = takes, loop.run 1 workspace = result at once ⊢
  cases once with
  | stays =>
      simpa only [messagesTo, List.filter_nil, List.map_nil, List.append_nil]
        using keeps
  | @took served holder _ left message took =>
      obtain rfl : served = channel := here
      obtain ⟨leftOpen, queue⟩ := queue_of_take? isOpen took
      apply keepsOrder_after (delivers_perform _ left) leftOpen
      rw [order, queue, List.append_assoc, List.singleton_append]
  | @continued served =>
      obtain rfl : served = channel := here
      rw [List.append_nil]
      exact keepsOrder_after (delivers_perform _ workspace) isOpen order

theorem MessageLoop.Passage.keepsOrder {posted : List Sink}
    {loop : Option MessageLoop}
    (passage : Passage Moves ⟨channel, .idle first⟩ start posted taken loop
      workspace)
    (isOpen : start.isOpen channel = true) :
    KeepsOrder channel (start.queue channel ++ messagesTo channel posted)
      taken loop workspace := by
  induction passage with
  | begun =>
      refine ⟨List.nil_prefix, fun going same => ?_⟩
      obtain rfl := Option.some.inj same
      exact ⟨rfl, isOpen, List.append_nil _⟩
  | moved _ moves ih =>
      rw [messagesTo_append, ← List.append_assoc]
      exact ih.moved moves.delivers
  | @resumed _ _ loop _ _ _ ih =>
      refine ⟨ih.taken_prefix, fun going same => ?_⟩
      obtain rfl := Option.some.inj same
      obtain ⟨here, isOpen, order⟩ := ih.goesOn loop rfl
      refine ⟨?_, isOpen, order⟩
      rw [← here, MessageLoop.resume]
      split <;> rfl
  | ran _ ih =>
      rw [messagesTo_append, ← List.append_assoc]
      exact ih.ran

/-! ## Nothing but time is needed -/

namespace MessageLoop

variable {loop : MessageLoop} {posted : List Sink}

/-- A loop goes on after a command when time has passed. -/
theorem Passage.exists_resumed {time : Nat}
    (passage : Passage Elapses loop start posted taken
      (some ⟨channel, .waiting command time next⟩) workspace) :
    ∃ posted' later, Passage Elapses loop start posted' taken
      (some ⟨channel, .resuming command next⟩) later := by
  have elapsed := passage.moved (.elapsed workspace
    (Nat.le_max_left workspace.agenda.now time))
  have isOver : isOver ⟨channel, .waiting command time next⟩
      (max workspace.agenda.now time) = true :=
    decide_eq_true (Nat.le_max_right _ _)
  exact ⟨_, _, elapsed.resumed isOver⟩

theorem Passage.exists_continued
    (passage : Passage Elapses loop start posted taken
      (some ⟨channel, .resuming command next⟩) workspace) :
    ∃ posted', Passage Elapses loop start posted' taken
      (after channel (workspace.perform
        (next (workspace.editor.outcomeOf (.execute command))))).1
      (after channel (workspace.perform
        (next (workspace.editor.outcomeOf (.execute command))))).2 := by
  have ran := passage.ran
  rw [takesNext, run_one, List.append_nil] at ran
  exact ⟨_, ran⟩

/-- An interaction that a loop carries out comes to its end if time passes. -/
theorem Passage.exists_finished (rest : Interaction (Option Coordinator))
    (passage : Passage Elapses loop start posted taken
      (after channel (workspace.perform rest)).1
      (after channel (workspace.perform rest)).2) :
    ∃ posted' result last, Passage Elapses loop start posted' taken
      (after channel (.finished result last)).1
      (after channel (.finished result last)).2 := by
  induction rest generalizing workspace posted with
  | done result => exact ⟨posted, result, workspace, passage⟩
  | ask request next ih =>
      cases request with
      | execute command =>
          obtain ⟨_, later, resumed⟩ := Passage.exists_resumed passage
          obtain ⟨_, continued⟩ := resumed.exists_continued
          exact ih _ continued
      | _ => exact ih _ passage

/-- Only an order to shut down ends a loop. -/
theorem Passage.isSome_of_notMem {next : Option MessageLoop}
    (passage : Passage Moves ⟨channel, .idle first⟩ start posted taken next
      workspace)
    (order : .shutdown ∉ taken) : next.isSome = true := by
  cases passage.stands with
  | ended => exact absurd (List.mem_append_right _ (.head _)) order
  | _ => rfl

/-- A loop that has not taken an order to shut down becomes idle when what it
carries out has come to its end. -/
theorem Passage.exists_idle_of_finished {result : Option Coordinator}
    (passage : Passage Moves ⟨channel, .idle first⟩ start posted taken
      (after channel (.finished result last)).1
      (after channel (.finished result last)).2)
    (order : .shutdown ∉ taken) : ∃ holder, result = some holder := by
  cases result with
  | some holder => exact ⟨holder, rfl⟩
  | none => cases passage.isSome_of_notMem order

/-- A loop that is in the middle of a message becomes idle if time passes. -/
theorem Passage.exists_idle
    (passage : Passage Moves ⟨channel, .idle first⟩ start posted taken
      (some loop) workspace) :
    ∃ posted' holder later, Passage Elapses loop workspace posted' []
      (some ⟨channel, .idle holder⟩) later := by
  have resumes {posted' : List Sink} {command : EditorCommand}
      {next : Outcome → Interaction (Option Coordinator)} {later : Workspace}
      (resuming : Passage Elapses loop workspace posted' []
        (some ⟨channel, .resuming command next⟩) later) :
      ∃ posted' holder later, Passage Elapses loop workspace posted' []
        (some ⟨channel, .idle holder⟩) later := by
    obtain ⟨_, continued⟩ := resuming.exists_continued
    obtain ⟨posted', result, last, finished⟩ := continued.exists_finished _
    have order := passage.stands.shutdown_notMem
    rw [← List.append_nil taken] at order
    obtain ⟨holder, rfl⟩ := exists_idle_of_finished
      (passage.trans (finished.mono Elapses.moves)) order
    exact ⟨posted', holder, last, finished⟩
  cases passage.stands with
  | idle inTurn => exact ⟨[], _, workspace, .begun⟩
  | waiting inHand =>
      obtain ⟨_, _, resumed⟩ := Passage.begun.exists_resumed
      exact resumes resumed
  | resuming inHand => exact resumes .begun

/-- An idle loop takes all that waits up to an order to shut down if time
passes. -/
theorem Passage.exists_taken (isOpen : start.isOpen channel = true)
    {waiting more : List Message}
    (passage : Passage Moves ⟨channel, .idle first⟩ start posted taken
      (some ⟨channel, .idle holder⟩) workspace)
    (queued : workspace.queue channel = waiting ++ more) :
    ∃ posted' next later,
      Passage Elapses ⟨channel, .idle holder⟩ workspace posted'
          (untilShutdown waiting) next later ∧
        (.shutdown ∈ waiting → next = none) := by
  induction waiting generalizing holder workspace posted taken more with
  | nil => exact ⟨[], _, _, .begun, fun order => absurd order List.not_mem_nil⟩
  | cons message rest ih =>
      let left := workspace.setQueue channel (rest ++ more)
      have took : workspace.take? channel = some (message, left) := by
        rw [take?, queued]
        rfl
      have idle : Passage Elapses ⟨channel, .idle holder⟩ workspace [] [] _
          workspace := .begun
      obtain ⟨takes, runs⟩ := run_one_of_take? holder took
      have ran := idle.ran
      rw [takes, runs, List.nil_append] at ran
      rw [untilShutdown]
      split
      case isTrue ends =>
        obtain ⟨returned, last, -, served⟩ := exists_deactivated holder left
        rw [ends, served] at ran
        exact ⟨_, none, _, ends ▸ ran, fun _ => rfl⟩
      case isFalse ends =>
        obtain ⟨posted', result, last, finished⟩ := ran.exists_finished _
        have passage' := passage.trans (finished.mono Elapses.moves)
        have order : .shutdown ∉ taken ++ [message] := by
          rw [List.mem_append, List.mem_singleton, not_or]
          exact ⟨passage.stands.shutdown_notMem, Ne.symm ends⟩
        obtain ⟨changed, rfl⟩ := passage'.exists_idle_of_finished order
        -- what hooks have posted meanwhile is behind all that waited
        have arrives := ((passage'.keepsOrder isOpen).goesOn _ rfl).2.2
        rw [messagesTo_append, ← List.append_assoc,
          ((passage.keepsOrder isOpen).goesOn _ rfl).2.2, queued,
          List.append_assoc, List.append_assoc, List.append_assoc] at arrives
        obtain ⟨_, next, later, goesOn, ended⟩ := ih passage'
          (List.cons.inj (List.append_cancel_left arrives)).2.symm
        refine ⟨_, next, later, finished.trans goesOn, fun order => ?_⟩
        exact ended ((List.mem_cons.mp order).resolve_left (Ne.symm ends))

/-- A loop that goes on takes all that waits up to an order to shut down if
time passes. -/
theorem Passage.exists_proceeded (isOpen : start.isOpen channel = true)
    (passage : Passage Moves ⟨channel, .idle first⟩ start posted taken
      (some loop) workspace) :
    ∃ posted' next later,
      Passage Elapses loop workspace posted'
          (untilShutdown (workspace.queue channel)) next later ∧
        (.shutdown ∈ workspace.queue channel → next = none) := by
  obtain ⟨_, holder, idling, settles⟩ := passage.exists_idle
  have passage' := passage.trans (settles.mono Elapses.moves)
  have arrives := ((passage'.keepsOrder isOpen).goesOn _ rfl).2.2
  rw [messagesTo_append, ← List.append_assoc,
    ((passage.keepsOrder isOpen).goesOn _ rfl).2.2, List.append_nil,
    List.append_assoc] at arrives
  obtain ⟨_, next, later, goesOn, ended⟩ := passage'.exists_taken isOpen
    (List.append_cancel_left arrives).symm
  exact ⟨_, next, later, settles.trans goesOn, ended⟩

end MessageLoop

end

/-! ## The law -/

/-- Some turns are all that the editor has recorded, apart from some calls at
the end, and each message that failed in its turn has been noted once. -/
structure Accounts (start : Workspace) (turns : List Turn)
    (closing : List EditorCall) (workspace : Workspace) : Prop where
  calls : workspace.editor.calls =
    start.editor.calls ++ turns.flatMap Turn.calls ++ closing
  failures : failuresIn workspace.log =
    failuresIn start.log ++ turns.filterMap Turn.failure?

/-- What holds of a message loop when some messages have arrived, and when it
has taken some of them. -/
structure ServesInOrder (channel : ChannelId) (first : Coordinator)
    (start : Workspace) (arrived taken : List Message)
    (loop : Option MessageLoop) (workspace : Workspace) : Prop where
  /-- As long as the loop goes on no message is lost, repeated or put before
  another, and there has been no order to shut down. -/
  order : ∀ going, loop = some going →
    arrived = taken ++ workspace.queue channel ∧ .shutdown ∉ taken
  /-- Whenever the loop is idle, the messages that it has taken have been
  handled in turn. -/
  turns : ∀ holder, loop = some ⟨channel, .idle holder⟩ → ∃ turns,
    turns.map Turn.message = taken ∧
      InTurn channel first start turns holder workspace ∧
        Accounts start turns [] workspace
  /-- If the loop has ended, the messages ahead of the first order to shut down
  have been handled in turn, and then the coordinator was deactivated. -/
  ended : loop = none → ∃ turns behind,
    arrived = turns.map Turn.message ++ .shutdown :: behind ∧
      .shutdown ∉ turns.map Turn.message ∧
        ∃ holder before left returned last closing,
          InTurn channel first start turns holder before ∧
            before.take? channel = some (.shutdown, left) ∧
            left.perform holder.deactivate = .finished returned last ∧
            last.editor.calls = left.editor.calls ++ closing ∧
              Accounts start turns closing workspace
  /-- As long as the loop goes on, nothing but time is needed for it to take
  what waits, and to end if there is an order to shut down. -/
  proceeds : ∀ going, loop = some going → ∃ posted next later,
    MessageLoop.Passage Elapses going workspace posted
        (untilShutdown (workspace.queue channel)) next later ∧
      (.shutdown ∈ workspace.queue channel → next = none)

section

variable {channel : ChannelId} {first holder returned : Coordinator}
  {start before left last workspace : Workspace} {turns : List Turn}

theorem InTurn.accounts
    (inTurn : InTurn channel first start turns holder workspace) :
    Accounts start turns [] workspace :=
  ⟨inTurn.calls.trans (List.append_nil _).symm, inTurn.failures⟩

/-- To deactivate a coordinator adds its calls, and is no failure. -/
theorem InTurn.exists_closing
    (inTurn : InTurn channel first start turns holder before)
    (took : before.take? channel = some (.shutdown, left))
    (performed : left.perform holder.deactivate = .finished returned last)
    (goesOn : GoesOn (last.closeChannel channel) workspace) :
    ∃ closing, last.editor.calls = left.editor.calls ++ closing ∧
      Accounts start turns closing workspace := by
  have records := records_perform holder.deactivate left
  rw [performed] at records
  obtain ⟨exchanges, -, recorded⟩ := records
  have kept := perform_preserves
    (fun later => failuresIn later.log = failuresIn left.log)
    (fun same discreet => (failuresIn_answer discreet _).trans same)
    (discreet_deactivate holder) rfl
  rw [performed] at kept
  obtain ⟨editor, -, log⟩ := take?_same took
  obtain ⟨calls, logged⟩ := goesOn.silent
  refine ⟨_, recorded, ?_, ?_⟩
  · rw [calls, ← inTurn.calls, ← editor]
    exact recorded
  · rw [logged, ← inTurn.failures, ← log]
    exact kept.1

/-- A message loop hands to its coordinator exactly the messages that are
posted ahead of the first order to shut down, once each and in order, whatever
else happens and whichever requests fail.  Then it deactivates the coordinator
and ends, and it does not end in another way. -/
theorem MessageLoop.Passage.servesInOrder {posted : List Sink}
    {taken : List Message} {loop : Option MessageLoop}
    (isOpen : start.isOpen channel = true)
    (passage : Passage Moves ⟨channel, .idle first⟩ start posted taken loop
      workspace) :
    ServesInOrder channel first start
      (start.queue channel ++ messagesTo channel posted) taken loop
      workspace := by
  have keeps := passage.keepsOrder isOpen
  refine ⟨?_, ?_, ?_, ?_⟩
  · rintro going rfl
    exact ⟨(keeps.goesOn going rfl).2.2, passage.stands.shutdown_notMem⟩
  · rintro holder rfl
    cases passage.stands with
    | idle inTurn => exact ⟨_, rfl, inTurn, inTurn.accounts⟩
  · rintro rfl
    cases passage.stands with
    | ended inTurn took performed goesOn =>
        obtain ⟨behind, arrives⟩ := keeps.taken_prefix
        obtain ⟨closing, added, accounts⟩ :=
          inTurn.exists_closing took performed goesOn
        refine ⟨_, behind, ?_, inTurn.shutdown_notMem, _, _, _, _, _, closing,
          inTurn, took, performed, added, accounts⟩
        rw [← arrives, List.append_assoc, List.singleton_append]
  · rintro going rfl
    exact passage.exists_proceeded isOpen

/-- A message to fold fails, and the next one is handled all the same.  What
is posted behind the order to shut down is not. -/
theorem MessageLoop.Passage.servesInOrder_failing :
    ∃ start posted taken workspace,
      start.isOpen 0 = true ∧
      Passage Moves ⟨0, .idle { channel := 0 }⟩ start posted taken none
        workspace ∧
      messagesTo 0 posted =
        [.debounceElapsed, .shutdown, .command .showSignatures] ∧
      taken = [.activeEditorChanged, .debounceElapsed, .shutdown] ∧
      failuresIn workspace.log = [.failed .activeEditorChanged
        (Primitive.execute .unfoldAll).failure] ∧
      ServesInOrder 0 { channel := 0 } start
        (start.queue 0 ++ messagesTo 0 posted) taken none workspace := by
  let document : Document :=
    ⟨1, "ruby", "sig do\nend\nx\n", [.caret ⟨2, 0⟩]⟩
  let start : Workspace :=
    { editor :=
        { document := some document, failing := [.execute .unfoldAll] }
      channels := [{ queue := [.activeEditorChanged] }] }
  have idle : Passage Moves ⟨0, .idle { channel := 0 }⟩ start _ _ _ _ :=
    .begun
  have folding := idle.serve (by decide +kernel)
  have changed := folding.moved (.posted _ ⟨.debounceElapsed, 0⟩)
  have ordered := changed.moved (.posted _ ⟨.shutdown, 0⟩)
  have invoked := ordered.moved (.posted _ ⟨.command .showSignatures, 0⟩)
  have failed := (invoked.resumed (by decide +kernel)).serve
    (by decide +kernel)
  have hidden := failed.serve (by decide +kernel)
  have ended := hidden.finish (by decide +kernel)
  exact ⟨_, _, _, _, rfl, ended, by decide +kernel, by decide +kernel,
    by decide +kernel, ended.servesInOrder rfl⟩

end

end SignatureVeil
