import SignatureVeil.Proofs.Coordinator.Consumption

/-!
# After the order to shut down

A coordinator that is handed an order to shut down gives back everything, but
it does not refuse the messages behind the order.  It starts a timer at each
edit, and restyles at each message to hide or to show, if it then reads a
document of the target language.  So both ways to consume a channel lead to
the same calls exactly if nothing of that kind is behind the order.
-/

namespace SignatureVeil

open Interaction

/-- Whether a message is to hide or to show signatures. -/
def Message.Restyles (message : Message) : Prop :=
  message.purpose = .hide ∨ message.purpose = .reveal

theorem Message.eq_of_not_restyles {message : Message}
    (stays : ¬ message.Restyles) :
    message = .documentChanged ∨ message = .shutdown := by
  rcases message with _ | _ | (_ | _) | _ | _ <;>
    simp_all [Message.Restyles, Message.purpose]

/-- Whether an exchange starts a timer. -/
def Exchange.startsTimer : Exchange → Bool
  | ⟨.startTimer _ _, _⟩ => true
  | _ => false

/-- Whether an editor records nothing of a request. -/
def Request.IsUntraced : Request → Prop
  | .document | .configuration _ | .startTimer _ _ | .cancelTimer _
  | .log _ => True
  | _ => False

/-- Whether a request serves to restart a timer. -/
def Request.IsTiming : Request → Prop
  | .startTimer _ _ | .cancelTimer _ | .log _ => True
  | _ => False

/-- No document of the target language is read. -/
def Untargeted (exchanges : List Exchange) : Prop :=
  ∀ exchange ∈ exchanges, ∀ shown, exchange.shown? = some shown →
    shown.filter Document.isTarget = none

/-- Whether a coordinator has neither a style nor listeners. -/
structure Coordinator.Dismissed (coordinator : Coordinator) : Prop where
  style : coordinator.visibility.style = none
  listeners : coordinator.listeners = []

theorem Coordinator.dismissed_deactivated (coordinator : Coordinator) :
    coordinator.deactivated.Dismissed :=
  ⟨rfl, rfl⟩

variable {coordinator changed : Coordinator} {message : Message}
  {exchanges earlier later : List Exchange} {outcome : Outcome}

/-! ## Kinds of exchanges -/

theorem editorCalls_eq_nil
    (untraced : ∀ exchange ∈ exchanges, exchange.request.IsUntraced) :
    editorCalls exchanges = [] := by
  refine List.filterMap_eq_nil_iff.mpr fun exchange member => ?_
  have kind := untraced exchange member
  obtain ⟨request, answer⟩ := exchange
  cases request <;> first | rfl | exact kind.elim

theorem countP_startsTimer_eq_zero
    (other : ∀ exchange ∈ exchanges, ∀ delay sink,
      exchange.request ≠ .startTimer delay sink) :
    exchanges.countP Exchange.startsTimer = 0 := by
  refine List.countP_eq_zero.mpr fun exchange member => ?_
  have kind := other exchange member
  obtain ⟨request, answer⟩ := exchange
  cases request with
  | startTimer delay sink => exact absurd rfl (kind delay sink)
  | _ => exact Bool.false_ne_true

theorem Silent.countP_startsTimer (silent : Silent exchanges) :
    exchanges.countP Exchange.startsTimer = 0 := by
  apply countP_startsTimer_eq_zero
  intro exchange member delay sink
  obtain ⟨entry, rfl⟩ := silent exchange member
  nofun

theorem Untargeted.of_append (untargeted : Untargeted (earlier ++ later)) :
    Untargeted earlier ∧ Untargeted later :=
  List.forall_mem_append.mp untargeted

theorem untargeted_of_unseen
    (unseen : ∀ exchange ∈ exchanges, exchange.shown? = none) :
    Untargeted exchanges := by
  intro exchange member shown seen
  rw [unseen exchange member] at seen
  contradiction

theorem Untargeted.lastTarget?_eq_none (untargeted : Untargeted exchanges) :
    lastTarget? exchanges = none := by
  rw [lastTarget?, targetRead?]
  cases read : exchanges.reverse.findSome? Exchange.shown? with
  | none => rfl
  | some shown =>
      obtain ⟨exchange, member, seen⟩ := List.exists_of_findSome?_eq_some read
      exact untargeted exchange (List.mem_reverse.mp member) shown seen

/-! ## Edits and orders to shut down -/

/-- At an edit a timer is started, and nothing but the timer changes. -/
theorem timing_of_handle
    (handled : (coordinator.handle .documentChanged).Yields exchanges
      (changed, outcome)) :
    (∀ exchange ∈ exchanges, exchange.request.IsTiming) ∧
      exchanges.countP Exchange.startsTimer = 1 ∧
      changed.visibility = coordinator.visibility ∧
      changed.listeners = coordinator.listeners := by
  obtain ⟨lead, _, _, logged, acting, rfl⟩ := handled.bind_inv
  obtain ⟨_, _, _, scheduled, ended, rfl⟩ := acting.bind_inv
  obtain ⟨rfl, ⟨⟩⟩ := ended.done_inv
  obtain ⟨_, debouncer, _, waiting, ended, rfl⟩ := scheduled.bind_inv
  obtain ⟨rfl, rfl⟩ := ended.done_inv
  refine ⟨?_, ?_, rfl, rfl⟩
  · refine List.forall_mem_append.mpr ⟨fun exchange member => ?_, ?_⟩
    · obtain ⟨entry, rfl⟩ := silent_of_log logged exchange member
      trivial
    · rw [List.append_nil]
      exact (scheduled.of_asks (asks_scheduleHide (fun _ => trivial)
        (fun _ => trivial) fun _ _ => trivial)).1
  obtain ⟨cancelling, _, _, cancelled, noting, rfl⟩ := waiting.bind_inv
  obtain ⟨notes, _, _, noted, starting, rfl⟩ := noting.bind_inv
  obtain ⟨timer, _, rfl, ended⟩ := starting.ask_inv
  obtain ⟨rfl, rfl⟩ := ended.done_inv
  have cancels : coordinator.debouncer.cancel.Asks
      (fun request => ∃ timer, request = .cancelTimer timer) fun _ => True :=
    asks_cancel fun _ _ => ⟨_, rfl⟩
  have cancelsOnly : cancelling.countP Exchange.startsTimer = 0 := by
    apply countP_startsTimer_eq_zero
    intro exchange member delay sink
    obtain ⟨timer, same⟩ := (cancelled.of_asks cancels).1 exchange member
    simp [same]
  simp [(silent_of_log logged).countP_startsTimer, cancelsOnly,
    (silent_of_log noted).countP_startsTimer, Exchange.startsTimer]

theorem returns_of_shutdown
    (handled : (coordinator.handle .shutdown).Yields exchanges
      (changed, outcome)) :
    ∀ exchange ∈ exchanges, exchange.request.IsReturn := by
  obtain ⟨_, _, _, logged, acting, rfl⟩ := handled.bind_inv
  obtain ⟨_, _, _, deactivated, ended, rfl⟩ := acting.bind_inv
  obtain ⟨rfl, -⟩ := ended.done_inv
  refine List.forall_mem_append.mpr ⟨fun exchange member => ?_, ?_⟩
  · obtain ⟨entry, rfl⟩ := silent_of_log logged exchange member
    trivial
  · rw [List.append_nil]
    exact (returns_of_deactivate deactivated).1

/-- A coordinator that is dismissed already gives nothing back but its
timer. -/
theorem untraced_of_shutdown (dismissed : coordinator.Dismissed)
    (handled : (coordinator.handle .shutdown).Yields exchanges
      (changed, outcome)) :
    ∀ exchange ∈ exchanges, exchange.request.IsUntraced := by
  obtain ⟨channel, ⟨style⟩, debouncer, listeners⟩ := coordinator
  obtain ⟨rfl, rfl⟩ : style = none ∧ listeners = [] :=
    ⟨dismissed.style, dismissed.listeners⟩
  have cancelling : debouncer.cancel.Asks Request.IsUntraced fun _ => True :=
    asks_cancel fun _ _ => trivial
  have deactivating : Interaction.Asks Request.IsUntraced (fun _ => True)
      (Coordinator.deactivate ⟨channel, ⟨none⟩, debouncer, []⟩) :=
    cancelling.bind fun _ _ => trivial
  have asks : Interaction.Asks Request.IsUntraced (fun _ => True)
      (Coordinator.handle ⟨channel, ⟨none⟩, debouncer, []⟩ .shutdown) :=
    ⟨trivial, fun _ => deactivating.bind fun _ _ => trivial⟩
  exact (handled.of_asks asks).1

/-- What is seen in edits and orders to shut down. -/
theorem unseen_of_handle (stays : ¬ message.Restyles)
    (handled : (coordinator.handle message).Yields exchanges
      (changed, outcome)) :
    ∀ exchange ∈ exchanges, exchange.shown? = none := by
  rcases Message.eq_of_not_restyles stays with rfl | rfl
  · intro exchange member
    have kind := (timing_of_handle handled).1 exchange member
    obtain ⟨request, answer⟩ := exchange
    cases request <;> first | rfl | exact kind.elim
  · intro exchange member
    have kind := returns_of_shutdown handled exchange member
    obtain ⟨request, answer⟩ := exchange
    cases request <;> first | rfl | exact kind.elim

/-! ## One message behind the order -/

theorem countP_startsTimer_of_handle
    (handled : (coordinator.handle message).Yields exchanges
      (changed, outcome)) :
    exchanges.countP Exchange.startsTimer =
      if message = .documentChanged then 1 else 0 := by
  split
  case isTrue edit =>
    subst edit
    exact (timing_of_handle handled).2.1
  case isFalse noEdit =>
    apply countP_startsTimer_eq_zero
    intro exchange member delay sink same
    by_cases ends : message = .shutdown
    · subst ends
      have kind := returns_of_shutdown handled exchange member
      rw [same] at kind
      exact kind
    · have kind := (handled.of_asks (asks_handle coordinator noEdit ends)).1
        exchange member
      rw [same] at kind
      exact kind

theorem turns_of_handled
    (handled : (coordinator.handle message).Yields exchanges
      (changed, outcome)) :
    Episode.Turns coordinator.visibility.style changed.visibility.style
      ⟨message.purpose, exchanges⟩ := by
  have turns := turns_of_handle handled (List.forall_mem_nil _)
  rwa [List.append_nil] at turns

/-- A message to hide or to show makes no call without a document of the
target language. -/
theorem editorCalls_of_untargeted (edit : message ≠ .documentChanged)
    (ends : message ≠ .shutdown) (untargeted : Untargeted exchanges)
    (handled : (coordinator.handle message).Yields exchanges
      (changed, outcome)) : editorCalls exchanges = [] := by
  obtain ⟨visual, -⟩ := handled.of_asks (asks_handle coordinator edit ends)
  obtain ⟨last, follows, purposed⟩ := (obeys_handle message {}).yields handled
  have orderly : Episode.Orderly ⟨message.purpose, exchanges⟩ :=
    Episode.orderly_of_follows follows purposed
  refine editorCalls_eq_nil fun exchange member => ?_
  have noEffect (effect : exchange.request.IsEffect) : False := by
    obtain ⟨before, after, rfl⟩ := List.append_of_mem member
    rcases orderly.target before exchange after rfl effect with
      ⟨document, read⟩ | ⟨finish, -⟩
    · rw [untargeted.of_append.1.lastTarget?_eq_none] at read
      contradiction
    · exact ends (Message.purpose_eq_finish.mp finish)
  have kind := visual exchange member
  obtain ⟨request, answer⟩ := exchange
  cases request <;> trivial

/-- Without a document of the target language, a coordinator that is dismissed
makes no call and stays dismissed. -/
theorem editorCalls_of_handle (dismissed : coordinator.Dismissed)
    (untargeted : Untargeted exchanges)
    (handled : (coordinator.handle message).Yields exchanges
      (changed, outcome)) :
    editorCalls exchanges = [] ∧ changed.Dismissed := by
  by_cases edit : message = .documentChanged
  · subst edit
    obtain ⟨timing, -, style, listeners⟩ := timing_of_handle handled
    refine ⟨editorCalls_eq_nil fun exchange member => ?_, ?_, ?_⟩
    · have kind := timing exchange member
      obtain ⟨request, answer⟩ := exchange
      cases request <;> trivial
    · rw [style, dismissed.style]
    · rw [listeners, dismissed.listeners]
  by_cases ends : message = .shutdown
  · subst ends
    obtain ⟨rfl, -⟩ := exists_served_of_shutdown handled
    exact ⟨editorCalls_eq_nil (untraced_of_shutdown dismissed handled),
      coordinator.dismissed_deactivated⟩
  have silent := editorCalls_of_untargeted edit ends untargeted handled
  obtain ⟨-, continues⟩ := handled.of_asks (asks_handle coordinator edit ends)
  refine ⟨silent, ?_, continues.listeners.trans dismissed.listeners⟩
  -- a new style would have left a trace
  have restyles := (turns_of_handled handled).restyles
    (mt Message.purpose_eq_finish.mp ends)
  generalize Episode.restyling? _ = restyling at restyles
  cases restyles with
  | not _ same => exact same.trans dismissed.style
  | anew _ created _ =>
      rw [silent] at created
      contradiction

/-! ## All messages behind the order -/

/-- What a coordinator does at messages that it is handed after it has been
deactivated. -/
structure Aftermath (behind : List Message) (episodes : List Episode) :
    Prop where
  /-- Every edit starts a timer, and nothing else does. -/
  timers : (episodes.flatMap Episode.exchanges).countP Exchange.startsTimer =
    behind.count .documentChanged
  /-- Edits and orders to shut down make no calls, and without a document of
  the target language no message does. -/
  silent : (∀ message ∈ behind, ¬ message.Restyles) ∨
      Untargeted (episodes.flatMap Episode.exchanges) →
    callsOf episodes = []
  /-- If nothing but a document of the target language is read, any other
  message makes a style. -/
  styles : (∃ message ∈ behind, message.Restyles) →
    (∀ exchange ∈ episodes.flatMap Episode.exchanges, ∀ shown,
      exchange.shown? = some shown →
        ∃ document, shown.filter Document.isTarget = some document) →
    ∃ token style, .createStyle token style ∈ callsOf episodes

section

variable {behind : List Message} {episodes : List Episode}

theorem Coordinator.Handles.countP_startsTimer
    (handles : coordinator.Handles behind episodes changed) :
    (episodes.flatMap Episode.exchanges).countP Exchange.startsTimer =
      behind.count .documentChanged := by
  induction handles with
  | nil => rfl
  | cons handled _ ih =>
      rw [List.flatMap_cons, List.countP_append, ih,
        countP_startsTimer_of_handle handled, List.count_cons, Nat.add_comm]
      simp

theorem Coordinator.Handles.unseen
    (handles : coordinator.Handles behind episodes changed)
    (stay : ∀ message ∈ behind, ¬ message.Restyles) :
    ∀ exchange ∈ episodes.flatMap Episode.exchanges,
      exchange.shown? = none := by
  induction handles with
  | nil => exact List.forall_mem_nil _
  | cons handled _ ih =>
      obtain ⟨stays, stay⟩ := List.forall_mem_cons.mp stay
      exact List.forall_mem_append.mpr
        ⟨unseen_of_handle stays handled, ih stay⟩

theorem Coordinator.Handles.callsOf_eq_nil
    (dismissed : coordinator.Dismissed)
    (handles : coordinator.Handles behind episodes changed)
    (untargeted : Untargeted (episodes.flatMap Episode.exchanges)) :
    callsOf episodes = [] := by
  induction handles with
  | nil => rfl
  | cons handled _ ih =>
      obtain ⟨first, rest⟩ := untargeted.of_append
      obtain ⟨silent, dismissed⟩ :=
        editorCalls_of_handle dismissed first handled
      rw [callsOf_cons, silent, ih dismissed rest, List.append_nil]

theorem Coordinator.Handles.exists_redraws
    (handles : coordinator.Handles behind episodes changed)
    (restyles : ∃ message ∈ behind, message.Restyles) :
    ∃ episode ∈ episodes, Redraws episode.exchanges episode.restyling? := by
  induction handles with
  | nil => simp at restyles
  | cons handled _ ih =>
      obtain ⟨found, member, restyles⟩ := restyles
      rcases List.mem_cons.mp member with rfl | later
      · exact ⟨_, List.mem_cons_self,
          (turns_of_handled handled).redraws restyles⟩
      · obtain ⟨episode, member, redraws⟩ := ih ⟨found, later, restyles⟩
        exact ⟨episode, List.mem_cons_of_mem _ member, redraws⟩

theorem Coordinator.Handles.aftermath (dismissed : coordinator.Dismissed)
    (handles : coordinator.Handles behind episodes changed) :
    Aftermath behind episodes where
  timers := handles.countP_startsTimer
  silent := by
    rintro (stay | untargeted)
    · exact handles.callsOf_eq_nil dismissed
        (untargeted_of_unseen (handles.unseen stay))
    · exact handles.callsOf_eq_nil dismissed untargeted
  styles restyles targeted := by
    obtain ⟨episode, member, lead, shown, rest, same, read, creates⟩ :=
      handles.exists_redraws restyles
    have seen : (⟨.document, shown⟩ : Exchange) ∈
        episodes.flatMap Episode.exchanges := by
      refine List.mem_flatMap.mpr ⟨episode, member, ?_⟩
      simp [same]
    obtain ⟨document, target⟩ := targeted _ seen shown rfl
    obtain ⟨found, restyles, -⟩ :=
      Option.map_eq_some_iff.mp (read.trans target)
    obtain ⟨token, created⟩ := creates found restyles
    refine ⟨token, found.settings.style, ?_⟩
    rw [callsOf, editorCalls, List.filterMap_flatMap]
    refine List.mem_flatMap.mpr ⟨episode, member, ?_⟩
    change _ ∈ editorCalls episode.exchanges
    rw [same, editorCalls_append, editorCalls_cons]
    exact List.mem_append_right _ (List.mem_append_right _ created)

/-- What a coordinator is handed falls into what a message loop could have
served and the aftermath of the order to shut down. -/
theorem Coordinator.Handles.exists_aftermath {messages : List Message}
    (handles : coordinator.Handles messages episodes changed) :
    ∃ before left after served holder,
      episodes = before ++ after ∧
      coordinator.Handles (untilShutdown messages) before left ∧
      (.shutdown ∈ messages → ∃ former : Coordinator,
        left = former.deactivated) ∧
      left.Handles (behindShutdown messages) after changed ∧
      Aftermath (behindShutdown messages) after ∧
      coordinator.Serves messages served holder ∧
      dialogueOf served = dialogueOf before ∧
      callsOf episodes = callsOf served ++ callsOf after := by
  rw [← untilShutdown_append_behindShutdown messages] at handles
  obtain ⟨before, left, after, rfl, first, second⟩ := handles.append_inv
  obtain ⟨⟨served, holder, serves, same⟩, dismisses⟩ := first.exists_serves
  have aftermath : Aftermath (behindShutdown messages) after := by
    by_cases order : .shutdown ∈ messages
    · obtain ⟨former, rfl⟩ := dismisses order
      exact second.aftermath former.dismissed_deactivated
    · -- nothing is behind an order that is never given
      rw [behindShutdown_of_notMem order] at second ⊢
      cases second
      exact ⟨rfl, fun _ => rfl, by simp⟩
  refine ⟨before, left, after, served, holder, rfl, first, dismisses,
    second, aftermath, serves, same, ?_⟩
  rw [← editorCalls_dialogueOf served, same, editorCalls_dialogueOf,
    callsOf, List.flatMap_append, editorCalls_append]
  rfl

end

/-- A message loop that has been ordered to shut down does nothing about any
other message.  Whatever it is answered, its dialogue with its surroundings is
one that a coordinator can have that is handed the messages up to the order,
and the other way around.  Handed the messages behind the order, the
coordinator, which has given back everything, goes on as described, and the
calls that it then makes are all that distinguishes the two ways. -/
theorem Coordinator.consumed_both_ways (coordinator : Coordinator)
    (messages : List Message) :
    (.shutdown ∈ messages → ∀ later served holder,
      coordinator.Serves (messages ++ later) served holder →
        holder = none ∧ coordinator.Serves messages served none) ∧
    (∀ dialogue,
      (∃ served holder, coordinator.Serves messages served holder ∧
        dialogueOf served = dialogue) ↔
      ∃ handled left, coordinator.Handles (untilShutdown messages) handled
        left ∧ dialogueOf handled = dialogue) ∧
    ∀ handled changed, coordinator.Handles messages handled changed →
      ∃ before left after served holder,
        handled = before ++ after ∧
        coordinator.Handles (untilShutdown messages) before left ∧
        (.shutdown ∈ messages → ∃ former : Coordinator,
          left = former.deactivated) ∧
        left.Handles (behindShutdown messages) after changed ∧
        Aftermath (behindShutdown messages) after ∧
        coordinator.Serves messages served holder ∧
        dialogueOf served = dialogueOf before ∧
        callsOf handled = callsOf served ++ callsOf after := by
  refine ⟨fun order later served holder serves => serves.of_append order,
    fun dialogue => ⟨?_, ?_⟩, fun _ _ handles => handles.exists_aftermath⟩
  · rintro ⟨served, holder, serves, rfl⟩
    exact serves.exists_handles
  · rintro ⟨handled, left, handles, rfl⟩
    exact handles.exists_serves.1

end SignatureVeil
