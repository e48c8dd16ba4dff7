import SignatureVeil.Proofs.Coordinator.Gates
import SignatureVeil.Proofs.Coordinator.Possessions

/-!
# Two ways to consume a channel

The messages of a channel are handed to a coordinator one after the other, or
a message loop serves them.  Up to the first order to shut down both ways make
the same requests and differ in what they log only.  The loop ends there.  A
coordinator that is handed the messages behind the order handles them as well,
although it has given back everything: each edit starts a timer, and each
message to hide or to show makes a style if a document of the target language
is shown.
-/

namespace SignatureVeil

open Interaction

/-! ## Exchanges apart from the log -/

/-- Whether an exchange is a record in the log. -/
def Exchange.isRecord : Exchange → Bool
  | ⟨.log _, _⟩ => true
  | _ => false

/-- What passes between a coordinator and its surroundings apart from the
log. -/
def unlogged (exchanges : List Exchange) : List Exchange :=
  exchanges.filter fun exchange => !exchange.isRecord

theorem unlogged_append (earlier later : List Exchange) :
    unlogged (earlier ++ later) = unlogged earlier ++ unlogged later :=
  List.filter_append earlier later

theorem Silent.unlogged {exchanges : List Exchange}
    (silent : Silent exchanges) : unlogged exchanges = [] := by
  refine List.filter_eq_nil_iff.mpr fun exchange member => ?_
  obtain ⟨entry, rfl⟩ := silent exchange member
  simp [Exchange.isRecord]

/-- Records in the log leave no trace in the editor. -/
theorem editorCalls_unlogged (exchanges : List Exchange) :
    editorCalls (unlogged exchanges) = editorCalls exchanges := by
  induction exchanges with
  | nil => rfl
  | cons exchange rest ih =>
      obtain ⟨request, answer⟩ := exchange
      cases request <;>
        simp_all [unlogged, Exchange.isRecord, editorCalls_cons,
          Exchange.call?]

/-- What passes in the course of some operations apart from the log. -/
def dialogueOf (episodes : List Episode) : List Exchange :=
  unlogged (episodes.flatMap Episode.exchanges)

theorem dialogueOf_cons (first : Episode) (rest : List Episode) :
    dialogueOf (first :: rest) =
      unlogged first.exchanges ++ dialogueOf rest := by
  rw [dialogueOf, List.flatMap_cons, unlogged_append, dialogueOf]

theorem editorCalls_dialogueOf (episodes : List Episode) :
    editorCalls (dialogueOf episodes) = callsOf episodes :=
  editorCalls_unlogged _

/-! ## Both ways -/

namespace Coordinator

/-- Messages are handed to a coordinator one after the other, whatever comes
of each. -/
inductive Handles : Coordinator → List Message → List Episode →
    Coordinator → Prop where
  | nil (coordinator : Coordinator) : Handles coordinator [] [] coordinator
  | cons {first middle last : Coordinator} {message : Message}
      {rest : List Message} {exchanges : List Exchange} {outcome : Outcome}
      {episodes : List Episode}
      (handled : (first.handle message).Yields exchanges (middle, outcome))
      (handles : Handles middle rest episodes last) :
      Handles first (message :: rest)
        (⟨message.purpose, exchanges⟩ :: episodes) last

/-- A message loop serves messages one after the other until it ends.  Then
there is no coordinator any more. -/
inductive Serves : Coordinator → List Message → List Episode →
    Option Coordinator → Prop where
  | nil (coordinator : Coordinator) :
      Serves coordinator [] [] (some coordinator)
  | ended {coordinator : Coordinator} {message : Message}
      {exchanges : List Exchange}
      (served : (coordinator.serve message).Yields exchanges none)
      (behind : List Message) :
      Serves coordinator (message :: behind)
        [⟨message.purpose, exchanges⟩] none
  | cons {first middle : Coordinator} {message : Message}
      {rest : List Message} {exchanges : List Exchange}
      {episodes : List Episode} {holder : Option Coordinator}
      (served : (first.serve message).Yields exchanges (some middle))
      (serves : Serves middle rest episodes holder) :
      Serves first (message :: rest)
        (⟨message.purpose, exchanges⟩ :: episodes) holder

end Coordinator

/-- The messages up to the first order to shut down, that one included. -/
def untilShutdown : List Message → List Message
  | [] => []
  | message :: rest =>
      if message = .shutdown then [message]
      else message :: untilShutdown rest

/-- The messages behind the first order to shut down. -/
def behindShutdown : List Message → List Message
  | [] => []
  | message :: rest =>
      if message = .shutdown then rest else behindShutdown rest

theorem untilShutdown_append_behindShutdown (messages : List Message) :
    untilShutdown messages ++ behindShutdown messages = messages := by
  induction messages with
  | nil => rfl
  | cons message rest ih =>
      rw [untilShutdown, behindShutdown]
      split
      · rfl
      · rw [List.cons_append, ih]

theorem behindShutdown_of_notMem {messages : List Message}
    (goesOn : .shutdown ∉ messages) : behindShutdown messages = [] := by
  induction messages with
  | nil => rfl
  | cons message rest ih =>
      rw [List.mem_cons, not_or] at goesOn
      rw [behindShutdown, if_neg (Ne.symm goesOn.1), ih goesOn.2]

variable {coordinator changed : Coordinator} {message : Message}
  {exchanges : List Exchange} {outcome : Outcome}

/-! ## One message -/

/-- A message loop that goes on handles the message, and may log a failure. -/
theorem handled_of_served
    (served : (coordinator.serve message).Yields exchanges (some changed)) :
    message ≠ .shutdown ∧ ∃ handled outcome,
      (coordinator.handle message).Yields handled (changed, outcome) ∧
        unlogged exchanges = unlogged handled := by
  by_cases ends : message = .shutdown
  · rw [Coordinator.serve, if_pos ends] at served
    obtain ⟨_, _, _, -, ended, -⟩ := served.bind_inv
    cases ended.done_inv.2
  rw [Coordinator.serve, if_neg ends] at served
  obtain ⟨handled, ⟨after, outcome⟩, notes, handling, noting, rfl⟩ :=
    served.bind_inv
  refine ⟨ends, handled, outcome, ?_⟩
  cases outcome with
  | ok _ =>
      obtain ⟨rfl, ⟨⟩⟩ := noting.done_inv
      exact ⟨handling, by rw [List.append_nil]⟩
  | error failure =>
      obtain ⟨_, _, _, logged, ended, rfl⟩ := noting.bind_inv
      obtain ⟨rfl, ⟨⟩⟩ := ended.done_inv
      refine ⟨handling, ?_⟩
      rw [List.append_nil, unlogged_append, (silent_of_log logged).unlogged,
        List.append_nil]

theorem exists_served_of_handled (goesOn : message ≠ .shutdown)
    (handled : (coordinator.handle message).Yields exchanges
      (changed, outcome)) :
    ∃ served, (coordinator.serve message).Yields served (some changed) ∧
      unlogged served = unlogged exchanges := by
  rw [Coordinator.serve, if_neg goesOn]
  cases outcome with
  | ok _ => exact ⟨_, handled.bind (.done _), by rw [List.append_nil]⟩
  | error failure =>
      have noting : Interaction.Yields (.ask
          (.log (.failed message failure)) fun _ => .done (some changed))
          [⟨.log (.failed message failure), ()⟩] (some changed) :=
        .ask (.done _)
      have silent : Silent [⟨.log (.failed message failure), ()⟩] :=
        List.forall_mem_singleton.mpr ⟨_, rfl⟩
      refine ⟨_, handled.bind noting, ?_⟩
      rw [unlogged_append, silent.unlogged, List.append_nil]

/-- Whether a request serves to give something back. -/
def Request.IsReturn : Request → Prop
  | .cancelTimer _ | .disposeStyle _ | .unlisten _ | .log _ => True
  | _ => False

/-- A coordinator that is deactivated gives back everything and asks for
nothing else, whatever it is answered. -/
theorem returns_of_deactivate
    (yields : coordinator.deactivate.Yields exchanges changed) :
    (∀ exchange ∈ exchanges, exchange.request.IsReturn) ∧
      changed = coordinator.deactivated := by
  refine ⟨(yields.of_asks (asks_deactivate (fun _ _ => trivial)
    (fun _ => trivial) trivial fun _ => trivial)).1, ?_⟩
  obtain ⟨_, debouncer, _, cancelled, tearing, rfl⟩ := yields.bind_inv
  obtain ⟨_, ⟨style⟩, rest, torn, closing, rfl⟩ := tearing.bind_inv
  have cancelling : coordinator.debouncer.cancel.Asks Request.IsReturn
      fun debouncer =>
        debouncer = { coordinator.debouncer with timer := none } := by
    obtain ⟨-, -, ⟨delay, timer⟩, -⟩ := coordinator
    cases timer with
    | none => exact rfl
    | some timer => exact ⟨trivial, fun _ => rfl⟩
  obtain ⟨-, rfl⟩ := cancelled.of_asks cancelling
  obtain rfl : style = none := style_of_teardown torn
  have unlistening (_ : Unit) : Interaction.Asks Request.IsReturn
      (fun changed => changed = coordinator.deactivated) (do
        Coordinator.unlisten coordinator.listeners
        return coordinator.deactivated) :=
    (asks_unlisten (fun _ => trivial) _).bind fun _ _ => rfl
  have closes : (∀ exchange ∈ rest, exchange.request.IsReturn) ∧
      changed = coordinator.deactivated := by
    apply closing.of_asks
    change Interaction.Asks _ _
      (if coordinator.listeners.isEmpty = true then _ else _)
    split
    · exact unlistening ()
    · exact ⟨trivial, fun _ => unlistening ()⟩
  exact closes.2

theorem exists_served_of_shutdown
    (handled : (coordinator.handle .shutdown).Yields exchanges
      (changed, outcome)) :
    changed = coordinator.deactivated ∧ ∃ served,
      (coordinator.serve .shutdown).Yields served none ∧
        unlogged served = unlogged exchanges := by
  obtain ⟨lead, _, _, logged, acting, rfl⟩ := handled.bind_inv
  obtain ⟨returns, _, _, deactivated, ended, rfl⟩ := acting.bind_inv
  obtain ⟨rfl, ⟨⟩⟩ := ended.done_inv
  refine ⟨(returns_of_deactivate deactivated).2, returns ++ [],
    deactivated.bind (.done none), ?_⟩
  rw [unlogged_append lead, (silent_of_log logged).unlogged,
    List.nil_append]

/-- A message loop ends with an order to shut down only. -/
theorem handled_of_ended
    (served : (coordinator.serve message).Yields exchanges none) :
    message = .shutdown ∧ ∃ handled,
      (coordinator.handle .shutdown).Yields handled
          (coordinator.deactivated, .ok ()) ∧
        unlogged exchanges = unlogged handled := by
  by_cases ends : message = .shutdown
  · rw [Coordinator.serve, if_pos ends] at served
    obtain ⟨returns, _, _, deactivated, ended, rfl⟩ := served.bind_inv
    obtain ⟨rfl, -⟩ := ended.done_inv
    obtain ⟨-, rfl⟩ := returns_of_deactivate deactivated
    have logging : (Interaction.log (.handling .shutdown)).Yields
        [⟨.log (.handling .shutdown), ()⟩] () := .ask (.done _)
    refine ⟨ends, _, logging.bind (deactivated.bind (.done _)), ?_⟩
    rw [unlogged_append [_], (silent_of_log logging).unlogged,
      List.nil_append]
  · rw [Coordinator.serve, if_neg ends] at served
    obtain ⟨_, ⟨_, outcome⟩, _, -, noting, -⟩ := served.bind_inv
    cases outcome with
    | ok _ => cases noting.done_inv.2
    | error failure =>
        obtain ⟨_, _, _, -, ended, -⟩ := noting.bind_inv
        cases ended.done_inv.2

/-! ## All messages -/

section

variable {messages earlier later : List Message}
  {episodes served : List Episode} {holder : Option Coordinator}

theorem Coordinator.Handles.append_inv
    (handles : coordinator.Handles (earlier ++ later) episodes changed) :
    ∃ before middle after, episodes = before ++ after ∧
      coordinator.Handles earlier before middle ∧
      middle.Handles later after changed := by
  induction earlier generalizing coordinator episodes with
  | nil => exact ⟨[], coordinator, episodes, rfl, .nil coordinator, handles⟩
  | cons message rest ih =>
      cases handles with
      | cons handled handles =>
          obtain ⟨before, middle, after, rfl, first, second⟩ := ih handles
          exact ⟨_ :: before, middle, after, rfl, .cons handled first, second⟩

/-- Once there is an order to shut down among the messages, those that come
later do not matter to a message loop. -/
theorem Coordinator.Serves.of_append (order : .shutdown ∈ messages)
    (serves : coordinator.Serves (messages ++ later) served holder) :
    holder = none ∧ coordinator.Serves messages served none := by
  induction messages generalizing coordinator served with
  | nil => contradiction
  | cons message rest ih =>
      cases serves with
      | ended ending _ => exact ⟨rfl, .ended ending rest⟩
      | cons serving serves =>
          have goesOn := (handled_of_served serving).1
          have order' := (List.mem_cons.mp order).resolve_left goesOn.symm
          obtain ⟨rfl, serves'⟩ := ih order' serves
          exact ⟨rfl, .cons serving serves'⟩

/-- What a message loop serves could have been handed to the coordinator. -/
theorem Coordinator.Serves.exists_handles
    (serves : coordinator.Serves messages served holder) :
    ∃ handled left,
      coordinator.Handles (untilShutdown messages) handled left ∧
        dialogueOf handled = dialogueOf served := by
  induction serves with
  | nil coordinator => exact ⟨[], coordinator, .nil coordinator, rfl⟩
  | ended ending _ =>
      obtain ⟨rfl, handled, handling, same⟩ := handled_of_ended ending
      refine ⟨_, _, .cons handling (.nil _), ?_⟩
      rw [dialogueOf_cons, dialogueOf_cons, same]
  | cons serving _ ih =>
      obtain ⟨goesOn, handled, _, handling, same⟩ := handled_of_served serving
      obtain ⟨later, left, handles, same'⟩ := ih
      rw [untilShutdown, if_neg goesOn]
      refine ⟨_, left, .cons handling handles, ?_⟩
      rw [dialogueOf_cons, dialogueOf_cons, same, same']

/-- A message loop could have served what is handed to the coordinator up to
the first order to shut down.  If there is one, the coordinator is left without
anything. -/
theorem Coordinator.Handles.exists_serves
    (handles : coordinator.Handles (untilShutdown messages) episodes
      changed) :
    (∃ served holder, coordinator.Serves messages served holder ∧
      dialogueOf served = dialogueOf episodes) ∧
    (.shutdown ∈ messages → ∃ former : Coordinator,
      changed = former.deactivated) := by
  induction messages generalizing coordinator episodes with
  | nil =>
      cases handles
      exact ⟨⟨[], some _, .nil _, rfl⟩, nofun⟩
  | cons message rest ih =>
      rw [untilShutdown] at handles
      split at handles
      case isTrue ends =>
        subst ends
        cases handles with
        | cons handled handles =>
            cases handles
            obtain ⟨rfl, served, ending, same⟩ :=
              exists_served_of_shutdown handled
            refine ⟨⟨_, none, .ended ending rest, ?_⟩,
              fun _ => ⟨coordinator, rfl⟩⟩
            rw [dialogueOf_cons, dialogueOf_cons, same]
      case isFalse goesOn =>
        cases handles with
        | cons handled handles =>
            obtain ⟨served, serving, same⟩ :=
              exists_served_of_handled goesOn handled
            obtain ⟨⟨later, holder, serves, same'⟩, left⟩ := ih handles
            refine ⟨⟨_, holder, .cons serving serves, ?_⟩, fun order =>
              left ((List.mem_cons.mp order).resolve_left
                (Ne.symm goesOn))⟩
            rw [dialogueOf_cons, dialogueOf_cons, same, same']

end

end SignatureVeil
