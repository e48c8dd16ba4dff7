import SignatureVeil.Proofs.Session.Disturbance
import SignatureVeil.Proofs.Workspace.Carrying
import SignatureVeil.Proofs.Workspace.Posting
import SignatureVeil.Proofs.Workspace.Recording
import SignatureVeil.Proofs.Workspace.StyleTokens
import SignatureVeil.Proofs.Workspace.Timers

/-!
# What is held in a workspace

The editor gives a new name to every listener that is registered and to every
style that is made, and the agenda to every timer.  The listeners that are
registered in a workspace and the timers that run there are those that
somebody holds.  Only who holds them changes what is held; whatever else
happens, and the steps of hooks among it, can do no more than let a timer run
out.
-/

namespace SignatureVeil

/-! ## Listeners -/

def Listener.subscription (listener : Listener) : Topic × Sink :=
  (listener.topic, listener.sink)

def EditorCall.registered? : EditorCall → Option ListenerId
  | .listen _ listener => some listener
  | _ => none

def EditorCall.released? : EditorCall → Option ListenerId
  | .unlisten listener => some listener
  | _ => none

/-- The listeners that have been registered, in that order. -/
def registeredListeners (calls : List EditorCall) : List ListenerId :=
  calls.filterMap EditorCall.registered?

/-- The listeners that have been released, once for each time. -/
def releasedListeners (calls : List EditorCall) : List ListenerId :=
  calls.filterMap EditorCall.released?

theorem registeredListeners_append (earlier later : List EditorCall) :
    registeredListeners (earlier ++ later) =
      registeredListeners earlier ++ registeredListeners later :=
  List.filterMap_append

theorem releasedListeners_append (earlier later : List EditorCall) :
    releasedListeners (earlier ++ later) =
      releasedListeners earlier ++ releasedListeners later :=
  List.filterMap_append

namespace Workspace

variable {workspace before after : Workspace} {request : Request}

/-! ## Bystanders -/

/-- No calls are made, nothing is registered or released, and no timer is
touched. -/
structure Still (before after : Workspace) : Prop where
  calls : after.editor.calls = before.editor.calls
  listeners : after.editor.listeners = before.editor.listeners
  nextToken : after.editor.nextToken = before.editor.nextToken
  nextListener : after.editor.nextListener = before.editor.nextListener
  agenda : after.agenda = before.agenda

theorem Still.refl (workspace : Workspace) : Still workspace workspace :=
  ⟨rfl, rfl, rfl, rfl, rfl⟩

theorem Still.trans {first second third : Workspace}
    (still : Still first second) (still' : Still second third) :
    Still first third where
  calls := still'.calls.trans still.calls
  listeners := still'.listeners.trans still.listeners
  nextToken := still'.nextToken.trans still.nextToken
  nextListener := still'.nextListener.trans still.nextListener
  agenda := still'.agenda.trans still.agenda

theorem SameSurroundings.still (same : SameSurroundings before after) :
    Still before after := by
  obtain ⟨editor, agenda, -⟩ := same
  constructor <;> simp only [editor, agenda]

theorem still_step (workspace : Workspace) (step : EditorStep) :
    Still workspace (workspace.step step) := by
  cases step with
  | fire event => exact (emitAll_same _ _).still
  | invoke id =>
      change Still workspace (workspace.invoke id).2
      unfold invoke
      split
      · exact .refl workspace
      · split
        · exact .refl workspace
        · exact (emit_same _ _).still
  | _ => exact ⟨rfl, rfl, rfl, rfl, rfl⟩

theorem still_steps (workspace : Workspace) (steps : List EditorStep) :
    Still workspace (workspace.steps steps) := by
  induction steps generalizing workspace with
  | nil => exact .refl workspace
  | cons step rest ih => exact (still_step workspace step).trans (ih _)

/-- Apart from the call itself, nothing changes when a call is recorded. -/
theorem still_record (workspace : Workspace) (primitive : Primitive)
    (call : EditorCall) :
    Still (workspace.updateEditor fun editor => editor.record call)
      (workspace.record primitive call) := by
  refine Still.trans ?_ (still_steps _ _)
  simp only [updateEditor]
  split <;> exact ⟨rfl, rfl, rfl, rfl, rfl⟩

/-- What happens in a workspace without touching what is held there: no calls
are made, nothing is registered or released, and timers may only run out. -/
structure Spares (before after : Workspace) : Prop where
  calls : after.editor.calls = before.editor.calls
  listeners : after.editor.listeners = before.editor.listeners
  nextToken : after.editor.nextToken = before.editor.nextToken
  nextListener : after.editor.nextListener = before.editor.nextListener
  nextTimer : after.agenda.nextTimer = before.agenda.nextTimer
  timers : ∀ timer ∈ after.agenda.timers, timer ∈ before.agenda.timers

theorem Spares.trans {first second third : Workspace}
    (spares : Spares first second) (spares' : Spares second third) :
    Spares first third where
  calls := spares'.calls.trans spares.calls
  listeners := spares'.listeners.trans spares.listeners
  nextToken := spares'.nextToken.trans spares.nextToken
  nextListener := spares'.nextListener.trans spares.nextListener
  nextTimer := spares'.nextTimer.trans spares.nextTimer
  timers timer running := spares.timers timer (spares'.timers timer running)

theorem Still.spares (still : Still before after) : Spares before after where
  calls := still.calls
  listeners := still.listeners
  nextToken := still.nextToken
  nextListener := still.nextListener
  nextTimer := congrArg Agenda.nextTimer still.agenda
  timers timer running := by rwa [still.agenda] at running

theorem spares_fireTimers (workspace : Workspace) :
    Spares workspace workspace.fireTimers := by
  obtain ⟨editor, agenda, -⟩ := fireTimers_spec workspace
  refine ⟨by rw [editor], by rw [editor], by rw [editor], by rw [editor],
    by rw [agenda]; rfl, fun timer running => ?_⟩
  rw [agenda] at running
  exact (Agenda.mem_timers_clearDue.mp running).1

theorem Happens.spares (happens : Happens before after) :
    Spares before after := by
  cases happens with
  | disturb disturbance => exact (still_steps _ _).spares
  | post sink work => exact (emit_same _ _).still.spares
  | clock later => exact ⟨rfl, rfl, rfl, rfl, rfl, fun _ running => running⟩
  | timers => exact spares_fireTimers before

theorem Passes.spares (passes : Passes before after) :
    Spares before after := by
  induction passes with
  | refl => exact (Still.refl _).spares
  | tail _ happens ih => exact ih.trans happens.spares

/-! ## New names -/

/-- The names that are given to the styles and listeners of some calls are all
different, and the next ones are new. -/
structure Numbered (editor : Editor) : Prop where
  created : (createdTokens editor.calls).Nodup
  tokens : ∀ token ∈ createdTokens editor.calls, token < editor.nextToken
  registered : (registeredListeners editor.calls).Nodup
  listeners : ∀ listener ∈ registeredListeners editor.calls,
    listener < editor.nextListener

theorem Numbered.spares (numbered : Numbered before.editor)
    (spares : Spares before after) : Numbered after.editor := by
  obtain ⟨calls, -, nextToken, nextListener, -⟩ := spares
  constructor <;> simp only [calls, nextToken, nextListener]
  · exact numbered.created
  · exact numbered.tokens
  · exact numbered.registered
  · exact numbered.listeners

/-- The call that is recorded when a request is answered, if there is one. -/
def answeredCalls (workspace : Workspace) (request : Request) :
    List EditorCall :=
  (Exchange.call? ⟨request, (workspace.answer request).1⟩).toList

/-- What some names become when a request is answered: either none is given,
or the next one is. -/
def Gives (names : List Nat) (next next' : Nat) : Prop :=
  (names = [] ∧ next' = next) ∨ (names = [next] ∧ next' = next + 1)

theorem gives_token (workspace : Workspace) (request : Request) :
    Gives (createdTokens (workspace.answeredCalls request))
      workspace.editor.nextToken
      (workspace.answer request).2.editor.nextToken := by
  cases request with
  | createStyle style => exact .inr ⟨rfl, (still_record _ _ _).nextToken⟩
  | document | configuration _ | listen _ _ | unlisten _ | startTimer _ _
    | cancelTimer _ | log _ => exact .inl ⟨rfl, rfl⟩
  | _ => exact .inl ⟨rfl, (still_record _ _ _).nextToken⟩

theorem gives_listener (workspace : Workspace) (request : Request) :
    Gives (registeredListeners (workspace.answeredCalls request))
      workspace.editor.nextListener
      (workspace.answer request).2.editor.nextListener := by
  cases request with
  | listen topic sink => exact .inr ⟨rfl, rfl⟩
  | document | configuration _ | unlisten _ | startTimer _ _ | cancelTimer _
    | log _ => exact .inl ⟨rfl, rfl⟩
  | _ => exact .inl ⟨rfl, (still_record _ _ _).nextListener⟩

theorem Gives.same {next next' : Nat} (gives : Gives [] next next') :
    next' = next := by
  rcases gives with ⟨-, same⟩ | ⟨given, -⟩
  · exact same
  · cases given

theorem Gives.append {names more : List Nat} {next next' : Nat}
    (gives : Gives more next next') (nodup : names.Nodup)
    (below : ∀ name ∈ names, name < next) :
    (names ++ more).Nodup ∧ ∀ name ∈ names ++ more, name < next' := by
  rcases gives with ⟨rfl, rfl⟩ | ⟨rfl, rfl⟩
  · rw [List.append_nil]
    exact ⟨nodup, below⟩
  · refine ⟨List.nodup_append.mpr ⟨nodup, List.nodup_singleton next, ?_⟩,
      List.forall_mem_append.mpr ⟨fun name member =>
        Nat.lt_succ_of_lt (below name member),
        List.forall_mem_singleton.mpr next.lt_succ_self⟩⟩
    rintro name member _ new rfl
    exact Nat.ne_of_lt (below name member) (List.mem_singleton.mp new)

theorem Numbered.answer (numbered : Numbered workspace.editor)
    (request : Request) : Numbered (workspace.answer request).2.editor := by
  have tokens := (gives_token workspace request).append numbered.created
    numbered.tokens
  have listeners := (gives_listener workspace request).append
    numbered.registered numbered.listeners
  rw [createdTokens, createdTokens, ← List.filterMap_append] at tokens
  rw [← registeredListeners_append] at listeners
  rw [answeredCalls, ← calls_answer] at tokens listeners
  exact ⟨tokens.1, tokens.2, listeners.1, listeners.2⟩

/-! ## Holdings -/

/-- The listeners that are registered in a workspace are those given, every
other one that has ever been registered has been released once, and no timer
runs but the one that is given. -/
structure Holds (listeners : List Listener) (timer : Option TimerId)
    (workspace : Workspace) : Prop where
  numbered : Numbered workspace.editor
  registered : workspace.editor.listeners = listeners
  released : (registeredListeners workspace.editor.calls).Perm
    (releasedListeners workspace.editor.calls ++ listeners.map Listener.id)
  timers : ∀ running ∈ workspace.agenda.timers, timer = some running.id

variable {listeners : List Listener} {timer : Option TimerId}

theorem Holds.spares (holds : Holds listeners timer before)
    (spares : Spares before after) : Holds listeners timer after where
  numbered := holds.numbered.spares spares
  registered := by rw [spares.listeners, holds.registered]
  released := by
    rw [spares.calls]
    exact holds.released
  timers running member := holds.timers running (spares.timers running member)

/-- What a request leaves alone that concerns neither listeners nor timers. -/
theorem keeps_answer {request : Request} (visual : request.IsVisual)
    (workspace : Workspace) :
    (workspace.answer request).2.editor.listeners =
        workspace.editor.listeners ∧
      (workspace.answer request).2.agenda.nextTimer =
        workspace.agenda.nextTimer ∧
      (∀ running ∈ (workspace.answer request).2.agenda.timers,
        running ∈ workspace.agenda.timers) ∧
      registeredListeners (workspace.answeredCalls request) = [] ∧
      releasedListeners (workspace.answeredCalls request) = [] := by
  cases request with
  | listen _ _ | unlisten _ | startTimer _ _ | cancelTimer _ =>
      exact absurd visual id
  | document | configuration _ | log _ =>
      exact ⟨rfl, rfl, fun _ running => running, rfl, rfl⟩
  | _ =>
      have still := still_record
      exact ⟨(still _ _ _).listeners, (still _ _ _).spares.nextTimer,
        (still _ _ _).spares.timers, rfl, rfl⟩

theorem Holds.answer (holds : Holds listeners timer workspace)
    {request : Request} (visual : request.IsVisual) :
    Holds listeners timer (workspace.answer request).2 := by
  obtain ⟨same, -, running, registersNone, releasesNone⟩ :=
    keeps_answer visual workspace
  have calls := workspace.calls_answer request
  rw [← answeredCalls] at calls
  refine ⟨holds.numbered.answer request, same.trans holds.registered, ?_,
    fun timer member => holds.timers timer (running timer member)⟩
  rw [calls, registeredListeners_append, releasedListeners_append,
    registersNone, releasesNone, List.append_nil, List.append_nil]
  exact holds.released

theorem Holds.listen (holds : Holds listeners timer workspace) (topic : Topic)
    (sink : Sink) :
    Holds (listeners ++ [⟨workspace.editor.nextListener, topic, sink⟩]) timer
      (workspace.answer (.listen topic sink)).2 where
  numbered := holds.numbered.answer _
  registered := congrArg (· ++ _) holds.registered
  released := by
    rw [calls_answer, registeredListeners_append, releasedListeners_append,
      List.map_append, ← List.append_assoc]
    change (_ ++ [_]).Perm (((_ ++ []) ++ _) ++ [_])
    rw [List.append_nil]
    exact holds.released.append_right _
  timers := holds.timers

theorem Holds.nodup (holds : Holds listeners timer workspace) :
    (listeners.map Listener.id).Nodup :=
  (List.nodup_append.mp (holds.released.nodup holds.numbered.registered)).2.1

theorem Holds.unlisten {listener : Listener} {rest : List Listener}
    (holds : Holds (listener :: rest) timer workspace) :
    Holds rest timer (workspace.answer (.unlisten listener.id)).2 where
  numbered := holds.numbered.answer _
  registered := by
    -- no other listener has the same name, so only this one is taken out
    have gone := (List.nodup_cons.mp holds.nodup).1
    have others : rest.filter (fun other => other.id ≠ listener.id) =
        rest := by
      refine List.filter_eq_self.mpr fun other member => ?_
      rw [decide_eq_true_eq]
      intro same
      exact gone (same ▸ List.mem_map_of_mem member)
    change workspace.editor.listeners.filter
      (fun other => other.id ≠ listener.id) = rest
    rw [holds.registered, List.filter_cons_of_neg (by simp), others]
  released := by
    rw [calls_answer, registeredListeners_append, releasedListeners_append]
    change (_ ++ []).Perm ((_ ++ [_]) ++ _)
    rw [List.append_nil, List.append_assoc]
    exact holds.released
  timers := holds.timers

/-- No listener is released twice. -/
theorem Holds.count_released_le (holds : Holds listeners timer workspace)
    (listener : ListenerId) :
    (releasedListeners workspace.editor.calls).count listener ≤ 1 := by
  have once := List.nodup_iff_count_le_one.mp holds.numbered.registered listener
  rw [holds.released.count_eq, List.count_append] at once
  exact Nat.le_of_add_right_le once

theorem Holds.count_released (holds : Holds [] timer workspace)
    {listener : ListenerId}
    (registered : listener ∈ registeredListeners workspace.editor.calls) :
    (releasedListeners workspace.editor.calls).count listener = 1 := by
  have released := holds.released
  rw [List.map_nil, List.append_nil] at released
  rw [← released.count_eq]
  exact List.count_eq_one_of_mem holds.numbered.registered registered

/-! ## Going on -/

/-- What no step takes back: calls have been made, and a timer that is running
either was running before or has been started since. -/
structure Advances (before after : Workspace) : Prop where
  calls : before.editor.calls <+: after.editor.calls
  nextTimer : before.agenda.nextTimer ≤ after.agenda.nextTimer
  timers : ∀ timer ∈ after.agenda.timers,
    timer ∈ before.agenda.timers ∨ before.agenda.nextTimer ≤ timer.id

theorem Advances.refl (workspace : Workspace) : Advances workspace workspace :=
  ⟨List.prefix_rfl, Nat.le_refl _, fun _ running => .inl running⟩

theorem Advances.trans {first second third : Workspace}
    (advances : Advances first second) (advances' : Advances second third) :
    Advances first third where
  calls := advances.calls.trans advances'.calls
  nextTimer := Nat.le_trans advances.nextTimer advances'.nextTimer
  timers timer running := by
    rcases advances'.timers timer running with earlier | later
    · exact advances.timers timer earlier
    · exact .inr (Nat.le_trans advances.nextTimer later)

theorem Spares.advances (spares : Spares before after) :
    Advances before after where
  calls := spares.calls ▸ List.prefix_rfl
  nextTimer := Nat.le_of_eq spares.nextTimer.symm
  timers timer running := .inl (spares.timers timer running)

theorem advances_answer (workspace : Workspace) (request : Request) :
    Advances workspace (workspace.answer request).2 := by
  have calls : workspace.editor.calls <+:
      (workspace.answer request).2.editor.calls := by
    rw [calls_answer]
    exact List.prefix_append _ _
  by_cases visual : request.IsVisual
  · obtain ⟨-, nextTimer, timers, -⟩ := keeps_answer visual workspace
    exact ⟨calls, Nat.le_of_eq nextTimer.symm, fun timer running =>
      .inl (timers timer running)⟩
  · cases request with
    | startTimer delay sink =>
        refine ⟨calls, Nat.le_succ _, fun timer running => ?_⟩
        rcases Agenda.mem_timers_start.mp running with earlier | rfl
        · exact .inl earlier
        · exact .inr (Nat.le_refl _)
    | cancelTimer id =>
        exact ⟨calls, Nat.le_refl _, fun timer running =>
          .inl (Agenda.mem_timers_cancel.mp running).1⟩
    | listen _ _ | unlisten _ =>
        exact ⟨calls, Nat.le_refl _, fun _ running => .inl running⟩
    | _ => exact absurd trivial visual

section

variable {α : Type} {interaction : Interaction α} {last : Workspace}

theorem Carried.advances {result : α}
    (carried : Carried Spares result last interaction workspace) :
    Advances workspace last :=
  (carried.preserves (Advances workspace)
    (fun advances _ => advances.trans (advances_answer _ _))
    (asks_anything interaction) (.refl workspace) fun advances spares =>
      advances.trans spares.advances).1

theorem Halted.advances {rest : Outcome → Interaction α}
    (halted : Halted Spares rest last interaction workspace) :
    Advances workspace last :=
  halted.preserves (Advances workspace)
    (fun advances _ => advances.trans (advances_answer _ _))
    (asks_anything interaction) (.refl workspace) fun advances spares =>
      advances.trans spares.advances

end

end Workspace

end SignatureVeil
