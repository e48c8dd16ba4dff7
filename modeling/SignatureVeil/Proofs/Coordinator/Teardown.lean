import Mathlib.Logic.Relation
import SignatureVeil.Proofs.Coordinator.Interruption

/-!
# Teardown

On one host, coordinators are activated and torn down one after the other.
Between its activation and its end a coordinator is asked for anything at any
time, also after it has been deactivated, and what it does may be interrupted.
However it ends, and also if its activation fails, nothing of it is left on the
host.
-/

namespace SignatureVeil

open Workspace Relation

/-- A coordinator, and whether it has not been deactivated yet. -/
structure Tenant where
  coordinator : Coordinator
  active : Bool
  deriving DecidableEq, Repr

/-- A workspace, and the coordinator that is there, if there is one. -/
structure Host where
  workspace : Workspace
  tenant : Option Tenant := none

/-- A workspace before the first activation. -/
structure Workspace.Untouched (workspace : Workspace) : Prop where
  calls : workspace.editor.calls = []
  listeners : workspace.editor.listeners = []
  timers : workspace.agenda.timers = []

namespace Host

/-- The ways in which a coordinator is torn down. -/
inductive Exits : Host → Host → Prop where
  | failed {before after : Workspace} {channel : ChannelId}
      {failure : Failure}
      (carried : Carried Spares (.error failure) after
        (Coordinator.activate channel) before) :
      Exits ⟨before, none⟩ ⟨after, none⟩
  | deactivated {before after : Workspace} {tenant : Tenant}
      {changed : Coordinator}
      (carried : Carried Spares changed after tenant.coordinator.deactivate
        before) :
      Exits ⟨before, some tenant⟩ ⟨after, some ⟨changed, false⟩⟩
  | shutDown {before after : Workspace} {tenant : Tenant}
      {changed : Coordinator} {outcome : Outcome}
      (carried : Carried Spares (changed, outcome) after
        (tenant.coordinator.handle .shutdown) before) :
      Exits ⟨before, some tenant⟩ ⟨after, some ⟨changed, false⟩⟩
  /-- The message loop of the coordinator ends. -/
  | ended {before after : Workspace} {tenant : Tenant} {message : Message}
      (carried : Carried Spares none after (tenant.coordinator.serve message)
        before) :
      Exits ⟨before, some tenant⟩ ⟨after, none⟩
  /-- The coordinator is let go of, as also happens when its message loop finds
  the channel closed. -/
  | dropped {before after : Workspace} {tenant : Tenant}
      {changed : Coordinator}
      (carried : Carried Spares changed after tenant.coordinator.deactivate
        before) :
      Exits ⟨before, some tenant⟩ ⟨after, none⟩

/-- What can happen on a host. -/
inductive Step : Host → Host → Prop where
  | exited {before after : Host} (exits : Exits before after) :
      Step before after
  /-- Something happens that touches nothing that is held. -/
  | spared {before after : Workspace} {tenant : Option Tenant}
      (spares : Spares before after) : Step ⟨before, tenant⟩ ⟨after, tenant⟩
  | activated {before after : Workspace} {channel : ChannelId}
      {coordinator : Coordinator}
      (carried : Carried Spares (.ok coordinator) after
        (Coordinator.activate channel) before) :
      Step ⟨before, none⟩ ⟨after, some ⟨coordinator, true⟩⟩
  /-- An activation has come as far as to listen to all topics.  Then it may
  hide what is shown, as any coordinator, or be given up. -/
  | begun {before after : Workspace} {channel : ChannelId}
      {listeners : List ListenerId}
      (carried : Carried Spares listeners after
        (Coordinator.listenTo channel Coordinator.topics) before) :
      Step ⟨before, none⟩ ⟨after, some ⟨{ channel, listeners }, true⟩⟩
  | operated {before after : Workspace} {tenant : Tenant}
      {operation : Operation} {changed : Coordinator}
      (stays : ¬ operation.Closes)
      (carried : Carried Spares changed after
        (operation.carryOut tenant.coordinator) before) :
      Step ⟨before, some tenant⟩ ⟨after, some ⟨changed, tenant.active⟩⟩
  | interrupted {before after : Workspace} {tenant : Tenant}
      {operation : Operation} {changed : Coordinator}
      (stays : ¬ operation.Closes)
      (interrupted : operation.Interrupted tenant.coordinator changed before
        after) :
      Step ⟨before, some tenant⟩ ⟨after, some ⟨changed, tenant.active⟩⟩
  /-- The message loop of the coordinator serves a message and goes on. -/
  | served {before after : Workspace} {tenant : Tenant} {message : Message}
      {changed : Coordinator}
      (carried : Carried Spares (some changed) after
        (tenant.coordinator.serve message) before) :
      Step ⟨before, some tenant⟩ ⟨after, some ⟨changed, tenant.active⟩⟩

/-- What happens around a coordinator touches nothing that is held. -/
theorem Step.of_passes {before after : Workspace} {tenant : Option Tenant}
    (passes : Passes before after) : Step ⟨before, tenant⟩ ⟨after, tenant⟩ :=
  .spared passes.spares

/-- Any number of steps. -/
abbrev Steps : Host → Host → Prop :=
  ReflTransGen Step

/-! ## One step -/

/-- All that is held on a host is held by its tenant, and a tenant that is
active attends to all topics. -/
def Owned (host : Host) : Prop :=
  match host.tenant with
  | none => Vacant host.workspace
  | some tenant => tenant.coordinator.Possesses host.workspace ∧
      (tenant.active = true → tenant.coordinator.Attends host.workspace)

/-- Nothing is held, and the tenant that is left has nothing to give back. -/
structure Bare (host : Host) : Prop where
  vacant : Vacant host.workspace
  idle : ∀ tenant, host.tenant = some tenant →
    ∃ coordinator : Coordinator, tenant = ⟨coordinator.deactivated, false⟩

variable {host before after : Host}

theorem Bare.owned (bare : Bare host) : Owned host := by
  obtain ⟨workspace, tenant⟩ := host
  cases tenant with
  | none => exact bare.vacant
  | some tenant =>
      obtain ⟨vacant, idle⟩ := bare
      obtain ⟨coordinator, rfl⟩ := idle tenant rfl
      obtain ⟨holds, stage⟩ := vacant
      have none := holds.registered
      refine ⟨⟨?_, ?_, .absent, stage, rfl⟩, nofun⟩
      · rw [none]
        exact holds
      · rw [none]
        rfl

theorem Owned.exists_holds (owned : Owned host) :
    ∃ listeners timer, Holds listeners timer host.workspace := by
  obtain ⟨workspace, tenant⟩ := host
  cases tenant with
  | none => exact ⟨_, _, owned.holds⟩
  | some tenant => exact ⟨_, _, owned.1.holds⟩

theorem Exits.bare (exits : Exits before after) (owned : Owned before) :
    Bare after := by
  cases exits with
  | failed carried => exact ⟨Vacant.activated owned carried, nofun⟩
  | deactivated carried =>
      obtain ⟨rfl, vacant⟩ := owned.1.deactivated carried
      exact ⟨vacant, fun _ same => ⟨_, (Option.some.inj same).symm⟩⟩
  | shutDown carried =>
      obtain ⟨rfl, vacant⟩ := owned.1.shutDown carried
      exact ⟨vacant, fun _ same => ⟨_, (Option.some.inj same).symm⟩⟩
  | ended carried => exact ⟨owned.1.ended carried, nofun⟩
  | dropped carried => exact ⟨(owned.1.deactivated carried).2, nofun⟩

theorem owned_of_remains {workspace last : Workspace} {tenant : Tenant}
    {changed : Coordinator}
    (owned : Owned ⟨workspace, some tenant⟩)
    (remains : tenant.coordinator.Remains changed workspace last) :
    Owned ⟨last, some ⟨changed, tenant.active⟩⟩ :=
  ⟨remains.possesses, fun active => remains.attends (owned.2 active)⟩

theorem Step.owned (step : Step before after) (owned : Owned before) :
    Owned after := by
  cases step with
  | exited exits => exact (exits.bare owned).owned
  | @spared _ _ tenant spares =>
      cases tenant with
      | none => exact Vacant.spares owned spares
      | some tenant =>
          refine ⟨owned.1.spares spares, fun active => ?_⟩
          have attends := owned.2 active
          rwa [Coordinator.Attends, ← spares.listeners] at attends
  | activated carried =>
      obtain ⟨possesses, attends⟩ := Vacant.activated owned carried
      exact ⟨possesses, fun _ => attends⟩
  | begun carried =>
      obtain ⟨possesses, attends⟩ := Vacant.listening owned carried
      exact ⟨possesses, fun _ => attends⟩
  | operated stays carried =>
      exact owned_of_remains owned (owned.1.operated stays carried)
  | interrupted stays interrupted =>
      exact owned_of_remains owned
        (owned.1.interrupted stays interrupted)
  | served carried =>
      exact owned_of_remains owned (owned.1.served carried)

theorem Step.advances (step : Step before after) :
    Advances before.workspace after.workspace := by
  cases step with
  | exited exits =>
      cases exits with
      | failed carried | deactivated carried | shutDown carried
        | ended carried | dropped carried => exact carried.advances
  | spared spares => exact spares.advances
  | activated carried | begun carried | operated _ carried | served carried =>
      exact carried.advances
  | interrupted _ interrupted =>
      obtain ⟨_, halted, -⟩ := interrupted
      exact halted.advances

/-! ## All steps -/

theorem Steps.owned (steps : Steps before after) (owned : Owned before) :
    Owned after := by
  induction steps with
  | refl => exact owned
  | tail _ step ih => exact step.owned ih

theorem Steps.advances (steps : Steps before after) :
    Advances before.workspace after.workspace := by
  induction steps with
  | refl => exact .refl _
  | tail _ step ih => exact ih.trans step.advances

/-- An operation can be interrupted wherever it waits. -/
theorem Steps.exists_interrupted {workspace last : Workspace}
    {tenant : Tenant} {operation : Operation}
    {rest : Outcome → Interaction Coordinator}
    (steps : Steps before ⟨workspace, some tenant⟩)
    (stays : ¬ operation.Closes)
    (halted : Halted Spares rest last (operation.carryOut tenant.coordinator)
      workspace) :
    ∃ changed, Steps before ⟨last, some ⟨changed, tenant.active⟩⟩ := by
  obtain ⟨changed, interrupted⟩ := halted.exists_interrupted stays
  exact ⟨changed, steps.tail (.interrupted stays interrupted)⟩

theorem owned_untouched {workspace : Workspace}
    (untouched : Untouched workspace) : Owned ⟨workspace, none⟩ := by
  obtain ⟨calls, listeners, timers⟩ := untouched
  refine ⟨⟨⟨?_, ?_, ?_, ?_⟩, listeners, ?_, ?_⟩, ?_⟩ <;>
    simp [calls, timers, createdTokens, registeredListeners,
      releasedListeners, TokenStage.afterAll?]

/-- Nothing is left of the coordinators that have been on a host, now or
later. -/
structure TornDown (host : Host) : Prop where
  listeners : host.workspace.editor.listeners = []
  /-- Every listener that has been registered so far has been released, and
  none is ever released again. -/
  released : ∀ later, Steps host later →
    ∀ listener ∈ registeredListeners host.workspace.editor.calls,
      (releasedListeners later.workspace.editor.calls).count listener = 1
  styles : liveTokens host.workspace.editor.calls = []
  timers : host.workspace.agenda.timers = []
  /-- Whatever timer runs later on has been started later on. -/
  silent : ∀ later, Steps host later →
    ∀ timer ∈ later.workspace.agenda.timers,
      host.workspace.agenda.nextTimer ≤ timer.id
  pending : ∀ tenant, host.tenant = some tenant →
    host.workspace.isPending tenant.coordinator.debouncer = false
  /-- Tearing down again makes no request. -/
  idle : ∀ tenant, host.tenant = some tenant →
    tenant.coordinator.deactivate = .done tenant.coordinator

theorem Bare.tornDown (bare : Bare host) : TornDown host := by
  obtain ⟨holds, stage⟩ := bare.vacant
  have timers : host.workspace.agenda.timers = [] :=
    List.eq_nil_iff_forall_not_mem.mpr fun timer running =>
      nomatch holds.timers timer running
  refine ⟨holds.registered, fun later steps listener registered => ?_,
    (TokenStage.accounts_of_afterAll? stage holds.numbered.created).live,
    timers, fun later steps timer running => ?_, fun tenant present => ?_,
    fun tenant present => ?_⟩
  · -- each has been released by now, and none will be for a second time
    obtain ⟨_, _, later'⟩ := (steps.owned bare.owned).exists_holds
    have grown := (steps.advances.calls.filterMap EditorCall.released?).sublist
    refine Nat.le_antisymm (later'.count_released_le listener) ?_
    rw [← holds.count_released registered]
    exact grown.count_le listener
  · rcases steps.advances.timers timer running with earlier | started
    · simp [timers] at earlier
    · exact started
  · obtain ⟨coordinator, rfl⟩ := bare.idle tenant present
    rfl
  · obtain ⟨coordinator, rfl⟩ := bare.idle tenant present
    exact coordinator.deactivate_deactivated

theorem torn_down {start : Workspace} (untouched : Untouched start)
    (steps : Steps ⟨start, none⟩ host) :
    (∀ tenant, host.tenant = some tenant → tenant.active = true →
      host.workspace.editor.listeners.map Listener.id =
          tenant.coordinator.listeners ∧
        host.workspace.editor.listeners.map Listener.topic =
          [.event .activeEditorChanged, .event .documentChanged,
            .command .hideSignatures, .command .showSignatures]) ∧
    (∀ tenant, host.tenant = some tenant → ∃ last,
      host.workspace.perform tenant.coordinator.deactivate =
        .finished tenant.coordinator.deactivated last) ∧
    ∀ after, Exits host after → TornDown after := by
  have owned := steps.owned (owned_untouched untouched)
  refine ⟨?_, ?_, fun after exits => (exits.bare owned).tornDown⟩
  · intro tenant present active
    rw [Owned, present] at owned
    refine ⟨owned.1.listeners.symm, ?_⟩
    have topics := congrArg (List.map Prod.fst) (owned.2 active)
    rwa [List.map_map] at topics
  · intro tenant present
    rw [Owned, present] at owned
    obtain ⟨last, performed, -⟩ :=
      owned.1.holds.exists_deactivate owned.1.listeners
    exact ⟨last, performed⟩

theorem untouched_empty : Untouched {} :=
  ⟨rfl, rfl, rfl⟩

/-- The user has switched to a document with a signature. -/
def showingSignature : Workspace :=
  ({} : Workspace).steps
    (Disturbance.switch (some ⟨1, "ruby", "sig { void }\n", []⟩)).steps

/-- A coordinator whose timer runs is let go of while it waits for the editor
to unfold everything, half of the quiet period later. -/
theorem torn_down_dropped : ∃ workspace tenant after,
    Untouched {} ∧ Steps ⟨{}, none⟩ ⟨workspace, some tenant⟩ ∧
      Exits ⟨workspace, some tenant⟩ after ∧
      workspace.editor.listeners.length = 4 ∧
      liveTokens workspace.editor.calls = [2] ∧
      workspace.agenda.timers.length = 1 ∧ TornDown after := by
  have opened : Steps ⟨{}, none⟩ ⟨showingSignature, none⟩ :=
    .single (.of_passes (.single (.disturb _ _)))
  have activating : Carried Spares (.ok _) _ (Coordinator.activate 0)
      showingSignature := .finished rfl
  have activated := opened.tail (.activated activating)
  have schedules : ¬ Operation.scheduleHide.Closes := id
  have scheduled := activated.tail (.operated schedules (.finished rfl))
  have shows : ¬ Operation.showAndUnfold.Closes := id
  obtain ⟨changed, waiting⟩ := Steps.exists_interrupted scheduled shows
    (.waiting rfl (Passes.spares (.single (.clock _ (Nat.zero_le 100)))))
  have tears := torn_down untouched_empty waiting
  obtain ⟨last, deactivates⟩ := tears.2.1 _ rfl
  have dropped := Exits.dropped (.finished deactivates)
  exact ⟨_, _, _, untouched_empty, waiting, dropped, by decide +kernel,
    by decide +kernel, by decide +kernel, tears.2.2 _ dropped⟩

end Host

end SignatureVeil
