import SignatureVeil.Proofs.Coordinator.Requests
import SignatureVeil.Proofs.Workspace.Recording
import SignatureVeil.Proofs.Workspace.StyleTokens

/-!
# The styles of a coordinator

From its activation until it is let go of, a coordinator makes the calls of
its operations, one after the other, in any surroundings.  Each operation
takes the token in use from one stage to another and leaves the coordinator
with the token that is then in use.  So in the course of a whole lifetime every
token is accounted for.
-/

namespace SignatureVeil

open Interaction

/-- What can be asked of a coordinator between its activation and its end. -/
inductive Operation where
  | handle (message : Message)
  | hideAndFold
  | showAndUnfold
  | scheduleHide
  | deactivate

/-- Carry out an operation, whatever its outcome. -/
def Operation.carryOut (coordinator : Coordinator) :
    Operation → Interaction Coordinator
  | .handle message => do
      let (coordinator, _) ← coordinator.handle message
      return coordinator
  | .hideAndFold => do
      let (coordinator, _) ← coordinator.hideAndFold
      return coordinator
  | .showAndUnfold => do
      let (coordinator, _) ← coordinator.showAndUnfold
      return coordinator
  | .scheduleHide => coordinator.scheduleHide
  | .deactivate => coordinator.deactivate

/-- The exchanges of a coordinator since its activation, and the coordinator
itself.  There is none any more once its activation has failed or it has been
let go of. -/
inductive Lifetime : List Exchange → Option Coordinator → Prop where
  | failed {channel : ChannelId} {exchanges : List Exchange}
      {failure : Failure}
      (activated : (Coordinator.activate channel).Yields exchanges
        (.error failure)) :
      Lifetime exchanges none
  | activated {channel : ChannelId} {exchanges : List Exchange}
      {coordinator : Coordinator}
      (activated : (Coordinator.activate channel).Yields exchanges
        (.ok coordinator)) :
      Lifetime exchanges (some coordinator)
  | operated {earlier later : List Exchange}
      {coordinator changed : Coordinator}
      (lifetime : Lifetime earlier (some coordinator)) (operation : Operation)
      (operated : (operation.carryOut coordinator).Yields later changed) :
      Lifetime (earlier ++ later) (some changed)
  | dropped {earlier later : List Exchange}
      {coordinator changed : Coordinator}
      (lifetime : Lifetime earlier (some coordinator))
      (deactivated : coordinator.deactivate.Yields later changed) :
      Lifetime (earlier ++ later) none

/-! ## Stages of an interaction -/

/-- Whatever it is answered, an interaction makes calls that are in order from
some stage on, and its result fits the stage to which they lead. -/
def Leads {α : Type} (ends : α → TokenStage → Prop) :
    Interaction α → TokenStage → Prop
  | .done result, stage => ends result stage
  | .ask request next, stage =>
      ∀ answer, ∃ middle,
        stage.afterAll? (Exchange.call? ⟨request, answer⟩).toList =
          some middle ∧ Leads ends (next answer) middle

section

variable {α β : Type} {stage : TokenStage}
  {ends ends' : α → TokenStage → Prop} {interaction : Interaction α}

theorem Leads.mono (leads : Leads ends interaction stage)
    (weaker : ∀ result last, ends result last → ends' result last) :
    Leads ends' interaction stage := by
  induction interaction generalizing stage with
  | done result => exact weaker result stage leads
  | ask request next ih =>
      intro answer
      obtain ⟨middle, called, rest⟩ := leads answer
      exact ⟨middle, called, ih answer rest⟩

theorem Leads.bind {next : α → Interaction β}
    {ends' : β → TokenStage → Prop} (leads : Leads ends interaction stage)
    (continues : ∀ result middle, ends result middle →
      Leads ends' (next result) middle) :
    Leads ends' (interaction >>= next) stage := by
  induction interaction generalizing stage with
  | done result => exact continues result stage leads
  | ask request answered ih =>
      intro answer
      obtain ⟨middle, called, rest⟩ := leads answer
      exact ⟨middle, called, ih answer rest⟩

theorem Leads.yields {exchanges : List Exchange} {result : α}
    (leads : Leads ends interaction stage)
    (yields : interaction.Yields exchanges result) :
    ∃ last, stage.afterAll? (editorCalls exchanges) = some last ∧
      ends result last := by
  induction yields generalizing stage with
  | done result => exact ⟨stage, rfl, leads⟩
  | ask answered ih =>
      obtain ⟨middle, called, rest⟩ := leads _
      obtain ⟨last, reached, fits⟩ := ih rest
      refine ⟨last, ?_, fits⟩
      rw [editorCalls_cons, TokenStage.afterAll?_append, called]
      exact reached

/-- Whether a request does not concern styles. -/
def Request.IsPlain : Request → Prop
  | .createStyle _ | .disposeStyle _ | .applyDecorations _ _ => False
  | _ => True

theorem Request.IsLight.isPlain {request : Request}
    (light : request.IsLight) : request.IsPlain := by
  cases request <;> trivial

theorem leads_of_plain {kind : α → Prop}
    (asks : interaction.Asks Request.IsPlain kind) (stage : TokenStage) :
    Leads (fun result last => kind result ∧ last = stage) interaction
      stage := by
  induction interaction with
  | done result => exact ⟨asks, rfl⟩
  | ask request next ih =>
      intro answer
      refine ⟨stage, ?_, ih answer (asks.2 answer)⟩
      cases request <;> first | rfl | exact absurd asks.1 id

theorem leads_of_light (asks : interaction.Asks Request.IsLight fun _ => True)
    (stage : TokenStage) :
    Leads (fun _ last => last = stage) interaction stage :=
  (leads_of_plain (asks.mono (fun _ light => light.isPlain) fun _ holds => holds)
    stage).mono fun _ _ holds => holds.2

end

/-! ## Operations -/

section Operations

variable {stage : TokenStage}

theorem leads_teardown {visibility : Visibility}
    (holds : visibility.style = stage.token?) :
    Leads (fun torn last => torn.style = none ∧ last = .absent)
      visibility.teardown stage := by
  obtain ⟨style⟩ := visibility
  cases style with
  | none =>
      cases stage with
      | absent => exact ⟨rfl, rfl⟩
      | _ => contradiction
  | some token =>
      refine fun _ => ⟨.absent, ?_, rfl, rfl⟩
      simp [Exchange.call?, TokenStage.afterAll?, TokenStage.after?, ← holds]

theorem leads_restyle {visibility : Visibility}
    (holds : visibility.style = stage.token?) (settings : Settings) :
    Leads (fun token last => last = .blank token)
      (visibility.restyle settings) stage := by
  apply (leads_teardown holds).bind
  rintro - _ ⟨-, rfl⟩
  exact fun token => ⟨.blank token, rfl, rfl⟩

/-- The coordinator has the token in use. -/
def Fits (coordinator : Coordinator) (stage : TokenStage) : Prop :=
  coordinator.visibility.style = stage.token?

theorem leads_apply {visibility : Visibility}
    (holds : visibility.style = stage.token?) (shown : Option Document)
    (settings : Settings) :
    Leads (fun result last => result.1.style = last.token?)
      (visibility.apply shown settings) stage := by
  apply (leads_of_light (asks_target shown) stage).bind
  rintro (_ | document) _ rfl
  · exact holds
  apply (leads_restyle holds settings).bind
  rintro token _ rfl
  simp only []
  split
  · apply (leads_of_light (asks_log _) _).bind
    rintro - _ rfl
    exact fun outcome => ⟨.drawn token, by
      simp [Exchange.call?, TokenStage.afterAll?, TokenStage.after?], rfl⟩
  · apply (leads_of_light (asks_log _) _).bind
    rintro - _ rfl
    rfl

variable {coordinator : Coordinator}

theorem leads_hide (fits : Fits coordinator stage) :
    Leads (fun result last => Fits result.1 last) coordinator.hide stage := by
  apply (leads_of_light asks_settings stage).bind
  rintro settings _ rfl shown
  refine ⟨_, rfl, ?_⟩
  exact (leads_apply fits shown settings).bind fun _ _ holds => holds

theorem leads_hideAndFold (fits : Fits coordinator stage) :
    Leads (fun result last => Fits result.1 last) coordinator.hideAndFold
      stage := by
  apply (leads_hide fits).bind
  rintro ⟨coordinator, failure | _⟩ middle fits
  · exact fits
  apply (leads_of_light asks_settings middle).bind
  rintro settings _ rfl shown
  refine ⟨_, rfl, ?_⟩
  apply (leads_of_light (asks_foldBlocks shown settings) _).bind
  rintro folded _ rfl
  exact fits

theorem leads_showAndUnfold (fits : Fits coordinator stage) :
    Leads (fun result last => Fits result.1 last) coordinator.showAndUnfold
      stage := by
  intro shown
  refine ⟨_, rfl, ?_⟩
  apply (leads_of_light (asks_target shown) stage).bind
  rintro (_ | document) _ rfl
  · exact fits
  apply (leads_of_light asks_settings _).bind
  rintro settings _ rfl
  apply (leads_restyle fits settings).bind
  rintro token _ rfl
  simp only []
  split
  · exact fun _ => ⟨_, rfl, rfl⟩
  · exact rfl

theorem plain_scheduleHide (coordinator : Coordinator) :
    coordinator.scheduleHide.Asks Request.IsPlain
      fun changed => changed.visibility = coordinator.visibility :=
  asks_scheduleHide (fun _ => trivial) (fun _ => trivial)
    fun _ _ => trivial

theorem leads_deactivate (fits : Fits coordinator stage) :
    Leads (fun result last => Fits result last ∧ last = .absent)
      coordinator.deactivate stage := by
  have cancelling : coordinator.debouncer.cancel.Asks Request.IsPlain
      fun _ => True := asks_cancel fun _ _ => trivial
  apply (leads_of_plain cancelling stage).bind
  rintro debouncer _ ⟨-, rfl⟩
  apply (leads_teardown fits).bind
  rintro visibility _ ⟨torn, rfl⟩
  have closing (_ : PUnit) : Leads
      (fun result last => Fits result last ∧ last = .absent)
      (do
        Coordinator.unlisten coordinator.listeners
        return { coordinator with debouncer, visibility, listeners := [] })
      .absent := by
    have unlistening : (Coordinator.unlisten coordinator.listeners).Asks
        Request.IsPlain fun _ => True := asks_unlisten (fun _ => trivial) _
    apply (leads_of_plain unlistening _).bind
    rintro - _ ⟨-, rfl⟩
    exact ⟨torn, rfl⟩
  change Leads _ (if coordinator.listeners.isEmpty = true then _ else _) _
  split
  · exact closing ⟨⟩
  · apply (leads_of_light (asks_log _) _).bind
    rintro logged _ rfl
    exact closing logged

theorem leads_handle (fits : Fits coordinator stage) (message : Message) :
    Leads (fun result last => Fits result.1 last)
      (coordinator.handle message) stage := by
  apply (leads_of_light (asks_log _) stage).bind
  rintro - _ rfl
  cases message with
  | activeEditorChanged => exact leads_hideAndFold fits
  | documentChanged =>
      apply (leads_of_plain (plain_scheduleHide coordinator) _).bind
      rintro changed _ ⟨same, rfl⟩
      exact (congrArg Visibility.style same).trans fits
  | command given =>
      cases given with
      | hideSignatures => exact leads_hideAndFold fits
      | showSignatures => exact leads_showAndUnfold fits
  | debounceElapsed => exact leads_hide fits
  | shutdown =>
      exact (leads_deactivate fits).bind fun _ _ holds => holds.1

theorem leads_carryOut (fits : Fits coordinator stage)
    (operation : Operation) :
    Leads Fits (operation.carryOut coordinator) stage := by
  cases operation with
  | handle message =>
      exact (leads_handle fits message).bind fun _ _ holds => holds
  | hideAndFold => exact (leads_hideAndFold fits).bind fun _ _ holds => holds
  | showAndUnfold =>
      exact (leads_showAndUnfold fits).bind fun _ _ holds => holds
  | scheduleHide =>
      refine (leads_of_plain (plain_scheduleHide coordinator) _).mono ?_
      rintro changed _ ⟨same, rfl⟩
      exact (congrArg Visibility.style same).trans fits
  | deactivate =>
      exact (leads_deactivate fits).mono fun _ _ holds => holds.1

/-- A failed activation leaves no token, and another one leaves the
coordinator with the token in use. -/
theorem leads_conclude (fits : Fits coordinator stage) (outcome : Outcome) :
    Leads (fun result last => match result with
        | .error _ => last = .absent
        | .ok coordinator => Fits coordinator last)
      (coordinator.conclude outcome) stage := by
  cases outcome with
  | error failure => exact (leads_deactivate fits).bind fun _ _ holds => holds.2
  | ok _ =>
      apply (leads_of_light (asks_log _) stage).bind
      rintro - _ rfl
      exact fits

theorem leads_activate (channel : ChannelId) :
    Leads (fun result last => match result with
        | .error _ => last = .absent
        | .ok coordinator => Fits coordinator last)
      (Coordinator.activate channel) .absent := by
  have listening : (Coordinator.listenTo channel Coordinator.topics).Asks
      Request.IsPlain fun _ => True := asks_listenTo fun _ _ => trivial
  apply (leads_of_plain listening _).bind
  rintro listeners _ ⟨-, rfl⟩ shown
  refine ⟨_, rfl, ?_⟩
  have fits : Fits { channel, listeners } .absent := rfl
  cases shown with
  | none => exact leads_conclude fits (.ok ())
  | some document =>
      exact (leads_hideAndFold fits).bind fun result last fits =>
        leads_conclude fits result.2

end Operations

/-! ## Lifetimes -/

/-- The calls of a lifetime are in order, and the token in use at their end is
that of the coordinator. -/
theorem Lifetime.exists_stage {exchanges : List Exchange}
    {holder : Option Coordinator} (lifetime : Lifetime exchanges holder) :
    ∃ stage, TokenStage.absent.afterAll? (editorCalls exchanges) = some stage ∧
      (match holder with
        | none => stage = .absent
        | some coordinator => Fits coordinator stage) := by
  induction lifetime with
  | failed activated | activated activated =>
      exact (leads_activate _).yields activated
  | operated _ operation operated ih =>
      obtain ⟨middle, reached, fits⟩ := ih
      obtain ⟨last, continued, fits'⟩ :=
        (leads_carryOut fits operation).yields operated
      refine ⟨last, ?_, fits'⟩
      rw [editorCalls_append, TokenStage.afterAll?_append, reached]
      exact continued
  | dropped _ deactivated ih =>
      obtain ⟨middle, reached, fits⟩ := ih
      obtain ⟨last, continued, -, absent⟩ :=
        (leads_deactivate fits).yields deactivated
      refine ⟨last, ?_, absent⟩
      rw [editorCalls_append, TokenStage.afterAll?_append, reached]
      exact continued

/-- If every token that an editor creates is new, the tokens of a coordinator
are in order at every point of its lifetime, the live token is the one that it
holds, and once it is let go of, or its activation has failed, every token has
been disposed of exactly once. -/
theorem Lifetime.tokens_accounted {exchanges : List Exchange}
    {holder : Option Coordinator} (lifetime : Lifetime exchanges holder)
    (fresh : (createdTokens (editorCalls exchanges)).Nodup) :
    TokensInOrder (editorCalls exchanges) ∧
      liveTokens (editorCalls exchanges) =
        (holder.bind fun coordinator =>
          coordinator.visibility.style).toList ∧
      (holder = none → ∀ token ∈ createdTokens (editorCalls exchanges),
        (disposedTokens (editorCalls exchanges)).count token = 1) := by
  obtain ⟨stage, follows, holds⟩ := lifetime.exists_stage
  have accounts := TokenStage.accounts_of_afterAll? follows fresh
  refine ⟨TokenStage.inOrder_of_afterAll? follows fresh, ?_, ?_⟩
  · rw [accounts.live]
    cases holder with
    | none => rw [holds]; rfl
    | some coordinator => exact congrArg Option.toList holds.symm
  · rintro rfl token created
    rw [holds] at accounts
    exact accounts.count_disposed created

/-! ## Lifetimes in a workspace -/

/-- The calls of a coordinator since its activation are all that a workspace
has recorded. -/
def LivesIn (holder : Option Coordinator) (workspace : Workspace) : Prop :=
  ∃ exchanges, Lifetime exchanges holder ∧
    workspace.editor.calls = editorCalls exchanges

section

open Workspace (Carried)

-- What passes around the coordinator makes no calls.
variable {passes : Workspace → Workspace → Prop}
  (silent : ∀ {before after : Workspace}, passes before after →
    after.editor.calls = before.editor.calls)
  {workspace last : Workspace} {coordinator changed : Coordinator}

include silent

theorem livesIn_activated {channel : ChannelId}
    (blank : workspace.editor.calls = [])
    (carried : Carried passes (.ok coordinator) last
      (Coordinator.activate channel) workspace) :
    LivesIn (some coordinator) last := by
  obtain ⟨exchanges, activated, recorded⟩ := carried.exists_yields silent
  rw [blank] at recorded
  exact ⟨exchanges, .activated activated, recorded⟩

theorem LivesIn.operated (lives : LivesIn (some coordinator) workspace)
    (operation : Operation)
    (carried : Carried passes changed last (operation.carryOut coordinator)
      workspace) : LivesIn (some changed) last := by
  obtain ⟨earlier, lifetime, recorded⟩ := lives
  obtain ⟨later, operated, continued⟩ := carried.exists_yields silent
  refine ⟨earlier ++ later, lifetime.operated operation operated, ?_⟩
  rw [continued, recorded, editorCalls_append]

theorem LivesIn.dropped (lives : LivesIn (some coordinator) workspace)
    (carried : Carried passes changed last coordinator.deactivate workspace) :
    LivesIn none last := by
  obtain ⟨earlier, lifetime, recorded⟩ := lives
  obtain ⟨later, deactivated, continued⟩ := carried.exists_yields silent
  refine ⟨earlier ++ later, lifetime.dropped deactivated, ?_⟩
  rw [continued, recorded, editorCalls_append]

end

/-- A document is drawn twice, each time with a token of its own, before the
coordinator is let go of. -/
theorem Lifetime.tokens_accounted_redrawn : ∃ exchanges,
    Lifetime exchanges none ∧
      createdTokens (editorCalls exchanges) = [1, 2] ∧
      drawnTokens (editorCalls exchanges) = [1, 2] ∧
      TokensInOrder (editorCalls exchanges) ∧
      liveTokens (editorCalls exchanges) = [] ∧
      ∀ token ∈ createdTokens (editorCalls exchanges),
        (disposedTokens (editorCalls exchanges)).count token = 1 := by
  let opened : Workspace :=
    { editor := { document := some ⟨1, "ruby", "sig \x7b void \x7d", []⟩ }
      channels := [{}] }
  have silent {before after : Workspace} (same : before = after) :
      after.editor.calls = before.editor.calls := by rw [same]
  have activated : opened.perform (Coordinator.activate 0) =
    .finished (.ok _) _ := rfl
  have lives := livesIn_activated silent rfl (.finished activated)
  have redrawn := lives.operated silent (.handle .debounceElapsed)
    (.finished rfl)
  obtain ⟨exchanges, lifetime, calls⟩ := redrawn.dropped silent
    (.finished rfl)
  have created : createdTokens (editorCalls exchanges) = [1, 2] := by
    rw [← calls]
    decide +kernel
  have drawn : drawnTokens (editorCalls exchanges) = [1, 2] := by
    rw [← calls]
    decide +kernel
  obtain ⟨inOrder, live, disposed⟩ :=
    lifetime.tokens_accounted (by rw [created]; decide)
  exact ⟨exchanges, lifetime, created, drawn, inOrder, live, disposed rfl⟩

end SignatureVeil
