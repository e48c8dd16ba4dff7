import SignatureVeil.Proofs.Coordinator.Restyling
import SignatureVeil.Proofs.Coordinator.Selections

/-!
# Watching an operation

An observer follows the exchanges of one operation.  It keeps in mind the
document and the settings that were read last, and how far the sequence of
folding has come: the blocks are selected, everything is unfolded, the blocks
are folded, and the selection of the user is put back.  Whatever an operation
is answered, each of its requests is one that the observer expects.
-/

namespace SignatureVeil

open Interaction

/-- What has been read and given back so far. -/
structure Reading where
  /-- The document that was read last, if it is in the target language. -/
  target : Option Document := none
  /-- Whether hiding is enabled by the settings that were read last. -/
  enabled : Bool := false
  /-- Whether a style was given back without a target. -/
  clears : Bool := false

/-- How far the sequence of folding has come. -/
inductive Phase where
  /-- It has not begun, has ended or was broken off. -/
  | apart
  | selected
  | unfolded
  | folded
  deriving DecidableEq, Repr

/-- What an observer keeps in mind. -/
structure Watch where
  reading : Reading := {}
  phase : Phase := .apart

/-- Whether an observer takes no notice of a request. -/
def Request.IsUnnoticed : Request → Prop
  | .listen _ _ | .unlisten _ | .startTimer _ _ | .cancelTimer _ | .log _ =>
      True
  | _ => False

namespace Watch

/-- The exchanges that an observer expects, and what it then keeps in mind. -/
inductive Sees : Watch → Exchange → Watch → Prop where
  | document (reading : Reading) (shown : Option Document) :
      Sees ⟨reading, .apart⟩ ⟨.document, shown⟩
        ⟨{ reading with target := shown.filter Document.isTarget }, .apart⟩
  | settings (reading : Reading) (answer : Json) :
      Sees ⟨reading, .apart⟩ ⟨.configuration configurationSection, answer⟩
        ⟨{ reading with enabled := (Settings.ofSection answer).1.enabled },
          .apart⟩
  | unnoticed {reading : Reading} {exchange : Exchange}
      (unnoticed : exchange.request.IsUnnoticed) :
      Sees ⟨reading, .apart⟩ exchange ⟨reading, .apart⟩
  | create {reading : Reading} {document : Document}
      (target : reading.target = some document) (style : DecorationStyle)
      (token : StyleToken) :
      Sees ⟨reading, .apart⟩ ⟨.createStyle style, token⟩ ⟨reading, .apart⟩
  | dispose (reading : Reading) (token : StyleToken) :
      Sees ⟨reading, .apart⟩ ⟨.disposeStyle token, ()⟩
        ⟨{ reading with clears := reading.clears || reading.target.isNone },
          .apart⟩
  | draw {reading : Reading} {document : Document}
      (target : reading.target = some document)
      (enabled : reading.enabled = true) (token : StyleToken)
      (ranges : List Range) (outcome : Outcome) :
      Sees ⟨reading, .apart⟩ ⟨.applyDecorations token ranges, outcome⟩
        ⟨reading, .apart⟩
  | reveal {reading : Reading} {document : Document}
      (target : reading.target = some document)
      (enabled : reading.enabled = true) (outcome : Outcome) :
      Sees ⟨reading, .apart⟩ ⟨.execute .unfoldAll, outcome⟩
        ⟨reading, .apart⟩
  | select {reading : Reading} {document : Document}
      (target : reading.target = some document)
      (enabled : reading.enabled = true)
      (blocks : document.foldTargets ≠ []) :
      Sees ⟨reading, .apart⟩ ⟨.setSelections document.foldTargets, ()⟩
        ⟨reading, .selected⟩
  | unfold {reading : Reading} {document : Document}
      (target : reading.target = some document)
      (enabled : reading.enabled = true) :
      Sees ⟨reading, .selected⟩ ⟨.execute .unfoldAll, Except.ok ()⟩
        ⟨reading, .unfolded⟩
  | unfoldFails {reading : Reading} {document : Document}
      (target : reading.target = some document)
      (enabled : reading.enabled = true) (failure : Failure) :
      Sees ⟨reading, .selected⟩ ⟨.execute .unfoldAll, Except.error failure⟩
        ⟨reading, .apart⟩
  | fold {reading : Reading} {document : Document}
      (target : reading.target = some document)
      (enabled : reading.enabled = true) :
      Sees ⟨reading, .unfolded⟩ ⟨.execute .fold, Except.ok ()⟩
        ⟨reading, .folded⟩
  | foldFails {reading : Reading} {document : Document}
      (target : reading.target = some document)
      (enabled : reading.enabled = true) (failure : Failure) :
      Sees ⟨reading, .unfolded⟩ ⟨.execute .fold, Except.error failure⟩
        ⟨reading, .apart⟩
  | restore {reading : Reading} {document : Document}
      (target : reading.target = some document)
      (enabled : reading.enabled = true) :
      Sees ⟨reading, .folded⟩
        ⟨.setSelections [document.primarySelection], ()⟩ ⟨reading, .apart⟩

inductive Follows : Watch → List Exchange → Watch → Prop where
  | nil (watch : Watch) : Follows watch [] watch
  | cons {first middle last : Watch} {exchange : Exchange}
      {rest : List Exchange} (sees : first.Sees exchange middle)
      (follows : middle.Follows rest last) :
      Follows first (exchange :: rest) last

end Watch

/-- Folding is not under way, and no style has been given back without a
target. -/
inductive Reading.Rests (before : Reading) : Watch → Prop where
  | intro (after : Reading) (clears : after.clears = before.clears) :
      Rests before ⟨after, .apart⟩

/-! ## Interactions that are as expected -/

/-- Whatever it is answered, an interaction makes none but expected requests,
and its result fits what the observer then keeps in mind. -/
def Obeys {α : Type} (ends : α → Watch → Prop) :
    Interaction α → Watch → Prop
  | .done result, watch => ends result watch
  | .ask request next, watch =>
      ∀ answer, ∃ middle, watch.Sees ⟨request, answer⟩ middle ∧
        Obeys ends (next answer) middle

section

variable {α β : Type} {watch : Watch} {ends ends' : α → Watch → Prop}
  {interaction : Interaction α}

theorem Obeys.mono (obeys : Obeys ends interaction watch)
    (weaker : ∀ result last, ends result last → ends' result last) :
    Obeys ends' interaction watch := by
  induction interaction generalizing watch with
  | done result => exact weaker result watch obeys
  | ask request next ih =>
      intro answer
      obtain ⟨middle, sees, rest⟩ := obeys answer
      exact ⟨middle, sees, ih answer rest⟩

theorem Obeys.bind {next : α → Interaction β} {ends' : β → Watch → Prop}
    (obeys : Obeys ends interaction watch)
    (continues : ∀ result middle, ends result middle →
      Obeys ends' (next result) middle) :
    Obeys ends' (interaction >>= next) watch := by
  induction interaction generalizing watch with
  | done result => exact continues result watch obeys
  | ask request answered ih =>
      intro answer
      obtain ⟨middle, sees, rest⟩ := obeys answer
      exact ⟨middle, sees, ih answer rest⟩

theorem Obeys.yields {exchanges : List Exchange} {result : α}
    (obeys : Obeys ends interaction watch)
    (yields : interaction.Yields exchanges result) :
    ∃ last, watch.Follows exchanges last ∧ ends result last := by
  induction yields generalizing watch with
  | done result => exact ⟨watch, .nil watch, obeys⟩
  | ask answered ih =>
      obtain ⟨middle, sees, rest⟩ := obeys _
      obtain ⟨last, follows, fits⟩ := ih rest
      exact ⟨last, .cons sees follows, fits⟩

theorem obeys_of_unnoticed {kind : α → Prop} (reading : Reading)
    (asks : interaction.Asks Request.IsUnnoticed kind) :
    Obeys (fun _ last => last = ⟨reading, .apart⟩) interaction
      ⟨reading, .apart⟩ := by
  induction interaction with
  | done result => exact rfl
  | ask request next ih =>
      exact fun answer => ⟨_, .unnoticed asks.1, ih answer (asks.2 answer)⟩

end

/-! ## Operations -/

section Operations

variable {reading : Reading} {settings : Settings} {shown : Option Document}
  {document : Document}

theorem obeys_log (reading : Reading) (entry : LogRecord) :
    Obeys (fun _ last => last = ⟨reading, .apart⟩) (Interaction.log entry)
      ⟨reading, .apart⟩ :=
  fun _ => ⟨_, .unnoticed trivial, rfl⟩

theorem obeys_settings (reading : Reading) :
    Obeys (fun settings last => ∃ after, last = ⟨after, .apart⟩ ∧
        after.clears = reading.clears ∧ after.target = reading.target ∧
        after.enabled = settings.enabled)
      Interaction.settings ⟨reading, .apart⟩ := by
  refine fun answer => ⟨_, .settings reading answer, ?_⟩
  change Obeys _ (if (Settings.ofSection answer).2 then _ else _) _
  split
  · exact fun _ => ⟨_, .unnoticed trivial, _, rfl, rfl, rfl, rfl⟩
  · exact ⟨_, rfl, rfl, rfl, rfl⟩

/-- Whoever reads the settings and then the document goes on with both in the
mind of the observer. -/
theorem obeys_reading {α : Type} {ends : α → Watch → Prop}
    {next : Settings → Option Document → Interaction α}
    (continues : ∀ settings shown after, after.clears = reading.clears →
      after.target = shown.filter Document.isTarget →
      after.enabled = settings.enabled →
      Obeys ends (next settings shown) ⟨after, .apart⟩) :
    Obeys ends
      (do
        let settings ← Interaction.settings
        let shown ← Interaction.request .document
        next settings shown)
      ⟨reading, .apart⟩ := by
  apply (obeys_settings reading).bind
  rintro settings _ ⟨after, rfl, clears, -, enabled⟩ shown
  exact ⟨_, .document after shown,
    continues settings shown _ clears rfl enabled⟩

theorem obeys_target
    (target : reading.target = shown.filter Document.isTarget) :
    Obeys (fun found last =>
        reading.target = found ∧ last = ⟨reading, .apart⟩)
      (Interaction.target shown) ⟨reading, .apart⟩ := by
  unfold Interaction.target
  rw [target]
  cases shown with
  | none => exact fun _ => ⟨_, .unnoticed trivial, rfl, rfl⟩
  | some document =>
      rw [Option.filter_some]
      simp only []
      split
      · exact ⟨rfl, rfl⟩
      · exact fun _ => ⟨_, .unnoticed trivial, rfl, rfl⟩

theorem obeys_teardown (reading : Reading) (visibility : Visibility) :
    Obeys (fun _ last => ∃ after, last = ⟨after, .apart⟩ ∧
        (reading.target ≠ none → after = reading))
      visibility.teardown ⟨reading, .apart⟩ := by
  unfold Visibility.teardown
  split
  · refine fun _ => ⟨_, .dispose reading _, _, rfl, fun target => ?_⟩
    rw [Option.isNone_eq_false_iff.mpr (Option.isSome_iff_ne_none.mpr target),
      Bool.or_false]
  · exact ⟨reading, rfl, fun _ => rfl⟩

theorem obeys_restyle (target : reading.target = some document)
    (visibility : Visibility) (settings : Settings) :
    Obeys (fun _ last => last = ⟨reading, .apart⟩)
      (visibility.restyle settings) ⟨reading, .apart⟩ := by
  apply (obeys_teardown reading visibility).bind
  rintro - _ ⟨after, rfl, same⟩
  obtain rfl := same (by simp [target])
  exact fun token => ⟨_, .create target _ token, rfl⟩

theorem obeys_apply (visibility : Visibility)
    (target : reading.target = shown.filter Document.isTarget)
    (enabled : reading.enabled = settings.enabled) :
    Obeys (fun _ last => last = ⟨reading, .apart⟩)
      (visibility.apply shown settings) ⟨reading, .apart⟩ := by
  apply (obeys_target target).bind
  rintro (_ | document) _ ⟨found, rfl⟩
  · exact rfl
  apply (obeys_restyle found visibility settings).bind
  rintro token _ rfl
  simp only []
  split
  · rename_i isEnabled
    apply (obeys_log reading _).bind
    rintro - _ rfl outcome
    exact ⟨_, .draw found (enabled.trans isEnabled) token _ outcome, rfl⟩
  · exact (obeys_log reading _).bind fun _ _ same => same

/-- The sequence of folding, from the selection of the blocks on. -/
theorem obeys_foldTargeted (target : reading.target = some document)
    (enabled : reading.enabled = true) (blocks : document.foldTargets ≠ []) :
    Obeys (fun _ last => last = ⟨reading, .apart⟩) (foldTargeted document)
      ⟨reading, .apart⟩ := by
  apply (obeys_log reading _).bind
  rintro - _ rfl -
  refine ⟨_, .select target enabled blocks, fun unfolded => ?_⟩
  cases unfolded with
  | error failure => exact ⟨_, .unfoldFails target enabled failure, rfl⟩
  | ok _ =>
      refine ⟨_, .unfold target enabled, fun folded => ?_⟩
      cases folded with
      | error failure => exact ⟨_, .foldFails target enabled failure, rfl⟩
      | ok _ =>
          exact ⟨_, .fold target enabled, fun _ =>
            ⟨_, .restore target enabled, rfl⟩⟩

theorem obeys_foldBlocks
    (target : reading.target = shown.filter Document.isTarget)
    (enabled : reading.enabled = settings.enabled) :
    Obeys (fun _ last => last = ⟨reading, .apart⟩) (foldBlocks shown settings)
      ⟨reading, .apart⟩ := by
  apply (obeys_target target).bind
  rintro (_ | document) _ ⟨found, rfl⟩
  · exact rfl
  simp only []
  split
  · exact rfl
  split
  · exact (obeys_log reading _).bind fun _ _ same => same
  · rename_i isEnabled blocks
    exact obeys_foldTargeted found (enabled.trans (by simpa using isEnabled))
      (by simpa using blocks)

variable {coordinator : Coordinator}

theorem obeys_hide (reading : Reading) :
    Obeys (fun _ last => reading.Rests last) coordinator.hide
      ⟨reading, .apart⟩ := by
  apply obeys_reading
  intro settings shown after clears target enabled
  apply (obeys_apply coordinator.visibility target enabled).bind
  rintro result _ rfl
  exact .intro after clears

theorem obeys_hideAndFold (reading : Reading) :
    Obeys (fun _ last => reading.Rests last) coordinator.hideAndFold
      ⟨reading, .apart⟩ := by
  apply (obeys_hide reading).bind
  rintro ⟨coordinator, failure | _⟩ _ ⟨halfway, same⟩
  · exact .intro halfway same
  apply obeys_reading
  intro settings shown after clears target enabled
  apply (obeys_foldBlocks target enabled).bind
  rintro folded _ rfl
  exact .intro after (clears.trans same)

theorem obeys_showAndUnfold (reading : Reading) :
    Obeys (fun _ last => reading.Rests last) coordinator.showAndUnfold
      ⟨reading, .apart⟩ := by
  refine fun shown => ⟨_, .document reading shown, ?_⟩
  apply (obeys_target rfl).bind
  rintro (_ | document) _ ⟨found, rfl⟩
  · exact .intro _ rfl
  apply (obeys_settings _).bind
  rintro settings _ ⟨after, rfl, clears, target, enabled⟩
  have target := target.trans found
  apply (obeys_restyle target coordinator.visibility settings).bind
  rintro token _ rfl
  simp only []
  split
  · rename_i isEnabled
    exact fun outcome => ⟨_, .reveal target (enabled.trans isEnabled) outcome,
      .intro after clears⟩
  · exact .intro after clears

theorem obeys_scheduleHide (reading : Reading) :
    Obeys (fun _ last => reading.Rests last) coordinator.scheduleHide
      ⟨reading, .apart⟩ := by
  have scheduling : (coordinator.debouncer.schedule
      ⟨.debounceElapsed, coordinator.channel⟩).Asks Request.IsUnnoticed
        fun _ => True := by
    apply (asks_cancel fun _ _ => trivial).bind
    exact fun _ _ => ⟨trivial, fun _ => ⟨trivial, fun _ => trivial⟩⟩
  apply (obeys_of_unnoticed reading scheduling).bind
  rintro - _ rfl
  exact .intro reading rfl

theorem obeys_deactivate (reading : Reading) :
    Obeys (fun _ last => last.phase = .apart) coordinator.deactivate
      ⟨reading, .apart⟩ := by
  have cancelling : coordinator.debouncer.cancel.Asks Request.IsUnnoticed
      fun _ => True := asks_cancel fun _ _ => trivial
  apply (obeys_of_unnoticed reading cancelling).bind
  rintro debouncer _ rfl
  apply (obeys_teardown reading coordinator.visibility).bind
  rintro visibility _ ⟨after, rfl, -⟩
  have unlistening : (Coordinator.unlisten coordinator.listeners).Asks
      Request.IsUnnoticed fun _ => True := asks_unlisten (fun _ => trivial) _
  have closing : Asks Request.IsUnnoticed (fun _ => True)
      (do
        unless coordinator.listeners.isEmpty do
          Interaction.log .deactivated
        Coordinator.unlisten coordinator.listeners
        return { coordinator with debouncer, visibility, listeners := [] }) := by
    change Asks _ _ (if coordinator.listeners.isEmpty = true then _ else _)
    split
    · exact unlistening.bind fun _ _ => trivial
    · exact ⟨trivial, fun _ => unlistening.bind fun _ _ => trivial⟩
  apply (obeys_of_unnoticed after closing).mono
  rintro - _ rfl
  rfl

/-- When an operation has ended, folding is not under way, and unless it was to
finish it has given back no style without a target. -/
def Purpose.Ends (purpose : Purpose) (before : Reading) (last : Watch) :
    Prop :=
  last.phase = .apart ∧
    (purpose ≠ .finish → last.reading.clears = before.clears)

theorem Reading.Rests.ends {last : Watch} (rests : reading.Rests last)
    (purpose : Purpose) : purpose.Ends reading last := by
  cases rests with
  | intro after clears => exact ⟨rfl, fun _ => clears⟩

theorem obeys_finish (reading : Reading) :
    Obeys (fun _ last => Purpose.finish.Ends reading last)
      coordinator.deactivate ⟨reading, .apart⟩ :=
  (obeys_deactivate reading).mono
    fun _ _ apart => ⟨apart, fun unfinished => absurd rfl unfinished⟩

theorem obeys_handle (message : Message) (reading : Reading) :
    Obeys (fun _ last => message.purpose.Ends reading last)
      (coordinator.handle message) ⟨reading, .apart⟩ := by
  apply (obeys_log reading _).bind
  rintro - _ rfl
  cases message with
  | activeEditorChanged =>
      exact (obeys_hideAndFold reading).mono fun _ _ rests => rests.ends _
  | documentChanged =>
      exact (obeys_scheduleHide reading).bind fun _ _ rests => rests.ends _
  | command given =>
      cases given with
      | hideSignatures =>
          exact (obeys_hideAndFold reading).mono fun _ _ rests => rests.ends _
      | showSignatures =>
          exact (obeys_showAndUnfold reading).mono
            fun _ _ rests => rests.ends _
  | debounceElapsed =>
      exact (obeys_hide reading).mono fun _ _ rests => rests.ends _
  | shutdown => exact (obeys_finish reading).bind fun _ _ ends => ends

theorem obeys_carryOut (operation : Operation) (reading : Reading) :
    Obeys (fun _ last => operation.purpose.Ends reading last)
      (operation.carryOut coordinator) ⟨reading, .apart⟩ := by
  cases operation with
  | handle message =>
      exact (obeys_handle message reading).bind fun _ _ ends => ends
  | hideAndFold =>
      exact (obeys_hideAndFold reading).bind fun _ _ rests => rests.ends _
  | showAndUnfold =>
      exact (obeys_showAndUnfold reading).bind fun _ _ rests => rests.ends _
  | scheduleHide =>
      exact (obeys_scheduleHide reading).mono fun _ _ rests => rests.ends _
  | deactivate => exact obeys_finish reading

theorem obeys_serve (message : Message) (reading : Reading) :
    Obeys (fun _ last => message.purpose.Ends reading last)
      (coordinator.serve message) ⟨reading, .apart⟩ := by
  unfold Coordinator.serve
  split
  · rename_i ends
    subst ends
    exact (obeys_finish reading).bind fun _ _ ends => ends
  · apply (obeys_handle message reading).bind
    rintro ⟨changed, failure | _⟩ ⟨after, phase⟩ ⟨rfl, clears⟩
    · apply (obeys_log after _).bind
      rintro - _ rfl
      exact ⟨rfl, clears⟩
    · exact ⟨rfl, clears⟩

/-- Only an activation that fails gives back a style. -/
theorem obeys_activate (channel : ChannelId) (reading : Reading) :
    Obeys (fun result last => match result with
        | .error _ => Purpose.finish.Ends reading last
        | .ok _ => Purpose.hide.Ends reading last)
      (Coordinator.activate channel) ⟨reading, .apart⟩ := by
  have listening : (Coordinator.listenTo channel Coordinator.topics).Asks
      Request.IsUnnoticed fun _ => True := asks_listenTo fun _ _ => trivial
  have concluding (coordinator : Coordinator) (outcome : Outcome)
      {halfway : Watch} (rests : reading.Rests halfway) :
      Obeys (fun result last => match result with
          | .error _ => Purpose.finish.Ends reading last
          | .ok _ => Purpose.hide.Ends reading last)
        (coordinator.conclude outcome) halfway := by
    obtain ⟨after, clears⟩ := rests
    cases outcome with
    | error failure =>
        exact (obeys_deactivate after).bind fun _ _ apart =>
          ⟨apart, fun unfinished => absurd rfl unfinished⟩
    | ok _ =>
        apply (obeys_log after _).bind
        rintro - _ rfl
        exact ⟨rfl, fun _ => clears⟩
  apply (obeys_of_unnoticed reading listening).bind
  rintro listeners _ rfl shown
  refine ⟨_, .document reading shown, ?_⟩
  cases shown with
  | none =>
      have rests : reading.Rests ⟨{ reading with target := none }, .apart⟩ :=
        .intro _ rfl
      exact concluding { channel, listeners } (.ok ()) rests
  | some document =>
      apply (obeys_hideAndFold _).bind
      rintro ⟨coordinator, outcome⟩ _ ⟨after, clears⟩
      exact concluding coordinator outcome (.intro after clears)

end Operations

end SignatureVeil
