import SignatureVeil.Coordinator.Basic
import SignatureVeil.Proofs.Editor.Exchanges

/-!
# What a coordinator asks for

To hide, to show and to fold concerns neither the listeners nor the timer of a
coordinator.  Those are touched when it is activated or deactivated, and the
timer also when an edit is handled.
-/

namespace SignatureVeil

open Interaction

/-! ## Taking and giving back -/

section

variable {allowed : Request → Prop}

theorem asks_unlisten (mayUnlisten : ∀ listener, allowed (.unlisten listener))
    (listeners : List ListenerId) :
    (Coordinator.unlisten listeners).Asks allowed fun _ => True := by
  induction listeners with
  | nil => exact trivial
  | cons listener rest ih => exact ⟨mayUnlisten listener, fun _ => ih⟩

theorem asks_listenTo {channel : ChannelId} {topics : List (Topic × Message)}
    (mayListen : ∀ pair ∈ topics, allowed (.listen pair.1 ⟨pair.2, channel⟩)) :
    (Coordinator.listenTo channel topics).Asks allowed fun _ => True := by
  induction topics with
  | nil => exact trivial
  | cons pair rest ih =>
      obtain ⟨first, later⟩ := List.forall_mem_cons.mp mayListen
      exact ⟨first, fun _ => (ih later).bind fun _ _ => trivial⟩

theorem asks_cancel {debouncer : Debouncer}
    (mayCancel : ∀ timer, debouncer.timer = some timer →
      allowed (.cancelTimer timer)) :
    debouncer.cancel.Asks allowed fun _ => True := by
  unfold Debouncer.cancel
  split
  · rename_i timer own
    exact ⟨mayCancel timer own, fun _ => trivial⟩
  · exact trivial

theorem asks_teardown {visibility : Visibility}
    (mayDispose : ∀ token, allowed (.disposeStyle token)) :
    visibility.teardown.Asks allowed fun _ => True := by
  unfold Visibility.teardown
  split
  · exact ⟨mayDispose _, fun _ => trivial⟩
  · exact trivial

/-- A coordinator is deactivated without waiting for a command. -/
theorem asks_deactivate {coordinator : Coordinator}
    (mayCancel : ∀ timer, coordinator.debouncer.timer = some timer →
      allowed (.cancelTimer timer))
    (mayDispose : ∀ token, allowed (.disposeStyle token))
    (mayLog : allowed (.log .deactivated))
    (mayUnlisten : ∀ listener, allowed (.unlisten listener)) :
    coordinator.deactivate.Asks allowed fun _ => True := by
  have unlistening := asks_unlisten mayUnlisten coordinator.listeners
  apply (asks_cancel mayCancel).bind
  intro debouncer _
  apply (asks_teardown mayDispose).bind
  intro visibility _
  change Asks _ _ (if coordinator.listeners.isEmpty = true then _ else _)
  split
  · exact unlistening.bind fun _ _ => trivial
  · exact ⟨mayLog, fun _ => unlistening.bind fun _ _ => trivial⟩

theorem asks_scheduleHide {coordinator : Coordinator}
    (mayCancel : ∀ timer, allowed (.cancelTimer timer))
    (mayLog : ∀ entry, allowed (.log entry))
    (mayStart : ∀ delay sink, allowed (.startTimer delay sink)) :
    coordinator.scheduleHide.Asks allowed
      fun changed => changed.visibility = coordinator.visibility := by
  have scheduling : (coordinator.debouncer.schedule
      ⟨.debounceElapsed, coordinator.channel⟩).Asks allowed
        fun _ => True := by
    apply (asks_cancel fun timer _ => mayCancel timer).bind
    exact fun _ _ => ⟨mayLog _, fun _ => ⟨mayStart _ _, fun _ => trivial⟩⟩
  exact scheduling.bind fun _ _ => rfl

end

theorem prompt_deactivate (coordinator : Coordinator) :
    coordinator.deactivate.Asks Request.IsPrompt fun _ => True := by
  apply asks_deactivate <;> simp [Request.IsPrompt]

/-! ## Drawing and folding -/

/-- A coordinator goes on with the same channel, timer and listeners. -/
structure Coordinator.Continues (before after : Coordinator) : Prop where
  channel : after.channel = before.channel
  debouncer : after.debouncer = before.debouncer
  listeners : after.listeners = before.listeners

theorem asks_of_light {α : Type} {interaction : Interaction α}
    (asks : interaction.Asks Request.IsLight fun _ => True) :
    interaction.Asks Request.IsVisual fun _ => True :=
  asks.mono (fun _ light => light.isVisual) fun _ holds => holds

/-- Whether a request serves to draw.  Selections and commands do not. -/
def Request.IsDrawing : Request → Prop
  | .document | .configuration _ | .createStyle _ | .disposeStyle _
  | .applyDecorations _ _ | .log _ => True
  | _ => False

theorem Request.IsDrawing.isVisual {request : Request}
    (drawing : request.IsDrawing) : request.IsVisual := by
  cases request <;> trivial

theorem draws_of_inquiry {α : Type} {interaction : Interaction α}
    (asks : interaction.Asks Request.IsInquiry fun _ => True) :
    interaction.Asks Request.IsDrawing fun _ => True := by
  refine asks.mono (fun request inquiry => ?_) fun _ holds => holds
  cases request <;> trivial

structure AllowsDrawing (allowed : Request → Prop) : Prop
    extends AllowsInquiry allowed where
  createStyle : ∀ style, allowed (.createStyle style)
  disposeStyle : ∀ token, allowed (.disposeStyle token)
  applyDecorations : ∀ token ranges, allowed (.applyDecorations token ranges)

section

variable {allowed : Request → Prop}

theorem AllowsDrawing.restyle (allows : AllowsDrawing allowed)
    (visibility : Visibility) (settings : Settings) :
    (visibility.restyle settings).Asks allowed fun _ => True := by
  apply (asks_teardown allows.disposeStyle).bind
  exact fun _ _ => ⟨allows.createStyle _, fun _ => trivial⟩

theorem AllowsDrawing.apply (allows : AllowsDrawing allowed)
    (visibility : Visibility) (shown : Option Document)
    (settings : Settings) :
    (visibility.apply shown settings).Asks allowed fun _ => True := by
  apply (allows.target shown).bind
  rintro (_ | document) -
  · exact trivial
  apply (allows.restyle visibility settings).bind
  intro token _
  simp only []
  split
  · apply (allows.log rfl).bind
    exact fun _ _ => ⟨allows.applyDecorations _ _, fun _ => trivial⟩
  · exact (allows.log rfl).bind fun _ _ => trivial

theorem AllowsDrawing.hide (allows : AllowsDrawing allowed)
    (mayLook : allowed .document) (coordinator : Coordinator) :
    coordinator.hide.Asks allowed
      fun result => coordinator.Continues result.1 := by
  apply allows.settings.bind
  refine fun settings _ => ⟨mayLook, fun shown => ?_⟩
  apply (allows.apply coordinator.visibility shown settings).bind
  exact fun _ _ => ⟨rfl, rfl, rfl⟩

/-- To hide and to fold is to draw first and to fold then. -/
theorem AllowsDrawing.hideAndFold (allows : AllowsDrawing allowed)
    (allowsFolding : AllowsFolding allowed) (mayLook : allowed .document)
    (coordinator : Coordinator) :
    coordinator.hideAndFold.Asks allowed
      fun result => coordinator.Continues result.1 := by
  apply (allows.hide mayLook coordinator).bind
  rintro ⟨hidden, failure | _⟩ keeps
  · exact keeps
  apply allows.settings.bind
  refine fun settings _ => ⟨mayLook, fun shown => ?_⟩
  exact (allowsFolding.foldBlocks shown settings).bind fun _ _ => keeps

theorem AllowsDrawing.showAndUnfold (allows : AllowsDrawing allowed)
    (allowsFolding : AllowsFolding allowed) (mayLook : allowed .document)
    (coordinator : Coordinator) :
    coordinator.showAndUnfold.Asks allowed
      fun result => coordinator.Continues result.1 := by
  refine ⟨mayLook, fun shown => ?_⟩
  apply (allows.target shown).bind
  rintro (_ | document) -
  · exact ⟨rfl, rfl, rfl⟩
  apply allows.settings.bind
  intro settings _
  apply (allows.restyle coordinator.visibility settings).bind
  intro token _
  simp only []
  split
  · exact ⟨allowsFolding.execute _, fun _ => ⟨rfl, rfl, rfl⟩⟩
  · exact ⟨rfl, rfl, rfl⟩

end

theorem Request.IsDrawing.allowsDrawing : AllowsDrawing Request.IsDrawing :=
  ⟨⟨fun _ => trivial, fun _ _ => trivial⟩, fun _ => trivial, fun _ => trivial,
    fun _ _ => trivial⟩

theorem Request.IsVisual.allowsDrawing : AllowsDrawing Request.IsVisual :=
  ⟨⟨fun _ => trivial, fun _ _ => trivial⟩, fun _ => trivial, fun _ => trivial,
    fun _ _ => trivial⟩

theorem Request.IsVisual.allowsFolding : AllowsFolding Request.IsVisual :=
  ⟨⟨fun _ => trivial, fun _ _ => trivial⟩, fun _ => trivial, fun _ => trivial⟩

theorem draws_restyle (visibility : Visibility) (settings : Settings) :
    (visibility.restyle settings).Asks Request.IsDrawing fun _ => True :=
  Request.IsDrawing.allowsDrawing.restyle visibility settings

theorem draws_hide (coordinator : Coordinator) :
    coordinator.hide.Asks Request.IsDrawing
      fun result => coordinator.Continues result.1 :=
  Request.IsDrawing.allowsDrawing.hide trivial coordinator

theorem asks_hide (coordinator : Coordinator) :
    coordinator.hide.Asks Request.IsVisual
      fun result => coordinator.Continues result.1 :=
  (draws_hide coordinator).mono (fun _ drawing => drawing.isVisual)
    fun _ continues => continues

theorem asks_hideAndFold (coordinator : Coordinator) :
    coordinator.hideAndFold.Asks Request.IsVisual
      fun result => coordinator.Continues result.1 :=
  Request.IsVisual.allowsDrawing.hideAndFold Request.IsVisual.allowsFolding
    trivial coordinator

theorem asks_showAndUnfold (coordinator : Coordinator) :
    coordinator.showAndUnfold.Asks Request.IsVisual
      fun result => coordinator.Continues result.1 :=
  Request.IsVisual.allowsDrawing.showAndUnfold Request.IsVisual.allowsFolding
    trivial coordinator

/-- Neither edits nor orders to shut down are handled without the timer, but
all other messages are. -/
theorem asks_handle (coordinator : Coordinator) {message : Message}
    (noEdit : message ≠ .documentChanged) (goesOn : message ≠ .shutdown) :
    (coordinator.handle message).Asks Request.IsVisual
      fun result => coordinator.Continues result.1 := by
  apply (asks_of_light (asks_log _)).bind
  intro _ _
  cases message with
  | activeEditorChanged => exact asks_hideAndFold coordinator
  | documentChanged => exact absurd rfl noEdit
  | command given =>
      cases given with
      | hideSignatures => exact asks_hideAndFold coordinator
      | showSignatures => exact asks_showAndUnfold coordinator
  | debounceElapsed => exact asks_hide coordinator
  | shutdown => exact absurd rfl goesOn

theorem asks_serve (coordinator : Coordinator) {message : Message}
    (noEdit : message ≠ .documentChanged) (goesOn : message ≠ .shutdown) :
    (coordinator.serve message).Asks Request.IsVisual fun result =>
      ∃ changed, result = some changed ∧ coordinator.Continues changed := by
  rw [Coordinator.serve, if_neg goesOn]
  apply (asks_handle coordinator noEdit goesOn).bind
  rintro ⟨changed, outcome⟩ keeps
  cases outcome with
  | ok _ => exact ⟨changed, rfl, keeps⟩
  | error failure =>
      exact (asks_of_light (asks_log _)).bind
        fun _ _ => ⟨changed, rfl, keeps⟩

end SignatureVeil
