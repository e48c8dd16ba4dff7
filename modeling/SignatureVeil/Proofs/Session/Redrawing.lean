import SignatureVeil.Proofs.Session.Disturbance
import SignatureVeil.Proofs.Workspace.Ensures

/-!
# What a coordinator draws

Whenever a document of the target language is shown, what is drawn is up to
date, or the channel of the coordinator is busy.  Every message that the
coordinator serves keeps it so: to hide draws the text that is shown, and an
edit starts a timer.  While the coordinator folds, others go on, but they only
make the channel busy.
-/

namespace SignatureVeil

open Workspace

variable {channel : ChannelId} {workspace : Workspace}

/-- What is drawn is up to date, or something is going to be done about it. -/
def Covered (channel : ChannelId) (workspace : Workspace) : Prop :=
  Busy channel workspace ∨
    ∀ text, workspace.editor.targetText? = some text →
      ∃ token, workspace.editor.drawn = [(token, Signature.ranges text)]

/-- It is enough to be up to date with the text that was shown before. -/
theorem covered_of_steady {before after : Workspace}
    (steady : Steady channel before after)
    (upToDate : ∀ text, before.editor.targetText? = some text →
      ∃ token, after.editor.drawn = [(token, Signature.ranges text)]) :
    Covered channel after := by
  rcases steady.target with same | busy
  · right
    rwa [same]
  · exact .inl busy

theorem Covered.of_leaves {before after : Workspace}
    (covered : Covered channel before)
    (leaves : Leaves channel before after) : Covered channel after := by
  rcases covered with busy | upToDate
  · exact .inl (leaves.busy busy)
  · apply covered_of_steady leaves.toSteady
    rwa [leaves.drawn]

/-- The timer and the style in the workspace are those of a coordinator. -/
structure Owns (channel : ChannelId) (coordinator : Coordinator)
    (workspace : Workspace) : Prop where
  channel_eq : coordinator.channel = channel
  wired : Wired channel workspace
  draws : workspace.editor.DrawsOnlyWith coordinator.visibility.style
  timers : ∀ timer ∈ workspace.agenda.timers, timer.sink.channel = channel →
    coordinator.debouncer.timer = some timer.id

theorem Owns.of_leaves {before after : Workspace} {coordinator : Coordinator}
    (owns : Owns channel coordinator before)
    (leaves : Leaves channel before after) :
    Owns channel coordinator after where
  channel_eq := owns.channel_eq
  wired := leaves.wired
  draws := by
    rw [Editor.DrawsOnlyWith, leaves.drawn]
    exact owns.draws
  timers timer running := owns.timers timer (leaves.timers timer running)

/-- What holds between two messages. -/
structure Tends (channel : ChannelId) (coordinator : Coordinator)
    (workspace : Workspace) : Prop where
  owns : Owns channel coordinator workspace
  covered : Covered channel workspace

theorem Tends.of_leaves {before after : Workspace} {coordinator : Coordinator}
    (tends : Tends channel coordinator before)
    (leaves : Leaves channel before after) : Tends channel coordinator after :=
  ⟨tends.owns.of_leaves leaves, tends.covered.of_leaves leaves⟩

/-! ## Requests that draw nothing -/

/-- Whether a request leaves alone what is drawn, the listeners and the
timers. -/
def Request.IsHarmless : Request → Prop
  | .document | .configuration _ | .createStyle _ | .setSelections _
  | .execute _ | .log _ => True
  | _ => False

theorem leaves_answer (wired : Wired channel workspace) {request : Request}
    (harmless : request.IsHarmless) :
    Leaves channel workspace (workspace.answer request).2 := by
  cases request with
  | document => exact .refl wired
  | configuration name => exact .refl wired
  | createStyle style =>
      have counted : Leaves channel workspace
          (workspace.updateEditor fun editor =>
            { editor with nextToken := editor.nextToken + 1 }) :=
        ⟨wired.steady _ ⟨wired.enabled, wired.failing, wired.hooks⟩ rfl rfl,
          rfl⟩
      exact counted.trans
        (leaves_record counted.wired .createStyle fun _ => rfl)
  | setSelections selections =>
      have selected := leaves_select wired selections
      exact selected.trans
        (leaves_record selected.wired .setSelections fun _ => rfl)
  | execute command =>
      exact leaves_record wired (.execute command) fun _ => rfl
  | log entry =>
      exact ⟨⟨{ wired with }, fun _ member => member, fun busy => busy,
        .inl rfl⟩, rfl⟩
  | _ => exact absurd harmless id

/-- All requests that an interaction can make are harmless. -/
def Interaction.IsHarmless {α : Type} : Interaction α → Prop
  | .done _ => True
  | .ask request next =>
      request.IsHarmless ∧ ∀ answer, (next answer).IsHarmless

/-- A harmless interaction leaves as much alone as those who go on
meanwhile. -/
theorem ensures_of_harmless {α : Type} {interaction : Interaction α}
    (wired : Wired channel workspace) (harmless : interaction.IsHarmless) :
    Ensures Passes (Leaves channel workspace)
      (fun _ later => Leaves channel workspace later) interaction
      workspace := by
  induction interaction generalizing workspace with
  | done result => exact .refl wired
  | ask request next ih =>
      obtain ⟨here, afterwards⟩ := harmless
      have answered := leaves_answer wired here
      cases request with
      | execute command =>
          intro later meanwhile
          have waited := answered.trans (meanwhile.leaves answered.wired)
          refine ⟨waited, (ih _ waited.wired (afterwards _)).mono ?_ ?_⟩
          · exact fun _ leaves => waited.trans leaves
          · exact fun _ _ leaves => waited.trans leaves
      | _ =>
          refine (ih _ answered.wired (afterwards _)).mono ?_ ?_
          · exact fun _ leaves => answered.trans leaves
          · exact fun _ _ leaves => answered.trans leaves

section Specs

variable {during : Workspace → Prop}

theorem leaves_log (wired : Wired channel workspace) (entry : LogRecord) :
    Leaves channel workspace (workspace.answer (.log entry)).2 :=
  leaves_answer wired trivial

theorem ensures_log (wired : Wired channel workspace) (entry : LogRecord) :
    Ensures Passes during (fun _ later => Leaves channel workspace later)
      (Interaction.log entry) workspace :=
  leaves_log wired entry

theorem ensures_settings (wired : Wired channel workspace) :
    Ensures Passes during
      (fun settings later => settings.enabled = true ∧
        Leaves channel workspace later)
      Interaction.settings workspace := by
  have enabled := wired.enabled
  change Ensures Passes during _
    (if (Settings.ofSection
        (workspace.editor.sectionNamed configurationSection)).2 then
      .ask (.log .sectionRefused) fun _ => .done (Settings.ofSection
        (workspace.editor.sectionNamed configurationSection)).1
    else
      .done (Settings.ofSection
        (workspace.editor.sectionNamed configurationSection)).1) workspace
  generalize Settings.ofSection
    (workspace.editor.sectionNamed configurationSection) = decoded at enabled ⊢
  obtain ⟨settings, refused⟩ := decoded
  cases refused with
  | false => exact ⟨enabled, .refl wired⟩
  | true => exact ⟨enabled, leaves_log wired .sectionRefused⟩

theorem ensures_target (wired : Wired channel workspace)
    (shown : Option Document) :
    Ensures Passes during
      (fun document later => document = shown.filter Document.isTarget ∧
        Leaves channel workspace later)
      (Interaction.target shown) workspace := by
  cases shown with
  | none => exact ⟨rfl, leaves_log wired .noDocument⟩
  | some document =>
      simp only [Interaction.target, Option.filter_some]
      split
      · exact ⟨rfl, .refl wired⟩
      · exact ⟨rfl, leaves_log wired _⟩

/-- Disposing of the style clears what is drawn. -/
theorem ensures_teardown (wired : Wired channel workspace)
    {visibility : Visibility}
    (draws : workspace.editor.DrawsOnlyWith visibility.style) :
    Ensures Passes during
      (fun _ later => Steady channel workspace later ∧
        later.editor.drawn = [])
      visibility.teardown workspace := by
  obtain ⟨style⟩ := visibility
  cases style with
  | none => exact ⟨(Leaves.refl wired).toSteady, draws.drawn_eq_nil⟩
  | some token =>
      obtain ⟨steady, drawn⟩ :=
        steady_record wired .disposeStyle (.disposeStyle token)
      exact ⟨steady, drawn.trans draws.redraw_dispose⟩

theorem ensures_restyle (wired : Wired channel workspace)
    {visibility : Visibility}
    (draws : workspace.editor.DrawsOnlyWith visibility.style)
    (settings : Settings) :
    Ensures Passes during
      (fun _ later => Steady channel workspace later ∧
        later.editor.drawn = [])
      (visibility.restyle settings) workspace := by
  apply (ensures_teardown wired draws).bind
  rintro - disposed ⟨steady, blank⟩
  have created : Leaves channel disposed
      (disposed.answer (.createStyle settings.style)).2 :=
    leaves_answer steady.wired trivial
  exact ⟨steady.trans created.toSteady, created.drawn.trans blank⟩

theorem outcomeOf_applyDecorations (wired : Wired channel workspace) :
    workspace.editor.outcomeOf .applyDecorations = .ok () := by
  have works : .applyDecorations ∉ workspace.editor.failing := by
    intro fails
    obtain ⟨command, isCommand⟩ := wired.failing _ fails
    contradiction
  rw [Editor.outcomeOf, if_neg works]

theorem ensures_draw (wired : Wired channel workspace)
    (blank : workspace.editor.drawn = []) (token : StyleToken)
    (ranges : List Range) :
    Ensures Passes during
      (fun outcome later => outcome = .ok () ∧
        Steady channel workspace later ∧
        later.editor.drawn = [(token, ranges)])
      (Interaction.request (.applyDecorations token ranges)) workspace := by
  obtain ⟨steady, drawn⟩ := steady_record wired .applyDecorations
    (.applyDecorations token ranges)
  rw [blank] at drawn
  exact ⟨outcomeOf_applyDecorations steady.wired, steady, drawn⟩

/-- Hiding draws the signatures of the document that is shown, if it is one of
the target language. -/
theorem ensures_apply (wired : Wired channel workspace)
    {visibility : Visibility}
    (draws : workspace.editor.DrawsOnlyWith visibility.style)
    {settings : Settings} (enabled : settings.enabled = true) :
    Ensures Passes during
      (fun result later => result.2 = .ok () ∧
        Steady channel workspace later ∧
        later.editor.DrawsOnlyWith result.1.style ∧ Covered channel later)
      (visibility.apply workspace.editor.document settings) workspace := by
  apply (ensures_target wired workspace.editor.document).bind
  rintro target seen ⟨rfl, leaves⟩
  have stillDraws : seen.editor.DrawsOnlyWith visibility.style := by
    rw [Editor.DrawsOnlyWith, leaves.drawn]
    exact draws
  have current : (workspace.editor.document.filter Document.isTarget).map
      Document.text = workspace.editor.targetText? := rfl
  cases found : workspace.editor.document.filter Document.isTarget with
  | none =>
      rw [found] at current
      refine ⟨rfl, leaves.toSteady, stillDraws,
        covered_of_steady leaves.toSteady ?_⟩
      intro text shown
      rw [← current] at shown
      contradiction
  | some document =>
      rw [found] at current
      apply (ensures_restyle leaves.wired stillDraws settings).bind
      rintro token styled ⟨restyled, blank⟩
      simp only [enabled, if_true]
      apply (ensures_log restyled.wired _).bind
      rintro - logged leavesLogged
      apply (ensures_draw leavesLogged.wired
        (leavesLogged.drawn.trans blank) _ _).bind
      rintro outcome last ⟨rfl, drew, drawn⟩
      have steady := ((leaves.toSteady.trans restyled).trans
        leavesLogged.toSteady).trans drew
      refine ⟨rfl, steady, by simp [Editor.DrawsOnlyWith, drawn],
        covered_of_steady steady ?_⟩
      intro text shown
      rw [← current] at shown
      obtain rfl := Option.some.inj shown
      exact ⟨token, drawn⟩

theorem ensures_hide {coordinator : Coordinator}
    (owns : Owns channel coordinator workspace) :
    Ensures Passes during
      (fun result later => result.2 = .ok () ∧ Tends channel result.1 later)
      coordinator.hide workspace := by
  apply (ensures_settings owns.wired).bind
  rintro settings asked ⟨enabled, leaves⟩
  have owns' := owns.of_leaves leaves
  apply (ensures_apply owns'.wired owns'.draws enabled).bind
  rintro ⟨visibility, outcome⟩ later ⟨done, steady, draws, covered⟩
  exact ⟨done, ⟨owns'.channel_eq, steady.wired, draws, fun timer running =>
    owns'.timers timer (steady.timers timer running)⟩, covered⟩

theorem isHarmless_bind {α β : Type} {first : Interaction α}
    {next : α → Interaction β} (harmless : first.IsHarmless)
    (continues : ∀ result, (next result).IsHarmless) :
    (first >>= next).IsHarmless := by
  induction first with
  | done result => exact continues result
  | ask request answered ih =>
      exact ⟨harmless.1, fun answer => ih answer (harmless.2 answer)⟩

theorem isHarmless_log (entry : LogRecord) :
    (Interaction.log entry).IsHarmless :=
  ⟨trivial, fun _ => trivial⟩

theorem isHarmless_target (shown : Option Document) :
    (Interaction.target shown).IsHarmless := by
  unfold Interaction.target
  split
  · exact ⟨trivial, fun _ => trivial⟩
  · split
    · exact trivial
    · exact ⟨trivial, fun _ => trivial⟩

/-- Folding only asks for commands and selections. -/
theorem isHarmless_foldBlocks (shown : Option Document) (settings : Settings) :
    (foldBlocks shown settings).IsHarmless := by
  apply isHarmless_bind (isHarmless_target shown)
  intro target
  cases target with
  | none => exact trivial
  | some document =>
      simp only []
      split
      · exact trivial
      · split
        · exact ⟨trivial, fun _ => trivial⟩
        · apply isHarmless_bind (isHarmless_log _)
          intro _
          refine ⟨trivial, fun _ => ⟨trivial, fun unfolded => ?_⟩⟩
          cases unfolded with
          | error failure => exact trivial
          | ok _ =>
              refine ⟨trivial, fun folded => ?_⟩
              cases folded with
              | error failure => exact trivial
              | ok _ => exact ⟨trivial, fun _ => trivial⟩

theorem ensures_hideAndFold {coordinator : Coordinator}
    (owns : Owns channel coordinator workspace) :
    Ensures Passes (fun later => Wired channel later ∧ Covered channel later)
      (fun result later => Tends channel result.1 later)
      coordinator.hideAndFold workspace := by
  apply (ensures_hide owns).bind
  rintro ⟨coordinator, outcome⟩ hidden ⟨rfl, tends⟩
  apply (ensures_settings tends.owns.wired).bind
  rintro settings asked ⟨-, leaves⟩
  have tends' := tends.of_leaves leaves
  have folding := ensures_of_harmless tends'.owns.wired
    (isHarmless_foldBlocks asked.editor.document settings)
  refine (folding.mono ?_ fun _ _ leaves => leaves).bind ?_
  · exact fun later leaves =>
      ⟨leaves.wired, tends'.covered.of_leaves leaves⟩
  · exact fun folded later leaves => tends'.of_leaves leaves

/-- A debouncer that has cancelled its timer has no timer that runs. -/
theorem ensures_cancel {coordinator : Coordinator}
    (owns : Owns channel coordinator workspace) :
    Ensures Passes during
      (fun _ later => Owns channel coordinator later ∧
        ∀ timer ∈ later.agenda.timers, timer.sink.channel ≠ channel)
      coordinator.debouncer.cancel workspace := by
  unfold Debouncer.cancel
  cases started : coordinator.debouncer.timer with
  | none =>
      refine ⟨owns, fun timer running here => ?_⟩
      have own := owns.timers timer running here
      rw [started] at own
      contradiction
  | some id =>
      refine ⟨⟨owns.channel_eq, { owns.wired with timers := ?_ }, owns.draws,
        ?_⟩, ?_⟩
      · intro timer member
        exact owns.wired.timers timer (Agenda.mem_timers_cancel.mp member).1
      · intro timer member
        exact owns.timers timer (Agenda.mem_timers_cancel.mp member).1
      · intro timer member here
        obtain ⟨running, other⟩ := Agenda.mem_timers_cancel.mp member
        have own := owns.timers timer running here
        rw [started] at own
        exact other (Option.some.inj own).symm

/-- Once a timer has been started the channel is busy. -/
theorem ensures_scheduleHide {coordinator : Coordinator}
    (owns : Owns channel coordinator workspace) :
    Ensures Passes during (Tends channel) coordinator.scheduleHide
      workspace := by
  have scheduling : Ensures Passes during
      (fun debouncer later =>
        Tends channel { coordinator with debouncer } later)
      (coordinator.debouncer.schedule
        ⟨.debounceElapsed, coordinator.channel⟩) workspace := by
    apply (ensures_cancel owns).bind
    rintro debouncer cancelled ⟨owns', noTimer⟩
    apply (ensures_log owns'.wired _).bind
    rintro - logged leaves
    have owns'' := owns'.of_leaves leaves
    refine ⟨⟨owns.channel_eq, { owns''.wired with timers := ?_ },
      owns''.draws, ?_⟩, ?_⟩
    · intro timer member here
      rcases Agenda.mem_timers_start.mp member with earlier | rfl
      · exact absurd here (noTimer timer (leaves.timers timer earlier))
      · rfl
    · intro timer member here
      rcases Agenda.mem_timers_start.mp member with earlier | rfl
      · exact absurd here (noTimer timer (leaves.timers timer earlier))
      · rfl
    · exact .inl (.inr ⟨_, Agenda.mem_timers_start.mpr (.inr rfl),
        owns.channel_eq⟩)
  exact scheduling.bind fun _ _ tends => tends

/-- Serving a message leaves everything up to date, or the channel busy. -/
theorem ensures_serve {coordinator : Coordinator}
    (owns : Owns channel coordinator workspace) {message : Message}
    (work : message.IsWork) :
    Ensures Passes (fun later => Wired channel later ∧ Covered channel later)
      (fun result later => ∃ coordinator, result = some coordinator ∧
        Tends channel coordinator later)
      (coordinator.serve message) workspace := by
  have handling : Ensures Passes
      (fun later => Wired channel later ∧ Covered channel later)
      (fun result later => Tends channel result.1 later)
      (coordinator.handle message) workspace := by
    apply (ensures_log owns.wired _).bind
    rintro - logged leaves
    have owns' := owns.of_leaves leaves
    cases message with
    | activeEditorChanged => exact ensures_hideAndFold owns'
    | documentChanged =>
        exact (ensures_scheduleHide owns').bind fun _ _ tends => tends
    | command given =>
        cases given with
        | hideSignatures => exact ensures_hideAndFold owns'
        | showSignatures => exact absurd rfl work.1
    | debounceElapsed =>
        exact (ensures_hide owns').mono (fun _ holds => holds)
          fun _ _ hidden => hidden.2
    | shutdown => exact absurd rfl work.2
  rw [Coordinator.serve, if_neg work.2]
  apply handling.bind
  rintro ⟨coordinator, outcome⟩ handled tends
  cases outcome with
  | ok _ => exact ⟨coordinator, rfl, tends⟩
  | error failure =>
      apply (ensures_log tends.owns.wired _).bind
      rintro - logged leaves
      exact ⟨coordinator, rfl, tends.of_leaves leaves⟩

end Specs

end SignatureVeil
