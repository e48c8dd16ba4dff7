import SignatureVeil.Proofs.Coordinator.Gates
import SignatureVeil.Proofs.Settings.UnitOpacity

/-!
# The opacities that an editor is given

Whenever a coordinator has a style created, the style follows the section of
the configuration that it has read last.  So its opacity is a number from zero
to one, unless that section is accepted with an opacity that is no number.
This holds for whatever a coordinator does in any state, and also for what it
has done so far when it is given up on the way.
-/

namespace SignatureVeil

open Interaction

/-! ## Exchanges so far -/

/-- An interaction has gone through some exchanges.  It may go on. -/
inductive Interaction.Passes {α : Type} :
    Interaction α → List Exchange → Prop where
  | begun (interaction : Interaction α) : Passes interaction []
  | ask {request : Request} {next : request.Answer → Interaction α}
      {answer : request.Answer} {exchanges : List Exchange}
      (answered : Passes (next answer) exchanges) :
      Passes (.ask request next) (⟨request, answer⟩ :: exchanges)

theorem Interaction.Yields.passes {α : Type} {interaction : Interaction α}
    {exchanges : List Exchange} {result : α}
    (yields : interaction.Yields exchanges result) :
    interaction.Passes exchanges := by
  induction yields with
  | done result => exact .begun _
  | ask _ ih => exact .ask ih

/-- The section of the settings that was read last. -/
def lastSection? (exchanges : List Exchange) : Option Json :=
  exchanges.reverse.findSome? Exchange.section?

theorem lastSection?_cons (first : Exchange) (rest : List Exchange) :
    lastSection? (first :: rest) = (lastSection? rest).or first.section? := by
  rw [lastSection?, List.reverse_cons, List.findSome?_append]
  cases section? : first.section? <;> simp [lastSection?, section?]

/-! ## Styles that follow a section -/

/-- Whether a style follows the settings of a section. -/
def DecorationStyle.Follows (style : DecorationStyle) (value : Json) : Prop :=
  style = (Settings.ofSection value).1.style

/-- Whatever it is answered, an interaction creates no style that does not
follow the section that was read last, and its result fits that section. -/
def Styles {α : Type} (ends : α → Option Json → Prop) :
    Interaction α → Option Json → Prop
  | .done result, last => ends result last
  | .ask request next, last =>
      (∀ style, request = .createStyle style →
        ∃ value, last = some value ∧ style.Follows value) ∧
      ∀ answer, Styles ends (next answer)
        ((Exchange.section? ⟨request, answer⟩).or last)

section

variable {α β : Type} {last : Option Json} {ends ends' : α → Option Json → Prop}
  {interaction : Interaction α}

theorem Styles.bind {next : α → Interaction β} {ends' : β → Option Json → Prop}
    (styles : Styles ends interaction last)
    (continues : ∀ result middle, ends result middle →
      Styles ends' (next result) middle) :
    Styles ends' (interaction >>= next) last := by
  induction interaction generalizing last with
  | done result => exact continues result last styles
  | ask request answered ih =>
      exact ⟨styles.1, fun answer => ih answer (styles.2 answer)⟩

theorem Styles.follows {exchanges earlier later : List Exchange}
    {style : DecorationStyle} {token : StyleToken}
    (styles : Styles ends interaction last)
    (passes : interaction.Passes exchanges)
    (whole : exchanges = earlier ++ ⟨.createStyle style, token⟩ :: later) :
    ∃ value, (lastSection? earlier).or last = some value ∧
      style.Follows value := by
  induction passes generalizing last earlier with
  | begun => simp at whole
  | ask answered ih =>
      cases earlier with
      | nil =>
          have same := congrArg Exchange.request (List.cons.inj whole).1
          exact styles.1 style same
      | cons first earlier =>
          obtain ⟨rfl, rest⟩ := List.cons.inj whole
          rw [lastSection?_cons, Option.or_assoc]
          exact ih (styles.2 _) rest

/-! ## Requests that create no style -/

/-- Whether a request creates no style. -/
def Request.CreatesNone : Request → Prop
  | .createStyle _ => False
  | _ => True

/-- Whether a request neither creates a style nor reads a section. -/
def Request.IsAside : Request → Prop
  | .createStyle _ | .configuration _ => False
  | _ => True

theorem styles_of_createsNone
    (asks : interaction.Asks Request.CreatesNone fun _ => True)
    (last : Option Json) : Styles (fun _ _ => True) interaction last := by
  induction interaction generalizing last with
  | done result => trivial
  | ask request next ih =>
      refine ⟨?_, fun answer => ih answer (asks.2 answer) _⟩
      rintro style rfl
      exact asks.1.elim

theorem styles_of_aside
    (asks : interaction.Asks Request.IsAside fun _ => True)
    (last : Option Json) :
    Styles (fun _ found => found = last) interaction last := by
  induction interaction with
  | done result => exact rfl
  | ask request next ih =>
      refine ⟨?_, fun answer => ?_⟩
      · rintro style rfl
        exact asks.1.elim
      · have unread : Exchange.section? ⟨request, answer⟩ = none := by
          cases request <;> first | rfl | exact asks.1.elim
        rw [unread]
        exact ih answer (asks.2 answer)

end

theorem Request.CreatesNone.allowsFolding :
    AllowsFolding Request.CreatesNone :=
  ⟨⟨fun _ => trivial, fun _ _ => trivial⟩, fun _ => trivial, fun _ => trivial⟩

/-! ## Each operation -/

section Operations

theorem styles_settings (last : Option Json) :
    Styles (fun settings found => ∃ value, found = some value ∧
        settings = (Settings.ofSection value).1)
      Interaction.settings last := by
  refine ⟨nofun, fun (answer : Json) => ?_⟩
  have read : Exchange.section? ⟨.configuration configurationSection, answer⟩ =
      some answer := Exchange.section?_configuration
  change Styles _ (if (Settings.ofSection answer).2 then _ else _)
    ((Exchange.section?
      ⟨.configuration configurationSection, answer⟩).or last)
  rw [read]
  split
  · exact ⟨nofun, fun _ => ⟨answer, rfl, rfl⟩⟩
  · exact ⟨answer, rfl, rfl⟩

theorem aside_target (shown : Option Document) :
    (Interaction.target shown).Asks Request.IsAside fun _ => True := by
  unfold Interaction.target
  split
  · exact ⟨trivial, fun _ => trivial⟩
  · split
    · exact trivial
    · exact ⟨trivial, fun _ => trivial⟩

theorem createsNone_log (entry : LogRecord) :
    (Interaction.log entry).Asks Request.CreatesNone fun _ => True :=
  ⟨trivial, fun _ => trivial⟩

theorem styles_restyle (visibility : Visibility) (value : Json) :
    Styles (fun _ _ => True)
      (visibility.restyle (Settings.ofSection value).1) (some value) := by
  have tearing : visibility.teardown.Asks Request.IsAside fun _ => True :=
    asks_teardown fun _ => trivial
  apply (styles_of_aside tearing _).bind
  rintro torn _ rfl
  refine ⟨?_, fun _ => trivial⟩
  rintro _ ⟨⟩
  exact ⟨value, rfl, rfl⟩

theorem styles_apply (visibility : Visibility) (shown : Option Document)
    (value : Json) :
    Styles (fun _ _ => True)
      (visibility.apply shown (Settings.ofSection value).1) (some value) := by
  apply (styles_of_aside (aside_target shown) _).bind
  rintro (_ | document) _ rfl
  · trivial
  apply (styles_restyle visibility value).bind
  rintro token middle -
  refine styles_of_createsNone ?_ middle
  simp only []
  split
  · exact (createsNone_log _).bind fun _ _ =>
      ⟨trivial, fun _ => trivial⟩
  · exact (createsNone_log _).bind fun _ _ => trivial

variable (coordinator : Coordinator) (last : Option Json)

theorem styles_hide :
    Styles (fun _ _ => True) coordinator.hide last := by
  apply (styles_settings last).bind
  rintro _ _ ⟨value, rfl, rfl⟩
  refine ⟨nofun, fun shown => ?_⟩
  exact (styles_apply coordinator.visibility shown value).bind
    fun _ _ _ => trivial

theorem styles_hideAndFold :
    Styles (fun _ _ => True) coordinator.hideAndFold last := by
  apply (styles_hide coordinator last).bind
  rintro ⟨changed, failure | _⟩ middle -
  · trivial
  have folding : Asks Request.CreatesNone (fun _ => True)
      (do
        let settings ← Interaction.settings
        let shown ← Interaction.request .document
        let folded ← foldBlocks shown settings
        return (changed, folded)) := by
    apply Request.CreatesNone.allowsFolding.settings.bind
    exact fun settings _ => ⟨trivial, fun shown =>
      (Request.CreatesNone.allowsFolding.foldBlocks shown settings).bind
        fun _ _ => trivial⟩
  exact styles_of_createsNone folding middle

theorem styles_showAndUnfold :
    Styles (fun _ _ => True) coordinator.showAndUnfold last := by
  refine ⟨nofun, fun shown => ?_⟩
  apply (styles_of_aside (aside_target shown) _).bind
  rintro (_ | document) _ -
  · trivial
  apply (styles_settings _).bind
  rintro _ _ ⟨value, rfl, rfl⟩
  apply (styles_restyle coordinator.visibility value).bind
  rintro token middle -
  refine styles_of_createsNone ?_ middle
  simp only []
  split
  · exact ⟨trivial, fun _ => trivial⟩
  · trivial

theorem styles_scheduleHide :
    Styles (fun _ _ => True) coordinator.scheduleHide last :=
  styles_of_createsNone ((asks_scheduleHide (fun _ => trivial)
    (fun _ => trivial) fun _ _ => trivial).mono (fun _ holds => holds)
      fun _ _ => trivial) last

theorem styles_deactivate :
    Styles (fun _ _ => True) coordinator.deactivate last :=
  styles_of_createsNone (asks_deactivate (fun _ _ => trivial)
    (fun _ => trivial) trivial fun _ => trivial) last

theorem styles_handle (message : Message) :
    Styles (fun _ _ => True) (coordinator.handle message) last := by
  apply (styles_of_createsNone (createsNone_log _) last).bind
  rintro - middle -
  cases message with
  | activeEditorChanged => exact styles_hideAndFold coordinator middle
  | documentChanged =>
      exact (styles_scheduleHide coordinator middle).bind fun _ _ _ => trivial
  | command given =>
      cases given with
      | hideSignatures => exact styles_hideAndFold coordinator middle
      | showSignatures => exact styles_showAndUnfold coordinator middle
  | debounceElapsed => exact styles_hide coordinator middle
  | shutdown =>
      exact (styles_deactivate coordinator middle).bind fun _ _ _ => trivial

theorem styles_carryOut (operation : Operation) :
    Styles (fun _ _ => True) (operation.carryOut coordinator) last := by
  cases operation with
  | handle message =>
      exact (styles_handle coordinator last message).bind fun _ _ _ => trivial
  | hideAndFold =>
      exact (styles_hideAndFold coordinator last).bind fun _ _ _ => trivial
  | showAndUnfold =>
      exact (styles_showAndUnfold coordinator last).bind fun _ _ _ => trivial
  | scheduleHide => exact styles_scheduleHide coordinator last
  | deactivate => exact styles_deactivate coordinator last

theorem styles_serve (message : Message) :
    Styles (fun _ _ => True) (coordinator.serve message) last := by
  unfold Coordinator.serve
  split
  · exact (styles_deactivate coordinator last).bind fun _ _ _ => trivial
  · apply (styles_handle coordinator last message).bind
    rintro ⟨changed, failure | _⟩ middle -
    · exact (styles_of_createsNone (createsNone_log _) middle).bind
        fun _ _ _ => trivial
    · trivial

theorem styles_activate (channel : ChannelId) :
    Styles (fun _ _ => True) (Coordinator.activate channel) last := by
  have listening : (Coordinator.listenTo channel Coordinator.topics).Asks
      Request.CreatesNone fun _ => True := asks_listenTo fun _ _ => trivial
  have concluding (coordinator : Coordinator) (outcome : Outcome)
      (middle : Option Json) :
      Styles (fun _ _ => True) (coordinator.conclude outcome) middle := by
    cases outcome with
    | error failure =>
        exact (styles_deactivate coordinator middle).bind
          fun _ _ _ => trivial
    | ok _ =>
        exact (styles_of_createsNone (createsNone_log _) middle).bind
          fun _ _ _ => trivial
  apply (styles_of_createsNone listening last).bind
  rintro listeners middle -
  refine ⟨nofun, fun shown => ?_⟩
  cases shown with
  | none => exact concluding { channel, listeners } (.ok ()) _
  | some document =>
      exact (styles_hideAndFold _ _).bind fun result middle _ =>
        concluding result.1 result.2 middle

end Operations

/-! ## Whatever is undertaken -/

/-- The interactions of a coordinator with an editor: its activation, the
operations that it is asked for, and the turns of its message loop. -/
inductive Coordinator.Conducts : {α : Type} → Interaction α → Prop where
  | activation (channel : ChannelId) : Conducts (Coordinator.activate channel)
  | operation (coordinator : Coordinator) (operation : Operation) :
      Conducts (operation.carryOut coordinator)
  | turn (coordinator : Coordinator) (message : Message) :
      Conducts (coordinator.serve message)

/-- The exchanges of some coordinator, in any state, in one of its
interactions, as far as that has come. -/
def Undertaken (exchanges : List Exchange) : Prop :=
  ∃ (α : Type) (interaction : Interaction α),
    Coordinator.Conducts interaction ∧ interaction.Passes exchanges

theorem Coordinator.Conducts.styles {α : Type} {interaction : Interaction α}
    (conducts : Coordinator.Conducts interaction) :
    Styles (fun _ _ => True) interaction none := by
  cases conducts with
  | activation channel => exact styles_activate none channel
  | operation coordinator operation =>
      exact styles_carryOut coordinator none operation
  | turn coordinator message => exact styles_serve coordinator none message

theorem Course.undertaken {episodes : List Episode}
    {holder : Option Coordinator} (course : Course episodes holder) :
    ∀ episode ∈ episodes, Undertaken episode.exchanges := by
  induction course with
  | failed activated | activated activated =>
      exact List.forall_mem_singleton.mpr
        ⟨_, _, .activation _, activated.passes⟩
  | operated _ operation operated ih =>
      exact List.forall_mem_append.mpr ⟨ih, List.forall_mem_singleton.mpr
        ⟨_, _, .operation _ operation, operated.passes⟩⟩
  | served _ message served ih =>
      exact List.forall_mem_append.mpr ⟨ih, List.forall_mem_singleton.mpr
        ⟨_, _, .turn _ message, served.passes⟩⟩
  | dropped _ deactivated ih =>
      exact List.forall_mem_append.mpr ⟨ih, List.forall_mem_singleton.mpr
        ⟨_, _, .operation _ .deactivate, deactivated.passes⟩⟩

/-- Each operation in the course of a coordinator is undertaken.  Whatever is
undertaken, a style is created only for the section that was read last, and
with its settings.  The opacity of the style is a number from zero to one or
no number at all, and this it is exactly if the section is accepted although
it spells the word for no number. -/
theorem opacities_of_createStyle (episodes : List Episode)
    (holder : Option Coordinator) (exchanges : List Exchange) :
    (Course episodes holder →
      ∀ episode ∈ episodes, Undertaken episode.exchanges) ∧
    (Undertaken exchanges → ∀ earlier style token later,
      exchanges = earlier ++ ⟨.createStyle style, token⟩ :: later →
      ∃ value, lastSection? earlier = some value ∧ style.Follows value ∧
        (style.opacity.InUnit ∨ style.opacity.isNaN = true) ∧
        ((∀ number ∈ value.numbers, number.WellFormed) →
          (style.opacity.InUnit ↔ ¬Settings.AcceptsNaN value))) := by
  refine ⟨fun course => course.undertaken, ?_⟩
  rintro ⟨α, interaction, conducts, passes⟩ earlier style token later whole
  obtain ⟨value, read, rfl⟩ := conducts.styles.follows passes whole
  rw [Option.or_none] at read
  refine ⟨value, read, rfl, ?_, Settings.inUnit_style_iff⟩
  cases isNaN : (Settings.ofSection value).1.opacity.isNaN with
  | false => exact .inl (Binary.inUnit_clampToUnit isNaN)
  | true =>
      right
      rw [Settings.style, Binary.clampToUnit, if_pos isNaN, isNaN]

/-- Answers as in `answering`, but with this section. -/
def answeringSection (value : Json) (shown : Document) (number : Nat) :
    (request : Request) → request.Answer
  | .configuration _ => value
  | request => answering shown number request

/-- An opacity that is no number is passed on to the editor. -/
theorem createStyle_without_number :
    ¬ ∀ episodes holder, Course episodes holder → ∀ token style,
      .createStyle token style ∈ callsOf episodes → style.opacity.InUnit := by
  intro limited
  have activated : (Coordinator.activate 0).Yields _ (.ok _) :=
    Interaction.yields_transcript
      (answeringSection (.object [("opacity", .string "nan")])
        ⟨1, "ruby", "sig \x7b void \x7d", []⟩ 1) rfl
  have inUnit := limited _ _ (.activated activated) 1
    ⟨⟨false, 0x7fc00000⟩, "transparent"⟩ (by decide +kernel)
  exact absurd inUnit.isNaN_eq_false (by decide)

end SignatureVeil
