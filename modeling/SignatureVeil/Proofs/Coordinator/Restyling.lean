import SignatureVeil.Proofs.Coordinator.Painting

/-!
# What operations restyle for

Each operation has a purpose, and what it has read, of the settings and of the
document, can be seen in its exchanges.  Hiding restyles if it has read a
document of the target language, and draws if the settings say so.  Revealing
restyles and draws nothing.  To wait leaves the style alone, and to finish
gives it back.
-/

namespace SignatureVeil

open Interaction

/-! ## What an operation has read -/

/-- The answer to a question for the settings. -/
def Exchange.section? : Exchange → Option Json
  | ⟨.configuration name, (answer : Json)⟩ =>
      if name = configurationSection then some answer else none
  | _ => none

/-- The answer to a question for the document. -/
def Exchange.shown? : Exchange → Option (Option Document)
  | ⟨.document, (shown : Option Document)⟩ => some shown
  | _ => none

/-- The settings that are read first. -/
def settingsRead? (exchanges : List Exchange) : Option Settings :=
  (exchanges.findSome? Exchange.section?).map fun answer =>
    (Settings.ofSection answer).1

/-- The document that is read first, if it is in the target language. -/
def targetRead? (exchanges : List Exchange) : Option Document :=
  (exchanges.findSome? Exchange.shown?).join.filter Document.isTarget

/-- What a coordinator sets out to do. -/
inductive Purpose where
  | hide
  | reveal
  /-- To wait for the quiet period to pass. -/
  | wait
  | finish
  deriving DecidableEq, Repr

def Message.purpose : Message → Purpose
  | .activeEditorChanged | .command .hideSignatures | .debounceElapsed =>
      .hide
  | .command .showSignatures => .reveal
  | .documentChanged => .wait
  | .shutdown => .finish

theorem Message.purpose_eq_finish {message : Message} :
    message.purpose = .finish ↔ message = .shutdown := by
  rcases message with _ | _ | (_ | _) | _ | _ <;> simp [Message.purpose]

def Operation.purpose : Operation → Purpose
  | .handle message => message.purpose
  | .hideAndFold => .hide
  | .showAndUnfold => .reveal
  | .scheduleHide => .wait
  | .deactivate => .finish

/-- An operation that has been carried out. -/
structure Episode where
  purpose : Purpose
  exchanges : List Exchange

/-- What an operation restyled for.  Hiding reads the settings and then the
document, and revealing reads them the other way around. -/
def Episode.restyling? (episode : Episode) : Option Restyling :=
  match episode.purpose with
  | .hide => do
      let settings ← settingsRead? episode.exchanges
      let document ← targetRead?
        (episode.exchanges.dropWhile fun exchange => exchange.section?.isNone)
      return ⟨true, settings, document⟩
  | .reveal => do
      let document ← targetRead? episode.exchanges
      let settings ← settingsRead? episode.exchanges
      return ⟨false, settings, document⟩
  | .wait | .finish => none

/-! ## Operations that restyle -/

/-- Nothing but log records. -/
def Silent (exchanges : List Exchange) : Prop :=
  ∀ exchange ∈ exchanges, ∃ entry, exchange = ⟨.log entry, ()⟩

theorem Silent.plain {exchanges : List Exchange} (silent : Silent exchanges) :
    Plain exchanges := by
  intro exchange member
  obtain ⟨entry, rfl⟩ := silent exchange member
  trivial

theorem Silent.section?_eq_none {exchanges : List Exchange}
    (silent : Silent exchanges) :
    ∀ exchange ∈ exchanges, exchange.section? = none := by
  intro exchange member
  obtain ⟨entry, rfl⟩ := silent exchange member
  rfl

theorem Silent.shown?_eq_none {exchanges : List Exchange}
    (silent : Silent exchanges) :
    ∀ exchange ∈ exchanges, exchange.shown? = none := by
  intro exchange member
  obtain ⟨entry, rfl⟩ := silent exchange member
  rfl

theorem silent_of_log {entry : LogRecord} {exchanges : List Exchange}
    {result : Unit}
    (yields : (Interaction.log entry).Yields exchanges result) :
    Silent exchanges := by
  obtain ⟨_, _, rfl, ended⟩ := yields.ask_inv
  obtain ⟨rfl, -⟩ := ended.done_inv
  exact List.forall_mem_singleton.mpr ⟨entry, rfl⟩

theorem Interaction.Yields.request_inv {request : Request}
    {exchanges : List Exchange} {answer : request.Answer}
    (yields : (Interaction.request request).Yields exchanges answer) :
    exchanges = [⟨request, answer⟩] := by
  obtain ⟨_, _, rfl, ended⟩ := yields.ask_inv
  obtain ⟨rfl, rfl⟩ := ended.done_inv
  rfl

theorem Interaction.Yields.settings_inv {exchanges : List Exchange}
    {settings : Settings}
    (yields : Interaction.settings.Yields exchanges settings) :
    ∃ answer logs, Silent logs ∧
      exchanges = ⟨.configuration configurationSection, answer⟩ :: logs ∧
      settings = (Settings.ofSection answer).1 := by
  obtain ⟨answer, logs, rfl, warned⟩ := yields.ask_inv
  refine ⟨answer, logs, ?_⟩
  change Yields (if (Settings.ofSection answer).2 then _ else _) _ _ at warned
  split at warned
  · obtain ⟨_, _, rfl, ended⟩ := warned.ask_inv
    obtain ⟨rfl, rfl⟩ := ended.done_inv
    exact ⟨List.forall_mem_singleton.mpr ⟨_, rfl⟩, rfl, rfl⟩
  · obtain ⟨rfl, rfl⟩ := warned.done_inv
    exact ⟨List.forall_mem_nil _, rfl, rfl⟩

theorem Interaction.Yields.target_inv {shown found : Option Document}
    {exchanges : List Exchange}
    (yields : (Interaction.target shown).Yields exchanges found) :
    Silent exchanges ∧ found = shown.filter Document.isTarget := by
  cases shown with
  | none =>
      obtain ⟨_, _, rfl, ended⟩ := yields.ask_inv
      obtain ⟨rfl, rfl⟩ := ended.done_inv
      exact ⟨List.forall_mem_singleton.mpr ⟨_, rfl⟩, rfl⟩
  | some document =>
      rw [Interaction.target] at yields
      rw [Option.filter_some]
      split at yields
      case isTrue target =>
        obtain ⟨rfl, rfl⟩ := yields.done_inv
        exact ⟨List.forall_mem_nil _, (if_pos target).symm⟩
      case isFalse other =>
        obtain ⟨_, _, rfl, ended⟩ := yields.ask_inv
        obtain ⟨rfl, rfl⟩ := ended.done_inv
        exact ⟨List.forall_mem_singleton.mpr ⟨_, rfl⟩, (if_neg other).symm⟩

/-- What an operation restyles for that has read these settings and this
document. -/
def Restyling.of? (hides : Bool) (answer : Json) (shown : Option Document) :
    Option Restyling :=
  (shown.filter Document.isTarget).map fun document =>
    ⟨hides, (Settings.ofSection answer).1, document⟩

theorem Restyling.document_of? (hides : Bool) (answer : Json)
    (shown : Option Document) :
    (Restyling.of? hides answer shown).map Restyling.document =
      shown.filter Document.isTarget := by
  rw [Restyling.of?, Option.map_map]
  exact Option.map_id'

section

variable {visibility : Visibility} {exchanges : List Exchange}

/-- With the new style nothing is drawn yet. -/
theorem Restyles.of_restyle {restyling : Restyling} {token : StyleToken}
    (restyled : (visibility.restyle restyling.settings).Yields exchanges token)
    (blank : restyling.displayed token = []) :
    Restyles visibility.style (some token) exchanges (some restyling) := by
  obtain ⟨created, undrawn⟩ := drawn_after_restyle restyled
  exact .anew rfl created fun calls only => (undrawn calls only).trans blank.symm

theorem Restyles.of_draw (restyling : Restyling) {token : StyleToken}
    {logs : List Exchange} {outcome : Outcome}
    (restyled : (visibility.restyle restyling.settings).Yields exchanges token)
    (plain : Plain logs)
    (draws : restyling.displayed token =
      [(token, Signature.ranges restyling.document.text)]) :
    Restyles visibility.style (some token)
      (exchanges ++ (logs ++ [⟨.applyDecorations token
        (Signature.ranges restyling.document.text), outcome⟩]))
      (some restyling) := by
  obtain ⟨created, undrawn⟩ := drawn_after_restyle restyled
  refine .anew rfl ?_ fun calls only => ?_
  · rw [editorCalls_append]
    exact List.mem_append_left _ created
  · rw [editorCalls_append, editorCalls_append, ← List.append_assoc,
      ← List.append_assoc, draws]
    refine (Editor.drawn_after_concat _ _).trans ?_
    rw [plain.drawn_after, undrawn calls only]
    rfl

theorem Restyles.of_apply {changed : Visibility} {shown : Option Document}
    {answer : Json} {outcome : Outcome}
    (applied : (visibility.apply shown (Settings.ofSection answer).1).Yields
      exchanges (changed, outcome)) :
    Restyles visibility.style changed.style exchanges
      (Restyling.of? true answer shown) := by
  obtain ⟨lead, found, rest, sought, goesOn, rfl⟩ := applied.bind_inv
  obtain ⟨silent, rfl⟩ := sought.target_inv
  apply Restyles.behind _ silent.plain
  rw [Restyling.of?]
  cases found : shown.filter Document.isTarget with
  | none =>
      rw [found] at goesOn
      obtain ⟨rfl, ⟨⟩⟩ := goesOn.done_inv
      exact .not (List.forall_mem_nil _) rfl
  | some document =>
      rw [found] at goesOn
      obtain ⟨first, token, later, restyled, drawing, rfl⟩ := goesOn.bind_inv
      simp only [] at drawing
      split at drawing
      case isTrue enabled =>
        obtain ⟨logs, _, _, logged, drawn, rfl⟩ := drawing.bind_inv
        obtain ⟨_, _, rfl, ended⟩ := drawn.ask_inv
        obtain ⟨rfl, ⟨⟩⟩ := ended.done_inv
        let restyling : Restyling :=
          ⟨true, (Settings.ofSection answer).1, document⟩
        have draws : restyling.displayed token =
            [(token, Signature.ranges restyling.document.text)] :=
          if_pos enabled
        exact .of_draw restyling restyled (silent_of_log logged).plain draws
      case isFalse disabled =>
        obtain ⟨logs, _, _, logged, ended, rfl⟩ := drawing.bind_inv
        obtain ⟨rfl, ⟨⟩⟩ := ended.done_inv
        rw [List.append_nil]
        refine (Restyles.of_restyle restyled ?_).before
          (silent_of_log logged).plain
        simp [Restyling.displayed, disabled]

end

/-! ## What is read before restyling -/

section

variable {lead logs rest : List Exchange} {answer : Json}
  {shown : Option Document}

theorem Exchange.section?_configuration :
    Exchange.section? ⟨.configuration configurationSection, answer⟩ =
      some answer := by
  rw [Exchange.section?, if_pos rfl]

theorem settingsRead?_append_cons
    (unread : ∀ exchange ∈ lead, exchange.section? = none) :
    settingsRead? (lead ++ ⟨.configuration configurationSection, answer⟩ ::
      rest) = some (Settings.ofSection answer).1 := by
  rw [settingsRead?, List.findSome?_append,
    List.findSome?_eq_none_iff.mpr unread, List.findSome?_cons,
    Exchange.section?_configuration]
  rfl

theorem targetRead?_append_cons
    (unseen : ∀ exchange ∈ lead, exchange.shown? = none) :
    targetRead? (lead ++ ⟨.document, shown⟩ :: rest) =
      shown.filter Document.isTarget := by
  rw [targetRead?, List.findSome?_append,
    List.findSome?_eq_none_iff.mpr unseen]
  rfl

theorem Episode.restyling?_hide
    (unread : ∀ exchange ∈ lead, exchange.section? = none)
    (silent : Silent logs) :
    Episode.restyling? ⟨.hide, lead ++ ⟨.configuration configurationSection,
        answer⟩ :: (logs ++ ⟨.document, shown⟩ :: rest)⟩ =
      Restyling.of? true answer shown := by
  have skips : (lead ++ ⟨.configuration configurationSection, answer⟩ ::
      (logs ++ ⟨.document, shown⟩ :: rest)).dropWhile
        (fun exchange => exchange.section?.isNone) =
      (⟨.configuration configurationSection, answer⟩ :: logs) ++
        ⟨.document, shown⟩ :: rest := by
    rw [List.dropWhile_append_of_pos fun exchange member => by
      rw [unread exchange member, Option.isNone_none], List.dropWhile_cons,
      Exchange.section?_configuration]
    rfl
  have unseen : ∀ exchange ∈ ⟨.configuration configurationSection, answer⟩ ::
      logs, exchange.shown? = none :=
    List.forall_mem_cons.mpr ⟨rfl, silent.shown?_eq_none⟩
  rw [Episode.restyling?, skips, settingsRead?_append_cons unread,
    targetRead?_append_cons unseen, Restyling.of?]
  cases shown.filter Document.isTarget <;> rfl

theorem Episode.restyling?_hide_of_none
    (unread : ∀ exchange ∈ lead, exchange.section? = none) :
    Episode.restyling? ⟨.hide, lead⟩ = none := by
  have none : settingsRead? lead = none := by
    rw [settingsRead?, List.findSome?_eq_none_iff.mpr unread]
    rfl
  rw [Episode.restyling?, none]
  rfl

theorem Episode.restyling?_reveal_of_none
    (unseen : ∀ exchange ∈ lead, exchange.shown? = none)
    (other : shown.filter Document.isTarget = none) :
    Episode.restyling? ⟨.reveal, lead ++ ⟨.document, shown⟩ :: rest⟩ =
      none := by
  rw [Episode.restyling?, targetRead?_append_cons unseen, other]
  rfl

theorem Episode.restyling?_reveal (silent : Silent lead)
    (silent' : Silent logs) :
    Episode.restyling? ⟨.reveal, lead ++ ⟨.document, shown⟩ :: (logs ++
        ⟨.configuration configurationSection, answer⟩ :: rest)⟩ =
      Restyling.of? false answer shown := by
  have unread : ∀ exchange ∈ lead ++ ⟨.document, shown⟩ :: logs,
      exchange.section? = none := by
    rw [List.forall_mem_append, List.forall_mem_cons]
    exact ⟨silent.section?_eq_none, rfl, silent'.section?_eq_none⟩
  have second : settingsRead? (lead ++ ⟨.document, shown⟩ :: (logs ++
      ⟨.configuration configurationSection, answer⟩ :: rest)) =
        some (Settings.ofSection answer).1 := by
    rw [← List.cons_append, ← List.append_assoc]
    exact settingsRead?_append_cons unread
  rw [Episode.restyling?, targetRead?_append_cons silent.shown?_eq_none,
    second, Restyling.of?]
  cases shown.filter Document.isTarget <;> rfl

end

/-! ## Operations -/

section

variable {coordinator changed : Coordinator} {exchanges : List Exchange}
  {outcome : Outcome}

/-- What hiding does to the style, and what it reads before. -/
structure Hides (style style' : Option StyleToken)
    (exchanges : List Exchange) : Prop where
  renews : ∀ lead more, Plain lead →
    (∀ exchange ∈ lead, exchange.section? = none) → Plain more →
    Renews style style' (lead ++ exchanges ++ more)
      (Episode.restyling? ⟨.hide, lead ++ exchanges ++ more⟩)

theorem hides_of_hide
    (hidden : coordinator.hide.Yields exchanges (changed, outcome)) :
    Hides coordinator.visibility.style changed.visibility.style exchanges := by
  obtain ⟨_, settings, _, asked, goesOn, rfl⟩ := hidden.bind_inv
  obtain ⟨answer, logs, silent, rfl, rfl⟩ := asked.settings_inv
  obtain ⟨_, shown, _, seen, answered, rfl⟩ := goesOn.bind_inv
  obtain rfl := seen.request_inv
  obtain ⟨rest, ⟨visibility, result⟩, _, applied, ended, rfl⟩ :=
    answered.bind_inv
  obtain ⟨rfl, ⟨⟩⟩ := ended.done_inv
  have renews := (Restyles.of_apply applied).renews
    (Restyling.document_of? true answer shown)
  refine ⟨fun lead more plain unread plain' => ?_⟩
  have asking : Plain (⟨.configuration configurationSection, answer⟩ ::
      logs) :=
    List.forall_mem_cons.mpr ⟨trivial, silent.plain⟩
  have read : Episode.restyling? ⟨.hide, lead ++
      ⟨.configuration configurationSection, answer⟩ ::
        (logs ++ ⟨.document, shown⟩ :: (rest ++ more))⟩ =
      Restyling.of? true answer shown :=
    Episode.restyling?_hide unread silent
  have whole := ((renews.behind asking).behind plain).before plain'
  simp only [List.append_assoc, List.cons_append, List.nil_append,
    List.append_nil] at whole ⊢
  rw [read]
  exact whole

theorem Hides.before {style style' : Option StyleToken}
    {more : List Exchange} (hides : Hides style style' exchanges)
    (plain : Plain more) : Hides style style' (exchanges ++ more) where
  renews lead rest plain' unread plain'' := by
    have whole := hides.renews lead (more ++ rest) plain' unread
      (plain.append plain'')
    simpa only [List.append_assoc] using whole

theorem hides_of_hideAndFold
    (hidden : coordinator.hideAndFold.Yields exchanges (changed, outcome)) :
    Hides coordinator.visibility.style changed.visibility.style exchanges := by
  obtain ⟨first, ⟨halfway, failure | _⟩, later, hid, goesOn, rfl⟩ :=
    hidden.bind_inv
  · obtain ⟨rfl, ⟨⟩⟩ := goesOn.done_inv
    exact (hides_of_hide hid).before (List.forall_mem_nil _)
  obtain ⟨asking, settings, _, asked, seeing, rfl⟩ := goesOn.bind_inv
  obtain ⟨looking, shown, _, seen, folding, rfl⟩ := seeing.bind_inv
  obtain ⟨folds, folded, _, foldsBlocks, ended, rfl⟩ := folding.bind_inv
  obtain ⟨rfl, ⟨⟩⟩ := ended.done_inv
  obtain rfl := seen.request_inv
  apply (hides_of_hide hid).before
  apply (plain_of_light asked asks_settings).append
  refine Plain.append (List.forall_mem_singleton.mpr trivial) ?_
  rw [List.append_nil]
  exact plain_of_light foldsBlocks (asks_foldBlocks shown settings)

/-- Revealing asks for the document, and if it is in the target language, for
the settings.  Then it restyles and makes no further request that concerns
styles. -/
theorem Interaction.Yields.showAndUnfold_inv
    (revealed : coordinator.showAndUnfold.Yields exchanges
      (changed, outcome)) :
    ∃ shown notes rest, exchanges = ⟨.document, shown⟩ :: (notes ++ rest) ∧
      Silent notes ∧
      ((shown.filter Document.isTarget = none ∧ rest = [] ∧
          changed = coordinator) ∨
        ∃ document answer logs fresh token ending,
          shown.filter Document.isTarget = some document ∧
            rest = ⟨.configuration configurationSection, answer⟩ ::
              (logs ++ (fresh ++ ending)) ∧
            Silent logs ∧
            (coordinator.visibility.restyle
              (Settings.ofSection answer).1).Yields fresh token ∧
            Plain ending ∧ changed.visibility.style = some token) := by
  obtain ⟨_, shown, _, seen, seeking, rfl⟩ := revealed.bind_inv
  obtain rfl := seen.request_inv
  obtain ⟨notes, _, rest, sought, acting, rfl⟩ := seeking.bind_inv
  obtain ⟨silent, rfl⟩ := sought.target_inv
  refine ⟨shown, notes, rest, rfl, silent, ?_⟩
  cases found : shown.filter Document.isTarget with
  | none =>
      rw [found] at acting
      obtain ⟨rfl, ⟨⟩⟩ := acting.done_inv
      exact .inl ⟨rfl, rfl, rfl⟩
  | some document =>
      rw [found] at acting
      obtain ⟨_, settings, _, asked, restyling, rfl⟩ := acting.bind_inv
      obtain ⟨answer, logs, silent', rfl, rfl⟩ := asked.settings_inv
      obtain ⟨fresh, token, ending, restyled, unfolding, rfl⟩ :=
        restyling.bind_inv
      refine .inr ⟨document, answer, logs, fresh, token, ending, rfl, rfl,
        silent', restyled, ?_⟩
      simp only [] at unfolding
      split at unfolding
      · obtain ⟨_, _, _, requested, ended, rfl⟩ := unfolding.bind_inv
        obtain rfl := requested.request_inv
        obtain ⟨rfl, ⟨⟩⟩ := ended.done_inv
        exact ⟨List.forall_mem_singleton.mpr trivial, rfl⟩
      · obtain ⟨rfl, ⟨⟩⟩ := unfolding.done_inv
        exact ⟨List.forall_mem_nil _, rfl⟩

/-- Revealing restyles and draws nothing. -/
theorem renews_of_showAndUnfold {lead more : List Exchange}
    (revealed : coordinator.showAndUnfold.Yields exchanges (changed, outcome))
    (silent : Silent lead) (plain : Plain more) :
    Renews coordinator.visibility.style changed.visibility.style
      (lead ++ exchanges ++ more)
      (Episode.restyling? ⟨.reveal, lead ++ exchanges ++ more⟩) := by
  obtain ⟨shown, notes, _, rfl, silent', ⟨found, rfl, rfl⟩ | ⟨document, answer,
    logs, fresh, token, ending, found, rfl, silent'', restyled, plain', uses⟩⟩ :=
      revealed.showAndUnfold_inv
  · have read : Episode.restyling? ⟨.reveal, lead ++ ⟨.document, shown⟩ ::
        (notes ++ more)⟩ = none :=
      Episode.restyling?_reveal_of_none silent.shown?_eq_none found
    have stays : Restyles changed.visibility.style changed.visibility.style
        notes none :=
      .not silent'.plain rfl
    have whole := ((stays.renews found.symm).behind silent.plain).before plain
    simp only [List.append_assoc, List.cons_append, List.append_nil]
      at whole ⊢
    rw [read]
    exact whole
  · let restyling : Restyling :=
      ⟨false, (Settings.ofSection answer).1, document⟩
    have read : Episode.restyling? ⟨.reveal, lead ++ ⟨.document, shown⟩ ::
        (notes ++ ⟨.configuration configurationSection, answer⟩ ::
          (logs ++ (fresh ++ (ending ++ more))))⟩ = some restyling :=
      (Episode.restyling?_reveal silent silent').trans
        (congrArg (Option.map _) found)
    have renewed : Restyles coordinator.visibility.style (some token) fresh
        (some restyling) :=
      .of_restyle restyled rfl
    have asking : Plain
        (⟨.configuration configurationSection, answer⟩ :: logs) :=
      List.forall_mem_cons.mpr ⟨trivial, silent''.plain⟩
    have renews := ((renewed.behind asking).behind silent'.plain).renews
      found.symm
    have whole := (renews.behind silent.plain).before (plain'.append plain)
    simp only [List.append_assoc, List.cons_append] at whole ⊢
    rw [uses, read]
    exact whole

/-! ## Deactivation and activation -/

theorem clears_of_deactivate
    (deactivated : coordinator.deactivate.Yields exchanges changed) :
    Clears coordinator.visibility.style changed.visibility.style
      exchanges := by
  obtain ⟨lead, debouncer, _, cancelled, tearing, rfl⟩ :=
    deactivated.bind_inv
  obtain ⟨disposing, visibility, rest, torn, closing, rfl⟩ :=
    tearing.bind_inv
  have cancelling : coordinator.debouncer.cancel.Asks Request.IsPlain
      fun _ => True := asks_cancel fun _ _ => trivial
  have unlistening (_ : Unit) : Interaction.Asks Request.IsPlain
      (fun result : Coordinator => result.visibility = visibility)
      (do
        Coordinator.unlisten coordinator.listeners
        return { coordinator with debouncer, visibility, listeners := [] }) :=
    (asks_unlisten (fun _ => trivial) _).bind fun _ _ => rfl
  have closes : Plain rest ∧ changed.visibility = visibility := by
    apply closing.of_asks
    change Interaction.Asks _ _
      (if coordinator.listeners.isEmpty = true then _ else _)
    split
    · exact unlistening ⟨⟩
    · exact ⟨trivial, fun _ => unlistening ⟨⟩⟩
  obtain ⟨plain', same⟩ := closes
  obtain ⟨plain, -⟩ := cancelled.of_asks cancelling
  constructor
  · rw [same]
    exact style_of_teardown torn
  · intro calls only
    rw [editorCalls_append, editorCalls_append, ← List.append_assoc,
      ← List.append_assoc, Plain.drawn_after plain']
    exact drawn_after_teardown (Plain.drawsOnlyWith plain only) torn

theorem clears_of_handle (handled : (coordinator.handle .shutdown).Yields
      exchanges (changed, outcome)) :
    Clears coordinator.visibility.style changed.visibility.style
      exchanges := by
  obtain ⟨lead, _, rest, logged, acting, rfl⟩ := handled.bind_inv
  obtain ⟨ending, _, _, deactivated, ended, rfl⟩ := acting.bind_inv
  obtain ⟨rfl, ⟨⟩⟩ := ended.done_inv
  rw [List.append_nil]
  exact (clears_of_deactivate deactivated).behind (silent_of_log logged).plain

theorem silent_of_conclude (concluded : (coordinator.conclude outcome).Yields
      exchanges (.ok changed)) : Silent exchanges ∧ changed = coordinator := by
  cases outcome with
  | error failure =>
      obtain ⟨_, _, _, _, ended, -⟩ := concluded.bind_inv
      exact nomatch ended.done_inv.2
  | ok _ =>
      obtain ⟨_, _, _, logged, ended, rfl⟩ := concluded.bind_inv
      obtain ⟨rfl, ⟨⟩⟩ := ended.done_inv
      rw [List.append_nil]
      exact ⟨silent_of_log logged, rfl⟩

theorem clears_of_conclude {failure : Failure}
    (concluded : (coordinator.conclude outcome).Yields exchanges
      (.error failure)) :
    Clears coordinator.visibility.style none exchanges := by
  cases outcome with
  | error failure =>
      obtain ⟨_, gone, _, deactivated, ended, rfl⟩ := concluded.bind_inv
      obtain ⟨rfl, -⟩ := ended.done_inv
      rw [List.append_nil]
      exact ⟨rfl, (clears_of_deactivate deactivated).blank⟩
  | ok _ =>
      obtain ⟨_, _, _, _, ended, -⟩ := concluded.bind_inv
      exact nomatch ended.done_inv.2

/-- Subscribing tells nothing of the settings. -/
theorem unread_of_listenTo {channel : ChannelId}
    {topics : List (Topic × Message)} {listeners : List ListenerId}
    (listening : (Coordinator.listenTo channel topics).Yields exchanges
      listeners) :
    Plain exchanges ∧ ∀ exchange ∈ exchanges, exchange.section? = none := by
  have asks : (Coordinator.listenTo channel topics).Asks
      (fun request => ∃ topic sink, request = .listen topic sink)
      fun _ => True := asks_listenTo fun pair _ => ⟨_, _, rfl⟩
  have listens := (listening.of_asks asks).1
  constructor <;> intro exchange member <;>
    obtain ⟨topic, sink, same⟩ := listens exchange member <;>
    obtain ⟨request, answer⟩ := exchange <;> subst same
  · trivial
  · rfl

/-- An activation hides before it is concluded, if a document is shown. -/
theorem renews_of_activate {channel : ChannelId}
    {result : Except Failure Coordinator}
    (activated : (Coordinator.activate channel).Yields exchanges result) :
    ∃ earlier later halfway outcome, exchanges = earlier ++ later ∧
      (Coordinator.conclude halfway outcome).Yields later result ∧
      ∀ more, Silent more → Renews none halfway.visibility.style
        (earlier ++ more) (Episode.restyling? ⟨.hide, earlier ++ more⟩) := by
  obtain ⟨lead, listeners, _, listening, looking, rfl⟩ :=
    activated.bind_inv
  obtain ⟨_, shown, rest, seen, starting, rfl⟩ := looking.bind_inv
  obtain rfl := seen.request_inv
  obtain ⟨plain, unread⟩ := unread_of_listenTo listening
  have unread' : ∀ exchange ∈ lead ++ [⟨.document, shown⟩],
      exchange.section? = none :=
    List.forall_mem_append.mpr ⟨unread, List.forall_mem_singleton.mpr rfl⟩
  rw [← List.append_assoc]
  cases shown with
  | none =>
      refine ⟨_, rest, { channel, listeners }, .ok (), rfl, starting,
        fun more silent => ?_⟩
      rw [Episode.restyling?_hide_of_none
        (List.forall_mem_append.mpr ⟨unread', silent.section?_eq_none⟩),
        List.append_assoc]
      have stays : Restyles none none more none := .not silent.plain rfl
      exact (stays.renews rfl).behind plain
  | some document =>
      obtain ⟨middle, ⟨halfway, outcome⟩, rest, hid, concluded, rfl⟩ :=
        starting.bind_inv
      refine ⟨_, rest, halfway, outcome, (List.append_assoc ..).symm,
        concluded, fun more silent => ?_⟩
      have leading : Plain (lead ++ [⟨.document, some document⟩]) :=
        plain.append (List.forall_mem_singleton.mpr trivial)
      exact (hides_of_hideAndFold hid).renews _ more leading unread'
        silent.plain

end

end SignatureVeil
