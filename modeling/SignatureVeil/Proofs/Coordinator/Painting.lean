import SignatureVeil.Proofs.Coordinator.Lifetime
import SignatureVeil.Proofs.Workspace.Display

/-!
# What is drawn, and why

An operation either leaves the styles alone or restyles: then the old style is
disposed of with all that was drawn with it, and a new one follows the settings
that the operation has read.  Only hiding draws with the new style, and only if
the settings say so.  So what is drawn at any time is told by the last
operation that restyled, and by what it had read.
-/

namespace SignatureVeil

open Interaction

/-! ## Exchanges, piece by piece -/

namespace Interaction

variable {α β : Type} {exchanges : List Exchange}

theorem Yields.ask_inv {request : Request}
    {next : request.Answer → Interaction α} {result : α}
    (yields : (Interaction.ask request next).Yields exchanges result) :
    ∃ answer rest, exchanges = ⟨request, answer⟩ :: rest ∧
      (next answer).Yields rest result := by
  cases yields with
  | ask answered => exact ⟨_, _, rfl, answered⟩

theorem Yields.done_inv {result result' : α}
    (yields : (Interaction.done result).Yields exchanges result') :
    exchanges = [] ∧ result' = result := by
  cases yields
  exact ⟨rfl, rfl⟩

theorem Yields.bind_inv {first : Interaction α} {next : α → Interaction β}
    {result : β} (yields : (first >>= next).Yields exchanges result) :
    ∃ earlier middle later, first.Yields earlier middle ∧
      (next middle).Yields later result ∧ exchanges = earlier ++ later := by
  induction first generalizing exchanges with
  | done middle => exact ⟨[], middle, exchanges, .done _, yields, rfl⟩
  | ask request answered ih =>
      obtain ⟨answer, rest, rfl, goesOn⟩ := Yields.ask_inv yields
      obtain ⟨earlier, middle, later, first, second, rfl⟩ := ih answer goesOn
      exact ⟨_, middle, later, .ask first, second, rfl⟩

theorem Yields.bind {first : Interaction α} {next : α → Interaction β}
    {later : List Exchange} {middle : α} {result : β}
    (yields : first.Yields exchanges middle)
    (continues : (next middle).Yields later result) :
    (first >>= next).Yields (exchanges ++ later) result := by
  induction yields with
  | done middle => exact continues
  | ask _ ih => exact .ask (ih continues)

theorem Yields.of_asks {allowed : Request → Prop} {ends : α → Prop}
    {interaction : Interaction α} {result : α}
    (yields : interaction.Yields exchanges result)
    (asks : interaction.Asks allowed ends) :
    (∀ exchange ∈ exchanges, allowed exchange.request) ∧ ends result := by
  induction yields with
  | done result => exact ⟨by simp, asks⟩
  | ask answered ih =>
      obtain ⟨rest, ends⟩ := ih (asks.2 _)
      exact ⟨List.forall_mem_cons.mpr ⟨asks.1, rest⟩, ends⟩

end Interaction

/-! ## Drawing -/

/-- An editor that has recorded some calls. -/
def Editor.after (calls : List EditorCall) : Editor :=
  { calls }

theorem Editor.drawn_after_concat (calls : List EditorCall)
    (call : EditorCall) :
    (Editor.after (calls ++ [call])).drawn =
      EditorCall.redraw (Editor.after calls).drawn call :=
  Editor.drawn_record (Editor.after calls) call

/-- No exchange concerns styles. -/
def Plain (exchanges : List Exchange) : Prop :=
  ∀ exchange ∈ exchanges, exchange.request.IsPlain

theorem plain_of_light {α : Type} {interaction : Interaction α}
    {exchanges : List Exchange} {result : α}
    (yields : interaction.Yields exchanges result)
    (asks : interaction.Asks Request.IsLight fun _ => True) :
    Plain exchanges :=
  fun exchange member =>
    ((yields.of_asks asks).1 exchange member).isPlain

theorem Plain.append {earlier later : List Exchange} (plain : Plain earlier)
    (plain' : Plain later) : Plain (earlier ++ later) :=
  List.forall_mem_append.mpr ⟨plain, plain'⟩

theorem Plain.drawn_after {exchanges : List Exchange}
    (plain : Plain exchanges) (calls : List EditorCall) :
    (Editor.after (calls ++ editorCalls exchanges)).drawn =
      (Editor.after calls).drawn := by
  induction exchanges generalizing calls with
  | nil => simp [editorCalls]
  | cons exchange rest ih =>
      obtain ⟨first, later⟩ := List.forall_mem_cons.mp plain
      rw [editorCalls_cons, ← List.append_assoc, ih later]
      obtain ⟨request, answer⟩ := exchange
      cases request with
      | createStyle _ | disposeStyle _ | applyDecorations _ _ => cases first
      | document | configuration _ | startTimer _ _ | cancelTimer _ | log _ =>
          exact congrArg _ (congrArg _ (List.append_nil calls))
      | _ => exact Editor.drawn_after_concat calls _

theorem Plain.drawsOnlyWith {exchanges : List Exchange}
    (plain : Plain exchanges) {style : Option StyleToken}
    {calls : List EditorCall}
    (only : (Editor.after calls).DrawsOnlyWith style) :
    (Editor.after (calls ++ editorCalls exchanges)).DrawsOnlyWith style := by
  unfold Editor.DrawsOnlyWith
  rw [plain.drawn_after]
  exact only

/-! ## Restyling -/

/-- The settings and the document that an operation read before it replaced
the style, and whether it was going to hide signatures. -/
structure Restyling where
  hides : Bool
  settings : Settings
  document : Document

/-- What is drawn after restyling. -/
def Restyling.displayed (restyling : Restyling) (token : StyleToken) :
    List (StyleToken × List Range) :=
  if restyling.hides && restyling.settings.enabled then
    [(token, Signature.ranges restyling.document.text)]
  else
    []

theorem Restyling.drawsOnlyWith {restyling : Restyling} {token : StyleToken}
    {editor : Editor} (drawn : editor.drawn = restyling.displayed token) :
    editor.DrawsOnlyWith (some token) := by
  intro entry member
  rw [drawn, Restyling.displayed] at member
  split at member
  · rw [List.mem_singleton.mp member]
  · contradiction

/-- What some exchanges do to the style in use. -/
inductive Restyles (style style' : Option StyleToken)
    (exchanges : List Exchange) : Option Restyling → Prop where
  | not (plain : Plain exchanges) (same : style' = style) :
      Restyles style style' exchanges none
  | anew {restyling : Restyling} {token : StyleToken}
      (uses : style' = some token)
      (created : .createStyle token restyling.settings.style ∈
        editorCalls exchanges)
      (draws : ∀ calls, (Editor.after calls).DrawsOnlyWith style →
        (Editor.after (calls ++ editorCalls exchanges)).drawn =
          restyling.displayed token) :
      Restyles style style' exchanges (some restyling)

/-- A document is read, and it is what these exchanges restyle for if it is in
the target language: a style is made thereafter, and it follows the settings
that were read.  Otherwise they do not restyle. -/
def Redraws (exchanges : List Exchange) (restyling : Option Restyling) :
    Prop :=
  ∃ lead shown rest, exchanges = lead ++ ⟨.document, shown⟩ :: rest ∧
    restyling.map Restyling.document = shown.filter Document.isTarget ∧
    ∀ found, restyling = some found → ∃ token,
      .createStyle token found.settings.style ∈ editorCalls rest

/-- Some exchanges treat the style as told, for the document that is read in
them. -/
structure Renews (style style' : Option StyleToken)
    (exchanges : List Exchange) (restyling : Option Restyling) : Prop where
  restyles : Restyles style style' exchanges restyling
  redraws : Redraws exchanges restyling

/-- Some exchanges leave no style, and nothing drawn. -/
structure Clears (style style' : Option StyleToken)
    (exchanges : List Exchange) : Prop where
  absent : style' = none
  blank : ∀ calls, (Editor.after calls).DrawsOnlyWith style →
    (Editor.after (calls ++ editorCalls exchanges)).drawn = []

section

variable {style style' : Option StyleToken} {exchanges : List Exchange}
  {restyling : Option Restyling}

theorem Restyles.behind {lead : List Exchange}
    (restyles : Restyles style style' exchanges restyling)
    (plain : Plain lead) :
    Restyles style style' (lead ++ exchanges) restyling := by
  cases restyles with
  | not plain' same => exact .not (plain.append plain') same
  | anew uses created draws =>
      refine .anew uses ?_ fun calls only => ?_
      · rw [editorCalls_append]
        exact List.mem_append_right _ created
      · rw [editorCalls_append, ← List.append_assoc]
        exact draws _ (plain.drawsOnlyWith only)

theorem Restyles.before {more : List Exchange}
    (restyles : Restyles style style' exchanges restyling)
    (plain : Plain more) :
    Restyles style style' (exchanges ++ more) restyling := by
  cases restyles with
  | not plain' same => exact .not (plain'.append plain) same
  | anew uses created draws =>
      refine .anew uses ?_ fun calls only => ?_
      · rw [editorCalls_append]
        exact List.mem_append_left _ created
      · rw [editorCalls_append, ← List.append_assoc, plain.drawn_after]
        exact draws _ only

theorem Redraws.behind (redraws : Redraws exchanges restyling)
    (lead : List Exchange) : Redraws (lead ++ exchanges) restyling := by
  obtain ⟨lead', shown, rest, rfl, read, creates⟩ := redraws
  exact ⟨lead ++ lead', shown, rest, by simp, read, creates⟩

theorem Redraws.before (redraws : Redraws exchanges restyling)
    (more : List Exchange) : Redraws (exchanges ++ more) restyling := by
  obtain ⟨lead, shown, rest, rfl, read, creates⟩ := redraws
  refine ⟨lead, shown, rest ++ more, by simp, read, fun found same => ?_⟩
  obtain ⟨token, created⟩ := creates found same
  rw [editorCalls_append]
  exact ⟨token, List.mem_append_left _ created⟩

/-- What follows on a document restyles for it. -/
theorem Restyles.renews {shown : Option Document}
    (restyles : Restyles style style' exchanges restyling)
    (read : restyling.map Restyling.document =
      shown.filter Document.isTarget) :
    Renews style style' (⟨.document, shown⟩ :: exchanges) restyling where
  restyles := by
    have reading : Plain [⟨.document, shown⟩] :=
      List.forall_mem_singleton.mpr trivial
    exact restyles.behind reading
  redraws := by
    refine ⟨[], shown, exchanges, rfl, read, ?_⟩
    rintro found rfl
    cases restyles with
    | anew _ created _ => exact ⟨_, created⟩

theorem Renews.behind {lead : List Exchange}
    (renews : Renews style style' exchanges restyling) (plain : Plain lead) :
    Renews style style' (lead ++ exchanges) restyling :=
  ⟨renews.restyles.behind plain, renews.redraws.behind lead⟩

theorem Renews.before {more : List Exchange}
    (renews : Renews style style' exchanges restyling) (plain : Plain more) :
    Renews style style' (exchanges ++ more) restyling :=
  ⟨renews.restyles.before plain, renews.redraws.before more⟩

theorem Restyles.drawsOnlyWith {calls : List EditorCall}
    (restyles : Restyles style style' exchanges restyling)
    (only : (Editor.after calls).DrawsOnlyWith style) :
    (Editor.after (calls ++ editorCalls exchanges)).DrawsOnlyWith style' := by
  cases restyles with
  | not plain same =>
      subst same
      exact plain.drawsOnlyWith only
  | anew uses _ draws =>
      subst uses
      exact Restyling.drawsOnlyWith (draws calls only)

theorem Clears.behind {lead : List Exchange}
    (clears : Clears style style' exchanges)
    (plain : Plain lead) : Clears style style' (lead ++ exchanges) where
  absent := clears.absent
  blank calls only := by
    rw [editorCalls_append, ← List.append_assoc]
    exact clears.blank _ (plain.drawsOnlyWith only)

theorem Clears.before {more : List Exchange}
    (clears : Clears style style' exchanges)
    (plain : Plain more) : Clears style style' (exchanges ++ more) where
  absent := clears.absent
  blank calls only := by
    rw [editorCalls_append, ← List.append_assoc, plain.drawn_after]
    exact clears.blank calls only

end

section

variable {visibility : Visibility} {exchanges : List Exchange}
  {calls : List EditorCall}

theorem style_of_teardown {torn : Visibility}
    (yields : visibility.teardown.Yields exchanges torn) :
    torn.style = none := by
  obtain ⟨style⟩ := visibility
  cases style with
  | none =>
      obtain ⟨-, rfl⟩ := yields.done_inv
      rfl
  | some token =>
      obtain ⟨_, _, -, ended⟩ := yields.ask_inv
      obtain ⟨-, rfl⟩ := ended.done_inv
      rfl

theorem drawn_after_teardown {torn : Visibility}
    (only : (Editor.after calls).DrawsOnlyWith visibility.style)
    (yields : visibility.teardown.Yields exchanges torn) :
    (Editor.after (calls ++ editorCalls exchanges)).drawn = [] := by
  obtain ⟨style⟩ := visibility
  cases style with
  | none =>
      obtain ⟨rfl, -⟩ := yields.done_inv
      simpa [editorCalls] using only.drawn_eq_nil
  | some token =>
      obtain ⟨_, _, rfl, ended⟩ := yields.ask_inv
      obtain ⟨rfl, -⟩ := ended.done_inv
      exact (Editor.drawn_after_concat _ _).trans only.redraw_dispose

theorem drawn_after_restyle {settings : Settings} {token : StyleToken}
    (yields : (visibility.restyle settings).Yields exchanges token) :
    .createStyle token settings.style ∈ editorCalls exchanges ∧
      ∀ calls, (Editor.after calls).DrawsOnlyWith visibility.style →
        (Editor.after (calls ++ editorCalls exchanges)).drawn = [] := by
  obtain ⟨earlier, torn, later, tearing, creating, rfl⟩ := yields.bind_inv
  obtain ⟨_, _, rfl, ended⟩ := creating.ask_inv
  obtain ⟨rfl, rfl⟩ := ended.done_inv
  refine ⟨?_, fun calls only => ?_⟩
  · rw [editorCalls_append]
    exact List.mem_append_right _ List.mem_cons_self
  · rw [editorCalls_append, ← List.append_assoc]
    exact (Editor.drawn_after_concat _ _).trans
      (drawn_after_teardown only tearing)

end

end SignatureVeil
