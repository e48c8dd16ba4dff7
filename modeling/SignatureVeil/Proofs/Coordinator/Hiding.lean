import SignatureVeil.Proofs.Coordinator.Requests
import SignatureVeil.Proofs.Coordinator.Selections
import SignatureVeil.Proofs.Workspace.Standing

/-!
# What hiding and folding does

While nobody else changes the document or the configuration, hiding and folding
makes the calls that these two call for, if it succeeds, and it leaves the
document with the primary selection alone, if it has folded anything.  It
succeeds if no command fails.
-/

namespace SignatureVeil

/-! ## The calls of one run -/

namespace Document

/-- The calls by which the signatures are decorated with a new style. -/
def decoratingCalls (document : Document) (settings : Settings)
    (token : StyleToken) : List EditorCall :=
  .createStyle token settings.style ::
    if settings.enabled then
      [.applyDecorations token (Signature.ranges document.text)]
    else
      []

/-- Whether there is something to fold, and it may be folded. -/
def folds (document : Document) (settings : Settings) : Bool :=
  document.isTarget && (settings.enabled && !document.foldTargets.isEmpty)

/-- The calls by which the blocks are folded. -/
def foldingCalls (document : Document) (settings : Settings) :
    List EditorCall :=
  if document.folds settings then
    [.setSelections document.foldTargets, .execute .unfoldAll, .execute .fold,
      .setSelections [document.primarySelection]]
  else
    []

/-- The document as folding leaves it. -/
def folded (document : Document) (settings : Settings) : Document :=
  if document.folds settings then
    { document with selections := [document.primarySelection] }
  else
    document

end Document

/-- The calls by which a document is hidden and folded, where a style may have
been in use and the new one gets a name. -/
def hideAndFoldCalls (shown : Option Document) (settings : Settings)
    (style : Option StyleToken) (token : StyleToken) : List EditorCall :=
  match shown.filter Document.isTarget with
  | none => []
  | some document => style.toList.map .disposeStyle ++
      (document.decoratingCalls settings token ++
        document.foldingCalls settings)

/-- The style that is in use after hiding and folding. -/
def styleAfter (shown : Option Document) (style : Option StyleToken)
    (token : StyleToken) : Option StyleToken :=
  if (shown.filter Document.isTarget).isSome then some token else style

/-- The settings in a configuration. -/
def settingsIn (configuration : Json) : Settings :=
  (Settings.ofSection
    ((configuration.member? configurationSection).getD .null)).1

open Workspace Interaction

section Run

variable {shown : Option Document} {configuration : Json}
  {calls : List EditorCall} {next : StyleToken} {workspace : Workspace}

/-- What holds when an interaction ends, if others only stand by. -/
abbrev Attains {α : Type} (post : α → Workspace → Prop) :
    Interaction α → Workspace → Prop :=
  Ensures Bystands (fun _ => True) post

theorem attains_settings
    (stands : Stands shown configuration calls next workspace) :
    Attains (fun settings later => settings = settingsIn configuration ∧
        Stands shown configuration calls next later)
      Interaction.settings workspace := by
  obtain ⟨rfl, rfl, rfl, rfl, quiet⟩ := stands
  change Ensures _ _ _ (if (Settings.ofSection
    (workspace.editor.sectionNamed configurationSection)).2 then _ else _) _
  split
  · exact ⟨rfl, rfl, rfl, rfl, rfl, quiet⟩
  · exact ⟨rfl, rfl, rfl, rfl, rfl, quiet⟩

theorem attains_target
    (stands : Stands shown configuration calls next workspace) :
    Attains (fun found later => found = shown.filter Document.isTarget ∧
        Stands shown configuration calls next later)
      (Interaction.target shown) workspace := by
  unfold Interaction.target
  split
  · exact ⟨rfl, stands.log _⟩
  · rename_i document
    rw [Option.filter_some]
    split
    · exact ⟨rfl, stands⟩
    · exact ⟨rfl, stands.log _⟩

theorem attains_teardown {visibility : Visibility}
    (stands : Stands shown configuration calls next workspace) :
    Attains (fun _ later => Stands shown configuration
        (calls ++ visibility.style.toList.map .disposeStyle) next later)
      visibility.teardown workspace := by
  obtain ⟨style⟩ := visibility
  cases style with
  | none => simpa [Visibility.teardown, Ensures] using stands
  | some token => exact stands.record _ _

theorem attains_restyle (visibility : Visibility) (settings : Settings)
    (stands : Stands shown configuration calls next workspace) :
    Attains (fun token later => token = next ∧
        Stands shown configuration
          (calls ++ visibility.style.toList.map .disposeStyle ++
            [.createStyle next settings.style]) (next + 1) later)
      (visibility.restyle settings) workspace := by
  apply (attains_teardown stands).bind
  intro _ later torn
  exact torn.createStyle settings.style

theorem attains_apply_other (visibility : Visibility) (settings : Settings)
    (stands : Stands shown configuration calls next workspace)
    (other : shown.filter Document.isTarget = none) :
    Attains (fun result later => result = (visibility, .ok ()) ∧
        Stands shown configuration calls next later)
      (visibility.apply shown settings) workspace := by
  apply (attains_target stands).bind
  rintro found later ⟨rfl, stands⟩
  rw [other]
  exact ⟨rfl, stands⟩

theorem attains_apply (visibility : Visibility) (settings : Settings)
    {document : Document}
    (stands : Stands shown configuration calls next workspace)
    (target : shown.filter Document.isTarget = some document) :
    Attains (fun result later => result.1 = ⟨some next⟩ ∧
        Stands shown configuration
          (calls ++ (visibility.style.toList.map .disposeStyle ++
            document.decoratingCalls settings next)) (next + 1) later)
      (visibility.apply shown settings) workspace := by
  apply (attains_target stands).bind
  rintro found later ⟨rfl, stands⟩
  rw [target]
  apply (attains_restyle visibility settings stands).bind
  rintro token restyled ⟨rfl, stands⟩
  simp only [Document.decoratingCalls]
  split
  · have drawn := (stands.log (.decorating document.id
      (Signature.ranges document.text).length)).record .applyDecorations
        (.applyDecorations token (Signature.ranges document.text))
    simp only [List.append_assoc, List.cons_append, List.nil_append] at drawn
    exact ⟨rfl, drawn⟩
  · have logged := stands.log .hidingDisabled
    simp only [List.append_assoc] at logged
    exact ⟨rfl, logged⟩

theorem attains_foldTargeted {document : Document}
    (stands : Stands (some document) configuration calls next workspace) :
    Attains (fun outcome later => outcome = .ok () →
        Stands
          (some { document with selections := [document.primarySelection] })
          configuration
          (calls ++ [.setSelections document.foldTargets, .execute .unfoldAll,
            .execute .fold, .setSelections [document.primarySelection]])
          next later)
      (foldTargeted document) workspace := by
  have selected := (stands.log (.folding document.id
    document.foldTargets.length)).setSelections document.foldTargets
  intro unfolded bystand
  obtain ⟨_, sameText, unfolding⟩ :=
    (selected.record (.execute .unfoldAll) _).bystands bystand
  refine ⟨trivial, ?_⟩
  cases unfolded.editor.outcomeOf (.execute .unfoldAll) with
  | error failure => exact nofun
  | ok _ =>
      intro folded bystand
      obtain ⟨_, sameText', folding⟩ :=
        (unfolding.record (.execute .fold) _).bystands bystand
      refine ⟨trivial, ?_⟩
      cases folded.editor.outcomeOf (.execute .fold) with
      | error failure => exact nofun
      | ok _ =>
          have restored := folding.setSelections [document.primarySelection]
          rw [map_selections_of_unselected (sameText'.trans sameText)]
            at restored
          intro _
          simpa using restored

theorem attains_foldBlocks (settings : Settings) {document : Document}
    (stands : Stands shown configuration calls next workspace)
    (target : shown.filter Document.isTarget = some document) :
    Attains (fun outcome later => outcome = .ok () →
        Stands (some (document.folded settings)) configuration
          (calls ++ document.foldingCalls settings) next later)
      (foldBlocks shown settings) workspace := by
  obtain ⟨rfl, isTarget⟩ := Option.filter_eq_some_iff.mp target
  have idle {later : Workspace} (folds : document.folds settings = false)
      (stands : Stands (some document) configuration calls next later) :
      Stands (some (document.folded settings)) configuration
        (calls ++ document.foldingCalls settings) next later := by
    simpa [Document.folded, Document.foldingCalls, folds] using stands
  cases enabled : settings.enabled with
  | false =>
      have folds : document.folds settings = false := by
        rw [Document.folds, enabled, Bool.false_and, Bool.and_false]
      apply (attains_target stands).bind
      rintro found later ⟨rfl, stands⟩
      rw [target]
      simp only [enabled, Bool.not_false, if_true]
      exact fun _ => idle folds stands
  | true =>
      rw [foldBlocks_eq isTarget enabled]
      split
      case isTrue nothing =>
        have folds : document.folds settings = false := by
          rw [Document.folds, nothing, List.isEmpty_nil, Bool.not_true,
            Bool.and_false, Bool.and_false]
        exact fun _ => idle folds (stands.log _)
      case isFalse something =>
        have folds : document.folds settings = true := by
          rw [Document.folds, isTarget, enabled, Bool.true_and, Bool.true_and,
            Bool.not_eq_true', List.isEmpty_eq_false_iff]
          exact something
        rw [Document.folded, Document.foldingCalls, if_pos folds, if_pos folds]
        exact attains_foldTargeted stands

/-- What is asked for first is answered as the workspace stands. -/
theorem attains_reading {α : Type} {post : α → Workspace → Prop}
    {goOn : Settings → Option Document → Interaction α}
    (stands : Stands shown configuration calls next workspace)
    (continues : ∀ later, Stands shown configuration calls next later →
      Attains post (goOn (settingsIn configuration) shown) later) :
    Attains post (do
      let settings ← Interaction.settings
      let shown ← Interaction.request .document
      goOn settings shown) workspace := by
  apply (attains_settings stands).bind
  rintro settings later ⟨rfl, stands⟩
  change Attains post
    (goOn (settingsIn configuration) later.editor.document) later
  rw [stands.document]
  exact continues later stands

/-- Without a document of the target language nothing is done. -/
theorem attains_hideAndFold_other (coordinator : Coordinator)
    (stands : Stands shown configuration calls next workspace)
    (other : shown.filter Document.isTarget = none) :
    Attains (fun result later => result = (coordinator, .ok ()) ∧
        Stands shown configuration calls next later)
      coordinator.hideAndFold workspace := by
  have hidden : Attains (fun result later => result = (coordinator, .ok ()) ∧
      Stands shown configuration calls next later)
      coordinator.hide workspace := by
    refine attains_reading stands fun later stands => ?_
    apply (attains_apply_other _ _ stands other).bind
    rintro result later ⟨rfl, stands⟩
    exact ⟨rfl, stands⟩
  apply hidden.bind
  rintro result later ⟨rfl, stands⟩
  refine attains_reading stands fun later stands => ?_
  have nothing : Attains (fun outcome later => outcome = .ok () ∧
      Stands shown configuration calls next later)
      (foldBlocks shown (settingsIn configuration)) later := by
    apply (attains_target stands).bind
    rintro found later ⟨rfl, stands⟩
    rw [other]
    exact ⟨rfl, stands⟩
  apply nothing.bind
  rintro outcome later ⟨rfl, stands⟩
  exact ⟨rfl, stands⟩

theorem attains_hideAndFold (coordinator : Coordinator) {document : Document}
    (stands : Stands shown configuration calls next workspace)
    (target : shown.filter Document.isTarget = some document) :
    Attains (fun result later => result.2 = .ok () →
        result.1.visibility.style = some next ∧
        Stands (some (document.folded (settingsIn configuration)))
          configuration
          (calls ++ hideAndFoldCalls shown (settingsIn configuration)
            coordinator.visibility.style next) (next + 1) later)
      coordinator.hideAndFold workspace := by
  have hidden : Attains (fun result later =>
      result.1.visibility.style = some next ∧
        Stands shown configuration
          (calls ++ (coordinator.visibility.style.toList.map .disposeStyle ++
            document.decoratingCalls (settingsIn configuration) next))
          (next + 1) later)
      coordinator.hide workspace := by
    refine attains_reading stands fun later stands => ?_
    apply (attains_apply _ _ stands target).bind
    rintro ⟨visibility, outcome⟩ later ⟨rfl, stands⟩
    exact ⟨rfl, stands⟩
  apply hidden.bind
  rintro ⟨changed, failure | _⟩ later ⟨style, stands⟩
  · exact nofun
  refine attains_reading stands fun later stands => ?_
  apply (attains_foldBlocks _ stands target).bind
  intro outcome later folded succeeded
  have stands := folded succeeded
  rw [List.append_assoc, List.append_assoc] at stands
  rw [hideAndFoldCalls, target]
  exact ⟨style, stands⟩

end Run

theorem map_folded_of_other {shown : Option Document} (settings : Settings)
    (other : shown.filter Document.isTarget = none) :
    (shown.map fun document => document.folded settings) = shown := by
  cases shown with
  | none => rfl
  | some document =>
      have notTarget : document.isTarget = false := by
        simpa [Option.filter_some] using other
      simp [Document.folded, Document.folds, notTarget]

theorem stands_of_hideAndFold {coordinator changed : Coordinator}
    {workspace last : Workspace} (quiet : workspace.IsQuiet)
    (carried : Carried Bystands (changed, .ok ()) last
      coordinator.hideAndFold workspace) :
    changed.visibility.style = styleAfter workspace.editor.document
        coordinator.visibility.style workspace.editor.nextToken ∧
      ∃ next, Stands (workspace.editor.document.map fun document =>
          document.folded (settingsIn workspace.editor.configuration))
        workspace.editor.configuration
        (workspace.editor.calls ++ hideAndFoldCalls workspace.editor.document
          (settingsIn workspace.editor.configuration)
          coordinator.visibility.style workspace.editor.nextToken) next
        last := by
  have stands : Stands workspace.editor.document
      workspace.editor.configuration workspace.editor.calls
      workspace.editor.nextToken workspace :=
    ⟨rfl, rfl, rfl, rfl, quiet⟩
  cases target : workspace.editor.document.filter Document.isTarget with
  | none =>
      obtain ⟨same, stands⟩ :=
        (attains_hideAndFold_other coordinator stands target).carried carried
      obtain ⟨rfl, -⟩ := Prod.mk.inj same
      rw [styleAfter, target, map_folded_of_other _ target, hideAndFoldCalls,
        target, List.append_nil]
      exact ⟨rfl, _, stands⟩
  | some document =>
      obtain ⟨style, stands⟩ :=
        (attains_hideAndFold coordinator stands target).carried carried rfl
      obtain ⟨shown, -⟩ := Option.filter_eq_some_iff.mp target
      rw [shown, Option.map_some, ← shown, styleAfter, target]
      exact ⟨style, _, stands⟩

/-! ## Where nothing fails -/

theorem heeds_apply (visibility : Visibility) (shown : Option Document)
    (settings : Settings) :
    (visibility.apply shown settings).Heeds
      fun result => result.2 = .ok () := by
  apply (heeds_of_asks (asks_target shown)).bind
  rintro (_ | document) -
  · rfl
  apply (heeds_of_asks (draws_restyle visibility settings)).bind
  intro token _
  simp only []
  split
  · apply (heeds_of_asks (asks_log _)).bind
    exact fun _ _ _ obeyed => obeyed
  · apply (heeds_of_asks (asks_log _)).bind
    exact fun _ _ => rfl

theorem heeds_foldBlocks (shown : Option Document) (settings : Settings) :
    (foldBlocks shown settings).Heeds fun outcome => outcome = .ok () := by
  apply (heeds_of_asks (asks_target shown)).bind
  rintro (_ | document) -
  · rfl
  simp only []
  split
  · rfl
  split
  · apply (heeds_of_asks (asks_log _)).bind
    exact fun _ _ => rfl
  · apply (heeds_of_asks (asks_log _)).bind
    rintro - - - - unfolded rfl folded rfl
    exact fun _ _ => rfl

theorem heeds_hideAndFold (coordinator : Coordinator) :
    coordinator.hideAndFold.Heeds fun result => result.2 = .ok () := by
  have reading {goOn : Settings → Option Document →
      Interaction (Coordinator × Outcome)}
      (continues : ∀ settings shown, (goOn settings shown).Heeds
        fun result => result.2 = .ok ()) :
      Interaction.Heeds (fun result => result.2 = .ok ()) (do
        let settings ← Interaction.settings
        let shown ← Interaction.request .document
        goOn settings shown) :=
    (heeds_of_asks asks_settings).bind
      fun settings _ shown _ => continues settings shown
  have hides : coordinator.hide.Heeds fun result => result.2 = .ok () :=
    reading fun settings shown =>
      (heeds_apply coordinator.visibility shown settings).bind
        fun _ succeeded => succeeded
  apply hides.bind
  rintro ⟨changed, outcome⟩ rfl
  exact reading fun settings shown =>
    (heeds_foldBlocks shown settings).bind fun _ succeeded => succeeded

/-- Where nothing fails, hiding and folding succeeds. -/
theorem exists_hideAndFold (coordinator : Coordinator)
    {workspace : Workspace} (obeys : workspace.Obeys) :
    ∃ changed last, Carried Bystands (changed, .ok ()) last
      coordinator.hideAndFold workspace ∧ last.Obeys := by
  obtain ⟨⟨changed, outcome⟩, last, carried⟩ :=
    exists_carried coordinator.hideAndFold workspace
  have succeeds : Ensures Eq (fun _ => True)
      (fun result later => result.2 = .ok () ∧ later.Obeys)
      coordinator.hideAndFold workspace :=
    ensures_of_heeds (heeds_hideAndFold coordinator) obeys
      fun same obeys => same ▸ obeys
  obtain ⟨rfl, obeys⟩ := succeeds.carried carried
  refine ⟨changed, last, carried.mono ?_, obeys⟩
  rintro later _ rfl
  exact Bystands.refl later

end SignatureVeil
