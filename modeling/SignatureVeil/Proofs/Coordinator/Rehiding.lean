import SignatureVeil.Proofs.Coordinator.Hiding
import SignatureVeil.Proofs.Coordinator.Painting
import SignatureVeil.Proofs.Coordinator.Possessions

/-!
# Hiding and folding again

To hide and to fold changes what it reads: the selections of the user are
replaced by the first one alone, and the style by a new one.  All the same, who
hides and folds once more makes the same calls, apart from the names of the
styles, and leaves the document as it was found.
-/

namespace SignatureVeil

open Workspace

/-! ## A folded document -/

namespace Document

variable (document : Document) (settings : Settings)

/-- Folding leaves everything as it was that hiding and folding depend on. -/
theorem folded_cases :
    document.folded settings = document ∨
      document.folded settings =
        { document with selections := [document.primarySelection] } := by
  unfold folded
  split
  · exact .inr rfl
  · exact .inl rfl

@[simp]
theorem isTarget_folded :
    (document.folded settings).isTarget = document.isTarget := by
  rcases document.folded_cases settings with same | same
  · rw [same]
  · rw [same]
    rfl

@[simp]
theorem decoratingCalls_folded (token : StyleToken) :
    (document.folded settings).decoratingCalls settings token =
      document.decoratingCalls settings token := by
  rcases document.folded_cases settings with same | same
  · rw [same]
  · rw [same]
    rfl

@[simp]
theorem foldingCalls_folded :
    (document.folded settings).foldingCalls settings =
      document.foldingCalls settings := by
  rcases document.folded_cases settings with same | same
  · rw [same]
  · rw [same]
    rfl

@[simp]
theorem folded_folded :
    (document.folded settings).folded settings = document.folded settings := by
  cases folds : document.folds settings with
  | true =>
      rw [folded, folded, if_pos folds]
      exact if_pos folds
  | false =>
      have same : document.folded settings = document := by
        rw [folded, folds]
        rfl
      rw [same, same]

end Document

theorem filter_isTarget_folded (shown : Option Document)
    (settings : Settings) :
    (shown.map fun document => document.folded settings).filter
        Document.isTarget =
      (shown.filter Document.isTarget).map fun document =>
        document.folded settings := by
  cases shown with
  | none => rfl
  | some document =>
      rw [Option.map_some, Option.filter_some, Option.filter_some,
        Document.isTarget_folded]
      split <;> rfl

theorem styleAfter_folded (shown : Option Document) (settings : Settings)
    (style : Option StyleToken) (token : StyleToken) :
    styleAfter (shown.map fun document => document.folded settings) style
        token =
      styleAfter shown style token := by
  rw [styleAfter, filter_isTarget_folded, Option.isSome_map, styleAfter]

theorem hideAndFoldCalls_folded (shown : Option Document)
    (settings : Settings) (style : Option StyleToken) (token : StyleToken) :
    hideAndFoldCalls (shown.map fun document => document.folded settings)
        settings style token =
      hideAndFoldCalls shown settings style token := by
  rw [hideAndFoldCalls, hideAndFoldCalls, filter_isTarget_folded]
  cases shown.filter Document.isTarget with
  | none => rfl
  | some document =>
      simp only [Option.map_some, Document.decoratingCalls_folded,
        Document.foldingCalls_folded]

/-! ## What one run leaves -/

/-- The ranges of a document that are drawn after hiding and folding. -/
def rangesDrawn (document : Document) (settings : Settings) :
    List (List Range) :=
  if settings.enabled then [Signature.ranges document.text] else []

theorem drawn_after_hideAndFoldCalls {calls : List EditorCall}
    {style : Option StyleToken}
    (only : (Editor.after calls).DrawsOnlyWith style)
    (shown : Option Document) (settings : Settings) (token : StyleToken) :
    (Editor.after
        (calls ++ hideAndFoldCalls shown settings style token)).drawn =
      match shown.filter Document.isTarget with
      | none => (Editor.after calls).drawn
      | some document =>
          (rangesDrawn document settings).map (token, ·) := by
  rw [hideAndFoldCalls]
  cases shown.filter Document.isTarget with
  | none => rw [List.append_nil]
  | some document =>
      have cleared : (Editor.after
          (calls ++ style.toList.map .disposeStyle)).drawn = [] := by
        cases style with
        | none =>
            exact (congrArg _ (congrArg _ (List.append_nil calls))).trans
              only.drawn_eq_nil
        | some old =>
            exact (Editor.drawn_after_concat _ _).trans only.redraw_dispose
      have folding (drawn : List (StyleToken × List Range)) :
          (document.foldingCalls settings).foldl EditorCall.redraw drawn =
            drawn := by
        rw [Document.foldingCalls]
        split <;> rfl
      unfold Editor.drawn at cleared ⊢
      simp only [Editor.after] at cleared ⊢
      rw [← List.append_assoc, List.foldl_append, cleared, List.foldl_append,
        folding, Document.decoratingCalls, rangesDrawn]
      split <;> rfl

theorem drawsOnlyWith_hideAndFoldCalls {calls : List EditorCall}
    {style : Option StyleToken}
    (only : (Editor.after calls).DrawsOnlyWith style)
    (shown : Option Document) (settings : Settings) (token : StyleToken) :
    (Editor.after
        (calls ++ hideAndFoldCalls shown settings style token)).DrawsOnlyWith
      (styleAfter shown style token) := by
  rw [Editor.DrawsOnlyWith, drawn_after_hideAndFoldCalls only, styleAfter]
  cases shown.filter Document.isTarget with
  | none => exact only
  | some document =>
      intro entry member
      obtain ⟨ranges, -, rfl⟩ := List.mem_map.mp member
      rfl

theorem map_snd_drawn_again {calls : List EditorCall}
    {style : Option StyleToken}
    (only : (Editor.after calls).DrawsOnlyWith style)
    (shown : Option Document) (settings : Settings)
    (token token' : StyleToken) :
    (Editor.after (calls ++ hideAndFoldCalls shown settings style token ++
        hideAndFoldCalls shown settings (styleAfter shown style token)
          token')).drawn.map Prod.snd =
      (Editor.after (calls ++
        hideAndFoldCalls shown settings style token)).drawn.map Prod.snd := by
  rw [drawn_after_hideAndFoldCalls
    (drawsOnlyWith_hideAndFoldCalls only shown settings token)]
  cases target : shown.filter Document.isTarget with
  | none => rfl
  | some document =>
      rw [drawn_after_hideAndFoldCalls only, target]
      simp only [List.map_map, Function.comp_def]

section Run

variable {coordinator changed : Coordinator} {workspace last : Workspace}

theorem Coordinator.Possesses.rehidden {outcome : Outcome}
    (possesses : coordinator.Possesses workspace)
    (carried : Carried Bystands (changed, outcome) last
      coordinator.hideAndFold workspace) : changed.Possesses last :=
  (possesses.visual (carried.mono fun _ _ bystands => bystands.spares)
    (asks_hideAndFold coordinator) Prod.fst (fun _ continues => continues)
    fun _ fits => leads_hideAndFold fits).possesses

theorem Coordinator.Possesses.live
    (possesses : coordinator.Possesses workspace) :
    liveTokens workspace.editor.calls =
      coordinator.visibility.style.toList := by
  obtain ⟨stage, reached, fits⟩ := possesses.stage
  rw [(TokenStage.accounts_of_afterAll? reached
    possesses.holds.numbered.created).live, fits]

end Run

/-! ## Again -/

/-- If hiding and folding succeeds and later succeeds again, with the document
and the configuration as they were left, then both times the calls are those
for the same document and the same settings, apart from which style is given
back and which is made.  The document with its selections is as the first time
left it, and a style is in use exactly if one was.  For a coordinator that
knows its styles, these are all that is live, and if nothing else was drawn,
the same ranges are drawn, with these styles alone. -/
theorem hideAndFold_again {coordinator once twice : Coordinator}
    {workspace middle between last : Workspace} (quiet : workspace.IsQuiet)
    (first : Carried Bystands (once, .ok ()) middle coordinator.hideAndFold
      workspace)
    (meanwhile : Bystands middle between)
    (unchanged : between.editor.document = middle.editor.document)
    (second : Carried Bystands (twice, .ok ()) last once.hideAndFold
      between) :
    middle.editor.calls = workspace.editor.calls ++
        hideAndFoldCalls workspace.editor.document
          (settingsIn workspace.editor.configuration)
          coordinator.visibility.style workspace.editor.nextToken ∧
      last.editor.calls = middle.editor.calls ++
        hideAndFoldCalls workspace.editor.document
          (settingsIn workspace.editor.configuration)
          once.visibility.style middle.editor.nextToken ∧
      last.editor.document = middle.editor.document ∧
      twice.visibility.style.isSome = once.visibility.style.isSome ∧
      (coordinator.Possesses workspace →
        liveTokens middle.editor.calls = once.visibility.style.toList ∧
          liveTokens last.editor.calls = twice.visibility.style.toList) ∧
      (workspace.editor.DrawsOnlyWith coordinator.visibility.style →
        middle.editor.DrawsOnlyWith once.visibility.style ∧
          last.editor.DrawsOnlyWith twice.visibility.style ∧
          last.editor.drawn.map Prod.snd =
            middle.editor.drawn.map Prod.snd) := by
  set shown := workspace.editor.document
  set settings := settingsIn workspace.editor.configuration
  obtain ⟨styled, next, stands⟩ := stands_of_hideAndFold quiet first
  obtain ⟨restyled, next', again⟩ :=
    stands_of_hideAndFold (meanwhile.quiet stands.quiet) second
  -- the second time finds what the first one left
  have configuration : between.editor.configuration =
      workspace.editor.configuration :=
    meanwhile.configuration.trans stands.configuration
  have calls := stands.calls
  have calls' := again.calls
  have document := again.document
  rw [unchanged, stands.document, configuration, hideAndFoldCalls_folded,
    meanwhile.spares.calls, meanwhile.spares.nextToken] at calls'
  rw [unchanged, stands.document, configuration, Option.map_map] at document
  rw [unchanged, stands.document, styleAfter_folded,
    meanwhile.spares.nextToken] at restyled
  refine ⟨calls, calls', ?_, ?_, ?_, ?_⟩
  · rw [document, stands.document]
    simp only [Function.comp_def, Document.folded_folded]
  · rw [restyled, styled, styleAfter, styleAfter]
    split <;> rfl
  · intro possesses
    have possesses := possesses.rehidden first
    exact ⟨possesses.live,
      ((possesses.spares meanwhile.spares).rehidden second).live⟩
  · intro only
    have drawsOnly : (Editor.after middle.editor.calls).DrawsOnlyWith
        once.visibility.style := by
      rw [calls, styled]
      exact drawsOnlyWith_hideAndFoldCalls only _ _ _
    have drawsOnly' : (Editor.after last.editor.calls).DrawsOnlyWith
        twice.visibility.style := by
      rw [calls', restyled]
      exact drawsOnlyWith_hideAndFoldCalls drawsOnly _ _ _
    refine ⟨drawsOnly, drawsOnly', ?_⟩
    have drawn := map_snd_drawn_again only shown settings
      workspace.editor.nextToken middle.editor.nextToken
    rwa [← styled, ← calls, ← calls'] at drawn

/-- A block and an inline signature, and two selections of the user. -/
def selectedTwice : Document :=
  ⟨1, "ruby", "sig do\nend\nsig \x7b void \x7d\nx\n",
    [.caret ⟨3, 1⟩, .caret ⟨0, 2⟩]⟩

/-- What is done about it with a style of some name. -/
def selectedTwiceCalls (token : StyleToken) : List EditorCall :=
  [.createStyle token Settings.default.style,
    .applyDecorations token [⟨⟨0, 0⟩, ⟨1, 3⟩⟩, ⟨⟨2, 0⟩, ⟨2, 12⟩⟩],
    .setSelections [.caret ⟨0, 0⟩], .execute .unfoldAll, .execute .fold,
    .setSelections [.caret ⟨3, 1⟩]]

theorem hideAndFoldCalls_selectedTwice (style : Option StyleToken)
    (token : StyleToken) :
    hideAndFoldCalls (some selectedTwice) .default style token =
      style.toList.map .disposeStyle ++ selectedTwiceCalls token := by
  have target : (some selectedTwice).filter Document.isTarget =
      some selectedTwice := rfl
  have ranges : Signature.ranges selectedTwice.text =
      [⟨⟨0, 0⟩, ⟨1, 3⟩⟩, ⟨⟨2, 0⟩, ⟨2, 12⟩⟩] := by
    decide +kernel
  have folding : selectedTwice.foldingCalls .default =
      [.setSelections [.caret ⟨0, 0⟩], .execute .unfoldAll, .execute .fold,
        .setSelections [.caret ⟨3, 1⟩]] := by
    decide +kernel
  rw [hideAndFoldCalls, target]
  simp only [Document.decoratingCalls, ranges, folding]
  rfl

/-- The second time the same ranges are drawn and the same block is folded,
although one of the selections has been given up the first time. -/
theorem hideAndFold_again_selectedTwice :
    ∃ (once twice : Coordinator) (middle last : Workspace)
      (old new : StyleToken),
      Carried Bystands (once, .ok ()) middle
        (Coordinator.hideAndFold { channel := 0 })
        { editor := { document := some selectedTwice } } ∧
      Carried Bystands (twice, .ok ()) last once.hideAndFold middle ∧
      middle.editor.calls = selectedTwiceCalls old ∧
      last.editor.calls = middle.editor.calls ++
        .disposeStyle old :: selectedTwiceCalls new ∧
      last.editor.document = middle.editor.document ∧
      liveTokens middle.editor.calls = [old] ∧
      liveTokens last.editor.calls = [new] ∧
      last.editor.drawn.map Prod.snd = middle.editor.drawn.map Prod.snd := by
  let workspace : Workspace := { editor := { document := some selectedTwice } }
  let coordinator : Coordinator := { channel := 0 }
  have obeys : workspace.Obeys := ⟨rfl, rfl⟩
  have quiet : workspace.IsQuiet :=
    fun _ member => absurd member List.not_mem_nil
  have possesses : coordinator.Possesses workspace := by
    refine ⟨⟨⟨.nil, ?_, .nil, ?_⟩, rfl, .nil, ?_⟩, rfl, .absent, rfl, rfl⟩ <;>
      exact fun _ member => absurd member List.not_mem_nil
  have only : workspace.editor.DrawsOnlyWith none :=
    fun _ member => absurd member List.not_mem_nil
  obtain ⟨once, middle, first, obeys'⟩ := exists_hideAndFold coordinator obeys
  obtain ⟨twice, last, second, -⟩ := exists_hideAndFold once obeys'
  obtain ⟨calls, calls', document, -, live, drawn⟩ :=
    hideAndFold_again quiet first (Bystands.refl middle) rfl second
  obtain ⟨live, live'⟩ := live possesses
  obtain ⟨-, -, drawn⟩ := drawn only
  obtain ⟨style, _, stands⟩ := stands_of_hideAndFold quiet first
  obtain ⟨style', -⟩ := stands_of_hideAndFold stands.quiet second
  rw [stands.document, styleAfter_folded] at style'
  rw [style] at calls' live
  rw [style'] at live'
  refine ⟨once, twice, middle, last, _, _, first, second, ?_, ?_, document,
    live, live', drawn⟩
  · exact calls.trans (hideAndFoldCalls_selectedTwice none 1)
  · exact calls'.trans (congrArg _ (hideAndFoldCalls_selectedTwice _ _))

end SignatureVeil
