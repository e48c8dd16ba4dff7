import SignatureVeil.Workspace.Editor

/-!
# What an editor shows

What is drawn in an editor can be read off its calls: drawing with a style
replaces what was drawn with it before, and disposing of the style removes it.
-/

namespace SignatureVeil

/-- The ranges that are drawn after a call, each with its style. -/
def EditorCall.redraw (drawn : List (StyleToken × List Range)) :
    EditorCall → List (StyleToken × List Range)
  | .applyDecorations token ranges =>
      (drawn.filter fun entry => entry.1 ≠ token) ++ [(token, ranges)]
  | .disposeStyle token => drawn.filter fun entry => entry.1 ≠ token
  | _ => drawn

namespace Editor

/-- The ranges that are drawn, each with its style. -/
def drawn (editor : Editor) : List (StyleToken × List Range) :=
  editor.calls.foldl EditorCall.redraw []

@[simp]
theorem drawn_record (editor : Editor) (call : EditorCall) :
    (editor.record call).drawn = EditorCall.redraw editor.drawn call := by
  simp [drawn, record]

/-- The text that is shown, if it belongs to a document of the target
language. -/
def targetText? (editor : Editor) : Option String :=
  (editor.document.filter Document.isTarget).map Document.text

/-- Everything drawn in the editor belongs to one style. -/
def DrawsOnlyWith (style : Option StyleToken) (editor : Editor) : Prop :=
  ∀ entry ∈ editor.drawn, style = some entry.1

theorem DrawsOnlyWith.drawn_eq_nil {editor : Editor}
    (only : editor.DrawsOnlyWith none) : editor.drawn = [] := by
  apply List.eq_nil_iff_forall_not_mem.mpr
  intro entry member
  simpa using only entry member

theorem DrawsOnlyWith.redraw_dispose {editor : Editor} {token : StyleToken}
    (only : editor.DrawsOnlyWith (some token)) :
    EditorCall.redraw editor.drawn (.disposeStyle token) = [] := by
  rw [EditorCall.redraw, List.filter_eq_nil_iff]
  intro entry member
  have same := Option.some.inj (only entry member)
  simp [same]

end Editor

end SignatureVeil
