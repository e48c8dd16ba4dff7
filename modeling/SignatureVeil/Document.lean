import SignatureVeil.Signature.Ranges

/-!
# Documents

A document is a snapshot of what an editor shows: an identity, a language, a
text and the selections in it.  Signatures are hidden only in documents of one
language.  The blocks that may be folded are those that do not hold the
cursor.
-/

namespace SignatureVeil

/-- Only documents of this language have signatures to hide. -/
def targetLanguage : String :=
  "ruby"

/-- A snapshot of the document that an editor shows. -/
structure Document where
  id : Nat
  language : String
  text : String
  selections : List Selection
  deriving DecidableEq, Repr

namespace Document

/-- The language must be the target language letter by letter. -/
def isTarget (document : Document) : Bool :=
  document.language = targetLanguage

/-- The first selection; a document that has none has its cursor at the
origin. -/
def primarySelection (document : Document) : Selection :=
  document.selections.headD .origin

/-- The line of the moving end of the primary selection. -/
def cursorLine (document : Document) : UInt32 :=
  document.primarySelection.active.line

/-- One caret for each block signature that does not hold the cursor line, at
the beginning of the line on which the block starts. -/
def foldTargets (document : Document) : List Selection :=
  let index := LineIndex.ofText document.text
  let blocks := (Signature.regions .block document.text).map fun region =>
    index.range region.start region.stop
  (blocks.filter fun block => !block.containsLine document.cursorLine).map
    fun block => .caret ⟨block.start.line, 0⟩

end Document

end SignatureVeil
