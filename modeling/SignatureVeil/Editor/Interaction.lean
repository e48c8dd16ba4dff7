import SignatureVeil.Editor.Request
import SignatureVeil.Settings.Section

/-!
# Interactions

An interaction is a finite dialogue: it makes a request, goes on in a way that
depends on the answer, and ends with a result.  What the coordinator does is
described by interactions, so that it can be carried out in any surroundings
and be interrupted wherever a request takes time.
-/

namespace SignatureVeil

/-- A finite dialogue that ends with a result. -/
inductive Interaction (α : Type) where
  | done (result : α)
  | ask (request : Request) (next : request.Answer → Interaction α)

namespace Interaction

variable {α β : Type}

/-- Go on with another interaction that depends on the result of the first. -/
def bind (first : Interaction α) (next : α → Interaction β) :
    Interaction β :=
  match first with
  | .done result => next result
  | .ask request answered =>
      .ask request fun answer => (answered answer).bind next

instance : Monad Interaction where
  pure := .done
  bind := .bind

def request (request : Request) : Interaction request.Answer :=
  .ask request .done

def log (entry : LogRecord) : Interaction Unit :=
  .ask (.log entry) fun _ => .done ()

/-- Ask for the settings in force.  They are read anew every time, and every
time a section is refused there is a warning. -/
def settings : Interaction Settings :=
  .ask (.configuration configurationSection) fun (answer : Json) =>
    let (settings, refused) := Settings.ofSection answer
    if refused then
      .ask (.log .sectionRefused) fun _ => .done settings
    else
      .done settings

/-- The document of a snapshot, if there is one in the target language. -/
def target (shown : Option Document) : Interaction (Option Document) :=
  match shown with
  | none => .ask (.log .noDocument) fun _ => .done none
  | some document =>
      if document.isTarget then
        .done (some document)
      else
        .ask (.log (.otherLanguage document.language)) fun _ => .done none

end Interaction

end SignatureVeil
