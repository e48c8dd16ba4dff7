import SignatureVeil.Coordinator.Folding
import SignatureVeil.Workspace.Editor

/-!
# What passes between an interaction and an editor

All that the surroundings contribute to an interaction are the answers to its
requests.  So what can happen in any surroundings is told by the exchanges
that an interaction can go through, each a request with some answer to it, and
by the result with which it then ends.
-/

namespace SignatureVeil

/-- A request together with the answer that it was given. -/
structure Exchange where
  request : Request
  answer : request.Answer

/-- What an editor records of an exchange.  Questions, timers and log records
leave no trace. -/
def Exchange.call? : Exchange → Option EditorCall
  | ⟨.createStyle style, (token : StyleToken)⟩ =>
      some (.createStyle token style)
  | ⟨.disposeStyle token, _⟩ => some (.disposeStyle token)
  | ⟨.applyDecorations token ranges, _⟩ =>
      some (.applyDecorations token ranges)
  | ⟨.setSelections selections, _⟩ => some (.setSelections selections)
  | ⟨.execute command, _⟩ => some (.execute command)
  | ⟨.listen topic _, (listener : ListenerId)⟩ =>
      some (.listen topic listener)
  | ⟨.unlisten listener, _⟩ => some (.unlisten listener)
  | _ => none

/-- The calls of an editor in the course of some exchanges. -/
def editorCalls (exchanges : List Exchange) : List EditorCall :=
  exchanges.filterMap Exchange.call?

theorem editorCalls_append (earlier later : List Exchange) :
    editorCalls (earlier ++ later) =
      editorCalls earlier ++ editorCalls later :=
  List.filterMap_append

theorem editorCalls_cons (first : Exchange) (rest : List Exchange) :
    editorCalls (first :: rest) = first.call?.toList ++ editorCalls rest := by
  simp only [editorCalls, List.filterMap_cons]
  cases first.call? <;> rfl

namespace Interaction

variable {α β : Type}

/-- An interaction goes through some exchanges and ends with a result. -/
inductive Yields : Interaction α → List Exchange → α → Prop where
  | done (result : α) : Yields (.done result) [] result
  | ask {request : Request} {next : request.Answer → Interaction α}
      {answer : request.Answer} {exchanges : List Exchange} {result : α}
      (answered : Yields (next answer) exchanges result) :
      Yields (.ask request next) (⟨request, answer⟩ :: exchanges) result

/-! ## Which requests are made -/

/-- Whatever it is answered, an interaction makes none but the allowed
requests, and ends with a result of some kind. -/
def Asks (allowed : Request → Prop) (ends : α → Prop) : Interaction α → Prop
  | .done result => ends result
  | .ask request next =>
      allowed request ∧ ∀ answer, (next answer).Asks allowed ends

variable {allowed allowed' : Request → Prop} {ends ends' : α → Prop}

theorem Asks.mono {interaction : Interaction α}
    (asks : interaction.Asks allowed ends)
    (more : ∀ request, allowed request → allowed' request)
    (weaker : ∀ result, ends result → ends' result) :
    interaction.Asks allowed' ends' := by
  induction interaction with
  | done result => exact weaker result asks
  | ask request next ih =>
      exact ⟨more request asks.1, fun answer => ih answer (asks.2 answer)⟩

theorem Asks.bind {first : Interaction α} {next : α → Interaction β}
    {ends' : β → Prop} (asks : first.Asks allowed ends)
    (continues : ∀ result, ends result → (next result).Asks allowed ends') :
    (first >>= next).Asks allowed ends' := by
  induction first with
  | done result => exact continues result asks
  | ask request answered ih =>
      exact ⟨asks.1, fun answer => ih answer (asks.2 answer)⟩

end Interaction

/-- Whether a request is a question or a record in the log. -/
def Request.IsInquiry : Request → Prop
  | .document | .configuration _ | .log _ => True
  | _ => False

/-- Whether a request concerns neither styles nor listeners nor timers. -/
def Request.IsLight : Request → Prop
  | .document | .configuration _ | .setSelections _ | .execute _ | .log _ =>
      True
  | _ => False

/-- Whether a request concerns neither listeners nor timers. -/
def Request.IsVisual : Request → Prop
  | .listen _ _ | .unlisten _ | .startTimer _ _ | .cancelTimer _ => False
  | _ => True

/-- Whether a request is answered without waiting. -/
def Request.IsPrompt (request : Request) : Prop :=
  ∀ command, request ≠ .execute command

theorem Request.IsInquiry.isLight {request : Request}
    (inquiry : request.IsInquiry) : request.IsLight := by
  cases request <;> trivial

theorem Request.IsLight.isVisual {request : Request}
    (light : request.IsLight) : request.IsVisual := by
  cases request <;> trivial

open Interaction

/-- Whether a record is a remark on what is being done.  The others tell of
timers, of failures, or of the beginning and the end. -/
def LogRecord.isRemark : LogRecord → Bool
  | .noDocument | .otherLanguage _ | .handling _ | .hidingDisabled
  | .decorating _ _ | .nothingToFold _ | .folding _ _ | .sectionRefused => true
  | _ => false

/-- One may ask for the configuration, and make remarks. -/
structure AllowsInquiry (allowed : Request → Prop) : Prop where
  configuration : ∀ name, allowed (.configuration name)
  remark : ∀ entry : LogRecord, entry.isRemark = true → allowed (.log entry)

structure AllowsFolding (allowed : Request → Prop) : Prop
    extends AllowsInquiry allowed where
  setSelections : ∀ selections, allowed (.setSelections selections)
  execute : ∀ command, allowed (.execute command)

section

variable {allowed : Request → Prop}

theorem AllowsInquiry.log (allows : AllowsInquiry allowed)
    {entry : LogRecord} (remark : entry.isRemark = true) :
    (Interaction.log entry).Asks allowed fun _ => True :=
  ⟨allows.remark entry remark, fun _ => trivial⟩

theorem AllowsInquiry.settings (allows : AllowsInquiry allowed) :
    Interaction.settings.Asks allowed fun _ => True := by
  refine ⟨allows.configuration _, fun answer => ?_⟩
  change Asks _ _ (if (Settings.ofSection answer).2 then _ else _)
  split
  · exact allows.log rfl
  · exact trivial

theorem AllowsInquiry.target (allows : AllowsInquiry allowed)
    (shown : Option Document) :
    (Interaction.target shown).Asks allowed fun _ => True := by
  unfold Interaction.target
  split
  · exact allows.log rfl
  · split
    · exact trivial
    · exact allows.log rfl

/-- Folding only asks for commands and selections. -/
theorem AllowsFolding.foldBlocks (allows : AllowsFolding allowed)
    (shown : Option Document) (settings : Settings) :
    (foldBlocks shown settings).Asks allowed fun _ => True := by
  apply (allows.target shown).bind
  rintro (_ | document) -
  · exact trivial
  simp only []
  split
  · exact trivial
  split
  · exact (allows.log rfl).bind fun _ _ => trivial
  apply (allows.log rfl).bind
  refine fun _ _ => ⟨allows.setSelections _, fun _ =>
    ⟨allows.execute _, fun unfolded => ?_⟩⟩
  cases unfolded with
  | error failure => exact trivial
  | ok _ =>
      refine ⟨allows.execute _, fun folded => ?_⟩
      cases folded with
      | error failure => exact trivial
      | ok _ => exact ⟨allows.setSelections _, fun _ => trivial⟩

end

theorem Request.IsInquiry.allowsInquiry : AllowsInquiry Request.IsInquiry :=
  ⟨fun _ => trivial, fun _ _ => trivial⟩

theorem Request.IsLight.allowsFolding : AllowsFolding Request.IsLight :=
  ⟨⟨fun _ => trivial, fun _ _ => trivial⟩, fun _ => trivial, fun _ => trivial⟩

theorem inquires_log (entry : LogRecord) :
    (Interaction.log entry).Asks Request.IsInquiry fun _ => True :=
  ⟨trivial, fun _ => trivial⟩

theorem inquires_settings :
    Interaction.settings.Asks Request.IsInquiry fun _ => True :=
  Request.IsInquiry.allowsInquiry.settings

theorem inquires_target (shown : Option Document) :
    (Interaction.target shown).Asks Request.IsInquiry fun _ => True :=
  Request.IsInquiry.allowsInquiry.target shown

theorem asks_of_inquiry {α : Type} {interaction : Interaction α}
    (asks : interaction.Asks Request.IsInquiry fun _ => True) :
    interaction.Asks Request.IsLight fun _ => True :=
  asks.mono (fun _ inquiry => inquiry.isLight) fun _ holds => holds

theorem asks_log (entry : LogRecord) :
    (Interaction.log entry).Asks Request.IsLight fun _ => True :=
  asks_of_inquiry (inquires_log entry)

theorem asks_settings :
    Interaction.settings.Asks Request.IsLight fun _ => True :=
  asks_of_inquiry inquires_settings

theorem asks_target (shown : Option Document) :
    (Interaction.target shown).Asks Request.IsLight fun _ => True :=
  asks_of_inquiry (inquires_target shown)

theorem asks_foldBlocks (shown : Option Document) (settings : Settings) :
    (foldBlocks shown settings).Asks Request.IsLight fun _ => True :=
  Request.IsLight.allowsFolding.foldBlocks shown settings

end SignatureVeil
