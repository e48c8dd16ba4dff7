import SignatureVeil.Document
import SignatureVeil.Json.Value
import SignatureVeil.LogRecord
import SignatureVeil.Settings.Basic

/-!
# What the editor can be asked for

The coordinator acts on its surroundings by requests: it asks the editor for
the document and the configuration, has it draw, select, fold and report, and
has timers started and cancelled for it.  Every request has one kind of
answer.
-/

namespace SignatureVeil

abbrev StyleToken := Nat

abbrev ListenerId := Nat

abbrev ChannelId := Nat

abbrev TimerId := Nat

/-- The commands of the editor that are used.  Both act on the selections of
the document. -/
inductive EditorCommand where
  | fold
  | unfoldAll
  deriving DecidableEq, Repr

def EditorCommand.id : EditorCommand → String
  | .fold => "editor.fold"
  | .unfoldAll => "editor.unfoldAll"

/-- A message that is posted to a channel each time something happens. -/
structure Sink where
  message : Message
  channel : ChannelId
  deriving DecidableEq, Repr

/-- The description of a sink, given whether its channel is closed. -/
def Sink.description (sink : Sink) (closed : Bool) : String :=
  "EventSink \x7b message: " ++ sink.message.label ++ ", closed: " ++
    toString closed ++ " \x7d"

inductive Topic where
  | event (event : EditorEvent)
  | command (given : Command)
  deriving DecidableEq, Repr

inductive Request where
  | document
  | configuration (name : String)
  | createStyle (style : DecorationStyle)
  /-- The end of a decoration style and of all that is drawn with it. -/
  | disposeStyle (token : StyleToken)
  /-- Drawing these ranges, and no others, with a style. -/
  | applyDecorations (token : StyleToken) (ranges : List Range)
  | setSelections (selections : List Selection)
  | execute (command : EditorCommand)
  | listen (topic : Topic) (sink : Sink)
  | unlisten (listener : ListenerId)
  /-- Posting to a sink once, after a delay in milliseconds. -/
  | startTimer (delay : Nat) (sink : Sink)
  /-- The end of a timer that may not have run out. -/
  | cancelTimer (timer : TimerId)
  | log (entry : LogRecord)
  deriving Repr

def Request.Answer : Request → Type
  | .document => Option Document
  | .configuration _ => Json
  | .createStyle _ => StyleToken
  | .disposeStyle _ => Unit
  | .applyDecorations _ _ => Outcome
  | .setSelections _ => Unit
  | .execute _ => Outcome
  | .listen _ _ => ListenerId
  | .unlisten _ => Unit
  | .startTimer _ _ => TimerId
  | .cancelTimer _ => Unit
  | .log _ => Unit

end SignatureVeil
