/-!
# Events, commands and messages

Everything that makes the coordinator act reaches it as a message: a change
that the editor reports, a command of the user, the end of the quiet period
after an edit, or the order to shut down.
-/

namespace SignatureVeil

inductive EditorEvent where
  | activeEditorChanged
  | documentChanged
  deriving DecidableEq, Repr

/-- All editor events, in the order in which they are subscribed to. -/
def EditorEvent.all : List EditorEvent :=
  [.activeEditorChanged, .documentChanged]

inductive Command where
  | hideSignatures
  | showSignatures
  deriving DecidableEq, Repr

namespace Command

/-- All commands, in the order in which they are registered. -/
def all : List Command :=
  [.hideSignatures, .showSignatures]

/-- The identifier under which a command is registered. -/
def id : Command → String
  | .hideSignatures => "byesig.hideSig"
  | .showSignatures => "byesig.showSig"

def title : Command → String
  | .hideSignatures => "Hide Signatures"
  | .showSignatures => "Show Signatures"

def ofId? (id : String) : Option Command :=
  all.find? fun command => command.id = id

def label : Command → String
  | .hideSignatures => "HideSignatures"
  | .showSignatures => "ShowSignatures"

end Command

inductive Message where
  | activeEditorChanged
  | documentChanged
  | command (given : Command)
  /-- No edit has been made for the length of the quiet period. -/
  | debounceElapsed
  | shutdown
  deriving DecidableEq, Repr

/-- The message by which an event is reported. -/
def EditorEvent.message : EditorEvent → Message
  | .activeEditorChanged => .activeEditorChanged
  | .documentChanged => .documentChanged

def Message.label : Message → String
  | .activeEditorChanged => "ActiveEditorChanged"
  | .documentChanged => "DocumentChanged"
  | .command given => "Command(" ++ given.label ++ ")"
  | .debounceElapsed => "DebounceElapsed"
  | .shutdown => "Shutdown"

end SignatureVeil
