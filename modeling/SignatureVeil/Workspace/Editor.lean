import SignatureVeil.Editor.Request

/-!
# An editor that records

This editor keeps a document and a configuration and records every request
that acts on it.  It can be told to take time for its commands, to fail, and
to run a number of steps of its own at the next request of some kind, as a
user who interferes would.
-/

namespace SignatureVeil

/-- The kinds of requests at which the editor can be made to run steps of its
own, or to fail. -/
inductive Primitive where
  | createStyle
  | disposeStyle
  | applyDecorations
  | setSelections
  | execute (command : EditorCommand)
  deriving DecidableEq, Repr

def Primitive.name : Primitive → String
  | .createStyle => "createStyle"
  | .disposeStyle => "disposeStyle"
  | .applyDecorations => "applyDecorations"
  | .setSelections => "setSelections"
  | .execute command => command.id

/-- All kinds of requests that have a name. -/
def Primitive.all : List Primitive :=
  [.createStyle, .disposeStyle, .applyDecorations, .setSelections,
    .execute .fold, .execute .unfoldAll]

def Primitive.ofName? (name : String) : Option Primitive :=
  all.find? fun primitive => primitive.name = name

def Primitive.failure (primitive : Primitive) : Failure :=
  .host (primitive.name ++ " failed")

inductive EditorCall where
  | listen (topic : Topic) (listener : ListenerId)
  | unlisten (listener : ListenerId)
  | createStyle (token : StyleToken) (style : DecorationStyle)
  | disposeStyle (token : StyleToken)
  | applyDecorations (token : StyleToken) (ranges : List Range)
  | setSelections (selections : List Selection)
  | execute (command : EditorCommand)
  deriving DecidableEq, Repr

/-- Something that a user does to the editor, or that the editor does by
itself. -/
inductive EditorStep where
  | focus (document : Option Document)
  | setText (text : String)
  | select (selections : List Selection)
  | configure (configuration : Json)
  /-- Let these requests fail from now on, and no others. -/
  | failOn (primitives : List Primitive)
  /-- Let every command take this many milliseconds from now on. -/
  | delay (milliseconds : Nat)
  /-- Run steps at the next request of some kind. -/
  | hook (primitive : Primitive) (steps : List EditorStep)
  | fire (event : EditorEvent)
  | invoke (id : String)
  deriving Repr

mutual

/-- How many times a step posts to listeners, now or in its hooks. -/
def EditorStep.emissions : EditorStep → Nat
  | .fire _ | .invoke _ => 1
  | .hook _ steps => EditorStep.emissionsOf steps
  | _ => 0

/-- How many times some steps post to listeners, now or in their hooks. -/
def EditorStep.emissionsOf : List EditorStep → Nat
  | [] => 0
  | step :: rest => step.emissions + EditorStep.emissionsOf rest

end

/-- Steps that wait for a request of some kind. -/
structure Hook where
  primitive : Primitive
  steps : List EditorStep
  deriving Repr

structure Listener where
  id : ListenerId
  topic : Topic
  sink : Sink
  deriving DecidableEq, Repr

structure Editor where
  document : Option Document := none
  configuration : Json := .null
  failing : List Primitive := []
  /-- How long every command takes, in milliseconds. -/
  latency : Nat := 0
  /-- The hooks that wait, in the order in which they were set. -/
  hooks : List Hook := []
  listeners : List Listener := []
  /-- All requests so far, the oldest first. -/
  calls : List EditorCall := []
  nextToken : StyleToken := 1
  nextListener : ListenerId := 1
  deriving Repr

namespace Editor

/-- Change the document that is shown, if there is one. -/
def updateDocument (editor : Editor) (update : Document → Document) : Editor :=
  { editor with document := editor.document.map update }

/-- Replace the selections in the document that is shown, if there is one. -/
def select (editor : Editor) (selections : List Selection) : Editor :=
  editor.updateDocument fun document => { document with selections }

/-- A section of the configuration; a section that is absent is null. -/
def sectionNamed (editor : Editor) (name : String) : Json :=
  (editor.configuration.member? name).getD .null

/-- How a request ends that can fail. -/
def outcomeOf (editor : Editor) (primitive : Primitive) : Outcome :=
  if primitive ∈ editor.failing then .error primitive.failure else .ok ()

def record (editor : Editor) (call : EditorCall) : Editor :=
  { editor with calls := editor.calls ++ [call] }

def listen (editor : Editor) (topic : Topic) (sink : Sink) : Editor :=
  let listener := editor.nextListener
  let editor := editor.record (.listen topic listener)
  { editor with
    listeners := editor.listeners ++ [⟨listener, topic, sink⟩]
    nextListener := listener + 1 }

def unlisten (editor : Editor) (listener : ListenerId) : Editor :=
  let editor := editor.record (.unlisten listener)
  { editor with
    listeners := editor.listeners.filter fun other => other.id ≠ listener }

/-- Take the steps that wait first for a request of some kind. -/
def takeHook (editor : Editor) (primitive : Primitive) :
    List EditorStep × Editor :=
  match editor.hooks.find? fun hook => hook.primitive = primitive with
  | none => ([], editor)
  | some hook =>
      (hook.steps, { editor with
        hooks := editor.hooks.eraseP fun hook => hook.primitive = primitive })

end Editor

end SignatureVeil
