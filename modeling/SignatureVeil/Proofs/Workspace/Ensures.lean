import SignatureVeil.Workspace.Basic

/-!
# Reasoning about interactions that wait

An interaction is carried out in one go except at the commands of the editor:
there it waits, and others change the workspace meanwhile.  What it ensures is
said by two properties.  One holds all the while it waits, and the other holds
of its result and of the workspace in which it ends.
-/

namespace SignatureVeil

namespace Workspace

section

variable (passes : Workspace → Workspace → Prop) (during : Workspace → Prop)

/-- An interaction ensures a property at its end, and another one all the
while it waits, whatever passes meanwhile. -/
def Ensures {α : Type} (post : α → Workspace → Prop) :
    Interaction α → Workspace → Prop
  | .done result, workspace => post result workspace
  | .ask (.execute command) next, workspace =>
      ∀ later, passes (workspace.begin command) later →
        during later ∧
          Ensures post (next (later.editor.outcomeOf (.execute command))) later
  | .ask request next, workspace =>
      Ensures post (next (workspace.answer request).1)
        (workspace.answer request).2

/-- An interaction is carried out from one workspace to another, where others
go on whenever it waits. -/
inductive Carried {α : Type} (result : α) (last : Workspace) :
    Interaction α → Workspace → Prop where
  | finished {interaction : Interaction α} {workspace : Workspace}
      (performed : workspace.perform interaction = .finished result last) :
      Carried result last interaction workspace
  | waited {interaction : Interaction α} {workspace earlier later : Workspace}
      {command : EditorCommand} {time : Nat}
      {next : Outcome → Interaction α}
      (performed : workspace.perform interaction =
        .waiting command time next earlier)
      (meanwhile : passes earlier later)
      (resumed : Carried result last
        (next (later.editor.outcomeOf (.execute command))) later) :
      Carried result last interaction workspace

end

variable {passes : Workspace → Workspace → Prop} {during : Workspace → Prop}
  {workspace : Workspace} {α β : Type}

theorem Ensures.mono {during' : Workspace → Prop}
    {post post' : α → Workspace → Prop} {interaction : Interaction α}
    (ensures : Ensures passes during post interaction workspace)
    (weakerDuring : ∀ later, during later → during' later)
    (weakerPost : ∀ result later, post result later → post' result later) :
    Ensures passes during' post' interaction workspace := by
  induction interaction generalizing workspace with
  | done result => exact weakerPost _ _ ensures
  | ask request next ih =>
      cases request with
      | execute command =>
          intro later meanwhile
          obtain ⟨holds, resumed⟩ := ensures later meanwhile
          exact ⟨weakerDuring _ holds, ih _ resumed⟩
      | _ => exact ih _ ensures

theorem Ensures.bind {first : Interaction α} {next : α → Interaction β}
    {middle : α → Workspace → Prop} {post : β → Workspace → Prop}
    (ensures : Ensures passes during middle first workspace)
    (continues : ∀ result later, middle result later →
      Ensures passes during post (next result) later) :
    Ensures passes during post (first >>= next) workspace := by
  induction first generalizing workspace with
  | done result => exact continues _ _ ensures
  | ask request answered ih =>
      cases request with
      | execute command =>
          intro later meanwhile
          obtain ⟨holds, resumed⟩ := ensures later meanwhile
          exact ⟨holds, ih _ resumed⟩
      | _ => exact ih _ ensures

/-- A property of all results and all workspaces is ensured by everything. -/
theorem ensures_of_forall {post : α → Workspace → Prop}
    (always : ∀ result later, post result later)
    (interaction : Interaction α) (workspace : Workspace) :
    Ensures passes (fun _ => True) post interaction workspace := by
  induction interaction generalizing workspace with
  | done result => exact always _ _
  | ask request next ih =>
      cases request with
      | execute command =>
          intro later _
          exact ⟨trivial, ih _ _⟩
      | _ => exact ih _ _

/-- What is ensured of an interaction holds where it stands once it has been
carried out as far as it goes without waiting. -/
theorem Ensures.perform {post : α → Workspace → Prop}
    {interaction : Interaction α}
    (ensures : Ensures passes during post interaction workspace) :
    match workspace.perform interaction with
    | .finished result last => post result last
    | .waiting command _ next earlier =>
        ∀ later, passes earlier later → during later ∧
          Ensures passes during post
            (next (later.editor.outcomeOf (.execute command))) later := by
  induction interaction generalizing workspace with
  | done result => exact ensures
  | ask request next ih =>
      cases request with
      | execute command => exact ensures
      | _ => exact ih _ ensures

theorem Ensures.carried {post : α → Workspace → Prop}
    {interaction : Interaction α} {result : α} {last : Workspace}
    (ensures : Ensures passes during post interaction workspace)
    (carried : Carried passes result last interaction workspace) :
    post result last := by
  induction carried with
  | finished performed =>
      have stands := ensures.perform
      rw [performed] at stands
      exact stands
  | waited performed meanwhile _ ih =>
      have stands := ensures.perform
      rw [performed] at stands
      exact ih (stands _ meanwhile).2

/-- What is carried out while little passes is carried out as well where more
may pass. -/
theorem Carried.mono {passes' : Workspace → Workspace → Prop}
    {interaction : Interaction α} {result : α} {last : Workspace}
    (carried : Carried passes result last interaction workspace)
    (more : ∀ before after, passes before after → passes' before after) :
    Carried passes' result last interaction workspace := by
  induction carried with
  | finished performed => exact .finished performed
  | waited performed meanwhile _ ih =>
      exact .waited performed (more _ _ meanwhile) ih

end Workspace

end SignatureVeil
