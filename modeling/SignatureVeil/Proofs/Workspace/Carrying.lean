import SignatureVeil.Proofs.Editor.Exchanges
import SignatureVeil.Proofs.Workspace.Ensures

/-!
# Carrying out an interaction in parts

An interaction that is made of two is carried out by carrying out the first
and then the second.  What all requests of some kind keep, and what passes
meanwhile as well, is kept by every interaction that makes no other requests.
-/

namespace SignatureVeil

namespace Workspace

variable {α β : Type} {passes : Workspace → Workspace → Prop}
  {workspace last : Workspace}

/-- Where an interaction stands if it is followed by another one. -/
def Progress.bind (next : α → Interaction β) : Progress α → Progress β
  | .finished result last => last.perform (next result)
  | .waiting command time resumed earlier =>
      .waiting command time (fun outcome => resumed outcome >>= next) earlier

theorem perform_bind (first : Interaction α) (next : α → Interaction β)
    (workspace : Workspace) :
    workspace.perform (first >>= next) =
      (workspace.perform first).bind next := by
  induction first generalizing workspace with
  | done result => rfl
  | ask request answered ih =>
      cases request with
      | execute command => rfl
      | _ => exact ih _ _

/-- What is carried out at once is carried out in one way. -/
theorem Carried.of_finished {interaction : Interaction α} {result found : α}
    {final : Workspace}
    (carried : Carried passes result last interaction workspace)
    (performed : workspace.perform interaction = .finished found final) :
    result = found ∧ last = final := by
  cases carried with
  | finished performed' =>
      cases performed'.symm.trans performed
      exact ⟨rfl, rfl⟩
  | waited performed' => cases performed'.symm.trans performed

theorem Carried.exists_of_bind {first : Interaction α}
    {next : α → Interaction β} {result : β}
    (carried : Carried passes result last (first >>= next) workspace) :
    ∃ value middle, Carried passes value middle first workspace ∧
      Carried passes result last (next value) middle := by
  -- the induction is on the waits of the whole, and the first part shrinks
  -- with them until it is finished
  generalize same : first >>= next = whole at carried
  induction carried generalizing first with
  | @finished _ workspace performed =>
      rw [← same, perform_bind] at performed
      cases stands : workspace.perform first with
      | finished value middle =>
          rw [stands] at performed
          exact ⟨value, middle, .finished stands, .finished performed⟩
      | waiting =>
          rw [stands] at performed
          cases performed
  | @waited _ workspace _ _ _ _ _ performed meanwhile resumed ih =>
      rw [← same, perform_bind] at performed
      cases stands : workspace.perform first with
      | finished value middle =>
          rw [stands] at performed
          exact ⟨value, middle, .finished stands,
            .waited performed meanwhile resumed⟩
      | waiting =>
          rw [stands] at performed
          cases performed
          obtain ⟨value, middle, carried, continued⟩ := ih rfl
          exact ⟨value, middle, .waited stands meanwhile carried, continued⟩

/-- Only where an interaction stands matters for how it is carried out. -/
theorem Carried.of_perform {interaction interaction' : Interaction α}
    {workspace' : Workspace} {result : α}
    (carried : Carried passes result last interaction workspace)
    (same : workspace'.perform interaction' = workspace.perform interaction) :
    Carried passes result last interaction' workspace' := by
  cases carried with
  | finished performed => exact .finished (same.trans performed)
  | waited performed meanwhile resumed =>
      exact .waited (same.trans performed) meanwhile resumed

theorem asks_anything (interaction : Interaction α) :
    interaction.Asks (fun _ => True) fun _ => True := by
  induction interaction with
  | done result => trivial
  | ask request next ih => exact ⟨trivial, ih⟩

section

variable {interaction : Interaction α} {allowed : Request → Prop}
  {ends : α → Prop} (holds : Workspace → Prop)
  (answered : ∀ {workspace : Workspace} {request : Request},
    holds workspace → allowed request → holds (workspace.answer request).2)

include answered

/-- A property that allowed requests keep holds where an interaction stands
that makes no other requests. -/
theorem perform_preserves (asks : interaction.Asks allowed ends)
    (start : holds workspace) :
    match workspace.perform interaction with
    | .finished result last => holds last ∧ ends result
    | .waiting _ _ next earlier =>
        holds earlier ∧ ∀ outcome, (next outcome).Asks allowed ends := by
  induction interaction generalizing workspace with
  | done result => exact ⟨start, asks⟩
  | ask request next ih =>
      have kept := answered start asks.1
      cases request with
      | execute command => exact ⟨kept, asks.2⟩
      | _ => exact ih _ (asks.2 _) kept

theorem Carried.preserves {result : α}
    (carried : Carried passes result last interaction workspace)
    (asks : interaction.Asks allowed ends) (start : holds workspace)
    (passed : ∀ {before after : Workspace}, holds before →
      passes before after → holds after) :
    holds last ∧ ends result := by
  induction carried with
  | finished performed =>
      have stands := perform_preserves holds answered asks start
      rwa [performed] at stands
  | waited performed meanwhile _ ih =>
      have stands := perform_preserves holds answered asks start
      rw [performed] at stands
      exact ih (stands.2 _) (passed stands.1 meanwhile)

end

/-! ## Interruptions -/

section

variable (passes : Workspace → Workspace → Prop)

/-- An interaction is carried out until it waits for a command, and what it is
to do when the command has ended is left undone. -/
inductive Halted (rest : Outcome → Interaction α) (last : Workspace) :
    Interaction α → Workspace → Prop where
  | waiting {interaction : Interaction α} {workspace earlier : Workspace}
      {command : EditorCommand} {time : Nat}
      (performed : workspace.perform interaction =
        .waiting command time rest earlier)
      (meanwhile : passes earlier last) :
      Halted rest last interaction workspace
  | resumed {interaction : Interaction α} {workspace earlier later : Workspace}
      {command : EditorCommand} {time : Nat}
      {next : Outcome → Interaction α}
      (performed : workspace.perform interaction =
        .waiting command time next earlier)
      (meanwhile : passes earlier later)
      (halted : Halted rest last
        (next (later.editor.outcomeOf (.execute command))) later) :
      Halted rest last interaction workspace

end

variable {rest : Outcome → Interaction α} {interaction : Interaction α}

/-- If what is left can be carried out, the whole interaction can. -/
theorem Halted.exists_carried {post : α → Workspace → Prop}
    (halted : Halted passes rest last interaction workspace)
    (completes : ∀ outcome, ∃ result final,
      Carried passes result final (rest outcome) last ∧ post result final) :
    ∃ result final, Carried passes result final interaction workspace ∧
      post result final := by
  induction halted with
  | waiting performed meanwhile =>
      obtain ⟨result, final, carried, holds⟩ := completes _
      exact ⟨result, final, .waited performed meanwhile carried, holds⟩
  | resumed performed meanwhile _ ih =>
      obtain ⟨result, final, carried, holds⟩ := ih
      exact ⟨result, final, .waited performed meanwhile carried, holds⟩

theorem Halted.preserves {allowed : Request → Prop} {ends : α → Prop}
    (holds : Workspace → Prop)
    (answered : ∀ {workspace : Workspace} {request : Request},
      holds workspace → allowed request → holds (workspace.answer request).2)
    (halted : Halted passes rest last interaction workspace)
    (asks : interaction.Asks allowed ends) (start : holds workspace)
    (passed : ∀ {before after : Workspace}, holds before →
      passes before after → holds after) : holds last := by
  induction halted with
  | waiting performed meanwhile =>
      have stands := perform_preserves holds answered asks start
      rw [performed] at stands
      exact passed stands.1 meanwhile
  | resumed performed meanwhile _ ih =>
      have stands := perform_preserves holds answered asks start
      rw [performed] at stands
      exact ih (stands.2 _) (passed stands.1 meanwhile)

end Workspace

end SignatureVeil
