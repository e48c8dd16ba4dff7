import Mathlib.Algebra.Order.Ring.Nat
import Mathlib.Data.List.Induction
import SignatureVeil.Editor.Registration

/-!
# Every registration is released once

Whatever is done to a registry, a registration that has something to release
is either still held or has been released, and it is released exactly once: by
the first step behind its creation that concerns the same key, which gives it
back, drops it or replaces it.
-/

namespace SignatureVeil

/-! ## The end of a registration -/

namespace Registration

/-- The releases that are due when a registration is no longer held. -/
def releases : Registration → Nat
  | .active => 1
  | .empty => 0

theorem drop_eq (released : Nat) (registration : Registration) :
    registration.drop released = released + registration.releases := by
  cases registration <;> rfl

theorem unsubscribe_eq (released : Nat) (registration : Registration) :
    registration.unsubscribe released = released + registration.releases :=
  drop_eq released registration

end Registration

/-! ## Steps and their keys -/

namespace RegistryStep

/-- The key that a step concerns. -/
def key : RegistryStep → Int
  | .create _ key | .unsubscribe key | .drop key => key

/-- The registrations that a step creates, as far as they have something to
release: one or none. -/
def created : RegistryStep → Nat
  | .create .active _ => 1
  | .create .empty _ | .unsubscribe _ | .drop _ => 0

theorem created_create (registration : Registration) (key : Int) :
    (create registration key).created = registration.releases := by
  cases registration <;> rfl

/-- All registrations that some steps create, as far as they have something to
release. -/
def createdBy (steps : List RegistryStep) : Nat :=
  (steps.map created).sum

theorem createdBy_concat (steps : List RegistryStep) (step : RegistryStep) :
    createdBy (steps ++ [step]) = createdBy steps + step.created := by
  simp [createdBy]

/-- What the last of some steps that concern a key has created there. -/
def createdLast (key : Int) (steps : List RegistryStep) : Nat :=
  match steps.reverse.find? fun step => step.key = key with
  | some step => step.created
  | none => 0

/-- The registrations that some steps create and then let go of, by a later
step on the same key. -/
def letGo : List RegistryStep → Nat
  | [] => 0
  | step :: later =>
      (if later.any fun other => other.key = step.key then step.created
        else 0) + letGo later

theorem createdLast_concat (key : Int) (steps : List RegistryStep)
    (step : RegistryStep) :
    createdLast key (steps ++ [step]) =
      if step.key = key then step.created else createdLast key steps := by
  unfold createdLast
  rw [List.reverse_concat, List.find?_cons]
  by_cases same : step.key = key <;> simp [same]

theorem createdLast_cons (key : Int) (step : RegistryStep)
    (later : List RegistryStep) :
    createdLast key (step :: later) =
      if later.any fun other => other.key = key then createdLast key later
        else if step.key = key then step.created else 0 := by
  induction later using List.reverseRecOn with
  | nil => exact createdLast_concat key [] step
  | append_singleton later last ih =>
      rw [← List.cons_append, createdLast_concat, createdLast_concat, ih]
      by_cases same : last.key = key <;> simp [same]

theorem createdLast_of_ne {key : Int} {steps : List RegistryStep}
    (others : ∀ step ∈ steps, step.key ≠ key) : createdLast key steps = 0 := by
  have none : steps.reverse.find? (fun step => step.key = key) = none := by
    simpa using others
  rw [createdLast, none]

/-- A further step lets go of what is under its key. -/
theorem letGo_concat (steps : List RegistryStep) (step : RegistryStep) :
    letGo (steps ++ [step]) = letGo steps + createdLast step.key steps := by
  induction steps with
  | nil => rfl
  | cons first later ih =>
      rw [List.cons_append, letGo, letGo, ih, createdLast_cons,
        List.any_append, List.any_cons, List.any_nil, Bool.or_false]
      by_cases more : later.any fun other => other.key = step.key
      · by_cases same : first.key = step.key
        · simp [same, more, Nat.add_assoc]
        · simp [Ne.symm same, more, Nat.add_assoc]
      · have others : createdLast step.key later = 0 :=
          createdLast_of_ne (by simpa using more)
        by_cases same : first.key = step.key
        · simp [same, more, others, Nat.add_comm]
        · simp [same, Ne.symm same, more, others]

end RegistryStep

/-! ## What is held -/

namespace Registry

/-- The registrations in a list that have something to release. -/
def activeIn (held : List (Int × Registration)) : Nat :=
  held.countP fun entry => entry.2 = .active

/-- The releases that are due for what a list holds under a key. -/
def dueIn (key : Int) (held : List (Int × Registration)) : Nat :=
  match held.find? fun entry => entry.1 = key with
  | some (_, registration) => registration.releases
  | none => 0

/-- Keys are held in ascending order, each once. -/
def Ascending (held : List (Int × Registration)) : Prop :=
  held.Pairwise fun first second => first.1 < second.1

theorem activeIn_cons (name : Int) (registration : Registration)
    (rest : List (Int × Registration)) :
    activeIn ((name, registration) :: rest) =
      registration.releases + activeIn rest := by
  rw [activeIn, List.countP_cons, Nat.add_comm]
  cases registration <;> rfl

theorem dueIn_cons (key name : Int) (registration : Registration)
    (rest : List (Int × Registration)) :
    dueIn key ((name, registration) :: rest) =
      if name = key then registration.releases else dueIn key rest := by
  rw [dueIn, List.find?_cons]
  by_cases same : name = key <;> simp [same, dueIn]

section

variable {held : List (Int × Registration)} {key : Int}
  {registration : Registration}

theorem dueIn_of_ne (others : ∀ entry ∈ held, entry.1 ≠ key) :
    dueIn key held = 0 := by
  induction held with
  | nil => rfl
  | cons entry rest ih =>
      obtain ⟨other, others⟩ := List.forall_mem_cons.mp others
      rw [dueIn_cons, if_neg other, ih others]

theorem dueIn_hold (name : Int) :
    dueIn name (hold key registration held) =
      if key = name then registration.releases else dueIn name held := by
  induction held with
  | nil => exact dueIn_cons name key registration []
  | cons entry rest ih =>
      obtain ⟨first, other⟩ := entry
      rw [hold]
      by_cases replaced : first = key
      · rw [if_pos replaced, dueIn_cons, dueIn_cons, replaced]
        split <;> rfl
      · rw [if_neg replaced]
        split
        · exact dueIn_cons name key registration _
        · rw [dueIn_cons, dueIn_cons, ih]
          by_cases same : key = name
          · rw [if_neg (same ▸ replaced), if_pos same, if_pos same]
          · rw [if_neg same, if_neg same]

theorem dueIn_remove (name : Int) :
    dueIn name (remove key held) =
      if key = name then 0 else dueIn name held := by
  unfold remove
  induction held with
  | nil => exact (ite_self _).symm
  | cons entry rest ih =>
      obtain ⟨first, other⟩ := entry
      rw [dueIn_cons]
      by_cases removed : first = key
      · rw [List.filter_cons_of_neg (by simpa using removed), ih, removed]
        split <;> rfl
      · rw [List.filter_cons_of_pos (by simpa using removed), dueIn_cons, ih]
        by_cases same : key = name
        · rw [if_neg (same ▸ removed), if_pos same, if_pos same]
        · rw [if_neg same, if_neg same]

theorem mem_hold {entry : Int × Registration}
    (member : entry ∈ hold key registration held) :
    entry = (key, registration) ∨ entry ∈ held := by
  induction held with
  | nil => exact .inl (List.mem_singleton.mp member)
  | cons first rest ih =>
      rw [hold] at member
      grind

theorem Ascending.hold (ascending : Ascending held) :
    Ascending (Registry.hold key registration held) := by
  induction held with
  | nil => exact List.pairwise_singleton _ _
  | cons entry rest ih =>
      obtain ⟨first, other⟩ := entry
      have whole := ascending
      obtain ⟨above, ascending⟩ := List.pairwise_cons.mp ascending
      rw [Registry.hold]
      by_cases replaced : first = key
      · rw [if_pos replaced]
        exact List.pairwise_cons.mpr ⟨replaced ▸ above, ascending⟩
      · rw [if_neg replaced]
        split
        case isTrue before =>
          refine List.pairwise_cons.mpr ⟨List.forall_mem_cons.mpr
            ⟨before, fun entry member => ?_⟩, whole⟩
          exact Int.lt_trans before (above entry member)
        case isFalse behind =>
          refine List.pairwise_cons.mpr ⟨fun entry member => ?_, ih ascending⟩
          obtain rfl | member := mem_hold member
          · exact Int.lt_iff_le_and_ne.mpr ⟨Int.not_lt.mp behind, replaced⟩
          · exact above entry member

/-- What is held under a key is let go of when something else is held
there. -/
theorem activeIn_hold (ascending : Ascending held) :
    activeIn (hold key registration held) + dueIn key held =
      activeIn held + registration.releases := by
  induction held with
  | nil =>
      rw [hold, activeIn_cons, Nat.add_comm (activeIn []) registration.releases]
      rfl
  | cons entry rest ih =>
      obtain ⟨first, other⟩ := entry
      obtain ⟨above, ascending⟩ := List.pairwise_cons.mp ascending
      rw [hold, dueIn_cons, activeIn_cons]
      by_cases replaced : first = key
      · rw [if_pos replaced, if_pos replaced, activeIn_cons]
        omega
      · rw [if_neg replaced, if_neg replaced]
        split
        case isTrue before =>
          have absent : dueIn key rest = 0 := dueIn_of_ne fun entry member =>
            Int.ne_of_gt (Int.lt_trans before (above entry member))
          rw [activeIn_cons, activeIn_cons, absent]
          omega
        case isFalse =>
          have kept := ih ascending
          rw [activeIn_cons]
          omega

theorem activeIn_remove (ascending : Ascending held) :
    activeIn (remove key held) + dueIn key held = activeIn held := by
  unfold remove
  induction held with
  | nil => rfl
  | cons entry rest ih =>
      obtain ⟨first, other⟩ := entry
      obtain ⟨above, ascending⟩ := List.pairwise_cons.mp ascending
      have kept := ih ascending
      rw [dueIn_cons, activeIn_cons]
      by_cases removed : first = key
      · have absent : dueIn key rest = 0 := dueIn_of_ne fun entry member =>
          Int.ne_of_gt (removed ▸ above entry member)
        rw [List.filter_cons_of_neg (by simpa using removed), if_pos removed]
        omega
      · rw [List.filter_cons_of_pos (by simpa using removed),
          if_neg removed, activeIn_cons]
        omega

end

/-! ## What a step does -/

section

variable {registry : Registry}

/-- In whatever way a registration comes to an end, what is held under a key
is released if that way releases what is due. -/
theorem releasedBy_eq {ending : Nat → Registration → Nat}
    (releases : ∀ released registration,
      ending released registration = released + registration.releases)
    (registry : Registry) (key : Int) :
    registry.releasedBy ending key =
      registry.released + dueIn key registry.held := by
  rw [releasedBy, dueIn]
  cases registry.held.find? fun entry => entry.1 = key with
  | none => rfl
  | some entry => exact releases registry.released entry.2

/-- A step releases what is held under its key, and nothing else. -/
theorem released_step (registry : Registry) (step : RegistryStep) :
    (registry.step step).released =
      registry.released + dueIn step.key registry.held := by
  cases step with
  | create _ key | drop key =>
      exact releasedBy_eq Registration.drop_eq registry key
  | unsubscribe key =>
      exact releasedBy_eq Registration.unsubscribe_eq registry key

theorem dueIn_step (registry : Registry) (step : RegistryStep) (key : Int) :
    dueIn key (registry.step step).held =
      if step.key = key then step.created else dueIn key registry.held := by
  cases step with
  | create registration name =>
      rw [RegistryStep.created_create]
      exact dueIn_hold key
  | unsubscribe name | drop name => exact dueIn_remove key

theorem ascending_step (ascending : Ascending registry.held)
    (step : RegistryStep) : Ascending (registry.step step).held := by
  cases step with
  | create registration name => exact ascending.hold
  | unsubscribe name | drop name => exact ascending.filter _

/-- What is not held any more is due, and nothing else. -/
theorem activeIn_step (ascending : Ascending registry.held)
    (step : RegistryStep) :
    activeIn (registry.step step).held + dueIn step.key registry.held =
      activeIn registry.held + step.created := by
  cases step with
  | create registration name =>
      rw [RegistryStep.created_create]
      exact activeIn_hold ascending
  | unsubscribe name | drop name => exact activeIn_remove ascending

end

/-! ## Whole runs -/

/-- The registry after some steps that begin with an empty one. -/
def after (steps : List RegistryStep) : Registry :=
  steps.foldl Registry.step {}

theorem after_concat (steps : List RegistryStep) (step : RegistryStep) :
    after (steps ++ [step]) = (after steps).step step := by
  simp [after]

theorem states_concat (registry : Registry) (steps : List RegistryStep)
    (step : RegistryStep) :
    registry.states (steps ++ [step]) = registry.states steps ++
      [(steps.foldl Registry.step registry).step step] := by
  induction steps generalizing registry with
  | nil => rfl
  | cons first rest ih =>
      rw [List.cons_append, states, states, ih]
      rfl

theorem ascending_after (steps : List RegistryStep) :
    Ascending (after steps).held := by
  induction steps using List.reverseRecOn with
  | nil => exact List.Pairwise.nil
  | append_singleton steps step ih =>
      rw [after_concat]
      exact ascending_step ih step

/-- What is held under a key is what the last step on that key has created. -/
theorem dueIn_after (key : Int) (steps : List RegistryStep) :
    dueIn key (after steps).held = RegistryStep.createdLast key steps := by
  induction steps using List.reverseRecOn with
  | nil => rfl
  | append_singleton steps step ih =>
      rw [after_concat, dueIn_step, ih, RegistryStep.createdLast_concat]

/-- After every step, the releases so far are the registrations that have been
created, less those that are still held; they are one for each registration
that a later step on its key has let go of.  That step releases it at once,
and a step on a key under which there is nothing to release releases
nothing. -/
theorem releases_conserved (steps : List RegistryStep) :
    (after steps).released + activeIn (after steps).held =
        RegistryStep.createdBy steps ∧
      (after steps).released = RegistryStep.letGo steps ∧
      ∀ step,
        ({} : Registry).states (steps ++ [step]) =
            ({} : Registry).states steps ++ [after (steps ++ [step])] ∧
          (after (steps ++ [step])).released =
            (after steps).released +
              RegistryStep.createdLast step.key steps := by
  have released (steps : List RegistryStep) (step : RegistryStep) :
      (after (steps ++ [step])).released = (after steps).released +
        RegistryStep.createdLast step.key steps := by
    rw [after_concat, released_step, dueIn_after]
  refine ⟨?_, ?_, fun step => ⟨?_, released steps step⟩⟩
  · induction steps using List.reverseRecOn with
    | nil => rfl
    | append_singleton steps step ih =>
        have kept := activeIn_step (ascending_after steps) step
        rw [after_concat, released_step, RegistryStep.createdBy_concat]
        omega
  · induction steps using List.reverseRecOn with
    | nil => rfl
    | append_singleton steps step ih =>
        rw [released, ih, RegistryStep.letGo_concat]
  · rw [after_concat]
    exact states_concat {} steps step

/-- A registration is replaced, its successor is given back, and an empty one
is dropped. -/
example : (after [.create .active 1, .create .active 1, .unsubscribe 1,
    .create .empty 1, .drop 1, .drop 2]).released = 2 := by
  decide

end Registry

end SignatureVeil
