import Mathlib.Tactic.Common

/-!
# Finite runs of a guarded machine

A machine has a deterministic step for every action, and a guard saying which
actions the environment can take in a state. Everything the environment decides
is part of the action, so a run is a list of actions.

Two recursions over a run carry the results: a condition met by every step, and
a property holding in every state reached, the first one included. The rules
below turn facts about one step into facts about every run. The exact rule gives
both directions: a property that one step preserves exactly under a condition
holds throughout a run exactly when every step of the run meets that condition.
-/

namespace Library.Runs

universe u v

/-- A deterministic transition function and the actions possible in a state. -/
structure Machine (State : Type u) (Action : Type v) where
  enabled : State → Action → Prop
  step : State → Action → State

namespace Machine

variable {State : Type u} {Action : Type v}

/-- The state a finite run ends in. -/
def after (machine : Machine State Action) (state : State) (actions : List Action) : State :=
  actions.foldl machine.step state

/-- Each step of the run meets the condition in the state it is taken from. -/
def Along (machine : Machine State Action) (condition : State → Action → Prop) :
    State → List Action → Prop
  | _, [] => True
  | state, action :: rest =>
      condition state action ∧ machine.Along condition (machine.step state action) rest

/-- The property holds in every state of the run, from the first to the last. -/
def Throughout (machine : Machine State Action) (property : State → Prop) :
    State → List Action → Prop
  | state, [] => property state
  | state, action :: rest =>
      property state ∧ machine.Throughout property (machine.step state action) rest

/-- The environment can take every step of the run. -/
def Admissible (machine : Machine State Action) (state : State) (actions : List Action) : Prop :=
  machine.Along machine.enabled state actions

/-- The same machine in an environment that takes fewer steps. -/
def restrict (machine : Machine State Action) (extra : State → Action → Prop) :
    Machine State Action :=
  { machine with enabled := fun state action => machine.enabled state action ∧ extra state action }

/-- Whether all steps of a run meet a decidable condition can be computed. -/
instance alongDecidable (machine : Machine State Action) (condition : State → Action → Prop)
    [∀ state action, Decidable (condition state action)] :
    (state : State) → (actions : List Action) → Decidable (machine.Along condition state actions)
  | _, [] => isTrue trivial
  | state, action :: rest =>
    have := alongDecidable machine condition (machine.step state action) rest
    inferInstanceAs (Decidable (_ ∧ _))

variable (machine : Machine State Action)

/-- A run of the machine whose steps all meet the condition is one in the environment that takes
only such steps. -/
theorem admissible_restrict (extra : State → Action → Prop) (state : State)
    (actions : List Action) (admissible : machine.Admissible state actions)
    (met : machine.Along extra state actions) :
    (machine.restrict extra).Admissible state actions := by
  induction actions generalizing state with
  | nil => trivial
  | cons action rest inductionHypothesis =>
    exact ⟨⟨admissible.1, met.1⟩,
      inductionHypothesis (machine.step state action) admissible.2 met.2⟩

/-- What is met along a run does not depend on which steps the environment takes. -/
theorem restrict_along (extra condition : State → Action → Prop) (state : State)
    (actions : List Action) :
    (machine.restrict extra).Along condition state actions ↔
      machine.Along condition state actions := by
  induction actions generalizing state with
  | nil => exact Iff.rfl
  | cons action rest inductionHypothesis =>
    exact and_congr_right fun _ => inductionHypothesis (machine.step state action)

/-- Conditions are met along a concatenation exactly when both parts meet them. -/
theorem along_append (condition : State → Action → Prop) (state : State)
    (first second : List Action) :
    machine.Along condition state (first ++ second) ↔
      machine.Along condition state first ∧
        machine.Along condition (machine.after state first) second := by
  induction first generalizing state with
  | nil => simp [Along, after]
  | cons action rest inductionHypothesis =>
    simp only [List.cons_append, Along, inductionHypothesis, after, List.foldl_cons, and_assoc]

/-- Conditions that agree on every step are met along the same runs. -/
theorem along_congr (first second : State → Action → Prop)
    (agree : ∀ state action, first state action ↔ second state action) (state : State)
    (actions : List Action) :
    machine.Along first state actions ↔ machine.Along second state actions := by
  induction actions generalizing state with
  | nil => exact Iff.rfl
  | cons action rest inductionHypothesis =>
    exact and_congr (agree state action) (inductionHypothesis (machine.step state action))

/-- Running a concatenation runs the second part from where the first one ends. -/
theorem after_append (state : State) (first second : List Action) :
    machine.after state (first ++ second) =
      machine.after (machine.after state first) second := by
  simp [after, List.foldl_append]

/-- One state leads to another if some run the environment can take ends there. -/
def Leads (first last : State) : Prop :=
  ∃ actions, machine.Admissible first actions ∧ machine.after first actions = last

/-- A state leads to itself. -/
theorem leads_refl (state : State) : machine.Leads state state :=
  ⟨[], trivial, rfl⟩

/-- A state leads to wherever one of its steps leads to. -/
theorem leads_step (state last : State) (action : Action) (possible : machine.enabled state action)
    (later : machine.Leads (machine.step state action) last) : machine.Leads state last := by
  obtain ⟨actions, admissible, ends⟩ := later
  exact ⟨action :: actions, ⟨possible, admissible⟩, ends⟩

/-- Leading to a state composes. -/
theorem leads_trans (first middle last : State) (earlier : machine.Leads first middle)
    (later : machine.Leads middle last) : machine.Leads first last := by
  obtain ⟨before, beforeAdmissible, rfl⟩ := earlier
  obtain ⟨after, afterAdmissible, rfl⟩ := later
  refine ⟨before ++ after, ?_, machine.after_append first before after⟩
  exact (machine.along_append machine.enabled first before after).mpr
    ⟨beforeAdmissible, afterAdmissible⟩

/-- The invariant rule: what every possible step preserves holds in every state that
a state satisfying it leads to. -/
theorem invariant_rule (invariant : State → Prop)
    (preserved : ∀ state action, invariant state → machine.enabled state action →
      invariant (machine.step state action))
    (first last : State) (initial : invariant first) (leads : machine.Leads first last) :
    invariant last := by
  obtain ⟨actions, admissible, rfl⟩ := leads
  induction actions generalizing first with
  | nil => exact initial
  | cons action rest inductionHypothesis =>
    have next : invariant (machine.step first action) :=
      preserved first action initial admissible.1
    exact inductionHypothesis (machine.step first action) next admissible.2

/-- The along rule: a condition that an invariant guarantees is met by every step of a run
that starts from the invariant. -/
theorem along_rule (invariant : State → Prop) (condition : State → Action → Prop)
    (preserved : ∀ state action, invariant state → machine.enabled state action →
      invariant (machine.step state action))
    (meets : ∀ state action, invariant state → condition state action)
    (state : State) (actions : List Action) (initial : invariant state)
    (admissible : machine.Admissible state actions) : machine.Along condition state actions := by
  induction actions generalizing state with
  | nil => trivial
  | cons action rest inductionHypothesis =>
    have next : invariant (machine.step state action) :=
      preserved state action initial admissible.1
    exact ⟨meets state action initial, inductionHypothesis _ next admissible.2⟩

/-- A property that follows from one holding throughout a run holds throughout it. -/
theorem throughout_weaken (strong weak : State → Prop)
    (weaken : ∀ state, strong state → weak state) (state : State) (actions : List Action)
    (holds : machine.Throughout strong state actions) : machine.Throughout weak state actions := by
  induction actions generalizing state with
  | nil => exact weaken state holds
  | cons action rest inductionHypothesis =>
    exact ⟨weaken state holds.1, inductionHypothesis _ holds.2⟩

/-- A property holding throughout a run holds in particular at its end. -/
theorem throughout_end (property : State → Prop) (state : State) (actions : List Action)
    (holds : machine.Throughout property state actions) :
    property (machine.after state actions) := by
  induction actions generalizing state with
  | nil => exact holds
  | cons action rest inductionHypothesis => exact inductionHypothesis _ holds.2

/-- A property holding throughout a run holds in particular at its start. -/
theorem throughout_start (property : State → Prop) (state : State) (actions : List Action)
    (holds : machine.Throughout property state actions) : property state := by
  cases actions with
  | nil => exact holds
  | cons action rest => exact holds.1

/-- The loss rule: if a lost property stays lost, it holds throughout every run at the
end of which it holds. -/
theorem throughout_of_end (property invariant : State → Prop)
    (preserved : ∀ state action, invariant state → machine.enabled state action →
      invariant (machine.step state action))
    (lost : ∀ state action, invariant state → machine.enabled state action →
      ¬ property state → ¬ property (machine.step state action))
    (state : State) (actions : List Action) (initial : invariant state)
    (admissible : machine.Admissible state actions)
    (holds : property (machine.after state actions)) :
    machine.Throughout property state actions := by
  induction actions generalizing state with
  | nil => exact holds
  | cons action rest inductionHypothesis =>
    have kept : invariant (machine.step state action) :=
      preserved state action initial admissible.1
    have later : machine.Throughout property (machine.step state action) rest :=
      inductionHypothesis _ kept admissible.2 holds
    refine ⟨?_, later⟩
    by_contra missing
    exact lost state action initial admissible.1 missing
      (machine.throughout_start property _ rest later)

/-- The exact rule: if, under the invariant and while the property holds, a step
leaves the property true exactly when it meets the condition, and then also
preserves the invariant, the property holds throughout an admissible run exactly
when all of its steps meet the condition.

Both sides fail at the same first step, so no invariant is needed after it. -/
theorem throughout_iff_along (property invariant : State → Prop)
    (condition : State → Action → Prop)
    (decides : ∀ state action, invariant state → property state →
      machine.enabled state action →
      (property (machine.step state action) ↔ condition state action))
    (preserved : ∀ state action, invariant state → property state →
      machine.enabled state action → condition state action →
      invariant (machine.step state action))
    (state : State) (actions : List Action) (initial : invariant state)
    (start : property state) (admissible : machine.Admissible state actions) :
    machine.Throughout property state actions ↔ machine.Along condition state actions := by
  induction actions generalizing state with
  | nil => simp [Throughout, Along, start]
  | cons action rest inductionHypothesis =>
    have decided := decides state action initial start admissible.1
    constructor
    · rintro ⟨_, later⟩
      have next : property (machine.step state action) :=
        machine.throughout_start property _ rest later
      have met : condition state action := decided.mp next
      have kept := preserved state action initial start admissible.1 met
      exact ⟨met, (inductionHypothesis _ kept next admissible.2).mp later⟩
    · rintro ⟨met, later⟩
      have next : property (machine.step state action) := decided.mpr met
      have kept := preserved state action initial start admissible.1 met
      exact ⟨start, (inductionHypothesis _ kept next admissible.2).mpr later⟩

end Machine

end Library.Runs
