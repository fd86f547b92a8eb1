import Castserver.Library.Runs

/-!
# Simulations between machines

A simulation matches every possible step of one machine by a run of another, between
related states. The moves of the second machine are computed from the step, so a whole
run has a trace, and the simulation rule carries the relation from the start of a run to
its end. A trace whose moves do not depend on the state is what the run's actions
contribute one by one; two runs with the same trace cannot be told apart from behind
the relation.
-/

namespace Library.Simulations

open Library.Runs

universe u v w x
variable {State : Type u} {Action : Type v} {Shadow : Type w} {Move : Type x}

/-- The moves that match a run, one step after the other. -/
def trace (machine : Machine State Action) (moves : State → Action → List Move) :
    State → List Action → List Move
  | _, [] => []
  | state, action :: rest =>
      moves state action ++ trace machine moves (machine.step state action) rest

/-- Every possible step from related states is matched by a possible run. -/
structure Simulates (machine : Machine State Action) (shadow : Machine Shadow Move)
    (moves : State → Action → List Move) (related : State → Shadow → Prop) : Prop where
  step : ∀ state action image, related state image → machine.enabled state action →
    shadow.Admissible image (moves state action) ∧
      related (machine.step state action) (shadow.after image (moves state action))

/-- The same machine in an environment that can take every step. -/
def unguarded (machine : Machine State Action) : Machine State Action :=
  { machine with enabled := fun _ _ => True }

/-- A machine that is never blocked can take every run. -/
theorem unguarded_admissible {machine : Machine State Action}
    (free : ∀ state action, machine.enabled state action) (state : State)
    (actions : List Action) : machine.Admissible state actions := by
  induction actions generalizing state with
  | nil => trivial
  | cons action rest inductionHypothesis =>
    exact ⟨free state action, inductionHypothesis (machine.step state action)⟩

/-- The simulation rule: a possible run is matched by a possible run, from related states to
related states. -/
theorem simulation_rule (machine : Machine State Action) (shadow : Machine Shadow Move)
    (moves : State → Action → List Move) (related : State → Shadow → Prop)
    (simulates : Simulates machine shadow moves related) (state : State) (image : Shadow)
    (actions : List Action) (matching : related state image)
    (admissible : machine.Admissible state actions) :
    shadow.Admissible image (trace machine moves state actions) ∧
      related (machine.after state actions)
        (shadow.after image (trace machine moves state actions)) := by
  induction actions generalizing state image with
  | nil => exact ⟨trivial, matching⟩
  | cons action rest inductionHypothesis =>
    obtain ⟨possible, next⟩ := simulates.step state action image matching admissible.1
    obtain ⟨later, final⟩ := inductionHypothesis (machine.step state action)
      (shadow.after image (moves state action)) next admissible.2
    constructor
    · exact (shadow.along_append shadow.enabled image _ _).mpr ⟨possible, later⟩
    · rw [trace, shadow.after_append]
      exact final

/-- Moves that do not depend on the state are contributed action by action. -/
theorem trace_stateless (machine : Machine State Action) (share : Action → List Move)
    (state : State) (actions : List Action) :
    trace machine (fun _ action => share action) state actions = actions.flatMap share := by
  induction actions generalizing state with
  | nil => rfl
  | cons action rest inductionHypothesis =>
    rw [trace, inductionHypothesis, List.flatMap_cons]

/-- Two machines that take the same actions meet corresponding conditions along the same runs,
if the conditions agree on related states, and a step that meets them keeps the states related. -/
theorem along_related (machine : Machine State Action) (shadow : Machine Shadow Action)
    (related : State → Shadow → Prop) (allowed : Action → Prop)
    (first : State → Action → Prop) (second : Shadow → Action → Prop)
    (agree : ∀ state image action, related state image → allowed action →
      (first state action ↔ second image action))
    (kept : ∀ state image action, related state image → allowed action → second image action →
      related (machine.step state action) (shadow.step image action))
    (state : State) (image : Shadow) (actions : List Action) (matching : related state image)
    (every : ∀ action ∈ actions, allowed action) :
    machine.Along first state actions ↔ shadow.Along second image actions := by
  induction actions generalizing state image with
  | nil => exact Iff.rfl
  | cons action rest inductionHypothesis =>
    have possible : allowed action := every action List.mem_cons_self
    have others : ∀ other ∈ rest, allowed other := fun other member =>
      every other (List.mem_cons_of_mem action member)
    rw [Machine.Along, Machine.Along, agree state image action matching possible]
    apply and_congr_right
    intro met
    have next := kept state image action matching possible met
    exact inductionHypothesis (machine.step state action) (shadow.step image action) next others

section Views

variable (machine : Machine State Action) (shadow : Machine Shadow Move)
  (moves : State → Action → List Move) (view : State → Shadow)
  (follows : ∀ state action,
    view (machine.step state action) = shadow.after (view state) (moves state action))

include follows

/-- What is seen of a state after a run is what the moves of its trace lead to. -/
theorem view_after (state : State) (actions : List Action) :
    view (machine.after state actions) =
      shadow.after (view state) (trace machine moves state actions) := by
  induction actions generalizing state with
  | nil => rfl
  | cons action rest inductionHypothesis =>
    rw [trace, shadow.after_append, ← follows]
    exact inductionHypothesis (machine.step state action)

/-- A condition on the moves of a trace is a condition on the steps of the run. -/
theorem along_trace (condition : Shadow → Move → Prop) (state : State) (actions : List Action) :
    shadow.Along condition (view state) (trace machine moves state actions) ↔
      machine.Along (fun state action => shadow.Along condition (view state) (moves state action))
        state actions := by
  induction actions generalizing state with
  | nil => exact Iff.rfl
  | cons action rest inductionHypothesis =>
    rw [trace, shadow.along_append, ← follows, inductionHypothesis, Machine.Along]

end Views

end Library.Simulations
