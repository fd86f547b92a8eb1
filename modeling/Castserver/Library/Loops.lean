import Mathlib.Logic.Function.Iterate
import Mathlib.Tactic.Common

/-!
# While loops with fuel

A while loop is a decidable condition and a body on some state. Running it takes
fuel, one unit for each test of the condition; a run without enough fuel has no
result. The total rule gives the result of every run with enough fuel from an
invariant that the body keeps and a measure that it lowers. The counted rule says
how many rounds a run takes, and the endless rule that it never ends.
-/

namespace Library.Loops

universe u

/-- A loop condition and a loop body. -/
structure Loop (State : Type u) where
  condition : State → Bool
  body : State → State

namespace Loop

variable {State : Type u}

/-- Run a loop. The result is missing when the fuel is used up. -/
def run (loop : Loop State) : Nat → State → Option State
  | 0, _ => none
  | fuel + 1, state =>
    if loop.condition state then loop.run fuel (loop.body state) else some state

variable (loop : Loop State)

/-- The total rule: if the body keeps the invariant and lowers the measure whenever
the condition holds, every run with more fuel than the measure ends, in a state
where the invariant holds and the condition does not. -/
theorem total_rule (invariant : State → Prop) (measure : State → Nat)
    (kept : ∀ state, invariant state → loop.condition state = true →
      invariant (loop.body state) ∧ measure (loop.body state) < measure state)
    (fuel : Nat) (state : State) (initial : invariant state) (enough : measure state < fuel) :
    ∃ final, loop.run fuel state = some final ∧ invariant final ∧
      loop.condition final = false := by
  induction fuel generalizing state with
  | zero => omega
  | succ fuel inductionHypothesis =>
    cases going : loop.condition state with
    | false => exact ⟨state, by simp [run, going], initial, going⟩
    | true =>
      obtain ⟨keeps, lower⟩ := kept state initial going
      obtain ⟨final, ran, holds, ended⟩ :=
        inductionHypothesis (loop.body state) keeps (by omega)
      exact ⟨final, by simp [run, going, ran], holds, ended⟩

/-- The counted rule: if an invariant of the round lets the condition hold in the first
rounds and not after them, a run takes exactly these rounds, and fuel for one test
more than there are rounds. -/
theorem counted_rule (invariant : Nat → State → Prop) (count : Nat) (state : State)
    (initial : invariant 0 state)
    (kept : ∀ round state, round < count → invariant round state →
      loop.condition state = true ∧ invariant (round + 1) (loop.body state))
    (ended : ∀ state, invariant count state → loop.condition state = false) :
    invariant count (loop.body^[count] state) ∧
      ∀ fuel, loop.run fuel state =
        if count < fuel then some (loop.body^[count] state) else none := by
  induction count generalizing invariant state with
  | zero =>
    refine ⟨initial, ?_⟩
    intro fuel
    cases fuel with
    | zero => rfl
    | succ fuel => simp [run, ended state initial]
  | succ count inductionHypothesis =>
    obtain ⟨going, next⟩ := kept 0 state (Nat.succ_pos count) initial
    obtain ⟨last, runs⟩ := inductionHypothesis (fun round => invariant (round + 1))
      (loop.body state) next
      (fun round state below holds => kept (round + 1) state (Nat.succ_lt_succ below) holds) ended
    refine ⟨last, ?_⟩
    intro fuel
    cases fuel with
    | zero => rfl
    | succ fuel =>
      rw [run, if_pos going, runs fuel]
      simp only [Nat.succ_lt_succ_iff, Function.iterate_succ_apply]

/-- The endless rule: if the body keeps an invariant under which the condition holds, no
fuel is enough. -/
theorem endless_rule (invariant : State → Prop)
    (kept : ∀ state, invariant state →
      loop.condition state = true ∧ invariant (loop.body state))
    (fuel : Nat) (state : State) (initial : invariant state) : loop.run fuel state = none := by
  induction fuel generalizing state with
  | zero => rfl
  | succ fuel inductionHypothesis =>
    obtain ⟨going, next⟩ := kept state initial
    rw [run, if_pos going]
    exact inductionHypothesis (loop.body state) next

end Loop

end Library.Loops
