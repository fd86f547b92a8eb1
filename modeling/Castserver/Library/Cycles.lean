import Castserver.Library.Runs
import Mathlib.Order.Interval.Finset.Nat

/-!
# Cyclic counters

A cyclic counter goes through the integers of one interval in their order and starts over
behind the last one. As many steps as the interval is long pass through each of its numbers
exactly once, wherever they begin.

Code rarely spells the turn as a comparison with the last number. The rule for runs asks of
a step only that it counts on from the numbers of the interval, so that a test which is wrong
everywhere else will do.
-/

namespace Library.Cycles

open Library.Runs

universe u v

section Counting

variable (first : Int) (period : Nat)

/-- The numbers of the cycle. -/
def Inside (value : Int) : Prop := first ≤ value ∧ value < first + period

/-- The next number of the cycle. -/
def advance (value : Int) : Int := if value + 1 = first + period then first else value + 1

/-- The number that stands some steps behind the first one. -/
def reading (steps : Nat) : Int := first + (steps % period : Nat)

/-- Every reading is a number of the cycle. -/
theorem reading_inside (positive : 0 < period) (steps : Nat) :
    Inside first period (reading first period steps) := by
  have below := Nat.mod_lt steps positive
  simp only [Inside, reading]
  omega

/-- One step further is the next number. -/
theorem reading_advances (positive : 0 < period) (steps : Nat) :
    advance first period (reading first period steps) = reading first period (steps + 1) := by
  have below := Nat.mod_lt steps positive
  rw [advance, reading, reading, ← Nat.mod_add_mod]
  generalize steps % period = remainder at below ⊢
  by_cases last : remainder + 1 = period
  · rw [if_pos (by omega), last, Nat.mod_self]
    simp
  · rw [if_neg (by omega), Nat.mod_eq_of_lt (by omega)]
    omega

/-- Fewer steps apart than the cycle is long, readings differ. -/
theorem reading_distinct (earlier later : Nat) (before : earlier < later)
    (close : later < earlier + period) :
    reading first period earlier ≠ reading first period later := by
  intro same
  have remainders : earlier % period = later % period := by
    simp only [reading] at same
    omega
  have together := Nat.mod_injOn_Ico earlier period (by simp; omega) (by simp; omega) remainders
  omega

/-- Any readings in a row, as many as the cycle is long, pass through all of its numbers. -/
theorem reading_covers (start : Nat) (value : Int) (inside : Inside first period value) :
    ∃ steps, start ≤ steps ∧ steps < start + period ∧ reading first period steps = value := by
  obtain ⟨low, high⟩ := inside
  have listed : (value - first).toNat ∈ Finset.range period := by
    rw [Finset.mem_range]
    omega
  rw [← Nat.image_Ico_mod start period] at listed
  obtain ⟨steps, between, remainder⟩ := Finset.mem_image.mp listed
  rw [Finset.mem_Ico] at between
  refine ⟨steps, between.1, between.2, ?_⟩
  rw [reading, remainder]
  omega

end Counting

section Runs

variable {State : Type u} {Action : Type v}

/-- The counting rule: if every step counts on from the numbers of the cycle, a run counts on
by its length. -/
theorem counting_rule (machine : Machine State Action) (counter : State → Int) (first : Int)
    (period : Nat) (positive : 0 < period)
    (counts : ∀ state action, Inside first period (counter state) →
      counter (machine.step state action) = advance first period (counter state))
    (state : State) (start : Nat) (begins : counter state = reading first period start)
    (actions : List Action) :
    counter (machine.after state actions) = reading first period (start + actions.length) := by
  induction actions generalizing state start with
  | nil => exact begins
  | cons action rest inductionHypothesis =>
    have inside : Inside first period (counter state) :=
      begins ▸ reading_inside first period positive start
    have next : counter (machine.step state action) = reading first period (start + 1) := by
      rw [counts state action inside, begins, reading_advances first period positive]
    have later := inductionHypothesis (machine.step state action) (start + 1) next
    rw [List.length_cons, Nat.add_comm rest.length, ← Nat.add_assoc]
    exact later

end Runs

end Library.Cycles
