import Castserver.Library.Runs

/-!
# Tasks of a thread

A thread that works on a shared state does so in units that other threads may come
between. A task is what the thread has decided to do before it does it: its units in
order, and its result, an error if it stops early. Nothing a task does depends on the
shared state. Performing a task on a machine takes its units one after the other;
performing two tasks in a row is performing the first and then the second.
-/

namespace Library.Tasks

open Library.Runs

universe u v w
variable {State Move : Type u} {Error : Type v} {Result Next : Type w}

/-- The units of a thread's work, and how it ends. -/
structure Task (Move : Type u) (Error : Type v) (Result : Type w) where
  units : List Move
  result : Except Error Result

namespace Task

/-- No work. -/
def done (result : Result) : Task Move Error Result := ⟨[], .ok result⟩

/-- No work, and an error. -/
def fail (error : Error) : Task Move Error Result := ⟨[], .error error⟩

/-- One task after another, which depends on the result of the first. An error of the first
one is the end. -/
def andThen (first : Task Move Error Result) (next : Result → Task Move Error Next) :
    Task Move Error Next :=
  match first.result with
  | .error error => ⟨first.units, .error error⟩
  | .ok result => ⟨first.units ++ (next result).units, (next result).result⟩

/-- One unit of work in front of a task. -/
def after (unit : Move) (task : Task Move Error Result) : Task Move Error Result :=
  ⟨unit :: task.units, task.result⟩

/-- Perform a task without interruption. -/
def perform (machine : Machine State Move) (state : State) (task : Task Move Error Result) :
    Except Error (State × Result) :=
  task.result.map fun result => (machine.after state task.units, result)

variable (machine : Machine State Move)

@[simp] theorem perform_done (state : State) (result : Result) :
    (done result : Task Move Error Result).perform machine state = .ok (state, result) := rfl

@[simp] theorem perform_fail (state : State) (error : Error) :
    (fail error : Task Move Error Result).perform machine state = .error error := rfl

@[simp] theorem perform_after (state : State) (unit : Move) (task : Task Move Error Result) :
    (task.after unit).perform machine state =
      task.perform machine (machine.step state unit) := rfl

/-- Performing one task after another performs the second from where the first one ends. -/
theorem perform_and_then (state : State) (first : Task Move Error Result)
    (next : Result → Task Move Error Next) :
    (first.andThen next).perform machine state =
      (first.perform machine state).bind fun reached =>
        (next reached.2).perform machine reached.1 := by
  unfold perform andThen
  cases first.result with
  | error error => rfl
  | ok result =>
    simp only [machine.after_append]
    rfl

/-- Behind a task that has a result comes the next one. -/
theorem and_then_reached (first : Task Move Error Result)
    (next : Result → Task Move Error Next) (result : Result) (reached : first.result = .ok result) :
    first.andThen next = ⟨first.units ++ (next result).units, (next result).result⟩ := by
  simp only [andThen, reached]

/-- What every unit of two tasks fulfils, every unit of both in a row fulfils. -/
theorem and_then_units (fulfils : Move → Prop) (first : Task Move Error Result)
    (next : Result → Task Move Error Next) (earlier : ∀ unit ∈ first.units, fulfils unit)
    (later : ∀ result, ∀ unit ∈ (next result).units, fulfils unit) :
    ∀ unit ∈ (first.andThen next).units, fulfils unit := by
  intro unit member
  unfold andThen at member
  split at member
  · exact earlier unit member
  · next result _ =>
    rcases List.mem_append.mp member with inFirst | inNext
    · exact earlier unit inFirst
    · exact later result unit inNext

end Task

end Library.Tasks
