import Castserver.SocketFile

/-!
# What the process announces of itself

`multicast_serverinfo` announces a first run when the detect socket is set up and an exit
when it is closed, and the main loop replies to the speakers in between. A signal that is
handled can come at any point of all this, again while its handler runs. The announcements are
still handed to `sendto` in their order, and such a signal always ends the process after the
calls of its handler. What `sendto` answers is only logged, so nothing depends on it.
-/

namespace Castserver.Announcements

open Lifecycle
open Library.Runs

/-- Announcements in their order: one of a first run, if any, then replies, then those of an
exit. -/
def Ordered (sent : List Notice) : Prop :=
  ∃ greeting replies exits, sent.reverse =
      greeting ++ List.replicate replies .reply ++ List.replicate exits .exit ∧
    (greeting = [.firstRun] ∨ greeting = [] ∧ replies = 0)

/-- On the way to the main loop nothing is announced before the announcement of a first run,
and only replies after it. -/
structure Greets (state : State) : Prop where
  quiet : Instruction.announceFirstRun ∈ state.program → state.handed = []
  greeted : Instruction.announceFirstRun ∉ state.program →
    ∃ replies, state.handed.reverse = [.firstRun] ++ List.replicate replies .reply

/-- The main loop is behind the only announcement of a first run. -/
theorem main_greets : ∀ program ∈ main.tails,
    (program.head? = some .mainLoop → Instruction.announceFirstRun ∉ program) ∧
      (program.head? = some .announceFirstRun →
        Instruction.announceFirstRun ∉ program.tail) := by
  decide

/-- Announcements on the way to the main loop are in order. -/
theorem greets_ordered (state : State) (greets : Greets state) : Ordered state.handed := by
  by_cases before : Instruction.announceFirstRun ∈ state.program
  · rw [greets.quiet before]
    exact ⟨[], 0, 0, rfl, Or.inr ⟨rfl, rfl⟩⟩
  · obtain ⟨replies, sent⟩ := greets.greeted before
    exact ⟨[.firstRun], replies, 0, by rw [sent]; simp, Or.inl rfl⟩

/-- One more announcement of an exit is in order. -/
theorem exit_ordered (sent : List Notice) (ordered : Ordered sent) :
    Ordered (.exit :: sent) := by
  obtain ⟨greeting, replies, exits, same, first⟩ := ordered
  refine ⟨greeting, replies, exits + 1, ?_, first⟩
  rw [List.reverse_cons, same, List.replicate_succ']
  simp only [List.append_assoc]

section Calls

variable (answer : Answer) (state : State) (instruction : Instruction)

/-- Giving up announces nothing. -/
theorem give_up_handed (failure : Failure) :
    (giveUp instruction state failure).handed = state.handed := by
  cases failure <;> rfl

/-- Only two calls announce something. -/
theorem execute_handed (notFirst : instruction ≠ .announceFirstRun)
    (notLast : instruction ≠ .leaveDetect) :
    (execute answer state instruction).handed = state.handed := by
  cases instruction with
  | socket purpose failure =>
    simp only [execute]
    split
    · rfl
    · exact give_up_handed _ _ failure
  | check call closes failure =>
    simp only [execute]
    split
    · rw [give_up_handed]
      split <;> rfl
    · rfl
  | announceFirstRun => exact absurd rfl notFirst
  | leaveDetect => exact absurd rfl notLast
  | bind failure =>
    simp only [execute]
    split
    · exact give_up_handed _ _ failure
    · rfl
  | mutexRecvfrom =>
    simp only [execute]
    split <;> rfl
  | unlink =>
    simp only [execute]
    split <;> rfl
  | mainLoop =>
    simp only [execute]
    split <;> rfl
  | _ => rfl

variable (rest : List Instruction) (program : state.program = instruction :: rest)

include program

/-- A call on the way to the main loop announces what the program tells, or gives up. -/
theorem starting_announces (starting : Starting state) (greets : Greets state)
    (placed : placed instruction rest = true) (other : instruction ≠ .mainLoop) :
    (execute answer { state with program := rest } instruction).program = rest ∧
        Greets (execute answer { state with program := rest } instruction) ∨
      (∃ code, (execute answer { state with program := rest } instruction).program ∈
          (xexit code).tails) ∧
        Ordered (execute answer { state with program := rest } instruction).handed := by
  have notLast : instruction ≠ .leaveDetect := by
    rintro rfl
    cases placed
  by_cases greeting : instruction = .announceFirstRun
  · subst greeting
    have once := (main_greets state.program starting.place).2 (by rw [program]; rfl)
    have nothing : state.handed = [] := greets.quiet (by rw [program]; exact List.mem_cons_self)
    rw [program] at once
    refine Or.inl ⟨rfl, fun before => absurd before once, fun _ => ⟨0, ?_⟩⟩
    simp [execute, multicastServerinfo, nothing]
  · have sent := execute_handed answer { state with program := rest } instruction greeting notLast
    rcases execute_outcome answer { state with program := rest } instruction other with
      goesOn | gaveUp
    · refine Or.inl ⟨goesOn.program, ?_, ?_⟩
      · rw [goesOn.program, sent]
        intro member
        exact greets.quiet (by rw [program]; exact List.mem_cons_of_mem _ member)
      · rw [goesOn.program, sent]
        intro gone
        apply greets.greeted
        rw [program]
        exact fun member => (List.mem_cons.mp member).elim (fun same => greeting same.symm) gone
    · exact Or.inr ⟨gives_up_place _ _ _ gaveUp, by rw [sent]; exact greets_ordered state greets⟩

omit program in
/-- A call on the way out announces at most one exit. -/
theorem leaving_announces (code : Code) (way : leaves code (instruction :: rest) = true) :
    (execute answer { state with program := rest } instruction).handed =
      if instruction = .leaveDetect ∧ state.readFd .detect ≠ 0 then .exit :: state.handed
      else state.handed := by
  by_cases last : instruction = .leaveDetect
  · subst last
    simp only [execute]
    split
    · next connected =>
      rw [if_pos ⟨trivial, connected⟩]
      rfl
    · next unconnected => rw [if_neg (fun both => unconnected both.2)]
  · rw [if_neg (fun both => last both.1)]
    refine execute_handed answer { state with program := rest } instruction ?_ last
    rintro rfl
    simp [leaves] at way

end Calls

/-- The last call on the way out ends the process. -/
theorem deinit_exits (code : Code) : ∀ program ∈ (xexit code).tails, program ≠ [] →
    program.getLast? = some (.exit code) := by
  cases code <;> decide

/-- A call on the way out other than the last leaves the calls behind it and the numbers of the
connections. -/
theorem leaving_keeps (answer : Answer) (state : State) (code : Code) (instruction : Instruction)
    (rest : List Instruction) (way : leaves code (instruction :: rest) = true)
    (more : rest ≠ []) :
    (execute answer { state with program := rest } instruction).program = rest ∧
      (execute answer { state with program := rest } instruction).readFd = state.readFd := by
  simp only [leaves, Bool.and_eq_true, decide_eq_true_eq] at way
  cases instruction with
  | setExitFlag => exact ⟨rfl, rfl⟩
  | foreign call => exact ⟨rfl, rfl⟩
  | closeConnection purpose => exact ⟨rfl, rfl⟩
  | leaveDetect =>
    simp only [execute]
    split <;> exact ⟨rfl, rfl⟩
  | unlink =>
    simp only [execute]
    split <;> exact ⟨rfl, rfl⟩
  | exit last =>
    simp only [Bool.and_eq_true, decide_eq_true_eq] at way
    exact absurd way.2.2 more
  | _ => cases way.2

/-- A process on the way out makes the calls that are left and ends with its code. It announces
its exit if it has not left the detect socket yet and the socket has a number. -/
theorem leaving_ends (code : Code) (answers : List Answer) :
    ∀ state : State, state.program ∈ (xexit code).tails → state.program ≠ [] →
      answers.length = state.program.length →
      (machine.after state (answers.map .call)).ended = some (.exit code, code) ∧
        (machine.after state (answers.map .call)).handed =
          if Instruction.leaveDetect ∈ state.program ∧ state.readFd .detect ≠ 0 then
            .exit :: state.handed
          else state.handed := by
  induction answers with
  | nil =>
    intro state _ more enough
    exact absurd (List.length_eq_zero_iff.mp enough.symm) more
  | cons answer answers inductionHypothesis =>
    intro state place more enough
    have way := deinit_leaves code state.program place
    have last := deinit_exits code state.program place more
    cases program : state.program with
    | nil => exact absurd program more
    | cons instruction rest =>
      rw [program] at way last enough
      have announced := leaving_announces answer state instruction rest code way
      have moved : machine.after state ((answer :: answers).map .call) =
          machine.after (execute answer { state with program := rest } instruction)
            (answers.map .call) := by
        show machine.after (step state (.call answer)) _ = _
        simp only [step, program]
      rw [moved]
      by_cases nothing : rest = []
      · subst nothing
        obtain rfl : instruction = .exit code := Option.some.inj last
        obtain rfl : answers = [] :=
          List.length_eq_zero_iff.mp (Nat.succ.inj enough)
        exact ⟨rfl, by simp [execute, giveUp, Machine.after]⟩
      · obtain ⟨goesOn, readFd⟩ := leaving_keeps answer state code instruction rest way nothing
        simp only [leaves, Bool.and_eq_true, decide_eq_true_eq] at way
        obtain ⟨ended, sent⟩ := inductionHypothesis
          (execute answer { state with program := rest } instruction) (by rw [goesOn]; exact way.1)
          (by rw [goesOn]; exact nothing) (by rw [goesOn]; exact Nat.succ.inj enough)
        refine ⟨ended, ?_⟩
        rw [sent, announced, goesOn, readFd]
        by_cases leaving : instruction = .leaveDetect
        · subst leaving
          have once : Instruction.leaveDetect ∉ rest := of_decide_eq_true way.2
          simp [once]
        · simp [leaving, Ne.symm leaving]

end Castserver.Announcements
