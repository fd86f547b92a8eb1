import Castserver.Lifecycle

/-!
# The sockets of a started process

Five sockets are opened on the way to the main loop. That of the mutex is closed again
before the next one is opened; the others are handed to their modules through a local variable.
A process that has got as far as its main loop holds these four, apart from what it started
with and what the calls outside of the repository hold, such as the HTTP daemon; and it is in
the state that the services rely on.
-/

namespace Castserver.Boot

open Speakers Service Lifecycle
open Library.Runs

/-- Whether the socket for a purpose has not been opened yet. -/
def opens (purpose : Purpose) (program : List Instruction) : Bool :=
  program.any fun
    | .socket other _ => decide (other = purpose)
    | _ => false

/-- The purposes whose modules have been given their numbers, latest first. -/
def assigned (program : List Instruction) : List Purpose :=
  [Purpose.pusher, .control, .detect, .command].filter fun purpose =>
    decide (Instruction.assign purpose ∉ program)

/-- Whether a socket is open whose number is only in the local variable. -/
def unassigned (program : List Instruction) : Bool :=
  !opens .mutex program && decide (Instruction.mutexClose ∈ program) ||
    [Purpose.command, .detect, .control, .pusher].any fun purpose =>
      !opens purpose program && decide (Instruction.assign purpose ∈ program)

/-- The sockets that are open at a point of the program are those of the point before, apart
from what the call between them does. -/
def opened : List Instruction → Bool
  | [] => true
  | instruction :: rest =>
    match instruction with
    | .socket _ _ =>
      !unassigned (instruction :: rest) && unassigned rest &&
        decide (assigned rest = assigned (instruction :: rest))
    | .assign purpose =>
      unassigned (instruction :: rest) && !unassigned rest &&
        decide (assigned rest = purpose :: assigned (instruction :: rest)) &&
        decide (purpose ∉ assigned (instruction :: rest))
    | .mutexClose =>
      unassigned (instruction :: rest) && !unassigned rest &&
        decide (assigned (instruction :: rest) = []) && decide (assigned rest = [])
    | .mainLoop =>
      !unassigned (instruction :: rest) &&
        decide (assigned (instruction :: rest) = [.pusher, .control, .detect, .command])
    | _ =>
      decide (unassigned rest = unassigned (instruction :: rest)) &&
        decide (assigned rest = assigned (instruction :: rest))

/-- Sockets are opened one after the other on the way to the main loop. -/
theorem main_opened : ∀ program ∈ main.tails, Instruction.mainLoop ∈ program →
    opened program = true := by
  decide

/-- The numbers of the sockets that are open on the way to the main loop, latest first. -/
def numbers (state : State) : List Nat :=
  (if unassigned state.program then [state.sockfd] else []) ++
    (assigned state.program).map state.readFd

/-- The process holds some numbers besides those it started with and those that are held outside
of the repository. -/
structure Holding (table : Nat → Option Descriptor) (held foreign : List Nat)
    (present : Nat → Option Descriptor) : Prop where
  distinct : held.Nodup
  apart : ∀ fd ∈ held, fd ∉ foreign
  fresh : ∀ fd, fd ∈ held ∨ fd ∈ foreign → table fd = none
  present : ∀ fd, present fd =
    if fd ∈ held ∨ fd ∈ foreign then some ⟨.process, none⟩ else table fd

section Sockets

variable (table : Nat → Option Descriptor)

/-- A number that is free is held by nobody and was free at the start. -/
theorem free_number (held foreign : List Nat) (present : Nat → Option Descriptor) (fd : Nat)
    (holding : Holding table held foreign present) (free : present fd = none) :
    ¬ (fd ∈ held ∨ fd ∈ foreign) ∧ table fd = none := by
  have before := holding.present fd
  rw [free] at before
  split at before
  · cases before
  · next other => exact ⟨other, before.symm⟩

/-- A new socket is one number more. -/
theorem open_holding (held foreign : List Nat) (present : Nat → Option Descriptor) (fd : Nat)
    (holding : Holding table held foreign present) (free : present fd = none) :
    Holding table (fd :: held) foreign (Function.update present fd (some ⟨.process, none⟩)) := by
  obtain ⟨other, unused⟩ := free_number table held foreign present fd holding free
  rw [not_or] at other
  refine ⟨List.nodup_cons.mpr ⟨other.1, holding.distinct⟩, ?_, ?_, ?_⟩
  · intro number member
    rcases List.mem_cons.mp member with rfl | earlier
    · exact other.2
    · exact holding.apart number earlier
  · intro number member
    rw [List.mem_cons, or_assoc] at member
    rcases member with rfl | earlier
    · exact unused
    · exact holding.fresh number earlier
  · intro number
    by_cases same : number = fd
    · simp [same]
    · simp [same, holding.present number]

/-- Closing the only socket leaves the process with the numbers it started with and those that
are held outside of the repository. -/
theorem close_holding (fd : Nat) (foreign : List Nat) (present : Nat → Option Descriptor)
    (holding : Holding table [fd] foreign present) :
    Holding table [] foreign (Function.update present fd none) := by
  have apart : fd ∉ foreign := holding.apart fd (List.mem_singleton_self fd)
  refine ⟨List.nodup_nil, nofun, fun number member => ?_, ?_⟩
  · exact holding.fresh number (Or.inr (member.resolve_left List.not_mem_nil))
  · intro number
    by_cases same : number = fd
    · subst same
      rw [Function.update_self, if_neg (by simp [apart])]
      exact (holding.fresh number (Or.inl (List.mem_singleton_self number))).symm
    · simp [same, holding.present number]

/-- A call outside of the repository changes the numbers that are held there. -/
theorem foreign_holding (answer : Answer) (state : State) (held : List Nat)
    (holding : Holding table held state.foreign state.table)
    (free : ∀ fd ∈ answer.opened, state.table fd = none)
    (own : ∀ fd ∈ answer.closed, fd ∈ state.foreign) :
    Holding table held (callForeign answer state).foreign (callForeign answer state).table := by
  have unused (fd : Nat) (opened : fd ∈ answer.opened) :=
    free_number table held state.foreign state.table fd holding (free fd opened)
  have member (fd : Nat) : fd ∈ (callForeign answer state).foreign ↔
      fd ∈ answer.opened ∨ fd ∈ state.foreign ∧ fd ∉ answer.closed := by
    simp [callForeign]
  refine ⟨holding.distinct, ?_, ?_, ?_⟩
  · intro fd mine
    rw [member]
    rintro (opened | ⟨theirs, _⟩)
    · exact (unused fd opened).1 (Or.inl mine)
    · exact holding.apart fd mine theirs
  · intro fd kept
    rw [member] at kept
    rcases kept with mine | opened | ⟨theirs, _⟩
    · exact holding.fresh fd (Or.inl mine)
    · exact (unused fd opened).2
    · exact holding.fresh fd (Or.inr theirs)
  · intro fd
    simp only [member]
    by_cases opened : fd ∈ answer.opened
    · simp [callForeign, opened]
    · by_cases closed : fd ∈ answer.closed
      · have theirs := own fd closed
        have mine : fd ∉ held := fun mine => holding.apart fd mine theirs
        simp [callForeign, opened, closed, mine, holding.fresh fd (Or.inr theirs)]
      · simp [callForeign, opened, closed, holding.present fd]

/-- On the way to the main loop the process holds the sockets that the program tells. -/
def Accounted (state : State) : Prop :=
  Holding table (numbers state) state.foreign state.table

/-- Whether a call on the way to the main loop leaves the sockets and their numbers alone, unless
it fails. -/
def keepsSockets : Instruction → Bool
  | .socket _ _ | .assign _ | .mutexClose | .foreign _ | .closeConnection _ | .leaveDetect => false
  | _ => true

/-- Such a call leaves them alone, or gives up. -/
theorem execute_sockets (answer : Answer) (state : State) (instruction : Instruction)
    (keeps : keepsSockets instruction = true) (other : instruction ≠ .mainLoop) :
    (GoesOn instruction state (execute answer state instruction) ∧
      (execute answer state instruction).table = state.table ∧
      (execute answer state instruction).foreign = state.foreign ∧
      (execute answer state instruction).sockfd = state.sockfd ∧
      (execute answer state instruction).readFd = state.readFd) ∨
    GivesUp instruction state (execute answer state instruction) := by
  rcases execute_outcome answer state instruction other with goesOn | gaveUp
  · cases instruction with
    | check call closes failure =>
      by_cases failed : answer.fails = true
      · refine Or.inr ?_
        simp only [execute, if_pos failed]
        exact give_up_gives_up _ _ _ failure (by split <;> rfl) fun _ same => decide_eq_true same
      · refine Or.inl ⟨goesOn, ?_⟩
        simp only [execute, if_neg failed, and_self]
    | mutexRecvfrom =>
      by_cases answered : answer.answered = true
      · refine Or.inr ?_
        simp only [execute, if_pos answered]
        exact .exit .one rfl rfl rfl
      · refine Or.inl ⟨goesOn, ?_⟩
        simp only [execute, if_neg answered, and_self]
    | bind failure =>
      refine Or.inl ⟨goesOn, ?_⟩
      simp only [execute]
      split
      · cases failure <;> exact ⟨rfl, rfl, rfl, rfl⟩
      · exact ⟨rfl, rfl, rfl, rfl⟩
    | unlink =>
      refine Or.inl ⟨goesOn, ?_⟩
      simp only [execute]
      split <;> exact ⟨rfl, rfl, rfl, rfl⟩
    | mainLoop => exact absurd rfl other
    | socket purpose failure => cases keeps
    | assign purpose => cases keeps
    | mutexClose => cases keeps
    | foreign call => cases keeps
    | closeConnection purpose => cases keeps
    | leaveDetect => cases keeps
    | _ => exact Or.inl ⟨goesOn, rfl, rfl, rfl, rfl⟩
  · exact Or.inr gaveUp

/-- The sockets that are open are the same behind such a call. -/
theorem kept_opened (instruction : Instruction) (rest : List Instruction)
    (keeps : keepsSockets instruction = true ∨ ∃ call, instruction = .foreign call)
    (other : instruction ≠ .mainLoop) (account : opened (instruction :: rest) = true) :
    unassigned rest = unassigned (instruction :: rest) ∧
      assigned rest = assigned (instruction :: rest) := by
  have both : (decide (unassigned rest = unassigned (instruction :: rest)) &&
      decide (assigned rest = assigned (instruction :: rest))) = true := by
    cases instruction with
    | mainLoop => exact absurd rfl other
    | socket purpose failure => simp [keepsSockets] at keeps
    | assign purpose => simp [keepsSockets] at keeps
    | mutexClose => simp [keepsSockets] at keeps
    | _ => exact account
  simpa only [Bool.and_eq_true, decide_eq_true_eq] using both

section Accounting

variable (state : State) (answer : Answer) (rest : List Instruction)
  (accounted : Accounted table state)

include accounted

/-- A new socket is accounted for by the local variable. -/
theorem socket_accounted (purpose : Purpose) (failure : Failure)
    (program : state.program = .socket purpose failure :: rest)
    (account : opened (.socket purpose failure :: rest) = true)
    (free : ∀ fd, answer.descriptor = some fd → state.table fd = none) :
    (execute answer { state with program := rest } (.socket purpose failure)).program = rest ∧
        Accounted table (execute answer { state with program := rest }
          (.socket purpose failure)) ∨
      ∃ code, (execute answer { state with program := rest } (.socket purpose failure)).program ∈
        (xexit code).tails := by
  simp only [opened, Bool.and_eq_true, Bool.not_eq_true', decide_eq_true_eq] at account
  obtain ⟨⟨nothing, new⟩, same⟩ := account
  simp only [execute]
  split
  · next fd granted =>
    have more : numbers { state with
        program := rest
        table := Function.update state.table fd (some ⟨.process, none⟩)
        sockfd := fd } = fd :: numbers state := by
      simp [numbers, program, nothing, new, same]
    refine Or.inl ⟨rfl, ?_⟩
    rw [Accounted, more]
    exact open_holding table (numbers state) state.foreign state.table fd accounted
      (free fd granted)
  · exact Or.inr (gives_up_place _ state _ (give_up_gives_up (.socket purpose failure) _ _
      failure rfl fun _ same => decide_eq_true same))

/-- A socket that is assigned is accounted for by its module. -/
theorem assign_accounted (purpose : Purpose) (program : state.program = .assign purpose :: rest)
    (account : opened (.assign purpose :: rest) = true) :
    Accounted table (execute answer { state with program := rest } (.assign purpose)) := by
  simp only [opened, Bool.and_eq_true, Bool.not_eq_true', decide_eq_true_eq] at account
  obtain ⟨⟨⟨one, nothing⟩, given⟩, new⟩ := account
  have others : (assigned (.assign purpose :: rest)).map
      (Function.update state.readFd purpose state.sockfd) =
        (assigned (.assign purpose :: rest)).map state.readFd := by
    apply List.map_congr_left
    intro earlier member
    apply Function.update_of_ne
    rintro rfl
    exact new member
  have same : numbers { state with
      program := rest
      readFd := Function.update state.readFd purpose state.sockfd } = numbers state := by
    simp [numbers, program, one, nothing, given, others]
  show Holding table (numbers { state with
      program := rest
      readFd := Function.update state.readFd purpose state.sockfd }) state.foreign state.table
  rw [same]
  exact accounted

/-- Behind the mutex no socket is open. -/
theorem mutex_accounted (program : state.program = .mutexClose :: rest)
    (account : opened (.mutexClose :: rest) = true) :
    Accounted table (execute answer { state with program := rest } .mutexClose) := by
  simp only [opened, Bool.and_eq_true, Bool.not_eq_true', decide_eq_true_eq] at account
  obtain ⟨⟨⟨one, nothing⟩, none⟩, noneLater⟩ := account
  have single : numbers state = [state.sockfd] := by
    simp [numbers, program, one, none]
  have empty : numbers (close state.sockfd { state with program := rest }) = [] := by
    simp [numbers, close, nothing, noneLater]
  rw [Accounted, single] at accounted
  show Holding table (numbers (close state.sockfd { state with program := rest })) _ _
  rw [empty]
  exact close_holding table state.sockfd state.foreign state.table accounted

/-- A call outside of the repository leaves the sockets accounted for. -/
theorem foreign_accounted (call : Foreign) (program : state.program = .foreign call :: rest)
    (account : opened (.foreign call :: rest) = true)
    (unused : ∀ fd ∈ answer.opened, state.table fd = none)
    (own : ∀ fd ∈ answer.closed, fd ∈ state.foreign) :
    Accounted table (execute answer { state with program := rest } (.foreign call)) := by
  have same := kept_opened (.foreign call) rest (Or.inr ⟨call, rfl⟩) nofun account
  have held : numbers (callForeign answer { state with program := rest }) = numbers state := by
    simp only [numbers, callForeign, program, same.1, same.2]
  show Holding table (numbers (callForeign answer { state with program := rest })) _ _
  rw [held]
  exact foreign_holding table answer { state with program := rest } (numbers state) accounted
    unused own

/-- A call on the way to the main loop leaves the sockets accounted for, or gives up. -/
theorem starting_accounted (instruction : Instruction) (starting : Starting state)
    (program : state.program = instruction :: rest) (placed : placed instruction rest = true)
    (other : instruction ≠ .mainLoop) (possible : enabled state (.call answer)) :
    (execute answer { state with program := rest } instruction).program = rest ∧
        Accounted table (execute answer { state with program := rest } instruction) ∨
      ∃ code, (execute answer { state with program := rest } instruction).program ∈
        (xexit code).tails := by
  obtain ⟨_, free, unused, own⟩ := possible
  have account := main_opened state.program starting.place starting.before
  rw [program] at account
  cases keeps : keepsSockets instruction with
  | true =>
    have same := kept_opened instruction rest (Or.inl keeps) other account
    rcases execute_sockets answer { state with program := rest } instruction keeps other with
      ⟨goesOn, sockets, theirs, sockfd, readFd⟩ | gaveUp
    · have held : numbers (execute answer { state with program := rest } instruction) =
          numbers state := by
        rw [numbers, numbers, goesOn.program, program, same.1, same.2, sockfd, readFd]
      refine Or.inl ⟨goesOn.program, ?_⟩
      rw [Accounted, held, sockets, theirs]
      exact accounted
    · exact Or.inr (gives_up_place _ _ _ gaveUp)
  | false =>
    cases instruction with
    | socket purpose failure =>
      exact socket_accounted table state answer rest accounted purpose failure program account free
    | assign purpose =>
      exact Or.inl ⟨rfl, assign_accounted table state answer rest accounted purpose program
        account⟩
    | mutexClose =>
      exact Or.inl ⟨rfl, mutex_accounted table state answer rest accounted program account⟩
    | foreign call =>
      exact Or.inl ⟨rfl, foreign_accounted table state answer rest accounted call program account
        unused own⟩
    | closeConnection purpose => cases placed
    | leaveDetect => cases placed
    | _ => cases keeps

end Accounting

end Sockets

/-- The three standard descriptors. -/
def standard : Nat → Option Descriptor := fun fd => if fd < 3 then some ⟨.process, none⟩ else none

end Castserver.Boot
