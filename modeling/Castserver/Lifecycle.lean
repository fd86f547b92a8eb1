import Castserver.Service
import Mathlib.Data.List.Infix
import Mathlib.Logic.Function.Basic

/-!
# The life of the process

From the installation of its signal handlers on, `main` is one sequence of calls. Each of
them can fail, and then the process ends at once or after `server_deinit`; and a signal
that is handled can come between any two of them, which ends it after `server_deinit` too.
Behind all of these ways are the same three resources: the socket file of the command thread,
the announcements on the detect socket, and the descriptors that the services share. A
signal that is not handled and a call of `abort` are not part of the model.
-/

namespace Castserver.Lifecycle

open Speakers Service
open Library.Runs

/-- What a socket of the process is for. -/
inductive Purpose where
  | mutex
  | command
  | detect
  | control
  | pusher
deriving DecidableEq, Repr

/-- Calls that have an effect on what follows only if they fail. -/
inductive Call where
  | mutexTtl
  | mutexInterface
  | mutexLoop
  | mutexTimeout
  | mutexSendto
  | commandListen
  | detectBind
  | detectTtl
  | detectInterface
  | detectMembership
  | detectLoop
deriving DecidableEq, Repr

/-- Calls of functions outside of the repository, which may open and close descriptors of their
own. -/
inductive Foreign where
  | eventInit
  | initThreadCmd
  | speakerInit
  | eventAdd
  | startDaemon
  | stopDaemon
  | eventDeinit
  | exitThreadCmd
  | speakerDeinit
deriving DecidableEq, Repr

/-- The exit codes. -/
inductive Code where
  | zero
  | one
  | three
  | four
  | eerrSocket
deriving DecidableEq, Repr

/-- What is done about a failure: `exit`, or `xexit` with its call of `server_deinit`. -/
inductive Failure where
  | exit (code : Code)
  | xexit (code : Code)
deriving DecidableEq, Repr

/-- The field `type` of an announcement: zero, `DETECT_TYPE_FIRST_RUN` or
`DETECT_TYPE_EXIT`. -/
inductive Notice where
  | reply
  | firstRun
  | exit
deriving DecidableEq, Repr

/-- The calls of `main` and of what it calls. -/
inductive Instruction where
  | socket (purpose : Purpose) (failure : Failure)
  | check (call : Call) (closes : Bool) (failure : Failure)
  | foreign (call : Foreign)
  | mutexRecvfrom
  | mutexClose
  | copyPath
  | unlink
  | bind (failure : Failure)
  | createThread
  | assign (purpose : Purpose)
  | announceFirstRun
  | mainLoop
  | setExitFlag
  | closeConnection (purpose : Purpose)
  | leaveDetect
  | exit (code : Code)
  | return
deriving DecidableEq, Repr

/-- The function `create_mutex`. -/
def createMutex : List Instruction :=
  [ .socket .mutex (.exit .eerrSocket),
    .check .mutexTtl true (.exit .eerrSocket),
    .check .mutexInterface true (.exit .eerrSocket),
    .check .mutexLoop false (.xexit .eerrSocket),
    .check .mutexTimeout false (.xexit .eerrSocket),
    .check .mutexSendto false (.exit .one),
    .mutexRecvfrom,
    .mutexClose ]

/-- The function `server_cmdctrl_init`. -/
def serverCmdctrlInit : List Instruction :=
  [ .copyPath,
    .foreign .initThreadCmd,
    .socket .command (.exit .three),
    .assign .command,
    .unlink,
    .bind (.exit .four),
    .check .commandListen false (.xexit .one),
    .createThread ]

/-- The function `create_detect_socket`. -/
def createDetectSocket : List Instruction :=
  [ .socket .detect (.xexit .eerrSocket),
    .check .detectBind false (.xexit .eerrSocket),
    .check .detectTtl true (.exit .eerrSocket),
    .check .detectInterface true (.xexit .eerrSocket),
    .check .detectMembership false (.xexit .eerrSocket),
    .check .detectLoop false (.xexit .eerrSocket) ]

/-- The function `server_detect_init`. -/
def serverDetectInit : List Instruction :=
  createDetectSocket ++ [.assign .detect, .foreign .eventAdd, .announceFirstRun, .createThread]

/-- The function `server_spctrl_init`. -/
def serverSpctrlInit : List Instruction :=
  [.socket .control (.xexit .eerrSocket), .assign .control, .foreign .eventAdd]

/-- The function `server_sppush_init`. -/
def serverSppushInit : List Instruction :=
  [.socket .pusher (.xexit .eerrSocket), .assign .pusher]

/-- The function `server_deinit`. -/
def serverDeinit : List Instruction :=
  [ .setExitFlag,
    .foreign .stopDaemon,
    .foreign .eventDeinit,
    .foreign .exitThreadCmd,
    .unlink,
    .closeConnection .pusher,
    .closeConnection .control,
    .leaveDetect,
    .foreign .speakerDeinit ]

/-- The function `main`, once its signal handlers are installed. -/
def main : List Instruction :=
  [.foreign .eventInit] ++ createMutex ++ serverCmdctrlInit ++ [.foreign .speakerInit] ++
    serverDetectInit ++ serverSpctrlInit ++ serverSppushInit ++
    [.foreign .startDaemon, .mainLoop] ++ serverDeinit ++ [.return]

/-- The function `xexit`. -/
def xexit (code : Code) : List Instruction := serverDeinit ++ [.exit code]

/-- What stands at a path: the socket that this process has bound, or something else. -/
inductive File where
  | own
  | other
deriving DecidableEq, Repr

/-- What a call is answered: the number that `socket` gives, whether any other call fails,
whether another server answers the probe, and the descriptors that a call outside of the
repository opens and closes. An `unlink` that finds no file does not fail. -/
structure Answer where
  descriptor : Option Nat
  fails : Bool
  answered : Bool
  opened : List Nat
  closed : List Nat

/-- The process: the calls it still has to make, the call that ended it and the exit code,
its descriptors, those of them that are held outside of the repository, the local variable
that holds a new socket, the numbers that the modules keep, the files, its copy of the path,
the type of the next announcement, the announcements it has handed to `sendto` (latest first),
and the flag of its threads. -/
structure State where
  program : List Instruction
  ended : Option (Instruction × Code)
  table : Nat → Option Descriptor
  foreign : List Nat
  sockfd : Nat
  readFd : Purpose → Nat
  files : List Char → Option File
  sockPath : List Char
  notifyType : Notice
  handed : List Notice
  exitThreadFlag : Bool

/-- The path of the socket. -/
def sock : List Char :=
  ['/', 't', 'm', 'p', '/', 'c', 'a', 's', 't', 's', 'p', 'e', 'a', 'k', 'e', 'r', '.', 's', 'o',
    'c', 'k']

/-- The path is not empty. -/
theorem sock_named : sock ≠ [] := by
  decide

/-- Give up because of a failed call. -/
def giveUp (call : Instruction) (state : State) : Failure → State
  | .exit code => { state with program := [], ended := some (call, code) }
  | .xexit code => { state with program := xexit code }

/-- Close a descriptor. -/
def close (fd : Nat) (state : State) : State :=
  { state with table := Function.update state.table fd none }

/-- Hand an announcement of a type to `sendto` and reset the type. Whatever `sendto` answers is
only logged, also if the number has been closed. -/
def multicastServerinfo (type : Notice) (state : State) : State :=
  { state with handed := type :: state.handed, notifyType := .reply }

/-- A call outside of the repository closes and opens descriptors of its own. -/
def callForeign (answer : Answer) (state : State) : State :=
  { state with
    table := fun fd =>
      if fd ∈ answer.opened then some ⟨.process, none⟩
      else if fd ∈ answer.closed then none
      else state.table fd
    foreign := answer.opened ++ state.foreign.filter fun fd => decide (fd ∉ answer.closed) }

/-- What a call does, with the calls behind it left in the program. -/
def execute (answer : Answer) (state : State) : Instruction → State
  | .socket purpose failure =>
    match answer.descriptor with
    | some fd =>
      { state with table := Function.update state.table fd (some ⟨.process, none⟩), sockfd := fd }
    | none => giveUp (.socket purpose failure) state failure
  | .check call closes failure =>
    if answer.fails then
      giveUp (.check call closes failure) (if closes then close state.sockfd state else state)
        failure
    else state
  | .mutexRecvfrom =>
    if answer.answered then giveUp .mutexRecvfrom (close state.sockfd state) (.exit .one)
    else state
  | .mutexClose => close state.sockfd state
  | .copyPath => { state with sockPath := sock }
  | .foreign _ => callForeign answer state
  | .unlink =>
    if state.sockPath = [] ∨ answer.fails then state
    else { state with files := Function.update state.files state.sockPath none }
  | .bind failure =>
    if answer.fails then giveUp (.bind failure) state failure
    else { state with files := Function.update state.files state.sockPath (some .own) }
  | .assign purpose => { state with readFd := Function.update state.readFd purpose state.sockfd }
  | .announceFirstRun => multicastServerinfo .firstRun state
  | .mainLoop =>
    if state.exitThreadFlag then state else { state with program := .mainLoop :: state.program }
  | .setExitFlag => { state with exitThreadFlag := true }
  -- A failed `pthread_create` gives an error number, which is positive, and the source tests
  -- for a negative result, if at all.
  | .createThread => state
  | .closeConnection purpose => close (state.readFd purpose) state
  | .leaveDetect =>
    if state.readFd .detect ≠ 0 then
      close (state.readFd .detect) (multicastServerinfo .exit state)
    else state
  | .exit code => giveUp (.exit code) state (.exit code)
  | .return => giveUp .return state (.exit .zero)

/-- A call is made, `signal_handle` starts because of a signal, or the main loop replies to a
datagram of the detect socket. -/
inductive Action where
  | call (answer : Answer)
  | signal
  | reply

/-- What one of these does. -/
def step (state : State) : Action → State
  | .call answer =>
    match state.program with
    | [] => state
    | instruction :: rest => execute answer { state with program := rest } instruction
  | .signal => { state with program := xexit .zero }
  | .reply => { state with handed := .reply :: state.handed, notifyType := .reply }

/-- A process that has not ended makes its next call or gets a signal, and replies in its main
loop. The kernel gives out free numbers only, and the calls outside of the repository close
what they have opened. -/
def enabled (state : State) : Action → Prop
  | .call answer => state.program ≠ [] ∧
      (∀ fd, answer.descriptor = some fd → state.table fd = none) ∧
      (∀ fd ∈ answer.opened, state.table fd = none) ∧
      ∀ fd ∈ answer.closed, fd ∈ state.foreign
  | .signal => state.program ≠ []
  | .reply => state.program.head? = some .mainLoop

instance (state : State) : (action : Action) → Decidable (enabled state action)
  | .call answer =>
    have : Decidable (∀ fd, answer.descriptor = some fd → state.table fd = none) :=
      match answer.descriptor with
      | none => isTrue nofun
      | some fd => decidable_of_iff (state.table fd = none)
          ⟨fun free _ same => Option.some.inj same ▸ free, fun free => free fd rfl⟩
    inferInstanceAs (Decidable (_ ∧ _ ∧ _ ∧ _))
  | .signal => inferInstanceAs (Decidable (_ ≠ _))
  | .reply => inferInstanceAs (Decidable (_ = _))

/-- The process as a machine. -/
def machine : Machine State Action where
  enabled := enabled
  step := step

/-- A process with its signal handlers installed. Its connections start with some number, one
that is not open if there is nothing to close. -/
def started (table : Nat → Option Descriptor) (files : List Char → Option File)
    (initialFd : Nat) : State where
  program := main
  ended := none
  table := table
  foreign := []
  sockfd := 0
  readFd := fun _ => initialFd
  files := files
  sockPath := []
  notifyType := .reply
  handed := []
  exitThreadFlag := false

/-- A call succeeds. -/
def succeeds : Answer := ⟨none, false, false, [], []⟩

/-- Calls of which all succeed, with a new descriptor for the first one. -/
def succeeding (fd more : Nat) : List Action :=
  .call { succeeds with descriptor := some fd } :: List.replicate more (.call succeeds)

/-- All calls up to the main loop. The daemon opens two descriptors. -/
def booting : List Action :=
  .call succeeds :: succeeding 5 9 ++ succeeding 5 6 ++ succeeding 6 9 ++ succeeding 7 2 ++
    succeeding 8 1 ++ [.call { succeeds with opened := [9, 10] }]

/-- The call that ends the process without `server_deinit` though its socket is bound. -/
def detectTtlFails : Instruction := .check .detectTtl true (.exit .eerrSocket)

/-- Whether the path has not been copied yet. -/
def copies (program : List Instruction) : Bool := decide (Instruction.copyPath ∈ program)

/-- Whether the socket of the command thread has not been bound yet. -/
def binds (program : List Instruction) : Bool := decide (Instruction.bind (.exit .four) ∈ program)

/-- What can be seen of a call of `main` on the way to the main loop from the calls behind it. -/
def placed (instruction : Instruction) (rest : List Instruction) : Bool :=
  match instruction with
  | .copyPath | .unlink => !copies rest && binds rest
  | .bind failure => decide (failure = .exit .four) && !copies rest && !binds rest
  | .mutexRecvfrom | .socket _ (.exit _) => binds rest
  | .check call closes (.exit code) =>
    binds rest == !decide (Instruction.check call closes (.exit code) = detectTtlFails)
  | .setExitFlag | .closeConnection _ | .leaveDetect | .exit _ | .return => false
  | _ => true

/-- A program that leads to the main loop has calls left, the first of which is placed. -/
def leads : List Instruction → Bool
  | [] => false
  | instruction :: rest =>
    decide (rest ∈ main.tails) &&
      (decide (instruction = .mainLoop) || decide (Instruction.mainLoop ∈ rest)) &&
      placed instruction rest

/-- What is left of `main` before the main loop leads to it. -/
theorem main_leads : ∀ program ∈ main.tails, Instruction.mainLoop ∈ program →
    leads program = true := by
  decide

/-- What can be seen of the calls of `xexit` from the calls behind them: the path is unlinked and
the detect socket left only once, and the last call ends the process. -/
def leaves (code : Code) : List Instruction → Bool
  | [] => true
  | instruction :: rest =>
    decide (rest ∈ (xexit code).tails) &&
      match instruction with
      | .setExitFlag | .foreign _ | .closeConnection _ => true
      | .unlink => decide (Instruction.unlink ∉ rest)
      | .leaveDetect => decide (Instruction.leaveDetect ∉ rest)
      | .exit last => decide (last = code) && decide (rest = [])
      | _ => false

/-- What is left of `server_deinit` is one of its calls and what is left behind it. -/
theorem deinit_leaves (code : Code) :
    ∀ program ∈ (xexit code).tails, leaves code program = true := by
  cases code <;> decide

/-- The main loop is not among the calls of `xexit`. -/
theorem xexit_leaves_loop (code : Code) :
    ∀ program ∈ (xexit code).tails, Instruction.mainLoop ∉ program := by
  cases code <;> decide

/-- On the way to the main loop. -/
structure Starting (state : State) : Prop where
  place : state.program ∈ main.tails
  before : Instruction.mainLoop ∈ state.program
  running : state.exitThreadFlag = false
  alive : state.ended = none

/-- The next call on the way to the main loop. -/
theorem starting_call (state : State) (starting : Starting state) :
    ∃ instruction rest, state.program = instruction :: rest ∧ rest ∈ main.tails ∧
      (instruction = .mainLoop ∨ Instruction.mainLoop ∈ rest) ∧
      placed instruction rest = true := by
  have way := main_leads state.program starting.place starting.before
  cases program : state.program with
  | nil =>
    rw [program] at way
    cases way
  | cons instruction rest =>
    rw [program] at way
    simp only [leads, Bool.and_eq_true, Bool.or_eq_true, decide_eq_true_eq] at way
    exact ⟨instruction, rest, rfl, way.1.1, way.1.2, way.2⟩

/-- The main loop is not left while the flag of the threads is not set. -/
theorem main_loop_stays (state : State) (answer : Answer) (rest : List Instruction)
    (program : state.program = .mainLoop :: rest) (running : state.exitThreadFlag = false) :
    step state (.call answer) = state := by
  obtain ⟨_, _, _, _, _, _, _, _, _, _, _⟩ := state
  obtain rfl := program
  obtain rfl := running
  rfl

/-- A process with its signal handlers installed is on the way to the main loop. -/
theorem started_starting (table : Nat → Option Descriptor) (files : List Char → Option File)
    (initialFd : Nat) : Starting (started table files initialFd) where
  place := (List.mem_tails _ _).mpr List.suffix_rfl
  before := by
    show Instruction.mainLoop ∈ main
    decide
  running := rfl
  alive := rfl

/-- Whether a call can end the process itself, with some code. -/
def exits (code : Code) : Instruction → Bool
  | .socket _ failure | .check _ _ failure | .bind failure => decide (failure = .exit code)
  | .mutexRecvfrom => decide (code = .one)
  | .exit last => decide (last = code)
  | .return => decide (code = .zero)
  | _ => false

/-- A call goes on with the calls behind it. -/
structure GoesOn (instruction : Instruction) (state next : State) : Prop where
  program : next.program = state.program
  ended : next.ended = state.ended
  flag : instruction ≠ .setExitFlag → next.exitThreadFlag = state.exitThreadFlag

/-- A call gives up: it ends the process, or leaves the calls of `xexit`. -/
inductive GivesUp (instruction : Instruction) (state next : State) : Prop where
  | exit (code : Code) (program : next.program = []) (ended : next.ended = some (instruction, code))
      (exits : exits code instruction = true)
  | xexit (code : Code) (program : next.program = xexit code) (ended : next.ended = state.ended)

/-- Giving up leaves some of the calls of `xexit`, or none. -/
theorem gives_up_place (instruction : Instruction) (state next : State)
    (gaveUp : GivesUp instruction state next) : ∃ code, next.program ∈ (xexit code).tails := by
  cases gaveUp with
  | exit code program =>
    rw [program]
    exact ⟨code, (List.mem_tails _ _).mpr List.nil_suffix⟩
  | xexit code program =>
    rw [program]
    exact ⟨code, (List.mem_tails _ _).mpr List.suffix_rfl⟩

/-- What is done about a failure is to give up. -/
theorem give_up_gives_up (instruction : Instruction) (state failed : State) (failure : Failure)
    (ended : failed.ended = state.ended)
    (own : ∀ code, failure = .exit code → exits code instruction = true) :
    GivesUp instruction state (giveUp instruction failed failure) := by
  cases failure with
  | exit code => exact .exit code rfl rfl (own code rfl)
  | xexit code => exact .xexit code rfl ended

/-- A call other than the main loop goes on with the calls behind it, or gives up. -/
theorem execute_outcome (answer : Answer) (state : State) (instruction : Instruction)
    (other : instruction ≠ .mainLoop) :
    GoesOn instruction state (execute answer state instruction) ∨
      GivesUp instruction state (execute answer state instruction) := by
  have fails (failed : State) (failure : Failure) (ended : failed.ended = state.ended)
      (own : ∀ code, failure = .exit code → exits code instruction = true) :=
    give_up_gives_up instruction state failed failure ended own
  cases instruction with
  | socket purpose failure =>
    simp only [execute]
    split
    · exact Or.inl ⟨rfl, rfl, fun _ => rfl⟩
    · exact Or.inr (fails state failure rfl fun _ same => decide_eq_true same)
  | check call closes failure =>
    simp only [execute]
    split
    · exact Or.inr (fails _ failure (by split <;> rfl) fun _ same => decide_eq_true same)
    · exact Or.inl ⟨rfl, rfl, fun _ => rfl⟩
  | mutexRecvfrom =>
    simp only [execute]
    split
    · refine Or.inr (fails _ (.exit .one) rfl fun code same => ?_)
      cases same
      rfl
    · exact Or.inl ⟨rfl, rfl, fun _ => rfl⟩
  | bind failure =>
    simp only [execute]
    split
    · exact Or.inr (fails state failure rfl fun _ same => decide_eq_true same)
    · exact Or.inl ⟨rfl, rfl, fun _ => rfl⟩
  | unlink =>
    simp only [execute]
    split <;> exact Or.inl ⟨rfl, rfl, fun _ => rfl⟩
  | leaveDetect =>
    simp only [execute]
    split <;> exact Or.inl ⟨rfl, rfl, fun _ => rfl⟩
  | mainLoop => exact absurd rfl other
  | setExitFlag => exact Or.inl ⟨rfl, rfl, fun impossible => absurd rfl impossible⟩
  | exit code => exact Or.inr (.exit code rfl rfl (decide_eq_true rfl))
  | «return» => exact Or.inr (.exit .zero rfl rfl rfl)
  | _ => exact Or.inl ⟨rfl, rfl, fun _ => rfl⟩

/-- On the way to the main loop with one property, and on the way out or at the end with
another one. -/
inductive Phase (up down : State → Prop) (state : State) : Prop where
  | starting (starting : Starting state) (holds : up state)
  | leaving (code : Code) (place : state.program ∈ (xexit code).tails) (holds : down state)

/-- The next call of a process is the first one that is left. -/
theorem call_executes (state : State) (answer : Answer) (instruction : Instruction)
    (rest : List Instruction) (program : state.program = instruction :: rest) :
    step state (.call answer) = execute answer { state with program := rest } instruction := by
  simp only [step, program]

/-- A call that goes on stays on the way to the main loop. -/
theorem starting_goes_on (state : State) (answer : Answer) (instruction : Instruction)
    (rest : List Instruction) (starting : Starting state) (place : rest ∈ main.tails)
    (later : Instruction.mainLoop ∈ rest) (looping : instruction ≠ .mainLoop)
    (placed : placed instruction rest = true)
    (goesOn : (execute answer { state with program := rest } instruction).program = rest) :
    Starting (execute answer { state with program := rest } instruction) := by
  rcases execute_outcome answer { state with program := rest } instruction looping with
    ⟨_, alive, flag⟩ | gaveUp
  · have notFlag : instruction ≠ .setExitFlag := by
      rintro rfl
      cases placed
    exact ⟨by rw [goesOn]; exact place, by rw [goesOn]; exact later,
      (flag notFlag).trans starting.running, alive.trans starting.alive⟩
  · obtain ⟨code, left⟩ := gives_up_place _ _ _ gaveUp
    rw [goesOn] at left
    exact absurd later (xexit_leaves_loop code rest left)

/-- A call on the way out leaves later calls of the way out, or none. -/
theorem leaving_goes_on (state : State) (answer : Answer) (code : Code)
    (instruction : Instruction) (rest : List Instruction)
    (way : leaves code (instruction :: rest) = true) :
    ∃ other, (execute answer { state with program := rest } instruction).program ∈
      (xexit other).tails := by
  simp only [leaves, Bool.and_eq_true, decide_eq_true_eq] at way
  have notLoop : instruction ≠ .mainLoop := by
    rintro rfl
    cases way.2
  rcases execute_outcome answer { state with program := rest } instruction notLoop with
    goesOn | gaveUp
  · exact ⟨code, by rw [goesOn.program]; exact way.1⟩
  · exact gives_up_place _ _ _ gaveUp

/-- The rule of the two phases, for runs whose steps meet a condition. A call on the way to the
main loop goes on with the first property or gives up with the second one, a call on the way
out keeps the second one, a signal leads from either to the second one, and a reply keeps
the first one. -/
theorem phase_rule (condition : State → Action → Prop) (up down : State → Prop)
    (starts : ∀ state answer instruction rest, Starting state → up state →
      state.program = instruction :: rest → placed instruction rest = true →
      instruction ≠ .mainLoop → enabled state (.call answer) →
      (execute answer { state with program := rest } instruction).program = rest ∧
          up (execute answer { state with program := rest } instruction) ∨
        (∃ code, (execute answer { state with program := rest } instruction).program ∈
            (xexit code).tails) ∧
          down (execute answer { state with program := rest } instruction))
    (goes : ∀ state answer code instruction rest, down state →
      state.program = instruction :: rest → leaves code (instruction :: rest) = true →
      condition state (.call answer) →
      down (execute answer { state with program := rest } instruction))
    (signalled : ∀ state, state.program ≠ [] → Starting state ∧ up state ∨ down state →
      down { state with program := xexit .zero })
    (replies : ∀ state, Starting state → up state → state.program.head? = some .mainLoop →
      up { state with handed := .reply :: state.handed, notifyType := .reply })
    (first : State) (actions : List Action) (initial : Phase up down first)
    (admissible : machine.Admissible first actions)
    (met : machine.Along condition first actions) :
    Phase up down (machine.after first actions) := by
  refine (machine.restrict condition).invariant_rule (Phase up down) ?_ first _ initial
    ⟨actions, machine.admissible_restrict condition first actions admissible met, rfl⟩
  rintro state action phase ⟨possible, meets⟩
  cases action with
  | call answer =>
    show Phase up down (step state (.call answer))
    cases phase with
    | starting starting holds =>
      obtain ⟨instruction, rest, program, place, before, placed⟩ := starting_call state starting
      by_cases looping : instruction = .mainLoop
      · subst looping
        rw [main_loop_stays state answer rest program starting.running]
        exact .starting starting holds
      · rw [call_executes state answer instruction rest program]
        rcases starts state answer instruction rest starting holds program placed looping
            possible with ⟨goesOn, up⟩ | ⟨⟨code, gaveUp⟩, down⟩
        · exact .starting (starting_goes_on state answer instruction rest starting place
            (before.resolve_left looping) looping placed goesOn) up
        · exact .leaving code gaveUp down
    | leaving code place holds =>
      have way := deinit_leaves code state.program place
      cases program : state.program with
      | nil => exact absurd program possible.1
      | cons instruction rest =>
        rw [program] at way
        rw [call_executes state answer instruction rest program]
        obtain ⟨other, left⟩ := leaving_goes_on state answer code instruction rest way
        exact .leaving other left
          (goes state answer code instruction rest holds program way meets)
  | signal =>
    refine .leaving .zero ((List.mem_tails _ _).mpr List.suffix_rfl)
      (signalled state possible ?_)
    cases phase with
    | starting starting holds => exact Or.inl ⟨starting, holds⟩
    | leaving code place holds => exact Or.inr holds
  | reply =>
    cases phase with
    | starting starting holds =>
      exact .starting ⟨starting.place, starting.before, starting.running, starting.alive⟩
        (replies state starting holds possible)
    | leaving code place holds =>
      have loops : Instruction.mainLoop ∈ state.program := List.mem_of_mem_head? possible
      exact absurd loops (xexit_leaves_loop code state.program place)

/-- Every run meets a condition that always holds. -/
theorem along_always (first : State) (actions : List Action)
    (admissible : machine.Admissible first actions) :
    machine.Along (fun _ _ => True) first actions :=
  machine.along_rule (fun _ => True) _ (fun _ _ _ _ => trivial) (fun _ _ _ => trivial) first
    actions trivial admissible

end Castserver.Lifecycle
