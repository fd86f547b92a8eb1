import Castserver.Dispatcher
import Castserver.Library.Runs
import Mathlib.Data.List.Induction

/-!
# The control thread

The loop of `thread_control_socket`: accept a connection, receive one message and
dispatch it. The variable `errno` keeps the error of the last call that failed, in
whichever iteration that was, and the loop tests it behind calls that succeeded. An
accepted connection is closed behind the loop and nowhere else.
-/

namespace Castserver.ControlThread

open Dispatcher
open Library.Runs

/-- The error number `EINTR`. -/
def eintr : Nat := 4

/-- What one `accept` gives. -/
inductive Accepted where
  | connected (fd : Nat)
  | failed (errno : Nat)
deriving DecidableEq, Repr

/-- What one `recv` gives. Without bytes it is the end of the file. -/
inductive Obtained where
  | data (bytes : List UInt8)
  | failed (errno : Nat)
deriving DecidableEq, Repr

/-- What the environment does in one iteration: whether `exit_thread_flag` is set when it
is tested, the results of `accept` and `recv`, and the error number that the callback
leaves, if it fails. A call that is not made has no effect. -/
structure Turn where
  exitFlag : Bool
  accept : Accepted
  recv : Obtained
  callback : Option Nat
deriving DecidableEq, Repr

/-- The tests that leave the loop. -/
inductive Test where
  | exitFlag
  | afterAccept
  | afterRecv
  | exitCommand
deriving DecidableEq, Repr

/-- Whether the thread is in its loop, has left it, or has used a slot of the command
table that holds no command. -/
inductive Stage where
  | looping
  | left (test : Test)
  | crashed
deriving DecidableEq, Repr

/-- An accepted connection and how often it has been closed. -/
structure Connection where
  fd : Nat
  closes : Nat
deriving DecidableEq, Repr

/-- The variables of the thread, the connections it has accepted and the outcomes of the
messages it has dispatched, both latest first. -/
structure Thread where
  errno : Nat
  socketBuffer : Nat → UInt8
  connfd : Int
  accepted : List Connection
  dispatched : List Outcome
  stage : Stage

/-- A call of `close` on a number reaches the latest connection with that number. -/
def close (connfd : Int) : List Connection → List Connection
  | [] => []
  | connection :: rest =>
    if (connection.fd : Int) = connfd then
      { connection with closes := connection.closes + 1 } :: rest
    else connection :: close connfd rest

/-- Leave the loop: the last connection is closed and the thread ends. -/
def exitThread (test : Test) (thread : Thread) : Thread :=
  { thread with accepted := close thread.connfd thread.accepted, stage := .left test }

/-- Write received bytes to the front of the buffer. -/
def fill (buffer : Nat → UInt8) (bytes : List UInt8) (address : Nat) : UInt8 :=
  bytes.getD address (buffer address)

/-- The dispatch at the end of an iteration. Neither callback closes the connection. -/
def dispatch (len : Nat) (callback : Option Nat) (thread : Thread) : Thread :=
  let outcome := callCommand thread.socketBuffer len
  let thread := { thread with dispatched := outcome :: thread.dispatched }
  match outcome with
  | .ran _ _ _ => { thread with errno := callback.getD thread.errno }
  | .returned _ => thread
  | .emptySlot | .outside => { thread with stage := .crashed }

section Loop

variable (exitCommand : (Nat → UInt8) → Bool)

/-- One iteration of the loop. The macro `CHK_RECV_EXIT_THREAD` leaves the loop if the
buffer holds the exit command, which is a parameter. -/
def iterate (thread : Thread) (turn : Turn) : Thread :=
  if turn.exitFlag then exitThread .exitFlag thread
  else
    match turn.accept with
    | .failed errno => { thread with errno := errno, connfd := -1 }
    | .connected fd =>
      let thread := { thread with connfd := fd, accepted := ⟨fd, 0⟩ :: thread.accepted }
      if thread.errno = eintr then exitThread .afterAccept thread
      else
        match turn.recv with
        | .failed errno =>
          let thread := { thread with errno := errno }
          if errno = eintr then exitThread .afterRecv thread else thread
        | .data bytes =>
          let thread := { thread with socketBuffer := fill thread.socketBuffer bytes }
          if bytes.length = 0 then thread
          else if exitCommand thread.socketBuffer then exitThread .exitCommand thread
          else dispatch bytes.length turn.callback thread

/-- One step of the thread. Outside its loop it does nothing. -/
def step (thread : Thread) (turn : Turn) : Thread :=
  if thread.stage = .looping then iterate exitCommand thread turn else thread

/-- The thread as a machine whose actions are the turns of the environment. -/
def machine : Machine Thread Turn where
  enabled := fun _ _ => True
  step := step exitCommand

/-- The thread when it starts: no call has failed yet, and nothing is assigned to the
variable of the connection. -/
def start (connfd : Int) : Thread where
  errno := 0
  socketBuffer := fun _ => 0
  connfd := connfd
  accepted := []
  dispatched := []
  stage := .looping

/-- Leaving the loop at a test is justified by what happened in the same iteration: the
flag was set, the call before the test failed with `EINTR`, or the exit command was
received. -/
def Justified (thread : Thread) (turn : Turn) : Test → Prop
  | .exitFlag => turn.exitFlag = true
  | .afterAccept => turn.accept = .failed eintr
  | .afterRecv => turn.recv = .failed eintr
  | .exitCommand => ∃ bytes, turn.recv = .data bytes ∧
      exitCommand (fill thread.socketBuffer bytes) = true

/-- One iteration survives recovered signals: it leaves the loop only with a justification,
and if it accepts a connection and receives a message without an exit being requested,
it dispatches the message and goes back to `accept`. -/
structure Survives (thread : Thread) (turn : Turn) : Prop where
  leaves : ∀ test, (step exitCommand thread turn).stage = .left test →
    Justified exitCommand thread turn test
  dispatches : ∀ fd bytes, turn.exitFlag = false → turn.accept = .connected fd →
    turn.recv = .data bytes → bytes.length ≠ 0 →
    exitCommand (fill thread.socketBuffer bytes) = false →
    (step exitCommand thread turn).stage = .looping ∧
      (step exitCommand thread turn).dispatched =
        callCommand (fill thread.socketBuffer bytes) bytes.length :: thread.dispatched

/-- The message is addressed to the dispatcher and names no listed command. -/
def Unanswered (buf : Nat → UInt8) (len : Nat) : Prop :=
  Addressed buf len ∧ ∀ command ∈ registered, ¬ Names buf command

/-- An iteration that accepts a connection does not start with `EINTR` left over from an
earlier failure, and a message it then dispatches does not go unanswered. -/
def Undisturbed (thread : Thread) (turn : Turn) : Prop :=
  turn.exitFlag = false → ∀ fd, turn.accept = .connected fd →
    thread.errno ≠ eintr ∧
    ∀ bytes, turn.recv = .data bytes → bytes.length ≠ 0 →
      exitCommand (fill thread.socketBuffer bytes) = false →
      ¬ Unanswered (fill thread.socketBuffer bytes) bytes.length

/-- A dispatch goes back to the loop exactly if the message does not go unanswered. -/
theorem dispatch_returns (len : Nat) (callback : Option Nat) (thread : Thread)
    (looping : thread.stage = .looping) :
    (dispatch len callback thread).stage = .looping ↔
      ¬ Unanswered thread.socketBuffer len := by
  by_cases addressed : Addressed thread.socketBuffer len
  · by_cases named : ∃ command ∈ registered, Names thread.socketBuffer command
    · obtain ⟨command, listed, names⟩ := named
      have ran := call_named thread.socketBuffer len command listed addressed names
      have answered : ¬ Unanswered thread.socketBuffer len :=
        fun unanswered => unanswered.2 command listed names
      simp [dispatch, ran, looping, answered]
    · have unnamed : ∀ command ∈ registered, ¬ Names thread.socketBuffer command :=
        fun command listed names => named ⟨command, listed, names⟩
      have stopped := call_unnamed thread.socketBuffer len addressed unnamed
      have unanswered : Unanswered thread.socketBuffer len := ⟨addressed, unnamed⟩
      simp [dispatch, stopped, unanswered]
  · have returned := call_unaddressed thread.socketBuffer len addressed
    have answered : ¬ Unanswered thread.socketBuffer len :=
      fun unanswered => addressed unanswered.1
    simp [dispatch, returned, looping, answered]

/-- A dispatch notes its outcome. -/
theorem dispatch_notes (len : Nat) (callback : Option Nat) (thread : Thread) :
    (dispatch len callback thread).dispatched =
      callCommand thread.socketBuffer len :: thread.dispatched := by
  cases outcome : callCommand thread.socketBuffer len <;> simp [dispatch, outcome]

/-- A dispatch accepts and closes nothing. -/
theorem dispatch_accepted (len : Nat) (callback : Option Nat) (thread : Thread) :
    (dispatch len callback thread).accepted = thread.accepted := by
  cases outcome : callCommand thread.socketBuffer len <;> simp [dispatch, outcome]

/-- A dispatch does not leave the loop by one of its tests. -/
theorem dispatch_not_left (len : Nat) (callback : Option Nat) (thread : Thread)
    (looping : thread.stage = .looping) (test : Test) :
    (dispatch len callback thread).stage ≠ .left test := by
  cases outcome : callCommand thread.socketBuffer len <;> simp [dispatch, outcome, looping]

/-- The thread after it has accepted a connection and received bytes on it. -/
def Thread.received (thread : Thread) (fd : Nat) (bytes : List UInt8) : Thread :=
  { thread with
    socketBuffer := fill thread.socketBuffer bytes
    connfd := fd
    accepted := ⟨fd, 0⟩ :: thread.accepted }

/-- What an iteration does, by the results of its calls. -/
inductive Iterated (thread : Thread) (turn : Turn) : Thread → Prop where
  | quit (flagged : turn.exitFlag = true) :
      Iterated thread turn (exitThread .exitFlag thread)
  | unaccepted (unset : turn.exitFlag = false) (errno : Nat)
      (failed : turn.accept = .failed errno) :
      Iterated thread turn { thread with errno := errno, connfd := -1 }
  | stale (unset : turn.exitFlag = false) (fd : Nat) (connected : turn.accept = .connected fd)
      (old : thread.errno = eintr) :
      Iterated thread turn (exitThread .afterAccept
        { thread with connfd := fd, accepted := ⟨fd, 0⟩ :: thread.accepted })
  | interrupted (unset : turn.exitFlag = false) (fd : Nat)
      (connected : turn.accept = .connected fd) (clear : thread.errno ≠ eintr)
      (failed : turn.recv = .failed eintr) :
      Iterated thread turn (exitThread .afterRecv
        { thread with
          errno := eintr
          connfd := fd
          accepted := ⟨fd, 0⟩ :: thread.accepted })
  | unreceived (unset : turn.exitFlag = false) (fd : Nat)
      (connected : turn.accept = .connected fd) (clear : thread.errno ≠ eintr) (errno : Nat)
      (failed : turn.recv = .failed errno) (other : errno ≠ eintr) :
      Iterated thread turn
        { thread with
          errno := errno
          connfd := fd
          accepted := ⟨fd, 0⟩ :: thread.accepted }
  | ended (unset : turn.exitFlag = false) (fd : Nat)
      (connected : turn.accept = .connected fd) (clear : thread.errno ≠ eintr)
      (bytes : List UInt8) (received : turn.recv = .data bytes) (none : bytes.length = 0) :
      Iterated thread turn (thread.received fd bytes)
  | commanded (unset : turn.exitFlag = false) (fd : Nat)
      (connected : turn.accept = .connected fd) (clear : thread.errno ≠ eintr)
      (bytes : List UInt8) (received : turn.recv = .data bytes) (some : bytes.length ≠ 0)
      (command : exitCommand (fill thread.socketBuffer bytes) = true) :
      Iterated thread turn (exitThread .exitCommand (thread.received fd bytes))
  | dispatched (unset : turn.exitFlag = false) (fd : Nat)
      (connected : turn.accept = .connected fd) (clear : thread.errno ≠ eintr)
      (bytes : List UInt8) (received : turn.recv = .data bytes) (some : bytes.length ≠ 0)
      (message : exitCommand (fill thread.socketBuffer bytes) = false) :
      Iterated thread turn (dispatch bytes.length turn.callback (thread.received fd bytes))

/-- Every step in the loop is one of these. -/
theorem step_cases (thread : Thread) (turn : Turn) (looping : thread.stage = .looping) :
    Iterated exitCommand thread turn (step exitCommand thread turn) := by
  rw [step, if_pos looping]
  cases flag : turn.exitFlag with
  | true =>
    rw [iterate, if_pos flag]
    exact .quit flag
  | false =>
    rw [iterate, flag, if_neg Bool.false_ne_true]
    cases accept : turn.accept with
    | failed errno => exact .unaccepted flag errno accept
    | connected fd =>
      by_cases old : thread.errno = eintr
      · simp only [if_pos old]
        exact .stale flag fd accept old
      · simp only [if_neg old]
        cases recv : turn.recv with
        | failed errno =>
          by_cases signal : errno = eintr
          · simp only [if_pos signal]
            subst signal
            exact .interrupted flag fd accept old recv
          · simp only [if_neg signal]
            exact .unreceived flag fd accept old errno recv signal
        | data bytes =>
          by_cases none : bytes.length = 0
          · simp only [if_pos none]
            exact .ended flag fd accept old bytes recv none
          · cases command : exitCommand (fill thread.socketBuffer bytes) with
            | true =>
              simp only [if_neg none, command, if_true]
              exact .commanded flag fd accept old bytes recv none command
            | false =>
              simp only [if_neg none, command, Bool.false_eq_true, if_false]
              exact .dispatched flag fd accept old bytes recv none command

/-- An iteration with a connection and a message, and without an exit, dispatches it. -/
theorem step_dispatches (thread : Thread) (turn : Turn) (looping : thread.stage = .looping)
    (unset : turn.exitFlag = false) (fd : Nat) (connected : turn.accept = .connected fd)
    (clear : thread.errno ≠ eintr) (bytes : List UInt8) (received : turn.recv = .data bytes)
    (some : bytes.length ≠ 0) (message : exitCommand (fill thread.socketBuffer bytes) = false) :
    step exitCommand thread turn =
      dispatch bytes.length turn.callback (thread.received fd bytes) := by
  rw [step, if_pos looping, iterate, unset, if_neg Bool.false_ne_true, connected]
  simp only [if_neg clear, received, if_neg some, message, Bool.false_eq_true, if_false,
    Thread.received]

/-- In the loop, one iteration survives recovered signals exactly if it is undisturbed. -/
theorem survives_iff (thread : Thread) (turn : Turn) (looping : thread.stage = .looping) :
    Survives exitCommand thread turn ↔ Undisturbed exitCommand thread turn := by
  constructor
  · intro survives unset fd connected
    have clear : thread.errno ≠ eintr := by
      intro old
      have left : (step exitCommand thread turn).stage = .left .afterAccept := by
        simp [step, iterate, looping, unset, connected, old, exitThread]
      have failed := survives.leaves .afterAccept left
      rw [Justified, connected] at failed
      cases failed
    refine ⟨clear, ?_⟩
    intro bytes received some message
    have returned := (survives.dispatches fd bytes unset connected received some message).1
    rw [step_dispatches exitCommand thread turn looping unset fd connected clear bytes received
      some message] at returned
    exact (dispatch_returns bytes.length turn.callback (thread.received fd bytes) looping).mp returned
  · intro undisturbed
    constructor
    · intro test left
      have stepped := step_cases exitCommand thread turn looping
      generalize step exitCommand thread turn = next at stepped left
      cases stepped with
      | quit flagged =>
        obtain rfl := Stage.left.inj left
        exact flagged
      | unaccepted => cases looping.symm.trans left
      | stale unset fd connected old => exact absurd old (undisturbed unset fd connected).1
      | interrupted _ _ _ _ failed =>
        obtain rfl := Stage.left.inj left
        exact failed
      | unreceived => cases looping.symm.trans left
      | ended => cases looping.symm.trans left
      | commanded _ _ _ _ bytes received _ command =>
        obtain rfl := Stage.left.inj left
        exact ⟨bytes, received, command⟩
      | dispatched _ fd _ _ bytes =>
        exact absurd left
          (dispatch_not_left bytes.length turn.callback (thread.received fd bytes) looping test)
    · intro fd bytes unset connected received some message
      obtain ⟨clear, answered⟩ := undisturbed unset fd connected
      rw [step_dispatches exitCommand thread turn looping unset fd connected clear bytes received
        some message]
      refine ⟨?_, dispatch_notes _ _ _⟩
      exact (dispatch_returns bytes.length turn.callback (thread.received fd bytes) looping).mpr
        (answered bytes received some message)

/-- Every iteration of a run survives recovered signals exactly if every one of them is
undisturbed: none that accepts a connection starts with `EINTR` left over from an earlier
iteration, and no dispatched message goes unanswered. -/
theorem thread_survives_iff (connfd : Int) (turns : List Turn) :
    (machine exitCommand).Along
        (fun thread turn => thread.stage = .looping → Survives exitCommand thread turn)
        (start connfd) turns ↔
      (machine exitCommand).Along
        (fun thread turn => thread.stage = .looping → Undisturbed exitCommand thread turn)
        (start connfd) turns := by
  apply (machine exitCommand).along_congr
  intro thread turn
  exact forall_congr' fun looping => survives_iff exitCommand thread turn looping

/-- The connections that have not been closed. -/
def openConnections (thread : Thread) : List Connection :=
  thread.accepted.filter fun connection => connection.closes = 0

/-- Every accepted connection has been closed exactly once, and none is open. -/
def Settled (thread : Thread) : Prop :=
  (∀ connection ∈ thread.accepted, connection.closes = 1) ∧ openConnections thread = []

/-- The connection that an iteration accepts, if it accepts one. -/
def connection (turn : Turn) : Option Connection :=
  match turn.accept with
  | .connected fd => some ⟨fd, 0⟩
  | .failed _ => none

/-- An iteration that goes back to the loop adds the connection it accepted, unclosed. -/
theorem step_accepts (thread : Thread) (turn : Turn)
    (looping : (step exitCommand thread turn).stage = .looping) :
    thread.stage = .looping ∧ (step exitCommand thread turn).accepted =
      (connection turn).toList ++ thread.accepted := by
  have inside : thread.stage = .looping := by
    by_contra outside
    rw [step, if_neg outside] at looping
    exact outside looping
  refine ⟨inside, ?_⟩
  have stepped := step_cases exitCommand thread turn inside
  generalize step exitCommand thread turn = next at stepped looping
  cases stepped with
  | quit => cases looping
  | unaccepted _ _ failed => simp [connection, failed]
  | stale => cases looping
  | interrupted => cases looping
  | unreceived _ _ connected => simp [connection, connected]
  | ended _ _ connected => simp [connection, connected, Thread.received]
  | commanded => cases looping
  | dispatched _ _ connected =>
    simp [dispatch_accepted, connection, connected, Thread.received]

/-- While the thread is in its loop, the connections it has accepted are all unclosed. -/
theorem accepted_unclosed (connfd : Int) (turns : List Turn)
    (looping : ((machine exitCommand).after (start connfd) turns).stage = .looping) :
    ((machine exitCommand).after (start connfd) turns).accepted =
      (turns.filterMap connection).reverse := by
  induction turns using List.reverseRecOn with
  | nil => rfl
  | append_singleton earlier turn inductionHypothesis =>
    rw [Machine.after_append] at looping ⊢
    obtain ⟨before, accepts⟩ := step_accepts exitCommand _ turn looping
    have unclosed := inductionHypothesis before
    rw [List.filterMap_append, List.reverse_append, ← unclosed]
    apply Eq.trans accepts
    congr 1
    cases found : connection turn <;> simp [found]

/-- Each time the thread is back at the head of its loop, all connections it accepted
before are closed exactly if it has not accepted any. -/
theorem connections_settled_iff (connfd : Int) (turns : List Turn)
    (looping : ((machine exitCommand).after (start connfd) turns).stage = .looping) :
    Settled ((machine exitCommand).after (start connfd) turns) ↔
      ∀ turn ∈ turns, ∀ fd, turn.accept ≠ .connected fd := by
  have unclosed := accepted_unclosed exitCommand connfd turns looping
  constructor
  · rintro ⟨closed, _⟩ turn member fd connected
    have listed : (⟨fd, 0⟩ : Connection) ∈ (turns.filterMap connection).reverse := by
      rw [List.mem_reverse, List.mem_filterMap]
      exact ⟨turn, member, by simp [connection, connected]⟩
    have once := closed ⟨fd, 0⟩ (unclosed ▸ listed)
    cases once
  · intro unaccepted
    have nothing : turns.filterMap connection = [] := by
      rw [List.filterMap_eq_nil_iff]
      intro turn member
      cases accept : turn.accept with
      | connected fd => exact absurd accept (unaccepted turn member fd)
      | failed errno => simp [connection, accept]
    rw [nothing] at unclosed
    simp [Settled, openConnections, unclosed]

end Loop

/-- An exit command of four letters. -/
def referenceExit (buffer : Nat → UInt8) : Bool :=
  decide (memcmp buffer (cString ['e', 'x', 'i', 't']) 4 = 0)

/-- A connection with a message for the command `speakers`. -/
def listing : Turn where
  exitFlag := false
  accept := .connected 5
  recv := .data (bytesOf ['c', 'n', 't', 'l', 's', 'p', 'e', 'a', 'k', 'e', 'r', 's'])
  callback := none

/-- An `accept` that a signal interrupts. -/
def signalled : Turn where
  exitFlag := false
  accept := .failed eintr
  recv := .data []
  callback := none

/-- A signal the thread has recovered from ends it at the next connection. -/
theorem recovered_signal_ends_thread :
    ¬ (machine referenceExit).Along
      (fun thread turn => thread.stage = .looping → Survives referenceExit thread turn)
      (start (-1)) [signalled, listing] := by
  rintro ⟨_, second, _⟩
  have justified := (second rfl).leaves .afterAccept rfl
  cases justified

/-- The connection of the command `speakers` stays open. -/
theorem served_connection_leaks :
    ((machine referenceExit).after (start (-1)) [listing]).stage = .looping ∧
      ¬ Settled ((machine referenceExit).after (start (-1)) [listing]) := by
  constructor
  · decide
  · rintro ⟨_, none⟩
    revert none
    decide

/-- Interrupted attempts leave nothing open. -/
theorem signals_leak_nothing :
    Settled ((machine referenceExit).after (start (-1)) [signalled, signalled]) ↔
      ∀ turn ∈ [signalled, signalled], ∀ fd, turn.accept ≠ .connected fd :=
  connections_settled_iff referenceExit (-1) [signalled, signalled] rfl

end Castserver.ControlThread
