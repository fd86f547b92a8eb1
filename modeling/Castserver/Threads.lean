import Castserver.WaveTask
import Castserver.Registry
import Castserver.Dispatcher
import Castserver.Library.Simulations

/-!
# The threads of the server process

The main thread handles one datagram after the other, those of the detect socket and
those of the control socket; the monitor passes over the list; and the control thread
carries out one command after the other. The datagrams of a playing file fall between
the steps of the other two threads. A datagram of either socket, a pass of the monitor, a
message of the control thread and each datagram of a playing file are one step each: the
threads of the source take no lock, so what may happen inside of such a step is not part of
the model. Every run of the process is a run of the server of `Service`, and what the control
thread has sent is always the beginning of what its commands amount to.
-/

namespace Castserver.Threads

open Speakers Pusher Control Detect Service Pushwave Channels WaveEnds WaveTask DetectRead
open Dispatcher (callCommand)
open Library.Runs Library.Tasks Library.Simulations

/-- What `common` gives to `srv_spctrl_read`: the size of a clock request, the test
`control_is_cmd` for `SPCMD_TIME`, and the id that `control_time_decode` finds. -/
structure TimeCodec where
  controlTimeSize : Nat
  controlIsTime : List UInt8 → Bool
  spid : List UInt8 → Nat

/-- Handle one datagram of the control socket. -/
def srvSpctrlRead (codec : TimeCodec) (now : Nat) (result : Int) (package : List UInt8)
    (server : Server) : Server × Int :=
  if package.length = codec.controlTimeSize ∧ codec.controlIsTime package = true then
    ({ server with host := spctrlTime server.speakers (codec.spid package) now result server.host },
      0)
  else if package.length < 16 then (server, -1)
  else (server, 0)

/-- What the process is compiled and configured with. The control thread and the event loop
share one descriptor. -/
structure Program where
  env : Environment
  settings : Settings
  codec : Codec
  timeCodec : TimeCodec
  headerCheck : List UInt8 → Nat
  shared : settings.readFd = env.readFd

/-- Where the control thread stands: it waits for a message, it has units of a command left
to do and will end in some way, or it has brought the process down. -/
inductive Thread where
  | waiting
  | working (units : List Service.Action) (result : Except Fault (Statics × Int))
  | crashed

/-- The process: its server, the static variables of the pusher, the control thread, and the
replies on the detect socket, latest first. -/
structure Process where
  server : Server
  statics : Statics
  thread : Thread
  replies : List Reply

/-- A step of one of the threads, with the answers of its environment. A step is a whole
handler, not a single access to a record. -/
inductive Input where
  | detect (src : Source) (package : List UInt8) (answers : Answers) (sent : Int)
  | control (package : List UInt8) (now : Nat) (result : Int)
  | tick
  | command (buf : Nat → UInt8) (len : Nat) (playback : Playback) (fuel : Nat)
  | proceed
  | openOther (fd : Nat)
  | closeOther (fd : Nat)

instance reachesDecidable (codec : Codec) (src : Source) (package : List UInt8) :
    Decidable (Reaches codec src package) :=
  inferInstanceAs (Decidable (_ ∧ _ ∧ _))

/-- The server with a datagram's request entered in the history, if the request is accepted. -/
def announcing (program : Program) (src : Source) (package : List UInt8) (answers : Answers)
    (server : Server) : Server :=
  let header := program.codec.decode src.addr.type package
  if Reaches program.codec src package ∧ accepts answers header server = true then
    note (.announced header.id (supports program.env.common program.settings header)) server
  else server

/-- The argument of a callback, as bytes of the message. -/
def argument (buf : Nat → UInt8) (arg : Option Nat) (length : Nat) : Option (List UInt8) :=
  arg.map fun start => (List.range length).map fun i => buf (start + i)

/-- The control thread after it has dispatched a message. The command `speakers` only writes
to its connection. -/
def dispatch (program : Program) (statics : Statics) (buf : Nat → UInt8) (len : Nat)
    (playback : Playback) (fuel : Nat) : Thread :=
  match callCommand buf len with
  | .ran .cmdWave arg length =>
    let work := waveWork program.env program.headerCheck playback fuel
      (argument buf arg length) statics
    .working work.units work.result
  | .ran .cmdSpeakers _ _ => .waiting
  | .returned _ => .waiting
  | .emptySlot | .outside => .crashed

/-- A unit of the control thread's work, or the end of its command. A loop that does not end
keeps the thread for good, and any other fault ends the process. -/
def proceed (program : Program) (process : Process) : Process :=
  match process.thread with
  | .working (unit :: rest) result =>
    { process with
      server := Service.step program.env.common program.settings process.server unit
      thread := .working rest result }
  | .working [] (.ok (statics, _)) => { process with statics := statics, thread := .waiting }
  | .working [] (.error .fuel) => process
  | .working [] (.error _) => { process with thread := .crashed }
  | .waiting | .crashed => process

/-- What one step does. -/
def step (program : Program) (process : Process) : Input → Process
  | .detect src package answers sent =>
    let result := srvDetectRead program.env.common program.settings program.codec answers sent
      src package (announcing program src package answers process.server)
    { process with
      server := result.server
      replies := result.reply.toList ++ process.replies }
  | .control package now result =>
    { process with
      server := (srvSpctrlRead program.timeCodec now result package process.server).1 }
  | .tick =>
    { process with
      server := Service.step program.env.common program.settings process.server .tick }
  | .command buf len playback fuel =>
    { process with thread := dispatch program process.statics buf len playback fuel }
  | .proceed => proceed program process
  | .openOther fd =>
    { process with
      server := Service.step program.env.common program.settings process.server (.openOther fd) }
  | .closeOther fd =>
    { process with
      server := Service.step program.env.common program.settings process.server (.closeOther fd) }

/-- What the kernel and the control thread allow while the process is up. -/
def enabled (program : Program) (process : Process) (input : Input) : Prop :=
  process.thread ≠ .crashed ∧
    match input with
    | .detect _ _ answers _ => ∀ fd, answers.socket = some fd → process.server.host.table fd = none
    | .command _ _ _ _ => process.thread = .waiting
    | .proceed => process.thread ≠ .waiting
    | .openOther fd => Service.enabled program.settings process.server (.openOther fd)
    | .closeOther fd => Service.enabled program.settings process.server (.closeOther fd)
    | .control _ _ _ | .tick => True

/-- The process as a machine. -/
def machine (program : Program) : Machine Process Input where
  enabled := enabled program
  step := step program

/-- The server a program's process works on. -/
abbrev service (program : Program) : Machine Server Service.Action :=
  Service.machine program.env.common program.settings

/-- The server's part in one step of the process: at most one action. -/
def moves (program : Program) (process : Process) : Input → List Service.Action
  | .detect src package answers _ =>
    if Reaches program.codec src package then
      [.request (program.codec.decode src.addr.type package) answers]
    else []
  | .control package now result =>
    if package.length = program.timeCodec.controlTimeSize ∧
        program.timeCodec.controlIsTime package = true then
      [.time (program.timeCodec.spid package) now result]
    else []
  | .tick => [.tick]
  | .command _ _ _ _ => []
  | .proceed =>
    match process.thread with
    | .working (unit :: _) _ => [unit]
    | _ => []
  | .openOther fd => [.openOther fd]
  | .closeOther fd => [.closeOther fd]

/-- An action that sends one datagram of a push. -/
def IsPush (action : Service.Action) : Prop :=
  ∃ id package result, action = .push id package result

/-- A unit of the control thread's work: a broadcast or a datagram. -/
def Sending (unit : Service.Action) : Prop :=
  (∃ rate bits results, unit = .format rate bits results) ∨ IsPush unit

section Units

variable (env : Environment)

/-- The work on a channel's list consists of datagrams. -/
theorem push_list_sending (ch len : Nat) (list : List Nat) (statics : Statics) :
    ∀ unit ∈ (pushList env ch len list statics).units, Sending unit := by
  induction list generalizing statics with
  | nil => simp [pushList, Task.done]
  | cons id rest inductionHypothesis =>
    intro unit member
    rcases List.mem_cons.mp member with rfl | later
    · exact Or.inr ⟨_, _, _, rfl⟩
    · exact inductionHypothesis _ unit later

/-- The work on a channel consists of datagrams. -/
theorem push_channel_sending (ch len : Nat) (statics : Statics) :
    ∀ unit ∈ (pushChannelWork env ch len statics).units, Sending unit := by
  unfold pushChannelWork
  cases env.speakerList ch with
  | none => simp [Task.done]
  | some list => exact push_list_sending env ch len list _

/-- The work on a chunk consists of datagrams. -/
theorem push_sending (fuel : Nat) (chlist : List Nat) (call : PushCall) (statics : Statics) :
    ∀ unit ∈ (pushWork env fuel chlist call statics).units, Sending unit := by
  have channels (rest : List Nat) (i : Nat) (statics : Statics) :
      ∀ unit ∈ (pushChannelsWork env fuel (samplesOf env.around call.samples) call.len
        (UInt8.ofNat call.bits).toNat ((UInt8.ofNat call.bits).toNat * chlist.length % 2 ^ 32)
        rest i statics).units, Sending unit := by
    induction rest generalizing i statics with
    | nil => simp [pushChannelsWork, Task.done]
    | cons ch rest inductionHypothesis =>
      rw [pushChannelsWork]
      split
      · simp [Task.fail]
      · exact Task.and_then_units Sending _ _ (push_channel_sending env ch _ _)
          (fun later => inductionHypothesis (i + 1) later)
  unfold pushWork
  split
  · simp [Task.fail]
  · exact channels chlist 0 statics

/-- The work of a call of `cmd_wave` consists of broadcasts and datagrams. -/
theorem wave_sending (headerCheck : List UInt8 → Nat) (playback : Playback) (fuel : Nat)
    (arg : Option (List UInt8)) (statics : Statics) :
    ∀ unit ∈ (waveWork env headerCheck playback fuel arg statics).units, Sending unit := by
  have initial (headerSize len bits rounds length : Nat) (data : List UInt8)
      (statics : Statics) : ∀ unit ∈ (initialWork env fuel playback.chlist headerSize
        playback.chunk len bits rounds length data statics).units, Sending unit := by
    induction rounds generalizing length data statics with
    | zero => simp [initialWork, Task.fail]
    | succ rounds inductionHypothesis =>
      rw [initialWork]
      split
      · exact Task.and_then_units Sending _ _ (push_sending env fuel playback.chlist _ _)
          (fun later => inductionHypothesis _ _ later)
      · simp [Task.done]
  have behind (len bits offset : Nat) (buffer : List UInt8) (received : List Received)
      (statics : Statics) : ∀ unit ∈ (receivedWork env fuel playback.chlist len bits offset
        buffer received statics).units, Sending unit := by
    induction received generalizing offset buffer statics with
    | nil => simp [receivedWork, Task.done]
    | cons first rest inductionHypothesis =>
      rw [receivedWork]
      split
      · exact Task.and_then_units Sending _ _ (push_sending env fuel playback.chlist _ _)
          (fun later => inductionHypothesis _ _ later)
      · simp [Task.done]
  cases arg with
  | none => simp [waveWork, Task.done]
  | some payload =>
    simp only [waveWork]
    split
    · simp [Task.done]
    · split
      · simp [Task.fail]
      · intro unit member
        rcases List.mem_cons.mp member with rfl | later
        · exact Or.inl ⟨_, _, _, rfl⟩
        · exact Task.and_then_units Sending _ _ (initial _ _ _ _ _ _ _)
            (fun reached => Task.and_then_units Sending _ _ (behind _ _ _ _ _ _)
              (by simp [Task.done])) unit later

end Units

/-- What the control thread has left to do is made of broadcasts and datagrams. -/
def Thread.Sends : Thread → Prop
  | .working units _ => ∀ unit ∈ units, Sending unit
  | .waiting | .crashed => True

section Refinement

variable (program : Program)

/-- The units of a dispatched message are broadcasts and datagrams. -/
theorem dispatch_sends (statics : Statics) (buf : Nat → UInt8) (len : Nat) (playback : Playback)
    (fuel : Nat) : (dispatch program statics buf len playback fuel).Sends := by
  unfold dispatch
  split
  · exact wave_sending program.env program.headerCheck playback fuel _ statics
  all_goals trivial

/-- Handling a datagram of the detect socket is the announcement it carries, if it gets as
far as `valid_speaker`. -/
theorem detect_server (src : Source) (package : List UInt8) (answers : Answers) (sent : Int)
    (process : Process) :
    (step program process (.detect src package answers sent)).server =
      (service program).after process.server
        (moves program process (.detect src package answers sent)) := by
  simp only [step, moves]
  by_cases reaches : Reaches program.codec src package
  · rw [if_pos reaches]
    have read := (read_reaching program.env.common program.settings program.codec answers sent src
      package (announcing program src package answers process.server) reaches).1
    rw [read, announcing]
    simp only [reaches, true_and]
    rfl
  · rw [if_neg reaches]
    have read := (read_apart program.env.common program.settings program.codec answers sent src
      package (announcing program src package answers process.server) reaches).1
    rw [read, announcing]
    simp only [reaches, false_and, if_false]
    rfl

/-- One step of the process takes the server along the actions it stands for. -/
theorem step_moves (process : Process) (input : Input) :
    (step program process input).server =
      (service program).after process.server (moves program process input) := by
  cases input with
  | detect src package answers sent =>
    exact detect_server program src package answers sent process
  | control package now result =>
    simp only [step, moves, srvSpctrlRead]
    by_cases request : package.length = program.timeCodec.controlTimeSize ∧
        program.timeCodec.controlIsTime package = true
    · rw [if_pos request, if_pos request]
      rfl
    · rw [if_neg request, if_neg request]
      split <;> rfl
  | proceed =>
    simp only [step, proceed, moves]
    cases process.thread with
    | working units result =>
      cases units with
      | cons unit rest => rfl
      | nil =>
        cases result with
        | ok ending => rfl
        | error fault => cases fault <;> rfl
    | _ => rfl
  | _ => rfl

/-- The units that are left stay broadcasts and datagrams. -/
theorem step_sends (process : Process) (input : Input) (sends : process.thread.Sends) :
    (step program process input).thread.Sends := by
  cases input with
  | command buf len playback fuel =>
    exact dispatch_sends program process.statics buf len playback fuel
  | proceed =>
    simp only [step, proceed]
    cases stage : process.thread with
    | working units result =>
      rw [stage] at sends
      cases units with
      | cons unit rest => exact fun other member => sends other (List.mem_cons_of_mem unit member)
      | nil =>
        cases result with
        | ok ending => trivial
        | error fault =>
          cases fault with
          | fuel => rw [stage]; exact sends
          | _ => trivial
    | _ =>
      simp only [stage]
      trivial
  | _ => exact sends

/-- After any run the units that are left are broadcasts and datagrams. -/
theorem run_sends (process : Process) (inputs : List Input) (sends : process.thread.Sends) :
    ((machine program).after process inputs).thread.Sends := by
  induction inputs generalizing process with
  | nil => exact sends
  | cons input rest inductionHypothesis =>
    exact inductionHypothesis (step program process input) (step_sends program process input sends)

/-- The server can take the actions that a possible step of the process stands for. -/
theorem moves_possible (process : Process) (input : Input) (sends : process.thread.Sends)
    (possible : enabled program process input) :
    (service program).Admissible process.server (moves program process input) := by
  obtain ⟨_, possible⟩ := possible
  cases input with
  | detect src package answers sent =>
    simp only [moves]
    split
    · exact ⟨possible, trivial⟩
    · trivial
  | control package now result =>
    simp only [moves]
    split
    · exact ⟨trivial, trivial⟩
    · trivial
  | tick => exact ⟨trivial, trivial⟩
  | command => trivial
  | proceed =>
    simp only [moves]
    cases stage : process.thread with
    | working units result =>
      rw [stage] at sends
      cases units with
      | cons unit rest =>
        rcases sends unit List.mem_cons_self with ⟨_, _, _, rfl⟩ | ⟨_, _, _, rfl⟩ <;>
          exact ⟨trivial, trivial⟩
      | nil => trivial
    | _ => trivial
  | openOther fd => exact ⟨possible, trivial⟩
  | closeOther fd => exact ⟨possible, trivial⟩

/-- An announcement among the server's actions was carried by a datagram of the detect
socket. -/
theorem trace_request (process : Process) (inputs : List Input) (sends : process.thread.Sends)
    (header : Request) (answers : Answers)
    (member : .request header answers ∈ trace (machine program) (moves program) process inputs) :
    ∃ src package sent, .detect src package answers sent ∈ inputs ∧
      Reaches program.codec src package ∧
      header = program.codec.decode src.addr.type package := by
  induction inputs generalizing process with
  | nil => cases member
  | cons input rest inductionHypothesis =>
    rcases List.mem_append.mp member with here | later
    · cases input with
      | detect src package others sent =>
        simp only [moves] at here
        split at here
        · next reaches =>
          obtain ⟨rfl, rfl⟩ := Action.request.inj (List.mem_singleton.mp here)
          exact ⟨src, package, sent, List.mem_cons_self, reaches, rfl⟩
        · cases here
      | control =>
        simp only [moves] at here
        split at here
        · cases List.mem_singleton.mp here
        · cases here
      | proceed =>
        simp only [moves] at here
        split at here
        · next unit units result stage =>
          rw [stage] at sends
          rcases sends unit List.mem_cons_self with ⟨_, _, _, rfl⟩ | ⟨_, _, _, rfl⟩ <;>
            cases List.mem_singleton.mp here
        · cases here
      | command => cases here
      | _ => cases List.mem_singleton.mp here
    · obtain ⟨src, package, sent, listed, carries⟩ := inductionHypothesis
        (step program process input) (step_sends program process input sends) later
      exact ⟨src, package, sent, List.mem_cons_of_mem input listed, carries⟩

/-- The process and its server. -/
def Serves (process : Process) (server : Server) : Prop :=
  process.server = server ∧ process.thread.Sends

/-- The process is simulated by the server of `Service`. -/
theorem service_simulates :
    Simulates (machine program) (service program) (moves program) Serves := by
  constructor
  rintro process input server ⟨rfl, sends⟩ possible
  refine ⟨moves_possible program process input sends possible, ?_, ?_⟩
  · exact step_moves program process input
  · exact step_sends program process input sends

/-- Every run of the process is a run of its server: the server can take the actions that
the steps stand for, one after the other, and ends in the same state. -/
theorem process_refines_service (process : Process) (inputs : List Input)
    (sends : process.thread.Sends) (admissible : (machine program).Admissible process inputs) :
    (service program).Admissible process.server
        (trace (machine program) (moves program) process inputs) ∧
      ((machine program).after process inputs).server =
        (service program).after process.server
          (trace (machine program) (moves program) process inputs) := by
  obtain ⟨possible, same, _⟩ := simulation_rule _ _ _ _ (service_simulates program) process
    process.server inputs ⟨rfl, sends⟩ admissible
  exact ⟨possible, same⟩

end Refinement

/-- A clock request of four bytes, whose first one is the id. -/
def referenceTimeCodec : TimeCodec where
  controlTimeSize := 4
  controlIsTime := fun package => decide (package.getD 1 0 = 2)
  spid := fun package => (package.getD 0 0).toNat

/-- A program for concrete runs. -/
def referenceProgram : Program where
  env := referenceEnvironment
  settings := referenceSettings
  codec := Registry.referenceCodec
  timeCodec := referenceTimeCodec
  headerCheck := referenceHeaderCheck
  shared := rfl

/-- The datagram with which the speaker 7 announces itself. -/
def announcement : Input :=
  .detect ⟨⟨2, [10, 0, 0, 7]⟩, 5000⟩ [7, 1, 7, 0, 1, 2] referenceAnswers 2

/-- A process that has one datagram for the speaker 7 left to send. -/
def playingProcess : Process where
  server := freshServer
  statics := ⟨1, fun _ => 0⟩
  thread := .working [.push 7 [1, 2] 0] (.ok (⟨2, fun _ => 0⟩, 0))
  replies := []

/-- The units of that process are datagrams. -/
theorem playing_sends : playingProcess.thread.Sends := by
  intro unit member
  exact Or.inr ⟨7, [1, 2], 0, List.mem_singleton.mp member⟩

/-- The speaker 7 announces itself and asks for the time before it is sent its datagram. -/
def referenceInputs : List Input :=
  [announcement, .control [7, 2, 0, 0] 100 0, .proceed, .tick, .proceed]

/-- The reference run is possible. -/
theorem reference_admissible :
    (machine referenceProgram).Admissible playingProcess referenceInputs := by
  refine ⟨⟨nofun, ?_⟩, ⟨nofun, trivial⟩, ⟨nofun, nofun⟩, ⟨nofun, trivial⟩, ⟨nofun, nofun⟩,
    trivial⟩
  intro fd handed
  rw [← Option.some.inj handed]
  rfl

/-- The reference run is a run of the server. -/
theorem reference_run_refines :
    ((machine referenceProgram).after playingProcess referenceInputs).server =
      (service referenceProgram).after freshServer
        (trace (machine referenceProgram) (moves referenceProgram) playingProcess
          referenceInputs) :=
  (process_refines_service referenceProgram playingProcess referenceInputs playing_sends
    reference_admissible).2

end Castserver.Threads
