import Castserver.Dispatcher
import Castserver.WaveEnds

/-!
# The exchange of a wave file

The client sends a first message of fixed size and then, while the file lasts, one
chunk at a time, and waits for an acknowledgement after each chunk and once more at
the end. The server acknowledges every receive of its second loop, but not the first
message. Whether the numbers match depends on what the first receive leaves for the
second loop: some bytes of the first message, or a buffer that is partly filled. And no
receive is acknowledged if the push before the acknowledgement does not return, because it
divides by zero, fails an assertion, or copies without end.
-/

namespace Castserver.Exchange

open Dispatcher Pushwave WaveEnds
open Channels (Environment Fault PushState referenceEnvironment)
open Library.Runs
open Library.Loops

/-- What both parties start from: what surrounds the server's pushes, the file, the header
check, the format and the channels, the chunk size they agree on, the bytes that the client's
allocations and the server's static buffer happen to hold, and the size of the first
receive. -/
structure Setting where
  env : Environment
  file : List UInt8
  headerCheck : List UInt8 → Nat
  format : AudioFormat
  chlist : List Nat
  chunk : Nat
  headBytes : List UInt8
  chunkBytes : List UInt8
  socketBuffer : Nat → UInt8
  first : Nat

/-- Where the client stands in `pipe_init`: before the first message, at the head of
its loop, in the `recv` of its loop, in the last `recv`, or behind it. The loop reads
what is left of the file into a buffer. -/
inductive Client where
  | starting
  | reading (rest buf : List UInt8)
  | awaiting (rest buf : List UInt8)
  | finishing
  | closed

/-- Where the server stands: in the first `recv` of the connection, in the `recv` of
the second loop of `cmd_wave`, done with the connection, which it leaves open, or in a push
that does not return. -/
inductive Server where
  | listening
  | receiving (offset : Nat)
  | returned
  | stopped (fault : Fault)
deriving DecidableEq, Repr

/-- A trap or a failed assertion ends the process, which closes its connections. A push
without end leaves them open. -/
def Server.ended : Server → Bool
  | .stopped fault => decide (fault ≠ .fuel)
  | _ => false

/-- Both parties, the bytes on their way to the server and the number of bytes of
acknowledgements on their way to the client. -/
structure Parties where
  client : Client
  server : Server
  toServer : List UInt8
  acks : Nat

/-- One step of the client apart from its receives, one receive of the client or the
server, and the end of the stream seen by the server or the client. -/
inductive Action where
  | client
  | clientRecv (count : Nat)
  | clientEof
  | serverRecv (count : Nat)
  | serverEof
deriving DecidableEq, Repr

/-- Read from a file into a buffer, whose other bytes stay. -/
def fread (size : Nat) (file buf : List UInt8) : List UInt8 :=
  file.take size ++ buf.drop (file.take size).length

/-- The part of the first message behind the name of the command. -/
def payload (setting : Setting) : List UInt8 :=
  fread (controlBufferSize - 12) setting.file (setting.headBytes.drop 12)

/-- The header and the name of the command in front of the payload. -/
def pushwave : List UInt8 :=
  bytesOf controlHeaderCntl ++ bytesOf ['p', 'u', 's', 'h', 'w', 'a', 'v', 'e']

/-- The first message. -/
def head (setting : Setting) : List UInt8 :=
  pushwave ++ payload setting

/-- A step of the client apart from its receives. Its loop ends when `fread` gives nothing,
which is at the end of the file, as chunks are not empty. A send to a server that has ended is
the client's end too. -/
def pipeInit (setting : Setting) (state : Parties) : Parties :=
  match state.client with
  | .starting =>
    if setting.headerCheck (payload setting) = 0 then { state with client := .closed }
    else
      { state with
        client := .reading (setting.file.drop (controlBufferSize - 12)) setting.chunkBytes
        toServer := state.toServer ++ head setting }
  | .reading [] _ => { state with client := .finishing }
  | .reading rest buf =>
    if state.server.ended then { state with client := .closed }
    else
      { state with
        client := .awaiting (rest.drop setting.chunk) (fread setting.chunk rest buf)
        toServer := state.toServer ++ fread setting.chunk rest buf }
  | _ => state

/-- The client after a receive of an acknowledgement, or of the end of the stream. -/
def Client.acknowledged : Client → Client
  | .awaiting rest buf => .reading rest buf
  | .finishing => .closed
  | client => client

/-- A call of `cmd_wave` in the exchange. -/
def Setting.playback (setting : Setting) : Playback where
  chunk := setting.chunk
  format := setting.format
  chlist := setting.chlist
  allocated := []
  results := fun _ => 0
  received := []

/-- How every push of the exchange turns out. -/
def Setting.pushed (setting : Setting) : Except Fault Unit :=
  if setting.format.channels = 0 then .error .zeroDivisor
  else verdict setting.env setting.playback.len setting.chlist.length setting.playback.bits

/-- The beginning of `cmd_wave`, up to the first `recv` of its second loop. A push of its first
loop may not return. -/
def beginWave (setting : Setting) (payload : List UInt8) : Server :=
  if setting.headerCheck payload = 0 then .returned
  else if setting.format.channels = 0 then .stopped .zeroDivisor
  else
    match pushInitial setting.headerCheck setting.chunk setting.format (payload.length + 1)
      payload with
    | none => .stopped .fuel
    | some state =>
      match setting.pushed with
      | .error fault =>
        if state.pushes = [] then
          .receiving (leftOver (setting.headerCheck payload) state.length)
        else .stopped fault
      | .ok () => .receiving (leftOver (setting.headerCheck payload) state.length)

/-- The bytes of a message over what a buffer held before. -/
def received (socketBuffer : Nat → UInt8) (message : List UInt8) (index : Nat) : UInt8 :=
  message.getD index (socketBuffer index)

/-- What the server does with the first bytes of a connection. -/
def dispatch (setting : Setting) (message : List UInt8) : Server :=
  match callCommand (received setting.socketBuffer message) message.length with
  | .ran .cmdWave (some arg) _ => beginWave setting (message.drop arg)
  | _ => .returned

/-- The effect of an action. -/
def step (setting : Setting) (state : Parties) : Action → Parties
  | .client => pipeInit setting state
  | .clientRecv count =>
    { state with client := state.client.acknowledged, acks := state.acks - count }
  | .clientEof => { state with client := state.client.acknowledged }
  | .serverRecv count =>
    match state.server with
    | .listening =>
      { state with
        server := dispatch setting (state.toServer.take count)
        toServer := state.toServer.drop count }
    | .receiving _ =>
      match setting.pushed with
      | .error fault =>
        { state with
          server := .stopped fault
          toServer := state.toServer.drop count }
      | .ok () =>
        { state with
          server := .receiving 0
          toServer := state.toServer.drop count
          acks := state.acks + 4 }
    | .returned | .stopped _ => state
  | .serverEof => { state with server := .returned }

/-- The client waits for an acknowledgement. -/
def Client.Blocked : Client → Prop
  | .awaiting _ _ | .finishing => True
  | _ => False

/-- The client has a step of its own. -/
def Client.Running : Client → Prop
  | .starting | .reading _ _ => True
  | _ => False

/-- The most bytes a receive of the server may bring: the size of the first receive is
part of the setting, and any later one brings at most what it asks for. -/
def Server.Accepts (setting : Setting) (count : Nat) : Server → Prop
  | .listening => count = setting.first
  | .receiving offset => count ≤ setting.chunk - offset
  | .returned | .stopped _ => False

/-- The server waits in a receive. -/
def Server.Waits : Server → Prop
  | .listening | .receiving _ => True
  | .returned | .stopped _ => False

/-- A receive brings at least one byte and no more than there are. -/
def enabled (setting : Setting) (state : Parties) : Action → Prop
  | .client => state.client.Running
  | .clientRecv count => state.client.Blocked ∧ 0 < count ∧ count ≤ 4 ∧ count ≤ state.acks
  | .clientEof => state.client.Blocked ∧ state.acks = 0 ∧ state.server.ended = true
  | .serverRecv count =>
    0 < count ∧ count ≤ state.toServer.length ∧ state.server.Accepts setting count
  | .serverEof => state.client = .closed ∧ state.toServer = [] ∧ state.server.Waits

/-- The exchange as a machine. -/
def machine (setting : Setting) : Machine Parties Action where
  enabled := enabled setting
  step := step setting

/-- Before anything has been sent. -/
def start : Parties where
  client := .starting
  server := .listening
  toServer := []
  acks := 0

/-- A receive of the server. -/
def IsServerRecv (action : Action) : Prop :=
  ∃ count, action = .serverRecv count

/-- The client waits for an acknowledgement, none is on its way, and whatever the
server receives of what has been sent, it sends none. The connection is open: at its end the
client would not wait. -/
def Deadlocked (setting : Setting) (state : Parties) : Prop :=
  state.client.Blocked ∧ state.server.ended = false ∧ state.acks = 0 ∧
    ∀ actions, (∀ action ∈ actions, IsServerRecv action) →
      (machine setting).Admissible state actions →
      ((machine setting).after state actions).acks = 0

/-- No state that the exchange can reach is a deadlock. -/
def NeverDeadlocks (setting : Setting) : Prop :=
  ∀ state, (machine setting).Leads start state → ¬ Deadlocked setting state

/-- What the functions outside of the repository and the two allocations promise: a
header lies inside the data it is checked in, and the buffers have their sizes. The
first receive brings at least one byte and at most what it asks for. -/
structure Sized (setting : Setting) : Prop where
  within : ∀ payload, setting.headerCheck payload ≤ payload.length
  positive : 0 < setting.chunk
  headSize : setting.headBytes.length = controlBufferSize
  chunkSize : setting.chunkBytes.length = setting.chunk
  some : 0 < setting.first
  most : setting.first ≤ controlBufferSize

/-- The first receive reaches past the name of the command, its part of the file passes
the header check, and it leaves something to acknowledge: bytes of the first message,
or a partly filled buffer and a chunk to come. -/
def FirstReceiveSuffices (setting : Setting) : Prop :=
  12 < setting.first ∧
    setting.headerCheck ((payload setting).take (setting.first - 12)) ≠ 0 ∧
    (setting.first < controlBufferSize ∨
      (controlBufferSize - 12 < setting.file.length ∧
        ¬ setting.chunk ∣ controlBufferSize - 12 - setting.headerCheck (payload setting)))

/-- Every push of the exchange returns. -/
def PushesReturn (setting : Setting) : Prop :=
  setting.pushed = .ok ()

/-- What the server can count on having to acknowledge: the number of chunks that the
bytes on their way and those in its buffer begin. -/
def owed (chunk inFlight offset : Nat) : Nat :=
  (inFlight + offset + (chunk - 1)) / chunk

/-- The payload fills the rest of the first message. -/
theorem payload_length (setting : Setting)
    (headSize : setting.headBytes.length = controlBufferSize) :
    (payload setting).length = controlBufferSize - 12 := by
  simp only [payload, fread, List.length_append, List.length_take, List.length_drop, headSize]
  omega

/-- The first message has the size of the control buffer. -/
theorem head_length (setting : Setting)
    (headSize : setting.headBytes.length = controlBufferSize) :
    (head setting).length = controlBufferSize := by
  rw [head, List.length_append, payload_length setting headSize]
  rfl

/-- Reading into a buffer keeps its size. -/
theorem fread_length (size : Nat) (file buf : List UInt8) (full : buf.length = size) :
    (fread size file buf).length = size := by
  simp only [fread, List.length_append, List.length_take, List.length_drop]
  omega

/-- The beginning of the first message. -/
theorem head_take (setting : Setting) (count : Nat) (named : 12 ≤ count) :
    (head setting).take count = pushwave ++ (payload setting).take (count - 12) := by
  obtain ⟨more, rfl⟩ := Nat.exists_eq_add_of_le named
  have size : pushwave.length = 12 := rfl
  rw [head, Nat.add_sub_cancel_left, ← size, List.take_length_add_append]

/-- The buffer holds the letters of the command once they have arrived. -/
theorem received_letter (socketBuffer : Nat → UInt8) (data : List UInt8) (i : Nat)
    (inside : i < 12) : received socketBuffer (pushwave ++ data) i = pushwave.getD i 0 := by
  have size : i < pushwave.length := inside
  rw [received, List.getD_eq_getElem?_getD, List.getElem?_append_left size,
    List.getElem?_eq_getElem size, List.getD_eq_getElem?_getD, List.getElem?_eq_getElem size]
  rfl

/-- A message that begins with the command is passed to `cmd_wave`. -/
theorem wave_called (socketBuffer : Nat → UInt8) (data : List UInt8) (len : Nat)
    (named : 12 ≤ len) :
    callCommand (received socketBuffer (pushwave ++ data)) len =
      .ran .cmdWave (if len = 12 then none else some 12) (len - 12) := by
  apply call_named _ len ⟨['p', 'u', 's', 'h', 'w', 'a', 'v', 'e'], .cmdWave⟩ (by decide)
  · refine ⟨named, ?_⟩
    intro i inside
    rw [received_letter socketBuffer data i (by omega)]
    revert i
    decide
  · intro i inside
    rw [received_letter socketBuffer data (4 + i) (by omega)]
    revert i
    decide

/-- A format whose pushes return has channels. -/
theorem returning_channels (setting : Setting) (returns : PushesReturn setting) :
    setting.format.channels ≠ 0 := by
  intro none
  rw [PushesReturn, Setting.pushed, if_pos none] at returns
  cases returns

/-- The beginning of `cmd_wave` on data that passes the header check: its second loop
starts with what the full chunks leave over. -/
theorem begin_wave_receives (setting : Setting) (sized : Sized setting)
    (returns : PushesReturn setting) (data : List UInt8)
    (small : data.length < 2 ^ 32) (accepted : setting.headerCheck data ≠ 0) :
    beginWave setting data =
      .receiving ((data.length - setting.headerCheck data) % setting.chunk) := by
  obtain ⟨state, ran, _, left, offset⟩ := push_initial_cuts setting.headerCheck setting.chunk
    setting.format (data.length + 1) data sized.positive small (sized.within data)
    (Nat.lt_succ_self data.length)
  rw [PushesReturn] at returns
  simp only [beginWave, accepted, if_false, returning_channels setting returns, ran, returns,
    offset, left]

/-- What the first receive does: it starts playing if it reaches into a payload that
passes the header check, and otherwise ends the server's part. -/
theorem dispatch_first (setting : Setting) (sized : Sized setting)
    (returns : PushesReturn setting) :
    dispatch setting ((head setting).take setting.first) =
      if 12 < setting.first ∧
          setting.headerCheck ((payload setting).take (setting.first - 12)) ≠ 0 then
        .receiving ((setting.first - 12 -
          setting.headerCheck ((payload setting).take (setting.first - 12))) % setting.chunk)
      else .returned := by
  have size : ((head setting).take setting.first).length = setting.first := by
    rw [List.length_take, head_length setting sized.headSize]
    exact Nat.min_eq_left sized.most
  rw [dispatch, size]
  by_cases named : 12 ≤ setting.first
  · have shape := head_take setting setting.first named
    rw [shape, wave_called setting.socketBuffer _ setting.first named, ← shape]
    by_cases bare : setting.first = 12
    · simp [bare]
    · have long : 12 < setting.first := Nat.lt_of_le_of_ne named (Ne.symm bare)
      have dropped : ((head setting).take setting.first).drop 12 =
          (payload setting).take (setting.first - 12) := by
        rw [shape]
        rfl
      have dataLength : ((payload setting).take (setting.first - 12)).length =
          setting.first - 12 := by
        rw [List.length_take, payload_length setting sized.headSize]
        exact Nat.min_eq_left (Nat.sub_le_sub_right sized.most 12)
      simp only [bare, if_false, dropped, long, true_and]
      by_cases accepted : setting.headerCheck ((payload setting).take (setting.first - 12)) = 0
      · simp [beginWave, accepted]
      · have small : ((payload setting).take (setting.first - 12)).length < 2 ^ 32 := by
          have most := sized.most
          rw [dataLength]
          simp only [controlBufferSize] at most
          omega
        rw [begin_wave_receives setting sized returns _ small accepted, dataLength, if_pos accepted]
  · have short : ¬ Addressed (received setting.socketBuffer
        ((head setting).take setting.first)) setting.first := fun addressed => named addressed.1
    rw [call_unaddressed _ _ short, if_neg (fun both => named (Nat.le_of_lt both.1))]

/-- One more chunk on its way is one more acknowledgement owed. -/
theorem owed_chunk (chunk inFlight offset : Nat) (positive : 0 < chunk) :
    owed chunk (inFlight + chunk) offset = owed chunk inFlight offset + 1 := by
  have shifted : inFlight + chunk + offset + (chunk - 1) =
      inFlight + offset + (chunk - 1) + chunk := by omega
  rw [owed, owed, shifted, Nat.add_div_right _ positive]

/-- A receive gives at most one of the owed acknowledgements away. -/
theorem owed_receive (chunk inFlight offset count : Nat) (positive : 0 < chunk)
    (below : offset ≤ chunk) (there : count ≤ inFlight) (asked : count ≤ chunk - offset) :
    owed chunk inFlight offset ≤ owed chunk (inFlight - count) 0 + 1 := by
  rw [owed, owed, ← Nat.add_div_right _ positive]
  exact Nat.div_le_div_right (by omega)

/-- Anything begun is owed an acknowledgement. -/
theorem owed_begun (chunk inFlight offset more : Nat) (positive : 0 < chunk)
    (begun : more * chunk < inFlight + offset) : more + 1 ≤ owed chunk inFlight offset := by
  rw [owed, Nat.le_div_iff_mul_le positive, Nat.succ_mul]
  omega

/-- Bytes of acknowledgements that the client still takes at most, while it goes on
without being stuck. -/
def Client.needs : Client → Nat
  | .awaiting _ _ => 8
  | .reading _ _ | .finishing => 4
  | .starting | .closed => 0

/-- The client's buffer has the size of a chunk. -/
def Client.Buffered (chunk : Nat) : Client → Prop
  | .reading _ buf | .awaiting _ buf => buf.length = chunk
  | _ => True

/-- What the client may have sent behind the first message before the server's first
receive: nothing at first, one chunk, or nothing at all if the file has ended. -/
inductive Ahead (setting : Setting) : Client → List UInt8 → Prop where
  | reading : Ahead setting
      (.reading (setting.file.drop (controlBufferSize - 12)) setting.chunkBytes) []
  | awaiting (rest buf extra : List UInt8) (buffered : buf.length = setting.chunk)
      (size : extra.length = setting.chunk) : Ahead setting (.awaiting rest buf) extra
  | finishing (whole : setting.file.drop (controlBufferSize - 12) = []) :
      Ahead setting .finishing []

/-- The invariant while the server receives: what is on its way and what is owed
covers the client's needs, and as long as the server's buffer is partly filled
nothing has been acknowledged and there is more to come. -/
structure Covered (setting : Setting) (client : Client) (offset : Nat) (toServer : List UInt8)
    (acks : Nat) : Prop where
  begun : client ≠ .starting
  below : offset < setting.chunk
  buffered : client.Buffered setting.chunk
  covered : client.needs ≤ acks + 4 * owed setting.chunk toServer.length offset
  unanswered : offset ≠ 0 → acks = 0 ∧
    (toServer = [] → ∃ rest buf, client = .reading rest buf ∧ rest ≠ [])

/-- The states that are reached. -/
inductive Reached (setting : Setting) : Parties → Prop where
  | starting : Reached setting start
  | listening (client : Client) (extra : List UInt8) (ahead : Ahead setting client extra) :
      Reached setting ⟨client, .listening, head setting ++ extra, 0⟩
  | receiving (client : Client) (offset : Nat) (toServer : List UInt8) (acks : Nat)
      (covered : Covered setting client offset toServer acks) :
      Reached setting ⟨client, .receiving offset, toServer, acks⟩
  | closed (server : Server) (toServer : List UInt8) (acks : Nat) :
      Reached setting ⟨.closed, server, toServer, acks⟩

/-- Only the first message and later chunks are sent: a step of the reading client. -/
theorem pipe_init_reading (setting : Setting) (rest buf toServer : List UInt8) (server : Server)
    (acks : Nat) (more : rest ≠ []) (runs : server.ended = false) :
    pipeInit setting ⟨.reading rest buf, server, toServer, acks⟩ =
      ⟨.awaiting (rest.drop setting.chunk) (fread setting.chunk rest buf), server,
        toServer ++ fread setting.chunk rest buf, acks⟩ := by
  cases rest with
  | nil => exact absurd rfl more
  | cons byte bytes => simp [pipeInit, runs]

/-- The first receive, if it suffices, leaves the exchange covered. -/
theorem first_receive_covered (setting : Setting) (sized : Sized setting)
    (enough : FirstReceiveSuffices setting) (client : Client) (extra : List UInt8)
    (ahead : Ahead setting client extra) :
    Covered setting client
      ((setting.first - 12 -
        setting.headerCheck ((payload setting).take (setting.first - 12))) % setting.chunk)
      ((head setting ++ extra).drop setting.first) 0 := by
  obtain ⟨_, _, leaves⟩ := enough
  have positive := sized.positive
  have most := sized.most
  have length : ((head setting ++ extra).drop setting.first).length =
      controlBufferSize - setting.first + extra.length := by
    rw [List.length_drop, List.length_append, head_length setting sized.headSize]
    omega
  have begun : setting.first < controlBufferSize ∨ setting.first = controlBufferSize ∧
      setting.file.drop (controlBufferSize - 12) ≠ [] ∧
      (setting.first - 12 - setting.headerCheck ((payload setting).take (setting.first - 12))) %
        setting.chunk ≠ 0 := by
    rcases Nat.lt_or_eq_of_le most with less | all
    · exact Or.inl less
    · rcases leaves with less | ⟨longer, partly⟩
      · exact Or.inl less
      · refine Or.inr ⟨all, ?_, ?_⟩
        · intro nothing
          have ended := List.drop_eq_nil_iff.mp nothing
          omega
        · rw [all, List.take_of_length_le (Nat.le_of_eq (payload_length setting sized.headSize))]
          exact fun zero => partly (Nat.dvd_of_mod_eq_zero zero)
  have below := Nat.mod_lt (setting.first - 12 -
    setting.headerCheck ((payload setting).take (setting.first - 12))) positive
  generalize (setting.first - 12 -
    setting.headerCheck ((payload setting).take (setting.first - 12))) % setting.chunk = offset
    at begun below ⊢
  have owes (more : Nat)
      (some : more * setting.chunk < controlBufferSize - setting.first + extra.length + offset) :
      more + 1 ≤ owed setting.chunk ((head setting ++ extra).drop setting.first).length offset := by
    apply owed_begun setting.chunk _ offset more positive
    rw [length]
    exact some
  cases ahead with
  | reading =>
    rw [List.length_nil] at length owes
    refine ⟨by simp, below, sized.chunkSize, ?_, fun _ => ⟨rfl, fun empty => ⟨_, _, rfl, ?_⟩⟩⟩
    · have first := owes 0 (by omega)
      simp only [Client.needs]
      omega
    · rcases begun with less | ⟨_, more, _⟩
      · rw [empty, List.length_nil] at length
        omega
      · exact more
  | awaiting rest buf extra buffered size =>
    refine ⟨by simp, below, buffered, ?_, fun _ => ⟨rfl, fun empty => ?_⟩⟩
    · have second := owes 1 (by omega)
      simp only [Client.needs]
      omega
    · rw [empty, List.length_nil] at length
      omega
  | finishing whole =>
    rw [List.length_nil] at length owes
    have less : setting.first < controlBufferSize := by
      rcases begun with less | ⟨_, more, _⟩
      · exact less
      · exact absurd whole more
    refine ⟨by simp, below, trivial, ?_, fun _ => ⟨rfl, fun empty => ?_⟩⟩
    · have first := owes 0 (by omega)
      simp only [Client.needs]
      omega
    · rw [empty, List.length_nil] at length
      omega

/-- The first receive takes its bytes from the first message. -/
theorem first_receive_message (setting : Setting) (sized : Sized setting) (extra : List UInt8) :
    (head setting ++ extra).take setting.first = (head setting).take setting.first := by
  apply List.take_append_of_le_length
  rw [head_length setting sized.headSize]
  exact sized.most

/-- A client that sends its next chunk or ends its file keeps the exchange covered. -/
theorem client_covered (setting : Setting) (positive : 0 < setting.chunk) (rest buf : List UInt8)
    (offset : Nat) (toServer : List UInt8) (acks : Nat)
    (covered : Covered setting (.reading rest buf) offset toServer acks) :
    Reached setting
      (step setting ⟨.reading rest buf, .receiving offset, toServer, acks⟩ .client) := by
  have needs := covered.covered
  cases rest with
  | nil =>
    refine .receiving .finishing offset toServer acks
      ⟨by simp, covered.below, trivial, needs, ?_⟩
    intro partly
    obtain ⟨none, more⟩ := covered.unanswered partly
    refine ⟨none, fun empty => ?_⟩
    obtain ⟨_, _, reading, unread⟩ := more empty
    exact absurd (Client.reading.inj reading).1.symm unread
  | cons byte bytes =>
    have size := fread_length setting.chunk (byte :: bytes) buf covered.buffered
    have owes : owed setting.chunk
        (toServer ++ fread setting.chunk (byte :: bytes) buf).length offset =
        owed setting.chunk toServer.length offset + 1 := by
      rw [List.length_append, size, owed_chunk _ _ _ positive]
    refine .receiving (.awaiting _ (fread setting.chunk (byte :: bytes) buf)) offset _ acks
      ⟨by simp, covered.below, size, ?_, ?_⟩
    · rw [owes]
      simp only [Client.needs] at needs ⊢
      omega
    · intro partly
      refine ⟨(covered.unanswered partly).1, fun empty => ?_⟩
      have nothing := congrArg List.length empty
      rw [List.length_append, size, List.length_nil] at nothing
      omega

/-- An acknowledgement that the client takes keeps the exchange covered or closes it. -/
theorem answer_covered (setting : Setting) (client : Client) (offset : Nat)
    (toServer : List UInt8) (acks count : Nat)
    (covered : Covered setting client offset toServer acks)
    (possible : enabled setting ⟨client, .receiving offset, toServer, acks⟩ (.clientRecv count)) :
    Reached setting
      (step setting ⟨client, .receiving offset, toServer, acks⟩ (.clientRecv count)) := by
  have needs := covered.covered
  obtain ⟨blocked, some, most, there⟩ := possible
  have answered : offset = 0 := by
    by_contra partly
    have none := (covered.unanswered partly).1
    simp only at there
    omega
  cases client with
  | awaiting rest buf =>
    refine .receiving (.reading rest buf) offset toServer (acks - count)
      ⟨by simp, covered.below, covered.buffered, ?_, fun partly => absurd answered partly⟩
    simp only [Client.needs] at needs there ⊢
    omega
  | finishing => exact .closed _ _ _
  | starting => exact False.elim blocked
  | reading rest buf => exact False.elim blocked
  | closed => exact False.elim blocked

/-- Every step of a covered exchange keeps it covered or closes it. -/
theorem covered_step (setting : Setting) (sized : Sized setting) (returns : PushesReturn setting)
    (client : Client) (offset : Nat) (toServer : List UInt8) (acks : Nat) (action : Action)
    (covered : Covered setting client offset toServer acks)
    (possible : enabled setting ⟨client, .receiving offset, toServer, acks⟩ action) :
    Reached setting (step setting ⟨client, .receiving offset, toServer, acks⟩ action) := by
  have positive := sized.positive
  cases action with
  | client =>
    cases client with
    | reading rest buf =>
      exact client_covered setting positive rest buf offset toServer acks covered
    | starting => exact absurd rfl covered.begun
    | awaiting rest buf => exact False.elim possible
    | finishing => exact False.elim possible
    | closed => exact False.elim possible
  | clientRecv count =>
    exact answer_covered setting client offset toServer acks count covered possible
  | clientEof => cases possible.2.2
  | serverRecv count =>
    have acknowledged : step setting ⟨client, .receiving offset, toServer, acks⟩
        (.serverRecv count) = ⟨client, .receiving 0, toServer.drop count, acks + 4⟩ := by
      rw [PushesReturn] at returns
      simp only [step, returns]
    rw [acknowledged]
    have needs := covered.covered
    obtain ⟨some, there, asked⟩ := possible
    simp only [Server.Accepts] at there asked
    have given := owed_receive setting.chunk toServer.length offset count positive
      (Nat.le_of_lt covered.below) there asked
    refine .receiving client 0 (toServer.drop count) (acks + 4)
      ⟨covered.begun, positive, covered.buffered, ?_, fun impossible => absurd rfl impossible⟩
    rw [List.length_drop]
    omega
  | serverEof =>
    obtain ⟨closed, _, _⟩ := possible
    simp only at closed
    subst closed
    exact .closed _ _ _

/-- Every step before the first receive of the server reaches another state, if that receive
suffices. -/
theorem listening_step (setting : Setting) (sized : Sized setting)
    (returns : PushesReturn setting) (enough : FirstReceiveSuffices setting) (client : Client)
    (extra : List UInt8)
    (ahead : Ahead setting client extra) (action : Action)
    (possible : enabled setting ⟨client, .listening, head setting ++ extra, 0⟩ action) :
    Reached setting (step setting ⟨client, .listening, head setting ++ extra, 0⟩ action) := by
  cases action with
  | client =>
    cases ahead with
    | awaiting => exact False.elim possible
    | finishing => exact False.elim possible
    | reading =>
      cases rest : setting.file.drop (controlBufferSize - 12) with
      | nil => exact .listening .finishing [] (.finishing rest)
      | cons byte bytes =>
        have more : setting.file.drop (controlBufferSize - 12) ≠ [] := by simp [rest]
        have sent := pipe_init_reading setting _ setting.chunkBytes (head setting ++ [])
          .listening 0 more rfl
        rw [rest, List.append_nil] at sent
        have size := fread_length setting.chunk (byte :: bytes) setting.chunkBytes
          sized.chunkSize
        simp only [step, List.append_nil]
        rw [sent]
        exact .listening _ _ (.awaiting _ _ _ size size)
  | clientRecv count =>
    have nothing : count ≤ 0 := possible.2.2.2
    have some := possible.2.1
    omega
  | clientEof => cases possible.2.2
  | serverRecv count =>
    obtain ⟨_, _, same⟩ := possible
    simp only [Server.Accepts] at same
    subst same
    have dispatched := dispatch_first setting sized returns
    rw [if_pos ⟨enough.1, enough.2.1⟩] at dispatched
    simp only [step]
    rw [first_receive_message setting sized extra, dispatched]
    exact .receiving _ _ _ _ (first_receive_covered setting sized enough client extra ahead)
  | serverEof =>
    have empty := congrArg List.length possible.2.1
    rw [List.length_append, head_length setting sized.headSize] at empty
    simp [controlBufferSize] at empty

/-- Every step from a reached state reaches one, if the first receive suffices. -/
theorem reached_step (setting : Setting) (sized : Sized setting)
    (returns : PushesReturn setting) (accepted : setting.headerCheck (payload setting) ≠ 0)
    (enough : FirstReceiveSuffices setting) (state : Parties) (action : Action)
    (reached : Reached setting state) (possible : enabled setting state action) :
    Reached setting (step setting state action) := by
  have positive := sized.positive
  cases reached with
  | closed server toServer acks =>
    cases action with
    | client => exact False.elim possible
    | clientRecv count => exact False.elim possible.1
    | clientEof => exact False.elim possible.1
    | serverRecv count =>
      cases server with
      | listening => exact .closed _ _ _
      | receiving offset =>
        simp only [step]
        split
        · exact .closed _ _ _
        · exact .closed _ _ _
      | returned => exact .closed _ _ _
      | stopped fault => exact .closed _ _ _
    | serverEof => exact .closed _ _ _
  | starting =>
    cases action with
    | client =>
      have sent : step setting start .client =
          ⟨.reading (setting.file.drop (controlBufferSize - 12)) setting.chunkBytes, .listening,
            head setting ++ [], 0⟩ := by
        simp [step, pipeInit, start, accepted]
      rw [sent]
      exact .listening _ [] .reading
    | clientRecv count => exact False.elim possible.1
    | clientEof => exact False.elim possible.1
    | serverRecv count =>
      have nothing : count ≤ 0 := possible.2.1
      have some := possible.1
      omega
    | serverEof => cases possible.1
  | listening client extra ahead =>
    exact listening_step setting sized returns enough client extra ahead action possible
  | receiving client offset toServer acks covered =>
    exact covered_step setting sized returns client offset toServer acks action covered possible

/-- A client that waits is not deadlocked if some receives of the server, all possible,
send an acknowledgement. -/
theorem answered_receives (setting : Setting) (state : Parties) (actions : List Action)
    (receives : ∀ action ∈ actions, IsServerRecv action)
    (possible : (machine setting).Admissible state actions)
    (answered : ((machine setting).after state actions).acks ≠ 0) :
    ¬ Deadlocked setting state :=
  fun deadlocked => answered (deadlocked.2.2.2 actions receives possible)

/-- In a covered exchange, a client that waits with nothing on its way has something
on its way to the server. -/
theorem covered_waiting (setting : Setting) (positive : 0 < setting.chunk) (client : Client)
    (offset : Nat) (toServer : List UInt8) (covered : Covered setting client offset toServer 0)
    (blocked : client.Blocked) : 0 < toServer.length := by
  by_contra none
  have empty : toServer = [] := List.eq_nil_of_length_eq_zero (by omega)
  have filled : offset = 0 := by
    by_contra partly
    obtain ⟨rest, buf, reading, _⟩ := (covered.unanswered partly).2 empty
    rw [reading] at blocked
    exact blocked
  have nothing : owed setting.chunk toServer.length offset = 0 := by
    rw [owed, empty, filled]
    exact Nat.div_eq_of_lt (by simp only [List.length_nil]; omega)
  have needs := covered.covered
  rw [nothing] at needs
  cases client with
  | awaiting rest buf => simp [Client.needs] at needs
  | finishing => simp [Client.needs] at needs
  | starting => exact blocked
  | reading rest buf => exact blocked
  | closed => exact blocked

/-- No reached state is a deadlock, if the first receive suffices. -/
theorem reached_free (setting : Setting) (sized : Sized setting)
    (returns : PushesReturn setting) (enough : FirstReceiveSuffices setting) (state : Parties)
    (reached : Reached setting state) : ¬ Deadlocked setting state := by
  have positive := sized.positive
  cases reached with
  | closed server toServer acks => exact fun deadlocked => deadlocked.1
  | starting => exact fun deadlocked => deadlocked.1
  | receiving client offset toServer acks covered =>
    intro deadlocked
    have none : acks = 0 := deadlocked.2.2.1
    subst none
    have some := covered_waiting setting positive client offset toServer covered deadlocked.1
    have below := covered.below
    have possible : enabled setting ⟨client, .receiving offset, toServer, 0⟩ (.serverRecv 1) := by
      refine ⟨Nat.one_pos, some, ?_⟩
      simp only [Server.Accepts]
      omega
    refine answered_receives setting _ [.serverRecv 1] (by simp [IsServerRecv])
      ⟨possible, trivial⟩ ?_ deadlocked
    rw [PushesReturn] at returns
    simp [Machine.after, machine, step, returns]
  | listening client extra ahead =>
    intro deadlocked
    have covered := first_receive_covered setting sized enough client extra ahead
    have some := covered_waiting setting positive client _ _ covered deadlocked.1
    have below := covered.below
    have dispatched := dispatch_first setting sized returns
    rw [if_pos ⟨enough.1, enough.2.1⟩] at dispatched
    have first : (machine setting).step ⟨client, .listening, head setting ++ extra, 0⟩
        (.serverRecv setting.first) = ⟨client, .receiving ((setting.first - 12 -
          setting.headerCheck ((payload setting).take (setting.first - 12))) % setting.chunk),
          (head setting ++ extra).drop setting.first, 0⟩ := by
      simp only [machine, step]
      rw [first_receive_message setting sized extra, dispatched]
    have possible : enabled setting ⟨client, .listening, head setting ++ extra, 0⟩
        (.serverRecv setting.first) := by
      have most := sized.most
      refine ⟨sized.some, ?_, rfl⟩
      rw [List.length_append, head_length setting sized.headSize]
      omega
    refine answered_receives setting _ [.serverRecv setting.first, .serverRecv 1]
      (by simp [IsServerRecv]) ⟨possible, ?_, trivial⟩ ?_ deadlocked
    · rw [first]
      refine ⟨Nat.one_pos, some, ?_⟩
      simp only [Server.Accepts]
      omega
    · rw [Machine.after, List.foldl_cons, first]
      rw [PushesReturn] at returns
      simp [machine, step, returns]

/-- A client that waits is deadlocked if nothing is on its way to it and the server
cannot receive anything. -/
theorem stalled_deadlocked (setting : Setting) (state : Parties) (blocked : state.client.Blocked)
    (runs : state.server.ended = false) (none : state.acks = 0)
    (stalled : ∀ count, ¬ enabled setting state (.serverRecv count)) :
    Deadlocked setting state := by
  refine ⟨blocked, runs, none, ?_⟩
  intro actions receives possible
  cases actions with
  | nil => exact none
  | cons action rest =>
    obtain ⟨count, rfl⟩ := receives action List.mem_cons_self
    exact absurd possible.1 (stalled count)

/-- With an empty buffer on the server's side, the rest of the file can be played so
that every chunk is received at once and every acknowledgement is taken whole. -/
theorem plays_out (setting : Setting) (returns : PushesReturn setting)
    (positive : 0 < setting.chunk) (rest buf : List UInt8) (buffered : buf.length = setting.chunk) :
    (machine setting).Leads ⟨.reading rest buf, .receiving 0, [], 0⟩
      ⟨.finishing, .receiving 0, [], 0⟩ := by
  induction size : rest.length using Nat.strongRecOn generalizing rest buf with
  | ind count inductionHypothesis =>
    cases rest with
    | nil => exact (machine setting).leads_step _ _ .client trivial ((machine setting).leads_refl _)
    | cons byte bytes =>
      have full := fread_length setting.chunk (byte :: bytes) buf buffered
      refine (machine setting).leads_step _ _ .client trivial ?_
      have sent : (machine setting).step ⟨.reading (byte :: bytes) buf, .receiving 0, [], 0⟩
          .client = ⟨.awaiting ((byte :: bytes).drop setting.chunk)
            (fread setting.chunk (byte :: bytes) buf), .receiving 0,
            fread setting.chunk (byte :: bytes) buf, 0⟩ := rfl
      rw [sent]
      refine (machine setting).leads_step _ _ (.serverRecv setting.chunk)
        ⟨positive, Nat.le_of_eq full.symm, Nat.le_refl _⟩ ?_
      have taken : (machine setting).step ⟨.awaiting ((byte :: bytes).drop setting.chunk)
            (fread setting.chunk (byte :: bytes) buf), .receiving 0,
            fread setting.chunk (byte :: bytes) buf, 0⟩ (.serverRecv setting.chunk) =
          ⟨.awaiting ((byte :: bytes).drop setting.chunk)
            (fread setting.chunk (byte :: bytes) buf), .receiving 0, [], 4⟩ := by
        rw [PushesReturn] at returns
        simp only [machine, step, returns, List.drop_eq_nil_of_le (Nat.le_of_eq full)]
      rw [taken]
      refine (machine setting).leads_step _ _ (.clientRecv 4)
        ⟨trivial, by omega, Nat.le_refl 4, Nat.le_refl 4⟩ ?_
      refine inductionHypothesis ((byte :: bytes).drop setting.chunk).length ?_ _ _ full rfl
      rw [← size, List.length_drop, List.length_cons]
      omega

/-- The first step of the client sends the first message. -/
theorem head_sent (setting : Setting) (accepted : setting.headerCheck (payload setting) ≠ 0) :
    (machine setting).step start .client =
      ⟨.reading (setting.file.drop (controlBufferSize - 12)) setting.chunkBytes, .listening,
        head setting, 0⟩ := by
  simp [machine, step, pipeInit, start, accepted]

/-- At the head of its loop the client goes on to wait for an acknowledgement. -/
theorem reading_blocks (setting : Setting) (rest buf toServer : List UInt8) (server : Server)
    (acks : Nat) (runs : server.ended = false) :
    let after := (machine setting).step ⟨.reading rest buf, server, toServer, acks⟩ .client
    after.client.Blocked ∧ after.server = server ∧ after.acks = acks := by
  cases rest with
  | nil => exact ⟨trivial, rfl, rfl⟩
  | cons byte bytes =>
    simp only [machine, step, pipeInit, runs]
    exact ⟨trivial, rfl, rfl⟩

/-- The first steps of the client and the first receive of the server, before any chunk
is sent. -/
theorem leads_first (setting : Setting) (sized : Sized setting)
    (accepted : setting.headerCheck (payload setting) ≠ 0) :
    (machine setting).Leads start
      ⟨.reading (setting.file.drop (controlBufferSize - 12)) setting.chunkBytes,
        dispatch setting ((head setting).take setting.first),
        (head setting).drop setting.first, 0⟩ := by
  refine (machine setting).leads_step _ _ .client trivial ?_
  rw [head_sent setting accepted]
  have length := head_length setting sized.headSize
  have most := sized.most
  refine (machine setting).leads_step _ _ (.serverRecv setting.first)
    ⟨sized.some, by simp only [length]; exact most, rfl⟩ ?_
  exact (machine setting).leads_refl _

/-- A first receive that does not suffice can lead to a deadlock. -/
theorem insufficient_deadlocks (setting : Setting) (sized : Sized setting)
    (returns : PushesReturn setting) (accepted : setting.headerCheck (payload setting) ≠ 0)
    (insufficient : ¬ FirstReceiveSuffices setting) :
    ∃ state, (machine setting).Leads start state ∧ Deadlocked setting state := by
  have first := leads_first setting sized accepted
  have dispatched := dispatch_first setting sized returns
  by_cases plays : 12 < setting.first ∧
      setting.headerCheck ((payload setting).take (setting.first - 12)) ≠ 0
  · rw [if_pos plays] at dispatched
    have all : setting.first = controlBufferSize := by
      by_contra less
      exact insufficient ⟨plays.1, plays.2, Or.inl (Nat.lt_of_le_of_ne sized.most less)⟩
    have nothing : (head setting).drop setting.first = [] := by
      apply List.drop_eq_nil_of_le
      exact Nat.le_of_eq ((head_length setting sized.headSize).trans all.symm)
    rw [dispatched, nothing] at first
    refine ⟨⟨.finishing, .receiving ((setting.first - 12 - setting.headerCheck
      ((payload setting).take (setting.first - 12))) % setting.chunk), [], 0⟩, ?_, ?_⟩
    · apply (machine setting).leads_trans _ _ _ first
      cases rest : setting.file.drop (controlBufferSize - 12) with
      | nil =>
        exact (machine setting).leads_step _ _ .client trivial ((machine setting).leads_refl _)
      | cons byte bytes =>
        have longer : controlBufferSize - 12 < setting.file.length := by
          have more := congrArg List.length rest
          rw [List.length_drop, List.length_cons] at more
          omega
        have whole : (payload setting).take (setting.first - 12) = payload setting := by
          rw [all]
          exact List.take_of_length_le (Nat.le_of_eq (payload_length setting sized.headSize))
        have divides : setting.chunk ∣
            controlBufferSize - 12 - setting.headerCheck (payload setting) := by
          by_contra partly
          exact insufficient ⟨plays.1, plays.2, Or.inr ⟨longer, partly⟩⟩
        rw [whole, all, Nat.mod_eq_zero_of_dvd divides]
        exact plays_out setting returns sized.positive _ _ sized.chunkSize
    · refine stalled_deadlocked setting _ trivial rfl rfl ?_
      rintro count ⟨some, there, _⟩
      simp only [List.length_nil] at there
      omega
  · rw [if_neg plays] at dispatched
    rw [dispatched] at first
    obtain ⟨blocked, same, none⟩ := reading_blocks setting
      (setting.file.drop (controlBufferSize - 12)) setting.chunkBytes
      ((head setting).drop setting.first) .returned 0 rfl
    refine ⟨_, (machine setting).leads_trans _ _ _ first ((machine setting).leads_step _ _ .client
      trivial ((machine setting).leads_refl _)), ?_⟩
    refine stalled_deadlocked setting _ blocked (by rw [same]; rfl) none ?_
    rintro count ⟨_, _, accepts⟩
    rw [same] at accepts
    exact accepts

/-- Without a push that returns, no receive of the server is acknowledged. -/
theorem faulty_receive (setting : Setting) (faulty : ¬ PushesReturn setting) (state : Parties)
    (count : Nat) : (step setting state (.serverRecv count)).acks = state.acks := by
  simp only [step]
  split
  · rfl
  · split
    · rfl
    · next sound => exact absurd sound faulty
  · rfl
  · rfl

/-- If pushes do not return, the client soon waits for an acknowledgement that never comes. -/
theorem faulty_deadlocks (setting : Setting)
    (accepted : setting.headerCheck (payload setting) ≠ 0) (faulty : ¬ PushesReturn setting) :
    ∃ state, (machine setting).Leads start state ∧ Deadlocked setting state := by
  have unanswered (actions : List Action) (receives : ∀ action ∈ actions, IsServerRecv action)
      (state : Parties) : ((machine setting).after state actions).acks = state.acks := by
    induction actions generalizing state with
    | nil => rfl
    | cons action rest inductionHypothesis =>
      obtain ⟨count, rfl⟩ := receives action List.mem_cons_self
      have later := inductionHypothesis
        (fun other member => receives other (List.mem_cons_of_mem _ member))
        (step setting state (.serverRecv count))
      exact later.trans (faulty_receive setting faulty state count)
  have sent := head_sent setting accepted
  obtain ⟨blocked, same, none⟩ := reading_blocks setting
    (setting.file.drop (controlBufferSize - 12)) setting.chunkBytes (head setting) .listening 0 rfl
  refine ⟨(machine setting).step ((machine setting).step start .client) .client,
    (machine setting).leads_step _ _ .client trivial ((machine setting).leads_step _ _ .client
      (by rw [sent]; trivial) ((machine setting).leads_refl _)), ?_⟩
  rw [sent]
  exact ⟨blocked, by rw [same]; rfl, none, fun actions receives _ =>
    (unanswered actions receives _).trans none⟩

/-- The first loop keeps the pushes it has made. -/
theorem initial_keeps (headerSize chunk len bits fuel : Nat) (state final : Initial)
    (pushed : state.pushes ≠ [])
    (ran : (initialLoop headerSize chunk len bits).run fuel state = some final) :
    final.pushes ≠ [] := by
  induction fuel generalizing state with
  | zero => cases ran
  | succ fuel inductionHypothesis =>
    rw [Loop.run] at ran
    split at ran
    · exact inductionHypothesis _ (by simp [initialLoop]) ran
    · obtain rfl := Option.some.inj ran
      exact pushed

/-- The first loop pushes exactly if the message has a whole chunk. -/
theorem initial_pushes_iff (headerSize chunk len bits fuel length : Nat) (data : List UInt8)
    (final : Initial)
    (ran : (initialLoop headerSize chunk len bits).run fuel ⟨length, data, []⟩ = some final) :
    final.pushes ≠ [] ↔ chunk ≤ leftOver headerSize length := by
  cases fuel with
  | zero => cases ran
  | succ fuel =>
    rw [Loop.run] at ran
    by_cases whole : chunk ≤ leftOver headerSize length
    · have going : (initialLoop headerSize chunk len bits).condition ⟨length, data, []⟩ = true :=
        decide_eq_true whole
      rw [if_pos going] at ran
      exact iff_of_true (initial_keeps headerSize chunk len bits fuel _ final
        (by simp [initialLoop]) ran) whole
    · have ended : ¬ (initialLoop headerSize chunk len bits).condition
          ⟨length, data, []⟩ = true := by
        simpa [initialLoop] using whole
      rw [if_neg ended] at ran
      obtain rfl := Option.some.inj ran
      simp [whole]

/-- What connects the server of the exchange to the call of `cmd_wave`: where the server stops,
the call has the same fault with any fuel, and where it waits in its second loop, the call has
come that far with enough fuel. -/
theorem begin_wave_plays (setting : Setting) (sized : Sized setting) (data : List UInt8)
    (state : PushState) (small : data.length < 2 ^ 32)
    (accepted : setting.headerCheck data ≠ 0) :
    (∀ fault, beginWave setting data = .stopped fault → ∀ fuel,
      playWave setting.env setting.headerCheck setting.playback (fuel + 1) (some data) state =
        .error fault) ∧
    ∀ offset, beginWave setting data = .receiving offset → ∃ bound, ∀ fuel, bound < fuel →
      ∃ result, playWave setting.env setting.headerCheck setting.playback fuel (some data) state =
        .ok result := by
  by_cases silent : setting.format.channels = 0
  · have trapped : beginWave setting data = .stopped .zeroDivisor := by
      simp [beginWave, accepted, silent]
    rw [trapped]
    refine ⟨?_, by simp⟩
    rintro fault ⟨⟩ fuel
    simp [playWave, accepted, Setting.playback, silent]
  · obtain ⟨initial, ran, _, _, _⟩ := push_initial_cuts setting.headerCheck setting.chunk
      setting.format (data.length + 1) data sized.positive small (sized.within data)
      (Nat.lt_succ_self data.length)
    have silentIff := initial_pushes_iff _ _ _ _ _ _ _ _ ran
    have outcome : setting.pushed =
        verdict setting.env setting.playback.len setting.chlist.length setting.playback.bits :=
      if_neg silent
    have pushes : Pushes (setting.headerCheck data) setting.playback.chunk data.length
        setting.playback.received ↔ initial.pushes ≠ [] := by
      rw [silentIff]
      exact ⟨fun some => some.resolve_right (by rintro ⟨_, _, ⟨⟩, _⟩), Or.inl⟩
    simp only [beginWave, accepted, silent, if_false, ran]
    cases verdicts : setting.pushed with
    | error fault =>
      have faults := wave_faults setting.env setting.headerCheck setting.playback data state
      by_cases none : initial.pushes = []
      · simp only [none, if_true]
        refine ⟨fun _ impossible => Server.noConfusion impossible, fun offset _ => ⟨0, ?_⟩⟩
        intro fuel more
        obtain ⟨less, rfl⟩ := Nat.exists_eq_succ_of_ne_zero (Nat.ne_of_gt more)
        exact (faults less fault accepted silent (outcome ▸ verdicts)).2
          (fun some => pushes.mp some none)
      · simp only [none, if_false]
        refine ⟨?_, fun _ impossible => Server.noConfusion impossible⟩
        rintro stopped ⟨⟩ fuel
        exact (faults fuel fault accepted silent (outcome ▸ verdicts)).1 (pushes.mpr none)
    | ok =>
      refine ⟨fun _ impossible => Server.noConfusion impossible, fun offset _ =>
        ⟨2 ^ 31 + setting.playback.len + leftOver (setting.headerCheck data) data.length + 1, ?_⟩⟩
      intro fuel enough
      exact (wave_ends setting.env setting.headerCheck setting.playback data state fuel accepted
        silent (outcome ▸ verdicts) enough).1 sized.positive

/-- A file with the usual header, empty buffers, and a first receive of some size. -/
def referenceSetting (data : List UInt8) (chunk first : Nat) : Setting where
  env := referenceEnvironment
  file := referenceHeader ++ data
  headerCheck := referenceHeaderCheck
  format := referenceFormat
  chlist := [1, 2]
  chunk := chunk
  headBytes := List.replicate controlBufferSize 0
  chunkBytes := List.replicate chunk 0
  socketBuffer := fun _ => 0
  first := first

/-- The reference setting has the sizes it should. -/
theorem reference_sized (data : List UInt8) (chunk first : Nat) (positive : 0 < chunk)
    (some : 0 < first) (most : first ≤ controlBufferSize) :
    Sized (referenceSetting data chunk first) where
  within := by
    intro payload
    simp only [referenceSetting, referenceHeaderCheck]
    split
    · next header => exact header.1
    · exact Nat.zero_le _
  positive := positive
  headSize := List.length_replicate
  chunkSize := List.length_replicate
  some := some
  most := most

/-- The header check accepts the payload of the reference setting. -/
theorem reference_accepted (data : List UInt8) (chunk first : Nat) (positive : 0 < chunk)
    (some : 0 < first) (most : first ≤ controlBufferSize) :
    (referenceSetting data chunk first).headerCheck
      (payload (referenceSetting data chunk first)) = 44 := by
  have length := payload_length _
    (reference_sized data chunk first positive some most).headSize
  have letters : (payload (referenceSetting data chunk first)).take 4 = [82, 73, 70, 70] := rfl
  have accepts : 44 ≤ (payload (referenceSetting data chunk first)).length ∧
      (payload (referenceSetting data chunk first)).take 4 = [82, 73, 70, 70] := by
    refine ⟨?_, letters⟩
    rw [length]
    decide
  have opened : (referenceSetting data chunk first).headerCheck = referenceHeaderCheck := rfl
  rw [opened, referenceHeaderCheck, if_pos accepts]

end Castserver.Exchange
