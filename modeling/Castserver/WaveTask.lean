import Castserver.WaveEnds
import Castserver.Library.Tasks

/-!
# The work of the control thread

While `cmd_wave` plays a file, the other threads change the records of speakers between
any two datagrams. Apart from the speakers that `get_speaker_list` gives for a channel, what
`cmd_wave` does next does not depend on the records: its control flow reads the message, the
format and the static variables of the pusher. The source asks for the list again at every
push; under the assumption that its answer for a channel stays the same throughout a call, a
call is a task, whose units are a format broadcast and single datagrams, and the sequential
functions are that task performed without interruption.
-/

namespace Castserver.WaveTask

open Speakers Pusher Control Detect Service Pushwave Channels WaveEnds
open Library.Runs Library.Loops Library.Tasks

/-- The static variables of the pusher that only the control thread uses. -/
structure Statics where
  packageSeq : Int
  channelBuffer : Memory

/-- Some work of the control thread. -/
abbrev Work (Result : Type) := Task Action Fault Result

/-- Send the front of the buffer to listed speakers, each time with a header encoded. -/
def pushList (env : Environment) (ch len : Nat) : List Nat → Statics → Work Statics
  | [], statics => .done statics
  | id :: rest, statics =>
    let buf := env.pcm.pcmHeaderEncode statics.channelBuffer
    .after (.push id (front buf len) (env.results ch id))
      (pushList env ch len rest { statics with channelBuffer := buf })

/-- The work of `server_sppush_push_channel`. -/
def pushChannelWork (env : Environment) (ch len : Nat) (statics : Statics) : Work Statics :=
  let packageSeq :=
    if (BitVec.ofInt 16 statics.packageSeq).toInt = -1 then 1 else statics.packageSeq + 1
  let statics := { statics with packageSeq := packageSeq }
  match env.speakerList ch with
  | none => .done statics
  | some list => pushList env ch len list statics

/-- The work of the loop over the channels in `server_sppush_push`. -/
def pushChannelsWork (env : Environment) (fuel : Nat) (samples : Around)
    (len bits step : Nat) : List Nat → Nat → Statics → Work Statics
  | [], _, statics => .done statics
  | ch :: rest, i, statics =>
    match (gatherLoop env.pcm samples ((len : Int) - bits) bits step).run fuel
      ⟨statics.channelBuffer, firstSample bits i, env.pcm.headerSize⟩ with
    | none => .fail .fuel
    | some gathered =>
      (pushChannelWork env ch (len + env.pcm.headerSize)
        { statics with channelBuffer := gathered.buffer }).andThen
        (pushChannelsWork env fuel samples len bits step rest (i + 1))

/-- The work of one call of `server_sppush_push`. -/
def pushWork (env : Environment) (fuel : Nat) (chlist : List Nat) (call : PushCall)
    (statics : Statics) : Work Statics :=
  match if env.asserts then
      assertions env call.len chlist.length (UInt8.ofNat call.bits).toNat else .ok () with
  | .error fault => .fail fault
  | .ok () =>
    pushChannelsWork env fuel (samplesOf env.around call.samples) call.len
      (UInt8.ofNat call.bits).toNat ((UInt8.ofNat call.bits).toNat * chlist.length % 2 ^ 32)
      chlist 0 statics

/-- The work of the first loop of `cmd_wave`. -/
def initialWork (env : Environment) (pushFuel : Nat) (chlist : List Nat)
    (headerSize chunk len bits : Nat) :
    Nat → Nat → List UInt8 → Statics → Work (Nat × List UInt8 × Statics)
  | 0, _, _, _ => .fail .fuel
  | fuel + 1, length, data, statics =>
    if chunk ≤ leftOver headerSize length then
      (pushWork env pushFuel chlist ⟨data.take chunk, len, bits⟩ statics).andThen
        (initialWork env pushFuel chlist headerSize chunk len bits fuel
          (sizeT ((length : Int) - chunk)) (data.drop chunk))
    else .done (length, data, statics)

/-- The work of the second loop of `cmd_wave`. -/
def receivedWork (env : Environment) (pushFuel : Nat) (chlist : List Nat) (len bits : Nat) :
    Nat → List UInt8 → List Received → Statics → Work Statics
  | _, _, [], statics => .done statics
  | offset, buffer, received :: rest, statics =>
    if 0 < received.len then
      let buffer := overwrite buffer offset received.bytes
      (pushWork env pushFuel chlist ⟨buffer, len, bits⟩ statics).andThen
        (receivedWork env pushFuel chlist len bits 0 buffer rest)
    else .done statics

/-- The work of a call of `cmd_wave`: a format broadcast, and the datagrams of its two
loops, to the speakers that the environment lists throughout the call. -/
def waveWork (env : Environment) (headerCheck : List UInt8 → Nat) (playback : Playback)
    (fuel : Nat) (arg : Option (List UInt8)) (statics : Statics) : Work (Statics × Int) :=
  match arg with
  | none => .done (statics, 1)
  | some payload =>
    let headerSize := headerCheck payload
    if headerSize = 0 then .done (statics, 1)
    else if playback.format.channels = 0 then .fail .zeroDivisor
    else
      let len := perSampleChunkBytes playback.chunk playback.format.channels
      let bits := playback.format.bitsPerSample / 8 % 256
      .after (.format playback.format.samplesPerSec playback.format.bitsPerSample
          playback.results)
        ((initialWork env fuel playback.chlist headerSize playback.chunk len bits fuel
          payload.length (payload.drop headerSize) statics).andThen fun (length, data, statics) =>
            let offset := leftOver headerSize length
            let buffer := data.take offset ++ playback.allocated.drop offset
            (receivedWork env fuel playback.chlist len bits offset buffer playback.received
              statics).andThen fun statics => .done (statics, 0))

/-- The static variables in a state of the pusher. -/
def statics (state : PushState) : Statics := ⟨state.packageSeq, state.channelBuffer⟩

/-- The state of the pusher from a server and the static variables. -/
def join (server : Server) (statics : Statics) : PushState :=
  ⟨statics.packageSeq, statics.channelBuffer, server⟩

@[simp] theorem join_server (server : Server) (statics : Statics) :
    (join server statics).server = server := rfl

@[simp] theorem statics_join (server : Server) (parts : Statics) :
    statics (join server parts) = parts := rfl

section Performing

variable (env : Environment) (settings : Settings) (shared : settings.readFd = env.readFd)

include shared

/-- Sending to listed speakers is its work performed. -/
theorem push_list_performed (ch len : Nat) (list : List Nat) (state : PushState) :
    (pushList env ch len list (statics state)).perform (machine env.common settings)
        state.server =
      .ok ((list.foldl (fun state id =>
          let buf := env.pcm.pcmHeaderEncode state.channelBuffer
          { state with
            channelBuffer := buf
            server := pushSpeaker env.common env.readFd id (front buf len) (env.results ch id)
              state.server }) state).server,
        statics (list.foldl (fun state id =>
          let buf := env.pcm.pcmHeaderEncode state.channelBuffer
          { state with
            channelBuffer := buf
            server := pushSpeaker env.common env.readFd id (front buf len) (env.results ch id)
              state.server }) state)) := by
  induction list generalizing state with
  | nil => rfl
  | cons id rest inductionHypothesis =>
    rw [List.foldl_cons, ← inductionHypothesis]
    simp only [pushList, Task.perform_after, machine, step, shared]
    rfl

/-- Sending one buffer to a channel is its work performed. -/
theorem push_channel_performed (ch len : Nat) (state : PushState) :
    (pushChannelWork env ch len (statics state)).perform (machine env.common settings)
        state.server =
      .ok ((serverSppushPushChannel env ch len state).server,
        statics (serverSppushPushChannel env ch len state)) := by
  unfold pushChannelWork serverSppushPushChannel
  cases env.speakerList ch with
  | none => rfl
  | some list =>
    exact push_list_performed env settings shared ch len list { state with packageSeq := _ }

/-- The loop over the channels is its work performed. -/
theorem push_channels_performed (fuel : Nat) (samples : Around) (len bits step : Nat)
    (chlist : List Nat) (i : Nat) (state : PushState) :
    ((pushChannelsWork env fuel samples len bits step chlist i (statics state)).perform
        (machine env.common settings) state.server).map (fun reached => join reached.1 reached.2) =
      (match pushChannels env fuel samples len bits step chlist i state with
        | .error fault => .error fault
        | .ok (state, _) => .ok state) := by
  induction chlist generalizing i state with
  | nil => rfl
  | cons ch rest inductionHypothesis =>
    simp only [pushChannelsWork, pushChannels, statics]
    cases (gatherLoop env.pcm samples ((len : Int) - bits) bits step).run fuel
      ⟨state.channelBuffer, firstSample bits i, env.pcm.headerSize⟩ with
    | none => rfl
    | some gathered =>
      have sent := push_channel_performed env settings shared ch (len + env.pcm.headerSize)
        { state with channelBuffer := gathered.buffer }
      simp only [statics] at sent inductionHypothesis
      simp only [Task.perform_and_then, sent, Except.bind]
      rw [inductionHypothesis (i + 1)]
      cases pushChannels env fuel samples len bits step rest (i + 1)
        (serverSppushPushChannel env ch (len + env.pcm.headerSize)
          { state with channelBuffer := gathered.buffer }) <;> rfl

/-- A call of `server_sppush_push` is its work performed. -/
theorem push_performed (fuel : Nat) (chlist : List Nat) (call : PushCall) (state : PushState) :
    pushNow env fuel chlist call state =
      ((pushWork env fuel chlist call (statics state)).perform (machine env.common settings)
        state.server).map (fun reached => join reached.1 reached.2) := by
  unfold pushNow serverSppushPush pushWork
  cases if env.asserts then assertions env call.len chlist.length (UInt8.ofNat call.bits).toNat
    else .ok () with
  | error fault => rfl
  | ok _ =>
    exact (push_channels_performed env settings shared fuel (samplesOf env.around call.samples)
      call.len _ ((UInt8.ofNat call.bits).toNat * chlist.length % 2 ^ 32) chlist 0 state).symm

/-- The first loop of `cmd_wave` is its work performed. -/
theorem initial_performed (pushFuel : Nat) (chlist : List Nat)
    (headerSize chunk len bits fuel length : Nat) (data : List UInt8) (state : PushState) :
    playInitial env pushFuel chlist headerSize chunk len bits fuel length data state =
      ((initialWork env pushFuel chlist headerSize chunk len bits fuel length data
        (statics state)).perform (machine env.common settings) state.server).map
          (fun reached => (reached.2.1, reached.2.2.1, join reached.1 reached.2.2.2)) := by
  induction fuel generalizing length data state with
  | zero => rfl
  | succ fuel inductionHypothesis =>
    by_cases whole : chunk ≤ leftOver headerSize length
    · simp only [playInitial, initialWork, if_pos whole,
        push_performed env settings shared pushFuel chlist, Task.perform_and_then]
      cases (pushWork env pushFuel chlist ⟨data.take chunk, len, bits⟩ (statics state)).perform
        (machine env.common settings) state.server with
      | error fault => rfl
      | ok reached => exact inductionHypothesis _ _ (join reached.1 reached.2)
    · simp only [playInitial, initialWork, if_neg whole, Task.perform_done]
      rfl

/-- The second loop of `cmd_wave` is its work performed. -/
theorem received_performed (pushFuel : Nat) (chlist : List Nat) (len bits offset : Nat)
    (buffer : List UInt8) (received : List Received) (state : PushState) :
    playReceived env pushFuel chlist len bits offset buffer received state =
      ((receivedWork env pushFuel chlist len bits offset buffer received
        (statics state)).perform (machine env.common settings) state.server).map
          (fun reached => join reached.1 reached.2) := by
  induction received generalizing offset buffer state with
  | nil => rfl
  | cons first rest inductionHypothesis =>
    by_cases positive : 0 < first.len
    · simp only [playReceived, receivedWork, if_pos positive,
        push_performed env settings shared pushFuel chlist, Task.perform_and_then]
      cases (pushWork env pushFuel chlist ⟨overwrite buffer offset first.bytes, len, bits⟩
        (statics state)).perform (machine env.common settings) state.server with
      | error fault => rfl
      | ok reached => exact inductionHypothesis 0 _ (join reached.1 reached.2)
    · simp only [playReceived, receivedWork, if_neg positive, Task.perform_done]
      rfl

/-- The second half of a call of `cmd_wave`, behind the first loop, is its work performed. -/
theorem rest_performed (fuel headerSize len bits : Nat) (playback : Playback)
    (performed : Except Fault (Server × Nat × List UInt8 × Statics)) :
    (match performed.map
        (fun reached => (reached.2.1, reached.2.2.1, join reached.1 reached.2.2.2)) with
      | .error fault => .error fault
      | .ok (length, data, state) =>
        match playReceived env fuel playback.chlist len bits (leftOver headerSize length)
          (data.take (leftOver headerSize length) ++
            playback.allocated.drop (leftOver headerSize length)) playback.received state with
        | .error fault => .error fault
        | .ok state => .ok (state, (0 : Int))) =
      (performed.bind fun reached =>
        (((receivedWork env fuel playback.chlist len bits (leftOver headerSize reached.2.1)
          (reached.2.2.1.take (leftOver headerSize reached.2.1) ++
            playback.allocated.drop (leftOver headerSize reached.2.1)) playback.received
          reached.2.2.2).perform (machine env.common settings) reached.1).bind fun later =>
            .ok (later.1, (later.2, (0 : Int))))).map
        (fun reached => (join reached.1 reached.2.1, reached.2.2)) := by
  cases performed with
  | error fault => rfl
  | ok reached =>
    simp only [Except.map, Except.bind, received_performed env settings shared, join_server,
      statics_join]
    cases Task.perform (machine env.common settings) reached.1
      (receivedWork env fuel playback.chlist len bits (leftOver headerSize reached.2.1)
        (reached.2.2.1.take (leftOver headerSize reached.2.1) ++
          playback.allocated.drop (leftOver headerSize reached.2.1)) playback.received
        reached.2.2.2) <;> rfl

end Performing

/-- The broadcast with which a call of `cmd_wave` begins, entered in the history, if the call
accepts its message. -/
def entered (headerCheck : List UInt8 → Nat) (playback : Playback) (arg : Option (List UInt8))
    (server : Server) : Server :=
  match arg with
  | none => server
  | some payload =>
    if headerCheck payload = 0 then server
    else note (.format playback.format.samplesPerSec playback.format.bitsPerSample) server

end Castserver.WaveTask
