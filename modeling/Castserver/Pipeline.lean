import Castserver.Audio
import Castserver.Transmission
import Castserver.Library.Simulations

/-!
# From the client's file to a speaker

The bytes of a file pass through the client's buffer, the socket, the receives of the
server, the chunks of `cmd_wave` and the datagrams of the pusher. No step on the way
loses or reorders any of them as long as the file consists of whole chunks and the pushes
return: what the server has received, what is on its way and what the client has not read yet
are the file. If the first receive takes the whole first message, every later one fills the
buffer and the sizes of the chunks fit the pusher, what a speaker of a file with one channel
is pushed is what the server has received, cut into chunks.
-/

namespace Castserver.Pipeline

open Dispatcher Pushwave Exchange Transmission
open Channels (Pcm Environment referenceEnvironment freshState)
open WaveEnds (Playback)
open WaveTask (Statics waveWork statics)
open Audio
open Playing (pushed)
open Library.Runs Library.Simulations Library.Slices

/-- The bytes that a receive of the server takes. -/
def arrivals (state : Parties) : Exchange.Action → List (List UInt8)
  | .serverRecv count => [state.toServer.take count]
  | _ => []

/-- What is still to reach the server: what is on its way and what the client has not
read yet. -/
def pending (setting : Setting) (state : Parties) : List UInt8 :=
  match state.client with
  | .starting => head setting ++ tail setting
  | client => state.toServer ++ unread client

/-- The client has whole chunks left to read, nothing is on its way before the first message,
and the server has not ended. -/
structure Whole (setting : Setting) (state : Parties) : Prop where
  runs : state.server.ended = false
  buffer : buffered setting.chunk state.client
  chunks : setting.chunk ∣ (unread state.client).length
  quiet : state.client = .starting → state.toServer = []

/-- Before the first receive, either nothing has been sent or the first message has. -/
def Unheard (setting : Setting) (state : Parties) : Prop :=
  state.server = .listening ∧
    (state.client = .starting ∧ state.toServer = [] ∨
      state.client ≠ .starting ∧ ∃ sent, state.toServer = head setting ++ sent)

/-- A file of whole chunks behind the first message, with a header that is accepted. -/
structure Playable (setting : Setting) : Prop where
  sized : Sized setting
  long : controlBufferSize - 12 ≤ setting.file.length
  divides : setting.chunk ∣ (tail setting).length
  accepted : setting.headerCheck (payload setting) ≠ 0

section Conservation

variable (setting : Setting) (playable : Playable setting) (returns : PushesReturn setting)

include returns in
/-- If pushes return, no message ends the server. -/
theorem dispatch_runs (message : List UInt8) : (dispatch setting message).ended = false := by
  have channels := returning_channels setting returns
  rw [PushesReturn] at returns
  unfold dispatch
  split
  · simp only [beginWave, returns, if_neg channels]
    split
    · rfl
    · split <;> rfl
  · rfl

include playable returns

/-- A step moves bytes on and loses none. -/
theorem step_conserves (state : Parties) (action : Exchange.Action)
    (whole : Whole setting state) (possible : Exchange.enabled setting state action) :
    (arrivals state action).flatten ++ pending setting (Exchange.step setting state action) =
        pending setting state ∧
      Whole setting (Exchange.step setting state action) := by
  obtain ⟨runs, buffer, chunks, quiet⟩ := whole
  obtain ⟨client, server, toServer, acks⟩ := state
  simp only at runs
  cases action with
  | client =>
    cases client with
    | starting =>
      have nothing : toServer = [] := quiet rfl
      simp only [Exchange.step, pipeInit, if_neg playable.accepted, nothing]
      exact ⟨rfl, runs, playable.sized.chunkSize, playable.divides, by rintro ⟨⟩⟩
    | reading rest buf =>
      cases rest with
      | nil => exact ⟨rfl, runs, trivial, Nat.dvd_zero _, by rintro ⟨⟩⟩
      | cons byte more =>
        have size : setting.chunk ≤ (byte :: more).length := Nat.le_of_dvd (by simp) chunks
        have full := fread_full setting.chunk (byte :: more) buf buffer size
        have sent := pipe_init_reading setting (byte :: more) buf toServer server acks
          (List.cons_ne_nil byte more) runs
        simp only [Exchange.step]
        rw [sent]
        refine ⟨?_, runs, fread_length setting.chunk (byte :: more) buf buffer, ?_, by rintro ⟨⟩⟩
        · simp only [arrivals, pending, unread, full, List.flatten_nil, List.nil_append,
            List.append_assoc, List.take_append_drop]
        · simp only [unread, List.length_drop]
          exact Nat.dvd_sub chunks (Nat.dvd_refl setting.chunk)
    | _ => exact possible.elim
  | clientRecv count =>
    cases client with
    | awaiting rest buf => exact ⟨rfl, runs, buffer, chunks, by rintro ⟨⟩⟩
    | finishing => exact ⟨rfl, runs, trivial, Nat.dvd_zero _, by rintro ⟨⟩⟩
    | _ => exact possible.1.elim
  | clientEof => cases runs.symm.trans possible.2.2
  | serverRecv count =>
    obtain ⟨some, there, accepts⟩ := possible
    have begun : client ≠ .starting := by
      intro same
      rw [quiet same, List.length_nil] at there
      omega
    have moved (next : Server) (acks : Nat) :
        toServer.take count ++ pending setting ⟨client, next, toServer.drop count, acks⟩ =
          pending setting ⟨client, server, toServer, acks⟩ := by
      cases client with
      | starting => exact absurd rfl begun
      | _ => simp only [pending, ← List.append_assoc, List.take_append_drop]
    cases server with
    | returned => exact accepts.elim
    | stopped fault => exact accepts.elim
    | listening =>
      simp only [arrivals, Exchange.step, List.flatten_singleton]
      exact ⟨moved _ _, dispatch_runs setting returns _, buffer, chunks,
        fun same => absurd same begun⟩
    | receiving offset =>
      rw [PushesReturn] at returns
      simp only [arrivals, Exchange.step, returns, List.flatten_singleton]
      exact ⟨moved _ _, rfl, buffer, chunks, fun same => absurd same begun⟩
  | serverEof => exact ⟨rfl, rfl, buffer, chunks, quiet⟩

/-- What the server has received in a run and what is still to reach it are what was to reach
it before the run. -/
theorem run_conserves (state : Parties) (actions : List Exchange.Action)
    (whole : Whole setting state)
    (admissible : (Exchange.machine setting).Admissible state actions) :
    (trace (Exchange.machine setting) arrivals state actions).flatten ++
        pending setting ((Exchange.machine setting).after state actions) =
      pending setting state := by
  induction actions generalizing state with
  | nil => rfl
  | cons action rest inductionHypothesis =>
    obtain ⟨possible, later⟩ := admissible
    obtain ⟨same, kept⟩ := step_conserves setting playable returns state action whole possible
    have carried := inductionHypothesis (Exchange.step setting state action) kept later
    rw [← same, ← carried, trace, List.flatten_append, List.append_assoc]
    rfl

end Conservation

section Receives

variable (setting : Setting)

/-- The client leaves the server where it stands. -/
theorem pipe_init_server (state : Parties) : (pipeInit setting state).server = state.server := by
  unfold pipeInit
  split
  · split <;> rfl
  · rfl
  · split <;> rfl
  · rfl

/-- The client's steps only add to what is on its way. -/
theorem pipe_init_sends (state : Parties) :
    ∃ sent, (pipeInit setting state).toServer = state.toServer ++ sent := by
  unfold pipeInit
  split
  · split
    · exact ⟨[], (List.append_nil _).symm⟩
    · exact ⟨head setting, rfl⟩
  · exact ⟨[], (List.append_nil _).symm⟩
  · split
    · exact ⟨[], (List.append_nil _).symm⟩
    · exact ⟨_, rfl⟩
  · exact ⟨[], (List.append_nil _).symm⟩

/-- Nothing arrives any more once the server waits in no receive. -/
theorem finished_arrivals (state : Parties) (actions : List Exchange.Action)
    (finished : ¬ state.server.Waits)
    (admissible : (Exchange.machine setting).Admissible state actions) :
    trace (Exchange.machine setting) arrivals state actions = [] := by
  induction actions generalizing state with
  | nil => rfl
  | cons action rest inductionHypothesis =>
    obtain ⟨possible, later⟩ := admissible
    have refused (count : Nat) : ¬ state.server.Accepts setting count := by
      intro accepts
      cases stage : state.server with
      | listening => exact finished (stage ▸ trivial)
      | receiving offset => exact finished (stage ▸ trivial)
      | _ =>
        rw [stage] at accepts
        exact accepts
    cases action with
    | client =>
      refine inductionHypothesis _ ?_ later
      rw [← pipe_init_server setting state] at finished
      exact finished
    | serverRecv count => exact absurd possible.2.2 (refused count)
    | clientRecv count => exact inductionHypothesis _ finished later
    | clientEof => exact inductionHypothesis _ finished later
    | serverEof => exact absurd possible.2.2 finished

/-- What arrives in the second loop of `cmd_wave` arrives in pieces of at most what was asked
for. -/
theorem receiving_splits (state : Parties) (offset : Nat) (actions : List Exchange.Action)
    (receiving : state.server = .receiving offset)
    (admissible : (Exchange.machine setting).Admissible state actions) :
    Splits setting.chunk offset (trace (Exchange.machine setting) arrivals state actions) := by
  induction actions generalizing state offset with
  | nil => trivial
  | cons action rest inductionHypothesis =>
    obtain ⟨possible, later⟩ := admissible
    cases action with
    | client =>
      exact inductionHypothesis _ offset ((pipe_init_server setting state).trans receiving) later
    | clientRecv count => exact inductionHypothesis _ offset receiving later
    | clientEof => exact inductionHypothesis _ offset receiving later
    | serverRecv count =>
      obtain ⟨some, there, accepts⟩ := possible
      rw [receiving] at accepts
      have size : (state.toServer.take count).length = count := by
        rw [List.length_take, Nat.min_eq_left there]
      refine ⟨by rw [size]; exact some, by rw [size]; exact accepts, ?_⟩
      cases outcome : setting.pushed with
      | ok =>
        apply inductionHypothesis _ 0 _ later
        show (Exchange.step setting state (.serverRecv count)).server = .receiving 0
        simp only [Exchange.step, receiving, outcome]
      | error fault =>
        have stopped : (Exchange.step setting state (.serverRecv count)).server =
            .stopped fault := by
          simp only [Exchange.step, receiving, outcome]
        have ended := finished_arrivals setting
          (Exchange.step setting state (.serverRecv count)) rest (by rw [stopped]; exact id) later
        show Splits setting.chunk 0 (trace (Exchange.machine setting) arrivals
          (Exchange.step setting state (.serverRecv count)) rest)
        rw [ended]
        trivial
    | serverEof =>
      have ended :=
        finished_arrivals setting (Exchange.step setting state .serverEof) rest id later
      simp only [trace, arrivals, List.nil_append]
      exact ended ▸ trivial

variable (sized : Sized setting) (returns : PushesReturn setting)
  (full : setting.first = controlBufferSize) (accepted : setting.headerCheck (payload setting) ≠ 0)

include sized returns full accepted

/-- The first receive takes the whole first message and starts the second loop. -/
theorem first_receive (state : Parties) (sent : List UInt8) (listening : state.server = .listening)
    (begins : state.toServer = head setting ++ sent) :
    state.toServer.take setting.first = head setting ∧
      (Exchange.step setting state (.serverRecv setting.first)).server =
        .receiving (((payload setting).length - setting.headerCheck (payload setting)) %
          setting.chunk) := by
  have length := head_length setting sized.headSize
  have size := payload_length setting sized.headSize
  have message : state.toServer.take setting.first = head setting := by
    rw [begins, full, ← length, List.take_left']
    rfl
  have front : (payload setting).take (setting.first - 12) = payload setting :=
    List.take_of_length_le (by rw [size, full])
  have dispatched := dispatch_first setting sized returns
  rw [← length] at full
  rw [full, List.take_length, ← full, front, if_pos ⟨by rw [full, length]; decide, accepted⟩]
    at dispatched
  refine ⟨message, ?_⟩
  simp only [Exchange.step, listening, message, dispatched]
  rw [size, full, length]

omit returns full in
/-- Until its first receive the server has not heard of the message. -/
theorem unheard_step (state : Parties) (action : Exchange.Action)
    (unheard : Unheard setting state) (possible : Exchange.enabled setting state action)
    (other : ¬ IsServerRecv action) : Unheard setting (Exchange.step setting state action) := by
  obtain ⟨listening, stage⟩ := unheard
  cases action with
  | client =>
    refine ⟨(pipe_init_server setting state).trans listening, Or.inr ?_⟩
    rcases stage with ⟨starting, quiet⟩ | ⟨begun, sent, begins⟩
    · simp only [Exchange.step, pipeInit, starting, if_neg accepted, quiet]
      exact ⟨by rintro ⟨⟩, [], by simp⟩
    · constructor
      · simp only [Exchange.step]
        unfold pipeInit
        cases client : state.client with
        | starting => exact absurd client begun
        | reading rest buf =>
          cases rest with
          | nil => simp
          | cons byte more =>
            simp only
            split <;> simp
        | _ => simp [client]
      · obtain ⟨more, adds⟩ := pipe_init_sends setting state
        exact ⟨sent ++ more, by simp only [Exchange.step]; rw [adds, begins, List.append_assoc]⟩
  | clientRecv count =>
    refine ⟨listening, ?_⟩
    rcases stage with ⟨starting, quiet⟩ | ⟨begun, begins⟩
    · have blocked := possible.1
      rw [starting] at blocked
      exact blocked.elim
    · refine Or.inr ⟨?_, begins⟩
      show state.client.acknowledged ≠ .starting
      cases client : state.client with
      | starting => exact absurd client begun
      | _ => simp [Client.acknowledged]
  | clientEof =>
    have ended := possible.2.2
    rw [listening] at ended
    cases ended
  | serverRecv count => exact absurd ⟨count, rfl⟩ other
  | serverEof =>
    obtain ⟨closed, empty, _⟩ := possible
    rcases stage with ⟨starting, _⟩ | ⟨_, sent, begins⟩
    · rw [starting] at closed
      cases closed
    · rw [begins] at empty
      have length := head_length setting sized.headSize
      rw [(List.append_eq_nil_iff.mp empty).1] at length
      exact absurd length (by decide)

/-- What arrives in a run is the first message and then pieces of at most what was asked
for. -/
theorem run_arrivals (state : Parties) (actions : List Exchange.Action)
    (unheard : Unheard setting state)
    (admissible : (Exchange.machine setting).Admissible state actions) :
    trace (Exchange.machine setting) arrivals state actions = [] ∨
      ∃ pieces, trace (Exchange.machine setting) arrivals state actions =
          head setting :: pieces ∧
        Splits setting.chunk
          (((payload setting).length - setting.headerCheck (payload setting)) % setting.chunk)
          pieces := by
  induction actions generalizing state with
  | nil => exact Or.inl rfl
  | cons action rest inductionHypothesis =>
    obtain ⟨possible, later⟩ := admissible
    by_cases receives : IsServerRecv action
    · right
      obtain ⟨count, rfl⟩ := receives
      obtain ⟨listening, stage⟩ := unheard
      obtain ⟨some, there, accepts⟩ := possible
      rw [listening] at accepts
      obtain rfl : count = setting.first := accepts
      rcases stage with ⟨_, quiet⟩ | ⟨_, sent, begins⟩
      · rw [quiet, List.length_nil] at there
        omega
      · obtain ⟨message, receiving⟩ :=
          first_receive setting sized returns full accepted state sent listening begins
        refine ⟨trace (Exchange.machine setting) arrivals
          (Exchange.step setting state (.serverRecv setting.first)) rest, ?_, ?_⟩
        · rw [trace, arrivals, message]
          rfl
        · exact receiving_splits setting _ _ rest receiving later
    · have silent : trace (Exchange.machine setting) arrivals state (action :: rest) =
          trace (Exchange.machine setting) arrivals (Exchange.step setting state action) rest := by
        cases action with
        | serverRecv count => exact absurd ⟨count, rfl⟩ receives
        | _ => rfl
      rw [silent]
      exact inductionHypothesis _
        (unheard_step setting sized accepted state action unheard possible receives) later

end Receives

/-- A second loop that waits for more has pushed what one that is left at this point has. -/
theorem waiting_pushes (len bits offset : Nat) (buffer : List UInt8) (pieces : List (List UInt8)) :
    receiveLoop len bits offset buffer (pieces.map Received.data) =
      receiveLoop len bits offset buffer (stream pieces) := by
  induction pieces generalizing offset buffer with
  | nil => simp [stream, receiveLoop, Received.len]
  | cons piece rest inductionHypothesis =>
    have streamed : stream (piece :: rest) = .data piece :: stream rest := rfl
    simp only [streamed, List.map_cons, receiveLoop, inductionHypothesis]

/-- What the server has received in a run, behind the header, and what is still to reach it, are
the file behind its header. What has arrived after the first message has arrived in pieces of at
most what was asked for. -/
theorem file_received (setting : Setting) (playable : Playable setting)
    (returns : PushesReturn setting) (full : setting.first = controlBufferSize)
    (actions : List Exchange.Action) (pieces : List (List UInt8))
    (admissible : (Exchange.machine setting).Admissible start actions)
    (arrived : trace (Exchange.machine setting) arrivals start actions = head setting :: pieces) :
    Splits setting.chunk
        (((payload setting).length - setting.headerCheck (payload setting)) % setting.chunk)
        pieces ∧
      ((payload setting).drop (setting.headerCheck (payload setting)) ++ pieces.flatten) ++
          pending setting ((Exchange.machine setting).after start actions) =
        setting.file.drop (setting.headerCheck (payload setting)) := by
  constructor
  · rcases run_arrivals setting playable.sized returns full playable.accepted start actions
        ⟨rfl, Or.inl ⟨rfl, rfl⟩⟩ admissible with none | ⟨others, same, splits⟩
    · rw [none] at arrived
      cases arrived
    · rw [same] at arrived
      exact (List.cons.inj arrived).2 ▸ splits
  · have conserved := run_conserves setting playable returns start actions
      ⟨rfl, trivial, Nat.dvd_zero _, fun _ => rfl⟩ admissible
    have whole : payload setting ++ tail setting = setting.file := by
      have front : payload setting = setting.file.take (controlBufferSize - 12) := by
        apply fread_full _ _ _ _ playable.long
        rw [List.length_drop, playable.sized.headSize]
      rw [front, tail, List.take_append_drop]
    have before : pending setting start = head setting ++ tail setting := rfl
    rw [arrived, List.flatten_cons, before, List.append_assoc,
      List.append_cancel_left_eq] at conserved
    rw [← whole, List.drop_append_of_le_length (playable.sized.within _), List.append_assoc,
      conserved]

/-- The call of `cmd_wave` for a setting, once some pieces have arrived. -/
def playback (setting : Setting) (allocated : List UInt8) (results : Nat → Int)
    (pieces : List (List UInt8)) : Playback where
  chunk := setting.chunk
  format := setting.format
  chlist := setting.chlist
  allocated := allocated
  results := results
  received := pieces.map .data

section Journey

variable (setting : Setting) (bits frames fuel : Nat) (allocated : List UInt8)
  (results : Nat → Int) (statics : Statics) (pieces : List (List UInt8))
  (plays : Plays setting.env setting.headerCheck (playback setting allocated results pieces) bits
    frames fuel (payload setting))

include plays

/-- The sizes of a call that plays let its pushes return. -/
theorem plays_return : PushesReturn setting := by
  obtain ⟨fits, rfl, channels, _, size, _⟩ := plays
  simp only [playback] at fits channels size
  have limited := fits.limited
  have len : setting.playback.len =
      frames * (setting.format.bitsPerSample / 8 % 256) := by
    rw [Playback.len, Setting.playback, perSampleChunkBytes, size, size_of_int _ (by omega)]
  have passes := assertions_pass setting.env _ frames setting.chlist fits
  rw [PushesReturn, Setting.pushed, if_neg channels, len]
  unfold WaveEnds.verdict
  split
  · next compiled =>
    rw [if_pos compiled] at passes
    exact passes
  · rw [if_neg]
    rintro ⟨_, stands⟩
    have positive := Nat.mul_pos fits.several fits.width
    have stride := fits.stride
    rw [Nat.mul_comm] at stands
    have exact := Nat.mod_eq_of_lt stride
    exact absurd (exact.symm.trans stands) (Nat.ne_of_gt positive)

/-- If every receive fills the buffer, a call has pushed the chunks of what has arrived. -/
theorem filled_pushes (small : setting.chunk < 2 ^ 32) (size : allocated.length = setting.chunk)
    (splits : Splits setting.chunk
      (((payload setting).length - setting.headerCheck (payload setting)) % setting.chunk) pieces)
    (filled : Filled setting.chunk
      (((payload setting).length - setting.headerCheck (payload setting)) % setting.chunk) pieces)
    (wave : Wave)
    (called : cmdWave setting.headerCheck setting.chunk setting.format allocated fuel
      (some (payload setting)) (pieces.map .data) = some wave) :
    wave.pushes.map PushCall.samples = slices setting.chunk
      ((payload setting).drop (setting.headerCheck (payload setting)) ++ pieces.flatten) := by
  have positive : 0 < setting.chunk := plays.positive
  obtain ⟨state, ran, cut, left, offset⟩ := push_initial_cuts setting.headerCheck setting.chunk
    setting.format fuel (payload setting) positive plays.small plays.within plays.enough
  have below : state.data.length < setting.chunk := by
    rw [left]
    exact Nat.mod_lt _ positive
  rw [← left] at splits filled
  have bufferSize : (state.data ++ allocated.drop state.data.length).length = setting.chunk := by
    rw [List.length_append, List.length_drop]
    omega
  rw [cmd_wave_ran setting.headerCheck setting.chunk setting.format allocated fuel
    (payload setting) _ state plays.accepted ran offset, waiting_pushes] at called
  rw [← Option.some.inj called, List.map_append, receive_filled _ _ _ _ _ pieces small below
    bufferSize splits filled, List.take_left' rfl]
  exact cut.chunks pieces.flatten

/-- If every receive fills the buffer, a call for one channel pushes to each of its speakers what
has arrived behind the header, cut into chunks. -/
theorem chunks_pushed (assumed : setting.env.pcm.Assumed) (mono : setting.format.channels = 1)
    (ch : Nat) (only : setting.chlist = [ch])
    (id : Nat) (list : List Nat) (channel : setting.env.speakerList ch = some list)
    (unique : list.Nodup) (listed : id ∈ list) (size : allocated.length = setting.chunk)
    (splits : Splits setting.chunk
      (((payload setting).length - setting.headerCheck (payload setting)) % setting.chunk) pieces)
    (filled : Filled setting.chunk
      (((payload setting).length - setting.headerCheck (payload setting)) % setting.chunk)
      pieces) :
    (pushed id (waveWork setting.env setting.headerCheck
        (playback setting allocated results pieces) fuel (some (payload setting))
        statics).units).map (List.drop setting.env.pcm.headerSize) =
      slices setting.chunk
        ((payload setting).drop (setting.headerCheck (payload setting)) ++ pieces.flatten) := by
  have chunk : setting.chunk = frames * bits := by
    have quotient := plays.size
    simp only [playback, mono, Nat.div_one] at quotient
    exact quotient
  have limited := plays.fits.limited
  obtain ⟨wave, called, sends, _⟩ := wave_sends setting.env assumed setting.headerCheck
    (playback setting allocated results pieces) bits frames fuel (payload setting) statics
    plays
  have cut := filled_pushes setting bits frames fuel allocated results pieces plays
    (by omega) size splits filled wave called
  rw [pushed_heard, sends, cut, playback, only]
  apply mono_heard setting.env bits frames ch id list _ _ plays.fits.width channel unique listed
  intro samples member
  rw [slices_full setting.chunk _ samples member, chunk]

/-- In every run of the exchange of a file with one channel, whose sizes fit, the bytes that a
speaker of the channel is pushed, the bytes on their way and the bytes that the client has not
read yet are the file behind its header, as long as the first receive takes the whole first
message and every receive of the second loop fills the buffer. -/
theorem file_reaches_speaker (assumed : setting.env.pcm.Assumed) (playable : Playable setting)
    (full : setting.first = controlBufferSize) (mono : setting.format.channels = 1)
    (ch : Nat) (only : setting.chlist = [ch])
    (id : Nat) (list : List Nat) (channel : setting.env.speakerList ch = some list)
    (unique : list.Nodup) (listed : id ∈ list) (size : allocated.length = setting.chunk)
    (actions : List Exchange.Action)
    (admissible : (Exchange.machine setting).Admissible start actions)
    (arrived : trace (Exchange.machine setting) arrivals start actions = head setting :: pieces)
    (filled : Filled setting.chunk
      (((payload setting).length - setting.headerCheck (payload setting)) % setting.chunk)
      pieces) :
    ∃ received,
      received ++ pending setting ((Exchange.machine setting).after start actions) =
        setting.file.drop (setting.headerCheck (payload setting)) ∧
      (pushed id (waveWork setting.env setting.headerCheck
          (playback setting allocated results pieces) fuel (some (payload setting))
          statics).units).map (List.drop setting.env.pcm.headerSize) =
        slices setting.chunk received := by
  obtain ⟨splits, conserved⟩ := file_received setting playable
    (plays_return setting bits frames fuel allocated results pieces plays) full actions pieces
    admissible arrived
  exact ⟨_, conserved, chunks_pushed setting bits frames fuel allocated results statics pieces
    plays assumed mono ch only id list channel unique listed size splits filled⟩

end Journey

/-- A file with one channel of two-byte samples, in chunks of four frames. -/
def monoSetting : Setting :=
  { referenceSetting (List.replicate 4056 1) 8 controlBufferSize with
    format := ⟨1, 44100, 16⟩
    chlist := [7] }

/-- The header of the file. -/
theorem mono_header : monoSetting.headerCheck (payload monoSetting) = 44 := by
  have checked := reference_accepted (List.replicate 4056 1) 8 controlBufferSize (by decide)
    (by decide) (Nat.le_refl _)
  simp only [payload, monoSetting] at checked ⊢
  exact checked

/-- The file has its sizes, and two chunks behind the first message. -/
theorem mono_playable : Playable monoSetting where
  sized := by
    have sized := reference_sized (List.replicate 4056 1) 8 controlBufferSize (by decide)
      (by decide) (Nat.le_refl _)
    exact ⟨sized.within, sized.positive, sized.headSize, sized.chunkSize, sized.some, sized.most⟩
  long := by
    simp only [monoSetting, referenceSetting, List.length_append, List.length_replicate]
    decide
  divides := by
    simp only [tail, monoSetting, referenceSetting, List.length_drop, List.length_append,
      List.length_replicate]
    decide
  accepted := by
    rw [mono_header]
    decide

/-- The call that plays the first message of the file. -/
theorem mono_plays : Plays referenceEnvironment monoSetting.headerCheck
    (playback monoSetting (List.replicate 8 0) (fun _ => 0) []) 2 4 5000
    (payload monoSetting) where
  fits := ⟨by decide, by decide, by decide, by decide, by decide, by decide, nofun⟩
  sampleBytes := rfl
  channels := by decide
  positive := by decide
  size := rfl
  accepted := mono_playable.accepted
  within := mono_playable.sized.within _
  small := by
    rw [payload_length _ mono_playable.sized.headSize]
    decide
  enough := by
    rw [payload_length _ mono_playable.sized.headSize]
    decide
  rounds := by decide

/-- The client sends the first message, and the server receives all of it at once. -/
theorem first_message_arrives :
    (Exchange.machine monoSetting).Admissible start
        [.client, .serverRecv controlBufferSize] ∧
      trace (Exchange.machine monoSetting) arrivals start
        [.client, .serverRecv controlBufferSize] = [head monoSetting] := by
  have sent : Exchange.step monoSetting start .client =
      { start with
        client := .reading (tail monoSetting) monoSetting.chunkBytes
        toServer := head monoSetting } := by
    simp only [Exchange.step, pipeInit, start, if_neg mono_playable.accepted, List.nil_append]
    rfl
  have length := head_length monoSetting mono_playable.sized.headSize
  have possible : Exchange.enabled monoSetting (Exchange.step monoSetting start .client)
      (.serverRecv controlBufferSize) := by
    rw [sent]
    exact ⟨by decide, Nat.le_of_eq length.symm, rfl⟩
  have taken : (Exchange.step monoSetting start .client).toServer.take controlBufferSize =
      head monoSetting := by
    rw [sent, ← length, List.take_length]
  exact ⟨⟨trivial, possible, trivial⟩, congrArg (fun message => [message]) taken⟩

/-- Once the first message has been received, the speaker 7 has been sent its chunks. -/
theorem first_message_reaches_speaker :
    ∃ received,
      received ++ pending monoSetting ((Exchange.machine monoSetting).after start
        [.client, .serverRecv controlBufferSize]) = monoSetting.file.drop 44 ∧
      (pushed 7 (waveWork referenceEnvironment monoSetting.headerCheck
          (playback monoSetting (List.replicate 8 0) (fun _ => 0) []) 5000
          (some (payload monoSetting)) (statics freshState)).units).map (List.drop 4) =
        slices 8 received := by
  have journey := file_reaches_speaker monoSetting 2 4 5000
    (List.replicate 8 0) (fun _ => 0) (statics freshState) [] mono_plays Pcm.reference_assumed
    mono_playable rfl rfl 7 rfl 7 [7] rfl (List.nodup_singleton 7) (List.mem_singleton_self 7) rfl
    [.client, .serverRecv controlBufferSize] first_message_arrives.1 first_message_arrives.2
    trivial
  rw [mono_header] at journey
  exact journey

end Castserver.Pipeline
