import Castserver.Playing

/-!
# From a file to the datagrams

The datagrams of a call of `cmd_wave` carry what the static buffer of the pusher holds
when they are sent. A byte of a payload is a sample of the chunk if the gathering loop
of the channel reached its frame, and otherwise the byte in its place in the datagrams
before: of the channel before it, or of the chunk before it. With one channel every
byte is reached, and what a speaker is sent is the file, as far as it was received.
-/

namespace Castserver.Audio

open Speakers Pusher Control Detect Service Pushwave Channels WaveEnds WaveTask
open Playing (pushed)
open Library.Runs Library.Loops Library.Slices Library.Tasks

/-- What the payload of the static buffer holds: the bytes of its frames. -/
abbrev Content := Nat → Nat → UInt8

/-- What a buffer holds behind the header. -/
def contentOf (pcm : Pcm) (bits : Nat) (buffer : Memory) : Content :=
  fun k j => buffer (pcm.headerSize + k * bits + j)

/-- The payload of a datagram that carries some content. -/
def payloadOf (bits frames : Nat) (content : Content) : List UInt8 :=
  (List.range (frames * bits)).map fun m => content (m / bits) (m % bits)

/-- The datagrams of the channels from an index on: each speaker of a channel is sent what
has been gathered up to the channel. -/
def channelDatagrams (env : Environment) (bits frames channels : Nat) (content : Content)
    (samples : List UInt8) : List Nat → Nat → List (Nat × List UInt8)
  | [], _ => []
  | ch :: rest, i =>
    ((env.speakerList ch).getD []).map (fun id => (id, payloadOf bits frames
      (contentBefore (samplesOf env.around samples) bits frames channels content (i + 1)))) ++
      channelDatagrams env bits frames channels content samples rest (i + 1)

/-- The datagrams of some chunks, each gathered over what the one before left behind. -/
def chunkDatagrams (env : Environment) (bits frames : Nat) (chlist : List Nat) :
    Content → List (List UInt8) → List (Nat × List UInt8)
  | _, [] => []
  | content, samples :: rest =>
    channelDatagrams env bits frames chlist.length content samples chlist 0 ++
      chunkDatagrams env bits frames chlist
        (contentBefore (samplesOf env.around samples) bits frames chlist.length content
          chlist.length) rest

/-- What some chunks leave behind in the buffer. -/
def contentAfter (around : Around) (bits frames channels : Nat) (content : Content)
    (chunks : List (List UInt8)) : Content :=
  chunks.foldl (fun content samples =>
    contentBefore (samplesOf around samples) bits frames channels content channels) content

/-- A unit as a datagram: the speaker it is for and its payload. -/
def datagram (headerSize : Nat) : Service.Action → Option (Nat × List UInt8)
  | .push id package _ => some (id, package.drop headerSize)
  | _ => none

/-- The datagrams among some units of work. -/
def datagrams (headerSize : Nat) (units : List Service.Action) : List (Nat × List UInt8) :=
  units.filterMap (datagram headerSize)

/-- A task ends with the static variables, after datagrams, and leaves a content behind. -/
structure Sends (pcm : Pcm) (bits : Nat) (task : Work Statics)
    (expected : List (Nat × List UInt8)) (content : Content) : Prop where
  sent : datagrams pcm.headerSize task.units = expected
  ends : ∃ statics, task.result = .ok statics ∧ Holds pcm bits statics.channelBuffer content

section Sending

variable (env : Environment) (assumed : env.pcm.Assumed) (bits frames : Nat)

/-- Work in a row sends its datagrams in a row. -/
theorem sends_and_then (first : Work Statics) (next : Statics → Work Statics)
    (before after : List (Nat × List UInt8)) (middle final : Content)
    (sends : Sends env.pcm bits first before middle)
    (later : ∀ statics, Holds env.pcm bits statics.channelBuffer middle →
      Sends env.pcm bits (next statics) after final) :
    Sends env.pcm bits (first.andThen next) (before ++ after) final := by
  obtain ⟨statics, reached, holds⟩ := sends.ends
  obtain ⟨sent, ends⟩ := later statics holds
  rw [Task.and_then_reached first next statics reached]
  refine ⟨?_, ends⟩
  rw [datagrams, List.filterMap_append]
  exact congrArg₂ (· ++ ·) sends.sent sent

/-- The payload of the front of a buffer is what it holds. -/
theorem front_payload (buffer : Memory) (content : Content) (width : 0 < bits)
    (holds : Holds env.pcm bits buffer content) :
    (front buffer (frames * bits + env.pcm.headerSize)).drop env.pcm.headerSize =
      payloadOf bits frames content := by
  apply List.ext_getElem?
  intro m
  rw [List.getElem?_drop]
  by_cases inside : m < frames * bits
  · have split : m / bits * bits + m % bits = m := Nat.div_add_mod' m bits
    have byte := holds (m / bits) (m % bits) (Nat.mod_lt m width)
    rw [Nat.add_assoc, split] at byte
    rw [front_get buffer _ _ (by omega), byte]
    simp [payloadOf, inside]
  · rw [List.getElem?_eq_none (by simp [front]; omega),
      List.getElem?_eq_none (by simp [payloadOf]; omega)]

include assumed

/-- Encoding a header leaves what a buffer holds. -/
theorem encode_holds (buffer : Memory) (content : Content)
    (holds : Holds env.pcm bits buffer content) :
    Holds env.pcm bits (env.pcm.pcmHeaderEncode buffer) content := by
  intro k j within
  rw [assumed.encodes buffer _ (by omega)]
  exact holds k j within

/-- Every listed speaker is sent what the buffer holds. -/
theorem push_list_sends (ch : Nat) (list : List Nat) (statics : Statics) (content : Content)
    (width : 0 < bits) (holds : Holds env.pcm bits statics.channelBuffer content) :
    Sends env.pcm bits (pushList env ch (frames * bits + env.pcm.headerSize) list statics)
      (list.map fun id => (id, payloadOf bits frames content)) content := by
  induction list generalizing statics with
  | nil => exact ⟨rfl, statics, rfl, holds⟩
  | cons id rest inductionHypothesis =>
    have encoded := encode_holds env assumed bits statics.channelBuffer content holds
    obtain ⟨sent, ends⟩ := inductionHypothesis
      { statics with channelBuffer := env.pcm.pcmHeaderEncode statics.channelBuffer } encoded
    refine ⟨?_, ends⟩
    have payload := front_payload env bits frames _ content width encoded
    simp only [pushList, Task.after, datagrams, List.filterMap_cons, datagram, payload,
      List.map_cons]
    exact congrArg _ sent

/-- Every speaker of a channel is sent what the buffer holds. -/
theorem push_channel_sends (ch : Nat) (statics : Statics) (content : Content) (width : 0 < bits)
    (holds : Holds env.pcm bits statics.channelBuffer content) :
    Sends env.pcm bits (pushChannelWork env ch (frames * bits + env.pcm.headerSize) statics)
      (((env.speakerList ch).getD []).map fun id => (id, payloadOf bits frames content))
      content := by
  unfold pushChannelWork
  cases env.speakerList ch with
  | none => exact ⟨rfl, _, rfl, holds⟩
  | some list => exact push_list_sends env assumed bits frames ch list _ content width holds

/-- Each channel is sent what has been gathered up to it. -/
theorem push_channels_sends (fuel channels step : Nat) (content : Content)
    (samples : List UInt8) (chlist : List Nat) (i : Nat) (statics : Statics) (width : 0 < bits)
    (several : 0 < channels) (stride : 0 < frames → step = bits * channels)
    (begins : ∀ m < i + chlist.length, firstSample bits m = (m * bits : Nat))
    (enough : frames * bits < fuel)
    (holds : Holds env.pcm bits statics.channelBuffer
      (contentBefore (samplesOf env.around samples) bits frames channels content i)) :
    Sends env.pcm bits
      (pushChannelsWork env fuel (samplesOf env.around samples) (frames * bits) bits step chlist i
        statics)
      (channelDatagrams env bits frames channels content samples chlist i)
      (contentBefore (samplesOf env.around samples) bits frames channels content
        (i + chlist.length)) := by
  induction chlist generalizing i statics with
  | nil => exact ⟨rfl, statics, rfl, holds⟩
  | cons ch rest inductionHypothesis =>
    obtain ⟨gathered, ran, held⟩ := gather_channel assumed.copies (samplesOf env.around samples)
      bits frames channels i step fuel _ statics.channelBuffer width several stride
      (begins i (Nat.lt_add_of_pos_right (Nat.succ_pos rest.length))) holds enough
    simp only [pushChannelsWork, ran]
    apply sends_and_then env bits _ _ _ _ _ _ (push_channel_sends env assumed bits frames ch
      { statics with channelBuffer := gathered.buffer } _ width held)
    intro later afterwards
    rw [List.length_cons, Nat.add_comm rest.length, ← Nat.add_assoc]
    refine inductionHypothesis (i + 1) later ?_ afterwards
    intro m below
    exact begins m (by rw [List.length_cons]; omega)

end Sending

/-- The sizes of a push that goes through: one sample of every channel for whole frames, in
a datagram that fits into the buffer and the network, and past the compiled-in assertions. -/
structure Fits (env : Environment) (channels bits frames : Nat) : Prop where
  several : 0 < channels
  width : 0 < bits
  byte : bits < 256
  inside : (channels - 1) * bits < 2 ^ 31
  limited : env.pcm.headerSize + frames * bits < 1500
  packet : frames * bits / channels < env.configMtu
  whole : env.asserts = true → channels ∣ frames

/-- In a push that fits, the stride of the copy loop is exact. -/
theorem Fits.stride {env : Environment} {channels bits frames : Nat}
    (fits : Fits env channels bits frames) : channels * bits < 2 ^ 32 := by
  obtain ⟨last, rfl⟩ := Nat.exists_eq_add_of_lt fits.several
  have byte := fits.byte
  have inside := fits.inside
  rw [Nat.zero_add, Nat.add_sub_cancel] at inside
  rw [Nat.zero_add, Nat.succ_mul]
  omega

/-- In a push that fits, every channel starts at its sample of the first frame. -/
theorem Fits.begins {env : Environment} {channels bits frames : Nat}
    (fits : Fits env channels bits frames) (m : Nat) (below : m < channels) :
    firstSample bits m = (m * bits : Nat) := by
  apply first_sample_within
  exact Nat.lt_of_le_of_lt (Nat.mul_le_mul_right bits (Nat.le_sub_one_of_lt below)) fits.inside

section Chunks

variable (env : Environment) (assumed : env.pcm.Assumed) (bits frames fuel : Nat)
  (chlist : List Nat) (fits : Fits env chlist.length bits frames)
  (enough : frames * bits < fuel)

/-- A push that fits passes its assertions. -/
theorem assertions_pass (fits : Fits env chlist.length bits frames) :
    (if env.asserts then assertions env (frames * bits) chlist.length bits else .ok ()) =
      .ok () := by
  cases compiled : env.asserts with
  | false => rfl
  | true =>
    have positive : 0 < chlist.length * bits := Nat.mul_pos fits.several fits.width
    have limited := fits.limited
    have exact : chlist.length * bits % 2 ^ 32 = chlist.length * bits :=
      Nat.mod_eq_of_lt fits.stride
    have multiple : frames * bits % (chlist.length * bits) = 0 :=
      Nat.mod_eq_zero_of_dvd (Nat.mul_dvd_mul_right (fits.whole compiled) bits)
    simp only [assertions, exact, if_true]
    rw [if_neg (by omega), if_neg (by omega), if_neg (by omega),
      if_neg (Nat.ne_of_gt fits.several), if_neg (Nat.not_le.mpr fits.packet)]

/-- Datagrams of some chunks and of others behind them. -/
theorem chunk_datagrams_append (content : Content) (first second : List (List UInt8)) :
    chunkDatagrams env bits frames chlist content (first ++ second) =
      chunkDatagrams env bits frames chlist content first ++
        chunkDatagrams env bits frames chlist
          (contentAfter env.around bits frames chlist.length content first) second := by
  induction first generalizing content with
  | nil => rfl
  | cons samples rest inductionHypothesis =>
    rw [List.cons_append, chunkDatagrams, chunkDatagrams, inductionHypothesis,
      List.append_assoc]
    rfl

include assumed fits enough

/-- A push sends each channel what has been gathered up to it. -/
theorem push_sends (samples : List UInt8) (statics : Statics) (content : Content)
    (holds : Holds env.pcm bits statics.channelBuffer content) :
    Sends env.pcm bits (pushWork env fuel chlist ⟨samples, frames * bits, bits⟩ statics)
      (channelDatagrams env bits frames chlist.length content samples chlist 0)
      (contentBefore (samplesOf env.around samples) bits frames chlist.length content
        chlist.length) := by
  have stride : bits * chlist.length % 2 ^ 32 = bits * chlist.length :=
    Nat.mod_eq_of_lt (by rw [Nat.mul_comm]; exact fits.stride)
  have sends := push_channels_sends env assumed bits frames fuel chlist.length
    (bits * chlist.length % 2 ^ 32) content samples chlist 0 statics fits.width fits.several
    (fun _ => stride) (fun m below => fits.begins m (by rwa [Nat.zero_add] at below)) enough holds
  have width : (UInt8.ofNat bits).toNat = bits := UInt8.toNat_ofNat_of_lt fits.byte
  rw [Nat.zero_add] at sends
  simp only [pushWork, width, assertions_pass env bits frames chlist fits]
  exact sends

/-- The first loop sends the chunks that it pushes. -/
theorem initial_sends (headerSize chunk rounds length : Nat) (data : List UInt8)
    (earlier : List PushCall) (statics : Statics) (content : Content) (final : Initial)
    (ran : (initialLoop headerSize chunk (frames * bits) bits).run rounds
      ⟨length, data, earlier⟩ = some final)
    (holds : Holds env.pcm bits statics.channelBuffer content) :
    ∃ pushes last, final.pushes = earlier ++ pushes ∧
      (initialWork env fuel chlist headerSize chunk (frames * bits) bits rounds length data
        statics).result = .ok (final.length, final.data, last) ∧
      Holds env.pcm bits last.channelBuffer
        (contentAfter env.around bits frames chlist.length content
          (pushes.map PushCall.samples)) ∧
      datagrams env.pcm.headerSize (initialWork env fuel chlist headerSize chunk (frames * bits)
          bits rounds length data statics).units =
        chunkDatagrams env bits frames chlist content (pushes.map PushCall.samples) := by
  induction rounds generalizing length data earlier statics content with
  | zero => cases ran
  | succ rounds inductionHypothesis =>
    by_cases whole : chunk ≤ leftOver headerSize length
    · have going : (initialLoop headerSize chunk (frames * bits) bits).condition
          ⟨length, data, earlier⟩ = true := decide_eq_true whole
      rw [Loop.run, if_pos going] at ran
      obtain ⟨sent, middle, reached, held⟩ := push_sends env assumed bits frames fuel chlist fits
        enough (data.take chunk) statics content holds
      have next : (initialLoop headerSize chunk (frames * bits) bits).run rounds
          ⟨sizeT ((length : Int) - chunk), data.drop chunk,
            earlier ++ [⟨data.take chunk, frames * bits, bits⟩]⟩ = some final := ran
      obtain ⟨pushes, last, more, result, after, later⟩ := inductionHypothesis
        (sizeT ((length : Int) - chunk)) (data.drop chunk) _ middle _ next held
      refine ⟨⟨data.take chunk, frames * bits, bits⟩ :: pushes, last, by simp [more], ?_⟩
      rw [initialWork, if_pos whole, Task.and_then_reached _ _ middle reached]
      refine ⟨result, after, ?_⟩
      rw [datagrams, List.filterMap_append]
      exact congrArg₂ (· ++ ·) sent later
    · have ended : ¬ (initialLoop headerSize chunk (frames * bits) bits).condition
          ⟨length, data, earlier⟩ = true := by simpa [initialLoop] using whole
      rw [Loop.run, if_neg ended] at ran
      obtain rfl := Option.some.inj ran
      refine ⟨[], statics, by simp, ?_⟩
      rw [initialWork, if_neg whole]
      exact ⟨rfl, holds, rfl⟩

/-- The second loop sends the buffer as often as it pushes it. -/
theorem received_sends (offset : Nat) (buffer : List UInt8) (received : List Received)
    (statics : Statics) (content : Content)
    (holds : Holds env.pcm bits statics.channelBuffer content) :
    Sends env.pcm bits
      (receivedWork env fuel chlist (frames * bits) bits offset buffer received statics)
      (chunkDatagrams env bits frames chlist content
        ((receiveLoop (frames * bits) bits offset buffer received).1.map PushCall.samples))
      (contentAfter env.around bits frames chlist.length content
        ((receiveLoop (frames * bits) bits offset buffer received).1.map PushCall.samples)) := by
  induction received generalizing offset buffer statics content with
  | nil => exact ⟨rfl, statics, rfl, holds⟩
  | cons first rest inductionHypothesis =>
    by_cases positive : 0 < first.len
    · simp only [receivedWork, receiveLoop, if_pos positive, List.map_cons, chunkDatagrams,
        contentAfter, List.foldl_cons]
      apply sends_and_then env bits _ _ _ _ _ _ (push_sends env assumed bits frames fuel chlist
        fits enough (overwrite buffer offset first.bytes) statics content holds)
      intro later held
      exact inductionHypothesis 0 (overwrite buffer offset first.bytes) later _ held
    · simp only [receivedWork, receiveLoop, if_neg positive]
      exact ⟨rfl, statics, rfl, holds⟩

end Chunks

/-- A message with a header in it, in a format whose samples are those of the pushes. -/
structure Plays (env : Environment) (headerCheck : List UInt8 → Nat) (playback : Playback)
    (bits frames fuel : Nat) (payload : List UInt8) : Prop where
  fits : Fits env playback.chlist.length bits frames
  sampleBytes : playback.format.bitsPerSample / 8 % 256 = bits
  channels : playback.format.channels ≠ 0
  positive : 0 < playback.chunk
  size : playback.chunk / playback.format.channels = frames * bits
  accepted : headerCheck payload ≠ 0
  within : headerCheck payload ≤ payload.length
  small : payload.length < 2 ^ 32
  enough : payload.length < fuel
  rounds : frames * bits < fuel

/-- The payloads among some datagrams that are for one speaker. -/
def heard (id : Nat) (datagrams : List (Nat × List UInt8)) : List (List UInt8) :=
  datagrams.filterMap fun (other, payload) => if other = id then some payload else none

/-- What is pushed to a speaker, without the headers, is what it hears of the datagrams. -/
theorem pushed_heard (headerSize id : Nat) (units : List Service.Action) :
    (pushed id units).map (List.drop headerSize) = heard id (datagrams headerSize units) := by
  rw [pushed, heard, datagrams, List.map_filterMap, List.filterMap_filterMap]
  congr 1
  funext unit
  cases unit with
  | push other package result =>
    by_cases own : other = id
    · simp [datagram, own]
    · simp [datagram, own]
  | _ => rfl

section Waves

variable (env : Environment) (assumed : env.pcm.Assumed) (headerCheck : List UInt8 → Nat)
  (playback : Playback) (bits frames fuel : Nat) (payload : List UInt8) (statics : Statics)
  (plays : Plays env headerCheck playback bits frames fuel payload)

include assumed plays

/-- A call sends the buffers that its two loops push. -/
theorem wave_sends :
    ∃ wave, cmdWave headerCheck playback.chunk playback.format playback.allocated fuel
        (some payload) playback.received = some wave ∧
      datagrams env.pcm.headerSize
          (waveWork env headerCheck playback fuel (some payload) statics).units =
        chunkDatagrams env bits frames playback.chlist
          (contentOf env.pcm bits statics.channelBuffer) (wave.pushes.map PushCall.samples) ∧
      ∃ last, (waveWork env headerCheck playback fuel (some payload) statics).result =
        .ok (last, 0) := by
  obtain ⟨fits, rfl, channels, positive, size, accepted, within, small, enough, rounds⟩ := plays
  obtain ⟨state, ran, _, _, offset⟩ := push_initial_cuts headerCheck playback.chunk
    playback.format fuel payload positive small within enough
  have called := cmd_wave_ran headerCheck playback.chunk playback.format playback.allocated fuel
    payload playback.received state accepted ran offset
  have limited := fits.limited
  have len : perSampleChunkBytes playback.chunk playback.format.channels =
      frames * (playback.format.bitsPerSample / 8 % 256) := by
    rw [perSampleChunkBytes, size, size_of_int _ (by omega)]
  rw [pushInitial, len] at ran
  rw [len] at called
  obtain ⟨pushes, middle, recorded, reached, held, first⟩ := initial_sends env assumed _ frames fuel
    playback.chlist fits rounds (headerCheck payload) playback.chunk fuel payload.length
    (payload.drop (headerCheck payload)) [] statics
    (contentOf env.pcm (playback.format.bitsPerSample / 8 % 256) statics.channelBuffer) state ran
    (fun _ _ _ => rfl)
  obtain ⟨second, last, ended, _⟩ := received_sends env assumed _ frames fuel playback.chlist fits
    rounds state.data.length (state.data ++ playback.allocated.drop state.data.length)
    playback.received middle _ held
  refine ⟨_, called, ?_⟩
  rw [List.nil_append] at recorded
  simp only [waveWork, if_neg accepted, if_neg channels, len, Task.after,
    Task.and_then_reached _ _ _ reached, offset, List.take_length,
    Task.and_then_reached _ _ _ ended, Task.done, List.append_nil, recorded, List.map_append]
  refine ⟨?_, last, rfl⟩
  rw [chunk_datagrams_append, ← first, ← second]
  simp only [datagrams, List.filterMap_cons, datagram, List.filterMap_append]

/-- What a call of `cmd_wave` pushes to a speaker, if its sizes fit, whatever its receives bring:
for each buffer that is pushed and each channel of the speaker, what has been gathered up to the
channel, over what the buffers before left behind. -/
theorem speaker_hears (id : Nat) :
    ∃ wave, cmdWave headerCheck playback.chunk playback.format playback.allocated fuel
        (some payload) playback.received = some wave ∧
      (pushed id (waveWork env headerCheck playback fuel (some payload) statics).units).map
          (List.drop env.pcm.headerSize) =
        heard id (chunkDatagrams env bits frames playback.chlist
          (contentOf env.pcm bits statics.channelBuffer) (wave.pushes.map PushCall.samples)) := by
  obtain ⟨wave, called, sent, _⟩ := wave_sends env assumed headerCheck playback bits frames fuel
    payload statics plays
  refine ⟨wave, called, ?_⟩
  rw [pushed_heard, sent]

end Waves

/-- The sizes of the reference call: one frame of two channels in each chunk. -/
theorem reference_plays :
    Plays referenceEnvironment referenceHeaderCheck referencePlayback 2 1 60
      (referenceHeader ++ [1, 2, 3, 4, 5]) where
  fits := ⟨by decide, by decide, by decide, by decide, by decide, by decide, nofun⟩
  sampleBytes := rfl
  channels := by decide
  positive := by decide
  size := rfl
  accepted := by decide
  within := by decide
  small := by decide
  enough := by decide
  rounds := by decide

/-- The second channel of the reference call, over what the first one left behind. -/
theorem reference_speaker_hears :
    ∃ wave, cmdWave referenceHeaderCheck 4 referenceFormat [0, 0, 0, 0] 60
        (some (referenceHeader ++ [1, 2, 3, 4, 5])) (stream [[6, 7, 8], [9, 10, 11, 12]]) =
          some wave ∧
      (pushed 2 (waveWork referenceEnvironment referenceHeaderCheck referencePlayback 60
          (some (referenceHeader ++ [1, 2, 3, 4, 5])) (statics freshState)).units).map
        (List.drop 4) =
      heard 2 (chunkDatagrams referenceEnvironment 2 1 [1, 2]
        (contentOf Pcm.reference 2 fun _ => 0) (wave.pushes.map PushCall.samples)) :=
  speaker_hears referenceEnvironment Pcm.reference_assumed referenceHeaderCheck referencePlayback
    2 1 60 (referenceHeader ++ [1, 2, 3, 4, 5]) (statics freshState) reference_plays 2

/-- A speaker hears a payload as often as it is listed. -/
theorem heard_listed (id : Nat) (list : List Nat) (payload : List UInt8) :
    heard id (list.map fun other => (other, payload)) =
      List.replicate (list.count id) payload := by
  induction list with
  | nil => rfl
  | cons other rest inductionHypothesis =>
    simp only [heard, List.filterMap_map, Function.comp_def] at inductionHypothesis ⊢
    rw [List.filterMap_cons, inductionHypothesis]
    by_cases own : other = id
    · simp [own, List.replicate_succ]
    · simp [own]

/-- A speaker of a file's only channel hears every buffer. -/
theorem mono_heard (env : Environment) (bits frames ch id : Nat) (list : List Nat)
    (content : Content) (chunks : List (List UInt8)) (width : 0 < bits)
    (channel : env.speakerList ch = some list) (unique : list.Nodup) (listed : id ∈ list)
    (sizes : ∀ samples ∈ chunks, samples.length = frames * bits) :
    heard id (chunkDatagrams env bits frames [ch] content chunks) = chunks := by
  induction chunks generalizing content with
  | nil => rfl
  | cons samples rest inductionHypothesis =>
    have size := sizes samples List.mem_cons_self
    have own : payloadOf bits frames
        (contentBefore (samplesOf env.around samples) bits frames 1 content 1) = samples := by
      apply List.ext_getElem?
      intro m
      by_cases inside : m < frames * bits
      · have split : m / bits * bits + m % bits = m := Nat.div_add_mod' m bits
        have taken : m / bits < frames := (Nat.div_lt_iff_lt_mul width).mpr inside
        rw [← size] at inside
        have byte : contentBefore (samplesOf env.around samples) bits frames 1 content 1 (m / bits)
            (m % bits) = samples[m] := by
          rw [contentBefore, gatheredOver, Nat.mul_one, Nat.add_zero, if_pos taken, split,
            samples_inside env.around samples m inside]
        simp [payloadOf, byte, inside, ← size]
      · rw [List.getElem?_eq_none (by simp [payloadOf]; omega),
          List.getElem?_eq_none (by omega)]
    have once : heard id (channelDatagrams env bits frames 1 content samples [ch] 0) =
        [samples] := by
      simp only [channelDatagrams, channel, Option.getD_some, own, List.append_nil]
      rw [heard_listed, List.count_eq_one_of_mem unique listed, List.replicate_one]
    rw [chunkDatagrams, heard, List.filterMap_append]
    exact congrArg₂ (· ++ ·) once (inductionHypothesis _ fun other member =>
      sizes other (List.mem_cons_of_mem samples member))

end Castserver.Audio
