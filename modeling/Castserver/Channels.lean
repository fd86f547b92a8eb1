import Castserver.Service
import Castserver.Pushwave
import Mathlib.Tactic.Ring

/-!
# Splitting a chunk into channels

The function `server_sppush_push` gathers the samples of one channel after the other
into one static buffer and hands that buffer on for each channel. Its length
argument decides where the gathering stops and how many bytes are handed on; its
caller passes the bytes of one channel. So only the first samples of the chunk are
gathered, and the rest of each payload is what the buffer held before. Where the
gathering of a channel starts is a product of two signed integers, which can wrap.
-/

namespace Castserver.Channels

open Speakers Pusher Detect Service Pushwave
open Library.Loops Library.Runs

/-- Bytes at the addresses of a buffer. -/
abbrev Memory := Nat → UInt8

/-- Bytes around a pointer, at the offsets behind it and in front of it. -/
abbrev Around := Int → UInt8

/-- Copy bytes from an offset of a pointer to an address of a buffer. -/
def blit (count : Nat) (dst : Memory) (target : Nat) (src : Around) (origin : Int) : Memory :=
  fun address =>
    if target ≤ address ∧ address < target + count then
      src (origin + (address - target : Nat))
    else dst address

/-- What the pusher uses of the `common` submodule to build a datagram: the size of a
header, the encoding of one at the front of a buffer, and the macro `BITS_CPY`. -/
structure Pcm where
  headerSize : Nat
  pcmHeaderEncode : Memory → Memory
  bitsCpy : Nat → Memory → Nat → Around → Int → Memory

/-- What the pusher relies on: a header is written in front of the payload only, and
`BITS_CPY` copies the bytes of one sample. -/
structure Pcm.Assumed (pcm : Pcm) : Prop where
  encodes : ∀ buffer address, pcm.headerSize ≤ address →
    pcm.pcmHeaderEncode buffer address = buffer address
  copies : ∀ bits dst target src origin,
    pcm.bitsCpy bits dst target src origin = blit bits dst target src origin

/-- A header of four zero bytes, and a copy that copies. -/
def Pcm.reference : Pcm where
  headerSize := 4
  pcmHeaderEncode := fun buffer address => if address < 4 then 0 else buffer address
  bitsCpy := blit

/-- The assumptions on the datagram functions can be met. -/
theorem Pcm.reference_assumed : Pcm.reference.Assumed where
  encodes := fun _ _ beyond => if_neg (Nat.not_lt.mpr beyond)
  copies := fun _ _ _ _ _ => rfl

/-- The variables of the gathering loop. -/
structure Gather where
  buffer : Memory
  src : Int
  dst : Nat

/-- The loop that gathers the samples of one channel, up to a last position. -/
def gatherLoop (pcm : Pcm) (samples : Around) (last : Int) (bits step : Nat) : Loop Gather where
  condition := fun state => decide (state.src ≤ last)
  body := fun state =>
    { buffer := pcm.bitsCpy bits state.buffer state.dst samples state.src
      src := state.src + step
      dst := state.dst + bits }

/-- The offset of the first sample of a channel. The product of its index and the bytes of a
sample is a signed 32-bit number. -/
def firstSample (bits i : Nat) : Int := (BitVec.ofNat 32 (i * bits)).toInt

/-- The bytes at the front of a buffer. -/
def front (buffer : Memory) (len : Nat) : List UInt8 :=
  (List.range len).map buffer

/-- The static state of the pusher and the server it pushes to. -/
structure PushState where
  packageSeq : Int
  channelBuffer : Memory
  server : Server

/-- What surrounds one call: the functions of `common`, the shared descriptor, the
speakers of each channel, the results of `sendto`, whether assertions are compiled
in, the configured size of a network packet, and what stands in memory around the
samples that are played. The source asks `get_speaker_list` again at every push; here the
list of a channel stays the same, and a listed speaker without a record is passed over. -/
structure Environment where
  common : Common
  pcm : Pcm
  readFd : Nat
  speakerList : Nat → Option (List Nat)
  results : Nat → Nat → Int
  asserts : Bool
  configMtu : Nat
  around : Around

/-- Send one buffer to every speaker of a channel, each time with a header encoded at
its front. The sequence number is tested as a 16-bit number. -/
def serverSppushPushChannel (env : Environment) (ch len : Nat) (state : PushState) : PushState :=
  let packageSeq :=
    if (BitVec.ofInt 16 state.packageSeq).toInt = -1 then 1 else state.packageSeq + 1
  let state := { state with packageSeq := packageSeq }
  match env.speakerList ch with
  | none => state
  | some list =>
    list.foldl (fun state id =>
      let buf := env.pcm.pcmHeaderEncode state.channelBuffer
      { state with
        channelBuffer := buf
        server := pushSpeaker env.common env.readFd id (front buf len) (env.results ch id)
          state.server }) state

/-- Why a call has no result: a division by zero, a failed assertion, or a loop that used up
its fuel. -/
inductive Fault where
  | zeroDivisor
  | assertion
  | fuel
deriving DecidableEq, Repr

/-- The assertions of `server_sppush_push` in their order, with their divisions. The second
one compares a quotient of integers with the same quotient of floating-point numbers. -/
def assertions (env : Environment) (len channels bits : Nat) : Except Fault Unit :=
  let stride := channels * bits % 2 ^ 32
  if 1500 ≤ (env.pcm.headerSize + len) % 2 ^ 64 then .error .assertion
  else if stride = 0 then .error .zeroDivisor
  else if len % stride ≠ 0 then .error .assertion
  else if channels = 0 then .error .zeroDivisor
  else if env.configMtu ≤ len / channels then .error .assertion
  else .ok ()

/-- All assertions pass. -/
def asserted (env : Environment) (len channels bits : Nat) : Bool :=
  decide (assertions env len channels bits = .ok ())

/-- The loop over the channels, from the channel with the given index on. It returns
what is handed on for each channel along with the final state. -/
def pushChannels (env : Environment) (fuel : Nat) (samples : Around) (len bits step : Nat) :
    List Nat → Nat → PushState → Except Fault (PushState × List (List UInt8))
  | [], _, state => .ok (state, [])
  | ch :: rest, i, state =>
    match (gatherLoop env.pcm samples ((len : Int) - bits) bits step).run fuel
      ⟨state.channelBuffer, firstSample bits i, env.pcm.headerSize⟩ with
    | none => .error .fuel
    | some gathered =>
      let package := front gathered.buffer (len + env.pcm.headerSize)
      let state := serverSppushPushChannel env ch (len + env.pcm.headerSize)
        { state with channelBuffer := gathered.buffer }
      match pushChannels env fuel samples len bits step rest (i + 1) state with
      | .error fault => .error fault
      | .ok (state, built) => .ok (state, package :: built)

/-- Split the samples into the listed channels and push each channel. -/
def serverSppushPush (env : Environment) (fuel : Nat) (samples : Around) (len : Nat)
    (chlist : List Nat) (bits : UInt8) (state : PushState) :
    Except Fault (PushState × List (List UInt8)) :=
  match if env.asserts then assertions env len chlist.length bits.toNat else .ok () with
  | .error fault => .error fault
  | .ok () =>
    pushChannels env fuel samples len bits.toNat (bits.toNat * chlist.length % 2 ^ 32) chlist 0
      state

/-- The payload of each package is the samples of its channel, in frame order, for all
frames of the chunk, and nothing else. -/
def Complete (pcm : Pcm) (samples : Memory) (channels bits frames : Nat)
    (built : List (List UInt8)) : Prop :=
  ∀ i < channels, ∃ package, built[i]? = some package ∧
    package.length = pcm.headerSize + frames * bits ∧
    ∀ k < frames, ∀ j < bits, package[pcm.headerSize + k * bits + j]? =
      some (samples ((k * channels + i) * bits + j))

/-- The samples beyond the first ones of the chunk, as many as there are frames, are
what stands in their places anyway: for the first channel what the buffer held, and
for every other channel the sample of the channel before it. -/
def Repeated (pcm : Pcm) (samples : Memory) (channels bits frames : Nat) (buffer : Memory) :
    Prop :=
  ∀ k < frames, ∀ i < channels, frames ≤ k * channels + i → ∀ j < bits,
    samples ((k * channels + i) * bits + j) =
      if i = 0 then buffer (pcm.headerSize + k * bits + j)
      else samples ((k * channels + (i - 1)) * bits + j)

/-- No product of an index and the bytes of a sample leaves the signed integers. Without
frames, where nothing is sent, it is enough that the stride does not vanish and the
gathering ends. -/
def Unwrapped (channels bits frames : Nat) : Prop :=
  if frames = 0 then bits * channels % 2 ^ 32 ≠ 0 else (channels - 1) * bits < 2 ^ 31

section Products

variable (bits : Nat)

/-- The least multiple of a width that reaches a bound. -/
theorem least_multiple (width bound : Nat) (positive : 0 < width) :
    ∃ i, bound ≤ i * width ∧ i * width < bound + width ∧ ∀ k, bound ≤ k * width → i ≤ k := by
  have split := Nat.div_add_mod' (bound + width - 1) width
  have rest := Nat.mod_lt (bound + width - 1) positive
  refine ⟨(bound + width - 1) / width, by omega, by omega, ?_⟩
  intro k reaches
  apply Nat.lt_succ_iff.mp
  apply (Nat.div_lt_iff_lt_mul positive).mpr
  rw [Nat.succ_mul]
  omega

/-- A product below 2^31 is the offset it stands for. -/
theorem first_sample_within (i : Nat) (small : i * bits < 2 ^ 31) :
    firstSample bits i = (i * bits : Nat) := by
  rw [firstSample, BitVec.toInt_ofNat', Int.bmod_eq_of_le (by omega) (by omega)]

/-- A product that has just reached 2^31 is an offset in front of the samples. -/
theorem first_sample_before (i : Nat) (byte : bits ≤ 255) (large : 2 ^ 31 ≤ i * bits)
    (least : i * bits < 2 ^ 31 + bits) : firstSample bits i < -bits := by
  simp only [firstSample, BitVec.toInt_ofNat', Int.bmod]
  split <;> omega

/-- No offset is further in front of the samples than a signed integer reaches. -/
theorem first_sample_reach (i : Nat) : -2 ^ 31 ≤ firstSample bits i :=
  BitVec.le_toInt (BitVec.ofNat 32 (i * bits))

/-- If the products reach 2^31, some channel starts in front of the samples. -/
theorem some_channel_before (channels : Nat) (width : 0 < bits) (byte : bits ≤ 255)
    (large : 2 ^ 31 ≤ (channels - 1) * bits) :
    ∃ i < channels, 2 ^ 31 ≤ i * bits ∧ firstSample bits i < -bits := by
  obtain ⟨i, above, below, least⟩ := least_multiple bits (2 ^ 31) width
  have last := least (channels - 1) large
  have positive : 0 < i := by
    rw [Nat.pos_iff_ne_zero]
    rintro rfl
    simp at above
  exact ⟨i, by omega, above, first_sample_before bits i byte above below⟩

end Products

section Gathering

variable {pcm : Pcm} (copies : ∀ bits dst target src origin,
    pcm.bitsCpy bits dst target src origin = blit bits dst target src origin)
  (samples : Around) (bits frames channels : Nat)

/-- The payload byte of a frame after a channel has been gathered over some content. -/
def gatheredOver (i : Nat) (content : Nat → Nat → UInt8) (k j : Nat) : UInt8 :=
  if k * channels + i < frames then samples ((k * channels + i) * bits + j : Nat)
  else content k j

/-- The content before each channel is gathered, from what the buffer held at first. -/
def contentBefore (content : Nat → Nat → UInt8) : Nat → Nat → Nat → UInt8
  | 0 => content
  | i + 1 => gatheredOver samples bits frames channels i (contentBefore content i)

/-- A buffer holds some content of its payload. -/
def Holds (pcm : Pcm) (bits : Nat) (buffer : Memory) (content : Nat → Nat → UInt8) : Prop :=
  ∀ k, ∀ j < bits, buffer (pcm.headerSize + k * bits + j) = content k j

/-- The state of the gathering loop after some rounds. -/
structure Gathered (pcm : Pcm) (i : Nat) (content : Nat → Nat → UInt8) (rounds : Nat)
    (state : Gather) : Prop where
  src : state.src = ((rounds * channels + i) * bits : Nat)
  dst : state.dst = pcm.headerSize + rounds * bits
  taken : ∀ k < rounds, k * channels + i < frames
  holds : ∀ k, ∀ j < bits, state.buffer (pcm.headerSize + k * bits + j) =
    if k < rounds then samples ((k * channels + i) * bits + j : Nat) else content k j

/-- Before its first round the gathering loop has taken nothing. -/
theorem gathered_start (i : Nat) (content : Nat → Nat → UInt8) (buffer : Memory)
    (holds : Holds pcm bits buffer content) (begins : firstSample bits i = (i * bits : Nat)) :
    Gathered samples bits frames channels pcm i content 0
      ⟨buffer, firstSample bits i, pcm.headerSize⟩ := by
  constructor
  · rw [begins, Nat.zero_mul, Nat.zero_add]
  · simp
  · exact fun k below => absurd below (Nat.not_lt_zero k)
  · intro k j within
    rw [if_neg (Nat.not_lt_zero k)]
    exact holds k j within

include copies

/-- One round of the gathering loop copies the sample of the next frame. -/
theorem gather_round (i rounds step : Nat) (content : Nat → Nat → UInt8) (state : Gather)
    (stride : step = bits * channels) (more : rounds * channels + i < frames)
    (gathered : Gathered samples bits frames channels pcm i content rounds state) :
    Gathered samples bits frames channels pcm i content (rounds + 1)
      { buffer := pcm.bitsCpy bits state.buffer state.dst samples state.src
        src := state.src + step
        dst := state.dst + bits } := by
  constructor
  · rw [gathered.src, stride]
    push_cast
    ring
  · rw [gathered.dst]
    ring
  · intro k below
    rcases Nat.lt_succ_iff_lt_or_eq.mp below with earlier | rfl
    · exact gathered.taken k earlier
    · exact more
  · intro k j inside
    simp only [copies, blit, gathered.dst, gathered.src]
    rcases Nat.lt_trichotomy k rounds with earlier | rfl | later
    · have below : (k + 1) * bits ≤ rounds * bits := Nat.mul_le_mul_right bits earlier
      rw [Nat.add_mul, Nat.one_mul] at below
      rw [if_neg (by omega), gathered.holds k j inside, if_pos earlier, if_pos (by omega)]
    · rw [if_pos (by omega), if_pos (Nat.lt_succ_self k)]
      congr 1
      omega
    · have above : (rounds + 1) * bits ≤ k * bits := Nat.mul_le_mul_right bits later
      rw [Nat.add_mul, Nat.one_mul] at above
      rw [if_neg (by omega), gathered.holds k j inside, if_neg (by omega), if_neg (by omega)]

/-- Gathering a channel replaces the frames whose sample of this channel is among the
first samples of the chunk, as many as there are frames. -/
theorem gather_channel (i step fuel : Nat) (content : Nat → Nat → UInt8) (buffer : Memory)
    (width : 0 < bits) (several : 0 < channels) (stride : 0 < frames → step = bits * channels)
    (begins : firstSample bits i = (i * bits : Nat)) (holds : Holds pcm bits buffer content)
    (enough : frames * bits < fuel) :
    ∃ state, (gatherLoop pcm samples (((frames * bits : Nat) : Int) - bits) bits step).run fuel
        ⟨buffer, firstSample bits i, pcm.headerSize⟩ = some state ∧
      Holds pcm bits state.buffer (gatheredOver samples bits frames channels i content) := by
  have inside (rounds : Nat) : (((rounds * channels + i) * bits : Nat) : Int) ≤
      ((frames * bits : Nat) : Int) - bits ↔ rounds * channels + i < frames := by
    rw [← Nat.succ_le_iff, ← Nat.mul_le_mul_right_iff width, Nat.succ_mul]
    omega
  have kept : ∀ state : Gather,
      (∃ rounds, Gathered samples bits frames channels pcm i content rounds state) →
      (gatherLoop pcm samples (((frames * bits : Nat) : Int) - bits) bits step).condition state =
        true →
      (∃ rounds, Gathered samples bits frames channels pcm i content rounds
        ((gatherLoop pcm samples (((frames * bits : Nat) : Int) - bits) bits step).body state)) ∧
      frames * bits - ((gatherLoop pcm samples (((frames * bits : Nat) : Int) - bits) bits
        step).body state).src.toNat < frames * bits - state.src.toNat := by
    rintro state ⟨rounds, gathered⟩ going
    simp only [gatherLoop, gathered.src, decide_eq_true_eq, inside rounds] at going
    have stepped := stride (by omega)
    refine ⟨⟨rounds + 1, gather_round copies samples bits frames channels i rounds step content
      state stepped going gathered⟩, ?_⟩
    have below : (rounds * channels + i) * bits < frames * bits :=
      Nat.mul_lt_mul_of_pos_right going width
    have positive : 0 < bits * channels := Nat.mul_pos width several
    simp only [gatherLoop, gathered.src, stepped]
    omega
  have start : ∃ rounds, Gathered samples bits frames channels pcm i content rounds
      ⟨buffer, firstSample bits i, pcm.headerSize⟩ :=
    ⟨0, gathered_start samples bits frames channels i content buffer holds begins⟩
  obtain ⟨state, ran, ⟨rounds, gathered⟩, ended⟩ :=
    (gatherLoop pcm samples (((frames * bits : Nat) : Int) - bits) bits step).total_rule
      (fun state => ∃ rounds, Gathered samples bits frames channels pcm i content rounds state)
      (fun state => frames * bits - state.src.toNat) kept fuel _ start (by simp only; omega)
  refine ⟨state, ran, ?_⟩
  simp only [gatherLoop, gathered.src, decide_eq_false_iff_not, inside rounds,
    Nat.not_lt] at ended
  intro k j within
  rw [gathered.holds k j within, gatheredOver]
  by_cases below : k < rounds
  · rw [if_pos below, if_pos (gathered.taken k below)]
  · have beyond : rounds * channels ≤ k * channels :=
      Nat.mul_le_mul_right channels (Nat.not_lt.mp below)
    rw [if_neg below, if_neg (by omega)]

omit copies

/-- A gathering loop with a stride ends. -/
theorem gather_ends (len step fuel : Nat) (state : Gather) (moves : step ≠ 0)
    (reach : -2 ^ 31 ≤ state.src) (enough : 2 ^ 31 + len + 1 < fuel) :
    ∃ final, (gatherLoop pcm samples ((len : Int) - bits) bits step).run fuel state =
      some final := by
  have kept : ∀ state : Gather, True →
      (gatherLoop pcm samples ((len : Int) - bits) bits step).condition state = true →
      True ∧ ((len : Int) - bits + 1 -
          ((gatherLoop pcm samples ((len : Int) - bits) bits step).body state).src).toNat <
        ((len : Int) - bits + 1 - state.src).toNat := by
    intro state _ going
    simp only [gatherLoop, decide_eq_true_eq] at going ⊢
    exact ⟨trivial, by omega⟩
  obtain ⟨final, ran, _, _⟩ :=
    (gatherLoop pcm samples ((len : Int) - bits) bits step).total_rule (fun _ => True)
      (fun state => ((len : Int) - bits + 1 - state.src).toNat) kept fuel state trivial
      (by omega)
  exact ⟨final, ran⟩

/-- A gathering loop without a stride does not end once it is entered. -/
theorem gather_endless (len fuel : Nat) (state : Gather)
    (enters : state.src ≤ (len : Int) - bits) :
    (gatherLoop pcm samples ((len : Int) - bits) bits 0).run fuel state = none := by
  apply Loop.endless_rule _ (fun state => state.src ≤ (len : Int) - bits)
  · intro state inside
    refine ⟨decide_eq_true inside, ?_⟩
    simpa [gatherLoop] using inside
  · exact enters

include copies in
/-- Once a gathering loop is entered, the first byte that it gathers stays. -/
theorem gather_first_byte (last : Int) (step fuel : Nat) (width : 0 < bits) (state final : Gather)
    (enters : state.src ≤ last)
    (ran : (gatherLoop pcm samples last bits step).run fuel state = some final) :
    final.buffer state.dst = samples state.src := by
  have kept (fuel : Nat) (later : Gather) (beyond : state.dst < later.dst)
      (held : later.buffer state.dst = samples state.src)
      (ran : (gatherLoop pcm samples last bits step).run fuel later = some final) :
      final.buffer state.dst = samples state.src := by
    induction fuel generalizing later with
    | zero => cases ran
    | succ fuel inductionHypothesis =>
      rw [Loop.run] at ran
      split at ran
      · apply inductionHypothesis _ _ _ ran
        · simp only [gatherLoop]
          omega
        · simp only [gatherLoop, copies, blit]
          rw [if_neg (by omega), held]
      · obtain rfl := Option.some.inj ran
        exact held
  cases fuel with
  | zero => cases ran
  | succ fuel =>
    have going : (gatherLoop pcm samples last bits step).condition state = true :=
      decide_eq_true enters
    rw [Loop.run, if_pos going] at ran
    apply kept fuel _ _ _ ran
    · simp only [gatherLoop]
      omega
    · simp only [gatherLoop, copies, blit]
      rw [if_pos (by omega)]
      simp

end Gathering

section Pushing

variable (env : Environment) (assumed : env.pcm.Assumed) (samples : Around)
  (bits frames channels : Nat)

/-- The rule of the loop over the speakers of a channel: what holds with the sequence number
of the call and every send keeps, holds after the call. -/
theorem push_channel_rule (kept : PushState → Prop) (ch len : Nat) (state : PushState)
    (starts : kept { state with
      packageSeq :=
        if (BitVec.ofInt 16 state.packageSeq).toInt = -1 then 1 else state.packageSeq + 1 })
    (sends : ∀ id sent, kept sent → kept
      { sent with
        channelBuffer := env.pcm.pcmHeaderEncode sent.channelBuffer
        server := pushSpeaker env.common env.readFd id
          (front (env.pcm.pcmHeaderEncode sent.channelBuffer) len) (env.results ch id)
          sent.server }) :
    kept (serverSppushPushChannel env ch len state) := by
  unfold serverSppushPushChannel
  cases env.speakerList ch with
  | none => exact starts
  | some list => exact List.foldlRecOn list _ starts fun sent held id _ => sends id sent held

include assumed in
/-- Sending a buffer to the speakers of a channel leaves its payload as it was. -/
theorem push_channel_payload (ch len : Nat) (state : PushState) (address : Nat)
    (payload : env.pcm.headerSize ≤ address) :
    (serverSppushPushChannel env ch len state).channelBuffer address =
      state.channelBuffer address := by
  apply push_channel_rule env
    (fun sent => sent.channelBuffer address = state.channelBuffer address)
  · rfl
  · intro id sent same
    exact (assumed.encodes sent.channelBuffer address payload).trans same

/-- A push over some channels that ends has gathered the samples of the first one, sent
them, and gone on with the others. -/
theorem push_channels_cons (fuel len step : Nat) (ch : Nat) (rest : List Nat) (i : Nat)
    (state final : PushState) (built : List (List UInt8))
    (ended : pushChannels env fuel samples len bits step (ch :: rest) i state =
      .ok (final, built)) :
    ∃ gathered more,
      (gatherLoop env.pcm samples ((len : Int) - bits) bits step).run fuel
        ⟨state.channelBuffer, firstSample bits i, env.pcm.headerSize⟩ = some gathered ∧
      pushChannels env fuel samples len bits step rest (i + 1)
        (serverSppushPushChannel env ch (len + env.pcm.headerSize)
          { state with channelBuffer := gathered.buffer }) = .ok (final, more) ∧
      built = front gathered.buffer (len + env.pcm.headerSize) :: more := by
  simp only [pushChannels] at ended
  split at ended
  · cases ended
  · next gathered ran =>
    split at ended
    · cases ended
    · next last more later =>
      obtain ⟨rfl, rfl⟩ := Prod.mk.inj (Except.ok.inj ended)
      exact ⟨gathered, more, ran, later, rfl⟩

/-- The bytes of a front are those of the buffer. -/
theorem front_get (buffer : Memory) (len address : Nat) (inside : address < len) :
    (front buffer len)[address]? = some (buffer address) := by
  simp [front, inside]

/-- The bytes of a sample in a front that reaches behind all samples. -/
theorem front_sample (buffer : Memory) (len head k j : Nat) (within : k < frames)
    (inside : j < bits) (room : frames * bits ≤ len) :
    (front buffer (len + head))[head + k * bits + j]? = some (buffer (head + k * bits + j)) := by
  have last : (k + 1) * bits ≤ frames * bits := Nat.mul_le_mul_right bits within
  rw [Nat.add_mul, Nat.one_mul] at last
  exact front_get buffer _ _ (by omega)

/-- The rule of the loop over the channels. If every gathering loop ends, from what holds
of the buffer before its channel to what holds of the package, and sending the package
leads on to the next channel, then the loop ends and this holds of every package. -/
theorem push_channels_rule (before gathered : Nat → Memory → Prop) (fuel len step : Nat)
    (chlist : List Nat) (i : Nat) (state : PushState)
    (gathers : ∀ m buffer, m < i + chlist.length → before m buffer →
      ∃ last, (gatherLoop env.pcm samples ((len : Int) - bits) bits step).run fuel
        ⟨buffer, firstSample bits m, env.pcm.headerSize⟩ = some last ∧ gathered m last.buffer)
    (sends : ∀ m ch state, gathered m state.channelBuffer → before (m + 1)
      (serverSppushPushChannel env ch (len + env.pcm.headerSize) state).channelBuffer)
    (holds : before i state.channelBuffer) :
    ∃ final built, pushChannels env fuel samples len bits step chlist i state =
        .ok (final, built) ∧ built.length = chlist.length ∧
      ∀ m < chlist.length, ∃ buffer, gathered (i + m) buffer ∧
        built[m]? = some (front buffer (len + env.pcm.headerSize)) := by
  induction chlist generalizing i state with
  | nil => exact ⟨state, [], rfl, rfl, fun m below => absurd below (Nat.not_lt_zero m)⟩
  | cons ch rest inductionHypothesis =>
    rw [List.length_cons] at gathers
    obtain ⟨last, ran, after⟩ := gathers i state.channelBuffer (by omega) holds
    have handed := sends i ch { state with channelBuffer := last.buffer } after
    obtain ⟨final, built, later, count, packages⟩ := inductionHypothesis (i + 1) _
      (fun m buffer below => gathers m buffer (by omega)) handed
    refine ⟨final, front last.buffer (len + env.pcm.headerSize) :: built,
      by simp only [pushChannels, ran, later],
      by rw [List.length_cons, count, List.length_cons], ?_⟩
    intro m below
    cases m with
    | zero => exact ⟨last.buffer, after, rfl⟩
    | succ m =>
      obtain ⟨buffer, carried, found⟩ := packages m (Nat.lt_of_succ_lt_succ below)
      rw [show i + 1 + m = i + (m + 1) by omega] at carried
      exact ⟨buffer, carried, found⟩

include assumed in
/-- The loop over the channels ends, and the package of each channel carries what has
been gathered up to that channel. -/
theorem push_channels_built (fuel step : Nat) (content : Nat → Nat → UInt8) (chlist : List Nat)
    (i : Nat) (state : PushState) (width : 0 < bits) (several : 0 < channels)
    (stride : 0 < frames → step = bits * channels)
    (begins : ∀ m < i + chlist.length, firstSample bits m = (m * bits : Nat))
    (enough : frames * bits < fuel)
    (holds : Holds env.pcm bits state.channelBuffer
      (contentBefore samples bits frames channels content i)) :
    ∃ final built, pushChannels env fuel samples (frames * bits) bits step chlist i state =
        .ok (final, built) ∧ built.length = chlist.length ∧
      ∀ m < chlist.length, ∃ package, built[m]? = some package ∧
        package.length = env.pcm.headerSize + frames * bits ∧
        ∀ k < frames, ∀ j < bits, package[env.pcm.headerSize + k * bits + j]? =
          some (contentBefore samples bits frames channels content (i + m + 1) k j) := by
  obtain ⟨final, built, pushed, count, packages⟩ := push_channels_rule env samples bits
    (fun m buffer => Holds env.pcm bits buffer
      (contentBefore samples bits frames channels content m))
    (fun m buffer => Holds env.pcm bits buffer
      (contentBefore samples bits frames channels content (m + 1)))
    fuel (frames * bits) step chlist i state
    (fun m buffer below before => gather_channel assumed.copies samples bits frames channels m
      step fuel _ buffer width several stride (begins m below) before enough)
    (fun m ch state gathered k j inside => by
      rw [push_channel_payload env assumed ch _ _ _ (by omega)]
      exact gathered k j inside)
    holds
  refine ⟨final, built, pushed, count, ?_⟩
  intro m below
  obtain ⟨buffer, gathered, found⟩ := packages m below
  refine ⟨_, found, by simp [front, Nat.add_comm], ?_⟩
  intro k within j inside
  rw [front_sample bits frames buffer _ _ k j within inside (Nat.le_refl _),
    gathered k j inside]

/-- Every channel carries its own samples exactly if the frames it does not gather
repeat what is there before it. -/
theorem contents_complete (content : Nat → Nat → UInt8) :
    (∀ i < channels, ∀ k < frames, ∀ j < bits,
      contentBefore samples bits frames channels content (i + 1) k j =
        samples ((k * channels + i) * bits + j : Nat)) ↔
    ∀ k < frames, ∀ i < channels, frames ≤ k * channels + i → ∀ j < bits,
      samples ((k * channels + i) * bits + j : Nat) =
        if i = 0 then content k j else samples ((k * channels + (i - 1)) * bits + j : Nat) := by
  have skipped (i k j : Nat) (beyond : frames ≤ k * channels + i) :
      contentBefore samples bits frames channels content (i + 1) k j =
        contentBefore samples bits frames channels content i k j := by
    rw [contentBefore, gatheredOver, if_neg (Nat.not_lt.mpr beyond)]
  constructor
  · intro complete k within i below beyond j inside
    rw [← complete i below k within j inside, skipped i k j beyond]
    cases i with
    | zero => rfl
    | succ i => exact complete i (Nat.lt_of_succ_lt below) k within j inside
  · intro repeated i below k within j inside
    induction i with
    | zero =>
      by_cases taken : k * channels + 0 < frames
      · rw [contentBefore, gatheredOver, if_pos taken]
      · rw [skipped 0 k j (Nat.not_lt.mp taken)]
        exact (repeated k within 0 below (Nat.not_lt.mp taken) j inside).symm
    | succ i inductionHypothesis =>
      by_cases taken : k * channels + (i + 1) < frames
      · rw [contentBefore, gatheredOver, if_pos taken]
      · rw [skipped (i + 1) k j (Nat.not_lt.mp taken),
          inductionHypothesis (Nat.lt_of_succ_lt below)]
        exact (repeated k within (i + 1) below (Nat.not_lt.mp taken) j inside).symm

/-- Inside the size limits the length that the caller passes is the exact quotient. -/
theorem per_sample_chunk_bytes (limited : frames * bits < 1500) (several : 0 < channels) :
    perSampleChunkBytes (frames * channels * bits) channels = frames * bits := by
  have quotient : frames * channels * bits / channels = frames * bits := by
    rw [show frames * channels * bits = frames * bits * channels by ring]
    exact Nat.mul_div_cancel _ several
  rw [perSampleChunkBytes, quotient, size_of_int (frames * bits) (by omega)]

/-- Inside the size limits the assertions hold exactly if the channels divide the frames. -/
theorem asserted_iff (width : 0 < bits) (several : 0 < channels)
    (small : channels * bits < 2 ^ 32) (limited : env.pcm.headerSize + frames * bits < 1500)
    (packet : frames * bits / channels < env.configMtu) :
    asserted env (frames * bits) channels bits = true ↔ channels ∣ frames := by
  have divides : frames * bits % (channels * bits) = 0 ↔ channels ∣ frames := by
    rw [← Nat.dvd_iff_mod_eq_zero, Nat.mul_dvd_mul_iff_right width]
  have positive : channels * bits ≠ 0 := Nat.ne_of_gt (Nat.mul_pos several width)
  have total : (env.pcm.headerSize + frames * bits) % 2 ^ 64 = env.pcm.headerSize + frames * bits :=
    Nat.mod_eq_of_lt (by omega)
  simp only [asserted, assertions, decide_eq_true_eq, Nat.mod_eq_of_lt small, total,
    if_neg (Nat.not_le.mpr limited), if_neg positive, if_neg (Nat.ne_of_gt several),
    if_neg (Nat.not_le.mpr packet), ← divides]
  by_cases multiple : frames * bits % (channels * bits) = 0
  · simp [multiple]
  · simp [multiple]

/-- With a stride the loop over the channels ends, and hands on a package for each channel. -/
theorem push_channels_end (fuel len step : Nat) (chlist : List Nat) (i : Nat) (state : PushState)
    (moves : step ≠ 0) (enough : 2 ^ 31 + len + 1 < fuel) :
    ∃ final built, pushChannels env fuel samples len bits step chlist i state =
        .ok (final, built) ∧ built.length = chlist.length ∧
      ∀ m < chlist.length, ∃ buffer,
        built[m]? = some (front buffer (len + env.pcm.headerSize)) := by
  obtain ⟨final, built, pushed, count, packages⟩ := push_channels_rule env samples bits
    (fun _ _ => True) (fun _ _ => True) fuel len step chlist i state
    (fun m buffer _ _ => by
      obtain ⟨last, ran⟩ := gather_ends samples bits len step fuel
        ⟨buffer, firstSample bits m, env.pcm.headerSize⟩ moves (first_sample_reach bits m) enough
      exact ⟨last, ran, trivial⟩)
    (fun _ _ _ _ => trivial) trivial
  refine ⟨final, built, pushed, count, ?_⟩
  intro m below
  obtain ⟨buffer, _, found⟩ := packages m below
  exact ⟨buffer, found⟩

/-- Without a stride the loop over the channels does not end, if it comes to a channel whose
gathering is entered. -/
theorem push_channels_stuck (fuel len entered : Nat) (chlist : List Nat) (i : Nat)
    (state : PushState) (before : i ≤ entered) (listed : entered < i + chlist.length)
    (enters : firstSample bits entered ≤ (len : Int) - bits) :
    pushChannels env fuel samples len bits 0 chlist i state = .error .fuel := by
  induction chlist generalizing i state with
  | nil =>
    rw [List.length_nil] at listed
    omega
  | cons ch rest inductionHypothesis =>
    rw [List.length_cons] at listed
    rw [pushChannels]
    by_cases now : i = entered
    · subst now
      rw [gather_endless samples bits len fuel _ enters]
    · cases (gatherLoop env.pcm samples ((len : Int) - bits) bits 0).run fuel
        ⟨state.channelBuffer, firstSample bits i, env.pcm.headerSize⟩ with
      | none => rfl
      | some gathered =>
        simp only
        rw [inductionHypothesis (i + 1) _ (by omega) (by omega)]

/-- A stride that vanishes as a 32-bit number is never one that ends: either samples have no
bytes, or some channel starts in front of the samples. -/
theorem stride_endless (fuel len : Nat) (chlist : List Nat) (state : PushState)
    (byte : bits ≤ 255) (several : 0 < chlist.length)
    (stands : bits * chlist.length % 2 ^ 32 = 0) :
    pushChannels env fuel samples len bits (bits * chlist.length % 2 ^ 32) chlist 0 state =
      .error .fuel := by
  rw [stands]
  by_cases none : bits = 0
  · subst none
    have start : firstSample 0 0 = 0 := rfl
    exact push_channels_stuck env samples 0 fuel len 0 chlist 0 state (Nat.le_refl 0) (by omega)
      (by omega)
  · have width : 0 < bits := Nat.pos_of_ne_zero none
    have product : bits * chlist.length = (chlist.length - 1) * bits + bits := by
      rw [← Nat.succ_mul, Nat.succ_eq_add_one, Nat.sub_add_cancel (by omega), Nat.mul_comm]
    have positive : 0 < bits * chlist.length := Nat.mul_pos width several
    obtain ⟨i, below, _, before⟩ := some_channel_before bits chlist.length width byte (by omega)
    exact push_channels_stuck env samples bits fuel len i chlist 0 state (Nat.zero_le i)
      (by omega) (by omega)

include assumed in
/-- The package of a channel whose gathering is entered begins with the byte at its start. -/
theorem push_channels_first (fuel len step : Nat) (chlist : List Nat) (i : Nat)
    (state final : PushState) (built : List (List UInt8)) (width : 0 < bits) (some : 0 < len)
    (ended : pushChannels env fuel samples len bits step chlist i state = .ok (final, built))
    (m : Nat) (below : m < chlist.length)
    (enters : firstSample bits (i + m) ≤ (len : Int) - bits) :
    ∃ package, built[m]? = .some package ∧
      package[env.pcm.headerSize]? = .some (samples (firstSample bits (i + m))) := by
  induction chlist generalizing i state built m with
  | nil => exact absurd below (Nat.not_lt_zero m)
  | cons ch rest inductionHypothesis =>
    obtain ⟨gathered, more, ran, later, rfl⟩ :=
      push_channels_cons env samples bits fuel len step ch rest i state final built ended
    cases m with
    | zero =>
      have first := gather_first_byte assumed.copies samples bits _ step fuel width
        ⟨state.channelBuffer, firstSample bits i, env.pcm.headerSize⟩ gathered enters ran
      refine ⟨_, rfl, ?_⟩
      rw [front_get gathered.buffer _ _ (by omega), first]
      rfl
    | succ m =>
      rw [show i + (m + 1) = i + 1 + m by omega] at enters ⊢
      exact inductionHypothesis (i + 1) _ more later m (Nat.lt_of_succ_lt_succ below) enters

end Pushing

/-- For every content of the chunk and the buffer the skipped samples repeat what is
there exactly if no sample is skipped: with one channel or without frames. -/
theorem repeated_always_iff (pcm : Pcm) (channels bits frames : Nat) (several : 0 < channels)
    (width : 0 < bits) :
    (∀ samples buffer, Repeated pcm samples channels bits frames buffer) ↔
      channels = 1 ∨ frames = 0 := by
  constructor
  · intro always
    by_contra neither
    rw [not_or] at neither
    obtain ⟨last, rfl⟩ := Nat.exists_eq_succ_of_ne_zero neither.2
    have two : 2 ≤ channels := by omega
    have skipped : last.succ ≤ last * channels + 1 := by
      have twice : last * 2 ≤ last * channels := Nat.mul_le_mul_left last two
      omega
    have marked := always (fun address => if address = (last * channels + 1) * bits then 1 else 0)
      (fun _ => 0) last (Nat.lt_succ_self last) 1 two skipped 0 width
    have nothing : bits = 0 := by simpa using marked
    omega
  · rintro (rfl | rfl) samples buffer k within i below beyond
    · omega
    · omega

/-- The push of one sample of every channel for each frame of a chunk is stopped by an
assertion, where these are compiled in, exactly if the channels do not divide the frames. -/
theorem push_checked (env : Environment) (samples : Around) (chlist : List Nat) (bits : UInt8)
    (frames fuel : Nat) (state : PushState) (width : 0 < bits.toNat) (several : 0 < chlist.length)
    (small : chlist.length * bits.toNat < 2 ^ 32)
    (limited : env.pcm.headerSize + frames * bits.toNat < 1500)
    (packet : frames * bits.toNat / chlist.length < env.configMtu) :
    (env.asserts = true → chlist.length ∣ frames) ∧
        serverSppushPush env fuel samples (frames * bits.toNat) chlist bits state =
          pushChannels env fuel samples (frames * bits.toNat) bits.toNat
            (bits.toNat * chlist.length % 2 ^ 32) chlist 0 state ∨
      ¬ (env.asserts = true → chlist.length ∣ frames) ∧
        ∃ fault, serverSppushPush env fuel samples (frames * bits.toNat) chlist bits state =
          .error fault := by
  have checks := asserted_iff env bits.toNat frames chlist.length width several small limited packet
  simp only [asserted, decide_eq_true_eq] at checks
  rw [serverSppushPush]
  cases compiled : env.asserts with
  | false => exact Or.inl ⟨by simp, rfl⟩
  | true =>
    by_cases divides : chlist.length ∣ frames
    · rw [checks.mpr divides]
      exact Or.inl ⟨fun _ => divides, rfl⟩
    · right
      refine ⟨fun passes => divides (passes rfl), ?_⟩
      cases outcome : assertions env (frames * bits.toNat) chlist.length bits.toNat with
      | error fault => exact ⟨fault, rfl⟩
      | ok => exact absurd (checks.mp outcome) divides

section Claims

variable (env : Environment) (assumed : env.pcm.Assumed) (chunk : Memory) (chlist : List Nat)
  (bits : UInt8) (frames fuel : Nat) (state : PushState)

/-- Whatever stands in front of the chunk, the push of it ends, and the package of every
channel carries exactly the channel's samples of the whole chunk. -/
def CarriesAll : Prop :=
  ∀ samples : Around, (∀ m : Nat, samples m = chunk m) →
    ∃ final built, serverSppushPush env fuel samples
        (perSampleChunkBytes (frames * chlist.length * bits.toNat) chlist.length) chlist bits
        state = .ok (final, built) ∧
      Complete env.pcm chunk chlist.length bits.toNat frames built

/-- A chunk with nothing known in front of it. -/
theorem chunk_extends : ∃ samples : Around, ∀ m : Nat, samples m = chunk m :=
  ⟨fun place => chunk place.toNat, fun _ => rfl⟩

/-- How the assertions on a push of no bytes turn out. -/
theorem assertions_empty (channels width : Nat) (several : 0 < channels)
    (limited : env.pcm.headerSize < 1500) (packet : 0 < env.configMtu) :
    assertions env 0 channels width =
      if channels * width % 2 ^ 32 = 0 then .error .zeroDivisor else .ok () := by
  have total : ¬ 1500 ≤ (env.pcm.headerSize + 0) % 2 ^ 64 := by omega
  simp only [assertions, if_neg total, Nat.zero_mod, ne_eq, not_true_eq_false, if_false,
    if_neg (Nat.ne_of_gt several), Nat.zero_div, if_neg (Nat.not_le.mpr packet)]

/-- Without frames all that counts is that the stride does not vanish. -/
theorem empty_carries_iff (several : 0 < chlist.length) (limited : env.pcm.headerSize < 1500)
    (packet : 0 < env.configMtu) (enough : 2 ^ 31 + 1 < fuel) :
    CarriesAll env chunk chlist bits 0 fuel state ↔ bits.toNat * chlist.length % 2 ^ 32 ≠ 0 := by
  have told : perSampleChunkBytes (0 * chlist.length * bits.toNat) chlist.length = 0 := by
    rw [per_sample_chunk_bytes bits.toNat 0 chlist.length (by omega) several, Nat.zero_mul]
  have checks := assertions_empty env chlist.length bits.toNat several limited packet
  rw [Nat.mul_comm] at checks
  rw [CarriesAll, told]
  constructor
  · intro carries stands
    obtain ⟨samples, known⟩ := chunk_extends chunk
    obtain ⟨final, built, pushed, _⟩ := carries samples known
    rw [serverSppushPush, checks, if_pos stands, stride_endless env samples bits.toNat fuel 0
      chlist state (by have := bits.toNat_lt; omega) several stands] at pushed
    cases compiled : env.asserts <;> rw [compiled] at pushed <;> cases pushed
  · intro moves samples _
    obtain ⟨final, built, pushed, _, packages⟩ := push_channels_end env samples bits.toNat fuel 0
      _ chlist 0 state moves enough
    refine ⟨final, built, ?_, ?_⟩
    · rw [serverSppushPush, checks, if_neg moves, ite_self]
      exact pushed
    · intro i below
      obtain ⟨buffer, found⟩ := packages i below
      exact ⟨_, found, by simp [front], fun k none => absurd none (Nat.not_lt_zero k)⟩

include assumed in
/-- Inside the signed integers, what a push of given samples carries. -/
theorem unwrapped_complete_iff (samples : Around) (several : 0 < chlist.length)
    (width : 0 < bits.toNat) (inside : (chlist.length - 1) * bits.toNat < 2 ^ 31)
    (small : chlist.length * bits.toNat < 2 ^ 32)
    (limited : env.pcm.headerSize + frames * bits.toNat < 1500)
    (packet : frames * bits.toNat / chlist.length < env.configMtu)
    (enough : frames * bits.toNat < fuel) :
    (∃ final built, serverSppushPush env fuel samples (frames * bits.toNat) chlist bits state =
        .ok (final, built) ∧
      Complete env.pcm (fun m => samples m) chlist.length bits.toNat frames built) ↔
      (env.asserts = true → chlist.length ∣ frames) ∧
        Repeated env.pcm (fun m => samples m) chlist.length bits.toNat frames
          state.channelBuffer := by
  have begins (m : Nat) (below : m < 0 + chlist.length) :
      firstSample bits.toNat m = (m * bits.toNat : Nat) := by
    have most : m * bits.toNat ≤ (chlist.length - 1) * bits.toNat :=
      Nat.mul_le_mul_right bits.toNat (by omega)
    exact first_sample_within bits.toNat m (by omega)
  have stride : bits.toNat * chlist.length % 2 ^ 32 = bits.toNat * chlist.length := by
    rw [Nat.mul_comm]
    exact Nat.mod_eq_of_lt small
  obtain ⟨final, built, pushed, _, packages⟩ := push_channels_built env assumed samples bits.toNat
    frames chlist.length fuel (bits.toNat * chlist.length % 2 ^ 32)
    (fun k j => state.channelBuffer (env.pcm.headerSize + k * bits.toNat + j)) chlist 0 state width
    several (fun _ => stride) begins enough (fun _ _ _ => rfl)
  have complete : Complete env.pcm (fun m => samples m) chlist.length bits.toNat frames built ↔
      Repeated env.pcm (fun m => samples m) chlist.length bits.toNat frames
        state.channelBuffer := by
    refine Iff.trans ?_ (contents_complete samples bits.toNat frames chlist.length
      (fun k j => state.channelBuffer (env.pcm.headerSize + k * bits.toNat + j)))
    constructor
    · intro complete i below k within j inside
      obtain ⟨package, found, _, bytes⟩ := complete i below
      obtain ⟨other, alsoFound, _, gathered⟩ := packages i below
      rw [found] at alsoFound
      obtain rfl := Option.some.inj alsoFound
      have gatheredByte := gathered k within j inside
      rw [bytes k within j inside, Nat.zero_add] at gatheredByte
      exact (Option.some.inj gatheredByte).symm
    · intro contents i below
      obtain ⟨package, found, size, gathered⟩ := packages i below
      refine ⟨package, found, size, ?_⟩
      intro k within j inside
      rw [gathered k within j inside, Nat.zero_add, contents i below k within j inside]
  rcases push_checked env samples chlist bits frames fuel state width several small limited packet
    with ⟨passes, runs⟩ | ⟨fails, fault, stopped⟩
  · rw [runs, pushed]
    constructor
    · rintro ⟨_, _, same, whole⟩
      obtain ⟨rfl, rfl⟩ := Prod.mk.inj (Except.ok.inj same)
      exact ⟨passes, complete.mp whole⟩
    · rintro ⟨_, repeated⟩
      exact ⟨final, built, rfl, complete.mpr repeated⟩
  · rw [stopped]
    constructor
    · rintro ⟨_, _, impossible, _⟩
      cases impossible
    · rintro ⟨passing, _⟩
      exact absurd passing fails

include assumed in
/-- With a product beyond the signed integers some channel is sent a byte from in front of the
chunk. -/
theorem wrapped_carries_not (several : 0 < chlist.length) (width : 0 < bits.toNat)
    (some : 0 < frames) (large : 2 ^ 31 ≤ (chlist.length - 1) * bits.toNat)
    (small : chlist.length * bits.toNat < 2 ^ 32)
    (limited : env.pcm.headerSize + frames * bits.toNat < 1500)
    (packet : frames * bits.toNat / chlist.length < env.configMtu) :
    ¬ CarriesAll env chunk chlist bits frames fuel state := by
  intro carries
  obtain ⟨i, below, _, before⟩ := some_channel_before bits.toNat chlist.length width
    (by have := bits.toNat_lt; omega) large
  -- in front of the chunk stands what is not the first byte of this channel
  let samples : Around := fun place =>
    if 0 ≤ place then chunk place.toNat else chunk (i * bits.toNat) + 1
  have known (m : Nat) : samples m = chunk m := by simp [samples]
  obtain ⟨final, built, pushed, complete⟩ := carries samples known
  rw [per_sample_chunk_bytes bits.toNat frames chlist.length (by omega) several] at pushed
  rcases push_checked env samples chlist bits frames fuel state width several small limited packet
    with ⟨_, runs⟩ | ⟨_, fault, stopped⟩
  · rw [runs] at pushed
    obtain ⟨package, found, first⟩ := push_channels_first env assumed samples bits.toNat fuel
      (frames * bits.toNat) _ chlist 0 state final built width (Nat.mul_pos some width) pushed i
      below (by rw [Nat.zero_add]; omega)
    obtain ⟨other, alsoFound, _, bytes⟩ := complete i below
    rw [found] at alsoFound
    obtain rfl := Option.some.inj alsoFound
    have own := bytes 0 some 0 width
    simp only [Nat.zero_mul, Nat.zero_add, Nat.add_zero] at own first
    rw [first] at own
    have same := Option.some.inj own
    simp only [samples, if_neg (show ¬ 0 ≤ firstSample bits.toNat i by omega)] at same
    revert same
    exact fun same => absurd same (by simp)
  · rw [stopped] at pushed
    cases pushed

include assumed in
/-- The package of every channel carries exactly the channel's samples of the whole chunk,
whatever stands in front of it, if and only if no compiled-in assertion fails, which takes a
number of frames that the channels divide, no product of a channel's index wraps, and the
samples that are not gathered repeat what stands in their places. -/
theorem channels_complete (several : 0 < chlist.length) (width : 0 < bits.toNat)
    (chunkSmall : frames * chlist.length * bits.toNat < 2 ^ 32)
    (limited : env.pcm.headerSize + frames * bits.toNat < 1500)
    (packet : frames * bits.toNat / chlist.length < env.configMtu)
    (enough : 2 ^ 31 + frames * bits.toNat + 1 < fuel) :
    CarriesAll env chunk chlist bits frames fuel state ↔
      (env.asserts = true → chlist.length ∣ frames) ∧
        Unwrapped chlist.length bits.toNat frames ∧
        Repeated env.pcm chunk chlist.length bits.toNat frames state.channelBuffer := by
  by_cases none : frames = 0
  · subst none
    have empty := empty_carries_iff env chunk chlist bits fuel state several (by omega)
      (by simpa using packet) (by omega)
    rw [empty, Unwrapped, if_pos rfl]
    constructor
    · exact fun moves => ⟨fun _ => dvd_zero _, moves, fun k impossible => by omega⟩
    · exact fun both => both.2.1
  · have some : 0 < frames := Nat.pos_of_ne_zero none
    have small : chlist.length * bits.toNat < 2 ^ 32 := by
      have most : 1 * (chlist.length * bits.toNat) ≤ frames * (chlist.length * bits.toNat) :=
        Nat.mul_le_mul_right _ some
      rw [Nat.mul_assoc] at chunkSmall
      omega
    rw [Unwrapped, if_neg none]
    by_cases inside : (chlist.length - 1) * bits.toNat < 2 ^ 31
    · have fixed (samples : Around) := unwrapped_complete_iff env assumed chlist bits frames fuel
        state samples several width inside small limited packet (by omega)
      have told := per_sample_chunk_bytes bits.toNat frames chlist.length (by omega) several
      rw [CarriesAll, told]
      constructor
      · intro carries
        obtain ⟨samples, known⟩ := chunk_extends chunk
        obtain rfl : (fun m : Nat => samples m) = chunk := funext known
        obtain ⟨passes, repeated⟩ := (fixed samples).mp (carries samples known)
        exact ⟨passes, inside, repeated⟩
      · rintro ⟨passes, _, repeated⟩ samples known
        obtain rfl : (fun m : Nat => samples m) = chunk := funext known
        exact (fixed samples).mpr ⟨passes, repeated⟩
    · constructor
      · exact fun carries => absurd carries (wrapped_carries_not env assumed chunk chlist bits
          frames fuel state several width some (Nat.not_lt.mp inside) small limited packet)
      · exact fun both => absurd both.2.1 inside

end Claims

/-- A release build whose channels have one speaker each. -/
def referenceEnvironment : Environment where
  common := Common.reference 1
  pcm := Pcm.reference
  readFd := 3
  speakerList := fun ch => some [ch]
  results := fun _ _ => 0
  asserts := false
  configMtu := 1500
  around := fun _ => 0

/-- A pusher that has not sent anything yet. -/
def freshState : PushState where
  packageSeq := 1
  channelBuffer := fun _ => 0
  server := freshServer

/-- One channel of two-byte samples is complete. -/
theorem one_channel_complete :
    CarriesAll referenceEnvironment UInt8.ofNat [1] 2 3 (2 ^ 31 + 10) freshState := by
  refine (channels_complete referenceEnvironment Pcm.reference_assumed UInt8.ofNat [1] 2 3
    (2 ^ 31 + 10) freshState (by decide) (by decide) (by decide) (by decide) (by decide)
    (by decide)).mpr ⟨by simp [referenceEnvironment], by unfold Unwrapped; decide, ?_⟩
  intro k within i below beyond
  simp only [List.length_singleton] at below beyond
  omega

/-- Of two frames of two one-byte channels only the first frame is sent. -/
theorem second_frame_is_lost :
    ¬ CarriesAll referenceEnvironment (fun m => UInt8.ofNat (m + 1)) [1, 2] 1 2 10 freshState := by
  intro carries
  obtain ⟨final, built, pushed, complete⟩ :=
    carries (fun place => UInt8.ofNat (place.toNat + 1)) (fun _ => rfl)
  have sent : (serverSppushPush referenceEnvironment 10
      (fun place => UInt8.ofNat (place.toNat + 1))
      (perSampleChunkBytes (2 * [1, 2].length * 1) [1, 2].length) [1, 2] 1 freshState).map
        Prod.snd = .ok [[0, 0, 0, 0, 1, 0], [0, 0, 0, 0, 2, 0]] := by decide
  rw [show (1 : UInt8).toNat = 1 from rfl] at pushed
  rw [pushed] at sent
  obtain ⟨package, found, _, bytes⟩ := complete 0 (by decide)
  have second := bytes 1 (by decide) 0 (by decide)
  have same : built = [[0, 0, 0, 0, 1, 0], [0, 0, 0, 0, 2, 0]] := Except.ok.inj sent
  rw [same] at found
  rw [← Option.some.inj found] at second
  revert second
  decide

end Castserver.Channels
