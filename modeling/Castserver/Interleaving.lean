import Castserver.Channels

/-!
# Whole chunks split into channels

A call of `server_sppush_push` whose length is that of a whole chunk, all frames of
all channels, gathers every frame of every channel: the gathering loop takes one round
for each frame, and interleaving what it gathered gives the chunk back. The length
handed on for each channel is the length of the chunk too, and the bytes behind the
gathered ones are those that earlier calls left in the static buffer. A call without
frames has nothing to gather, unless some channel starts in front of the chunk.
-/

namespace Castserver.Interleaving

open Pusher Channels
open Library.Loops Library.Slices

/-- The gathering loop of one call of `server_sppush_push`. -/
def copyLoop (pcm : Pcm) (samples : Around) (len channels bits : Nat) : Loop Gather :=
  gatherLoop pcm samples ((len : Int) - bits) bits (bits * channels % 2 ^ 32)

/-- Where the gathering loop of a channel starts. -/
def copyStart (pcm : Pcm) (bits i : Nat) (buffer : Memory) : Gather :=
  ⟨buffer, firstSample bits i, pcm.headerSize⟩

/-- Interleave the blocks of the channels, one sample of each channel for every frame. -/
def interleave (bits frames : Nat) (blocks : List (List UInt8)) : List UInt8 :=
  (List.range frames).flatMap fun k =>
    blocks.flatMap fun block => (block.drop (k * bits)).take bits

/-- The bytes of a package that the gathering loop wrote. -/
def block (pcm : Pcm) (bits frames : Nat) (package : List UInt8) : List UInt8 :=
  (package.drop pcm.headerSize).take (frames * bits)

/-- The payloads that a call hands on, one for each channel. -/
def payloads (env : Environment) (fuel : Nat) (samples : Around) (len : Nat) (chlist : List Nat)
    (bits : UInt8) (state : PushState) : Except Fault (List (List UInt8)) :=
  match serverSppushPush env fuel samples len chlist bits state with
  | .error fault => .error fault
  | .ok (_, built) => .ok (built.map (List.drop env.pcm.headerSize))

/-- One earlier call of `server_sppush_push`, in what surrounded it. -/
structure Earlier where
  env : Environment
  fuel : Nat
  samples : Around
  len : Nat
  chlist : List Nat
  bits : UInt8

/-- The state that a history of calls leaves behind. -/
def replay : List Earlier → PushState → Except Fault PushState
  | [], state => .ok state
  | call :: rest, state =>
    match serverSppushPush call.env call.fuel call.samples call.len call.chlist call.bits state with
    | .error fault => .error fault
    | .ok (state, _) => replay rest state

/-- Each payload has the length of one channel's samples and consists of bytes of that
channel's samples. -/
def Own (samples : Around) (channels bits frames : Nat) (payloads : List (List UInt8)) : Prop :=
  ∀ i < channels, ∃ payload, payloads[i]? = some payload ∧
    payload.length = frames * channels * bits / channels ∧
    ∀ byte ∈ payload, ∃ k < frames, ∃ j < bits,
      byte = samples ((k * channels + i) * bits + j : Nat)

/-- The payloads of a call depend on this call only: after every history they are the
channels' own samples, and after any two histories they are the same. -/
def CurrentOnly (env : Environment) (fuel : Nat) (samples : Around) (frames : Nat)
    (chlist : List Nat) (bits : UInt8) (start : PushState) : Prop :=
  (∀ history state, replay history start = .ok state →
    ∃ built, payloads env fuel samples (frames * chlist.length * bits.toNat) chlist bits state =
      .ok built ∧ Own samples chlist.length bits.toNat frames built) ∧
  ∀ first second firstState secondState, replay first start = .ok firstState →
    replay second start = .ok secondState →
    payloads env fuel samples (frames * chlist.length * bits.toNat) chlist bits firstState =
      payloads env fuel samples (frames * chlist.length * bits.toNat) chlist bits secondState

/-- De-interleaving is undone by interleaving. Whatever the buffer holds, the gathering loop of
each channel takes exactly one round for each frame and leaves the channel's samples behind
the header, and interleaving the blocks that a push hands on gives the chunk back. -/
def Restored (env : Environment) (fuel : Nat) (samples : Around) (frames : Nat)
    (chlist : List Nat) (bits : UInt8) (state : PushState) : Prop :=
  (∀ i < chlist.length, ∀ buffer,
    let loop := copyLoop env.pcm samples (frames * chlist.length * bits.toNat) chlist.length
      bits.toNat
    let start := copyStart env.pcm bits.toNat i buffer
    let last := loop.body^[frames] start
    (∀ supply, loop.run supply start = if frames < supply then some last else none) ∧
    ∀ k < frames, ∀ j < bits.toNat,
      last.buffer (env.pcm.headerSize + k * bits.toNat + j) =
        samples ((k * chlist.length + i) * bits.toNat + j : Nat)) ∧
  ∃ final built, serverSppushPush env fuel samples (frames * chlist.length * bits.toNat) chlist
      bits state = .ok (final, built) ∧
    interleave bits.toNat frames (built.map (block env.pcm bits.toNat frames)) =
      front (fun m => samples m) (frames * chlist.length * bits.toNat)

/-- The samples of one channel, frame after frame. -/
def channelSamples (chunk : Memory) (channels bits frames i : Nat) : List UInt8 :=
  (List.range (frames * bits)).map fun m =>
    chunk ((m / bits * channels + i) * bits + m % bits)

section Gathering

variable (samples : Around) (bits frames channels : Nat)

/-- In a whole chunk a channel has a sample in each frame. -/
theorem frame_within (k i : Nat) (below : i < channels) :
    k * channels + i < frames * channels ↔ k < frames := by
  constructor
  · intro inside
    by_contra beyond
    have above : frames * channels ≤ k * channels :=
      Nat.mul_le_mul_right channels (Nat.not_lt.mp beyond)
    omega
  · intro inside
    have above : (k + 1) * channels ≤ frames * channels := Nat.mul_le_mul_right channels inside
    rw [Nat.add_mul, Nat.one_mul] at above
    omega

/-- Within a chunk shorter than a 32-bit number the stride is exact. -/
theorem stride_exact (small : frames * channels * bits < 2 ^ 32) (some : 0 < frames) :
    bits * channels % 2 ^ 32 = bits * channels := by
  apply Nat.mod_eq_of_lt
  have most : 1 * (bits * channels) ≤ frames * (bits * channels) := Nat.mul_le_mul_right _ some
  have same : frames * channels * bits = frames * (bits * channels) := by ring
  omega

/-- With frames the products of the channels' indices are shorter than the chunk. -/
theorem products_below (some : 0 < frames) :
    (channels - 1) * bits ≤ frames * channels * bits :=
  Nat.mul_le_mul_right bits (Nat.le_trans (Nat.sub_le _ _) (Nat.le_mul_of_pos_left _ some))

/-- The gathering loop of a channel takes one round for each frame, and then the frames
hold the channel's samples. -/
theorem copy_loop_counted {pcm : Pcm} (copies : ∀ bits dst target src origin,
      pcm.bitsCpy bits dst target src origin = blit bits dst target src origin)
    (i : Nat) (buffer : Memory) (width : 0 < bits) (below : i < channels)
    (small : frames * channels * bits < 2 ^ 32)
    (begins : firstSample bits i = (i * bits : Nat)) :
    (∀ fuel, (copyLoop pcm samples (frames * channels * bits) channels bits).run fuel
        (copyStart pcm bits i buffer) =
      if frames < fuel then
        some ((copyLoop pcm samples (frames * channels * bits) channels bits).body^[frames]
          (copyStart pcm bits i buffer))
      else none) ∧
    ∀ k < frames, ∀ j < bits,
      ((copyLoop pcm samples (frames * channels * bits) channels bits).body^[frames]
        (copyStart pcm bits i buffer)).buffer (pcm.headerSize + k * bits + j) =
          samples ((k * channels + i) * bits + j : Nat) := by
  let loop := copyLoop pcm samples (frames * channels * bits) channels bits
  let content : Nat → Nat → UInt8 := fun k j => buffer (pcm.headerSize + k * bits + j)
  let invariant := Gathered samples bits (frames * channels) channels pcm i content
  have going (rounds : Nat) (state : Gather) (gathered : invariant rounds state) :
      loop.condition state = decide (rounds < frames) := by
    have inside : (((rounds * channels + i) * bits : Nat) : Int) ≤
        ((frames * channels * bits : Nat) : Int) - bits ↔ rounds < frames := by
      rw [← frame_within frames channels rounds i below, ← Nat.succ_le_iff,
        ← Nat.mul_le_mul_right_iff width, Nat.succ_mul]
      omega
    simp only [loop, copyLoop, gatherLoop, gathered.src, inside]
  have kept (rounds : Nat) (state : Gather) (more : rounds < frames)
      (gathered : invariant rounds state) :
      loop.condition state = true ∧ invariant (rounds + 1) (loop.body state) := by
    constructor
    · rw [going rounds state gathered, decide_eq_true more]
    · exact gather_round copies samples bits (frames * channels) channels i rounds
        (bits * channels % 2 ^ 32) content state
        (stride_exact bits frames channels small (by omega))
        ((frame_within frames channels rounds i below).mpr more) gathered
  have initial : invariant 0 (copyStart pcm bits i buffer) :=
    gathered_start samples bits (frames * channels) channels i content buffer
      (fun _ _ _ => rfl) begins
  obtain ⟨last, runs⟩ := loop.counted_rule invariant frames (copyStart pcm bits i buffer) initial
    kept (fun state gathered => by rw [going frames state gathered]; simp)
  refine ⟨runs, ?_⟩
  intro k inside j within
  rw [last.holds k j within, if_pos inside]

end Gathering

section Pushing

variable (env : Environment) (copies : ∀ bits dst target src origin,
    env.pcm.bitsCpy bits dst target src origin = blit bits dst target src origin)
  (samples : Around) (chlist : List Nat)

section Widths

variable (bits frames fuel : Nat)

include copies in
/-- The loop over the channels of a whole chunk ends, and the package of each channel
carries the samples of the channel. -/
theorem push_channels_gathered (channels i : Nat) (state : PushState) (width : 0 < bits)
    (fits : i + chlist.length ≤ channels) (small : frames * channels * bits < 2 ^ 32)
    (inside : (channels - 1) * bits < 2 ^ 31) (enough : frames < fuel) :
    ∃ final built, pushChannels env fuel samples (frames * channels * bits) bits
        (bits * channels % 2 ^ 32) chlist i state = .ok (final, built) ∧
      built.length = chlist.length ∧
      ∀ m < chlist.length, ∃ package, built[m]? = some package ∧
        package.length = env.pcm.headerSize + frames * channels * bits ∧
        ∀ k < frames, ∀ j < bits, package[env.pcm.headerSize + k * bits + j]? =
          some (samples ((k * channels + (i + m)) * bits + j : Nat)) := by
  obtain ⟨final, built, pushed, count, packages⟩ := push_channels_rule env samples bits
    (fun _ _ => True)
    (fun m buffer => ∀ k < frames, ∀ j < bits, buffer (env.pcm.headerSize + k * bits + j) =
      samples ((k * channels + m) * bits + j : Nat))
    fuel (frames * channels * bits) (bits * channels % 2 ^ 32) chlist i state
    (fun m buffer below _ => by
      have most : m * bits ≤ (channels - 1) * bits := Nat.mul_le_mul_right bits (by omega)
      obtain ⟨counted, gathered⟩ := copy_loop_counted samples bits frames channels copies m buffer
        width (by omega) small (first_sample_within bits m (by omega))
      have ran := counted fuel
      rw [if_pos enough] at ran
      exact ⟨_, ran, gathered⟩)
    (fun _ _ _ _ => trivial) trivial
  refine ⟨final, built, pushed, count, ?_⟩
  intro m below
  obtain ⟨buffer, gathered, found⟩ := packages m below
  have more : frames * bits ≤ frames * channels * bits :=
    Nat.mul_le_mul_right bits (Nat.le_mul_of_pos_right frames (by omega))
  refine ⟨_, found, by simp [front, Nat.add_comm], ?_⟩
  intro k inside j within
  rw [front_sample bits frames buffer _ _ k j inside within more, gathered k inside j within]

end Widths

section Lists

variable (chunk : Memory) (bits frames : Nat)

/-- The gathered block of a package, from its bytes. -/
theorem block_samples (channels i : Nat) (package : List UInt8) (width : 0 < bits)
    (bytes : ∀ k < frames, ∀ j < bits, package[env.pcm.headerSize + k * bits + j]? =
      some (chunk ((k * channels + i) * bits + j))) :
    block env.pcm bits frames package = channelSamples chunk channels bits frames i := by
  apply List.ext_getElem?
  intro m
  by_cases inside : m < frames * bits
  · have split : m / bits * bits + m % bits = m := Nat.div_add_mod' m bits
    have byte := bytes (m / bits) ((Nat.div_lt_iff_lt_mul width).mpr inside) (m % bits)
      (Nat.mod_lt m width)
    rw [Nat.add_assoc, split] at byte
    simp only [block, channelSamples, List.getElem?_take, inside, if_true, List.getElem?_drop,
      byte, List.getElem?_map, List.getElem?_range, Option.map_some]
  · simp [block, channelSamples, inside]

/-- The bytes of one frame in a channel's samples. -/
theorem channel_samples_frame (channels i k : Nat) (inside : k < frames) :
    ((channelSamples chunk channels bits frames i).drop (k * bits)).take bits =
      (List.range bits).map fun j => chunk ((k * channels + i) * bits + j) := by
  apply List.ext_getElem?
  intro j
  by_cases within : j < bits
  · have room : (k + 1) * bits ≤ frames * bits := Nat.mul_le_mul_right bits inside
    rw [Nat.add_mul, Nat.one_mul] at room
    have frame : (k * bits + j) / bits = k := by
      rw [Nat.mul_comm, Nat.mul_add_div (by omega), Nat.div_eq_of_lt within, Nat.add_zero]
    have position : (k * bits + j) % bits = j := by
      rw [Nat.mul_comm, Nat.mul_add_mod, Nat.mod_eq_of_lt within]
    have below : k * bits + j < frames * bits := by omega
    simp only [channelSamples, List.getElem?_take, within, if_true, List.getElem?_drop,
      List.getElem?_map, List.getElem?_range, below, Option.map_some, frame, position]
  · simp [within]

/-- Interleaving the samples of all channels gives the chunk back. -/
theorem interleave_blocks (channels : Nat) (blocks : List (List UInt8))
    (count : blocks.length = channels)
    (known : ∀ i < channels, blocks[i]? = some (channelSamples chunk channels bits frames i)) :
    interleave bits frames blocks = front chunk (frames * channels * bits) := by
  have frame (k : Nat) (inside : k < frames) :
      (blocks.flatMap fun block => (block.drop (k * bits)).take bits) =
        (List.range channels).flatMap fun i =>
          (List.range bits).map fun j => chunk ((k * channels + i) * bits + j) := by
    rw [← count]
    apply flat_map_indexed
    intro i below
    rw [count] at below ⊢
    exact ⟨_, known i below, channel_samples_frame chunk bits frames channels i k inside⟩
  rw [front, Nat.mul_assoc, map_range_blocks, interleave, List.flatMap_def, List.flatMap_def]
  congr 1
  apply List.map_congr_left
  intro k member
  rw [frame k (List.mem_range.mp member), map_range_blocks]
  congr 1
  funext i
  congr 1
  funext j
  congr 1
  ring

/-- The bytes of a channel's samples belong to the channel. -/
theorem channel_samples_own (channels i : Nat) (byte : UInt8) (width : 0 < bits)
    (member : byte ∈ channelSamples chunk channels bits frames i) :
    ∃ k < frames, ∃ j < bits, byte = chunk ((k * channels + i) * bits + j) := by
  obtain ⟨m, inside, rfl⟩ := List.mem_map.mp member
  exact ⟨m / bits, (Nat.div_lt_iff_lt_mul width).mpr (List.mem_range.mp inside), m % bits,
    Nat.mod_lt m width, rfl⟩

end Lists

variable (bits : UInt8) (frames fuel : Nat)

/-- Within the size limits a whole chunk passes the assertions, if the stride of its frames does
not vanish. -/
theorem assertions_whole (several : 0 < chlist.length)
    (limited : env.pcm.headerSize + frames * chlist.length * bits.toNat < 1500)
    (packet : frames * chlist.length * bits.toNat / chlist.length < env.configMtu)
    (moves : bits.toNat * chlist.length % 2 ^ 32 ≠ 0) :
    assertions env (frames * chlist.length * bits.toNat) chlist.length bits.toNat = .ok () := by
  rw [Nat.mul_comm] at moves
  have multiple : frames * chlist.length * bits.toNat % (chlist.length * bits.toNat % 2 ^ 32) =
      0 := by
    by_cases none : frames = 0
    · rw [none, Nat.zero_mul, Nat.zero_mul, Nat.zero_mod]
    · have exact : chlist.length * bits.toNat % 2 ^ 32 = chlist.length * bits.toNat := by
        rw [Nat.mul_comm]
        exact stride_exact bits.toNat frames chlist.length (by omega) (Nat.pos_of_ne_zero none)
      rw [exact, Nat.mul_assoc]
      exact Nat.mul_mod_left frames (chlist.length * bits.toNat)
  have total : ¬ 1500 ≤
      (env.pcm.headerSize + frames * chlist.length * bits.toNat) % 2 ^ 64 := by omega
  simp only [assertions, if_neg total, if_neg moves, multiple, ne_eq, not_true_eq_false, if_false,
    if_neg (Nat.ne_of_gt several), if_neg (Nat.not_le.mpr packet)]

/-- A push of a whole chunk within the size limits is the loop over its channels. -/
theorem push_is_loop (state : PushState) (several : 0 < chlist.length)
    (limited : env.pcm.headerSize + frames * chlist.length * bits.toNat < 1500)
    (packet : frames * chlist.length * bits.toNat / chlist.length < env.configMtu)
    (moves : bits.toNat * chlist.length % 2 ^ 32 ≠ 0) :
    serverSppushPush env fuel samples (frames * chlist.length * bits.toNat) chlist bits state =
      pushChannels env fuel samples (frames * chlist.length * bits.toNat) bits.toNat
        (bits.toNat * chlist.length % 2 ^ 32) chlist 0 state := by
  rw [serverSppushPush, assertions_whole env chlist bits frames several limited packet moves,
    ite_self]

/-- Below 2^31 the stride does not vanish. -/
theorem stride_moves (several : 0 < chlist.length) (width : 0 < bits.toNat)
    (inside : (chlist.length - 1) * bits.toNat < 2 ^ 31) :
    bits.toNat * chlist.length % 2 ^ 32 ≠ 0 := by
  have byte := bits.toNat_lt
  have product : bits.toNat * chlist.length = (chlist.length - 1) * bits.toNat + bits.toNat := by
    rw [← Nat.succ_mul, Nat.succ_eq_add_one, Nat.sub_add_cancel (by omega), Nat.mul_comm]
  omega

include copies in
/-- A push of a whole chunk succeeds, and the package of each channel carries the samples
of the channel. -/
theorem push_whole (state : PushState) (several : 0 < chlist.length) (width : 0 < bits.toNat)
    (inside : (chlist.length - 1) * bits.toNat < 2 ^ 31)
    (limited : env.pcm.headerSize + frames * chlist.length * bits.toNat < 1500)
    (packet : frames * chlist.length * bits.toNat / chlist.length < env.configMtu)
    (enough : frames * chlist.length * bits.toNat < fuel) :
    ∃ final built, serverSppushPush env fuel samples (frames * chlist.length * bits.toNat) chlist
        bits state = .ok (final, built) ∧ built.length = chlist.length ∧
      ∀ i < chlist.length, ∃ package, built[i]? = some package ∧
        package.length = env.pcm.headerSize + frames * chlist.length * bits.toNat ∧
        ∀ k < frames, ∀ j < bits.toNat,
          package[env.pcm.headerSize + k * bits.toNat + j]? =
            some (samples ((k * chlist.length + i) * bits.toNat + j : Nat)) := by
  have rounds : frames ≤ frames * chlist.length * bits.toNat := by
    rw [Nat.mul_assoc]
    exact Nat.le_mul_of_pos_right frames (Nat.mul_pos several width)
  obtain ⟨final, built, pushed, count, packages⟩ := push_channels_gathered env copies samples
    chlist bits.toNat frames fuel chlist.length 0 state width (by omega) (by omega) inside
    (by omega)
  refine ⟨final, built, ?_, count, ?_⟩
  · rw [push_is_loop env samples chlist bits frames fuel state several limited packet
      (stride_moves chlist bits several width inside), pushed]
  · intro i below
    obtain ⟨package, found, size, bytes⟩ := packages i below
    rw [Nat.zero_add] at bytes
    exact ⟨package, found, size, bytes⟩

include copies in
/-- The payloads of a whole chunk are as long as the chunk and start with the samples of
their channels. -/
theorem payloads_whole (state : PushState) (several : 0 < chlist.length) (width : 0 < bits.toNat)
    (inside : (chlist.length - 1) * bits.toNat < 2 ^ 31)
    (limited : env.pcm.headerSize + frames * chlist.length * bits.toNat < 1500)
    (packet : frames * chlist.length * bits.toNat / chlist.length < env.configMtu)
    (enough : frames * chlist.length * bits.toNat < fuel) :
    ∃ built, payloads env fuel samples (frames * chlist.length * bits.toNat) chlist bits state =
        .ok built ∧ built.length = chlist.length ∧
      ∀ i < chlist.length, ∃ payload, built[i]? = some payload ∧
        payload.length = frames * chlist.length * bits.toNat ∧
        payload.take (frames * bits.toNat) =
          channelSamples (fun m => samples m) chlist.length bits.toNat frames i := by
  obtain ⟨final, built, pushed, count, packages⟩ := push_whole env copies samples chlist bits
    frames fuel state several width inside limited packet enough
  refine ⟨built.map (List.drop env.pcm.headerSize), by rw [payloads, pushed],
    by rw [List.length_map, count], ?_⟩
  intro i below
  obtain ⟨package, found, size, bytes⟩ := packages i below
  exact ⟨package.drop env.pcm.headerSize, by rw [List.getElem?_map, found]; rfl,
    by rw [List.length_drop, size]; omega,
    block_samples env (fun m => samples m) bits.toNat frames chlist.length i package width bytes⟩

/-- Without frames, if the stride does not vanish, the payloads are empty. -/
theorem payloads_empty (state : PushState) (several : 0 < chlist.length)
    (limited : env.pcm.headerSize < 1500) (packet : 0 < env.configMtu)
    (moves : bits.toNat * chlist.length % 2 ^ 32 ≠ 0) (enough : 2 ^ 31 + 1 < fuel) :
    payloads env fuel samples 0 chlist bits state =
      .ok (List.replicate chlist.length []) := by
  have whole := push_is_loop env samples chlist bits 0 fuel state several (by simpa using limited)
    (by simpa using packet) moves
  obtain ⟨final, built, pushed, count, packages⟩ := push_channels_end env samples bits.toNat fuel 0
    _ chlist 0 state moves enough
  simp only [Nat.zero_mul] at whole
  rw [payloads, whole, pushed]
  apply congrArg Except.ok
  apply List.ext_getElem?
  intro i
  by_cases below : i < chlist.length
  · obtain ⟨buffer, found⟩ := packages i below
    rw [List.getElem?_map, found, List.getElem?_replicate_of_lt below]
    simp [front]
  · rw [List.getElem?_eq_none (by simp; omega), List.getElem?_eq_none (by simp; omega)]

include copies in
/-- With one channel, or without frames and with a stride, the payloads are the samples of their
channels in every state. -/
theorem payloads_exact (state : PushState) (several : 0 < chlist.length)
    (width : 0 < bits.toNat)
    (limited : env.pcm.headerSize + frames * chlist.length * bits.toNat < 1500)
    (packet : frames * chlist.length * bits.toNat / chlist.length < env.configMtu)
    (enough : 2 ^ 31 + frames * chlist.length * bits.toNat + 1 < fuel)
    (single : chlist.length = 1 ∨ frames = 0 ∧ bits.toNat * chlist.length % 2 ^ 32 ≠ 0) :
    payloads env fuel samples (frames * chlist.length * bits.toNat) chlist bits state =
      .ok ((List.range chlist.length).map
        (channelSamples (fun m => samples m) chlist.length bits.toNat frames)) := by
  rcases single with one | ⟨rfl, moves⟩
  · obtain ⟨built, handed, count, payloads⟩ := payloads_whole env copies samples chlist bits
      frames fuel state several width (by rw [one]; omega) limited packet (by omega)
    have size : frames * chlist.length * bits.toNat = frames * bits.toNat := by
      rw [one, Nat.mul_one]
    rw [handed]
    congr 1
    apply List.ext_getElem?
    intro i
    by_cases below : i < chlist.length
    · obtain ⟨payload, found, long, own⟩ := payloads i below
      rw [List.take_of_length_le (by rw [long, size])] at own
      rw [found, own, List.getElem?_map, List.getElem?_range below]
      rfl
    · rw [List.getElem?_eq_none (by omega), List.getElem?_eq_none (by simpa using below)]
  · simp only [Nat.zero_mul] at limited packet enough ⊢
    rw [payloads_empty env samples chlist bits fuel state several (by omega) (by simpa using packet)
      moves (by omega)]
    congr 1
    apply List.ext_getElem?
    intro i
    by_cases below : i < chlist.length
    · rw [List.getElem?_replicate_of_lt below, List.getElem?_map, List.getElem?_range below]
      simp [channelSamples]
    · rw [List.getElem?_eq_none (by simp; omega), List.getElem?_eq_none (by simp; omega)]

/-- Without a stride a push without frames has no payloads. -/
theorem payloads_stuck (state : PushState) (several : 0 < chlist.length)
    (stands : bits.toNat * chlist.length % 2 ^ 32 = 0) (built : List (List UInt8)) :
    payloads env fuel samples 0 chlist bits state ≠ .ok built := by
  have endless := stride_endless env samples bits.toNat fuel 0 chlist state
    (by have := bits.toNat_lt; omega) several stands
  rw [payloads, serverSppushPush, endless]
  cases if env.asserts then assertions env 0 chlist.length bits.toNat else .ok () with
  | error fault =>
    intro same
    cases same
  | ok =>
    intro same
    cases same

include copies in
/-- The payloads depend on the current call only exactly if the chunk has one channel, or no
frames and a stride that does not vanish. With more channels and some frames, each payload is
longer than the samples of its channel by what earlier calls left in the buffer. -/
theorem current_only_iff (start : PushState) (several : 0 < chlist.length)
    (width : 0 < bits.toNat)
    (limited : env.pcm.headerSize + frames * chlist.length * bits.toNat < 1500)
    (packet : frames * chlist.length * bits.toNat / chlist.length < env.configMtu)
    (enough : 2 ^ 31 + frames * chlist.length * bits.toNat + 1 < fuel) :
    CurrentOnly env fuel samples frames chlist bits start ↔
      chlist.length = 1 ∨ frames = 0 ∧ bits.toNat * chlist.length % 2 ^ 32 ≠ 0 := by
  constructor
  · rintro ⟨own, _⟩
    by_contra neither
    rw [not_or, not_and] at neither
    obtain ⟨built, handed, channels⟩ := own [] start rfl
    by_cases none : frames = 0
    · subst none
      simp only [Nat.zero_mul] at handed
      exact payloads_stuck env samples chlist bits fuel start several
        (not_not.mp (neither.2 rfl)) built handed
    have some : 0 < frames := Nat.pos_of_ne_zero none
    have below := products_below bits.toNat frames chlist.length some
    obtain ⟨payload, found, size, _⟩ := channels 0 several
    obtain ⟨other, alsoHanded, _, whole⟩ := payloads_whole env copies samples chlist bits frames
      fuel start several width (by omega) limited packet (by omega)
    obtain ⟨same, alsoFound, long, _⟩ := whole 0 several
    rw [alsoHanded] at handed
    obtain rfl := Except.ok.inj handed
    rw [alsoFound] at found
    obtain rfl := Option.some.inj found
    have two : 2 ≤ chlist.length := by omega
    have positive : 0 < frames * chlist.length * bits.toNat :=
      Nat.mul_pos (Nat.mul_pos some several) width
    have less := Nat.div_lt_self positive two
    omega
  · intro single
    have exactly (state : PushState) := payloads_exact env copies samples chlist bits frames fuel
      state several width limited packet enough single
    constructor
    · intro history state _
      refine ⟨_, exactly state, ?_⟩
      intro i below
      refine ⟨channelSamples (fun m => samples m) chlist.length bits.toNat frames i, ?_, ?_, ?_⟩
      · rw [List.getElem?_map, List.getElem?_range below]
        rfl
      · rw [channelSamples, List.length_map, List.length_range]
        rcases single with one | ⟨none, _⟩
        · rw [one, Nat.mul_one, Nat.div_one]
        · simp [none]
      · intro byte member
        exact channel_samples_own (fun m => samples m) bits.toNat frames chlist.length i byte width
          member
    · intro first second firstState secondState _ _
      rw [exactly firstState, exactly secondState]

include copies in
/-- Interleaving undoes de-interleaving exactly if no product of a channel's index and the bytes
of a sample leaves the signed integers. With frames it never does within the size limits;
without, a channel in front of the chunk would be gathered although there is nothing to take. -/
theorem interleaving_restores (state : PushState) (several : 0 < chlist.length)
    (width : 0 < bits.toNat)
    (limited : env.pcm.headerSize + frames * chlist.length * bits.toNat < 1500)
    (packet : frames * chlist.length * bits.toNat / chlist.length < env.configMtu)
    (enough : frames * chlist.length * bits.toNat < fuel) :
    Restored env fuel samples frames chlist bits state ↔
      (chlist.length - 1) * bits.toNat < 2 ^ 31 := by
  constructor
  · rintro ⟨loops, _⟩
    by_contra large
    obtain ⟨i, below, _, before⟩ := some_channel_before bits.toNat chlist.length width
      (by have := bits.toNat_lt; omega) (Nat.not_lt.mp large)
    have none : frames = 0 := by
      by_contra some
      have shorter := products_below bits.toNat frames chlist.length (Nat.pos_of_ne_zero some)
      omega
    subst none
    -- one test is enough for a loop that is not entered
    have once := (loops i below state.channelBuffer).1 1
    have entered : (copyLoop env.pcm samples (0 * chlist.length * bits.toNat) chlist.length
        bits.toNat).condition (copyStart env.pcm bits.toNat i state.channelBuffer) = true := by
      simp only [copyLoop, gatherLoop, copyStart, decide_eq_true_eq, Nat.zero_mul]
      omega
    rw [Loop.run, if_pos entered, if_pos Nat.one_pos] at once
    cases once
  · intro inside
    constructor
    · intro i below buffer
      have most : i * bits.toNat ≤ (chlist.length - 1) * bits.toNat :=
        Nat.mul_le_mul_right bits.toNat (by omega)
      exact copy_loop_counted samples bits.toNat frames chlist.length copies i buffer width below
        (by omega) (first_sample_within bits.toNat i (by omega))
    · obtain ⟨final, built, pushed, count, packages⟩ := push_whole env copies samples chlist bits
        frames fuel state several width inside limited packet enough
      refine ⟨final, built, pushed, ?_⟩
      apply interleave_blocks (fun m => samples m) bits.toNat frames chlist.length _
        (by rw [List.length_map, count])
      intro i below
      obtain ⟨package, found, _, bytes⟩ := packages i below
      rw [List.getElem?_map, found, Option.map_some,
        block_samples env (fun m => samples m) bits.toNat frames chlist.length i package width bytes]

end Pushing

/-- One channel of two-byte samples depends on the current call only. -/
theorem one_channel_current_only :
    CurrentOnly referenceEnvironment (2 ^ 31 + 20) (fun place => UInt8.ofNat place.toNat) 3 [1] 2
        freshState ↔
      [1].length = 1 ∨ 3 = 0 ∧ (2 : UInt8).toNat * [1].length % 2 ^ 32 ≠ 0 :=
  current_only_iff referenceEnvironment Pcm.reference_assumed.copies
    (fun place => UInt8.ofNat place.toNat) [1] 2 3 (2 ^ 31 + 20) freshState (by decide) (by decide)
    (by decide) (by decide) (by decide)

/-- An earlier call that fills the buffer with sevens. -/
def sevens : Earlier where
  env := referenceEnvironment
  fuel := 20
  samples := fun _ => 7
  len := 8
  chlist := [1]
  bits := 1

/-- Two one-byte channels of two frames carry two bytes of whatever was pushed before. -/
theorem earlier_call_is_sent :
    ¬ CurrentOnly referenceEnvironment 20 (fun place => UInt8.ofNat (place.toNat + 1)) 2 [1, 2] 1
      freshState := by
  rintro ⟨_, equal⟩
  have different := equal [] [sevens] freshState _ rfl rfl
  revert different
  decide

/-- Three frames of two two-byte channels come back from their blocks. -/
theorem two_channels_are_restored :
    Restored referenceEnvironment 20 (fun place => UInt8.ofNat place.toNat) 3 [1, 2] 2
        freshState ↔
      ([1, 2].length - 1) * (2 : UInt8).toNat < 2 ^ 31 :=
  interleaving_restores referenceEnvironment Pcm.reference_assumed.copies
    (fun place => UInt8.ofNat place.toNat) [1, 2] 2 3 20 freshState (by decide) (by decide)
    (by decide) (by decide) (by decide)

/-- With 2^24 + 1 channels of 128 bytes the loop of the last one takes a round although there
are no frames. -/
theorem empty_chunk_is_read :
    ¬ Restored referenceEnvironment 20 (fun place => UInt8.ofNat place.toNat) 0
      (List.replicate (2 ^ 24 + 1) 0) 128 freshState := by
  have many : (List.replicate (2 ^ 24 + 1) 0).length = 2 ^ 24 + 1 := List.length_replicate
  generalize List.replicate (2 ^ 24 + 1) 0 = chlist at many ⊢
  rintro ⟨loops, _⟩
  have once := (loops (2 ^ 24) (by omega) freshState.channelBuffer).1 1
  have entered (channels : Nat) : (copyLoop referenceEnvironment.pcm
      (fun place => UInt8.ofNat place.toNat) (0 * channels * (128 : UInt8).toNat) channels
      (128 : UInt8).toNat).condition (copyStart referenceEnvironment.pcm (128 : UInt8).toNat
        (2 ^ 24) freshState.channelBuffer) = true := by
    simp only [Nat.zero_mul]
    rfl
  rw [Loop.run, if_pos (entered chlist.length), if_pos Nat.one_pos] at once
  cases once

end Castserver.Interleaving
