import Castserver.Channels

/-!
# The bounds of the copy loop

The loop of `server_sppush_push` that copies one channel reads up to a last position and
moves on by a stride; what it writes advances by one sample a round. It never writes more
samples than it reads strides, so it stays inside the datagram as long as it starts inside
the samples. Where it starts is a product of two signed integers, and a product of 2^31 or
more is a position before the samples.
-/

namespace Castserver.CopyBounds

open Pusher Pushwave Channels
open Library.Loops

/-- The pointers of the loop, relative to the samples and to the buffer. -/
structure Positions where
  src : Int
  dst : Nat
deriving DecidableEq, Repr

/-- The loop that copies one channel, without the bytes it copies. -/
def copyLoop (len bits step : Nat) : Loop Positions where
  condition := fun state => decide (state.src ≤ (len : Int) - bits)
  body := fun state =>
    { src := state.src + step
      dst := state.dst + bits }

/-- The pointers before the loop. -/
def copyStart (headerSize bits i : Nat) : Positions where
  src := firstSample bits i
  dst := headerSize

/-- The variable `step`. -/
def stride (channels bits : Nat) : Nat := bits * channels % 2 ^ 32

/-- A run of the loop takes a round: the condition holds before this round and before every
earlier one. -/
def Enters (len bits step : Nat) (start : Positions) (round : Nat) : Prop :=
  ∀ earlier ≤ round,
    (copyLoop len bits step).condition ((copyLoop len bits step).body^[earlier] start) = true

/-- Every byte that a round reads is one of the samples, and every byte that it writes
belongs to the payload. -/
def Inside (headerSize len bits : Nat) (state : Positions) : Prop :=
  ∀ j < bits, (0 ≤ state.src + j ∧ state.src + j < len) ∧
    headerSize ≤ state.dst + j ∧ state.dst + j < headerSize + len

/-- All rounds of all channels stay inside. -/
def StaysInside (headerSize len channels bits : Nat) : Prop :=
  ∀ i < channels, ∀ round,
    Enters len bits (stride channels bits) (copyStart headerSize bits i) round →
      Inside headerSize len bits ((copyLoop len bits (stride channels bits)).body^[round]
        (copyStart headerSize bits i))

/-- The pointers of the gathering loop. -/
def positions (state : Gather) : Positions where
  src := state.src
  dst := state.dst

/-- The pointers after some rounds. -/
theorem copy_iterate (len bits step round : Nat) (start : Positions) :
    (copyLoop len bits step).body^[round] start =
      ⟨start.src + (round * step : Nat), start.dst + round * bits⟩ := by
  induction round with
  | zero => simp
  | succ round inductionHypothesis =>
    have src : start.src + (round * step : Nat) + step =
        start.src + ((round + 1) * step : Nat) := by
      push_cast
      ring
    have dst : start.dst + round * bits + bits = start.dst + (round + 1) * bits := by
      ring
    rw [Function.iterate_succ_apply', inductionHypothesis]
    simp only [copyLoop, src, dst]

/-- A product below 2^31 is the position it stands for. -/
theorem copy_start_within (headerSize bits i : Nat) (small : i * bits < 2 ^ 31) :
    copyStart headerSize bits i = ⟨(i * bits : Nat), headerSize⟩ := by
  rw [copyStart, first_sample_within bits i small]

/-- Below 2^31 a round that is taken lies inside. -/
theorem round_inside (headerSize len channels bits i round : Nat) (byte : bits ≤ 255)
    (several : i < channels) (small : (channels - 1) * bits < 2 ^ 31)
    (enters : Enters len bits (stride channels bits) (copyStart headerSize bits i) round) :
    Inside headerSize len bits ((copyLoop len bits (stride channels bits)).body^[round]
      (copyStart headerSize bits i)) := by
  have first : i * bits ≤ (channels - 1) * bits := Nat.mul_le_mul_right bits (by omega)
  have product : bits * channels = (channels - 1) * bits + bits := by
    rw [← Nat.succ_mul, Nat.succ_eq_add_one, Nat.sub_add_cancel (by omega), Nat.mul_comm]
  have exact : stride channels bits = bits * channels := by
    rw [stride]
    omega
  have going := enters round (Nat.le_refl round)
  rw [exact, copy_start_within headerSize bits i (by omega)] at going ⊢
  rw [copy_iterate] at going ⊢
  simp only [copyLoop, decide_eq_true_eq] at going
  -- a sample is not longer than the stride
  have shorter : round * bits ≤ round * (bits * channels) :=
    Nat.mul_le_mul_left round (Nat.le_mul_of_pos_right bits (by omega))
  intro j within
  simp only
  omega

/-- The copy loop stays inside for all channels exactly if every product of an index and the
bytes of a sample is below 2^31. -/
theorem stays_inside_iff (headerSize len channels bits : Nat) (width : 0 < bits)
    (byte : bits ≤ 255) :
    StaysInside headerSize len channels bits ↔ (channels - 1) * bits < 2 ^ 31 := by
  constructor
  · intro inside
    by_contra large
    obtain ⟨i, listed, _, before⟩ :=
      some_channel_before bits channels width byte (Nat.not_lt.mp large)
    have enters : Enters len bits (stride channels bits) (copyStart headerSize bits i) 0 := by
      intro earlier none
      rw [Nat.le_zero.mp none]
      simp only [Function.iterate_zero, id, copyLoop, copyStart, decide_eq_true_eq]
      omega
    obtain ⟨⟨start, _⟩, _⟩ := inside i listed 0 enters 0 width
    simp only [Function.iterate_zero, id, copyStart] at start
    omega
  · intro small i several round enters
    exact round_inside headerSize len channels bits i round byte several small enters

/-- What connects the copy loop to the code: the gathering loop that `server_sppush_push` runs
for a channel has, in every round, the pointers of the copy loop and goes on as it does. -/
theorem gather_is_copy (pcm : Pcm) (samples : Around) (buffer : Memory)
    (len bits step i round : Nat) :
    let gather := gatherLoop pcm samples ((len : Int) - bits) bits step
    let state := gather.body^[round] ⟨buffer, firstSample bits i, pcm.headerSize⟩
    positions state = (copyLoop len bits step).body^[round] (copyStart pcm.headerSize bits i) ∧
      gather.condition state = (copyLoop len bits step).condition (positions state) := by
  refine ⟨?_, rfl⟩
  induction round with
  | zero => rfl
  | succ round inductionHypothesis =>
    simp only [Function.iterate_succ_apply'] at inductionHypothesis ⊢
    rw [← inductionHypothesis]
    rfl

/-- The packages of a push have the length of the header and the samples. -/
theorem package_lengths (env : Environment) (fuel : Nat) (samples : Around)
    (len bits step : Nat) (chlist : List Nat) (i : Nat) (state final : PushState)
    (built : List (List UInt8))
    (pushed : pushChannels env fuel samples len bits step chlist i state = .ok (final, built)) :
    ∀ package ∈ built, package.length = len + env.pcm.headerSize := by
  induction chlist generalizing i state built with
  | nil =>
    cases pushed
    simp
  | cons ch rest inductionHypothesis =>
    obtain ⟨gathered, more, _, later, rfl⟩ :=
      push_channels_cons env samples bits fuel len step ch rest i state final built pushed
    intro package listed
    rcases List.mem_cons.mp listed with rfl | other
    · simp [front]
    · exact inductionHypothesis (i + 1) _ more later package other

/-- Within the size limits the copy loop stays inside the samples and the buffer exactly if
every product of a channel index and the bytes of a sample is below 2^31, and every package
that is handed on is shorter than 1500 bytes. -/
theorem copy_in_bounds (env : Environment) (len channels bits : Nat) (width : 0 < bits)
    (byte : bits ≤ 255) (limited : env.pcm.headerSize + len < 1500) :
    (StaysInside env.pcm.headerSize len channels bits ↔ (channels - 1) * bits < 2 ^ 31) ∧
    ∀ fuel samples chlist state final built,
      pushChannels env fuel samples len bits (stride channels bits) chlist 0 state =
        .ok (final, built) →
      ∀ package ∈ built, package.length < 1500 := by
  constructor
  · exact stays_inside_iff env.pcm.headerSize len channels bits width byte
  · intro fuel samples chlist state final built pushed package listed
    rw [package_lengths env fuel samples len bits _ chlist 0 state final built pushed package
      listed]
    omega

/-- Two channels of two bytes in a chunk of seven bytes. -/
theorem seven_bytes_stay_inside :
    StaysInside 4 7 2 2 ∧
    ∀ fuel samples chlist state final built,
      pushChannels referenceEnvironment fuel samples 7 2 (stride 2 2) chlist 0 state =
        .ok (final, built) →
      ∀ package ∈ built, package.length < 1500 := by
  obtain ⟨inside, short⟩ := copy_in_bounds referenceEnvironment 7 2 2 (by decide) (by decide)
    (by decide)
  constructor
  · exact inside.mpr (by decide)
  · exact short

/-- With 2^24 + 1 channels of 128 bytes the last one starts 2^31 bytes before the samples. -/
theorem product_wraps : ¬ StaysInside 4 128 (2 ^ 24 + 1) 128 := by
  intro inside
  have enters : Enters 128 128 (stride (2 ^ 24 + 1) 128) (copyStart 4 128 (2 ^ 24)) 0 := by
    intro earlier none
    rw [Nat.le_zero.mp none]
    decide
  obtain ⟨⟨start, _⟩, _⟩ := inside (2 ^ 24) (by decide) 0 enters 0 (by decide)
  revert start
  decide

end Castserver.CopyBounds
