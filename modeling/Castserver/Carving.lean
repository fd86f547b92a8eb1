import Castserver.Channels

/-!
# Carving the first message

The first loop of `cmd_wave` in its rounds: where the pointer and the length stand after
each of them, and how many there are. Every push starts a chunk behind the one before it
and lies inside the message; the length it is told is the chunk divided by the number of
channels, which is a whole number of frames for the callee only if the channels divide the
frames of the chunk once more. The channels are taken to be other than zero and every push
to return; for a call that is carried out and returns, `WaveEnds.play_wave_records` gives its
pushes as those of this loop.
-/

namespace Castserver.Carving

open Pusher Pushwave Channels
open Library.Loops

/-- Every push passes the assertions of `server_sppush_push`. -/
def Respects (env : Environment) (chlist : List Nat) (pushes : List PushCall) : Prop :=
  ∀ call ∈ pushes, asserted env call.len chlist.length call.bits = true

/-- The variables at a test of the loop, some pushes after its start: the length has been
shortened by the pushed chunks without wrapping, the subtraction of the header does not
wrap either, and the pointer stands behind the pushed chunks. -/
structure AtTest (payload : List UInt8) (headerSize chunk pushed : Nat) (state : Initial) :
    Prop where
  length : state.length + pushed * chunk = payload.length
  within : headerSize ≤ state.length
  offset : leftOver headerSize state.length = state.length - headerSize
  data : state.data = payload.drop (headerSize + pushed * chunk)

/-- The pushes of the loop, and what it leaves to the buffer behind it. -/
structure Carves (payload : List UInt8) (headerSize chunk : Nat) (state : Initial) : Prop where
  pushed : state.pushes.length = (payload.length - headerSize) / chunk
  inside : ∀ k < (payload.length - headerSize) / chunk,
    headerSize + k * chunk + chunk ≤ payload.length ∧
      ∃ call, state.pushes[k]? = some call ∧
        call.samples = (payload.drop (headerSize + k * chunk)).take chunk
  offset : leftOver headerSize state.length = (payload.length - headerSize) % chunk
  fits : leftOver headerSize state.length < chunk
  tail : state.data.length = leftOver headerSize state.length ∧
    state.data = payload.drop
      (headerSize + (payload.length - headerSize) / chunk * chunk)

section Rounds

variable (headerSize chunk len bits : Nat) (start : Initial)

/-- The variables of the loop after some rounds, whether or not it would have taken them. -/
structure Carved (round : Nat) (state : Initial) : Prop where
  length : state.length = sizeT ((start.length : Int) - (round * chunk : Nat))
  data : state.data = start.data.drop (round * chunk)
  pushes : state.pushes = start.pushes ++
    (List.range round).map fun k => ⟨(start.data.drop (k * chunk)).take chunk, len, bits⟩

/-- One round moves the pointer and the length by a chunk. -/
theorem carved_round (round : Nat) (state : Initial)
    (carved : Carved chunk len bits start round state) :
    Carved chunk len bits start (round + 1)
      ((initialLoop headerSize chunk len bits).body state) := by
  have next : (round + 1) * chunk = round * chunk + chunk := by
    rw [Nat.add_mul, Nat.one_mul]
  constructor
  · simp only [initialLoop, carved.length, next, sizeT]
    omega
  · simp only [initialLoop, carved.data, List.drop_drop, next]
  · simp only [initialLoop, carved.pushes, carved.data, List.range_succ, List.map_append,
      List.map_cons, List.map_nil, List.append_assoc]

/-- The variables after every number of rounds. -/
theorem carved_iterate (short : start.length < 2 ^ 64) (round : Nat) :
    Carved chunk len bits start round
      ((initialLoop headerSize chunk len bits).body^[round] start) := by
  induction round with
  | zero =>
    constructor
    · simp only [Function.iterate_zero, id, Nat.zero_mul, sizeT]
      omega
    · simp
    · simp
  | succ round inductionHypothesis =>
    rw [Function.iterate_succ_apply']
    exact carved_round headerSize chunk len bits start round _ inductionHypothesis

/-- As long as the chunks fit, each of them is taken from what is left over. -/
theorem carved_offset (round : Nat) (state : Initial)
    (carved : Carved chunk len bits start round state)
    (fits : round * chunk ≤ leftOver headerSize start.length) :
    leftOver headerSize state.length = leftOver headerSize start.length - round * chunk := by
  rw [carved.length]
  unfold leftOver sizeT at *
  omega

/-- The loop takes one round for each chunk that fits into what is left over. -/
theorem initial_rounds (positive : 0 < chunk) (short : start.length < 2 ^ 64) (fuel : Nat) :
    (initialLoop headerSize chunk len bits).run fuel start =
      if leftOver headerSize start.length / chunk < fuel then
        some ((initialLoop headerSize chunk len bits).body^[
          leftOver headerSize start.length / chunk] start)
      else none := by
  have rule := (initialLoop headerSize chunk len bits).counted_rule
    (Carved chunk len bits start) (leftOver headerSize start.length / chunk) start
    (carved_iterate headerSize chunk len bits start short 0)
  apply (rule _ _).2 fuel
  · intro round state below carved
    constructor
    · have whole : (round + 1) * chunk ≤ leftOver headerSize start.length :=
        (Nat.le_div_iff_mul_le positive).mp below
      rw [Nat.add_mul, Nat.one_mul] at whole
      have left := carved_offset headerSize chunk len bits start round state carved (by omega)
      simp only [initialLoop, decide_eq_true_eq, left]
      omega
    · exact carved_round headerSize chunk len bits start round state carved
  · intro state carved
    have left := carved_offset headerSize chunk len bits start _ state carved
      (Nat.div_mul_le_self _ chunk)
    have rest := Nat.div_add_mod' (leftOver headerSize start.length) chunk
    have below := Nat.mod_lt (leftOver headerSize start.length) positive
    simp only [initialLoop, decide_eq_false_iff_not, left]
    omega

end Rounds

section Messages

variable (headerCheck : List UInt8 → Nat) (chunk : Nat) (format : AudioFormat)
  (payload : List UInt8)

/-- The first loop of a call, for the format and the message of the call. -/
def messageLoop : Loop Initial :=
  initialLoop (headerCheck payload) chunk (perSampleChunkBytes chunk format.channels)
    (format.bitsPerSample / 8 % 256)

/-- The variables before the first loop. -/
def messageStart : Initial where
  length := payload.length
  data := payload.drop (headerCheck payload)
  pushes := []

/-- After as many rounds as there are whole chunks behind the header the variables stand
behind them. -/
theorem message_at_test (small : payload.length < 2 ^ 32)
    (within : headerCheck payload ≤ payload.length) (round : Nat)
    (inside : round * chunk ≤ payload.length - headerCheck payload) :
    AtTest payload (headerCheck payload) chunk round
      ((messageLoop headerCheck chunk format payload).body^[round]
        (messageStart headerCheck payload)) := by
  have carved := carved_iterate (headerCheck payload) chunk
    (perSampleChunkBytes chunk format.channels) (format.bitsPerSample / 8 % 256)
    (messageStart headerCheck payload) (by simp only [messageStart]; omega) round
  have length : ((messageLoop headerCheck chunk format payload).body^[round]
      (messageStart headerCheck payload)).length = payload.length - round * chunk := by
    have begin : (messageStart headerCheck payload).length = payload.length := rfl
    rw [messageLoop, carved.length, begin, sizeT]
    omega
  constructor
  · rw [length]
    omega
  · rw [length]
    omega
  · rw [length]
    unfold leftOver sizeT
    omega
  · rw [messageLoop, carved.data, messageStart, List.drop_drop]

/-- After its rounds the first loop has pushed the whole chunks behind the header, and what is
left for the buffer is the rest of the message. -/
theorem message_carves (positive : 0 < chunk) (small : payload.length < 2 ^ 32)
    (within : headerCheck payload ≤ payload.length) :
    Carves payload (headerCheck payload) chunk
      ((messageLoop headerCheck chunk format payload).body^[
        (payload.length - headerCheck payload) / chunk] (messageStart headerCheck payload)) := by
  have short : (messageStart headerCheck payload).length < 2 ^ 64 := by
    simp only [messageStart]
    omega
  have last := message_at_test headerCheck chunk format payload small within _
    (Nat.div_mul_le_self (payload.length - headerCheck payload) chunk)
  have carved := carved_iterate (headerCheck payload) chunk
    (perSampleChunkBytes chunk format.channels) (format.bitsPerSample / 8 % 256)
    (messageStart headerCheck payload) short ((payload.length - headerCheck payload) / chunk)
  have quotient := Nat.div_add_mod' (payload.length - headerCheck payload) chunk
  have rest := Nat.mod_lt (payload.length - headerCheck payload) positive
  have total := last.length
  have offset := last.offset
  constructor
  · rw [messageLoop, carved.pushes]
    simp [messageStart]
  · intro k below
    have inside : (k + 1) * chunk ≤ payload.length - headerCheck payload :=
      (Nat.le_div_iff_mul_le positive).mp below
    rw [Nat.add_mul, Nat.one_mul] at inside
    constructor
    · omega
    · rw [messageLoop, carved.pushes]
      simp [messageStart, List.getElem?_range below, List.drop_drop]
  · omega
  · omega
  · constructor
    · rw [last.data, List.length_drop]
      omega
    · exact last.data

/-- The first loop of a call takes exactly one round for each whole chunk behind the header.
No subtraction wraps on the way, every push lies inside the message, and what is left for the
buffer is the rest of the message, which is shorter than a chunk. A push is one action of the
round, which is taken to return (`WaveEnds.play_wave_records`). -/
theorem first_message_is_carved (positive : 0 < chunk) (small : payload.length < 2 ^ 32)
    (within : headerCheck payload ≤ payload.length) :
    (∀ round ≤ (payload.length - headerCheck payload) / chunk,
      AtTest payload (headerCheck payload) chunk round
        ((messageLoop headerCheck chunk format payload).body^[round]
          (messageStart headerCheck payload))) ∧
    Carves payload (headerCheck payload) chunk
      ((messageLoop headerCheck chunk format payload).body^[
        (payload.length - headerCheck payload) / chunk] (messageStart headerCheck payload)) ∧
    ∀ fuel, pushInitial headerCheck chunk format fuel payload =
      if (payload.length - headerCheck payload) / chunk < fuel then
        some ((messageLoop headerCheck chunk format payload).body^[
          (payload.length - headerCheck payload) / chunk] (messageStart headerCheck payload))
      else none := by
  constructor
  · intro round below
    exact message_at_test headerCheck chunk format payload small within round
      ((Nat.le_div_iff_mul_le positive).mp below)
  constructor
  · exact message_carves headerCheck chunk format payload positive small within
  · intro fuel
    have short : (messageStart headerCheck payload).length < 2 ^ 64 := by
      simp only [messageStart]
      omega
    have rounds := initial_rounds (headerCheck payload) chunk
      (perSampleChunkBytes chunk format.channels) (format.bitsPerSample / 8 % 256)
      (messageStart headerCheck payload) positive short fuel
    have left : leftOver (headerCheck payload) (messageStart headerCheck payload).length =
        payload.length - headerCheck payload := by
      simp only [messageStart, leftOver, sizeT]
      omega
    rw [left] at rounds
    exact rounds

/-- With a chunk of whole frames that fits into a datagram, all pushes of the first loop pass
the assertions exactly if the channels divide the frames of the chunk, or if there is no push
at all. -/
theorem pushes_respect_iff (env : Environment) (chlist : List Nat) (frames fuel : Nat)
    (same : chlist.length = format.channels) (several : 0 < format.channels)
    (width : 0 < format.bitsPerSample / 8 % 256) (some : 0 < frames)
    (whole : chunk = frames * format.channels * (format.bitsPerSample / 8 % 256))
    (limited : env.pcm.headerSize + chunk < 1500) (packet : chunk < env.configMtu)
    (short : payload.length < 2 ^ 64)
    (enough : leftOver (headerCheck payload) payload.length < fuel) :
    ∃ state, pushInitial headerCheck chunk format fuel payload = .some state ∧
      (Respects env chlist state.pushes ↔
        format.channels ∣ frames ∨ leftOver (headerCheck payload) payload.length < chunk) := by
  have positive : 0 < chunk := whole ▸ Nat.mul_pos (Nat.mul_pos some several) width
  -- the bytes of one channel are fewer than those of the chunk
  have channel : frames * (format.bitsPerSample / 8 % 256) ≤ chunk := by
    rw [whole, Nat.mul_right_comm]
    exact Nat.le_mul_of_pos_right _ several
  have told : perSampleChunkBytes chunk format.channels =
      frames * (format.bitsPerSample / 8 % 256) := by
    rw [whole]
    exact per_sample_chunk_bytes _ frames format.channels (by omega) several
  have quotient : frames * (format.bitsPerSample / 8 % 256) / format.channels < env.configMtu := by
    have smaller := Nat.div_le_self (frames * (format.bitsPerSample / 8 % 256)) format.channels
    omega
  -- a frame is not longer than the chunk
  have frame : 1 * (format.channels * (format.bitsPerSample / 8 % 256)) ≤ chunk := by
    rw [whole, Nat.mul_assoc]
    exact Nat.mul_le_mul_right _ some
  have checks := asserted_iff env (format.bitsPerSample / 8 % 256) frames format.channels width
    several (by omega) (by omega) quotient
  have rounds := initial_rounds (headerCheck payload) chunk
    (perSampleChunkBytes chunk format.channels) (format.bitsPerSample / 8 % 256)
    (messageStart headerCheck payload) positive short fuel
  have fewer : leftOver (headerCheck payload) payload.length / chunk < fuel :=
    Nat.lt_of_le_of_lt (Nat.div_le_self _ _) enough
  have carved := carved_iterate (headerCheck payload) chunk
    (perSampleChunkBytes chunk format.channels) (format.bitsPerSample / 8 % 256)
    (messageStart headerCheck payload) short
    (leftOver (headerCheck payload) payload.length / chunk)
  rw [if_pos (by exact fewer)] at rounds
  refine ⟨_, rounds, ?_⟩
  simp only [Respects, messageStart, same] at carved ⊢
  rw [carved.pushes]
  simp only [List.nil_append, List.mem_map, List.mem_range, forall_exists_index, and_imp,
    forall_apply_eq_imp_iff₂, told, checks]
  rw [← Nat.div_eq_zero_iff_lt positive]
  constructor
  · intro passes
    by_cases pushes : leftOver (headerCheck payload) payload.length / chunk = 0
    · exact Or.inr pushes
    · exact Or.inl (passes 0 (Nat.pos_of_ne_zero pushes))
  · rintro (divides | none) k below
    · exact divides
    · rw [none] at below
      exact absurd below (Nat.not_lt_zero k)

end Messages

/-- A message with two chunks of four bytes and one byte of the next. -/
theorem reference_message_is_carved :
    Carves (referenceHeader ++ [1, 2, 3, 4, 5, 6, 7, 8, 9]) 44 4
      ((messageLoop referenceHeaderCheck 4 referenceFormat
        (referenceHeader ++ [1, 2, 3, 4, 5, 6, 7, 8, 9])).body^[2]
          (messageStart referenceHeaderCheck (referenceHeader ++ [1, 2, 3, 4, 5, 6, 7, 8, 9]))) :=
  (first_message_is_carved referenceHeaderCheck 4 referenceFormat
    (referenceHeader ++ [1, 2, 3, 4, 5, 6, 7, 8, 9]) (by decide) (by decide) (by decide)).2.1

/-- Chunks of two frames, which two channels divide. -/
theorem two_frames_are_respected :
    ∃ state, pushInitial referenceHeaderCheck 8 referenceFormat 60
        (referenceHeader ++ [1, 2, 3, 4, 5, 6, 7, 8, 9]) = some state ∧
      (Respects referenceEnvironment [0, 1] state.pushes ↔
        referenceFormat.channels ∣ 2 ∨ leftOver (referenceHeaderCheck
          (referenceHeader ++ [1, 2, 3, 4, 5, 6, 7, 8, 9]))
          (referenceHeader ++ [1, 2, 3, 4, 5, 6, 7, 8, 9]).length < 8) :=
  pushes_respect_iff referenceHeaderCheck 8 referenceFormat
    (referenceHeader ++ [1, 2, 3, 4, 5, 6, 7, 8, 9]) referenceEnvironment [0, 1] 2 60 rfl
    (by decide) (by decide) (by decide) rfl (by decide) (by decide) (by decide) (by decide)

/-- A chunk of one frame of two channels is told as one sample, which is no whole frame. -/
theorem one_frame_is_not_respected :
    ∃ state, pushInitial referenceHeaderCheck 4 referenceFormat 60
        (referenceHeader ++ [1, 2, 3, 4]) = some state ∧
      ¬ Respects referenceEnvironment [0, 1] state.pushes := by
  refine ⟨_, rfl, ?_⟩
  intro respects
  have passed := respects ⟨[1, 2, 3, 4], 2, 2⟩ (by decide)
  revert passed
  decide

end Castserver.Carving
