import Castserver.Pusher
import Castserver.Library.Loops
import Castserver.Library.Slices

/-!
# Cutting a wave stream into chunks

The function `cmd_wave` pushes the full chunks of the first message, keeps the rest
in a buffer and then pushes that buffer once for every successful `recv`. It
forgets how much the buffer holds after each push. The pushed buffers are the
consecutive chunks of the stream exactly when every `recv` fills the buffer. An error
of `recv` is a positive number in the variable it is stored in. Here a push is only recorded,
and the division by the number of channels has no trap: what is shown is about formats with
channels and pushes that return. The calls that `WaveEnds` carries out make the pushes that
are recorded here, as its `play_wave_records` says.
-/

namespace Castserver.Pushwave

open Pusher
open Library.Loops Library.Slices

/-- The type `audio_format_t`. -/
structure AudioFormat where
  channels : Nat
  samplesPerSec : Nat
  bitsPerSample : Nat
deriving DecidableEq, Repr

/-- One call of `server_sppush_push`: the chunk of bytes at its pointer, the length it
is told and the bytes of one sample. -/
structure PushCall where
  samples : List UInt8
  len : Nat
  bits : Nat
deriving DecidableEq, Repr

/-- What one `recv` gives: some bytes, the end of the stream, or an error. -/
inductive Received where
  | data (bytes : List UInt8)
  | closed
  | failed
deriving DecidableEq, Repr

/-- The result of `recv` in the unsigned variable `len`. -/
def Received.len : Received → Nat
  | .data bytes => bytes.length % 2 ^ 32
  | .closed => 0
  | .failed => 2 ^ 32 - 1

/-- The bytes a `recv` writes. -/
def Received.bytes : Received → List UInt8
  | .data bytes => bytes
  | .closed | .failed => []

/-- The variable `per_sample_chunk_bytes`, a signed integer, passed as a `size_t`. -/
def perSampleChunkBytes (chunk channels : Nat) : Nat :=
  sizeT (BitVec.ofNat 32 (chunk / channels)).toInt

/-- A small number keeps its value as a signed integer and then as a `size_t`. -/
theorem size_of_int (value : Nat) (small : value < 2 ^ 31) :
    sizeT (BitVec.ofNat 32 value).toInt = value := by
  rw [BitVec.toInt_ofNat', Int.bmod_eq_of_le (by omega) (by omega), sizeT]
  omega

/-- The value `length - header_size` in the 32-bit variable `offset`. -/
def leftOver (headerSize length : Nat) : Nat :=
  sizeT ((length : Int) - headerSize) % 2 ^ 32

/-- The variables of the first loop, with the pushes made so far. -/
structure Initial where
  length : Nat
  data : List UInt8
  pushes : List PushCall

/-- The first loop: push full chunks of the first message. -/
def initialLoop (headerSize chunk len bits : Nat) : Loop Initial where
  condition := fun state => decide (chunk ≤ leftOver headerSize state.length)
  body := fun state =>
    { length := sizeT ((state.length : Int) - chunk)
      data := state.data.drop chunk
      pushes := state.pushes ++ [⟨state.data.take chunk, len, bits⟩] }

/-- Write bytes into a buffer. -/
def overwrite (buffer : List UInt8) (offset : Nat) (bytes : List UInt8) : List UInt8 :=
  buffer.take offset ++ bytes ++ buffer.drop (offset + bytes.length)

/-- The second loop, over what each `recv` gives: the pushes, and how many
acknowledgements are sent. After the first push the offset is zero. -/
def receiveLoop (len bits : Nat) : Nat → List UInt8 → List Received → List PushCall × Nat
  | _, _, [] => ([], 0)
  | offset, buffer, received :: rest =>
    if 0 < received.len then
      let buffer := overwrite buffer offset received.bytes
      let (pushes, acks) := receiveLoop len bits 0 buffer rest
      (⟨buffer, len, bits⟩ :: pushes, acks + 1)
    else ([], 0)

/-- What the second loop has done after some results of `recv`: its pushes, how many
acknowledgements it has sent, and whether it has been left and the buffer freed. -/
structure Receiving where
  pushes : List PushCall
  acks : Nat
  left : Bool
deriving DecidableEq, Repr

/-- The second loop up to the last `recv` of a list. Without a result that ends it, the
loop waits in its next `recv`. -/
def receiving (len bits : Nat) : Nat → List UInt8 → List Received → Receiving
  | _, _, [] => ⟨[], 0, false⟩
  | offset, buffer, received :: rest =>
    if 0 < received.len then
      let buffer := overwrite buffer offset received.bytes
      let later := receiving len bits 0 buffer rest
      ⟨⟨buffer, len, bits⟩ :: later.pushes, later.acks + 1, later.left⟩
    else ⟨[], 0, true⟩

/-- The effects of one `cmd_wave` call. -/
structure Wave where
  code : Int
  formats : List (Nat × Nat)
  pushes : List PushCall
  acks : Nat
deriving DecidableEq, Repr

/-- The first loop on a message, started behind its header. -/
def pushInitial (headerCheck : List UInt8 → Nat) (chunk : Nat) (format : AudioFormat)
    (fuel : Nat) (payload : List UInt8) : Option Initial :=
  (initialLoop (headerCheck payload) chunk (perSampleChunkBytes chunk format.channels)
    (format.bitsPerSample / 8 % 256)).run fuel
      ⟨payload.length, payload.drop (headerCheck payload), []⟩

/-- Play a wave file whose first bytes are the argument. The functions that read the
header and the configuration are parameters, and so are the bytes that `xmalloc`
happens to return. -/
def cmdWave (headerCheck : List UInt8 → Nat) (chunk : Nat) (format : AudioFormat)
    (allocated : List UInt8) (fuel : Nat) (arg : Option (List UInt8))
    (received : List Received) : Option Wave :=
  match arg with
  | none => some ⟨1, [], [], 0⟩
  | some payload =>
    let headerSize := headerCheck payload
    if headerSize = 0 then some ⟨1, [], [], 0⟩
    else
      match pushInitial headerCheck chunk format fuel payload with
      | none => none
      | some state =>
        let len := perSampleChunkBytes chunk format.channels
        let bits := format.bitsPerSample / 8 % 256
        let offset := leftOver headerSize state.length
        let buffer := state.data.take offset ++ allocated.drop offset
        let (pushes, acks) := receiveLoop len bits offset buffer received
        some ⟨0, [(format.samplesPerSec, format.bitsPerSample)], state.pushes ++ pushes, acks⟩

/-- A way for `recv` to split the rest of a stream: every piece has at least one byte
and at most as many as were asked for. -/
def Splits (chunk : Nat) : Nat → List (List UInt8) → Prop
  | _, [] => True
  | offset, piece :: rest =>
    0 < piece.length ∧ piece.length ≤ chunk - offset ∧ Splits chunk 0 rest

/-- Every piece has as many bytes as were asked for. -/
def Filled (chunk : Nat) : Nat → List (List UInt8) → Prop
  | _, [] => True
  | offset, piece :: rest => piece.length = chunk - offset ∧ Filled chunk 0 rest

/-- Inside the message the 32-bit subtraction is exact. -/
theorem left_over_within (headerSize remaining : Nat) (small : remaining < 2 ^ 32) :
    leftOver headerSize (headerSize + remaining) = remaining := by
  unfold leftOver sizeT
  have same : ((headerSize + remaining : Nat) : Int) - headerSize = remaining := by omega
  rw [same]
  omega

/-- The invariant of the first loop: the pushes so far and the chunks of what is left
are the chunks of the whole, whatever follows. -/
structure Cut (headerSize chunk : Nat) (tail : List UInt8) (state : Initial) : Prop where
  length : state.length = headerSize + state.data.length
  bound : state.data.length ≤ tail.length
  rest : state.data.length % chunk = tail.length % chunk
  chunks : ∀ more, state.pushes.map PushCall.samples ++ slices chunk (state.data ++ more) =
    slices chunk (tail ++ more)

/-- The first loop ends with less than a chunk left over and every full chunk pushed. -/
theorem push_initial_cuts (headerCheck : List UInt8 → Nat) (chunk : Nat) (format : AudioFormat)
    (fuel : Nat) (payload : List UInt8) (positive : 0 < chunk)
    (small : payload.length < 2 ^ 32) (within : headerCheck payload ≤ payload.length)
    (enough : payload.length < fuel) :
    ∃ state, pushInitial headerCheck chunk format fuel payload = some state ∧
      Cut (headerCheck payload) chunk (payload.drop (headerCheck payload)) state ∧
      state.data.length = (payload.length - headerCheck payload) % chunk ∧
      leftOver (headerCheck payload) state.length = state.data.length := by
  let loop := initialLoop (headerCheck payload) chunk (perSampleChunkBytes chunk format.channels)
    (format.bitsPerSample / 8 % 256)
  let tail := payload.drop (headerCheck payload)
  have tailLength : tail.length = payload.length - headerCheck payload := List.length_drop
  have counted (state : Initial) (cut : Cut (headerCheck payload) chunk tail state) :
      leftOver (headerCheck payload) state.length = state.data.length := by
    have bound := cut.bound
    rw [cut.length, left_over_within _ _ (by omega)]
  have kept : ∀ state, Cut (headerCheck payload) chunk tail state →
      loop.condition state = true → Cut (headerCheck payload) chunk tail (loop.body state) ∧
        (loop.body state).data.length < state.data.length := by
    intro state cut going
    have long : chunk ≤ state.data.length := by
      simp only [loop, initialLoop, decide_eq_true_eq, counted state cut] at going
      exact going
    have shorter : (state.data.drop chunk).length = state.data.length - chunk :=
      List.length_drop
    refine ⟨⟨?_, ?_, ?_, ?_⟩, ?_⟩
    · have bound := cut.bound
      simp only [loop, initialLoop, sizeT, shorter, cut.length]
      omega
    · have bound := cut.bound
      simp only [loop, initialLoop, shorter]
      omega
    · simp only [loop, initialLoop, shorter]
      rw [← cut.rest, ← Nat.mod_eq_sub_mod long]
    · intro more
      rw [← cut.chunks more, slices_long chunk (state.data ++ more) positive
        (by rw [List.length_append]; omega)]
      simp [loop, initialLoop, List.take_append_of_le_length long,
        List.drop_append_of_le_length long]
    · simp only [loop, initialLoop, shorter]
      omega
  have initial : Cut (headerCheck payload) chunk tail ⟨payload.length, tail, []⟩ :=
    ⟨by simp only [tailLength]; omega, Nat.le_refl _, rfl, fun _ => rfl⟩
  obtain ⟨state, ran, cut, ended⟩ := loop.total_rule (Cut (headerCheck payload) chunk tail)
    (fun state => state.data.length) kept fuel ⟨payload.length, tail, []⟩ initial
    (by simp only [tailLength]; omega)
  refine ⟨state, ran, cut, ?_, counted state cut⟩
  simp only [loop, initialLoop, counted state cut, decide_eq_false_iff_not, Nat.not_le] at ended
  rw [← tailLength, ← cut.rest, Nat.mod_eq_of_lt ended]

/-- Pieces of a stream amount to at most a chunk each. -/
theorem splits_total (chunk : Nat) (pieces : List (List UInt8)) (splits : Splits chunk 0 pieces) :
    pieces.flatten.length ≤ pieces.length * chunk := by
  induction pieces with
  | nil => simp
  | cons piece rest inductionHypothesis =>
    obtain ⟨_, most, later⟩ := splits
    have total := inductionHypothesis later
    rw [List.flatten_cons, List.length_append, List.length_cons, Nat.add_mul]
    omega

/-- Pieces that amount to a chunk for each of them fill the buffer every time. -/
theorem filled_of_total (chunk offset : Nat) (pieces : List (List UInt8)) (below : offset < chunk)
    (splits : Splits chunk offset pieces)
    (total : pieces.length * chunk ≤ offset + pieces.flatten.length) :
    Filled chunk offset pieces := by
  induction pieces generalizing offset with
  | nil => trivial
  | cons piece rest inductionHypothesis =>
    obtain ⟨_, most, later⟩ := splits
    have atMost := splits_total chunk rest later
    rw [List.flatten_cons, List.length_append, List.length_cons, Nat.add_mul] at total
    exact ⟨by omega, inductionHypothesis 0 (by omega) later (by omega)⟩

/-- A receive that brings a piece of the stream pushes the buffer it was written to. -/
theorem receive_piece (len bits offset chunk : Nat) (buffer piece : List UInt8)
    (rest : List Received) (small : chunk < 2 ^ 32) (some : 0 < piece.length)
    (most : piece.length ≤ chunk - offset) :
    receiveLoop len bits offset buffer (.data piece :: rest) =
      (⟨overwrite buffer offset piece, len, bits⟩ ::
          (receiveLoop len bits 0 (overwrite buffer offset piece) rest).1,
        (receiveLoop len bits 0 (overwrite buffer offset piece) rest).2 + 1) := by
  have counted : Received.len (.data piece) = piece.length := by
    simp only [Received.len]
    omega
  simp [receiveLoop, counted, some, Received.bytes]

/-- The stream of pieces, up to its end. -/
def stream (pieces : List (List UInt8)) : List Received :=
  pieces.map Received.data ++ [.closed]

/-- The second loop pushes and acknowledges once for every piece. -/
theorem receive_counts (len bits offset chunk : Nat) (buffer : List UInt8)
    (pieces : List (List UInt8)) (small : chunk < 2 ^ 32) (splits : Splits chunk offset pieces) :
    (receiveLoop len bits offset buffer (stream pieces)).1.length = pieces.length ∧
      (receiveLoop len bits offset buffer (stream pieces)).2 = pieces.length := by
  induction pieces generalizing offset buffer with
  | nil => simp [stream, receiveLoop, Received.len]
  | cons piece rest inductionHypothesis =>
    obtain ⟨some, most, later⟩ := splits
    obtain ⟨pushes, acks⟩ := inductionHypothesis 0 (overwrite buffer offset piece) later
    have first := receive_piece len bits offset chunk buffer piece (stream rest) small some most
    have unfolded : stream (piece :: rest) = .data piece :: stream rest := rfl
    rw [unfolded, first]
    exact ⟨by rw [List.length_cons, pushes, List.length_cons], by rw [acks, List.length_cons]⟩

/-- What connects the two forms of the second loop: the pushes and acknowledgements that are
counted here are those that `cmdWave` makes in `receiveLoop`. -/
theorem receiving_loop (len bits offset : Nat) (buffer : List UInt8) (outcomes : List Received) :
    receiveLoop len bits offset buffer outcomes =
      ((receiving len bits offset buffer outcomes).pushes,
        (receiving len bits offset buffer outcomes).acks) := by
  induction outcomes generalizing offset buffer with
  | nil => rfl
  | cons received rest inductionHypothesis =>
    by_cases positive : 0 < received.len
    · simp only [receiveLoop, receiving, if_pos positive, inductionHypothesis]
    · simp only [receiveLoop, receiving, if_neg positive]

/-- After results that count as positive, the second loop has pushed and acknowledged
once for each of them, and goes on with the next one. -/
theorem receiving_positive (len bits offset : Nat) (buffer : List UInt8)
    (outcomes rest : List Received) (positive : ∀ received ∈ outcomes, 0 < received.len) :
    ∃ laterOffset laterBuffer,
      let later := receiving len bits laterOffset laterBuffer rest
      let all := receiving len bits offset buffer (outcomes ++ rest)
      all.pushes.length = outcomes.length + later.pushes.length ∧
        all.acks = outcomes.length + later.acks ∧ all.left = later.left := by
  induction outcomes generalizing offset buffer with
  | nil => exact ⟨offset, buffer, by simp⟩
  | cons received more inductionHypothesis =>
    have first : 0 < received.len := positive received List.mem_cons_self
    have others : ∀ other ∈ more, 0 < other.len := fun other member =>
      positive other (List.mem_cons_of_mem received member)
    obtain ⟨laterOffset, laterBuffer, pushes, acks, left⟩ :=
      inductionHypothesis 0 (overwrite buffer offset received.bytes) others
    refine ⟨laterOffset, laterBuffer, ?_⟩
    simp only [List.cons_append, receiving, if_pos first, List.length_cons, pushes, acks, left,
      and_true]
    constructor <;> omega

/-- The second loop pushes and acknowledges once for every positive count and is then
left, with its buffer freed, exactly if the stream ends: an error counts as a positive
number of bytes, is pushed and acknowledged like them, and leads to another `recv`. The pushes
are taken to return, which `WaveEnds.play_wave_records` connects to the calls that do. -/
theorem receive_loop_left_iff (len bits offset : Nat) (buffer : List UInt8)
    (pieces : List (List UInt8)) (last : Received) (ends : last = .closed ∨ last = .failed)
    (counts : ∀ piece ∈ pieces, 0 < piece.length ∧ piece.length < 2 ^ 32) :
    let all := receiving len bits offset buffer (pieces.map Received.data ++ [last])
    (all.pushes.length = pieces.length ∧ all.acks = pieces.length ∧ all.left = true) ↔
      last = .closed := by
  have positive : ∀ received ∈ pieces.map Received.data, 0 < received.len := by
    intro received member
    obtain ⟨piece, listed, rfl⟩ := List.mem_map.mp member
    have size := counts piece listed
    simp only [Received.len]
    omega
  obtain ⟨laterOffset, laterBuffer, pushes, acks, left⟩ :=
    receiving_positive len bits offset buffer (pieces.map Received.data) [last] positive
  simp only [pushes, acks, left, List.length_map]
  rcases ends with rfl | rfl
  · simp [receiving, Received.len]
  · simp [receiving, Received.len]

/-- Writing bytes never shortens a buffer. -/
theorem overwrite_length (buffer : List UInt8) (offset : Nat) (bytes : List UInt8) :
    buffer.length ≤ (overwrite buffer offset bytes).length := by
  simp only [overwrite, List.length_append, List.length_take, List.length_drop]
  omega

/-- Up to its end, what has been written stands behind what stood before it. -/
theorem overwrite_take (buffer : List UInt8) (offset : Nat) (bytes : List UInt8)
    (inside : offset ≤ buffer.length) :
    (overwrite buffer offset bytes).take (offset + bytes.length) = buffer.take offset ++ bytes := by
  have size : (buffer.take offset ++ bytes).length = offset + bytes.length := by
    rw [List.length_append, List.length_take, Nat.min_eq_left inside]
  rw [overwrite, ← size, List.take_left']
  rfl

/-- Filling the buffer with a piece leaves what it held followed by the piece. -/
theorem overwrite_filled (chunk offset : Nat) (buffer piece : List UInt8)
    (size : buffer.length = chunk) (below : offset < chunk)
    (full : piece.length = chunk - offset) :
    overwrite buffer offset piece = buffer.take offset ++ piece := by
  have nothing : buffer.drop (offset + piece.length) = [] :=
    List.drop_eq_nil_of_le (by omega)
  rw [overwrite, nothing, List.append_nil]

/-- When every receive fills the buffer, the pushed buffers are the chunks of what the
buffer held followed by the stream. -/
theorem receive_filled (len bits offset chunk : Nat) (buffer : List UInt8)
    (pieces : List (List UInt8)) (small : chunk < 2 ^ 32) (below : offset < chunk)
    (size : buffer.length = chunk) (splits : Splits chunk offset pieces)
    (filled : Filled chunk offset pieces) :
    (receiveLoop len bits offset buffer (stream pieces)).1.map PushCall.samples =
      slices chunk (buffer.take offset ++ pieces.flatten) := by
  induction pieces generalizing offset buffer with
  | nil =>
    rw [slices_short]
    · rfl
    · simp only [List.flatten_nil, List.append_nil, List.length_take]
      omega
  | cons piece rest inductionHypothesis =>
    obtain ⟨some, most, later⟩ := splits
    obtain ⟨full, laterFilled⟩ := filled
    have written := overwrite_filled chunk offset buffer piece size below full
    have newSize : (overwrite buffer offset piece).length = chunk := by
      rw [written, List.length_append, List.length_take]
      omega
    have first := receive_piece len bits offset chunk buffer piece (stream rest) small some most
    have unfolded : stream (piece :: rest) = .data piece :: stream rest := rfl
    have following := inductionHypothesis 0 (overwrite buffer offset piece) (by omega) newSize
      later laterFilled
    rw [List.take_zero, List.nil_append] at following
    rw [unfolded, first, List.map_cons, following, List.flatten_cons, ← List.append_assoc,
      ← written, slices_append chunk _ rest.flatten (by omega) newSize]

/-- One call after its first loop has ended. -/
theorem cmd_wave_ran (headerCheck : List UInt8 → Nat) (chunk : Nat) (format : AudioFormat)
    (allocated : List UInt8) (fuel : Nat) (payload : List UInt8) (received : List Received)
    (state : Initial) (accepted : headerCheck payload ≠ 0)
    (ran : pushInitial headerCheck chunk format fuel payload = some state)
    (offset : leftOver (headerCheck payload) state.length = state.data.length) :
    cmdWave headerCheck chunk format allocated fuel (some payload) received = some
      { code := 0
        formats := [(format.samplesPerSec, format.bitsPerSample)]
        pushes := state.pushes ++ (receiveLoop (perSampleChunkBytes chunk format.channels)
          (format.bitsPerSample / 8 % 256) state.data.length
          (state.data ++ allocated.drop state.data.length) received).1
        acks := (receiveLoop (perSampleChunkBytes chunk format.channels)
          (format.bitsPerSample / 8 % 256) state.data.length
          (state.data ++ allocated.drop state.data.length) received).2 } := by
  simp only [cmdWave, accepted, if_false, ran, offset, List.take_length]

/-- The pushed buffers are the consecutive chunks of the wave data, whatever `recv`
makes of the stream, exactly when every receive fills the buffer: the first one what
the first message left open, and every other one a whole chunk. In a call that is carried out
this is so if the channels are not zero and the pushes return (`WaveEnds.play_wave_records`). -/
theorem pushes_are_slices (headerCheck : List UInt8 → Nat) (chunk : Nat) (format : AudioFormat)
    (allocated : List UInt8) (fuel : Nat) (payload : List UInt8) (pieces : List (List UInt8))
    (positive : 0 < chunk) (chunkSmall : chunk < 2 ^ 32) (payloadSmall : payload.length < 2 ^ 32)
    (accepted : 0 < headerCheck payload) (within : headerCheck payload ≤ payload.length)
    (size : allocated.length = chunk) (enough : payload.length < fuel)
    (splits : Splits chunk ((payload.length - headerCheck payload) % chunk) pieces) :
    ∃ wave, cmdWave headerCheck chunk format allocated fuel (some payload) (stream pieces) =
        some wave ∧
      (wave.pushes.map PushCall.samples =
          slices chunk (payload.drop (headerCheck payload) ++ pieces.flatten) ↔
        Filled chunk ((payload.length - headerCheck payload) % chunk) pieces) := by
  obtain ⟨state, ran, cut, left, offset⟩ := push_initial_cuts headerCheck chunk format fuel payload
    positive payloadSmall within enough
  have below : state.data.length < chunk := by
    rw [left]
    exact Nat.mod_lt _ positive
  rw [← left] at splits ⊢
  have bufferSize : (state.data ++ allocated.drop state.data.length).length = chunk := by
    rw [List.length_append, List.length_drop]
    omega
  have called := cmd_wave_ran headerCheck chunk format allocated fuel payload (stream pieces) state
    (Nat.ne_of_gt accepted) ran offset
  refine ⟨_, called, ?_⟩
  have counts := receive_counts (perSampleChunkBytes chunk format.channels)
    (format.bitsPerSample / 8 % 256) state.data.length chunk
    (state.data ++ allocated.drop state.data.length) pieces chunkSmall splits
  rw [List.map_append, ← cut.chunks pieces.flatten, List.append_cancel_left_eq]
  constructor
  · intro same
    have lengths := congrArg List.length same
    rw [List.length_map, counts.1, slices_length, List.length_append] at lengths
    apply filled_of_total chunk state.data.length pieces below splits
    rw [lengths]
    exact Nat.div_mul_le_self _ chunk
  · intro filled
    have pushed := receive_filled (perSampleChunkBytes chunk format.channels)
      (format.bitsPerSample / 8 % 256) state.data.length chunk
      (state.data ++ allocated.drop state.data.length) pieces chunkSmall below bufferSize splits
      filled
    rw [pushed, List.take_left']
    rfl

/-- A header check that accepts the usual 44 bytes after the letters `RIFF`. -/
def referenceHeaderCheck (payload : List UInt8) : Nat :=
  if 44 ≤ payload.length ∧ payload.take 4 = [82, 73, 70, 70] then 44 else 0

/-- A header of 44 bytes. -/
def referenceHeader : List UInt8 := [82, 73, 70, 70] ++ List.replicate 40 0

/-- Two channels of two bytes each. -/
def referenceFormat : AudioFormat := ⟨2, 44100, 16⟩

/-- A first message with one chunk and one byte of the next, and a stream that comes in
the pieces asked for. -/
theorem filled_stream_is_sliced :
    ∃ wave, cmdWave referenceHeaderCheck 4 referenceFormat [0, 0, 0, 0] 60
        (some (referenceHeader ++ [1, 2, 3, 4, 5])) (stream [[6, 7, 8], [9, 10, 11, 12]]) =
          some wave ∧
      (wave.pushes.map PushCall.samples =
          slices 4 ((referenceHeader ++ [1, 2, 3, 4, 5]).drop
            (referenceHeaderCheck (referenceHeader ++ [1, 2, 3, 4, 5])) ++
              [[6, 7, 8], [9, 10, 11, 12]].flatten) ↔
        Filled 4 (((referenceHeader ++ [1, 2, 3, 4, 5]).length -
          referenceHeaderCheck (referenceHeader ++ [1, 2, 3, 4, 5])) % 4)
            [[6, 7, 8], [9, 10, 11, 12]]) :=
  pushes_are_slices referenceHeaderCheck 4 referenceFormat [0, 0, 0, 0] 60
    (referenceHeader ++ [1, 2, 3, 4, 5]) [[6, 7, 8], [9, 10, 11, 12]] (by decide) (by decide)
    (by decide) (by decide) (by decide) (by decide) (by decide)
    ⟨by decide, by decide, by decide, by decide, trivial⟩

/-- A chunk that arrives in two halves is pushed twice, half filled each time. -/
theorem split_chunk_is_pushed_twice :
    Splits 4 0 [[1, 2], [3, 4]] ∧
    ∃ wave, cmdWave referenceHeaderCheck 4 referenceFormat [0, 0, 0, 0] 60 (some referenceHeader)
        (stream [[1, 2], [3, 4]]) = some wave ∧
      wave.pushes.map PushCall.samples ≠
        slices 4 (referenceHeader.drop (referenceHeaderCheck referenceHeader) ++
          [[1, 2], [3, 4]].flatten) := by
  refine ⟨⟨by decide, by decide, by decide, by decide, trivial⟩,
    ⟨0, [(44100, 16)], [⟨[1, 2, 0, 0], 2, 2⟩, ⟨[3, 4, 0, 0], 2, 2⟩], 2⟩, by decide, by decide⟩

/-- Two pieces and the end of the stream. -/
theorem ended_stream_is_left :
    let all := receiving 2 2 0 [0, 0, 0, 0] ([[1, 2], [3]].map Received.data ++ [.closed])
    (all.pushes.length = [[1, 2], [3]].length ∧ all.acks = [[1, 2], [3]].length ∧
      all.left = true) ↔ Received.closed = .closed :=
  receive_loop_left_iff 2 2 0 [0, 0, 0, 0] [[1, 2], [3]] .closed (Or.inl rfl) (by decide)

/-- A connection that fails at once is pushed and acknowledged, and the loop goes on. -/
theorem failed_receive_is_pushed :
    ¬ let all := receiving 2 2 0 [0, 0, 0, 0] ([].map Received.data ++ [.failed])
      (all.pushes.length = ([] : List (List UInt8)).length ∧
        all.acks = ([] : List (List UInt8)).length ∧ all.left = true) := by
  decide

end Castserver.Pushwave
