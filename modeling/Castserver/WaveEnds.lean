import Castserver.Channels

/-!
# Playing a wave file to its end

A call of `cmd_wave` with its pushes carried out one by one. Its divisors and strides
come from the header of the file and from the chunk size. A division by zero and a
failed assertion end the server, and a loop that makes no progress never ends the call.
-/

namespace Castserver.WaveEnds

open Pusher Control Detect Pushwave Channels
open Library.Loops

/-- Bytes from a pointer on, and what stands around them. -/
def samplesOf (around : Around) (bytes : List UInt8) : Around := fun place =>
  if 0 ≤ place then bytes.getD place.toNat (around place) else around place

/-- The samples stand from the pointer on. -/
theorem samples_inside (around : Around) (bytes : List UInt8) (m : Nat)
    (inside : m < bytes.length) : samplesOf around bytes m = bytes[m] := by
  rw [samplesOf, if_pos (Int.natCast_nonneg m), Int.toNat_natCast, List.getD_eq_getElem?_getD,
    List.getElem?_eq_getElem inside, Option.getD_some]

/-- One call of `server_sppush_push`, carried out. -/
def pushNow (env : Environment) (fuel : Nat) (chlist : List Nat) (call : PushCall)
    (state : PushState) : Except Fault PushState :=
  match serverSppushPush env fuel (samplesOf env.around call.samples) call.len chlist
    (UInt8.ofNat call.bits) state with
  | .error fault => .error fault
  | .ok (state, _) => .ok state

/-- The first loop of `cmd_wave`, with its pushes carried out. -/
def playInitial (env : Environment) (pushFuel : Nat) (chlist : List Nat)
    (headerSize chunk len bits : Nat) :
    Nat → Nat → List UInt8 → PushState → Except Fault (Nat × List UInt8 × PushState)
  | 0, _, _, _ => .error .fuel
  | fuel + 1, length, data, state =>
    if chunk ≤ leftOver headerSize length then
      match pushNow env pushFuel chlist ⟨data.take chunk, len, bits⟩ state with
      | .error fault => .error fault
      | .ok state =>
        playInitial env pushFuel chlist headerSize chunk len bits fuel
          (sizeT ((length : Int) - chunk)) (data.drop chunk) state
    else .ok (length, data, state)

/-- The second loop of `cmd_wave`, with its pushes carried out. The source leaves the
channel list out of this call of `server_sppush_push`; it is the list of the first loop. -/
def playReceived (env : Environment) (pushFuel : Nat) (chlist : List Nat) (len bits : Nat) :
    Nat → List UInt8 → List Received → PushState → Except Fault PushState
  | _, _, [], state => .ok state
  | offset, buffer, received :: rest, state =>
    if 0 < received.len then
      let buffer := overwrite buffer offset received.bytes
      match pushNow env pushFuel chlist ⟨buffer, len, bits⟩ state with
      | .error fault => .error fault
      | .ok state => playReceived env pushFuel chlist len bits 0 buffer rest state
    else .ok state

/-- What a call of `cmd_wave` depends on besides its message: the chunk size, the format
and the channels that `common` gives, the bytes that `xmalloc` happens to return, the
results of the format packages, and what each `recv` gives. -/
structure Playback where
  chunk : Nat
  format : AudioFormat
  chlist : List Nat
  allocated : List UInt8
  results : Nat → Int
  received : List Received

/-- A call of `cmd_wave`, with its pushes carried out and its divisions checked. -/
def playWave (env : Environment) (headerCheck : List UInt8 → Nat) (playback : Playback)
    (fuel : Nat) (arg : Option (List UInt8)) (state : PushState) : Except Fault (PushState × Int) :=
  match arg with
  | none => .ok (state, 1)
  | some payload =>
    let headerSize := headerCheck payload
    if headerSize = 0 then .ok (state, 1)
    else if playback.format.channels = 0 then .error .zeroDivisor
    else
      let len := perSampleChunkBytes playback.chunk playback.format.channels
      let bits := playback.format.bitsPerSample / 8 % 256
      let host := serverSpctrlSetFormat playback.format.samplesPerSec
        playback.format.bitsPerSample playback.results state.server.speakers state.server.host
      match playInitial env fuel playback.chlist headerSize playback.chunk len bits fuel
        payload.length (payload.drop headerSize)
        { state with server := { state.server with host := host } } with
      | .error fault => .error fault
      | .ok (length, data, state) =>
        let offset := leftOver headerSize length
        let buffer := data.take offset ++ playback.allocated.drop offset
        match playReceived env fuel playback.chlist len bits offset buffer playback.received
          state with
        | .error fault => .error fault
        | .ok state => .ok (state, 0)

/-- A call ends without a division by zero: with enough fuel it returns, or an assertion
stops it. -/
def Ends (env : Environment) (headerCheck : List UInt8 → Nat) (playback : Playback)
    (arg : Option (List UInt8)) (state : PushState) : Prop :=
  ∃ bound, ∀ fuel, bound < fuel →
    playWave env headerCheck playback fuel arg state ≠ .error .zeroDivisor ∧
    playWave env headerCheck playback fuel arg state ≠ .error .fuel

/-- How every push of a call turns out, given enough fuel: the assertions decide where they are
compiled in, and otherwise the copy loop of some channel never ends if its stride vanishes as
a 32-bit number. -/
def verdict (env : Environment) (len channels bits : Nat) : Except Fault Unit :=
  if env.asserts then assertions env len channels bits
  else if channels ≠ 0 ∧ bits * channels % 2 ^ 32 = 0 then .error .fuel
  else .ok ()

/-- Some push happens: the first message has a whole chunk, or the first `recv` counts as
positive. -/
def Pushes (headerSize chunk length : Nat) (received : List Received) : Prop :=
  chunk ≤ leftOver headerSize length ∨
    ∃ first rest, received = first :: rest ∧ 0 < first.len

section Verdicts

variable (env : Environment) (chlist : List Nat) (len bits : Nat)

/-- Assertions that pass find a stride. -/
theorem assertions_stride (channels : Nat) (passed : assertions env len channels bits = .ok ()) :
    channels * bits % 2 ^ 32 ≠ 0 := by
  simp only [assertions] at passed
  split_ifs at passed with large stands uneven none crowded
  exact stands

/-- A push whose verdict is a fault has that fault, whatever it is given. -/
theorem push_faults (fuel : Nat) (samples : List UInt8) (state : PushState) (fault : Fault)
    (byte : bits < 256) (faulty : verdict env len chlist.length bits = .error fault) :
    pushNow env fuel chlist ⟨samples, len, bits⟩ state = .error fault := by
  have width : (UInt8.ofNat bits).toNat = bits := UInt8.toNat_ofNat_of_lt byte
  unfold verdict at faulty
  rw [pushNow, serverSppushPush, width]
  cases compiled : env.asserts with
  | true =>
    rw [compiled, if_pos rfl] at faulty
    rw [if_pos rfl, faulty]
  | false =>
    rw [compiled, if_neg Bool.false_ne_true] at faulty
    rw [if_neg Bool.false_ne_true]
    split at faulty
    · next stuck =>
      simp only
      rw [stride_endless env _ bits fuel len chlist state (by omega)
        (Nat.pos_of_ne_zero stuck.1) stuck.2]
      exact congrArg Except.error (Except.error.inj faulty)
    · cases faulty

/-- A push without a fault ends with enough fuel. -/
theorem push_ends (fuel : Nat) (samples : List UInt8) (state : PushState) (byte : bits < 256)
    (sound : verdict env len chlist.length bits = .ok ()) (enough : 2 ^ 31 + len + 1 < fuel) :
    ∃ final, pushNow env fuel chlist ⟨samples, len, bits⟩ state = .ok final := by
  have width : (UInt8.ofNat bits).toNat = bits := UInt8.toNat_ofNat_of_lt byte
  have passes : (if env.asserts then assertions env len chlist.length bits else .ok ()) =
      .ok () := by
    unfold verdict at sound
    split at sound
    · next compiled => rw [if_pos compiled, sound]
    · next absent => rw [if_neg absent]
  simp only [pushNow, serverSppushPush, width, passes]
  by_cases silent : chlist = []
  · subst silent
    exact ⟨state, rfl⟩
  · have moves : bits * chlist.length % 2 ^ 32 ≠ 0 := by
      unfold verdict at sound
      split at sound
      · rw [Nat.mul_comm]
        exact assertions_stride env len bits chlist.length sound
      · split at sound
        · cases sound
        · next moving =>
          intro stands
          exact moving ⟨fun none => silent (List.eq_nil_of_length_eq_zero none), stands⟩
    obtain ⟨final, built, pushed, _⟩ := push_channels_end env
      (samplesOf env.around samples) bits fuel len _ chlist 0 state moves enough
    exact ⟨final, by rw [pushed]⟩

/-- Without a whole chunk the first loop ends at once. -/
theorem initial_skips (pushFuel headerSize chunk fuel length : Nat) (data : List UInt8)
    (state : PushState) (none : ¬ chunk ≤ leftOver headerSize length) :
    playInitial env pushFuel chlist headerSize chunk len bits (fuel + 1) length data state =
      .ok (length, data, state) := by
  rw [playInitial, if_neg none]

/-- With a whole chunk a faulty push stops the first loop. -/
theorem initial_faults (pushFuel headerSize chunk fuel length : Nat) (data : List UInt8)
    (state : PushState) (fault : Fault) (byte : bits < 256)
    (faulty : verdict env len chlist.length bits = .error fault)
    (whole : chunk ≤ leftOver headerSize length) :
    playInitial env pushFuel chlist headerSize chunk len bits (fuel + 1) length data state =
      .error fault := by
  rw [playInitial, if_pos whole, push_faults env chlist len bits pushFuel _ state fault byte
    faulty]

/-- Taking a chunk from the message takes it from what is left over. -/
theorem left_over_next (headerSize chunk length : Nat)
    (whole : chunk ≤ leftOver headerSize length) :
    leftOver headerSize (sizeT ((length : Int) - chunk)) = leftOver headerSize length - chunk := by
  unfold leftOver sizeT at *
  omega

/-- The first loop ends if its pushes do and the chunk is not empty. -/
theorem initial_ends (pushFuel headerSize chunk fuel length : Nat) (data : List UInt8)
    (state : PushState)
    (byte : bits < 256)
    (sound : verdict env len chlist.length bits = .ok ()) (some : 0 < chunk)
    (enough : leftOver headerSize length < fuel) (pushEnough : 2 ^ 31 + len + 1 < pushFuel) :
    ∃ result, playInitial env pushFuel chlist headerSize chunk len bits fuel length data state =
      .ok result := by
  induction fuel generalizing length data state with
  | zero => omega
  | succ fuel inductionHypothesis =>
    by_cases whole : chunk ≤ leftOver headerSize length
    · obtain ⟨next, pushed⟩ := push_ends env chlist len bits pushFuel (data.take chunk) state byte
        sound pushEnough
      have less := left_over_next headerSize chunk length whole
      obtain ⟨result, ends⟩ := inductionHypothesis (sizeT ((length : Int) - chunk))
        (data.drop chunk) next (by omega)
      exact ⟨result, by rw [playInitial, if_pos whole, pushed]; exact ends⟩
    · exact ⟨_, initial_skips env chlist len bits pushFuel headerSize chunk fuel length data state
        whole⟩

/-- The first loop never ends on empty chunks. -/
theorem initial_endless (pushFuel headerSize fuel length : Nat) (data : List UInt8)
    (state : PushState)
    (byte : bits < 256)
    (sound : verdict env len chlist.length bits = .ok ()) (pushEnough : 2 ^ 31 + len + 1 < pushFuel) :
    playInitial env pushFuel chlist headerSize 0 len bits fuel length data state =
      .error .fuel := by
  induction fuel generalizing length data state with
  | zero => rfl
  | succ fuel inductionHypothesis =>
    obtain ⟨next, pushed⟩ := push_ends env chlist len bits pushFuel (data.take 0) state byte
      sound pushEnough
    rw [playInitial, if_pos (Nat.zero_le _), pushed]
    exact inductionHypothesis _ _ next

/-- The second loop ends if its pushes do. -/
theorem received_ends (pushFuel offset : Nat) (buffer : List UInt8) (received : List Received)
    (state : PushState)
    (byte : bits < 256)
    (sound : verdict env len chlist.length bits = .ok ()) (pushEnough : 2 ^ 31 + len + 1 < pushFuel) :
    ∃ final, playReceived env pushFuel chlist len bits offset buffer received state =
      .ok final := by
  induction received generalizing offset buffer state with
  | nil => exact ⟨state, rfl⟩
  | cons first rest inductionHypothesis =>
    by_cases positive : 0 < first.len
    · obtain ⟨next, pushed⟩ := push_ends env chlist len bits pushFuel
        (overwrite buffer offset first.bytes) state byte sound pushEnough
      obtain ⟨final, ends⟩ := inductionHypothesis 0 (overwrite buffer offset first.bytes) next
      exact ⟨final, by simp only [playReceived, if_pos positive, pushed, ends]⟩
    · exact ⟨state, by rw [playReceived, if_neg positive]⟩

/-- A faulty push stops the second loop at its first positive count, if there is one. -/
theorem received_faults (pushFuel offset : Nat) (buffer : List UInt8) (received : List Received)
    (state : PushState) (fault : Fault) (byte : bits < 256)
    (faulty : verdict env len chlist.length bits = .error fault) :
    ((∃ first rest, received = first :: rest ∧ 0 < first.len) →
      playReceived env pushFuel chlist len bits offset buffer received state = .error fault) ∧
    ((¬ ∃ first rest, received = first :: rest ∧ 0 < first.len) →
      playReceived env pushFuel chlist len bits offset buffer received state = .ok state) := by
  constructor
  · rintro ⟨first, rest, rfl, positive⟩
    have stopped := push_faults env chlist len bits pushFuel
      (overwrite buffer offset first.bytes) state fault byte faulty
    simp only [playReceived, if_pos positive, stopped]
  · intro none
    cases received with
    | nil => rfl
    | cons first rest =>
      have nothing : ¬ 0 < first.len := fun positive => none ⟨first, rest, rfl, positive⟩
      rw [playReceived, if_neg nothing]

end Verdicts

section Waves

variable (env : Environment) (headerCheck : List UInt8 → Nat) (playback : Playback)
  (payload : List UInt8) (state : PushState)

/-- The length that the pushes of a call are told. -/
def Playback.len (playback : Playback) : Nat :=
  perSampleChunkBytes playback.chunk playback.format.channels

/-- The bytes of one sample that the pushes of a call are told. -/
def Playback.bits (playback : Playback) : Nat := playback.format.bitsPerSample / 8 % 256

/-- The bytes of one sample are a byte. -/
theorem Playback.bits_byte (playback : Playback) : playback.bits < 256 :=
  Nat.mod_lt _ (by decide)

/-- A faulty push stops a call exactly if some push happens. -/
theorem wave_faults (fuel : Nat) (fault : Fault) (accepted : headerCheck payload ≠ 0)
    (nonzero : playback.format.channels ≠ 0)
    (faulty : verdict env playback.len playback.chlist.length playback.bits = .error fault) :
    (Pushes (headerCheck payload) playback.chunk payload.length playback.received →
      playWave env headerCheck playback (fuel + 1) (some payload) state = .error fault) ∧
    (¬ Pushes (headerCheck payload) playback.chunk payload.length playback.received →
      ∃ result, playWave env headerCheck playback (fuel + 1) (some payload) state =
        .ok result) := by
  let start : PushState := { state with server := { state.server with
    host := serverSpctrlSetFormat playback.format.samplesPerSec playback.format.bitsPerSample
      playback.results state.server.speakers state.server.host } }
  have skipped := initial_skips env playback.chlist playback.len playback.bits (fuel + 1)
    (headerCheck payload) playback.chunk fuel payload.length (payload.drop (headerCheck payload))
    start
  obtain ⟨stops, returns⟩ := received_faults env playback.chlist playback.len playback.bits
    (fuel + 1) (leftOver (headerCheck payload) payload.length)
    ((payload.drop (headerCheck payload)).take (leftOver (headerCheck payload) payload.length) ++
      playback.allocated.drop (leftOver (headerCheck payload) payload.length))
    playback.received start fault playback.bits_byte faulty
  constructor
  · intro pushes
    simp only [playWave, if_neg accepted, if_neg nonzero]
    by_cases whole : playback.chunk ≤ leftOver (headerCheck payload) payload.length
    · have stopped := initial_faults env playback.chlist playback.len playback.bits (fuel + 1)
        (headerCheck payload) playback.chunk fuel payload.length
        (payload.drop (headerCheck payload)) start fault playback.bits_byte faulty whole
      simp only [Playback.len, Playback.bits, start] at stopped
      rw [stopped]
    · have positive := pushes.resolve_left whole
      have skips := skipped whole
      have stopped := stops positive
      simp only [Playback.len, Playback.bits, start] at skips stopped
      simp only [skips, stopped]
  · intro silent
    rw [Pushes, not_or] at silent
    have skips := skipped silent.1
    have returned := returns silent.2
    simp only [Playback.len, Playback.bits, start] at skips returned
    exact ⟨_, by simp only [playWave, if_neg accepted, if_neg nonzero, skips, returned]; rfl⟩

/-- A call whose pushes have no fault ends if its chunks are not empty. -/
theorem wave_ends (fuel : Nat) (accepted : headerCheck payload ≠ 0)
    (nonzero : playback.format.channels ≠ 0)
    (sound : verdict env playback.len playback.chlist.length playback.bits = .ok ())
    (enough : 2 ^ 31 + playback.len + leftOver (headerCheck payload) payload.length + 1 < fuel) :
    (0 < playback.chunk → ∃ result, playWave env headerCheck playback fuel (some payload) state =
      .ok result) ∧
    (playback.chunk = 0 → playWave env headerCheck playback fuel (some payload) state =
      .error .fuel) := by
  let start : PushState := { state with server := { state.server with
    host := serverSpctrlSetFormat playback.format.samplesPerSec playback.format.bitsPerSample
      playback.results state.server.speakers state.server.host } }
  constructor
  · intro some
    obtain ⟨⟨length, data, next⟩, first⟩ := initial_ends env playback.chlist playback.len
      playback.bits fuel (headerCheck payload) playback.chunk fuel payload.length
      (payload.drop (headerCheck payload)) start playback.bits_byte sound some (by omega) (by omega)
    obtain ⟨final, second⟩ := received_ends env playback.chlist playback.len playback.bits fuel
      (leftOver (headerCheck payload) length)
      (data.take (leftOver (headerCheck payload) length) ++
        playback.allocated.drop (leftOver (headerCheck payload) length))
      playback.received next playback.bits_byte sound (by omega)
    simp only [Playback.len, Playback.bits, start] at first second
    exact ⟨(final, 0), by simp only [playWave, if_neg accepted, if_neg nonzero, first, second]⟩
  · intro none
    have stuck := initial_endless env playback.chlist playback.len playback.bits fuel
      (headerCheck payload) fuel payload.length (payload.drop (headerCheck payload)) start
      playback.bits_byte sound (by omega)
    simp only [Playback.len, Playback.bits, start] at stuck
    simp only [playWave, if_neg accepted, if_neg nonzero, none] at stuck ⊢
    rw [stuck]

/-- No push divides by zero or copies without end exactly if a compiled-in first assertion stops
it, or its stride does not vanish as a 32-bit number. -/
theorem verdict_harmless (len channels bits : Nat) (nonzero : channels ≠ 0) :
    (verdict env len channels bits ≠ .error .zeroDivisor ∧
      verdict env len channels bits ≠ .error .fuel) ↔
    env.asserts = true ∧ 1500 ≤ (env.pcm.headerSize + len) % 2 ^ 64 ∨
      channels * bits % 2 ^ 32 ≠ 0 := by
  cases compiled : env.asserts with
  | true =>
    simp only [verdict, assertions, compiled, if_true, if_neg nonzero]
    generalize (env.pcm.headerSize + len) % 2 ^ 64 = total
    generalize channels * bits % 2 ^ 32 = stride
    by_cases large : 1500 ≤ total
    · simp [large]
    · by_cases stands : stride = 0
      · simp [large, stands]
      · by_cases multiple : len % stride = 0 <;> by_cases fits : env.configMtu ≤ len / channels <;>
          simp [large, stands, multiple, fits]
  | false =>
    rw [verdict, compiled, Nat.mul_comm channels]
    generalize bits * channels % 2 ^ 32 = stride
    by_cases stands : stride = 0
    · simp [stands, nonzero]
    · simp [stands]

/-- When an assertion stops the push of an empty chunk. -/
theorem verdict_empty (channels bits : Nat) (nonzero : channels ≠ 0) :
    verdict env 0 channels bits = .error .assertion ↔
      env.asserts = true ∧ (1500 ≤ env.pcm.headerSize % 2 ^ 64 ∨
        channels * bits % 2 ^ 32 ≠ 0 ∧ env.configMtu = 0) := by
  cases compiled : env.asserts with
  | true =>
    simp only [verdict, assertions, compiled, if_true, if_neg nonzero, Nat.add_zero,
      Nat.zero_mod, Nat.zero_div, Nat.le_zero, ne_eq, not_true_eq_false, if_false, true_and]
    generalize env.pcm.headerSize % 2 ^ 64 = total
    generalize channels * bits % 2 ^ 32 = stride
    by_cases large : 1500 ≤ total
    · simp [large]
    · by_cases stands : stride = 0
      · simp [large, stands]
      · by_cases unset : env.configMtu = 0 <;> simp [unset, large, stands]
  | false =>
    rw [verdict, compiled]
    generalize bits * channels % 2 ^ 32 = stride
    by_cases stands : stride = 0
    · simp [stands, nonzero]
    · simp [stands]

/-- A call whose header is accepted ends without a division by zero under these
conditions on the header, the chunk size, the build and the first `recv`. -/
def Harmless (headerSize length : Nat) : Prop :=
  playback.format.channels ≠ 0 ∧
  (Pushes headerSize playback.chunk length playback.received →
    env.asserts = true ∧ 1500 ≤ (env.pcm.headerSize + playback.len) % 2 ^ 64 ∨
      playback.format.channels * playback.bits % 2 ^ 32 ≠ 0) ∧
  (playback.chunk = 0 →
    env.asserts = true ∧ (1500 ≤ env.pcm.headerSize % 2 ^ 64 ∨ env.configMtu = 0))

/-- Empty chunks have pushes of no length. -/
theorem len_empty (none : playback.chunk = 0) : playback.len = 0 := by
  rw [Playback.len, none, perSampleChunkBytes, Nat.zero_div]
  rfl

/-- With enough fuel and at least one channel a call ends exactly if its pushes, if there
are any, have no fault but a failed assertion, and empty chunks fail one. -/
theorem ends_iff_verdict (accepted : headerCheck payload ≠ 0)
    (nonzero : playback.format.channels ≠ 0)
    (same : playback.chlist.length = playback.format.channels) :
    Ends env headerCheck playback (some payload) state ↔
      (Pushes (headerCheck payload) playback.chunk payload.length playback.received →
        verdict env playback.len playback.format.channels playback.bits ≠ .error .zeroDivisor ∧
        verdict env playback.len playback.format.channels playback.bits ≠ .error .fuel) ∧
      (playback.chunk = 0 →
        verdict env playback.len playback.format.channels playback.bits = .error .assertion) := by
  rw [← same]
  have always (none : playback.chunk = 0) :
      Pushes (headerCheck payload) playback.chunk payload.length playback.received :=
    Or.inl (none ▸ Nat.zero_le _)
  cases outcome : verdict env playback.len playback.chlist.length playback.bits with
  | error fault =>
    have faults (fuel : Nat) := wave_faults env headerCheck playback payload state fuel fault
      accepted nonzero outcome
    constructor
    · rintro ⟨bound, ends⟩
      have stops := ends (bound + 1) (Nat.lt_succ_self bound)
      have harmless (pushes : Pushes (headerCheck payload) playback.chunk payload.length
          playback.received) : fault ≠ .zeroDivisor ∧ fault ≠ .fuel := by
        rw [(faults bound).1 pushes] at stops
        simpa using stops
      refine ⟨fun pushes => by simpa using harmless pushes, ?_⟩
      intro none
      have fair := harmless (always none)
      cases fault with
      | assertion => rfl
      | zeroDivisor => exact absurd rfl fair.1
      | fuel => exact absurd rfl fair.2
    · rintro ⟨harmless, _⟩
      refine ⟨0, ?_⟩
      intro fuel more
      obtain ⟨less, rfl⟩ := Nat.exists_eq_succ_of_ne_zero (Nat.ne_of_gt more)
      by_cases pushes : Pushes (headerCheck payload) playback.chunk payload.length
          playback.received
      · rw [(faults less).1 pushes]
        simpa using harmless pushes
      · obtain ⟨result, returned⟩ := (faults less).2 pushes
        simp [returned]
  | ok =>
    have ran (fuel : Nat) := wave_ends env headerCheck playback payload state fuel accepted nonzero
      outcome
    constructor
    · rintro ⟨bound, ends⟩
      refine ⟨fun _ => by simp, ?_⟩
      intro none
      exfalso
      have long := ran
        (bound + (2 ^ 31 + playback.len + leftOver (headerCheck payload) payload.length + 2)) (by omega)
      exact (ends _ (by omega)).2 (long.2 none)
    · rintro ⟨_, filled⟩
      have some : 0 < playback.chunk := by
        apply Nat.pos_of_ne_zero
        intro none
        have impossible := filled none
        cases impossible
      refine ⟨2 ^ 31 + playback.len + leftOver (headerCheck payload) payload.length + 1, ?_⟩
      intro fuel enough
      obtain ⟨result, returned⟩ := (ran fuel enough).1 some
      simp [returned]

/-- For every header, chunk size and message, a call ends without a division by zero
exactly if the header is refused, or has channels, and the strides and chunks that come
from it are not zero where they are used. -/
theorem wave_ends_iff (same : playback.chlist.length = playback.format.channels) :
    Ends env headerCheck playback (some payload) state ↔
      headerCheck payload = 0 ∨
        Harmless env playback (headerCheck payload) payload.length := by
  by_cases refused : headerCheck payload = 0
  · refine ⟨fun _ => Or.inl refused, fun _ => ⟨0, ?_⟩⟩
    intro fuel _
    simp [playWave, refused]
  by_cases silent : playback.format.channels = 0
  · have trapped (fuel : Nat) : playWave env headerCheck playback fuel (some payload) state =
        .error .zeroDivisor := by simp [playWave, refused, silent]
    constructor
    · rintro ⟨bound, ends⟩
      exact absurd (trapped (bound + 1)) (ends (bound + 1) (Nat.lt_succ_self bound)).1
    · rintro (impossible | harmless)
      · exact absurd impossible refused
      · exact absurd silent harmless.1
  · rw [ends_iff_verdict env headerCheck playback payload state refused silent same,
      verdict_harmless env playback.len playback.format.channels playback.bits silent]
    have empty (none : playback.chunk = 0) :
        verdict env playback.len playback.format.channels playback.bits = .error .assertion ↔
          env.asserts = true ∧ (1500 ≤ env.pcm.headerSize % 2 ^ 64 ∨
            playback.format.channels * playback.bits % 2 ^ 32 ≠ 0 ∧ env.configMtu = 0) := by
      rw [len_empty playback none]
      exact verdict_empty env playback.format.channels playback.bits silent
    constructor
    · rintro ⟨pushing, filled⟩
      refine Or.inr ⟨silent, pushing, ?_⟩
      intro none
      obtain ⟨compiled, fails⟩ := (empty none).mp (filled none)
      exact ⟨compiled, fails.imp_right And.right⟩
    · rintro (impossible | ⟨_, pushing, filled⟩)
      · exact absurd impossible refused
      · refine ⟨pushing, ?_⟩
        intro none
        obtain ⟨compiled, fails⟩ := filled none
        refine (empty none).mpr ⟨compiled, ?_⟩
        by_cases large : 1500 ≤ env.pcm.headerSize % 2 ^ 64
        · exact Or.inl large
        · have moves := pushing (Or.inl (none ▸ Nat.zero_le _))
          rw [len_empty playback none, Nat.add_zero] at moves
          exact Or.inr ⟨moves.resolve_left fun stopped => large stopped.2,
            fails.resolve_left large⟩

end Waves

/-- Carry out recorded pushes in their order. -/
def pushAll (env : Environment) (fuel : Nat) (chlist : List Nat) :
    List PushCall → PushState → Except Fault PushState
  | [], state => .ok state
  | call :: rest, state =>
    match pushNow env fuel chlist call state with
    | .error fault => .error fault
    | .ok state => pushAll env fuel chlist rest state

/-- Tell the speakers recorded formats in their order. -/
def tellFormats (results : Nat → Int) (formats : List (Nat × Nat)) (state : PushState) :
    PushState :=
  formats.foldl (fun state told =>
    { state with server := { state.server with
      host := serverSpctrlSetFormat told.1 told.2 results state.server.speakers
        state.server.host } }) state

section Recording

variable (env : Environment) (fuel : Nat) (chlist : List Nat) (len bits : Nat)

/-- The first loop makes the pushes that `initialLoop` records. -/
theorem play_initial_records (pushFuel headerSize chunk length last : Nat)
    (data rest : List UInt8) (earlier : List PushCall) (state final : PushState)
    (played : playInitial env pushFuel chlist headerSize chunk len bits fuel length data state =
      .ok (last, rest, final)) :
    ∃ pushes, (initialLoop headerSize chunk len bits).run fuel ⟨length, data, earlier⟩ =
        some ⟨last, rest, earlier ++ pushes⟩ ∧
      pushAll env pushFuel chlist pushes state = .ok final := by
  induction fuel generalizing length data earlier state with
  | zero => cases played
  | succ fuel inductionHypothesis =>
    rw [playInitial] at played
    by_cases whole : chunk ≤ leftOver headerSize length
    · rw [if_pos whole] at played
      split at played
      · cases played
      · next next pushed =>
        obtain ⟨pushes, ran, carried⟩ := inductionHypothesis _ _
          (earlier ++ [⟨data.take chunk, len, bits⟩]) next played
        refine ⟨⟨data.take chunk, len, bits⟩ :: pushes, ?_, ?_⟩
        · have going : (initialLoop headerSize chunk len bits).condition
              ⟨length, data, earlier⟩ = true := decide_eq_true whole
          rw [Loop.run, if_pos going]
          simpa [initialLoop] using ran
        · simp only [pushAll, pushed, carried]
    · rw [if_neg whole] at played
      obtain ⟨rfl, rfl, rfl⟩ : length = last ∧ data = rest ∧ state = final := by
        simpa using played
      refine ⟨[], ?_, rfl⟩
      have ended : ¬ (initialLoop headerSize chunk len bits).condition
          ⟨length, data, earlier⟩ = true := by simpa [initialLoop] using whole
      rw [Loop.run, if_neg ended, List.append_nil]

/-- The second loop makes the pushes that `receiveLoop` records. -/
theorem play_received_records (offset : Nat) (buffer : List UInt8) (received : List Received)
    (state final : PushState)
    (played : playReceived env fuel chlist len bits offset buffer received state = .ok final) :
    pushAll env fuel chlist (receiveLoop len bits offset buffer received).1 state = .ok final := by
  induction received generalizing offset buffer state with
  | nil => exact played
  | cons first rest inductionHypothesis =>
    by_cases positive : 0 < first.len
    · simp only [playReceived, if_pos positive] at played
      split at played
      · cases played
      · next next pushed =>
        have carried := inductionHypothesis 0 (overwrite buffer offset first.bytes) next played
        simp only [receiveLoop, if_pos positive, pushAll, pushed, carried]
    · simp only [playReceived, if_neg positive] at played
      simpa only [receiveLoop, if_neg positive, pushAll] using played

/-- Carrying out more pushes goes on from where the first ones end. -/
theorem push_all_append (first second : List PushCall) (state middle : PushState)
    (carried : pushAll env fuel chlist first state = .ok middle) :
    pushAll env fuel chlist (first ++ second) state = pushAll env fuel chlist second middle := by
  induction first generalizing state with
  | nil =>
    obtain rfl := Except.ok.inj carried
    rfl
  | cons call rest inductionHypothesis =>
    rw [List.cons_append, pushAll]
    rw [pushAll] at carried
    cases pushed : pushNow env fuel chlist call state with
    | error fault =>
      rw [pushed] at carried
      cases carried
    | ok next =>
      rw [pushed] at carried
      exact inductionHypothesis next carried

/-- A call that returns has told the formats and made the pushes that `cmdWave` records,
in their order. -/
theorem play_wave_records (headerCheck : List UInt8 → Nat) (playback : Playback)
    (arg : Option (List UInt8)) (state final : PushState) (code : Int)
    (played : playWave env headerCheck playback fuel arg state = .ok (final, code)) :
    ∃ wave, cmdWave headerCheck playback.chunk playback.format playback.allocated fuel arg
        playback.received = some wave ∧ wave.code = code ∧
      pushAll env fuel playback.chlist wave.pushes
        (tellFormats playback.results wave.formats state) = .ok final := by
  unfold playWave at played
  cases arg with
  | none =>
    obtain ⟨rfl, rfl⟩ := Prod.mk.inj (Except.ok.inj played)
    exact ⟨_, rfl, rfl, rfl⟩
  | some payload =>
    simp only at played
    by_cases refused : headerCheck payload = 0
    · rw [if_pos refused] at played
      obtain ⟨rfl, rfl⟩ := Prod.mk.inj (Except.ok.inj played)
      exact ⟨_, by simp only [cmdWave, if_pos refused]; rfl, rfl, rfl⟩
    · rw [if_neg refused] at played
      split at played
      · cases played
      · split at played
        · cases played
        · next length data middle first =>
          split at played
          · cases played
          · next last second =>
            obtain ⟨rfl, rfl⟩ := Prod.mk.inj (Except.ok.inj played)
            obtain ⟨pushes, ran, carried⟩ := play_initial_records env fuel playback.chlist _ _ fuel
              _ _ _ _ _ _ [] _ _ first
            have later := play_received_records env fuel playback.chlist _ _ _ _ _ _ _ second
            rw [List.nil_append] at ran
            refine ⟨_, by simp only [cmdWave, if_neg refused, pushInitial, ran]; rfl, rfl, ?_⟩
            exact (push_all_append env fuel playback.chlist pushes _ _ middle carried).trans later

end Recording

/-- Two chunks of a two-channel file, told to two channels. -/
def referencePlayback : Playback where
  chunk := 4
  format := referenceFormat
  chlist := [1, 2]
  allocated := [0, 0, 0, 0]
  results := fun _ => 0
  received := stream [[6, 7, 8], [9, 10, 11, 12]]

/-- The reference call ends. -/
theorem reference_wave_ends :
    Ends referenceEnvironment referenceHeaderCheck referencePlayback
        (some (referenceHeader ++ [1, 2, 3, 4, 5])) freshState ↔
      referenceHeaderCheck (referenceHeader ++ [1, 2, 3, 4, 5]) = 0 ∨
        Harmless referenceEnvironment referencePlayback
          (referenceHeaderCheck (referenceHeader ++ [1, 2, 3, 4, 5]))
          (referenceHeader ++ [1, 2, 3, 4, 5]).length :=
  wave_ends_iff referenceEnvironment referenceHeaderCheck referencePlayback
    (referenceHeader ++ [1, 2, 3, 4, 5]) freshState rfl

/-- A header without channels traps the server, and a header with samples of four bits
keeps it copying for ever. -/
theorem malformed_headers_do_not_end :
    ¬ Ends referenceEnvironment referenceHeaderCheck
        { referencePlayback with format := ⟨0, 44100, 16⟩, chlist := [] }
        (some referenceHeader) freshState ∧
    ¬ Ends referenceEnvironment referenceHeaderCheck
        { referencePlayback with format := ⟨2, 44100, 4⟩ }
        (some (referenceHeader ++ [1, 2, 3, 4])) freshState := by
  constructor
  · rintro ⟨bound, ends⟩
    exact (ends (bound + 1) (Nat.lt_succ_self bound)).1 rfl
  · rintro ⟨bound, ends⟩
    apply (ends (bound + 1) (Nat.lt_succ_self bound)).2
    have header : referenceHeaderCheck (referenceHeader ++ [1, 2, 3, 4]) ≠ 0 := by decide
    exact (wave_faults referenceEnvironment referenceHeaderCheck
      { referencePlayback with format := ⟨2, 44100, 4⟩ } (referenceHeader ++ [1, 2, 3, 4])
      freshState bound .fuel header (by decide) (by decide)).1 (Or.inl (by decide))

end Castserver.WaveEnds
