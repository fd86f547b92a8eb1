import Castserver.Exchange

/-!
# What the client transmits

The client alone, whatever its receives give: a first message of fixed size and then
one buffer of the chunk size for every read that brings anything. Every send has the
size of its buffer, not of what was read into it.
-/

namespace Castserver.Transmission

open Dispatcher Pushwave Exchange
open Library.Loops

/-- Whether the client has a step of its own can be computed. -/
def running : Client → Bool
  | .starting | .reading _ _ => true
  | _ => false

/-- Whether the client is behind its last receive. -/
def closed : Client → Bool
  | .closed => true
  | _ => false

/-- The client on its own. Its receives are over with any result. -/
def clientLoop (setting : Setting) : Loop Parties where
  condition := fun state => !closed state.client
  body := fun state =>
    if running state.client then pipeInit setting state
    else { state with client := state.client.acknowledged }

/-- What is left of the file behind the first message. -/
def tail (setting : Setting) : List UInt8 := setting.file.drop (controlBufferSize - 12)

/-- What the client still has to read. -/
def unread : Client → List UInt8
  | .reading rest _ | .awaiting rest _ => rest
  | _ => []

/-- The buffer of the loop has the chunk size. -/
def buffered (chunk : Nat) : Client → Prop
  | .reading _ buf | .awaiting _ buf => buf.length = chunk
  | _ => True

/-- The steps that the client has left, at most. -/
def remaining (setting : Setting) : Client → Nat
  | .starting => 2 * (tail setting).length + 4
  | .reading rest _ => 2 * rest.length + 2
  | .awaiting rest _ => 2 * rest.length + 3
  | .finishing => 1
  | .closed => 0

/-- The invariant behind the first message: what has been sent is that message and whole
chunks, and as long as the tail consists of whole chunks, what has been sent and what is
still to be read are the first message and the tail. The server has not ended. -/
structure Sent (setting : Setting) (state : Parties) : Prop where
  runs : state.server.ended = false
  buffer : buffered setting.chunk state.client
  whole : ∃ count, state.toServer.length = controlBufferSize + count * setting.chunk
  exact : setting.chunk ∣ (tail setting).length →
    setting.chunk ∣ (unread state.client).length ∧
      state.toServer ++ unread state.client = head setting ++ tail setting

/-- The invariant of the whole run. -/
def Sending (setting : Setting) (state : Parties) : Prop :=
  state = start ∨ state.client ≠ .starting ∧ Sent setting state

section Transmitting

variable (setting : Setting) (positive : 0 < setting.chunk)
  (headSize : setting.headBytes.length = controlBufferSize)
  (chunkSize : setting.chunkBytes.length = setting.chunk)
  (accepted : setting.headerCheck (payload setting) ≠ 0)

/-- A full read leaves nothing of the buffer's old bytes. -/
theorem fread_full (size : Nat) (file buf : List UInt8) (full : buf.length = size)
    (long : size ≤ file.length) : fread size file buf = file.take size := by
  rw [fread, List.drop_eq_nil_of_le, List.append_nil]
  simp [full, long]

include headSize chunkSize accepted in
/-- The first message starts the invariant. -/
theorem first_sent : Sent setting (pipeInit setting start) := by
  have first : pipeInit setting start =
      { start with
        client := .reading (tail setting) setting.chunkBytes
        toServer := head setting } := by
    simp only [pipeInit, start, if_neg accepted, List.nil_append]
    rfl
  rw [first]
  refine ⟨rfl, chunkSize, ⟨0, ?_⟩, ?_⟩
  · rw [head_length setting headSize, Nat.zero_mul, Nat.add_zero]
  · intro multiple
    exact ⟨multiple, rfl⟩

/-- A step that sends and reads nothing keeps the invariant. -/
theorem moved_sent (state : Parties) (next : Client) (sent : Sent setting state)
    (sameUnread : unread next = unread state.client) (buffer : buffered setting.chunk next) :
    Sent setting { state with client := next } := by
  refine ⟨sent.runs, buffer, sent.whole, ?_⟩
  intro multiple
  simp only [sameUnread]
  exact sent.exact multiple

/-- One buffer of the loop keeps the invariant. -/
theorem chunk_sent (state : Parties) (rest buf : List UInt8) (some : rest ≠ [])
    (at_head : state.client = .reading rest buf) (sent : Sent setting state) :
    Sent setting
      { state with
        client := .awaiting (rest.drop setting.chunk) (fread setting.chunk rest buf)
        toServer := state.toServer ++ fread setting.chunk rest buf } := by
  have bufferSize : buf.length = setting.chunk := by
    have buffer := sent.buffer
    rw [at_head] at buffer
    exact buffer
  have size := fread_length setting.chunk rest buf bufferSize
  refine ⟨sent.runs, size, ?_, ?_⟩
  · obtain ⟨count, length⟩ := sent.whole
    refine ⟨count + 1, ?_⟩
    rw [List.length_append, length, size]
    ring
  · intro multiple
    obtain ⟨left, all⟩ := sent.exact multiple
    simp only [at_head, unread] at left all
    have long : setting.chunk ≤ rest.length :=
      Nat.le_of_dvd (List.length_pos_iff.mpr some) left
    constructor
    · simp only [unread, List.length_drop]
      exact Nat.dvd_sub left (Nat.dvd_refl setting.chunk)
    · simp only [unread]
      rw [fread_full setting.chunk rest buf bufferSize long, List.append_assoc,
        List.take_append_drop]
      exact all

include positive headSize chunkSize accepted

/-- One step of the client keeps the invariant and leaves it fewer steps. -/
theorem client_step (state : Parties) (sending : Sending setting state)
    (going : (clientLoop setting).condition state = true) :
    Sending setting ((clientLoop setting).body state) ∧
      remaining setting ((clientLoop setting).body state).client <
        remaining setting state.client := by
  rcases sending with rfl | ⟨past, sent⟩
  · have first := first_sent setting headSize chunkSize accepted
    have moved : (pipeInit setting start).client =
        .reading (tail setting) setting.chunkBytes := by
      simp only [pipeInit, start, if_neg accepted]
      rfl
    simp only [clientLoop, start, running, if_true] at first moved ⊢
    exact ⟨Or.inr ⟨by rw [moved]; simp, first⟩, by rw [moved]; simp [remaining]⟩
  · cases stage : state.client with
    | starting => exact absurd stage past
    | reading rest buf =>
      cases rest with
      | nil =>
        have moved := moved_sent setting state .finishing sent (by rw [stage]; rfl) trivial
        simp only [clientLoop, stage, running, if_true, pipeInit] at moved ⊢
        exact ⟨Or.inr ⟨by simp, moved⟩, by simp [remaining]⟩
      | cons byte more =>
        have next := chunk_sent setting state (byte :: more) buf (by simp) stage sent
        simp only [clientLoop, stage, running, if_true, pipeInit, sent.runs, Bool.false_eq_true,
          if_false]
        refine ⟨Or.inr ⟨by simp, next⟩, ?_⟩
        simp only [remaining, List.length_drop, List.length_cons]
        omega
    | awaiting rest buf =>
      have buffer : buf.length = setting.chunk := by
        have held := sent.buffer
        rw [stage] at held
        exact held
      have moved := moved_sent setting state (.reading rest buf) sent (by rw [stage]; rfl) buffer
      simp only [clientLoop, stage, running, Bool.false_eq_true, if_false,
        Client.acknowledged]
      exact ⟨Or.inr ⟨by simp, moved⟩, by simp [remaining]⟩
    | finishing =>
      have moved := moved_sent setting state .closed sent (by rw [stage]; rfl) trivial
      simp only [clientLoop, stage, running, Bool.false_eq_true, if_false,
        Client.acknowledged]
      exact ⟨Or.inr ⟨by simp, moved⟩, by simp [remaining]⟩
    | closed => simp [clientLoop, stage, closed] at going

/-- The client comes to its end, with the invariant. -/
theorem client_ends (fuel : Nat) (enough : 2 * (tail setting).length + 4 < fuel) :
    ∃ final, (clientLoop setting).run fuel start = some final ∧ final.client = .closed ∧
      Sent setting final := by
  obtain ⟨final, ran, sending, ended⟩ := (clientLoop setting).total_rule (Sending setting)
    (fun state => remaining setting state.client)
    (client_step setting positive headSize chunkSize accepted) fuel start (Or.inl rfl) enough
  have atEnd : final.client = .closed := by
    cases stage : final.client with
    | closed => rfl
    | _ => simp [clientLoop, stage, closed] at ended
  refine ⟨final, ran, atEnd, ?_⟩
  rcases sending with rfl | ⟨_, sent⟩
  · cases atEnd
  · exact sent

/-- The client comes to its end, and then the bytes on the socket are the name of the
command and the file exactly if the file fills the first message and whole chunks
behind it. Otherwise bytes that were not read from the file are sent too. -/
theorem client_sends_file_iff (fuel : Nat)
    (enough : 2 * (tail setting).length + 4 < fuel) :
    ∃ final, (clientLoop setting).run fuel start = some final ∧ final.client = .closed ∧
      (final.toServer = pushwave ++ setting.file ↔
        controlBufferSize - 12 ≤ setting.file.length ∧
          setting.chunk ∣ setting.file.length - (controlBufferSize - 12)) := by
  obtain ⟨final, ran, atEnd, sent⟩ :=
    client_ends setting positive headSize chunkSize accepted fuel enough
  refine ⟨final, ran, atEnd, ?_⟩
  have name : pushwave.length = 12 := by decide
  have tailLength : (tail setting).length = setting.file.length - (controlBufferSize - 12) :=
    List.length_drop
  constructor
  · intro same
    obtain ⟨count, length⟩ := sent.whole
    rw [same, List.length_append, name] at length
    simp only [controlBufferSize] at length ⊢
    exact ⟨by omega, count, by rw [Nat.mul_comm]; omega⟩
  · rintro ⟨long, multiple⟩
    rw [← tailLength] at multiple
    obtain ⟨_, all⟩ := sent.exact multiple
    simp only [atEnd, unread, List.append_nil] at all
    have payloadExact : payload setting = setting.file.take (controlBufferSize - 12) :=
      fread_full _ _ _ (by rw [List.length_drop, headSize]) long
    rw [all, head, payloadExact, tail, List.append_assoc, List.take_append_drop]

end Transmitting

/-- A file that fills the first message and two chunks of six bytes. -/
theorem whole_file_is_sent :
    ∃ final, (clientLoop (referenceSetting (List.replicate 4052 1) 6 1)).run 30 start =
        some final ∧ final.client = .closed ∧
      (final.toServer = pushwave ++ (referenceSetting (List.replicate 4052 1) 6 1).file ↔
        controlBufferSize - 12 ≤ (referenceSetting (List.replicate 4052 1) 6 1).file.length ∧
          (referenceSetting (List.replicate 4052 1) 6 1).chunk ∣
            (referenceSetting (List.replicate 4052 1) 6 1).file.length -
              (controlBufferSize - 12)) := by
  have sized := reference_sized (List.replicate 4052 1) 6 1 (by decide) (by decide) (by decide)
  apply client_sends_file_iff _ sized.positive sized.headSize sized.chunkSize
  · rw [reference_accepted (List.replicate 4052 1) 6 1 (by decide) (by decide) (by decide)]
    decide
  · have length : (tail (referenceSetting (List.replicate 4052 1) 6 1)).length = 12 := by
      simp only [tail, referenceSetting, List.length_drop, List.length_append,
        List.length_replicate]
      rfl
    rw [length]
    decide

/-- A file of 48 bytes is sent with the rest of the first message behind it. -/
theorem short_file_is_padded :
    ¬ ∃ final, (clientLoop (referenceSetting [1, 2, 3, 4] 4 1)).run 10 start = some final ∧
      final.toServer = pushwave ++ (referenceSetting [1, 2, 3, 4] 4 1).file := by
  rintro ⟨final, ran, same⟩
  have sized := reference_sized [1, 2, 3, 4] 4 1 (by decide) (by decide) (by decide)
  have checked := reference_accepted [1, 2, 3, 4] 4 1 (by decide) (by decide) (by decide)
  obtain ⟨other, alsoRan, _, sent⟩ := client_ends (referenceSetting [1, 2, 3, 4] 4 1)
    sized.positive sized.headSize sized.chunkSize (by rw [checked]; decide) 10 (by decide)
  rw [ran] at alsoRan
  obtain rfl := Option.some.inj alsoRan
  obtain ⟨count, length⟩ := sent.whole
  have short : final.toServer.length = 60 := by
    rw [same]
    decide
  rw [short] at length
  simp only [controlBufferSize] at length
  omega

end Castserver.Transmission
