import Castserver.Channels

/-!
# Headers of the datagrams

The pusher keeps a counter and a header in static variables. Every call of
`server_sppush_push_channel` moves the counter on, and encodes the header in front of
each datagram it sends. The two never meet: nothing assigns the header, so all
datagrams of a run carry the same one.
-/

namespace Castserver.Numbering

open Speakers Detect Service Channels

/-- The static variables `package_seq` and `pcm_head`. -/
structure Statics (Header : Type) where
  packageSeq : Int
  pcmHead : Header

/-- One call of `server_sppush_push_channel`, with what surrounds it: the channel buffer
and the server as earlier steps of any kind left them. -/
structure ChannelCall where
  env : Environment
  ch : Nat
  len : Nat
  buffer : Memory
  server : Server

/-- What a call leaves behind, and the headers it hands to `pcm_header_encode`. -/
structure Sent (Header : Type) where
  statics : Statics Header
  buffer : Memory
  server : Server
  handed : List Header

section Headers

variable {Header : Type} (encode : Memory → Header → Memory)

/-- Encode the header and send the datagram to one speaker. -/
def sendOne (call : ChannelCall) (sent : Sent Header) (id : Nat) : Sent Header :=
  let buf := encode sent.buffer sent.statics.pcmHead
  { statics := sent.statics
    buffer := buf
    server := pushSpeaker call.env.common call.env.readFd id (front buf call.len)
      (call.env.results call.ch id) sent.server
    handed := sent.handed ++ [sent.statics.pcmHead] }

/-- Send one buffer to every speaker of a channel. -/
def pushChannel (call : ChannelCall) (statics : Statics Header) : Sent Header :=
  let packageSeq :=
    if (BitVec.ofInt 16 statics.packageSeq).toInt = -1 then 1 else statics.packageSeq + 1
  let sent := ⟨{ statics with packageSeq := packageSeq }, call.buffer, call.server, []⟩
  match call.env.speakerList call.ch with
  | none => sent
  | some list => list.foldl (sendOne encode call) sent

/-- The environment of a call in which the encoder is given its header. -/
def withHeader (pcmHead : Header) (env : Environment) : Environment :=
  { env with pcm := { env.pcm with pcmHeaderEncode := fun buffer => encode buffer pcmHead } }

/-- The headers handed on in each call of a run. -/
def handedHeaders : List ChannelCall → Statics Header → List (List Header)
  | [], _ => []
  | call :: rest, statics =>
    let sent := pushChannel encode call statics
    sent.handed :: handedHeaders rest sent.statics

end Headers

/-- Any two calls fewer than 65535 apart hand on different headers. -/
def Numbered {Header : Type} (handed : List (List Header)) : Prop :=
  ∀ i j earlier later, i < j → j - i < 65535 → handed[i]? = some earlier →
    handed[j]? = some later → ∀ first ∈ earlier, ∀ second ∈ later, first ≠ second

/-- The speakers a call sends to. -/
def listeners (call : ChannelCall) : List Nat :=
  (call.env.speakerList call.ch).getD []

section Headers

variable {Header : Type} (encode : Memory → Header → Memory)

/-- Sending to a list of speakers hands on one header for each of them, and leaves the
static variables as they are. -/
theorem send_each (call : ChannelCall) (list : List Nat) (sent : Sent Header) :
    (list.foldl (sendOne encode call) sent).statics = sent.statics ∧
      (list.foldl (sendOne encode call) sent).handed =
        sent.handed ++ list.map fun _ => sent.statics.pcmHead := by
  induction list generalizing sent with
  | nil => exact ⟨rfl, by simp⟩
  | cons id rest inductionHypothesis =>
    obtain ⟨statics, handed⟩ := inductionHypothesis (sendOne encode call sent id)
    rw [List.foldl_cons, List.map_cons]
    refine ⟨statics, ?_⟩
    rw [handed]
    exact List.append_assoc sent.handed [sent.statics.pcmHead] _

/-- A call hands on the static header, once for each of its speakers, and keeps it. -/
theorem push_channel_handed (call : ChannelCall) (statics : Statics Header) :
    (pushChannel encode call statics).handed = (listeners call).map (fun _ => statics.pcmHead) ∧
      (pushChannel encode call statics).statics.pcmHead = statics.pcmHead := by
  unfold pushChannel listeners
  cases call.env.speakerList call.ch with
  | none => exact ⟨rfl, rfl⟩
  | some list =>
    simp only [Option.getD_some]
    rw [(send_each encode call list _).1, (send_each encode call list _).2]
    exact ⟨rfl, rfl⟩

/-- Apart from the noted headers, a call does what `server_sppush_push_channel` does. -/
theorem push_channel_sends (call : ChannelCall) (statics : Statics Header) :
    serverSppushPushChannel (withHeader encode statics.pcmHead call.env) call.ch call.len
        ⟨statics.packageSeq, call.buffer, call.server⟩ =
      ⟨(pushChannel encode call statics).statics.packageSeq,
        (pushChannel encode call statics).buffer, (pushChannel encode call statics).server⟩ := by
  have sending (list : List Nat) (sent : Sent Header)
      (header : sent.statics.pcmHead = statics.pcmHead) :
      list.foldl (fun state id =>
        let buf := encode state.channelBuffer statics.pcmHead
        { state with
          channelBuffer := buf
          server := pushSpeaker call.env.common call.env.readFd id (front buf call.len)
            (call.env.results call.ch id) state.server })
        (⟨sent.statics.packageSeq, sent.buffer, sent.server⟩ : PushState) =
      ⟨(list.foldl (sendOne encode call) sent).statics.packageSeq,
        (list.foldl (sendOne encode call) sent).buffer,
        (list.foldl (sendOne encode call) sent).server⟩ := by
    induction list generalizing sent with
    | nil => rfl
    | cons id rest inductionHypothesis =>
      rw [List.foldl_cons, List.foldl_cons, ← inductionHypothesis (sendOne encode call sent id)
        header]
      simp only [sendOne, header]
  unfold serverSppushPushChannel pushChannel
  simp only [withHeader]
  cases call.env.speakerList call.ch with
  | none => rfl
  | some list =>
    exact sending list
      ⟨{ statics with packageSeq :=
          if (BitVec.ofInt 16 statics.packageSeq).toInt = -1 then 1
          else statics.packageSeq + 1 }, call.buffer, call.server, []⟩ rfl

/-- In every run the header handed on is the one the run starts with. -/
theorem handed_headers (calls : List ChannelCall) (statics : Statics Header) :
    handedHeaders encode calls statics =
      calls.map fun call => (listeners call).map fun _ => statics.pcmHead := by
  induction calls generalizing statics with
  | nil => rfl
  | cons call rest inductionHypothesis =>
    obtain ⟨handed, kept⟩ := push_channel_handed encode call statics
    simp only [handedHeaders, List.map_cons, handed, inductionHypothesis, kept]

/-- The datagrams of a run are numbered exactly if no two calls fewer than 65535 apart
both reach a channel with speakers: two such calls hand on the same header. -/
theorem numbered_iff (calls : List ChannelCall) (statics : Statics Header) :
    Numbered (handedHeaders encode calls statics) ↔
      ∀ i j earlier later, i < j → j - i < 65535 → calls[i]? = some earlier →
        calls[j]? = some later → listeners earlier = [] ∨ listeners later = [] := by
  rw [handed_headers]
  constructor
  · intro numbered i j earlier later before close atFirst atSecond
    by_contra both
    rw [not_or] at both
    obtain ⟨first, firstMember⟩ := List.exists_mem_of_ne_nil _ both.1
    obtain ⟨second, secondMember⟩ := List.exists_mem_of_ne_nil _ both.2
    exact numbered i j _ _ before close (by rw [List.getElem?_map, atFirst]; rfl)
      (by rw [List.getElem?_map, atSecond]; rfl) statics.pcmHead
      (List.mem_map.mpr ⟨first, firstMember, rfl⟩) statics.pcmHead
      (List.mem_map.mpr ⟨second, secondMember, rfl⟩) rfl
  · intro apart i j earlier later before close atFirst atSecond first firstMember second
      secondMember
    rw [List.getElem?_map, Option.map_eq_some_iff] at atFirst atSecond
    obtain ⟨firstCall, firstFound, rfl⟩ := atFirst
    obtain ⟨secondCall, secondFound, rfl⟩ := atSecond
    rcases apart i j firstCall secondCall before close firstFound secondFound with none | none
    · rw [none] at firstMember
      exact absurd firstMember List.not_mem_nil
    · rw [none] at secondMember
      exact absurd secondMember List.not_mem_nil

end Headers

/-- A call for the channel of one speaker. -/
def referenceCall : ChannelCall where
  env := referenceEnvironment
  ch := 1
  len := 6
  buffer := fun _ => 0
  server := freshState.server

/-- Two calls in a row hand on the zero header, whatever type it has. -/
theorem second_datagram_repeats_header :
    ¬ Numbered (handedHeaders (fun (buffer : Memory) (_ : Nat) => buffer)
      [referenceCall, referenceCall] ⟨1, 0⟩) := by
  intro numbered
  exact numbered 0 1 [0] [0] (by decide) (by decide) rfl rfl 0 (by decide) 0 (by decide) rfl

end Castserver.Numbering
