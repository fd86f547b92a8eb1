import Castserver.Channels

/-!
# Delivery to the speakers of a channel

One call of `server_sppush_push_channel` goes through a list of speakers and sends each of
them the same buffer, with the header written anew. A speaker that cannot be sent to is
refreshed or disconnected on the way; that touches its own record and its own descriptor
only, so every other speaker of the list is sent what it would be sent alone.

Whether a send has failed is tested in an unsigned variable, in this loop and where control
packages are sent: no result of `sendto` is reported.
-/

namespace Castserver.Delivery

open Speakers Pusher Control Detect Service Channels
open Library.Histories

/-- A speaker that can be sent datagrams of a push. -/
def Eligible (sp : Speaker) : Prop :=
  sp.state = .online ∧ sp.supported = true ∧ sp.dport ≠ 0 ∧ 0 < sp.fd

instance (sp : Speaker) : Decidable (Eligible sp) := inferInstanceAs (Decidable (_ ∧ _))

/-- The datagram that a listed speaker is to be sent. -/
def attempt (speakers : List Speaker) (package : List UInt8) (id : Nat) : Option Event :=
  (findSpeakerById speakers id).bind fun sp =>
    if Eligible sp then some (.datagram sp.id sp.fd sp.ip sp.dport package) else none

/-- A datagram of a push handed to `sendto`. -/
def isDatagram : Event → Bool
  | .datagram _ _ _ _ _ => true
  | _ => false

/-- The datagrams of the history, oldest first. -/
def datagrams (host : Host) : List Event := (host.events.filter isDatagram).reverse

/-- The encoding of a header writes the bytes of the header, and no others. -/
def EncodesOnly (pcm : Pcm) (header : Memory) : Prop :=
  ∀ buffer address, pcm.pcmHeaderEncode buffer address =
    if address < pcm.headerSize then header address else buffer address

/-- The descriptor of a listed speaker that can be sent to belongs to no other one. -/
def OwnDescriptors (speakers : List Speaker) (list : List Nat) : Prop :=
  ∀ id ∈ list, ∀ sp, findSpeakerById speakers id = some sp → Eligible sp →
    ∀ other ∈ list, other ≠ id → ∀ otherSp, findSpeakerById speakers other = some otherSp →
      otherSp.fd ≠ sp.fd

/-- The sequence number of a call. -/
def numbered (state : PushState) : PushState :=
  { state with
    packageSeq :=
      if (BitVec.ofInt 16 state.packageSeq).toInt = -1 then 1 else state.packageSeq + 1 }

/-- One round of the loop over the speakers of a channel. -/
def sendTo (env : Environment) (ch len : Nat) (state : PushState) (id : Nat) : PushState :=
  { state with
    channelBuffer := env.pcm.pcmHeaderEncode state.channelBuffer
    server := pushSpeaker env.common env.readFd id
      (front (env.pcm.pcmHeaderEncode state.channelBuffer) len) (env.results ch id)
      state.server }

/-- A call goes through its list. -/
theorem push_channel_list (env : Environment) (ch len : Nat) (state : PushState)
    (list : List Nat) (listed : env.speakerList ch = some list) :
    serverSppushPushChannel env ch len state =
      list.foldl (sendTo env ch len) (numbered state) := by
  simp only [serverSppushPushChannel, listed]
  rfl

/-- A speaker can be sent to exactly if it passes the guard and is supported. -/
theorem eligible_iff (sp : Speaker) :
    Eligible sp ↔ unreachable sp = false ∧ sp.supported = true := by
  simp only [Eligible, unreachable, Bool.or_eq_false_iff, decide_eq_false_iff_not, not_not,
    Int.not_le]
  constructor
  · rintro ⟨online, supported, port, number⟩
    exact ⟨⟨⟨port, online⟩, number⟩, supported⟩
  · rintro ⟨⟨⟨port, online⟩, number⟩, supported⟩
    exact ⟨online, supported, port, number⟩

/-- A datagram comes behind the earlier ones. -/
theorem datagram_noted (id : Nat) (fd : Int) (ip : Addr) (port : Nat) (package : List UInt8)
    (server : Server) :
    datagrams (note (.datagram id fd ip port package) server).host =
      datagrams server.host ++ [.datagram id fd ip port package] :=
  List.reverse_cons

/-- Disconnecting a speaker sends nothing. -/
theorem disconnect_datagrams (readFd : Nat) (sp : Speaker) (host : Host) :
    datagrams (serverSppushDisconnect readFd sp host) = datagrams host := by
  unfold serverSppushDisconnect
  split
  · rfl
  · rfl

/-- Disconnecting a speaker closes no other number than its own. -/
theorem disconnect_apart (readFd : Nat) (sp : Speaker) (host : Host) (number : Nat)
    (apart : sp.fd ≠ number) :
    (serverSppushDisconnect readFd sp host).table number = host.table number := by
  rw [disconnect_table]
  apply if_neg
  rintro ⟨closing, same⟩
  have natural := (closes_apart readFd sp closing).2
  omega

/-- What sending to one speaker does: its datagram is attempted if it can be sent to, no
other record changes, and only a speaker that cannot be sent to loses its number. -/
structure Sends (package : List UInt8) (id : Nat) (before after : Server) : Prop where
  sent : datagrams after.host =
    datagrams before.host ++ (attempt before.speakers package id).toList
  others : ∀ other, other ≠ id →
    findSpeakerById after.speakers other = findSpeakerById before.speakers other
  table : ∀ number : Nat, (∀ sp, findSpeakerById before.speakers id = some sp →
      ¬ Eligible sp → sp.fd ≠ number) → after.host.table number = before.host.table number
  unique : (ids after.speakers).Nodup

section Calls

variable (env : Environment) (assumed : env.common.Assumed)

include assumed

/-- Sending to one speaker. -/
theorem push_speaker_sends (id : Nat) (package : List UInt8) (result : Int) (server : Server)
    (unique : (ids server.speakers).Nodup) :
    Sends package id server (pushSpeaker env.common env.readFd id package result server) := by
  let settings : Settings := ⟨0, 0, env.readFd, false⟩
  have later := unique_step assumed settings server (.push id package result) unique
  have outcome := push_outcome assumed settings id package result server unique
  simp only [step] at outcome later
  simp only [settings] at outcome later
  generalize pushSpeaker env.common env.readFd id package result server = after
    at outcome later ⊢
  cases outcome with
  | absent unknown =>
    constructor
    · simp [attempt, unknown]
    · exact fun _ _ => rfl
    · exact fun _ _ => rfl
    · exact later
  | refreshed sp timeout known guarded given =>
    obtain ⟨_, sameId⟩ := find_speaker_some server.speakers id sp known
    have ineligible : ¬ Eligible sp := by
      simp [eligible_iff, guarded]
    constructor
    · simp [attempt, known, ineligible, disconnect_datagrams]
    · intro other apart
      exact find_store_other server.speakers _ other (by simpa [sameId] using apart)
    · intro number owned
      exact disconnect_apart env.readFd sp server.host number (owned sp known ineligible)
    · exact later
  | unsupported sp known passed refused =>
    have ineligible : ¬ Eligible sp := by
      simp [eligible_iff, refused]
    constructor
    · simp [attempt, known, ineligible, disconnect_datagrams]
    · exact fun _ _ => rfl
    · intro number owned
      exact disconnect_apart env.readFd sp server.host number (owned sp known ineligible)
    · exact later
  | sent sp known passed supported =>
    have eligible : Eligible sp := (eligible_iff sp).mpr ⟨passed, supported⟩
    constructor
    · rw [datagram_noted]
      simp [attempt, known, eligible]
    · exact fun _ _ => rfl
    · exact fun _ _ => rfl
    · exact later

/-- A round leaves the other listed speakers what they are sent. -/
theorem round_sends (ch len : Nat) (state : PushState) (id : Nat)
    (unique : (ids state.server.speakers).Nodup) :
    Sends (front (env.pcm.pcmHeaderEncode state.channelBuffer) len) id state.server
      (sendTo env ch len state id).server :=
  push_speaker_sends env assumed id _ (env.results ch id) state.server unique

/-- What going through a list does: the eligible speakers are sent the same package in the
order of the list, no record outside the list changes, and no number is closed but those of
listed speakers that cannot be sent to. -/
theorem list_sends (header : Memory) (encodes : EncodesOnly env.pcm header) (ch len : Nat)
    (list : List Nat) (distinct : list.Nodup) (state : PushState)
    (unique : (ids state.server.speakers).Nodup) :
    datagrams (list.foldl (sendTo env ch len) state).server.host =
        datagrams state.server.host ++ list.filterMap (attempt state.server.speakers
          (front (env.pcm.pcmHeaderEncode state.channelBuffer) len)) ∧
      (∀ other, other ∉ list →
        findSpeakerById (list.foldl (sendTo env ch len) state).server.speakers other =
          findSpeakerById state.server.speakers other) ∧
      ∀ number : Nat, (∀ id ∈ list, ∀ sp, findSpeakerById state.server.speakers id = some sp →
          ¬ Eligible sp → sp.fd ≠ number) →
        (list.foldl (sendTo env ch len) state).server.host.table number =
          state.server.host.table number := by
  induction list generalizing state with
  | nil => exact ⟨by simp, fun _ _ => rfl, fun _ _ => rfl⟩
  | cons id rest inductionHypothesis =>
    obtain ⟨fresh, distinctRest⟩ := List.nodup_cons.mp distinct
    have round := round_sends env assumed ch len state id unique
    obtain ⟨sent, others, table⟩ :=
      inductionHypothesis distinctRest (sendTo env ch len state id) round.unique
    -- the header is encoded over itself
    have again : env.pcm.pcmHeaderEncode (sendTo env ch len state id).channelBuffer =
        env.pcm.pcmHeaderEncode state.channelBuffer := by
      funext address
      simp only [sendTo, encodes _ address]
      split <;> rfl
    have apart (other : Nat) (listed : other ∈ rest) : other ≠ id := fun same =>
      fresh (same ▸ listed)
    rw [List.foldl_cons]
    constructor
    · have attempts : rest.filterMap (attempt (sendTo env ch len state id).server.speakers
          (front (env.pcm.pcmHeaderEncode state.channelBuffer) len)) =
          rest.filterMap (attempt state.server.speakers
            (front (env.pcm.pcmHeaderEncode state.channelBuffer) len)) := by
        apply List.filterMap_congr
        intro other listed
        rw [attempt, attempt, round.others other (apart other listed)]
      rw [sent, again, attempts, round.sent, List.append_assoc, List.filterMap_cons]
      cases attempt state.server.speakers
        (front (env.pcm.pcmHeaderEncode state.channelBuffer) len) id <;> rfl
    constructor
    · intro other unlisted
      rw [others other (List.not_mem_of_not_mem_cons unlisted)]
      exact round.others other (List.ne_of_not_mem_cons unlisted)
    · intro number owned
      rw [table number, round.table number]
      · exact owned id List.mem_cons_self
      · intro other listed sp known
        rw [round.others other (apart other listed)] at known
        exact owned other (List.mem_cons_of_mem id listed) sp known

/-- One call sends the same package to every listed speaker that can be sent to, once and in
the order of the list, and nothing to any other speaker. Whatever happens to the speakers
before it, a speaker that can be sent to has its record and its descriptor when its turn
comes: it still has them after a call for the speakers before it alone. -/
theorem fan_out (header : Memory) (encodes : EncodesOnly env.pcm header) (ch len : Nat)
    (state : PushState) (list : List Nat) (listed : env.speakerList ch = some list)
    (distinct : list.Nodup) (unique : (ids state.server.speakers).Nodup)
    (own : OwnDescriptors state.server.speakers list) :
    datagrams (serverSppushPushChannel env ch len state).server.host =
        datagrams state.server.host ++ list.filterMap (attempt state.server.speakers
          (front (env.pcm.pcmHeaderEncode state.channelBuffer) len)) ∧
      ∀ before id rest, list = before ++ id :: rest →
        ∀ sp, findSpeakerById state.server.speakers id = some sp → Eligible sp →
          let reached := (serverSppushPushChannel
            { env with speakerList := fun _ => some before } ch len state).server
          findSpeakerById reached.speakers id = some sp ∧
            reached.host.table sp.fd.toNat = state.server.host.table sp.fd.toNat := by
  constructor
  · rw [push_channel_list env ch len state list listed]
    exact (list_sends env assumed header encodes ch len list distinct (numbered state) unique).1
  · rintro before id rest rfl sp known eligible
    obtain ⟨distinctBefore, _, disjoint⟩ := List.nodup_append.mp distinct
    obtain ⟨_, others, table⟩ := list_sends env assumed header encodes ch len before
      distinctBefore (numbered state) unique
    have apart (other : Nat) (earlier : other ∈ before) : other ≠ id :=
      disjoint other earlier id List.mem_cons_self
    have reached : serverSppushPushChannel { env with speakerList := fun _ => some before } ch len
        state = before.foldl (sendTo env ch len) (numbered state) :=
      push_channel_list { env with speakerList := fun _ => some before } ch len state before rfl
    rw [reached]
    constructor
    · rw [others id fun earlier => apart id earlier rfl]
      exact known
    · apply table
      intro other earlier otherSp otherKnown _ same
      have number : otherSp.fd = sp.fd := by
        have positive := eligible.2.2.2
        omega
      exact own id (by simp) sp known eligible other (by simp [earlier]) (apart other earlier)
        otherSp otherKnown number

end Calls

/-- The return codes report every result of `sendto`, and a speaker that cannot be sent to
is sent nothing. -/
structure Reports (sp : Speaker) (result : Int) : Prop where
  control : ∀ package host, (serverSpctrlSpeaker sp package result host).2 = 0 ↔
    (sp.state = .online ∧ sp.dport ≠ 0) ∧ 0 ≤ result
  pusher : ∀ common readFd package host,
    (pusherSendtoSpeaker common readFd package result sp host).2.2 = 0 ↔
      Eligible sp ∧ 0 ≤ result
  controlSilent : ¬ (sp.state = .online ∧ sp.dport ≠ 0) → ∀ package host,
    (serverSpctrlSpeaker sp package result host).1 = host
  pusherSilent : ¬ Eligible sp → ∀ common readFd package host,
    datagrams (pusherSendtoSpeaker common readFd package result sp host).2.1 = datagrams host

/-- The code of a control package tells only whether it was handed to `sendto`. -/
theorem control_code (sp : Speaker) (package : ControlPackage) (result : Int) (host : Host) :
    (serverSpctrlSpeaker sp package result host).2 = 0 ↔ sp.state = .online ∧ sp.dport ≠ 0 := by
  by_cases port : sp.dport = 0
  · simp [serverSpctrlSpeaker, serverSpctrlSendtoSpeaker, port]
  · by_cases online : sp.state = .online
    · simp [serverSpctrlSpeaker, serverSpctrlSendtoSpeaker, port, online]
    · simp [serverSpctrlSpeaker, serverSpctrlSendtoSpeaker, port, online]

/-- The code of a datagram of a push tells only whether it was handed to `sendto`, and
nothing is sent to a speaker that cannot be sent to. -/
theorem pusher_code (common : Common) (readFd : Nat) (package : List UInt8) (result : Int)
    (sp : Speaker) (host : Host) :
    ((pusherSendtoSpeaker common readFd package result sp host).2.2 = 0 ↔ Eligible sp) ∧
    (¬ Eligible sp → datagrams (pusherSendtoSpeaker common readFd package result sp host).2.1 =
      datagrams host) := by
  cases guarded : unreachable sp with
  | true =>
    rw [sendto_unreachable common readFd package result sp host guarded]
    simp [eligible_iff, guarded, disconnect_datagrams]
  | false =>
    cases supported : sp.supported with
    | false =>
      rw [sendto_unsupported common readFd package result sp host guarded supported]
      simp [eligible_iff, supported, disconnect_datagrams]
    | true =>
      rw [sendto_sent common readFd package result sp host guarded supported]
      simp [eligible_iff, guarded, supported]

/-- Both send functions report the result exactly if it is not an error, or if there is no
send because the speaker is offline or has no data port. -/
theorem reports_iff (sp : Speaker) (result : Int) :
    Reports sp result ↔ 0 ≤ result ∨ sp.state ≠ .online ∨ sp.dport = 0 := by
  constructor
  · intro reports
    by_cases eligible : sp.state = .online ∧ sp.dport ≠ 0
    · have code := control_code sp (.time 0 0) result ⟨fun _ => none, []⟩
      exact Or.inl ((reports.control _ _).mp (code.mpr eligible)).2
    · right
      by_cases online : sp.state = .online
      · exact Or.inr (by_contra fun port => eligible ⟨online, port⟩)
      · exact Or.inl online
  · intro condition
    have decided : sp.state = .online ∧ sp.dport ≠ 0 → 0 ≤ result := by
      rintro ⟨online, port⟩
      rcases condition with positive | offline | none
      · exact positive
      · exact absurd online offline
      · exact absurd none port
    constructor
    · intro package host
      rw [control_code]
      exact ⟨fun eligible => ⟨eligible, decided eligible⟩, fun both => both.1⟩
    · intro common readFd package host
      rw [(pusher_code common readFd package result sp host).1]
      exact ⟨fun eligible => ⟨eligible, decided ⟨eligible.1, eligible.2.2.1⟩⟩,
        fun both => both.1⟩
    · intro ineligible package host
      rw [control_sent, if_neg fun both => ineligible ⟨both.2, both.1⟩]
    · intro ineligible common readFd package host
      exact (pusher_code common readFd package result sp host).2 ineligible

/-- Two speakers of a channel, of which the first one is offline. -/
def twoSpeakers : List Speaker :=
  [{ Speaker.zero 7 0 1 with
      ip := ⟨2, [10, 0, 0, 7]⟩, dport := 4000, supported := true, state := .offline, fd := 5 },
    { Speaker.zero 8 0 1 with
      ip := ⟨2, [10, 0, 0, 8]⟩, dport := 4000, supported := true, state := .online, fd := 6 }]

/-- The offline speaker before it is disconnected on the way to the other one. -/
theorem second_speaker_is_sent :
    let env := { referenceEnvironment with speakerList := fun _ => some [7, 8] }
    let state := { freshState with server := ⟨twoSpeakers, freshServer.host⟩ }
    datagrams (serverSppushPushChannel env 1 6 state).server.host =
        datagrams state.server.host ++ [7, 8].filterMap (attempt state.server.speakers
          (front (env.pcm.pcmHeaderEncode state.channelBuffer) 6)) ∧
      ∀ before id rest, [7, 8] = before ++ id :: rest →
        ∀ sp, findSpeakerById state.server.speakers id = some sp → Eligible sp →
          let reached := (before.foldl (sendTo env 1 6) (numbered state)).server
          findSpeakerById reached.speakers id = some sp ∧
            reached.host.table sp.fd.toNat = state.server.host.table sp.fd.toNat := by
  have own : OwnDescriptors twoSpeakers [7, 8] := by
    intro id listed sp known eligible other otherListed apart otherSp otherKnown
    simp only [List.mem_cons, List.not_mem_nil, or_false] at listed otherListed
    rcases listed with rfl | rfl
    · cases known
      exact absurd eligible (by decide)
    · rcases otherListed with rfl | rfl
      · cases known
        cases otherKnown
        decide
      · exact absurd rfl apart
  exact fan_out { referenceEnvironment with speakerList := fun _ => some [7, 8] }
    (Common.reference_assumed 1) (fun _ => 0) (fun _ _ => rfl) 1 6
    { freshState with server := ⟨twoSpeakers, freshServer.host⟩ } [7, 8] rfl (by decide)
    (by decide) own

/-- A send that fails is reported as successful. -/
theorem failed_send_is_not_reported :
    ¬ Reports { Speaker.zero 8 0 1 with dport := 4000, state := .online } (-1) := by
  intro reports
  have code := (reports.control (.time 0 0) ⟨fun _ => none, []⟩).mp (by decide)
  exact absurd code.2 (by decide)

end Castserver.Delivery
