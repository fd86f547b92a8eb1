import Castserver.Service

/-!
# Clock replies

A clock reply carries the reading of the clock and its distance from the reading in the
record of the speaker. That reading is stored when a supported speaker joins, and nowhere
else: the record of a speaker that was not supported at first keeps the zero it started
with, and its replies carry the whole clock as the distance.

Next to the server stands what a reply has to be compared with: the latest reading of the
clock, and for every registered id the reading of its registration and whether the speaker
was supported then.
-/

namespace Castserver.Clocks

open Speakers Pusher Control Detect Service
open Library.Runs Library.Histories

/-- The registration of an id: the reading of the clock, and the support of the request. -/
structure Registration where
  start : Nat
  supported : Bool
deriving DecidableEq, Repr

/-- The server together with the latest reading of the clock and the registrations. -/
structure Clocked where
  server : Server
  clock : Nat
  registrations : Nat → Option Registration

/-- The reading of the clock at an action. -/
def reading : Action → Option Nat
  | .request _ answers => some answers.now
  | .time _ now _ => some now
  | _ => none

/-- The registrations after an action. An accepted request registers an unknown id. -/
def register (common : Common) (settings : Settings) (state : Clocked) :
    Action → Nat → Option Registration
  | .request header answers =>
    if accepts answers header state.server = true ∧
        findSpeakerById state.server.speakers header.id = none then
      Function.update state.registrations header.id
        (some ⟨answers.now, supports common settings header⟩)
    else state.registrations
  | _ => state.registrations

/-- What one action does. -/
def step (common : Common) (settings : Settings) (state : Clocked) (action : Action) : Clocked where
  server := Service.step common settings state.server action
  clock := (reading action).getD state.clock
  registrations := register common settings state action

/-- The clock never goes back. -/
def enabled (state : Clocked) (action : Action) : Prop :=
  ∀ now, reading action = some now → state.clock ≤ now

/-- The server with its clock as a machine. -/
def machine (common : Common) (settings : Settings) : Machine Clocked Action where
  enabled := enabled
  step := step common settings

/-- A server before its first request. -/
structure Fresh (state : Clocked) : Prop where
  vacant : state.server.speakers = []
  quiet : state.server.host.events = []
  none : ∀ id, state.registrations id = none

/-- A clock reply in the history. -/
structure ClockReply where
  id : Nat
  server : Nat
  offset : Int
deriving DecidableEq, Repr

/-- Enter a clock reply in front of the others. -/
def replyUpdate : Event → List ClockReply → List ClockReply
  | .control id (.time server offset) _, replies => ⟨id, server, offset⟩ :: replies
  | _, replies => replies

/-- The clock replies of the history, latest first. -/
def replies (host : Host) : List ClockReply :=
  observe replyUpdate [] host.events

/-- A reply carries the time since the registration of its speaker, which is not more than
has passed by now. -/
def Measured (state : Clocked) (reply : ClockReply) : Prop :=
  ∃ registration, state.registrations reply.id = some registration ∧
    reply.offset = reply.server - registration.start ∧
    reply.offset ≤ state.clock - registration.start

/-- Every clock reply carries the time since the registration of its speaker, and the
replies to one speaker never decrease. -/
structure Measures (state : Clocked) : Prop where
  measured : ∀ reply ∈ replies state.server.host, Measured state reply
  ordered : (replies state.server.host).Pairwise fun later earlier =>
    later.id = earlier.id → earlier.offset ≤ later.offset

/-- A clock request that is answered comes from a speaker that was supported when it was
registered, or was registered at the reading zero. -/
def AsksSupported (state : Clocked) : Action → Prop
  | .time spid _ _ => ∀ sp, findSpeakerById state.server.speakers spid = some sp →
      sp.dport ≠ 0 → sp.state = .online →
      ∃ registration, state.registrations spid = some registration ∧
        (registration.supported = true ∨ registration.start = 0)
  | _ => True

/-- The reading in a record is that of its registration if the speaker was supported, and
zero otherwise. -/
structure Invariant (state : Clocked) : Prop where
  unique : (ids state.server.speakers).Nodup
  absent : ∀ id, id ∉ ids state.server.speakers → state.registrations id = none
  started : ∀ sp ∈ state.server.speakers, ∃ registration,
    state.registrations sp.id = some registration ∧
    sp.connTime = if registration.supported then registration.start else 0

/-- Every event but a clock reply. -/
def Unclocked (event : Event) : Prop := ¬ IsClock event

/-- Events other than clock replies leave the clock replies as they were. -/
theorem replies_unclocked (before after : Host)
    (adds : Adds Unclocked before.events after.events) : replies after = replies before := by
  apply observe_adds replyUpdate [] Unclocked _ _ _ adds
  intro event seen unclocked
  cases event with
  | control id package result =>
    cases package with
    | time => exact absurd trivial unclocked
    | sample => rfl
  | _ => rfl

/-- Replies that were measured stay so as the clock goes on and no registration changes. -/
theorem measures_later (before after : Clocked) (measures : Measures before)
    (same : replies after.server.host = replies before.server.host)
    (later : before.clock ≤ after.clock)
    (kept : ∀ id registration, before.registrations id = some registration →
      after.registrations id = some registration) : Measures after := by
  constructor
  · intro reply entered
    rw [same] at entered
    obtain ⟨registration, known, offset, bounded⟩ := measures.measured reply entered
    exact ⟨registration, kept _ _ known, offset, by omega⟩
  · rw [same]
    exact measures.ordered

/-- A reply with the time since the registration of its speaker keeps the replies measured. -/
theorem measures_entered (before after : Clocked) (measures : Measures before)
    (reply : ClockReply) (registration : Registration)
    (entered : replies after.server.host = reply :: replies before.server.host)
    (same : after.registrations = before.registrations) (later : before.clock ≤ after.clock)
    (known : before.registrations reply.id = some registration)
    (read : reply.server = after.clock) (offset : reply.offset = after.clock - registration.start) :
    Measures after := by
  constructor
  · intro other member
    rw [entered] at member
    rcases List.mem_cons.mp member with rfl | older
    · rw [Measured, same, read]
      exact ⟨registration, known, offset, by omega⟩
    · obtain ⟨earlier, knownEarlier, difference, bounded⟩ := measures.measured other older
      rw [Measured, same]
      exact ⟨earlier, knownEarlier, difference, by omega⟩
  · rw [entered, List.pairwise_cons]
    constructor
    · intro older member sameId
      obtain ⟨earlier, knownEarlier, _, bounded⟩ := measures.measured older member
      rw [← sameId] at knownEarlier
      have sameStart : earlier = registration :=
        Option.some.inj (knownEarlier.symm.trans known)
      rw [sameStart] at bounded
      omega
    · exact measures.ordered

/-- A record has the reading of its registration exactly if the speaker was supported then,
or the clock read zero. -/
theorem started_iff (registration : Registration) (sp : Speaker)
    (started : sp.connTime = if registration.supported then registration.start else 0) :
    sp.connTime = registration.start ↔
      registration.supported = true ∨ registration.start = 0 := by
  cases supported : registration.supported with
  | true => simp [started, supported]
  | false =>
    have zero : sp.connTime = 0 := by simp [started, supported]
    rw [zero]
    simp [eq_comm]

/-- A registered id keeps its registration. -/
theorem register_keeps (common : Common) (settings : Settings) (state : Clocked)
    (action : Action) (invariant : Invariant state) (id : Nat) (registration : Registration)
    (known : state.registrations id = some registration) :
    register common settings state action id = some registration := by
  cases action with
  | request header answers =>
    simp only [register]
    split
    · next added =>
      have apart : id ≠ header.id := by
        rintro rfl
        rw [invariant.absent header.id ((find_speaker_none _ _).mp added.2)] at known
        cases known
      rw [Function.update_of_ne apart]
      exact known
    · exact known
  | _ => exact known

/-- A clock request enters one reply, or none. -/
theorem time_replies (speakers : List Speaker) (spid now : Nat) (result : Int) (host : Host) :
    replies (spctrlTime speakers spid now result host) =
      match findSpeakerById speakers spid with
      | none => replies host
      | some sp =>
        if sp.dport ≠ 0 ∧ sp.state = .online then
          ⟨sp.id, now, now - sp.connTime⟩ :: replies host
        else replies host := by
  unfold spctrlTime
  cases findSpeakerById speakers spid with
  | none => rfl
  | some sp =>
    simp only [control_sent]
    split <;> rfl

section Steps

variable {common : Common} (assumed : common.Assumed) (settings : Settings)

include assumed in
/-- Only a clock request adds clock replies. -/
theorem step_unclocked (server : Server) (action : Action)
    (unique : (ids server.speakers).Nodup)
    (apart : ∀ spid now result, action ≠ .time spid now result) :
    Adds Unclocked server.host.events (Service.step common settings server action).host.events := by
  apply adds_weaken (Makes action) Unclocked _ _ _ (step_adds assumed settings server action unique)
  intro event made clock
  cases event with
  | control id package result =>
    cases package with
    | sample => exact clock
    | time =>
      cases action with
      | time spid now result => exact absurd rfl (apart spid now result)
      | _ => exact made
  | _ => exact clock

include assumed in
/-- A record whose id was registered before a step has the reading it had. -/
theorem started_later (state : Clocked) (action : Action) (invariant : Invariant state)
    (sp : Speaker)
    (registered : sp ∈ (Service.step common settings state.server action).speakers)
    (known : sp.id ∈ ids state.server.speakers) :
    ∃ registration, register common settings state action sp.id = some registration ∧
      sp.connTime = if registration.supported then registration.start else 0 := by
  have carries := step_carries assumed settings Speaker.connTime (fun _ _ _ _ => rfl)
    state.server action invariant.unique
  obtain ⟨old, listed, sameId, sameTime⟩ :=
    (carries sp registered).resolve_left fun unknown => unknown known
  obtain ⟨registration, entered, started⟩ := invariant.started old listed
  rw [sameId] at entered
  have kept := register_keeps common settings state action invariant sp.id registration entered
  exact ⟨registration, kept, sameTime ▸ started⟩

include assumed in
/-- A step that registers no id keeps the invariant. -/
theorem invariant_same_ids (state : Clocked) (action : Action) (invariant : Invariant state)
    (sameIds : ids (Service.step common settings state.server action).speakers =
      ids state.server.speakers)
    (same : register common settings state action = state.registrations) :
    Invariant (step common settings state action) := by
  constructor
  · exact unique_step assumed settings state.server action invariant.unique
  · intro id unlisted
    simp only [step, same, sameIds] at unlisted ⊢
    exact invariant.absent id unlisted
  · intro sp registered
    have listed : sp.id ∈ ids state.server.speakers :=
      sameIds ▸ id_registered _ sp registered
    exact started_later assumed settings state action invariant sp registered listed

include assumed in
/-- A step that registers a new speaker keeps the invariant, if the record of the speaker has
the reading of its registration. -/
theorem invariant_registered (state : Clocked) (header : Request) (answers : Answers)
    (invariant : Invariant state) (formed : wellFormed header = true)
    (unknown : findSpeakerById state.server.speakers header.id = none)
    (allocated : answers.allocated = true) (added : Speaker) (sameId : added.id = header.id)
    (linked : (Service.step common settings state.server (.request header answers)).speakers =
      common.link state.server.speakers added)
    (started : added.connTime = if supports common settings header then answers.now else 0) :
    Invariant (step common settings state (.request header answers)) := by
  have members := assumed.linked state.server.speakers added
  rw [← linked] at members
  have accepted : accepts answers header state.server = true := by
    simp [accepts, formed, allocated]
  have entered : register common settings state (.request header answers) =
      Function.update state.registrations header.id
        (some ⟨answers.now, supports common settings header⟩) := by
    simp only [register, accepted, unknown, and_self, if_true]
  constructor
  · exact unique_step assumed settings state.server _ invariant.unique
  · intro id unlisted
    have apart : id ∉ header.id :: ids state.server.speakers := fun present =>
      unlisted ((mem_ids_linked _ _ _ members id).mpr (sameId ▸ present))
    simp only [step, entered]
    rw [Function.update_of_ne (List.ne_of_not_mem_cons apart)]
    exact invariant.absent id (List.not_mem_of_not_mem_cons apart)
  · intro sp registered
    rcases List.mem_cons.mp (members.mem_iff.mp registered) with rfl | old
    · refine ⟨⟨answers.now, supports common settings header⟩, ?_, started⟩
      simp only [step, entered, sameId, Function.update_self]
    · exact started_later assumed settings state (.request header answers) invariant sp
        registered (id_registered _ sp old)

include assumed in
/-- Every step keeps the invariant. -/
theorem invariant_step (state : Clocked) (action : Action) (invariant : Invariant state) :
    Invariant (step common settings state action) := by
  rcases request_or_other action with ⟨header, answers, rfl⟩ | other
  · have outcome := request_outcome assumed settings answers header state.server
    generalize after : Service.step common settings state.server (.request header answers) =
      server at outcome
    cases outcome with
    | refused dropped =>
      apply invariant_same_ids assumed settings state _ invariant
      · rw [after]
      · simp [register, dropped]
    | refreshed sp timeout formed known given =>
      apply invariant_same_ids assumed settings state _ invariant
      · rw [after, ids_store]
      · simp [register, known]
    | registered timeout formed unknown allocated unsupported given =>
      apply invariant_registered assumed settings state header answers invariant formed unknown
        allocated (announced common header false timeout) rfl
      · rw [after]
      · rw [unsupported]
        rfl
    | joined timeout formed unknown allocated supported given =>
      apply invariant_registered assumed settings state header answers invariant formed unknown
        allocated (joined common settings answers header timeout) rfl
      · rw [after]
      · rw [supported]
        rfl
  · apply invariant_same_ids assumed settings state action invariant
    · exact other_ids assumed settings state.server action invariant.unique other
    · cases action with
      | request header answers => exact absurd rfl (other header answers)
      | _ => rfl

include assumed in
/-- An action other than a clock request leaves the replies measured. -/
theorem other_measures (state : Clocked) (action : Action) (invariant : Invariant state)
    (measures : Measures state) (possible : enabled state action)
    (apart : ∀ spid now result, action ≠ .time spid now result) :
    Measures (step common settings state action) := by
  apply measures_later state _ measures
  · exact replies_unclocked _ _
      (step_unclocked assumed settings state.server action invariant.unique apart)
  · simp only [step]
    cases read : reading action with
    | none => exact Nat.le_refl _
    | some now => exact possible now read
  · exact register_keeps common settings state action invariant

/-- A clock request leaves the replies measured exactly if it meets the condition. -/
theorem time_measures (state : Clocked) (spid now : Nat) (result : Int)
    (invariant : Invariant state) (measures : Measures state) (later : state.clock ≤ now) :
    Measures (step common settings state (.time spid now result)) ↔
      AsksSupported state (.time spid now result) := by
  have entered := time_replies state.server.speakers spid now result state.server.host
  have unanswered (same : replies (spctrlTime state.server.speakers spid now result
      state.server.host) = replies state.server.host) :
      Measures (step common settings state (.time spid now result)) :=
    measures_later state _ measures same later fun _ _ known => known
  cases lookup : findSpeakerById state.server.speakers spid with
  | none =>
    simp only [lookup] at entered
    apply iff_of_true (unanswered entered)
    intro sp known
    rw [lookup] at known
    cases known
  | some sp =>
    obtain ⟨registered, rfl⟩ := find_speaker_some _ spid sp lookup
    simp only [lookup] at entered
    by_cases answered : sp.dport ≠ 0 ∧ sp.state = .online
    · rw [if_pos answered] at entered
      obtain ⟨registration, known, started⟩ := invariant.started sp registered
      constructor
      · intro after found lookedUp port online
        have latest : (⟨sp.id, now, now - sp.connTime⟩ : ClockReply) ∈
            replies (step common settings state (.time sp.id now result)).server.host := by
          rw [step, Service.step, entered]
          exact List.mem_cons_self
        obtain ⟨measuredFrom, same, offset, _⟩ := after.measured _ latest
        have sameRegistration : measuredFrom = registration :=
          Option.some.inj (same.symm.trans known)
        rw [sameRegistration] at offset
        refine ⟨registration, known, (started_iff registration sp started).mp ?_⟩
        simp only at offset
        omega
      · intro asks
        obtain ⟨other, same, support⟩ := asks sp lookup answered.1 answered.2
        have sameRegistration : other = registration := Option.some.inj (same.symm.trans known)
        rw [sameRegistration] at support
        have start := (started_iff registration sp started).mpr support
        apply measures_entered state (step common settings state (.time sp.id now result)) measures
          _ registration entered rfl later known rfl
        rw [start]
        rfl
    · rw [if_neg answered] at entered
      apply iff_of_true (unanswered entered)
      intro found known port online
      rw [lookup] at known
      exact absurd ⟨port, online⟩ (Option.some.inj known ▸ answered)

end Steps

/-- In a run whose clock never goes back, every clock reply carries the time since the
registration of its speaker exactly if the answered requests come from speakers that were
supported when they were registered. -/
theorem offsets_measure_iff (common : Common) (assumed : common.Assumed) (settings : Settings)
    (state : Clocked) (actions : List Action) (fresh : Fresh state)
    (admissible : (machine common settings).Admissible state actions) :
    (machine common settings).Throughout Measures state actions ↔
      (machine common settings).Along AsksSupported state actions := by
  have silent : replies state.server.host = [] := by
    rw [replies, fresh.quiet]
    rfl
  apply (machine common settings).throughout_iff_along Measures Invariant AsksSupported
  · intro reached action invariant measures possible
    by_cases asking : ∃ spid now result, action = .time spid now result
    · obtain ⟨spid, now, result, rfl⟩ := asking
      exact time_measures settings reached spid now result invariant measures (possible now rfl)
    · have apart : ∀ spid now result, action ≠ .time spid now result :=
        fun spid now result same => asking ⟨spid, now, result, same⟩
      apply iff_of_true
      · exact other_measures assumed settings reached action invariant measures possible apart
      · cases action with
        | time spid now result => exact absurd rfl (apart spid now result)
        | _ => trivial
  · intro reached action invariant _ _ _
    exact invariant_step assumed settings reached action invariant
  · constructor
    · simp [fresh.vacant, ids]
    · intro id _
      exact fresh.none id
    · simp [fresh.vacant]
  · constructor
    · simp [silent]
    · simp [silent]
  · exact admissible

/-- The fresh server at the reading 50. -/
def freshClocked : Clocked where
  server := freshServer
  clock := 50
  registrations := fun _ => none

/-- A supported speaker that asks for the time 40 microseconds after it was registered. -/
theorem reference_measures :
    (machine (Common.reference 1) referenceSettings).Throughout Measures freshClocked
      [.request referenceRequest referenceAnswers, .time 7 140 32] := by
  have admissible : (machine (Common.reference 1) referenceSettings).Admissible freshClocked
      [.request referenceRequest referenceAnswers, .time 7 140 32] := by
    refine ⟨?_, ?_, trivial⟩
    · rintro now read
      cases read
      decide
    · rintro now read
      cases read
      decide
  apply (offsets_measure_iff (Common.reference 1) (Common.reference_assumed 1)
    referenceSettings freshClocked _ ⟨rfl, rfl, fun _ => rfl⟩ admissible).mpr
  refine ⟨trivial, ?_, trivial⟩
  intro sp _ _ _
  exact ⟨⟨100, true⟩, rfl, Or.inl rfl⟩

/-- A speaker that is not supported when it is registered is sent the whole clock. -/
theorem unsupported_speaker_gets_clock :
    ¬ (machine (Common.reference 1) referenceSettings).Throughout Measures freshClocked
      [.request { referenceRequest with bitsMask := 2 } referenceAnswers, .time 7 140 32] := by
  intro throughout
  have measures := Machine.throughout_end _ Measures freshClocked _ throughout
  obtain ⟨registration, known, offset, _⟩ := measures.measured ⟨7, 140, 140⟩ (by decide)
  cases known
  revert offset
  decide

end Castserver.Clocks
