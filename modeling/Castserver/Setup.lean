import Castserver.Service

/-!
# Setting a speaker up

A speaker is sent its sample format and passed to the callback on one path only,
when its first announcement is accepted and supports the configured format. The
history of an id gives whether it is supported, whether it has been sent a sample
package with its channel since it became so, and whether the callback has been
called. Supported records are set up throughout a run exactly when no known
record becomes supported and every supported newcomer can be sent its package.
-/

namespace Castserver.Setup

open Speakers Pusher Control Detect Service
open Library.Runs Library.Histories

/-- What the history says about the set-up of one id. -/
structure Status where
  supported : Bool
  told : Bool
  called : Bool
deriving DecidableEq, Repr

/-- Follow the set-up of an id with a channel. An announcement that makes the id
supported starts over. -/
def setupUpdate (id channel : Nat) : Event → Status → Status
  | .announced other support, seen =>
    if other = id then
      { seen with supported := support, told := support && seen.supported && seen.told }
    else seen
  | .control other (.sample _ _ carried) result, seen =>
    if other = id ∧ carried = channel ∧ 0 ≤ result then { seen with told := true } else seen
  | .callback other, seen => if other = id then { seen with called := true } else seen
  | _, seen => seen

/-- The set-up of an id with a channel. -/
def setup (id channel : Nat) (host : Host) : Status :=
  observe (setupUpdate id channel) ⟨false, false, false⟩ host.events

/-- A record has been sent its channel since it became supported, and the callback
has been called for it if one is set. -/
def Ready (settings : Settings) (host : Host) (sp : Speaker) : Prop :=
  (setup sp.id sp.channel host).told = true ∧
    (settings.detectCb = true → (setup sp.id sp.channel host).called = true)

/-- Every registered speaker that is online and supported is ready. -/
def AllReady (settings : Settings) (server : Server) : Prop :=
  ∀ sp ∈ server.speakers, playing sp → Ready settings server.host sp

/-- A supported announcement comes from a record that was supported already, or from
a new speaker with a data port whose sample package is sent. -/
def SetUpOnJoin (common : Common) (settings : Settings) (server : Server) : Action → Prop
  | .request header answers =>
    accepts answers header server = true → supports common settings header = true →
      match findSpeakerById server.speakers header.id with
      | some sp => sp.supported = true
      | none => header.dport ≠ 0 ∧ 0 ≤ answers.sendto
  | _ => True

/-- The invariant: distinct ids; an id that is not registered is not supported; the
history knows which records are supported; and every supported record is ready,
whether or not it is online. -/
structure Invariant (settings : Settings) (server : Server) : Prop where
  unique : (ids server.speakers).Nodup
  unseen : ∀ id channel, id ∉ ids server.speakers →
    (setup id channel server.host).supported = false
  support : ∀ sp ∈ server.speakers, ∀ channel,
    (setup sp.id channel server.host).supported = sp.supported
  ready : ∀ sp ∈ server.speakers, sp.supported = true → Ready settings server.host sp

/-- Under the invariant every online and supported speaker is ready. -/
theorem invariant_ready (settings : Settings) (server : Server)
    (invariant : Invariant settings server) : AllReady settings server :=
  fun sp registered plays => invariant.ready sp registered plays.2

/-- Events other than announcements. -/
def Unannounced : Event → Prop
  | .announced _ _ => False
  | _ => True

theorem effect_unannounced (event : Event) (effect : IsEffect event) : Unannounced event := by
  cases event <;> trivial

/-- Without an announcement support stays as it was, and nothing of the set-up is lost. -/
theorem setup_grows (id channel : Nat) (before after : Host)
    (adds : Adds Unannounced before.events after.events) :
    (setup id channel after).supported = (setup id channel before).supported ∧
      ((setup id channel before).told = true → (setup id channel after).told = true) ∧
      ((setup id channel before).called = true → (setup id channel after).called = true) := by
  refine observe_keeps (setupUpdate id channel) ⟨false, false, false⟩ Unannounced
    (fun seen => seen.supported = (setup id channel before).supported ∧
      ((setup id channel before).told = true → seen.told = true) ∧
      ((setup id channel before).called = true → seen.called = true))
    ?_ _ _ adds ⟨rfl, fun told => told, fun called => called⟩
  rintro event seen unannounced ⟨support, told, called⟩
  cases event with
  | announced => exact False.elim unannounced
  | control other package result =>
    cases package with
    | time => exact ⟨support, told, called⟩
    | sample =>
      simp only [setupUpdate]
      split
      · exact ⟨support, fun _ => rfl, called⟩
      · exact ⟨support, told, called⟩
  | callback other =>
    simp only [setupUpdate]
    split
    · exact ⟨support, told, fun _ => rfl⟩
    · exact ⟨support, told, called⟩
  | _ => exact ⟨support, told, called⟩

/-- A ready record stays ready without an announcement. -/
theorem ready_grows (settings : Settings) (before after : Host) (sp : Speaker)
    (adds : Adds Unannounced before.events after.events) (ready : Ready settings before sp) :
    Ready settings after sp := by
  obtain ⟨_, told, called⟩ := setup_grows sp.id sp.channel before after adds
  exact ⟨told ready.1, fun set => called (ready.2 set)⟩

/-- An announcement concerns its own id only. -/
theorem announced_other (id channel other : Nat) (support : Bool) (host : Host)
    (apart : id ≠ other) :
    setup id channel (host.note (.announced other support)) = setup id channel host := by
  simp [setup, setupUpdate, apart.symm]

theorem announced_own (id channel : Nat) (support : Bool) (host : Host) :
    setup id channel (host.note (.announced id support)) =
      { setup id channel host with
        supported := support
        told := support && (setup id channel host).supported &&
          (setup id channel host).told } := by
  simp [setup, setupUpdate]

/-- A step without announcements keeps the invariant, as long as it keeps the ids, and
every record the channel and the support of its id. -/
theorem invariant_unannounced (settings : Settings) (before after : Server)
    (invariant : Invariant settings before)
    (adds : Adds Unannounced before.host.events after.host.events)
    (unique : (ids after.speakers).Nodup) (sameIds : ids after.speakers = ids before.speakers)
    (carries : Carries (fun sp => (sp.channel, sp.supported)) before.speakers after.speakers) :
    Invariant settings after := by
  have origin (sp : Speaker) (registered : sp ∈ after.speakers) : ∃ old ∈ before.speakers,
      old.id = sp.id ∧ old.channel = sp.channel ∧ old.supported = sp.supported := by
    have listed : sp.id ∈ ids before.speakers :=
      sameIds ▸ id_registered after.speakers sp registered
    obtain ⟨old, member, sameId, same⟩ :=
      (carries sp registered).resolve_left (fun fresh => fresh listed)
    exact ⟨old, member, sameId, Prod.mk.inj same⟩
  refine ⟨unique, ?_, ?_, ?_⟩
  · intro id channel absent
    rw [(setup_grows id channel before.host after.host adds).1]
    exact invariant.unseen id channel (fun present => absent (sameIds ▸ present))
  · intro sp registered channel
    obtain ⟨old, member, sameId, _, sameSupport⟩ := origin sp registered
    rw [(setup_grows sp.id channel before.host after.host adds).1, ← sameSupport, ← sameId]
    exact invariant.support old member channel
  · intro sp registered supported
    obtain ⟨old, member, sameId, sameChannel, sameSupport⟩ := origin sp registered
    have ready := invariant.ready old member (sameSupport.trans supported)
    rw [Ready, sameId, sameChannel] at ready
    exact ready_grows settings before.host after.host sp adds ready

/-- The set-up of a supported new speaker: it has been told its channel if its
package could be sent, or had been told before, and the callback has been called. -/
theorem joined_setup (settings : Settings) (answers : Answers) (sp : Speaker) (host : Host) :
    (setup sp.id sp.channel (joinedHost settings answers sp host)).told =
        (decide (sp.dport ≠ 0 ∧ 0 ≤ answers.sendto) || (setup sp.id sp.channel host).told) ∧
      (settings.detectCb = true →
        (setup sp.id sp.channel (joinedHost settings answers sp host)).called = true) := by
  have opened : observe (setupUpdate sp.id sp.channel) ⟨false, false, false⟩
      ((answers.socket.map (Event.opened sp.id)).toList ++ host.events) =
      setup sp.id sp.channel host := by
    cases answers.socket <;> rfl
  rw [setup, joined_events]
  constructor
  · by_cases port : sp.dport = 0 <;> by_cases sent : 0 ≤ answers.sendto <;>
      cases called : settings.detectCb <;> simp [setupUpdate, port, sent, opened]
  · intro called
    simp [called, setupUpdate]

section Steps

variable {common : Common} (assumed : common.Assumed) (settings : Settings)

include assumed

/-- A new record keeps the invariant if its announcement was the only one and it
is ready in case it is supported. -/
theorem linked_step (before after : Server) (sp : Speaker) (invariant : Invariant settings before)
    (linked : after.speakers = common.link before.speakers sp)
    (fresh : sp.id ∉ ids before.speakers) (unique : (ids after.speakers).Nodup)
    (adds : Adds Unannounced (before.host.note (.announced sp.id sp.supported)).events
      after.host.events)
    (ready : sp.supported = true → Ready settings after.host sp) :
    Invariant settings after := by
  have members := assumed.linked before.speakers sp
  rw [← linked] at members
  have support (id channel : Nat) := (setup_grows id channel _ after.host adds).1
  refine ⟨unique, ?_, ?_, ?_⟩
  · intro id channel unlisted
    have unregistered : id ∉ sp.id :: ids before.speakers := fun present =>
      unlisted ((mem_ids_linked _ _ _ members id).mpr present)
    rw [support, announced_other id channel sp.id _ _ (List.ne_of_not_mem_cons unregistered)]
    exact invariant.unseen id channel (List.not_mem_of_not_mem_cons unregistered)
  · intro other member channel
    rw [support]
    rcases List.mem_cons.mp (members.mem_iff.mp member) with rfl | old
    · rw [announced_own]
    · have apart : other.id ≠ sp.id := fun same =>
        fresh (same ▸ id_registered before.speakers other old)
      rw [announced_other other.id channel sp.id _ _ apart]
      exact invariant.support other old channel
  · intro other member supported
    rcases List.mem_cons.mp (members.mem_iff.mp member) with rfl | old
    · exact ready supported
    · have apart : other.id ≠ sp.id := fun same =>
        fresh (same ▸ id_registered before.speakers other old)
      apply ready_grows settings _ after.host other adds
      rw [Ready, announced_other other.id other.channel sp.id _ _ apart]
      exact invariant.ready other old supported

omit assumed in
/-- A refreshed record keeps the invariant if it was supported already when it is supported
now. -/
theorem refreshed_step (server : Server) (sp : Speaker) (header : Request) (support : Bool)
    (timeout : Int) (invariant : Invariant settings server)
    (known : findSpeakerById server.speakers header.id = some sp)
    (already : support = true → sp.supported = true) :
    Invariant settings
      { speakers := store server.speakers { sp with
          supported := support, state := .online, timeout := timeout }
        host := server.host.note (.announced header.id support) } := by
  obtain ⟨registered, sameId⟩ := find_speaker_some server.speakers header.id sp known
  have listed := id_registered server.speakers sp registered
  constructor
  · rw [ids_store]
    exact invariant.unique
  · intro id channel absent
    rw [ids_store] at absent
    rw [announced_other id channel _ _ _ (fun same => absent (same.trans sameId.symm ▸ listed))]
    exact invariant.unseen id channel absent
  · intro other member channel
    rcases (mem_store _ _ other).mp member with ⟨rfl, _⟩ | ⟨old, different⟩
    · rw [← sameId, announced_own]
    · rw [announced_other _ _ _ _ _ (fun same => different (same.trans sameId.symm))]
      exact invariant.support other old channel
  · intro other member supported
    rcases (mem_store _ _ other).mp member with ⟨rfl, _⟩ | ⟨old, different⟩
    · have before := already supported
      have ready := invariant.ready sp registered before
      have seen := invariant.support sp registered sp.channel
      have now : support = true := supported
      rw [← sameId, Ready, announced_own]
      refine ⟨?_, ready.2⟩
      simp only [now, seen, before, ready.1, Bool.and_self]
    · rw [Ready, announced_other _ _ _ _ _ (fun same => different (same.trans sameId.symm))]
      exact invariant.ready other old supported

/-- A supported announcement that meets its condition leaves every supported record
ready, and an unsupported one makes no record supported. -/
theorem request_step (answers : Answers) (header : Request) (server : Server)
    (invariant : Invariant settings server)
    (met : SetUpOnJoin common settings server (.request header answers)) :
    Invariant settings (step common settings server (.request header answers)) := by
  have unique := unique_step assumed settings server (.request header answers) invariant.unique
  have outcome := request_outcome assumed settings answers header server
  generalize step common settings server (.request header answers) = after at outcome unique ⊢
  cases outcome with
  | refused dropped => exact invariant
  | refreshed sp timeout formed known given =>
    have accepted : accepts answers header server = true := by simp [accepts, formed, known]
    apply refreshed_step settings server sp header (supports common settings header) timeout
      invariant known
    intro supported
    have condition := met accepted supported
    rw [known] at condition
    exact condition
  | registered timeout formed unknown allocated unsupported given =>
    have absent := (find_speaker_none server.speakers header.id).mp unknown
    exact linked_step assumed settings server _ (announced common header false timeout) invariant
      rfl absent unique (adds_refl Unannounced _) (fun supported => by cases supported)
  | joined timeout formed unknown allocated supported given =>
    have absent := (find_speaker_none server.speakers header.id).mp unknown
    have accepted : accepts answers header server = true := by simp [accepts, formed, allocated]
    have reached : header.dport ≠ 0 ∧ 0 ≤ answers.sendto := by
      have condition := met accepted supported
      rw [unknown] at condition
      exact condition
    obtain ⟨told, called⟩ := joined_setup settings answers
      (joined common settings answers header timeout) (server.host.note (.announced header.id true))
    have sent : decide ((joined common settings answers header timeout).dport ≠ 0 ∧
        0 ≤ answers.sendto) = true := decide_eq_true reached
    rw [sent, Bool.true_or] at told
    exact linked_step assumed settings server _ (joined common settings answers header timeout)
      invariant rfl absent unique (adds_weaken IsJoin Unannounced _ _
        (fun event join => effect_unannounced event (join_effect event join))
        (joined_adds settings answers _ _)) (fun _ => ⟨told, called⟩)

/-- An announcement that leaves every playing speaker ready meets its condition. -/
theorem request_decides (answers : Answers) (header : Request) (server : Server)
    (invariant : Invariant settings server)
    (ready : AllReady settings (step common settings server (.request header answers))) :
    SetUpOnJoin common settings server (.request header answers) := by
  intro accepted support
  have outcome := request_outcome assumed settings answers header server
  generalize step common settings server (.request header answers) = after at outcome ready
  cases outcome with
  | refused dropped =>
    rw [dropped] at accepted
    cases accepted
  | refreshed sp timeout formed known given =>
    obtain ⟨registered, sameId⟩ := find_speaker_some server.speakers header.id sp known
    rw [known]
    have told := (ready { sp with
        supported := supports common settings header, state := .online, timeout := timeout }
      (stored_member _ _ (id_registered server.speakers sp registered))
      ⟨rfl, support⟩).1
    rw [← sameId, announced_own] at told
    have seen := invariant.support sp registered sp.channel
    simp only [Bool.and_eq_true] at told
    exact seen.symm.trans told.1.2
  | registered timeout formed unknown allocated unsupported given =>
    rw [unsupported] at support
    cases support
  | joined timeout formed unknown allocated supported given =>
    have absent := (find_speaker_none server.speakers header.id).mp unknown
    rw [unknown]
    have told := (ready (joined common settings answers header timeout)
      ((assumed.linked _ _).mem_iff.mpr List.mem_cons_self) ⟨rfl, rfl⟩).1
    rw [(joined_setup settings answers (joined common settings answers header timeout) _).1] at told
    have untold : (setup header.id common.defaultChannel
        (server.host.note (.announced header.id true))).told = false := by
      rw [announced_own, invariant.unseen header.id _ absent]
      simp
    have same : (setup (joined common settings answers header timeout).id
        (joined common settings answers header timeout).channel
        (server.host.note (.announced header.id true))).told = false := untold
    rw [same, Bool.or_false] at told
    exact of_decide_eq_true told

/-- Any other step than an announcement adds no announcement to the history. -/
theorem step_unannounced (server : Server) (action : Action) (unique : (ids server.speakers).Nodup)
    (other : ∀ header answers, action ≠ .request header answers) :
    Adds Unannounced server.host.events (step common settings server action).host.events := by
  apply adds_weaken (Makes action) Unannounced _ _ _ (step_adds assumed settings server action unique)
  intro event made
  cases event with
  | announced id support =>
    cases action with
    | request header answers => exact absurd rfl (other header answers)
    | _ => exact made
  | _ => trivial

/-- Every step that meets its condition keeps the invariant. -/
theorem invariant_step (server : Server) (action : Action) (invariant : Invariant settings server)
    (met : SetUpOnJoin common settings server action) :
    Invariant settings (step common settings server action) := by
  rcases request_or_other action with ⟨header, answers, rfl⟩ | other
  · exact request_step assumed settings answers header server invariant met
  · exact invariant_unannounced settings server _ invariant
      (step_unannounced assumed settings server action invariant.unique other)
      (unique_step assumed settings server action invariant.unique)
      (other_ids assumed settings server action invariant.unique other)
      (other_carries assumed settings (fun sp => (sp.channel, sp.supported)) (fun _ _ _ => rfl)
        server action invariant.unique other)

end Steps

/-- Every speaker that can be played to is ready throughout an admissible run from
a booted server if and only if support is only ever announced by speakers that are
supported already and by newcomers whose sample package is sent. -/
theorem playable_is_set_up (common : Common) (assumed : common.Assumed) (settings : Settings)
    (server : Server) (booted : Booted settings server) (actions : List Action)
    (admissible : (machine common settings).Admissible server actions) :
    (machine common settings).Throughout (AllReady settings) server actions ↔
      (machine common settings).Along (SetUpOnJoin common settings) server actions := by
  have initial : Invariant settings server := by
    refine ⟨by simp [booted.vacant, ids], ?_, by simp [booted.vacant], by simp [booted.vacant]⟩
    intro id channel _
    rw [setup, booted.quiet]
    rfl
  refine Machine.throughout_iff_along _ (AllReady settings) (Invariant settings) _ ?_ ?_
    server actions initial (invariant_ready settings server initial) admissible
  · intro reached action invariant _ _
    constructor
    · intro ready
      cases action with
      | request header answers =>
        exact request_decides assumed settings answers header reached invariant ready
      | _ => trivial
    · intro met
      exact invariant_ready settings _
        (invariant_step assumed settings reached action invariant met)
  · intro reached action invariant _ _ met
    exact invariant_step assumed settings reached action invariant met

/-- A speaker that is supported from its first announcement on is ready, also after
it has announced itself again. -/
theorem always_supported_is_set_up :
    (machine (Common.reference 1) referenceSettings).Throughout (AllReady referenceSettings)
      freshServer
      [.request referenceRequest referenceAnswers, .tick,
        .request referenceRequest { referenceAnswers with socket := none }] := by
  refine (playable_is_set_up (Common.reference 1) (Common.reference_assumed 1) referenceSettings
    freshServer fresh_booted
    [.request referenceRequest referenceAnswers, .tick,
      .request referenceRequest { referenceAnswers with socket := none }]
    ⟨reference_enabled, trivial, ⟨?_, trivial⟩⟩).mpr
    ⟨fun _ _ => ?_, trivial, ⟨fun _ _ => rfl, trivial⟩⟩
  · intro fd handed
    cases handed
  · have reached : referenceRequest.dport ≠ 0 ∧ 0 ≤ referenceAnswers.sendto := by decide
    exact reached

/-- A speaker whose first announcement does not support the configured format and
whose second one does is playable without ever having been sent a sample package. -/
theorem later_support_is_not_set_up :
    (machine (Common.reference 1) referenceSettings).Admissible freshServer
      [.request { referenceRequest with bitsMask := 2 } referenceAnswers,
        .request referenceRequest referenceAnswers] ∧
    ¬ AllReady referenceSettings ((machine (Common.reference 1) referenceSettings).after
      freshServer [.request { referenceRequest with bitsMask := 2 } referenceAnswers,
        .request referenceRequest referenceAnswers]) := by
  refine ⟨⟨reference_enabled, ?_, trivial⟩, ?_⟩
  · intro fd handed
    rw [← Option.some.inj handed]
    rfl
  · intro ready
    obtain ⟨sp, registered, sameId, sameChannel, online, supported⟩ :
        ∃ sp ∈ ((machine (Common.reference 1) referenceSettings).after freshServer
          [.request { referenceRequest with bitsMask := 2 } referenceAnswers,
            .request referenceRequest referenceAnswers]).speakers,
          sp.id = 7 ∧ sp.channel = 1 ∧ sp.state = .online ∧ sp.supported = true := by decide
    have told := (ready sp registered ⟨online, supported⟩).1
    rw [sameId, sameChannel] at told
    revert told
    decide

end Castserver.Setup
