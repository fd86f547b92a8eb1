import Castserver.Service

/-!
# Whether an online speaker can be sent to

A new speaker's descriptor is opened and connected when it joins, and never again:
a returning speaker keeps the number in its record. Where every socket call and
every connect succeeds, the online and supported speakers can be sent to throughout
a run exactly when no step revives a speaker whose descriptor is gone, and no step
closes the number of a speaker that stays.
-/

namespace Castserver.Reach

open Speakers Pusher Control Detect Service
open Library.Runs

/-- The number in a record is open and connected to the record's address and port. -/
def Reaches (host : Host) (sp : Speaker) : Prop :=
  0 ≤ sp.fd ∧ (host.table sp.fd.toNat).bind Descriptor.peer = some (sp.ip, sp.dport)

/-- Every registered speaker that is online and supported can be sent to. -/
def AllReached (server : Server) : Prop :=
  ∀ sp ∈ server.speakers, playing sp → Reaches server.host sp

/-- The environment's socket and connect calls succeed. -/
def Succeeds : Action → Prop
  | .request _ answers => answers.socket ≠ none ∧ answers.connected = true
  | _ => True

/-- The server in an environment whose socket and connect calls succeed. -/
def connectingMachine (common : Common) (settings : Settings) : Machine Server Action :=
  (machine common settings).restrict fun _ action => Succeeds action

/-- The step revives no speaker whose descriptor is gone: a supported announcement of
a registered id finds its descriptor still connected, and a datagram finds no
supported record unreachable. It closes no number of a speaker that goes on playing. -/
def LeavesReached (common : Common) (settings : Settings) (server : Server) : Action → Prop
  | .request header answers =>
    accepts answers header server = true → supports common settings header = true →
      ∀ sp, findSpeakerById server.speakers header.id = some sp → Reaches server.host sp
  | .tick => ∀ sp ∈ due server.speakers, closes settings.readFd sp = true →
      ∀ other ∈ server.speakers, 0 < other.timeout → playing other → other.fd ≠ sp.fd
  | .push id _ _ => ∀ sp, findSpeakerById server.speakers id = some sp →
      (unreachable sp = true → sp.supported = false) ∧
      (sp.supported = false → closes settings.readFd sp = true →
        ∀ other ∈ server.speakers, playing other → other.fd ≠ sp.fd)
  | _ => True

/-- The invariant: distinct ids, and the process's own descriptors, the shared one
among them, are connected to no speaker. -/
structure Invariant (settings : Settings) (server : Server) : Prop where
  unique : (ids server.speakers).Nodup
  unconnected : ∀ fd peer, server.host.table fd = some ⟨.process, peer⟩ → peer = none
  shared : server.host.table settings.readFd = some ⟨.process, none⟩

section Closing

variable (readFd : Nat)

/-- The table after a list of disconnects: the numbers they got to close are gone. -/
theorem disconnect_all_table (speakers : List Speaker) (host : Host) (fd : Nat) :
    (disconnectAll readFd speakers host).table fd =
      if ∃ sp ∈ speakers, closes readFd sp = true ∧ sp.fd.toNat = fd then none
      else host.table fd := by
  induction speakers generalizing host with
  | nil => simp [disconnectAll]
  | cons sp rest inductionHypothesis =>
    have later := inductionHypothesis (serverSppushDisconnect readFd sp host)
    apply later.trans
    rw [disconnect_table]
    by_cases own : closes readFd sp = true ∧ sp.fd.toNat = fd
    · simp [own]
    · by_cases more : ∃ other ∈ rest, closes readFd other = true ∧ other.fd.toNat = fd
      · simp [own, more]
      · simp only [List.exists_mem_cons_iff, own, more, or_self, if_false]

/-- Disconnecting leaves exactly those records reached whose number it does not close. -/
theorem reaches_after (speakers : List Speaker) (host : Host) (sp : Speaker) :
    Reaches (disconnectAll readFd speakers host) sp ↔ Reaches host sp ∧
      ∀ other ∈ speakers, closes readFd other = true → sp.fd ≠ other.fd := by
  constructor
  · rintro ⟨nonnegative, connected⟩
    rw [disconnect_all_table] at connected
    split at connected
    · cases connected
    · next spared =>
      refine ⟨⟨nonnegative, connected⟩, ?_⟩
      intro other member closing same
      exact spared ⟨other, member, closing, by rw [same]⟩
  · rintro ⟨⟨nonnegative, connected⟩, spared⟩
    refine ⟨nonnegative, ?_⟩
    rw [disconnect_all_table, if_neg]
    · exact connected
    · rintro ⟨other, member, closing, same⟩
      have positive : 0 ≤ other.fd := by
        simp only [closes, Bool.not_eq_true', Bool.or_eq_false_iff,
          decide_eq_false_iff_not] at closing
        omega
      exact spared other member closing (by omega)

/-- One disconnect leaves exactly those records reached whose number it does not close. -/
theorem reaches_disconnect (disconnected : Speaker) (host : Host) (sp : Speaker) :
    Reaches (serverSppushDisconnect readFd disconnected host) sp ↔
      Reaches host sp ∧ (closes readFd disconnected = true → sp.fd ≠ disconnected.fd) := by
  have after := reaches_after readFd [disconnected] host sp
  simpa [disconnectAll] using after

/-- Disconnecting keeps the process's own descriptors unconnected and the shared one open. -/
theorem disconnect_all_process (speakers : List Speaker) (host : Host)
    (unconnected : ∀ fd peer, host.table fd = some ⟨.process, peer⟩ → peer = none)
    (shared : host.table readFd = some ⟨.process, none⟩) :
    (∀ fd peer, (disconnectAll readFd speakers host).table fd = some ⟨.process, peer⟩ →
      peer = none) ∧
    (disconnectAll readFd speakers host).table readFd = some ⟨.process, none⟩ := by
  constructor
  · intro fd peer entry
    rw [disconnect_all_table] at entry
    split at entry
    · cases entry
    · exact unconnected fd peer entry
  · rw [disconnect_all_table, if_neg, shared]
    rintro ⟨sp, _, closing, same⟩
    exact (closes_apart readFd sp closing).1 same

end Closing

/-- Where the connect succeeds, joining opens the new speaker's own descriptor and
connects it to the announced address, and changes nothing else in the table. -/
theorem joined_connects (settings : Settings) (answers : Answers) (sp : Speaker) (host : Host)
    (fd : Nat) (handed : answers.socket = some fd) (connected : answers.connected = true) :
    (joinedHost settings answers sp host).table =
      Function.update host.table fd (some ⟨.speaker sp.id, some (sp.ip, sp.dport)⟩) := by
  rw [joined_table]
  simp [connectedHost, openSocket, handed, connected]

/-- Changing a free number leaves reached records reached. -/
theorem reaches_update (host after : Host) (sp : Speaker) (fd : Nat) (entry : Option Descriptor)
    (table : after.table = Function.update host.table fd entry)
    (unconnected : (host.table fd).bind Descriptor.peer = none) (reaches : Reaches host sp) :
    Reaches after sp := by
  obtain ⟨nonnegative, connected⟩ := reaches
  refine ⟨nonnegative, ?_⟩
  have apart : sp.fd.toNat ≠ fd := by
    intro same
    rw [same, unconnected] at connected
    cases connected
  rw [table, Function.update_of_ne apart]
  exact connected

/-- Changing a number other than the shared one, without connecting a descriptor of
the process, keeps those unconnected and the shared one open. -/
theorem process_update (readFd fd : Nat) (entry : Option Descriptor) (host after : Host)
    (table : after.table = Function.update host.table fd entry) (apart : readFd ≠ fd)
    (quiet : ∀ peer, entry = some ⟨.process, peer⟩ → peer = none)
    (unconnected : ∀ fd peer, host.table fd = some ⟨.process, peer⟩ → peer = none)
    (shared : host.table readFd = some ⟨.process, none⟩) :
    (∀ fd peer, after.table fd = some ⟨.process, peer⟩ → peer = none) ∧
      after.table readFd = some ⟨.process, none⟩ := by
  rw [table]
  constructor
  · intro other peer found
    by_cases same : other = fd
    · rw [same, Function.update_self] at found
      exact quiet peer found
    · rw [Function.update_of_ne same] at found
      exact unconnected other peer found
  · rw [Function.update_of_ne apart]
    exact shared

/-- A free number is not the shared one. -/
theorem free_apart (settings : Settings) (server : Server) (fd : Nat)
    (invariant : Invariant settings server) (free : server.host.table fd = none) :
    settings.readFd ≠ fd := by
  rintro rfl
  cases free.symm.trans invariant.shared

/-- A record whose number a disconnect would not close is not reached: the number is
negative or the shared one, which is not connected. -/
theorem closed_unreached (settings : Settings) (server : Server) (sp : Speaker)
    (invariant : Invariant settings server) (spared : closes settings.readFd sp ≠ true) :
    ¬ Reaches server.host sp := by
  rintro ⟨nonnegative, connected⟩
  have number : sp.fd.toNat = settings.readFd := by
    simp only [closes, Bool.not_eq_true', ne_eq, Bool.not_eq_false, Bool.or_eq_true,
      decide_eq_true_eq] at spared
    omega
  rw [number, invariant.shared] at connected
  cases connected

section Steps

variable {common : Common} (assumed : common.Assumed) (settings : Settings)

include assumed

/-- Every step keeps the invariant, whether or not it leaves the speakers reached. -/
theorem invariant_step (server : Server) (action : Action)
    (possible : enabled settings server action) (succeeds : Succeeds action)
    (invariant : Invariant settings server) :
    Invariant settings (step common settings server action) := by
  have unique := unique_step assumed settings server action invariant.unique
  cases action with
  | request header answers =>
    have outcome := request_outcome assumed settings answers header server
    generalize step common settings server (.request header answers) = after at outcome unique ⊢
    cases outcome with
    | refused dropped => exact invariant
    | refreshed sp timeout formed known given =>
      exact ⟨unique, invariant.unconnected, invariant.shared⟩
    | registered timeout formed unknown allocated unsupported given =>
      exact ⟨unique, invariant.unconnected, invariant.shared⟩
    | joined timeout formed unknown allocated supported given =>
      obtain ⟨fd, handed⟩ := Option.ne_none_iff_exists'.mp succeeds.1
      obtain ⟨unconnected, shared⟩ := process_update settings.readFd fd _ server.host _
        (joined_connects settings answers (joined common settings answers header timeout)
          (server.host.note (.announced header.id true)) fd handed succeeds.2)
        (free_apart settings server fd invariant (possible fd handed))
        (fun peer found => by cases found) invariant.unconnected invariant.shared
      exact ⟨unique, unconnected, shared⟩
  | tick =>
    rw [tick_outcome assumed] at unique ⊢
    obtain ⟨unconnected, shared⟩ := disconnect_all_process settings.readFd (due server.speakers)
      (server.host.note .tick) invariant.unconnected invariant.shared
    exact ⟨unique, unconnected, shared⟩
  | push id package result =>
    have outcome := push_outcome assumed settings id package result server invariant.unique
    generalize step common settings server (.push id package result) = after at outcome unique ⊢
    cases outcome with
    | absent unknown => exact invariant
    | refreshed sp timeout known guarded given =>
      obtain ⟨unconnected, shared⟩ := disconnect_all_process settings.readFd [sp] server.host
        invariant.unconnected invariant.shared
      exact ⟨unique, unconnected, shared⟩
    | unsupported sp known passed refused =>
      obtain ⟨unconnected, shared⟩ := disconnect_all_process settings.readFd [sp] server.host
        invariant.unconnected invariant.shared
      exact ⟨unique, unconnected, shared⟩
    | sent sp known passed supported => exact ⟨unique, invariant.unconnected, invariant.shared⟩
  | format rate bits results =>
    refine ⟨unique, ?_, ?_⟩
    · simpa [step, serverSpctrlSetFormat] using invariant.unconnected
    · simpa [step, serverSpctrlSetFormat] using invariant.shared
  | time spid now result =>
    refine ⟨unique, ?_, ?_⟩
    · simpa [step] using invariant.unconnected
    · simpa [step] using invariant.shared
  | openOther fd =>
    obtain ⟨unconnected, shared⟩ := process_update settings.readFd fd (some ⟨.process, none⟩)
      server.host (step common settings server (.openOther fd)).host rfl
      (free_apart settings server fd invariant possible)
      (fun peer found => (Descriptor.mk.inj (Option.some.inj found)).2.symm)
      invariant.unconnected invariant.shared
    exact ⟨unique, unconnected, shared⟩
  | closeOther fd =>
    obtain ⟨unconnected, shared⟩ := process_update settings.readFd fd none server.host
      (step common settings server (.closeOther fd)).host rfl possible.1.symm
      (fun peer found => by cases found) invariant.unconnected invariant.shared
    exact ⟨unique, unconnected, shared⟩

/-- An announcement leaves every playing speaker reached exactly if a known speaker
that it makes play is reached. -/
theorem request_decides (answers : Answers) (header : Request) (server : Server)
    (possible : enabled settings server (.request header answers))
    (succeeds : Succeeds (.request header answers)) (reached : AllReached server) :
    AllReached (step common settings server (.request header answers)) ↔
      LeavesReached common settings server (.request header answers) := by
  have outcome := request_outcome assumed settings answers header server
  generalize step common settings server (.request header answers) = after at outcome ⊢
  cases outcome with
  | refused dropped => simp [LeavesReached, dropped, reached]
  | refreshed sp timeout formed known given =>
    obtain ⟨registered, _⟩ := find_speaker_some server.speakers header.id sp known
    have accepted : accepts answers header server = true := by simp [accepts, formed, known]
    constructor
    · intro every _ support other found
      obtain rfl := Option.some.inj (known.symm.trans found)
      exact every { sp with
          supported := supports common settings header, state := .online, timeout := timeout }
        (stored_member _ _ (id_registered server.speakers sp registered))
        ⟨rfl, support⟩
    · intro met other member plays
      rcases (mem_store _ _ other).mp member with ⟨rfl, _⟩ | ⟨old, _⟩
      · exact met accepted plays.2 sp known
      · exact reached other old plays
  | registered timeout formed unknown allocated unsupported given =>
    have linked := assumed.linked server.speakers (announced common header false timeout)
    refine iff_of_true ?_ ?_
    · intro other member plays
      rcases List.mem_cons.mp (linked.mem_iff.mp member) with rfl | old
      · cases plays.2
      · exact reached other old plays
    · intro _ support
      cases unsupported.symm.trans support
  | joined timeout formed unknown allocated supported given =>
    have linked := assumed.linked server.speakers (joined common settings answers header timeout)
    obtain ⟨fd, handed⟩ := Option.ne_none_iff_exists'.mp succeeds.1
    have table := joined_connects settings answers (joined common settings answers header timeout)
      (server.host.note (.announced header.id true)) fd handed succeeds.2
    refine iff_of_true ?_ ?_
    · intro other member plays
      rcases List.mem_cons.mp (linked.mem_iff.mp member) with rfl | old
      · refine ⟨by simp [joined], ?_⟩
        have number : (joined common settings answers header timeout).fd.toNat = fd := by
          simp [joined, handed]
        rw [table, number, Function.update_self]
        rfl
      · refine reaches_update server.host _ other fd _ table ?_ (reached other old plays)
        rw [possible fd handed]
        rfl
    · intro _ _ sp known
      cases unknown.symm.trans known

/-- A pass of the monitor leaves every playing speaker reached exactly if it closes no
number of a speaker that it leaves online. -/
theorem tick_decides (server : Server) (reached : AllReached server) :
    AllReached (step common settings server .tick) ↔
      LeavesReached common settings server .tick := by
  have remains (sp : Speaker) : playing (tickRecord common sp) ↔ 0 < sp.timeout ∧ playing sp := by
    rw [tick_record assumed]
    by_cases expired : sp.timeout ≤ 0
    · simp [playing, expired, Int.not_lt.mpr expired]
    · simp [playing, expired, Int.not_le.mp expired]
  have record (host : Host) (sp : Speaker) :
      Reaches host (tickRecord common sp) ↔ Reaches host sp := by
    rw [tick_record assumed]
    rfl
  rw [tick_outcome assumed]
  constructor
  · intro every sp expired closing other member running plays same
    have after := every (tickRecord common other) (List.mem_map_of_mem member)
      ((remains other).mpr ⟨running, plays⟩)
    rw [record, reaches_after] at after
    exact after.2 sp expired closing same
  · intro met later member plays
    obtain ⟨other, registered, rfl⟩ := List.mem_map.mp member
    obtain ⟨running, played⟩ := (remains other).mp plays
    rw [record, reaches_after]
    refine ⟨reached other registered played, ?_⟩
    intro sp expired closing
    exact met sp expired closing other registered running played

omit assumed in
/-- A datagram that revives its speaker and disconnects it leaves every playing speaker
reached exactly under its condition. -/
theorem revive_decides (id : Nat) (package : List UInt8) (result : Int) (server : Server)
    (invariant : Invariant settings server) (reached : AllReached server) (sp : Speaker)
    (timeout : Int) (known : findSpeakerById server.speakers id = some sp)
    (guarded : unreachable sp = true) :
    AllReached
        { speakers := store server.speakers { sp with state := .online, timeout := timeout }
          host := serverSppushDisconnect settings.readFd sp server.host } ↔
      LeavesReached common settings server (.push id package result) := by
  obtain ⟨registered, sameId⟩ := find_speaker_some server.speakers id sp known
  have revived : { sp with state := .online, timeout := timeout } ∈
      store server.speakers { sp with state := .online, timeout := timeout } :=
    stored_member _ _ (id_registered server.speakers sp registered)
  constructor
  · intro every found lookup
    obtain rfl := Option.some.inj (known.symm.trans lookup)
    refine ⟨fun _ => ?_, fun unsupported closing other member plays same => ?_⟩
    · cases supported : sp.supported with
      | false => rfl
      | true =>
        have still : Reaches (serverSppushDisconnect settings.readFd sp server.host) sp :=
          every { sp with state := .online, timeout := timeout } revived ⟨rfl, supported⟩
        have after := (reaches_disconnect settings.readFd sp server.host sp).mp still
        exact absurd after.1 (closed_unreached settings server sp invariant
          (fun closing => after.2 closing rfl))
    · have apart : other.id ≠ sp.id := by
        intro sameOther
        have single := List.inj_on_of_nodup_map invariant.unique member registered sameOther
        rw [single, playing, unsupported] at plays
        cases plays.2
      have after := every other ((mem_store _ _ _).mpr (Or.inr ⟨member, apart⟩)) plays
      exact ((reaches_disconnect settings.readFd sp server.host other).mp after).2 closing same
  · intro met other member plays
    have unsupported := (met sp known).1 guarded
    rcases (mem_store _ _ other).mp member with ⟨rfl, _⟩ | ⟨old, _⟩
    · cases unsupported.symm.trans plays.2
    · refine (reaches_disconnect settings.readFd sp server.host other).mpr
        ⟨reached other old plays, ?_⟩
      intro closing
      exact (met sp known).2 unsupported closing other old plays

/-- A datagram leaves every playing speaker reached exactly under its condition. -/
theorem push_decides (id : Nat) (package : List UInt8) (result : Int) (server : Server)
    (invariant : Invariant settings server) (reached : AllReached server) :
    AllReached (step common settings server (.push id package result)) ↔
      LeavesReached common settings server (.push id package result) := by
  have outcome := push_outcome assumed settings id package result server invariant.unique
  generalize step common settings server (.push id package result) = after at outcome ⊢
  cases outcome with
  | absent unknown =>
    apply iff_of_true reached
    intro sp known
    cases unknown.symm.trans known
  | refreshed sp timeout known guarded given =>
    exact revive_decides settings id package result server invariant reached sp timeout known guarded
  | unsupported sp known passed refused =>
    constructor
    · intro every found lookup
      obtain rfl := Option.some.inj (known.symm.trans lookup)
      refine ⟨fun _ => refused, fun _ closing other member plays => ?_⟩
      exact ((reaches_disconnect settings.readFd sp server.host other).mp
        (every other member plays)).2 closing
    · intro met other member plays
      refine (reaches_disconnect settings.readFd sp server.host other).mpr
        ⟨reached other member plays, ?_⟩
      intro closing
      exact (met sp known).2 refused closing other member plays
  | sent sp known passed supported =>
    apply iff_of_true reached
    intro found lookup
    obtain rfl := Option.some.inj (known.symm.trans lookup)
    rw [passed, supported]
    simp

/-- A step leaves every playing speaker reached exactly under its condition. -/
theorem step_decides (server : Server) (action : Action)
    (possible : enabled settings server action) (succeeds : Succeeds action)
    (invariant : Invariant settings server) (reached : AllReached server) :
    AllReached (step common settings server action) ↔
      LeavesReached common settings server action := by
  cases action with
  | request header answers =>
    exact request_decides assumed settings answers header server possible succeeds reached
  | tick => exact tick_decides assumed settings server reached
  | push id package result =>
    exact push_decides assumed settings id package result server invariant reached
  | format rate bits results =>
    refine iff_of_true ?_ trivial
    intro sp registered plays
    have before := reached sp registered plays
    simpa [Reaches, step, serverSpctrlSetFormat] using before
  | time spid now result =>
    refine iff_of_true ?_ trivial
    intro sp registered plays
    have before := reached sp registered plays
    simpa [Reaches, step] using before
  | openOther fd =>
    refine iff_of_true ?_ trivial
    intro sp registered plays
    refine reaches_update server.host _ sp fd (some ⟨.process, none⟩) rfl ?_
      (reached sp registered plays)
    rw [show server.host.table fd = none from possible]
    rfl
  | closeOther fd =>
    obtain ⟨_, peer, entry⟩ := possible
    refine iff_of_true ?_ trivial
    intro sp registered plays
    refine reaches_update server.host _ sp fd none rfl ?_ (reached sp registered plays)
    rw [entry, invariant.unconnected fd peer entry]
    rfl

end Steps

/-- The online and supported speakers can be sent to throughout an admissible run
whose socket and connect calls succeed if and only if none of its steps revives a
speaker whose descriptor is gone or closes the number of one that goes on playing. -/
theorem online_speakers_reached (common : Common) (assumed : common.Assumed) (settings : Settings)
    (server : Server) (booted : Booted settings server) (actions : List Action)
    (admissible : (connectingMachine common settings).Admissible server actions) :
    (connectingMachine common settings).Throughout AllReached server actions ↔
      (connectingMachine common settings).Along (LeavesReached common settings) server actions := by
  have initial : Invariant settings server := by
    refine ⟨by simp [booted.vacant, ids], ?_, booted.shared⟩
    intro fd peer entry
    exact (Descriptor.mk.inj (booted.own fd _ entry)).2
  refine Machine.throughout_iff_along _ AllReached (Invariant settings) _ ?_ ?_ server actions
    initial (by simp [AllReached, booted.vacant]) admissible
  · intro reached action invariant holds possible
    exact step_decides assumed settings reached action possible.1 possible.2 invariant holds
  · intro reached action invariant _ possible _
    exact invariant_step assumed settings reached action possible.1 possible.2 invariant

/-- A speaker that joins, announces itself again in time and then runs out of time
meets the condition. -/
theorem reached_until_timeout :
    (connectingMachine (Common.reference 1) referenceSettings).Throughout AllReached freshServer
      [.request referenceRequest referenceAnswers, .tick,
        .request referenceRequest { referenceAnswers with socket := some 6 }, .tick, .tick] := by
  refine (online_speakers_reached (Common.reference 1) (Common.reference_assumed 1)
    referenceSettings freshServer fresh_booted
    [.request referenceRequest referenceAnswers, .tick,
      .request referenceRequest { referenceAnswers with socket := some 6 }, .tick, .tick]
    ⟨⟨reference_enabled, by decide, rfl⟩, ⟨trivial, trivial⟩, ⟨?_, by decide, rfl⟩,
      ⟨trivial, trivial⟩, ⟨trivial, trivial⟩, trivial⟩).mpr
    ⟨?_, ?_, ?_, ?_, ?_, trivial⟩
  · intro fd handed
    rw [← Option.some.inj handed]
    rfl
  · intro _ _ sp known
    cases known
  · unfold LeavesReached playing
    decide
  · intro _ _ sp known
    rw [← Option.some.inj known]
    unfold Reaches
    decide
  · unfold LeavesReached playing
    decide
  · unfold LeavesReached playing
    decide

/-- A speaker that runs out of time and announces itself once more is online and
supported while the number in its record is closed. -/
theorem returning_speaker_unreached :
    (connectingMachine (Common.reference 1) referenceSettings).Admissible freshServer
      [.request referenceRequest referenceAnswers, .tick, .tick,
        .request referenceRequest { referenceAnswers with socket := some 6 }] ∧
    ¬ AllReached ((connectingMachine (Common.reference 1) referenceSettings).after freshServer
      [.request referenceRequest referenceAnswers, .tick, .tick,
        .request referenceRequest { referenceAnswers with socket := some 6 }]) := by
  refine ⟨⟨⟨reference_enabled, by decide, rfl⟩, ⟨trivial, trivial⟩, ⟨trivial, trivial⟩,
    ⟨?_, by decide, rfl⟩, trivial⟩, ?_⟩
  · intro fd handed
    rw [← Option.some.inj handed]
    rfl
  · intro reached
    obtain ⟨sp, registered, number, plays⟩ :
        ∃ sp ∈ ((connectingMachine (Common.reference 1) referenceSettings).after freshServer
          [.request referenceRequest referenceAnswers, .tick, .tick,
            .request referenceRequest { referenceAnswers with socket := some 6 }]).speakers,
          sp.fd = 5 ∧ sp.state = .online ∧ sp.supported = true := by decide
    have connected := (reached sp registered plays).2
    rw [number] at connected
    cases connected

end Castserver.Reach
