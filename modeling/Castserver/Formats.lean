import Castserver.Service

/-!
# The sample format in force

A speaker is told a sample format when it joins, from the configuration, and by
every format broadcast, from the source. Neither the configuration nor a record
remembers the broadcast format. The history gives both what a speaker was last
told and which broadcast was the last one; the playing speakers agree throughout
a run exactly when every step that makes a speaker play finds it up to date.
-/

namespace Castserver.Formats

open Speakers Pusher Control Detect Service
open Library.Runs Library.Histories

/-- Keep the bits and rate of the latest delivered sample package to an id. -/
def sampleUpdate (id : Nat) : Event → Option (Nat × Nat) → Option (Nat × Nat)
  | .control other (.sample bits rate _) result, seen =>
    if other = id ∧ 0 ≤ result then some (bits, rate) else seen
  | _, seen => seen

/-- Keep the bits and rate of the latest format broadcast. -/
def formatUpdate : Event → Option (Nat × Nat) → Option (Nat × Nat)
  | .format rate bits, _ => some (bits, rate)
  | _, seen => seen

/-- The bits and rate a speaker was last told, if any. -/
def lastSample (id : Nat) (host : Host) : Option (Nat × Nat) :=
  observe (sampleUpdate id) none host.events

/-- The bits and rate of the most recent broadcast, if there was one. -/
def lastFormat (host : Host) : Option (Nat × Nat) :=
  observe formatUpdate none host.events

/-- Any two playing speakers were last told the same bits and rate, those of the
most recent broadcast once there has been one. The two may be the same speaker, so a speaker
that plays alone must have been told them as well. -/
def Agree (server : Server) : Prop :=
  ∀ first ∈ server.speakers, ∀ second ∈ server.speakers, playing first → playing second →
    ∃ sample, lastSample first.id server.host = some sample ∧
      lastSample second.id server.host = some sample ∧
      ∀ format, lastFormat server.host = some format → sample = format

/-- The configured bits and rate. -/
def configured (settings : Settings) : Nat × Nat :=
  (settings.configSpeakerBits, settings.configSpeakerRate)

/-- The format in force: that of the most recent broadcast, or the configured one. -/
def inForce (settings : Settings) (host : Host) : Nat × Nat :=
  (lastFormat host).getD (configured settings)

/-- The environment delivers every control package it is handed. -/
def Delivers : Action → Prop
  | .request _ answers => 0 ≤ answers.sendto
  | .format _ _ results => ∀ id, 0 ≤ results id
  | _ => True

/-- The server on a network that delivers every control package. -/
def deliveringMachine (common : Common) (settings : Settings) : Machine Server Action :=
  (machine common settings).restrict fun _ action => Delivers action

/-- A step that makes a speaker play finds it up to date. A supported announcement
of a registered id, and a datagram that revives a supported record, come from a
speaker last told the format in force; a supported new speaker has a data port
and joins while the configured format is the one in force. -/
def FindsCurrent (common : Common) (settings : Settings) (server : Server) : Action → Prop
  | .request header answers =>
    accepts answers header server = true → supports common settings header = true →
      if header.id ∈ ids server.speakers then
        lastSample header.id server.host = some (inForce settings server.host)
      else header.dport ≠ 0 ∧ inForce settings server.host = configured settings
  | .push id _ _ => ∀ sp, findSpeakerById server.speakers id = some sp →
      unreachable sp = true → sp.supported = true →
      lastSample id server.host = some (inForce settings server.host)
  | _ => True

/-- The invariant: distinct ids; nothing was told to an id that is not registered;
before the first broadcast only the configured format was told; and only records
with a data port were told anything. -/
structure Invariant (settings : Settings) (server : Server) : Prop where
  unique : (ids server.speakers).Nodup
  untold : ∀ id, id ∉ ids server.speakers → lastSample id server.host = none
  initially : lastFormat server.host = none →
    ∀ id sample, lastSample id server.host = some sample → sample = configured settings
  port : ∀ sp ∈ server.speakers, lastSample sp.id server.host ≠ none → sp.dport ≠ 0

/-- Every playing speaker was last told the format in force. -/
def AllCurrent (settings : Settings) (server : Server) : Prop :=
  ∀ sp ∈ server.speakers, playing sp →
    lastSample sp.id server.host = some (inForce settings server.host)

/-- Under the invariant, agreement means that every playing speaker is up to date. -/
theorem agree_iff_current (settings : Settings) (server : Server)
    (invariant : Invariant settings server) : Agree server ↔ AllCurrent settings server := by
  constructor
  · intro agree sp registered plays
    obtain ⟨sample, told, _, latest⟩ := agree sp registered sp registered plays plays
    have same : sample = inForce settings server.host := by
      cases broadcast : lastFormat server.host with
      | none =>
        rw [inForce, broadcast]
        exact invariant.initially broadcast sp.id sample told
      | some format =>
        rw [inForce, broadcast]
        exact latest format broadcast
    rw [told, same]
  · intro current first firstIn second secondIn firstPlays secondPlays
    refine ⟨inForce settings server.host, current first firstIn firstPlays,
      current second secondIn secondPlays, ?_⟩
    intro format broadcast
    rw [inForce, broadcast]
    rfl

/-- Events that are neither a sample package nor a broadcast. -/
def Silent : Event → Prop
  | .control _ (.sample _ _ _) _ | .format _ _ => False
  | _ => True

/-- Silent events change neither what was told nor what is in force. -/
theorem silent_adds (before after : Host) (adds : Adds Silent before.events after.events) :
    (∀ id, lastSample id after = lastSample id before) ∧
      lastFormat after = lastFormat before := by
  constructor
  · intro id
    refine observe_adds (sampleUpdate id) none Silent ?_ _ _ adds
    intro event seen silent
    cases event with
    | control other package result => cases package <;> first | rfl | exact False.elim silent
    | _ => rfl
  · refine observe_adds formatUpdate none Silent ?_ _ _ adds
    intro event seen silent
    cases event <;> first | rfl | exact False.elim silent

/-- What a broadcast leaves each id told: its own format for every online record
with a data port, and nothing new for any other id. -/
theorem broadcast_told (rate bits : Nat) (results : Nat → Int) (delivers : ∀ id, 0 ≤ results id)
    (speakers : List Speaker) (host : Host) (id : Nat) :
    lastSample id (serverSpctrlFormat rate bits results speakers host) =
      if ∃ sp ∈ speakers, sp.id = id ∧ sp.dport ≠ 0 ∧ sp.state = .online then some (bits, rate)
      else lastSample id host := by
  induction speakers generalizing host with
  | nil => simp [serverSpctrlFormat]
  | cons sp rest inductionHypothesis =>
    rw [format_cons, inductionHypothesis]
    by_cases later : ∃ other ∈ rest, other.id = id ∧ other.dport ≠ 0 ∧ other.state = .online
    · obtain ⟨other, member, reached⟩ := later
      rw [if_pos ⟨other, member, reached⟩,
        if_pos ⟨other, List.mem_cons_of_mem sp member, reached⟩]
    · rw [if_neg later]
      by_cases reached : sp.id = id ∧ sp.dport ≠ 0 ∧ sp.state = .online
      · rw [if_pos reached.2, if_pos ⟨sp, List.mem_cons_self, reached⟩]
        simp [lastSample, sampleUpdate, reached.1, delivers]
      · have nowhere : ¬ ∃ other ∈ sp :: rest,
            other.id = id ∧ other.dport ≠ 0 ∧ other.state = .online := by
          rintro ⟨other, member, found⟩
          rcases List.mem_cons.mp member with rfl | inRest
          · exact reached found
          · exact later ⟨other, inRest, found⟩
        rw [if_neg nowhere]
        split
        · next sent =>
          have apart : sp.id ≠ id := fun same => reached ⟨same, sent⟩
          simp [lastSample, sampleUpdate, apart]
        · rfl

/-- A broadcast is the most recent one afterwards. -/
theorem broadcast_latest (rate bits : Nat) (results : Nat → Int) (speakers : List Speaker)
    (host : Host) :
    lastFormat (serverSpctrlFormat rate bits results speakers (host.note (.format rate bits))) =
      some (bits, rate) := by
  have same : lastFormat (serverSpctrlFormat rate bits results speakers
      (host.note (.format rate bits))) = lastFormat (host.note (.format rate bits)) := by
    refine observe_adds formatUpdate none IsControl ?_ _ _
      (format_adds rate bits results speakers (host.note (.format rate bits)))
    intro event seen control
    cases event <;> first | rfl | exact False.elim control
  rw [same]
  rfl

/-- What a supported new speaker is told: the configured format if it has a data
port, and otherwise nothing. Other ids are told nothing, and no broadcast happens. -/
theorem joined_told (settings : Settings) (answers : Answers) (delivers : 0 ≤ answers.sendto)
    (sp : Speaker) (host : Host) :
    (∀ id, lastSample id (joinedHost settings answers sp host) =
      if id = sp.id ∧ sp.dport ≠ 0 then some (configured settings) else lastSample id host) ∧
    lastFormat (joinedHost settings answers sp host) = lastFormat host := by
  have opened (id : Nat) : observe (sampleUpdate id) none
      ((answers.socket.map (Event.opened sp.id)).toList ++ host.events) =
      observe (sampleUpdate id) none host.events := by
    cases answers.socket <;> rfl
  have openedFormat : observe formatUpdate none
      ((answers.socket.map (Event.opened sp.id)).toList ++ host.events) =
      observe formatUpdate none host.events := by
    cases answers.socket <;> rfl
  constructor
  · intro id
    rw [lastSample, joined_events]
    by_cases same : id = sp.id <;> by_cases port : sp.dport = 0 <;>
      cases called : settings.detectCb <;>
      simp [sampleUpdate, same, eq_comm, port, opened, delivers, configured, lastSample]
  · rw [lastFormat, joined_events]
    by_cases port : sp.dport = 0 <;> cases called : settings.detectCb <;>
      simp [formatUpdate, port, openedFormat, lastFormat]

/-- Being up to date depends only on what was told and what is in force. -/
theorem current_iff (settings : Settings) (before after : Host) (id : Nat)
    (same : (∀ id, lastSample id after = lastSample id before) ∧
      lastFormat after = lastFormat before) :
    lastSample id after = some (inForce settings after) ↔
      lastSample id before = some (inForce settings before) := by
  rw [inForce, inForce, same.1, same.2]

/-- A step that tells nobody anything keeps the invariant, as long as it drops no
id and each record keeps the data port of its id or is new. -/
theorem invariant_silent (settings : Settings) (before after : Server)
    (invariant : Invariant settings before)
    (same : (∀ id, lastSample id after.host = lastSample id before.host) ∧
      lastFormat after.host = lastFormat before.host)
    (unique : (ids after.speakers).Nodup)
    (keeps : ∀ id, id ∈ ids before.speakers → id ∈ ids after.speakers)
    (ports : Carries Speaker.dport before.speakers after.speakers) :
    Invariant settings after := by
  refine ⟨unique, ?_, ?_, ?_⟩
  · intro id absent
    rw [same.1]
    exact invariant.untold id (fun present => absent (keeps id present))
  · intro unsaid id sample told
    rw [same.2] at unsaid
    rw [same.1] at told
    exact invariant.initially unsaid id sample told
  · intro sp registered told
    rw [same.1] at told
    rcases ports sp registered with fresh | ⟨old, member, sameId, samePort⟩
    · exact absurd (invariant.untold sp.id fresh) told
    · rw [← samePort]
      exact invariant.port old member (sameId ▸ told)

/-- A broadcast keeps the invariant: it tells only records with a data port. -/
theorem broadcast_invariant (settings : Settings) (rate bits : Nat) (results : Nat → Int)
    (delivers : ∀ id, 0 ≤ results id) (server : Server) (invariant : Invariant settings server) :
    Invariant settings { server with
      host := serverSpctrlFormat rate bits results server.speakers
        (server.host.note (.format rate bits)) } := by
  have told (id : Nat) := broadcast_told rate bits results delivers server.speakers
    (server.host.note (.format rate bits)) id
  refine ⟨invariant.unique, ?_, ?_, ?_⟩
  · intro id absent
    have nobody : ¬ ∃ sp ∈ server.speakers, sp.id = id ∧ sp.dport ≠ 0 ∧ sp.state = .online := by
      rintro ⟨sp, registered, rfl, _⟩
      exact absent (id_registered server.speakers sp registered)
    rw [told id, if_neg nobody]
    exact invariant.untold id absent
  · intro unsaid
    rw [broadcast_latest] at unsaid
    cases unsaid
  · intro sp registered saidSomething
    rw [told sp.id] at saidSomething
    split at saidSomething
    · next reached =>
      obtain ⟨other, member, sameId, port, _⟩ := reached
      rw [List.inj_on_of_nodup_map invariant.unique registered member sameId.symm]
      exact port
    · exact invariant.port sp registered saidSomething

/-- Joining keeps the invariant: the new speaker is told the configured format, and
only if it has a data port. -/
theorem joined_invariant {common : Common} (assumed : common.Assumed) (settings : Settings)
    (answers : Answers) (header : Request) (timeout : Int) (delivers : 0 ≤ answers.sendto)
    (server : Server) (unknown : findSpeakerById server.speakers header.id = none)
    (invariant : Invariant settings server)
    (unique : (ids (common.link server.speakers
      (joined common settings answers header timeout))).Nodup) :
    Invariant settings
      { speakers := common.link server.speakers (joined common settings answers header timeout)
        host := joinedHost settings answers (joined common settings answers header timeout)
          (server.host.note (.announced header.id true)) } := by
  have absent := (find_speaker_none server.speakers header.id).mp unknown
  have linked := assumed.linked server.speakers (joined common settings answers header timeout)
  obtain ⟨told, latest⟩ := joined_told settings answers delivers
    (joined common settings answers header timeout)
    (server.host.note (.announced header.id true))
  refine ⟨unique, ?_, ?_, ?_⟩
  · intro id unlisted
    have unregistered : id ∉ header.id :: ids server.speakers := by
      intro present
      exact unlisted ((mem_ids_linked _ _ _ linked id).mpr present)
    have apart : ¬ (id = header.id ∧ header.dport ≠ 0) := by
      rintro ⟨rfl, _⟩
      exact unregistered List.mem_cons_self
    refine (told id).trans ((if_neg apart).trans ?_)
    exact invariant.untold id (fun present => unregistered (List.mem_cons_of_mem _ present))
  · intro unsaid id sample saidSample
    rw [told id] at saidSample
    split at saidSample
    · exact (Option.some.inj saidSample).symm
    · exact invariant.initially (latest.symm.trans unsaid) id sample saidSample
  · intro other member saidSomething
    rw [told other.id] at saidSomething
    rcases List.mem_cons.mp (linked.mem_iff.mp member) with rfl | old
    · split at saidSomething
      · next reached => exact reached.2
      · exact absurd (invariant.untold header.id absent) saidSomething
    · split at saidSomething
      · next reached =>
        exact absurd (id_registered server.speakers other old) (reached.1 ▸ absent)
      · exact invariant.port other old saidSomething

section Steps

variable {common : Common} (assumed : common.Assumed) (settings : Settings)

include assumed

/-- Any other step than an announcement and a broadcast tells nobody a format. -/
theorem step_silent (server : Server) (action : Action) (unique : (ids server.speakers).Nodup)
    (announces : ∀ header answers, action ≠ .request header answers)
    (broadcasts : ∀ rate bits results, action ≠ .format rate bits results) :
    (∀ id, lastSample id (step common settings server action).host = lastSample id server.host) ∧
      lastFormat (step common settings server action).host = lastFormat server.host := by
  apply silent_adds
  apply adds_weaken (Makes action) Silent _ _ _ (step_adds assumed settings server action unique)
  intro event made
  cases action with
  | request header answers => exact absurd rfl (announces header answers)
  | format rate bits results => exact absurd rfl (broadcasts rate bits results)
  | _ =>
    cases event with
    | control id package result => cases package <;> trivial
    | _ => trivial

/-- Every step keeps the invariant. -/
theorem invariant_step (server : Server) (action : Action) (delivers : Delivers action)
    (invariant : Invariant settings server) :
    Invariant settings (step common settings server action) := by
  have unique := unique_step assumed settings server action invariant.unique
  have keeps := step_ids assumed settings server action invariant.unique
  have ports := step_carries assumed settings Speaker.dport (fun _ _ _ _ => rfl) server action
    invariant.unique
  rcases request_or_other action with ⟨header, answers, rfl⟩ | other
  · have outcome := request_outcome assumed settings answers header server
    generalize step common settings server (.request header answers) = after
      at outcome unique keeps ports ⊢
    cases outcome with
    | refused dropped => exact invariant
    | refreshed sp timeout formed known given =>
      exact invariant_silent settings server _ invariant
        (silent_adds _ _ (adds_cons Silent _ _ trivial)) unique keeps ports
    | registered timeout formed unknown allocated unsupported given =>
      exact invariant_silent settings server _ invariant
        (silent_adds _ _ (adds_cons Silent _ _ trivial)) unique keeps ports
    | joined timeout formed unknown allocated supported given =>
      exact joined_invariant assumed settings answers header timeout delivers server unknown
        invariant unique
  by_cases broadcasts : ∃ rate bits results, action = .format rate bits results
  · obtain ⟨rate, bits, results, rfl⟩ := broadcasts
    exact broadcast_invariant settings rate bits results delivers server invariant
  · apply invariant_silent settings server _ invariant _ unique keeps ports
    apply step_silent assumed settings server action invariant.unique
    · exact other
    · exact fun rate bits results same => broadcasts ⟨rate, bits, results, same⟩

omit assumed in
/-- A record stored under its id leaves every playing speaker up to date exactly if it is up
to date itself in case it plays. -/
theorem stored_current (server : Server) (host : Host) (changed : Speaker)
    (listed : changed.id ∈ ids server.speakers)
    (silent : (∀ id, lastSample id host = lastSample id server.host) ∧
      lastFormat host = lastFormat server.host)
    (current : AllCurrent settings server) :
    AllCurrent settings { speakers := store server.speakers changed, host := host } ↔
      (playing changed →
        lastSample changed.id server.host = some (inForce settings server.host)) := by
  have same (id : Nat) := current_iff settings server.host host id silent
  constructor
  · intro every plays
    exact (same changed.id).mp (every changed (stored_member _ _ listed) plays)
  · intro told other member plays
    rcases (mem_store _ _ other).mp member with ⟨rfl, _⟩ | ⟨old, _⟩
    · exact (same _).mpr (told plays)
    · exact (same _).mpr (current other old plays)

/-- A supported new speaker leaves every playing speaker up to date exactly if it has a data
port and the configured format is in force. -/
theorem joined_current (answers : Answers) (header : Request) (timeout : Int)
    (delivers : 0 ≤ answers.sendto) (server : Server) (absent : header.id ∉ ids server.speakers)
    (invariant : Invariant settings server) (current : AllCurrent settings server) :
    AllCurrent settings
        { speakers := common.link server.speakers (joined common settings answers header timeout)
          host := joinedHost settings answers (joined common settings answers header timeout)
            (server.host.note (.announced header.id true)) } ↔
      header.dport ≠ 0 ∧ inForce settings server.host = configured settings := by
  have linked := assumed.linked server.speakers (joined common settings answers header timeout)
  obtain ⟨told, latest⟩ := joined_told settings answers delivers
    (joined common settings answers header timeout)
    (server.host.note (.announced header.id true))
  have force : inForce settings (joinedHost settings answers
      (joined common settings answers header timeout)
      (server.host.note (.announced header.id true))) = inForce settings server.host := by
    rw [inForce, latest]
    rfl
  constructor
  · intro every
    have newest := every (joined common settings answers header timeout)
      (linked.mem_iff.mpr List.mem_cons_self) ⟨rfl, rfl⟩
    rw [force] at newest
    have saying := (told header.id).symm.trans newest
    split at saying
    · next port => exact ⟨port.2, (Option.some.inj saying).symm⟩
    · have silence : lastSample header.id server.host = none := invariant.untold header.id absent
      exact absurd (silence.symm.trans saying) (by simp)
  · rintro ⟨port, inConfig⟩ other member plays
    apply (told other.id).trans
    rw [force]
    rcases List.mem_cons.mp (linked.mem_iff.mp member) with rfl | old
    · rw [if_pos ⟨rfl, port⟩, inConfig]
    · have apart : ¬ (other.id = header.id ∧ header.dport ≠ 0) := by
        rintro ⟨same, _⟩
        exact absent (same ▸ id_registered server.speakers other old)
      exact (if_neg apart).trans (current other old plays)

/-- Whether an announcement leaves every playing speaker up to date is decided by
the one speaker it makes play. -/
theorem request_decides (answers : Answers) (header : Request) (delivers : 0 ≤ answers.sendto)
    (server : Server) (invariant : Invariant settings server)
    (current : AllCurrent settings server) :
    AllCurrent settings (step common settings server (.request header answers)) ↔
      FindsCurrent common settings server (.request header answers) := by
  have outcome := request_outcome assumed settings answers header server
  generalize step common settings server (.request header answers) = after at outcome ⊢
  cases outcome with
  | refused dropped => simp [FindsCurrent, dropped, current]
  | refreshed sp timeout formed known given =>
    obtain ⟨registered, sameId⟩ := find_speaker_some server.speakers header.id sp known
    have accepted : accepts answers header server = true := by simp [accepts, formed, known]
    have listed := id_registered server.speakers sp registered
    have stored := stored_current settings server
      (server.host.note (.announced header.id (supports common settings header)))
      { sp with supported := supports common settings header, state := .online, timeout := timeout }
      listed (silent_adds _ _ (adds_cons Silent _ _ trivial)) current
    rw [sameId] at listed
    simp only [FindsCurrent, accepted, listed, if_true, forall_const]
    simpa [playing, sameId] using stored
  | registered timeout formed unknown allocated unsupported given =>
    have linked := assumed.linked server.speakers (announced common header false timeout)
    have same (id : Nat) := current_iff settings server.host
      (server.host.note (.announced header.id false)) id
      (silent_adds _ _ (adds_cons Silent _ _ trivial))
    simp only [FindsCurrent, unsupported, Bool.false_eq_true, false_implies, implies_true, iff_true]
    intro other member plays
    rcases List.mem_cons.mp (linked.mem_iff.mp member) with rfl | old
    · cases plays.2
    · exact (same _).mpr (current other old plays)
  | joined timeout formed unknown allocated supported given =>
    have absent := (find_speaker_none server.speakers header.id).mp unknown
    have accepted : accepts answers header server = true := by simp [accepts, formed, allocated]
    simp only [FindsCurrent, accepted, supported, absent, if_false, forall_const]
    exact joined_current assumed settings answers header timeout delivers server absent invariant
      current

/-- Whether a datagram leaves every playing speaker up to date is decided by the
record it revives, if it revives one. -/
theorem push_decides (id : Nat) (package : List UInt8) (result : Int) (server : Server)
    (invariant : Invariant settings server) (current : AllCurrent settings server) :
    AllCurrent settings (step common settings server (.push id package result)) ↔
      FindsCurrent common settings server (.push id package result) := by
  have outcome := push_outcome assumed settings id package result server invariant.unique
  have silent := step_silent assumed settings server (.push id package result) invariant.unique
    (by simp) (by simp)
  generalize step common settings server (.push id package result) = after at outcome silent ⊢
  cases outcome with
  | absent unknown =>
    simp [FindsCurrent, unknown, current]
  | refreshed sp timeout known guarded given =>
    obtain ⟨registered, sameId⟩ := find_speaker_some server.speakers id sp known
    apply (stored_current settings server (serverSppushDisconnect settings.readFd sp server.host)
      { sp with state := .online, timeout := timeout }
      (id_registered server.speakers sp registered) silent current).trans
    constructor
    · intro told found lookup _ supported
      obtain rfl := Option.some.inj (known.symm.trans lookup)
      exact sameId ▸ told ⟨rfl, supported⟩
    · intro met plays
      exact sameId ▸ met sp known guarded plays.2
  | unsupported sp known passed refused =>
    have same (other : Nat) := current_iff settings server.host
      (serverSppushDisconnect settings.readFd sp server.host) other silent
    have spared : FindsCurrent common settings server (.push id package result) := by
      intro found lookup guarded _
      rw [← Option.some.inj (known.symm.trans lookup), passed] at guarded
      cases guarded
    exact iff_of_true (fun other member plays => (same _).mpr (current other member plays)) spared
  | sent sp known passed supported =>
    have spared : FindsCurrent common settings server (.push id package result) := by
      intro found lookup guarded _
      rw [← Option.some.inj (known.symm.trans lookup), passed] at guarded
      cases guarded
    exact iff_of_true current spared

omit assumed in
/-- A broadcast reaches every playing speaker: each has been told something before,
so each has a data port. -/
theorem broadcast_current (rate bits : Nat) (results : Nat → Int)
    (delivers : ∀ id, 0 ≤ results id) (server : Server) (invariant : Invariant settings server)
    (current : AllCurrent settings server) :
    AllCurrent settings (step common settings server (.format rate bits results)) := by
  intro sp registered plays
  have port : sp.dport ≠ 0 := by
    apply invariant.port sp registered
    rw [current sp registered plays]
    exact Option.some_ne_none _
  have told := broadcast_told rate bits results delivers server.speakers
    (server.host.note (.format rate bits)) sp.id
  rw [if_pos ⟨sp, registered, rfl, port, plays.1⟩] at told
  apply told.trans
  have latest := broadcast_latest rate bits results server.speakers server.host
  exact congrArg some (congrArg (Option.getD · (configured settings)) latest).symm

/-- A step leaves every playing speaker up to date exactly under its condition. -/
theorem step_decides (server : Server) (action : Action) (delivers : Delivers action)
    (invariant : Invariant settings server) (current : AllCurrent settings server) :
    AllCurrent settings (step common settings server action) ↔
      FindsCurrent common settings server action := by
  cases action with
  | request header answers =>
    exact request_decides assumed settings answers header delivers server invariant current
  | push id package result =>
    exact push_decides assumed settings id package result server invariant current
  | tick =>
    refine iff_of_true ?_ trivial
    have silent := step_silent assumed settings server .tick invariant.unique
      (by simp) (by simp)
    rw [tick_outcome assumed] at silent ⊢
    intro other member plays
    obtain ⟨sp, registered, rfl⟩ := List.mem_map.mp member
    rw [tick_record assumed] at plays ⊢
    have online : sp.state = .online := by
      have stays := plays.1
      by_cases expired : sp.timeout ≤ 0
      · simp [expired] at stays
      · simpa [expired] using stays
    exact (current_iff settings server.host _ sp.id silent).mpr
      (current sp registered ⟨online, plays.2⟩)
  | format rate bits results =>
    exact iff_of_true
      (broadcast_current settings rate bits results delivers server invariant current) trivial
  | time spid now result =>
    refine iff_of_true ?_ trivial
    have silent := step_silent assumed settings server (.time spid now result) invariant.unique
      (by simp) (by simp)
    intro other member plays
    exact (current_iff settings server.host _ other.id silent).mpr (current other member plays)
  | openOther fd => exact iff_of_true current trivial
  | closeOther fd => exact iff_of_true current trivial

end Steps

/-- The playing speakers agree on the sample format throughout an admissible run
from a booted server if and only if every step of the run that makes a speaker play
finds it up to date. -/
theorem formats_agree (common : Common) (assumed : common.Assumed) (settings : Settings)
    (server : Server) (booted : Booted settings server) (actions : List Action)
    (admissible : (deliveringMachine common settings).Admissible server actions) :
    (deliveringMachine common settings).Throughout Agree server actions ↔
      (deliveringMachine common settings).Along (FindsCurrent common settings) server actions := by
  have silence (id : Nat) : lastSample id server.host = none := by
    rw [lastSample, booted.quiet]
    rfl
  have initial : Invariant settings server := by
    refine ⟨by simp [booted.vacant, ids], fun id _ => silence id, ?_, by simp [booted.vacant]⟩
    intro _ id sample told
    cases (silence id).symm.trans told
  refine Machine.throughout_iff_along _ Agree (Invariant settings) _ ?_ ?_ server actions initial
    (by simp [Agree, booted.vacant]) admissible
  · intro reached action invariant agree possible
    have current := (agree_iff_current settings reached invariant).mp agree
    have kept := invariant_step assumed settings reached action possible.2 invariant
    exact (agree_iff_current settings _ kept).trans
      (step_decides assumed settings reached action possible.2 invariant current)
  · intro reached action invariant _ possible _
    exact invariant_step assumed settings reached action possible.2 invariant

/-- The reference answers deliver the control package. -/
theorem reference_delivers (header : Request) (socket : Option Nat) :
    Delivers (.request header { referenceAnswers with socket := socket }) := by
  simp [Delivers, referenceAnswers]

/-- A speaker that joins and is then told a source's format meets the condition. -/
theorem formats_agree_after_broadcast :
    (deliveringMachine (Common.reference 1) referenceSettings).Throughout Agree freshServer
      [.request referenceRequest referenceAnswers, .format 4 2 (fun _ => 0)] := by
  refine (formats_agree (Common.reference 1) (Common.reference_assumed 1) referenceSettings
    freshServer fresh_booted [.request referenceRequest referenceAnswers, .format 4 2 (fun _ => 0)]
    ⟨⟨reference_enabled, reference_delivers referenceRequest (some 5)⟩,
      ⟨trivial, fun _ => Int.le_refl 0⟩, trivial⟩).mpr ⟨?_, trivial, trivial⟩
  intro _ _
  decide

/-- A second speaker with its own id, address and socket. -/
def secondRequest : Request :=
  { referenceRequest with id := 8, mac := [2], addr := ⟨2, [10, 0, 0, 8]⟩ }

/-- A speaker that joins after a source's format has been broadcast is told the
configured format instead. -/
theorem late_speaker_disagrees :
    (deliveringMachine (Common.reference 1) referenceSettings).Admissible freshServer
      [.request referenceRequest referenceAnswers, .format 4 2 (fun _ => 0),
        .request secondRequest { referenceAnswers with socket := some 6 }] ∧
    ¬ Agree ((deliveringMachine (Common.reference 1) referenceSettings).after freshServer
      [.request referenceRequest referenceAnswers, .format 4 2 (fun _ => 0),
        .request secondRequest { referenceAnswers with socket := some 6 }]) := by
  refine ⟨⟨⟨reference_enabled, reference_delivers referenceRequest (some 5)⟩,
    ⟨trivial, fun _ => Int.le_refl 0⟩, ⟨?_, reference_delivers secondRequest (some 6)⟩,
    trivial⟩, ?_⟩
  · intro fd handed
    rw [← Option.some.inj handed]
    rfl
  · intro agree
    obtain ⟨sp, registered, sameId, plays⟩ :
        ∃ sp ∈ ((deliveringMachine (Common.reference 1) referenceSettings).after freshServer
          [.request referenceRequest referenceAnswers, .format 4 2 (fun _ => 0),
            .request secondRequest { referenceAnswers with socket := some 6 }]).speakers,
          sp.id = 8 ∧ sp.state = .online ∧ sp.supported = true := by decide
    obtain ⟨sample, told, _, latest⟩ := agree sp registered sp registered plays plays
    have broadcast := latest (2, 4) rfl
    rw [sameId, broadcast] at told
    revert told
    decide

end Castserver.Formats
