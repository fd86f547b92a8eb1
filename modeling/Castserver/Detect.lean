import Castserver.Control

/-!
# Announcements and the online monitor

The state-changing half of `server_detect.c`. An announcement either refreshes
the record of a known speaker or builds a record for a new one; only the second
path connects the speaker, starts its clock, sends it the sample format and
calls the registered callback. The monitor counts every record's timeout down
and takes a record offline whose timeout has run out.
-/

namespace Castserver.Detect

open Speakers Pusher Control

/-- Global variables that no modelled step assigns: the configured sample
format, the pusher's shared descriptor and whether `detect_cb` is set. -/
structure Settings where
  configSpeakerBits : Nat
  configSpeakerRate : Nat
  readFd : Nat
  detectCb : Bool
deriving DecidableEq, Repr

/-- The list of speaker records together with the host. -/
structure Server where
  speakers : List Speaker
  host : Host

/-- An announcement with an empty mask is refused before anything is looked up. -/
def wellFormed (header : Request) : Bool :=
  decide (0 < header.bitsMask) && decide (0 < header.rateMask)

/-- Whether the masks of an announcement include the configured format. -/
def supports (common : Common) (settings : Settings) (header : Request) : Bool :=
  common.maskIsset header.bitsMask settings.configSpeakerBits &&
    common.maskIsset header.rateMask settings.configSpeakerRate

/-- The branch of `valid_speaker` for a registered id. -/
def refreshSpeaker (common : Common) (settings : Settings) (header : Request) (sp : Speaker) :
    Speaker :=
  common.checkOnline { sp with supported := supports common settings header }

/-- The branch of `valid_speaker` for an id that is not registered, from the
record `add_speaker` returned to the end of the function. -/
def newSpeaker (common : Common) (settings : Settings) (answers : Answers) (header : Request)
    (host : Host) : Speaker × Host × Int :=
  let support := supports common settings header
  let sp := common.addSpeaker header.id common.defaultLine common.defaultChannel
  let sp := { sp with supported := support }
  let sp := common.structInitFromHeader sp header
  let sp := common.checkOnline sp
  let (sp, host, _) := serverSppushConnect settings.readFd answers sp host
  if !support then (sp, host, -1)
  else
    let sp := serverSpctrlSetTime answers.now sp
    let package := .sample settings.configSpeakerBits settings.configSpeakerRate sp.channel
    let (host, _) := serverSpctrlSpeaker sp package answers.sendto host
    let host := if settings.detectCb then host.note (.callback sp.id) else host
    (sp, host, 0)

/-- Handle one announcement; the second component is the return code. -/
def validSpeaker (common : Common) (settings : Settings) (answers : Answers) (header : Request)
    (server : Server) : Server × Int :=
  if header.bitsMask ≤ 0 then (server, 1)
  else if header.rateMask ≤ 0 then (server, 1)
  else
    match findSpeakerById server.speakers header.id with
    | some sp =>
      let sp := refreshSpeaker common settings header sp
      ({ server with speakers := store server.speakers sp }, 0)
    | none =>
      if !answers.allocated then (server, -1)
      else
        let (sp, host, code) := newSpeaker common settings answers header server.host
        ({ speakers := common.link server.speakers sp, host := host }, code)

/-- The record part of one round of the monitor. The test reads the timeout
before the decrement. -/
def tickRecord (common : Common) (sp : Speaker) : Speaker :=
  if sp.timeout ≤ 0 then common.offline { sp with timeout := sp.timeout - 1 }
  else { sp with timeout := sp.timeout - 1 }

/-- One pass of the monitor over the speaker list. -/
def threadOnlineDetect (common : Common) (readFd : Nat) :
    List Speaker → Host → List Speaker × Host
  | [], host => ([], host)
  | sp :: rest, host =>
    let host := if sp.timeout ≤ 0 then
        serverSppushDisconnect readFd (tickRecord common sp) host
      else host
    let (rest, host) := threadOnlineDetect common readFd rest host
    (tickRecord common sp :: rest, host)

section Records

variable (common : Common) (settings : Settings)

/-- An announcement with an empty mask is refused with the code one. -/
theorem valid_speaker_empty (answers : Answers) (header : Request) (server : Server)
    (refused : wellFormed header = false) :
    validSpeaker common settings answers header server = (server, 1) := by
  simp only [wellFormed, Bool.and_eq_false_iff, decide_eq_false_iff_not, Nat.not_lt] at refused
  unfold validSpeaker
  rcases refused with noBits | noRate
  · rw [if_pos noBits]
  · by_cases noBits : header.bitsMask ≤ 0
    · rw [if_pos noBits]
    · rw [if_neg noBits, if_pos noRate]

/-- An announcement with an empty mask changes nothing. -/
theorem valid_speaker_refused (answers : Answers) (header : Request) (server : Server)
    (refused : wellFormed header = false) :
    (validSpeaker common settings answers header server).1 = server := by
  rw [valid_speaker_empty common settings answers header server refused]

/-- A known speaker's announcement recomputes its support and refreshes it, and
does nothing on the host. -/
theorem valid_speaker_known (answers : Answers) (header : Request) (server : Server)
    (sp : Speaker) (formed : wellFormed header = true)
    (known : findSpeakerById server.speakers header.id = some sp) :
    validSpeaker common settings answers header server =
      ({ server with
          speakers := store server.speakers (refreshSpeaker common settings header sp) }, 0) := by
  simp only [wellFormed, Bool.and_eq_true, decide_eq_true_eq] at formed
  unfold validSpeaker
  rw [if_neg (by omega), if_neg (by omega), known]

/-- A new speaker's announcement is dropped when no record can be allocated. -/
theorem valid_speaker_unallocated (answers : Answers) (header : Request) (server : Server)
    (unknown : findSpeakerById server.speakers header.id = none)
    (unallocated : answers.allocated = false) :
    (validSpeaker common settings answers header server).1 = server := by
  unfold validSpeaker
  rw [unknown]
  simp only [unallocated, Bool.not_false, if_true]
  split
  · rfl
  · split <;> rfl

/-- A new speaker's announcement adds the record the second path builds. -/
theorem valid_speaker_new (answers : Answers) (header : Request) (server : Server)
    (formed : wellFormed header = true)
    (unknown : findSpeakerById server.speakers header.id = none)
    (allocated : answers.allocated = true) :
    validSpeaker common settings answers header server =
      ({ speakers := common.link server.speakers
            (newSpeaker common settings answers header server.host).1,
         host := (newSpeaker common settings answers header server.host).2.1 },
        (newSpeaker common settings answers header server.host).2.2) := by
  simp only [wellFormed, Bool.and_eq_true, decide_eq_true_eq] at formed
  unfold validSpeaker
  rw [if_neg (by omega), if_neg (by omega), unknown]
  simp [allocated]

/-- The monitor treats the records one by one. -/
theorem online_detect_records (readFd : Nat) (speakers : List Speaker) (host : Host) :
    (threadOnlineDetect common readFd speakers host).1 = speakers.map (tickRecord common) := by
  induction speakers generalizing host with
  | nil => rfl
  | cons sp rest inductionHypothesis =>
    simp only [threadOnlineDetect, List.map_cons, inductionHypothesis]

end Records

/-- The record of a new speaker up to the point where it is connected: the fields
of its announcement, online, and zero in every other field. -/
def announced (common : Common) (header : Request) (support : Bool) (timeout : Int) : Speaker :=
  { Speaker.zero header.id common.defaultLine common.defaultChannel with
    mac := header.mac
    ip := header.addr
    dport := header.dport
    supported := support
    state := .online
    timeout := timeout }

/-- The record of a supported new speaker at the end of the second path. -/
def joined (common : Common) (settings : Settings) (answers : Answers) (header : Request)
    (timeout : Int) : Speaker :=
  { announced common header true timeout with
    connTime := answers.now
    fd := (answers.socket.getD settings.readFd : Nat) }

/-- The host after a supported new speaker: connected, sent the sample format if
it has a data port, and passed to the callback if one is set. -/
def joinedHost (settings : Settings) (answers : Answers) (sp : Speaker) (host : Host) : Host :=
  let host := connectedHost settings.readFd answers sp host
  let package := .sample settings.configSpeakerBits settings.configSpeakerRate sp.channel
  let host := if sp.dport ≠ 0 then host.note (.control sp.id package answers.sendto) else host
  if settings.detectCb then host.note (.callback sp.id) else host

section Assumptions

variable {common : Common} (assumed : common.Assumed) (settings : Settings)

include assumed

/-- A record after one round of the monitor: its timeout is one lower, and it is
offline if its timeout had run out. Nothing else changes. -/
theorem tick_record (sp : Speaker) :
    tickRecord common sp =
      { sp with
        timeout := sp.timeout - 1,
        state := if sp.timeout ≤ 0 then .offline else sp.state } := by
  unfold tickRecord
  split
  · rw [assumed.expired]
  · rfl

/-- The host part of the monitor closes the descriptor numbers of the records
whose timeout has run out, in list order. -/
theorem online_detect_host (readFd : Nat) (speakers : List Speaker) (host : Host) :
    (threadOnlineDetect common readFd speakers host).2 =
      (speakers.filter (fun sp => decide (sp.timeout ≤ 0))).foldl
        (fun host sp => serverSppushDisconnect readFd sp host) host := by
  induction speakers generalizing host with
  | nil => rfl
  | cons sp rest inductionHypothesis =>
    simp only [threadOnlineDetect, inductionHypothesis]
    by_cases due : sp.timeout ≤ 0
    · have same : serverSppushDisconnect readFd (tickRecord common sp) host =
          serverSppushDisconnect readFd sp host := by
        apply disconnect_congr <;> rw [tick_record assumed]
      simp [due, same]
    · simp [due]

/-- A known speaker's record after its announcement: the support of this request,
online, with a new timeout. -/
theorem refresh_speaker (header : Request) (sp : Speaker) :
    ∃ timeout : Int, common.Gives timeout ∧ refreshSpeaker common settings header sp =
      { sp with
        supported := supports common settings header
        state := .online
        timeout := timeout } := by
  rw [refreshSpeaker, assumed.refreshed]
  exact ⟨_, ⟨_, rfl⟩, rfl⟩

/-- Up to the connect, a new speaker's record holds its announcement. -/
theorem announced_record (header : Request) (support : Bool) :
    ∃ timeout : Int, common.Gives timeout ∧
      common.checkOnline (common.structInitFromHeader
        { common.addSpeaker header.id common.defaultLine common.defaultChannel with
          supported := support } header) = announced common header support timeout := by
  rw [assumed.refreshed, assumed.copied, assumed.zeroed]
  exact ⟨_, ⟨_, rfl⟩, rfl⟩

/-- An unsupported new speaker is registered and online, but connecting it
returned early: its descriptor number is the zero it started with, and nothing
happened on the host. -/
theorem new_speaker_unsupported (answers : Answers) (header : Request) (host : Host)
    (unsupported : supports common settings header = false) :
    ∃ timeout : Int, common.Gives timeout ∧ newSpeaker common settings answers header host =
      (announced common header false timeout, host, -1) := by
  obtain ⟨timeout, given, record⟩ := announced_record assumed header false
  refine ⟨timeout, given, ?_⟩
  simp only [newSpeaker, unsupported, record]
  rw [connect_unsupported _ _ _ _ rfl]
  rfl

/-- A supported new speaker is registered and online with the descriptor number
its connect got, and the host has gone through the whole second path. -/
theorem new_speaker_supported (answers : Answers) (header : Request) (host : Host)
    (supported : supports common settings header = true) :
    ∃ timeout : Int, common.Gives timeout ∧ newSpeaker common settings answers header host =
      (joined common settings answers header timeout,
        joinedHost settings answers (joined common settings answers header timeout) host, 0) := by
  obtain ⟨timeout, given, record⟩ := announced_record assumed header true
  refine ⟨timeout, given, ?_⟩
  obtain ⟨code, connected⟩ := connect_online settings.readFd answers
    (announced common header true timeout) host rfl rfl
  simp only [newSpeaker, supported, record, connected, Bool.not_true, Bool.false_eq_true, if_false]
  rw [control_sent_online _ _ _ _ rfl]
  rfl

end Assumptions

end Castserver.Detect
