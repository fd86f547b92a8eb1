import Castserver.Detect
import Castserver.Library.Runs
import Castserver.Library.Histories

/-!
# The running server

The event loop, the monitor thread and the control thread all work on the one
speaker list. An action is one unit of their interleaving: an announcement, one
pass of the monitor, one format broadcast, one datagram of a push, one clock
reply, or another part of the process opening or closing a descriptor. The
environment's answers are part of the action. An announcement that is accepted,
a monitor pass and a broadcast are also entered in the history.

The outcome theorems at the end list everything an announcement or a datagram
can do; properties of runs are derived from them and not from the functions.
-/

namespace Castserver.Service

open Speakers Pusher Control Detect
open Library.Runs Library.Histories

/-- One unit of interleaving, with the answers of its environment. -/
inductive Action where
  | request (header : Request) (answers : Answers)
  | tick
  | format (rate bits : Nat) (results : Nat → Int)
  | push (id : Nat) (package : List UInt8) (result : Int)
  | time (spid now : Nat) (result : Int)
  | openOther (fd : Nat)
  | closeOther (fd : Nat)

/-- Add an entry to the server's history. -/
def note (event : Event) (server : Server) : Server :=
  { server with host := server.host.note event }

/-- Whether an announcement reaches a record: its masks are not empty, and its id
is registered or a record can be allocated for it. -/
def accepts (answers : Answers) (header : Request) (server : Server) : Bool :=
  wellFormed header &&
    ((findSpeakerById server.speakers header.id).isSome || answers.allocated)

/-- One iteration of the send loop in `server_sppush_push_channel`, for the listed
speaker with this id. -/
def pushSpeaker (common : Common) (readFd id : Nat) (package : List UInt8) (result : Int)
    (server : Server) : Server :=
  match findSpeakerById server.speakers id with
  | none => server
  | some sp =>
    let (sp, host, _) := pusherSendtoSpeaker common readFd package result sp server.host
    { speakers := store server.speakers sp, host := host }

/-- What one action does. -/
def step (common : Common) (settings : Settings) (server : Server) : Action → Server
  | .request header answers =>
    let server := if accepts answers header server then
        note (.announced header.id (supports common settings header)) server
      else server
    (validSpeaker common settings answers header server).1
  | .tick =>
    let (speakers, host) :=
      threadOnlineDetect common settings.readFd server.speakers (server.host.note .tick)
    { speakers := speakers, host := host }
  | .format rate bits results =>
    { server with
      host := serverSpctrlSetFormat rate bits results server.speakers
        (server.host.note (.format rate bits)) }
  | .push id package result => pushSpeaker common settings.readFd id package result server
  | .time spid now result =>
    { server with host := spctrlTime server.speakers spid now result server.host }
  | .openOther fd =>
    { server with
      host := { server.host with
        table := Function.update server.host.table fd (some ⟨.process, none⟩) } }
  | .closeOther fd =>
    { server with
      host := { server.host with table := Function.update server.host.table fd none } }

/-- The kernel hands out a number only while it is free, and the rest of the
process closes only what it opened itself, never the pusher's shared descriptor. -/
def enabled (settings : Settings) (server : Server) : Action → Prop
  | .request _ answers => ∀ fd, answers.socket = some fd → server.host.table fd = none
  | .openOther fd => server.host.table fd = none
  | .closeOther fd =>
    fd ≠ settings.readFd ∧ ∃ peer, server.host.table fd = some ⟨.process, peer⟩
  | _ => True

/-- The server as a machine. -/
def machine (common : Common) (settings : Settings) : Machine Server Action where
  enabled := enabled settings
  step := step common settings

/-- A server that has just started: no speakers, an empty history, and only the
process's own descriptors, the pusher's shared one among them. None of them has
been connected to a speaker. -/
structure Booted (settings : Settings) (server : Server) : Prop where
  vacant : server.speakers = []
  quiet : server.host.events = []
  own : ∀ fd descriptor, server.host.table fd = some descriptor → descriptor = ⟨.process, none⟩
  shared : server.host.table settings.readFd = some ⟨.process, none⟩

/-- A configuration for concrete runs: format bits 0 and 1, shared descriptor 3. -/
def referenceSettings : Settings where
  configSpeakerBits := 0
  configSpeakerRate := 1
  readFd := 3
  detectCb := true

/-- A freshly started server whose only open descriptor is the shared one. -/
def freshServer : Server where
  speakers := []
  host := { table := fun fd => if fd = 3 then some ⟨.process, none⟩ else none, events := [] }

/-- An announcement that supports the reference format. -/
def referenceRequest : Request where
  id := 7
  mac := [1]
  addr := ⟨2, [10, 0, 0, 7]⟩
  dport := 4000
  bitsMask := 1
  rateMask := 2

/-- Answers with which joining succeeds: descriptor 5 is handed out. -/
def referenceAnswers : Answers where
  allocated := true
  socket := some 5
  connected := true
  sendto := 32
  now := 100

/-- The fresh server is a booted one. -/
theorem fresh_booted : Booted referenceSettings freshServer where
  vacant := rfl
  quiet := rfl
  own := by
    intro fd descriptor present
    simp only [freshServer] at present
    split at present
    · exact (Option.some.inj present).symm
    · cases present
  shared := rfl

/-- The reference announcement can reach a fresh server: its number is free. -/
theorem reference_enabled :
    enabled referenceSettings freshServer (.request referenceRequest referenceAnswers) := by
  intro fd handed
  rw [← Option.some.inj handed]
  rfl

/-- Everything an announcement can do. -/
inductive RequestOutcome (common : Common) (settings : Settings) (answers : Answers)
    (header : Request) (server : Server) : Server → Prop where
  | refused (dropped : accepts answers header server = false) :
      RequestOutcome common settings answers header server server
  | refreshed (sp : Speaker) (timeout : Int) (formed : wellFormed header = true)
      (known : findSpeakerById server.speakers header.id = some sp)
      (given : common.Gives timeout) :
      RequestOutcome common settings answers header server
        { speakers := store server.speakers { sp with
            supported := supports common settings header
            state := .online
            timeout := timeout }
          host := server.host.note (.announced header.id (supports common settings header)) }
  | registered (timeout : Int) (formed : wellFormed header = true)
      (unknown : findSpeakerById server.speakers header.id = none)
      (allocated : answers.allocated = true)
      (unsupported : supports common settings header = false)
      (given : common.Gives timeout) :
      RequestOutcome common settings answers header server
        { speakers := common.link server.speakers (announced common header false timeout)
          host := server.host.note (.announced header.id false) }
  | joined (timeout : Int) (formed : wellFormed header = true)
      (unknown : findSpeakerById server.speakers header.id = none)
      (allocated : answers.allocated = true)
      (supported : supports common settings header = true)
      (given : common.Gives timeout) :
      RequestOutcome common settings answers header server
        { speakers := common.link server.speakers (joined common settings answers header timeout)
          host := joinedHost settings answers (joined common settings answers header timeout)
            (server.host.note (.announced header.id true)) }

/-- Everything one datagram of a push can do. -/
inductive PushOutcome (common : Common) (readFd id : Nat) (package : List UInt8)
    (server : Server) : Server → Prop where
  | absent (unknown : findSpeakerById server.speakers id = none) :
      PushOutcome common readFd id package server server
  | refreshed (sp : Speaker) (timeout : Int)
      (known : findSpeakerById server.speakers id = some sp)
      (guarded : unreachable sp = true) (given : common.Gives timeout) :
      PushOutcome common readFd id package server
        { speakers := store server.speakers { sp with state := .online, timeout := timeout }
          host := serverSppushDisconnect readFd sp server.host }
  | unsupported (sp : Speaker)
      (known : findSpeakerById server.speakers id = some sp)
      (passed : unreachable sp = false) (refused : sp.supported = false) :
      PushOutcome common readFd id package server
        { server with host := serverSppushDisconnect readFd sp server.host }
  | sent (sp : Speaker)
      (known : findSpeakerById server.speakers id = some sp)
      (passed : unreachable sp = false) (supported : sp.supported = true) :
      PushOutcome common readFd id package server
        (note (.datagram sp.id sp.fd sp.ip sp.dport package) server)

/-- The records whose timeout has run out when the monitor reaches them. -/
def due (speakers : List Speaker) : List Speaker :=
  speakers.filter fun sp => decide (sp.timeout ≤ 0)

/-- Disconnect a list of records one after the other. -/
def disconnectAll (readFd : Nat) (speakers : List Speaker) (host : Host) : Host :=
  speakers.foldl (fun host sp => serverSppushDisconnect readFd sp host) host

/-- An action is an announcement or another one. -/
theorem request_or_other (action : Action) :
    (∃ header answers, action = .request header answers) ∨
      ∀ header answers, action ≠ .request header answers := by
  cases action with
  | request header answers => exact Or.inl ⟨header, answers, rfl⟩
  | _ => exact Or.inr (by simp)

section Outcomes

variable {common : Common} (assumed : common.Assumed) (settings : Settings)

include assumed

/-- An announcement is dropped, refreshes the record of its id, registers an
unsupported speaker or joins a supported one. -/
theorem request_outcome (answers : Answers) (header : Request) (server : Server) :
    RequestOutcome common settings answers header server
      (step common settings server (.request header answers)) := by
  cases formed : wellFormed header with
  | false =>
    have dropped : accepts answers header server = false := by simp [accepts, formed]
    have same : step common settings server (.request header answers) = server := by
      simp [step, dropped, valid_speaker_refused common settings answers header server formed]
    rw [same]
    exact .refused dropped
  | true =>
    cases lookup : findSpeakerById server.speakers header.id with
    | some sp =>
      have accepted : accepts answers header server = true := by simp [accepts, formed, lookup]
      obtain ⟨timeout, given, record⟩ := refresh_speaker assumed settings header sp
      have result := valid_speaker_known common settings answers header
        (note (.announced header.id (supports common settings header)) server) sp formed lookup
      simp only [step, accepted, if_true, result, record]
      exact .refreshed sp timeout formed lookup given
    | none =>
      cases allocated : answers.allocated with
      | false =>
        have dropped : accepts answers header server = false := by
          simp [accepts, lookup, allocated]
        have same : step common settings server (.request header answers) = server := by
          simp [step, dropped,
            valid_speaker_unallocated common settings answers header server lookup allocated]
        rw [same]
        exact .refused dropped
      | true =>
        have accepted : accepts answers header server = true := by
          simp [accepts, formed, allocated]
        have result := valid_speaker_new common settings answers header
          (note (.announced header.id (supports common settings header)) server)
          formed lookup allocated
        simp only [step, accepted, if_true, result]
        cases support : supports common settings header with
        | false =>
          obtain ⟨timeout, given, record⟩ := new_speaker_unsupported assumed settings answers
            header (note (.announced header.id false) server).host support
          rw [record]
          exact .registered timeout formed lookup allocated support given
        | true =>
          obtain ⟨timeout, given, record⟩ := new_speaker_supported assumed settings answers
            header (note (.announced header.id true) server).host support
          rw [record]
          exact .joined timeout formed lookup allocated support given

/-- One datagram of a push finds no record, refreshes and disconnects it,
disconnects it, or is sent. -/
theorem push_outcome (id : Nat) (package : List UInt8) (result : Int) (server : Server)
    (unique : (ids server.speakers).Nodup) :
    PushOutcome common settings.readFd id package server
      (step common settings server (.push id package result)) := by
  simp only [step, pushSpeaker]
  cases lookup : findSpeakerById server.speakers id with
  | none => exact .absent lookup
  | some sp =>
    have registered : sp ∈ server.speakers := (find_speaker_some server.speakers id sp lookup).1
    cases guarded : unreachable sp with
    | true =>
      have disconnected : serverSppushDisconnect settings.readFd (common.checkOnline sp)
          server.host = serverSppushDisconnect settings.readFd sp server.host := by
        apply disconnect_congr <;> rw [assumed.refreshed]
      simp only [sendto_unreachable common settings.readFd package result sp server.host guarded,
        disconnected]
      rw [assumed.refreshed]
      exact .refreshed sp _ lookup guarded ⟨sp, rfl⟩
    | false =>
      have same : store server.speakers sp = server.speakers :=
        store_self server.speakers sp unique registered
      cases supported : sp.supported with
      | false =>
        simp only [sendto_unsupported common settings.readFd package result sp server.host
          guarded supported, same]
        exact .unsupported sp lookup guarded supported
      | true =>
        simp only [sendto_sent common settings.readFd package result sp server.host
          guarded supported, same]
        exact .sent sp lookup guarded supported

/-- A pass of the monitor rewrites every record and disconnects the due ones. -/
theorem tick_outcome (server : Server) :
    step common settings server .tick =
      { speakers := server.speakers.map (tickRecord common)
        host := disconnectAll settings.readFd (due server.speakers) (server.host.note .tick) } := by
  simp only [step, online_detect_records, online_detect_host assumed]
  rfl

/-- A pass of the monitor keeps the registered ids. -/
theorem tick_ids (speakers : List Speaker) :
    ids (speakers.map (tickRecord common)) = ids speakers :=
  ids_map speakers (tickRecord common) (fun sp => by rw [tick_record assumed])

/-- A pass of the monitor carries over every field but the state and the timeout. -/
theorem tick_carries {α : Type} (field : Speaker → α)
    (apart : ∀ (sp : Speaker) (state : SpeakerStat) (timeout : Int),
      field { sp with timeout := timeout, state := state } = field sp) (speakers : List Speaker) :
    Carries field speakers (speakers.map (tickRecord common)) :=
  carries_map field speakers (tickRecord common) (fun sp => by rw [tick_record assumed])
    (fun sp => by rw [tick_record assumed, apart])

/-- Any other step than an announcement registers no id. -/
theorem other_ids (server : Server) (action : Action)
    (unique : (ids server.speakers).Nodup)
    (apart : ∀ header answers, action ≠ .request header answers) :
    ids (step common settings server action).speakers = ids server.speakers := by
  cases action with
  | request header answers => exact absurd rfl (apart header answers)
  | tick => rw [tick_outcome assumed, tick_ids assumed]
  | push id package result =>
    have outcome := push_outcome assumed settings id package result server unique
    generalize step common settings server (.push id package result) = after
      at outcome ⊢
    cases outcome with
    | refreshed sp timeout known guarded given => exact ids_store _ _
    | absent => rfl
    | unsupported => rfl
    | sent => rfl
  | format => rfl
  | time => rfl
  | openOther => rfl
  | closeOther => rfl

/-- Registered ids stay distinct: an announcement only adds an id that was not
found, and no other step adds or renames a record. -/
theorem unique_step (server : Server) (action : Action)
    (unique : (ids server.speakers).Nodup) :
    (ids (step common settings server action).speakers).Nodup := by
  rcases request_or_other action with ⟨header, answers, rfl⟩ | other
  · have outcome := request_outcome assumed settings answers header server
    generalize step common settings server (.request header answers) = after at outcome ⊢
    cases outcome with
    | refused dropped => exact unique
    | refreshed sp timeout formed known given =>
      rw [ids_store]
      exact unique
    | registered timeout formed unknown allocated unsupported given =>
      exact ids_distinct _ _ _ (assumed.linked _ _)
        ((find_speaker_none server.speakers header.id).mp unknown) unique
    | joined timeout formed unknown allocated supported given =>
      exact ids_distinct _ _ _ (assumed.linked _ _)
        ((find_speaker_none server.speakers header.id).mp unknown) unique
  · rw [other_ids assumed settings server action unique other]
    exact unique

/-- Every step keeps the registered ids registered. -/
theorem step_ids (server : Server) (action : Action) (unique : (ids server.speakers).Nodup) :
    ids server.speakers ⊆ ids (step common settings server action).speakers := by
  rcases request_or_other action with ⟨header, answers, rfl⟩ | other
  · have outcome := request_outcome assumed settings answers header server
    generalize step common settings server (.request header answers) = after at outcome ⊢
    cases outcome with
    | refused => exact List.Subset.refl _
    | refreshed =>
      rw [ids_store]
      exact List.Subset.refl _
    | registered => exact ids_kept _ _ _ (assumed.linked _ _)
    | joined => exact ids_kept _ _ _ (assumed.linked _ _)
  · rw [other_ids assumed settings server action unique other]
    exact List.Subset.refl _

/-- Any other step than an announcement carries over what does not depend on the state and
the timeout of a record. -/
theorem other_carries {α : Type} (field : Speaker → α)
    (apart : ∀ (sp : Speaker) (state : SpeakerStat) (timeout : Int),
      field { sp with timeout := timeout, state := state } = field sp)
    (server : Server) (action : Action) (unique : (ids server.speakers).Nodup)
    (other : ∀ header answers, action ≠ .request header answers) :
    Carries field server.speakers (step common settings server action).speakers := by
  have itself := carries_refl field server.speakers
  cases action with
  | request header answers => exact absurd rfl (other header answers)
  | tick =>
    rw [tick_outcome assumed]
    exact tick_carries assumed field apart server.speakers
  | push id package result =>
    have outcome := push_outcome assumed settings id package result server unique
    generalize step common settings server (.push id package result) = after at outcome ⊢
    cases outcome with
    | absent => exact itself
    | refreshed sp timeout known guarded given =>
      obtain ⟨registered, _⟩ := find_speaker_some server.speakers id sp known
      exact carries_store field server.speakers sp _ registered rfl (apart sp _ _).symm
    | unsupported => exact itself
    | sent => exact itself
  | format => exact itself
  | time => exact itself
  | openOther => exact itself
  | closeOther => exact itself

/-- Every step carries over what does not depend on the support, the state and the timeout
of a record. -/
theorem step_carries {α : Type} (field : Speaker → α)
    (apart : ∀ (sp : Speaker) (supported : Bool) (state : SpeakerStat) (timeout : Int),
      field { sp with supported := supported, state := state, timeout := timeout } = field sp)
    (server : Server) (action : Action) (unique : (ids server.speakers).Nodup) :
    Carries field server.speakers (step common settings server action).speakers := by
  rcases request_or_other action with ⟨header, answers, rfl⟩ | other
  · have outcome := request_outcome assumed settings answers header server
    generalize step common settings server (.request header answers) = after at outcome ⊢
    cases outcome with
    | refused => exact carries_refl field server.speakers
    | refreshed sp timeout formed known given =>
      obtain ⟨registered, _⟩ := find_speaker_some server.speakers header.id sp known
      exact carries_store field server.speakers sp _ registered rfl (apart sp _ _ _).symm
    | registered timeout formed unknown allocated unsupported given =>
      exact carries_linked field server.speakers _ _ (assumed.linked _ _)
        ((find_speaker_none server.speakers header.id).mp unknown)
    | joined timeout formed unknown allocated supported given =>
      exact carries_linked field server.speakers _ _ (assumed.linked _ _)
        ((find_speaker_none server.speakers header.id).mp unknown)
  · exact other_carries assumed settings field
      (fun sp state timeout => apart sp sp.supported state timeout) server action unique other

end Outcomes

/-- A close made by `server_sppush_disconnect`. -/
def IsClose : Event → Prop
  | .closed _ _ _ => True
  | _ => False

/-- A control package handed to `sendto`. -/
def IsControl : Event → Prop
  | .control _ _ _ => True
  | _ => False

/-- A clock reply handed to `sendto`. -/
def IsClock : Event → Prop
  | .control _ (.time _ _) _ => True
  | _ => False

/-- An entry made while a supported new speaker joins. -/
def IsJoin : Event → Prop
  | .opened _ _ | .control _ _ _ | .callback _ => True
  | _ => False

/-- An entry for something the server did, rather than for a call that started a step. -/
def IsEffect : Event → Prop
  | .announced _ _ | .tick | .format _ _ => False
  | _ => True

theorem close_effect (event : Event) (close : IsClose event) : IsEffect event := by
  cases event <;> trivial

theorem control_effect (event : Event) (control : IsControl event) : IsEffect event := by
  cases event <;> trivial

theorem join_effect (event : Event) (join : IsJoin event) : IsEffect event := by
  cases event <;> trivial

/-- Disconnecting adds at most one close to the history. -/
theorem disconnect_adds (readFd : Nat) (sp : Speaker) (host : Host) :
    Adds IsClose host.events (serverSppushDisconnect readFd sp host).events := by
  unfold serverSppushDisconnect
  split
  · exact adds_cons IsClose _ _ trivial
  · exact adds_refl IsClose _

/-- Disconnecting a list of records adds only closes. -/
theorem disconnect_all_adds (readFd : Nat) (speakers : List Speaker) (host : Host) :
    Adds IsClose host.events (disconnectAll readFd speakers host).events := by
  induction speakers generalizing host with
  | nil => exact adds_refl IsClose _
  | cons sp rest inductionHypothesis =>
    exact adds_trans IsClose _ _ _ (disconnect_adds readFd sp host) (inductionHypothesis _)

/-- A format broadcast adds only sample packages. -/
theorem format_adds_samples (kind : Event → Prop)
    (sample : ∀ id bits rate channel result,
      kind (.control id (.sample bits rate channel) result))
    (rate bits : Nat) (results : Nat → Int) (speakers : List Speaker) (host : Host) :
    Adds kind host.events (serverSpctrlFormat rate bits results speakers host).events := by
  induction speakers generalizing host with
  | nil => exact adds_refl kind _
  | cons sp rest inductionHypothesis =>
    rw [format_cons]
    refine adds_trans kind _ _ _ ?_ (inductionHypothesis _)
    split
    · exact adds_cons kind _ _ (sample sp.id bits rate sp.channel (results sp.id))
    · exact adds_refl kind _

/-- A format broadcast adds only control packages. -/
theorem format_adds (rate bits : Nat) (results : Nat → Int) (speakers : List Speaker)
    (host : Host) :
    Adds IsControl host.events (serverSpctrlFormat rate bits results speakers host).events :=
  format_adds_samples IsControl (fun _ _ _ _ _ => trivial) rate bits results speakers host

/-- A clock request adds at most one clock reply. -/
theorem time_adds (speakers : List Speaker) (spid now : Nat) (result : Int) (host : Host) :
    Adds IsClock host.events (spctrlTime speakers spid now result host).events := by
  unfold spctrlTime
  split
  · exact adds_refl IsClock _
  · rw [control_sent]
    split
    · exact adds_cons IsClock _ _ trivial
    · exact adds_refl IsClock _

/-- Joining adds only an opened socket, a sample package and a callback. -/
theorem joined_adds_sample (kind : Event → Prop) (opened : ∀ id fd, kind (.opened id fd))
    (sample : ∀ id bits rate channel result,
      kind (.control id (.sample bits rate channel) result))
    (callback : ∀ id, kind (.callback id))
    (settings : Settings) (answers : Answers) (sp : Speaker) (host : Host) :
    Adds kind host.events (joinedHost settings answers sp host).events := by
  have connected : Adds kind host.events
      (connectedHost settings.readFd answers sp host).events := by
    cases socket : answers.socket <;> cases succeeded : answers.connected <;>
      simp only [connectedHost, openSocket, socket, succeeded]
    · exact adds_refl kind _
    · exact adds_refl kind _
    · exact adds_cons kind _ _ (opened sp.id _)
    · exact adds_cons kind _ _ (opened sp.id _)
  have told : Adds kind host.events (if sp.dport ≠ 0 then
      (connectedHost settings.readFd answers sp host).note (.control sp.id (.sample
        settings.configSpeakerBits settings.configSpeakerRate sp.channel) answers.sendto)
      else connectedHost settings.readFd answers sp host).events := by
    split
    · exact adds_trans kind _ _ _ connected (adds_cons kind _ _ (sample sp.id _ _ _ _))
    · exact connected
  unfold joinedHost
  dsimp only
  split
  · exact adds_trans kind _ _ _ told (adds_cons kind _ _ (callback sp.id))
  · exact told

/-- Joining adds only an opened socket, a control package and a callback. -/
theorem joined_adds (settings : Settings) (answers : Answers) (sp : Speaker) (host : Host) :
    Adds IsJoin host.events (joinedHost settings answers sp host).events :=
  joined_adds_sample IsJoin (fun _ _ => trivial) (fun _ _ _ _ _ => trivial) (fun _ => trivial)
    settings answers sp host

/-- The entries that an action can add to the history. -/
def Makes : Action → Event → Prop
  | .request _ _, .announced _ _ => True
  | .request _ _, .opened _ _ => True
  | .request _ _, .control _ (.sample _ _ _) _ => True
  | .request _ _, .callback _ => True
  | .tick, .tick => True
  | .tick, .closed _ _ _ => True
  | .format _ _ _, .format _ _ => True
  | .format _ _ _, .control _ (.sample _ _ _) _ => True
  | .push _ _ _, .closed _ _ _ => True
  | .push _ _ _, .datagram _ _ _ _ _ => True
  | .time _ _ _, .control _ (.time _ _) _ => True
  | _, _ => False

/-- Every step adds only entries that its action can make. -/
theorem step_adds {common : Common} (assumed : common.Assumed) (settings : Settings)
    (server : Server) (action : Action) (unique : (ids server.speakers).Nodup) :
    Adds (Makes action) server.host.events (step common settings server action).host.events := by
  cases action with
  | request header answers =>
    have outcome := request_outcome assumed settings answers header server
    generalize step common settings server (.request header answers) = after at outcome ⊢
    cases outcome with
    | refused dropped => exact adds_refl _ _
    | refreshed sp timeout formed known given => exact adds_cons _ _ _ trivial
    | registered timeout formed unknown allocated unsupported given =>
      exact adds_cons _ _ _ trivial
    | joined timeout formed unknown allocated supported given =>
      apply adds_trans _ _ _ _ (adds_cons _ (.announced header.id true) _ trivial)
      exact joined_adds_sample _ (fun _ _ => trivial) (fun _ _ _ _ _ => trivial)
        (fun _ => trivial) settings answers _ _
  | tick =>
    rw [tick_outcome assumed]
    apply adds_trans _ _ _ _ (adds_cons _ .tick _ trivial)
    apply adds_weaken IsClose _ _ _ _ (disconnect_all_adds settings.readFd _ _)
    intro event close
    cases event <;> trivial
  | format rate bits results =>
    apply adds_trans _ _ _ _ (adds_cons _ (.format rate bits) _ trivial)
    exact format_adds_samples _ (fun _ _ _ _ _ => trivial) rate bits results _ _
  | push id package result =>
    have closing (sp : Speaker) : Adds (Makes (.push id package result)) server.host.events
        (serverSppushDisconnect settings.readFd sp server.host).events := by
      apply adds_weaken IsClose _ _ _ _ (disconnect_adds settings.readFd sp server.host)
      intro event close
      cases event <;> trivial
    have outcome := push_outcome assumed settings id package result server unique
    generalize step common settings server (.push id package result) = after at outcome ⊢
    cases outcome with
    | absent unknown => exact adds_refl _ _
    | refreshed sp timeout known guarded given => exact closing sp
    | unsupported sp known passed refused => exact closing sp
    | sent sp known passed supported => exact adds_cons _ _ _ trivial
  | time spid now result =>
    apply adds_weaken IsClock _ _ _ _ (time_adds server.speakers spid now result server.host)
    intro event clock
    cases event with
    | control id package result => cases package <;> trivial
    | _ => exact False.elim clock
  | openOther fd => exact adds_refl _ _
  | closeOther fd => exact adds_refl _ _

/-- The events of a supported new speaker, latest first. -/
theorem joined_events (settings : Settings) (answers : Answers) (sp : Speaker) (host : Host) :
    (joinedHost settings answers sp host).events =
      (if settings.detectCb then [.callback sp.id] else []) ++
      (if sp.dport ≠ 0 then [.control sp.id (.sample settings.configSpeakerBits
        settings.configSpeakerRate sp.channel) answers.sendto] else []) ++
      ((answers.socket.map (Event.opened sp.id)).toList ++ host.events) := by
  cases socket : answers.socket <;> cases connected : answers.connected <;>
    cases callback : settings.detectCb <;> by_cases port : sp.dport = 0 <;>
    simp [joinedHost, connectedHost, openSocket, socket, connected, callback, port]

/-- After a supported new speaker only its own number has changed in the table. -/
theorem joined_table (settings : Settings) (answers : Answers) (sp : Speaker) (host : Host) :
    (joinedHost settings answers sp host).table =
      (connectedHost settings.readFd answers sp host).table := by
  cases callback : settings.detectCb <;> by_cases port : sp.dport = 0 <;>
    simp [joinedHost, callback, port]

end Castserver.Service
