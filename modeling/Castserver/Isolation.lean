import Castserver.Service
import Castserver.Library.Simulations

/-!
# One speaker among many

What the server keeps about a speaker and sends to it is an account: the record, and the
packets with the speaker's id. The life of one account is a machine of its own. The
server with all its speakers is simulated by the lives of their accounts, each driven by
the actions that name its id and by the monitor and the broadcasts. So neither the record of
a speaker nor the packets handed to `sendto` for it tell which others there are, as long as
the calls of the kernel are answered the same, and the order in which different speakers are
served shows only in the order of the list. What becomes of a packet behind `sendto` is not
part of the account: a close of a number that has been given out again shows on the wire.
-/

namespace Castserver.Isolation

open Speakers Pusher Control Detect Service
open Library.Runs Library.Histories Library.Simulations

/-- What the server keeps about one speaker: its record, and the packets handed to `sendto`
for it, latest first. -/
structure Account where
  record : Option Speaker
  sent : List Event

/-- A packet for the speaker with an id. -/
def sentTo (id : Nat) : Event → Bool
  | .control other _ _ => decide (other = id)
  | .datagram other _ _ _ _ => decide (other = id)
  | _ => false

/-- The account of an id in a server. -/
def account (id : Nat) (server : Server) : Account where
  record := findSpeakerById server.speakers id
  sent := server.host.events.filter (sentTo id)

/-- The part of an action that concerns the speaker with an id. Of a broadcast it is the
result of its own packet. -/
def share (id : Nat) : Action → List Action
  | .request header answers => if header.id = id then [.request header answers] else []
  | .tick => [.tick]
  | .format rate bits results => [.format rate bits fun _ => results id]
  | .push other package result => if other = id then [.push other package result] else []
  | .time spid now result => if spid = id then [.time spid now result] else []
  | .openOther _ | .closeOther _ => []

/-- A host without descriptors and without a history. -/
def nowhere : Host := ⟨fun _ => none, []⟩

/-- The packets that welcome a new speaker: the sample format, if it supports the format
and has a data port. -/
def welcome (common : Common) (settings : Settings) (answers : Answers) (header : Request) :
    List Event :=
  if supports common settings header = true ∧ header.dport ≠ 0 then
    [.control header.id (.sample settings.configSpeakerBits settings.configSpeakerRate
      common.defaultChannel) answers.sendto]
  else []

/-- The life of an account under the actions that concern it. -/
def serve (common : Common) (settings : Settings) (account : Account) (action : Action) :
    Account :=
  match action, account.record with
  | .request header answers, none =>
    if wellFormed header && answers.allocated then
      { record := some (newSpeaker common settings answers header nowhere).1
        sent := welcome common settings answers header ++ account.sent }
    else account
  | .request header _, some sp =>
    if wellFormed header then
      { account with record := some (refreshSpeaker common settings header sp) }
    else account
  | .tick, some sp => { account with record := some (tickRecord common sp) }
  | .format rate bits results, some sp =>
    if sp.dport ≠ 0 ∧ sp.state = .online then
      { account with
        sent := .control sp.id (.sample bits rate sp.channel) (results sp.id) :: account.sent }
    else account
  | .push _ package _, some sp =>
    if unreachable sp then { account with record := some (common.checkOnline sp) }
    else if sp.supported then
      { account with sent := .datagram sp.id sp.fd sp.ip sp.dport package :: account.sent }
    else account
  | .time _ now result, some sp =>
    if sp.dport ≠ 0 ∧ sp.state = .online then
      { account with
        sent := .control sp.id (.time now (now - sp.connTime)) result :: account.sent }
    else account
  | _, _ => account

/-- The life of one account as a machine. -/
def life (common : Common) (settings : Settings) : Machine Account Action where
  enabled := fun _ _ => True
  step := serve common settings

/-- An account of a server whose ids are distinct. -/
def Kept (id : Nat) (server : Server) (image : Account) : Prop :=
  (ids server.speakers).Nodup ∧ account id server = image

/-- Additions of no packets for a speaker leave its packets as they are. -/
theorem sent_adds (id : Nat) (kind : Event → Prop) (before after : List Event)
    (adds : Adds kind before after) (silent : ∀ event, kind event → sentTo id event = false) :
    after.filter (sentTo id) = before.filter (sentTo id) := by
  obtain ⟨fresh, rfl, fits⟩ := adds
  have none : fresh.filter (sentTo id) = [] :=
    List.filter_eq_nil_iff.mpr fun event member => by simp [silent event (fits event member)]
  rw [List.filter_append, none, List.nil_append]

/-- A close is no packet. -/
theorem close_unsent (id : Nat) (event : Event) (close : IsClose event) :
    sentTo id event = false := by
  cases event <;> first | rfl | exact False.elim close

/-- An announcement concerns a speaker only as itself, and names it. -/
theorem request_shared (id : Nat) (action : Action) (header : Request) (answers : Answers)
    (member : .request header answers ∈ share id action) :
    action = .request header answers ∧ header.id = id := by
  cases action with
  | request other others =>
    simp only [share] at member
    split at member
    · next named =>
      obtain ⟨rfl, rfl⟩ := Action.request.inj (List.mem_singleton.mp member)
      exact ⟨rfl, named⟩
    · cases member
  | push | time =>
    simp only [share] at member
    split at member
    · cases List.mem_singleton.mp member
    · cases member
  | tick | format => cases List.mem_singleton.mp member
  | openOther | closeOther => cases member

/-- What is found under an id after a record has been written back. -/
theorem find_store (speakers : List Speaker) (changed : Speaker) (id : Nat) :
    findSpeakerById (store speakers changed) id =
      if id = changed.id then (findSpeakerById speakers id).map fun _ => changed
      else findSpeakerById speakers id := by
  by_cases same : id = changed.id
  · rw [if_pos same]
    subst same
    induction speakers with
    | nil => rfl
    | cons speaker rest inductionHypothesis =>
      simp only [findSpeakerById, store, List.map_cons] at inductionHypothesis ⊢
      by_cases found : speaker.id = changed.id
      · simp [found]
      · rw [if_neg found, List.find?_cons_of_neg (by simpa using found),
          List.find?_cons_of_neg (by simpa using found)]
        exact inductionHypothesis
  · rw [if_neg same]
    exact find_store_other speakers changed id same

/-- What is found under an id after a record with a new id has been added. -/
theorem find_linked (before after : List Speaker) (added : Speaker) (id : Nat)
    (linked : after.Perm (added :: before)) (fresh : added.id ∉ ids before)
    (unique : (ids before).Nodup) :
    findSpeakerById after id =
      if id = added.id then some added else findSpeakerById before id := by
  have distinct : (ids after).Nodup := ids_distinct before after added linked fresh unique
  by_cases own : id = added.id
  · rw [if_pos own, find_speaker_iff after id added distinct]
    exact ⟨linked.mem_iff.mpr List.mem_cons_self, own.symm⟩
  · rw [if_neg own]
    cases lookup : findSpeakerById before id with
    | none =>
      rw [find_speaker_none, mem_ids_linked before after added linked]
      rintro (_ | ⟨_, listed⟩)
      · exact own rfl
      · exact (find_speaker_none before id).mp lookup listed
    | some found =>
      obtain ⟨member, sameId⟩ := find_speaker_some before id found lookup
      rw [find_speaker_iff after id found distinct]
      exact ⟨linked.mem_iff.mpr (List.mem_cons_of_mem added member), sameId⟩

/-- What is found under an id after every record has been changed but for its id. -/
theorem find_map (speakers : List Speaker) (change : Speaker → Speaker) (id : Nat)
    (sameId : ∀ speaker, (change speaker).id = speaker.id) :
    findSpeakerById (speakers.map change) id = (findSpeakerById speakers id).map change := by
  rw [findSpeakerById, findSpeakerById, List.find?_map]
  congr 1
  apply congrArg (List.find? · speakers)
  funext speaker
  simp [sameId]

/-- The record of a new speaker does not depend on the host. -/
theorem new_speaker_record (common : Common) (settings : Settings) (answers : Answers)
    (header : Request) (host : Host) :
    (newSpeaker common settings answers header host).1 =
      (newSpeaker common settings answers header nowhere).1 := by
  have connected (sp : Speaker) : (serverSppushConnect settings.readFd answers sp host).1 =
      (serverSppushConnect settings.readFd answers sp nowhere).1 := by
    unfold serverSppushConnect openSocket
    cases answers.socket <;> cases answers.connected <;> split <;> first
      | rfl
      | (split <;> rfl)
  simp only [newSpeaker, connected]
  split <;> rfl

section Steps

variable {common : Common} (assumed : common.Assumed) (settings : Settings)

include assumed

/-- A new speaker has the id of its request and is sent its welcome. -/
theorem new_speaker_sent (answers : Answers) (header : Request) (host : Host) (id : Nat) :
    (newSpeaker common settings answers header host).1.id = header.id ∧
      (newSpeaker common settings answers header host).2.1.events.filter (sentTo id) =
        (if header.id = id then welcome common settings answers header else []) ++
          host.events.filter (sentTo id) := by
  cases support : supports common settings header with
  | false =>
    obtain ⟨timeout, _, outcome⟩ :=
      new_speaker_unsupported assumed settings answers header host support
    rw [outcome]
    exact ⟨rfl, by simp [welcome, support]⟩
  | true =>
    obtain ⟨timeout, _, outcome⟩ :=
      new_speaker_supported assumed settings answers header host support
    rw [outcome]
    refine ⟨rfl, ?_⟩
    simp only [joined_events, List.filter_append]
    have called : (if settings.detectCb then
        [Event.callback (joined common settings answers header timeout).id] else []).filter
          (sentTo id) = [] := by
      split <;> rfl
    have opened : ((answers.socket.map
        (Event.opened (joined common settings answers header timeout).id)).toList).filter
          (sentTo id) = [] := by
      cases answers.socket <;> rfl
    rw [called, opened, List.nil_append, List.nil_append]
    congr 1
    by_cases port : header.dport = 0
    · simp [joined, announced, welcome, port]
    · by_cases own : header.id = id <;>
        simp [joined, announced, Speaker.zero, welcome, support, port, own, sentTo]

/-- An announcement acts on the account of its id and on no other. -/
theorem request_account (header : Request) (answers : Answers) (server : Server) (id : Nat)
    (unique : (ids server.speakers).Nodup) :
    account id (step common settings server (.request header answers)) =
      (share id (.request header answers)).foldl (serve common settings) (account id server) := by
  have entered : account id (if accepts answers header server then
      note (.announced header.id (supports common settings header)) server else server) =
        account id server := by
    split <;> rfl
  cases formed : wellFormed header with
  | false =>
    have idle : serve common settings (account id server) (.request header answers) =
        account id server := by
      cases found : (account id server).record <;> simp [serve, found, formed]
    rw [step, valid_speaker_refused common settings answers header _ formed, entered, share]
    split
    · exact idle.symm
    · rfl
  | true =>
    cases lookup : findSpeakerById server.speakers header.id with
    | some sp =>
      have accepted : accepts answers header server = true := by simp [accepts, formed, lookup]
      obtain ⟨_, sameId⟩ := find_speaker_some server.speakers header.id sp lookup
      have keptId : (refreshSpeaker common settings header sp).id = header.id := by
        obtain ⟨_, _, record⟩ := refresh_speaker assumed settings header sp
        rw [record]
        exact sameId
      have result := valid_speaker_known common settings answers header
        (note (.announced header.id (supports common settings header)) server) sp formed lookup
      simp only [step, accepted, if_true, result, share]
      simp only [account, note, find_store, keptId]
      by_cases own : header.id = id
      · subst own
        simp [serve, formed, lookup, sentTo]
      · simp [own, Ne.symm own, sentTo]
    | none =>
      cases allocated : answers.allocated with
      | false =>
        rw [step, valid_speaker_unallocated common settings answers header _
          (by rw [← lookup]; split <;> rfl) allocated, entered, share]
        split
        · next own =>
          subst own
          simp [serve, account, lookup, allocated]
        · rfl
      | true =>
        have accepted : accepts answers header server = true := by
          simp [accepts, formed, allocated]
        obtain ⟨sameId, sent⟩ := new_speaker_sent assumed settings answers header
          (note (.announced header.id (supports common settings header)) server).host id
        have fresh := (find_speaker_none server.speakers header.id).mp lookup
        rw [← sameId] at fresh
        have found := find_linked server.speakers _ _ id (assumed.linked server.speakers _) fresh
          unique
        simp only [sameId] at found
        have result := valid_speaker_new common settings answers header
          (note (.announced header.id (supports common settings header)) server)
          formed lookup allocated
        simp only [step, accepted, if_true, result, share]
        simp only [account, note] at found sent ⊢
        rw [found, sent]
        by_cases own : header.id = id
        · subst own
          rw [new_speaker_record]
          simp [serve, formed, lookup, allocated, sentTo]
        · simp [own, Ne.symm own, sentTo]

/-- A pass of the monitor acts on every account by itself. -/
theorem tick_account (server : Server) (id : Nat) :
    account id (step common settings server .tick) =
      serve common settings (account id server) .tick := by
  have sameId : ∀ speaker : Speaker, (tickRecord common speaker).id = speaker.id := by
    intro speaker
    rw [tick_record assumed]
  have sent := sent_adds id IsClose (server.host.note .tick).events _
    (disconnect_all_adds settings.readFd (due server.speakers) (server.host.note .tick))
    (close_unsent id)
  rw [tick_outcome assumed]
  simp only [account, find_map server.speakers (tickRecord common) id sameId, sent]
  cases lookup : findSpeakerById server.speakers id <;> simp [serve, sentTo]

omit assumed in
/-- The packets of a broadcast for one speaker. -/
theorem format_sent (rate bits : Nat) (results : Nat → Int) (speakers : List Speaker)
    (host : Host) (id : Nat) (unique : (ids speakers).Nodup) :
    (serverSpctrlFormat rate bits results speakers host).events.filter (sentTo id) =
      (match findSpeakerById speakers id with
        | some sp => if sp.dport ≠ 0 ∧ sp.state = .online then
            [.control sp.id (.sample bits rate sp.channel) (results sp.id)] else []
        | none => []) ++ host.events.filter (sentTo id) := by
  induction speakers generalizing host with
  | nil => rfl
  | cons speaker rest inductionHypothesis =>
    have split := List.nodup_cons.mp unique
    rw [format_cons, inductionHypothesis _ split.2]
    by_cases own : speaker.id = id
    · subst own
      have absent : findSpeakerById rest speaker.id = none :=
        (find_speaker_none rest speaker.id).mpr split.1
      have present : findSpeakerById (speaker :: rest) speaker.id = some speaker := by
        simp [findSpeakerById]
      rw [absent, present]
      by_cases told : speaker.dport ≠ 0 ∧ speaker.state = .online
      · simp [told, sentTo]
      · simp only [if_neg told, List.nil_append]
    · have skipped : findSpeakerById (speaker :: rest) id = findSpeakerById rest id := by
        simp [findSpeakerById, own]
      rw [skipped]
      congr 1
      split
      · simp [sentTo, own]
      · rfl

omit assumed in
/-- A broadcast adds to every account the packet for its record. -/
theorem format_account (rate bits : Nat) (results : Nat → Int) (server : Server) (id : Nat)
    (unique : (ids server.speakers).Nodup) :
    account id (step common settings server (.format rate bits results)) =
      serve common settings (account id server) (.format rate bits fun _ => results id) := by
  simp only [step, account, serverSpctrlSetFormat]
  rw [format_sent rate bits results server.speakers _ id unique]
  cases lookup : findSpeakerById server.speakers id with
  | none => simp [serve, sentTo]
  | some sp =>
    obtain ⟨_, rfl⟩ := find_speaker_some server.speakers id sp lookup
    by_cases told : sp.dport ≠ 0 ∧ sp.state = .online
    · simp [serve, told, sentTo]
    · simp only [serve, if_neg told]
      rfl

/-- A datagram of a push acts on the account of its id and on no other. -/
theorem push_account (other : Nat) (package : List UInt8) (result : Int) (server : Server)
    (id : Nat) (unique : (ids server.speakers).Nodup) :
    account id (step common settings server (.push other package result)) =
      (share id (.push other package result)).foldl (serve common settings)
        (account id server) := by
  have closed (sp : Speaker) :
      (serverSppushDisconnect settings.readFd sp server.host).events.filter (sentTo id) =
        server.host.events.filter (sentTo id) :=
    sent_adds id IsClose _ _ (disconnect_adds settings.readFd sp server.host) (close_unsent id)
  cases lookup : findSpeakerById server.speakers other with
  | none =>
    have idle : step common settings server (.push other package result) = server := by
      simp [step, pushSpeaker, lookup]
    rw [idle, share]
    by_cases own : other = id
    · subst own
      simp [serve, account, lookup]
    · simp [own]
  | some sp =>
    obtain ⟨registered, sameId⟩ := find_speaker_some server.speakers other sp lookup
    have refreshedId : (common.checkOnline sp).id = other := by
      rw [assumed.refreshed]
      exact sameId
    have same : store server.speakers sp = server.speakers :=
      store_self server.speakers sp unique registered
    simp only [step, pushSpeaker, lookup, share]
    cases guarded : unreachable sp with
    | true =>
      rw [sendto_unreachable common settings.readFd package result sp server.host guarded]
      simp only [account, find_store, refreshedId]
      rw [disconnect_congr settings.readFd (common.checkOnline sp) sp server.host
        (by rw [assumed.refreshed]) (by rw [assumed.refreshed]), closed]
      by_cases own : other = id
      · subst own
        simp [serve, lookup, guarded]
      · simp [own, Ne.symm own]
    | false =>
      cases supported : sp.supported with
      | false =>
        rw [sendto_unsupported common settings.readFd package result sp server.host guarded
          supported]
        simp only [account, same, closed]
        by_cases own : other = id
        · subst own
          simp [serve, lookup, guarded, supported]
        · simp [own]
      | true =>
        rw [sendto_sent common settings.readFd package result sp server.host guarded supported]
        simp only [account, same, Host.note_events]
        by_cases own : other = id
        · subst own
          simp [serve, lookup, guarded, supported, sentTo, sameId]
        · simp [own, sentTo, sameId]

omit assumed in
/-- A clock request acts on the account of its id and on no other. -/
theorem time_account (spid now : Nat) (result : Int) (server : Server) (id : Nat) :
    account id (step common settings server (.time spid now result)) =
      (share id (.time spid now result)).foldl (serve common settings) (account id server) := by
  simp only [step, account, spctrlTime, share]
  cases lookup : findSpeakerById server.speakers spid with
  | none =>
    by_cases own : spid = id
    · subst own
      simp [serve, lookup]
    · simp [own]
  | some sp =>
    obtain ⟨_, sameId⟩ := find_speaker_some server.speakers spid sp lookup
    simp only [control_sent]
    by_cases told : sp.dport ≠ 0 ∧ sp.state = .online
    · by_cases own : spid = id
      · subst own
        simp [serve, lookup, told, sentTo, sameId]
      · simp [told, own, sentTo, sameId]
    · simp only [if_neg told]
      by_cases own : spid = id
      · subst own
        simp only [if_true, List.foldl_cons, List.foldl_nil, serve, lookup, if_neg told]
      · simp [own]

/-- Every step acts on an account by the share of its action. -/
theorem account_step (server : Server) (action : Action) (id : Nat)
    (unique : (ids server.speakers).Nodup) :
    account id (step common settings server action) =
      (share id action).foldl (serve common settings) (account id server) := by
  cases action with
  | request header answers =>
    exact request_account assumed settings header answers server id unique
  | tick => exact tick_account assumed settings server id
  | format rate bits results => exact format_account settings rate bits results server id unique
  | push other package result =>
    exact push_account assumed settings other package result server id unique
  | time spid now result => exact time_account settings spid now result server id
  | openOther => rfl
  | closeOther => rfl

/-- The server is simulated by the life of every account. -/
theorem life_simulates (id : Nat) :
    Simulates (unguarded (machine common settings)) (life common settings)
      (fun _ action => share id action) (Kept id) := by
  constructor
  rintro server action image ⟨unique, rfl⟩ _
  refine ⟨unguarded_admissible (fun _ _ => trivial) _ _,
    unique_step assumed settings server action unique, ?_⟩
  exact account_step assumed settings server action id unique

/-- After any run an account is what its life makes of the shares of the actions. -/
theorem account_after (server : Server) (actions : List Action) (id : Nat)
    (unique : (ids server.speakers).Nodup) :
    account id ((machine common settings).after server actions) =
      (life common settings).after (account id server) (actions.flatMap (share id)) := by
  have simulated := simulation_rule _ _ _ _ (life_simulates assumed settings id) server
    (account id server) actions ⟨unique, rfl⟩ (unguarded_admissible (fun _ _ => trivial) _ _)
  rw [trace_stateless] at simulated
  exact simulated.2.2

/-- Two servers with the same account of a speaker, after runs whose actions have the same
shares for it, still have the same account of it: nothing that concerns other speakers
changes its record or what is sent to it. -/
theorem speaker_isolated (id : Nat) (first second : Server) (firstRun secondRun : List Action)
    (firstUnique : (ids first.speakers).Nodup) (secondUnique : (ids second.speakers).Nodup)
    (same : account id first = account id second)
    (alike : firstRun.flatMap (share id) = secondRun.flatMap (share id)) :
    account id ((machine common settings).after first firstRun) =
      account id ((machine common settings).after second secondRun) := by
  rw [account_after assumed settings first firstRun id firstUnique,
    account_after assumed settings second secondRun id secondUnique, same, alike]

/-- Registered ids are distinct after every run. -/
theorem unique_run (server : Server) (actions : List Action)
    (unique : (ids server.speakers).Nodup) :
    (ids ((machine common settings).after server actions).speakers).Nodup := by
  induction actions generalizing server with
  | nil => exact unique
  | cons action rest inductionHypothesis =>
    exact inductionHypothesis (step common settings server action)
      (unique_step assumed settings server action unique)

omit assumed in
/-- Records with distinct ids are determined by what is found under each id. -/
theorem perm_of_found (first second : List Speaker) (firstUnique : (ids first).Nodup)
    (secondUnique : (ids second).Nodup)
    (same : ∀ id, findSpeakerById first id = findSpeakerById second id) :
    first.Perm second := by
  rw [List.perm_ext_iff_of_nodup (List.Nodup.of_map _ firstUnique)
    (List.Nodup.of_map _ secondUnique)]
  intro speaker
  have inFirst := find_speaker_iff first speaker.id speaker firstUnique
  have inSecond := find_speaker_iff second speaker.id speaker secondUnique
  rw [same speaker.id, inSecond] at inFirst
  simpa using inFirst.symm

/-- The order in which different speakers are served shows only in the order of the list:
two runs of a server whose actions have the same shares for every id end with the same
records, and have sent the same packets to every speaker. -/
theorem service_order_free (server : Server) (first second : List Action)
    (unique : (ids server.speakers).Nodup)
    (alike : ∀ id, first.flatMap (share id) = second.flatMap (share id)) :
    ((machine common settings).after server first).speakers.Perm
        ((machine common settings).after server second).speakers ∧
      ∀ id, ((machine common settings).after server first).host.events.filter (sentTo id) =
        ((machine common settings).after server second).host.events.filter (sentTo id) := by
  have same (id : Nat) : account id ((machine common settings).after server first) =
      account id ((machine common settings).after server second) := by
    rw [account_after assumed settings server first id unique,
      account_after assumed settings server second id unique, alike id]
  constructor
  · apply perm_of_found _ _ (unique_run assumed settings server first unique)
      (unique_run assumed settings server second unique)
    intro id
    exact congrArg Account.record (same id)
  · intro id
    exact congrArg Account.sent (same id)

end Steps

/-- An announcement of another speaker. -/
def otherRequest : Request := { referenceRequest with id := 8 }

/-- Answers for the other speaker, whose socket cannot be opened. -/
def otherAnswers : Answers := { referenceAnswers with socket := none }

/-- A speaker does not notice that another one has announced itself. -/
theorem other_speaker_unnoticed :
    account 7 ((machine (Common.reference 1) referenceSettings).after freshServer
        [.request otherRequest otherAnswers, .request referenceRequest referenceAnswers, .tick]) =
      account 7 ((machine (Common.reference 1) referenceSettings).after freshServer
        [.request referenceRequest referenceAnswers, .push 8 [] 0, .tick]) :=
  speaker_isolated (Common.reference_assumed 1) referenceSettings 7 freshServer freshServer _ _
    List.nodup_nil List.nodup_nil rfl rfl

/-- Two speakers may announce themselves in either order. -/
theorem announcements_commute :
    ((machine (Common.reference 1) referenceSettings).after freshServer
        [.request referenceRequest referenceAnswers, .request otherRequest otherAnswers]
      ).speakers.Perm
      ((machine (Common.reference 1) referenceSettings).after freshServer
        [.request otherRequest otherAnswers, .request referenceRequest referenceAnswers]
      ).speakers :=
  (service_order_free (Common.reference_assumed 1) referenceSettings freshServer
    [.request referenceRequest referenceAnswers, .request otherRequest otherAnswers]
    [.request otherRequest otherAnswers, .request referenceRequest referenceAnswers]
    List.nodup_nil (by
      intro id
      by_cases seven : 7 = id
      · subst seven
        rfl
      · simp [share, referenceRequest, otherRequest, seven])).1

end Castserver.Isolation
