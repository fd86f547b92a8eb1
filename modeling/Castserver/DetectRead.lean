import Castserver.Service
import Castserver.Mutex

/-!
# Datagrams on the detect socket

The function `srv_detect_read` answers a probe of another server, and a request of a
speaker that `valid_speaker` accepts. A new speaker without support for the configured
format is registered and refused; the same request is accepted once it is registered.
-/

namespace Castserver.DetectRead

open Speakers Pusher Detect Service

/-- The source of a datagram: the address in a `sockaddr_storage` and its port. -/
structure Source where
  addr : Addr
  port : Nat
deriving DecidableEq, Repr

/-- What `common` and the static variables give to `srv_detect_read`: the size and the
decoding of requests for each address family, the comparison `EQUAL_SOCK_ADDR`, and the
bytes of the response. -/
structure Codec where
  requestSize : Nat → Nat
  decode : Nat → List UInt8 → Request
  equalSockAddr : Source → Addr → Bool
  serverNotifyResp : List UInt8

/-- A datagram sent in reply. -/
structure Reply where
  ip : Addr
  port : Nat
  bytes : List UInt8
deriving DecidableEq, Repr

/-- What one datagram does: the server behind it, the reply that is attempted, if any, and
the return code. -/
structure ReadResult where
  server : Server
  reply : Option Reply
  code : Int

/-- Handle one datagram of the detect socket. The results of `sendto` and of what a new
speaker takes are the environment's. -/
def srvDetectRead (common : Common) (settings : Settings) (codec : Codec) (answers : Answers)
    (sent : Int) (src : Source) (package : List UInt8) (server : Server) : ReadResult :=
  match Mutex.srvDetectRead package with
  | some bytes => ⟨server, some ⟨src.addr, src.port, bytes⟩, 0⟩
  | none =>
    if package.length = codec.requestSize src.addr.type then
      let req := codec.decode src.addr.type package
      if !codec.equalSockAddr src req.addr then ⟨server, none, -1⟩
      else
        let (server, code) := validSpeaker common settings answers req server
        if code ≠ 0 then ⟨server, none, -1⟩
        else
          ⟨server, some ⟨req.addr, 4414, codec.serverNotifyResp⟩, if sent < 0 then -1 else 0⟩
    else ⟨server, none, -1⟩

/-- Refreshing a record that has been refreshed changes nothing, whatever descriptor and
clock the server has written to it since. -/
def Idempotent (common : Common) : Prop :=
  ∀ speaker fd connTime,
    common.checkOnline { common.checkOnline speaker with fd := fd, connTime := connTime } =
      { common.checkOnline speaker with fd := fd, connTime := connTime }

/-- Repeating a request changes nothing: the second run gives the same code, leaves every
record as the first one left it, and the datagram that carries the request is answered
again exactly if it was answered. -/
structure Repeats (common : Common) (settings : Settings) (answers : Answers) (header : Request)
    (server : Server) : Prop where
  code : ∀ second, (validSpeaker common settings second header
      (validSpeaker common settings answers header server).1).2 =
    (validSpeaker common settings answers header server).2
  records : ∀ second, (validSpeaker common settings second header
      (validSpeaker common settings answers header server).1).1.speakers =
    (validSpeaker common settings answers header server).1.speakers
  answered : ∀ codec second sent resent src package,
    codec.decode src.addr.type package = header →
    let first := srvDetectRead common settings codec answers sent src package server
    (srvDetectRead common settings codec second resent src package first.server).reply =
      first.reply

/-- A datagram gets as far as `valid_speaker`: it is no probe, has the size of a request of
its address family, and comes from the address it carries. -/
def Reaches (codec : Codec) (src : Source) (package : List UInt8) : Prop :=
  Mutex.srvDetectRead package = none ∧ package.length = codec.requestSize src.addr.type ∧
    codec.equalSockAddr src (codec.decode src.addr.type package).addr = true

/-- The addresses in a record are those of a request. -/
def Placed (sp : Speaker) (header : Request) : Prop :=
  sp.ip = header.addr ∧ sp.dport = header.dport ∧ sp.mac = header.mac

/-- Everything `valid_speaker` can do to the list of records, with its code. -/
inductive Validated (common : Common) (settings : Settings) (answers : Answers)
    (header : Request) (speakers : List Speaker) : List Speaker → Int → Prop where
  | refused (code : Int) (dropped : wellFormed header = false ∨
        findSpeakerById speakers header.id = none ∧ answers.allocated = false)
      (nonzero : code ≠ 0) : Validated common settings answers header speakers speakers code
  | refreshed (sp : Speaker) (timeout : Int) (formed : wellFormed header = true)
      (known : findSpeakerById speakers header.id = some sp) :
      Validated common settings answers header speakers
        (store speakers { sp with
          supported := supports common settings header
          state := .online
          timeout := timeout }) 0
  | registered (sp : Speaker) (formed : wellFormed header = true)
      (unknown : findSpeakerById speakers header.id = none)
      (allocated : answers.allocated = true) (sameId : sp.id = header.id)
      (placed : Placed sp header) :
      Validated common settings answers header speakers (common.link speakers sp)
        (if supports common settings header then 0 else -1)

section Reading

variable (common : Common) (settings : Settings) (codec : Codec) (answers : Answers) (sent : Int)
  (src : Source) (package : List UInt8) (server : Server)

/-- A datagram that reaches `valid_speaker` leaves its server behind, and has the code zero
if `valid_speaker` and the reply succeed. -/
theorem read_reaching (reaches : Reaches codec src package) :
    (srvDetectRead common settings codec answers sent src package server).server =
      (validSpeaker common settings answers (codec.decode src.addr.type package) server).1 ∧
    ((srvDetectRead common settings codec answers sent src package server).code = 0 ↔
      (validSpeaker common settings answers (codec.decode src.addr.type package) server).2 = 0 ∧
        0 ≤ sent) := by
  obtain ⟨request, size, own⟩ := reaches
  simp only [srvDetectRead, request, if_pos size, own, Bool.not_true, Bool.false_eq_true, if_false]
  by_cases accepted :
      (validSpeaker common settings answers (codec.decode src.addr.type package) server).2 = 0
  · simp [accepted]
  · simp [accepted]

/-- Any other datagram does nothing on the server, and only a probe has the code zero. -/
theorem read_apart (apart : ¬ Reaches codec src package) :
    (srvDetectRead common settings codec answers sent src package server).server = server ∧
    ((srvDetectRead common settings codec answers sent src package server).code = 0 →
      Mutex.srvDetectRead package ≠ none) := by
  unfold srvDetectRead
  cases request : Mutex.srvDetectRead package with
  | some bytes => simp
  | none =>
    by_cases size : package.length = codec.requestSize src.addr.type
    · have foreign : codec.equalSockAddr src (codec.decode src.addr.type package).addr = false := by
        by_contra own
        exact apart ⟨request, size, by simpa using own⟩
      simp [size, foreign]
    · simp [size]

end Reading

section Repetition

variable {common : Common} (assumed : common.Assumed) (idempotent : Idempotent common)
  (settings : Settings)

include assumed in
/-- Refreshing keeps everything but the state and the timeout. -/
theorem refreshed_supported (speaker : Speaker) :
    (common.checkOnline speaker).supported = speaker.supported := by
  rw [assumed.refreshed]

include assumed idempotent in
/-- A record with the support of a request that has been refreshed is left as it is by the
same request. -/
theorem refresh_again (header : Request) (speaker : Speaker) (fd : Int) (connTime : Nat)
    (support : speaker.supported = supports common settings header) :
    refreshSpeaker common settings header
        { common.checkOnline speaker with fd := fd, connTime := connTime } =
      { common.checkOnline speaker with fd := fd, connTime := connTime } := by
  have same : (common.checkOnline speaker).supported = supports common settings header := by
    rw [refreshed_supported assumed, support]
  rw [refreshSpeaker, ← same]
  exact idempotent speaker fd connTime

/-- A record that is the only one with its id is found by it, and writing it back changes
nothing. -/
theorem only_record (speakers : List Speaker) (sp : Speaker) (listed : sp ∈ speakers)
    (only : ∀ other ∈ speakers, other.id = sp.id → other = sp) :
    findSpeakerById speakers sp.id = some sp ∧ store speakers sp = speakers := by
  refine ⟨?_, store_only speakers sp only⟩
  cases lookup : findSpeakerById speakers sp.id with
  | none =>
    exact absurd (id_registered speakers sp listed) ((find_speaker_none speakers sp.id).mp lookup)
  | some found =>
    obtain ⟨member, sameId⟩ := find_speaker_some speakers sp.id found lookup
    rw [only found member sameId]

/-- A connect writes at most the descriptor number of a record. -/
theorem connect_record (readFd : Nat) (answers : Answers) (speaker : Speaker) (host : Host) :
    ∃ fd, (serverSppushConnect readFd answers speaker host).1 = { speaker with fd := fd } := by
  by_cases supported : speaker.supported = true
  · by_cases online : speaker.state = .online
    · obtain ⟨code, connected⟩ := connect_online readFd answers speaker host supported online
      rw [connected]
      exact ⟨_, rfl⟩
    · have refused : serverSppushConnect readFd answers speaker host =
          (speaker, host, .errorSpeaker) := by
        simp [serverSppushConnect, supported, online]
      rw [refused]
      exact ⟨speaker.fd, rfl⟩
  · rw [connect_unsupported readFd answers speaker host (by simpa using supported)]
    exact ⟨speaker.fd, rfl⟩

include assumed in
/-- The record of a new speaker has been refreshed with the support of its request, and
only its descriptor and its clock have been written since. -/
theorem new_record (answers : Answers) (header : Request) (host : Host) :
    ∃ speaker fd connTime, (newSpeaker common settings answers header host).1 =
        { common.checkOnline speaker with fd := fd, connTime := connTime } ∧
      speaker.supported = supports common settings header := by
  let speaker := common.structInitFromHeader
    { common.addSpeaker header.id common.defaultLine common.defaultChannel with
      supported := supports common settings header } header
  have supported : speaker.supported = supports common settings header := by
    simp only [speaker, assumed.copied]
  obtain ⟨fd, connected⟩ := connect_record settings.readFd answers (common.checkOnline speaker) host
  refine ⟨speaker, fd, ?_⟩
  cases support : supports common settings header with
  | false =>
    refine ⟨(common.checkOnline speaker).connTime, ?_, by rw [supported, support]⟩
    simp only [speaker, support] at connected ⊢
    simp only [newSpeaker, support, Bool.not_false, if_true]
    exact connected
  | true =>
    refine ⟨answers.now, ?_, by rw [supported, support]⟩
    simp only [speaker, support] at connected ⊢
    simp only [newSpeaker, support, Bool.not_true, Bool.false_eq_true, if_false]
    rw [connected]
    rfl

include assumed in
/-- The code for a new speaker tells whether it is supported. -/
theorem new_code (answers : Answers) (header : Request) (host : Host) :
    (newSpeaker common settings answers header host).2.2 =
      if supports common settings header then 0 else -1 := by
  cases support : supports common settings header with
  | false =>
    obtain ⟨_, _, outcome⟩ :=
      new_speaker_unsupported assumed settings answers header host support
    rw [outcome]
    rfl
  | true =>
    obtain ⟨_, _, outcome⟩ := new_speaker_supported assumed settings answers header host support
    rw [outcome]
    rfl

include assumed in
/-- The record of a new speaker has the id of its request. -/
theorem new_id (answers : Answers) (header : Request) (host : Host) :
    (newSpeaker common settings answers header host).1.id = header.id := by
  cases support : supports common settings header with
  | false =>
    obtain ⟨_, _, outcome⟩ :=
      new_speaker_unsupported assumed settings answers header host support
    rw [outcome]
    rfl
  | true =>
    obtain ⟨_, _, outcome⟩ := new_speaker_supported assumed settings answers header host support
    rw [outcome]
    rfl

include assumed in
/-- The record of a new speaker has the addresses of its request. -/
theorem new_placed (answers : Answers) (header : Request) (host : Host) :
    Placed (newSpeaker common settings answers header host).1 header := by
  cases support : supports common settings header with
  | false =>
    obtain ⟨_, _, outcome⟩ :=
      new_speaker_unsupported assumed settings answers header host support
    rw [outcome]
    exact ⟨rfl, rfl, rfl⟩
  | true =>
    obtain ⟨_, _, outcome⟩ := new_speaker_supported assumed settings answers header host support
    rw [outcome]
    exact ⟨rfl, rfl, rfl⟩

include assumed in
/-- A request is refused, refreshes the record of its id or registers a new one. -/
theorem valid_speaker_validated (answers : Answers) (header : Request) (server : Server) :
    Validated common settings answers header server.speakers
      (validSpeaker common settings answers header server).1.speakers
      (validSpeaker common settings answers header server).2 := by
  cases formed : wellFormed header with
  | false =>
    rw [valid_speaker_empty common settings answers header server formed]
    exact .refused 1 (Or.inl formed) (by decide)
  | true =>
    cases lookup : findSpeakerById server.speakers header.id with
    | some sp =>
      obtain ⟨timeout, _, record⟩ := refresh_speaker assumed settings header sp
      rw [valid_speaker_known common settings answers header server sp formed lookup, record]
      exact .refreshed sp timeout formed lookup
    | none =>
      cases allocated : answers.allocated with
      | false =>
        have dropped : validSpeaker common settings answers header server = (server, -1) := by
          simp only [wellFormed, Bool.and_eq_true, decide_eq_true_eq] at formed
          unfold validSpeaker
          rw [if_neg (by omega), if_neg (by omega), lookup]
          simp [allocated]
        rw [dropped]
        exact .refused (-1) (Or.inr ⟨lookup, allocated⟩) (by decide)
      | true =>
        rw [valid_speaker_new common settings answers header server formed lookup allocated,
          new_code assumed settings answers header server.host]
        exact .registered _ formed lookup allocated
          (new_id assumed settings answers header server.host)
          (new_placed assumed settings answers header server.host)

include assumed idempotent in
/-- After a request with non-empty masks its speaker has exactly one record, and the same
request leaves it as it is. -/
theorem first_run (answers : Answers) (header : Request) (server : Server)
    (formed : wellFormed header = true) (allocated : answers.allocated = true) :
    ∃ sp ∈ (validSpeaker common settings answers header server).1.speakers,
      sp.id = header.id ∧ refreshSpeaker common settings header sp = sp ∧
      ∀ other ∈ (validSpeaker common settings answers header server).1.speakers,
        other.id = sp.id → other = sp := by
  cases lookup : findSpeakerById server.speakers header.id with
  | some sp =>
    obtain ⟨registered, sameId⟩ := find_speaker_some server.speakers header.id sp lookup
    have again := refresh_again assumed idempotent settings header
      { sp with supported := supports common settings header }
      (refreshSpeaker common settings header sp).fd
      (refreshSpeaker common settings header sp).connTime rfl
    have keptId : (refreshSpeaker common settings header sp).id = sp.id := by
      rw [refreshSpeaker, assumed.refreshed]
    rw [valid_speaker_known common settings answers header server sp formed lookup]
    refine ⟨refreshSpeaker common settings header sp, ?_, keptId.trans sameId, again, ?_⟩
    · apply stored_member
      rw [keptId]
      exact id_registered server.speakers sp registered
    · intro other member same
      rcases (mem_store server.speakers _ other).mp member with ⟨changed, _⟩ | ⟨_, apart⟩
      · exact changed
      · exact absurd same apart
  | none =>
    obtain ⟨speaker, fd, connTime, record, support⟩ :=
      new_record assumed settings answers header server.host
    have again := refresh_again assumed idempotent settings header speaker fd connTime support
    rw [valid_speaker_new common settings answers header server formed lookup allocated]
    rw [← record] at again
    have linked := assumed.linked server.speakers
      (newSpeaker common settings answers header server.host).1
    have newId := new_id assumed settings answers header server.host
    refine ⟨(newSpeaker common settings answers header server.host).1,
      linked.mem_iff.mpr List.mem_cons_self, newId, again, ?_⟩
    intro other member same
    rcases List.mem_cons.mp (linked.mem_iff.mp member) with new | old
    · exact new
    · have registered := id_registered server.speakers other old
      rw [same, newId] at registered
      exact absurd registered ((find_speaker_none server.speakers header.id).mp lookup)

include assumed idempotent in
/-- The second run of a request with non-empty masks has the code zero and changes nothing. -/
theorem second_run (answers second : Answers) (header : Request) (server : Server)
    (formed : wellFormed header = true) (allocated : answers.allocated = true) :
    validSpeaker common settings second header
        (validSpeaker common settings answers header server).1 =
      ((validSpeaker common settings answers header server).1, 0) := by
  obtain ⟨sp, listed, sameId, again, only⟩ :=
    first_run assumed idempotent settings answers header server formed allocated
  obtain ⟨found, written⟩ := only_record _ sp listed only
  rw [sameId] at found
  rw [valid_speaker_known common settings second header _ sp formed found, again, written]

/-- A datagram is answered again as it was, if its request has the same code again. -/
theorem answered_again (codec : Codec) (answers second : Answers) (sent resent : Int)
    (src : Source) (package : List UInt8) (server : Server)
    (same : (validSpeaker common settings second (codec.decode src.addr.type package)
        (validSpeaker common settings answers (codec.decode src.addr.type package) server).1).2 =
      (validSpeaker common settings answers (codec.decode src.addr.type package) server).2) :
    (srvDetectRead common settings codec second resent src package
        (srvDetectRead common settings codec answers sent src package server).server).reply =
      (srvDetectRead common settings codec answers sent src package server).reply := by
  unfold srvDetectRead
  cases Mutex.srvDetectRead package with
  | some bytes => rfl
  | none =>
    by_cases size : package.length = codec.requestSize src.addr.type
    · simp only [if_pos size]
      by_cases own : codec.equalSockAddr src (codec.decode src.addr.type package).addr = true
      · simp only [own, Bool.not_true, Bool.false_eq_true, if_false]
        by_cases accepted : (validSpeaker common settings answers
            (codec.decode src.addr.type package) server).2 = 0
        · simp [accepted, same]
        · simp [accepted, same]
      · simp [own]
    · simp [size]

include assumed idempotent in
/-- Repeating a request changes nothing exactly if it is not the well-formed request of a
new speaker without support for the configured format: such a speaker is refused the
first time and accepted the second time. -/
theorem repeats_iff (answers : Answers) (header : Request) (server : Server)
    (allocated : answers.allocated = true) :
    Repeats common settings answers header server ↔
      ¬ (wellFormed header = true ∧ findSpeakerById server.speakers header.id = none ∧
        supports common settings header = false) := by
  constructor
  · rintro repeats ⟨formed, lookup, unsupported⟩
    have code := repeats.code answers
    rw [second_run assumed idempotent settings answers answers header server formed allocated,
      valid_speaker_new common settings answers header server formed lookup allocated,
      new_code assumed settings answers header server.host, unsupported] at code
    cases code
  · intro spared
    cases formed : wellFormed header with
    | false =>
      have refused (other : Answers) := valid_speaker_empty common settings other
        header server formed
      constructor
      · intro second
        simp only [refused]
      · intro second
        simp only [refused]
      · rintro codec second sent resent src package rfl
        apply answered_again settings codec answers second sent resent src package server
        simp only [refused]
    | true =>
      have again (second : Answers) := second_run assumed idempotent settings answers second header
        server formed allocated
      have zero : (validSpeaker common settings answers header server).2 = 0 := by
        cases lookup : findSpeakerById server.speakers header.id with
        | some sp => rw [valid_speaker_known common settings answers header server sp formed lookup]
        | none =>
          have supported : supports common settings header = true := by
            by_contra unsupported
            exact spared ⟨formed, lookup, by simpa using unsupported⟩
          rw [valid_speaker_new common settings answers header server formed lookup allocated,
            new_code assumed settings answers header server.host, supported]
          rfl
      constructor
      · intro second
        rw [again second, zero]
      · intro second
        rw [again second]
      · rintro codec second sent resent src package rfl
        apply answered_again settings codec answers second sent resent src package server
        rw [again second, zero]

end Repetition

/-- The reference module refreshes idempotently. -/
theorem reference_idempotent (refresh : Int) : Idempotent (Common.reference refresh) :=
  fun _ _ _ => rfl

/-- The reference request can be repeated. -/
theorem reference_repeats :
    Repeats (Common.reference 1) referenceSettings referenceAnswers referenceRequest freshServer ↔
      ¬ (wellFormed referenceRequest = true ∧
        findSpeakerById freshServer.speakers referenceRequest.id = none ∧
        supports (Common.reference 1) referenceSettings referenceRequest = false) :=
  repeats_iff (Common.reference_assumed 1) (reference_idempotent 1) referenceSettings
    referenceAnswers referenceRequest freshServer rfl

/-- A new speaker of another format is refused first and accepted when it asks again. -/
theorem unsupported_speaker_is_accepted_later :
    ¬ Repeats (Common.reference 1) referenceSettings referenceAnswers
      { referenceRequest with bitsMask := 2 } freshServer := by
  intro repeats
  have code := repeats.code referenceAnswers
  revert code
  decide

end Castserver.DetectRead
