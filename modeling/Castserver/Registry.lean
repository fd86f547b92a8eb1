import Castserver.DetectRead
import Mathlib.Data.List.Induction

/-!
# The registry over a run of datagrams

Every record comes from a datagram of the detect socket, and keeps the addresses of that
datagram for good: the branch of `valid_speaker` for a known id refreshes the record and
copies nothing into it. So the addresses of a record are those of its first request, and
they are those of the last accepted one as long as no accepted request differs.
-/

namespace Castserver.Registry

open Speakers Pusher Detect Service DetectRead
open Dispatcher (bytesOf)
open Library.Runs

/-- One datagram for the detect socket, with the answers of its environment. -/
structure Datagram where
  src : Source
  package : List UInt8
  answers : Answers
  sent : Int

/-- The request that a datagram decodes to. -/
def Datagram.request (codec : Codec) (datagram : Datagram) : Request :=
  codec.decode datagram.src.addr.type datagram.package

/-- A datagram for the detect socket, or any other step of the server. -/
inductive Action where
  | detect (datagram : Datagram)
  | other (action : Service.Action)

/-- The server together with the requests that have been accepted, latest first. -/
structure Tracked where
  server : Server
  accepted : List Request

section Machine

variable (common : Common) (settings : Settings) (codec : Codec)

/-- Handle one datagram. A request is accepted if `srv_detect_read` returns zero for it. -/
def detect (registry : Tracked) (datagram : Datagram) : Tracked :=
  let result := srvDetectRead common settings codec datagram.answers datagram.sent datagram.src
    datagram.package registry.server
  { server := result.server
    accepted :=
      if result.code = 0 ∧ Mutex.srvDetectRead datagram.package = none then
        datagram.request codec :: registry.accepted
      else registry.accepted }

/-- What one action does. -/
def step (registry : Tracked) : Action → Tracked
  | .detect datagram => detect common settings codec registry datagram
  | .other action => { registry with server := Service.step common settings registry.server action }

/-- A request only comes as a datagram. -/
def enabled (_ : Tracked) : Action → Prop
  | .other (.request _ _) => False
  | _ => True

/-- The registry as a machine. -/
def machine : Machine Tracked Action where
  enabled := enabled
  step := step common settings codec

end Machine

/-- A registry before its first datagram. -/
structure Fresh (registry : Tracked) : Prop where
  vacant : registry.server.speakers = []
  none : registry.accepted = []

/-- The last accepted request for an id, if there is one. -/
def lastAccepted (id : Nat) (registry : Tracked) : Option Request :=
  registry.accepted.find? fun header => decide (header.id = id)

/-- The record of every id has the addresses of the last accepted request for the id. -/
def Follows (registry : Tracked) : Prop :=
  ∀ id header, lastAccepted id registry = some header →
    ∃ sp, findSpeakerById registry.server.speakers id = some sp ∧ Placed sp header

/-- A request that gets to the record of its id, and whose reply is sent, has the addresses
that are in the record already. -/
def Unmoved (codec : Codec) (registry : Tracked) : Action → Prop
  | .detect datagram => Reaches codec datagram.src datagram.package →
      wellFormed (datagram.request codec) = true → 0 ≤ datagram.sent →
      ∀ sp, findSpeakerById registry.server.speakers (datagram.request codec).id = some sp →
        Placed sp (datagram.request codec)
  | .other _ => True

/-- A datagram that must have no effect: it is a probe, has the wrong size, comes from another
address than the one it carries, or has an empty mask. -/
def Rejected (codec : Codec) (src : Source) (package : List UInt8) : Prop :=
  package = Mutex.probe ∨ package.length ≠ codec.requestSize src.addr.type ∨
    src.addr ≠ (codec.decode src.addr.type package).addr ∨
    (codec.decode src.addr.type package).bitsMask = 0 ∨
    (codec.decode src.addr.type package).rateMask = 0

/-- The records and the host are as before, and only a probe is replied to. -/
def NoEffect (src : Source) (package : List UInt8) (server : Server) (result : ReadResult) :
    Prop :=
  result.server = server ∧
    result.reply =
      if package = Mutex.probe then
        some ⟨src.addr, src.port, (bytesOf Mutex.mutexRsp).take Mutex.mutexRspSize⟩
      else none

/-- One of the datagrams of a run, from the address in a record, has registered its id. -/
def CreatedFrom (machine : Machine Tracked Action) (codec : Codec) (registry : Tracked)
    (actions : List Action) (sp : Speaker) : Prop :=
  ∃ before datagram rest, actions = before ++ .detect datagram :: rest ∧
    sp.id ∉ ids (machine.after registry before).server.speakers ∧
    sp.id ∈ ids (machine.after registry (before ++ [.detect datagram])).server.speakers ∧
    (datagram.request codec).id = sp.id ∧ datagram.src.addr = sp.ip

/-- The addresses in a record. -/
def addresses (sp : Speaker) : Addr × Nat × List UInt8 := (sp.ip, sp.dport, sp.mac)

/-- Records with the same addresses are placed alike. -/
theorem placed_congr (first second : Speaker) (header : Request)
    (same : addresses first = addresses second) :
    Placed first header ↔ Placed second header := by
  obtain ⟨ip, dport, mac⟩ : first.ip = second.ip ∧ first.dport = second.dport ∧
      first.mac = second.mac := by
    simpa [addresses] using same
  rw [Placed, ip, dport, mac, Placed]

/-- Everything a datagram can do to the records and to the list of accepted requests. -/
inductive Detected (common : Common) (settings : Settings) (codec : Codec) (registry : Tracked)
    (datagram : Datagram) : List Speaker → List Request → Prop where
  | ignored (unknown : Reaches codec datagram.src datagram.package →
        wellFormed (datagram.request codec) = true →
        findSpeakerById registry.server.speakers (datagram.request codec).id = none) :
      Detected common settings codec registry datagram registry.server.speakers registry.accepted
  | refreshed (sp : Speaker) (timeout : Int)
      (reaches : Reaches codec datagram.src datagram.package)
      (formed : wellFormed (datagram.request codec) = true)
      (known :
        findSpeakerById registry.server.speakers (datagram.request codec).id = some sp) :
      Detected common settings codec registry datagram
        (store registry.server.speakers { sp with
          supported := supports common settings (datagram.request codec)
          state := .online
          timeout := timeout })
        (if 0 ≤ datagram.sent then datagram.request codec :: registry.accepted
          else registry.accepted)
  | registered (sp : Speaker) (reaches : Reaches codec datagram.src datagram.package)
      (formed : wellFormed (datagram.request codec) = true)
      (unknown : findSpeakerById registry.server.speakers (datagram.request codec).id = none)
      (sameId : sp.id = (datagram.request codec).id)
      (placed : Placed sp (datagram.request codec)) :
      Detected common settings codec registry datagram
        (common.link registry.server.speakers sp)
        (if supports common settings (datagram.request codec) = true ∧ 0 ≤ datagram.sent then
          datagram.request codec :: registry.accepted
        else registry.accepted)

section Steps

variable {common : Common} (assumed : common.Assumed) (settings : Settings) (codec : Codec)

include assumed

/-- A datagram is ignored, refreshes the record of its id or registers a new one. -/
theorem detect_outcome (registry : Tracked) (datagram : Datagram) :
    Detected common settings codec registry datagram
      (detect common settings codec registry datagram).server.speakers
      (detect common settings codec registry datagram).accepted := by
  by_cases reaches : Reaches codec datagram.src datagram.package
  · obtain ⟨behind, zero⟩ := read_reaching common settings codec datagram.answers datagram.sent
      datagram.src datagram.package registry.server reaches
    have validated := valid_speaker_validated assumed settings datagram.answers
      (datagram.request codec) registry.server
    simp only [detect, behind, zero, reaches.1, and_true]
    rw [Datagram.request] at validated
    generalize (validSpeaker common settings datagram.answers
      (codec.decode datagram.src.addr.type datagram.package) registry.server).1.speakers =
        speakers at validated ⊢
    generalize (validSpeaker common settings datagram.answers
      (codec.decode datagram.src.addr.type datagram.package) registry.server).2 =
        code at validated ⊢
    cases validated with
    | refused code dropped nonzero =>
      rw [if_neg fun accepted => nonzero accepted.1]
      apply Detected.ignored
      intro _ formed
      rcases dropped with malformed | ⟨unknown, _⟩
      · exact absurd formed (by simp [Datagram.request, malformed])
      · exact unknown
    | refreshed sp timeout formed known =>
      simp only [true_and]
      exact .refreshed sp timeout reaches formed known
    | registered sp formed unknown allocated sameId placed =>
      have supported : (if supports common settings
            (codec.decode datagram.src.addr.type datagram.package) then (0 : Int) else -1) = 0 ↔
          supports common settings (codec.decode datagram.src.addr.type datagram.package) =
            true := by
        split <;> simp_all
      simp only [supported]
      exact .registered sp reaches formed unknown sameId placed
  · obtain ⟨same, probed⟩ := read_apart common settings codec datagram.answers datagram.sent
      datagram.src datagram.package registry.server reaches
    simp only [detect, same]
    rw [if_neg fun accepted => probed accepted.1 accepted.2]
    exact .ignored fun reached => absurd reached reaches

/-- A datagram leaves the registered ids distinct and registered, and every address that it
finds as it was. -/
theorem detect_keeps (registry : Tracked) (datagram : Datagram)
    (unique : (ids registry.server.speakers).Nodup) :
    (ids (detect common settings codec registry datagram).server.speakers).Nodup ∧
    ids registry.server.speakers ⊆
      ids (detect common settings codec registry datagram).server.speakers ∧
    Carries addresses registry.server.speakers
      (detect common settings codec registry datagram).server.speakers := by
  have outcome := detect_outcome assumed settings codec registry datagram
  generalize (detect common settings codec registry datagram).accepted = accepted at outcome
  generalize (detect common settings codec registry datagram).server.speakers = speakers
    at outcome ⊢
  cases outcome with
  | ignored unknown =>
    exact ⟨unique, List.Subset.refl _, carries_refl addresses registry.server.speakers⟩
  | refreshed sp timeout reaches formed known =>
    obtain ⟨registered, _⟩ := find_speaker_some _ _ sp known
    rw [ids_store]
    exact ⟨unique, List.Subset.refl _,
      carries_store addresses registry.server.speakers sp _ registered rfl rfl⟩
  | registered sp reaches formed unknown sameId placed =>
    have linked := assumed.linked registry.server.speakers sp
    have fresh : sp.id ∉ ids registry.server.speakers :=
      sameId ▸ (find_speaker_none _ _).mp unknown
    constructor
    · exact ids_distinct _ _ sp linked fresh unique
    constructor
    · exact ids_kept _ _ sp linked
    · exact carries_linked addresses _ _ sp linked fresh

/-- Every step leaves the registered ids distinct and registered, and every address that it
finds as it was. -/
theorem step_keeps (registry : Tracked) (action : Action)
    (unique : (ids registry.server.speakers).Nodup) :
    (ids (step common settings codec registry action).server.speakers).Nodup ∧
    ids registry.server.speakers ⊆
      ids (step common settings codec registry action).server.speakers ∧
    Carries addresses registry.server.speakers
      (step common settings codec registry action).server.speakers := by
  cases action with
  | detect datagram => exact detect_keeps assumed settings codec registry datagram unique
  | other action =>
    exact ⟨unique_step assumed settings registry.server action unique,
      step_ids assumed settings registry.server action unique,
      step_carries assumed settings addresses (fun _ _ _ _ => rfl) registry.server action unique⟩

/-- A record that is found before a step is found after it, with the addresses it had. -/
theorem found_after (registry : Tracked) (action : Action)
    (unique : (ids registry.server.speakers).Nodup) (id : Nat) (sp : Speaker)
    (known : findSpeakerById registry.server.speakers id = some sp) :
    ∃ later, findSpeakerById (step common settings codec registry action).server.speakers id =
      some later ∧ addresses later = addresses sp := by
  obtain ⟨uniqueAfter, stays, carries⟩ := step_keeps assumed settings codec registry action unique
  obtain ⟨registered, sameId⟩ := find_speaker_some _ _ sp known
  obtain ⟨later, member, laterId, same⟩ :=
    carries_forward addresses _ _ unique stays carries sp registered
  have found := (find_speaker_iff _ id later uniqueAfter).mpr ⟨member, laterId.trans sameId⟩
  exact ⟨later, found, same⟩

/-- What a step accepts is accepted at a record that has its addresses exactly if the step
meets the condition. A step that accepts nothing meets it. -/
theorem step_accepts (registry : Tracked) (action : Action)
    (unique : (ids registry.server.speakers).Nodup) :
    ((step common settings codec registry action).accepted = registry.accepted ∧
      Unmoved codec registry action) ∨
    ∃ header sp,
      (step common settings codec registry action).accepted = header :: registry.accepted ∧
      findSpeakerById (step common settings codec registry action).server.speakers header.id =
        some sp ∧
      (Placed sp header ↔ Unmoved codec registry action) := by
  cases action with
  | other action => exact Or.inl ⟨rfl, trivial⟩
  | detect datagram =>
    have later := found_after assumed settings codec registry (.detect datagram) unique
      (datagram.request codec).id
    have uniqueAfter := (detect_keeps assumed settings codec registry datagram unique).1
    have outcome := detect_outcome assumed settings codec registry datagram
    simp only [step] at later ⊢
    generalize (detect common settings codec registry datagram).accepted = accepted
      at outcome ⊢
    generalize (detect common settings codec registry datagram).server.speakers = speakers
      at outcome later uniqueAfter ⊢
    cases outcome with
    | ignored unknown =>
      left
      constructor
      · rfl
      · intro reaches formed _ sp known
        rw [unknown reaches formed] at known
        cases known
    | refreshed sp timeout reaches formed known =>
      by_cases answered : 0 ≤ datagram.sent
      · right
        obtain ⟨found, lookup, same⟩ := later sp known
        refine ⟨datagram.request codec, found, by rw [if_pos answered], lookup, ?_⟩
        rw [placed_congr found sp _ same]
        constructor
        · intro placed _ _ _ other otherKnown
          rw [known] at otherKnown
          exact Option.some.inj otherKnown ▸ placed
        · intro unmoved
          exact unmoved reaches formed answered sp known
      · left
        constructor
        · rw [if_neg answered]
        · intro _ _ sent
          exact absurd sent answered
    | registered sp reaches formed unknown sameId placed =>
      have unmoved : Unmoved codec registry (.detect datagram) := by
        intro _ _ _ other known
        rw [unknown] at known
        cases known
      by_cases accepts : supports common settings (datagram.request codec) = true ∧
          0 ≤ datagram.sent
      · right
        have member : sp ∈ common.link registry.server.speakers sp :=
          (assumed.linked registry.server.speakers sp).mem_iff.mpr List.mem_cons_self
        have found := (find_speaker_iff _ _ sp uniqueAfter).mpr ⟨member, sameId⟩
        exact ⟨datagram.request codec, sp, by rw [if_pos accepts], found,
          iff_of_true placed unmoved⟩
      · left
        exact ⟨by rw [if_neg accepts], unmoved⟩

/-- A step leaves the records at the last accepted requests exactly if it meets the
condition. -/
theorem step_follows (registry : Tracked) (action : Action)
    (unique : (ids registry.server.speakers).Nodup) (follows : Follows registry) :
    Follows (step common settings codec registry action) ↔ Unmoved codec registry action := by
  -- the requests accepted before the step are followed after it
  have earlier : ∀ id header, lastAccepted id registry = some header →
      ∃ sp, findSpeakerById (step common settings codec registry action).server.speakers id =
        some sp ∧ Placed sp header := by
    intro id header accepted
    obtain ⟨sp, known, placed⟩ := follows id header accepted
    obtain ⟨later, found, same⟩ :=
      found_after assumed settings codec registry action unique id sp known
    exact ⟨later, found, (placed_congr later sp header same).mpr placed⟩
  rcases step_accepts assumed settings codec registry action unique with
    ⟨same, unmoved⟩ | ⟨header, sp, latest, found, decided⟩
  · apply iff_of_true _ unmoved
    intro id header accepted
    rw [lastAccepted, same] at accepted
    exact earlier id header accepted
  · constructor
    · intro followed
      have accepted : lastAccepted header.id (step common settings codec registry action) =
          some header := by
        simp [lastAccepted, latest]
      obtain ⟨other, lookup, placed⟩ := followed header.id header accepted
      rw [found] at lookup
      exact decided.mp (Option.some.inj lookup ▸ placed)
    · intro unmoved id last accepted
      by_cases same : header.id = id
      · simp only [lastAccepted, latest, List.find?_cons, same, decide_true, Option.some.injEq]
          at accepted
        subst same accepted
        exact ⟨sp, found, decided.mpr unmoved⟩
      · simp only [lastAccepted, latest, List.find?_cons, same, decide_false] at accepted
        exact earlier id last accepted

/-- A record under a new id comes from a datagram that carries its id and its addresses. -/
theorem new_record_origin (registry : Tracked) (action : Action)
    (unique : (ids registry.server.speakers).Nodup) (possible : enabled registry action)
    (sp : Speaker)
    (registered : sp ∈ (step common settings codec registry action).server.speakers)
    (fresh : sp.id ∉ ids registry.server.speakers) :
    ∃ datagram, action = .detect datagram ∧ Reaches codec datagram.src datagram.package ∧
      (datagram.request codec).id = sp.id ∧ Placed sp (datagram.request codec) := by
  have listed := id_registered _ sp registered
  cases action with
  | other action =>
    have apart : ∀ header answers, action ≠ .request header answers := by
      rintro header answers rfl
      exact possible
    rw [step, other_ids assumed settings registry.server action unique apart] at listed
    exact absurd listed fresh
  | detect datagram =>
    have outcome := detect_outcome assumed settings codec registry datagram
    simp only [step] at registered listed
    generalize (detect common settings codec registry datagram).accepted = accepted at outcome
    generalize (detect common settings codec registry datagram).server.speakers = speakers
      at outcome registered listed
    cases outcome with
    | ignored unknown => exact absurd listed fresh
    | refreshed other timeout reaches formed known =>
      rw [ids_store] at listed
      exact absurd listed fresh
    | registered other reaches formed unknown sameId placed =>
      have added : sp = other := by
        have linked := assumed.linked registry.server.speakers other
        rcases List.mem_cons.mp (linked.mem_iff.mp registered) with same | old
        · exact same
        · exact absurd (id_registered _ sp old) fresh
      rw [added]
      exact ⟨datagram, rfl, reaches, sameId.symm, placed⟩

/-- In a run from a server without speakers the records are always at the last accepted
requests exactly if no accepted request moves a known speaker. -/
theorem follows_last_accepted_iff (registry : Tracked) (actions : List Action)
    (fresh : Fresh registry)
    (admissible : (machine common settings codec).Admissible registry actions) :
    (machine common settings codec).Throughout Follows registry actions ↔
      (machine common settings codec).Along (Unmoved codec) registry actions := by
  apply (machine common settings codec).throughout_iff_along Follows
    (fun registry => (ids registry.server.speakers).Nodup) (Unmoved codec)
  · intro registry action unique follows _
    exact step_follows assumed settings codec registry action unique follows
  · intro registry action unique _ _ _
    exact (step_keeps assumed settings codec registry action unique).1
  · rw [fresh.vacant]
    exact List.nodup_nil
  · intro id header accepted
    rw [lastAccepted, fresh.none] at accepted
    cases accepted
  · exact admissible

end Steps

section Rejection

variable {common : Common} (assumed : common.Assumed) (settings : Settings) (codec : Codec)

/-- A rejected datagram has no effect. -/
theorem rejected_inert
    (compares : ∀ src addr, codec.equalSockAddr src addr = true → src.addr = addr)
    (answers : Answers) (sent : Int) (src : Source) (package : List UInt8) (server : Server)
    (rejected : Rejected codec src package) :
    NoEffect src package server
      (srvDetectRead common settings codec answers sent src package server) := by
  have foreign (apart : src.addr ≠ (codec.decode src.addr.type package).addr) :
      codec.equalSockAddr src (codec.decode src.addr.type package).addr = false := by
    by_contra own
    exact apart (compares _ _ (by simpa using own))
  have malformed (empty : (codec.decode src.addr.type package).bitsMask = 0 ∨
      (codec.decode src.addr.type package).rateMask = 0) :
      validSpeaker common settings answers (codec.decode src.addr.type package) server =
        (server, 1) := by
    apply valid_speaker_empty
    rcases empty with bits | rate
    · simp [wellFormed, bits]
    · simp [wellFormed, rate]
  by_cases probe : package = Mutex.probe
  · simp only [NoEffect, srvDetectRead, Mutex.srv_detect_read_probe, if_pos probe, and_self]
  · have guarded : package.length ≠ codec.requestSize src.addr.type ∨
        codec.equalSockAddr src (codec.decode src.addr.type package).addr = false ∨
        validSpeaker common settings answers (codec.decode src.addr.type package) server =
          (server, 1) := by
      rcases rejected with isProbe | size | apart | empty
      · exact absurd isProbe probe
      · exact Or.inl size
      · exact Or.inr (Or.inl (foreign apart))
      · exact Or.inr (Or.inr (malformed empty))
    simp only [NoEffect, srvDetectRead, Mutex.srv_detect_read_probe, if_neg probe]
    by_cases size : package.length = codec.requestSize src.addr.type
    · rw [if_pos size]
      cases own : codec.equalSockAddr src (codec.decode src.addr.type package).addr with
      | false => simp
      | true =>
        rcases guarded with wrong | other | refused
        · exact absurd size wrong
        · rw [own] at other
          cases other
        · simp [refused]
    · rw [if_neg size]
      exact ⟨rfl, rfl⟩

include assumed in
/-- Registered ids stay distinct in a run. -/
theorem unique_after (registry : Tracked) (actions : List Action) (fresh : Fresh registry)
    (admissible : (machine common settings codec).Admissible registry actions) :
    (ids ((machine common settings codec).after registry actions).server.speakers).Nodup := by
  have leads : (machine common settings codec).Leads registry
      ((machine common settings codec).after registry actions) := ⟨actions, admissible, rfl⟩
  apply (machine common settings codec).invariant_rule
    (fun registry => (ids registry.server.speakers).Nodup) _ registry _ _ leads
  · intro registry action unique _
    exact (step_keeps assumed settings codec registry action unique).1
  · rw [fresh.vacant]
    exact List.nodup_nil

include assumed in
/-- Every record of a run was registered by a datagram from the address in the record. -/
theorem record_origin
    (compares : ∀ src addr, codec.equalSockAddr src addr = true → src.addr = addr)
    (registry : Tracked) (actions : List Action) (fresh : Fresh registry)
    (admissible : (machine common settings codec).Admissible registry actions) (sp : Speaker)
    (registered : sp ∈ ((machine common settings codec).after registry actions).server.speakers) :
    CreatedFrom (machine common settings codec) codec registry actions sp := by
  induction actions using List.reverseRecOn generalizing sp with
  | nil =>
    rw [Machine.after, List.foldl_nil, fresh.vacant] at registered
    cases registered
  | append_singleton before action inductionHypothesis =>
    obtain ⟨earlier, possible, _⟩ :=
      ((machine common settings codec).along_append _ registry before [action]).mp admissible
    have unique := unique_after assumed settings codec registry before fresh earlier
    have last : (machine common settings codec).after registry (before ++ [action]) =
        step common settings codec ((machine common settings codec).after registry before)
          action := by
      rw [Machine.after_append]
      rfl
    rw [last] at registered
    obtain ⟨_, _, carries⟩ := step_keeps assumed settings codec _ action unique
    by_cases known : sp.id ∈ ids ((machine common settings codec).after registry
        before).server.speakers
    · obtain ⟨old, listed, sameId, same⟩ :=
        (carries sp registered).resolve_left fun unknown => unknown known
      obtain ⟨start, datagram, rest, split, absent, present, named, source⟩ :=
        inductionHypothesis earlier old listed
      rw [sameId] at absent present named
      refine ⟨start, datagram, rest ++ [action], ?_, absent, present, named, ?_⟩
      · rw [split, List.append_assoc, List.cons_append]
      · rw [source]
        exact congrArg Prod.fst same
    · obtain ⟨datagram, rfl, reaches, sameId, placed⟩ :=
        new_record_origin assumed settings codec _ action unique possible sp registered known
      have source : datagram.src.addr = sp.ip := by
        rw [placed.1]
        exact compares _ _ reaches.2.2
      refine ⟨before, datagram, [], rfl, known, ?_, sameId, source⟩
      rw [last]
      exact id_registered _ sp registered

include assumed in
/-- A rejected datagram has no effect, and so every record of a run was registered by a
datagram from the address in the record. -/
theorem rejected_has_no_effect
    (compares : ∀ src addr, codec.equalSockAddr src addr = true → src.addr = addr) :
    (∀ answers sent src package server, Rejected codec src package →
      NoEffect src package server
        (srvDetectRead common settings codec answers sent src package server)) ∧
    ∀ registry actions, Fresh registry →
      (machine common settings codec).Admissible registry actions →
      ∀ sp ∈ ((machine common settings codec).after registry actions).server.speakers,
        CreatedFrom (machine common settings codec) codec registry actions sp := by
  constructor
  · intro answers sent src package server rejected
    exact rejected_inert settings codec compares answers sent src package server rejected
  · intro registry actions fresh admissible sp registered
    exact record_origin assumed settings codec compares registry actions fresh admissible sp
      registered

end Rejection

/-- A codec for concrete runs: a request has six bytes, and its address is compared with the
source address. -/
def referenceCodec : Codec where
  requestSize := fun _ => 6
  decode := fun family package =>
    { id := (package.getD 0 0).toNat
      mac := [package.getD 1 0]
      addr := ⟨family, [10, 0, 0, package.getD 2 0]⟩
      dport := 4000 + (package.getD 3 0).toNat
      bitsMask := (package.getD 4 0).toNat
      rateMask := (package.getD 5 0).toNat }
  equalSockAddr := fun src addr => decide (src.addr = addr)
  serverNotifyResp := [1, 0]

/-- The fresh server before its first datagram. -/
def freshRegistry : Tracked where
  server := freshServer
  accepted := []

/-- The request of the speaker 7 from an address with this last byte. -/
def referenceDatagram (last : UInt8) : Datagram where
  src := ⟨⟨2, [10, 0, 0, last]⟩, 5000⟩
  package := [7, 1, last, 0, 1, 2]
  answers := referenceAnswers
  sent := 2

/-- Datagrams can always arrive. -/
theorem datagrams_admissible (common : Common) (settings : Settings) (codec : Codec)
    (registry : Tracked) (datagrams : List Datagram) :
    (machine common settings codec).Admissible registry (datagrams.map .detect) := by
  induction datagrams generalizing registry with
  | nil => trivial
  | cons datagram rest inductionHypothesis => exact ⟨trivial, inductionHypothesis _⟩

/-- A speaker that announces itself twice from one address. -/
theorem reference_follows :
    (machine (Common.reference 1) referenceSettings referenceCodec).Throughout Follows
        freshRegistry ([referenceDatagram 7, referenceDatagram 7].map .detect) ↔
      (machine (Common.reference 1) referenceSettings referenceCodec).Along
        (Unmoved referenceCodec) freshRegistry
        ([referenceDatagram 7, referenceDatagram 7].map .detect) :=
  follows_last_accepted_iff (Common.reference_assumed 1) referenceSettings referenceCodec
    freshRegistry _ ⟨rfl, rfl⟩ (datagrams_admissible _ _ _ _ _)

/-- The request of a speaker that has got another address is accepted, and its record keeps
the old one. -/
theorem moved_speaker_keeps_address :
    ¬ (machine (Common.reference 1) referenceSettings referenceCodec).Throughout Follows
        freshRegistry ([referenceDatagram 7, referenceDatagram 8].map .detect) := by
  intro throughout
  have follows := Machine.throughout_end _ Follows freshRegistry _ throughout
  obtain ⟨sp, known, address, _⟩ :=
    follows 7 ((referenceDatagram 8).request referenceCodec) (by decide)
  have kept : (findSpeakerById ((machine (Common.reference 1) referenceSettings
      referenceCodec).after freshRegistry
        ([referenceDatagram 7, referenceDatagram 8].map .detect)).server.speakers 7).map
          Speaker.ip = some ⟨2, [10, 0, 0, 7]⟩ := by
    decide
  rw [known, Option.map_some, address] at kept
  revert kept
  decide

/-- A datagram of the wrong size has no effect, and the record of the speaker 7 comes from the
datagram it sent. -/
theorem reference_rejected :
    NoEffect ⟨⟨2, [10, 0, 0, 7]⟩, 5000⟩ [1, 2, 3] freshServer
      (srvDetectRead (Common.reference 1) referenceSettings referenceCodec referenceAnswers 2
        ⟨⟨2, [10, 0, 0, 7]⟩, 5000⟩ [1, 2, 3] freshServer) ∧
    ∀ sp ∈ ((machine (Common.reference 1) referenceSettings referenceCodec).after freshRegistry
        ([referenceDatagram 7].map .detect)).server.speakers,
      CreatedFrom (machine (Common.reference 1) referenceSettings referenceCodec)
        referenceCodec freshRegistry ([referenceDatagram 7].map .detect) sp := by
  obtain ⟨inert, created⟩ :=
    rejected_has_no_effect (Common.reference_assumed 1) referenceSettings referenceCodec
      fun _ _ equal => of_decide_eq_true equal
  constructor
  · exact inert _ _ _ _ _ (Or.inr (Or.inl (by decide)))
  · exact created _ _ ⟨rfl, rfl⟩ (datagrams_admissible _ _ _ _ _)

end Castserver.Registry
