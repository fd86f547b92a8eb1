import Castserver.Service

/-!
# What keeps a speaker online

A refresh sets a record's timeout to some positive number; every pass of the
monitor counts it down and takes the record offline when it has run out. The
invariant relates the timeout to the number of passes since the speaker's last
accepted announcement. The send path refreshes a record it finds unreachable,
which is not an announcement; a run keeps the relation exactly when no such
refresh follows a monitor pass.
-/

namespace Castserver.Presence

open Speakers Pusher Control Detect Service
open Library.Runs Library.Histories

/-- Count monitor passes since an id's last accepted announcement. -/
def ticksUpdate (id : Nat) : Event → Option Nat → Option Nat
  | .announced other _, ticks => if other = id then some 0 else ticks
  | .tick, ticks => ticks.map (· + 1)
  | _, ticks => ticks

/-- Monitor passes since the last accepted announcement of an id, if any. -/
def ticksSince (id : Nat) (server : Server) : Option Nat :=
  observe (ticksUpdate id) none server.host.events

/-- A registered speaker is online exactly when at most `limit` monitor passes have
happened since its last accepted announcement. -/
def OnlineIffRecent (limit : Nat) (server : Server) : Prop :=
  ∀ sp ∈ server.speakers,
    sp.state = .online ↔ ∃ ticks, ticksSince sp.id server = some ticks ∧ ticks ≤ limit

/-- A datagram for a speaker that the send path finds unreachable comes before any
monitor pass since the speaker's last accepted announcement. -/
def PushBeforeTick (server : Server) : Action → Prop
  | .push id _ _ => ∀ sp, findSpeakerById server.speakers id = some sp →
      unreachable sp = true → ticksSince id server = some 0
  | _ => True

/-- The timeout of a record is the limit less the passes counted for its id, and
it is online as long as that is not negative. -/
def Counted (limit : Nat) (server : Server) (sp : Speaker) : Prop :=
  ∃ ticks, ticksSince sp.id server = some ticks ∧ sp.timeout = (limit : Int) - ticks ∧
    (sp.state = .online ↔ ticks ≤ limit)

/-- The invariant: distinct ids, and every record is counted. -/
structure Invariant (limit : Nat) (server : Server) : Prop where
  unique : (ids server.speakers).Nodup
  counted : ∀ sp ∈ server.speakers, Counted limit server sp

/-- Two servers whose histories differ only in what the server did agree on the passes. -/
theorem ticks_since_adds (id : Nat) (before after : Server)
    (adds : Adds IsEffect before.host.events after.host.events) :
    ticksSince id after = ticksSince id before := by
  refine observe_adds (ticksUpdate id) none IsEffect ?_ _ _ adds
  intro event ticks effect
  cases event <;> first | rfl | exact False.elim effect

/-- A record stays counted while its id's passes, its timeout and its state stay. -/
theorem counted_same (limit : Nat) (before after : Server) (sp : Speaker)
    (same : ticksSince sp.id after = ticksSince sp.id before)
    (counted : Counted limit before sp) : Counted limit after sp := by
  obtain ⟨ticks, seen, rest⟩ := counted
  exact ⟨ticks, same.trans seen, rest⟩

/-- A refreshed record is counted when no pass has been seen since. -/
theorem counted_fresh (limit : Nat) (server : Server) (sp : Speaker)
    (seen : ticksSince sp.id server = some 0) (online : sp.state = .online)
    (full : sp.timeout = limit) : Counted limit server sp :=
  ⟨0, seen, by simp [full], by simp [online]⟩

/-- A datagram makes only effects. -/
theorem push_effects (id : Nat) (package : List UInt8) (result : Int) (event : Event)
    (made : Makes (.push id package result) event) : IsEffect event := by
  cases event <;> trivial

section Steps

variable {common : Common} (assumed : common.Assumed) (settings : Settings) {limit : Nat}

include assumed

/-- Adding a refreshed record keeps the invariant when its id is counted from zero
and every other count stays. -/
theorem linked_counted (before after : Server) (sp : Speaker)
    (counted : ∀ other ∈ before.speakers, Counted limit before other)
    (linked : after.speakers = common.link before.speakers sp)
    (fresh : sp.id ∉ ids before.speakers) (online : sp.state = .online)
    (full : sp.timeout = limit) (own : ticksSince sp.id after = some 0)
    (others : ∀ id, id ≠ sp.id → ticksSince id after = ticksSince id before) :
    ∀ other ∈ after.speakers, Counted limit after other := by
  intro other member
  rw [linked, (assumed.linked _ _).mem_iff] at member
  rcases List.mem_cons.mp member with rfl | old
  · exact counted_fresh limit after other own online full
  · have apart : other.id ≠ sp.id := fun same => fresh (same ▸ List.mem_map_of_mem old)
    exact counted_same limit before after other (others other.id apart) (counted other old)

variable (gives : ∀ timeout, common.Gives timeout → timeout = limit)

include gives

/-- An announcement counts its own id from zero and leaves every other count. -/
theorem request_step (answers : Answers) (header : Request) (server : Server)
    (invariant : Invariant limit server) :
    Invariant limit (step common settings server (.request header answers)) := by
  refine ⟨unique_step assumed settings server _ invariant.unique, ?_⟩
  have own (support : Bool) :
      ticksSince header.id (note (.announced header.id support) server) = some 0 := by
    simp [ticksSince, note, ticksUpdate]
  have others (support : Bool) (id : Nat) (apart : id ≠ header.id) :
      ticksSince id (note (.announced header.id support) server) = ticksSince id server := by
    simp [ticksSince, note, ticksUpdate, apart.symm]
  have outcome := request_outcome assumed settings answers header server
  generalize step common settings server (.request header answers) = after at outcome ⊢
  cases outcome with
  | refused dropped => exact invariant.counted
  | refreshed sp timeout formed known given =>
    obtain ⟨_, sameId⟩ := find_speaker_some server.speakers header.id sp known
    intro other member
    rcases (mem_store _ _ other).mp member with ⟨rfl, _⟩ | ⟨old, different⟩
    · refine counted_fresh limit _ _ ?_ rfl (gives timeout given)
      exact (congrArg (ticksSince · _) sameId).trans (own _)
    · refine counted_same limit server _ other ?_ (invariant.counted other old)
      exact others _ other.id (fun same => different (same.trans sameId.symm))
  | registered timeout formed unknown allocated unsupported given =>
    exact linked_counted assumed server _ (announced common header false timeout)
      invariant.counted rfl ((find_speaker_none _ _).mp unknown) rfl (gives timeout given)
      (own false) (others false)
  | joined timeout formed unknown allocated supported given =>
    have later (id : Nat) : ticksSince id
        { speakers := common.link server.speakers (joined common settings answers header timeout)
          host := joinedHost settings answers (joined common settings answers header timeout)
            (server.host.note (.announced header.id true)) } =
        ticksSince id (note (.announced header.id true) server) :=
      ticks_since_adds id (note (.announced header.id true) server) _
        (adds_weaken IsJoin IsEffect _ _ join_effect (joined_adds settings answers _ _))
    exact linked_counted assumed server _ (joined common settings answers header timeout)
      invariant.counted rfl ((find_speaker_none _ _).mp unknown) rfl (gives timeout given)
      ((later header.id).trans (own true))
      (fun id apart => (later id).trans (others true id apart))

omit gives

/-- A pass of the monitor raises every count by one and takes a record offline
exactly when its count has reached the limit. -/
theorem tick_step (server : Server) (invariant : Invariant limit server) :
    Invariant limit (step common settings server .tick) := by
  refine ⟨unique_step assumed settings server _ invariant.unique, ?_⟩
  rw [tick_outcome assumed]
  intro other member
  obtain ⟨sp, old, rfl⟩ := List.mem_map.mp member
  obtain ⟨ticks, seen, remaining, online⟩ := invariant.counted sp old
  have raised : ticksSince sp.id
      { speakers := server.speakers.map (tickRecord common)
        host := disconnectAll settings.readFd (due server.speakers) (server.host.note .tick) } =
      some (ticks + 1) := by
    rw [ticks_since_adds sp.id (note .tick server) _ (adds_weaken IsClose IsEffect _ _
      close_effect (disconnect_all_adds settings.readFd (due server.speakers) _))]
    have before : observe (ticksUpdate sp.id) none server.host.events = some ticks := seen
    simp [ticksSince, note, ticksUpdate, before]
  rw [tick_record assumed]
  refine ⟨ticks + 1, raised, ?_, ?_⟩
  · show sp.timeout - 1 = (limit : Int) - ((ticks + 1 : Nat) : Int)
    omega
  · by_cases expired : sp.timeout ≤ 0
    · simp only [expired, if_true]
      constructor
      · intro impossible
        cases impossible
      · intro within
        omega
    · simp only [expired, if_false, online]
      omega

/-- A step whose action makes only effects leaves every count of passes. -/
theorem effects_same (server : Server) (action : Action) (unique : (ids server.speakers).Nodup)
    (effects : ∀ event, Makes action event → IsEffect event) (id : Nat) :
    ticksSince id (step common settings server action) = ticksSince id server :=
  ticks_since_adds id server _ (adds_weaken (Makes action) IsEffect _ _ effects
    (step_adds assumed settings server action unique))

include gives

/-- A datagram keeps the invariant if a refresh on its way finds the count at zero. -/
theorem push_step (id : Nat) (package : List UInt8) (result : Int) (server : Server)
    (invariant : Invariant limit server)
    (early : PushBeforeTick server (.push id package result)) :
    Invariant limit (step common settings server (.push id package result)) := by
  refine ⟨unique_step assumed settings server _ invariant.unique, ?_⟩
  have later := effects_same assumed settings server (.push id package result) invariant.unique
    (push_effects id package result)
  have outcome := push_outcome assumed settings id package result server invariant.unique
  generalize step common settings server (.push id package result) = after at outcome later ⊢
  cases outcome with
  | absent unknown => exact invariant.counted
  | refreshed sp timeout known guarded given =>
    obtain ⟨_, sameId⟩ := find_speaker_some server.speakers id sp known
    intro other member
    rcases (mem_store _ _ other).mp member with ⟨rfl, _⟩ | ⟨old, _⟩
    · refine counted_fresh limit _ _ ?_ rfl (gives timeout given)
      rw [later]
      exact sameId ▸ early sp known guarded
    · exact counted_same limit server _ other (later other.id) (invariant.counted other old)
  | unsupported sp known passed refused =>
    intro other member
    exact counted_same limit server _ other (later other.id) (invariant.counted other member)
  | sent sp known passed supported =>
    intro other member
    exact counted_same limit server _ other (later other.id) (invariant.counted other member)

/-- Every step keeps the invariant, a datagram under its condition. -/
theorem invariant_step (server : Server) (action : Action) (invariant : Invariant limit server)
    (early : PushBeforeTick server action) :
    Invariant limit (step common settings server action) := by
  cases action with
  | request header answers =>
    exact request_step assumed settings gives answers header server invariant
  | tick => exact tick_step assumed settings server invariant
  | push id package result =>
    exact push_step assumed settings gives id package result server invariant early
  | format rate bits results =>
    refine ⟨invariant.unique, fun other member =>
      counted_same limit server _ other ?_ (invariant.counted other member)⟩
    exact ticks_since_adds other.id (note (.format rate bits) server) _
      (adds_weaken IsControl IsEffect _ _ control_effect (format_adds rate bits results _ _))
  | time spid now result =>
    refine ⟨invariant.unique, fun other member =>
      counted_same limit server _ other ?_ (invariant.counted other member)⟩
    apply effects_same assumed settings server (.time spid now result) invariant.unique
    intro event made
    cases event <;> trivial
  | openOther fd =>
    exact ⟨invariant.unique, fun other member =>
      counted_same limit server _ other rfl (invariant.counted other member)⟩
  | closeOther fd =>
    exact ⟨invariant.unique, fun other member =>
      counted_same limit server _ other rfl (invariant.counted other member)⟩

omit gives in
/-- An online record stays online through as many passes as its timeout allows,
while its count goes on rising. -/
theorem monitored (passes : Nat) (server : Server) (sp : Speaker) (ticks : Nat)
    (registered : sp ∈ server.speakers) (online : sp.state = .online)
    (remaining : (passes : Int) ≤ sp.timeout) (seen : ticksSince sp.id server = some ticks) :
    ∃ later ∈ ((machine common settings).after server (List.replicate passes .tick)).speakers,
      later.id = sp.id ∧ later.state = .online ∧
      ticksSince sp.id ((machine common settings).after server (List.replicate passes .tick)) =
        some (ticks + passes) := by
  induction passes generalizing server sp ticks with
  | zero => exact ⟨sp, registered, rfl, online, seen⟩
  | succ passes inductionHypothesis =>
    have running : ¬ sp.timeout ≤ 0 := by omega
    have kept : (tickRecord common sp).state = .online := by
      rw [tick_record assumed]
      simp [running, online]
    have lowered : (tickRecord common sp).timeout = sp.timeout - 1 := by
      rw [tick_record assumed]
    have sameId : (tickRecord common sp).id = sp.id := by
      rw [tick_record assumed]
    have outcome := tick_outcome assumed settings server
    have stays : tickRecord common sp ∈ (step common settings server .tick).speakers := by
      rw [outcome]
      exact List.mem_map_of_mem registered
    have raised : ticksSince (tickRecord common sp).id (step common settings server .tick) =
        some (ticks + 1) := by
      rw [outcome, sameId, ticks_since_adds sp.id (note .tick server) _
        (adds_weaken IsClose IsEffect _ _ close_effect
          (disconnect_all_adds settings.readFd (due server.speakers) _))]
      have before : observe (ticksUpdate sp.id) none server.host.events = some ticks := seen
      simp [ticksSince, note, ticksUpdate, before]
    obtain ⟨later, member, sameLater, laterOnline, laterSeen⟩ :=
      inductionHypothesis (step common settings server .tick) (tickRecord common sp) (ticks + 1)
        stays kept (by omega) raised
    refine ⟨later, member, sameLater.trans sameId, laterOnline, ?_⟩
    rw [sameId] at laterSeen
    rw [show ticks + (passes + 1) = ticks + 1 + passes by omega]
    exact laterSeen

/-- A refresh on the send path after a monitor pass keeps its speaker online
longer than its announcement does. -/
theorem late_push_outlasts (id : Nat) (package : List UInt8) (result : Int) (server : Server)
    (invariant : Invariant limit server)
    (late : ¬ PushBeforeTick server (.push id package result)) :
    ∃ passes, ¬ OnlineIffRecent limit ((machine common settings).after
      (step common settings server (.push id package result)) (List.replicate passes .tick)) := by
  simp only [PushBeforeTick, not_forall] at late
  obtain ⟨sp, known, guarded, counted⟩ := late
  obtain ⟨registered, sameId⟩ := find_speaker_some server.speakers id sp known
  obtain ⟨ticks, seen, _, _⟩ := invariant.counted sp registered
  have positive : ticks ≠ 0 := by
    intro zero
    exact counted (by rw [← sameId, seen, zero])
  have unchanged := effects_same assumed settings server (.push id package result)
    invariant.unique (push_effects id package result)
  have outcome := push_outcome assumed settings id package result server invariant.unique
  generalize step common settings server (.push id package result) = after at outcome unchanged ⊢
  cases outcome with
  | absent unknown => cases unknown.symm.trans known
  | unsupported other found passed refused =>
    rw [Option.some.inj (found.symm.trans known), guarded] at passed
    cases passed
  | sent other found passed supported =>
    rw [Option.some.inj (found.symm.trans known), guarded] at passed
    cases passed
  | refreshed other timeout found _ given =>
    obtain rfl := Option.some.inj (found.symm.trans known)
    have stored : { other with state := .online, timeout := timeout } ∈
        store server.speakers { other with state := .online, timeout := timeout } :=
      stored_member _ _ (id_registered server.speakers other registered)
    obtain ⟨later, member, sameLater, online, laterSeen⟩ :=
      monitored assumed settings limit _ { other with state := .online, timeout := timeout } ticks
        stored rfl (Int.le_of_eq (gives timeout given).symm) ((unchanged other.id).trans seen)
    refine ⟨limit, fun recent => ?_⟩
    obtain ⟨count, countSeen, within⟩ := (recent later member).mp online
    rw [sameLater] at countSeen
    have same : count = ticks + limit := Option.some.inj (countSeen.symm.trans laterSeen)
    omega

end Steps

/-- Presence is decided by announcements alone, exactly when no refresh on the
send path comes late: in an admissible run from a booted server, the relation
between being online and the last announcement holds in every state reached, and
however many monitor passes follow, if and only if every datagram for an
unreachable speaker precedes the first pass after its last announcement. -/
theorem online_while_announced (common : Common) (assumed : common.Assumed) (settings : Settings)
    (limit : Nat) (refreshes : ∀ speaker, (common.checkOnline speaker).timeout = limit)
    (server : Server) (booted : Booted settings server) (actions : List Action)
    (admissible : (machine common settings).Admissible server actions) :
    (machine common settings).Throughout (fun reached => ∀ passes, OnlineIffRecent limit
        ((machine common settings).after reached (List.replicate passes .tick))) server actions ↔
      (machine common settings).Along PushBeforeTick server actions := by
  have gives : ∀ timeout, common.Gives timeout → timeout = limit := by
    rintro timeout ⟨speaker, rfl⟩
    exact refreshes speaker
  have lasting (reached : Server) (invariant : Invariant limit reached) (passes : Nat) :
      OnlineIffRecent limit
        ((machine common settings).after reached (List.replicate passes .tick)) := by
    induction passes generalizing reached with
    | zero =>
      intro sp registered
      obtain ⟨ticks, seen, _, online⟩ := invariant.counted sp registered
      rw [online]
      exact ⟨fun within => ⟨ticks, seen, within⟩, fun ⟨count, countSeen, within⟩ =>
        (Option.some.inj (seen.symm.trans countSeen)) ▸ within⟩
    | succ passes inductionHypothesis =>
      exact inductionHypothesis (step common settings reached .tick)
        (tick_step assumed settings reached invariant)
  have initial : Invariant limit server :=
    ⟨by simp [booted.vacant, ids], by simp [booted.vacant]⟩
  apply Machine.throughout_iff_along (machine common settings) _ (Invariant limit)
  · intro reached action invariant _ _
    constructor
    · intro holds
      cases action with
      | push id package result =>
        by_contra late
        obtain ⟨passes, broken⟩ :=
          late_push_outlasts assumed settings gives id package result reached invariant late
        exact broken (holds passes)
      | _ => trivial
    · intro early
      exact lasting _ (invariant_step assumed settings gives reached action invariant early)
  · intro reached action invariant _ _ early
    exact invariant_step assumed settings gives reached action invariant early
  · exact initial
  · exact lasting server initial
  · exact admissible

/-- A run of one announcement and one monitor pass meets the condition, so presence
follows the announcement throughout it. -/
theorem presence_after_announcement :
    (machine (Common.reference 1) referenceSettings).Throughout
      (fun reached => ∀ passes, OnlineIffRecent 1
        ((machine (Common.reference 1) referenceSettings).after reached
          (List.replicate passes .tick)))
      freshServer [.request referenceRequest referenceAnswers, .tick] := by
  exact (online_while_announced (Common.reference 1) (Common.reference_assumed 1)
    referenceSettings 1 (fun _ => rfl) freshServer fresh_booted
    [.request referenceRequest referenceAnswers, .tick] ⟨reference_enabled, trivial, trivial⟩).mpr
    ⟨trivial, trivial, trivial⟩

/-- A speaker whose timeout of one pass has run out is brought back online by a
datagram, two passes after its only announcement. -/
theorem push_revives_expired_speaker :
    (machine (Common.reference 1) referenceSettings).Admissible freshServer
      [.request referenceRequest referenceAnswers, .tick, .tick, .push 7 [] 0] ∧
    ¬ OnlineIffRecent 1 ((machine (Common.reference 1) referenceSettings).after freshServer
      [.request referenceRequest referenceAnswers, .tick, .tick, .push 7 [] 0]) := by
  refine ⟨⟨reference_enabled, trivial, trivial, trivial, trivial⟩, ?_⟩
  intro recent
  obtain ⟨sp, registered, sameId, online⟩ : ∃ sp ∈ ((machine (Common.reference 1)
      referenceSettings).after freshServer [.request referenceRequest referenceAnswers, .tick, .tick,
        .push 7 [] 0]).speakers, sp.id = 7 ∧ sp.state = .online := by decide
  have seen : ticksSince 7 ((machine (Common.reference 1) referenceSettings).after freshServer
      [.request referenceRequest referenceAnswers, .tick, .tick, .push 7 [] 0]) = some 2 := by
    decide
  obtain ⟨count, counted, within⟩ := (recent sp registered).mp online
  rw [sameId, seen] at counted
  have two : 2 = count := Option.some.inj counted
  omega

end Castserver.Presence
