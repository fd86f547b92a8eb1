import Castserver.Playing
import Castserver.Isolation
import Castserver.Presence
import Castserver.Reach

/-!
# An audience that announces itself in time

A refreshed record lasts for a number of passes of the monitor. For one speaker, all that
the commands play is handed to `sendto` exactly if no datagram for it comes more passes than
that after its last announcement, whatever happens to the others. If every speaker announces
itself before its passes are used up, no record goes offline and no descriptor is closed,
and every datagram is handed to the socket that is connected to its speaker. An announcement
and a pass of the monitor are one step each, as in `Threads`.
-/

namespace Castserver.Audience

open Speakers Pusher Control Detect Service DetectRead Isolation Playing Threads
open Presence (ticksSince)
open Library.Runs Library.Histories Library.Simulations

/-- Passes of the monitor since the last announcement of an id, by the actions alone. -/
def passes (id ticks : Nat) : Service.Action → Nat
  | .request header _ => if header.id = id ∧ wellFormed header = true then 0 else ticks
  | .tick => ticks + 1
  | _ => ticks

/-- A watch that counts these passes. -/
def watch (id : Nat) : Machine Nat Service.Action where
  enabled := fun _ _ => True
  step := passes id

/-- What is pushed to the id comes at most `limit` passes after its last announcement. -/
def InTime (limit id ticks : Nat) (action : Service.Action) : Prop :=
  ∀ package result, action = .push id package result → ticks ≤ limit

/-- An announcement of the id supports the configured format. -/
def Supporting (common : Common) (settings : Settings) (id : Nat) (action : Service.Action) :
    Prop :=
  ∀ header answers, action = .request header answers → header.id = id →
    wellFormed header = true → supports common settings header = true

/-- A record that can be sent to until its passes are used up. -/
structure Lasts (limit ticks : Nat) (sp : Speaker) : Prop where
  supported : sp.supported = true
  socket : 0 < sp.fd
  port : sp.dport ≠ 0
  remaining : sp.timeout = (limit : Int) - ticks
  online : sp.state = .online ↔ ticks ≤ limit

/-- The record of the id can be sent to until its passes are used up. -/
def Listening (limit id : Nat) (server : Server) (ticks : Nat) : Prop :=
  (ids server.speakers).Nodup ∧
    ∃ sp, (account id server).record = some sp ∧ Lasts limit ticks sp

/-- Such a record is unreachable exactly if its passes are used up. -/
theorem lasts_unreachable (limit ticks : Nat) (sp : Speaker) (lasts : Lasts limit ticks sp) :
    unreachable sp = false ↔ ticks ≤ limit := by
  rw [← lasts.online]
  simp [unreachable, lasts.port, lasts.socket]

section Speaker

variable {common : Common} (assumed : common.Assumed) (settings : Settings) {limit : Nat}
  (refreshes : ∀ speaker, (common.checkOnline speaker).timeout = limit)

include assumed refreshes

/-- An action that concerns the speaker leaves its record lasting for the passes that are
left, if its announcements support the format and its datagrams are in time. -/
theorem serve_lasts (id ticks : Nat) (image : Account) (sp : Speaker) (action : Service.Action)
    (recorded : image.record = some sp) (lasts : Lasts limit ticks sp)
    (supporting : Supporting common settings id action) (inTime : InTime limit id ticks action) :
    ∃ later, ((share id action).foldl (serve common settings) image).record = some later ∧
      Lasts limit (passes id ticks action) later := by
  cases action with
  | request header answers =>
    by_cases own : header.id = id
    · cases formed : wellFormed header with
      | false => exact ⟨sp, by simp [share, own, serve, recorded, formed],
          by simpa [passes, formed] using lasts⟩
      | true =>
        refine ⟨refreshSpeaker common settings header sp,
          by simp [share, own, serve, recorded, formed], ?_⟩
        rw [refreshSpeaker, assumed.refreshed, refreshes]
        simp only [passes, own, formed, and_self, if_true]
        exact ⟨supporting header answers rfl own formed, lasts.socket, lasts.port,
          by simp, by simp⟩
    · exact ⟨sp, by simp [share, own, recorded], by simpa [passes, own] using lasts⟩
  | tick =>
    refine ⟨tickRecord common sp, by simp [share, serve, recorded], ?_⟩
    rw [tick_record assumed]
    refine ⟨lasts.supported, lasts.socket, lasts.port, ?_, ?_⟩
    · simp only [passes, lasts.remaining]
      omega
    · have online := lasts.online
      have remaining := lasts.remaining
      simp only [passes]
      split
      · simp only [reduceCtorEq, false_iff]
        omega
      · rw [online]
        omega
  | push other package result =>
    by_cases own : other = id
    · subst own
      have reachable : unreachable sp = false :=
        (lasts_unreachable limit ticks sp lasts).mpr (inTime package result rfl)
      exact ⟨sp, by simp [share, serve, recorded, reachable, lasts.supported], lasts⟩
    · exact ⟨sp, by simp [share, own, recorded], lasts⟩
  | format rate bits results =>
    refine ⟨sp, ?_, lasts⟩
    simp only [share, List.foldl_cons, List.foldl_nil, serve, recorded]
    split
    · rfl
    · exact recorded
  | time spid now result =>
    refine ⟨sp, ?_, lasts⟩
    simp only [share]
    split
    · simp only [List.foldl_cons, List.foldl_nil, serve, recorded]
      split
      · rfl
      · exact recorded
    · exact recorded
  | openOther fd => exact ⟨sp, recorded, lasts⟩
  | closeOther fd => exact ⟨sp, recorded, lasts⟩

/-- A step under these conditions keeps the speaker listening. -/
theorem step_listening (id : Nat) (server : Server) (ticks : Nat) (action : Service.Action)
    (listening : Listening limit id server ticks)
    (supporting : Supporting common settings id action) (inTime : InTime limit id ticks action) :
    Listening limit id (step common settings server action) (passes id ticks action) := by
  obtain ⟨unique, sp, recorded, lasts⟩ := listening
  refine ⟨unique_step assumed settings server action unique, ?_⟩
  rw [account_step assumed settings server action id unique]
  exact serve_lasts assumed settings refreshes id ticks (account id server) sp action recorded
    lasts supporting inTime

omit assumed refreshes in
/-- The record of a listening speaker can be sent to exactly if the datagram is in time. -/
theorem reaching_iff (id : Nat) (server : Server) (ticks : Nat) (action : Service.Action)
    (listening : Listening limit id server ticks) :
    Reaching id server action ↔ InTime limit id ticks action := by
  obtain ⟨_, sp, recorded, lasts⟩ := listening
  have ready : Ready id server ↔ ticks ≤ limit := by
    rw [← lasts_unreachable limit ticks sp lasts]
    constructor
    · rintro ⟨other, known, reachable, _⟩
      obtain rfl := Option.some.inj (known.symm.trans recorded)
      exact reachable
    · intro reachable
      exact ⟨sp, recorded, reachable, lasts.supported⟩
  constructor
  · intro reaching package result same
    exact ready.mp (reaching package result same)
  · intro inTime package result same
    exact ready.mpr (inTime package result same)

/-- Along a run, the record of a listening speaker can be sent to whenever its turn comes
exactly if all its datagrams are in time. -/
theorem run_reaching_iff (id : Nat) (server : Server) (ticks : Nat)
    (actions : List Service.Action) (listening : Listening limit id server ticks)
    (supporting : ∀ action ∈ actions, Supporting common settings id action) :
    (Service.machine common settings).Along (Reaching id) server actions ↔
      (watch id).Along (InTime limit id) ticks actions := by
  apply along_related _ _ (Listening limit id) (Supporting common settings id)
  · intro state image action related _
    exact reaching_iff id state image action related
  · intro state image action related supports inTime
    exact step_listening assumed settings refreshes id state image action related supports inTime
  · exact listening
  · exact supporting

end Speaker

/-- From a listening speaker on, all that the commands play to it is handed to `sendto` or left to
the control thread exactly if no datagram for it comes more than `limit` passes of the monitor
after its last announcement, whatever steps the threads take in between, provided that its
announcements support the format. -/
theorem heard_iff_in_time (program : Program) (assumed : program.env.common.Assumed) (limit : Nat)
    (refreshes : ∀ speaker, (program.env.common.checkOnline speaker).timeout = limit)
    (id ticks : Nat) (process : Process) (inputs : List Input)
    (listening : Listening limit id process.server ticks) (sends : process.thread.Sends)
    (admissible : (Threads.machine program).Admissible process inputs)
    (supporting : ∀ src package answers sent, .detect src package answers sent ∈ inputs →
      Reaches program.codec src package →
      (program.codec.decode src.addr.type package).id = id →
      wellFormed (program.codec.decode src.addr.type package) = true →
      supports program.env.common program.settings
        (program.codec.decode src.addr.type package) = true) :
    (packages id ((Threads.machine program).after process inputs).server.host.events).reverse ++
        pushed id (left ((Threads.machine program).after process inputs).thread) =
      (packages id process.server.host.events).reverse ++ pushed id (left process.thread ++
        trace (Threads.machine program) (begun program) process inputs) ↔
    (watch id).Along (InTime limit id) ticks
      (trace (Threads.machine program) (moves program) process inputs) := by
  rw [nothing_lost_iff program assumed id process inputs listening.1 admissible]
  apply run_reaching_iff assumed program.settings refreshes id process.server ticks _ listening
  rintro action member header answers rfl own formed
  obtain ⟨src, package, sent, listed, reaches, rfl⟩ :=
    trace_request program process inputs sends header answers member
  exact supporting src package answers sent listed reaches own formed

/-- A process whose speaker 7 has just announced itself, with one datagram for it left to send. -/
def listeningProcess : Process :=
  (Threads.machine referenceProgram).after playingProcess [announcement]

/-- Its datagram is handed to `sendto`, as only one pass of the monitor comes before it. -/
theorem reference_heard :
    (packages 7 ((Threads.machine referenceProgram).after listeningProcess
      [.tick, .proceed]).server.host.events).reverse ++ [] = [] ++ [[1, 2]] := by
  refine (heard_iff_in_time referenceProgram (Common.reference_assumed 1) 1 (fun _ => rfl) 7 0
    listeningProcess [.tick, .proceed] ?_ playing_sends ?_ ?_).mpr ?_
  · refine ⟨?_, _, rfl, ?_, ?_, ?_, ?_, ?_⟩ <;> decide
  · exact ⟨⟨nofun, trivial⟩, ⟨nofun, nofun⟩, trivial⟩
  · intro src package answers sent listed
    simp at listed
  · refine ⟨?_, ?_, trivial⟩
    · intro package result impossible
      cases impossible
    · intro package result _
      decide

/-- A network on which the server works as meant: accepted announcements support the format,
a new speaker has a data port and its socket is opened and connected, and whenever the monitor
passes, every registered speaker has announced itself less than `limit` passes ago. -/
def Behaves (common : Common) (settings : Settings) (limit : Nat) (server : Server) :
    Service.Action → Prop
  | .request header answers => accepts answers header server = true →
      supports common settings header = true ∧
      (findSpeakerById server.speakers header.id = none → header.dport ≠ 0 ∧
        answers.connected = true ∧ ∃ fd, answers.socket = some fd ∧ fd ≠ 0)
  | .tick => ∀ sp ∈ server.speakers, ∃ ticks, ticksSince sp.id server = some ticks ∧ ticks < limit
  | _ => True

/-- A record that can be sent to, through the speaker's own connected descriptor. -/
structure Attended (host : Host) (sp : Speaker) : Prop where
  online : sp.state = .online
  supported : sp.supported = true
  port : sp.dport ≠ 0
  socket : 0 < sp.fd
  connected : host.table sp.fd.toNat = some ⟨.speaker sp.id, some (sp.ip, sp.dport)⟩

/-- A datagram was handed to `sendto` on a descriptor that is still connected to where it was
meant to go. -/
def Routed (host : Host) (event : Event) : Prop :=
  ∀ id fd ip port package, event = .datagram id fd ip port package →
    0 < fd ∧ host.table fd.toNat = some ⟨.speaker id, some (ip, port)⟩

/-- A server all of whose speakers are attended to: nothing has been closed, and all datagrams
were handed to the right descriptors. -/
structure Healthy (limit : Nat) (server : Server) : Prop where
  counted : Presence.Invariant limit server
  attended : ∀ sp ∈ server.speakers, Attended server.host sp
  unclosed : ∀ event ∈ server.host.events, ¬ IsClose event
  routed : ∀ event ∈ server.host.events, Routed server.host event

/-- The descriptors of speakers stay as they are. -/
def Spares (before after : Host) : Prop :=
  ∀ fd id peer, before.table fd = some ⟨.speaker id, peer⟩ →
    after.table fd = some ⟨.speaker id, peer⟩

/-- A record whose descriptor is spared stays attended. -/
theorem attended_spared (before after : Host) (sp : Speaker) (spares : Spares before after)
    (attended : Attended before sp) : Attended after sp :=
  { attended with connected := spares _ _ _ attended.connected }

/-- A change of a number that belongs to no speaker spares the speakers' descriptors. -/
theorem update_spares (before after : Host) (fd : Nat) (entry : Option Descriptor)
    (table : after.table = Function.update before.table fd entry)
    (foreign : ∀ id peer, before.table fd ≠ some ⟨.speaker id, peer⟩) : Spares before after := by
  intro other id peer owned
  have apart : other ≠ fd := by
    rintro rfl
    exact foreign id peer owned
  rw [table, Function.update_of_ne apart]
  exact owned

/-- What neither closes nor sends leaves the history as clean as it was. -/
theorem history_spared (before after : Host) (spares : Spares before after)
    (adds : Adds (fun event => ¬ IsClose event ∧ Routed after event) before.events after.events)
    (unclosed : ∀ event ∈ before.events, ¬ IsClose event)
    (routed : ∀ event ∈ before.events, Routed before event) :
    (∀ event ∈ after.events, ¬ IsClose event) ∧ ∀ event ∈ after.events, Routed after event := by
  have clean : ∀ event ∈ after.events, ¬ IsClose event ∧ Routed after event := by
    intro event member
    rcases adds_origin _ _ _ event adds member with old | fits
    · refine ⟨unclosed event old, fun id fd ip port package same => ?_⟩
      obtain ⟨positive, connected⟩ := routed event old id fd ip port package same
      exact ⟨positive, spares _ _ _ connected⟩
    · exact fits
  exact ⟨fun event member => (clean event member).1, fun event member => (clean event member).2⟩

/-- An event that is neither a close nor a datagram is clean. -/
theorem other_clean (host : Host) (event : Event) (unclosed : ¬ IsClose event)
    (unsent : ∀ id fd ip port package, event ≠ .datagram id fd ip port package) :
    ¬ IsClose event ∧ Routed host event :=
  ⟨unclosed, fun id fd ip port package same => absurd same (unsent id fd ip port package)⟩

section Health

variable {common : Common} (assumed : common.Assumed) (settings : Settings) {limit : Nat}
  (gives : ∀ timeout, common.Gives timeout → timeout = limit)

include assumed gives

/-- An announcement on a network that behaves leaves a healthy server healthy. -/
theorem request_healthy (header : Request) (answers : Answers) (server : Server)
    (possible : Service.enabled settings server (.request header answers))
    (behaves : Behaves common settings limit server (.request header answers))
    (healthy : Healthy limit server) :
    Healthy limit (step common settings server (.request header answers)) := by
  have counted := Presence.invariant_step assumed settings gives server (.request header answers)
    healthy.counted trivial
  have outcome := request_outcome assumed settings answers header server
  generalize step common settings server (.request header answers) = after at counted outcome ⊢
  cases outcome with
  | refused dropped => exact healthy
  | refreshed sp timeout formed known given =>
    obtain ⟨registered, _⟩ := find_speaker_some server.speakers header.id sp known
    obtain ⟨supported, _⟩ := behaves (by simp [accepts, formed, known])
    have spares : Spares server.host
        (server.host.note (.announced header.id (supports common settings header))) :=
      fun _ _ _ owned => owned
    obtain ⟨unclosed, routed⟩ := history_spared _ _ spares
      (adds_cons _ _ _ (other_clean _ _ (by simp [IsClose]) (by simp))) healthy.unclosed
      healthy.routed
    refine ⟨counted, ?_, unclosed, routed⟩
    intro other member
    rcases (mem_store _ _ other).mp member with ⟨rfl, _⟩ | ⟨old, _⟩
    · exact { healthy.attended sp registered with online := rfl, supported := supported }
    · exact attended_spared _ _ other spares (healthy.attended other old)
  | registered timeout formed unknown allocated unsupported given =>
    obtain ⟨supported, _⟩ := behaves (by simp [accepts, formed, allocated])
    rw [unsupported] at supported
    cases supported
  | joined timeout formed unknown allocated supported given =>
    obtain ⟨_, welcomed⟩ := behaves (by simp [accepts, formed, allocated])
    obtain ⟨port, connected, fd, handed, positive⟩ := welcomed unknown
    have table := Reach.joined_connects settings answers
      (joined common settings answers header timeout)
      (server.host.note (.announced header.id true)) fd handed connected
    have free : server.host.table fd = none := possible fd handed
    have spares := update_spares server.host _ fd _ table (by simp [free])
    have adds : Adds (fun event => ¬ IsClose event ∧ Routed (joinedHost settings answers
          (joined common settings answers header timeout)
          (server.host.note (.announced header.id true))) event) server.host.events
        (joinedHost settings answers (joined common settings answers header timeout)
          (server.host.note (.announced header.id true))).events := by
      refine adds_trans _ _ _ _ (adds_cons _ (.announced header.id true) _
        (other_clean _ _ (by simp [IsClose]) (by simp)))
        (adds_weaken IsJoin _ _ _ ?_ (joined_adds settings answers _ _))
      intro event join
      refine other_clean _ event ?_ ?_ <;> cases event <;> simp [IsClose, IsJoin] at join ⊢
    obtain ⟨unclosed, routed⟩ := history_spared _ _ spares adds healthy.unclosed
      healthy.routed
    refine ⟨counted, ?_, unclosed, routed⟩
    intro other member
    have linked := assumed.linked server.speakers (joined common settings answers header timeout)
    rcases List.mem_cons.mp (linked.mem_iff.mp member) with rfl | old
    · refine ⟨rfl, rfl, port, ?_, ?_⟩
      · simp only [joined, handed, Option.getD_some]
        omega
      · rw [table]
        simp [joined, handed]
    · exact attended_spared _ _ other spares (healthy.attended other old)

/-- A pass of the monitor on a network that behaves leaves a healthy server healthy: no record
is due. -/
theorem tick_healthy (server : Server) (behaves : Behaves common settings limit server .tick)
    (healthy : Healthy limit server) : Healthy limit (step common settings server .tick) := by
  have counted :=
    Presence.invariant_step assumed settings gives server .tick healthy.counted trivial
  have early : ∀ sp ∈ server.speakers, ¬ sp.timeout ≤ 0 := by
    intro sp registered
    obtain ⟨ticks, seen, fewer⟩ := behaves sp registered
    obtain ⟨count, counting, remaining, _⟩ := healthy.counted.counted sp registered
    obtain rfl := Option.some.inj (seen.symm.trans counting)
    omega
  have none : due server.speakers = [] := by
    simpa [due] using early
  rw [tick_outcome assumed, none] at counted ⊢
  have spares : Spares server.host (server.host.note .tick) := fun _ _ _ owned => owned
  obtain ⟨unclosed, routed⟩ := history_spared _ _ spares
    (adds_cons _ _ _ (other_clean _ _ (by simp [IsClose]) (by simp))) healthy.unclosed
    healthy.routed
  refine ⟨counted, ?_, unclosed, routed⟩
  intro other member
  obtain ⟨sp, registered, rfl⟩ := List.mem_map.mp member
  have attended := healthy.attended sp registered
  rw [tick_record assumed, if_neg (early sp registered)]
  exact { attended with }

omit assumed gives in
/-- In a healthy server every registered id can be sent to. -/
theorem healthy_ready (server : Server) (healthy : Healthy limit server) (id : Nat)
    (registered : id ∈ ids server.speakers) : Ready id server := by
  obtain ⟨sp, member, rfl⟩ := List.mem_map.mp registered
  have attended := healthy.attended sp member
  refine ⟨sp, (find_speaker_iff _ _ _ healthy.counted.unique).mpr ⟨member, rfl⟩, ?_,
    attended.supported⟩
  simp [unreachable, attended.online, attended.port, attended.socket]

/-- A datagram leaves a healthy server healthy: it is sent, if its speaker is registered. -/
theorem push_healthy (id : Nat) (package : List UInt8) (result : Int) (server : Server)
    (healthy : Healthy limit server) :
    Healthy limit (step common settings server (.push id package result)) := by
  have outcome := push_outcome assumed settings id package result server healthy.counted.unique
  have ready (sp : Speaker) (known : findSpeakerById server.speakers id = some sp) :
      unreachable sp = false ∧ sp.supported = true := by
    obtain ⟨registered, rfl⟩ := find_speaker_some server.speakers id sp known
    obtain ⟨other, found, reachable, supported⟩ := healthy_ready server healthy sp.id
      (id_registered server.speakers sp registered)
    obtain rfl := Option.some.inj (known.symm.trans found)
    exact ⟨reachable, supported⟩
  have counted := Presence.invariant_step assumed settings gives server (.push id package result)
    healthy.counted (fun sp known guarded => by
      rw [(ready sp known).1] at guarded
      cases guarded)
  generalize step common settings server (.push id package result) = after at counted outcome ⊢
  cases outcome with
  | absent unknown => exact healthy
  | refreshed sp timeout known guarded given =>
    rw [(ready sp known).1] at guarded
    cases guarded
  | unsupported sp known passed refused =>
    rw [(ready sp known).2] at refused
    cases refused
  | sent sp known passed supported =>
    obtain ⟨registered, _⟩ := find_speaker_some server.speakers id sp known
    have attended := healthy.attended sp registered
    have clean : ¬ IsClose (.datagram sp.id sp.fd sp.ip sp.dport package) ∧
        Routed (server.host.note (.datagram sp.id sp.fd sp.ip sp.dport package))
          (.datagram sp.id sp.fd sp.ip sp.dport package) := by
      refine ⟨by simp [IsClose], ?_⟩
      intro other fd ip port sent same
      obtain ⟨rfl, rfl, rfl, rfl, _⟩ := Event.datagram.inj same
      exact ⟨attended.socket, attended.connected⟩
    have spares : Spares server.host
        (server.host.note (.datagram sp.id sp.fd sp.ip sp.dport package)) :=
      fun _ _ _ owned => owned
    obtain ⟨unclosed, routed⟩ := history_spared _ _ spares (adds_cons _ _ _ clean)
      healthy.unclosed healthy.routed
    exact ⟨counted, fun other member =>
      attended_spared _ _ other spares (healthy.attended other member), unclosed, routed⟩

/-- An action that leaves the list as it is, spares the speakers' descriptors and adds only
control packages leaves a healthy server healthy. -/
theorem quiet_healthy (server : Server) (action : Service.Action) (healthy : Healthy limit server)
    (early : Presence.PushBeforeTick server action)
    (same : (step common settings server action).speakers = server.speakers)
    (spares : Spares server.host (step common settings server action).host)
    (quiet : ∀ event, Makes action event → ¬ IsClose event ∧
      ∀ id fd ip port package, event ≠ .datagram id fd ip port package) :
    Healthy limit (step common settings server action) := by
  obtain ⟨unclosed, routed⟩ := history_spared _ _ spares
    (adds_weaken (Makes action) _ _ _
      (fun event makes => other_clean _ event (quiet event makes).1 (quiet event makes).2)
      (step_adds assumed settings server action healthy.counted.unique))
    healthy.unclosed healthy.routed
  refine ⟨Presence.invariant_step assumed settings gives server action healthy.counted early, ?_,
    unclosed, routed⟩
  rw [same]
  exact fun other member => attended_spared _ _ other spares (healthy.attended other member)

/-- Every step on a network that behaves leaves a healthy server healthy. -/
theorem step_healthy (server : Server) (action : Service.Action)
    (possible : Service.enabled settings server action)
    (behaves : Behaves common settings limit server action) (healthy : Healthy limit server) :
    Healthy limit (step common settings server action) := by
  cases action with
  | request header answers =>
    exact request_healthy assumed settings gives header answers server possible behaves healthy
  | tick => exact tick_healthy assumed settings gives server behaves healthy
  | push id package result =>
    exact push_healthy assumed settings gives id package result server healthy
  | format rate bits results =>
    refine quiet_healthy assumed settings gives server _ healthy trivial rfl ?_ ?_
    · intro fd id peer owned
      simpa [Service.step, serverSpctrlSetFormat] using owned
    · intro event makes
      cases event <;> simp [Makes, IsClose] at makes ⊢
  | time spid now result =>
    refine quiet_healthy assumed settings gives server _ healthy trivial rfl ?_ ?_
    · intro fd id peer owned
      simpa [Service.step] using owned
    · intro event makes
      cases event <;> simp [Makes, IsClose] at makes ⊢
  | openOther fd =>
    have free : server.host.table fd = none := possible
    refine quiet_healthy assumed settings gives server _ healthy trivial rfl
      (update_spares _ _ fd _ rfl (by simp [free])) ?_
    intro event makes
    cases event <;> cases makes
  | closeOther fd =>
    obtain ⟨_, peer, own⟩ := possible
    refine quiet_healthy assumed settings gives server _ healthy trivial rfl
      (update_spares _ _ fd _ rfl (by simp [own])) ?_
    intro event makes
    cases event <;> cases makes

end Health

/-- The server of a program on a network that behaves. -/
def behaving (program : Program) (limit : Nat) : Machine Server Service.Action :=
  (service program).restrict (Behaves program.env.common program.settings limit)

/-- A step of the process on a network that behaves. -/
def BehavesNext (program : Program) (limit : Nat) (process : Process) (input : Input) : Prop :=
  ∀ action ∈ moves program process input,
    Behaves program.env.common program.settings limit process.server action

/-- What the control thread sends is no concern of the network. -/
theorem sending_behaves (program : Program) (limit : Nat) (process : Process)
    (sends : process.thread.Sends) : BehavesNext program limit process .proceed := by
  intro action member
  simp only [moves] at member
  cases stage : process.thread with
  | working units result =>
    rw [stage] at sends member
    cases units with
    | nil => cases member
    | cons unit rest =>
      obtain rfl := List.mem_singleton.mp member
      rcases sends action List.mem_cons_self with ⟨_, _, _, rfl⟩ | ⟨_, _, _, rfl⟩ <;> trivial
  | _ =>
    rw [stage] at member
    cases member

section Network

variable (program : Program) (assumed : program.env.common.Assumed) {limit : Nat}
  (refreshes : ∀ speaker, (program.env.common.checkOnline speaker).timeout = limit)

/-- A run of the process on a network that behaves is one of its server. -/
theorem process_behaves (process : Process) (inputs : List Input) (sends : process.thread.Sends)
    (admissible : (Threads.machine program).Admissible process inputs)
    (behaves : (Threads.machine program).Along (BehavesNext program limit) process inputs) :
    (behaving program limit).Admissible process.server
      (trace (Threads.machine program) (moves program) process inputs) := by
  obtain ⟨possible, _⟩ := simulation_rule _ _ _ _ (service_simulates program) process
    process.server inputs ⟨rfl, sends⟩ admissible
  apply (service program).admissible_restrict _ _ _ possible
  rw [along_trace (Threads.machine program) (service program) (moves program) Process.server
    (step_moves program)]
  refine ((Threads.machine program).along_congr _ _ ?_ process inputs).mp behaves
  intro state input
  rcases moves_single program state input with none | ⟨action, one⟩
  · simp [BehavesNext, none, Machine.Along]
  · simp [BehavesNext, one, Machine.Along]

/-- A server that has just started is healthy. -/
theorem booted_healthy (limit : Nat) (server : Server)
    (booted : Booted program.settings server) : Healthy limit server := by
  refine ⟨⟨?_, ?_⟩, ?_, ?_, ?_⟩ <;> simp [booted.vacant, booted.quiet, ids]

include assumed refreshes

/-- A step on a network that behaves leaves a healthy server healthy. -/
theorem behaving_healthy (server : Server) (action : Service.Action)
    (healthy : Healthy limit server) (possible : (behaving program limit).enabled server action) :
    Healthy limit ((behaving program limit).step server action) := by
  refine step_healthy assumed program.settings ?_ server action possible.1 possible.2 healthy
  rintro timeout ⟨speaker, rfl⟩
  exact refreshes speaker

/-- A run on a network that behaves leaves a healthy server healthy. -/
theorem run_healthy (process : Process) (inputs : List Input) (sends : process.thread.Sends)
    (admissible : (Threads.machine program).Admissible process inputs)
    (behaves : (Threads.machine program).Along (BehavesNext program limit) process inputs)
    (healthy : Healthy limit process.server) :
    Healthy limit ((Threads.machine program).after process inputs).server := by
  rw [view_after (Threads.machine program) (service program) (moves program) Process.server
    (step_moves program)]
  exact (behaving program limit).invariant_rule (Healthy limit)
    (behaving_healthy program assumed refreshes) process.server _ healthy
    ⟨_, process_behaves program process inputs sends admissible behaves, rfl⟩

/-- In a run on a network that behaves, all that is played to a registered speaker is handed to
`sendto` or left to the control thread. -/
theorem healthy_loses_nothing (id : Nat) (process : Process) (inputs : List Input)
    (sends : process.thread.Sends)
    (admissible : (Threads.machine program).Admissible process inputs)
    (behaves : (Threads.machine program).Along (BehavesNext program limit) process inputs)
    (healthy : Healthy limit process.server) (registered : id ∈ ids process.server.speakers) :
    (packages id ((Threads.machine program).after process inputs).server.host.events).reverse ++
        pushed id (left ((Threads.machine program).after process inputs).thread) =
      (packages id process.server.host.events).reverse ++ pushed id (left process.thread ++
        trace (Threads.machine program) (begun program) process inputs) := by
  rw [nothing_lost_iff program assumed id process inputs healthy.counted.unique admissible,
    ← (service program).restrict_along (Behaves program.env.common program.settings limit)]
  apply (behaving program limit).along_rule
    (fun server => Healthy limit server ∧ id ∈ ids server.speakers)
  · intro server action kept possible
    exact ⟨behaving_healthy program assumed refreshes server action kept.1 possible,
      step_ids assumed program.settings server action kept.1.counted.unique kept.2⟩
  · intro server action kept package result same
    exact healthy_ready server kept.1 id kept.2
  · exact ⟨healthy, registered⟩
  · exact process_behaves program process inputs sends admissible behaves

end Network

/-- On a network that behaves, the server works as meant. In every state that a process which
has just started can get to, each registered speaker can be sent to through its own connected
descriptor, no descriptor has been closed, and every datagram was handed to the descriptor that
is connected to its speaker; and from its registration on, all that is played to a speaker is
handed to `sendto` or left to the control thread. -/
theorem attended_speakers_hear (program : Program) (assumed : program.env.common.Assumed)
    (limit : Nat) (refreshes : ∀ speaker, (program.env.common.checkOnline speaker).timeout = limit)
    (process : Process) (booted : Booted program.settings process.server)
    (sends : process.thread.Sends) (earlier later : List Input)
    (admissible : (Threads.machine program).Admissible process (earlier ++ later))
    (behaves : (Threads.machine program).Along (BehavesNext program limit) process
      (earlier ++ later)) :
    let middle := (Threads.machine program).after process earlier
    let final := (Threads.machine program).after middle later
    (∀ sp ∈ final.server.speakers, Attended final.server.host sp) ∧
      (∀ event ∈ final.server.host.events,
        ¬ IsClose event ∧ Routed final.server.host event) ∧
      ∀ id ∈ ids middle.server.speakers,
        (packages id final.server.host.events).reverse ++ pushed id (left final.thread) =
          (packages id middle.server.host.events).reverse ++ pushed id (left middle.thread ++
            trace (Threads.machine program) (begun program) middle later) := by
  intro middle final
  obtain ⟨first, second⟩ := ((Threads.machine program).along_append _ process earlier later).mp
    admissible
  obtain ⟨behavesFirst, behavesSecond⟩ :=
    ((Threads.machine program).along_append _ process earlier later).mp behaves
  have healthy := run_healthy program assumed refreshes process earlier sends first behavesFirst
    (booted_healthy program limit process.server booted)
  have stillSends : middle.thread.Sends := run_sends program process earlier sends
  have atEnd : Healthy limit final.server :=
    run_healthy program assumed refreshes middle later stillSends second behavesSecond healthy
  refine ⟨atEnd.attended, fun event member =>
    ⟨atEnd.unclosed event member, atEnd.routed event member⟩, ?_⟩
  intro id registered
  exact healthy_loses_nothing program assumed refreshes id middle later stillSends second
    behavesSecond healthy registered

/-- In the reference run the network behaves. -/
theorem reference_behaves :
    (Threads.machine referenceProgram).Along (BehavesNext referenceProgram 1) playingProcess
      referenceInputs := by
  refine ⟨?_, ?_, ?_, ?_, ?_, trivial⟩
  · intro action member
    obtain rfl := List.mem_singleton.mp member
    exact fun _ => ⟨by decide, fun _ => ⟨by decide, rfl, 5, rfl, by decide⟩⟩
  · intro action member
    obtain rfl := List.mem_singleton.mp member
    trivial
  · intro action member
    obtain rfl := List.mem_singleton.mp member
    trivial
  · intro action member
    obtain rfl := List.mem_singleton.mp member
    intro sp registered
    obtain rfl := List.mem_singleton.mp registered
    exact ⟨0, by decide, by decide⟩
  · intro action member
    cases member

/-- In the reference run the speaker 7 is sent the datagram that was left for it. -/
theorem reference_attended :
    (packages 7 ((Threads.machine referenceProgram).after playingProcess
      referenceInputs).server.host.events).reverse ++ [] = [] ++ [[1, 2]] :=
  (attended_speakers_hear referenceProgram (Common.reference_assumed 1) 1 (fun _ => rfl)
    playingProcess fresh_booted playing_sends [announcement] (referenceInputs.drop 1)
    reference_admissible reference_behaves).2.2 7 (by decide)

end Castserver.Audience
