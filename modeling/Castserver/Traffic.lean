import Castserver.Threads
import Castserver.Isolation

/-!
# Where packets go, and how many

The process answers datagrams, tells speakers its sample format and plays audio to them.
All of it goes to addresses that a datagram of the detect socket has come from, and what goes
to a speaker to one that has announced the speaker, because a record never leaves the address
it was made with. And traffic from the network alone makes the process send at most one packet
for each datagram, and one more for each speaker that has joined.
-/

namespace Castserver.Traffic

open Speakers Pusher Control Detect Service DetectRead Threads Isolation
open Library.Runs Library.Histories Library.Simulations

/-- Everything that has been sent for an account was sent while it had its record, and
datagrams went to the address in the record. -/
def Addressed (account : Account) : Prop :=
  ∀ event ∈ account.sent, ∃ sp, account.record = some sp ∧
    ∀ id fd ip port package, event = .datagram id fd ip port package →
      ip = sp.ip ∧ port = sp.dport

/-- Everything that an action can do to an account. -/
inductive Served (common : Common) (settings : Settings) (account : Account) :
    Service.Action → Account → Prop where
  | idle (action : Service.Action) : Served common settings account action account
  | registered (header : Request) (answers : Answers) (vacant : account.record = none) :
      Served common settings account (.request header answers)
        { record := some (newSpeaker common settings answers header nowhere).1
          sent := welcome common settings answers header ++ account.sent }
  | changed (action : Service.Action) (sp later : Speaker) (recorded : account.record = some sp)
      (sameIp : later.ip = sp.ip) (samePort : later.dport = sp.dport) :
      Served common settings account action { account with record := some later }
  | told (action : Service.Action) (sp : Speaker) (package : ControlPackage) (result : Int)
      (recorded : account.record = some sp) :
      Served common settings account action
        { account with sent := .control sp.id package result :: account.sent }
  | sent (action : Service.Action) (sp : Speaker) (package : List UInt8)
      (recorded : account.record = some sp) :
      Served common settings account action
        { account with sent := .datagram sp.id sp.fd sp.ip sp.dport package :: account.sent }

section Accounts

variable {common : Common} (assumed : common.Assumed) (settings : Settings)

include assumed

/-- Serving an account does one of these. -/
theorem serve_cases (account : Account) (action : Service.Action) :
    Served common settings account action (serve common settings account action) := by
  cases recorded : account.record with
  | none =>
    cases action with
    | request header answers =>
      simp only [serve, recorded]
      split
      · exact .registered header answers recorded
      · exact .idle _
    | _ =>
      simp only [serve, recorded]
      exact .idle _
  | some sp =>
    cases action with
    | request header answers =>
      obtain ⟨_, _, refreshed⟩ := refresh_speaker assumed settings header sp
      simp only [serve, recorded]
      split
      · exact .changed _ sp _ recorded (by rw [refreshed]) (by rw [refreshed])
      · exact .idle _
    | tick =>
      simp only [serve, recorded]
      exact .changed _ sp _ recorded (by rw [tick_record assumed]) (by rw [tick_record assumed])
    | format rate bits results =>
      simp only [serve, recorded]
      split
      · rw [← recorded]
        exact .told _ sp _ _ recorded
      · exact .idle _
    | push other package result =>
      simp only [serve, recorded]
      split
      · exact .changed _ sp _ recorded (by rw [assumed.refreshed]) (by rw [assumed.refreshed])
      · split
        · rw [← recorded]
          exact .sent _ sp package recorded
        · exact .idle _
    | time spid now result =>
      simp only [serve, recorded]
      split
      · rw [← recorded]
        exact .told _ sp _ _ recorded
      · exact .idle _
    | openOther fd => exact .idle _
    | closeOther fd => exact .idle _

/-- An account keeps the address in its record, and gets it from an announcement. -/
theorem serve_origin (account : Account) (action : Service.Action) (later : Speaker)
    (recorded : (serve common settings account action).record = some later) :
    (∃ sp, account.record = some sp ∧ later.ip = sp.ip) ∨
      ∃ header answers, action = .request header answers ∧ later.ip = header.addr := by
  have served := serve_cases assumed settings account action
  generalize serve common settings account action = after at served recorded
  cases served with
  | idle => exact Or.inl ⟨later, recorded, rfl⟩
  | registered header answers vacant =>
    obtain rfl := Option.some.inj recorded
    exact Or.inr ⟨header, answers, rfl, (new_placed assumed settings answers header nowhere).1⟩
  | changed _ sp changed before sameIp =>
    obtain rfl := Option.some.inj recorded
    exact Or.inl ⟨sp, before, sameIp⟩
  | told => exact Or.inl ⟨later, recorded, rfl⟩
  | sent => exact Or.inl ⟨later, recorded, rfl⟩

/-- What an account is sent goes to the address in its record. -/
theorem serve_addressed (account : Account) (action : Service.Action)
    (addressed : Addressed account) : Addressed (serve common settings account action) := by
  have served := serve_cases assumed settings account action
  generalize serve common settings account action = after at served
  cases served with
  | idle => exact addressed
  | registered header answers vacant =>
    intro event member
    rcases List.mem_append.mp member with greeting | earlier
    · refine ⟨_, rfl, ?_⟩
      rintro id fd ip port package rfl
      simp only [welcome] at greeting
      split at greeting
      · cases List.mem_singleton.mp greeting
      · cases greeting
    · obtain ⟨sp, recorded, _⟩ := addressed event earlier
      rw [vacant] at recorded
      cases recorded
  | changed _ sp later before sameIp samePort =>
    intro event member
    obtain ⟨old, recorded, towards⟩ := addressed event member
    rw [before] at recorded
    obtain rfl := Option.some.inj recorded
    refine ⟨later, rfl, ?_⟩
    rw [sameIp, samePort]
    exact towards
  | told _ sp package result recorded =>
    intro event member
    rcases List.mem_cons.mp member with rfl | earlier
    · exact ⟨sp, recorded, by simp⟩
    · exact addressed event earlier
  | sent _ sp package recorded =>
    intro event member
    rcases List.mem_cons.mp member with rfl | earlier
    · refine ⟨sp, recorded, ?_⟩
      intro id fd ip port other same
      obtain ⟨_, _, rfl, rfl, _⟩ := Event.datagram.inj same
      exact ⟨rfl, rfl⟩
    · exact addressed event earlier

/-- After any run of its life, an account that had nothing has only been sent packets to the
address in its record, which is that of an announcement. -/
theorem life_addressed (account : Account) (actions : List Service.Action)
    (addressed : Addressed account) :
    Addressed ((life common settings).after account actions) ∧
      ∀ sp, ((life common settings).after account actions).record = some sp →
        (∃ old, account.record = some old ∧ sp.ip = old.ip) ∨
          ∃ header answers, .request header answers ∈ actions ∧ sp.ip = header.addr := by
  induction actions generalizing account with
  | nil => exact ⟨addressed, fun sp recorded => Or.inl ⟨sp, recorded, rfl⟩⟩
  | cons action rest inductionHypothesis =>
    obtain ⟨later, origin⟩ := inductionHypothesis (serve common settings account action)
      (serve_addressed assumed settings account action addressed)
    refine ⟨later, ?_⟩
    intro sp recorded
    rcases origin sp recorded with ⟨middle, there, same⟩ | ⟨header, answers, member, same⟩
    · rcases serve_origin assumed settings account action middle there with
        ⟨old, before, kept⟩ | ⟨header, answers, rfl, placed⟩
      · exact Or.inl ⟨old, before, same.trans kept⟩
      · exact Or.inr ⟨header, answers, List.mem_cons_self, same.trans placed⟩
    · exact Or.inr ⟨header, answers, List.mem_cons_of_mem action member, same⟩

end Accounts

/-- The address that a datagram of the detect socket comes from. -/
def source : Input → Option Addr
  | .detect src _ _ _ => some src.addr
  | _ => none

/-- An address that a datagram of the detect socket has come from. -/
def Source (inputs : List Input) (addr : Addr) : Prop :=
  ∃ input ∈ inputs, source input = some addr

/-- An address from which a speaker has been announced: a datagram from there has got as far as
`valid_speaker` and carries the id. -/
def AnnouncedFrom (codec : Codec) (inputs : List Input) (id : Nat) (addr : Addr) : Prop :=
  ∃ src package answers sent, .detect src package answers sent ∈ inputs ∧
    Reaches codec src package ∧ (codec.decode src.addr.type package).id = id ∧ src.addr = addr

section Destinations

variable (program : Program)
  (sound : ∀ src addr, program.codec.equalSockAddr src addr = true → addr = src.addr)

include sound

/-- A reply goes back to where its datagram came from. -/
theorem reply_source (process : Process) (input : Input) (reply : Reply)
    (member : reply ∈ (Threads.step program process input).replies) :
    reply ∈ process.replies ∨ source input = some reply.ip := by
  cases input with
  | detect src package answers sent =>
    rcases List.mem_append.mp member with fresh | earlier
    · right
      rw [Option.mem_toList] at fresh
      unfold DetectRead.srvDetectRead at fresh
      split at fresh
      · obtain rfl := Option.some.inj fresh
        rfl
      · split at fresh
        · dsimp only at fresh
          split at fresh
          · cases fresh
          · next own =>
            split at fresh
            · cases fresh
            · obtain rfl := Option.some.inj fresh
              exact congrArg some (sound src _ (by simpa using own)).symm
        · cases fresh
    · exact Or.inl earlier
  | proceed =>
    left
    simp only [Threads.step, proceed] at member
    split at member <;> exact member
  | _ => exact Or.inl member

/-- An announcement among the server's actions has come from the address it carries. -/
theorem request_announced (process : Process) (inputs : List Input) (sends : process.thread.Sends)
    (header : Request) (answers : Answers)
    (member : .request header answers ∈
      trace (Threads.machine program) (moves program) process inputs) :
    AnnouncedFrom program.codec inputs header.id header.addr := by
  obtain ⟨src, package, sent, listed, reaches, rfl⟩ :=
    trace_request program process inputs sends header answers member
  exact ⟨src, package, answers, sent, listed, reaches, rfl, (sound src _ reaches.2.2).symm⟩

/-- Replies of a run go to where datagrams came from. -/
theorem replies_sources (process : Process) (inputs : List Input) (reply : Reply)
    (member : reply ∈ ((Threads.machine program).after process inputs).replies) :
    reply ∈ process.replies ∨ Source inputs reply.ip := by
  induction inputs generalizing process with
  | nil => exact Or.inl member
  | cons input rest inductionHypothesis =>
    rcases inductionHypothesis (Threads.step program process input) member with
      there | ⟨other, listed, same⟩
    · rcases reply_source program sound process input reply there with before | here
      · exact Or.inl before
      · exact Or.inr ⟨input, List.mem_cons_self, here⟩
    · exact Or.inr ⟨other, List.mem_cons_of_mem input listed, same⟩

/-- A process that has just started sends only to addresses that a datagram of the detect
socket has come from: its replies go there, the audio for a speaker goes to an address that has
announced the speaker, and what it sends to control a speaker goes to a record with such an
address. -/
theorem sends_only_to_sources (assumed : program.env.common.Assumed) (process : Process)
    (inputs : List Input) (booted : Booted program.settings process.server)
    (silent : process.replies = []) (sends : process.thread.Sends) :
    (∀ reply ∈ ((Threads.machine program).after process inputs).replies,
      Source inputs reply.ip) ∧
    (∀ id fd ip port package, .datagram id fd ip port package ∈
        ((Threads.machine program).after process inputs).server.host.events →
      AnnouncedFrom program.codec inputs id ip) ∧
    (∀ id package result, .control id package result ∈
        ((Threads.machine program).after process inputs).server.host.events →
      ∃ sp ∈ ((Threads.machine program).after process inputs).server.speakers,
        sp.id = id ∧ AnnouncedFrom program.codec inputs id sp.ip) := by
  have unique : (ids process.server.speakers).Nodup := by
    rw [booted.vacant]
    exact List.nodup_nil
  have reached := view_after (Threads.machine program) (service program) (moves program)
    Process.server (step_moves program) process inputs
  have settled (id : Nat) (event : Event)
      (member : event ∈ ((Threads.machine program).after process inputs).server.host.events)
      (own : sentTo id event = true) :
      ∃ sp, findSpeakerById ((Threads.machine program).after process inputs).server.speakers id =
          some sp ∧ AnnouncedFrom program.codec inputs id sp.ip ∧
        ∀ id fd ip port package, event = .datagram id fd ip port package →
          ip = sp.ip ∧ port = sp.dport := by
    have vacant : account id process.server = ⟨none, []⟩ := by
      simp [account, booted.vacant, booted.quiet, findSpeakerById]
    have lived := account_after assumed program.settings process.server
      (trace (Threads.machine program) (moves program) process inputs) id unique
    rw [vacant, ← reached] at lived
    obtain ⟨addressed, origin⟩ := life_addressed assumed program.settings ⟨none, []⟩
      ((trace (Threads.machine program) (moves program) process inputs).flatMap (share id))
      (fun _ none => absurd none List.not_mem_nil)
    rw [← lived] at addressed origin
    obtain ⟨sp, recorded, towards⟩ := addressed event (List.mem_filter.mpr ⟨member, own⟩)
    refine ⟨sp, recorded, ?_, towards⟩
    rcases origin sp recorded with ⟨_, none, _⟩ | ⟨header, answers, shared, placed⟩
    · cases none
    · obtain ⟨action, listed, part⟩ := List.mem_flatMap.mp shared
      obtain ⟨rfl, named⟩ := request_shared id action header answers part
      rw [placed, ← named]
      exact request_announced program sound process inputs sends header answers listed
  refine ⟨?_, ?_, ?_⟩
  · intro reply member
    rcases replies_sources program sound process inputs reply member with before | here
    · rw [silent] at before
      cases before
    · exact here
  · intro id fd ip port package member
    obtain ⟨sp, _, source, towards⟩ := settled id _ member (by simp [sentTo])
    rw [(towards _ _ _ _ _ rfl).1]
    exact source
  · intro id package result member
    obtain ⟨sp, found, source, _⟩ := settled id _ member (by simp [sentTo])
    obtain ⟨registered, sameId⟩ := find_speaker_some _ id sp found
    exact ⟨sp, registered, sameId, source⟩

end Destinations

/-- The datagram of the reference run goes to an address that the speaker 7 has announced
itself from. -/
theorem reference_sends_to_source :
    ∃ fd ip port, .datagram 7 fd ip port [1, 2] ∈ ((Threads.machine referenceProgram).after
        playingProcess referenceInputs).server.host.events ∧
      AnnouncedFrom referenceProgram.codec referenceInputs 7 ip := by
  have towards := (sends_only_to_sources referenceProgram
    (fun _ _ equal => (of_decide_eq_true equal).symm) (Common.reference_assumed 1) playingProcess
    referenceInputs fresh_booted rfl playing_sends).2.1
  have sent : .datagram 7 5 ⟨2, [10, 0, 0, 7]⟩ 4000 [1, 2] ∈ ((Threads.machine
      referenceProgram).after playingProcess referenceInputs).server.host.events := by
    decide
  exact ⟨5, _, 4000, sent, towards 7 5 _ 4000 [1, 2] sent⟩

/-- A packet for a speaker. -/
def isPacket : Event → Bool
  | .control _ _ _ | .datagram _ _ _ _ _ => true
  | _ => false

/-- The number of packets a process has sent: those for speakers, and its replies. -/
def packets (process : Process) : Nat :=
  process.server.host.events.countP isPacket + process.replies.length

/-- An input from the network. -/
def fromNetwork : Input → Bool
  | .detect _ _ _ _ | .control _ _ _ => true
  | _ => false

/-- Additions of no packets leave their number as it is. -/
theorem packets_adds (kind : Event → Prop) (before after : List Event)
    (adds : Adds kind before after) (silent : ∀ event, kind event → isPacket event = false) :
    after.countP isPacket = before.countP isPacket := by
  obtain ⟨fresh, rfl, fits⟩ := adds
  have none : fresh.countP isPacket = 0 :=
    List.countP_eq_zero.mpr fun event member => by simp [silent event (fits event member)]
  rw [List.countP_append, none, Nat.zero_add]

/-- Joining sends at most one packet. -/
theorem joined_packets (settings : Settings) (answers : Answers) (sp : Speaker) (host : Host) :
    (joinedHost settings answers sp host).events.countP isPacket ≤
      host.events.countP isPacket + 1 := by
  have opened : ((answers.socket.map (Event.opened sp.id)).toList).countP isPacket = 0 := by
    cases answers.socket <;> rfl
  have called : (if settings.detectCb then [Event.callback sp.id] else []).countP isPacket = 0 := by
    split <;> rfl
  rw [joined_events]
  simp only [List.countP_append, opened, called]
  split
  · simp [isPacket]
    omega
  · simp

/-- A clock request is answered with at most one packet. -/
theorem time_packets (speakers : List Speaker) (spid now : Nat) (result : Int) (host : Host) :
    (spctrlTime speakers spid now result host).events.countP isPacket ≤
      host.events.countP isPacket + 1 := by
  unfold spctrlTime
  split
  · omega
  · rw [control_sent]
    split
    · simp only [Host.note_events, List.countP_cons]
      split <;> omega
    · omega

section Amplification

variable (program : Program) (assumed : program.env.common.Assumed)

include assumed

/-- An announcement makes the server send at most one packet more than it adds records. -/
theorem request_packets (header : Request) (answers : Answers) (server : Server) :
    (Service.step program.env.common program.settings server
        (.request header answers)).host.events.countP isPacket + server.speakers.length ≤
      server.host.events.countP isPacket +
        (Service.step program.env.common program.settings server
          (.request header answers)).speakers.length := by
  have outcome := request_outcome assumed program.settings answers header server
  generalize Service.step program.env.common program.settings server
    (.request header answers) = after at outcome ⊢
  cases outcome with
  | refused => exact Nat.le_refl _
  | refreshed => simp [store, isPacket]
  | registered timeout =>
    have size := (assumed.linked server.speakers
      (announced program.env.common header false timeout)).length_eq
    simp only [List.length_cons] at size
    simp only [Host.note_events, size, List.countP_cons, isPacket]
    simp
  | joined timeout =>
    have size := (assumed.linked server.speakers
      (joined program.env.common program.settings answers header timeout)).length_eq
    have sent := joined_packets program.settings answers
      (joined program.env.common program.settings answers header timeout)
      (server.host.note (.announced header.id true))
    have same : (server.host.note (.announced header.id true)).events.countP isPacket =
        server.host.events.countP isPacket := by
      simp [isPacket]
    simp only [List.length_cons] at size
    dsimp only
    rw [same] at sent
    omega

/-- A step of another thread than the control thread sends at most one packet for what it
receives, and one for a record that it adds. -/
theorem step_packets (process : Process) (input : Input) (other : input ≠ .proceed) :
    packets (Threads.step program process input) + process.server.speakers.length ≤
      packets process + (if fromNetwork input then 1 else 0) +
        (Threads.step program process input).server.speakers.length := by
  cases input with
  | detect src package answers sent =>
    have replied : (Threads.step program process (.detect src package answers sent)).replies.length ≤
        process.replies.length + 1 := by
      simp only [Threads.step, List.length_append]
      have most : (DetectRead.srvDetectRead program.env.common program.settings program.codec
          answers sent src package (announcing program src package answers
            process.server)).reply.toList.length ≤ 1 := Option.length_toList_le
      omega
    have moved := detect_server program src package answers sent process
    have told : (Threads.step program process
        (.detect src package answers sent)).server.host.events.countP isPacket +
          process.server.speakers.length ≤ process.server.host.events.countP isPacket +
        (Threads.step program process
          (.detect src package answers sent)).server.speakers.length := by
      rw [moved]
      simp only [moves]
      split
      · exact request_packets program assumed _ answers process.server
      · exact Nat.le_refl _
    simp only [packets, fromNetwork, if_true]
    omega
  | control package now result =>
    have answered := time_packets process.server.speakers (program.timeCodec.spid package) now
      result process.server.host
    simp only [packets, fromNetwork, if_true, Threads.step, srvSpctrlRead]
    split
    · dsimp only
      omega
    · split <;> simp
  | tick =>
    have quiet := packets_adds IsClose _ _
      (disconnect_all_adds program.settings.readFd (due process.server.speakers)
        (process.server.host.note .tick))
      (fun event close => by cases event <;> first | rfl | exact False.elim close)
    simp only [packets, fromNetwork, Threads.step, tick_outcome assumed, quiet]
    simp [isPacket]
  | proceed => exact absurd rfl other
  | command => exact Nat.le_refl _
  | openOther => exact Nat.le_refl _
  | closeOther => exact Nat.le_refl _

/-- The process is no amplifier: while no command is carried out, it sends at most one packet
for each datagram it receives, and one more for each speaker that it registers. -/
theorem no_amplification (process : Process) (inputs : List Input)
    (idle : Input.proceed ∉ inputs) :
    packets ((Threads.machine program).after process inputs) + process.server.speakers.length ≤
      packets process + inputs.countP fromNetwork +
        ((Threads.machine program).after process inputs).server.speakers.length := by
  induction inputs generalizing process with
  | nil => simp [Machine.after]
  | cons input rest inductionHypothesis =>
    have here := step_packets program assumed process input
      (fun same => idle (same ▸ List.mem_cons_self))
    have there := inductionHypothesis (Threads.step program process input)
      (fun member => idle (List.mem_cons_of_mem input member))
    have ends : (Threads.machine program).after process (input :: rest) =
        (Threads.machine program).after (Threads.step program process input) rest := rfl
    rw [ends, List.countP_cons]
    omega

end Amplification

/-- An announcement and a clock request make for a reply, a packet for the new speaker and
the clock. -/
theorem reference_traffic :
    packets ((Threads.machine referenceProgram).after playingProcess
        [announcement, .control [7, 2, 0, 0] 100 0, .tick]) ≤
      0 + 2 + ((Threads.machine referenceProgram).after playingProcess
        [announcement, .control [7, 2, 0, 0] 100 0, .tick]).server.speakers.length :=
  no_amplification referenceProgram (Common.reference_assumed 1) playingProcess
    [announcement, .control [7, 2, 0, 0] 100 0, .tick] (by simp [announcement])

end Castserver.Traffic
