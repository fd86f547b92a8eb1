import Castserver.Threads
import Mathlib.Data.List.Sublists

/-!
# Audio under interleaving

While the control thread plays files, announcements, passes of the monitor and clock
requests fall between any two of its datagrams, each as one step. What is handed to `sendto`
for a speaker is still a subsequence of what the commands amount to for it, in order and
nothing twice. A datagram is left out exactly if the speaker's record does not let it through
at that moment. What `sendto` answers plays no part in this.
-/

namespace Castserver.Playing

open Speakers Pusher Detect Service Channels Threads
open Library.Runs Library.Histories Library.Simulations

/-- The packages of the datagrams handed to `sendto` for an id, latest first. -/
def packages (id : Nat) (events : List Event) : List (List UInt8) :=
  events.filterMap fun
    | .datagram other _ _ _ package => if other = id then some package else none
    | _ => none

/-- The packages that some actions push to an id, in order. -/
def pushed (id : Nat) (actions : List Action) : List (List UInt8) :=
  actions.filterMap fun
    | .push other package _ => if other = id then some package else none
    | _ => none

/-- The record of an id lets a datagram through to `sendto`. -/
def Ready (id : Nat) (server : Server) : Prop :=
  ∃ sp, findSpeakerById server.speakers id = some sp ∧ unreachable sp = false ∧
    sp.supported = true

/-- Whatever is pushed to the id with an action can be sent. -/
def Reaching (id : Nat) (server : Server) (action : Action) : Prop :=
  ∀ package result, action = .push id package result → Ready id server

/-- The packages that are pushed by two lists of actions, one behind the other. -/
theorem pushed_append (id : Nat) (first second : List Action) :
    pushed id (first ++ second) = pushed id first ++ pushed id second :=
  List.filterMap_append

/-- Additions that are no datagrams leave the packages as they are. -/
theorem packages_adds (id : Nat) (kind : Event → Prop) (before after : List Event)
    (adds : Adds kind before after)
    (silent : ∀ other fd ip port package, ¬ kind (.datagram other fd ip port package)) :
    packages id after = packages id before := by
  obtain ⟨fresh, rfl, fits⟩ := adds
  have none : packages id fresh = [] := by
    rw [packages, List.filterMap_eq_nil_iff]
    intro event member
    have fit := fits event member
    cases event with
    | datagram other fd ip port package => exact absurd fit (silent other fd ip port package)
    | _ => rfl
  rw [packages, List.filterMap_append]
  exact congrArg (· ++ packages id before) none

section Service

variable {common : Common} (assumed : common.Assumed) (settings : Settings)

include assumed

omit assumed in
/-- A disconnect sends nothing. -/
theorem disconnect_sends (id : Nat) (sp : Speaker) (host : Host) :
    packages id (serverSppushDisconnect settings.readFd sp host).events =
      packages id host.events :=
  packages_adds id IsClose _ _ (disconnect_adds settings.readFd sp host) (by simp [IsClose])

/-- A datagram is sent if the record of its speaker can be sent to, and nothing is sent if it
cannot. -/
theorem push_sends_package (id : Nat) (package : List UInt8) (result : Int) (server : Server)
    (unique : (ids server.speakers).Nodup) :
    Ready id server ∧ packages id (step common settings server
        (.push id package result)).host.events = package :: packages id server.host.events ∨
      ¬ Ready id server ∧ packages id (step common settings server
        (.push id package result)).host.events = packages id server.host.events := by
  have outcome := push_outcome assumed settings id package result server unique
  generalize step common settings server (.push id package result) = after at outcome ⊢
  have ready (sp : Speaker) (known : findSpeakerById server.speakers id = some sp) :
      Ready id server ↔ unreachable sp = false ∧ sp.supported = true := by
    constructor
    · rintro ⟨other, found, met⟩
      obtain rfl := Option.some.inj (known.symm.trans found)
      exact met
    · exact fun met => ⟨sp, known, met⟩
  cases outcome with
  | absent unknown =>
    refine Or.inr ⟨?_, rfl⟩
    rintro ⟨sp, known, _⟩
    rw [unknown] at known
    cases known
  | refreshed sp timeout known guarded given =>
    refine Or.inr ⟨?_, disconnect_sends settings id sp server.host⟩
    rw [ready sp known, guarded]
    simp
  | unsupported sp known passed refused =>
    refine Or.inr ⟨?_, disconnect_sends settings id sp server.host⟩
    rw [ready sp known, refused]
    simp
  | sent sp known passed supported =>
    obtain ⟨_, sameId⟩ := find_speaker_some server.speakers id sp known
    exact Or.inl ⟨(ready sp known).mpr ⟨passed, supported⟩, by simp [packages, note, sameId]⟩

/-- An action that pushes nothing to an id sends no package to it. -/
theorem other_sends_nothing (id : Nat) (server : Server) (action : Action)
    (unique : (ids server.speakers).Nodup)
    (apart : ∀ package result, action ≠ .push id package result) :
    packages id (step common settings server action).host.events =
      packages id server.host.events := by
  cases action with
  | push other package result =>
    have different : other ≠ id := by
      rintro rfl
      exact apart package result rfl
    have outcome := push_outcome assumed settings other package result server unique
    generalize step common settings server (.push other package result) = after at outcome ⊢
    cases outcome with
    | absent => rfl
    | refreshed sp => exact disconnect_sends settings id sp server.host
    | unsupported sp => exact disconnect_sends settings id sp server.host
    | sent sp known =>
      obtain ⟨_, sameId⟩ := find_speaker_some server.speakers other sp known
      simp [packages, note, sameId, different]
  | _ =>
    exact packages_adds id _ _ _ (step_adds assumed settings server _ unique) (by simp [Makes])

/-- A step sends the package it pushes to an id, if the record of the id can be sent to, and
nothing else to it. -/
theorem step_sends_packages (id : Nat) (server : Server) (action : Action)
    (unique : (ids server.speakers).Nodup) :
    ∃ sent, packages id (step common settings server action).host.events =
        sent ++ packages id server.host.events ∧
      (sent = pushed id [action] ∨ sent = []) ∧
      (sent = pushed id [action] ↔ Reaching id server action) := by
  by_cases pushing : ∃ package result, action = .push id package result
  · obtain ⟨package, result, rfl⟩ := pushing
    have pushes : pushed id [.push id package result] = [package] := by simp [pushed]
    rw [pushes]
    rcases push_sends_package assumed settings id package result server unique with
      ⟨ready, same⟩ | ⟨unready, same⟩
    · exact ⟨[package], same, Or.inl rfl, iff_of_true rfl fun _ _ _ => ready⟩
    · refine ⟨[], same, Or.inr rfl, iff_of_false (by simp) fun reaching => ?_⟩
      exact unready (reaching package result rfl)
  · have apart : ∀ package result, action ≠ .push id package result :=
      fun package result same => pushing ⟨package, result, same⟩
    have none : pushed id [action] = [] := by
      rw [pushed, List.filterMap_eq_nil_iff]
      intro other member
      obtain rfl := List.mem_singleton.mp member
      cases other with
      | push other package result =>
        apply if_neg
        rintro rfl
        exact apart package result rfl
      | _ => rfl
    refine ⟨[], other_sends_nothing assumed settings id server action unique apart, Or.inr rfl,
      iff_of_true none.symm ?_⟩
    exact fun package result same => absurd same (apart package result)

/-- A run sends to an id a subsequence of what it pushes to it, and all of it exactly if the
record of the id could be sent to every time. -/
theorem run_sends_packages (id : Nat) (server : Server) (actions : List Action)
    (unique : (ids server.speakers).Nodup) :
    ∃ sent, (packages id ((machine common settings).after server actions).host.events).reverse =
        (packages id server.host.events).reverse ++ sent ∧
      sent.Sublist (pushed id actions) ∧
      (sent = pushed id actions ↔ (machine common settings).Along (Reaching id) server actions) := by
  induction actions generalizing server with
  | nil => exact ⟨[], by simp [Machine.after], List.Sublist.refl _, by simp [pushed, Machine.Along]⟩
  | cons action rest inductionHypothesis =>
    obtain ⟨first, here, either, firstIff⟩ :=
      step_sends_packages assumed settings id server action unique
    obtain ⟨later, there, inOrder, laterIff⟩ :=
      inductionHypothesis (step common settings server action)
        (unique_step assumed settings server action unique)
    have short : first.reverse = first := by
      rcases either with rfl | rfl
      · cases action with
        | push other package result =>
          by_cases own : other = id <;> simp [pushed, own]
        | _ => rfl
      · rfl
    have cut : pushed id (action :: rest) = pushed id [action] ++ pushed id rest :=
      pushed_append id [action] rest
    have part : first.Sublist (pushed id [action]) := by
      rcases either with rfl | rfl
      · exact List.Sublist.refl _
      · exact List.nil_sublist _
    refine ⟨first ++ later, ?_, ?_, ?_⟩
    · have ends : (machine common settings).after server (action :: rest) =
          (machine common settings).after (step common settings server action) rest := rfl
      rw [ends, there, here, List.reverse_append, short, List.append_assoc]
    · rw [cut]
      exact part.append inOrder
    · rw [cut, Machine.Along]
      constructor
      · intro whole
        have sizes := congrArg List.length whole
        have fewer := part.length_le
        have less := inOrder.length_le
        simp only [List.length_append] at sizes
        refine ⟨firstIff.mp (part.eq_of_length (by omega)), ?_⟩
        exact laterIff.mp (inOrder.eq_of_length (by omega))
      · rintro ⟨reaching, others⟩
        rw [firstIff.mpr reaching, laterIff.mpr others]

end Service

/-- What the control thread has left to do. -/
def left : Thread → List Action
  | .working units _ => units
  | .waiting | .crashed => []

section Process

variable (program : Program)

/-- What the command that begins with a step amounts to. -/
def begun (process : Process) : Input → List Action
  | .command buf len playback fuel =>
    left (Threads.dispatch program process.statics buf len playback fuel)
  | _ => []

/-- The unit that the control thread does in a step. -/
def carried (process : Process) : Input → List Action
  | .proceed => (left process.thread).take 1
  | _ => []

/-- What has begun has been carried out or is left. -/
theorem step_carries_out (process : Process) (input : Input)
    (possible : Threads.enabled program process input) :
    carried process input ++ left (Threads.step program process input).thread =
      left process.thread ++ begun program process input := by
  cases input with
  | command buf len playback fuel =>
    have waiting : process.thread = .waiting := possible.2
    simp [carried, begun, Threads.step, waiting, left]
  | proceed =>
    simp only [carried, begun, Threads.step, proceed]
    cases stage : process.thread with
    | working units result =>
      cases units with
      | cons unit rest => simp [left]
      | nil =>
        cases result with
        | ok ending => simp [left]
        | error fault => cases fault <;> simp [left, stage]
    | _ => simp [left, stage]
  | _ => simp [carried, begun, Threads.step]

/-- Along a run, what has begun has been carried out or is left. -/
theorem run_carries_out (process : Process) (inputs : List Input)
    (admissible : (Threads.machine program).Admissible process inputs) :
    trace (Threads.machine program) carried process inputs ++
        left ((Threads.machine program).after process inputs).thread =
      left process.thread ++ trace (Threads.machine program) (begun program) process inputs := by
  induction inputs generalizing process with
  | nil => simp [trace, Machine.after]
  | cons input rest inductionHypothesis =>
    have here := step_carries_out program process input admissible.1
    have there := inductionHypothesis (Threads.step program process input) admissible.2
    simp only [trace, List.append_assoc]
    rw [← List.append_assoc (left process.thread), ← here, List.append_assoc]
    exact congrArg (carried process input ++ ·) there

/-- Only the control thread pushes. -/
theorem moves_pushed (id : Nat) (process : Process) (input : Input) :
    pushed id (moves program process input) = pushed id (carried process input) := by
  cases input with
  | proceed =>
    simp only [moves, carried]
    cases process.thread with
    | working units result => cases units <;> rfl
    | _ => rfl
  | detect => simp only [moves]; split <;> rfl
  | control => simp only [moves]; split <;> rfl
  | _ => rfl

/-- Along a run, only the control thread pushes. -/
theorem trace_pushed (id : Nat) (process : Process) (inputs : List Input) :
    pushed id (trace (Threads.machine program) (moves program) process inputs) =
      pushed id (trace (Threads.machine program) carried process inputs) := by
  induction inputs generalizing process with
  | nil => rfl
  | cons input rest inductionHypothesis =>
    rw [trace, trace, pushed_append, pushed_append, moves_pushed, inductionHypothesis]

/-- What has been pushed to an id in a run, and what is left to push, is all that has begun. -/
theorem pushed_or_left (id : Nat) (process : Process) (inputs : List Input)
    (admissible : (Threads.machine program).Admissible process inputs) :
    pushed id (trace (Threads.machine program) (moves program) process inputs) ++
        pushed id (left ((Threads.machine program).after process inputs).thread) =
      pushed id (left process.thread ++
        trace (Threads.machine program) (begun program) process inputs) := by
  rw [trace_pushed, ← pushed_append]
  exact congrArg (pushed id) (run_carries_out program process inputs admissible)

/-- A run of the process sends to an id a subsequence of what its server is told to push, and all
of it exactly if the record of the id could be sent to every time. -/
theorem process_sends_packages (assumed : program.env.common.Assumed) (id : Nat)
    (process : Process) (inputs : List Input) (unique : (ids process.server.speakers).Nodup) :
    ∃ sent,
      (packages id ((Threads.machine program).after process inputs).server.host.events).reverse =
        (packages id process.server.host.events).reverse ++ sent ∧
      sent.Sublist (pushed id (trace (Threads.machine program) (moves program) process inputs)) ∧
      (sent = pushed id (trace (Threads.machine program) (moves program) process inputs) ↔
        (service program).Along (Reaching id) process.server
          (trace (Threads.machine program) (moves program) process inputs)) := by
  rw [view_after (Threads.machine program) (service program) (moves program) Process.server
    (step_moves program) process inputs]
  exact run_sends_packages assumed program.settings id process.server _ unique

/-- Nothing of what has begun for an id is lost, but sent or left, exactly if the record of the
id could be sent to every time. -/
theorem nothing_lost_iff (assumed : program.env.common.Assumed) (id : Nat) (process : Process)
    (inputs : List Input) (unique : (ids process.server.speakers).Nodup)
    (admissible : (Threads.machine program).Admissible process inputs) :
    (packages id ((Threads.machine program).after process inputs).server.host.events).reverse ++
        pushed id (left ((Threads.machine program).after process inputs).thread) =
      (packages id process.server.host.events).reverse ++ pushed id (left process.thread ++
        trace (Threads.machine program) (begun program) process inputs) ↔
    (service program).Along (Reaching id) process.server
      (trace (Threads.machine program) (moves program) process inputs) := by
  obtain ⟨sent, same, _, whole⟩ :=
    process_sends_packages program assumed id process inputs unique
  rw [← whole, ← pushed_or_left program id process inputs admissible, same,
    List.append_assoc, List.append_cancel_left_eq, List.append_cancel_right_eq]

/-- A step of the process is at most one action of its server. -/
theorem moves_single (process : Process) (input : Input) :
    moves program process input = [] ∨ ∃ action, moves program process input = [action] := by
  cases input with
  | detect =>
    simp only [moves]
    split
    · exact Or.inr ⟨_, rfl⟩
    · exact Or.inl rfl
  | control =>
    simp only [moves]
    split
    · exact Or.inr ⟨_, rfl⟩
    · exact Or.inl rfl
  | proceed =>
    simp only [moves]
    split
    · exact Or.inr ⟨_, rfl⟩
    · exact Or.inl rfl
  | command => exact Or.inl rfl
  | _ => exact Or.inr ⟨_, rfl⟩

/-- If the control thread is about to push to an id, the record of the id can be sent to. -/
def ReachesNext (id : Nat) (process : Process) (input : Input) : Prop :=
  ∀ action ∈ moves program process input, Reaching id process.server action

/-- The packages that are handed to `sendto` for a speaker in a run of the process, whatever
steps the other threads take in between, are a subsequence of those of the commands, in their
order. Once the control thread is done they are all of them exactly if the record of the
speaker let them through whenever its turn came. -/
theorem audio_in_order (assumed : program.env.common.Assumed) (id : Nat) (process : Process)
    (inputs : List Input) (unique : (ids process.server.speakers).Nodup)
    (admissible : (Threads.machine program).Admissible process inputs) :
    ∃ sent,
      (packages id ((Threads.machine program).after process inputs).server.host.events).reverse =
        (packages id process.server.host.events).reverse ++ sent ∧
      sent.Sublist (pushed id (left process.thread ++
        trace (Threads.machine program) (begun program) process inputs)) ∧
      (left ((Threads.machine program).after process inputs).thread = [] →
        (sent = pushed id (left process.thread ++
            trace (Threads.machine program) (begun program) process inputs) ↔
          (Threads.machine program).Along (ReachesNext program id) process inputs)) := by
  obtain ⟨sent, same, inOrder, whole⟩ :=
    process_sends_packages program assumed id process inputs unique
  have carriedOut := pushed_or_left program id process inputs admissible
  refine ⟨sent, same, ?_, ?_⟩
  · rw [← carriedOut]
    exact inOrder.trans (List.sublist_append_left _ _)
  · intro nothing
    rw [nothing] at carriedOut
    have all : pushed id (trace (Threads.machine program) (moves program) process inputs) =
        pushed id (left process.thread ++
          trace (Threads.machine program) (begun program) process inputs) := by
      rw [← carriedOut]
      exact (List.append_nil _).symm
    rw [← all, whole]
    rw [along_trace (Threads.machine program) (service program) (moves program) Process.server
      (step_moves program) (Reaching id) process inputs]
    apply (Threads.machine program).along_congr
    intro state input
    rcases moves_single program state input with none | ⟨action, one⟩
    · simp [ReachesNext, none, Machine.Along]
    · simp [ReachesNext, one, Machine.Along]

end Process

/-- The speaker 7 announces itself in time for the datagram that is left for it. -/
theorem reference_audio_in_order :
    ∃ sent, (packages 7 ((Threads.machine referenceProgram).after playingProcess
        referenceInputs).server.host.events).reverse = [] ++ sent ∧
      sent.Sublist [[1, 2]] := by
  obtain ⟨sent, same, inOrder, _⟩ := audio_in_order referenceProgram
    (Common.reference_assumed 1) 7 playingProcess referenceInputs List.nodup_nil
    reference_admissible
  exact ⟨sent, same, inOrder⟩

end Castserver.Playing
