import Castserver.Audience
import Castserver.Pipeline

/-!
# A file that is played

The client reads a file and sends it, the control thread receives it and passes it to
`cmd_wave`, and its datagrams go out one by one between the steps of the other threads. On
a network that behaves, and for a file and a format whose sizes fit, the file is handed to
`sendto` for each speaker of its channel from the first chunk on, and nothing else is: what has
not been handed over yet is left to the control thread, is on its way to it, or has not been
read by the client.
-/

namespace Castserver.Performance

open Speakers Service Dispatcher Pushwave Exchange Transmission Pipeline Playing Threads Audience
open Channels (Pcm referenceEnvironment freshState)
open WaveEnds (Playback)
open WaveTask (Statics waveWork statics)
open Audio (Plays)
open Library.Runs Library.Simulations Library.Slices Library.Tasks

/-- The first message of a file arrives at the control thread. -/
def play (setting : Setting) (playback : Playback) (fuel : Nat) : Input :=
  .command (received setting.socketBuffer (head setting)) (head setting).length playback fuel

/-- No message arrives at the control thread. -/
def Uncommanded (inputs : List Input) : Prop :=
  ∀ buf len playback fuel, .command buf len playback fuel ∉ inputs

/-- The argument of `cmd_wave` is what stands behind the name of the command. -/
theorem argument_received (socketBuffer : Nat → UInt8) (data : List UInt8) :
    argument (received socketBuffer (pushwave ++ data)) (some 12) data.length = some data := by
  have size : pushwave.length = 12 := rfl
  refine congrArg some (List.ext_getElem (by simp) fun i inside there => ?_)
  rw [List.getElem_map, List.getElem_range, received, List.getD_eq_getElem?_getD, ← size,
    List.getElem?_append_right (Nat.le_add_right _ _), Nat.add_sub_cancel_left,
    List.getElem?_eq_getElem there]
  rfl

section Dispatch

variable (program : Program) (setting : Setting) (sized : Sized setting) (statics : Statics)
  (playback : Playback) (fuel : Nat)

include sized

/-- The control thread begins to play the payload of the first message. -/
theorem dispatch_plays :
    Threads.dispatch program statics (received setting.socketBuffer (head setting))
        (head setting).length playback fuel =
      .working
        (waveWork program.env program.headerCheck playback fuel (some (payload setting))
          statics).units
        (waveWork program.env program.headerCheck playback fuel (some (payload setting))
          statics).result := by
  have length := head_length setting sized.headSize
  have called := wave_called setting.socketBuffer (payload setting) controlBufferSize (by decide)
  have behind := argument_received setting.socketBuffer (payload setting)
  rw [payload_length setting sized.headSize] at behind
  rw [length, Threads.dispatch, head, called, if_neg (by decide)]
  simp only [behind]

/-- What begins with a file and nothing behind it is the work of playing it. -/
theorem play_begins (process : Process) (rest : List Input) (alone : Uncommanded rest) :
    trace (Threads.machine program) (begun program) process (play setting playback fuel :: rest) =
      (waveWork program.env program.headerCheck playback fuel (some (payload setting))
        process.statics).units := by
  have silent (state : Process) (inputs : List Input) (quiet : Uncommanded inputs) :
      trace (Threads.machine program) (begun program) state inputs = [] := by
    induction inputs generalizing state with
    | nil => rfl
    | cons input more inductionHypothesis =>
      have later : Uncommanded more := fun buf len playback fuel member =>
        quiet buf len playback fuel (List.mem_cons_of_mem input member)
      rw [trace, inductionHypothesis _ later, List.append_nil]
      cases input with
      | command buf len playback fuel =>
        exact absurd List.mem_cons_self (quiet buf len playback fuel)
      | _ => rfl
  rw [trace, silent _ rest alone, List.append_nil, play, begun,
    dispatch_plays program setting sized process.statics playback fuel, left]

end Dispatch

/-- A file with one channel is played on a network that behaves, while the other threads take
whatever steps they take. The file fills the first message and whole chunks behind it, the first
receive takes the whole message and the later ones fill the buffer, and the sizes of the chunks
fit the pusher. Then the file's chunks have been handed to `sendto` in order for a registered
speaker of the channel, on the descriptor that is connected to it, and what is missing is left
to the control thread, on its way to it, or still to be read by the client. -/
theorem file_is_played (program : Program) (assumed : program.env.common.Assumed)
    (encodes : program.env.pcm.Assumed) (limit : Nat)
    (refreshes : ∀ speaker, (program.env.common.checkOnline speaker).timeout = limit)
    (setting : Setting) (playable : Playable setting) (surrounds : setting.env = program.env)
    (checks : setting.headerCheck = program.headerCheck)
    (full : setting.first = controlBufferSize) (mono : setting.format.channels = 1)
    (actions : List Exchange.Action) (pieces : List (List UInt8))
    (exchanged : (Exchange.machine setting).Admissible start actions)
    (arrived : trace (Exchange.machine setting) arrivals start actions = head setting :: pieces)
    (filled : Filled setting.chunk
      (((payload setting).length - setting.headerCheck (payload setting)) % setting.chunk) pieces)
    (ch : Nat) (only : setting.chlist = [ch]) (bits frames fuel : Nat) (allocated : List UInt8)
    (results : Nat → Int)
    (plays : Plays setting.env setting.headerCheck (playback setting allocated results pieces)
      bits frames fuel (payload setting)) (size : allocated.length = setting.chunk)
    (id : Nat) (list : List Nat) (channel : setting.env.speakerList ch = some list)
    (unique : list.Nodup) (listed : id ∈ list)
    (process : Process) (booted : Booted program.settings process.server)
    (sends : process.thread.Sends) (earlier rest : List Input) (alone : Uncommanded rest)
    (admissible : (Threads.machine program).Admissible process
      (earlier ++ play setting (playback setting allocated results pieces) fuel :: rest))
    (behaves : (Threads.machine program).Along (BehavesNext program limit) process
      (earlier ++ play setting (playback setting allocated results pieces) fuel :: rest))
    (registered : id ∈ ids ((Threads.machine program).after process earlier).server.speakers) :
    let middle := (Threads.machine program).after process earlier
    let final := (Threads.machine program).after middle
      (play setting (playback setting allocated results pieces) fuel :: rest)
    ∃ sent received,
      (packages id final.server.host.events).reverse =
        (packages id middle.server.host.events).reverse ++ sent ∧
      (sent ++ pushed id (left final.thread)).map (List.drop program.env.pcm.headerSize) =
        slices setting.chunk received ∧
      received ++ pending setting ((Exchange.machine setting).after start actions) =
        setting.file.drop (setting.headerCheck (payload setting)) ∧
      ∀ event ∈ final.server.host.events, Routed final.server.host event := by
  intro middle final
  obtain ⟨first, second⟩ := ((Threads.machine program).along_append _ process earlier _).mp
    admissible
  obtain ⟨behavesFirst, behavesSecond⟩ :=
    ((Threads.machine program).along_append _ process earlier _).mp behaves
  have healthy := run_healthy program assumed refreshes process earlier sends first behavesFirst
    (booted_healthy program limit process.server booted)
  have stillSends := run_sends program process earlier sends
  have waiting : middle.thread = .waiting := second.1.2
  obtain ⟨sent, same, _, _⟩ := process_sends_packages program assumed id middle
    (play setting (playback setting allocated results pieces) fuel :: rest)
    healthy.counted.unique
  have kept := healthy_loses_nothing program assumed refreshes id middle _ stillSends second
    behavesSecond healthy registered
  rw [same, waiting, play_begins program setting playable.sized _ fuel middle rest alone,
    List.append_assoc, List.append_cancel_left_eq, ← checks, ← surrounds] at kept
  obtain ⟨splits, conserved⟩ := file_received setting playable
    (plays_return setting bits frames fuel allocated results pieces plays) full actions pieces
    exchanged arrived
  rw [← surrounds] at encodes
  have chunks := chunks_pushed setting bits frames fuel allocated results middle.statics pieces
    plays encodes mono ch only id list channel unique listed size splits filled
  refine ⟨sent, _, same, ?_, conserved, ?_⟩
  · rw [kept, ← surrounds]
    exact chunks
  · exact (run_healthy program assumed refreshes middle _ stillSends second behavesSecond
      healthy).routed

/-- A process that has just started and waits for a message. -/
def waitingProcess : Process := { playingProcess with thread := .waiting }

/-- The speaker 7 announces itself, a message arrives, and the monitor passes before the first
unit of its work. -/
def performance (message : Input) : List Input :=
  [announcement] ++ message :: [.tick, .proceed]

/-- The performance of a message that begins to play is possible. -/
theorem performance_admissible (buf : Nat → UInt8) (len : Nat) (playback : Playback) (fuel : Nat)
    (units : List Service.Action) (result : Except Channels.Fault (Statics × Int))
    (plays : Threads.dispatch referenceProgram waitingProcess.statics buf len playback fuel =
      .working units result) :
    (Threads.machine referenceProgram).Admissible waitingProcess
      (performance (.command buf len playback fuel)) := by
  have working : ((Threads.machine referenceProgram).after waitingProcess
      [announcement, .command buf len playback fuel]).thread = .working units result := plays
  refine ⟨⟨nofun, ?_⟩, ⟨nofun, rfl⟩, ⟨?_, trivial⟩, ⟨?_, ?_⟩, trivial⟩
  · intro fd handed
    rw [← Option.some.inj handed]
    rfl
  all_goals
    intro impossible
    cases working.symm.trans impossible

/-- The network behaves during the performance of any message. -/
theorem performance_behaves (buf : Nat → UInt8) (len : Nat) (playback : Playback) (fuel : Nat) :
    (Threads.machine referenceProgram).Along (BehavesNext referenceProgram 1) waitingProcess
      (performance (.command buf len playback fuel)) := by
  refine ⟨?_, ?_, ?_, ?_, trivial⟩
  · intro action member
    obtain rfl := List.mem_singleton.mp member
    exact fun _ => ⟨by decide, fun _ => ⟨by decide, rfl, 5, rfl, by decide⟩⟩
  · intro action member
    cases member
  · intro action member
    obtain rfl := List.mem_singleton.mp member
    intro sp registered
    obtain rfl := List.mem_singleton.mp registered
    exact ⟨0, rfl, by decide⟩
  · exact sending_behaves referenceProgram 1 _ (run_sends referenceProgram waitingProcess
      [announcement, .command buf len playback fuel, .tick] trivial)

/-- In the performance of a file every chunk is handed over for the speaker 7, or left. -/
theorem performance_loses_nothing :
    let middle := (Threads.machine referenceProgram).after waitingProcess [announcement]
    let final := (Threads.machine referenceProgram).after middle
      (play monoSetting (playback monoSetting (List.replicate 8 0) (fun _ => 0) []) 5000 ::
        [.tick, .proceed])
    ∃ sent received,
      (packages 7 final.server.host.events).reverse =
        (packages 7 middle.server.host.events).reverse ++ sent ∧
      (sent ++ pushed 7 (left final.thread)).map (List.drop 4) = slices 8 received ∧
      received ++ pending monoSetting ((Exchange.machine monoSetting).after start
        [.client, .serverRecv controlBufferSize]) = monoSetting.file.drop 44 := by
  have registered : 7 ∈ ids ((Threads.machine referenceProgram).after waitingProcess
      [announcement]).server.speakers := by
    decide
  obtain ⟨sent, received, same, chunks, conserved, _⟩ := file_is_played referenceProgram
    (Common.reference_assumed 1) Pcm.reference_assumed 1 (fun _ => rfl) monoSetting mono_playable
    rfl rfl rfl rfl [.client, .serverRecv controlBufferSize] [] first_message_arrives.1
    first_message_arrives.2 trivial 7 rfl 2 4 5000 (List.replicate 8 0) (fun _ => 0) mono_plays rfl 7
    [7] rfl (List.nodup_singleton 7) (List.mem_singleton_self 7) waitingProcess fresh_booted trivial
    [announcement] [.tick, .proceed] (fun _ _ _ _ => by simp)
    (performance_admissible _ _ _ _ _ _ (dispatch_plays referenceProgram monoSetting
      mono_playable.sized waitingProcess.statics _ 5000))
    (performance_behaves _ _ _ _) registered
  rw [mono_header] at conserved
  refine ⟨sent, received, ?_, ?_, ?_⟩
  · exact same
  · exact chunks
  · exact conserved

end Castserver.Performance
