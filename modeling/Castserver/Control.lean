import Castserver.Pusher

/-!
# Control packages

The sending side of `server_speaker_control.c`: one package to one speaker, the
clock reply, and the broadcast of a sample format to every online speaker.
-/

namespace Castserver.Control

open Speakers Pusher

/-- Send a control package to an online speaker with a data port. The result of
`sendto` passes through an unsigned variable before it is tested. -/
def serverSpctrlSendtoSpeaker (speaker : Speaker) (package : ControlPackage) (result : Int)
    (host : Host) : Host × Int :=
  if speaker.dport = 0 ∨ speaker.state ≠ .online then (host, 1)
  else (host.note (.control speaker.id package result), if sizeT result < 0 then 1 else 0)

/-- Encode and send a control package. -/
def serverSpctrlSpeaker (speaker : Speaker) (package : ControlPackage) (result : Int)
    (host : Host) : Host × Int :=
  serverSpctrlSendtoSpeaker speaker package result host

/-- Start a speaker's clock. -/
def serverSpctrlSetTime (now : Nat) (speaker : Speaker) : Speaker :=
  { speaker with connTime := now }

/-- Answer a time request of the speaker with the given id. -/
def spctrlTime (speakers : List Speaker) (spid now : Nat) (result : Int) (host : Host) : Host :=
  match findSpeakerById speakers spid with
  | none => host
  | some sp => (serverSpctrlSpeaker sp (.time now (now - sp.connTime)) result host).1

/-- Send a sample format to every online speaker, each with its own channel. -/
def serverSpctrlFormat (rate bits : Nat) (results : Nat → Int) (speakers : List Speaker)
    (host : Host) : Host :=
  speakers.foldl (fun host s =>
    if s.state = .online then
      (serverSpctrlSpeaker s (.sample bits rate s.channel) (results s.id) host).1
    else host) host

/-- Announce a source's format. The comparison with the configured format has an
empty body in the source and is left out. -/
def serverSpctrlSetFormat (rate bits : Nat) (results : Nat → Int) (speakers : List Speaker)
    (host : Host) : Host :=
  serverSpctrlFormat rate bits results speakers host

/-- A control package reaches the network exactly for an online speaker with a
data port. -/
theorem control_sent (speaker : Speaker) (package : ControlPackage) (result : Int) (host : Host) :
    (serverSpctrlSpeaker speaker package result host).1 =
      if speaker.dport ≠ 0 ∧ speaker.state = .online then
        host.note (.control speaker.id package result)
      else host := by
  by_cases port : speaker.dport = 0
  · simp [serverSpctrlSpeaker, serverSpctrlSendtoSpeaker, port]
  · by_cases online : speaker.state = .online <;>
      simp [serverSpctrlSpeaker, serverSpctrlSendtoSpeaker, port, online]

/-- To an online record a control package is sent unless its data port is zero. -/
theorem control_sent_online (speaker : Speaker) (package : ControlPackage) (result : Int)
    (host : Host) (online : speaker.state = .online) :
    (serverSpctrlSpeaker speaker package result host).1 =
      if speaker.dport ≠ 0 then host.note (.control speaker.id package result) else host := by
  simp [control_sent, online]

/-- Sending a control package opens and closes no descriptor. -/
@[simp] theorem control_table (speaker : Speaker) (package : ControlPackage) (result : Int)
    (host : Host) : (serverSpctrlSpeaker speaker package result host).1.table = host.table := by
  rw [control_sent]
  split <;> rfl

/-- One round of the format broadcast. -/
theorem format_cons (rate bits : Nat) (results : Nat → Int) (speaker : Speaker)
    (rest : List Speaker) (host : Host) :
    serverSpctrlFormat rate bits results (speaker :: rest) host =
      serverSpctrlFormat rate bits results rest
        (if speaker.dport ≠ 0 ∧ speaker.state = .online then
          host.note (.control speaker.id (.sample bits rate speaker.channel) (results speaker.id))
        else host) := by
  simp only [serverSpctrlFormat, List.foldl_cons, control_sent]
  congr 1
  by_cases online : speaker.state = .online <;> simp [online]

/-- The format broadcast opens and closes no descriptor. -/
@[simp] theorem format_table (rate bits : Nat) (results : Nat → Int) (speakers : List Speaker)
    (host : Host) : (serverSpctrlFormat rate bits results speakers host).table = host.table := by
  induction speakers generalizing host with
  | nil => rfl
  | cons speaker rest inductionHypothesis =>
    rw [format_cons, inductionHypothesis]
    split <;> rfl

/-- A clock reply opens and closes no descriptor. -/
@[simp] theorem time_table (speakers : List Speaker) (spid now : Nat) (result : Int)
    (host : Host) : (spctrlTime speakers spid now result host).table = host.table := by
  unfold spctrlTime
  split
  · rfl
  · exact control_table _ _ _ _

end Castserver.Control
