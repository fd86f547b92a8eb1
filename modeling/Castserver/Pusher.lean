import Castserver.Speakers
import Mathlib.Tactic.Ring

/-!
# Connecting, disconnecting and sending to one speaker

The functions of `server_speaker_pusher.c` that work on one speaker record.
Every speaker gets a datagram socket of its own when it is connected; where no
socket can be opened its record falls back to the shared descriptor
`conn.read_fd`. Disconnecting closes the number in the record and leaves that
number in place.
-/

namespace Castserver.Pusher

open Speakers

/-- Answers of the kernel and the heap during one `valid_speaker` call. -/
structure Answers where
  allocated : Bool
  socket : Option Nat
  connected : Bool
  sendto : Int
  now : Nat
deriving DecidableEq, Repr

/-- Return codes of `server_sppush_connect`. -/
inductive ConnectCode where
  | ok
  | errorSpeaker
  | errorSocket
deriving DecidableEq, Repr

/-- A `ssize_t` result stored in a `size_t` variable. -/
def sizeT (value : Int) : Nat := (value % 2 ^ 64).toNat

/-- The number and the table after the `socket` call of `server_sppush_connect`,
with the fallback to the shared descriptor. -/
def openSocket (readFd : Nat) (socket : Option Nat) (id : Nat) (host : Host) : Nat × Host :=
  match socket with
  | some fd => (fd, host.openFor id fd)
  | none => (readFd, host)

/-- Pre-connect a speaker's own socket to its address. -/
def serverSppushConnect (readFd : Nat) (answers : Answers) (speaker : Speaker) (host : Host) :
    Speaker × Host × ConnectCode :=
  if !speaker.supported then (speaker, host, .errorSpeaker)
  else if speaker.state ≠ .online then (speaker, host, .errorSpeaker)
  else
    let (fd, opened) := openSocket readFd answers.socket speaker.id host
    let speaker := { speaker with fd := fd }
    if answers.connected then
      (speaker, opened.connect fd (speaker.ip, speaker.dport), .ok)
    else
      (speaker, opened, .errorSocket)

/-- Whether `server_sppush_disconnect` gets as far as its `close`. -/
def closes (readFd : Nat) (speaker : Speaker) : Bool :=
  !(decide (speaker.fd < 0) || decide (speaker.fd = readFd))

/-- Close a speaker's descriptor number. The record keeps the number. -/
def serverSppushDisconnect (readFd : Nat) (speaker : Speaker) (host : Host) : Host :=
  if closes readFd speaker then host.close speaker.id speaker.fd.toNat else host

/-- The guard of `pusher_sendto_speaker`: nothing can be sent to this record. -/
def unreachable (speaker : Speaker) : Bool :=
  decide (speaker.dport = 0) || decide (speaker.state ≠ .online) || decide (speaker.fd ≤ 0)

/-- Send one datagram to a speaker. A record that fails the guard is refreshed
and disconnected, an unsupported one only disconnected. The result of `sendto`
passes through an unsigned variable before it is tested. -/
def pusherSendtoSpeaker (common : Common) (readFd : Nat) (package : List UInt8) (result : Int)
    (speaker : Speaker) (host : Host) : Speaker × Host × Int :=
  if unreachable speaker then
    let speaker := common.checkOnline speaker
    (speaker, serverSppushDisconnect readFd speaker host, 1)
  else if !speaker.supported then
    (speaker, serverSppushDisconnect readFd speaker host, 1)
  else
    (speaker, host.note (.datagram speaker.id speaker.fd speaker.ip speaker.dport package),
      if sizeT result < 0 then 1 else 0)

/-- The host after a connect that reaches its `socket` call: the number it got is
connected when `connect` succeeds. -/
def connectedHost (readFd : Nat) (answers : Answers) (speaker : Speaker) (host : Host) : Host :=
  let (fd, opened) := openSocket readFd answers.socket speaker.id host
  if answers.connected then opened.connect fd (speaker.ip, speaker.dport) else opened

/-- A connect of a supported online record stores the number it got. -/
theorem connect_online (readFd : Nat) (answers : Answers) (speaker : Speaker) (host : Host)
    (supported : speaker.supported = true) (online : speaker.state = .online) :
    ∃ code, serverSppushConnect readFd answers speaker host =
      ({ speaker with fd := (answers.socket.getD readFd : Nat) },
        connectedHost readFd answers speaker host, code) := by
  cases socket : answers.socket <;> cases connected : answers.connected <;>
    simp [serverSppushConnect, connectedHost, openSocket, supported, online, connected, socket]

/-- A connect of an unsupported record changes nothing; in particular it assigns
no descriptor number. -/
theorem connect_unsupported (readFd : Nat) (answers : Answers) (speaker : Speaker) (host : Host)
    (unsupported : speaker.supported = false) :
    serverSppushConnect readFd answers speaker host = (speaker, host, .errorSpeaker) := by
  simp [serverSppushConnect, unsupported]

/-- Disconnecting depends only on the id and the number in the record. -/
theorem disconnect_congr (readFd : Nat) (first second : Speaker) (host : Host)
    (sameId : first.id = second.id) (sameFd : first.fd = second.fd) :
    serverSppushDisconnect readFd first host = serverSppushDisconnect readFd second host := by
  unfold serverSppushDisconnect closes
  rw [sameId, sameFd]

/-- A disconnect that does not get to its close changes nothing. -/
theorem disconnect_spared (readFd : Nat) (speaker : Speaker) (host : Host)
    (spared : closes readFd speaker = false) :
    serverSppushDisconnect readFd speaker host = host := by
  simp [serverSppushDisconnect, spared]

/-- A disconnect that gets to its close closes the number in the record. -/
theorem disconnect_closing (readFd : Nat) (speaker : Speaker) (host : Host)
    (closing : closes readFd speaker = true) :
    serverSppushDisconnect readFd speaker host = host.close speaker.id speaker.fd.toNat := by
  simp [serverSppushDisconnect, closing]

/-- A number that a disconnect closes is not the shared one. -/
theorem closes_apart (readFd : Nat) (speaker : Speaker) (closing : closes readFd speaker = true) :
    speaker.fd.toNat ≠ readFd ∧ 0 ≤ speaker.fd := by
  simp only [closes, Bool.not_eq_true', Bool.or_eq_false_iff, decide_eq_false_iff_not] at closing
  omega

/-- A disconnect that gets to its close takes the number of the record out of the table. -/
theorem disconnect_table (readFd : Nat) (speaker : Speaker) (host : Host) (fd : Nat) :
    (serverSppushDisconnect readFd speaker host).table fd =
      if closes readFd speaker = true ∧ speaker.fd.toNat = fd then none else host.table fd := by
  cases closing : closes readFd speaker with
  | false => simp [disconnect_spared readFd speaker host closing]
  | true =>
    rw [disconnect_closing readFd speaker host closing, Host.close_table]
    by_cases same : speaker.fd.toNat = fd
    · simp [same]
    · simp [same, Function.update_of_ne (Ne.symm same)]

/-- A record that fails the guard is refreshed and then disconnected. -/
theorem sendto_unreachable (common : Common) (readFd : Nat) (package : List UInt8) (result : Int)
    (speaker : Speaker) (host : Host) (guarded : unreachable speaker = true) :
    pusherSendtoSpeaker common readFd package result speaker host =
      (common.checkOnline speaker,
        serverSppushDisconnect readFd (common.checkOnline speaker) host, 1) := by
  simp [pusherSendtoSpeaker, guarded]

/-- A record that passes the guard but is not supported is disconnected. -/
theorem sendto_unsupported (common : Common) (readFd : Nat) (package : List UInt8) (result : Int)
    (speaker : Speaker) (host : Host) (passed : unreachable speaker = false)
    (unsupported : speaker.supported = false) :
    pusherSendtoSpeaker common readFd package result speaker host =
      (speaker, serverSppushDisconnect readFd speaker host, 1) := by
  simp [pusherSendtoSpeaker, passed, unsupported]

/-- Every other record is sent the package, whatever the network then does. -/
theorem sendto_sent (common : Common) (readFd : Nat) (package : List UInt8) (result : Int)
    (speaker : Speaker) (host : Host) (passed : unreachable speaker = false)
    (supported : speaker.supported = true) :
    pusherSendtoSpeaker common readFd package result speaker host =
      (speaker, host.note (.datagram speaker.id speaker.fd speaker.ip speaker.dport package),
        if sizeT result < 0 then 1 else 0) := by
  simp [pusherSendtoSpeaker, passed, supported]

end Castserver.Pusher
