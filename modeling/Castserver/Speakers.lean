import Mathlib.Logic.Function.Basic
import Mathlib.Data.List.Nodup

/-!
# Speaker records and the host process

The server keeps one list of speaker records. The list, the record type and the
macros on it live in the `common` submodule, which is not part of the
repository; what the server relies on is stated as `Common.Assumed`.

The host side holds what the server's calls change outside its own records: the
process's descriptor table and a history of events, latest first. The history
also receives the calls that start a step, so that a property of a run can be
stated about the state the run ends in.
-/

namespace Castserver.Speakers

/-- The type `addr_t`: an address family and the address itself. -/
structure Addr where
  type : Nat
  bytes : List UInt8
deriving DecidableEq, Repr

/-- The values of `SPEAKER_STAT_*`. -/
inductive SpeakerStat where
  | none
  | online
  | offline
  | deleted
deriving DecidableEq, Repr

/-- The fields of `speaker_t` that the server reads or writes. -/
structure Speaker where
  id : Nat
  line : Nat
  channel : Nat
  mac : List UInt8
  ip : Addr
  dport : Nat
  supported : Bool
  state : SpeakerStat
  timeout : Int
  connTime : Nat
  fd : Int
deriving DecidableEq, Repr

/-- A zero-initialised record with its three arguments filled in. -/
def Speaker.zero (id line channel : Nat) : Speaker where
  id := id
  line := line
  channel := channel
  mac := []
  ip := ⟨0, []⟩
  dport := 0
  supported := false
  state := .none
  timeout := 0
  connTime := 0
  fd := 0

/-- A speaker that takes part in playback: online and supported. -/
def playing (sp : Speaker) : Prop := sp.state = .online ∧ sp.supported = true

/-- The type `spk_detect_request_t`: a decoded announcement of a speaker. -/
structure Request where
  id : Nat
  mac : List UInt8
  addr : Addr
  dport : Nat
  bitsMask : Nat
  rateMask : Nat
deriving DecidableEq, Repr

/-- The type `control_package_t`, one constructor for each command the server sends. -/
inductive ControlPackage where
  | sample (bits rate channel : Nat)
  | time (server : Nat) (offset : Int)
deriving DecidableEq, Repr

/-- On whose behalf a descriptor was opened. -/
inductive Owner where
  | speaker (id : Nat)
  | process
deriving DecidableEq, Repr

/-- An open descriptor: its owner and the peer it is connected to, if any. -/
structure Descriptor where
  owner : Owner
  peer : Option (Addr × Nat)
deriving DecidableEq, Repr

/-- One entry of the history. The first three record calls that start a step;
the others record what the server did. A close keeps what the descriptor table
held under the closed number. -/
inductive Event where
  | announced (id : Nat) (support : Bool)
  | tick
  | format (rate bits : Nat)
  | opened (id fd : Nat)
  | closed (id fd : Nat) (entry : Option Descriptor)
  | control (id : Nat) (package : ControlPackage) (result : Int)
  | callback (id : Nat)
  | datagram (id : Nat) (fd : Int) (ip : Addr) (port : Nat) (package : List UInt8)
deriving DecidableEq, Repr

/-- The descriptor table of the process and the history, latest first. -/
structure Host where
  table : Nat → Option Descriptor
  events : List Event

namespace Host

/-- Add an entry to the history. -/
def note (event : Event) (host : Host) : Host :=
  { host with events := event :: host.events }

/-- A call of `socket` returned a number for the speaker's record. -/
def openFor (id fd : Nat) (host : Host) : Host where
  table := Function.update host.table fd (some ⟨.speaker id, none⟩)
  events := .opened id fd :: host.events

/-- A call of `connect` on a number succeeded. -/
def connect (fd : Nat) (peer : Addr × Nat) (host : Host) : Host :=
  { host with
    table := Function.update host.table fd
      ((host.table fd).map fun descriptor => { descriptor with peer := some peer }) }

/-- A call of `close` on a number. A number that is not open stays so. -/
def close (id fd : Nat) (host : Host) : Host where
  table := Function.update host.table fd none
  events := .closed id fd (host.table fd) :: host.events

@[simp] theorem note_table (event : Event) (host : Host) :
    (host.note event).table = host.table := rfl

@[simp] theorem note_events (event : Event) (host : Host) :
    (host.note event).events = event :: host.events := rfl

@[simp] theorem open_for_table (id fd : Nat) (host : Host) :
    (host.openFor id fd).table =
      Function.update host.table fd (some ⟨.speaker id, none⟩) := rfl

@[simp] theorem open_for_events (id fd : Nat) (host : Host) :
    (host.openFor id fd).events = .opened id fd :: host.events := rfl

@[simp] theorem connect_table (fd : Nat) (peer : Addr × Nat) (host : Host) :
    (host.connect fd peer).table = Function.update host.table fd
      ((host.table fd).map fun descriptor => { descriptor with peer := some peer }) := rfl

@[simp] theorem connect_events (fd : Nat) (peer : Addr × Nat) (host : Host) :
    (host.connect fd peer).events = host.events := rfl

@[simp] theorem close_table (id fd : Nat) (host : Host) :
    (host.close id fd).table = Function.update host.table fd none := rfl

@[simp] theorem close_events (id fd : Nat) (host : Host) :
    (host.close id fd).events = .closed id fd (host.table fd) :: host.events := rfl

end Host

/-- The functions and constants of the `common` submodule the server uses on its
records. `link` is the list `add_speaker` leaves behind, with the new record in
it; whether it could allocate that record is the environment's answer. -/
structure Common where
  defaultLine : Nat
  defaultChannel : Nat
  maskIsset : Nat → Nat → Bool
  addSpeaker : Nat → Nat → Nat → Speaker
  link : List Speaker → Speaker → List Speaker
  structInitFromHeader : Speaker → Request → Speaker
  checkOnline : Speaker → Speaker
  offline : Speaker → Speaker

/-- What the server relies on `common` for. A new record starts zero-initialised
and joins the records already listed; `SPEAKER_STRUCT_INIT_FROM_HEADER` copies
the addresses of the request; `speaker_check_online` marks a record online and
sets its timeout; `SPEAKER_OFFLINE` marks it offline. -/
structure Common.Assumed (common : Common) : Prop where
  zeroed : ∀ id line channel, common.addSpeaker id line channel = Speaker.zero id line channel
  linked : ∀ speakers speaker, (common.link speakers speaker).Perm (speaker :: speakers)
  copied : ∀ speaker header, common.structInitFromHeader speaker header =
    { speaker with mac := header.mac, ip := header.addr, dport := header.dport }
  refreshed : ∀ speaker, common.checkOnline speaker =
    { speaker with state := .online, timeout := (common.checkOnline speaker).timeout }
  expired : ∀ speaker, common.offline speaker = { speaker with state := .offline }

/-- A `common` module that behaves as assumed, with a fixed refresh value. Masks are
bit sets, and a new record joins the end of the list. -/
def Common.reference (refresh : Int) : Common where
  defaultLine := 0
  defaultChannel := 1
  maskIsset := Nat.testBit
  addSpeaker := Speaker.zero
  link := fun speakers speaker => speakers ++ [speaker]
  structInitFromHeader := fun speaker header =>
    { speaker with mac := header.mac, ip := header.addr, dport := header.dport }
  checkOnline := fun speaker => { speaker with state := .online, timeout := refresh }
  offline := fun speaker => { speaker with state := .offline }

/-- The assumptions on `common` can be met. -/
theorem Common.reference_assumed (refresh : Int) : (Common.reference refresh).Assumed where
  zeroed := fun _ _ _ => rfl
  linked := fun speakers speaker => List.perm_append_singleton speaker speakers
  copied := fun _ _ => rfl
  refreshed := fun _ => rfl
  expired := fun _ => rfl

/-- A timeout that `speaker_check_online` gives to some record. -/
def Common.Gives (common : Common) (timeout : Int) : Prop :=
  ∃ speaker, (common.checkOnline speaker).timeout = timeout

/-- The record with an id, as `find_speaker_by_id` of `common` returns it: the first one of the
list. -/
def findSpeakerById (speakers : List Speaker) (id : Nat) : Option Speaker :=
  speakers.find? (fun speaker => decide (speaker.id = id))

/-- Write a record back under its id. The server changes records through
pointers into the list; ids are unique there, so this is the same update. -/
def store (speakers : List Speaker) (changed : Speaker) : List Speaker :=
  speakers.map fun speaker => if speaker.id = changed.id then changed else speaker

/-- The registered ids, in list order. -/
def ids (speakers : List Speaker) : List Nat := speakers.map Speaker.id

/-- A found record is registered under the id it was looked up by. -/
theorem find_speaker_some (speakers : List Speaker) (id : Nat) (found : Speaker)
    (lookup : findSpeakerById speakers id = some found) :
    found ∈ speakers ∧ found.id = id := by
  refine ⟨List.mem_of_find?_eq_some lookup, ?_⟩
  simpa using List.find?_some lookup

/-- A registered record's id is registered. -/
theorem id_registered (speakers : List Speaker) (speaker : Speaker)
    (registered : speaker ∈ speakers) : speaker.id ∈ ids speakers :=
  List.mem_map_of_mem registered

/-- Lookup fails exactly for ids that are not registered. -/
theorem find_speaker_none (speakers : List Speaker) (id : Nat) :
    findSpeakerById speakers id = none ↔ id ∉ ids speakers := by
  simp [findSpeakerById, ids]

/-- With distinct ids the lookup of an id gives the record that is registered under it. -/
theorem find_speaker_iff (speakers : List Speaker) (id : Nat) (speaker : Speaker)
    (unique : (ids speakers).Nodup) :
    findSpeakerById speakers id = some speaker ↔ speaker ∈ speakers ∧ speaker.id = id := by
  constructor
  · exact find_speaker_some speakers id speaker
  · rintro ⟨registered, rfl⟩
    cases lookup : findSpeakerById speakers speaker.id with
    | none =>
      exact absurd (id_registered speakers speaker registered)
        ((find_speaker_none speakers speaker.id).mp lookup)
    | some found =>
      obtain ⟨member, sameId⟩ := find_speaker_some speakers speaker.id found lookup
      rw [List.inj_on_of_nodup_map unique member registered sameId]

/-- Writing back keeps the registered ids. -/
@[simp] theorem ids_store (speakers : List Speaker) (changed : Speaker) :
    ids (store speakers changed) = ids speakers := by
  simp only [ids, store, List.map_map]
  apply List.map_congr_left
  intro speaker _
  by_cases same : speaker.id = changed.id <;> simp [same]

/-- Writing back the only record with its id changes nothing. -/
theorem store_only (speakers : List Speaker) (speaker : Speaker)
    (only : ∀ other ∈ speakers, other.id = speaker.id → other = speaker) :
    store speakers speaker = speakers := by
  have unchanged : ∀ other ∈ speakers,
      (if other.id = speaker.id then speaker else other) = other := by
    intro other member
    split
    · next same => exact (only other member same).symm
    · rfl
  exact (List.map_congr_left unchanged).trans (List.map_id' speakers)

/-- Writing an unchanged record back changes nothing. -/
theorem store_self (speakers : List Speaker) (speaker : Speaker)
    (unique : (ids speakers).Nodup) (registered : speaker ∈ speakers) :
    store speakers speaker = speakers := by
  apply store_only
  intro other member same
  exact List.inj_on_of_nodup_map unique member registered same

/-- After writing back, a record is either the changed one or an old one with
another id. -/
theorem mem_store (speakers : List Speaker) (changed speaker : Speaker) :
    speaker ∈ store speakers changed ↔
      (speaker = changed ∧ changed.id ∈ ids speakers) ∨
        (speaker ∈ speakers ∧ speaker.id ≠ changed.id) := by
  simp only [store, ids, List.mem_map]
  constructor
  · rintro ⟨old, member, written⟩
    by_cases same : old.id = changed.id
    · rw [if_pos same] at written
      exact Or.inl ⟨written.symm, old, member, same⟩
    · rw [if_neg same] at written
      exact Or.inr ⟨written ▸ member, written ▸ same⟩
  · rintro (⟨rfl, old, member, same⟩ | ⟨member, other⟩)
    · exact ⟨old, member, if_pos same⟩
    · exact ⟨speaker, member, if_neg other⟩

/-- A record written back under a registered id is in the list. -/
theorem stored_member (speakers : List Speaker) (changed : Speaker)
    (registered : changed.id ∈ ids speakers) : changed ∈ store speakers changed :=
  (mem_store speakers changed changed).mpr (Or.inl ⟨rfl, registered⟩)

/-- Writing a record back leaves what is found for the other ids. -/
theorem find_store_other (speakers : List Speaker) (changed : Speaker) (other : Nat)
    (apart : other ≠ changed.id) :
    findSpeakerById (store speakers changed) other = findSpeakerById speakers other := by
  induction speakers with
  | nil => rfl
  | cons speaker rest inductionHypothesis =>
    simp only [findSpeakerById, store, List.map_cons] at inductionHypothesis ⊢
    by_cases same : speaker.id = changed.id
    · have first : speaker.id ≠ other := fun found => apart (found.symm.trans same)
      rw [if_pos same, List.find?_cons_of_neg (by simpa using Ne.symm apart),
        List.find?_cons_of_neg (by simpa using first)]
      exact inductionHypothesis
    · rw [if_neg same, List.find?_cons, List.find?_cons, inductionHypothesis]

/-- Changing every record but its id keeps the registered ids. -/
theorem ids_map (speakers : List Speaker) (change : Speaker → Speaker)
    (sameId : ∀ speaker, (change speaker).id = speaker.id) :
    ids (speakers.map change) = ids speakers := by
  simp only [ids, List.map_map]
  apply List.map_congr_left
  intro speaker _
  exact sameId speaker

/-- With a record added, its id and the ids from before are registered. -/
theorem mem_ids_linked (before after : List Speaker) (speaker : Speaker)
    (linked : after.Perm (speaker :: before)) (id : Nat) :
    id ∈ ids after ↔ id ∈ speaker.id :: ids before :=
  (linked.map Speaker.id).mem_iff

/-- Adding a record keeps the registered ids registered. -/
theorem ids_kept (before after : List Speaker) (speaker : Speaker)
    (linked : after.Perm (speaker :: before)) : ids before ⊆ ids after := by
  intro id listed
  rw [mem_ids_linked before after speaker linked]
  exact List.mem_cons_of_mem speaker.id listed

/-- Adding a record under a new id keeps the registered ids distinct. -/
theorem ids_distinct (before after : List Speaker) (speaker : Speaker)
    (linked : after.Perm (speaker :: before)) (fresh : speaker.id ∉ ids before)
    (unique : (ids before).Nodup) : (ids after).Nodup :=
  (linked.map Speaker.id).nodup_iff.mpr (List.nodup_cons.mpr ⟨fresh, unique⟩)

/-- Every record agrees in a field with the record its id had before, if it had one. -/
def Carries {α : Type} (field : Speaker → α) (before after : List Speaker) : Prop :=
  ∀ speaker ∈ after, speaker.id ∉ ids before ∨
    ∃ old ∈ before, old.id = speaker.id ∧ field old = field speaker

/-- Records that stay carry every field over. -/
theorem carries_refl {α : Type} (field : Speaker → α) (speakers : List Speaker) :
    Carries field speakers speakers :=
  fun speaker registered => Or.inr ⟨speaker, registered, rfl, rfl⟩

/-- Writing a record back carries over the fields it leaves alone. -/
theorem carries_store {α : Type} (field : Speaker → α) (speakers : List Speaker)
    (old changed : Speaker) (registered : old ∈ speakers) (sameId : old.id = changed.id)
    (same : field old = field changed) : Carries field speakers (store speakers changed) := by
  intro speaker member
  rcases (mem_store speakers changed speaker).mp member with ⟨rfl, _⟩ | ⟨listed, _⟩
  · exact Or.inr ⟨old, registered, sameId, same⟩
  · exact carries_refl field speakers speaker listed

/-- Changing every record carries over the fields that the change leaves alone. -/
theorem carries_map {α : Type} (field : Speaker → α) (speakers : List Speaker)
    (change : Speaker → Speaker) (sameId : ∀ speaker, (change speaker).id = speaker.id)
    (same : ∀ speaker, field (change speaker) = field speaker) :
    Carries field speakers (speakers.map change) := by
  intro speaker member
  obtain ⟨old, registered, rfl⟩ := List.mem_map.mp member
  exact Or.inr ⟨old, registered, (sameId old).symm, (same old).symm⟩

/-- Adding a record under a new id carries every field over. -/
theorem carries_linked {α : Type} (field : Speaker → α) (before after : List Speaker)
    (added : Speaker) (linked : after.Perm (added :: before)) (fresh : added.id ∉ ids before) :
    Carries field before after := by
  intro speaker member
  rcases List.mem_cons.mp (linked.mem_iff.mp member) with rfl | old
  · exact Or.inl fresh
  · exact carries_refl field before speaker old

/-- Where fields are carried over and ids stay registered, every record goes on under its id
with its field. -/
theorem carries_forward {α : Type} (field : Speaker → α) (before after : List Speaker)
    (unique : (ids before).Nodup) (stays : ids before ⊆ ids after)
    (carries : Carries field before after) (speaker : Speaker) (registered : speaker ∈ before) :
    ∃ later ∈ after, later.id = speaker.id ∧ field later = field speaker := by
  have listed := id_registered before speaker registered
  obtain ⟨later, member, sameId⟩ := List.mem_map.mp (stays listed)
  obtain ⟨old, earlier, oldId, same⟩ :=
    (carries later member).resolve_left (fun fresh => fresh (sameId ▸ listed))
  have itself : old = speaker :=
    List.inj_on_of_nodup_map unique earlier registered (oldId.trans sameId)
  exact ⟨later, member, sameId, by rw [← same, itself]⟩

end Castserver.Speakers
