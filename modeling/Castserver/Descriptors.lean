import Castserver.Service

/-!
# Who closes whose descriptor

Disconnecting a speaker closes the number in its record and leaves the number
there, and a record that was never connected holds the number zero. The history
tells which number a speaker was last given and has not had closed since. As long
as every close is of such a speaker, this agrees with the descriptor table, and
each close is of the speaker's own open descriptor; the first other close is not.
-/

namespace Castserver.Descriptors

open Speakers Pusher Control Detect Service
open Library.Runs Library.Histories

/-- Every close was of a descriptor that was open and opened for the same speaker. -/
def ClosesOwn (host : Host) : Prop :=
  ∀ id fd entry, .closed id fd entry ∈ host.events →
    entry.map Descriptor.owner = some (.speaker id)

/-- Keep the number last opened for an id until it is closed for that id. -/
def holdUpdate (id : Nat) : Event → Option Nat → Option Nat
  | .opened other fd, held => if other = id then some fd else held
  | .closed other _ _, held => if other = id then none else held
  | _, held => held

/-- The number an id was last given and has not had closed since. -/
def holding (id : Nat) (host : Host) : Option Nat :=
  observe (holdUpdate id) none host.events

/-- A disconnect of this record finds it connected, or does not get to its close. -/
def Connected (readFd : Nat) (host : Host) (sp : Speaker) : Prop :=
  closes readFd sp = true → holding sp.id host ≠ none

/-- Every record that the step disconnects has been connected since it was last
disconnected. -/
def DisconnectsConnected (settings : Settings) (server : Server) : Action → Prop
  | .tick => ∀ sp ∈ due server.speakers, Connected settings.readFd server.host sp
  | .push id _ _ => ∀ sp, findSpeakerById server.speakers id = some sp →
      unreachable sp = true ∨ sp.supported = false → Connected settings.readFd server.host sp
  | _ => True

/-- The owner of an open number. -/
def ownerOf (host : Host) (fd : Nat) : Option Owner :=
  (host.table fd).map Descriptor.owner

/-- The descriptor table and the history agree on who holds which number. -/
def Ledger (host : Host) : Prop :=
  ∀ id fd, holding id host = some fd ↔ ownerOf host fd = some (.speaker id)

/-- If a record's id holds a number, it is the number in the record. -/
def Numbered (host : Host) (sp : Speaker) : Prop :=
  ∀ fd, holding sp.id host = some fd → sp.fd = fd

/-- The pusher's shared descriptor is open and belongs to the process. -/
def Shared (readFd : Nat) (host : Host) : Prop :=
  ownerOf host readFd = some .process

/-- The invariant: distinct ids, an agreeing ledger, the shared descriptor, records
with the numbers their ids hold, and nothing held by an id that is not registered. -/
structure Invariant (settings : Settings) (server : Server) : Prop where
  unique : (ids server.speakers).Nodup
  ledger : Ledger server.host
  shared : Shared settings.readFd server.host
  numbered : ∀ sp ∈ server.speakers, Numbered server.host sp
  absent : ∀ id, id ∉ ids server.speakers → holding id server.host = none

/-- Events that neither open nor close a number. -/
def Neutral : Event → Prop
  | .opened _ _ | .closed _ _ _ => False
  | _ => True

theorem control_neutral (event : Event) (control : IsControl event) : Neutral event := by
  cases event <;> trivial

theorem clock_neutral (event : Event) (clock : IsClock event) : Neutral event := by
  cases event <;> trivial

/-- Neutral events change nothing about who holds what. -/
theorem neutral_holding (before after : Host) (adds : Adds Neutral before.events after.events)
    (id : Nat) : holding id after = holding id before := by
  refine observe_adds (holdUpdate id) none Neutral ?_ _ _ adds
  intro event held neutral
  cases event <;> first | rfl | exact False.elim neutral

/-- Events that are not closes leave the record of closes as good as it was. -/
theorem unclosed_own (before after : Host)
    (adds : Adds (fun event => ¬ IsClose event) before.events after.events) :
    ClosesOwn after ↔ ClosesOwn before := by
  constructor
  · intro own id fd entry member
    exact own id fd entry (adds_member _ _ _ _ adds member)
  · intro own id fd entry member
    rcases adds_origin _ _ _ _ adds member with old | unclosed
    · exact own id fd entry old
    · exact absurd trivial unclosed

/-- Noting an event that is not a close leaves the record of closes as good as it was. -/
theorem noted_own (event : Event) (host : Host) (unclosed : ¬ IsClose event) :
    ClosesOwn (host.note event) ↔ ClosesOwn host :=
  unclosed_own host (host.note event) (adds_cons _ event host.events unclosed)

/-- Closes take numbers away and give none. -/
theorem closes_holding (before after : Host) (adds : Adds IsClose before.events after.events)
    (id fd : Nat) (held : holding id after = some fd) : holding id before = some fd := by
  refine observe_keeps (holdUpdate id) none IsClose
    (fun seen => seen = some fd → holding id before = some fd) ?_ _ _ adds (fun held => held) held
  intro event seen close earlier
  cases event with
  | closed other number entry =>
    simp only [holdUpdate]
    split
    · intro impossible
      cases impossible
    · exact earlier
  | _ => exact False.elim close

/-- The record of closes was good if it is good after some more of them. -/
theorem closes_earlier (before after : Host) (adds : Adds IsClose before.events after.events)
    (own : ClosesOwn after) : ClosesOwn before :=
  fun id fd entry member => own id fd entry (adds_member IsClose _ _ _ adds member)

section Disconnecting

variable (readFd : Nat)

/-- What a close leaves held: nothing for its own id, and the rest as it was. -/
theorem close_holding (id fd other : Nat) (host : Host) :
    holding other (host.close id fd) = if id = other then none else holding other host := by
  simp [holding, holdUpdate]

/-- What a close leaves open. -/
theorem close_owner (id fd other : Nat) (host : Host) :
    ownerOf (host.close id fd) other = if other = fd then none else ownerOf host other := by
  by_cases same : other = fd <;> simp [ownerOf, same]

/-- With an agreeing ledger, a disconnect keeps the record of closes good exactly
when it finds the record connected. -/
theorem disconnect_own (sp : Speaker) (host : Host) (ledger : Ledger host)
    (numbered : Numbered host sp) :
    ClosesOwn (serverSppushDisconnect readFd sp host) ↔
      ClosesOwn host ∧ Connected readFd host sp := by
  cases closing : closes readFd sp with
  | false =>
    rw [disconnect_spared readFd sp host closing]
    simp [Connected, closing]
  | true =>
    rw [disconnect_closing readFd sp host closing]
    constructor
    · intro own
      refine ⟨fun id fd entry member => own id fd entry (List.mem_cons_of_mem _ member), ?_⟩
      intro _
      have entry := own sp.id sp.fd.toNat _ List.mem_cons_self
      rw [(ledger sp.id sp.fd.toNat).mpr entry]
      exact Option.some_ne_none _
    · rintro ⟨own, connected⟩ id fd entry member
      rcases List.mem_cons.mp member with latest | old
      · obtain ⟨rfl, rfl, rfl⟩ := Event.closed.inj latest
        obtain ⟨fd, held⟩ := Option.ne_none_iff_exists'.mp (connected closing)
        have number : sp.fd.toNat = fd := by
          have same := numbered fd held
          omega
        rw [number]
        exact (ledger sp.id fd).mp held
      · exact own id fd entry old

/-- A disconnect that finds its record connected keeps the ledger. -/
theorem disconnect_ledger (sp : Speaker) (host : Host) (ledger : Ledger host)
    (numbered : Numbered host sp) (connected : Connected readFd host sp) :
    Ledger (serverSppushDisconnect readFd sp host) := by
  cases closing : closes readFd sp with
  | false =>
    rw [disconnect_spared readFd sp host closing]
    exact ledger
  | true =>
    rw [disconnect_closing readFd sp host closing]
    obtain ⟨own, held⟩ := Option.ne_none_iff_exists'.mp (connected closing)
    have number : sp.fd.toNat = own := by
      have same := numbered own held
      omega
    have ownEntry := (ledger sp.id own).mp held
    intro id fd
    rw [close_holding, close_owner, number]
    by_cases sameId : sp.id = id
    · rw [if_pos sameId]
      apply iff_of_false (by simp)
      intro entry
      by_cases sameFd : fd = own
      · rw [if_pos sameFd] at entry
        cases entry
      · rw [if_neg sameFd] at entry
        have alsoHeld := (ledger id fd).mpr entry
        rw [← sameId, held] at alsoHeld
        exact sameFd (Option.some.inj alsoHeld).symm
    · rw [if_neg sameId]
      by_cases sameFd : fd = own
      · rw [if_pos sameFd, sameFd]
        refine iff_of_false ?_ (by simp)
        intro alsoHeld
        have entry := (ledger id own).mp alsoHeld
        exact sameId (Owner.speaker.inj (Option.some.inj (ownEntry.symm.trans entry)))
      · rw [if_neg sameFd]
        exact ledger id fd

/-- Disconnecting leaves other ids' holdings alone. -/
theorem disconnect_other (sp : Speaker) (host : Host) (id : Nat) (apart : sp.id ≠ id) :
    holding id (serverSppushDisconnect readFd sp host) = holding id host := by
  cases closing : closes readFd sp with
  | false => rw [disconnect_spared readFd sp host closing]
  | true => rw [disconnect_closing readFd sp host closing, close_holding, if_neg apart]

/-- Disconnecting leaves the shared descriptor alone. -/
theorem disconnect_shared (sp : Speaker) (host : Host) (shared : Shared readFd host) :
    Shared readFd (serverSppushDisconnect readFd sp host) := by
  cases closing : closes readFd sp with
  | false =>
    rw [disconnect_spared readFd sp host closing]
    exact shared
  | true =>
    have apart := (closes_apart readFd sp closing).1
    rw [disconnect_closing readFd sp host closing, Shared, close_owner, if_neg apart.symm]
    exact shared

/-- What a disconnect that finds its record connected leaves for the records after
it, whose ids are others: an agreeing ledger, their numbers, and who is connected. -/
theorem disconnect_rest (sp : Speaker) (rest : List Speaker) (host : Host) (ledger : Ledger host)
    (distinct : (ids (sp :: rest)).Nodup)
    (numbered : ∀ other ∈ sp :: rest, Numbered host other)
    (connected : Connected readFd host sp) :
    Ledger (serverSppushDisconnect readFd sp host) ∧
      (∀ other ∈ rest, Numbered (serverSppushDisconnect readFd sp host) other) ∧
      ∀ other ∈ rest, (Connected readFd (serverSppushDisconnect readFd sp host) other ↔
        Connected readFd host other) := by
  have fresh : sp.id ∉ ids rest := (List.nodup_cons.mp distinct).1
  refine ⟨disconnect_ledger readFd sp host ledger (numbered sp List.mem_cons_self) connected,
    ?_, ?_⟩
  · intro other member fd held
    exact numbered other (List.mem_cons_of_mem sp member) fd
      (closes_holding _ _ (disconnect_adds readFd sp host) other.id fd held)
  · intro other member
    have apart : sp.id ≠ other.id := fun same =>
      fresh (same ▸ id_registered rest other member)
    rw [Connected, Connected, disconnect_other readFd sp host other.id apart]

/-- Disconnecting records with distinct ids keeps the record of closes good exactly
when each of them is found connected at the start. -/
theorem disconnect_all_own (speakers : List Speaker) (host : Host) (ledger : Ledger host)
    (distinct : (ids speakers).Nodup) (numbered : ∀ sp ∈ speakers, Numbered host sp)
    (own : ClosesOwn host) :
    ClosesOwn (disconnectAll readFd speakers host) ↔
      ∀ sp ∈ speakers, Connected readFd host sp := by
  induction speakers generalizing host with
  | nil => simpa [disconnectAll] using own
  | cons sp rest inductionHypothesis =>
    have first := disconnect_own readFd sp host ledger (numbered sp List.mem_cons_self)
    by_cases connected : Connected readFd host sp
    · obtain ⟨laterLedger, laterNumbered, same⟩ :=
        disconnect_rest readFd sp rest host ledger distinct numbered connected
      have later := inductionHypothesis (serverSppushDisconnect readFd sp host) laterLedger
        (List.nodup_cons.mp distinct).2 laterNumbered (first.mpr ⟨own, connected⟩)
      rw [List.forall_mem_cons]
      refine later.trans ⟨fun every => ⟨connected, ?_⟩, fun every => ?_⟩
      · exact fun other member => (same other member).mp (every other member)
      · exact fun other member => (same other member).mpr (every.2 other member)
    · refine iff_of_false ?_ (fun every => connected (every sp List.mem_cons_self))
      intro good
      have earlier := closes_earlier _ _
        (disconnect_all_adds readFd rest (serverSppushDisconnect readFd sp host)) good
      exact connected (first.mp earlier).2

/-- Disconnecting records with distinct ids that are all connected keeps the ledger. -/
theorem disconnect_all_ledger (speakers : List Speaker) (host : Host) (ledger : Ledger host)
    (distinct : (ids speakers).Nodup) (numbered : ∀ sp ∈ speakers, Numbered host sp)
    (connected : ∀ sp ∈ speakers, Connected readFd host sp) :
    Ledger (disconnectAll readFd speakers host) := by
  induction speakers generalizing host with
  | nil => exact ledger
  | cons sp rest inductionHypothesis =>
    obtain ⟨laterLedger, laterNumbered, same⟩ := disconnect_rest readFd sp rest host ledger
      distinct numbered (connected sp List.mem_cons_self)
    refine inductionHypothesis (serverSppushDisconnect readFd sp host) laterLedger
      (List.nodup_cons.mp distinct).2 laterNumbered ?_
    intro other member
    exact (same other member).mpr (connected other (List.mem_cons_of_mem sp member))

/-- Disconnecting any records leaves the shared descriptor alone. -/
theorem disconnect_all_shared (speakers : List Speaker) (host : Host)
    (shared : Shared readFd host) : Shared readFd (disconnectAll readFd speakers host) := by
  induction speakers generalizing host with
  | nil => exact shared
  | cons sp rest inductionHypothesis =>
    exact inductionHypothesis _ (disconnect_shared readFd sp host shared)

end Disconnecting

/-- What an id holds after a supported new speaker joined: the new speaker the
number its connect got, if any, and the others what they held. -/
theorem joined_holding (settings : Settings) (answers : Answers) (sp : Speaker) (host : Host)
    (id : Nat) : holding id (joinedHost settings answers sp host) =
      if sp.id = id then answers.socket.or (holding id host) else holding id host := by
  rw [holding, joined_events]
  by_cases same : sp.id = id <;> cases socket : answers.socket <;>
    cases called : settings.detectCb <;> by_cases port : sp.dport = 0 <;>
    simp [holdUpdate, same, port, holding]

/-- Which numbers are open after a supported new speaker joined, and for whom. -/
theorem joined_owner (settings : Settings) (answers : Answers) (sp : Speaker) (host : Host)
    (fd : Nat) : ownerOf (joinedHost settings answers sp host) fd =
      if answers.socket = some fd then some (.speaker sp.id) else ownerOf host fd := by
  rw [ownerOf, joined_table]
  cases socket : answers.socket with
  | none =>
    cases connected : answers.connected with
    | false => simp [connectedHost, openSocket, socket, connected, ownerOf]
    | true =>
      by_cases same : fd = settings.readFd <;>
        simp [connectedHost, openSocket, socket, connected, ownerOf, same, Function.comp_def]
  | some handed =>
    by_cases same : fd = handed <;> cases connected : answers.connected <;>
      simp [connectedHost, openSocket, socket, connected, ownerOf, same, eq_comm]

/-- Handing a number that was free to an id that held none keeps the ledger. -/
theorem handed_ledger (before after : Host) (id : Nat) (handed : Option Nat)
    (ledger : Ledger before) (nothing : holding id before = none)
    (vacant : ∀ fd, handed = some fd → ownerOf before fd = none)
    (held : ∀ other, holding other after = if id = other then handed else holding other before)
    (owned : ∀ fd, ownerOf after fd =
      if handed = some fd then some (.speaker id) else ownerOf before fd) : Ledger after := by
  intro other fd
  rw [held, owned]
  by_cases own : id = other
  · subst own
    rw [if_pos rfl]
    by_cases given : handed = some fd
    · simp [given]
    · rw [if_neg given]
      apply iff_of_false given
      intro entry
      rw [← ledger, nothing] at entry
      cases entry
  · rw [if_neg own]
    by_cases given : handed = some fd
    · rw [if_pos given]
      refine iff_of_false ?_ (by simp [own])
      intro foreign
      have entry := (ledger other fd).mp foreign
      rw [vacant fd given] at entry
      cases entry
    · rw [if_neg given]
      exact ledger other fd

/-- A step that gives no number to any id keeps the invariant, if the ledger and the
shared descriptor survive, it drops no id, and each record keeps the number of its
id or is new. -/
theorem invariant_shrinks (settings : Settings) (before after : Server)
    (invariant : Invariant settings before) (ledger : Ledger after.host)
    (shared : Shared settings.readFd after.host)
    (shrinks : ∀ id fd, holding id after.host = some fd → holding id before.host = some fd)
    (unique : (ids after.speakers).Nodup)
    (keeps : ∀ id, id ∈ ids before.speakers → id ∈ ids after.speakers)
    (records : Carries Speaker.fd before.speakers after.speakers) :
    Invariant settings after := by
  refine ⟨unique, ledger, shared, ?_, ?_⟩
  · intro sp registered fd held
    have earlier := shrinks sp.id fd held
    rcases records sp registered with fresh | ⟨old, member, sameId, sameFd⟩
    · rw [invariant.absent sp.id fresh] at earlier
      cases earlier
    · rw [← sameFd]
      exact invariant.numbered old member fd (sameId ▸ earlier)
  · intro id unlisted
    cases held : holding id after.host with
    | none => rfl
    | some fd =>
      have earlier := shrinks id fd held
      rw [invariant.absent id (fun present => unlisted (keeps id present))] at earlier
      cases earlier

/-- A step that opens and closes nothing keeps the invariant. -/
theorem invariant_neutral (settings : Settings) (before after : Server)
    (invariant : Invariant settings before)
    (holdings : ∀ id, holding id after.host = holding id before.host)
    (owners : ∀ fd, ownerOf after.host fd = ownerOf before.host fd)
    (unique : (ids after.speakers).Nodup)
    (keeps : ∀ id, id ∈ ids before.speakers → id ∈ ids after.speakers)
    (records : Carries Speaker.fd before.speakers after.speakers) :
    Invariant settings after := by
  refine invariant_shrinks settings before after invariant ?_ ?_ ?_ unique keeps records
  · intro id fd
    rw [holdings, owners]
    exact invariant.ledger id fd
  · rw [Shared, owners]
    exact invariant.shared
  · intro id fd held
    rw [← holdings]
    exact held

/-- Another part of the process may open or close numbers that no speaker owns,
except the shared one. -/
theorem process_step (settings : Settings) (server : Server) (fd : Nat) (entry : Option Descriptor)
    (invariant : Invariant settings server) (spared : fd ≠ settings.readFd)
    (unowned : ∀ id, ownerOf server.host fd ≠ some (.speaker id))
    (unclaimed : ∀ id, entry.map Descriptor.owner ≠ some (.speaker id)) :
    Invariant settings { server with
      host := { server.host with table := Function.update server.host.table fd entry } } := by
  have owners (other : Nat) : ownerOf { server.host with
      table := Function.update server.host.table fd entry } other =
      if other = fd then entry.map Descriptor.owner else ownerOf server.host other := by
    by_cases same : other = fd <;> simp [ownerOf, same]
  refine ⟨invariant.unique, ?_, ?_, invariant.numbered, invariant.absent⟩
  · intro id other
    rw [owners]
    by_cases same : other = fd
    · rw [if_pos same, same]
      refine iff_of_false ?_ (unclaimed id)
      intro held
      exact unowned id ((invariant.ledger id fd).mp held)
    · rw [if_neg same]
      exact invariant.ledger id other
  · rw [Shared, owners, if_neg spared.symm]
    exact invariant.shared

/-- The records that a pass of the monitor disconnects have distinct ids and the
numbers their ids hold. -/
theorem due_numbered (settings : Settings) (server : Server)
    (invariant : Invariant settings server) :
    (ids (due server.speakers)).Nodup ∧
      ∀ sp ∈ due server.speakers, Numbered (server.host.note .tick) sp :=
  ⟨(List.filter_sublist.map Speaker.id).nodup invariant.unique,
    fun sp member => invariant.numbered sp (List.mem_of_mem_filter member)⟩

section Steps

variable {common : Common} (assumed : common.Assumed) (settings : Settings)

include assumed

/-- A supported new speaker gets a number that was free. -/
theorem joined_step (answers : Answers) (header : Request) (timeout : Int) (server : Server)
    (free : ∀ fd, answers.socket = some fd → server.host.table fd = none)
    (unknown : findSpeakerById server.speakers header.id = none)
    (invariant : Invariant settings server)
    (unique : (ids (common.link server.speakers
      (joined common settings answers header timeout))).Nodup) :
    Invariant settings
      { speakers := common.link server.speakers (joined common settings answers header timeout)
        host := joinedHost settings answers (joined common settings answers header timeout)
          (server.host.note (.announced header.id true)) } := by
  have absent := (find_speaker_none server.speakers header.id).mp unknown
  have nothing : holding header.id server.host = none := invariant.absent header.id absent
  have linked := assumed.linked server.speakers (joined common settings answers header timeout)
  have held (id : Nat) : holding id (joinedHost settings answers
      (joined common settings answers header timeout)
      (server.host.note (.announced header.id true))) =
      if header.id = id then answers.socket else holding id server.host := by
    rw [joined_holding]
    have same : holding id (server.host.note (.announced header.id true)) =
      holding id server.host := rfl
    by_cases own : header.id = id
    · subst own
      rw [same, nothing]
      simp [joined, announced, Speaker.zero]
    · simp [joined, announced, Speaker.zero, own, same]
  have owned (fd : Nat) : ownerOf (joinedHost settings answers
      (joined common settings answers header timeout)
      (server.host.note (.announced header.id true))) fd =
      if answers.socket = some fd then some (.speaker header.id) else ownerOf server.host fd :=
    joined_owner settings answers _ _ fd
  have vacant (fd : Nat) (handed : answers.socket = some fd) : ownerOf server.host fd = none := by
    rw [ownerOf, free fd handed]
    rfl
  refine ⟨unique, ?_, ?_, ?_, ?_⟩
  · exact handed_ledger server.host _ header.id answers.socket invariant.ledger nothing vacant
      held owned
  · rw [Shared, owned]
    have spared : answers.socket ≠ some settings.readFd := by
      intro handed
      have entry := invariant.shared
      rw [Shared, vacant settings.readFd handed] at entry
      cases entry
    rw [if_neg spared]
    exact invariant.shared
  · intro sp registered fd holds
    rw [held] at holds
    rcases List.mem_cons.mp (linked.mem_iff.mp registered) with rfl | old
    · have handed : answers.socket = some fd := (if_pos rfl).symm.trans holds
      simp [joined, handed]
    · have apart : header.id ≠ sp.id := fun same =>
        absent (same ▸ id_registered server.speakers sp old)
      rw [if_neg apart] at holds
      exact invariant.numbered sp old fd holds
  · intro id unlisted
    have unregistered : id ∉ header.id :: ids server.speakers := fun present =>
      unlisted ((mem_ids_linked _ _ _ linked id).mpr present)
    rw [held, if_neg (List.ne_of_not_mem_cons unregistered).symm]
    exact invariant.absent id (List.not_mem_of_not_mem_cons unregistered)

/-- Every step that meets its condition keeps the invariant. -/
theorem invariant_step (server : Server) (action : Action)
    (possible : enabled settings server action) (invariant : Invariant settings server)
    (met : DisconnectsConnected settings server action) :
    Invariant settings (step common settings server action) := by
  have unique := unique_step assumed settings server action invariant.unique
  have keeps := step_ids assumed settings server action invariant.unique
  have records := step_carries assumed settings Speaker.fd (fun _ _ _ _ => rfl) server action
    invariant.unique
  cases action with
  | request header answers =>
    have outcome := request_outcome assumed settings answers header server
    generalize step common settings server (.request header answers) = after
      at outcome unique keeps records ⊢
    cases outcome with
    | refused dropped => exact invariant
    | refreshed sp timeout formed known given =>
      exact invariant_neutral settings server _ invariant (fun _ => rfl) (fun _ => rfl) unique
        keeps records
    | registered timeout formed unknown allocated unsupported given =>
      exact invariant_neutral settings server _ invariant (fun _ => rfl) (fun _ => rfl) unique
        keeps records
    | joined timeout formed unknown allocated supported given =>
      exact joined_step assumed settings answers header timeout server possible unknown invariant
        unique
  | tick =>
    rw [tick_outcome assumed] at unique keeps records ⊢
    obtain ⟨distinct, numbered⟩ := due_numbered settings server invariant
    refine invariant_shrinks settings server _ invariant
      (disconnect_all_ledger settings.readFd (due server.speakers) (server.host.note .tick)
        invariant.ledger distinct numbered met)
      (disconnect_all_shared settings.readFd (due server.speakers) (server.host.note .tick)
        invariant.shared) ?_ unique keeps records
    intro id fd held
    exact closes_holding (server.host.note .tick) _
      (disconnect_all_adds settings.readFd (due server.speakers) _) id fd held
  | push id package result =>
    have disconnecting (sp : Speaker) (registered : sp ∈ server.speakers)
        (connected : Connected settings.readFd server.host sp) :=
      disconnect_ledger settings.readFd sp server.host invariant.ledger
        (invariant.numbered sp registered) connected
    have outcome := push_outcome assumed settings id package result server invariant.unique
    generalize step common settings server (.push id package result) = after
      at outcome unique keeps records ⊢
    cases outcome with
    | absent unknown => exact invariant
    | refreshed sp timeout known guarded given =>
      obtain ⟨registered, _⟩ := find_speaker_some server.speakers id sp known
      exact invariant_shrinks settings server _ invariant
        (disconnecting sp registered (met sp known (Or.inl guarded)))
        (disconnect_shared settings.readFd sp server.host invariant.shared)
        (closes_holding _ _ (disconnect_adds settings.readFd sp server.host)) unique keeps records
    | unsupported sp known passed refused =>
      obtain ⟨registered, _⟩ := find_speaker_some server.speakers id sp known
      exact invariant_shrinks settings server _ invariant
        (disconnecting sp registered (met sp known (Or.inr refused)))
        (disconnect_shared settings.readFd sp server.host invariant.shared)
        (closes_holding _ _ (disconnect_adds settings.readFd sp server.host)) unique keeps records
    | sent sp known passed supported =>
      exact invariant_neutral settings server _ invariant (fun _ => rfl) (fun _ => rfl) unique
        keeps records
  | format rate bits results =>
    refine invariant_neutral settings server _ invariant ?_ ?_ unique keeps records
    · exact neutral_holding (server.host.note (.format rate bits)) _
        (adds_weaken IsControl Neutral _ _ control_neutral (format_adds rate bits results _ _))
    · intro fd
      simp [ownerOf, step, serverSpctrlSetFormat]
  | time spid now result =>
    refine invariant_neutral settings server _ invariant ?_ ?_ unique keeps records
    · exact neutral_holding _ _
        (adds_weaken IsClock Neutral _ _ clock_neutral (time_adds _ spid now result _))
    · intro fd
      simp [ownerOf, step]
  | openOther fd =>
    have free : server.host.table fd = none := possible
    have spared : fd ≠ settings.readFd := by
      rintro rfl
      have entry := invariant.shared
      rw [Shared, ownerOf, free] at entry
      cases entry
    exact process_step settings server fd _ invariant spared (by simp [ownerOf, free]) (by simp)
  | closeOther fd =>
    obtain ⟨spared, peer, entry⟩ := possible
    exact process_step settings server fd none invariant spared (by simp [ownerOf, entry]) (by simp)

omit assumed in
/-- A push that gets to its disconnect keeps the record of closes good exactly if it finds
the record connected. -/
theorem push_decides (server : Server) (invariant : Invariant settings server)
    (own : ClosesOwn server.host) (id : Nat) (package : List UInt8) (result : Int) (sp : Speaker)
    (known : findSpeakerById server.speakers id = some sp)
    (reached : unreachable sp = true ∨ sp.supported = false) :
    ClosesOwn (serverSppushDisconnect settings.readFd sp server.host) ↔
      DisconnectsConnected settings server (.push id package result) := by
  obtain ⟨registered, _⟩ := find_speaker_some server.speakers id sp known
  apply (disconnect_own settings.readFd sp server.host invariant.ledger
    (invariant.numbered sp registered)).trans
  constructor
  · rintro ⟨_, connected⟩ other found _
    exact Option.some.inj (known.symm.trans found) ▸ connected
  · intro met
    exact ⟨own, met sp known reached⟩

/-- A step whose action makes no close leaves the record of closes as good as it was. -/
theorem unclosing_own (server : Server) (action : Action) (unique : (ids server.speakers).Nodup)
    (unclosing : ∀ event, Makes action event → ¬ IsClose event) :
    ClosesOwn (step common settings server action).host ↔ ClosesOwn server.host :=
  unclosed_own _ _ (adds_weaken (Makes action) _ _ _ unclosing
    (step_adds assumed settings server action unique))

/-- A step keeps the record of closes good exactly under its condition. -/
theorem step_decides (server : Server) (action : Action) (invariant : Invariant settings server)
    (own : ClosesOwn server.host) :
    ClosesOwn (step common settings server action).host ↔
      DisconnectsConnected settings server action := by
  cases action with
  | request header answers =>
    refine iff_of_true ((unclosing_own assumed settings server _ invariant.unique ?_).mpr own) trivial
    intro event made close
    cases event <;> first | exact made | exact close
  | tick =>
    rw [tick_outcome assumed]
    obtain ⟨distinct, numbered⟩ := due_numbered settings server invariant
    have ticked : ClosesOwn (server.host.note .tick) :=
      (noted_own .tick server.host (fun close => close)).mpr own
    exact disconnect_all_own settings.readFd (due server.speakers) (server.host.note .tick)
      invariant.ledger distinct numbered ticked
  | push id package result =>
    have outcome := push_outcome assumed settings id package result server invariant.unique
    generalize step common settings server (.push id package result) = after at outcome ⊢
    cases outcome with
    | absent unknown =>
      apply iff_of_true own
      intro sp known
      cases unknown.symm.trans known
    | refreshed sp timeout known guarded given =>
      exact push_decides settings server invariant own id package result sp known (Or.inl guarded)
    | unsupported sp known passed refused =>
      exact push_decides settings server invariant own id package result sp known (Or.inr refused)
    | sent sp known passed supported =>
      refine iff_of_true
        ((noted_own (.datagram sp.id sp.fd sp.ip sp.dport package) server.host
          (fun close => close)).mpr own) ?_
      intro other found disconnected
      obtain rfl := Option.some.inj (known.symm.trans found)
      rw [passed, supported] at disconnected
      simp at disconnected
  | format rate bits results =>
    refine iff_of_true ((unclosing_own assumed settings server _ invariant.unique ?_).mpr own) trivial
    intro event made close
    cases event <;> first | exact made | exact close
  | time spid now result =>
    refine iff_of_true ((unclosing_own assumed settings server _ invariant.unique ?_).mpr own) trivial
    intro event made close
    cases event <;> first | exact made | exact close
  | openOther fd => exact iff_of_true own trivial
  | closeOther fd => exact iff_of_true own trivial

end Steps

/-- Every close of a run is of the speaker's own open descriptor if and only if every
disconnect of the run that gets to its close finds its record connected since it was
last disconnected. -/
theorem closes_own_descriptors (common : Common) (assumed : common.Assumed) (settings : Settings)
    (server : Server) (booted : Booted settings server) (actions : List Action)
    (admissible : (machine common settings).Admissible server actions) :
    (machine common settings).Throughout (fun reached => ClosesOwn reached.host) server actions ↔
      (machine common settings).Along (DisconnectsConnected settings) server actions := by
  have nothing (id : Nat) : holding id server.host = none := by
    rw [holding, booted.quiet]
    rfl
  have initial : Invariant settings server := by
    refine ⟨by simp [booted.vacant, ids], ?_, ?_, by simp [booted.vacant], fun id _ => nothing id⟩
    · intro id fd
      rw [nothing]
      apply iff_of_false (by simp)
      intro owned
      obtain ⟨descriptor, entry, owner⟩ := Option.map_eq_some_iff.mp owned
      rw [booted.own fd descriptor entry] at owner
      cases owner
    · rw [Shared, ownerOf, booted.shared]
      rfl
  have quiet : ClosesOwn server.host := by
    intro id fd entry member
    rw [booted.quiet] at member
    cases member
  refine Machine.throughout_iff_along _ _ (Invariant settings) _ ?_ ?_ server actions initial quiet
    admissible
  · intro reached action invariant own _
    exact step_decides assumed settings reached action invariant own
  · intro reached action invariant _ possible met
    exact invariant_step assumed settings reached action possible invariant met

/-- A speaker that joins and runs out of time once is disconnected of its own descriptor. -/
theorem first_close_is_own :
    (machine (Common.reference 1) referenceSettings).Throughout
      (fun reached => ClosesOwn reached.host) freshServer
      [.request referenceRequest referenceAnswers, .tick, .tick] := by
  refine (closes_own_descriptors (Common.reference 1) (Common.reference_assumed 1)
    referenceSettings freshServer fresh_booted
    [.request referenceRequest referenceAnswers, .tick, .tick]
    ⟨reference_enabled, trivial, trivial, trivial⟩).mpr ⟨trivial, ?_, ?_, trivial⟩
  · unfold DisconnectsConnected Connected
    decide
  · unfold DisconnectsConnected Connected
    decide

/-- A speaker that stays offline for another pass has a number closed that was handed
to another part of the process in between. -/
theorem second_pass_closes_foreign_descriptor :
    (machine (Common.reference 1) referenceSettings).Admissible freshServer
      [.request referenceRequest referenceAnswers, .tick, .tick, .openOther 5, .tick] ∧
    ¬ ClosesOwn ((machine (Common.reference 1) referenceSettings).after freshServer
      [.request referenceRequest referenceAnswers, .tick, .tick, .openOther 5, .tick]).host := by
  refine ⟨⟨reference_enabled, trivial, trivial, rfl, trivial, trivial⟩, ?_⟩
  intro own
  have owner := own 7 5 (some ⟨.process, none⟩) (by decide)
  cases owner

end Castserver.Descriptors
