import Castserver.Pushwave
import Castserver.Speakers

/-!
# The speakers command

The function `cmd_speakers` copies the live records into an array with one slot for every
record, and sends the whole array. A record that is not live leaves a slot behind that has
never been written.
-/

namespace Castserver.Listing

open Speakers Pushwave

universe u

/-- What `common` and the compiler give to `cmd_speakers`: the bytes of a record in memory,
its state, and the two states that are no longer or not yet live. -/
structure Layout (Record : Type u) where
  sizeof : Nat
  bytes : Record → List UInt8
  state : Record → Int
  statNone : Int
  statDeleted : Int
  positive : 0 < sizeof
  fits : ∀ record, (bytes record).length = sizeof

/-- The variables of the loop, with the slots that have been written so far. -/
structure Filling where
  list : List UInt8
  idx : Nat
  slots : List Nat

/-- What a call does: the bytes it hands to `send`, and the slots it has written. -/
structure Listed where
  sent : List UInt8
  slots : List Nat

section Command

variable {Record : Type u} (layout : Layout Record)

/-- Whether the loop takes a record. -/
def live (record : Record) : Bool :=
  decide (layout.statNone < layout.state record ∧ layout.state record < layout.statDeleted)

/-- One round of the loop. -/
def copySpeaker (state : Filling) (sp : Record) : Filling :=
  if live layout sp then
    { list := overwrite state.list (state.idx * layout.sizeof) (layout.bytes sp)
      idx := (state.idx + 1) % 2 ^ 32
      slots := state.slots ++ [state.idx] }
  else state

/-- The value of the variable `count`. -/
def count (speakers : List Record) : Nat := speakers.length % 2 ^ 32

/-- Send the records. What the array holds at first is whatever stands on the stack. -/
def cmdSpeakers (stack : List UInt8) (speakers : List Record) : Listed :=
  if 0 < count speakers then
    let filled := speakers.foldl (copySpeaker layout) ⟨stack, 0, []⟩
    { sent := filled.list.take (count speakers * layout.sizeof)
      slots := filled.slots }
  else
    { sent := []
      slots := [] }

/-- The bytes that are sent are those of the live records, in order and once each, and every
written slot belongs to the array. -/
structure ReportsLive (stack : List UInt8) (speakers : List Record) : Prop where
  sent : (cmdSpeakers layout stack speakers).sent =
    (speakers.filter (live layout)).flatMap layout.bytes
  inside : ∀ slot ∈ (cmdSpeakers layout stack speakers).slots, slot < count speakers

/-- The array keeps its size. -/
theorem filled_length (speakers : List Record) (state : Filling) :
    state.list.length ≤ (speakers.foldl (copySpeaker layout) state).list.length := by
  induction speakers generalizing state with
  | nil => exact Nat.le_refl _
  | cons sp rest inductionHypothesis =>
    apply Nat.le_trans _ (inductionHypothesis (copySpeaker layout state sp))
    unfold copySpeaker
    split
    · exact overwrite_length _ _ _
    · exact Nat.le_refl _

/-- The records, one behind the other, have one size each. -/
theorem records_length (speakers : List Record) :
    (speakers.flatMap layout.bytes).length = speakers.length * layout.sizeof := by
  rw [List.length_flatMap, List.map_congr_left fun record _ => layout.fits record]
  simp

/-- The live records are in the first slots, and no other slot has been written. -/
structure Filled (limit : Nat) (copied : List UInt8) (state : Filling) : Prop where
  copied : state.list.take (state.idx * layout.sizeof) = copied
  slots : ∀ slot ∈ state.slots, slot < limit

/-- A live record goes to the next slot of the array. -/
theorem copy_fills (limit : Nat) (small : limit < 2 ^ 32) (sp : Record) (state : Filling)
    (copied : List UInt8) (taken : live layout sp = true)
    (filled : Filled layout limit copied state) (room : state.idx < limit)
    (storage : limit * layout.sizeof ≤ state.list.length) :
    Filled layout limit (copied ++ layout.bytes sp) (copySpeaker layout state sp) ∧
      (copySpeaker layout state sp).idx = state.idx + 1 ∧
      state.list.length ≤ (copySpeaker layout state sp).list.length := by
  have slot : (state.idx + 1) * layout.sizeof ≤ limit * layout.sizeof :=
    Nat.mul_le_mul_right _ room
  rw [Nat.add_mul, Nat.one_mul] at slot
  have written := overwrite_take state.list (state.idx * layout.sizeof) (layout.bytes sp)
    (by omega)
  rw [layout.fits] at written
  rw [copySpeaker, if_pos taken, Nat.mod_eq_of_lt (by omega)]
  constructor
  · constructor
    · rw [Nat.add_mul, Nat.one_mul, written, filled.copied]
    · intro slot listed
      rcases List.mem_append.mp listed with earlier | last
      · exact filled.slots slot earlier
      · rw [List.mem_singleton.mp last]
        exact room
  constructor
  · rfl
  · exact overwrite_length _ _ _

/-- As long as the array has slots for them, the live records fill the next slots. -/
theorem fold_fills (limit : Nat) (small : limit < 2 ^ 32) (speakers : List Record)
    (state : Filling) (copied : List UInt8) (filled : Filled layout limit copied state)
    (room : state.idx + (speakers.filter (live layout)).length ≤ limit)
    (storage : limit * layout.sizeof ≤ state.list.length) :
    Filled layout limit (copied ++ (speakers.filter (live layout)).flatMap layout.bytes)
        (speakers.foldl (copySpeaker layout) state) ∧
      (speakers.foldl (copySpeaker layout) state).idx =
        state.idx + (speakers.filter (live layout)).length := by
  induction speakers generalizing state copied with
  | nil => exact ⟨by simpa using filled, rfl⟩
  | cons sp rest inductionHypothesis =>
    rw [List.foldl_cons]
    cases taken : live layout sp with
    | false =>
      have skipped : copySpeaker layout state sp = state := by
        simp [copySpeaker, taken]
      rw [List.filter_cons_of_neg (by simp [taken])] at room ⊢
      rw [skipped]
      exact inductionHypothesis state copied filled room storage
    | true =>
      rw [List.filter_cons_of_pos taken, List.length_cons] at room
      obtain ⟨next, idx, longer⟩ :=
        copy_fills layout limit small sp state copied taken filled (by omega) storage
      obtain ⟨later, last⟩ := inductionHypothesis (copySpeaker layout state sp)
        (copied ++ layout.bytes sp) next (by omega) (by omega)
      constructor
      · rw [List.filter_cons_of_pos taken, List.flatMap_cons, ← List.append_assoc]
        exact later
      · rw [last, idx, List.filter_cons_of_pos taken, List.length_cons]
        omega

/-- Of fewer than 2^32 records there are as many live ones as slots exactly if all are. -/
theorem all_live_iff (speakers : List Record) (small : speakers.length < 2 ^ 32) :
    (speakers.filter (live layout)).length = count speakers ↔
      ∀ record ∈ speakers, live layout record = true := by
  rw [count, Nat.mod_eq_of_lt small, List.length_filter_eq_length_iff]

/-- The live records are sent exactly if the array has as many slots as there are of them. -/
theorem reports_counted_iff (stack : List UInt8) (speakers : List Record)
    (array : stack.length = count speakers * layout.sizeof) :
    ReportsLive layout stack speakers ↔
      (speakers.filter (live layout)).length = count speakers := by
  have small : count speakers < 2 ^ 32 := Nat.mod_lt _ (by decide)
  constructor
  · intro reports
    have sizes := congrArg List.length reports.sent
    rw [records_length] at sizes
    apply Nat.eq_of_mul_eq_mul_right layout.positive
    rw [← sizes, cmdSpeakers]
    split
    · have longer := filled_length layout speakers ⟨stack, 0, []⟩
      simp only [List.length_take] at longer ⊢
      omega
    · next none =>
      rw [Nat.eq_zero_of_not_pos none]
      simp
  · intro counted
    by_cases some : 0 < count speakers
    · obtain ⟨filled, idx⟩ := fold_fills layout (count speakers) small speakers ⟨stack, 0, []⟩ []
        ⟨by simp, by simp⟩ (by simp only; omega) (by simp only; omega)
      have whole : (speakers.foldl (copySpeaker layout) ⟨stack, 0, []⟩).idx = count speakers := by
        rw [idx, counted]
        simp
      constructor
      · rw [cmdSpeakers, if_pos some, ← whole]
        exact filled.copied
      · rw [cmdSpeakers, if_pos some]
        exact filled.slots
    · have none : speakers.filter (live layout) = [] :=
        List.length_eq_zero_iff.mp (counted.trans (Nat.eq_zero_of_not_pos some))
      constructor
      · rw [cmdSpeakers, if_neg some, none]
        rfl
      · rw [cmdSpeakers, if_neg some]
        simp

/-- The command reports exactly the live records if and only if the array has as many slots
as there are live records; of fewer than 2^32 records, if and only if all of them are live. -/
theorem reports_live_iff (stack : List UInt8) (speakers : List Record)
    (array : stack.length = count speakers * layout.sizeof) :
    (ReportsLive layout stack speakers ↔
      (speakers.filter (live layout)).length = count speakers) ∧
    (speakers.length < 2 ^ 32 →
      (ReportsLive layout stack speakers ↔ ∀ record ∈ speakers, live layout record = true)) := by
  have counted := reports_counted_iff layout stack speakers array
  constructor
  · exact counted
  · intro small
    exact counted.trans (all_live_iff layout speakers small)

end Command

/-- The speaker records with two bytes each, the id and the channel. -/
def referenceLayout : Layout Speaker where
  sizeof := 2
  bytes := fun sp => [UInt8.ofNat sp.id, UInt8.ofNat sp.channel]
  state := fun sp =>
    match sp.state with
    | .none => 0
    | .online => 1
    | .offline => 2
    | .deleted => 3
  statNone := 0
  statDeleted := 3
  positive := by decide
  fits := fun _ => rfl

/-- An online and an offline speaker. -/
def liveSpeakers : List Speaker :=
  [{ Speaker.zero 7 0 1 with state := .online }, { Speaker.zero 8 0 1 with state := .offline }]

/-- Two live records are reported. -/
theorem live_speakers_are_reported : ReportsLive referenceLayout [9, 9, 9, 9] liveSpeakers :=
  ((reports_live_iff referenceLayout [9, 9, 9, 9] liveSpeakers rfl).2 (by decide)).mpr (by decide)

/-- A deleted and an online speaker. -/
def deletedSpeakers : List Speaker :=
  [{ Speaker.zero 7 0 1 with state := .deleted }, { Speaker.zero 8 0 1 with state := .online }]

/-- With a deleted record in the list the stack is sent behind the live one. -/
theorem stack_is_sent : ¬ ReportsLive referenceLayout [9, 9, 9, 9] deletedSpeakers := by
  intro reports
  have sent := reports.sent
  revert sent
  decide

end Castserver.Listing
