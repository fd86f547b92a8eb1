import Castserver.Numbering
import Castserver.Library.Cycles

/-!
# The packet counter

Every call of `server_sppush_push_channel` moves the static `package_seq` on, before it looks
for the speakers of its channel. Where the counter has to turn is tested on its old value
as a signed 16-bit number. Of the numbers from 1 to 65535 only the last one is -1 there, so
the counter goes through exactly these and never comes near the end of an `int`.
-/

namespace Castserver.Counter

open Detect Channels Castserver.Numbering
open Library.Runs Library.Cycles

/-- The static variables of the pusher before its first call. -/
def initial (server : Server) : PushState where
  packageSeq := 1
  channelBuffer := fun _ => 0
  server := server

/-- Calls of `server_sppush_push_channel` one after the other, each with the channel buffer
and the server as earlier steps of any kind left them. -/
def caller : Machine PushState ChannelCall where
  enabled := fun _ _ => True
  step := fun state call =>
    serverSppushPushChannel call.env call.ch call.len
      ⟨state.packageSeq, call.buffer, call.server⟩

/-- The value of `package_seq` after some of the calls, which is what the next one finds. -/
def packageSeqAfter (server : Server) (calls : List ChannelCall) (k : Nat) : Int :=
  (caller.after (initial server) (calls.take k)).packageSeq

/-- The values of the counter, from before the first of a number of calls to after the last
one, go through 1 to 65535. The increment is always one of `int`, and so many calls in a row
find, and leave behind, different values, and all of them. -/
structure Cycles (values : Nat → Int) (count : Nat) : Prop where
  closed : ∀ k ≤ count, values k = 1 + (k % 65535 : Nat)
  nonzero : ∀ k ≤ count, values k ≠ 0
  fits : ∀ k ≤ count, -2 ^ 31 ≤ values k ∧ values k + 1 < 2 ^ 31
  distinct : ∀ i j, i < j → j < i + 65535 → j ≤ count → values i ≠ values j
  covers : ∀ start, start + 65534 ≤ count → ∀ value, 1 ≤ value → value ≤ 65535 →
    ∃ k, start ≤ k ∧ k < start + 65535 ∧ values k = value

/-- Of the numbers of the cycle only the last one is -1 as a signed 16-bit number. -/
theorem short_minus_one (value : Int) (inside : Inside 1 65535 value) :
    (BitVec.ofInt 16 value).toInt = -1 ↔ value + 1 = 1 + (65535 : Nat) := by
  obtain ⟨low, high⟩ := inside
  rw [BitVec.toInt_ofInt, Int.bmod]
  split <;> omega

/-- A call sets the counter once, whether or not its channel has speakers. -/
theorem push_channel_sets (env : Environment) (ch len : Nat) (state : PushState) :
    (serverSppushPushChannel env ch len state).packageSeq =
      if (BitVec.ofInt 16 state.packageSeq).toInt = -1 then 1 else state.packageSeq + 1 := by
  apply push_channel_rule env (fun sent => sent.packageSeq =
    if (BitVec.ofInt 16 state.packageSeq).toInt = -1 then 1 else state.packageSeq + 1)
  · rfl
  · intro id sent same
    exact same

/-- From a number of the cycle a call counts on to the next one. -/
theorem call_counts (state : PushState) (call : ChannelCall)
    (inside : Inside 1 65535 state.packageSeq) :
    (caller.step state call).packageSeq = advance 1 65535 state.packageSeq := by
  simp only [caller, push_channel_sets, advance, short_minus_one state.packageSeq inside]

/-- Calls count on by their number. -/
theorem calls_count (state : PushState) (start : Nat)
    (begins : state.packageSeq = reading 1 65535 start) (calls : List ChannelCall) :
    (caller.after state calls).packageSeq = reading 1 65535 (start + calls.length) :=
  counting_rule caller PushState.packageSeq 1 65535 (by decide) call_counts state start begins
    calls

/-- A push that is carried out is one call for each of its channels. -/
theorem push_channels_calls (env : Environment) (samples : Around) (fuel len bits step : Nat)
    (chlist : List Nat) (i : Nat) (state final : PushState) (built : List (List UInt8))
    (ended : pushChannels env fuel samples len bits step chlist i state = .ok (final, built)) :
    ∃ calls, calls.length = chlist.length ∧ final = caller.after state calls := by
  induction chlist generalizing i state built with
  | nil =>
    obtain ⟨rfl, _⟩ := Prod.mk.inj (Except.ok.inj ended)
    exact ⟨[], rfl, rfl⟩
  | cons ch rest inductionHypothesis =>
    obtain ⟨gathered, more, _, later, _⟩ :=
      push_channels_cons env samples bits fuel len step ch rest i state final built ended
    obtain ⟨calls, count, same⟩ := inductionHypothesis (i + 1) _ more later
    refine ⟨⟨env, ch, len + env.pcm.headerSize, gathered.buffer, state.server⟩ :: calls, ?_, ?_⟩
    · rw [List.length_cons, List.length_cons, count]
    · rw [same]
      rfl

/-- A push moves the counter on by its channels. -/
theorem push_counts (env : Environment) (samples : Around) (fuel len start : Nat)
    (chlist : List Nat) (bits : UInt8) (state final : PushState) (built : List (List UInt8))
    (begins : state.packageSeq = reading 1 65535 start)
    (pushed : serverSppushPush env fuel samples len chlist bits state = .ok (final, built)) :
    final.packageSeq = reading 1 65535 (start + chlist.length) := by
  unfold serverSppushPush at pushed
  split at pushed
  · cases pushed
  · obtain ⟨calls, count, rfl⟩ := push_channels_calls env samples fuel len bits.toNat _ chlist
      0 state final built pushed
    rw [calls_count state start begins calls, count]

/-- Whatever is called, the counter after some calls is the number that stands so many steps
behind 1 in the cycle from 1 to 65535. -/
theorem packet_counter_cycles (server : Server) (calls : List ChannelCall) :
    Cycles (packageSeqAfter server calls) calls.length := by
  have counted (k : Nat) (made : k ≤ calls.length) :
      packageSeqAfter server calls k = reading 1 65535 k := by
    have counts := calls_count (initial server) 0 rfl (calls.take k)
    rw [List.length_take, Nat.min_eq_left made, Nat.zero_add] at counts
    exact counts
  have inside (k : Nat) (made : k ≤ calls.length) :
      1 ≤ packageSeqAfter server calls k ∧ packageSeqAfter server calls k < 1 + (65535 : Nat) := by
    rw [counted k made]
    exact reading_inside 1 65535 (by decide) k
  constructor
  · exact counted
  · intro k made
    have range := inside k made
    omega
  · intro k made
    have range := inside k made
    omega
  · intro i j before close made
    rw [counted i (by omega), counted j made]
    exact reading_distinct 1 65535 i j before close
  · intro start made value low high
    obtain ⟨k, later, close, reached⟩ := reading_covers 1 65535 start value ⟨low, by omega⟩
    refine ⟨k, later, close, ?_⟩
    rw [counted k (by omega)]
    exact reached

end Castserver.Counter
