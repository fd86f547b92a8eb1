import Mathlib.Tactic.Common

/-!
# The control dispatcher

A control message is four header bytes, eight bytes of a command's name and the
command's argument. The dispatcher compares names along the command table with a
loop bound that counts bytes, not slots. A registered name is found before the
first empty slot; with any other name the loop arrives there.
-/

namespace Castserver.Dispatcher

/-- The callbacks of the registered commands. -/
inductive Callback where
  | cmdSpeakers
  | cmdWave
deriving DecidableEq, Repr

/-- The bytes of a text. -/
def bytesOf (text : List Char) : List UInt8 :=
  text.map fun letter => UInt8.ofNat letter.toNat

/-- A C string as the function its pointer is indexed with. -/
def cString (text : List Char) (index : Nat) : UInt8 :=
  (bytesOf text).getD index 0

/-- A slot of the table that holds a command. -/
structure PipeCommand where
  cmd : List Char
  cb : Callback
deriving DecidableEq, Repr

/-- The commands the initialiser of the table lists. -/
def registered : List PipeCommand :=
  [⟨['s', 'p', 'e', 'a', 'k', 'e', 'r', 's'], .cmdSpeakers⟩,
    ⟨['p', 'u', 's', 'h', 'w', 'a', 'v', 'e'], .cmdWave⟩]

/-- The macro `COMMAND_SIZE`, the number of slots. -/
def commandSize : Nat := 16

/-- The table: the listed commands, and null pointers in the other slots. -/
def commands : List (Option PipeCommand) :=
  registered.map some ++ List.replicate (commandSize - registered.length) none

/-- The value of `sizeof(commands)`: two pointers of eight bytes in each slot. -/
def sizeofCommands : Nat := commandSize * 16

/-- The macro `CONTROL_BUFFER_SIZE`. -/
def controlBufferSize : Nat := 4096

/-- The macro `CONTROL_HEADER_CNTL`. -/
def controlHeaderCntl : List Char := ['c', 'n', 't', 'l']

/-- The C library's `tolower` on the portable character set. -/
def toLower (byte : UInt8) : UInt8 :=
  if 65 ≤ byte ∧ byte ≤ 90 then byte + 32 else byte

/-- The C library's `memcmp`. -/
def memcmp (first second : Nat → UInt8) : Nat → Int
  | 0 => 0
  | length + 1 =>
    if first 0 = second 0 then memcmp (fun i => first (i + 1)) (fun i => second (i + 1)) length
    else (first 0).toNat - (second 0).toNat

/-- The C library's `strncasecmp`. It stops early at the end of both strings. -/
def strncasecmp (first second : Nat → UInt8) : Nat → Int
  | 0 => 0
  | length + 1 =>
    if toLower (first 0) ≠ toLower (second 0) then
      (toLower (first 0)).toNat - (toLower (second 0)).toNat
    else if first 0 = 0 then 0
    else strncasecmp (fun i => first (i + 1)) (fun i => second (i + 1)) length

/-- How `call_command` ends. It runs a callback with an argument pointer, given as an
offset into the buffer, and a length; it returns without running one; or it uses a
slot that holds no command or lies outside the table. -/
inductive Outcome where
  | ran (cb : Callback) (arg : Option Nat) (len : Nat)
  | returned (code : Int)
  | emptySlot
  | outside
deriving DecidableEq, Repr

/-- The loop over the table, with the slots and the iterations that remain. -/
def search (cmd : Nat → UInt8) (arg : Option Nat) (len : Nat) :
    Nat → List (Option PipeCommand) → Outcome
  | 0, _ => .returned 0
  | _ + 1, [] => .outside
  | _ + 1, none :: _ => .emptySlot
  | bound + 1, some command :: rest =>
    if strncasecmp cmd (cString command.cmd) 8 = 0 then .ran command.cb arg (len - 12)
    else search cmd arg len bound rest

/-- Dispatch a message of the given length at the front of a buffer. -/
def callCommand (buf : Nat → UInt8) (len : Nat) : Outcome :=
  if memcmp buf (cString controlHeaderCntl) 4 ≠ 0 then .returned 1
  else if len < 12 then .returned 1
  else
    let cmd := fun i => buf (4 + i)
    let arg := if len > 12 then some 12 else none
    search cmd arg len sizeofCommands commands

/-- The message starts with the control header and is long enough for a name. -/
def Addressed (buf : Nat → UInt8) (len : Nat) : Prop :=
  12 ≤ len ∧ ∀ i < 4, buf i = cString controlHeaderCntl i

/-- The name in the message is the command's, up to the case of letters. -/
def Names (buf : Nat → UInt8) (command : PipeCommand) : Prop :=
  ∀ i < 8, toLower (buf (4 + i)) = toLower (cString command.cmd i)

/-- The grammar of one message: it runs exactly the callback of the registered command
it names, with its argument; any other message runs none and returns; and only the
bytes of the message matter. -/
structure Grammar (buf : Nat → UInt8) (len : Nat) : Prop where
  runs : ∀ cb arg length, callCommand buf len = .ran cb arg length ↔
    ∃ command ∈ registered, Addressed buf len ∧ Names buf command ∧ cb = command.cb ∧
      arg = (if len = 12 then none else some 12) ∧ length = len - 12
  returns : (∀ command ∈ registered, ¬ (Addressed buf len ∧ Names buf command)) →
    ∃ code, callCommand buf len = .returned code
  fresh : ∀ other : Nat → UInt8, (∀ i < len, other i = buf i) →
    callCommand other len = callCommand buf len

/-- Comparing memory finds equality exactly when every byte agrees. -/
theorem memcmp_zero (first second : Nat → UInt8) (length : Nat) :
    memcmp first second length = 0 ↔ ∀ i < length, first i = second i := by
  induction length generalizing first second with
  | zero => simp [memcmp]
  | succ length inductionHypothesis =>
    rw [memcmp, Nat.forall_lt_succ_left']
    by_cases same : first 0 = second 0
    · rw [if_pos same, inductionHypothesis]
      simp [same]
    · rw [if_neg same]
      have apart : (first 0).toNat ≠ (second 0).toNat := fun equal =>
        same (UInt8.toNat_inj.mp equal)
      simp only [same, false_and, iff_false]
      omega

/-- Lower case leaves only the null byte null. -/
theorem to_lower_zero (byte : UInt8) (null : toLower byte = 0) : byte = 0 := by
  unfold toLower at null
  split at null
  · next letter =>
    have low := UInt8.le_iff_toNat_le.mp letter.1
    have high := UInt8.le_iff_toNat_le.mp letter.2
    have sum := congrArg UInt8.toNat null
    rw [UInt8.toNat_add] at sum
    simp only [UInt8.reduceToNat, Nat.reducePow] at low high sum
    omega
  · exact null

/-- Against a name without null bytes, the comparison without case finds equality
exactly when every byte agrees in lower case. -/
theorem strncasecmp_zero (first second : Nat → UInt8) (length : Nat)
    (unended : ∀ i < length, second i ≠ 0) :
    strncasecmp first second length = 0 ↔
      ∀ i < length, toLower (first i) = toLower (second i) := by
  induction length generalizing first second with
  | zero => simp [strncasecmp]
  | succ length inductionHypothesis =>
    rw [strncasecmp, Nat.forall_lt_succ_left']
    by_cases same : toLower (first 0) = toLower (second 0)
    · have going : first 0 ≠ 0 := by
        intro null
        rw [null] at same
        exact unended 0 (Nat.succ_pos length) (to_lower_zero (second 0) same.symm)
      rw [if_neg (not_not.mpr same), if_neg going,
        inductionHypothesis _ _ (fun i bound => unended (i + 1) (Nat.succ_lt_succ bound))]
      simp [same]
    · rw [if_pos same]
      have apart : (toLower (first 0)).toNat ≠ (toLower (second 0)).toNat := fun equal =>
        same (UInt8.toNat_inj.mp equal)
      simp only [same, false_and, iff_false]
      omega

/-- The names of the listed commands have eight bytes, none of them null. -/
theorem names_unended : ∀ command ∈ registered, ∀ i < 8, cString command.cmd i ≠ 0 := by
  decide

/-- No two listed commands have the same name up to case. -/
theorem names_distinct : ∀ first ∈ registered, ∀ second ∈ registered,
    (∀ i < 8, toLower (cString first.cmd i) = toLower (cString second.cmd i)) →
      first = second := by
  decide

/-- Walking a table whose first empty slot comes within the bound: the loop stops at
the first listed command that matches, or at the empty slot. -/
theorem search_listed (cmd : Nat → UInt8) (arg : Option Nat) (len bound : Nat)
    (listed : List PipeCommand) (rest : List (Option PipeCommand))
    (room : listed.length < bound) :
    search cmd arg len bound (listed.map some ++ none :: rest) =
      match listed.find? (fun command => strncasecmp cmd (cString command.cmd) 8 = 0) with
      | some command => .ran command.cb arg (len - 12)
      | none => .emptySlot := by
  induction listed generalizing bound with
  | nil =>
    obtain ⟨more, rfl⟩ := Nat.exists_eq_succ_of_ne_zero (Nat.ne_of_gt room)
    rfl
  | cons command others inductionHypothesis =>
    obtain ⟨more, rfl⟩ := Nat.exists_eq_succ_of_ne_zero (Nat.ne_of_gt (Nat.zero_lt_of_lt room))
    have roomLeft : others.length < more := Nat.lt_of_succ_lt_succ room
    by_cases matched : strncasecmp cmd (cString command.cmd) 8 = 0
    · simp [search, matched]
    · simp [search, matched, inductionHypothesis more roomLeft]

/-- The outcome of a message that is not addressed to the dispatcher. -/
theorem call_unaddressed (buf : Nat → UInt8) (len : Nat) (unaddressed : ¬ Addressed buf len) :
    callCommand buf len = .returned 1 := by
  by_cases header : memcmp buf (cString controlHeaderCntl) 4 = 0
  · have short : len < 12 := by
      by_contra long
      exact unaddressed ⟨Nat.not_lt.mp long, (memcmp_zero _ _ _).mp header⟩
    simp [callCommand, header, short]
  · simp [callCommand, header]

/-- The outcome of an addressed message: the callback of the command it names, or the
first empty slot of the table. -/
theorem call_addressed (buf : Nat → UInt8) (len : Nat) (addressed : Addressed buf len) :
    callCommand buf len =
      match registered.find? (fun command =>
        strncasecmp (fun i => buf (4 + i)) (cString command.cmd) 8 = 0) with
      | some command => .ran command.cb (if len = 12 then none else some 12) (len - 12)
      | none => .emptySlot := by
  obtain ⟨long, header⟩ := addressed
  have arg : (if len > 12 then some 12 else none) = (if len = 12 then none else some 12) := by
    by_cases bare : len = 12
    · simp [bare]
    · rw [if_pos (Nat.lt_of_le_of_ne long (Ne.symm bare)), if_neg bare]
  have table : commands = registered.map some ++ none :: List.replicate 13 none := rfl
  rw [callCommand, if_neg (not_not.mpr ((memcmp_zero _ _ _).mpr header)), if_neg (by omega)]
  simp only [arg, table]
  exact search_listed _ _ len sizeofCommands registered _ (by decide)

/-- The command an addressed message names is the one found. -/
theorem found_named (buf : Nat → UInt8) (command : PipeCommand) (listed : command ∈ registered) :
    strncasecmp (fun i => buf (4 + i)) (cString command.cmd) 8 = 0 ↔ Names buf command :=
  strncasecmp_zero _ _ 8 (names_unended command listed)

/-- A message that names a listed command runs its callback. -/
theorem call_named (buf : Nat → UInt8) (len : Nat) (command : PipeCommand)
    (listed : command ∈ registered) (addressed : Addressed buf len) (named : Names buf command) :
    callCommand buf len = .ran command.cb (if len = 12 then none else some 12) (len - 12) := by
  rw [call_addressed buf len addressed]
  cases found : registered.find? (fun command =>
      strncasecmp (fun i => buf (4 + i)) (cString command.cmd) 8 = 0) with
  | none =>
    have missed := List.find?_eq_none.mp found command listed
    simp only [decide_eq_true_eq] at missed
    exact absurd ((found_named buf command listed).mpr named) missed
  | some other =>
    have otherListed := List.mem_of_find?_eq_some found
    have matched := List.find?_some found
    simp only [decide_eq_true_eq] at matched
    have otherNamed := (found_named buf other otherListed).mp matched
    have same : other = command := names_distinct other otherListed command listed
      (fun i bound => (otherNamed i bound).symm.trans (named i bound))
    rw [same]

/-- An addressed message that names no listed command ends at an empty slot. -/
theorem call_unnamed (buf : Nat → UInt8) (len : Nat) (addressed : Addressed buf len)
    (unnamed : ∀ command ∈ registered, ¬ Names buf command) :
    callCommand buf len = .emptySlot := by
  have nowhere : registered.find? (fun command =>
      strncasecmp (fun i => buf (4 + i)) (cString command.cmd) 8 = 0) = none := by
    rw [List.find?_eq_none]
    intro command listed
    simp only [decide_eq_true_eq]
    exact fun matched => unnamed command listed ((found_named buf command listed).mp matched)
  rw [call_addressed buf len addressed, nowhere]

/-- Whether a message is addressed depends on its own bytes only. -/
theorem addressed_congr (buf other : Nat → UInt8) (len : Nat)
    (same : ∀ i < len, other i = buf i) : Addressed other len ↔ Addressed buf len := by
  unfold Addressed
  refine and_congr_right (fun long => forall_congr' fun i => forall_congr' fun bound => ?_)
  rw [same i (by omega)]

/-- Whether an addressed message names a command depends on its own bytes only. -/
theorem names_congr (buf other : Nat → UInt8) (len : Nat) (long : 12 ≤ len)
    (same : ∀ i < len, other i = buf i) (command : PipeCommand) :
    Names other command ↔ Names buf command := by
  unfold Names
  refine forall_congr' fun i => forall_congr' fun bound => ?_
  rw [same (4 + i) (by omega)]

/-- Bytes beyond the message do not change the outcome. -/
theorem call_congr (buf other : Nat → UInt8) (len : Nat) (same : ∀ i < len, other i = buf i) :
    callCommand other len = callCommand buf len := by
  have addressedSame := addressed_congr buf other len same
  by_cases addressed : Addressed buf len
  · have namesSame := names_congr buf other len addressed.1 same
    by_cases named : ∃ command ∈ registered, Names buf command
    · obtain ⟨command, listed, names⟩ := named
      rw [call_named buf len command listed addressed names,
        call_named other len command listed (addressedSame.mpr addressed)
          ((namesSame command).mpr names)]
    · have unnamed : ∀ command ∈ registered, ¬ Names buf command :=
        fun command listed names => named ⟨command, listed, names⟩
      rw [call_unnamed buf len addressed unnamed,
        call_unnamed other len (addressedSame.mpr addressed)
          (fun command listed names => unnamed command listed ((namesSame command).mp names))]
  · rw [call_unaddressed buf len addressed,
      call_unaddressed other len (fun yes => addressed (addressedSame.mp yes))]

/-- The dispatcher follows its grammar on exactly the messages that are not addressed
to it or name a listed command. -/
theorem grammar_followed (buf : Nat → UInt8) (len : Nat) :
    Grammar buf len ↔
      ¬ (Addressed buf len ∧ ∀ command ∈ registered, ¬ Names buf command) := by
  constructor
  · rintro grammar ⟨addressed, unnamed⟩
    obtain ⟨code, returned⟩ := grammar.returns (fun command listed both =>
      unnamed command listed both.2)
    rw [call_unnamed buf len addressed unnamed] at returned
    cases returned
  · intro spared
    refine ⟨?_, ?_, fun other same => call_congr buf other len same⟩
    · intro cb arg length
      constructor
      · intro ran
        by_cases addressed : Addressed buf len
        · have named : ∃ command ∈ registered, Names buf command := by
            by_contra unnamed
            exact spared ⟨addressed, fun command listed names => unnamed ⟨command, listed, names⟩⟩
          obtain ⟨command, listed, names⟩ := named
          rw [call_named buf len command listed addressed names] at ran
          obtain ⟨sameCb, sameArg, sameLength⟩ := Outcome.ran.inj ran
          exact ⟨command, listed, addressed, names, sameCb.symm, sameArg.symm, sameLength.symm⟩
        · rw [call_unaddressed buf len addressed] at ran
          cases ran
      · rintro ⟨command, listed, addressed, names, rfl, rfl, rfl⟩
        exact call_named buf len command listed addressed names
    · intro nowhere
      have unaddressed : ¬ Addressed buf len := by
        intro addressed
        exact spared ⟨addressed, fun command listed names =>
          nowhere command listed ⟨addressed, names⟩⟩
      exact ⟨1, call_unaddressed buf len unaddressed⟩

/-- An addressed message that names neither command. -/
def unknownCommand : Nat → UInt8 :=
  cString ['c', 'n', 't', 'l', 's', 'h', 'u', 't', 'd', 'o', 'w', 'n']

/-- The message is compared with the null name of an empty slot. -/
theorem unknown_command_uses_empty_slot : ¬ Grammar unknownCommand 12 := by
  intro grammar
  have outcome : callCommand unknownCommand 12 = .emptySlot := by decide
  have unmatched : ∀ command ∈ registered, ¬ Names unknownCommand command := by
    unfold Names
    decide
  obtain ⟨code, returned⟩ := grammar.returns (fun command listed both =>
    unmatched command listed both.2)
  rw [outcome] at returned
  cases returned

end Castserver.Dispatcher
