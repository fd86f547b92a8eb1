import Castserver.Library.Options
import Castserver.Mutex
import Mathlib.Data.List.Basic
import Mathlib.Data.List.TakeWhile
import Mathlib.Data.Nat.Digits.Defs

/-!
# The command lines of the server and the client

The function `main` of the server carries out its options in their order and gives up at the
first one that it does not accept. Several options that its text of options names, and
that its help text explains, are not among the cases of the switch. The interface and the
group are looked up behind the options. The client has an option less than its help text says,
and one that it does not survive.
-/

namespace Castserver.CommandLines

open Mutex
open Library.Options

/-- A space of the C library. -/
def isSpace (letter : Char) : Bool :=
  letter.toNat = 32 || (9 ≤ letter.toNat && letter.toNat ≤ 13)

/-- The value of the digits at the start of a text. -/
def digitsValue (text : List Char) : Nat :=
  (text.takeWhile Char.isDigit).foldl (fun value digit => value * 10 + (digit.toNat - 48)) 0

/-- The C library's `strtol` for base ten. -/
def strtol (text : List Char) : Int :=
  match text.dropWhile isSpace with
  | '-' :: rest => max (-2 ^ 63) (-digitsValue rest)
  | '+' :: rest => min (2 ^ 63 - 1) (digitsValue rest)
  | rest => min (2 ^ 63 - 1) (digitsValue rest)

/-- The value of `multicast_port`: what `strtol` gives is made an `int`, and then a number of 16
bits. -/
def multicastPort (text : List Char) : Nat := ((strtol text).bmod (2 ^ 32) % 2 ^ 16).toNat

/-- How a command line ends the server: with `exit(0)`, with `exit(EERR_ARG)`, or by a return of
minus one from `main`. -/
inductive Exit where
  | zero
  | eerrArg
  | minusOne
deriving DecidableEq, Repr

/-- What `common` gives: whether it knows a level, and the interfaces, the default one and the groups
it finds. A group is given with its family, and its address if this is that of `AF_INET`. -/
structure Common (Interface : Type) where
  logLevel : List Char → Bool
  interface : List Char → Option Interface
  defaultInterface : Option (List Char)
  group : List Char → Option UInt32

/-- The variables of `main` that its options set. -/
structure Settings where
  configFile : Option (List Char)
  interfaceName : Option (List Char)
  multicastPort : Option Nat
  groupIp : Option (List Char)
deriving DecidableEq, Repr

/-- No option has been carried out. -/
def unset : Settings := ⟨none, none, none, none⟩

/-- The text of options of the server. -/
def serverOptstring : List Char :=
  ['D', 'S', ':', 'c', ':', 'i', ':', 'g', ':', 'p', ':', 'm', ':', 'x', ':', 'o', ':', 'd', ':',
    's', ':', 'n', ':', 't', ':', 'l', ':', 'P', 'u', 'v', 'h']

section Server

variable {Interface : Type} (common : Common Interface)

/-- Carry out one option of the server. -/
def serverOption (settings : Settings) : Item → Except Exit Settings
  | .flag 'D' => .ok settings
  | .argument 'S' _ => .ok settings
  | .argument 'c' value => .ok { settings with configFile := some value }
  | .argument 'l' value => if common.logLevel value then .ok settings else .error .eerrArg
  | .argument 'i' value => .ok { settings with interfaceName := some value }
  | .argument 'p' value =>
    if multicastPort value = 0 then .error .eerrArg
    else .ok { settings with multicastPort := some (multicastPort value) }
  | .argument 'g' value => .ok { settings with groupIp := some value }
  | .flag 'h' => .error .zero
  | _ => .error .eerrArg

/-- The interface with a name, or the default one. -/
def findInterface : Option (List Char) → Except Exit Interface
  | some name =>
    match common.interface name with
    | some interface => .ok interface
    | none => .error .eerrArg
  | none =>
    match common.defaultInterface with
    | none => .error .minusOne
    | some name =>
      match common.interface name with
      | some interface => .ok interface
      | none => .error .eerrArg

/-- The group with an address, if one is given. -/
def findGroup : Option (List Char) → Except Exit (Option UInt32)
  | none => .ok none
  | some text =>
    match common.group text with
    | some group => .ok (some group)
    | none => .error .eerrArg

/-- The function `main` of the server up to the installation of its signal handlers: the
interface, and the configuration of the detect socket. -/
def serverMain (words : List (List Char)) : Except Exit (Interface × Options) := do
  let scanned := scan (ofOptstring serverOptstring) none words
  let settings ← scanned.1.foldlM (serverOption common) unset
  if scanned.2 ≠ [] then .error .eerrArg
  else
    let interface ← findInterface common settings.interfaceName
    let group ← findGroup common settings.groupIp
    return (interface, ⟨group, settings.multicastPort.map UInt16.ofNat⟩)

/-- Whether the server carries out an option and goes on. -/
def accepts : Item → Bool
  | .flag letter => decide (letter = 'D')
  | .argument letter value =>
    decide (letter ∈ ['S', 'c', 'i', 'g']) || decide (letter = 'l') && common.logLevel value ||
      decide (letter = 'p') && decide (multicastPort value ≠ 0)
  | .unknown _ | .missing _ => false

/-- What the options set: every one what its last argument says. -/
def settingsOf (items : List Item) : Settings where
  configFile := last 'c' items
  interfaceName := last 'i' items
  multicastPort := (last 'p' items).map multicastPort
  groupIp := last 'g' items

/-- An option is carried out exactly if it is accepted. -/
theorem server_option_iff (items : List Item) (item : Item) (settings : Settings) :
    serverOption common (settingsOf items) item = .ok settings ↔
      accepts common item = true ∧ settings = settingsOf (items ++ [item]) := by
  simp only [settingsOf, last_append]
  unfold serverOption
  split
  · simp [accepts, eq_comm]
  · simp [accepts, eq_comm]
  · simp [accepts, eq_comm]
  · next value =>
    by_cases known : common.logLevel value = true
    · simp [accepts, known, eq_comm]
    · simp [accepts, known]
  · simp [accepts, eq_comm]
  · next value =>
    by_cases zero : multicastPort value = 0
    · simp [accepts, zero]
    · simp [accepts, zero, eq_comm]
  · simp [accepts, eq_comm]
  · simp [accepts]
  · next notD notS notC notL notI notP notG _ =>
    have refused : accepts common item = false := by
      cases item with
      | flag letter => simpa [accepts] using notD
      | argument letter value =>
        have other (known : Char) (excluded : ∀ text, Item.argument letter value =
            .argument known text → False) : letter ≠ known := by
          rintro rfl
          exact excluded value rfl
        simp [accepts, other 'S' notS, other 'c' notC, other 'l' notL, other 'i' notI,
          other 'p' notP, other 'g' notG]
      | unknown letter => rfl
      | missing letter => rfl
    simp [refused]

/-- The options are carried out to the end exactly if all of them are accepted. -/
theorem server_options_iff (items : List Item) (settings : Settings) :
    items.foldlM (serverOption common) unset = .ok settings ↔
      (∀ item ∈ items, accepts common item = true) ∧ settings = settingsOf items :=
  carried_out_iff (serverOption common) settingsOf (accepts common)
    (server_option_iff common) items settings

/-- An option that is accepted is complete. -/
theorem accepted_complete (item : Item) (accepted : accepts common item = true) :
    item.complete = true := by
  cases item with
  | flag letter => rfl
  | argument letter value => rfl
  | unknown letter => cases accepted
  | missing letter => cases accepted

/-- What the text of options says of the dash. -/
theorem server_no_dash : ofOptstring serverOptstring '-' = none := by
  decide

/-- The interface is found exactly if the named one is, or the default one when none is named. -/
theorem find_interface_iff (name : Option (List Char)) (interface : Interface) :
    findInterface common name = .ok interface ↔
      (name.orElse fun _ => common.defaultInterface).bind common.interface = some interface := by
  unfold findInterface
  cases name with
  | some name => cases found : common.interface name <;> simp [found]
  | none =>
    cases common.defaultInterface with
    | none => simp
    | some name => cases found : common.interface name <;> simp [found]

/-- The group is found exactly if it is an address of the family, or none is given. -/
theorem find_group_iff (text : Option (List Char)) (group : Option UInt32) :
    findGroup common text = .ok group ↔ text.map common.group = group.map some := by
  unfold findGroup
  cases text with
  | none => cases group <;> simp
  | some text => cases found : common.group text <;> cases group <;> simp [found]

/-- A server that gets as far as its signal handlers has a command line of its grammar and accepts
all of its options. -/
theorem server_main_options (words : List (List Char)) (interface : Interface)
    (options : Options) (started : serverMain common words = .ok (interface, options)) :
    ∃ items, Renders (ofOptstring serverOptstring) words items ∧
      (∀ item ∈ items, accepts common item = true) ∧
      ((last 'i' items).orElse fun _ => common.defaultInterface).bind common.interface =
        some interface ∧
      (last 'g' items).map common.group = options.group.map some ∧
      options.port = (last 'p' items).map fun text => UInt16.ofNat (multicastPort text) := by
  unfold serverMain at started
  cases done : (scan (ofOptstring serverOptstring) none words).1.foldlM (serverOption common)
      unset with
  | error exit =>
    simp only [done, bind, Except.bind] at started
    cases started
  | ok settings =>
    obtain ⟨accepted, rfl⟩ := (server_options_iff common _ settings).mp done
    simp only [done, bind, Except.bind] at started
    split at started
    · cases started
    · next operands =>
      have renders := (scan_iff (ofOptstring serverOptstring) server_no_dash words _).mp
        ⟨Prod.ext rfl (not_not.mp operands),
          fun item member => accepted_complete common item (accepted item member)⟩
      refine ⟨_, renders, accepted, ?_⟩
      split at started
      · cases started
      · next found interfaceFound =>
        split at started
        · cases started
        · next group groupFound =>
          cases started
          exact ⟨(find_interface_iff common _ _).mp interfaceFound,
            (find_group_iff common _ _).mp groupFound, by simp [settingsOf, Function.comp_def]⟩

/-- The server gets as far as its signal handlers exactly on the command lines of its grammar
whose options it accepts, without operands, if the interface is found and the group is of
its family; and then the interface, the group and the port are those of the last options
that give them. -/
theorem server_main_iff (words : List (List Char)) (interface : Interface) (options : Options) :
    serverMain common words = .ok (interface, options) ↔
      ∃ items, Renders (ofOptstring serverOptstring) words items ∧
        (∀ item ∈ items, accepts common item = true) ∧
        ((last 'i' items).orElse fun _ => common.defaultInterface).bind common.interface =
          some interface ∧
        (last 'g' items).map common.group = options.group.map some ∧
        options.port = (last 'p' items).map fun text => UInt16.ofNat (multicastPort text) := by
  constructor
  · exact server_main_options common words interface options
  · rintro ⟨items, renders, accepted, interfaceFound, groupFound, port⟩
    have scanned := (renders_scan _ server_no_dash words items renders).1
    have done := (server_options_iff common items _).mpr ⟨accepted, rfl⟩
    have first := (find_interface_iff common (last 'i' items) interface).mpr interfaceFound
    have second := (find_group_iff common (last 'g' items) options.group).mpr groupFound
    obtain ⟨group, told⟩ := options
    obtain rfl := port
    simp [serverMain, scanned, done, settingsOf, first, second, bind, Except.bind, pure,
      Except.pure, Function.comp_def]

end Server

/-- The decimal digits of a number. -/
def decimal (number : Nat) : List Char := ((Nat.digits 10 number).reverse).map Nat.digitChar

/-- Decimal digits are read as their number. -/
theorem digits_value_decimal (number : Nat) : digitsValue (decimal number) = number := by
  have digit : ∀ value < 10, (Nat.digitChar value).isDigit = true ∧
      (Nat.digitChar value).toNat - 48 = value := by
    decide
  have small : ∀ value ∈ (Nat.digits 10 number).reverse, value < 10 := fun value member =>
    Nat.digits_lt_base (by decide) (List.mem_reverse.mp member)
  have all : (decimal number).takeWhile Char.isDigit = decimal number := by
    rw [List.takeWhile_eq_self_iff]
    intro letter member
    obtain ⟨value, listed, rfl⟩ := List.mem_map.mp member
    exact (digit value (small value listed)).1
  calc digitsValue (decimal number)
      = (Nat.digits 10 number).foldr
          (fun value sum => sum * 10 + ((Nat.digitChar value).toNat - 48)) 0 := by
        rw [digitsValue, all, decimal, List.foldl_map, List.foldl_reverse]
    _ = (Nat.digits 10 number).foldr (fun value sum => (value : Nat) + 10 * sum) 0 := by
        apply List.foldr_ext
        intro value member sum
        rw [(digit value (small value (List.mem_reverse.mpr member))).2]
        omega
    _ = number := by
        have digits := Nat.ofDigits_digits 10 number
        rw [Nat.ofDigits_eq_foldr] at digits
        simpa using digits

/-- The decimal digits of a number are read as the number, if it fits a `long`. -/
theorem strtol_decimal (number : Nat) (small : number < 2 ^ 63) :
    strtol (decimal number) = number := by
  have digit : ∀ value < 10, isSpace (Nat.digitChar value) = false ∧
      Nat.digitChar value ≠ '-' ∧ Nat.digitChar value ≠ '+' := by
    decide
  have value := digits_value_decimal number
  unfold strtol
  cases written : decimal number with
  | nil =>
    rw [written] at value
    simp [← value, digitsValue]
  | cons first rest =>
    obtain ⟨figure, listed, rfl⟩ := List.mem_map.mp
      (show first ∈ decimal number by rw [written]; exact List.mem_cons_self)
    obtain ⟨noSpace, noMinus, noPlus⟩ := digit figure
      (Nat.digits_lt_base (by decide) (List.mem_reverse.mp listed))
    rw [List.dropWhile_cons_of_neg (by simp [noSpace])]
    split
    · next same => exact absurd (List.cons.inj same).1 noMinus
    · next same => exact absurd (List.cons.inj same).1 noPlus
    · rw [← written, value]
      omega

/-- The port that decimal digits give is their number modulo sixteen bits. -/
theorem multicast_port_decimal (number : Nat) (small : number < 2 ^ 63) :
    multicastPort (decimal number) = number % 2 ^ 16 := by
  have divides : (2 ^ 16 : Int) ∣ ((2 ^ 32 : Nat) : Int) := by norm_num
  have wrapped : (number : Int).bmod (2 ^ 32) % 2 ^ 16 = (number : Int) % 2 ^ 16 :=
    calc (number : Int).bmod (2 ^ 32) % 2 ^ 16
        = (number : Int).bmod (2 ^ 32) % ((2 ^ 32 : Nat) : Int) % 2 ^ 16 :=
          (Int.emod_emod_of_dvd _ divides).symm
      _ = (number : Int) % ((2 ^ 32 : Nat) : Int) % 2 ^ 16 := by rw [Int.bmod_emod]
      _ = (number : Int) % 2 ^ 16 := Int.emod_emod_of_dvd _ divides
  rw [multicastPort, strtol_decimal number small, wrapped]
  omega

/-- A server that gets as far as its signal handlers, and whose last port is written with decimal
digits, listens on that port modulo sixteen bits, which is not zero. -/
theorem told_port_listened {Interface : Type} (common : Common Interface) (standard : Address)
    (words : List (List Char)) (items : List Item) (interface : Interface) (options : Options)
    (number : Nat) (small : number < 2 ^ 63)
    (renders : Renders (ofOptstring serverOptstring) words items)
    (told : last 'p' items = some (decimal number))
    (started : serverMain common words = .ok (interface, options)) :
    (listenAddress standard options).port.toNat = number % 2 ^ 16 ∧ number % 2 ^ 16 ≠ 0 := by
  obtain ⟨other, alsoRenders, accepted, _, _, port⟩ :=
    server_main_options common words interface options started
  obtain rfl : items = other := by
    have first := (renders_scan _ server_no_dash words items renders).1
    rw [(renders_scan _ server_no_dash words other alsoRenders).1] at first
    exact (Prod.mk.inj first).1.symm
  have accepts := accepted _ (last_mem 'p' (decimal number) items told)
  rw [told, Option.map_some, multicast_port_decimal number small] at port
  have some : number % 2 ^ 16 ≠ 0 := by
    simpa [CommandLines.accepts, multicast_port_decimal number small] using accepts
  refine ⟨?_, some⟩
  have value : (UInt16.ofNat (number % 2 ^ 16)).toNat = number % 2 ^ 16 := by
    rw [UInt16.toNat_ofNat']
    exact Nat.mod_mod _ _
  have nonzero : UInt16.ofNat (number % 2 ^ 16) ≠ 0 := by
    intro zero
    rw [zero] at value
    exact some value.symm
  simp only [listenAddress, port, if_pos nonzero, value]

/-- A host with one interface, which is the default one, whose `common` knows no levels and reads
every group as one address. -/
def referenceCommon : Common Unit where
  logLevel := fun _ => false
  interface := fun name => if name = ['l', 'o'] then some () else none
  defaultInterface := some ['l', 'o']
  group := fun _ => some 0xEFFF4D4D

/-- Two ports are given behind a flag, and the last one, 65537, is listened on as port 1. -/
theorem last_port_wraps :
    (listenAddress referenceStandard ⟨none, some 1⟩).port.toNat = 65537 % 2 ^ 16 ∧
      65537 % 2 ^ 16 ≠ 0 :=
  told_port_listened referenceCommon referenceStandard
    [['-', 'D', 'p', '7'], ['-', 'p'], decimal 65537]
    [.flag 'D', .argument 'p' ['7'], .argument 'p' (decimal 65537)] () ⟨none, some 1⟩ 65537
    (by decide)
    (.attached ['D'] 'p' ['7'] _ _ (List.forall_mem_singleton.mpr rfl) rfl (List.cons_ne_nil _ _)
      (.separate [] 'p' (decimal 65537) [] [] nofun rfl .nothing))
    rfl (by decide)

/-- How a command line ends the client: with `exit(1)`, or in `strdup` of a null pointer. -/
inductive ClientExit where
  | one
  | crashed
deriving DecidableEq, Repr

/-- The text of options of the client. -/
def clientOptstring : List Char := ['f', ':', 's', ':', 'l', ':', 'L', 'h']

section Client

variable (logLevel opens : List Char → Bool)

/-- Carry out one option of the client, with the name of the file to read. A name that begins with
a dash stands for the standard input, and an option without argument leaves a null pointer. -/
def clientOption (readFile : Option (List Char)) : Item → Except ClientExit (Option (List Char))
  | .flag 'L' => .error .crashed
  | .argument 'f' value =>
    if value.head? = some '-' ∨ opens value = true then .ok (some value) else .error .one
  | .argument 'l' value => if logLevel value then .ok readFile else .error .one
  | _ => .error .one

/-- The function `main` of the client up to its connection: the file that it will send. -/
def clientMain (words : List (List Char)) : Except ClientExit (Option (List Char)) := do
  let scanned := scan (ofOptstring clientOptstring) none words
  let readFile ← scanned.1.foldlM (clientOption logLevel opens) none
  if scanned.2 ≠ [] then .error .one else return readFile

/-- Whether the client carries out an option and goes on. -/
def clientAccepts : Item → Bool
  | .argument letter value =>
    decide (letter = 'f') && (decide (value.head? = some '-') || opens value) ||
      decide (letter = 'l') && logLevel value
  | .flag _ | .unknown _ | .missing _ => false

/-- An option is carried out exactly if it is accepted. -/
theorem client_option_iff (items : List Item) (item : Item) (readFile : Option (List Char)) :
    clientOption logLevel opens (last 'f' items) item = .ok readFile ↔
      clientAccepts logLevel opens item = true ∧ readFile = last 'f' (items ++ [item]) := by
  simp only [last_append]
  unfold clientOption
  split
  · simp [clientAccepts]
  · next value =>
    by_cases found : value.head? = some '-' ∨ opens value = true
    · rw [if_pos found]
      constructor
      · rintro ⟨⟩
        exact ⟨by simpa [clientAccepts] using found, rfl⟩
      · rintro ⟨_, rfl⟩
        rfl
    · rw [if_neg found]
      simp [clientAccepts, not_or.mp found]
  · next value =>
    by_cases known : logLevel value = true
    · simp [clientAccepts, known, eq_comm]
    · simp [clientAccepts, known]
  · next _ notF notL =>
    have refused : clientAccepts logLevel opens item = false := by
      cases item with
      | argument letter value =>
        have other (known : Char) (excluded : ∀ text, Item.argument letter value =
            .argument known text → False) : letter ≠ known := by
          rintro rfl
          exact excluded value rfl
        simp [clientAccepts, other 'f' notF, other 'l' notL]
      | flag letter => rfl
      | unknown letter => rfl
      | missing letter => rfl
    simp [refused]

/-- The only option that the client does not survive. -/
theorem client_crashes_iff (readFile : Option (List Char)) (item : Item) :
    clientOption logLevel opens readFile item = .error .crashed ↔ item = .flag 'L' := by
  constructor
  · intro crashes
    unfold clientOption at crashes
    split at crashes
    · rfl
    · split at crashes <;> cases crashes
    · split at crashes <;> cases crashes
    · cases crashes
  · rintro rfl
    rfl

/-- An option that is accepted is complete. -/
theorem client_accepted_complete (item : Item)
    (accepted : clientAccepts logLevel opens item = true) : item.complete = true := by
  cases item with
  | argument letter value => rfl
  | flag letter => cases accepted
  | unknown letter => cases accepted
  | missing letter => cases accepted

/-- The client connects exactly on the command lines of its grammar with options for files
that can be opened and known levels only, without operands, and sends the file of the last one;
and it does not survive exactly those on which nothing is refused before the first `-L`. The
option `-s` that its help text explains is always refused. -/
theorem client_main_iff (words : List (List Char)) :
    (∀ readFile, clientMain logLevel opens words = .ok readFile ↔
        ∃ items, Renders (ofOptstring clientOptstring) words items ∧
          (∀ item ∈ items, clientAccepts logLevel opens item = true) ∧
          readFile = last 'f' items) ∧
      (clientMain logLevel opens words = .error .crashed ↔
        ∃ earlier later, (scan (ofOptstring clientOptstring) none words).1 =
            earlier ++ .flag 'L' :: later ∧
          ∀ item ∈ earlier, clientAccepts logLevel opens item = true) := by
  have noDash : ofOptstring clientOptstring '-' = none := by decide
  have each := client_option_iff logLevel opens
  constructor
  · intro readFile
    have carried := carried_out_iff (clientOption logLevel opens) (last 'f')
      (clientAccepts logLevel opens) each
    constructor
    · intro connected
      cases done : (scan (ofOptstring clientOptstring) none words).1.foldlM
          (clientOption logLevel opens) none with
      | error exit =>
        simp only [clientMain, done, bind, Except.bind] at connected
        cases connected
      | ok file =>
        obtain ⟨accepted, rfl⟩ := (carried _ file).mp done
        simp only [clientMain, done, bind, Except.bind] at connected
        split at connected
        · cases connected
        · next operands =>
          cases connected
          exact ⟨_, (scan_iff _ noDash words _).mp ⟨Prod.ext rfl (not_not.mp operands),
            fun item member => client_accepted_complete logLevel opens item
              (accepted item member)⟩, accepted, rfl⟩
    · rintro ⟨items, renders, accepted, rfl⟩
      have scanned := (renders_scan _ noDash words items renders).1
      have done := (carried items _).mpr ⟨accepted, rfl⟩
      simp [clientMain, scanned, show items.foldlM (clientOption logLevel opens) none = _ from done,
        bind, Except.bind, pure, Except.pure]
  · have ended : clientMain logLevel opens words = .error .crashed ↔
        (scan (ofOptstring clientOptstring) none words).1.foldlM
          (clientOption logLevel opens) none = .error .crashed := by
      cases done : (scan (ofOptstring clientOptstring) none words).1.foldlM
          (clientOption logLevel opens) none with
      | error exit => simp only [clientMain, done, bind, Except.bind]
      | ok file =>
        simp only [clientMain, done, bind, Except.bind]
        split <;> exact ⟨nofun, nofun⟩
    rw [ended]
    refine (carried_out_error_iff (clientOption logLevel opens) (last 'f')
      (clientAccepts logLevel opens) each _ _).trans ?_
    constructor
    · rintro ⟨earlier, item, later, found, accepted, crashes⟩
      obtain rfl := (client_crashes_iff logLevel opens _ item).mp crashes
      exact ⟨earlier, later, found, accepted⟩
    · rintro ⟨earlier, later, found, accepted⟩
      exact ⟨earlier, _, later, found, accepted, rfl⟩

end Client

end Castserver.CommandLines
