import Mathlib.Data.List.Induction
import Mathlib.Tactic.Common

/-!
# Command lines of short options

A command line is a list of words. A word that begins with a dash holds letters of
options; an option that takes an argument ends its word, and its argument is what is left of
the word, or the next word when nothing is left. A word of two dashes ends the options,
and every other word is an operand, also one between options.

The scanner gives the options of every command line in their order, those that are unknown and
one that lacks its argument included, and the operands. The grammar says which command lines
have known options with all their arguments and no operand, and which options these are. Both
agree.
-/

namespace Library.Options

/-- What is found for an option. -/
inductive Item where
  | flag (letter : Char)
  | argument (letter : Char) (value : List Char)
  | unknown (letter : Char)
  | missing (letter : Char)
deriving DecidableEq, Repr

/-- A known option with all that belongs to it. -/
def Item.complete : Item → Bool
  | .flag _ | .argument _ _ => true
  | .unknown _ | .missing _ => false

/-- The letters of the options, and whether they take an argument. -/
abbrev Spec := Char → Option Bool

/-- The options that a text names: its letters, each with a colon behind it if it takes an
argument. -/
def ofOptstring : List Char → Spec
  | [], _ => none
  | first :: rest, letter =>
    if letter = first ∧ letter ≠ ':' then some (decide (rest.head? = some ':'))
    else ofOptstring rest letter

/-- The argument of the last option with a letter. -/
def last (letter : Char) (items : List Item) : Option (List Char) :=
  items.foldl
    (fun found item =>
      match item with
      | .argument other value => if other = letter then some value else found
      | .flag _ | .unknown _ | .missing _ => found)
    none

/-- Options that are carried out in their order, of which each is carried out exactly if it is
accepted and then brings the summary up to date, are carried out to the end exactly if all of
them are accepted. -/
theorem carried_out_iff {Error State : Type} (carry : State → Item → Except Error State)
    (summary : List Item → State) (accepts : Item → Bool)
    (each : ∀ items item state, carry (summary items) item = .ok state ↔
      accepts item = true ∧ state = summary (items ++ [item]))
    (items : List Item) (state : State) :
    items.foldlM carry (summary []) = .ok state ↔
      (∀ item ∈ items, accepts item = true) ∧ state = summary items := by
  induction items using List.reverseRecOn generalizing state with
  | nil =>
    constructor
    · rintro ⟨⟩
      exact ⟨nofun, rfl⟩
    · rintro ⟨_, rfl⟩
      rfl
  | append_singleton items item inductionHypothesis =>
    rw [List.foldlM_append]
    constructor
    · intro done
      cases before : items.foldlM carry (summary []) with
      | error error =>
        rw [before] at done
        cases done
      | ok earlier =>
        obtain ⟨accepted, rfl⟩ := (inductionHypothesis earlier).mp before
        have final : carry (summary items) item = .ok state := by
          rw [before] at done
          cases result : carry (summary items) item with
          | error error =>
            simp only [List.foldlM_cons, bind, Except.bind, result] at done
            cases done
          | ok next =>
            simp only [List.foldlM_cons, bind, Except.bind, result] at done
            exact done
        obtain ⟨takes, same⟩ := (each items item state).mp final
        refine ⟨?_, same⟩
        intro other member
        rcases List.mem_append.mp member with inItems | atEnd
        · exact accepted other inItems
        · rw [List.mem_singleton.mp atEnd]
          exact takes
    · rintro ⟨accepted, rfl⟩
      have before := (inductionHypothesis (summary items)).mpr
        ⟨fun other member => accepted other (List.mem_append_left _ member), rfl⟩
      have final := (each items item _).mpr
        ⟨accepted item (List.mem_append_right _ (List.mem_singleton_self _)), rfl⟩
      rw [before]
      simp [bind, Except.bind, final, pure, Except.pure]

/-- They end with an error exactly if the first one that is not accepted ends with it. -/
theorem carried_out_error_iff {Error State : Type} (carry : State → Item → Except Error State)
    (summary : List Item → State) (accepts : Item → Bool)
    (each : ∀ items item state, carry (summary items) item = .ok state ↔
      accepts item = true ∧ state = summary (items ++ [item]))
    (items : List Item) (error : Error) :
    items.foldlM carry (summary []) = .error error ↔
      ∃ earlier item later, items = earlier ++ item :: later ∧
        (∀ other ∈ earlier, accepts other = true) ∧
        carry (summary earlier) item = .error error := by
  have parted (earlier later : List Item) (item : Item)
      (accepted : ∀ other ∈ earlier, accepts other = true) :
      (earlier ++ item :: later).foldlM carry (summary []) =
        (carry (summary earlier) item).bind (later.foldlM carry) := by
    rw [List.foldlM_append,
      (carried_out_iff carry summary accepts each earlier _).mpr ⟨accepted, rfl⟩]
    rfl
  constructor
  · intro ended
    induction items using List.reverseRecOn with
    | nil => cases ended
    | append_singleton items item inductionHypothesis =>
      cases before : items.foldlM carry (summary []) with
      | error first =>
        rw [List.foldlM_append, before] at ended
        obtain ⟨earlier, refused, later, rfl, accepted, given⟩ :=
          inductionHypothesis (before.trans ended)
        exact ⟨earlier, refused, later ++ [item], by simp, accepted, given⟩
      | ok state =>
        obtain ⟨accepted, rfl⟩ := (carried_out_iff carry summary accepts each items state).mp before
        refine ⟨items, item, [], rfl, accepted, ?_⟩
        rw [parted items [] item accepted] at ended
        cases result : carry (summary items) item with
        | error last =>
          rw [result] at ended
          exact ended
        | ok next =>
          rw [result] at ended
          cases ended
  · rintro ⟨earlier, item, later, rfl, accepted, given⟩
    rw [parted earlier later item accepted, given]
    rfl

section Scanner

variable (spec : Spec)

/-- The options of one word, and the one that waits for the next word as its argument. -/
def letters : List Char → List Item × Option Char
  | [] => ([], none)
  | letter :: rest =>
    match spec letter with
    | none => (.unknown letter :: (letters rest).1, (letters rest).2)
    | some false => (.flag letter :: (letters rest).1, (letters rest).2)
    | some true => if rest = [] then ([], some letter) else ([.argument letter rest], none)

/-- What the C library's `getopt` finds: the options and the operands of the words, of which the
first may be an argument. -/
def scan : Option Char → List (List Char) → List Item × List (List Char)
  | none, [] => ([], [])
  | some letter, [] => ([.missing letter], [])
  | some letter, value :: rest => (.argument letter value :: (scan none rest).1, (scan none rest).2)
  | none, word :: rest =>
    if word = ['-', '-'] then ([], rest)
    else
      match word with
      | '-' :: letter :: more =>
        let found := letters spec (letter :: more)
        (found.1 ++ (scan found.2 rest).1, (scan found.2 rest).2)
      | _ => ((scan none rest).1, word :: (scan none rest).2)

/-- The command lines with known options that have all their arguments, and no operand. -/
inductive Renders : List (List Char) → List Item → Prop where
  | nothing : Renders [] []
  | dashes : Renders [['-', '-']] []
  | flags (flags : List Char) (words : List (List Char)) (items : List Item)
      (nonempty : flags ≠ []) (known : ∀ letter ∈ flags, spec letter = some false)
      (rest : Renders words items) :
      Renders (('-' :: flags) :: words) (flags.map .flag ++ items)
  | attached (flags : List Char) (letter : Char) (value : List Char) (words : List (List Char))
      (items : List Item) (known : ∀ letter ∈ flags, spec letter = some false)
      (takes : spec letter = some true) (nonempty : value ≠ []) (rest : Renders words items) :
      Renders (('-' :: (flags ++ letter :: value)) :: words)
        (flags.map .flag ++ .argument letter value :: items)
  | separate (flags : List Char) (letter : Char) (value : List Char) (words : List (List Char))
      (items : List Item) (known : ∀ letter ∈ flags, spec letter = some false)
      (takes : spec letter = some true) (rest : Renders words items) :
      Renders (('-' :: (flags ++ [letter])) :: value :: words)
        (flags.map .flag ++ .argument letter value :: items)

/-- One more option at the end. -/
theorem last_append (letter : Char) (items : List Item) (item : Item) :
    last letter (items ++ [item]) =
      match item with
      | .argument other value => if other = letter then some value else last letter items
      | .flag _ | .unknown _ | .missing _ => last letter items := by
  simp only [last, List.foldl_append, List.foldl_cons, List.foldl_nil]

/-- The argument of the last option with a letter is that of an option. -/
theorem last_mem (letter : Char) (value : List Char) (items : List Item)
    (found : last letter items = some value) : .argument letter value ∈ items := by
  induction items using List.reverseRecOn with
  | nil => cases found
  | append_singleton items item inductionHypothesis =>
    rw [last_append] at found
    cases item with
    | argument other text =>
      simp only at found
      split at found
      · next same =>
        obtain rfl := Option.some.inj found
        rw [same]
        exact List.mem_append_right _ (List.mem_singleton_self _)
      · exact List.mem_append_left _ (inductionHypothesis found)
    | _ => exact List.mem_append_left _ (inductionHypothesis found)

/-- Flags at the start of a word are found as they stand there. -/
theorem letters_flags (flags rest : List Char)
    (known : ∀ letter ∈ flags, spec letter = some false) :
    letters spec (flags ++ rest) =
      (flags.map .flag ++ (letters spec rest).1, (letters spec rest).2) := by
  induction flags with
  | nil => rfl
  | cons letter flags inductionHypothesis =>
    have first := known letter List.mem_cons_self
    have later := inductionHypothesis fun other member =>
      known other (List.mem_cons_of_mem _ member)
    simp only [List.cons_append, letters, first, later, List.map_cons]

/-- A word whose options are all known is one of flags, or of flags and an option with what is left
of the word, or with nothing left. -/
theorem letters_complete (word : List Char)
    (complete : ∀ item ∈ (letters spec word).1, item.complete = true) :
    (∀ letter ∈ word, spec letter = some false) ∧ letters spec word = (word.map .flag, none) ∨
    ∃ flags letter rest, word = flags ++ letter :: rest ∧
      (∀ letter ∈ flags, spec letter = some false) ∧ spec letter = some true ∧
      letters spec word = if rest = [] then (flags.map .flag, some letter)
        else (flags.map .flag ++ [.argument letter rest], none) := by
  induction word with
  | nil => exact Or.inl ⟨nofun, rfl⟩
  | cons letter rest inductionHypothesis =>
    cases kind : spec letter with
    | none =>
      simp only [letters, kind] at complete
      cases complete _ List.mem_cons_self
    | some takes =>
      cases takes with
      | true =>
        refine Or.inr ⟨[], letter, rest, rfl, nofun, kind, ?_⟩
        simp only [letters, kind]
        split <;> rfl
      | false =>
        simp only [letters, kind] at complete
        have later := inductionHypothesis fun item member =>
          complete item (List.mem_cons_of_mem _ member)
        rcases later with ⟨known, found⟩ | ⟨flags, last, left, rfl, known, takes, found⟩
        · refine Or.inl ⟨?_, ?_⟩
          · intro other member
            rcases List.mem_cons.mp member with rfl | inRest
            · exact kind
            · exact known other inRest
          · simp only [letters, kind, found, List.map_cons]
        · refine Or.inr ⟨letter :: flags, last, left, rfl, ?_, takes, ?_⟩
          · intro other member
            rcases List.mem_cons.mp member with rfl | inFlags
            · exact kind
            · exact known other inFlags
          · simp only [letters, kind, found]
            split <;> rfl

/-- The option that ends a word behind its flags. -/
theorem letters_last (flags rest : List Char) (letter : Char)
    (known : ∀ letter ∈ flags, spec letter = some false) (takes : spec letter = some true) :
    letters spec (flags ++ letter :: rest) =
      if rest = [] then (flags.map .flag, some letter)
      else (flags.map .flag ++ [.argument letter rest], none) := by
  rw [letters_flags spec flags _ known]
  simp only [letters, takes]
  split <;> simp

/-- A word of options and the words behind it. -/
theorem scan_word (word : List Char) (rest : List (List Char)) (nonempty : word ≠ [])
    (dashes : word ≠ ['-']) :
    scan spec none (('-' :: word) :: rest) =
      ((letters spec word).1 ++ (scan spec (letters spec word).2 rest).1,
        (scan spec (letters spec word).2 rest).2) := by
  cases word with
  | nil => exact absurd rfl nonempty
  | cons letter more =>
    have options : '-' :: letter :: more ≠ ['-', '-'] := by
      intro same
      exact dashes (List.cons.inj same).2
    simp only [scan, if_neg options]

/-- A word that is not one of options is an operand. -/
theorem scan_operand (word : List Char) (rest : List (List Char))
    (plain : ∀ options, options ≠ [] → word ≠ '-' :: options) :
    scan spec none (word :: rest) = ((scan spec none rest).1, word :: (scan spec none rest).2) := by
  have noDashes : word ≠ ['-', '-'] := plain ['-'] (List.cons_ne_nil _ _)
  simp only [scan, if_neg noDashes]
  split
  · exact absurd rfl (plain _ (List.cons_ne_nil _ _))
  · rfl

/-- A command line without operands on which the scanner finds only complete options is one of
the grammar. -/
theorem scan_renders (words : List (List Char)) (operands : (scan spec none words).2 = [])
    (complete : ∀ item ∈ (scan spec none words).1, item.complete = true) :
    Renders spec words (scan spec none words).1 := by
  induction size : words.length using Nat.strongRecOn generalizing words with
  | _ size inductionHypothesis =>
  cases words with
  | nil => exact .nothing
  | cons word rest =>
    by_cases dashes : word = ['-', '-']
    · subst dashes
      obtain rfl : rest = [] := operands
      exact .dashes
    · by_cases options : ∃ options, options ≠ [] ∧ word = '-' :: options
      · obtain ⟨options, nonempty, rfl⟩ := options
        have single : options ≠ ['-'] := by
          rintro rfl
          exact dashes rfl
        have scanned := scan_word spec options rest nonempty single
        rw [scanned] at operands complete ⊢
        have first : ∀ item ∈ (letters spec options).1, item.complete = true :=
          fun item member => complete item (List.mem_append_left _ member)
        have later : ∀ item ∈ (scan spec (letters spec options).2 rest).1, item.complete = true :=
          fun item member => complete item (List.mem_append_right _ member)
        rcases letters_complete spec options first with
          ⟨known, found⟩ | ⟨flags, letter, value, rfl, known, takes, found⟩
        · rw [found] at operands later ⊢
          exact .flags options rest _ nonempty known
            (inductionHypothesis rest.length (by rw [← size]; exact Nat.lt_succ_self _) rest operands
              later rfl)
        · rw [found] at operands later ⊢
          by_cases left : value = []
          · subst left
            rw [if_pos rfl] at operands later ⊢
            cases rest with
            | nil => cases later _ List.mem_cons_self
            | cons value rest =>
              exact .separate flags letter value rest _ known takes
                (inductionHypothesis rest.length
                  (by rw [← size]; simp only [List.length_cons]; omega) rest operands
                  (fun item member => later item (List.mem_cons_of_mem _ member)) rfl)
          · rw [if_neg left] at operands later ⊢
            rw [List.append_assoc]
            exact .attached flags letter value rest _ known takes left
              (inductionHypothesis rest.length (by rw [← size]; exact Nat.lt_succ_self _) rest operands
              later rfl)
      · have operand := scan_operand spec word rest fun other nonempty same =>
          options ⟨other, nonempty, same⟩
        rw [operand] at operands
        cases operands

variable (noDash : spec '-' = none)

include noDash

/-- A word with a known option is not one of two dashes. -/
theorem known_word (word : List Char) (letter : Char) (member : letter ∈ word)
    (known : spec letter ≠ none) : word ≠ [] ∧ word ≠ ['-'] := by
  constructor
  · rintro rfl
    cases member
  · rintro rfl
    rw [List.mem_singleton.mp member] at known
    exact known noDash

/-- The scanner finds the options of a command line of the grammar, and no operand. -/
theorem renders_scan (words : List (List Char)) (items : List Item)
    (renders : Renders spec words items) :
    scan spec none words = (items, []) ∧ ∀ item ∈ items, item.complete = true := by
  have flagged (flags : List Char) : ∀ item ∈ flags.map Item.flag, item.complete = true := by
    intro item member
    obtain ⟨letter, _, rfl⟩ := List.mem_map.mp member
    rfl
  have both (flags : List Char) (items : List Item) (letter : Char) (value : List Char)
      (later : ∀ item ∈ items, item.complete = true) :
      ∀ item ∈ flags.map .flag ++ .argument letter value :: items, item.complete = true := by
    intro item member
    rcases List.mem_append.mp member with first | second
    · exact flagged flags item first
    · rcases List.mem_cons.mp second with rfl | third
      · rfl
      · exact later item third
  induction renders with
  | nothing => exact ⟨rfl, nofun⟩
  | dashes => exact ⟨rfl, nofun⟩
  | flags flags words items nonempty known rest inductionHypothesis =>
    obtain ⟨scanned, later⟩ := inductionHypothesis
    obtain ⟨first, member⟩ := List.exists_mem_of_ne_nil flags nonempty
    have word := known_word spec noDash flags first member (by rw [known first member]; nofun)
    have found := letters_flags spec flags [] known
    rw [List.append_nil] at found
    constructor
    · rw [scan_word spec flags words word.1 word.2, found]
      simp only [letters, List.append_nil, scanned]
    · intro item member
      rcases List.mem_append.mp member with first | second
      · exact flagged flags item first
      · exact later item second
  | attached flags letter value words items known takes nonempty rest inductionHypothesis =>
    obtain ⟨scanned, later⟩ := inductionHypothesis
    have word := known_word spec noDash (flags ++ letter :: value) letter (by simp)
      (by rw [takes]; nofun)
    refine ⟨?_, both flags items letter value later⟩
    rw [scan_word spec _ words word.1 word.2, letters_last spec flags value letter known takes,
      if_neg nonempty]
    simp only [scanned, List.append_assoc, List.singleton_append]
  | separate flags letter value words items known takes rest inductionHypothesis =>
    obtain ⟨scanned, later⟩ := inductionHypothesis
    have word := known_word spec noDash (flags ++ [letter]) letter (by simp)
      (by rw [takes]; nofun)
    refine ⟨?_, both flags items letter value later⟩
    rw [scan_word spec _ _ word.1 word.2, letters_last spec flags [] letter known takes,
      if_pos rfl]
    simp only [scan, scanned]

/-- The scanner finds these options, all of them complete, and no operand exactly on the command
lines of the grammar that give these options. -/
theorem scan_iff (words : List (List Char)) (items : List Item) :
    scan spec none words = (items, []) ∧ (∀ item ∈ items, item.complete = true) ↔
      Renders spec words items := by
  constructor
  · rintro ⟨scanned, complete⟩
    have renders := scan_renders spec words (by rw [scanned]) (by rw [scanned]; exact complete)
    rw [scanned] at renders
    exact renders
  · exact renders_scan spec noDash words items

end Scanner

end Library.Options
