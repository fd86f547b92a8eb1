import Mathlib.Data.List.Infix
import Mathlib.Tactic.Common

/-!
# Path names and their lexical normal forms

A name is a list of symbols, split into parts at a separator. Walking a name from a
path enters one part after the other and needs a directory each time: an empty part
and the single dot stay, two dots go back, and every other part goes on. Without links
a walk ends at the lexical normal form of the name, and a name whose last part is not
a plain one ends at a directory.
-/

namespace Library.Paths

universe u
variable {Symbol : Type u} [DecidableEq Symbol] (separator dot : Symbol)

/-- A part that names an entry of a directory. -/
def Plain (part : List Symbol) : Prop := part ≠ [] ∧ part ≠ [dot] ∧ part ≠ [dot, dot]

/-- Whether a part is plain can be computed. -/
instance plainDecidable (part : List Symbol) : Decidable (Plain dot part) :=
  inferInstanceAs (Decidable (_ ∧ _ ∧ _))

/-- The path after one more part of a name. -/
def enter (path : List (List Symbol)) (part : List Symbol) : List (List Symbol) :=
  if part = [] ∨ part = [dot] then path
  else if part = [dot, dot] then path.dropLast
  else path ++ [part]

/-- The lexical normal form of parts, from a path on. -/
def normaliseFrom (path parts : List (List Symbol)) : List (List Symbol) :=
  parts.foldl (enter dot) path

/-- The lexical normal form of an absolute name. -/
def normalise (name : List Symbol) : List (List Symbol) :=
  normaliseFrom dot [] (name.splitOn separator)

/-- Walk the parts of a name where some paths are directories. -/
def walk (directory : List (List Symbol) → Bool) :
    List (List Symbol) → List (List Symbol) → Option (List (List Symbol))
  | path, [] => some path
  | path, part :: rest =>
    if directory path then walk directory (enter dot path part) rest else none

/-- The last part of a name. -/
def lastPart (name : List Symbol) : List Symbol :=
  (name.splitOn separator).getLast (List.splitOn_ne_nil separator name)

/-- A path lies strictly below another one. -/
def Below (path other : List (List Symbol)) : Prop := ∃ more, more ≠ [] ∧ path = other ++ more

/-- A plain part goes on. -/
theorem enter_plain (path : List (List Symbol)) (part : List Symbol) (plain : Plain dot part) :
    enter dot path part = path ++ [part] := by
  obtain ⟨some, noDot, noDots⟩ := plain
  rw [enter, if_neg (not_or.mpr ⟨some, noDot⟩), if_neg noDots]

omit [DecidableEq Symbol] in
/-- A plain part stays plain with more symbols behind it. -/
theorem plain_joined (part more : List Symbol) (plain : Plain dot part) (some : more ≠ []) :
    Plain dot (part ++ more) := by
  obtain ⟨nonempty, noDot, _⟩ := plain
  obtain ⟨symbol, rest, rfl⟩ := List.exists_cons_of_ne_nil nonempty
  refine ⟨by simp, ?_, ?_⟩
  · intro same
    rw [List.cons_append, List.cons.injEq, List.append_eq_nil_iff] at same
    exact some same.2.2
  · intro same
    rw [List.cons_append, List.cons.injEq, List.append_eq_singleton_iff] at same
    rcases same.2 with ⟨none, _⟩ | ⟨_, none⟩
    · exact noDot (by rw [same.1, none])
    · exact some none

/-- An empty part stays. -/
@[simp] theorem enter_empty (path : List (List Symbol)) : enter dot path [] = path := by
  simp [enter]

/-- Among parts without dots, normalising keeps the plain ones. -/
theorem normalise_plain (path parts : List (List Symbol))
    (undotted : ∀ part ∈ parts, part = [] ∨ Plain dot part) :
    normaliseFrom dot path parts = path ++ parts.filter (· ≠ []) := by
  induction parts generalizing path with
  | nil => simp [normaliseFrom]
  | cons part rest inductionHypothesis =>
    have later : ∀ other ∈ rest, other = [] ∨ Plain dot other := fun other member =>
      undotted other (List.mem_cons_of_mem part member)
    have following := inductionHypothesis (enter dot path part) later
    rw [normaliseFrom, List.foldl_cons]
    apply Eq.trans following
    rcases undotted part List.mem_cons_self with rfl | plain
    · simp
    · rw [enter_plain dot path part plain, List.append_assoc]
      simp [plain.1]

/-- Normalising a concatenation goes on from the normal form of its first part. -/
theorem normalise_append (path first second : List (List Symbol)) :
    normaliseFrom dot path (first ++ second) =
      normaliseFrom dot (normaliseFrom dot path first) second :=
  List.foldl_append

/-- A walk that succeeds ends at the lexical normal form. -/
theorem walk_normalises (directory : List (List Symbol) → Bool)
    (path parts final : List (List Symbol))
    (walked : walk dot directory path parts = some final) :
    final = normaliseFrom dot path parts := by
  induction parts generalizing path with
  | nil => exact (Option.some.inj walked).symm
  | cons part rest inductionHypothesis =>
    rw [walk] at walked
    split at walked
    · exact inductionHypothesis (enter dot path part) walked
    · cases walked

/-- Walking a concatenation walks its second part from where the first one ends. -/
theorem walk_append (directory : List (List Symbol) → Bool)
    (path first second : List (List Symbol)) :
    walk dot directory path (first ++ second) =
      (walk dot directory path first).bind fun middle => walk dot directory middle second := by
  induction first generalizing path with
  | nil => rfl
  | cons part rest inductionHypothesis =>
    rw [List.cons_append, walk, walk]
    split
    · exact inductionHypothesis (enter dot path part)
    · rfl

/-- Every path strictly above this one is a directory. -/
def Grounded (directory : List (List Symbol) → Bool) (path : List (List Symbol)) : Prop :=
  ∀ above, above <+: path → above ≠ path → directory above = true

/-- Entering a part of a directory keeps the path grounded. -/
theorem enter_grounded (directory : List (List Symbol) → Bool) (path : List (List Symbol))
    (part : List Symbol) (grounded : Grounded directory path) (inside : directory path = true) :
    Grounded directory (enter dot path part) := by
  unfold enter
  split
  · exact grounded
  · split
    · intro above isAbove other
      have higher : above <+: path := isAbove.trans (List.dropLast_prefix path)
      by_cases same : above = path
      · exact same ▸ inside
      · exact grounded above higher same
    · intro above isAbove other
      rcases List.prefix_concat_iff.mp isAbove with same | higher
      · exact absurd same other
      · by_cases same : above = path
        · exact same ▸ inside
        · exact grounded above higher same

/-- A walk keeps its path grounded. -/
theorem walk_grounded (directory : List (List Symbol) → Bool)
    (path parts final : List (List Symbol)) (grounded : Grounded directory path)
    (walked : walk dot directory path parts = some final) : Grounded directory final := by
  induction parts generalizing path with
  | nil => exact Option.some.inj walked ▸ grounded
  | cons part rest inductionHypothesis =>
    rw [walk] at walked
    split at walked
    · next inside =>
      exact inductionHypothesis _ (enter_grounded dot directory path part grounded inside) walked
    · cases walked

/-- A walk whose last part is not plain ends at a directory. -/
theorem walk_not_plain (directory : List (List Symbol) → Bool)
    (path init final : List (List Symbol)) (last : List Symbol)
    (grounded : Grounded directory path) (dotted : ¬ Plain dot last)
    (walked : walk dot directory path (init ++ [last]) = some final) :
    directory final = true := by
  rw [walk_append] at walked
  obtain ⟨middle, first, second⟩ := Option.bind_eq_some_iff.mp walked
  have groundedMiddle := walk_grounded dot directory path init middle grounded first
  simp only [walk] at second
  split at second
  · next inside =>
    rw [← Option.some.inj second, enter]
    split
    · exact inside
    · next proper =>
      rw [not_or] at proper
      split
      · by_cases top : middle = []
        · simpa [top] using inside
        · apply groundedMiddle _ (List.dropLast_prefix middle)
          intro same
          have shorter := congrArg List.length same
          have positive := List.length_pos_iff.mpr top
          rw [List.length_dropLast] at shorter
          omega
      · next noDots => exact absurd ⟨proper.1, proper.2, noDots⟩ dotted
  · cases second

/-- A walk over parts without dots, the last of them plain, succeeds where every shorter
path is a directory. -/
theorem walk_plain (directory : List (List Symbol) → Bool) (path parts : List (List Symbol))
    (last : List Symbol) (undotted : ∀ part ∈ parts, part = [] ∨ Plain dot part)
    (plain : Plain dot last)
    (above : ∀ other : List (List Symbol),
      other.length ≤ path.length + (parts.filter (· ≠ [])).length → directory other = true) :
    walk dot directory path (parts ++ [last]) =
      some (path ++ parts.filter (· ≠ []) ++ [last]) := by
  induction parts generalizing path with
  | nil =>
    have inside : directory path = true := above path (Nat.le_add_right _ _)
    simp [walk, inside, enter_plain dot path last plain]
  | cons part rest inductionHypothesis =>
    have later : ∀ other ∈ rest, other = [] ∨ Plain dot other := fun other member =>
      undotted other (List.mem_cons_of_mem part member)
    have inside : directory path = true := above path (Nat.le_add_right _ _)
    rw [List.cons_append, walk, if_pos inside]
    rcases undotted part List.mem_cons_self with rfl | proper
    · rw [enter_empty]
      have following := inductionHypothesis path later (fun other short => above other (by
        simpa using short))
      simpa using following
    · rw [enter_plain dot path part proper]
      have following := inductionHypothesis (path ++ [part]) later (fun other short =>
        above other (by
          simp only [List.length_append, List.length_singleton] at short
          rw [List.filter_cons_of_pos (by simpa using proper.1), List.length_cons]
          omega))
      simpa [proper.1] using following

/-- A name is its parts with separators in between, so a part that is not the last one is
followed by a separator. -/
theorem part_infix (name part : List Symbol)
    (earlier : part ∈ (name.splitOn separator).dropLast) : part ++ [separator] <:+: name := by
  have inside (parts : List (List Symbol)) (member : part ∈ parts.dropLast) :
      part ++ [separator] <:+: [separator].intercalate parts := by
    induction parts with
    | nil => cases member
    | cons first rest inductionHypothesis =>
      cases rest with
      | nil => cases member
      | cons second more =>
        rw [List.intercalate_cons_of_ne_nil (List.cons_ne_nil second more)]
        rw [List.dropLast_cons_of_ne_nil (List.cons_ne_nil second more)] at member
        rcases List.mem_cons.mp member with rfl | later
        · exact (List.prefix_append _ _).isInfix
        · exact (inductionHypothesis later).trans (List.suffix_append _ _).isInfix
  have found := inside (name.splitOn separator) earlier
  rwa [List.intercalate_splitOn] at found

/-- Without a dot in front of a separator, every part but the last is free of dots. -/
theorem undotted_parts (name part : List Symbol) (clear : ¬ [dot, separator] <:+: name)
    (earlier : part ∈ (name.splitOn separator).dropLast) : part = [] ∨ Plain dot part := by
  by_contra dotted
  rw [not_or] at dotted
  apply clear
  have follows := part_infix separator name part earlier
  by_cases single : part = [dot]
  · rw [single] at follows
    exact follows
  · have double : part = [dot, dot] := by
      by_contra other
      exact dotted.2 ⟨dotted.1, single, other⟩
    rw [double] at follows
    exact (List.suffix_cons dot [dot, separator]).isInfix.trans follows

/-- Symbols in front of a name without separators join its first part. -/
theorem split_joined (front name : List Symbol) (clear : separator ∉ front) :
    (front ++ name).splitOn separator = (name.splitOn separator).modifyHead (front ++ ·) := by
  induction front with
  | nil =>
    rw [List.nil_append]
    cases name.splitOn separator <;> rfl
  | cons symbol rest inductionHypothesis =>
    rw [List.mem_cons, not_or] at clear
    have different : (symbol == separator) = false := by simpa using Ne.symm clear.1
    rw [List.cons_append, List.splitOn_cons_eq_if_modifyHead, different,
      if_neg Bool.false_ne_true, inductionHypothesis clear.2]
    cases name.splitOn separator <;> rfl

/-- A name that does not start with a separator has a first part. -/
theorem split_started (name : List Symbol) (nonempty : name ≠ [])
    (started : name.head? ≠ some separator) :
    ∃ first rest, name.splitOn separator = first :: rest ∧ first ≠ [] := by
  obtain ⟨symbol, more, rfl⟩ := List.exists_cons_of_ne_nil nonempty
  have different : (symbol == separator) = false := by simpa using started
  rw [List.splitOn_cons_eq_if_modifyHead, different, if_neg Bool.false_ne_true]
  obtain ⟨first, rest, split⟩ :=
    List.exists_cons_of_ne_nil (List.splitOn_ne_nil separator more)
  exact ⟨symbol :: first, rest, by rw [split]; rfl, List.cons_ne_nil symbol first⟩

/-- A name with a separator, cut at its last one. -/
theorem last_separator (name : List Symbol) (member : separator ∈ name) :
    ∃ base last, name = base ++ separator :: last ∧ separator ∉ last := by
  induction name with
  | nil => cases member
  | cons symbol rest inductionHypothesis =>
    by_cases later : separator ∈ rest
    · obtain ⟨base, last, rfl, clear⟩ := inductionHypothesis later
      exact ⟨symbol :: base, last, rfl, clear⟩
    · rcases List.mem_cons.mp member with rfl | inRest
      · exact ⟨[], rest, rfl, later⟩
      · exact absurd inRest later

/-- The parts of a name cut at a separator. -/
theorem split_cut (base rest : List Symbol) :
    (base ++ separator :: rest).splitOn separator =
      base.splitOn separator ++ rest.splitOn separator :=
  List.splitOn_append_cons_self base rest

/-- The last part of a name cut at a separator is the last part behind it. -/
theorem last_part_cut (base rest : List Symbol) :
    lastPart separator (base ++ separator :: rest) = lastPart separator rest := by
  simp only [lastPart, split_cut]
  exact List.getLast_append_of_ne_nil _ (List.splitOn_ne_nil separator rest)

/-- All parts of a name but the last, and the last. -/
theorem split_last (name : List Symbol) :
    name.splitOn separator =
      (name.splitOn separator).dropLast ++ [lastPart separator name] :=
  (List.dropLast_append_getLast (List.splitOn_ne_nil separator name)).symm

/-- The parts of a name determine which of them is the last one. -/
theorem last_part_of_split (name last : List Symbol) (init : List (List Symbol))
    (split : name.splitOn separator = init ++ [last]) :
    (name.splitOn separator).dropLast = init ∧ lastPart separator name = last := by
  simp only [lastPart, split]
  exact ⟨List.dropLast_concat, List.getLast_concat⟩

/-- The normal form of a name whose parts are free of dots. -/
theorem normalise_undotted (name : List Symbol)
    (undotted : ∀ part ∈ (name.splitOn separator).dropLast, part = [] ∨ Plain dot part)
    (plain : Plain dot (lastPart separator name)) :
    normalise separator dot name =
      (name.splitOn separator).dropLast.filter (· ≠ []) ++ [lastPart separator name] := by
  rw [normalise, split_last, normalise_append, normalise_plain dot _ _ undotted,
    ← split_last, List.nil_append]
  exact enter_plain dot _ _ plain

end Library.Paths
