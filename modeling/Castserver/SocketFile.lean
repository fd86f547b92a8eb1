import Castserver.Lifecycle

/-!
# The socket file over the life of the process

`server_cmdctrl_init` unlinks the path of the socket and binds the socket there, and
`server_deinit` unlinks the path again. The path is copied first, and an empty copy names no
file, so a process that is told to end before it has the copy unlinks nothing. Of the failures
behind `bind` one calls `exit` where the others call `xexit`, and leaves the file behind, as
long as the path can be unlinked.
-/

namespace Castserver.SocketFile

open Lifecycle
open Library.Runs

/-- Files are only touched at the path of the socket, once the path has been copied. -/
structure Touched (initial : List Char → Option File) (state : State) : Prop where
  path : state.sockPath = [] ∨ state.sockPath = sock
  elsewhere : ∀ path, path ≠ sock → state.files path = initial path
  early : state.sockPath = [] → state.files = initial

/-- On the way to the main loop the path is copied and the socket bound when the program is
past these calls. -/
structure Up (initial : List Char → Option File) (state : State) : Prop where
  touched : Touched initial state
  copied : state.sockPath = [] ↔ copies state.program = true
  bound : state.files sock = some .own ↔ binds state.program = false

/-- On the way out the file is gone or will be unlinked, and at the end it is left behind by
one call only. -/
structure Down (initial : List Char → Option File) (state : State) : Prop where
  touched : Touched initial state
  unlinks : state.ended = none →
    Instruction.unlink ∈ state.program ∨ state.files sock ≠ some .own
  finished : ∀ call code, state.ended = some (call, code) →
    state.program = [] ∧ (state.files sock = some .own ↔ call = detectTtlFails)

/-- An `unlink` that finds a file removes it. -/
def Unlinks (state : State) (action : Action) : Prop :=
  ∀ answer, action = .call answer → state.program.head? = some .unlink → answer.fails = false

/-- Whether a call leaves the files and the copy of the path alone. -/
def alone : Instruction → Bool
  | .copyPath | .unlink | .bind _ => false
  | _ => true

/-- A call that leaves the files and the copy of the path alone does so whether or not it gives
up. -/
theorem execute_alone (answer : Answer) (state : State) (instruction : Instruction)
    (lone : alone instruction = true) :
    (execute answer state instruction).files = state.files ∧
      (execute answer state instruction).sockPath = state.sockPath := by
  have gaveUp (call : Instruction) (failed : State) (failure : Failure) :
      (giveUp call failed failure).files = failed.files ∧
        (giveUp call failed failure).sockPath = failed.sockPath := by
    cases failure <;> exact ⟨rfl, rfl⟩
  cases instruction with
  | socket purpose failure =>
    simp only [execute]
    split
    · exact ⟨rfl, rfl⟩
    · exact gaveUp _ _ failure
  | check call closes failure =>
    simp only [execute]
    split
    · rw [(gaveUp _ _ failure).1, (gaveUp _ _ failure).2]
      split <;> exact ⟨rfl, rfl⟩
    · exact ⟨rfl, rfl⟩
  | mutexRecvfrom =>
    simp only [execute]
    split <;> exact ⟨rfl, rfl⟩
  | mainLoop =>
    simp only [execute]
    split <;> exact ⟨rfl, rfl⟩
  | leaveDetect =>
    simp only [execute]
    split <;> exact ⟨rfl, rfl⟩
  | copyPath => cases lone
  | unlink => cases lone
  | bind failure => cases lone
  | _ => exact ⟨rfl, rfl⟩

/-- A call on the way to the main loop that can end the process is before `bind`, apart from one. -/
theorem exit_binds (code : Code) (instruction : Instruction) (rest : List Instruction)
    (placed : placed instruction rest = true) (exits : exits code instruction = true) :
    binds (instruction :: rest) = !decide (instruction = detectTtlFails) := by
  cases instruction with
  | socket purpose failure =>
    obtain rfl := of_decide_eq_true exits
    have unbound : binds rest = true := placed
    simpa [binds, detectTtlFails] using unbound
  | check call closes failure =>
    obtain rfl := of_decide_eq_true exits
    have unbound : binds rest =
        !decide (Instruction.check call closes (.exit code) = detectTtlFails) := by
      simpa [Lifecycle.placed] using placed
    simpa [binds] using unbound
  | mutexRecvfrom =>
    have unbound : binds rest = true := placed
    simpa [binds, detectTtlFails] using unbound
  | bind failure =>
    simp only [Lifecycle.placed, Bool.and_eq_true, decide_eq_true_eq] at placed
    simp [binds, placed.1.1, detectTtlFails]
  | exit last => cases placed
  | «return» => cases placed
  | _ => cases exits

section Calls

variable (initial : List Char → Option File)

/-- Files that are left alone are touched as before. -/
theorem alone_touched (state next : State) (touched : Touched initial state)
    (same : next.files = state.files ∧ next.sockPath = state.sockPath) : Touched initial next := by
  constructor
  · rw [same.2]
    exact touched.path
  · rw [same.1]
    exact touched.elsewhere
  · rw [same.1, same.2]
    exact touched.early

/-- Something happens to the file of the socket, and the path has been copied. -/
theorem update_touched (state next : State) (entry : Option File)
    (touched : Touched initial state)
    (files : next.files = Function.update state.files sock entry)
    (sockPath : next.sockPath = sock) : Touched initial next := by
  refine ⟨Or.inr sockPath, ?_, ?_⟩
  · intro path away
    rw [files, Function.update_of_ne away]
    exact touched.elsewhere path away
  · intro none
    exact absurd (sockPath.symm.trans none) sock_named

/-- A call that touches no file and copies no path leads on. -/
theorem goes_on_up (state next : State) (instruction : Instruction) (rest : List Instruction)
    (up : Up initial state) (before : state.program = instruction :: rest)
    (lone : alone instruction = true) (program : next.program = rest)
    (same : next.files = state.files ∧ next.sockPath = state.sockPath) : Up initial next := by
  have noCopy : instruction ≠ .copyPath := by
    rintro rfl
    cases lone
  have noBind : instruction ≠ .bind (.exit .four) := by
    rintro rfl
    cases lone
  refine ⟨alone_touched initial state next up.touched same, ?_, ?_⟩
  · rw [same.2, up.copied, program, before]
    simp [copies, Ne.symm noCopy]
  · rw [same.1, up.bound, program, before]
    simp [binds, Ne.symm noBind]

/-- A call that gives up on the way to the main loop. -/
theorem gives_up_down (state left next : State) (instruction : Instruction)
    (rest : List Instruction) (starting : Starting state) (up : Up initial state)
    (before : state.program = instruction :: rest) (placed : placed instruction rest = true)
    (alive : left.ended = state.ended)
    (same : next.files = state.files ∧ next.sockPath = state.sockPath)
    (gaveUp : GivesUp instruction left next) : Down initial next := by
  have touched := alone_touched initial state next up.touched same
  cases gaveUp with
  | exit code program ended exits =>
    refine ⟨touched, fun running => ?_, ?_⟩
    · rw [ended] at running
      cases running
    · intro call last finished
      rw [ended] at finished
      cases finished
      refine ⟨program, ?_⟩
      rw [same.1, up.bound, before, exit_binds code instruction rest placed exits]
      simp
  | xexit code program ended =>
    refine ⟨touched, fun _ => Or.inl ?_, ?_⟩
    · rw [program]
      cases code <;> decide
    · intro call last finished
      rw [ended, alive, starting.alive] at finished
      cases finished

/-- A call on the way to the main loop goes on with the file as the program tells, or gives
up. -/
theorem starting_filed (state : State) (answer : Answer) (instruction : Instruction)
    (rest : List Instruction) (starting : Starting state) (up : Up initial state)
    (program : state.program = instruction :: rest) (placed : placed instruction rest = true)
    (other : instruction ≠ .mainLoop) :
    (execute answer { state with program := rest } instruction).program = rest ∧
        Up initial (execute answer { state with program := rest } instruction) ∨
      (∃ code, (execute answer { state with program := rest } instruction).program ∈
          (xexit code).tails) ∧
        Down initial (execute answer { state with program := rest } instruction) := by
  have outcome := execute_outcome answer { state with program := rest } instruction other
  have gaveUp (next : State) (same : next.files = state.files ∧ next.sockPath = state.sockPath)
      (gaveUp : GivesUp instruction { state with program := rest } next) :
      (∃ code, next.program ∈ (xexit code).tails) ∧ Down initial next :=
    ⟨gives_up_place _ _ _ gaveUp,
      gives_up_down initial state { state with program := rest } next instruction rest starting up
        program placed rfl same gaveUp⟩
  have copied := up.copied
  have bound := up.bound
  rw [program] at copied bound
  have pathCopied (behind : copies (instruction :: rest) = false) : state.sockPath = sock := by
    apply up.touched.path.resolve_left
    rw [copied, behind]
    exact Bool.false_ne_true
  cases lone : alone instruction with
  | true =>
    have same := execute_alone answer { state with program := rest } instruction lone
    rcases outcome with goesOn | failed
    · exact Or.inl ⟨goesOn.program,
        goes_on_up initial state _ instruction rest up program lone goesOn.program same⟩
    · exact Or.inr (gaveUp _ same failed)
  | false =>
    cases instruction with
    | copyPath =>
      simp only [Lifecycle.placed, Bool.and_eq_true, Bool.not_eq_true'] at placed
      refine Or.inl ⟨rfl, ⟨Or.inr rfl, up.touched.elsewhere, fun none => absurd none sock_named⟩,
        ?_, ?_⟩
      · simp [execute, placed.1, sock]
      · show state.files sock = some .own ↔ binds rest = false
        rw [bound]
        simp [binds]
    | unlink =>
      simp only [Lifecycle.placed, Bool.and_eq_true, Bool.not_eq_true'] at placed
      have copiedPath := pathCopied (by simpa [copies] using placed.1)
      refine Or.inl ?_
      simp only [execute]
      split
      · refine ⟨rfl, alone_touched initial state _ up.touched ⟨rfl, rfl⟩, ?_, ?_⟩
        · simp [copiedPath, placed.1, sock]
        · rw [bound]
          simp [binds]
      · simp only [copiedPath]
        refine ⟨trivial, update_touched initial state _ none up.touched rfl rfl, ?_, ?_⟩
        · simp [placed.1, sock]
        · simp [placed.2]
    | bind failure =>
      simp only [Lifecycle.placed, Bool.and_eq_true, Bool.not_eq_true', decide_eq_true_eq]
        at placed
      obtain ⟨⟨rfl, copiedBefore⟩, boundAfter⟩ := placed
      have copiedPath := pathCopied (by simpa [copies] using copiedBefore)
      simp only [execute]
      split
      · exact Or.inr (gaveUp _ ⟨rfl, rfl⟩ (.exit .four rfl rfl rfl))
      · simp only [copiedPath]
        refine Or.inl ⟨trivial, update_touched initial state _ _ up.touched rfl rfl, ?_, ?_⟩
        · simp [copiedBefore, sock]
        · simp [boundAfter]
    | _ => cases lone

/-- A call on the way out touches files as the calls before it. -/
theorem leaving_touched (state : State) (answer : Answer) (code : Code)
    (instruction : Instruction) (rest : List Instruction) (touched : Touched initial state)
    (way : leaves code (instruction :: rest) = true) :
    Touched initial (execute answer { state with program := rest } instruction) := by
  cases lone : alone instruction with
  | true =>
    exact alone_touched initial state _ touched
      (execute_alone answer { state with program := rest } instruction lone)
  | false =>
    simp only [leaves, Bool.and_eq_true] at way
    cases instruction with
    | unlink =>
      simp only [execute]
      split
      · exact alone_touched initial state _ touched ⟨rfl, rfl⟩
      · next removes =>
        rw [not_or] at removes
        have copied : state.sockPath = sock := touched.path.resolve_left removes.1
        simp only [copied]
        exact update_touched initial state _ none touched rfl rfl
    | copyPath => cases way.2
    | bind failure => cases way.2
    | _ => cases lone

variable (unowned : initial sock ≠ some .own)

include unowned

/-- A call on the way out. -/
theorem leaving_filed (state : State) (answer : Answer) (code : Code) (instruction : Instruction)
    (rest : List Instruction) (down : Down initial state)
    (program : state.program = instruction :: rest)
    (way : leaves code (instruction :: rest) = true) (unlinked : Unlinks state (.call answer)) :
    Down initial (execute answer { state with program := rest } instruction) := by
  have touched := leaving_touched initial state answer code instruction rest down.touched way
  have alive : state.ended = none := by
    cases ended : state.ended with
    | none => rfl
    | some last =>
      have nothing := (down.finished last.1 last.2 ended).1
      rw [program] at nothing
      cases nothing
  have unlinks := down.unlinks alive
  rw [program] at unlinks
  simp only [leaves, Bool.and_eq_true, decide_eq_true_eq] at way
  have unended (next : State) (ended : next.ended = state.ended) (call : Instruction)
      (last : Code) (same : next.ended = some (call, last)) :
      next.program = [] ∧ (next.files sock = some .own ↔ call = detectTtlFails) := by
    rw [ended, alive] at same
    cases same
  have goesOn (next : State) (lone : alone instruction = true) (program : next.program = rest)
      (touched : Touched initial next) (same : next.files = state.files)
      (ended : next.ended = state.ended) : Down initial next := by
    have other : instruction ≠ .unlink := by
      rintro rfl
      cases lone
    refine ⟨touched, fun _ => ?_, unended next ended⟩
    rw [program, same]
    exact unlinks.imp_left fun member => (List.mem_cons.mp member).resolve_left (Ne.symm other)
  cases instruction with
  | setExitFlag => exact goesOn _ rfl rfl touched rfl rfl
  | foreign call => exact goesOn _ rfl rfl touched rfl rfl
  | closeConnection purpose => exact goesOn _ rfl rfl touched rfl rfl
  | leaveDetect =>
    revert touched
    simp only [execute]
    split <;> exact fun touched => goesOn _ rfl rfl touched rfl rfl
  | unlink =>
    have removes : answer.fails = false := unlinked answer rfl (by rw [program]; rfl)
    revert touched
    simp only [execute, removes, Bool.false_eq_true, or_false]
    split
    · next none =>
      refine fun touched => ⟨touched, fun _ => Or.inr ?_, unended _ rfl⟩
      show state.files sock ≠ some .own
      rw [down.touched.early none]
      exact unowned
    · next some =>
      have copied : state.sockPath = sock := down.touched.path.resolve_left some
      simp only [copied]
      exact fun touched => ⟨touched, fun _ => Or.inr (by simp), unended _ rfl⟩
  | exit last =>
    have gone : state.files sock ≠ some .own := by
      apply unlinks.resolve_left
      simp only [Bool.and_eq_true, decide_eq_true_eq] at way
      simp [way.2.2]
    refine ⟨touched, by rintro ⟨⟩, ?_⟩
    rintro call lastCode ⟨⟩
    exact ⟨rfl, fun own => absurd own gone, by rintro ⟨⟩⟩
  | _ => cases way.2

end Calls

/-- A process that has just started has touched nothing. -/
theorem started_up (table : Nat → Option Speakers.Descriptor) (files : List Char → Option File)
    (initialFd : Nat) (unowned : files sock ≠ some .own) :
    Up files (started table files initialFd) := by
  refine ⟨⟨Or.inl rfl, fun _ _ => rfl, fun _ => rfl⟩, ?_, ?_⟩
  · exact ⟨fun _ => by show copies main = true; decide, fun _ => rfl⟩
  · constructor
    · intro own
      exact absurd own unowned
    · intro bound
      exact absurd bound (by show binds main ≠ false; decide)

/-- A reply on the way leaves the files alone. -/
theorem replied_up (files : List Char → Option File) (state : State) (up : Up files state) :
    Up files { state with handed := .reply :: state.handed, notifyType := .reply } :=
  ⟨⟨up.touched.path, up.touched.elsewhere, up.touched.early⟩, up.copied, up.bound⟩

section Runs

variable (table : Nat → Option Speakers.Descriptor) (files : List Char → Option File)
  (initialFd : Nat) (unowned : files sock ≠ some .own) (actions : List Action)
  (admissible : machine.Admissible (started table files initialFd) actions)

include unowned admissible

/-- In every run a process touches no file but that of its socket. -/
theorem run_touched :
    Touched files (machine.after (started table files initialFd) actions) := by
  have phase : Phase (Up files) (Touched files)
      (machine.after (started table files initialFd) actions) := by
    refine phase_rule _ _ _ ?_ ?_ ?_ ?_ _ actions
      (.starting (started_starting table files initialFd)
        (started_up table files initialFd unowned)) admissible (along_always _ actions admissible)
    · intro state answer instruction rest starting up program placed other _
      exact (starting_filed files state answer instruction rest starting up program placed
        other).imp_right fun gaveUp => ⟨gaveUp.1, gaveUp.2.touched⟩
    · intro state answer code instruction rest touched _ way _
      exact leaving_touched files state answer code instruction rest touched way
    · intro state _ before
      have touched : Touched files state := before.elim (fun up => up.2.touched) id
      exact ⟨touched.path, touched.elsewhere, touched.early⟩
    · intro state _ up _
      exact replied_up files state up
  cases phase with
  | starting _ up => exact up.touched
  | leaving _ _ touched => exact touched

/-- Every run in which files can be unlinked keeps what is known of the file in its phase. -/
theorem run_filed (unlinked : machine.Along Unlinks (started table files initialFd) actions) :
    Phase (Up files) (Down files) (machine.after (started table files initialFd) actions) := by
  have signalled (state : State) (touched : Touched files state) (alive : state.ended = none) :
      Down files { state with program := xexit .zero } := by
    refine ⟨⟨touched.path, touched.elsewhere, touched.early⟩, fun _ => Or.inl ?_, ?_⟩
    · show Instruction.unlink ∈ xexit .zero
      decide
    · intro call code ended
      have none : some (call, code) = none := ended.symm.trans alive
      cases none
  refine phase_rule Unlinks (Up files) (Down files) ?_ (leaving_filed files unowned) ?_ ?_ _
    actions (.starting (started_starting table files initialFd)
      (started_up table files initialFd unowned)) admissible unlinked
  · intro state answer instruction rest starting up program placed other _
    exact starting_filed files state answer instruction rest starting up program placed other
  · intro state more before
    rcases before with ⟨starting, up⟩ | down
    · exact signalled state up.touched starting.alive
    · refine signalled state down.touched ?_
      cases ended : state.ended with
      | none => rfl
      | some last => exact absurd (down.finished last.1 last.2 ended).1 more
  · intro state _ up _
    exact replied_up files state up

end Runs

/-- Whether an `unlink` removes its file can be computed. -/
instance unlinksDecidable (state : State) : (action : Action) → Decidable (Unlinks state action)
  | .call answer => decidable_of_iff
      (state.program.head? = some .unlink → answer.fails = false)
      ⟨fun removes _ same first => Action.call.inj same ▸ removes first,
        fun unlinks first => unlinks answer rfl first⟩
  | .signal => isTrue nofun
  | .reply => isTrue nofun

end Castserver.SocketFile
