import Castserver.Library.Paths

/-!
# The document server

The callback `ahc_echo` appends the request's url to the configured root and answers
with the regular file of that name. One substring test stands between the url and the
file system, and nothing stands between the root and the url.
-/

namespace Castserver.Http

open Library.Paths

/-- What a path can name. -/
inductive Node where
  | directory
  | regular (size : Nat)
  | other
deriving DecidableEq, Repr

/-- A file system without links: what stands at the absolute paths, and the path of the
working directory. -/
structure FileSystem where
  node : List (List Char) → Option Node
  cwd : List (List Char)

/-- Whether a path names a directory. -/
def FileSystem.directory (fs : FileSystem) (path : List (List Char)) : Bool :=
  fs.node path = some .directory

/-- What the kernel and the HTTP library answer: the number that `open` gives for an
existing file, if it opens it, and the results of the other calls. -/
structure Answers where
  descriptor : Option Nat
  statFails : Bool
  closeFails : Bool
  created : Bool
  queued : Int

/-- The arguments of one call. The flag is set from the second round of a request on. -/
structure Request where
  url : List Char
  method : List Char
  uploadDataSize : Nat
  continued : Bool

/-- How a call ends: it refuses or postpones the request, ends the process, or queues the
default page or the contents of an opened file with the size it was told. -/
inductive Reply where
  | no
  | yes
  | aborted
  | page (ret : Int)
  | file (name : List Char) (node : Node) (size : Option Nat) (ret : Int)
deriving DecidableEq, Repr

/-- The C library's `strstr`, as a test. -/
def strstr (haystack needle : List Char) : Bool := decide (needle <:+: haystack)

/-- A call of `open` for reading: the number and what it stands for. -/
def openFile (fs : FileSystem) (answers : Answers) (name : List Char) : Option (Nat × Node) :=
  if name = [] then none
  else
    let origin := if name.head? = some '/' then [] else fs.cwd
    match walk '.' fs.directory origin (name.splitOn '/') with
    | none => none
    | some path =>
      match fs.node path, answers.descriptor with
      | some node, some fd => some (fd, node)
      | _, _ => none

/-- The size of a regular file. -/
def Node.size : Node → Option Nat
  | .regular size => some size
  | .directory | .other => none

/-- Answer a request: the reply, and the flag of the next round. The test of the node is
skipped for the number zero, which then stands for what was opened, with no size. -/
def ahcEcho (rootPath : List Char) (fs : FileSystem) (answers : Answers) (request : Request) :
    Reply × Bool :=
  if request.method ≠ ['G', 'E', 'T'] ∧ request.method ≠ ['H', 'E', 'A', 'D'] then
    (.no, request.continued)
  else if !request.continued then (.yes, true)
  else if 0 ≠ request.uploadDataSize then (.no, request.continued)
  else
    let filePath := rootPath ++ request.url
    let opened := if strstr request.url ['.', '/'] then none else openFile fs answers filePath
    match opened with
    | none => (.page answers.queued, false)
    | some (fd, node) =>
      if 0 < fd ∧ (answers.statFails = true ∨ node.size = none) then
        (if answers.closeFails then .aborted else .page answers.queued, false)
      else if !answers.created then (if answers.closeFails then .aborted else .no, false)
      else (.file filePath node (if 0 < fd then node.size else none) answers.queued, false)

/-- The type `http_config_t`. -/
structure HttpConfig where
  port : Nat
  rootPath : List Char

/-- The configuration in force, with its defaults. -/
def serverHttpInit (cfg : Option HttpConfig) : HttpConfig :=
  match cfg with
  | some cfg => cfg
  | none => ⟨4415, ['/', 't', 'm', 'p']⟩

/-- A root path: absolute, without a slash at its end and without parts of dots. -/
structure DocumentRoot (rootPath : List Char) : Prop where
  absolute : rootPath.head? = some '/'
  unended : rootPath.getLast? ≠ some '/'
  undotted : ∀ part ∈ rootPath.splitOn '/', part ≠ ['.'] ∧ part ≠ ['.', '.']

/-- A url whose file lies below the root, if it is a regular one: it is empty, starts with a
slash, is refused for its dots, or has a slash and a last part that is not plain. -/
def Confined (url : List Char) : Prop :=
  url = [] ∨ url.head? = some '/' ∨ strstr url ['.', '/'] = true ∨
    '/' ∈ url ∧ ¬ Plain '.' (lastPart '/' url)

/-- Whenever a regular file is the answer to a url, its name lies strictly below the root,
whatever the file system holds apart from the directory of the root. -/
def AnswersBelow (rootPath url : List Char) : Prop :=
  ∀ fs answers request name bytes size ret continued,
    fs.node (normalise '/' '.' rootPath) = some .directory → request.url = url →
    ahcEcho rootPath fs answers request = (.file name (.regular bytes) size ret, continued) →
    Below (normalise '/' '.' name) (normalise '/' '.' rootPath)

/-- A root path is a base, a slash and a plain last part. -/
theorem root_cut (rootPath : List Char) (document : DocumentRoot rootPath) :
    ∃ base last, rootPath = base ++ '/' :: last ∧ '/' ∉ last ∧ Plain '.' last ∧
      ∀ part ∈ base.splitOn '/', part = [] ∨ Plain '.' part := by
  have member : '/' ∈ rootPath := List.mem_of_mem_head? document.absolute
  obtain ⟨base, last, rfl, clear⟩ := last_separator '/' rootPath member
  have parts : (base ++ '/' :: last).splitOn '/' = base.splitOn '/' ++ [last] := by
    rw [split_cut, List.splitOn_eq_singleton clear]
  have undotted := document.undotted
  rw [parts] at undotted
  refine ⟨base, last, rfl, clear, ⟨?_, ?_⟩, ?_⟩
  · intro none
    apply document.unended
    simp [none]
  · exact undotted last (List.mem_append_right _ (List.mem_singleton_self last))
  · intro part listed
    by_cases none : part = []
    · exact Or.inl none
    · exact Or.inr ⟨none, undotted part (List.mem_append_left _ listed)⟩

/-- A regular file that is opened by an absolute name has a plain last part, and stands at
the normal form of the name. -/
theorem open_regular (fs : FileSystem) (answers : Answers) (name : List Char) (fd bytes : Nat)
    (absolute : name.head? = some '/')
    (opened : openFile fs answers name = some (fd, .regular bytes)) :
    Plain '.' (lastPart '/' name) ∧ fs.node (normalise '/' '.' name) = some (.regular bytes) := by
  have nonempty : name ≠ [] := by
    rintro rfl
    cases absolute
  simp only [openFile, if_neg nonempty, if_pos absolute] at opened
  split at opened
  · cases opened
  · next path walked =>
    split at opened
    · next node number stands _ =>
      obtain ⟨_, rfl⟩ := Prod.mk.inj (Option.some.inj opened)
      have normal := walk_normalises '.' fs.directory [] (name.splitOn '/') path walked
      refine ⟨?_, by rw [normalise, ← normal]; exact stands⟩
      by_contra dotted
      rw [split_last] at walked
      have grounded : Grounded fs.directory [] := by
        intro above isAbove other
        exact absurd (List.prefix_nil.mp isAbove) other
      have inside := walk_not_plain '.' fs.directory [] _ path (lastPart '/' name) grounded dotted
        walked
      rw [FileSystem.directory, stands] at inside
      revert inside
      simp
    · cases opened

/-- An answer with a file is the answer to a url without dots in front of a slash, and the
file is the one opened behind the root. -/
theorem echo_file (rootPath : List Char) (fs : FileSystem) (answers : Answers)
    (request : Request) (name : List Char) (node : Node) (size : Option Nat) (ret : Int)
    (continued : Bool)
    (replied : ahcEcho rootPath fs answers request = (.file name node size ret, continued)) :
    strstr request.url ['.', '/'] = false ∧ name = rootPath ++ request.url ∧
      ∃ fd, openFile fs answers name = some (fd, node) := by
  unfold ahcEcho at replied
  split at replied
  · cases replied
  split at replied
  · cases replied
  split at replied
  · cases replied
  cases refused : strstr request.url ['.', '/'] with
  | true =>
    rw [refused] at replied
    cases replied
  | false =>
    rw [refused] at replied
    simp only [Bool.false_eq_true, if_false] at replied
    split at replied
    · cases replied
    · next fd opened found =>
      split at replied
      · split at replied <;> cases replied
      · split at replied
        · split at replied <;> cases replied
        · obtain ⟨sameReply, _⟩ := Prod.mk.inj replied
          obtain ⟨rfl, rfl, _, _⟩ := Reply.file.inj sameReply
          exact ⟨rfl, rfl, fd, found⟩

/-- Parts of a url behind its first slash are free of dots if no dot precedes a slash. -/
theorem url_undotted (url part : List Char) (clear : strstr url ['.', '/'] = false)
    (earlier : part ∈ (url.splitOn '/').dropLast) : part = [] ∨ Plain '.' part := by
  apply undotted_parts '/' '.' url part _ earlier
  simpa [strstr] using clear

/-- A url that starts with a slash and has a plain last part stays below the root. -/
theorem slash_below (rootPath rest : List Char)
    (clear : strstr ('/' :: rest) ['.', '/'] = false) (plain : Plain '.' (lastPart '/' rest)) :
    Below (normalise '/' '.' (rootPath ++ '/' :: rest)) (normalise '/' '.' rootPath) := by
  have undotted : ∀ part ∈ (rest.splitOn '/').dropLast, part = [] ∨ Plain '.' part := by
    intro part earlier
    apply url_undotted ('/' :: rest) part clear
    have split : ('/' :: rest).splitOn '/' = [] :: rest.splitOn '/' :=
      split_cut '/' [] rest
    rw [split, List.dropLast_cons_of_ne_nil (List.splitOn_ne_nil '/' rest)]
    exact List.mem_cons_of_mem [] earlier
  rw [normalise, split_cut, split_last '/' rest, normalise_append, normalise_append,
    normalise_plain '.' _ _ undotted]
  refine ⟨(rest.splitOn '/').dropLast.filter (· ≠ []) ++ [lastPart '/' rest], by simp, ?_⟩
  rw [← List.append_assoc]
  exact enter_plain '.' _ _ plain

/-- A confined url is answered only with regular files below the root. -/
theorem confined_below (rootPath url : List Char) (document : DocumentRoot rootPath)
    (confined : Confined url) : AnswersBelow rootPath url := by
  rintro fs answers request name bytes size ret continued isRoot rfl replied
  obtain ⟨clear, rfl, fd, opened⟩ := echo_file rootPath fs answers request name _ size ret
    continued replied
  have rootNonempty : rootPath ≠ [] := by
    rintro rfl
    cases document.absolute
  have absolute : (rootPath ++ request.url).head? = some '/' := by
    rw [List.head?_append_of_ne_nil _ rootNonempty]
    exact document.absolute
  obtain ⟨plain, regular⟩ := open_regular fs answers _ fd bytes absolute opened
  rcases confined with none | slash | dotted | ⟨member, notPlain⟩
  · rw [none, List.append_nil, isRoot] at regular
    cases regular
  · obtain ⟨rest, same⟩ : ∃ rest, request.url = '/' :: rest :=
      List.head?_eq_some_iff.mp slash
    rw [same] at clear plain ⊢
    rw [last_part_cut] at plain
    exact slash_below rootPath rest clear plain
  · rw [clear] at dotted
    cases dotted
  · obtain ⟨base, last, same, _⟩ := last_separator '/' request.url member
    rw [same, ← List.append_assoc, last_part_cut] at plain
    rw [same, last_part_cut] at notPlain
    exact absurd plain notPlain

/-- A file system with one regular file, all other paths being directories. -/
def oneFile (target : List (List Char)) : FileSystem where
  node := fun path => if path = target then some (.regular 0) else some .directory
  cwd := []

/-- Everything the server asks for succeeds. -/
def willing : Answers := ⟨some 3, false, false, true, 1⟩

/-- The second round of a request for a url. -/
def secondRound (url : List Char) : Request := ⟨url, ['G', 'E', 'T'], 0, true⟩

/-- The one file of a file system is opened by a name whose parts are free of dots. -/
theorem open_one_file (name : List Char) (absolute : name.head? = some '/')
    (undotted : ∀ part ∈ (name.splitOn '/').dropLast, part = [] ∨ Plain '.' part)
    (plain : Plain '.' (lastPart '/' name)) :
    openFile (oneFile (normalise '/' '.' name)) willing name = some (3, .regular 0) := by
  have nonempty : name ≠ [] := by
    rintro rfl
    cases absolute
  have normal := normalise_undotted '/' '.' name undotted plain
  have walked := walk_plain '.' (oneFile (normalise '/' '.' name)).directory []
    (name.splitOn '/').dropLast (lastPart '/' name) undotted plain (by
      intro other short
      have different : other ≠ normalise '/' '.' name := by
        intro same
        rw [same, normal, List.length_append, List.length_singleton, List.length_nil] at short
        omega
      simp [FileSystem.directory, oneFile, different])
  rw [← split_last, List.nil_append, ← normal] at walked
  simp only [openFile, if_neg nonempty, if_pos absolute, walked]
  simp [oneFile, willing]

/-- The parts of a root and a url that is not confined: the first part of the url joins the
last one of the root. -/
theorem joined_parts (base last url : List Char) (noSlash : '/' ∉ last)
    (lastPlain : Plain '.' last)
    (baseUndotted : ∀ part ∈ base.splitOn '/', part = [] ∨ Plain '.' part)
    (nonempty : url ≠ []) (started : url.head? ≠ some '/')
    (clear : strstr url ['.', '/'] = false)
    (plain : '/' ∈ url → Plain '.' (lastPart '/' url)) :
    ∃ first init final tail, first ≠ [] ∧
      (base ++ '/' :: last ++ url).splitOn '/' = init ++ [final] ∧
      (∀ part ∈ init, part = [] ∨ Plain '.' part) ∧ Plain '.' final ∧
      init.filter (· ≠ []) ++ [final] =
        (base.splitOn '/').filter (· ≠ []) ++ (last ++ first) :: tail := by
  obtain ⟨first, rest, split, some⟩ := split_started '/' url nonempty started
  have joined := plain_joined '.' last first lastPlain some
  have parts : (base ++ '/' :: last ++ url).splitOn '/' =
      base.splitOn '/' ++ (last ++ first) :: rest := by
    rw [List.append_assoc, List.cons_append, split_cut, split_joined '/' last url noSlash, split]
    rfl
  refine ⟨first, ?_⟩
  by_cases single : rest = []
  · exact ⟨base.splitOn '/', last ++ first, [], some, by rw [parts, single], baseUndotted, joined,
      rfl⟩
  · have member : '/' ∈ url := by
      by_contra absent
      rw [List.splitOn_eq_singleton absent] at split
      exact single (List.cons.inj split).2.symm
    have restSplit : rest = rest.dropLast ++ [lastPart '/' url] := by
      have whole := split_last '/' url
      rw [split, List.dropLast_cons_of_ne_nil single] at whole
      exact (List.cons.inj whole).2
    refine ⟨base.splitOn '/' ++ (last ++ first) :: rest.dropLast, lastPart '/' url,
      rest.dropLast.filter (· ≠ []) ++ [lastPart '/' url], some, ?_, ?_, plain member, ?_⟩
    · rw [parts, List.append_assoc, List.cons_append, ← restSplit]
    · intro part listed
      rcases List.mem_append.mp listed with inBase | behind
      · exact baseUndotted part inBase
      · rcases List.mem_cons.mp behind with rfl | inRest
        · exact Or.inr joined
        · apply url_undotted url part clear
          rw [split, List.dropLast_cons_of_ne_nil single]
          exact List.mem_cons_of_mem first inRest
    · have kept : decide (last ++ first ≠ []) = true := decide_eq_true joined.1
      rw [List.filter_append, List.filter_cons, if_pos kept, List.append_assoc, List.cons_append]

/-- A url that is not confined names a file that is not below the root. -/
theorem joined_beside (rootPath url : List Char) (document : DocumentRoot rootPath)
    (nonempty : url ≠ []) (started : url.head? ≠ some '/')
    (clear : strstr url ['.', '/'] = false)
    (plain : '/' ∈ url → Plain '.' (lastPart '/' url)) :
    (∀ part ∈ ((rootPath ++ url).splitOn '/').dropLast, part = [] ∨ Plain '.' part) ∧
      Plain '.' (lastPart '/' (rootPath ++ url)) ∧
      ¬ Below (normalise '/' '.' (rootPath ++ url)) (normalise '/' '.' rootPath) ∧
      normalise '/' '.' (rootPath ++ url) ≠ normalise '/' '.' rootPath := by
  obtain ⟨base, last, rfl, noSlash, lastPlain, baseUndotted⟩ := root_cut rootPath document
  obtain ⟨first, init, final, tail, some, cut, undotted, finalPlain, shape⟩ :=
    joined_parts base last url noSlash lastPlain baseUndotted nonempty started clear plain
  have rootParts : (base ++ '/' :: last).splitOn '/' = base.splitOn '/' ++ [last] := by
    rw [split_cut, List.splitOn_eq_singleton noSlash]
  obtain ⟨rootInit, rootLast⟩ := last_part_of_split '/' _ last _ rootParts
  obtain ⟨fileInit, fileLast⟩ := last_part_of_split '/' _ final init cut
  have rootNormal := normalise_undotted '/' '.' (base ++ '/' :: last)
    (by rw [rootInit]; exact baseUndotted) (by rw [rootLast]; exact lastPlain)
  have fileNormal := normalise_undotted '/' '.' (base ++ '/' :: last ++ url)
    (by rw [fileInit]; exact undotted) (by rw [fileLast]; exact finalPlain)
  rw [rootInit, rootLast] at rootNormal
  rw [fileInit, fileLast, shape] at fileNormal
  have apart : last ++ first ≠ last := by
    intro same
    exact some (List.append_right_eq_self.mp same)
  refine ⟨by rw [fileInit]; exact undotted, by rw [fileLast]; exact finalPlain, ?_, ?_⟩
  · rintro ⟨more, _, same⟩
    rw [fileNormal, rootNormal, List.append_assoc, List.append_cancel_left_eq] at same
    exact apart (List.cons.inj same).1
  · intro same
    rw [fileNormal, rootNormal, List.append_cancel_left_eq] at same
    exact apart (List.cons.inj same).1

/-- For every root and every url, the regular files that answer the url lie below the
root exactly if the url is confined. -/
theorem answers_below_iff (rootPath url : List Char) (document : DocumentRoot rootPath) :
    AnswersBelow rootPath url ↔ Confined url := by
  constructor
  · intro below
    by_contra loose
    simp only [Confined, not_or, not_and, not_not, Bool.not_eq_true] at loose
    obtain ⟨nonempty, noSlash, clear, plain⟩ := loose
    obtain ⟨undotted, lastPlain, beside, apart⟩ :=
      joined_beside rootPath url document nonempty noSlash clear plain
    have rootNonempty : rootPath ≠ [] := by
      rintro rfl
      cases document.absolute
    have absolute : (rootPath ++ url).head? = some '/' := by
      rw [List.head?_append_of_ne_nil _ rootNonempty]
      exact document.absolute
    have opened := open_one_file (rootPath ++ url) absolute undotted lastPlain
    apply beside
    apply below (oneFile (normalise '/' '.' (rootPath ++ url))) willing (secondRound url)
      (rootPath ++ url) 0 (some 0) 1 false
    · simp [oneFile, Ne.symm apart]
    · rfl
    · simp only [ahcEcho, secondRound, clear, opened]
      simp [willing, Node.size]
  · exact confined_below rootPath url document

/-- The default root without a configuration. -/
theorem default_root : DocumentRoot (serverHttpInit none).rootPath where
  absolute := rfl
  unended := by decide
  undotted := by decide

/-- A url with two slashes and dots at its end. -/
theorem dots_answer_below :
    AnswersBelow (serverHttpInit none).rootPath ['/', 'a', '/', '.', '.'] ↔
      Confined ['/', 'a', '/', '.', '.'] :=
  answers_below_iff (serverHttpInit none).rootPath ['/', 'a', '/', '.', '.'] default_root

/-- A url without a slash is answered with the file `/tmpx`. -/
theorem file_beside_root_is_served : ¬ AnswersBelow (serverHttpInit none).rootPath ['x'] := by
  intro below
  have outside := below (oneFile [['t', 'm', 'p', 'x']]) willing (secondRound ['x'])
    ['/', 't', 'm', 'p', 'x'] 0 (some 0) 1 false (by decide) rfl (by decide)
  obtain ⟨more, _, same⟩ := outside
  have names : normalise '/' '.' ['/', 't', 'm', 'p', 'x'] = [['t', 'm', 'p', 'x']] := by decide
  have roots : normalise '/' '.' (serverHttpInit none).rootPath = [['t', 'm', 'p']] := by decide
  rw [names, roots] at same
  have heads := (List.cons.inj same).1
  revert heads
  decide

end Castserver.Http
