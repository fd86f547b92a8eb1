import Castserver.Http

/-!
# The buffer of a file name

Before `ahc_echo` opens a file it copies the root and the url, one behind the other, into
a buffer of 128 bytes. Neither copy knows the size of the buffer, and the only test before
them looks for dots in the url.
-/

namespace Castserver.FileNames

open Http

/-- The byte that ends a C string. -/
def nul : Char := Char.ofNat 0

/-- The size of `file_path`. -/
def filePathSize : Nat := 128

/-- The memory from the start of `file_path` on, which goes on behind its end, and the
addresses that have been written. -/
structure Buffer where
  memory : List Char
  writes : List Nat

/-- Write a text at an address. -/
def Buffer.place (buffer : Buffer) (address : Nat) (text : List Char) : Buffer where
  memory := buffer.memory.take address ++ text ++ buffer.memory.drop (address + text.length)
  writes := buffer.writes ++ (List.range text.length).map (address + ·)

/-- The C library's `strlen`. -/
def strlen (memory : List Char) : Nat := memory.findIdx fun letter => decide (letter = nul)

/-- The C library's `strcpy`, to the start of the buffer. -/
def strcpy (buffer : Buffer) (src : List Char) : Buffer := buffer.place 0 (src ++ [nul])

/-- The C library's `strcat`. -/
def strcat (buffer : Buffer) (src : List Char) : Buffer :=
  buffer.place (strlen buffer.memory) (src ++ [nul])

/-- The string at the start of the buffer. -/
def Buffer.text (buffer : Buffer) : List Char :=
  buffer.memory.takeWhile fun letter => decide (letter ≠ nul)

/-- The buffer is zeroed; what stands behind it is whatever the stack holds. -/
def emptyBuffer (beyond : List Char) : Buffer where
  memory := List.replicate filePathSize nul ++ beyond
  writes := []

/-- The file name of a request, unless its url is refused. -/
def buildFilePath (rootPath url beyond : List Char) : Option Buffer :=
  if strstr url ['.', '/'] then none
  else some (strcat (strcpy (emptyBuffer beyond) rootPath) url)

/-- Every file name that is built fits into the buffer, nothing is written behind the buffer,
and the name is complete; a url that is too long for that is refused. -/
structure Fits (rootPath url : List Char) : Prop where
  short : ∀ beyond buffer, buildFilePath rootPath url beyond = some buffer →
    rootPath.length + url.length + 1 ≤ filePathSize
  inside : ∀ beyond buffer, buildFilePath rootPath url beyond = some buffer →
    ∀ address ∈ buffer.writes, address < filePathSize
  complete : ∀ beyond buffer, buildFilePath rootPath url beyond = some buffer →
    buffer.text = rootPath ++ url
  refused : filePathSize < rootPath.length + url.length + 1 →
    ∀ beyond, buildFilePath rootPath url beyond = none

/-- The length of a string is that of its text. -/
theorem strlen_text (text rest : List Char) (free : nul ∉ text) :
    strlen (text ++ nul :: rest) = text.length := by
  induction text with
  | nil => simp [strlen, List.findIdx_cons]
  | cons letter text inductionHypothesis =>
    obtain ⟨first, others⟩ := List.ne_and_not_mem_of_not_mem_cons free
    have later := inductionHypothesis others
    simp only [strlen] at later
    simp [strlen, List.findIdx_cons, Ne.symm first, later]

/-- The text at the start of a buffer ends at its first nul. -/
theorem text_placed (text rest : List Char) (writes : List Nat) (free : nul ∉ text) :
    Buffer.text ⟨text ++ nul :: rest, writes⟩ = text := by
  have plain : ∀ letter ∈ text, decide (letter ≠ nul) = true := by
    intro letter member
    simp only [ne_eq, decide_eq_true_eq]
    rintro rfl
    exact free member
  rw [Buffer.text, List.takeWhile_append_of_pos plain]
  simp

/-- What the two copies leave: the root and the url in front of the rest of the memory. -/
theorem built_memory (rootPath url beyond : List Char) (rootFree : nul ∉ rootPath) :
    ∃ rest, (strcat (strcpy (emptyBuffer beyond) rootPath) url).memory =
        rootPath ++ url ++ nul :: rest ∧
      (strcat (strcpy (emptyBuffer beyond) rootPath) url).writes =
        (List.range (rootPath.length + 1)).map (0 + ·) ++
          (List.range (url.length + 1)).map (rootPath.length + ·) := by
  have copied : (strcpy (emptyBuffer beyond) rootPath).memory =
      rootPath ++ nul :: (emptyBuffer beyond).memory.drop (rootPath.length + 1) := by
    simp [strcpy, Buffer.place]
  have ends : strlen (strcpy (emptyBuffer beyond) rootPath).memory = rootPath.length := by
    rw [copied]
    exact strlen_text rootPath _ rootFree
  refine ⟨(strcpy (emptyBuffer beyond) rootPath).memory.drop
    (rootPath.length + (url.length + 1)), ?_, ?_⟩
  · rw [strcat, Buffer.place, ends, copied, List.take_left']
    · simp
    · rfl
  · rw [strcat, Buffer.place, ends]
    simp [strcpy, Buffer.place, emptyBuffer]

/-- A url that is refused for its dots is never put together with the root. -/
theorem dotted_fits (rootPath url : List Char) (dotted : strstr url ['.', '/'] = true) :
    Fits rootPath url := by
  have none (beyond : List Char) : buildFilePath rootPath url beyond = none := by
    rw [buildFilePath, dotted]
    rfl
  constructor
  · intro beyond buffer built
    rw [none] at built
    cases built
  · intro beyond buffer built
    rw [none] at built
    cases built
  · intro beyond buffer built
    rw [none] at built
    cases built
  · exact fun _ => none

/-- A root and a url that are short enough together fit. -/
theorem short_fits (rootPath url : List Char) (rootFree : nul ∉ rootPath) (urlFree : nul ∉ url)
    (plain : strstr url ['.', '/'] = false)
    (short : rootPath.length + url.length + 1 ≤ filePathSize) : Fits rootPath url := by
  have made (beyond : List Char) (buffer : Buffer)
      (built : buildFilePath rootPath url beyond = some buffer) :
      buffer = strcat (strcpy (emptyBuffer beyond) rootPath) url := by
    rw [buildFilePath, plain] at built
    exact (Option.some.inj built).symm
  constructor
  · exact fun _ _ _ => short
  · intro beyond buffer built address written
    rw [made beyond buffer built] at written
    obtain ⟨rest, _, writes⟩ := built_memory rootPath url beyond rootFree
    rw [writes] at written
    simp only [List.mem_append, List.mem_map, List.mem_range] at written
    rcases written with ⟨i, below, rfl⟩ | ⟨i, below, rfl⟩
    · omega
    · omega
  · intro beyond buffer built
    rw [made beyond buffer built]
    obtain ⟨rest, memory, _⟩ := built_memory rootPath url beyond rootFree
    have free : nul ∉ rootPath ++ url := by
      simp [rootFree, urlFree]
    rw [Buffer.text, memory]
    exact text_placed (rootPath ++ url) rest [] free
  · intro long
    exact absurd short (Nat.not_le.mpr long)

/-- The name of a file fits into its buffer exactly if the root and the url are short enough
together, or if the url is refused for its dots. -/
theorem fits_iff (rootPath url : List Char) (rootFree : nul ∉ rootPath) (urlFree : nul ∉ url) :
    Fits rootPath url ↔
      rootPath.length + url.length + 1 ≤ filePathSize ∨ strstr url ['.', '/'] = true := by
  constructor
  · intro fits
    cases dotted : strstr url ['.', '/'] with
    | true => exact Or.inr rfl
    | false => exact Or.inl (fits.short [] _ (by rw [buildFilePath, dotted]; rfl))
  · intro condition
    cases dotted : strstr url ['.', '/'] with
    | true => exact dotted_fits rootPath url dotted
    | false =>
      have short : rootPath.length + url.length + 1 ≤ filePathSize :=
        condition.resolve_right (by simp [dotted])
      exact short_fits rootPath url rootFree urlFree dotted short

/-- What connects the buffer to the callback: a name that fits is opened as the name that
`ahcEcho` opens. -/
theorem fitting_name_is_opened (rootPath url beyond : List Char) (fs : FileSystem)
    (answers : Answers) (fits : Fits rootPath url) :
    (buildFilePath rootPath url beyond).bind (fun buffer => openFile fs answers buffer.text) =
      if strstr url ['.', '/'] then none else openFile fs answers (rootPath ++ url) := by
  cases built : buildFilePath rootPath url beyond with
  | none =>
    rw [buildFilePath] at built
    split at built
    · next dotted => rw [if_pos dotted, Option.bind_none]
    · cases built
  | some buffer =>
    rw [Option.bind_some, fits.complete beyond buffer built]
    rw [buildFilePath] at built
    split at built
    · cases built
    · next plain => rw [if_neg plain]

/-- The default root and a short url. -/
theorem short_url_fits : Fits (serverHttpInit none).rootPath ['/', 'a'] :=
  (fits_iff (serverHttpInit none).rootPath ['/', 'a'] (by decide) (by decide)).mpr
    (Or.inl (by decide))

/-- The default root and a url of 124 characters: the nul of the name is written behind the
buffer. -/
theorem long_url_does_not_fit :
    ¬ Fits (serverHttpInit none).rootPath (List.replicate 124 'a') := by
  intro fits
  have plain : strstr (List.replicate 124 'a') ['.', '/'] = false := by
    simp only [strstr, decide_eq_false_iff_not]
    intro dotted
    have dot : '.' ∈ List.replicate 124 'a' := dotted.subset (by simp)
    exact absurd (List.eq_of_mem_replicate dot) (by decide)
  have short := fits.short [] _ (by rw [buildFilePath, plain]; rfl)
  simp [serverHttpInit, filePathSize] at short

end Castserver.FileNames
