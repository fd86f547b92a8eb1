import Mathlib.Tactic.Common

/-!
# Consecutive slices of fixed width

The slices of a list are its consecutive full blocks of one width, from its start;
a shorter rest at its end belongs to no slice. A list of at least one width is its
first slice followed by the slices of what is left.
-/

namespace Library.Slices

universe u v
variable {Item : Type u}

/-- The full blocks of a width, in order. -/
def slices (width : Nat) (items : List Item) : List (List Item) :=
  (List.range (items.length / width)).map fun block => (items.drop (block * width)).take width

/-- There are as many slices as the width fits into the length. -/
@[simp] theorem slices_length (width : Nat) (items : List Item) :
    (slices width items).length = items.length / width := by
  simp [slices]

/-- Every slice has the width. -/
theorem slices_full (width : Nat) (items block : List Item) (member : block ∈ slices width items) :
    block.length = width := by
  obtain ⟨index, inside, rfl⟩ := List.mem_map.mp member
  have room : (index + 1) * width ≤ items.length :=
    Nat.le_trans (Nat.mul_le_mul_right width (List.mem_range.mp inside))
      (Nat.div_mul_le_self items.length width)
  rw [Nat.add_mul, Nat.one_mul] at room
  rw [List.length_take, List.length_drop]
  omega

/-- A list shorter than the width has no slices. -/
theorem slices_short (width : Nat) (items : List Item) (short : items.length < width) :
    slices width items = [] := by
  rw [slices, Nat.div_eq_of_lt short]
  rfl

/-- The first slice, and the slices of the rest. -/
theorem slices_long (width : Nat) (items : List Item) (positive : 0 < width)
    (long : width ≤ items.length) :
    slices width items = items.take width :: slices width (items.drop width) := by
  have count : items.length / width = (items.length - width) / width + 1 :=
    Nat.div_eq_sub_div positive long
  rw [slices, slices, count, List.range_succ_eq_map, List.map_cons, List.map_map,
    List.length_drop]
  congr 1
  · simp
  · apply List.map_congr_left
    intro block _
    have shifted : (block + 1) * width = width + block * width := by
      rw [Nat.add_mul, Nat.one_mul, Nat.add_comm]
    simp [List.drop_drop, shifted]

/-- A block of one width in front is the first slice. -/
theorem slices_append (width : Nat) (block items : List Item) (positive : 0 < width)
    (full : block.length = width) :
    slices width (block ++ items) = block :: slices width items := by
  rw [slices_long width (block ++ items) positive (by simp [full])]
  subst full
  simp

/-- The values at consecutive positions, block by block. -/
theorem map_range_blocks (value : Nat → Item) (count width : Nat) :
    (List.range (count * width)).map value =
      (List.range count).flatMap fun block =>
        (List.range width).map fun position => value (block * width + position) := by
  induction count with
  | zero => simp
  | succ count inductionHypothesis =>
    rw [Nat.add_mul, Nat.one_mul, List.range_add, List.map_append, inductionHypothesis,
      List.range_succ, List.flatMap_append, List.flatMap_singleton, List.map_map]
    rfl

/-- Lists joined in order, from what is known of the list at each index. -/
theorem flat_map_indexed {Part : Type v} (parts : List Part) (select : Part → List Item)
    (expected : Nat → List Item)
    (known : ∀ index < parts.length, ∃ part, parts[index]? = some part ∧
      select part = expected index) :
    parts.flatMap select = (List.range parts.length).flatMap expected := by
  have same : parts.map select = (List.range parts.length).map expected := by
    apply List.ext_getElem?
    intro index
    by_cases inside : index < parts.length
    · obtain ⟨part, found, selected⟩ := known index inside
      rw [List.getElem?_map, List.getElem?_map, found, List.getElem?_range inside]
      exact congrArg some selected
    · simp [inside]
  rw [List.flatMap_def, List.flatMap_def, same]

end Library.Slices
