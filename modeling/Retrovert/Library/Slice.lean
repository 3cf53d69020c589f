import Mathlib.Data.List.Basic
import Mathlib.Tactic.Ring

/-!
# Slices and blocks of a list

A slice of a list is taken between two bounds, and is missing if they are out of order or past
the end. A list in rows of one length is read a block at a time.
-/

set_option autoImplicit false

namespace Retrovert.Slice

variable {α : Type*}

/-- The items from `lo` up to `hi`; `none` if the bounds are not those of a slice. -/
def slice? (list : List α) (lo hi : Nat) : Option (List α) :=
  if lo ≤ hi ∧ hi ≤ list.length then some ((list.take hi).drop lo) else none

/-- Block `index` of a list in blocks of `stride` items. -/
def block (stride index : Nat) (list : List α) : List α :=
  (list.drop (index * stride)).take stride

theorem slice?_zero {list : List α} {hi : Nat} (within : hi ≤ list.length) :
    slice? list 0 hi = some (list.take hi) := by
  rw [slice?, if_pos ⟨Nat.zero_le _, within⟩, List.drop_zero]

/-- A whole block is a slice. -/
theorem slice?_block {list : List α} {stride rows index : Nat} (fits : rows * stride ≤ list.length)
    (inside : index < rows) :
    slice? list (index * stride) ((index + 1) * stride) = some (block stride index list) := by
  have upper : (index + 1) * stride ≤ rows * stride := Nat.mul_le_mul_right stride inside
  have lower : index * stride ≤ (index + 1) * stride := Nat.mul_le_mul_right stride (Nat.le_succ _)
  have size : (index + 1) * stride - index * stride = stride := by
    rw [Nat.add_mul, Nat.one_mul, Nat.add_sub_cancel_left]
  rw [slice?, if_pos ⟨lower, upper.trans fits⟩, List.drop_take, size, block]

theorem length_block {list : List α} {stride rows index : Nat} (fits : rows * stride ≤ list.length)
    (inside : index < rows) : (block stride index list).length = stride := by
  have upper : (index + 1) * stride ≤ rows * stride := Nat.mul_le_mul_right stride inside
  rw [Nat.add_mul, Nat.one_mul] at upper
  rw [block, List.length_take, List.length_drop]
  omega

/-- A block of the first rows is a block of the whole. -/
theorem block_take {list : List α} {stride rows index : Nat} (inside : index < rows) :
    block stride index (list.take (rows * stride)) = block stride index list := by
  have upper : (index + 1) * stride ≤ rows * stride := Nat.mul_le_mul_right stride inside
  rw [Nat.add_mul, Nat.one_mul] at upper
  rw [block, block, List.drop_take, List.take_take, Nat.min_eq_left (by omega)]

/-- Blocks that are joined are the blocks of what they are joined to. -/
theorem block_flatten {blocks : List (List α)} {stride : Nat}
    (each : ∀ part ∈ blocks, part.length = stride) (rest : List α) :
    ∀ index part, blocks[index]? = some part →
      block stride index (blocks.flatten ++ rest) = part := by
  induction blocks with
  | nil =>
      intro index part found
      cases found
  | cons first blocks ih =>
      rw [List.forall_mem_cons] at each
      intro index part found
      rw [List.flatten_cons, List.append_assoc]
      cases index with
      | zero =>
          cases found
          rw [block, Nat.zero_mul, List.drop_zero, ← each.1, List.take_left]
      | succ index =>
          rw [← ih each.2 index part found, block, block, Nat.add_mul, Nat.one_mul, Nat.add_comm,
            ← List.drop_drop, ← each.1, List.drop_left]

theorem length_flatten {blocks : List (List α)} {stride : Nat}
    (each : ∀ part ∈ blocks, part.length = stride) :
    blocks.flatten.length = blocks.length * stride := by
  induction blocks with
  | nil => simp
  | cons first blocks ih =>
      rw [List.forall_mem_cons] at each
      rw [List.flatten_cons, List.length_append, each.1, ih each.2, List.length_cons]
      ring

/-- A pass that never fails gives one result for each item. -/
theorem mapM_eq_some {β : Type*} {list : List α} {f : α → Option β} {g : α → β}
    (succeeds : ∀ item ∈ list, f item = some (g item)) : list.mapM f = some (list.map g) := by
  induction list with
  | nil => rfl
  | cons item rest ih =>
      rw [List.forall_mem_cons] at succeeds
      rw [List.mapM_cons, succeeds.1, ih succeeds.2]
      rfl

end Retrovert.Slice
