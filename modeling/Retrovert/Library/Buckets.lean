import Mathlib.Data.List.Basic
import Mathlib.Tactic.Ring

/-!
# Cutting a list into buckets

A list of `size` items is cut into `count` buckets at the rounded multiples of `size / count`.
With at most as many buckets as items no bucket is empty, and the buckets in order are the list:
every index is in exactly one of them.
-/

set_option autoImplicit false

namespace Retrovert.Buckets

/-- Where bucket `index` begins. -/
def cut (count size index : Nat) : Nat := index * size / count

section Cuts

variable {count size : Nat}

theorem cut_zero : cut count size 0 = 0 := by
  rw [cut, Nat.zero_mul, Nat.zero_div]

theorem cut_count (positive : 0 < count) : cut count size count = size :=
  Nat.mul_div_cancel_left size positive

/-- No bucket is empty. -/
theorem cut_lt_succ (positive : 0 < count) (enough : count ≤ size) (index : Nat) :
    cut count size index < cut count size (index + 1) := by
  have added : index * size + count ≤ (index + 1) * size := by
    rw [Nat.add_mul, Nat.one_mul]
    omega
  have further := Nat.div_le_div_right (c := count) added
  rw [Nat.add_div_right _ positive] at further
  exact further

theorem cut_mono (count size : Nat) : Monotone (cut count size) := fun _ _ le =>
  Nat.div_le_div_right (Nat.mul_le_mul_right size le)

end Cuts

/-- The indices of consecutive stretches, in order, are those of the whole stretch. -/
theorem flatMap_range' {bounds : Nat → Nat} (mono : Monotone bounds) (count : Nat) :
    (List.range count).flatMap (fun index =>
      List.range' (bounds index) (bounds (index + 1) - bounds index)) =
      List.range' (bounds 0) (bounds count - bounds 0) := by
  induction count with
  | zero => rw [Nat.sub_self]; rfl
  | succ count ih =>
      have first := mono (Nat.zero_le count)
      have next : bounds count ≤ bounds (count + 1) := mono (Nat.le_succ count)
      have start : bounds 0 + 1 * (bounds count - bounds 0) = bounds count := by omega
      have append := @List.range'_append (bounds 0) (bounds count - bounds 0)
        (bounds (count + 1) - bounds count) 1
      rw [start] at append
      rw [List.range_succ, List.flatMap_append, ih, List.flatMap_singleton, append]
      congr 1
      omega

/-- The items of consecutive stretches, in order, are those of the whole stretch. -/
theorem flatMap_slices {α : Type*} (list : List α) {bounds : Nat → Nat} (mono : Monotone bounds)
    (count : Nat) :
    (List.range count).flatMap (fun index =>
      (list.take (bounds (index + 1))).drop (bounds index)) =
      (list.take (bounds count)).drop (bounds 0) := by
  induction count with
  | zero =>
      refine (List.drop_eq_nil_of_le ?_).symm
      exact List.length_take_le ..
  | succ count ih =>
      have first := mono (Nat.zero_le count)
      have next : bounds count ≤ bounds (count + 1) := mono (Nat.le_succ count)
      rw [List.range_succ, List.flatMap_append, ih, List.flatMap_singleton]
      generalize whole : list.take (bounds (count + 1)) = part
      have shorter : list.take (bounds count) = part.take (bounds count) := by
        rw [← whole, List.take_take, Nat.min_eq_left next]
      have rest : part.drop (bounds count) =
          (part.drop (bounds 0)).drop (bounds count - bounds 0) := by
        rw [List.drop_drop, Nat.add_sub_cancel' first]
      rw [shorter, List.drop_take, rest, List.take_append_drop]

end Retrovert.Buckets
