import Mathlib.Data.List.OfFn
import Mathlib.Tactic.Ring

/-!
# Little-endian fields

A number written as a field of a fixed number of bytes, least significant byte
first, and read back. Reading inverts writing up to the width of the field
(`value_field`), and writing inverts reading exactly (`field_value`).
-/

set_option autoImplicit false

namespace Retrovert.LittleEndian

/-- The field of `width` bytes holding `number`, which is cut to that width. -/
def field : (width : Nat) → (number : Nat) → List UInt8
  | 0, _ => []
  | width + 1, number => UInt8.ofNat number :: field width (number / 256)

/-- The number a field holds. -/
def value : List UInt8 → Nat
  | [] => 0
  | byte :: rest => byte.toNat + 256 * value rest

@[simp] theorem length_field (width number : Nat) : (field width number).length = width := by
  induction width generalizing number with
  | zero => rfl
  | succ width ih => simp [field, ih]

/-- Reading a field gives back what was written, cut to the field's width. -/
theorem value_field (width number : Nat) : value (field width number) = number % 256 ^ width := by
  induction width generalizing number with
  | zero => simp [field, value, Nat.mod_one]
  | succ width ih =>
      have split : number % 256 ^ (width + 1) =
          number % 256 + 256 * (number / 256 % 256 ^ width) := by
        rw [Nat.pow_succ', Nat.mod_mul]
      simp [field, value, ih, split]

/-- A number that fits its field is read back exactly. -/
theorem value_field_of_lt {width number : Nat} (fits : number < 256 ^ width) :
    value (field width number) = number := by
  rw [value_field, Nat.mod_eq_of_lt fits]

/-- Writing the number a field holds gives back the field. -/
theorem field_value (bytes : List UInt8) : field bytes.length (value bytes) = bytes := by
  induction bytes with
  | nil => rfl
  | cons byte rest ih =>
      have low : UInt8.ofNat (byte.toNat + 256 * value rest) = byte := by
        apply UInt8.toNat_inj.mp
        have := byte.toNat_lt
        simp only [UInt8.toNat_ofNat', Nat.add_mul_mod_self_left]
        omega
      have high : (byte.toNat + 256 * value rest) / 256 = value rest := by
        have := byte.toNat_lt
        omega
      rw [List.length_cons, value, field, low, high, ih]

end Retrovert.LittleEndian
