import Mathlib

/-!
# Wrapping sums and products of 64-bit words

A release build of Rust does not check integer overflow: `u64` addition and
multiplication, and so `Iterator::sum` over `u64` values, wrap modulo `2^64`.
These lemmas relate such a sum or product to the exact one of the values as
natural numbers.
-/

namespace CodeChain

namespace Wrapping

/-- A `u64` sum is the sum of the values modulo `2^64`. -/
theorem toNat_sum (values : List UInt64) :
    values.sum.toNat = (values.map UInt64.toNat).sum % 2 ^ 64 := by
  induction values with
  | nil => rfl
  | cons value values ih =>
      rw [List.sum_cons, UInt64.toNat_add, ih, List.map_cons, List.sum_cons, Nat.add_mod_mod]

/-- A `u64` sum that does not reach `2^64` is the exact sum. -/
theorem toNat_sum_of_lt {values : List UInt64} (fits : (values.map UInt64.toNat).sum < 2 ^ 64) :
    values.sum.toNat = (values.map UInt64.toNat).sum := by
  rw [toNat_sum, Nat.mod_eq_of_lt fits]

/-- A `u64` product that does not reach `2^64` is the exact product. -/
theorem toNat_mul_of_lt {x y : UInt64} (fits : x.toNat * y.toNat < 2 ^ 64) :
    (x * y).toNat = x.toNat * y.toNat := by
  rw [UInt64.toNat_mul, Nat.mod_eq_of_lt fits]

end Wrapping

end CodeChain
