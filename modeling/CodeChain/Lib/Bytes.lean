import Mathlib

/-!
# Big-endian numbers

Byte strings read as numbers, most significant byte first, as
`u64::from_be_bytes` and the RLP scalar decoders read them.
-/

namespace CodeChain

namespace Bytes

/-- The number that bytes spell, most significant first. -/
def bigEndian (bytes : List UInt8) : ℕ :=
  bytes.foldl (fun value byte => value * 256 + byte.toNat) 0

theorem bigEndian_append_singleton (bytes : List UInt8) (byte : UInt8) :
    bigEndian (bytes ++ [byte]) = bigEndian bytes * 256 + byte.toNat := by
  simp [bigEndian, List.foldl_append]

theorem bigEndian_cons (byte : UInt8) (bytes : List UInt8) :
    bigEndian (byte :: bytes) = byte.toNat * 256 ^ bytes.length + bigEndian bytes := by
  induction bytes using List.reverseRecOn with
  | nil => simp [bigEndian]
  | append_singleton bytes last ih =>
    rw [← List.cons_append, bigEndian_append_singleton, ih, bigEndian_append_singleton,
      List.length_append, List.length_singleton, pow_succ]
    ring

/-- Leading zero bytes do not change the number. -/
theorem bigEndian_dropWhile_zero (bytes : List UInt8) :
    bigEndian (bytes.dropWhile (· == 0)) = bigEndian bytes := by
  induction bytes with
  | nil => rfl
  | cons byte bytes ih =>
    by_cases zero : byte = 0
    · rw [List.dropWhile_cons_of_pos (by simp [zero]), ih, bigEndian_cons, zero]
      simp
    · rw [List.dropWhile_cons_of_neg (by simp [zero])]

/-- The `width` low bytes of a number, most significant first, as
`to_be_bytes` writes them. -/
def toBigEndian (width value : ℕ) : List UInt8 :=
  (List.range width).reverse.map fun index => UInt8.ofNat (value / 256 ^ index)

@[simp]
theorem length_toBigEndian (width value : ℕ) : (toBigEndian width value).length = width := by
  simp [toBigEndian]

theorem toBigEndian_succ (width value : ℕ) :
    toBigEndian (width + 1) value = UInt8.ofNat (value / 256 ^ width) :: toBigEndian width value := by
  simp [toBigEndian, List.range_succ]

/-- Reading back the bytes of a number gives its low `width` bytes. -/
theorem bigEndian_toBigEndian (width value : ℕ) :
    bigEndian (toBigEndian width value) = value % 256 ^ width := by
  induction width with
  | zero => simp [toBigEndian, bigEndian, Nat.mod_one]
  | succ width ih =>
    rw [toBigEndian_succ, bigEndian_cons, ih, length_toBigEndian, Nat.mod_pow_succ,
      UInt8.toNat_ofNat']
    ring

/-- A number of `n` bytes is below `256 ^ n`. -/
theorem bigEndian_lt (bytes : List UInt8) : bigEndian bytes < 256 ^ bytes.length := by
  induction bytes using List.reverseRecOn with
  | nil => simp [bigEndian]
  | append_singleton bytes byte ih =>
    rw [bigEndian_append_singleton, List.length_append, List.length_singleton, pow_succ]
    have byteBound := byte.toNat_lt
    calc bigEndian bytes * 256 + byte.toNat < bigEndian bytes * 256 + 256 := by omega
      _ = (bigEndian bytes + 1) * 256 := by ring
      _ ≤ 256 ^ bytes.length * 256 := Nat.mul_le_mul_right 256 ih

/-- At most eight bytes fit a `u64`. -/
theorem bigEndian_lt_of_length_le {bytes : List UInt8} (short : bytes.length ≤ 8) :
    bigEndian bytes < 2 ^ 64 :=
  calc bigEndian bytes < 256 ^ bytes.length := bigEndian_lt bytes
    _ ≤ 256 ^ 8 := Nat.pow_le_pow_right (by norm_num) short
    _ = 2 ^ 64 := by norm_num

end Bytes

end CodeChain
