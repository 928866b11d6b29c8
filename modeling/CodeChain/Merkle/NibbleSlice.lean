import Mathlib

/-!
# Nibble slices and their hex-prefix encoding

`NibbleSlice` reads a byte string as nibbles, the high half of each byte first,
from a nibble offset on.  `encoded` writes the nibbles in the trie's hex-prefix
notation: a first byte `0x1n` that carries the first nibble `n` when the length
is odd and `0x00` when it is even, then the rest two to a byte.  This variant
has no leaf flag.  `from_encoded` reads an encoding back from nibble 1 or 2, as
bit 4 of its first byte says, and `from_vec` encodes a vector of nibbles the
same way as `encoded`, with the offset to read it back from.

Both encoders are `hexPrefix` applied to their own nibbles; what is proved once
about it (every nibble reads back at its position) gives the round trips of
both, and from them that an encoding determines the nibbles it was made from.
`starts_with` and `mid`, which the trie walks with, are the prefix and the drop
of the nibble lists.

`len` subtracts in `usize`; every slice here starts within its data, where the
subtraction does not wrap.  An index past the data panics in the code; `[i]!`
stands for it.
-/

namespace CodeChain

namespace Merkle

/-- `NibbleSlice`: bytes read as nibbles from a nibble offset on. -/
structure NibbleSlice where
  data : List UInt8
  offset : ℕ
  deriving DecidableEq, Repr

namespace NibbleSlice

/-- `NibbleSlice::new_offset`. -/
def newOffset (data : List UInt8) (offset : ℕ) : NibbleSlice :=
  ⟨data, offset⟩

/-- `NibbleSlice::len`, in nibbles. -/
def len (slice : NibbleSlice) : ℕ :=
  slice.data.length * 2 - slice.offset

/-- `NibbleSlice::at`: the nibble at position `i` of the slice, the low half of
its byte at an odd position of the data and the high half at an even one. -/
def nibbleAt (slice : NibbleSlice) (i : ℕ) : UInt8 :=
  let word := slice.data[(slice.offset + i) >>> 1]!
  if (slice.offset + i) &&& 1 = 1 then word &&& 0b1111 else word >>> 4

/-- `NibbleSlice::mid`: the slice `i` nibbles further on. -/
def mid (slice : NibbleSlice) (i : ℕ) : NibbleSlice :=
  ⟨slice.data, slice.offset + i⟩

/-- `NibbleSlice::to_vec`: the nibbles, in order. -/
def toVec (slice : NibbleSlice) : List UInt8 :=
  (List.range slice.len).map slice.nibbleAt

/-- `NibbleSlice::common_prefix`: how many nibbles the loop finds equal from the
start, up to the shorter length. -/
def commonPrefix (slice them : NibbleSlice) : ℕ :=
  ((List.range (min slice.len them.len)).takeWhile fun i => slice.nibbleAt i = them.nibbleAt i).length

/-- `NibbleSlice::starts_with`. -/
def startsWith (slice them : NibbleSlice) : Bool :=
  slice.commonPrefix them = them.len

/-- The hex-prefix bytes of `l` nibbles, the nibble at `i` being `nibble i`:
the first byte, then the loop `while i < l` from `i = l % 2` two nibbles at a
time, as `encoded` and `from_vec` both write it. -/
def hexPrefix (l : ℕ) (nibble : ℕ → UInt8) : List UInt8 :=
  (if l % 2 = 1 then 0b1_0000 + nibble 0 else 0) ::
    (List.range (l / 2)).map fun k => (nibble (l % 2 + 2 * k) <<< 4) + nibble (l % 2 + 2 * k + 1)

/-- `NibbleSlice::encoded`. -/
def encoded (slice : NibbleSlice) : List UInt8 :=
  hexPrefix slice.len slice.nibbleAt

/-- `NibbleSlice::from_encoded`: bit 4 of the first byte says whether the first
nibble is in it. -/
def fromEncoded (data : List UInt8) : NibbleSlice :=
  let offset := if data[0]! &&& 0b1_0000 = 0b1_0000 then 1 else 2
  newOffset data offset

/-- `NibbleSlice::from_vec`: the encoding of the low halves of `v`, and the
offset its nibbles start at. -/
def fromVec (v : List UInt8) : List UInt8 × ℕ :=
  (hexPrefix v.length fun i => v[i]! &&& 0b1111, 2 - v.length % 2)

/-! ### Nibbles in a byte -/

theorem toNat_and_fifteen (byte : UInt8) : (byte &&& 0b1111).toNat = byte.toNat % 16 := by
  rw [UInt8.toNat_and]
  exact Nat.and_two_pow_sub_one_eq_mod _ 4

theorem and_fifteen_of_lt {nibble : UInt8} (small : nibble < 16) : nibble &&& 0b1111 = nibble := by
  have below : nibble.toNat < 16 := UInt8.lt_iff_toNat_lt.mp small
  rw [← UInt8.toNat_inj, toNat_and_fifteen]
  omega

theorem and_fifteen_lt (byte : UInt8) : byte &&& 0b1111 < 16 := by
  rw [UInt8.lt_iff_toNat_lt, toNat_and_fifteen]
  exact Nat.mod_lt _ (by decide)

theorem shiftRight_four_lt (byte : UInt8) : byte >>> 4 < 16 := by
  rw [UInt8.lt_iff_toNat_lt, UInt8.toNat_shiftRight, Nat.shiftRight_eq_div_pow]
  have := byte.toNat_lt
  simp only [UInt8.reduceToNat, Nat.reduceMod]
  omega

/-- A byte made of two nibbles, as a number. -/
theorem toNat_pair {high low : UInt8} (smallHigh : high < 16) (smallLow : low < 16) :
    ((high <<< 4) + low).toNat = high.toNat * 16 + low.toNat := by
  have belowHigh : high.toNat < 16 := UInt8.lt_iff_toNat_lt.mp smallHigh
  have belowLow : low.toNat < 16 := UInt8.lt_iff_toNat_lt.mp smallLow
  rw [UInt8.toNat_add, UInt8.toNat_shiftLeft, Nat.shiftLeft_eq]
  simp only [UInt8.reduceToNat, Nat.reduceMod]
  omega

/-- The high nibble of a byte made of two nibbles. -/
theorem pair_shiftRight_four {high low : UInt8} (smallHigh : high < 16) (smallLow : low < 16) :
    ((high <<< 4) + low) >>> 4 = high := by
  have belowLow : low.toNat < 16 := UInt8.lt_iff_toNat_lt.mp smallLow
  rw [← UInt8.toNat_inj, UInt8.toNat_shiftRight, toNat_pair smallHigh smallLow, Nat.shiftRight_eq_div_pow]
  simp only [UInt8.reduceToNat, Nat.reduceMod]
  omega

/-- The low nibble of a byte made of two nibbles. -/
theorem pair_and_fifteen {high low : UInt8} (smallHigh : high < 16) (smallLow : low < 16) :
    ((high <<< 4) + low) &&& 0b1111 = low := by
  have belowLow : low.toNat < 16 := UInt8.lt_iff_toNat_lt.mp smallLow
  rw [← UInt8.toNat_inj, toNat_and_fifteen, toNat_pair smallHigh smallLow]
  omega

/-- The first byte of an odd encoding, as a number: the flag above the first
nibble. -/
theorem toNat_flag {nibble : UInt8} (small : nibble < 16) : (0b1_0000 + nibble).toNat = 16 + nibble.toNat := by
  have below : nibble.toNat < 16 := UInt8.lt_iff_toNat_lt.mp small
  rw [UInt8.toNat_add]
  simp only [UInt8.reduceToNat]
  omega

theorem flag_and_fifteen {nibble : UInt8} (small : nibble < 16) : (0b1_0000 + nibble) &&& 0b1111 = nibble := by
  have below : nibble.toNat < 16 := UInt8.lt_iff_toNat_lt.mp small
  rw [← UInt8.toNat_inj, toNat_and_fifteen, toNat_flag small]
  omega

theorem flag_and_flag {nibble : UInt8} (small : nibble < 16) : (0b1_0000 + nibble) &&& 0b1_0000 = 0b1_0000 := by
  have below : nibble.toNat < 2 ^ 4 := UInt8.lt_iff_toNat_lt.mp small
  rw [← UInt8.toNat_inj, UInt8.toNat_and, toNat_flag small]
  -- bit 4 of `16 + nibble` is the flag, as the nibble stays below it
  have flag : (2 ^ 4 + nibble.toNat).testBit 4 = true := by
    rw [Nat.testBit_two_pow_add_eq, Nat.testBit_lt_two_pow below, Bool.not_false]
  simp only [UInt8.reduceToNat]
  rw [show (16 : ℕ) = 2 ^ 4 from rfl, Nat.and_two_pow, flag, Bool.toNat_true, Nat.one_mul]

theorem nibbleAt_lt (slice : NibbleSlice) (i : ℕ) : slice.nibbleAt i < 16 := by
  unfold nibbleAt
  split
  · exact and_fifteen_lt _
  · exact shiftRight_four_lt _

/-! ### Reading a hex-prefix encoding -/

section HexPrefix

variable {l : ℕ} {nibble : ℕ → UInt8}

theorem length_hexPrefix : (hexPrefix l nibble).length = l / 2 + 1 := by
  simp [hexPrefix]

theorem getElem!_hexPrefix_zero : (hexPrefix l nibble)[0]! = if l % 2 = 1 then 0b1_0000 + nibble 0 else 0 := by
  simp [hexPrefix]

theorem getElem!_hexPrefix_succ {k : ℕ} (within : k < l / 2) :
    (hexPrefix l nibble)[k + 1]! = (nibble (l % 2 + 2 * k) <<< 4) + nibble (l % 2 + 2 * k + 1) := by
  simp [hexPrefix, within]

/-- The slice an encoding is read from: past the first byte when the length is
even, past its flag when it is odd. -/
def reading (l : ℕ) (nibble : ℕ → UInt8) : NibbleSlice :=
  newOffset (hexPrefix l nibble) (2 - l % 2)

theorem len_reading : (reading l nibble).len = l := by
  simp only [reading, len, newOffset, length_hexPrefix]
  omega

/-- Every nibble of an encoding reads back at its position. -/
theorem nibbleAt_reading (small : ∀ i < l, nibble i < 16) {j : ℕ} (within : j < l) :
    (reading l nibble).nibbleAt j = nibble j := by
  unfold nibbleAt
  simp only [reading, newOffset, Nat.shiftRight_eq_div_pow, Nat.and_one_is_mod, pow_one]
  by_cases flagged : l % 2 = 1 ∧ j = 0
  · -- the first nibble of an odd length sits below the flag of the first byte
    obtain ⟨odd, rfl⟩ := flagged
    have first : (2 - l % 2 + 0) / 2 = 0 := by omega
    rw [first, getElem!_hexPrefix_zero, if_pos odd, if_pos (by omega)]
    exact flag_and_fifteen (small 0 within)
  · -- every other nibble is one half of the pair at byte `k + 1`
    have pair : (2 - l % 2 + j) / 2 = (2 - l % 2 + j) / 2 - 1 + 1 := by omega
    have inRange : (2 - l % 2 + j) / 2 - 1 < l / 2 := by omega
    rw [pair, getElem!_hexPrefix_succ inRange]
    set k := (2 - l % 2 + j) / 2 - 1
    by_cases low : (2 - l % 2 + j) % 2 = 1
    · have second : l % 2 + 2 * k + 1 = j := by omega
      rw [if_pos low, second]
      exact pair_and_fifteen (small _ (by omega)) (small j within)
    · have first : l % 2 + 2 * k = j := by omega
      rw [if_neg low, first]
      exact pair_shiftRight_four (small j within) (small _ (by omega))

theorem toVec_reading (small : ∀ i < l, nibble i < 16) :
    (reading l nibble).toVec = (List.range l).map nibble := by
  rw [toVec, len_reading]
  refine List.map_congr_left fun j member => ?_
  exact nibbleAt_reading small (List.mem_range.mp member)

/-- `from_encoded` finds the offset the encoder wrote. -/
theorem fromEncoded_hexPrefix (small : ∀ i < l, nibble i < 16) :
    fromEncoded (hexPrefix l nibble) = reading l nibble := by
  rw [fromEncoded, reading, getElem!_hexPrefix_zero]
  congr 1
  by_cases odd : l % 2 = 1
  · rw [if_pos odd, if_pos (flag_and_flag (small 0 (by omega)))]
    omega
  · rw [if_neg odd, if_neg (by decide)]
    omega

end HexPrefix

/-! ### Round trips -/

theorem length_toVec (slice : NibbleSlice) : slice.toVec.length = slice.len := by
  simp [toVec]

theorem getElem_toVec (slice : NibbleSlice) {i : ℕ} (within : i < slice.toVec.length) :
    slice.toVec[i] = slice.nibbleAt i := by
  simp [toVec]

/-- Decoding an encoding gives the nibbles back. -/
theorem toVec_fromEncoded_encoded (slice : NibbleSlice) :
    (fromEncoded slice.encoded).toVec = slice.toVec := by
  have small : ∀ i < slice.len, slice.nibbleAt i < 16 := fun i _ => nibbleAt_lt slice i
  rw [encoded, fromEncoded_hexPrefix small, toVec_reading small, toVec]

/-- What `from_vec` writes reads back as the vector, when each entry is a nibble. -/
theorem toVec_fromVec {v : List UInt8} (nibbles : ∀ nibble ∈ v, nibble < 16) :
    (newOffset (fromVec v).1 (fromVec v).2).toVec = v := by
  have masked : ∀ i < v.length, v[i]! &&& 0b1111 = v[i]! := fun i within => by
    rw [getElem!_pos v i within]
    exact and_fifteen_of_lt (nibbles _ (List.getElem_mem within))
  have small : ∀ i < v.length, v[i]! &&& 0b1111 < 16 := fun i _ => and_fifteen_lt _
  change (reading v.length fun i => v[i]! &&& 0b1111).toVec = v
  rw [toVec_reading small]
  refine List.ext_getElem (by simp) fun i within _ => ?_
  rw [List.getElem_map, List.getElem_range]
  rw [List.length_map, List.length_range] at within
  rw [masked i within, getElem!_pos v i within]

/-- Two slices with one encoding have the same nibbles. -/
theorem toVec_eq_of_encoded_eq {first second : NibbleSlice} (same : first.encoded = second.encoded) :
    first.toVec = second.toVec := by
  rw [← toVec_fromEncoded_encoded first, same, toVec_fromEncoded_encoded]

theorem encoded_roundTrip :
    (∀ (data : List UInt8) (offset : ℕ), offset ≤ 2 * data.length →
      (fromEncoded (newOffset data offset).encoded).toVec = (newOffset data offset).toVec) ∧
    (∀ v : List UInt8, (∀ nibble ∈ v, nibble < 16) → (newOffset (fromVec v).1 (fromVec v).2).toVec = v) ∧
    (∀ first second : NibbleSlice, first.offset ≤ 2 * first.data.length →
      second.offset ≤ 2 * second.data.length → first.encoded = second.encoded → first.toVec = second.toVec) :=
  ⟨fun data offset _ => toVec_fromEncoded_encoded (newOffset data offset),
    fun _ nibbles => toVec_fromVec nibbles,
    fun _ _ _ _ same => toVec_eq_of_encoded_eq same⟩

theorem encoded_roundTrip_at_odd_offset :
    (fromEncoded (newOffset [0xab, 0xcd] 1).encoded).toVec = (newOffset [0xab, 0xcd] 1).toVec ∧
      (newOffset (fromVec [1, 2, 3]).1 (fromVec [1, 2, 3]).2).toVec = [1, 2, 3] ∧
      ((newOffset [0xab] 1).encoded = (newOffset [0x0b] 1).encoded →
        (newOffset [0xab] 1).toVec = (newOffset [0x0b] 1).toVec) :=
  ⟨encoded_roundTrip.1 [0xab, 0xcd] 1 (by decide), encoded_roundTrip.2.1 [1, 2, 3] (by simp),
    encoded_roundTrip.2.2 (newOffset [0xab] 1) (newOffset [0x0b] 1) (by decide) (by decide)⟩

/-! ### Walking with slices -/

theorem toVec_mid (slice : NibbleSlice) (i : ℕ) : (slice.mid i).toVec = slice.toVec.drop i := by
  refine List.ext_getElem (by simp [length_toVec, len, mid]; omega) fun j within _ => ?_
  rw [getElem_toVec, List.getElem_drop, getElem_toVec]
  simp only [nibbleAt, mid, Nat.add_assoc]

/-- The loop of `common_prefix` runs to the end exactly where every position
passes. -/
theorem length_takeWhile_eq_iff {α : Type} {p : α → Bool} {l : List α} :
    (l.takeWhile p).length = l.length ↔ ∀ x ∈ l, p x = true :=
  ⟨fun whole => List.takeWhile_eq_self_iff.mp ((List.takeWhile_prefix p).eq_of_length whole),
    fun all => by rw [List.takeWhile_eq_self_iff.mpr all]⟩

theorem startsWith_iff_forall (slice them : NibbleSlice) :
    slice.startsWith them = true ↔
      them.len ≤ slice.len ∧ ∀ i < them.len, slice.nibbleAt i = them.nibbleAt i := by
  rw [startsWith, decide_eq_true_iff, commonPrefix]
  have bounded : ((List.range (min slice.len them.len)).takeWhile
      fun i => decide (slice.nibbleAt i = them.nibbleAt i)).length ≤ min slice.len them.len := by
    have shorter := (@List.takeWhile_prefix _ (List.range (min slice.len them.len))
      fun i => decide (slice.nibbleAt i = them.nibbleAt i)).length_le
    rwa [List.length_range] at shorter
  constructor
  · intro counted
    have fits : them.len ≤ slice.len := by omega
    have whole := length_takeWhile_eq_iff.mp
      (show ((List.range (min slice.len them.len)).takeWhile
        fun i => decide (slice.nibbleAt i = them.nibbleAt i)).length = (List.range (min slice.len them.len)).length by
          rw [List.length_range]; omega)
    refine ⟨fits, fun i below => ?_⟩
    simpa using whole i (List.mem_range.mpr (by omega))
  · rintro ⟨fits, equal⟩
    have all : ∀ i ∈ List.range (min slice.len them.len), decide (slice.nibbleAt i = them.nibbleAt i) = true :=
      fun i member => by simpa using equal i (by rw [List.mem_range] at member; omega)
    rw [List.takeWhile_eq_self_iff.mpr all, List.length_range]
    omega

/-- `starts_with` tests whether the nibbles of `them` begin those of the slice. -/
theorem startsWith_iff (slice them : NibbleSlice) :
    slice.startsWith them = true ↔ them.toVec <+: slice.toVec := by
  rw [startsWith_iff_forall, List.prefix_iff_eq_take, length_toVec]
  constructor
  · rintro ⟨fits, equal⟩
    refine List.ext_getElem (by simp [length_toVec]; omega) fun i within _ => ?_
    rw [length_toVec] at within
    rw [getElem_toVec, List.getElem_take, getElem_toVec, equal i within]
  · intro same
    have lengths : them.len = min them.len slice.len := by
      simpa [length_toVec] using congrArg List.length same
    refine ⟨by omega, fun i below => ?_⟩
    have atI := congrArg (fun nibbles => nibbles[i]?) same
    simp only [toVec, List.getElem?_take, List.getElem?_map, List.getElem?_range below] at atI
    rw [if_pos below, List.getElem?_range (by omega)] at atI
    simpa using atI.symm

end NibbleSlice

end Merkle

end CodeChain
