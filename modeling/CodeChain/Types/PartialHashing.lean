import CodeChain.Types.Transfer
import CodeChain.Lib.Subsequence

/-!
# What a signature of an asset transfer signs

`hash_partially` (`types/src/transaction/shard.rs`) hashes a `TransferAsset`
as the tag of a signature sees it.  The tag's first flag signs every input and
burn, or else only the input being unlocked; the second signs every output, or
else the outputs whose bit is set in the tag's filter, the bits counted from
the filter's last byte.  The scripts of the inputs are emptied before the
hash, and a transaction with orders may only be signed whole.

So, for transactions that can be signed under a tag, two of them hash the same
preimage exactly when they agree on the network, the orders, the spent assets
and timelocks the tag signs, and the outputs at the positions it signs.

The hash is `blake256_with_key` of the RLP of the signed transaction, keyed by
`blake128` of the tag's bytes; the model stops at that pair, the preimage.
-/

namespace CodeChain

namespace Types

open Fault Subsequence VM

/-- `NetworkId`, two bytes. -/
abbrev NetworkId := UInt8 × UInt8

/-- `ShardTransaction::TransferAsset`. -/
structure TransferAsset where
  networkId : NetworkId
  burns : List AssetTransferInput
  inputs : List AssetTransferInput
  outputs : List AssetTransferOutput
  orders : List OrderOnTransfer
  deriving DecidableEq

/-! ### The filter of outputs -/

/-- The inner loop of `apply_bitmask_to_output`, over the bits of one byte
`filter` at positions `8 * index + i`, `bitsLeft` of them still to go: `.inl`
when it reached the output count, which returns from the function. -/
def pushBits (outputs : List AssetTransferOutput) (index : ℕ) :
    ℕ → UInt8 → List AssetTransferOutput →
      Except (Fault HashingError) (List AssetTransferOutput ⊕ List AssetTransferOutput)
  | 0, _, result => .ok (.inr result)
  | bitsLeft + 1, filter, result =>
    if 8 * index + (7 - bitsLeft) = outputs.length then .ok (.inl result)
    else do
      let result ← if filter &&& 1 = 1 then
          (result ++ [·]) <$> expect outputs[8 * index + (7 - bitsLeft)]? "index out of bounds"
        else pure result
      pushBits outputs index bitsLeft (filter >>> 1) result

/-- `apply_bitmask_to_output`. -/
def applyBitmaskToOutput (bitmask : List UInt8) (outputs result : List AssetTransferOutput) :
    Except (Fault HashingError) (List AssetTransferOutput) :=
  go bitmask.reverse 0 result
where
  /-- The bytes in the order `Vec::pop` gives them, the `index`-th first. -/
  go : List UInt8 → ℕ → List AssetTransferOutput → Except (Fault HashingError) (List AssetTransferOutput)
    | [], _, result => .ok result
    | filter :: rest, index, result => do
      match ← pushBits outputs index 8 filter result with
      | .inl result => pure result
      | .inr result => go rest (index + 1) result

/-- Bit `position` of a filter, counted from the lowest bit of its last byte. -/
def filterBit (filter : List UInt8) (position : ℕ) : Bool :=
  match filter.reverse[position / 8]? with
  | some byte => byte.toNat.testBit (position % 8)
  | none => false

theorem and_one_eq_one_iff (byte : UInt8) : byte &&& 1 = 1 ↔ byte.toNat.testBit 0 = true := by
  have low : (byte &&& 1).toNat = byte.toNat % 2 := by
    rw [UInt8.toNat_and]
    simp [Nat.and_one_is_mod]
  rw [Nat.testBit_zero, ← UInt8.toNat_inj, low]
  simp

theorem testBit_shiftRight_one (byte : UInt8) (j : ℕ) :
    (byte >>> 1).toNat.testBit j = byte.toNat.testBit (j + 1) := by
  rw [UInt8.toNat_shiftRight, Nat.testBit_shiftRight]
  simp [Nat.add_comm]

section Bitmask

variable {outputs : List AssetTransferOutput} {keep : ℕ → Bool}

/-- The inner loop picks, from position `base` on, the outputs whose bit of
`filter` is set, up to the end of the byte or of the outputs; it returns from
the function when the outputs end first. -/
theorem pushBits_eq {index bitsLeft : ℕ} (fits : bitsLeft ≤ 8) {filter : UInt8}
    (bits : ∀ j < bitsLeft, filter.toNat.testBit j = keep (8 * index + (8 - bitsLeft) + j))
    (reached : 8 * index + (8 - bitsLeft) ≤ outputs.length) (result : List AssetTransferOutput) :
    pushBits outputs index bitsLeft filter result =
      if outputs.length < 8 * index + (8 - bitsLeft) + bitsLeft then
        .ok (.inl (result ++ select keep (8 * index + (8 - bitsLeft)) (outputs.drop (8 * index + (8 - bitsLeft)))))
      else
        .ok (.inr (result ++ select keep (8 * index + (8 - bitsLeft))
          ((outputs.drop (8 * index + (8 - bitsLeft))).take bitsLeft))) := by
  induction bitsLeft generalizing filter result with
  | zero =>
    rw [pushBits, if_neg (by omega)]
    simp
  | succ bitsLeft ih =>
    have position : 8 * index + (7 - bitsLeft) = 8 * index + (8 - (bitsLeft + 1)) := by omega
    rw [pushBits, position]
    by_cases ended : 8 * index + (8 - (bitsLeft + 1)) = outputs.length
    · -- the outputs end at this position: nothing more is picked
      rw [if_pos ended, if_pos (by omega), ended, List.drop_length, select_nil, List.append_nil]
    · rw [if_neg ended]
      have below : 8 * index + (8 - (bitsLeft + 1)) < outputs.length := by omega
      have next := ih (by omega) (fun j within => by
          rw [testBit_shiftRight_one, bits (j + 1) (by omega)]
          congr 1
          omega) (by omega)
      have shifted : 8 * index + (8 - bitsLeft) = 8 * index + (8 - (bitsLeft + 1)) + 1 := by omega
      rw [shifted] at next
      have picked : filter &&& 1 = 1 ↔ keep (8 * index + (8 - (bitsLeft + 1))) = true := by
        rw [and_one_eq_one_iff, bits 0 (by omega), Nat.add_zero]
      rw [List.drop_eq_getElem_cons below, List.getElem?_eq_getElem below]
      -- the bit of this position decides whether its output joins the result
      by_cases kept : keep (8 * index + (8 - (bitsLeft + 1))) = true
      · simp only [if_pos (picked.mpr kept), expect, Functor.map, Except.map, bind, Except.bind, next,
          select_cons_of_keep kept, List.take_succ_cons, List.append_assoc, List.singleton_append]
        split_ifs <;> first | rfl | omega
      · have dropped : keep (8 * index + (8 - (bitsLeft + 1))) = false := by simpa using kept
        simp only [if_neg (fun one => kept (picked.mp one)), pure, Except.pure, bind, Except.bind, next,
          select_cons_of_not_keep dropped, List.take_succ_cons]
        split_ifs <;> first | rfl | omega

/-- `apply_bitmask_to_output` from a fresh result picks the outputs whose bit
of the filter is set. -/
theorem applyBitmaskToOutput_eq (bitmask : List UInt8) (outputs : List AssetTransferOutput) :
    applyBitmaskToOutput bitmask outputs [] = .ok (select (filterBit bitmask) 0 outputs) := by
  -- the loop over the bytes, from the `index`-th, picks from position `8 * index` on
  have loop : ∀ (bytes : List UInt8) (index : ℕ) (result : List AssetTransferOutput),
      bytes = bitmask.reverse.drop index → 8 * index ≤ outputs.length →
      applyBitmaskToOutput.go outputs bytes index result =
        .ok (result ++ select (filterBit bitmask) (8 * index) (outputs.drop (8 * index))) := by
    intro bytes
    induction bytes with
    | nil =>
      intro index result rest _
      -- past the last byte no bit is set
      have none : select (filterBit bitmask) (8 * index) (outputs.drop (8 * index)) = [] := by
        rw [select_eq_nil_iff]
        intro i set
        have past : bitmask.reverse.length ≤ (8 * index + i) / 8 := by
          have := List.drop_eq_nil_iff.mp rest.symm
          omega
        simp [filterBit, List.getElem?_eq_none past] at set
      simp [applyBitmaskToOutput.go, none]
    | cons byte rest ih =>
      intro index result bytes reached
      have byteAt : bitmask.reverse[index]? = some byte := by
        rw [← List.head?_drop, ← bytes, List.head?_cons]
      have restAt : rest = bitmask.reverse.drop (index + 1) := by
        rw [← List.drop_drop, ← bytes, List.drop_one, List.tail_cons]
      have bits : ∀ j < 8, byte.toNat.testBit j = filterBit bitmask (8 * index + (8 - 8) + j) := by
        intro j within
        have byteIndex : (8 * index + (8 - 8) + j) / 8 = index := by omega
        have bitIndex : (8 * index + (8 - 8) + j) % 8 = j := by omega
        rw [filterBit, byteIndex, bitIndex, byteAt]
      rw [applyBitmaskToOutput.go, pushBits_eq le_rfl bits (by omega)]
      simp only [Nat.sub_self, Nat.add_zero]
      split_ifs with ended
      · rfl
      · -- the byte was read whole; the next one picks from eight positions on
        rw [ok_bind]
        dsimp only
        rw [ih (index + 1) _ restAt (by omega), List.append_assoc, Nat.mul_add, Nat.mul_one,
          ← List.drop_drop, select_take_append_drop]
  rw [applyBitmaskToOutput]
  simpa using loop bitmask.reverse 0 [] (by simp) (by omega)

end Bitmask

/-! ### The preimage of `hash_partially` -/

/-- The input as a signature signs it: its scripts emptied. -/
def AssetTransferInput.stripped (input : AssetTransferInput) : AssetTransferInput :=
  { input with lockScript := [], unlockScript := [] }

/-- What a signature signs of an input: the asset it spends and its timelock. -/
def AssetTransferInput.signed (input : AssetTransferInput) : AssetOutPoint × Option Machine.Timelock :=
  (input.prevOut, input.timelock)

/-- `apply_input_scheme`. -/
def applyInputScheme (inputs : List AssetTransferInput) (isSignAll isSignSingle : Bool)
    (cur : AssetTransferInput) : List AssetTransferInput :=
  if isSignAll then inputs.map AssetTransferInput.stripped
  else if isSignSingle then [cur.stripped]
  else []

/-- What the `TransferAsset` arm of `hash_partially` hashes: the transaction as
the tag signs it, and the tag's bytes, whose `blake128` keys the hash. -/
def partialPreimage (tx : TransferAsset) (tag : Tag) (cur : AssetTransferInput) (isBurn : Bool) :
    Except (Fault HashingError) (TransferAsset × List UInt8) := do
  failIf (tx.orders ≠ [] ∧ (tag.signAllInputs = false ∨ tag.signAllOutputs = false)) .invalidFilter
  let newBurns := applyInputScheme tx.burns tag.signAllInputs isBurn cur
  let newInputs := applyInputScheme tx.inputs tag.signAllInputs (!isBurn) cur
  let newOutputs ← if tag.signAllOutputs then pure tx.outputs else applyBitmaskToOutput tag.filter tx.outputs []
  pure (⟨tx.networkId, newBurns, newInputs, newOutputs, tx.orders⟩, tag.bitvec)

/-- `hash_partially` of a `TransferAsset`: `blake256_with_key` of the RLP of the
signed transaction, keyed by `blake128` of the tag. -/
def hashPartially (hashWithKey : TransferAsset → List UInt8 → H256) (tx : TransferAsset) (tag : Tag)
    (cur : AssetTransferInput) (isBurn : Bool) : Except (Fault HashingError) H256 :=
  (fun preimage => hashWithKey preimage.1 preimage.2) <$> partialPreimage tx tag cur isBurn

/-- The outputs a tag signs. -/
def signedOutputs (tag : Tag) (outputs : List AssetTransferOutput) : List AssetTransferOutput :=
  if tag.signAllOutputs then outputs else select (filterBit tag.filter) 0 outputs

/-- A transaction can be signed under a tag: it has no orders, or the tag signs
it whole. -/
def Signable (tag : Tag) (tx : TransferAsset) : Prop :=
  tx.orders = [] ∨ tag.signAllInputs = true ∧ tag.signAllOutputs = true

theorem partialPreimage_eq_ok {tag : Tag} {tx : TransferAsset} (signable : Signable tag tx)
    (cur : AssetTransferInput) (isBurn : Bool) :
    partialPreimage tx tag cur isBurn =
      .ok (⟨tx.networkId, applyInputScheme tx.burns tag.signAllInputs isBurn cur,
        applyInputScheme tx.inputs tag.signAllInputs (!isBurn) cur, signedOutputs tag tx.outputs, tx.orders⟩,
        tag.bitvec) := by
  have passes : ¬ (tx.orders ≠ [] ∧ (tag.signAllInputs = false ∨ tag.signAllOutputs = false)) := by
    rcases signable with none | ⟨inputs, outputs⟩
    · exact fun ⟨present, _⟩ => present none
    · simp [inputs, outputs]
  have checked : (failIf (tx.orders ≠ [] ∧ (tag.signAllInputs = false ∨ tag.signAllOutputs = false))
      HashingError.invalidFilter : Except (Fault HashingError) Unit) = .ok () := failIf_eq_ok.mpr passes
  rw [partialPreimage, checked, ok_bind]
  cases signsAll : tag.signAllOutputs
  · simp [signedOutputs, signsAll, applyBitmaskToOutput_eq, pure, Except.pure]
  · simp [signedOutputs, signsAll, pure, Except.pure]

theorem stripped_eq_stripped_iff {first second : AssetTransferInput} :
    first.stripped = second.stripped ↔ first.signed = second.signed := by
  obtain ⟨firstOut, firstLock, _, _⟩ := first
  obtain ⟨secondOut, secondLock, _, _⟩ := second
  simp [AssetTransferInput.stripped, AssetTransferInput.signed]

theorem map_stripped_eq_iff {first second : List AssetTransferInput} :
    first.map AssetTransferInput.stripped = second.map AssetTransferInput.stripped ↔
      first.map AssetTransferInput.signed = second.map AssetTransferInput.signed := by
  -- stripping is signing followed by an injective rebuild
  have factor : AssetTransferInput.stripped = (fun signed => ⟨signed.1, signed.2, [], []⟩) ∘ AssetTransferInput.signed :=
    rfl
  have rebuild : Function.Injective fun (signed : AssetOutPoint × Option Machine.Timelock) =>
      (⟨signed.1, signed.2, [], []⟩ : AssetTransferInput) := by
    rintro ⟨out, lock⟩ ⟨out', lock'⟩ same
    simp only [AssetTransferInput.mk.injEq] at same
    rw [same.1, same.2.1]
  rw [factor, ← List.map_map, ← List.map_map]
  exact (List.map_injective_iff.mpr rebuild).eq_iff

/-- The inputs and burns a tag signs of two transactions agree exactly when
the spent assets and timelocks it signs do. -/
theorem applyInputScheme_eq_iff (isSignAll isBurn : Bool) {firstBurns firstInputs secondBurns secondInputs :
    List AssetTransferInput} {firstCur secondCur : AssetTransferInput} :
    (applyInputScheme firstBurns isSignAll isBurn firstCur = applyInputScheme secondBurns isSignAll isBurn secondCur ∧
      applyInputScheme firstInputs isSignAll (!isBurn) firstCur =
        applyInputScheme secondInputs isSignAll (!isBurn) secondCur) ↔
      if isSignAll then
        firstBurns.map AssetTransferInput.signed = secondBurns.map AssetTransferInput.signed ∧
          firstInputs.map AssetTransferInput.signed = secondInputs.map AssetTransferInput.signed
      else firstCur.signed = secondCur.signed := by
  cases isSignAll
  · -- the current input goes to the burns or to the inputs, as it is burnt or not
    cases isBurn <;> simp [applyInputScheme, stripped_eq_stripped_iff]
  · simp [applyInputScheme, map_stripped_eq_iff]

theorem signedOutputs_eq_iff (tag : Tag) (first second : List AssetTransferOutput) :
    signedOutputs tag first = signedOutputs tag second ↔
      if tag.signAllOutputs then first = second
      else ∀ position, filterBit tag.filter position = true → first[position]? = second[position]? := by
  cases signsAll : tag.signAllOutputs
  · simp [signedOutputs, signsAll, select_eq_select_iff]
  · simp [signedOutputs, signsAll]

/-- Two transactions that can be signed under a tag hash the same preimage
exactly when they agree on the network, the orders, what the tag signs of the
inputs and burns, and the outputs at the positions it signs; the scripts of
the inputs never count. -/
theorem partialPreimage_eq_iff {tag : Tag} {first second : TransferAsset} (firstSignable : Signable tag first)
    (secondSignable : Signable tag second) (firstCur secondCur : AssetTransferInput) (isBurn : Bool) :
    (∃ preimage, partialPreimage first tag firstCur isBurn = .ok preimage ∧
        partialPreimage second tag secondCur isBurn = .ok preimage) ↔
      first.networkId = second.networkId ∧ first.orders = second.orders ∧
      (if tag.signAllInputs then
        first.burns.map AssetTransferInput.signed = second.burns.map AssetTransferInput.signed ∧
          first.inputs.map AssetTransferInput.signed = second.inputs.map AssetTransferInput.signed
      else firstCur.signed = secondCur.signed) ∧
      (if tag.signAllOutputs then first.outputs = second.outputs
      else ∀ position, filterBit tag.filter position = true →
        first.outputs[position]? = second.outputs[position]?) := by
  rw [partialPreimage_eq_ok firstSignable, partialPreimage_eq_ok secondSignable, ← applyInputScheme_eq_iff,
    ← signedOutputs_eq_iff]
  constructor
  · rintro ⟨preimage, firstEq, secondEq⟩
    have same := (Except.ok.inj firstEq).trans (Except.ok.inj secondEq).symm
    simp only [Prod.mk.injEq, TransferAsset.mk.injEq] at same
    obtain ⟨⟨network, burns, inputs, outputs, orders⟩, -⟩ := same
    exact ⟨network, orders, ⟨burns, inputs⟩, outputs⟩
  · rintro ⟨network, orders, ⟨burns, inputs⟩, outputs⟩
    exact ⟨_, rfl, by rw [network, orders, burns, inputs, outputs]⟩

/-- The tag `[5, 4]`: the input being unlocked, and the outputs at positions
`0` and `2`. -/
def evenOutputsTag : Tag :=
  ⟨false, false, 1, [5], [5, 4]⟩

/-- An output of `10` of asset `1` to the lock script hash `lock`. -/
def payTo (lock : H160) : AssetTransferOutput :=
  ⟨lock, [], 1, 0, 10⟩

/-- The input being unlocked, with the given unlock script. -/
def unlockedWith (unlockScript : Bytes) : AssetTransferInput :=
  ⟨⟨100, 0, 1, 0, 30⟩, none, [], unlockScript⟩

/-- A different unlock script and a different output at the unsigned position
`1` leave the preimage as it was. -/
theorem partialPreimage_eq_of_unsigned_output :
    Tag.tryNew [5, 4] = .ok evenOutputsTag ∧
      ∃ preimage,
        partialPreimage ⟨(0, 0), [], [unlockedWith []], [payTo 1, payTo 2, payTo 3], []⟩ evenOutputsTag
          (unlockedWith []) false = .ok preimage ∧
        partialPreimage ⟨(0, 0), [], [unlockedWith [1]], [payTo 1, payTo 9, payTo 3], []⟩ evenOutputsTag
          (unlockedWith [1]) false = .ok preimage := by
  refine ⟨rfl, (partialPreimage_eq_iff (.inl rfl) (.inl rfl) _ _ false).mpr ⟨rfl, rfl, rfl, ?_⟩⟩
  -- only positions `0` and `2` are signed, and there the outputs agree
  intro position set
  have small : position < 8 := by
    by_contra big
    have past : [(5 : UInt8)][position / 8]? = none := List.getElem?_eq_none (by simp; omega)
    simp [evenOutputsTag, filterBit, past] at set
  interval_cases position <;> revert set <;> decide

/-- A tag that signs the input being unlocked and no output. -/
def bareTag : Tag :=
  ⟨false, false, 0, [], [0]⟩

/-- The exchange of `swapOrderTx`, with its order. -/
def orderedTransfer : TransferAsset :=
  ⟨(0, 0), [], swapInputs, swapOutputs, [swapOrderTx]⟩

theorem partialPreimage_rejects_orders :
    Tag.tryNew [0] = .ok bareTag ∧
      partialPreimage orderedTransfer bareTag (unlockedWith []) false = .error (.error .invalidFilter) :=
  ⟨rfl, rfl⟩

end Types

end CodeChain
