import CodeChain.Sync.Message
import CodeChain.Key.PlatformAddress
import CodeChain.Lib.Fault

/-!
# Common parameters and their RLP codec

`CommonParams` (`types/src/common_params.rs`) holds the chain parameters that
a `ChangeParams` stake action replaces.  It is encoded as an RLP list of 23
items, or of 32 when the nine stake parameters follow; its field `size` says
which.  The scheme's `Params` builds one of size 32 exactly when it has a
`term_seconds`, whatever its other stake parameters are, and the decoder of a
list of 23 items sets the nine to their defaults.  The round trip therefore
resets the stake parameters of a value of size 23, which is proved here for
every value together with the round trip of the values of size 32.

`usize` is `u64`, as on the 64-bit targets the node runs on, and the JSON
numbers of a scheme are taken as the `u64` values they convert to.
-/

namespace CodeChain

namespace Rlp

open Bytes

/-- `impl_encodable_for_u!(u64)`: the eight bytes of `to_be_bytes` after their
leading zero bytes, so that zero is the empty string. -/
def encodeU64 (value : UInt64) : List UInt8 :=
  (toBigEndian 8 value.toNat).dropWhile (· == 0)

theorem length_encodeU64_le (value : UInt64) : (encodeU64 value).length ≤ 8 :=
  (List.length_dropWhile_le _ _).trans (length_toBigEndian 8 _).le

theorem bigEndian_encodeU64 (value : UInt64) : bigEndian (encodeU64 value) = value.toNat := by
  rw [encodeU64, bigEndian_dropWhile_zero, bigEndian_toBigEndian]
  exact Nat.mod_eq_of_lt value.toNat_lt

theorem head?_encodeU64_ne_zero (value : UInt64) : (encodeU64 value).head? ≠ some 0 := by
  intro leadingZero
  have nonempty : encodeU64 value ≠ [] := by
    intro empty
    rw [empty] at leadingZero
    cases leadingZero
  have notZero := List.head_dropWhile_not (· == (0 : UInt8)) nonempty
  rw [List.head?_eq_some_head nonempty, Option.some_inj] at leadingZero
  simp [encodeU64] at notZero leadingZero
  exact notZero leadingZero

/-- The `u64` decoder reads back what the encoder writes: the encoding has at
most eight bytes, spells the value and has no leading zero. -/
@[simp]
theorem decodeU64_encodeU64 (value : UInt64) : decodeU64 (encodeU64 value) = some value := by
  have short := length_encodeU64_le value
  have spelled := bigEndian_encodeU64 value
  have leading := head?_encodeU64_ne_zero value
  generalize encodeU64 value = bytes at short spelled leading
  rcases bytes with _ | ⟨byte, rest⟩
  · -- no bytes: the value is zero
    simp only [bigEndian, List.foldl_nil] at spelled
    simp [decodeU64, decodeU8, ← UInt64.toNat_inj, ← spelled]
  have nonzero : byte ≠ 0 := fun zero => leading (by rw [zero]; rfl)
  rcases rest with _ | ⟨second, rest⟩
  · -- one byte: the `u8` decoder
    simp only [bigEndian, List.foldl_cons, List.foldl_nil, Nat.zero_mul, Nat.zero_add] at spelled
    simp [decodeU64, decodeU8, nonzero, ← UInt64.toNat_inj, spelled]
  · simp only [List.length_cons] at short
    simp [decodeU64, nonzero, short, spelled]

end Rlp

namespace Types

open Rlp Key

/-- `Encodable for NetworkId`: the two bytes as a string, once `Display` has
checked that they are UTF-8. -/
def encodeNetworkId (networkId : NetworkId) : Except (Fault Empty) (List UInt8) := do
  let _ ← Fault.expect networkId.toChars "network_id a valid utf8 string"
  pure [networkId.first, networkId.second]

/-- `Decodable for NetworkId`: a UTF-8 string of two bytes. -/
def decodeNetworkId : List UInt8 → Option NetworkId
  | [first, second] => if (NetworkId.toChars ⟨first, second⟩).isSome then some ⟨first, second⟩ else none
  | _ => none

theorem encodeNetworkId_eq_ok {networkId : NetworkId} {bytes : List UInt8} :
    encodeNetworkId networkId = .ok bytes ↔
      (networkId.toChars).isSome ∧ bytes = [networkId.first, networkId.second] := by
  cases valid : networkId.toChars <;> simp [encodeNetworkId, valid, Fault.expect, eq_comm]

theorem decodeNetworkId_of_encodeNetworkId {networkId : NetworkId} {bytes : List UInt8}
    (encoded : encodeNetworkId networkId = .ok bytes) : decodeNetworkId bytes = some networkId := by
  obtain ⟨valid, rfl⟩ := encodeNetworkId_eq_ok.mp encoded
  simp [decodeNetworkId, valid]

/-- `CommonParams`: `size` is the number of items of its encoding. -/
structure CommonParams where
  size : ℕ
  maxExtraDataSize : UInt64
  maxAssetSchemeMetadataSize : UInt64
  maxTransferMetadataSize : UInt64
  maxTextContentSize : UInt64
  networkId : NetworkId
  minPayTransactionCost : UInt64
  minSetRegularKeyTransactionCost : UInt64
  minCreateShardTransactionCost : UInt64
  minSetShardOwnersTransactionCost : UInt64
  minSetShardUsersTransactionCost : UInt64
  minWrapCccTransactionCost : UInt64
  minCustomTransactionCost : UInt64
  minStoreTransactionCost : UInt64
  minRemoveTransactionCost : UInt64
  minAssetMintCost : UInt64
  minAssetTransferCost : UInt64
  minAssetSchemeChangeCost : UInt64
  minAssetSupplyIncreaseCost : UInt64
  minAssetComposeCost : UInt64
  minAssetDecomposeCost : UInt64
  minAssetUnwrapCccCost : UInt64
  maxBodySize : UInt64
  snapshotPeriod : UInt64
  termSeconds : UInt64
  nominationExpiration : UInt64
  custodyPeriod : UInt64
  releasePeriod : UInt64
  maxNumOfValidators : UInt64
  minNumOfValidators : UInt64
  delegationThreshold : UInt64
  minDeposit : UInt64
  maxCandidateMetadataSize : UInt64
  deriving DecidableEq, Repr

/-- `DEFAULT_PARAMS_SIZE`. -/
def defaultParamsSize : ℕ := 23

/-- `NUMBER_OF_STAKE_PARAMS`. -/
def numberOfStakeParams : ℕ := 9

namespace CommonParams

/-- The parameters with the stake ones at their defaults, as the decoder of a
list of 23 items returns them. -/
def withDefaultStakeParams (p : CommonParams) : CommonParams :=
  { p with
    termSeconds := 0, nominationExpiration := 0, custodyPeriod := 0, releasePeriod := 0,
    maxNumOfValidators := 0, minNumOfValidators := 0, delegationThreshold := 0, minDeposit := 0,
    maxCandidateMetadataSize := 0 }

/-- The first 23 items of the encoding, given the bytes of the network id. -/
def defaultItems (p : CommonParams) (networkId : List UInt8) : List Item :=
  [.data (encodeU64 p.maxExtraDataSize), .data (encodeU64 p.maxAssetSchemeMetadataSize),
   .data (encodeU64 p.maxTransferMetadataSize), .data (encodeU64 p.maxTextContentSize),
   .data networkId,
   .data (encodeU64 p.minPayTransactionCost), .data (encodeU64 p.minSetRegularKeyTransactionCost),
   .data (encodeU64 p.minCreateShardTransactionCost),
   .data (encodeU64 p.minSetShardOwnersTransactionCost),
   .data (encodeU64 p.minSetShardUsersTransactionCost),
   .data (encodeU64 p.minWrapCccTransactionCost), .data (encodeU64 p.minCustomTransactionCost),
   .data (encodeU64 p.minStoreTransactionCost), .data (encodeU64 p.minRemoveTransactionCost),
   .data (encodeU64 p.minAssetMintCost), .data (encodeU64 p.minAssetTransferCost),
   .data (encodeU64 p.minAssetSchemeChangeCost), .data (encodeU64 p.minAssetSupplyIncreaseCost),
   .data (encodeU64 p.minAssetComposeCost), .data (encodeU64 p.minAssetDecomposeCost),
   .data (encodeU64 p.minAssetUnwrapCccCost),
   .data (encodeU64 p.maxBodySize), .data (encodeU64 p.snapshotPeriod)]

/-- The nine stake parameters, the last items of an encoding of size 32. -/
def stakeItems (p : CommonParams) : List Item :=
  [.data (encodeU64 p.termSeconds), .data (encodeU64 p.nominationExpiration),
   .data (encodeU64 p.custodyPeriod), .data (encodeU64 p.releasePeriod),
   .data (encodeU64 p.maxNumOfValidators), .data (encodeU64 p.minNumOfValidators),
   .data (encodeU64 p.delegationThreshold), .data (encodeU64 p.minDeposit),
   .data (encodeU64 p.maxCandidateMetadataSize)]

/-- `Encodable for CommonParams`: `size` must be 23 or 32, and the stake
parameters follow the others when it is 32. -/
def encode (p : CommonParams) : Except (Fault Empty) Item := do
  Fault.ensure (decide (p.size = defaultParamsSize ∨ p.size = defaultParamsSize + numberOfStakeParams))
    "size must be in VALID_SIZE"
  let networkId ← encodeNetworkId p.networkId
  let items := defaultItems p networkId
  pure (.list (if p.size = defaultParamsSize + numberOfStakeParams then items ++ stakeItems p else items))

/-- `Decodable for CommonParams`: a list of 23 or 32 items; the stake
parameters are read when there are 32 and are zero otherwise. -/
def decode (rlp : Item) : Option CommonParams := do
  let size ← rlp.itemCount
  unless size = defaultParamsSize ∨ size = defaultParamsSize + numberOfStakeParams do
    none
  let maxExtraDataSize ← rlp.valAt decodeU64 0
  let maxAssetSchemeMetadataSize ← rlp.valAt decodeU64 1
  let maxTransferMetadataSize ← rlp.valAt decodeU64 2
  let maxTextContentSize ← rlp.valAt decodeU64 3
  let networkId ← rlp.valAt decodeNetworkId 4
  let minPayTransactionCost ← rlp.valAt decodeU64 5
  let minSetRegularKeyTransactionCost ← rlp.valAt decodeU64 6
  let minCreateShardTransactionCost ← rlp.valAt decodeU64 7
  let minSetShardOwnersTransactionCost ← rlp.valAt decodeU64 8
  let minSetShardUsersTransactionCost ← rlp.valAt decodeU64 9
  let minWrapCccTransactionCost ← rlp.valAt decodeU64 10
  let minCustomTransactionCost ← rlp.valAt decodeU64 11
  let minStoreTransactionCost ← rlp.valAt decodeU64 12
  let minRemoveTransactionCost ← rlp.valAt decodeU64 13
  let minAssetMintCost ← rlp.valAt decodeU64 14
  let minAssetTransferCost ← rlp.valAt decodeU64 15
  let minAssetSchemeChangeCost ← rlp.valAt decodeU64 16
  let minAssetSupplyIncreaseCost ← rlp.valAt decodeU64 17
  let minAssetComposeCost ← rlp.valAt decodeU64 18
  let minAssetDecomposeCost ← rlp.valAt decodeU64 19
  let minAssetUnwrapCccCost ← rlp.valAt decodeU64 20
  let maxBodySize ← rlp.valAt decodeU64 21
  let snapshotPeriod ← rlp.valAt decodeU64 22
  let (termSeconds, nominationExpiration, custodyPeriod, releasePeriod, maxNumOfValidators,
      minNumOfValidators, delegationThreshold, minDeposit, maxCandidateMetadataSize) ←
    if defaultParamsSize + numberOfStakeParams ≤ size then
      pure (← rlp.valAt decodeU64 23, ← rlp.valAt decodeU64 24, ← rlp.valAt decodeU64 25,
        ← rlp.valAt decodeU64 26, ← rlp.valAt decodeU64 27, ← rlp.valAt decodeU64 28,
        ← rlp.valAt decodeU64 29, ← rlp.valAt decodeU64 30, ← rlp.valAt decodeU64 31)
    else pure (0, 0, 0, 0, 0, 0, 0, 0, 0)
  pure {
    size, maxExtraDataSize, maxAssetSchemeMetadataSize, maxTransferMetadataSize,
    maxTextContentSize, networkId, minPayTransactionCost, minSetRegularKeyTransactionCost,
    minCreateShardTransactionCost, minSetShardOwnersTransactionCost,
    minSetShardUsersTransactionCost, minWrapCccTransactionCost, minCustomTransactionCost,
    minStoreTransactionCost, minRemoveTransactionCost, minAssetMintCost, minAssetTransferCost,
    minAssetSchemeChangeCost, minAssetSupplyIncreaseCost, minAssetComposeCost,
    minAssetDecomposeCost, minAssetUnwrapCccCost, maxBodySize, snapshotPeriod, termSeconds,
    nominationExpiration, custodyPeriod, releasePeriod, maxNumOfValidators, minNumOfValidators,
    delegationThreshold, minDeposit, maxCandidateMetadataSize }

theorem encode_eq_ok {p : CommonParams} {item : Item} :
    encode p = .ok item ↔
      (p.size = defaultParamsSize ∨ p.size = defaultParamsSize + numberOfStakeParams) ∧
        p.networkId.toChars.isSome ∧
        item = .list (if p.size = defaultParamsSize + numberOfStakeParams
          then defaultItems p [p.networkId.first, p.networkId.second] ++ stakeItems p
          else defaultItems p [p.networkId.first, p.networkId.second]) := by
  simp only [encode, Fault.bind_eq_ok, Fault.ensure_eq_ok, decide_eq_true_eq, encodeNetworkId_eq_ok,
    Fault.pure_eq_ok]
  constructor
  · rintro ⟨_, sized, networkId, ⟨valid, rfl⟩, rfl⟩
    exact ⟨sized, valid, rfl⟩
  · rintro ⟨sized, valid, rfl⟩
    exact ⟨(), sized, _, ⟨valid, rfl⟩, rfl⟩

/-- Decoding an encoding gives the value back, with the stake parameters at
their defaults when it has 23 items. -/
theorem decode_encode {p : CommonParams} {item : Item} (encoded : encode p = .ok item) :
    decode item = some (if p.size = defaultParamsSize + numberOfStakeParams then p
      else p.withDefaultStakeParams) := by
  obtain ⟨sized, valid, rfl⟩ := encode_eq_ok.mp encoded
  have decoded := decodeNetworkId_of_encodeNetworkId (encodeNetworkId_eq_ok.mpr ⟨valid, rfl⟩)
  cases p
  -- for either size, the decoder reads each field back from its place in the list
  rcases sized with short | full
  · simp_all only [defaultParamsSize, numberOfStakeParams, Nat.reduceAdd, defaultItems, List.cons_append,
      List.nil_append, decode, Item.itemCount, Nat.reduceEqDiff, ↓reduceIte, List.length_cons, List.length_nil,
      zero_add, Item.valAt, Item.nth, Nat.ofNat_pos, getElem?_pos, List.getElem_cons_zero, Item.value,
      Option.bind_eq_bind, Option.bind_some, decodeU64_encodeU64, Nat.one_lt_ofNat, List.getElem_cons_succ,
      Nat.reduceLT, Nat.lt_add_one, lt_self_iff_false, not_false_eq_true, getElem?_neg, Option.bind_none,
      Option.pure_def, Option.bind_fun_none, or_false, Nat.reduceLeDiff, withDefaultStakeParams]
  · simp_all only [defaultParamsSize, numberOfStakeParams, Nat.reduceAdd, defaultItems, stakeItems,
      List.cons_append, List.nil_append, decode, Item.itemCount, ↓reduceIte, List.length_cons, List.length_nil,
      zero_add, Item.valAt, Item.nth, Nat.ofNat_pos, getElem?_pos, List.getElem_cons_zero, Item.value,
      Option.bind_eq_bind, Option.bind_some, decodeU64_encodeU64, Nat.one_lt_ofNat, List.getElem_cons_succ,
      Nat.reduceLT, Nat.lt_add_one, Option.pure_def, Option.bind_none, Nat.reduceEqDiff, or_true, Std.le_refl]

end CommonParams

end Types

end CodeChain
