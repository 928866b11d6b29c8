import CodeChain.Machine.Timelock
import CodeChain.Lib.FloorShares

/-!
# Orders on asset transfers

An `Order` (`types/src/transaction/order.rs`) offers `asset_quantity_from` of
one asset for `asset_quantity_to` of another, and pays a relayer
`asset_quantity_fee` of a third.  A transfer fills part of it: `consume` takes
the quantity spent off the `from` side, and the same share, rounded down, off
the other two, with the products in `u128` and the shares cast back to `u64`.

`Order::verify` makes the fee a multiple of `from`.  Under it, for a quantity
no more than `from`, nothing of `consume` wraps, the share of the fee is exact,
the rounding of the share of `to` is in the maker's favour, and the order is
still valid while something is left of it.

Hashes are numbers, and the hash of an order, which `verify` puts in one of its
errors, is a parameter.  The `u64` arithmetic wraps, as the release profile
builds it; a division by zero panics.
-/

namespace CodeChain

namespace Types

open Fault

/-- A 160-bit hash: an asset type or a lock script hash. -/
abbrev H160 := ℕ

/-- A 256-bit hash: a tracker, or the hash of an order. -/
abbrev H256 := ℕ

abbrev ShardId := UInt16

abbrev Bytes := List UInt8

/-- `AssetOutPoint`: the asset an input spends, and what the input claims of it. -/
structure AssetOutPoint where
  tracker : H256
  index : ℕ
  assetType : H160
  shardId : ShardId
  quantity : UInt64
  deriving DecidableEq, Repr

structure AssetTransferInput where
  prevOut : AssetOutPoint
  timelock : Option Machine.Timelock
  lockScript : Bytes
  unlockScript : Bytes
  deriving DecidableEq, Repr

structure AssetTransferOutput where
  lockScriptHash : H160
  parameters : List Bytes
  assetType : H160
  shardId : ShardId
  quantity : UInt64
  deriving DecidableEq, Repr

structure Order where
  assetTypeFrom : H160
  assetTypeTo : H160
  assetTypeFee : H160
  shardIdFrom : ShardId
  shardIdTo : ShardId
  shardIdFee : ShardId
  assetQuantityFrom : UInt64
  assetQuantityTo : UInt64
  assetQuantityFee : UInt64
  originOutputs : List AssetOutPoint
  expiration : UInt64
  lockScriptHashFrom : H160
  parametersFrom : List Bytes
  lockScriptHashFee : H160
  parametersFee : List Bytes
  deriving DecidableEq, Repr

/-- The variants of `SyntaxError` that the checks of transfers and their orders
return. -/
inductive SyntaxError where
  | duplicatedPreviousOutput (tracker : H256) (index : ℕ)
  | inconsistentTransactionInOut
  | inconsistentTransactionInOutWithOrders
  | invalidOrderAssetQuantities (quantityFrom quantityTo fee : UInt64)
  | invalidOrderAssetTypes
  | invalidAssetTypesWithOrder (assetType : String) (idx : ℕ)
  | invalidAssetOwnerWithOrder (assetType : String) (idx : ℕ)
  | invalidOrderInOutIndices
  | invalidOrderLockScriptHash (lockScriptHash : H160)
  | invalidOrderParameters (parameters : List Bytes)
  | invalidOriginOutputs (orderHash : H256)
  | orderRecipientsAreSame
  | tooManyOutputs (count : ℕ)
  | zeroQuantity
  | invalidSpentQuantity (assetQuantityFrom spentQuantity : UInt64)
  deriving DecidableEq, Repr

namespace Order

/-- `InvalidOrderAssetQuantities` with the order's three quantities. -/
def invalidQuantities (order : Order) : SyntaxError :=
  .invalidOrderAssetQuantities order.assetQuantityFrom order.assetQuantityTo order.assetQuantityFee

/-- An origin output is of the asset the order gives, or of the fee's. -/
def isOfOrder (order : Order) (originOutput : AssetOutPoint) : Bool :=
  originOutput.assetType = order.assetTypeFrom ∧ originOutput.shardId = order.shardIdFrom ∨
    originOutput.assetType = order.assetTypeFee ∧ originOutput.shardId = order.shardIdFee

/-- `Order::verify`.  Its loop over the origin outputs returns the same error
at whichever output is of neither asset. -/
def verify (hash : Order → H256) (order : Order) : Except (Fault SyntaxError) Unit :=
  if order.assetTypeFrom = order.assetTypeTo ∧ order.shardIdFrom = order.shardIdTo then
    fail .invalidOrderAssetTypes
  else if Bool.xor (order.assetQuantityFrom == 0) (order.assetQuantityTo == 0) then
    fail order.invalidQuantities
  else if order.assetQuantityFrom = 0 ∧ order.assetQuantityFee ≠ 0 ∨
      order.assetQuantityFrom ≠ 0 ∧ order.assetQuantityFee % order.assetQuantityFrom ≠ 0 then
    fail order.invalidQuantities
  else if order.assetQuantityFee ≠ 0 ∧ order.lockScriptHashFee = order.lockScriptHashFrom ∧
      order.parametersFee = order.parametersFrom then
    fail .orderRecipientsAreSame
  else if order.originOutputs.isEmpty then
    fail (.invalidOriginOutputs (hash order))
  else if order.originOutputs.any fun originOutput => !order.isOfOrder originOutput then
    fail (.invalidOriginOutputs (hash order))
  else
    .ok ()

/-- `Order::check_transfer_output`: whether an output of the order goes to the
maker; one that goes to neither the maker nor the relayer is an error. -/
def checkTransferOutput (order : Order) (output : AssetTransferOutput) : Except (Fault SyntaxError) Bool :=
  if order.assetQuantityFee ≠ 0 ∧ order.assetTypeFee = output.assetType ∧ order.shardIdFee = output.shardId ∧
      order.lockScriptHashFee = output.lockScriptHash ∧ order.parametersFee = output.parameters then
    .ok false
  else if order.lockScriptHashFrom ≠ output.lockScriptHash then
    fail (.invalidOrderLockScriptHash order.lockScriptHashFrom)
  else if order.parametersFrom ≠ output.parameters then
    fail (.invalidOrderParameters order.parametersFrom)
  else
    .ok true

/-- `u128::from(quantity) * u128::from(total) / u128::from(whole)` cast `as u64`:
the product of two `u64`s fits in a `u128`, and the cast keeps the low 64 bits. -/
def share (quantity total whole : UInt64) : Except (Fault SyntaxError) UInt64 :=
  if whole = 0 then .error (.panic "attempt to divide by zero")
  else .ok (UInt64.ofNat (quantity.toNat * total.toNat / whole.toNat))

/-- `Order::consume`. -/
def consume (order : Order) (quantity : UInt64) : Except (Fault SyntaxError) Order := do
  let shareTo ← share quantity order.assetQuantityTo order.assetQuantityFrom
  let shareFee ← share quantity order.assetQuantityFee order.assetQuantityFrom
  pure
    { order with
      assetQuantityFrom := order.assetQuantityFrom - quantity
      assetQuantityTo := order.assetQuantityTo - shareTo
      assetQuantityFee := order.assetQuantityFee - shareFee }

/-! ### What `verify` accepts -/

/-- The conditions of `Order::verify`. -/
structure Valid (order : Order) : Prop where
  assetTypes : ¬ (order.assetTypeFrom = order.assetTypeTo ∧ order.shardIdFrom = order.shardIdTo)
  quantities : order.assetQuantityFrom = 0 ↔ order.assetQuantityTo = 0
  feeMultiple : order.assetQuantityFrom.toNat ∣ order.assetQuantityFee.toNat
  recipients : order.assetQuantityFee ≠ 0 →
    ¬ (order.lockScriptHashFee = order.lockScriptHashFrom ∧ order.parametersFee = order.parametersFrom)
  originOutputs : order.originOutputs ≠ []
  originAssets : ∀ originOutput ∈ order.originOutputs, order.isOfOrder originOutput = true

/-- The fee check of `verify`, a `u64` remainder, is divisibility of the
values; a zero `from` divides only a zero fee. -/
theorem feeCheck_iff_dvd (order : Order) :
    ¬ (order.assetQuantityFrom = 0 ∧ order.assetQuantityFee ≠ 0 ∨
        order.assetQuantityFrom ≠ 0 ∧ order.assetQuantityFee % order.assetQuantityFrom ≠ 0) ↔
      order.assetQuantityFrom.toNat ∣ order.assetQuantityFee.toNat := by
  by_cases zero : order.assetQuantityFrom = 0
  · rw [zero, UInt64.toNat_zero, Nat.zero_dvd, ← UInt64.toNat_zero, UInt64.toNat_inj]
    simp
  · rw [Nat.dvd_iff_mod_eq_zero, ← UInt64.toNat_mod, ← UInt64.toNat_zero, UInt64.toNat_inj]
    simp [zero]

theorem verify_eq_ok_iff (hash : Order → H256) (order : Order) :
    order.verify hash = .ok () ↔ order.Valid := by
  unfold verify
  split_ifs with types quantities fee recipients empty foreign
  · exact iff_of_false fail_ne_ok fun valid => valid.assetTypes types
  · refine iff_of_false fail_ne_ok fun valid => ?_
    have := valid.quantities
    simp_all
  · exact iff_of_false fail_ne_ok fun valid => (feeCheck_iff_dvd order).mpr valid.feeMultiple fee
  · exact iff_of_false fail_ne_ok fun valid => valid.recipients recipients.1 recipients.2
  · exact iff_of_false fail_ne_ok fun valid => valid.originOutputs (List.isEmpty_iff.mp empty)
  · refine iff_of_false fail_ne_ok fun valid => ?_
    obtain ⟨originOutput, member, other⟩ := List.any_eq_true.mp foreign
    simp [valid.originAssets originOutput member] at other
  · refine iff_of_true rfl ⟨types, ?_, (feeCheck_iff_dvd order).mp fee, fun nonzero same => recipients ⟨nonzero, same⟩,
      fun nil => empty (List.isEmpty_iff.mpr nil), fun originOutput member => ?_⟩
    · simp only [Bool.xor, bne_iff_ne, ne_eq] at quantities
      simpa [beq_iff_eq] using quantities
    · have := List.any_eq_false.mp (Bool.not_eq_true _ ▸ foreign) originOutput member
      simpa using this

/-! ### A partial fill -/

section Fill

variable {order : Order} {quantity : UInt64}

/-- A share of a `u64` total for a part no more than the whole is below
`2 ^ 64`, so the cast back to `u64` keeps it whole. -/
theorem toNat_share {total : UInt64} (within : quantity ≤ order.assetQuantityFrom) :
    (UInt64.ofNat (quantity.toNat * total.toNat / order.assetQuantityFrom.toNat)).toNat =
      quantity.toNat * total.toNat / order.assetQuantityFrom.toNat := by
  have bounded := FloorShares.share_le total.toNat (UInt64.le_iff_toNat_le.mp within)
  rw [UInt64.toNat_ofNat', Nat.mod_eq_of_lt (lt_of_le_of_lt bounded total.toNat_lt)]

/-- What `consume` leaves of a total is the total less its share, with no wrap. -/
theorem toNat_sub_share (total : UInt64) (within : quantity ≤ order.assetQuantityFrom) :
    (total - UInt64.ofNat (quantity.toNat * total.toNat / order.assetQuantityFrom.toNat)).toNat =
      total.toNat - quantity.toNat * total.toNat / order.assetQuantityFrom.toNat := by
  have below : UInt64.ofNat (quantity.toNat * total.toNat / order.assetQuantityFrom.toNat) ≤ total := by
    rw [UInt64.le_iff_toNat_le, toNat_share within]
    exact FloorShares.share_le total.toNat (UInt64.le_iff_toNat_le.mp within)
  rw [UInt64.toNat_sub_of_le _ _ below, toNat_share within]

theorem consume_eq_ok (positive : 0 < order.assetQuantityFrom) :
    order.consume quantity = .ok
      { order with
        assetQuantityFrom := order.assetQuantityFrom - quantity
        assetQuantityTo := order.assetQuantityTo -
          UInt64.ofNat (quantity.toNat * order.assetQuantityTo.toNat / order.assetQuantityFrom.toNat)
        assetQuantityFee := order.assetQuantityFee -
          UInt64.ofNat (quantity.toNat * order.assetQuantityFee.toNat / order.assetQuantityFrom.toNat) } := by
  have nonzero : order.assetQuantityFrom ≠ 0 := (UInt64.ne_of_lt positive).symm
  simp [consume, share, nonzero, pure, Except.pure]

/-- What a fill of `quantity` makes of `order`. -/
structure FillsWell (hash : Order → H256) (order : Order) (quantity : UInt64) (consumed : Order) : Prop where
  /-- Every field but the three quantities is kept. -/
  kept : consumed =
    { order with
      assetQuantityFrom := consumed.assetQuantityFrom
      assetQuantityTo := consumed.assetQuantityTo
      assetQuantityFee := consumed.assetQuantityFee }
  /-- No subtraction wraps: what is left and what was taken make up each
  quantity. -/
  fromExact : consumed.assetQuantityFrom.toNat + quantity.toNat = order.assetQuantityFrom.toNat
  toExact : consumed.assetQuantityTo.toNat +
    quantity.toNat * order.assetQuantityTo.toNat / order.assetQuantityFrom.toNat = order.assetQuantityTo.toNat
  feeExact : consumed.assetQuantityFee.toNat +
    quantity.toNat * order.assetQuantityFee.toNat / order.assetQuantityFrom.toNat = order.assetQuantityFee.toNat
  /-- The maker's rate for what is left is no worse. -/
  rateTo : order.assetQuantityTo.toNat * consumed.assetQuantityFrom.toNat ≤
    consumed.assetQuantityTo.toNat * order.assetQuantityFrom.toNat
  /-- The rate of the fee is kept exactly. -/
  rateFee : consumed.assetQuantityFee.toNat * order.assetQuantityFrom.toNat =
    order.assetQuantityFee.toNat * consumed.assetQuantityFrom.toNat
  /-- An order with something left is valid again. -/
  stillValid : quantity < order.assetQuantityFrom → consumed.verify hash = .ok ()

section Valid

variable (valid : order.Valid) (positive : 0 < order.assetQuantityFrom) (within : quantity ≤ order.assetQuantityFrom)
include valid positive within

omit within in
/-- The fee's share is exact: the fee is `rate` times `from`, and its share
`rate` times the quantity. -/
theorem share_fee_eq :
    ∃ rate, order.assetQuantityFee.toNat = rate * order.assetQuantityFrom.toNat ∧
      quantity.toNat * order.assetQuantityFee.toNat / order.assetQuantityFrom.toNat = quantity.toNat * rate := by
  obtain ⟨rate, multiple⟩ := valid.feeMultiple
  rw [Nat.mul_comm] at multiple
  refine ⟨rate, multiple, ?_⟩
  rw [multiple, FloorShares.share_of_multiple _ _ (UInt64.lt_iff_toNat_lt.mp positive)]

/-- With something left to spend, the consumed order passes `verify`. -/
theorem consume_valid (below : quantity < order.assetQuantityFrom) {consumed : Order}
    (consumed_eq : order.consume quantity = .ok consumed) : consumed.Valid := by
  rw [consume_eq_ok positive, Except.ok.injEq] at consumed_eq
  subst consumed_eq
  have belowNat := UInt64.lt_iff_toNat_lt.mp below
  obtain ⟨rate, multiple, feeShare⟩ := @share_fee_eq _ quantity valid positive
  have leftFrom : (order.assetQuantityFrom - quantity).toNat = order.assetQuantityFrom.toNat - quantity.toNat :=
    UInt64.toNat_sub_of_le _ _ within
  have leftTo := toNat_sub_share order.assetQuantityTo within
  have leftFee := toNat_sub_share order.assetQuantityFee within
  -- `to` is not zero, as `from` is not, and a part below the whole takes less than all of it
  have toPositive : 0 < order.assetQuantityTo.toNat := by
    have nonzero : order.assetQuantityTo ≠ 0 := fun zero => (UInt64.ne_of_lt positive).symm (valid.quantities.mpr zero)
    exact Nat.pos_of_ne_zero fun zero => nonzero (UInt64.toNat_inj.mp zero)
  have takenTo := FloorShares.share_lt belowNat toPositive
  refine ⟨valid.assetTypes, ?_, ?_, ?_, valid.originOutputs, valid.originAssets⟩
  · refine iff_of_false (fun zero => ?_) (fun zero => ?_)
    · have := congrArg UInt64.toNat zero
      rw [leftFrom, UInt64.toNat_zero] at this
      omega
    · have := congrArg UInt64.toNat zero
      rw [leftTo, UInt64.toNat_zero] at this
      omega
  · -- what is left of the fee is `rate` times what is left of `from`
    refine ⟨rate, ?_⟩
    rw [leftFrom, leftFee, feeShare, multiple, Nat.mul_comm quantity.toNat rate, ← Nat.mul_sub, Nat.mul_comm]
  · intro nonzero
    refine valid.recipients fun zero => nonzero (UInt64.toNat_inj.mp ?_)
    rw [leftFee, zero, UInt64.toNat_zero, Nat.zero_sub]

theorem consume_fillsWell (hash : Order → H256) :
    ∃ consumed, order.consume quantity = .ok consumed ∧ FillsWell hash order quantity consumed := by
  refine ⟨_, consume_eq_ok positive, ?_⟩
  have withinNat := UInt64.le_iff_toNat_le.mp within
  have leftFrom : (order.assetQuantityFrom - quantity).toNat = order.assetQuantityFrom.toNat - quantity.toNat :=
    UInt64.toNat_sub_of_le _ _ within
  have leftTo := toNat_sub_share order.assetQuantityTo within
  have leftFee := toNat_sub_share order.assetQuantityFee within
  have takenTo := FloorShares.share_le order.assetQuantityTo.toNat withinNat
  have takenFee := FloorShares.share_le order.assetQuantityFee.toNat withinNat
  obtain ⟨rate, multiple, feeShare⟩ := @share_fee_eq _ quantity valid positive
  constructor
  · rfl
  · dsimp only
    omega
  · dsimp only
    omega
  · dsimp only
    omega
  · -- the share of `to` is rounded down, which leaves the maker more
    dsimp only
    rw [leftFrom, leftTo]
    exact FloorShares.mul_sub_le_sub_share_mul order.assetQuantityTo.toNat withinNat
  · dsimp only
    rw [leftFrom, leftFee, feeShare, multiple, Nat.mul_comm quantity.toNat rate, ← Nat.mul_sub, Nat.mul_right_comm]
  · intro below
    exact (verify_eq_ok_iff hash _).mpr (consume_valid valid positive within below (consume_eq_ok positive))

end Valid

end Fill

end Order

end Types

end CodeChain
