import CodeChain.Types.Order
import CodeChain.Lib.AListMap

/-!
# The syntax check of an asset transfer

`Action::verify` (`types/src/transaction/action.rs`) checks a `TransferAsset`
before it reaches the state: the counts and quantities of its inputs and
outputs, that no asset is spent twice, each order, that the indices of the
orders name distinct inputs and outputs, and that what each order's inputs and
outputs move is what the order allows.

Among the last checks, the spent quantity of each order is no more than its
`from`, and the inputs of the order's `from` side exceed its outputs by exactly
the spent quantity.  So an order of a transfer that passes is valid, with a
positive `from`, and is consumed by `transfer_asset` by a quantity that
`consume` takes without a wrap or a panic.

The sums of the orders are `u64`s that wrap; the sums of
`is_input_and_output_consistent` are `u128`s, which sums of `u64` quantities do
not overflow, and are numbers here.
-/

namespace CodeChain

namespace Types

open Fault

/-- `OrderOnTransfer`: an order, what this transfer spends of it, and the
inputs and outputs that carry it. -/
structure OrderOnTransfer where
  order : Order
  spentQuantity : UInt64
  inputFromIndices : List ℕ
  inputFeeIndices : List ℕ
  outputFromIndices : List ℕ
  outputToIndices : List ℕ
  outputOwnedFeeIndices : List ℕ
  outputTransferredFeeIndices : List ℕ
  deriving DecidableEq, Repr

namespace OrderOnTransfer

/-- The input indices, chained as `verify_order_indices` walks them. -/
def inputIndices (orderTx : OrderOnTransfer) : List ℕ :=
  orderTx.inputFromIndices ++ orderTx.inputFeeIndices

/-- The output indices, chained as `verify_order_indices` and `transfer_asset`
walk them. -/
def outputIndices (orderTx : OrderOnTransfer) : List ℕ :=
  orderTx.outputFromIndices ++ orderTx.outputToIndices ++ orderTx.outputOwnedFeeIndices ++
    orderTx.outputTransferredFeeIndices

end OrderOnTransfer

/-! ### The checks of `Action::verify` -/

/-- The sums by `(asset_type, shard_id)` of `is_input_and_output_consistent`. -/
abbrev AssetSums := AList fun _ : H160 × ShardId => ℕ

/-- `*sum.entry(key).or_insert_with(Default::default) += quantity`. -/
def addQuantity (sum : AssetSums) (key : H160 × ShardId) (quantity : ℕ) : AssetSums :=
  sum.insert key ((sum.lookup key).getD 0 + quantity)

/-- Take an output off the sum of its asset; `none` when the asset has no sum
or too little. -/
def takeOutput (sum : AssetSums) (output : AssetTransferOutput) : Option AssetSums :=
  let key := (output.assetType, output.shardId)
  match sum.lookup key with
  | some current => if current < output.quantity.toNat then none else some (sum.insert key (current - output.quantity.toNat))
  | none => none

/-- `is_input_and_output_consistent`: the outputs of each asset add up to its
inputs. -/
def isInputAndOutputConsistent (inputs : List AssetTransferInput) (outputs : List AssetTransferOutput) : Bool :=
  let sum := inputs.foldl (fun sum input =>
    addQuantity sum (input.prevOut.assetType, input.prevOut.shardId) input.prevOut.quantity.toNat) ∅
  match outputs.foldlM takeOutput sum with
  | some sum => sum.entries.all fun entry => entry.2 == 0
  | none => false

/-- `check_duplication_in_prev_out`: the inputs, then the burns, each spends
an asset none before it spends. -/
def checkDuplicationInPrevOut (burns inputs : List AssetTransferInput) : Except (Fault SyntaxError) Unit := do
  let _ ← (inputs ++ burns).foldlM (fun (prevOutSet : List (H256 × ℕ)) input =>
    let prevOut := (input.prevOut.tracker, input.prevOut.index)
    if prevOut ∈ prevOutSet then fail (.duplicatedPreviousOutput input.prevOut.tracker input.prevOut.index)
    else pure (prevOut :: prevOutSet)) []

/-- One index of `verify_order_indices`: in range, and not named before. -/
def markIndex (len : ℕ) (check : List Bool) (idx : ℕ) : Except (Fault SyntaxError) (List Bool) :=
  if idx ≥ len ∨ check.getD idx false then fail .invalidOrderInOutIndices
  else pure (check.set idx true)

/-- `verify_order_indices`: no input or output is named twice by the orders. -/
def verifyOrderIndices (orders : List OrderOnTransfer) (inputLen outputLen : ℕ) :
    Except (Fault SyntaxError) Unit := do
  let _ ← orders.foldlM (fun (checks : List Bool × List Bool) orderInfo => do
    let inputCheck ← orderInfo.inputIndices.foldlM (markIndex inputLen) checks.1
    let outputCheck ← orderInfo.outputIndices.foldlM (markIndex outputLen) checks.2
    pure (inputCheck, outputCheck)) (List.replicate inputLen false, List.replicate outputLen false)

/-- `is_ratio_equal`: `from : fee = spent : fee_given`, in `u128`. -/
def isRatioEqual (quantityFrom fee spent feeGiven : UInt64) : Bool :=
  quantityFrom.toNat * feeGiven.toNat == fee.toNat * spent.toNat

/-- `is_ratio_greater_or_equal`: `from : to ≤ spent : output`, in `u128`. -/
def isRatioGreaterOrEqual (quantityFrom quantityTo spent output : UInt64) : Bool :=
  quantityFrom.toNat * output.toNat ≥ quantityTo.toNat * spent.toNat

/-- A loop of `verify_input_and_output_consistent_with_order` over the input
indices of one side of an order: the `u64` sum of the inputs, each of the
side's asset. -/
def sumInputs (inputs : List AssetTransferInput) (label : String) (assetType : H160) (shardId : ShardId)
    (indices : List ℕ) : Except (Fault SyntaxError) UInt64 :=
  indices.foldlM (fun sum idx => do
    let input ← expect inputs[idx]? "index out of bounds"
    if input.prevOut.assetType = assetType ∧ input.prevOut.shardId = shardId then
      pure (sum + input.prevOut.quantity)
    else fail (.invalidAssetTypesWithOrder label idx)) 0

/-- A loop over the output indices of one side of an order: the `u64` sum of
the outputs, each of the side's asset and owned by the maker, or for the fee
given, not. -/
def sumOutputs (order : Order) (outputs : List AssetTransferOutput) (label : String) (ownedByMaker : Bool)
    (assetType : H160) (shardId : ShardId) (indices : List ℕ) : Except (Fault SyntaxError) UInt64 :=
  indices.foldlM (fun sum idx => do
    let output ← expect outputs[idx]? "index out of bounds"
    let owned ← order.checkTransferOutput output
    if owned ≠ ownedByMaker then fail (.invalidAssetOwnerWithOrder label idx)
    else if output.assetType = assetType ∧ output.shardId = shardId then pure (sum + output.quantity)
    else fail (.invalidAssetTypesWithOrder label idx)) 0

/-- The body of the loop of `verify_input_and_output_consistent_with_order`,
for one order. -/
def checkOrderConsistent (inputs : List AssetTransferInput) (outputs : List AssetTransferOutput)
    (orderTx : OrderOnTransfer) : Except (Fault SyntaxError) Unit := do
  let order := orderTx.order
  failIf (orderTx.spentQuantity > order.assetQuantityFrom)
    (.invalidSpentQuantity order.assetQuantityFrom orderTx.spentQuantity)
  let inputQuantityFrom ← sumInputs inputs "INPUT FROM" order.assetTypeFrom order.shardIdFrom orderTx.inputFromIndices
  let inputQuantityFee ← sumInputs inputs "INPUT FEE" order.assetTypeFee order.shardIdFee orderTx.inputFeeIndices
  let outputQuantityFrom ← sumOutputs order outputs "OUTPUT FROM" true order.assetTypeFrom order.shardIdFrom
    orderTx.outputFromIndices
  let outputQuantityTo ← sumOutputs order outputs "OUTPUT TO" true order.assetTypeTo order.shardIdTo
    orderTx.outputToIndices
  let outputQuantityFeeRemaining ← sumOutputs order outputs "OUTPUT OWNED FEE" true order.assetTypeFee
    order.shardIdFee orderTx.outputOwnedFeeIndices
  let outputQuantityFeeGiven ← sumOutputs order outputs "OUTPUT TRANSFERRED FEE" false order.assetTypeFee
    order.shardIdFee orderTx.outputTransferredFeeIndices
  failIf (inputQuantityFrom ≤ outputQuantityFrom ∨ inputQuantityFrom - outputQuantityFrom ≠ orderTx.spentQuantity)
    .inconsistentTransactionInOutWithOrders
  failIf (!isRatioGreaterOrEqual order.assetQuantityFrom order.assetQuantityTo orderTx.spentQuantity outputQuantityTo)
    .inconsistentTransactionInOutWithOrders
  failIf (inputQuantityFee < outputQuantityFeeRemaining ∨
      inputQuantityFee - outputQuantityFeeRemaining ≠ outputQuantityFeeGiven ∨
      !isRatioEqual order.assetQuantityFrom order.assetQuantityFee orderTx.spentQuantity outputQuantityFeeGiven)
    .inconsistentTransactionInOutWithOrders

/-- `verify_input_and_output_consistent_with_order`. -/
def verifyInputAndOutputConsistentWithOrder (orders : List OrderOnTransfer) (inputs : List AssetTransferInput)
    (outputs : List AssetTransferOutput) : Except (Fault SyntaxError) Unit :=
  orders.forM (checkOrderConsistent inputs outputs)

/-- The `TransferAsset` arm of `Action::verify`. -/
def verifyTransferAsset (hash : Order → H256) (burns inputs : List AssetTransferInput)
    (outputs : List AssetTransferOutput) (orders : List OrderOnTransfer) : Except (Fault SyntaxError) Unit := do
  failIf (outputs.length > 512) (.tooManyOutputs outputs.length)
  failIf (!isInputAndOutputConsistent inputs outputs) .inconsistentTransactionInOut
  failIf (burns.any fun burn => burn.prevOut.quantity == 0) .zeroQuantity
  failIf (inputs.any fun input => input.prevOut.quantity == 0) .zeroQuantity
  checkDuplicationInPrevOut burns inputs
  failIf (outputs.any fun output => output.quantity == 0) .zeroQuantity
  orders.forM fun orderTx => orderTx.order.verify hash
  verifyOrderIndices orders inputs.length outputs.length
  verifyInputAndOutputConsistentWithOrder orders inputs outputs

/-! ### What a transfer that passes spends of its orders -/

/-- An order whose check passed spends a positive quantity, no more than its
`from`: the inputs of its `from` side exceed the outputs by it. -/
theorem checkOrderConsistent_spent {inputs : List AssetTransferInput} {outputs : List AssetTransferOutput}
    {orderTx : OrderOnTransfer} (checked : checkOrderConsistent inputs outputs orderTx = .ok ()) :
    0 < orderTx.spentQuantity ∧ orderTx.spentQuantity ≤ orderTx.order.assetQuantityFrom := by
  simp only [checkOrderConsistent, bind_eq_ok] at checked
  obtain ⟨_, inRange, inputQuantityFrom, -, _, -, outputQuantityFrom, -, _, -, _, -, _, -, _, balanced, -⟩ := checked
  have within := UInt64.not_lt.mp (failIf_eq_ok.mp inRange)
  obtain ⟨notMore, notSpent⟩ := not_or.mp (failIf_eq_ok.mp balanced)
  have more := UInt64.not_le.mp notMore
  have spent := not_not.mp notSpent
  refine ⟨?_, within⟩
  -- the `u64` difference of a larger and a smaller value does not wrap
  rw [← spent, UInt64.lt_iff_toNat_lt, UInt64.toNat_sub_of_le _ _ (UInt64.le_of_lt more), UInt64.toNat_zero]
  have := UInt64.lt_iff_toNat_lt.mp more
  omega

/-- Every order of a transfer that passes `Action::verify` is valid, and what
the transfer spends of it is positive and no more than its `from`. -/
theorem verifyTransferAsset_orders {hash : Order → H256} {burns inputs : List AssetTransferInput}
    {outputs : List AssetTransferOutput} {orders : List OrderOnTransfer}
    (verified : verifyTransferAsset hash burns inputs outputs orders = .ok ()) :
    ∀ orderTx ∈ orders, orderTx.order.verify hash = .ok () ∧ 0 < orderTx.spentQuantity ∧
      orderTx.spentQuantity ≤ orderTx.order.assetQuantityFrom := by
  intro orderTx member
  simp only [verifyTransferAsset, bind_eq_ok] at verified
  obtain ⟨_, -, _, -, _, -, _, -, _, -, _, -, _, ordersValid, _, -, consistent⟩ := verified
  have valid := forM_eq_ok.mp ordersValid orderTx member
  have spent := checkOrderConsistent_spent (forM_eq_ok.mp consistent orderTx member)
  exact ⟨valid, spent⟩

/-- A fill of a valid order with a positive `from` by a quantity no more than
it fills well, and `transfer_asset` fills every order of a transfer that passes
`Action::verify` so. -/
theorem consume_fillsWell_of_verify (hash : Order → H256) :
    (∀ (order : Order) (quantity : UInt64), order.verify hash = .ok () → 0 < order.assetQuantityFrom →
      quantity ≤ order.assetQuantityFrom →
      ∃ consumed, order.consume quantity = .ok consumed ∧ Order.FillsWell hash order quantity consumed) ∧
    ∀ burns inputs outputs orders, verifyTransferAsset hash burns inputs outputs orders = .ok () →
      ∀ orderTx ∈ orders, orderTx.order.verify hash = .ok () ∧ 0 < orderTx.order.assetQuantityFrom ∧
        orderTx.spentQuantity ≤ orderTx.order.assetQuantityFrom ∧
        ∃ consumed, orderTx.order.consume orderTx.spentQuantity = .ok consumed ∧
          Order.FillsWell hash orderTx.order orderTx.spentQuantity consumed := by
  have fills := fun (order : Order) (quantity : UInt64) (verified : order.verify hash = .ok ())
      (positive : 0 < order.assetQuantityFrom) (within : quantity ≤ order.assetQuantityFrom) =>
    Order.consume_fillsWell ((Order.verify_eq_ok_iff hash order).mp verified) positive within hash
  refine ⟨fills, fun burns inputs outputs orders verified orderTx member => ?_⟩
  obtain ⟨valid, spentPositive, within⟩ := verifyTransferAsset_orders verified orderTx member
  -- the quantity spent is positive, so `from` is too
  have positive := UInt64.lt_of_lt_of_le spentPositive within
  exact ⟨valid, positive, within, fills _ _ valid positive within⟩

/-- The maker offers `10` of asset `1` for `20` of asset `2`, with no fee. -/
def swapOrder : Order :=
  { assetTypeFrom := 1, assetTypeTo := 2, assetTypeFee := 3, shardIdFrom := 0, shardIdTo := 0, shardIdFee := 0,
    assetQuantityFrom := 10, assetQuantityTo := 20, assetQuantityFee := 0,
    originOutputs := [⟨100, 0, 1, 0, 10⟩], expiration := 1000,
    lockScriptHashFrom := 7, parametersFrom := [], lockScriptHashFee := 8, parametersFee := [] }

/-- The maker's `10` of asset `1` and the taker's `20` of asset `2` are
exchanged whole. -/
def swapOrderTx : OrderOnTransfer :=
  ⟨swapOrder, 10, [0], [], [], [0], [], []⟩

def swapInputs : List AssetTransferInput :=
  [⟨⟨100, 0, 1, 0, 10⟩, none, [], []⟩, ⟨⟨101, 0, 2, 0, 20⟩, none, [], []⟩]

def swapOutputs : List AssetTransferOutput :=
  [⟨7, [], 2, 0, 20⟩, ⟨9, [], 1, 0, 10⟩]

theorem consume_fillsWell_swap :
    ∃ consumed, swapOrder.consume 10 = .ok consumed ∧ Order.FillsWell (fun _ => 0) swapOrder 10 consumed :=
  ((consume_fillsWell_of_verify fun _ => 0).2 [] swapInputs swapOutputs [swapOrderTx] rfl swapOrderTx
    List.mem_cons_self).2.2.2

end Types

end CodeChain
