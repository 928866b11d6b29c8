import CodeChain.State.Shard
import CodeChain.VM.Executor

/-!
# The scripts of an input bound to an order

`ShardLevelState::check_and_run_input_script` (`state/src/impls/shard_level.rs`)
runs the lock and unlock scripts of an input on the script machine.  When the
input belongs to an order of the transfer, the signatures sign the order
rather than the transaction, unless the asset it spends is bound to the same
order, in which case no script runs.

`PartialHashing for Order` (`types/src/transaction/shard.rs`) asserts that the
tag signs all inputs and all outputs, and that the input is not burnt.  The
tag comes from the unlock script, so the spender of the asset chooses it: a tag
without these flags makes the assertion fail before any signature is checked.
An order is given by its hash.
-/

namespace CodeChain

namespace State

open Fault VM

/-- `impl PartialHashing for Order`: the order's own hash, for a tag that signs
all inputs and outputs and an input that is not burnt; otherwise an
`assert!` fails. -/
def orderHashPartially (orderHash : H256) : PartialHashing AssetTransferInput H256 :=
  fun tag _ isBurn =>
    if !tag.signAllInputs then .error (.panic "assertion failed: tag.sign_all_inputs")
    else if !tag.signAllOutputs then .error (.panic "assertion failed: tag.sign_all_outputs")
    else if isBurn then .error (.panic "assertion failed: !is_burn")
    else .ok orderHash

/-- What running the scripts takes from outside: the hash functions and the
signature check, `Blake::blake` of a lock script, and the chain's time
information at the parent block. -/
structure ScriptContext where
  crypto : Crypto H256
  lockScriptHash : Bytes → H160
  client : ChainTimeInfo H256
  parentBlockNumber : UInt64
  parentBlockTimestamp : UInt64

/-- `check_and_run_input_script`'s verdict on what the script machine
returned: `None` when the input is unlocked as it should be. -/
def unlockFailure : Except (Fault VM.RuntimeError) VM.ScriptResult → Bool → Option UnlockFailureReason
  | .ok .burnt, true => none
  | .ok .burnt, false => some .scriptShouldBeBurnt
  | .ok .unlocked, false => none
  | .ok .unlocked, true => some .scriptShouldNotBeBurnt
  | _, _ => some .scriptError

namespace ShardLevelState

variable {Address : Type} [DecidableEq Address]

/-- `check_and_run_input_script` with the script machine, for an input that
may belong to an order of the given hash.  A panic of the machine panics the
node. -/
def checkAndRunOrderInputScript (context : ScriptContext)
    (transaction : PartialHashing AssetTransferInput H256) (input : AssetTransferInput)
    (order : Option H256) (burn : Bool) (sender : Address) (approvers : List Address) :
    ShardM Address Unit := do
  let (asset, fromRegulator) ← checkInputAsset input sender approvers
  -- scripts do not run when the registrar sends the transaction
  if fromRegulator then return
  let toHash ← match order with
    | some orderHash =>
      -- the asset is bound to the same order: no script runs
      if asset.orderHash = some orderHash then return
      pure (orderHashPartially orderHash)
    | none => pure transaction
  let found := context.lockScriptHash input.lockScript
  if asset.lockScriptHash != found then
    throw (.error (.scriptHashMismatch asset.lockScriptHash found))
  match decode input.lockScript, decode input.unlockScript with
  | .ok lockScript, .ok unlockScript =>
    let environment : Environment AssetTransferInput H256 H256 :=
      ⟨context.crypto, toHash, input, (·.prevOut.tracker), burn, context.client,
        context.parentBlockNumber, context.parentBlockTimestamp⟩
    let scriptResult := execute environment unlockScript asset.parameters lockScript Config.default
    if let .error (.panic message) := scriptResult then throw (.panic message)
    if let some reason := unlockFailure scriptResult burn then
      throw (.error (.failedToUnlock (← shardIdOf) input.prevOut.tracker input.prevOut.index reason))
  | _, _ => throw (.error .invalidScript)

/-! ### A tag that does not sign all inputs -/

/-- The lock script `PUSHB 64 <public key> CHKSIG`: the asset is unlocked by a
signature of the key. -/
def payToPublicKey (pubkey : Bytes) : Bytes :=
  [opPushB, 64] ++ pubkey ++ [opChkSig]

theorem decode_payToPublicKey {pubkey : Bytes} (sized : pubkey.length = 64) :
    decode (payToPublicKey pubkey) = .ok [.pushB pubkey, .chkSig] := by
  have pushed := decodeOne_pushB pubkey [opChkSig] (by omega)
  rw [sized, show UInt8.ofNat 64 = 64 from rfl] at pushed
  have checked : decode [opChkSig] = .ok [.chkSig] := by
    rw [decode_cons_of_decodeOne (decodeOne_chkSig []), decode_nil]
    rfl
  rw [payToPublicKey, List.append_assoc, List.cons_append, List.cons_append, List.nil_append,
    decode_cons_of_decodeOne pushed, checked]
  rfl

/-- The unlock script `PUSHB 1 0x00`: a tag byte that signs neither all inputs
nor all outputs, and no signature. -/
def partialTagUnlock : Bytes :=
  [opPushB, 1, 0]

theorem decode_partialTagUnlock : decode partialTagUnlock = .ok [.pushB [0]] := by
  have pushed := decodeOne_pushB [0] [] (by decide)
  rw [show UInt8.ofNat [(0 : UInt8)].length = 1 from rfl, List.append_nil] at pushed
  rw [partialTagUnlock, decode_cons_of_decodeOne pushed, decode_nil]
  rfl

/-- The tag of the byte 0: no filter, and neither flag. -/
theorem tryNew_zero : Tag.tryNew [0] = .ok ⟨false, false, 0, [], [0]⟩ :=
  rfl

/-- The scripts of a key-locked asset, with the partial tag pushed before the
key, panic on an order: `CHKSIG` asks the order for the hash of the tag. -/
theorem execute_partialTag_panics (environment : Environment AssetTransferInput H256 H256)
    (orderHash : H256) (ordered : environment.tx = orderHashPartially orderHash)
    {pubkey : Bytes} (sized : pubkey.length = 64) :
    Panics (execute environment [.pushB [0]] [] [.pushB pubkey, .chkSig] Config.default) := by
  let script : List Instruction := [.pushB [0]] ++ ([] : List Instruction) ++ [.pushB pubkey, .chkSig]
  let tagged : Stack := ⟨[[0]], 1, Config.default⟩
  let keyed : Stack := ⟨[[0], pubkey], 1 + pubkey.length, Config.default⟩
  have length : script.length = 3 := rfl
  have unlockValid : isValidUnlockScript [.pushB [0]] = true := rfl
  have unlockCheap : hasExpensiveOpcodes [.pushB [0]] = false := rfl
  -- the two pushes fit in memory; then `CHKSIG` panics on the tag
  have pushTag : step environment script[0] (Stack.new Config.default) = .ok (.go tagged 0) :=
    pushNext_of_fits (by decide)
  have pushKey : step environment script[1] tagged = .ok (.go keyed 0) := by
    refine pushNext_of_fits ?_
    simp [tagged, Config.default, sized]
  have signs : Panics (environment.tx ⟨false, false, 0, [], [0]⟩ environment.cur environment.burn) := by
    rw [ordered]
    exact ⟨_, rfl⟩
  have check : Panics (step environment script[2] keyed) :=
    step_chkSig_panics (show keyed.stack = [] ++ [[0], pubkey] from rfl) sized tryNew_zero signs
  unfold execute
  rw [if_neg (by simp [unlockValid]), if_neg (by simp [unlockCheap])]
  show Panics (runFrom environment script 0 (Stack.new Config.default))
  rw [runFrom_of_go (by omega) pushTag, runFrom_of_go (by omega) pushKey]
  exact runFrom_panics_of_step (by omega) check

/-- An input of an order whose asset is bound to no order or another one,
locked to a public key: an unlock script that pushes the tag byte 0 panics the
node, whoever sends the transaction and whatever the signature. -/
theorem order_input_partial_tag_panics (context : ScriptContext)
    (transaction : PartialHashing AssetTransferInput H256) (sender : Address)
    (approvers : List Address) (state after : ShardLevelState Address) (input : AssetTransferInput)
    (asset : OwnedAsset) (orderHash : H256)
    (checked : (checkInputAsset input sender approvers).run state = (.ok (asset, false), after))
    (otherOrder : asset.orderHash ≠ some orderHash) (unparameterised : asset.parameters = [])
    {pubkey : Bytes} (sized : pubkey.length = 64) (locked : input.lockScript = payToPublicKey pubkey)
    (unlocking : input.unlockScript = partialTagUnlock)
    (hashed : asset.lockScriptHash = context.lockScriptHash input.lockScript) :
    Panics ((checkAndRunOrderInputScript context transaction input (some orderHash) false sender
      approvers).run state).1 := by
  obtain ⟨message, executed⟩ := execute_partialTag_panics
    ⟨context.crypto, orderHashPartially orderHash, input, (·.prevOut.tracker), false, context.client,
      context.parentBlockNumber, context.parentBlockTimestamp⟩ orderHash rfl sized
  refine ⟨message, ?_⟩
  unfold checkAndRunOrderInputScript
  rw [Faulty.run_bind, checked]
  simp [otherOrder, hashed, locked, unlocking, decode_payToPublicKey sized, decode_partialTagUnlock,
    unparameterised, executed]

/-- A shard with, at tracker 0, one unit of asset type 0 locked to the zero
key and bound to no order, under a scheme with no registrar or approver. -/
def zeroKeyShard : ShardLevelState ℕ where
  shardId := 0
  trie := ⟨fun _ => some default, fun _ => some ⟨0, 0, [], 1, none⟩⟩
  cache := .new
  idOfCheckpoints := []

/-- The input that spends it. -/
def zeroKeyInput : AssetTransferInput :=
  ⟨⟨0, 0, 0, 0, 1⟩, payToPublicKey (List.replicate 64 0), partialTagUnlock⟩

/-- The primitives of the example: no hash or signature ever matters. -/
def constantContext : ScriptContext :=
  ⟨⟨fun _ => [], fun _ => [], fun _ => [], fun _ => [], fun _ => [], fun _ _ _ => false⟩,
    fun _ => 0, ⟨fun _ _ => none, fun _ _ => none⟩, 0, 0⟩

theorem order_input_partial_tag_panics_at_zero_key :
    (checkInputAsset zeroKeyInput 0 []).run zeroKeyShard =
        (.ok (⟨0, 0, [], 1, none⟩, false), ((checkInputAsset zeroKeyInput 0 []).run zeroKeyShard).2) ∧
      (⟨0, 0, [], 1, none⟩ : OwnedAsset).orderHash ≠ some 1 ∧
      (⟨0, 0, [], 1, none⟩ : OwnedAsset).parameters = [] ∧
      (List.replicate 64 (0 : UInt8)).length = 64 ∧
      zeroKeyInput.lockScript = payToPublicKey (List.replicate 64 0) ∧
      zeroKeyInput.unlockScript = partialTagUnlock ∧
      (⟨0, 0, [], 1, none⟩ : OwnedAsset).lockScriptHash =
        constantContext.lockScriptHash zeroKeyInput.lockScript ∧
      Panics ((checkAndRunOrderInputScript constantContext (fun _ _ _ => .ok 0) zeroKeyInput (some 1)
        false 0 []).run zeroKeyShard).1 :=
  have checked : (checkInputAsset zeroKeyInput 0 []).run zeroKeyShard =
      (.ok (⟨0, 0, [], 1, none⟩, false), ((checkInputAsset zeroKeyInput 0 []).run zeroKeyShard).2) := rfl
  ⟨checked, by decide, rfl, by simp, rfl, rfl, rfl,
    order_input_partial_tag_panics constantContext (fun _ _ _ => .ok 0) 0 [] zeroKeyShard _ zeroKeyInput
      ⟨0, 0, [], 1, none⟩ 1 checked (by decide) rfl (by simp) rfl rfl rfl⟩

end ShardLevelState

end State

end CodeChain
