import CodeChain.State.WriteBack
import CodeChain.Lib.Faulty

/-!
# The state of a shard

`ShardLevelState` (`state/src/impls/shard_level.rs`) applies a shard
transaction to one shard.  It reads and writes the shard's asset schemes and
assets through the shard's `ShardCache`, over the trie of the shard's root, and
it opens a checkpoint of its own around every transaction, reverted when the
transaction fails.

Hashes are numbers, and the hash functions and the script machine come from a
`Runtime`.  Orders on transfers, and the compose and decompose transactions that
`Action::verify` rejects, are left out.
-/

namespace CodeChain

namespace State

/-- `ShardId`, a `u16`. -/
abbrev ShardId := ℕ

/-- A 160-bit hash: an asset type or a lock script hash. -/
abbrev H160 := ℕ

/-- A 256-bit hash: a tracker. -/
abbrev H256 := ℕ

abbrev Bytes := List UInt8

/-- `AssetOutPoint`: the asset an input spends, and what the input claims of it. -/
structure AssetOutPoint where
  tracker : H256
  index : ℕ
  assetType : H160
  shardId : ShardId
  quantity : ℕ
  deriving DecidableEq, Repr

/-- `AssetTransferInput`; the timelock is checked by the script machine. -/
structure AssetTransferInput where
  prevOut : AssetOutPoint
  lockScript : Bytes
  unlockScript : Bytes
  deriving DecidableEq, Repr

structure AssetTransferOutput where
  lockScriptHash : H160
  parameters : List Bytes
  assetType : H160
  shardId : ShardId
  quantity : ℕ
  deriving DecidableEq, Repr

structure AssetMintOutput where
  lockScriptHash : H160
  parameters : List Bytes
  supply : ℕ
  deriving DecidableEq, Repr

structure AssetWrapCCCOutput where
  lockScriptHash : H160
  parameters : List Bytes
  quantity : ℕ
  deriving DecidableEq, Repr

/-- `ShardTransaction`, without the network id that only `Action::verify`
reads. -/
inductive ShardTransaction (Address : Type)
  | mintAsset (shardId : ShardId) (metadata : String) (approver registrar : Option Address)
      (allowedScriptHashes : List H160) (output : AssetMintOutput)
  | transferAsset (burns inputs : List AssetTransferInput) (outputs : List AssetTransferOutput)
  | changeAssetScheme (shardId : ShardId) (assetType : H160) (seq : ℕ) (metadata : String)
      (approver registrar : Option Address) (allowedScriptHashes : List H160)
  | increaseAssetSupply (shardId : ShardId) (assetType : H160) (seq : ℕ) (output : AssetMintOutput)
  | unwrapCCC (burn : AssetTransferInput) (receiver : Address)
  | wrapCCC (shardId : ShardId) (txHash : H256) (output : AssetWrapCCCOutput)
  deriving DecidableEq, Repr

inductive ScriptResult
  | unlocked
  | burnt
  | fail
  deriving DecidableEq, Repr

inductive UnlockFailureReason
  | scriptShouldBeBurnt
  | scriptShouldNotBeBurnt
  | scriptError
  deriving DecidableEq, Repr

/-- What the state takes from outside: the hash functions, and the script
machine. -/
structure Runtime (Address : Type) where
  /-- `blake256` of the encoding of a shard transaction. -/
  hashTransaction : ShardTransaction Address → H256
  /-- `Blake::blake` of a tracker: the asset type a mint creates. -/
  assetTypeOf : H256 → H160
  /-- `Blake::blake` of a lock script. -/
  lockScriptHash : Bytes → H160
  /-- Whether a script decodes into instructions. -/
  decodes : Bytes → Bool
  /-- The script machine on the transaction, the unlock script, the asset's
  parameters, the lock script, the input and whether it is a burn; `none` is an
  error of the machine. -/
  execute : ShardTransaction Address → Bytes → List Bytes → Bytes → AssetTransferInput → Bool →
    Option ScriptResult

namespace ShardTransaction

variable {Address : Type}

/-- `ShardTransaction::tracker`. -/
def tracker (runtime : Runtime Address) : ShardTransaction Address → H256
  | wrapCCC _ txHash _ => txHash
  | transaction => runtime.hashTransaction transaction

/-- `ShardTransaction::related_shards`: for a transfer, the shards of its
burns and inputs, sorted and without repeats. -/
def relatedShards : ShardTransaction Address → List ShardId
  | transferAsset burns inputs _ =>
      let shards := burns.map (·.prevOut.shardId) ++ inputs.map (·.prevOut.shardId)
      (shards.insertionSort (· ≤ ·)).destutter (· ≠ ·)
  | mintAsset shardId .. => [shardId]
  | changeAssetScheme shardId .. => [shardId]
  | increaseAssetSupply shardId .. => [shardId]
  | unwrapCCC burn _ => [burn.prevOut.shardId]
  | wrapCCC shardId .. => [shardId]

end ShardTransaction

/-- The errors of `RuntimeError` that the modelled code returns. -/
inductive RuntimeError (Address : Type)
  | assetNotFound (shardId : ShardId) (tracker : H256) (index : ℕ)
  | assetSchemeDuplicated (tracker : H256) (shardId : ShardId)
  | assetSchemeNotFound (assetType : H160) (shardId : ShardId)
  | assetSupplyOverflow
  | failedToUnlock (shardId : ShardId) (tracker : H256) (index : ℕ) (reason : UnlockFailureReason)
  | insufficientBalance (address : Address) (balance cost : ℕ)
  | insufficientPermission
  | invalidAssetQuantity (shardId : ShardId) (tracker : H256) (index expected got : ℕ)
  | invalidScript
  | invalidSeq (expected found : ℕ)
  | invalidSeqOfAssetScheme (assetType : H160) (shardId : ShardId) (expected actual : ℕ)
  | invalidShardId (shardId : ShardId)
  | invalidTransferDestination
  | nonActiveAccount (address : Address) (name : String)
  | notApproved (approver : Address)
  | scriptHashMismatch (expected found : H160)
  | scriptNotAllowed (hash : H160)
  | unexpectedAssetType (index : ℕ) (expected found : H160)
  deriving DecidableEq, Repr

/-- `AssetScheme`, without the pool that only compose uses. -/
structure AssetScheme (Address : Type) where
  metadata : String
  supply : ℕ
  approver : Option Address
  registrar : Option Address
  allowedScriptHashes : List H160
  seq : ℕ
  deriving DecidableEq, Repr

/-- `AssetScheme::default`. -/
instance {Address : Type} : Inhabited (AssetScheme Address) :=
  ⟨⟨"", 0, none, none, [], 0⟩⟩

namespace AssetScheme

variable {Address : Type}

def isAllowedScriptHash (scheme : AssetScheme Address) (lockScriptHash : H160) : Bool :=
  scheme.allowedScriptHashes.isEmpty || scheme.allowedScriptHashes.contains lockScriptHash

/-- `AssetScheme::increase_supply`: the changed scheme and the supply before. -/
def increaseSupply (scheme : AssetScheme Address) (quantity : ℕ) :
    Except (Fault (RuntimeError Address)) (AssetScheme Address × ℕ) :=
  -- `std::u64::MAX - self.supply`
  let headroom := 18446744073709551615 - scheme.supply
  if quantity > headroom then .error (.error .assetSupplyOverflow)
  else .ok ({ scheme with supply := scheme.supply + quantity }, scheme.supply)

/-- `AssetScheme::reduce_supply`: the changed scheme and the supply before. -/
def reduceSupply {ε : Type} (scheme : AssetScheme Address) (quantity : ℕ) :
    Except (Fault ε) (AssetScheme Address × ℕ) := do
  Fault.ensure (scheme.supply ≥ quantity) "AssetScheme supply shouldn't be depleted"
  pure ({ scheme with supply := scheme.supply - quantity }, scheme.supply)

end AssetScheme

/-- `OwnedAsset`: an asset, its lock, and the order it is bound to. -/
structure OwnedAsset where
  assetType : H160
  lockScriptHash : H160
  parameters : List Bytes
  quantity : ℕ
  orderHash : Option H256
  deriving DecidableEq, Repr

/-- `ShardCache`: the write-back caches of the asset schemes, by asset type,
and of the assets, by tracker and index. -/
structure ShardCache (Address : Type) where
  assetScheme : WriteBack H160 (AssetScheme Address)
  asset : WriteBack (H256 × ℕ) OwnedAsset

namespace ShardCache

variable {Address : Type}

/-- `ShardCache::default`. -/
def new : ShardCache Address :=
  ⟨.new, .new⟩

def checkpoint (cache : ShardCache Address) : ShardCache Address :=
  ⟨cache.assetScheme.checkpoint, cache.asset.checkpoint⟩

def discardCheckpoint (cache : ShardCache Address) : ShardCache Address :=
  ⟨cache.assetScheme.discardCheckpoint, cache.asset.discardCheckpoint⟩

def revertToCheckpoint (cache : ShardCache Address) : ShardCache Address :=
  ⟨cache.assetScheme.revertToCheckpoint, cache.asset.revertToCheckpoint⟩

end ShardCache

/-- The items in the trie of a shard root. -/
structure ShardTrie (Address : Type) where
  assetSchemes : H160 → Option (AssetScheme Address)
  assets : H256 × ℕ → Option OwnedAsset

/-- `ShardLevelState`: a shard's trie, the shard's cache, and the ids of the
checkpoints it opened, the newest first. -/
structure ShardLevelState (Address : Type) where
  shardId : ShardId
  trie : ShardTrie Address
  cache : ShardCache Address
  idOfCheckpoints : List ℕ

/-- The computations of a shard state: they may fail with a `RuntimeError`,
and what they wrote before stays until a revert. -/
abbrev ShardM (Address α : Type) := Faulty (ShardLevelState Address) (RuntimeError Address) α

/-- `assert_eq!` in a computation over a state. -/
def assertEq {σ ε : Type} {α : Type} [DecidableEq α] (left right : α) : Faulty σ ε Unit :=
  liftM (Fault.assertEq left right : Except (Fault ε) Unit)

/-- `TRANSACTION_CHECKPOINT`. -/
def transactionCheckpoint : ℕ := 456

namespace ShardLevelState

variable {Address : Type} [DecidableEq Address]

def shardIdOf : ShardM Address ShardId := do
  pure (← get).shardId

/-- `asset_scheme`: read through the cache, which keeps what it loaded. -/
def assetScheme (assetType : H160) : ShardM Address (Option (AssetScheme Address)) :=
  modifyGet fun state =>
    let (found, cache) := state.cache.assetScheme.get state.trie.assetSchemes assetType
    (found, { state with cache := { state.cache with assetScheme := cache } })

/-- `asset`: read through the cache, which keeps what it loaded. -/
def asset (tracker : H256) (index : ℕ) : ShardM Address (Option OwnedAsset) :=
  modifyGet fun state =>
    let (found, cache) := state.cache.asset.get state.trie.assets (tracker, index)
    (found, { state with cache := { state.cache with asset := cache } })

/-- `get_asset_scheme_mut`: the scheme, marked as changed; a missing scheme
becomes the default one. -/
def getAssetSchemeMut (assetType : H160) : ShardM Address (AssetScheme Address) :=
  modifyGet fun state =>
    let (scheme, cache) := state.cache.assetScheme.getMut state.trie.assetSchemes assetType
    (scheme, { state with cache := { state.cache with assetScheme := cache } })

/-- A write through the reference that `get_asset_scheme_mut` returned. -/
def putAssetScheme (assetType : H160) (scheme : AssetScheme Address) : ShardM Address Unit :=
  modify fun state =>
    { state with cache := { state.cache with assetScheme := state.cache.assetScheme.put assetType scheme } }

def createAssetScheme (assetType : H160) (scheme : AssetScheme Address) : ShardM Address Unit :=
  Faulty.update fun state => do
    let created ← state.cache.assetScheme.create assetType scheme
    pure ((), { state with cache := { state.cache with assetScheme := created } })

def createAsset (tracker : H256) (index : ℕ) (assetType lockScriptHash : H160)
    (parameters : List Bytes) (quantity : ℕ) (orderHash : Option H256) : ShardM Address Unit :=
  Faulty.update fun state => do
    let created ← state.cache.asset.create (tracker, index)
      ⟨assetType, lockScriptHash, parameters, quantity, orderHash⟩
    pure ((), { state with cache := { state.cache with asset := created } })

def killAsset (tracker : H256) (index : ℕ) : ShardM Address Unit :=
  modify fun state =>
    { state with cache := { state.cache with asset := state.cache.asset.remove (tracker, index) } }

/-! ## Checkpoints -/

def createCheckpoint (id : ℕ) : ShardM Address Unit :=
  modify fun state =>
    { state with idOfCheckpoints := id :: state.idOfCheckpoints, cache := state.cache.checkpoint }

/-- Pop the newest checkpoint id, which must be `id`. -/
def popCheckpoint (id : ℕ) : ShardM Address Unit :=
  Faulty.update fun state => do
    let expected ← Fault.expect state.idOfCheckpoints.head? "The checkpoint must exist"
    Fault.assertEq expected id
    pure ((), { state with idOfCheckpoints := state.idOfCheckpoints.tail })

def discardCheckpoint (id : ℕ) : ShardM Address Unit := do
  popCheckpoint id
  modify fun state => { state with cache := state.cache.discardCheckpoint }

def revertToCheckpoint (id : ℕ) : ShardM Address Unit := do
  popCheckpoint id
  modify fun state => { state with cache := state.cache.revertToCheckpoint }

/-! ## Checks -/

def approvedByRegistrar (assetType : H160) (sender : Address) (approvers : List Address) :
    ShardM Address Bool := do
  let some assetScheme ← assetScheme assetType
    | throw (.error (.assetSchemeNotFound assetType (← shardIdOf)))
  match assetScheme.registrar with
  | some registrar => pure (registrar == sender || approvers.contains registrar)
  | none => pure false

/-- `check_input_asset`: the asset the input spends, and whether the registrar
approved the transaction. -/
def checkInputAsset (input : AssetTransferInput) (sender : Address) (approvers : List Address) :
    ShardM Address (OwnedAsset × Bool) := do
  let ⟨tracker, index, assetType, shardId, quantity⟩ := input.prevOut
  assertEq (← shardIdOf) shardId
  let approvedByRegulator ← approvedByRegistrar assetType sender approvers
  if !approvedByRegulator then
    let some assetScheme ← assetScheme assetType
      | throw (.error (.assetSchemeNotFound assetType shardId))
    if let some approver := assetScheme.approver then
      if sender != approver && !approvers.contains approver then
        throw (.error (.notApproved approver))
  let some asset ← asset tracker index
    | throw (.error (.assetNotFound shardId tracker index))
  if asset.quantity != quantity then
    throw (.error (.invalidAssetQuantity shardId tracker index asset.quantity quantity))
  if asset.assetType != assetType then
    throw (.error (.unexpectedAssetType index asset.assetType assetType))
  pure (asset, approvedByRegulator)

def checkOutputScriptHash (output : AssetTransferOutput) (sender : Address)
    (approvers : List Address) : ShardM Address Unit := do
  let shardId ← shardIdOf
  assertEq shardId output.shardId
  let some assetScheme ← assetScheme output.assetType
    | throw (.error (.assetSchemeNotFound output.assetType shardId))
  -- the registrar may send to any lock script
  let byRegistrar := match assetScheme.registrar with
    | some registrar => sender == registrar || approvers.contains registrar
    | none => false
  if !byRegistrar && !assetScheme.isAllowedScriptHash output.lockScriptHash then
    throw (.error (.scriptNotAllowed output.lockScriptHash))

/-- `check_and_run_input_script`, for an input of no order. -/
def checkAndRunInputScript (runtime : Runtime Address) (transaction : ShardTransaction Address)
    (input : AssetTransferInput) (burn : Bool) (sender : Address) (approvers : List Address) :
    ShardM Address Unit := do
  let (asset, fromRegulator) ← checkInputAsset input sender approvers
  -- scripts do not run when the registrar sends the transaction
  if !fromRegulator then
    let found := runtime.lockScriptHash input.lockScript
    if asset.lockScriptHash != found then
      throw (.error (.scriptHashMismatch asset.lockScriptHash found))
    if !(runtime.decodes input.lockScript && runtime.decodes input.unlockScript) then
      throw (.error .invalidScript)
    let scriptResult := runtime.execute transaction input.unlockScript asset.parameters
      input.lockScript input burn
    let failure : Option UnlockFailureReason := match scriptResult, burn with
      | some .burnt, true => none
      | some .burnt, false => some .scriptShouldBeBurnt
      | some .unlocked, false => none
      | some .unlocked, true => some .scriptShouldNotBeBurnt
      | some .fail, _ => some .scriptError
      | none, _ => some .scriptError
    if let some reason := failure then
      throw (.error (.failedToUnlock (← shardIdOf) input.prevOut.tracker input.prevOut.index reason))

/-! ## Transactions -/

def mintAsset (runtime : Runtime Address) (tracker : H256) (metadata : String)
    (output : AssetMintOutput) (approver : Option Address) (approvers : List Address)
    (registrar : Option Address) (allowedScriptHashes : List H160) (sender : Address)
    (shardUsers : List Address) : ShardM Address Unit := do
  -- the shard users must include the sender or an approver
  if !shardUsers.isEmpty && shardUsers.all (fun user => user != sender && !approvers.contains user) then
    throw (.error .insufficientPermission)
  let assetType := runtime.assetTypeOf tracker
  if (← assetScheme assetType).isSome then
    throw (.error (.assetSchemeDuplicated tracker (← shardIdOf)))
  createAssetScheme assetType ⟨metadata, output.supply, approver, registrar, allowedScriptHashes, 0⟩
  createAsset tracker 0 assetType output.lockScriptHash output.parameters output.supply none

/-- `transfer_asset`, for a transfer without orders: every input and burn of
this shard is checked before any is spent. -/
def transferAsset (runtime : Runtime Address) (transaction : ShardTransaction Address)
    (sender : Address) (approvers : List Address) (burns inputs : List AssetTransferInput)
    (outputs : List AssetTransferOutput) : ShardM Address Unit := do
  let shardId ← shardIdOf
  (inputs.map (·, false) ++ burns.map (·, true)).forM fun (input, burn) =>
    if input.prevOut.shardId != shardId then pure ()
    else checkAndRunInputScript runtime transaction input burn sender approvers
  (inputs ++ burns).forM fun input =>
    if input.prevOut.shardId != shardId then pure ()
    else killAsset input.prevOut.tracker input.prevOut.index
  let tracker := transaction.tracker runtime
  outputs.zipIdx.forM fun (output, index) =>
    if output.shardId != shardId then pure ()
    else do
      checkOutputScriptHash output sender approvers
      createAsset tracker index output.assetType output.lockScriptHash output.parameters
        output.quantity none
  burns.forM fun burn =>
    if burn.prevOut.shardId != shardId then pure ()
    else do
      let assetScheme ← getAssetSchemeMut burn.prevOut.assetType
      let (reduced, _) ← liftM (assetScheme.reduceSupply burn.prevOut.quantity :
        Except (Fault (RuntimeError Address)) _)
      putAssetScheme burn.prevOut.assetType reduced

def changeAssetScheme (sender : Address) (approvers : List Address) (assetType : H160) (seq : ℕ)
    (metadata : String) (approver registrar : Option Address) (allowedScriptHashes : List H160) :
    ShardM Address Unit := do
  if !(← approvedByRegistrar assetType sender approvers) then
    throw (.error .insufficientPermission)
  let assetScheme ← getAssetSchemeMut assetType
  if assetScheme.seq != seq then
    throw (.error (.invalidSeqOfAssetScheme assetType (← shardIdOf) assetScheme.seq seq))
  putAssetScheme assetType
    { assetScheme with metadata, approver, registrar, allowedScriptHashes, seq := assetScheme.seq + 1 }

def increaseAssetSupply (tracker : H256) (seq : ℕ) (sender : Address) (approvers : List Address)
    (assetType : H160) (output : AssetMintOutput) : ShardM Address Unit := do
  if !(← approvedByRegistrar assetType sender approvers) then
    throw (.error .insufficientPermission)
  liftM (Fault.ensure (output.supply > 0)
    "Supply increasing quantity must be specified and greater than 0" :
    Except (Fault (RuntimeError Address)) Unit)
  let assetScheme ← getAssetSchemeMut assetType
  if seq != assetScheme.seq then
    throw (.error (.invalidSeqOfAssetScheme assetType (← shardIdOf) assetScheme.seq seq))
  let (increased, _) ← liftM (assetScheme.increaseSupply output.supply)
  putAssetScheme assetType { increased with seq := increased.seq + 1 }
  createAsset tracker 0 assetType output.lockScriptHash output.parameters output.supply none

/-- `wrap_ccc`: the wrapped CCC of a shard are the assets of type zero. -/
def wrapCCC (txHash : H256) (lockScriptHash : H160) (parameters : List Bytes) (quantity : ℕ) :
    ShardM Address Unit := do
  let assetType : H160 := 0
  if (← assetScheme assetType).isNone then
    createAssetScheme assetType ⟨"", 0, none, none, [], 0⟩
  let assetScheme ← getAssetSchemeMut assetType
  let (increased, _) ← liftM (assetScheme.increaseSupply quantity)
  putAssetScheme assetType increased
  createAsset txHash 0 assetType lockScriptHash parameters quantity none

def unwrapCCC (runtime : Runtime Address) (transaction : ShardTransaction Address) (sender : Address)
    (burn : AssetTransferInput) : ShardM Address Unit := do
  -- wrapped CCC have no approvers
  checkAndRunInputScript runtime transaction burn true sender []
  killAsset burn.prevOut.tracker burn.prevOut.index
  let assetType : H160 := 0
  let assetScheme ← getAssetSchemeMut assetType
  let (reduced, _) ← liftM (assetScheme.reduceSupply burn.prevOut.quantity :
    Except (Fault (RuntimeError Address)) _)
  putAssetScheme assetType reduced

def applyInternal (runtime : Runtime Address) (transaction : ShardTransaction Address)
    (sender : Address) (shardUsers approvers : List Address) : ShardM Address Unit := do
  let shardId ← shardIdOf
  match transaction with
  | .mintAsset shard metadata approver registrar allowedScriptHashes output =>
      assertEq shard shardId
      mintAsset runtime (transaction.tracker runtime) metadata output approver approvers registrar
        allowedScriptHashes sender shardUsers
  | .transferAsset burns inputs outputs =>
      transferAsset runtime transaction sender approvers burns inputs outputs
  | .changeAssetScheme shard assetType seq metadata approver registrar allowedScriptHashes =>
      assertEq shard shardId
      changeAssetScheme sender approvers assetType seq metadata approver registrar allowedScriptHashes
  | .increaseAssetSupply shard assetType seq output =>
      assertEq shard shardId
      increaseAssetSupply (transaction.tracker runtime) seq sender approvers assetType output
  | .unwrapCCC burn _ =>
      assertEq burn.prevOut.shardId shardId
      unwrapCCC runtime transaction sender burn
  | .wrapCCC shard txHash output =>
      assertEq shard shardId
      wrapCCC txHash output.lockScriptHash output.parameters output.quantity

/-- `ShardState::apply`: a transaction under a checkpoint of its own, discarded
when it succeeds and reverted when it fails.  A panic unwinds past both. -/
def apply (runtime : Runtime Address) (transaction : ShardTransaction Address) (sender : Address)
    (shardUsers approvers : List Address) : ShardM Address Unit := do
  createCheckpoint transactionCheckpoint
  let result ← (applyInternal runtime transaction sender shardUsers approvers).attempt
  match result with
  | .ok () => discardCheckpoint transactionCheckpoint
  | .error (.error err) =>
      revertToCheckpoint transactionCheckpoint
      throw (.error err)
  | .error (.panic message) => throw (.panic message)

end ShardLevelState

end State

end CodeChain
