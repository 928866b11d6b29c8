import CodeChain.State.Shard
import CodeChain.Lib.AListMap

/-!
# The top-level state

`TopLevelState` (`state/src/impls/top_level.rs`) applies a transaction to the
whole state: it charges the fee to the signer, then runs the action.  It reads
and writes accounts and shard records through the top cache, and the assets of
each shard through a `ShardCache` per shard, created the first time a shard is
written.

A checkpoint of the top-level state is a checkpoint of the top cache and of
every shard cache that exists at that time.  `apply` opens the checkpoint
`FEE_CHECKPOINT` around the whole transaction and `ACTION_CHECKPOINT` around
its action, and reverts each when what it encloses fails.

Only the account and shard caches of the top cache are modelled, and an
account has no regular key: the fee payer is the signer's address.  The
approvals of a transaction are given as the addresses they recover to.
-/

namespace CodeChain

namespace State

/-- `Account`, without its regular key. -/
structure Account where
  balance : ℕ
  seq : ℕ
  deriving DecidableEq, Repr

/-- `Account::default`. -/
instance : Inhabited Account :=
  ⟨⟨0, 0⟩⟩

/-- `Account::is_active`: not null. -/
def Account.isActive (account : Account) : Bool :=
  !(account.balance == 0 && account.seq == 0)

/-- `Account::sub_balance`. -/
def Account.subBalance {ε : Type} (account : Account) (decrement : ℕ) :
    Except (Fault ε) Account := do
  Fault.ensure (account.balance ≥ decrement) "assertion failed: self.balance >= x"
  pure { account with balance := account.balance - decrement }

/-- `Shard`: the root of the shard's trie, its owners and its users. -/
structure Shard (Address : Type) where
  root : H256
  owners : List Address
  users : List Address
  deriving DecidableEq, Repr

/-- The account and shard caches of `TopCache`. -/
structure TopCache (Address : Type) [DecidableEq Address] where
  account : WriteBack Address Account
  shard : WriteBack ShardId (Shard Address)

/-- The items in the trie of the state root, and the trie of each shard root. -/
structure TopTrie (Address : Type) where
  accounts : Address → Option Account
  shards : ShardId → Option (Shard Address)
  shardTrie : H256 → ShardTrie Address

/-- `TopLevelState`: the trie, the top cache, the shard caches created so far,
and the ids of the open checkpoints, the newest first. -/
structure TopLevelState (Address : Type) [DecidableEq Address] where
  trie : TopTrie Address
  topCache : TopCache Address
  shardCaches : AList fun _ : ShardId => ShardCache Address
  idOfCheckpoints : List ℕ

/-- The actions of `Action` that are modelled.  The approvals of an asset
action are the addresses they recover to. -/
inductive Action (Address : Type)
  | mintAsset (shardId : ShardId) (metadata : String) (approver registrar : Option Address)
      (allowedScriptHashes : List H160) (output : AssetMintOutput) (approvers : List Address)
  | transferAsset (burns inputs : List AssetTransferInput) (outputs : List AssetTransferOutput)
      (approvers : List Address)
  | changeAssetScheme (shardId : ShardId) (assetType : H160) (seq : ℕ) (metadata : String)
      (approver registrar : Option Address) (allowedScriptHashes : List H160)
      (approvers : List Address)
  | increaseAssetSupply (shardId : ShardId) (assetType : H160) (seq : ℕ) (output : AssetMintOutput)
      (approvers : List Address)
  | unwrapCCC (burn : AssetTransferInput) (receiver : Address)
  | pay (receiver : Address) (quantity : ℕ)
  | wrapCCC (shardId : ShardId) (lockScriptHash : H160) (parameters : List Bytes) (quantity : ℕ)
      (payer : Address)
  deriving DecidableEq, Repr

/-- `Transaction`, without the network id. -/
structure Transaction (Address : Type) where
  seq : ℕ
  fee : ℕ
  action : Action Address
  deriving DecidableEq, Repr

/-- The runtime of the shards, and the hash of a transaction. -/
structure Chain (Address : Type) extends Runtime Address where
  /-- `Transaction::hash`. -/
  hashTx : Transaction Address → H256

/-- `FEE_CHECKPOINT`. -/
def feeCheckpoint : ℕ := 123

/-- `ACTION_CHECKPOINT`. -/
def actionCheckpoint : ℕ := 130

/-- The computations of the top-level state. -/
abbrev TopM (Address : Type) [DecidableEq Address] (α : Type) :=
  Faulty (TopLevelState Address) (RuntimeError Address) α

namespace TopCache

variable {Address : Type} [DecidableEq Address]

def checkpoint (cache : TopCache Address) : TopCache Address :=
  ⟨cache.account.checkpoint, cache.shard.checkpoint⟩

def discardCheckpoint (cache : TopCache Address) : TopCache Address :=
  ⟨cache.account.discardCheckpoint, cache.shard.discardCheckpoint⟩

def revertToCheckpoint (cache : TopCache Address) : TopCache Address :=
  ⟨cache.account.revertToCheckpoint, cache.shard.revertToCheckpoint⟩

end TopCache

namespace TopLevelState

variable {Address : Type} [DecidableEq Address]

open AListMap

/-! ## Reads and writes through the top cache -/

def account (address : Address) : TopM Address (Option Account) :=
  modifyGet fun state =>
    let (found, cache) := state.topCache.account.get state.trie.accounts address
    (found, { state with topCache := { state.topCache with account := cache } })

def shard (shardId : ShardId) : TopM Address (Option (Shard Address)) :=
  modifyGet fun state =>
    let (found, cache) := state.topCache.shard.get state.trie.shards shardId
    (found, { state with topCache := { state.topCache with shard := cache } })

def seq (address : Address) : TopM Address ℕ := do
  pure (((← account address).map (·.seq)).getD 0)

def balance (address : Address) : TopM Address ℕ := do
  pure (((← account address).map (·.balance)).getD 0)

def shardRoot (shardId : ShardId) : TopM Address (Option H256) := do
  pure ((← shard shardId).map (·.root))

def shardUsers (shardId : ShardId) : TopM Address (Option (List Address)) := do
  pure ((← shard shardId).map (·.users))

/-- `get_account_mut`: the account, marked as changed; a missing account
becomes the default one. -/
def getAccountMut (address : Address) : TopM Address Account :=
  modifyGet fun state =>
    let (found, cache) := state.topCache.account.getMut state.trie.accounts address
    (found, { state with topCache := { state.topCache with account := cache } })

/-- A write through the reference that `get_account_mut` returned. -/
def putAccount (address : Address) (account : Account) : TopM Address Unit :=
  modify fun state =>
    { state with topCache := { state.topCache with account := state.topCache.account.put address account } }

def incSeq (address : Address) : TopM Address Unit := do
  let account ← getAccountMut address
  putAccount address { account with seq := account.seq + 1 }

def addBalance (address : Address) (increment : ℕ) : TopM Address Unit := do
  if increment != 0 then
    let account ← getAccountMut address
    putAccount address { account with balance := account.balance + increment }

def subBalance (address : Address) (decrement : ℕ) : TopM Address Unit := do
  if decrement != 0 then
    let balance ← balance address
    if balance < decrement then
      throw (.error (.insufficientBalance address balance decrement))
    let account ← getAccountMut address
    let account ← liftM (account.subBalance decrement : Except (Fault (RuntimeError Address)) _)
    putAccount address account

def transferBalance (sender receiver : Address) (quantity : ℕ) : TopM Address Unit := do
  subBalance sender quantity
  addBalance receiver quantity

/-! ## Checkpoints -/

/-- A checkpoint of the top cache and of every shard cache that exists now. -/
def createCheckpoint (id : ℕ) : TopM Address Unit :=
  modify fun state =>
    { state with
      idOfCheckpoints := id :: state.idOfCheckpoints
      topCache := state.topCache.checkpoint
      shardCaches := mapValues ShardCache.checkpoint state.shardCaches }

/-- Pop the newest checkpoint id, which must be `id`. -/
def popCheckpoint (id : ℕ) : TopM Address Unit :=
  Faulty.update fun state => do
    let expected ← Fault.expect state.idOfCheckpoints.head? "The checkpoint must exist"
    Fault.assertEq expected id
    pure ((), { state with idOfCheckpoints := state.idOfCheckpoints.tail })

def discardCheckpoint (id : ℕ) : TopM Address Unit := do
  popCheckpoint id
  modify fun state =>
    { state with
      topCache := state.topCache.discardCheckpoint
      shardCaches := mapValues ShardCache.discardCheckpoint state.shardCaches }

def revertToCheckpoint (id : ℕ) : TopM Address Unit := do
  popCheckpoint id
  modify fun state =>
    { state with
      topCache := state.topCache.revertToCheckpoint
      shardCaches := mapValues ShardCache.revertToCheckpoint state.shardCaches }

/-! ## Transactions -/

/-- `apply_shard_transaction_to_shard`: apply the transaction to one shard,
through the shard's cache, created empty when the shard has none yet. -/
def applyShardTransactionToShard (runtime : Runtime Address) (transaction : ShardTransaction Address)
    (shardId : ShardId) (sender : Address) (approvers : List Address) : TopM Address Unit := do
  let some shardRoot ← shardRoot shardId
    | throw (.error (.invalidShardId shardId))
  let shardUsers ← liftM (Fault.expect (← shardUsers shardId) "Shard must exist" :
    Except (Fault (RuntimeError Address)) (List Address))
  let result ← modifyGet fun state =>
    let shardCache := (state.shardCaches.lookup shardId).getD .new
    let (result, shardLevelState) :=
      (ShardLevelState.apply runtime transaction sender shardUsers approvers).run
        ⟨shardId, state.trie.shardTrie shardRoot, shardCache, []⟩
    (result, { state with shardCaches := state.shardCaches.insert shardId shardLevelState.cache })
  liftM result

def applyShardTransaction (runtime : Runtime Address) (transaction : ShardTransaction Address)
    (sender : Address) (approvers : List Address) : TopM Address Unit :=
  transaction.relatedShards.forM fun shardId =>
    applyShardTransactionToShard runtime transaction shardId sender approvers

/-- `apply_action` for the modelled actions. -/
def applyAction (chain : Chain Address) (action : Action Address) (txHash : H256)
    (feePayer : Address) : TopM Address Unit := do
  -- an approver or a registrar must be an active account
  let checkActive (name : String) : Option Address → TopM Address Unit
    | some address => do
        let active := ((← account address).map Account.isActive).getD false
        if !active then throw (.error (.nonActiveAccount address name))
    | none => pure ()
  match action with
  | .mintAsset shardId metadata approver registrar allowedScriptHashes output approvers =>
      checkActive "approver of asset" approver
      checkActive "registrar of asset" registrar
      applyShardTransaction chain.toRuntime
        (.mintAsset shardId metadata approver registrar allowedScriptHashes output) feePayer approvers
  | .changeAssetScheme shardId assetType seq metadata approver registrar allowedScriptHashes
      approvers =>
      checkActive "approver of asset" approver
      checkActive "registrar of asset" registrar
      applyShardTransaction chain.toRuntime
        (.changeAssetScheme shardId assetType seq metadata approver registrar allowedScriptHashes)
        feePayer approvers
  | .increaseAssetSupply shardId assetType seq output approvers =>
      applyShardTransaction chain.toRuntime (.increaseAssetSupply shardId assetType seq output)
        feePayer approvers
  | .transferAsset burns inputs outputs approvers =>
      applyShardTransaction chain.toRuntime (.transferAsset burns inputs outputs) feePayer approvers
  | .unwrapCCC burn receiver =>
      applyShardTransaction chain.toRuntime (.unwrapCCC burn receiver) feePayer []
      addBalance receiver burn.prevOut.quantity
  | .pay receiver quantity =>
      transferBalance feePayer receiver quantity
  | .wrapCCC shardId lockScriptHash parameters quantity _ =>
      subBalance feePayer quantity
      applyShardTransaction chain.toRuntime
        (.wrapCCC shardId txHash ⟨lockScriptHash, parameters, quantity⟩) feePayer []

/-- `apply_internal`: check the seq, charge the fee, and apply the action under
`ACTION_CHECKPOINT`. -/
def applyInternal (chain : Chain Address) (tx : Transaction Address) (feePayer : Address) :
    TopM Address Unit := do
  let seq ← seq feePayer
  if tx.seq != seq then
    throw (.error (.invalidSeq seq tx.seq))
  incSeq feePayer
  subBalance feePayer tx.fee
  createCheckpoint actionCheckpoint
  let result ← (applyAction chain tx.action (chain.hashTx tx) feePayer).attempt
  match result with
  | .ok () => discardCheckpoint actionCheckpoint
  | .error (.error _) => revertToCheckpoint actionCheckpoint
  | .error (.panic _) => pure ()
  liftM result

/-- `TopLevelState::apply`: the whole transaction under `FEE_CHECKPOINT`,
reverted when it fails. -/
def apply (chain : Chain Address) (tx : Transaction Address) (signer : Address) :
    TopM Address Unit := do
  createCheckpoint feeCheckpoint
  let result ← (applyInternal chain tx signer).attempt
  match result with
  | .ok () => discardCheckpoint feeCheckpoint
  | .error (.error _) => revertToCheckpoint feeCheckpoint
  | .error (.panic _) => pure ()
  liftM result

/-! ## What a reader of the state sees -/

/-- `TopStateView::account`, without loading into the cache. -/
def readAccount (state : TopLevelState Address) (address : Address) : Option Account :=
  state.topCache.account.read state.trie.accounts address

/-- `TopStateView::shard`, without loading into the cache. -/
def readShard (state : TopLevelState Address) (shardId : ShardId) : Option (Shard Address) :=
  state.topCache.shard.read state.trie.shards shardId

/-- `TopStateView::asset`: through a copy of the shard's cache, or an empty
cache when the shard has none. -/
def readAsset (state : TopLevelState Address) (shardId : ShardId) (tracker : H256) (index : ℕ) :
    Option OwnedAsset :=
  match state.readShard shardId with
  | none => none
  | some shard =>
      let cache := (state.shardCaches.lookup shardId).getD .new
      cache.asset.read (state.trie.shardTrie shard.root).assets (tracker, index)

/-- `TopStateView::asset_scheme`. -/
def readAssetScheme (state : TopLevelState Address) (shardId : ShardId) (assetType : H160) :
    Option (AssetScheme Address) :=
  match state.readShard shardId with
  | none => none
  | some shard =>
      let cache := (state.shardCaches.lookup shardId).getD .new
      cache.assetScheme.read (state.trie.shardTrie shard.root).assetSchemes assetType

end TopLevelState

end State

end CodeChain
