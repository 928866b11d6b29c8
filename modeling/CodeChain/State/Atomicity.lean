import CodeChain.State.TopLevel

/-!
# Failed transactions and the shard caches

`TopLevelState::apply` reverts `FEE_CHECKPOINT` when a transaction fails.  The
revert reaches the top cache and every shard cache, but a shard cache holds
only the checkpoints taken while it existed.  A shard cache that the
transaction itself creates (`shard_caches.entry(shard_id).or_default()`) holds
none of the transaction's checkpoints: `ShardLevelState::apply` opens its own
and, when the shard's part succeeds, discards it with nothing below to merge
into.  The top-level revert then leaves that cache as it is.

So when a transfer spends assets of two shards, the first shard's part
succeeds on a new cache and the second shard's part fails, `apply` returns the
error while the first shard keeps the spent and created assets.
-/

namespace CodeChain

namespace State

variable {Key Item : Type} [DecidableEq Key]

/-- A shard cache without open checkpoints: every checkpoint it was given has
been discarded or reverted. -/
def ShardCache.Closed {Address : Type} (cache : ShardCache Address) : Prop :=
  cache.assetScheme.checkpoints = [] ∧ cache.asset.checkpoints = []

instance {Address : Type} (cache : ShardCache Address) : Decidable cache.Closed :=
  inferInstanceAs (Decidable (_ = [] ∧ _ = []))

namespace TopLevelState

variable {Address : Type} [DecidableEq Address]

end TopLevelState

/-! ## A transfer over two shards -/

/-- Hashes and scripts for the example: every shard transaction hashes to 7,
a lock script hashes to its length, and every script unlocks. -/
def splitChain : Chain ℕ where
  hashTransaction _ := 7
  assetTypeOf := id
  lockScriptHash := List.length
  decodes _ := true
  execute _ _ _ _ _ burn := some (if burn then .burnt else .unlocked)
  hashTx _ := 8

/-- Shards 0 and 1 exist; shard 0 has the scheme of asset type 5 and an asset
of 10 of it at tracker 3, and shard 1 has nothing.  Account 1 holds 100. -/
def twoShardTrie : TopTrie ℕ where
  accounts address := if address = 1 then some ⟨100, 0⟩ else none
  shards shardId := if shardId ≤ 1 then some ⟨shardId, [], []⟩ else none
  shardTrie root :=
    if root = 0 then
      { assetSchemes := fun assetType =>
          if assetType = 5 then some ⟨"", 10, none, none, [], 0⟩ else none
        assets := fun point => if point = (3, 0) then some ⟨5, 0, [], 10, none⟩ else none }
    else ⟨fun _ => none, fun _ => none⟩

/-- The state between two blocks: nothing cached, no shard cache, no open
checkpoint. -/
def beforeTransfer : TopLevelState ℕ :=
  ⟨twoShardTrie, ⟨.new, .new⟩, ∅, []⟩

/-- A transfer, by account 1, of the asset of shard 0 and of an asset of shard 1
to an output in each shard.  It passes `Action::verify`: for each asset type
and shard, the outputs take what the inputs bring. -/
def splitTransfer : Transaction ℕ where
  seq := 0
  fee := 1
  action := .transferAsset []
    [⟨⟨3, 0, 5, 0, 10⟩, [], []⟩, ⟨⟨4, 0, 5, 1, 10⟩, [], []⟩]
    [⟨0, [], 5, 0, 10⟩, ⟨0, [], 5, 1, 10⟩] []

/-- `apply` returns the error of shard 1 and reverts the fee, but shard 0 keeps
its part of the transfer: its input asset is spent and its output created. -/
theorem apply_failed_transfer_keeps_first_shard :
    ((TopLevelState.apply splitChain splitTransfer 1).run beforeTransfer).1 =
        .error (.error (.assetSchemeNotFound 5 1)) ∧
      beforeTransfer.readAsset 0 3 0 = some ⟨5, 0, [], 10, none⟩ ∧
      ((TopLevelState.apply splitChain splitTransfer 1).run beforeTransfer).2.readAsset 0 3 0 =
        none ∧
      beforeTransfer.readAsset 0 7 0 = none ∧
      ((TopLevelState.apply splitChain splitTransfer 1).run beforeTransfer).2.readAsset 0 7 0 =
        some ⟨5, 0, [], 10, none⟩ ∧
      ((TopLevelState.apply splitChain splitTransfer 1).run beforeTransfer).2.readAccount 1 =
        beforeTransfer.readAccount 1 := by
  decide +kernel

end State

end CodeChain
