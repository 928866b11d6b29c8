import CodeChain.Consensus.ValidatorSet

/-!
# Verifying the seal of an imported block

`Worker::verify_block_external` (`tendermint/worker.rs`) checks the seal of a
block received from a peer: its author is a validator and the proposer of its
view, the seal carries as many precommit signatures as its bitset has indices,
and the signature at each index is a precommit of the parent block by the
validator the validator set returns for that index.  Above block 1 the set
indices must then make a quorum.

The validator set resolves an index modulo the number of validators, while the
quorum check either counts set indices (the initial round-robin list) or
asserts that every index names a validator (the elected validators).  So one
validator's signature, repeated at indices that agree modulo the number of
validators, passes the first check several times: the round-robin count takes
it for several votes, and the elected-validator check panics.

The four seal fields are taken decoded; the RLP decoding errors of the seal
view are not modelled.
-/

namespace CodeChain

namespace Consensus

open Stake

/-- The seal fields of a Tendermint header: the view of the parent's commit,
the view of this block, the parent's precommit signatures, and the indices of
their signers. -/
structure TendermintSeal (Schnorr : Type) where
  previousBlockView : UInt64
  consensusView : UInt64
  precommits : List Schnorr
  bitset : BitSet

/-- `TendermintSealView::signatures`: each set index paired with the next
signature, in increasing order of index. -/
def TendermintSeal.signatures {Schnorr : Type} (sealView : TendermintSeal Schnorr) :
    List (Nat × Schnorr) :=
  sealView.bitset.trueIndexIter.zip sealView.precommits

/-- The errors of block verification that `verify_block_external` returns. -/
inductive BlockError (Address : Type) where
  | engine (error : EngineError Address)
  | invalidSeal
  deriving DecidableEq, Repr

variable {Hash Address Public Schnorr : Type} [DecidableEq Address] [DecidableEq Public]
variable (publicToAddress : Public → Address)
variable (verifySchnorr : Public → Schnorr → VoteOn Hash → Bool)

/-- `Worker::check_view_proposer`: the author must be the proposer of the view. -/
def checkViewProposer (validators : DynamicValidator Public)
    (client : ConsensusClient Hash Address Public (TendermintSeal Schnorr)) (parent : Hash)
    (height view : UInt64) (address : Address) : Except (Fault (EngineError Address)) Unit := do
  match ← validators.nextBlockProposer publicToAddress client parent view with
  | none => Fault.fail (.prevBlockNotExist height)
  | some proposer =>
      if proposer = address then pure () else Fault.fail (.notProposer proposer address)

/-- One iteration of the signature loop of `verify_block_external`: the
signature at `index` must be a precommit by the validator at `index`, and no
index may come twice. -/
def recordPrecommit (validators : DynamicValidator Public)
    (client : ConsensusClient Hash Address Public (TendermintSeal Schnorr)) (grandParent : Hash)
    (precommit : VoteOn Hash) (voted : BitSet) (entry : Nat × Schnorr) :
    Except (Fault (BlockError Address)) BitSet := do
  let (bitsetIndex, signature) := entry
  let signer ← validators.get client grandParent bitsetIndex
  if !verifySchnorr signer signature precommit then
    Fault.fail (.engine (.blockNotAuthorized (publicToAddress signer)))
  let alreadyVoted ← voted.isSet bitsetIndex
  Fault.ensure (!alreadyVoted) "Double vote"
  voted.set bitsetIndex

/-- `Worker::verify_block_external`. -/
def verifyBlockExternal (validators : DynamicValidator Public)
    (client : ConsensusClient Hash Address Public (TendermintSeal Schnorr))
    (header : Header Hash Address (TendermintSeal Schnorr)) :
    Except (Fault (BlockError Address)) Unit := do
  let sealView := header.sealFields
  let view := sealView.consensusView
  let proposer := header.author
  if !(← validators.containsAddress publicToAddress client header.parentHash proposer) then
    Fault.fail (.engine (.blockNotAuthorized proposer))
  Fault.mapError .engine
    (checkViewProposer publicToAddress validators client header.parentHash header.number view proposer)
  let bitsetCount := sealView.bitset.count
  let precommitsCount := sealView.precommits.length
  if bitsetCount < precommitsCount then
    Fault.fail .invalidSeal
  if bitsetCount > precommitsCount then
    Fault.fail .invalidSeal
  let precommit : VoteOn Hash :=
    { step := { height := header.number - 1, view := sealView.previousBlockView, step := .precommit }
      blockHash := some header.parentHash }
  let parent ← Fault.expect (client.blockHeader header.parentHash) "The parent block must exist"
  let grandParent := parent.parentHash
  let voted ← sealView.signatures.foldlM
    (recordPrecommit publicToAddress verifySchnorr validators client grandParent precommit) BitSet.new
  -- the genesis block has no signatures, so block 1 carries none to count
  if header.number = 1 then
    return ()
  Fault.mapError .engine (validators.checkEnoughVotes client grandParent voted)

omit [DecidableEq Address] in
/-- The distinct keys of the validator set at `grandParent` whose valid
precommit the seal carries: whom the quorum is meant to count. -/
def precommitSigners (validators : DynamicValidator Public)
    (client : ConsensusClient Hash Address Public (TendermintSeal Schnorr)) (grandParent : Hash)
    (precommit : VoteOn Hash) (sealView : TendermintSeal Schnorr) : List Public :=
  (sealView.signatures.filterMap fun entry =>
    match (validators.get client grandParent entry.1 : Except (Fault Unit) Public) with
    | .ok signer => if verifySchnorr signer entry.2 precommit then some signer else none
    | .error _ => none).dedup

/-- Block 1, the parent of the blocks below: its parent is the genesis block `0`,
and key `0` proposed it. -/
def sealedParent : Header ℕ ℕ (TendermintSeal Unit) :=
  ⟨1, 0, 1, 0, 0, ⟨0, 0, [], BitSet.new⟩⟩

/-- The three initial validators, keys `0`, `1` and `2`. -/
def initialKeys : DynamicValidator ℕ :=
  ⟨⟨[0, 1, 2]⟩⟩

/-- Only key `0` signs anything. -/
def onlyKeyZeroSigns (signer : ℕ) (_signature : Unit) (_vote : VoteOn ℕ) : Bool :=
  signer = 0

/-- A chain in its first term, where the initial validators vote. -/
def firstTermClient : ConsensusClient ℕ ℕ ℕ (TendermintSeal Unit) :=
  ⟨fun hash => if hash = 1 then some sealedParent else none, fun _ => none, fun _ => some 0,
    fun _ => none⟩

/-- Block 2, by key `1`, whose seal repeats the precommit of key `0` at the
indices `0`, `3` and `6`, all equal to `0` modulo 3. -/
def aliasedHeader : Header ℕ ℕ (TendermintSeal Unit) :=
  ⟨2, 1, 2, 1, 0, ⟨0, 0, [(), (), ()], ⟨{0, 3, 6}⟩⟩⟩

/-- The state from block 1 on: the first term closed there and elected keys `0`
and `1`. -/
def twoElected : StakeState ℕ ℕ :=
  { StakeState.empty (fun _ => 0) ⟨0, none, 0, 1⟩ with
    validators := [⟨0, 1, 0, 1⟩, ⟨0, 1, 0, 0⟩] }

/-- Block 2, by key `0`, in the second term. -/
def secondTermBlock : Header ℕ ℕ (TendermintSeal Unit) :=
  ⟨2, 1, 2, 0, 0, ⟨0, 0, [], BitSet.new⟩⟩

/-- A chain whose genesis block `0` is in term `0` and whose block 1 closed the
first term: from block 1 on, the elected validators vote. -/
def secondTermClient : ConsensusClient ℕ ℕ ℕ (TendermintSeal Unit) :=
  ⟨fun hash => if hash = 1 then some sealedParent else if hash = 2 then some secondTermBlock else none,
    fun _ => none, fun hash => if hash = 0 then some 0 else some 1,
    fun hash => if hash = 0 then some (StakeState.empty (fun _ => 0) ⟨0, none, 0, 0⟩) else some twoElected⟩

/-- Block 3, by key `0`, whose seal repeats the precommit of key `0` at the
indices `0` and `2`, both `0` modulo 2. -/
def overflowingHeader : Header ℕ ℕ (TendermintSeal Unit) :=
  ⟨3, 2, 3, 0, 0, ⟨0, 0, [(), ()], ⟨{0, 2}⟩⟩⟩

/-- Aliased indices break both halves of the seal check.  With the initial
validators, three copies of the precommit of key `0` pass as three of three
votes, though one of three validators signed.  With two elected validators,
index `2` passes the signature check as key `0` and then stops
`check_enough_votes` at its assertion. -/
theorem verifyBlockExternal_aliased_indices :
    (verifyBlockExternal id onlyKeyZeroSigns initialKeys firstTermClient aliasedHeader = .ok () ∧
      (precommitSigners onlyKeyZeroSigns initialKeys firstTermClient 0
          ⟨⟨1, 0, .precommit⟩, some 1⟩ aliasedHeader.sealFields).length * 3 ≤
        initialKeys.initialList.count * 2) ∧
    Fault.Panics (verifyBlockExternal id onlyKeyZeroSigns initialKeys secondTermClient overflowingHeader) := by
  have aliased : aliasedHeader.sealFields.signatures = [(0, ()), (3, ()), (6, ())] := by
    show (⟨{0, 3, 6}⟩ : BitSet).trueIndexIter.zip [(), (), ()] = _
    rw [BitSet.trueIndexIter_insert (by simp) (by decide),
      BitSet.trueIndexIter_insert (by simp) (by decide), BitSet.trueIndexIter_singleton]
    rfl
  have overflowing : overflowingHeader.sealFields.signatures = [(0, ()), (2, ())] := by
    show (⟨{0, 2}⟩ : BitSet).trueIndexIter.zip [(), ()] = _
    rw [BitSet.trueIndexIter_insert (by simp) (by decide), BitSet.trueIndexIter_singleton]
    rfl
  -- the loop of the second block ends with indices `0` and `2` voted, so only
  -- the quorum check remains
  have reachesQuorum :
      verifyBlockExternal id onlyKeyZeroSigns initialKeys secondTermClient overflowingHeader =
        Fault.mapError .engine (initialKeys.checkEnoughVotes secondTermClient 1
          ⟨insert 2 (insert 0 ∅)⟩) := by
    simp only [verifyBlockExternal]
    rw [overflowing]
    rfl
  refine ⟨⟨?_, ?_⟩, ?_⟩
  · simp only [verifyBlockExternal]
    rw [aliased]
    rfl
  · simp only [precommitSigners]
    rw [aliased]
    decide
  · have stored : (DynamicValidator.validators secondTermClient 1 :
        Except (Fault (EngineError ℕ)) _) = .ok (some [⟨0, 1, 0, 0⟩, ⟨0, 1, 0, 1⟩]) := rfl
    rw [reachesQuorum, Fault.mapError_panics]
    exact DynamicValidator.checkEnoughVotes_panics stored
      (BitSet.mem_trueIndexIter.mpr ⟨by decide, by decide⟩) le_rfl

end Consensus

end CodeChain
