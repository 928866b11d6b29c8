import CodeChain.Stake.Actions

/-!
# Closing a block

`Tendermint::on_close_block` (`tendermint/engine.rs`) runs after the
transactions of a block.  It pays the block reward and the fees: the minimum
fees are shared among the stakeholders in proportion to their stakes
(`stake/distribute.rs`), and the author gets the rest.  In the first term the
author is paid at once, and the first term close only elects validators.  In
later terms the weights of the validators are lowered, the author's reward is
kept as an intermediate reward, and at a term close the rewards of the previous
term are paid, the inactive validators are found and the term is closed.

`Validators::update_weight` expects at least one validator, but nothing keeps
the elected list from being empty: the election at a term close with no
candidate, or a term in which every validator was banned, leaves the next
block to panic.

The payment of the previous term's rewards (`calculate_pending_rewards_of_the_previous_term`)
walks the seals of the previous term through the client; it is a parameter
here.  The cost of a transaction is `CodeChainMachine::min_cost`, a parameter
too.
-/

namespace CodeChain

namespace Consensus

open Stake

variable {Hash Address Public Seal TxAction : Type}

/-- A transaction as `on_close_block` reads it. -/
structure Transaction (TxAction : Type) where
  fee : UInt64
  action : TxAction

/-- `block_number_if_term_changed`: the block's number when its timestamp falls
in a later term period than its parent's. -/
def blockNumberIfTermChanged (header parentHeader : Header Hash Address Seal)
    (commonParams : CommonParams) : Option UInt64 :=
  let termSeconds := commonParams.termSeconds
  if termSeconds = 0 then none
  else
    let currentTermPeriod := header.timestamp / termSeconds
    let parentTermPeriod := parentHeader.timestamp / termSeconds
    if currentTermPeriod = parentTermPeriod then none else some header.number

/-- `share`: the part of the minimum fee that one stake earns, computed in
`u128`. -/
def share {ε : Type} (totalStakes stake totalMinFee : UInt64) : Except (Fault ε) UInt64 := do
  Fault.ensure (totalStakes ≥ stake) "assertion failed: total_stakes >= stake"
  Fault.ensure (totalStakes ≠ 0) "attempt to divide by zero"
  let quotient := totalMinFee.toNat * stake.toNat / totalStakes.toNat
  Fault.expect (if quotient < 2 ^ 64 then some (UInt64.ofNat quotient) else none)
    "called `Result::unwrap()` on an `Err` value"

/-- `fee_distribute`, its iterator run to the end: the share of every
stakeholder, and the fee that remains for the author. -/
def feeDistribute {ε : Type} (totalMinFee : UInt64) (stakes : AList fun _ : Address => UInt64) :
    Except (Fault ε) (List (Address × UInt64) × UInt64) :=
  let totalStakes := (stakes.entries.map fun entry => entry.2).sum
  stakes.entries.foldlM
    (fun (acc : List (Address × UInt64) × UInt64) entry => do
      let share ← share totalStakes entry.2 totalMinFee
      let remainingFee ← Fault.expect (if share ≤ acc.2 then some (acc.2 - share) else none)
        "Remaining fee shouldn't be depleted"
      pure (acc.1 ++ [(entry.1, share)], remainingFee))
    ([], totalMinFee)

theorem share_neverFails {ε : Type} (totalStakes stake totalMinFee : UInt64) :
    Fault.NeverFails (share totalStakes stake totalMinFee : Except (Fault ε) UInt64) := by
  simp only [share]
  refine Fault.neverFails_bind Fault.neverFails_ensure fun _ _ => ?_
  exact Fault.neverFails_bind Fault.neverFails_ensure fun _ _ => Fault.neverFails_expect

/-- The fee distribution stops only by a panic: its checks are assertions. -/
theorem feeDistribute_neverFails {ε : Type} (totalMinFee : UInt64)
    (stakes : AList fun _ : Address => UInt64) :
    Fault.NeverFails (feeDistribute totalMinFee stakes : Except (Fault ε) _) := by
  refine Fault.neverFails_foldlM (fun acc entry _ => ?_) _
  refine Fault.neverFails_bind (share_neverFails _ _ _) fun _ _ => ?_
  exact Fault.neverFails_bind Fault.neverFails_expect fun _ _ => Fault.neverFails_pure

section Chain

variable [DecidableEq Address]

/-- The loop of `inactive_validators`: drop the author of every block back to
the start of the term.  A parent is one block lower, so the caller's fuel, the
block number, is never the reason the loop stops. -/
def dropTermAuthors {ε : Type} (client : ConsensusClient Hash Address Public Seal)
    (startOfTheCurrentTerm : UInt64) :
    Nat → Header Hash Address Seal → List Address → Except (Fault ε) (List Address)
  | 0, _, validators => pure validators
  | fuel + 1, header, validators =>
      if startOfTheCurrentTerm ≤ header.number then do
        let parent ← Fault.expect (client.blockHeader header.parentHash)
          "Header of the parent must exist"
        dropTermAuthors client startOfTheCurrentTerm fuel parent
          (validators.filter fun validator => validator ≠ header.author)
      else pure validators

/-- `inactive_validators`: the validators that authored no block of the term,
the current block included. -/
def inactiveValidators {ε : Type} (client : ConsensusClient Hash Address Public Seal)
    (startOfTheCurrentTerm : UInt64) (currentBlock : Header Hash Address Seal)
    (validators : List Address) : Except (Fault ε) (List Address) := do
  let validators := validators.dedup.filter fun validator => validator ≠ currentBlock.author
  let header ← Fault.expect (client.blockHeader currentBlock.parentHash)
    "Header of the parent must exist"
  dropTermAuthors client startOfTheCurrentTerm (header.number.toNat + 1) header validators

variable [LinearOrder Address] [DecidableEq Public] [Ord Public]
variable (publicToAddress : Public → Address)

/-- The first part of `on_close_block`: the block reward and the fees.  The
minimum fees go to the stakeholders; the result is the state and the author's
reward. -/
def distributeFees (blockReward : UInt64) (minCost : CommonParams → TxAction → UInt64)
    (transactions : List (Transaction TxAction)) (state : StakeState Address Public)
    (parentCommonParams : CommonParams) :
    StakeResult Address (StakeState Address Public × UInt64) := do
  let (totalReward, totalMinFee) :=
    let totalMinFee := (transactions.map fun tx => tx.fee).sum
    let minFee := (transactions.map fun tx => minCost parentCommonParams tx.action).sum
    (blockReward + totalMinFee, minFee)
  Fault.ensure (totalReward ≥ totalMinFee) s!"{totalReward} >= {totalMinFee}"
  let stakes := getStakes state
  let (shares, remainingFee) ← feeDistribute totalMinFee stakes
  let state := shares.foldl (fun state share => state.addBalance share.1 share.2) state
  pure (state, totalReward - totalMinFee + remainingFee)

omit [LinearOrder Address] [DecidableEq Public] [Ord Public] in
/-- Paying the shares of the fee changes only CCC balances. -/
theorem foldl_addBalance_frame (shares : List (Address × UInt64))
    (state : StakeState Address Public) :
    shares.foldl (fun state share => state.addBalance share.1 share.2) state =
      { state with
        balance := (shares.foldl (fun state share => state.addBalance share.1 share.2) state).balance } := by
  induction shares generalizing state with
  | nil => rfl
  | cons first rest ih => exact ih (state.addBalance first.1 first.2)

omit [DecidableEq Public] [Ord Public] in
theorem distributeFees_neverFails (blockReward : UInt64) (minCost : CommonParams → TxAction → UInt64)
    (transactions : List (Transaction TxAction)) (state : StakeState Address Public)
    (parentCommonParams : CommonParams) :
    Fault.NeverFails (distributeFees blockReward minCost transactions state parentCommonParams) := by
  simp only [distributeFees]
  refine Fault.neverFails_bind Fault.neverFails_ensure fun _ _ => ?_
  refine Fault.neverFails_bind (feeDistribute_neverFails _ _) fun _ _ => ?_
  exact Fault.neverFails_pure

omit [DecidableEq Public] [Ord Public] in
/-- Paying the reward and the fees changes only CCC balances. -/
theorem distributeFees_frame {blockReward : UInt64} {minCost : CommonParams → TxAction → UInt64}
    {transactions : List (Transaction TxAction)} {state paid : StakeState Address Public}
    {parentCommonParams : CommonParams} {blockAuthorReward : UInt64}
    (distributed : distributeFees blockReward minCost transactions state parentCommonParams =
      .ok (paid, blockAuthorReward)) :
    paid = { state with balance := paid.balance } := by
  simp only [distributeFees, Fault.bind_eq_ok, Fault.pure_eq_ok] at distributed
  obtain ⟨-, -, ⟨shares, remainingFee⟩, -, paidShares⟩ := distributed
  rw [← (Prod.mk.inj paidShares).1]
  exact foldl_addBalance_frame shares state

/-- `Tendermint::on_close_block` on the stake state of the block.
`calculatePendingRewards` stands for the payment of the previous term's
rewards: from the drained rewards, the start of the current term, the current
block and the banned addresses, the reward of each address. -/
def onCloseBlock (blockReward : UInt64) (minCost : CommonParams → TxAction → UInt64)
    (calculatePendingRewards : (AList fun _ : Address => UInt64) → UInt64 →
      Header Hash Address Seal → Banned Address → StakeResult Address (List (Address × UInt64)))
    (client : ConsensusClient Hash Address Public Seal) (header : Header Hash Address Seal)
    (transactions : List (Transaction TxAction)) (state : StakeState Address Public)
    (parentHeader : Header Hash Address Seal) (parentCommonParams : CommonParams)
    (termCommonParams : Option CommonParams) :
    StakeResult Address (StakeState Address Public) := do
  let author := header.author
  let (state, blockAuthorReward) ←
    distributeFees blockReward minCost transactions state parentCommonParams
  let metadata := state.metadata
  if metadata.currentTermId = 0 then
    let state := state.addBalance author blockAuthorReward
    match blockNumberIfTermChanged header parentHeader parentCommonParams with
    | some blockNumber => onTermClose publicToAddress state blockNumber []
    | none => return state
  else
    let state ← updateValidatorWeights publicToAddress state header.author
    let state := addIntermediateRewards state author blockAuthorReward
    let termCommonParams ← Fault.expect termCommonParams "TermCommonParams should exist"
    match blockNumberIfTermChanged header parentHeader termCommonParams with
    | none => return state
    | some lastTermFinishedBlockNum =>
        let (rewards, state) := drainPreviousRewards state
        let startOfTheCurrentTerm := metadata.lastTermFinishedBlockNum + 1
        let validators := (Validators.loadFromState state).list.map fun validator =>
          publicToAddress validator.pubkey
        let (state, inactive) ← if metadata.currentTermId = 1 then do
            Fault.ensure rewards.entries.isEmpty "assertion failed: rewards.is_empty()"
            let inactive ← inactiveValidators client startOfTheCurrentTerm header validators
            pure (state, inactive)
          else do
            let pendingRewards ← calculatePendingRewards rewards startOfTheCurrentTerm header
              (Banned.loadFromState state)
            let state := pendingRewards.foldl
              (fun state reward => state.addBalance reward.1 reward.2) state
            let inactive ← inactiveValidators client startOfTheCurrentTerm header validators
            pure (state, inactive)
        let state ← moveCurrentToPreviousIntermediateRewards state
        onTermClose publicToAddress state lastTermFinishedBlockNum inactive

omit [LinearOrder Address] [DecidableEq Public] in
/-- With no validator stored, `update_validator_weights` panics:
`min_delegation` finds no minimum. -/
theorem updateValidatorWeights_panics {state : StakeState Address Public} (blockAuthor : Address)
    (noValidators : state.validators = []) :
    Fault.Panics (updateValidatorWeights publicToAddress state blockAuthor) := by
  simp only [updateValidatorWeights, Validators.updateWeight, Validators.minDelegation,
    Validators.loadFromState, noValidators, List.map_nil, List.min?_nil]
  exact ⟨_, rfl⟩

/-- After the first term, a block closed on a state with no stored validator
panics, whatever the block: the fees are paid or panic, and then
`update_validator_weights` panics. -/
theorem onCloseBlock_panics_of_no_validators {blockReward : UInt64}
    {minCost : CommonParams → TxAction → UInt64}
    {calculatePendingRewards : (AList fun _ : Address => UInt64) → UInt64 →
      Header Hash Address Seal → Banned Address → StakeResult Address (List (Address × UInt64))}
    {client : ConsensusClient Hash Address Public Seal} {header parentHeader : Header Hash Address Seal}
    {transactions : List (Transaction TxAction)} {state : StakeState Address Public}
    {parentCommonParams : CommonParams} {termCommonParams : Option CommonParams}
    (noValidators : state.validators = []) (laterTerm : state.metadata.currentTermId ≠ 0) :
    Fault.Panics (onCloseBlock publicToAddress blockReward minCost calculatePendingRewards client header
      transactions state parentHeader parentCommonParams termCommonParams) := by
  simp only [onCloseBlock]
  refine Fault.bind_panics_of_neverFails (distributeFees_neverFails _ _ _ _ _) ?_
  rintro ⟨paid, blockAuthorReward⟩ distributed
  have frame := distributeFees_frame distributed
  -- the fees leave the term and the validators as they were
  have sameTerm : paid.metadata.currentTermId ≠ 0 := by
    rw [frame]
    exact laterTerm
  have stillNone : paid.validators = [] := by
    rw [frame]
    exact noValidators
  simp only [sameTerm, if_false]
  rw [Fault.bind_panics]
  exact Or.inl (updateValidatorWeights_panics publicToAddress header.author stillNone)

end Chain

/-- Parameters with terms disabled, as at genesis. -/
def genesisParams : CommonParams :=
  ⟨0, 0, 0, 0, 0, 0, 0, 0, 0, 0, 0, 0, 0⟩

/-- Parameters that pass `CommonParams::verify` with terms of 10 seconds. -/
def tenSecondTerms : CommonParams :=
  ⟨0, 1, 0, 0, 10, 1, 1, 2, 1, 1, 1, 1, 0⟩

/-- The state after genesis: address `0` holds all 100 CCS. -/
def soleStakeholderGenesis : StakeState ℕ ℕ :=
  init ((∅ : AList fun _ : ℕ => UInt64).insert 0 100)
    (StakeState.empty (fun _ => 0) ⟨0, none, 0, 0⟩)

/-- A client that knows no block; the runs below never ask it. -/
def silentClient : ConsensusClient ℕ ℕ ℕ Unit :=
  ⟨fun _ => none, fun _ => none, fun _ => none, fun _ => none⟩

/-- Keys are addresses, and a signature recovers to the key it names. -/
def namedKeys : Environment ℕ ℕ ℕ ℕ Unit :=
  ⟨id, fun signature _ _ => .ok signature, silentClient, ⟨⟨[]⟩⟩⟩

/-- Block `number`, authored by `0`, with the given timestamp. -/
def blockAt (number timestamp : UInt64) : Header ℕ ℕ Unit :=
  ⟨number.toNat, number.toNat - 1, number, 0, timestamp, ()⟩

/-- The election with no candidate halts the chain.  Address `0`, the only
stakeholder, turns terms on with a `ChangeParams` that `Action::verify`
accepts.  Block 2 is the first in a new 10-second period: closing it closes the
first term and elects nobody.  Closing block 3 then panics. -/
theorem onCloseBlock_halts_after_empty_election :
    (Action.changeParams 0 tenSecondTerms [0] : Action ℕ ℕ ℕ Unit).verify namedKeys
        (fun _ _ _ => false) genesisParams = .ok () ∧
      ∃ afterParams afterElection,
        execute namedKeys (.changeParams 0 tenSecondTerms [0] : Action ℕ ℕ ℕ Unit)
            soleStakeholderGenesis 0 0 = .ok afterParams ∧
        onCloseBlock id 0 (fun _ _ => 0) (fun _ _ _ _ => pure []) silentClient (blockAt 2 15)
            ([] : List (Transaction Unit)) afterParams (blockAt 1 5) tenSecondTerms
            (some tenSecondTerms) = .ok afterElection ∧
        afterElection.validators = [] ∧
        Fault.Panics (onCloseBlock id 0 (fun _ _ => 0) (fun _ _ _ _ => pure []) silentClient
          (blockAt 3 16) ([] : List (Transaction Unit)) afterElection (blockAt 2 15) tenSecondTerms
          (some tenSecondTerms)) := by
  refine ⟨rfl, _, _, rfl, rfl, rfl, ?_⟩
  exact onCloseBlock_panics_of_no_validators id rfl (by decide)

end Consensus

end CodeChain
