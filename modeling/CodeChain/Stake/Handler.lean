import CodeChain.Consensus.ValidatorSet

/-!
# The stake action handler

The custom-action handler of the stake module (`stake/mod.rs`): genesis
stakes, the six stake actions that `Stake::execute` runs, and the term-close
bookkeeping the engine calls at the end of a term (renewing and expiring
nominations, releasing and jailing validators, reverting delegations and
electing the next validators).

Each function loads the records it needs from the state, changes its local
copies, and saves them back in the order the source does; an `Err` leaves the
caller to drop every change, since the transaction is reverted to its
checkpoint.  The state operations of `TopLevelState` that the handler calls
(`add_balance`, `sub_balance`, `update_params`, `increase_term_id`) are defined
first.
-/

namespace CodeChain

namespace Stake

open Consensus

variable {Address Public Hash Signature Schnorr Seal : Type}
variable [DecidableEq Address] [LinearOrder Address] [DecidableEq Public]

/-- The error type of the handler: an `Err` carries a `RuntimeError`. -/
abbrev StakeResult (Address α : Type) := Except (Fault (RuntimeError Address)) α

namespace StakeState

/-- `TopLevelState::add_balance` on the CCC balance; `+=` wraps. -/
def addBalance (state : StakeState Address Public) (address : Address) (incr : UInt64) :
    StakeState Address Public :=
  { state with
    balance :=
      if incr ≠ 0 then Function.update state.balance address (state.balance address + incr)
      else state.balance }

omit [LinearOrder Address] [DecidableEq Public] in
@[simp]
theorem accounts_addBalance (state : StakeState Address Public) (address : Address)
    (incr : UInt64) : (state.addBalance address incr).accounts = state.accounts :=
  rfl

omit [LinearOrder Address] [DecidableEq Public] in
@[simp]
theorem delegations_addBalance (state : StakeState Address Public) (address : Address)
    (incr : UInt64) : (state.addBalance address incr).delegations = state.delegations :=
  rfl

/-- `TopLevelState::sub_balance` on the CCC balance. -/
def subBalance (state : StakeState Address Public) (address : Address) (decr : UInt64) :
    StakeResult Address (StakeState Address Public) :=
  if decr = 0 then .ok state
  else if state.balance address < decr then
    Fault.fail (.insufficientBalance address decr (state.balance address))
  else
    .ok { state with balance := Function.update state.balance address (state.balance address - decr) }

/-- `TopLevelState::update_params`: the sequence number must match. -/
def updateParams (state : StakeState Address Public) (metadataSeq : UInt64)
    (params : CommonParams) : StakeResult Address (StakeState Address Public) :=
  if state.metadata.seq ≠ metadataSeq then Fault.fail (.invalidSeq state.metadata.seq metadataSeq)
  else
    .ok { state with
      metadata := { state.metadata with params := some params, seq := state.metadata.seq + 1 } }

/-- `TopLevelState::increase_term_id`. -/
def increaseTermId (state : StakeState Address Public) (lastTermFinishedBlockNum : UInt64) :
    StakeResult Address (StakeState Address Public) := do
  let metadata ← state.metadata.increaseTermId lastTermFinishedBlockNum
  pure { state with metadata := metadata }

omit [LinearOrder Address] [DecidableEq Public] in
/-- Taking CCC changes the CCC balances only. -/
theorem subBalance_eq_ok {state state' : StakeState Address Public} {address : Address}
    {decr : UInt64} (subtracted : state.subBalance address decr = .ok state') :
    state' = { state with balance := state'.balance } := by
  unfold subBalance at subtracted
  split at subtracted
  · cases subtracted
    rfl
  split at subtracted
  · cases subtracted
  · cases subtracted
    rfl

omit [LinearOrder Address] [DecidableEq Public] in
/-- Taking CCC takes at most what an account holds, so an empty account stays
empty. -/
theorem balance_subBalance_of_eq_zero {state state' : StakeState Address Public}
    {address other : Address} {decr : UInt64} (subtracted : state.subBalance address decr = .ok state')
    (empty : state.balance other = 0) : state'.balance other = 0 := by
  unfold subBalance at subtracted
  split at subtracted
  · cases subtracted
    exact empty
  rename_i positive
  split at subtracted
  · cases subtracted
  rename_i enough
  cases subtracted
  by_cases same : other = address
  · -- the account that pays holds nothing, so it can pay only nothing
    subst same
    rw [empty] at enough
    exact absurd (UInt64.pos_iff_ne_zero.mpr positive) enough
  · simp [Function.update_of_ne same, empty]

omit [DecidableEq Address] [LinearOrder Address] [DecidableEq Public] in
/-- Installing parameters changes the metadata only. -/
theorem updateParams_eq_ok {state state' : StakeState Address Public} {metadataSeq : UInt64}
    {params : CommonParams} (updated : state.updateParams metadataSeq params = .ok state') :
    state' = { state with metadata := state'.metadata } := by
  unfold updateParams at updated
  split at updated
  · cases updated
  · cases updated
    rfl

omit [DecidableEq Address] [LinearOrder Address] [DecidableEq Public] in
/-- A new term changes the metadata only. -/
theorem increaseTermId_eq_ok {state state' : StakeState Address Public}
    {lastTermFinishedBlockNum : UInt64}
    (increased : state.increaseTermId lastTermFinishedBlockNum = .ok state') :
    state' = { state with metadata := state'.metadata } := by
  simp only [increaseTermId, Fault.bind_eq_ok] at increased
  obtain ⟨metadata, -, saved⟩ := increased
  cases saved
  rfl

end StakeState

/-- `Stake::init`: write the genesis stakes and their stakeholders. -/
def init (genesisStakes : AList fun _ : Address => UInt64) (state : StakeState Address Public) :
    StakeState Address Public :=
  let (state, stakeholders) := genesisStakes.entries.foldl
    (fun (acc : StakeState Address Public × Stakeholders Address) entry =>
      let account : StakeAccount Address := { address := entry.1, balance := entry.2 }
      (account.saveToState acc.1, acc.2.updateByIncreasedBalance account))
    (state, Stakeholders.loadFromState state)
  stakeholders.saveToState state

/-- `transfer_ccs`.  The sender and the receiver are loaded as two separate
copies before either is changed, and saved one after the other. -/
def transferCcs (state : StakeState Address Public) (feePayer receiver : Address)
    (quantity : UInt64) : StakeResult Address (StakeState Address Public) := do
  let stakeholders := Stakeholders.loadFromState state
  let senderAccount := StakeAccount.loadFromState state feePayer
  let receiverAccount := StakeAccount.loadFromState state receiver
  let senderDelegations := Delegation.loadFromState state feePayer
  let senderAccount ← senderAccount.subtractBalance quantity
  let receiverAccount := receiverAccount.addBalance quantity
  let stakeholders ← stakeholders.updateByDecreasedBalance senderAccount senderDelegations
  let stakeholders := stakeholders.updateByIncreasedBalance receiverAccount
  let state := stakeholders.saveToState state
  let state := senderAccount.saveToState state
  let state := receiverAccount.saveToState state
  pure state

section Keys

variable (publicToAddress : Public → Address)

/-- `delegate_ccs`: only a candidate can receive a delegation. -/
def delegateCcs (state : StakeState Address Public) (feePayer delegatee : Address)
    (quantity : UInt64) : StakeResult Address (StakeState Address Public) := do
  let candidates := Candidates.loadFromState state
  if (candidates.getCandidate publicToAddress delegatee).isNone then
    Fault.fail (.failedToHandleCustomAction "Can delegate to who is a candidate")
  let banned := Banned.loadFromState state
  let jailed := Jail.loadFromState state
  Fault.ensure (!banned.isBanned delegatee) "A candidate must not be banned"
  Fault.ensure (jailed.getPrisoner delegatee).isNone "A candidate must not be jailed"
  let delegator := StakeAccount.loadFromState state feePayer
  let delegation := Delegation.loadFromState state feePayer
  let delegator ← delegator.subtractBalance quantity
  let delegation := delegation.addQuantity delegatee quantity
  let state := delegation.saveToState state
  let state := delegator.saveToState state
  pure state

end Keys

/-- `revoke`: take a delegation back into the stake balance. -/
def revoke (state : StakeState Address Public) (feePayer delegatee : Address)
    (quantity : UInt64) : StakeResult Address (StakeState Address Public) := do
  let delegator := StakeAccount.loadFromState state feePayer
  let delegation := Delegation.loadFromState state feePayer
  let delegator := delegator.addBalance quantity
  let delegation ← delegation.subtractQuantity delegatee quantity
  let state := delegation.saveToState state
  let state := delegator.saveToState state
  pure state

/-- `get_stakes`: the balance plus the delegations of every stakeholder. -/
def getStakes (state : StakeState Address Public) : AList fun _ : Address => UInt64 :=
  (Stakeholders.loadFromState state).iter.foldl
    (fun result stakeholder =>
      let account := StakeAccount.loadFromState state stakeholder
      let delegation := Delegation.loadFromState state stakeholder
      result.insert stakeholder (account.balance + delegation.sum))
    ∅

/-- The inner loop of `revert_delegations` for one delegator: every delegation
to a reverted delegatee goes back to the stake balance. -/
def revertDelegator (revertedDelegatees : List Address)
    (start : StakeAccount Address × Delegation Address) :
    StakeResult Address (StakeAccount Address × Delegation Address) :=
  revertedDelegatees.foldlM
    (fun (acc : StakeAccount Address × Delegation Address) delegatee => do
      let quantity := acc.2.getQuantity delegatee
      if quantity > 0 then
        let delegation ← acc.2.subtractQuantity delegatee quantity
        pure (acc.1.addBalance quantity, delegation)
      else pure acc)
    start

/-- `revert_delegations`: run the inner loop for every stakeholder, loading and
saving its records in turn. -/
def revertDelegations (state : StakeState Address Public) (revertedDelegatees : List Address) :
    StakeResult Address (StakeState Address Public) :=
  (Stakeholders.loadFromState state).iter.foldlM
    (fun state stakeholder => do
      let (delegator, delegation) ← revertDelegator revertedDelegatees
        (StakeAccount.loadFromState state stakeholder, Delegation.loadFromState state stakeholder)
      let state := delegation.saveToState state
      let state := delegator.saveToState state
      pure state)
    state

section Keys

variable (publicToAddress : Public → Address)

/-- `self_nominate`: a candidate deposits CCC; a released prisoner gets its old
deposit back into the candidacy. -/
def selfNominate (state : StakeState Address Public) (feePayer : Address) (senderPublic : Public)
    (deposit currentTerm nominationEndsAt : UInt64) (metadata : List UInt8) :
    StakeResult Address (StakeState Address Public) := do
  if publicToAddress senderPublic ≠ feePayer then
    Fault.fail (.failedToHandleCustomAction "Cannot Self-nominate with regular key")
  let blacklist := Banned.loadFromState state
  if blacklist.isBanned feePayer then
    Fault.fail (.failedToHandleCustomAction "Account is blacklisted")
  let (released, jail) := (Jail.loadFromState state).tryRelease feePayer currentTerm
  let totalDeposit ← match released with
    | .inCustody => Fault.fail (.failedToHandleCustomAction "Account is still in custody")
    | .notExists => pure deposit
    | .released prisoner => do
        Fault.ensure (decide (prisoner.address = feePayer))
          "assertion failed: `(left == right)`"
        pure (prisoner.deposit + deposit)
  let candidates := Candidates.loadFromState state
  let state ← state.subBalance feePayer deposit
  let candidates ← candidates.addDeposit publicToAddress senderPublic totalDeposit nominationEndsAt
    metadata
  let state := jail.saveToState state
  let state := candidates.saveToState state
  pure state

omit [DecidableEq Public] in
/-- `get_stakes` reads the stake records only. -/
theorem getStakes_withMetadata (state : StakeState Address Public) (metadata : Metadata) :
    getStakes { state with metadata := metadata } = getStakes state :=
  rfl

/-- One iteration of the loop of `change_params`: add the stake of the signer
of one signature.  `recover` gives the signer of a signature over the hash of
the action without its signatures; every signature passed the verification, so
a failed recovery is unreachable. -/
def addSignedStake (recover : Signature → UInt64 → CommonParams → Except String Public)
    (stakes : AList fun _ : Address => UInt64) (metadataSeq : UInt64) (params : CommonParams)
    (sum : UInt64) (signature : Signature) : StakeResult Address UInt64 := do
  let signer ← match recover signature metadataSeq params with
    | .ok signer => pure signer
    | .error err => .error (.panic
        s!"internal error: entered unreachable code: The transaction with an invalid signature cannot pass the verification: {err}")
  let address := publicToAddress signer
  match stakes.lookup address with
  | some stake => pure (sum + stake)
  | none => Fault.fail (.signatureOfInvalidAccount address)

omit [LinearOrder Address] [DecidableEq Public] in
/-- An iteration succeeds when the signature recovers to a key whose address
holds stake, and adds that stake. -/
theorem addSignedStake_eq_ok {recover : Signature → UInt64 → CommonParams → Except String Public}
    {stakes : AList fun _ : Address => UInt64} {metadataSeq : UInt64} {params : CommonParams}
    {sum next : UInt64} {signature : Signature}
    (added : addSignedStake publicToAddress recover stakes metadataSeq params sum signature =
      .ok next) :
    ∃ signer stake, recover signature metadataSeq params = .ok signer ∧
      stakes.lookup (publicToAddress signer) = some stake ∧ next = sum + stake := by
  simp only [addSignedStake] at added
  split at added
  · rename_i signer recovered
    rw [pure_bind] at added
    split at added
    · rename_i stake found
      cases added
      exact ⟨signer, stake, recovered, found, rfl⟩
    · simp [Fault.fail] at added
  · cases added

/-- `change_params`: install the parameters, then require that the signers hold
more than half of the stakes, one signature at a time. -/
def changeParams (recover : Signature → UInt64 → CommonParams → Except String Public)
    (state : StakeState Address Public) (metadataSeq : UInt64) (params : CommonParams)
    (signatures : List Signature) : StakeResult Address (StakeState Address Public) := do
  let state ← state.updateParams metadataSeq params
  let stakes := getStakes state
  let signedStakes ← signatures.foldlM
    (addSignedStake publicToAddress recover stakes metadataSeq params) 0
  let totalStakes := (stakes.entries.map fun entry => entry.2).sum
  if totalStakes / 2 ≥ signedStakes then
    Fault.fail (.insufficientStakes totalStakes signedStakes)
  pure state

/-- `update_candidates`: renew the active validators, then refund and drop the
candidates whose nomination expired. -/
def updateCandidates (state : StakeState Address Public)
    (currentTerm nominationExpiration : UInt64) (inactiveValidators : List Address) :
    StakeResult Address (StakeState Address Public × List Address) := do
  let banned := Banned.loadFromState state
  let candidates := Candidates.loadFromState state
  let nominationEndsAt := currentTerm + nominationExpiration
  let currentValidators := Validators.loadFromState state
  let candidates ← candidates.renewCandidates publicToAddress currentValidators.list
    nominationEndsAt inactiveValidators banned.addresses
  let (expired, candidates) := candidates.drainExpiredCandidates currentTerm
  let state := expired.foldl
    (fun state candidate => state.addBalance (publicToAddress candidate.pubkey) candidate.deposit)
    state
  let state := candidates.saveToState state
  pure (state, expired.map fun candidate => publicToAddress candidate.pubkey)

/-- `release_jailed_prisoners`: refund the prisoners whose release term came. -/
def releaseJailedPrisoners (state : StakeState Address Public) (currentTerm : UInt64) :
    StakeState Address Public × List Address :=
  let (released, jailed) := (Jail.loadFromState state).drainReleasedPrisoners currentTerm
  let state := released.foldl
    (fun state prisoner => state.addBalance prisoner.address prisoner.deposit) state
  let state := jailed.saveToState state
  (state, released.map fun prisoner => prisoner.address)

/-- `jail`: move each inactive validator from the candidates to the jail; each
of them must still be a candidate. -/
def jail (state : StakeState Address Public) (addresses : List Address)
    (custodyUntil kickAt : UInt64) : StakeResult Address (StakeState Address Public) := do
  if addresses.isEmpty then
    return state
  let (candidates, jailed) ← addresses.foldlM
    (fun (acc : Candidates Public × Jail Address) address => do
      let (removed, candidates) := acc.1.remove publicToAddress address
      let candidate ← Fault.expect removed "There should be a candidate to jail"
      let jailed ← acc.2.add publicToAddress candidate custodyUntil kickAt
      pure (candidates, jailed))
    (Candidates.loadFromState state, Jail.loadFromState state)
  let state := jailed.saveToState state
  let state := candidates.saveToState state
  pure state

/-- `ban`: confiscate the criminal's deposit for the informant, ban it, drop it
from the candidates, the jail and the validators, and revert the delegations
to it. -/
def ban (state : StakeState Address Public) (informant : Public) (criminal : Address) :
    StakeResult Address (StakeState Address Public) := do
  let banned := Banned.loadFromState state
  if banned.isBanned criminal then
    Fault.fail (.failedToHandleCustomAction "Account is already banned")
  let (candidate, candidates) := (Candidates.loadFromState state).remove publicToAddress criminal
  let (prisoner, jailed) := (Jail.loadFromState state).remove criminal
  let validators := Validators.loadFromState state
  let deposit ← match candidate, prisoner with
    | some _, some _ =>
        .error (.panic "internal error: entered unreachable code: A candidate that are jailed cannot exist")
    | some candidate, none => pure candidate.deposit
    | none, some prisoner => pure prisoner.deposit
    | none, none => pure 0
  let state := state.addBalance (publicToAddress informant) deposit
  let (_, jailed) := jailed.remove criminal
  let banned := banned.add criminal
  let validators := validators.remove publicToAddress criminal
  let state := jailed.saveToState state
  let state := banned.saveToState state
  let state := candidates.saveToState state
  let state := validators.saveToState state
  revertDelegations state [criminal]

/-- `on_term_close`: the bookkeeping at the end of a term. -/
def onTermClose (state : StakeState Address Public) (lastTermFinishedBlockNum : UInt64)
    (inactiveValidators : List Address) : StakeResult Address (StakeState Address Public) := do
  let currentTerm := state.metadata.currentTermId
  let params ← Fault.expect state.metadata.params
    "Term close events can be called after the ChangeParams called, so the metadata always has CommonParams"
  Fault.ensure (params.nominationExpiration ≠ 0) "assertion failed: `(left != right)`"
  Fault.ensure (params.custodyPeriod ≠ 0) "assertion failed: `(left != right)`"
  Fault.ensure (params.releasePeriod ≠ 0) "assertion failed: `(left != right)`"
  let custodyUntil := currentTerm + params.custodyPeriod
  let kickAt := currentTerm + params.releasePeriod
  let (state, expired) ← updateCandidates publicToAddress state currentTerm
    params.nominationExpiration inactiveValidators
  let (state, released) := releaseJailedPrisoners state currentTerm
  let state ← revertDelegations state (expired ++ released)
  let state ← jail publicToAddress state inactiveValidators custodyUntil kickAt
  let validators ← Validators.elect publicToAddress state
  let state := validators.saveToState state
  state.increaseTermId lastTermFinishedBlockNum

/-- `update_validator_weights`, called at every block close after the first term. -/
def updateValidatorWeights [Ord Public] (state : StakeState Address Public) (blockAuthor : Address) :
    StakeResult Address (StakeState Address Public) := do
  let validators ← (Validators.loadFromState state).updateWeight publicToAddress blockAuthor
  pure (validators.saveToState state)

end Keys

/-- `add_intermediate_rewards`. -/
def addIntermediateRewards (state : StakeState Address Public) (address : Address)
    (reward : UInt64) : StakeState Address Public :=
  ((IntermediateRewards.loadFromState state).addQuantity address reward).saveToState state

/-- `drain_previous_rewards`. -/
def drainPreviousRewards (state : StakeState Address Public) :
    (AList fun _ : Address => UInt64) × StakeState Address Public :=
  let (drained, rewards) := (IntermediateRewards.loadFromState state).drainPrevious
  (drained, rewards.saveToState state)

/-- `move_current_to_previous_intermediate_rewards`. -/
def moveCurrentToPreviousIntermediateRewards (state : StakeState Address Public) :
    StakeResult Address (StakeState Address Public) := do
  let rewards ← (IntermediateRewards.loadFromState state).moveCurrentToPrevious
  pure (rewards.saveToState state)

/-- The stake actions (`stake/actions.rs`), as `Stake::execute` receives them
after decoding. -/
inductive Action (Address Hash Signature Schnorr : Type) where
  | transferCcs (address : Address) (quantity : UInt64)
  | delegateCcs (address : Address) (quantity : UInt64)
  | revoke (address : Address) (quantity : UInt64)
  | selfNominate (deposit : UInt64) (metadata : List UInt8)
  | changeParams (metadataSeq : UInt64) (params : CommonParams) (signatures : List Signature)
  | reportDoubleVote (message1 message2 : ConsensusMessage Hash Schnorr)

/-- What `Stake::execute` needs besides the state: the key hash, signature
recovery for `ChangeParams`, and the chain with its validator set for
`ReportDoubleVote`. -/
structure Environment (Address Public Hash Signature Seal : Type) where
  publicToAddress : Public → Address
  recover : Signature → UInt64 → CommonParams → Except String Public
  client : ConsensusClient Hash Address Public Seal
  validatorSet : DynamicValidator Public

/-- `DEFAULT_NOMINATION_EXPIRATION`. -/
def defaultNominationExpiration : UInt64 := 24

/-- `Stake::execute`: run one decoded stake action for the fee payer. -/
def execute (env : Environment Address Public Hash Signature Seal)
    (action : Action Address Hash Signature Schnorr) (state : StakeState Address Public)
    (feePayer : Address) (senderPublic : Public) :
    StakeResult Address (StakeState Address Public) :=
  match action with
  | .transferCcs address quantity => transferCcs state feePayer address quantity
  | .delegateCcs address quantity =>
      delegateCcs env.publicToAddress state feePayer address quantity
  | .revoke address quantity => revoke state feePayer address quantity
  | .selfNominate deposit metadata =>
      let currentTerm := state.metadata.currentTermId
      let expiration :=
        (state.metadata.params.map fun params => params.nominationExpiration).getD
          defaultNominationExpiration
      selfNominate env.publicToAddress state feePayer senderPublic deposit currentTerm
        (currentTerm + expiration) metadata
  | .changeParams metadataSeq params signatures =>
      changeParams env.publicToAddress env.recover state metadataSeq params signatures
  | .reportDoubleVote message1 _ => do
      let parent ← Fault.expect (env.client.blockHeaderByNumber (message1.height - 1))
        "Parent header verified"
      let maliciousUserPublic ← env.validatorSet.get env.client parent.hash message1.signerIndex
      ban env.publicToAddress state senderPublic (env.publicToAddress maliciousUserPublic)

end Stake

end CodeChain
