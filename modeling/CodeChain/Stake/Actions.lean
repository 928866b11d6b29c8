import CodeChain.Stake.Handler

/-!
# Verification of stake actions

`Action::verify` (`stake/actions.rs`) is the syntax check a stake transaction
passes before it enters a block.  Transfers, delegations and revocations are
not checked.  A nomination's metadata must fit the size limit.  A
`ChangeParams` must keep the network id, carry parameters that pass their own
check, and carry signatures that all recover to some key; nothing asks the keys
to be different.  A `ReportDoubleVote` must carry two different messages of one
round by one signer index, both signed by the validator at that index in the
validator set of the parent of the voted block.
-/

namespace CodeChain

namespace Stake

open Consensus

variable {Address Public Hash Signature Schnorr Seal : Type}
variable [DecidableEq Address] [DecidableEq Hash] [DecidableEq Schnorr]

/-- The `SyntaxError` variant that action verification returns. -/
inductive SyntaxError where
  | invalidCustomAction (message : String)
  deriving DecidableEq, Repr

/-- The checks `Action::verify` makes on a `ReportDoubleVote`. -/
def verifyReportDoubleVote (env : Environment Address Public Hash Signature Seal)
    (verifySchnorr : Public → Schnorr → VoteOn Hash → Bool)
    (message1 message2 : ConsensusMessage Hash Schnorr) : Except (Fault SyntaxError) Unit := do
  if message1 = message2 then
    Fault.fail (.invalidCustomAction "Messages are duplicated")
  if message1.round ≠ message2.round then
    Fault.fail (.invalidCustomAction "The messages are from two different voting rounds")
  let signerIdx1 := message1.signerIndex
  let signerIdx2 := message2.signerIndex
  if signerIdx1 ≠ signerIdx2 then
    Fault.fail (.invalidCustomAction
      s!"Two messages have different signer indexes: {signerIdx1}, {signerIdx2}")
  Fault.ensure (message1.height = message2.height)
    "assertion failed: `(left == right)`: Heights of both messages must be same because message1.round() == message2.round()"
  let signedBlockHeight := message1.height
  if signedBlockHeight = 0 then
    Fault.fail (.invalidCustomAction "Double vote on the genesis block does not make sense")
  let parent ← match env.client.blockHeaderByNumber (signedBlockHeight - 1) with
    | some parent => pure parent
    | none => Fault.fail (.invalidCustomAction
        s!"Cannot get header from the height {signedBlockHeight}")
  let signer ← env.validatorSet.get env.client parent.hash signerIdx1
  if !message1.verify verifySchnorr signer || !message2.verify verifySchnorr signer then
    Fault.fail (.invalidCustomAction "Schnorr signature verification fails")

omit [DecidableEq Address] in
/-- What an accepted `ReportDoubleVote` carries: two different messages of one
round by one signer index, above the genesis block, both signed by the key the
validator set returns for that index at the parent of the voted block. -/
theorem verifyReportDoubleVote_eq_ok {env : Environment Address Public Hash Signature Seal}
    {verifySchnorr : Public → Schnorr → VoteOn Hash → Bool}
    {message1 message2 : ConsensusMessage Hash Schnorr} {u : Unit}
    (verified : verifyReportDoubleVote env verifySchnorr message1 message2 = .ok u) :
    message1 ≠ message2 ∧ message1.round = message2.round ∧
      message1.signerIndex = message2.signerIndex ∧ message1.height ≠ 0 ∧
      ∃ parent signer, env.client.blockHeaderByNumber (message1.height - 1) = some parent ∧
        (env.validatorSet.get env.client parent.hash message1.signerIndex :
          Except (Fault SyntaxError) Public) = .ok signer ∧
        message1.verify verifySchnorr signer = true ∧ message2.verify verifySchnorr signer = true := by
  simp only [verifyReportDoubleVote] at verified
  -- each check that fails returns an `Err`; the ones that pass are named
  split at verified
  · simp [Fault.fail] at verified
  rename_i distinct
  split at verified
  · simp [Fault.fail] at verified
  rename_i sameRound
  split at verified
  · simp [Fault.fail] at verified
  rename_i sameIndex
  rw [Fault.bind_eq_ok] at verified
  obtain ⟨-, -, verified⟩ := verified
  split at verified
  · simp [Fault.fail] at verified
  rename_i aboveGenesis
  split at verified
  · rename_i parent found
    simp only [pure_bind, Fault.bind_eq_ok] at verified
    obtain ⟨signer, got, checked⟩ := verified
    split at checked
    · simp [Fault.fail] at checked
    rename_i valid
    simp only [Bool.or_eq_true, Bool.not_eq_eq_eq_not, Bool.not_true, not_or] at valid
    exact ⟨distinct, not_not.mp sameRound, not_not.mp sameIndex, aboveGenesis, parent, signer,
      found, got, by simpa using valid.1, by simpa using valid.2⟩
  · simp [Fault.fail] at verified

/-- `Action::verify`, against the current `CommonParams`. -/
def Action.verify (env : Environment Address Public Hash Signature Seal)
    (verifySchnorr : Public → Schnorr → VoteOn Hash → Bool) (currentParams : CommonParams)
    (action : Action Address Hash Signature Schnorr) : Except (Fault SyntaxError) Unit :=
  match action with
  | .transferCcs .. | .delegateCcs .. | .revoke .. => pure ()
  | .selfNominate _ metadata =>
      if metadata.length > currentParams.maxCandidateMetadataSize then
        let limit := currentParams.maxCandidateMetadataSize
        Fault.fail (.invalidCustomAction s!"Too long candidate metadata: the size limit is {limit}")
      else pure ()
  | .changeParams metadataSeq params signatures => do
      let currentNetworkId := currentParams.networkId
      let transactionNetworkId := params.networkId
      if currentNetworkId ≠ transactionNetworkId then
        Fault.fail (.invalidCustomAction
          s!"The current network id is {currentNetworkId} but the transaction tries to change the network id to {transactionNetworkId}")
      match params.verify with
      | .error message => Fault.fail (.invalidCustomAction message)
      | .ok () => pure ()
      signatures.forM fun signature =>
        match env.recover signature metadataSeq params with
        | .ok _ => pure ()
        | .error err => Fault.fail (.invalidCustomAction s!"Cannot decode the signature: {err}")
  | .reportDoubleVote message1 message2 =>
      verifyReportDoubleVote env verifySchnorr message1 message2

end Stake

end CodeChain
