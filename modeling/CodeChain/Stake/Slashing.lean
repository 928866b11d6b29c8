import CodeChain.Stake.Actions
import CodeChain.Consensus.VoteCollector

/-!
# Only double signers are banned

`Stake::execute` bans, for a `ReportDoubleVote`, the key that the validator set
returns for the signer index of the first message, at the parent of the voted
block.  `Action::verify` has already checked that both messages are signed by
that key, that they differ, and that they are of one round and one index.

A signature covers the vote, not the signer index.  So two different messages
of one round and one index that one key signed differ in their block hash or in
their signature alone.  `Action::verify` never compares the block hashes, and a
Schnorr key has a valid signature of a vote for every nonce: a key that signs
one vote twice with two nonces is banned although it never voted for two blocks
(`reportDoubleVote_bans_resigner`).  The node itself signs with RFC 6979 nonces,
which are deterministic.  The same holds of the double votes the vote collector
reports, whatever the votes it saw before.
-/

namespace CodeChain

namespace Stake

open Consensus

variable {Address Public Hash Signature Schnorr Seal : Type}
variable [DecidableEq Address] [LinearOrder Address] [DecidableEq Public]
variable [DecidableEq Hash] [DecidableEq Schnorr]

omit [DecidableEq Public] [DecidableEq Hash] [DecidableEq Schnorr] in
/-- `revert_delegations` changes only the stake accounts and the delegations. -/
theorem revertDelegations_frame {state state' : StakeState Address Public}
    {reverted : List Address} (run : revertDelegations state reverted = .ok state') :
    state' = { state with accounts := state'.accounts, delegations := state'.delegations } := by
  refine Fault.foldlM_invariant
    (fun current => current = { state with accounts := current.accounts, delegations := current.delegations })
    ?_ rfl run
  intro current kept stakeholder _ next step
  simp only [Fault.bind_eq_ok] at step
  obtain ⟨⟨account, delegation⟩, -, saved⟩ := step
  cases saved
  rw [kept]
  rfl

omit [DecidableEq Public] [DecidableEq Hash] [DecidableEq Schnorr] in
theorem banned_revertDelegations {state state' : StakeState Address Public}
    {reverted : List Address} (run : revertDelegations state reverted = .ok state') :
    state'.banned = state.banned := by
  rw [revertDelegations_frame run]

omit [DecidableEq Public] [DecidableEq Hash] [DecidableEq Schnorr] in
theorem balance_revertDelegations {state state' : StakeState Address Public}
    {reverted : List Address} (run : revertDelegations state reverted = .ok state') :
    state'.balance = state.balance := by
  rw [revertDelegations_frame run]

omit [DecidableEq Public] [DecidableEq Hash] [DecidableEq Schnorr] in
/-- `ban` succeeds only for an address not yet banned, and adds it to the
banned addresses. -/
theorem ban_banned (publicToAddress : Public → Address) {state state' : StakeState Address Public}
    {informant : Public} {criminal : Address}
    (banned : ban publicToAddress state informant criminal = .ok state') :
    criminal ∉ state.banned ∧ state'.banned = insert criminal state.banned := by
  simp only [ban] at banned
  split at banned
  · simp [Fault.fail] at banned
  rename_i fresh
  split at banned
  · cases banned
  -- whatever the deposit, the banned addresses are saved before the revert
  all_goals
    rw [pure_bind] at banned
    refine ⟨of_decide_eq_false (Bool.eq_false_iff.mpr fresh), ?_⟩
    rw [banned_revertDelegations banned]
    rfl

omit [DecidableEq Public] [DecidableEq Hash] [DecidableEq Schnorr] in
/-- `ban` gives the address of the informant the deposit of the criminal when
it is a candidate. -/
theorem balance_ban (publicToAddress : Public → Address) {state state' : StakeState Address Public}
    {informant : Public} {criminal : Address}
    (banned : ban publicToAddress state informant criminal = .ok state') {candidate : Candidate Public}
    (nominated : (Candidates.loadFromState state).getCandidate publicToAddress criminal = some candidate) :
    state'.balance = (state.addBalance (publicToAddress informant) candidate.deposit).balance := by
  have taken := Candidates.remove_fst publicToAddress (Candidates.loadFromState state) criminal
  rw [nominated] at taken
  simp only [ban] at banned
  split at banned
  · simp [Fault.fail] at banned
  split at banned
  · cases banned
  case h_2 =>
    rename_i found _
    rw [taken, Option.some_inj] at found
    subst found
    rw [pure_bind] at banned
    rw [balance_revertDelegations banned]
    rfl
  -- `remove` takes the candidate out, so the other arms do not apply
  all_goals
    rename_i missing _
    simp [taken] at missing

omit [DecidableEq Hash] [DecidableEq Schnorr] in
/-- An accepted `ReportDoubleVote` bans the key the validator set returns for
the signer index of its first message. -/
theorem execute_reportDoubleVote_eq_ok {env : Environment Address Public Hash Signature Seal}
    {message1 message2 : ConsensusMessage Hash Schnorr} {state state' : StakeState Address Public}
    {feePayer : Address} {senderPublic : Public}
    (executed : execute env (.reportDoubleVote message1 message2) state feePayer senderPublic =
      .ok state') :
    ∃ parent signer, env.client.blockHeaderByNumber (message1.height - 1) = some parent ∧
      (env.validatorSet.get env.client parent.hash message1.signerIndex :
        StakeResult Address Public) = .ok signer ∧
      ban env.publicToAddress state senderPublic (env.publicToAddress signer) = .ok state' := by
  simp only [execute, Fault.bind_eq_ok, Fault.expect_eq_ok] at executed
  obtain ⟨parent, found, signer, got, banned⟩ := executed
  exact ⟨parent, signer, found, got, banned⟩

section Signatures

variable (verifySchnorr : Public → Schnorr → VoteOn Hash → Bool)

omit [DecidableEq Address] [LinearOrder Address] [DecidableEq Public] [DecidableEq Hash]
  [DecidableEq Schnorr] in
/-- Two different messages of one round and one signer index vote for
different blocks, or carry two different signatures of one vote: the signature
is all that is left to differ. -/
theorem blockHash_ne_or_signature_ne {message1 message2 : ConsensusMessage Hash Schnorr}
    (different : message1 ≠ message2) (sameRound : message1.round = message2.round)
    (sameIndex : message1.signerIndex = message2.signerIndex) :
    message1.blockHash ≠ message2.blockHash ∨
      message1.on = message2.on ∧ message1.signature ≠ message2.signature := by
  obtain ⟨⟨step1, hash1⟩, signature1, index1⟩ := message1
  obtain ⟨⟨step2, hash2⟩, signature2, index2⟩ := message2
  simp only [ConsensusMessage.round, ConsensusMessage.blockHash] at *
  subst sameRound sameIndex
  by_cases sameBlock : hash1 = hash2
  · subst sameBlock
    exact .inr ⟨rfl, fun sameSignature => different (by rw [sameSignature])⟩
  · exact .inl sameBlock

/-- What slashing bans.  A `ReportDoubleVote` that `Action::verify` accepts and
that `Stake::execute` turns into a ban of a new address bans the address of the
key at the reported index, at the parent of the voted block; both messages are
signed by that key in one round, and they vote for different blocks or are two
different signatures of one vote.  The double votes that a vote collector
reports, in any state it can reach, are of the same kind. -/
theorem reportDoubleVote_bans_signer (env : Environment Address Public Hash Signature Seal) :
    (∀ (params : CommonParams) (message1 message2 : ConsensusMessage Hash Schnorr)
        (state state' : StakeState Address Public) (feePayer criminal : Address)
        (senderPublic : Public),
      (Action.reportDoubleVote message1 message2 : Action Address Hash Signature Schnorr).verify
          env verifySchnorr params = .ok () →
        execute env (.reportDoubleVote message1 message2) state feePayer senderPublic = .ok state' →
        criminal ∈ state'.banned → criminal ∉ state.banned →
        ∃ parent signer, env.client.blockHeaderByNumber (message1.height - 1) = some parent ∧
          (env.validatorSet.get env.client parent.hash message1.signerIndex :
            Except (Fault SyntaxError) Public) = .ok signer ∧
          env.publicToAddress signer = criminal ∧
          message1.verify verifySchnorr signer = true ∧ message2.verify verifySchnorr signer = true ∧
          message1.round = message2.round ∧
          (message1.blockHash ≠ message2.blockHash ∨
            message1.on = message2.on ∧ message1.signature ≠ message2.signature)) ∧
    (∀ (collector : VoteCollector Hash Schnorr) (message : ConsensusMessage Hash Schnorr)
        (double : DoubleVote Hash Schnorr),
      collector.Reachable → (collector.vote message).2 = some double →
        double.voteOne.round = double.voteTwo.round ∧
          double.voteOne.signerIndex = double.voteTwo.signerIndex ∧
          (double.voteOne.blockHash ≠ double.voteTwo.blockHash ∨
            double.voteOne.on = double.voteTwo.on ∧ double.voteOne.signature ≠ double.voteTwo.signature)) := by
  refine ⟨?_, ?_⟩
  · intro params message1 message2 state state' feePayer criminal senderPublic verified executed
      nowBanned before
    obtain ⟨different, sameRound, sameIndex, -, parent, signer, found, got, signed1, signed2⟩ :=
      verifyReportDoubleVote_eq_ok verified
    obtain ⟨parent', signer', found', got', banned⟩ := execute_reportDoubleVote_eq_ok executed
    -- `verify` and `execute` read the same header and the same validator
    rw [found, Option.some_inj] at found'
    subst found'
    have sameSigner : signer' = signer := by
      have read : (env.validatorSet.get env.client parent.hash message1.signerIndex :
          Except (Fault SyntaxError) Public) = .ok signer' := DynamicValidator.get_eq_ok_congr got'
      rw [got, Except.ok.injEq] at read
      exact read.symm
    subst sameSigner
    have isSigner : env.publicToAddress signer' = criminal := by
      rw [(ban_banned env.publicToAddress banned).2, Finset.mem_insert] at nowBanned
      exact nowBanned.resolve_right before |>.symm
    exact ⟨parent, signer', found, got, isSigner, signed1, signed2, sameRound,
      blockHash_ne_or_signature_ne different sameRound sameIndex⟩
  · intro collector message double reachable reported
    obtain ⟨different, sameRound, index1, index2⟩ := reachable.vote_double reported
    have sameIndex := index1.trans index2.symm
    exact ⟨sameRound, sameIndex, blockHash_ne_or_signature_ne different sameRound sameIndex⟩

end Signatures

/-- A deterministic signature scheme: the signature of a vote by a key is the
pair of the two, and only that pair verifies. -/
def signedBy (key : ℕ) (signature : ℕ × VoteOn ℕ) (vote : VoteOn ℕ) : Bool :=
  signature = (key, vote)

/-! ### A report of one vote signed twice -/

/-- A signature scheme with one valid signature of a vote for each nonce, as
Schnorr signatures have: a signature names its key, a nonce and the vote. -/
def nonceSigned (key : ℕ) (signature : ℕ × ℕ × VoteOn ℕ) (vote : VoteOn ℕ) : Bool :=
  signature.1 = key && signature.2.2 = vote

/-- A chain in its first term whose validator set is the key `7`, with a header
at every height. -/
def firstTermEnvironment : Environment ℕ ℕ ℕ Unit Unit :=
  ⟨id, fun _ _ _ => .error "",
    ⟨fun _ => none, fun _ => some ⟨0, 0, 0, 0, 0, ()⟩, fun _ => some 0, fun _ => none⟩, ⟨⟨[7]⟩⟩⟩

/-- One precommit at height 1 for block 5. -/
def resigned : VoteOn ℕ :=
  ⟨⟨1, 0, .precommit⟩, some 5⟩

/-- Key `7` signed one vote twice, with the nonces 1 and 2, and never voted for
another block.  The report of the two signatures passes `Action::verify`, and
`Stake::execute` bans address `7`, although the two messages vote for the same
block. -/
theorem reportDoubleVote_bans_resigner :
    (∀ params : CommonParams,
      (Action.reportDoubleVote (⟨resigned, (7, 1, resigned), 0⟩ : ConsensusMessage ℕ (ℕ × ℕ × VoteOn ℕ))
        ⟨resigned, (7, 2, resigned), 0⟩ : Action ℕ ℕ Unit (ℕ × ℕ × VoteOn ℕ)).verify
          firstTermEnvironment nonceSigned params = .ok ()) ∧
    ∃ state', execute firstTermEnvironment
        (.reportDoubleVote (⟨resigned, (7, 1, resigned), 0⟩ : ConsensusMessage ℕ (ℕ × ℕ × VoteOn ℕ))
          ⟨resigned, (7, 2, resigned), 0⟩ : Action ℕ ℕ Unit (ℕ × ℕ × VoteOn ℕ))
        (StakeState.empty (fun _ => 0) ⟨0, none, 0, 0⟩) 0 0 = .ok state' ∧
      7 ∈ state'.banned ∧
      (⟨resigned, (7, 1, resigned), 0⟩ : ConsensusMessage ℕ (ℕ × ℕ × VoteOn ℕ)).blockHash =
        (⟨resigned, (7, 2, resigned), 0⟩ : ConsensusMessage ℕ (ℕ × ℕ × VoteOn ℕ)).blockHash :=
  ⟨fun _ => rfl, _, rfl, by decide, rfl⟩

/-- At that report, what the general theorem says of the banned key: it signed
the one vote twice. -/
theorem reportDoubleVote_bans_signer_resigned :
    ∃ state', execute firstTermEnvironment
        (.reportDoubleVote (⟨resigned, (7, 1, resigned), 0⟩ : ConsensusMessage ℕ (ℕ × ℕ × VoteOn ℕ))
          ⟨resigned, (7, 2, resigned), 0⟩ : Action ℕ ℕ Unit (ℕ × ℕ × VoteOn ℕ))
        (StakeState.empty (fun _ => 0) ⟨0, none, 0, 0⟩) 0 0 = .ok state' ∧
      ∃ parent signer, firstTermEnvironment.client.blockHeaderByNumber (1 - 1) = some parent ∧
        firstTermEnvironment.publicToAddress signer = 7 ∧
        (⟨resigned, (7, 1, resigned), 0⟩ : ConsensusMessage ℕ (ℕ × ℕ × VoteOn ℕ)).verify nonceSigned signer = true ∧
        (⟨resigned, (7, 1, resigned), 0⟩ : ConsensusMessage ℕ (ℕ × ℕ × VoteOn ℕ)).on =
          (⟨resigned, (7, 2, resigned), 0⟩ : ConsensusMessage ℕ (ℕ × ℕ × VoteOn ℕ)).on := by
  refine ⟨_, rfl, ?_⟩
  obtain ⟨parent, signer, found, _, isSigner, signed1, _, _, _⟩ :=
    (reportDoubleVote_bans_signer nonceSigned firstTermEnvironment).1 ⟨0, 0, 0, 0, 0, 0, 0, 0, 0, 0, 0, 0, 0⟩
      ⟨resigned, (7, 1, resigned), 0⟩ ⟨resigned, (7, 2, resigned), 0⟩
      (StakeState.empty (fun _ => 0) ⟨0, none, 0, 0⟩) _ 0 7 0 rfl rfl (by decide) (by decide)
  exact ⟨parent, signer, found, isSigner, signed1, rfl⟩

end Stake

end CodeChain
