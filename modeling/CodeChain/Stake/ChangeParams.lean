import CodeChain.Stake.Actions
import CodeChain.Lib.Wrapping

/-!
# The stake majority of `ChangeParams`

`change_params` adds up, with `u64` wrapping, the stake of the signer of every
signature it carries, and accepts when that sum is more than half of the
wrapped total of `get_stakes`.  The loop counts a signer once per signature,
and `Action::verify` only checks that every signature recovers to some key.
When the signers are distinct and no sum wraps, the rule is the intended one:
the signers hold strictly more than half of all stakes.  A signature given
twice counts twice, so a minority signer can pass the rule alone.
-/

namespace CodeChain

namespace Stake

open AListTotal Consensus

variable {Address Public Signature : Type} [DecidableEq Address]
variable (publicToAddress : Public → Address)
variable (recover : Signature → UInt64 → CommonParams → Except String Public)

/-- The addresses of the keys the signatures recover to, one per signature
that recovers. -/
def recoveredSigners (metadataSeq : UInt64) (params : CommonParams)
    (signatures : List Signature) : List Address :=
  signatures.filterMap fun signature =>
    (recover signature metadataSeq params).toOption.map publicToAddress

/-- The stake of a list of signers, a repeated signer counted each time. -/
def countedStake (stakes : AList fun _ : Address => UInt64) (signers : List Address) : ℕ :=
  (signers.map (valueAt UInt64.toNat stakes)).sum

/-- The stake of the distinct signers, each counted once: what the majority
rule is about. -/
def distinctSignedStake (stakes : AList fun _ : Address => UInt64) (signers : List Address) : ℕ :=
  countedStake stakes signers.dedup

theorem countedStake_cons (stakes : AList fun _ : Address => UInt64) (signer : Address)
    (signers : List Address) :
    countedStake stakes (signer :: signers) =
      valueAt UInt64.toNat stakes signer + countedStake stakes signers := by
  simp [countedStake]

omit [DecidableEq Address] in
theorem recoveredSigners_cons {metadataSeq : UInt64} {params : CommonParams}
    {signature : Signature} {signer : Public} (signatures : List Signature)
    (recovered : recover signature metadataSeq params = .ok signer) :
    recoveredSigners publicToAddress recover metadataSeq params (signature :: signatures) =
      publicToAddress signer :: recoveredSigners publicToAddress recover metadataSeq params signatures := by
  simp [recoveredSigners, recovered, Except.toOption]

/-- The loop of `change_params` adds the stake of every recovered signer, once
per signature, modulo `2^64`: by induction on the signatures, from the spec of
one iteration. -/
theorem foldlM_addSignedStake {stakes : AList fun _ : Address => UInt64} {metadataSeq : UInt64}
    {params : CommonParams} {signatures : List Signature} {start result : UInt64}
    (run : signatures.foldlM (addSignedStake publicToAddress recover stakes metadataSeq params)
      start = .ok result) :
    result.toNat = (start.toNat +
      countedStake stakes (recoveredSigners publicToAddress recover metadataSeq params signatures)) %
        2 ^ 64 := by
  induction signatures generalizing start with
  | nil =>
      cases run
      simp only [recoveredSigners, List.filterMap_nil, countedStake, List.map_nil, List.sum_nil,
        add_zero]
      exact (Nat.mod_eq_of_lt (UInt64.toNat_lt _)).symm
  | cons signature signatures ih =>
      rw [List.foldlM_cons, Fault.bind_eq_ok] at run
      obtain ⟨middle, added, rest⟩ := run
      obtain ⟨signer, stake, recovered, found, rfl⟩ := addSignedStake_eq_ok publicToAddress added
      have counted : valueAt UInt64.toNat stakes (publicToAddress signer) = stake.toNat := by
        simp [valueAt, found]
      rw [ih rest, recoveredSigners_cons publicToAddress recover signatures recovered,
        countedStake_cons, counted, UInt64.toNat_add, Nat.mod_add_mod, Nat.add_assoc]

omit [DecidableEq Address] in
/-- The total of `get_stakes`, as `change_params` sums it, is the total stake
modulo `2^64`. -/
theorem toNat_totalStakes (stakes : AList fun _ : Address => UInt64) :
    (stakes.entries.map fun entry : (Sigma fun _ : Address => UInt64) => entry.2).sum.toNat =
      total UInt64.toNat stakes % 2 ^ 64 := by
  rw [Wrapping.toNat_sum, List.map_map]
  rfl

section Order

variable [LinearOrder Address]

/-- When no signer repeats and no sum wraps, `change_params` accepts only if the
signers hold strictly more than half of all stakes; the halving in
`total / 2 >= signed` is the right boundary for odd and even totals alike. -/
theorem changeParams_majority_of_nodup {state state' : StakeState Address Public}
    {metadataSeq : UInt64} {params : CommonParams} {signatures : List Signature}
    (changed : changeParams publicToAddress recover state metadataSeq params signatures = .ok state')
    (distinct : (recoveredSigners publicToAddress recover metadataSeq params signatures).Nodup)
    (signedFits : countedStake (getStakes state')
      (recoveredSigners publicToAddress recover metadataSeq params signatures) < 2 ^ 64)
    (totalFits : total UInt64.toNat (getStakes state') < 2 ^ 64) :
    total UInt64.toNat (getStakes state') <
      2 * distinctSignedStake (getStakes state')
        (recoveredSigners publicToAddress recover metadataSeq params signatures) := by
  simp only [changeParams, Fault.bind_eq_ok] at changed
  obtain ⟨updated, -, signed, loop, accepted⟩ := changed
  split at accepted
  · simp [Fault.fail] at accepted
  rename_i enough
  cases accepted
  have signedValue := foldlM_addSignedStake publicToAddress recover loop
  rw [UInt64.toNat_zero, zero_add, Nat.mod_eq_of_lt signedFits] at signedValue
  have totalValue := toNat_totalStakes (getStakes state')
  rw [Nat.mod_eq_of_lt totalFits] at totalValue
  -- `total / 2 >= signed` failed: the signed stake is above half the total
  have above : (total UInt64.toNat (getStakes state')) / 2 < signed.toNat := by
    rw [ge_iff_le, UInt64.le_iff_toNat_le, UInt64.toNat_div, totalValue] at enough
    simpa using enough
  rw [distinctSignedStake, distinct.dedup]
  omega

/-- Address `0` holds 1 CCS and address `1` holds 2.  A `ChangeParams` carrying
the signature of `0` twice passes `Action::verify`, and `change_params` accepts
it, although the only signer holds 1 of the 3 CCS. -/
theorem changeParams_counts_repeated_signer (client : ConsensusClient Unit ℕ ℕ Unit)
    (validatorSet : DynamicValidator ℕ) (verifySchnorr : ℕ → Unit → VoteOn Unit → Bool) :
    let params : CommonParams := ⟨0, 0, 0, 0, 0, 0, 0, 0, 0, 0, 0, 0, 0⟩
    let recoverKey : ℕ → UInt64 → CommonParams → Except String ℕ :=
      fun signature _ _ => .ok signature
    let env : Environment ℕ ℕ Unit ℕ Unit := ⟨id, recoverKey, client, validatorSet⟩
    let state : StakeState ℕ ℕ := init (((∅ : AList fun _ : ℕ => UInt64).insert 0 1).insert 1 2)
      (StakeState.empty (fun _ => 0) ⟨0, some params, 0, 0⟩)
    (.changeParams 0 params [0, 0] : Action ℕ Unit ℕ Unit).verify env verifySchnorr params = .ok () ∧
      ∃ state', changeParams id recoverKey state 0 params [0, 0] = .ok state' ∧
        2 * distinctSignedStake (getStakes state')
            (recoveredSigners id recoverKey 0 params [0, 0]) ≤
          total UInt64.toNat (getStakes state') := by
  intro params recoverKey env state
  have holders : state.stakeholders = {0, 1} := by decide
  have iter : (Stakeholders.loadFromState state).iter = [0, 1] := by
    simp only [Stakeholders.iter, Stakeholders.loadFromState, holders]
    decide
  have stakes : getStakes state = ((∅ : AList fun _ : ℕ => UInt64).insert 0 1).insert 1 2 := by
    unfold getStakes
    rw [iter]
    rfl
  have seq : state.metadata.seq = 0 := rfl
  refine ⟨rfl, ?_⟩
  simp only [changeParams, StakeState.updateParams, seq, ne_eq, not_true_eq_false, if_false,
    Fault.ok_bind, getStakes_withMetadata, stakes]
  refine ⟨_, rfl, ?_⟩
  rw [getStakes_withMetadata, stakes]
  decide

end Order

end Stake

end CodeChain
