import CodeChain.Consensus.Engine
import CodeChain.Lib.FloorShares
import CodeChain.Lib.Wrapping

/-!
# The arithmetic of rewards

Three computations of `on_close_block` (`tendermint/engine.rs`,
`stake/distribute.rs`) share out CCC:

* `fee_distribute` gives each stakeholder its part of the minimum fees, in
  proportion to its stake and rounded down, and leaves the rest to the author;
* `final_rewards` lowers the reward of a validator that signed few of the blocks
  of a term, by a piecewise-linear factor of its share of signatures;
* `give_additional_rewards` pays what those penalties took to the validators
  that missed the fewest signatures, group by group, and burns the rest.

The sums of shares are unbounded here and related to the `u64` and `i128`
values the code computes.
-/

namespace CodeChain

namespace Consensus

open Stake

/-! ### The fee distribution -/

section FeeDistribution

variable {Address : Type} {ε : Type}

/-- The stakes of the stakeholders, unbounded. -/
def stakeWeights (stakes : AList fun _ : Address => UInt64) : List ℕ :=
  stakes.entries.map fun entry => entry.2.toNat

/-- The share of one stake, as `share` gives it. -/
theorem share_eq_ok {totalStakes stake : UInt64} (totalMinFee : UInt64)
    (within : stake.toNat ≤ totalStakes.toNat) (positive : 0 < totalStakes.toNat) :
    (share totalStakes stake totalMinFee : Except (Fault ε) UInt64) =
      .ok (UInt64.ofNat (totalMinFee.toNat * stake.toNat / totalStakes.toNat)) := by
  have fits : totalMinFee.toNat * stake.toNat / totalStakes.toNat < 2 ^ 64 :=
    calc totalMinFee.toNat * stake.toNat / totalStakes.toNat
        ≤ totalMinFee.toNat * totalStakes.toNat / totalStakes.toNat :=
          Nat.div_le_div_right (Nat.mul_le_mul_left _ within)
      _ = totalMinFee.toNat := Nat.mul_div_cancel _ positive
      _ < 2 ^ 64 := totalMinFee.toNat_lt
  have enough : totalStakes ≥ stake := UInt64.le_iff_toNat_le.mpr within
  have nonzero : totalStakes ≠ 0 := by
    intro zero
    rw [zero] at positive
    exact absurd positive (by decide)
  simp [share, enough, nonzero]
  exact fits

/-- The pure loop of `fee_distribute`: the share of the next stake is paid and
taken from what is left. -/
def feeStep (totalStakes : ℕ) (totalMinFee : UInt64) (acc : List (Address × UInt64) × UInt64)
    (entry : Σ _ : Address, UInt64) : List (Address × UInt64) × UInt64 :=
  let share := UInt64.ofNat (totalMinFee.toNat * entry.2.toNat / totalStakes)
  (acc.1 ++ [(entry.1, share)], acc.2 - share)

theorem foldl_feeStep (totalStakes : ℕ) (totalMinFee : UInt64) (entries : List (Σ _ : Address, UInt64))
    (paid : List (Address × UInt64)) (left : UInt64) :
    entries.foldl (feeStep totalStakes totalMinFee) (paid, left) =
      (paid ++ entries.map (fun entry =>
          (entry.1, UInt64.ofNat (totalMinFee.toNat * entry.2.toNat / totalStakes))),
        left - (entries.map fun entry =>
          UInt64.ofNat (totalMinFee.toNat * entry.2.toNat / totalStakes)).sum) := by
  induction entries generalizing paid left with
  | nil => simp
  | cons entry entries ih =>
    rw [List.foldl_cons, feeStep, ih]
    simp [sub_add_eq_sub_sub]

/-- What is left after some of the shares, when they take at most the fee. -/
theorem sub_sum_shares_toNat (totalMinFee : UInt64) (shares : List ℕ)
    (within : shares.sum ≤ totalMinFee.toNat) :
    (totalMinFee - (shares.map UInt64.ofNat).sum).toNat = totalMinFee.toNat - shares.sum := by
  have each : ∀ share ∈ shares, share < 2 ^ 64 := fun share member =>
    lt_of_le_of_lt ((List.le_sum_of_mem member).trans within) totalMinFee.toNat_lt
  have exact : (shares.map UInt64.ofNat).map UInt64.toNat = shares := by
    rw [List.map_map]
    exact List.map_congr_left (fun share member => UInt64.toNat_ofNat_of_lt' (each share member)) |>.trans
      (List.map_id shares)
  have taken : ((shares.map UInt64.ofNat).sum).toNat = shares.sum := by
    rw [Wrapping.toNat_sum_of_lt (by rw [exact]; exact lt_of_le_of_lt within totalMinFee.toNat_lt), exact]
  rw [UInt64.toNat_sub_of_le _ _ (UInt64.le_iff_toNat_le.mpr (taken ▸ within)), taken]

/-- Fully iterated, `fee_distribute` gives every stakeholder once, in the
order of the map, its stake's part of the fee rounded down, and never panics;
the fee left for the author is the fee less the shares, below the number of
stakeholders when there is one. -/
theorem feeDistribute_shares (totalMinFee : UInt64) (stakes : AList fun _ : Address => UInt64)
    (fits : (stakeWeights stakes).sum < 2 ^ 64)
    (positive : stakes.entries ≠ [] → 0 < (stakeWeights stakes).sum) :
    ∃ remainingFee : UInt64,
      (feeDistribute totalMinFee stakes : Except (Fault ε) _) =
        .ok (stakes.entries.map (fun entry =>
          (entry.1, UInt64.ofNat (totalMinFee.toNat * entry.2.toNat / (stakeWeights stakes).sum))),
          remainingFee) ∧
      remainingFee.toNat +
          (FloorShares.shares totalMinFee.toNat (stakeWeights stakes).sum (stakeWeights stakes)).sum =
        totalMinFee.toNat ∧
      (stakes.entries = [] → remainingFee = totalMinFee) ∧
      (stakes.entries ≠ [] → remainingFee.toNat < stakes.entries.length) := by
  set total := (stakeWeights stakes).sum with totalDef
  set shares := FloorShares.shares totalMinFee.toNat total (stakeWeights stakes) with sharesDef
  have totalStakes :
      ((stakes.entries.map fun entry : (Σ _ : Address, UInt64) => entry.2).sum).toNat = total := by
    rw [Wrapping.toNat_sum_of_lt (by rw [List.map_map]; exact fits), List.map_map]
    rfl
  have taken : shares.sum ≤ totalMinFee.toNat := FloorShares.sum_shares_le _ le_rfl
  -- the shares of the stakes, as `u64`s
  have sharesOf : ∀ entries : List (Σ _ : Address, UInt64),
      entries.map (fun entry => UInt64.ofNat (totalMinFee.toNat * entry.2.toNat / total)) =
        (FloorShares.shares totalMinFee.toNat total (entries.map fun entry => entry.2.toNat)).map
          UInt64.ofNat := by
    intro entries
    simp [FloorShares.shares, List.map_map, Function.comp_def]
  have run : (feeDistribute totalMinFee stakes : Except (Fault ε) _) =
      .ok (stakes.entries.foldl (feeStep total totalMinFee) ([], totalMinFee)) := by
    unfold feeDistribute
    refine Fault.foldlM_eq_ok_foldl _ fun done entry rest split => ?_
    have member : entry ∈ stakes.entries := by rw [split]; simp
    have within : entry.2.toNat ≤ total := by
      rw [totalDef, stakeWeights]
      exact List.le_sum_of_mem (List.mem_map_of_mem member)
    have nonempty : 0 < total := positive (List.ne_nil_of_mem member)
    -- the shares paid so far and this one take at most the fee
    have prefixTaken : (FloorShares.shares totalMinFee.toNat total
        ((done ++ [entry]).map fun entry => entry.2.toNat)).sum ≤ totalMinFee.toNat := by
      refine le_trans ?_ taken
      apply List.Sublist.sum_le_sum _ (fun _ _ => Nat.zero_le _)
      rw [sharesDef, stakeWeights, split]
      exact ((List.sublist_append_left _ rest).trans (by simp)).map _ |>.map _
    simp only [FloorShares.shares, List.map_append, List.map_cons, List.map_nil, List.sum_append,
      List.sum_cons, List.sum_nil, add_zero] at prefixTaken
    rw [foldl_feeStep, share_eq_ok _ (totalStakes ▸ within) (totalStakes ▸ nonempty), totalStakes]
    have left := sub_sum_shares_toNat totalMinFee
      (FloorShares.shares totalMinFee.toNat total (done.map fun entry => entry.2.toNat))
      (le_trans (Nat.le_add_right _ _) prefixTaken)
    have fitsShare : totalMinFee.toNat * entry.2.toNat / total < 2 ^ 64 :=
      lt_of_le_of_lt (by omega) totalMinFee.toNat_lt
    -- what is left covers this share, so the `checked_sub` succeeds
    have enough : UInt64.ofNat (totalMinFee.toNat * entry.2.toNat / total) ≤
        totalMinFee - (done.map fun entry => UInt64.ofNat (totalMinFee.toNat * entry.2.toNat / total)).sum := by
      rw [UInt64.le_iff_toNat_le, sharesOf, left, UInt64.toNat_ofNat_of_lt' fitsShare]
      simp only [FloorShares.shares]
      omega
    simp [enough, feeStep, Fault.expect]
  rw [foldl_feeStep] at run
  have allShares : stakes.entries.map (fun entry => UInt64.ofNat (totalMinFee.toNat * entry.2.toNat / total)) =
      shares.map UInt64.ofNat :=
    sharesOf stakes.entries
  refine ⟨_, run, ?_, ?_, ?_⟩
  · rw [allShares, sub_sum_shares_toNat totalMinFee shares taken]
    omega
  · intro empty
    simp [empty]
  · intro nonempty
    rw [allShares, sub_sum_shares_toNat totalMinFee shares taken]
    have less := FloorShares.sub_sum_shares_lt totalMinFee.toNat (positive nonempty) rfl
      (by simpa [stakeWeights] using nonempty)
    rw [stakeWeights, List.length_map] at less
    exact less

/-- Two stakeholders with ten each. -/
def twoStakes : AList fun _ : ℕ => UInt64 :=
  ⟨[⟨1, 10⟩, ⟨2, 10⟩], by simp [List.NodupKeys]⟩

theorem feeDistribute_shares_of_twoStakes :
    (stakeWeights twoStakes).sum < 2 ^ 64 ∧ (twoStakes.entries ≠ [] → 0 < (stakeWeights twoStakes).sum) ∧
    ∃ remainingFee : UInt64,
      (feeDistribute 101 twoStakes : Except (Fault Unit) _) =
        .ok (twoStakes.entries.map (fun entry =>
          (entry.1, UInt64.ofNat ((101 : UInt64).toNat * entry.2.toNat / (stakeWeights twoStakes).sum))),
          remainingFee) ∧
      remainingFee.toNat +
          (FloorShares.shares (101 : UInt64).toNat (stakeWeights twoStakes).sum (stakeWeights twoStakes)).sum =
        (101 : UInt64).toNat ∧
      (twoStakes.entries = [] → remainingFee = 101) ∧
      (twoStakes.entries ≠ [] → remainingFee.toNat < twoStakes.entries.length) :=
  have fits : (stakeWeights twoStakes).sum < 2 ^ 64 := by decide
  have positive : twoStakes.entries ≠ [] → 0 < (stakeWeights twoStakes).sum := fun _ => by decide
  ⟨fits, positive, feeDistribute_shares 101 twoStakes fits positive⟩

end FeeDistribution

/-! ### The penalty for missed signatures -/

section FinalRewards

variable {ε : Type}

/-- The coefficients `(a, b)` of `final_rewards`, by the share of the blocks the
validator signed: the reward is `⌊r · (a · s / n + b) / 10⌋`.  The products in
the comparisons are `u64` products. -/
def rewardCoefficients (numberOfSignatures numberOfBlocksInTerm : UInt64) : Except (Fault ε) (ℤ × ℤ) :=
  if numberOfSignatures * 3 ≥ numberOfBlocksInTerm * 2 then .ok (3, 7)
  else if numberOfSignatures * 2 ≥ numberOfBlocksInTerm then .ok (48, -23)
  else if numberOfSignatures * 3 ≥ numberOfBlocksInTerm then .ok (6, -2)
  else do
    Fault.ensure (numberOfBlocksInTerm > 3 * numberOfSignatures)
      "number_of_signatures / number_of_blocks_in_term"
    pure (0, 0)

/-- An `i128` product: the value modulo `2 ^ 128`, from `-2 ^ 127` below `2 ^ 127`. -/
def wrapI128 (value : ℤ) : ℤ :=
  value.bmod (2 ^ 128)

/-- `final_rewards`, in `i128` with a division that rounds towards zero. -/
def finalRewards (intermediateReward numberOfSignatures numberOfBlocksInTerm : UInt64) :
    Except (Fault ε) UInt64 := do
  let coefficients ← rewardCoefficients numberOfSignatures numberOfBlocksInTerm
  let numerator := wrapI128 (intermediateReward.toNat *
    (coefficients.1 * numberOfSignatures.toNat + coefficients.2 * numberOfBlocksInTerm.toNat))
  Fault.ensure (numerator ≥ 0) "assertion failed: numerator >= 0"
  let denominator : ℤ := 10 * numberOfBlocksInTerm.toNat
  Fault.ensure (denominator ≠ 0) "attempt to divide by zero"
  let quotient := numerator.tdiv denominator
  Fault.expect (if 0 ≤ quotient ∧ quotient < 2 ^ 64 then some (UInt64.ofNat quotient.toNat) else none)
    "called `Result::unwrap()` on an `Err` value"

/-- A term long enough that `3 · n` wraps but `2 · n` does not sends a validator
that signed every block to the `48 / 10 · x - 23 / 10` arm. -/
theorem rewardCoefficients_full_term_of_wrapped {numberOfBlocksInTerm : UInt64}
    (wraps : 2 ^ 64 ≤ 3 * numberOfBlocksInTerm.toNat) (doubles : 2 * numberOfBlocksInTerm.toNat < 2 ^ 64) :
    (rewardCoefficients numberOfBlocksInTerm numberOfBlocksInTerm : Except (Fault ε) (ℤ × ℤ)) =
      .ok (48, -23) := by
  have tripled : (numberOfBlocksInTerm * 3).toNat = 3 * numberOfBlocksInTerm.toNat - 2 ^ 64 := by
    rw [UInt64.toNat_mul, Nat.mod_eq_sub_mod (by simpa [Nat.mul_comm] using wraps),
      Nat.mod_eq_of_lt (by simp only [UInt64.toNat_ofNat]; omega)]
    simp [Nat.mul_comm]
  have doubled : (numberOfBlocksInTerm * 2).toNat = 2 * numberOfBlocksInTerm.toNat := by
    rw [UInt64.toNat_mul, Nat.mod_eq_of_lt (by simp only [UInt64.toNat_ofNat]; omega)]
    simp [Nat.mul_comm]
  -- the wrapped `3 · n` is below `2 · n`, and `2 · n` is at least `n`
  have notTwoThirds : ¬ numberOfBlocksInTerm * 3 ≥ numberOfBlocksInTerm * 2 := by
    rw [ge_iff_le, UInt64.le_iff_toNat_le, tripled, doubled]
    have := numberOfBlocksInTerm.toNat_lt
    omega
  have half : numberOfBlocksInTerm * 2 ≥ numberOfBlocksInTerm := by
    rw [ge_iff_le, UInt64.le_iff_toNat_le, doubled]
    omega
  simp [rewardCoefficients, notTwoThirds, half]

/-- `final_rewards` once its arm is chosen: when the `i128` numerator is a
natural number below `2 ^ 127`, it does not wrap and passes the assertion, and
when its quotient fits in a `u64`, that quotient is the reward. -/
theorem finalRewards_of_numerator {intermediateReward numberOfSignatures numberOfBlocksInTerm : UInt64}
    {a b : ℤ} {numerator : ℕ}
    (arm : (rewardCoefficients numberOfSignatures numberOfBlocksInTerm : Except (Fault ε) (ℤ × ℤ)) = .ok (a, b))
    (exact : (intermediateReward.toNat : ℤ) * (a * numberOfSignatures.toNat + b * numberOfBlocksInTerm.toNat) =
      numerator)
    (noOverflow : numerator < 2 ^ 127) (term : 0 < numberOfBlocksInTerm.toNat)
    (fits : numerator / (10 * numberOfBlocksInTerm.toNat) < 2 ^ 64) :
    (finalRewards intermediateReward numberOfSignatures numberOfBlocksInTerm : Except (Fault ε) UInt64) =
      .ok (UInt64.ofNat (numerator / (10 * numberOfBlocksInTerm.toNat))) := by
  have product : wrapI128 (intermediateReward.toNat * (a * numberOfSignatures.toNat + b * numberOfBlocksInTerm.toNat)) =
      (numerator : ℤ) := by
    have low : -(((2 ^ 128 : ℕ) : ℤ) / 2) ≤ (numerator : ℤ) := le_trans (by norm_num) (Int.natCast_nonneg _)
    have high : (numerator : ℤ) < (((2 ^ 128 : ℕ) : ℤ) + 1) / 2 :=
      lt_of_lt_of_le (show (numerator : ℤ) < 2 ^ 127 by exact_mod_cast noOverflow) (by norm_num)
    rw [wrapI128, exact, Int.bmod_eq_of_le low high]
  -- a nonnegative numerator over a positive denominator: `tdiv` is the floor
  have quotient : (numerator : ℤ).tdiv (10 * (numberOfBlocksInTerm.toNat : ℤ)) =
      ((numerator / (10 * numberOfBlocksInTerm.toNat) : ℕ) : ℤ) := by
    rw [Int.natCast_tdiv_eq_ediv, Int.natCast_div]
    push_cast
    rfl
  have inRange : (0 : ℤ) ≤ ((numerator / (10 * numberOfBlocksInTerm.toNat) : ℕ) : ℤ) ∧
      ((numerator / (10 * numberOfBlocksInTerm.toNat) : ℕ) : ℤ) < 2 ^ 64 :=
    ⟨Int.natCast_nonneg _, by exact_mod_cast fits⟩
  have denominator : 10 * (numberOfBlocksInTerm.toNat : ℤ) ≠ 0 := by omega
  have nonneg : decide ((numerator : ℤ) ≥ 0) = true := decide_eq_true (Int.natCast_nonneg _)
  rw [finalRewards, arm, Fault.ok_bind]
  dsimp only
  rw [product, quotient, nonneg, decide_eq_true denominator, if_pos inRange, Int.toNat_natCast]
  rfl

/-- A validator that signed every block of such a term is paid `⌊5 r / 2⌋`,
two and a half times its reward, rather than its reward. -/
theorem finalRewards_full_term_of_wrapped (intermediateReward numberOfBlocksInTerm : UInt64)
    (wraps : 2 ^ 64 ≤ 3 * numberOfBlocksInTerm.toNat) (doubles : 2 * numberOfBlocksInTerm.toNat < 2 ^ 64)
    (noOverflow : 25 * intermediateReward.toNat * numberOfBlocksInTerm.toNat < 2 ^ 127)
    (fits : 5 * intermediateReward.toNat / 2 < 2 ^ 64) :
    (finalRewards intermediateReward numberOfBlocksInTerm numberOfBlocksInTerm : Except (Fault ε) UInt64) =
      .ok (UInt64.ofNat (5 * intermediateReward.toNat / 2)) := by
  have positive : 0 < numberOfBlocksInTerm.toNat := by omega
  -- the `(48, -23)` arm at `s = n` gives the numerator `25 r n`
  have exact : (intermediateReward.toNat : ℤ) *
      ((48 : ℤ) * numberOfBlocksInTerm.toNat + (-23 : ℤ) * numberOfBlocksInTerm.toNat) =
      ((25 * intermediateReward.toNat * numberOfBlocksInTerm.toNat : ℕ) : ℤ) := by
    push_cast
    ring
  -- `⌊25 r n / 10 n⌋ = ⌊5 r / 2⌋`
  have scaled : 25 * intermediateReward.toNat * numberOfBlocksInTerm.toNat / (10 * numberOfBlocksInTerm.toNat) =
      5 * intermediateReward.toNat / 2 := by
    rw [show 25 * intermediateReward.toNat * numberOfBlocksInTerm.toNat =
        5 * intermediateReward.toNat * (5 * numberOfBlocksInTerm.toNat) by ring,
      show 10 * numberOfBlocksInTerm.toNat = 2 * (5 * numberOfBlocksInTerm.toNat) by ring,
      Nat.mul_div_mul_right _ _ (by omega)]
  rw [← scaled]
  exact finalRewards_of_numerator (rewardCoefficients_full_term_of_wrapped wraps doubles) exact noOverflow positive
    (scaled ▸ fits)

/-- A term of `⌈2 ^ 64 / 3⌉` blocks, every one signed: a reward of one is paid
twice. -/
theorem finalRewards_full_term_pays_two :
    (finalRewards 1 6148914691236517207 6148914691236517207 : Except (Fault Unit) UInt64) = .ok 2 :=
  finalRewards_full_term_of_wrapped 1 6148914691236517207 (by decide) (by decide) (by decide) (by decide)

/-! Below that length nothing wraps, and the reward is the piecewise linear
function the comments beside the arms describe. -/

/-- The arm of `final_rewards` in exact arithmetic, by the share `s / n` of the
blocks the validator signed. -/
def rewardArm (numberOfSignatures numberOfBlocksInTerm : ℕ) : ℤ × ℤ :=
  if numberOfSignatures * 3 ≥ numberOfBlocksInTerm * 2 then (3, 7)
  else if numberOfSignatures * 2 ≥ numberOfBlocksInTerm then (48, -23)
  else if numberOfSignatures * 3 ≥ numberOfBlocksInTerm then (6, -2)
  else (0, 0)

/-- `a · s + b · n`: the reward is `⌊r · (a · s + b · n) / 10 n⌋`. -/
def rewardShare (numberOfSignatures numberOfBlocksInTerm : ℕ) : ℤ :=
  (rewardArm numberOfSignatures numberOfBlocksInTerm).1 * numberOfSignatures +
    (rewardArm numberOfSignatures numberOfBlocksInTerm).2 * numberOfBlocksInTerm

-- Each arm is nonnegative on its own range, which is why the assertion
-- `numerator >= 0` holds; the arms meet at one half and two thirds.
theorem rewardShare_nonneg (numberOfSignatures numberOfBlocksInTerm : ℕ) :
    0 ≤ rewardShare numberOfSignatures numberOfBlocksInTerm := by
  unfold rewardShare rewardArm
  split_ifs <;> omega

theorem rewardShare_le {numberOfSignatures numberOfBlocksInTerm : ℕ}
    (signed : numberOfSignatures ≤ numberOfBlocksInTerm) :
    rewardShare numberOfSignatures numberOfBlocksInTerm ≤ 10 * numberOfBlocksInTerm := by
  unfold rewardShare rewardArm
  split_ifs <;> omega

/-- More signatures never lower the share, also across two arms. -/
theorem rewardShare_mono {fewer more : ℕ} (numberOfBlocksInTerm : ℕ) (le : fewer ≤ more) :
    rewardShare fewer numberOfBlocksInTerm ≤ rewardShare more numberOfBlocksInTerm := by
  unfold rewardShare rewardArm
  split_ifs <;> omega

theorem rewardShare_self (numberOfBlocksInTerm : ℕ) :
    rewardShare numberOfBlocksInTerm numberOfBlocksInTerm = 10 * numberOfBlocksInTerm := by
  unfold rewardShare rewardArm
  split_ifs <;> omega

theorem rewardShare_of_lt_third {numberOfSignatures numberOfBlocksInTerm : ℕ}
    (third : 3 * numberOfSignatures < numberOfBlocksInTerm) :
    rewardShare numberOfSignatures numberOfBlocksInTerm = 0 := by
  unfold rewardShare rewardArm
  split_ifs <;> omega

/-- When `3 · n` fits in a `u64`, the comparisons of `final_rewards` are exact
and the assertion of the last arm holds. -/
theorem rewardCoefficients_of_short {numberOfSignatures numberOfBlocksInTerm : UInt64}
    (short : 3 * numberOfBlocksInTerm.toNat < 2 ^ 64) (signed : numberOfSignatures.toNat ≤ numberOfBlocksInTerm.toNat) :
    (rewardCoefficients numberOfSignatures numberOfBlocksInTerm : Except (Fault ε) (ℤ × ℤ)) =
      .ok (rewardArm numberOfSignatures.toNat numberOfBlocksInTerm.toNat) := by
  have three : (3 : UInt64).toNat = 3 := rfl
  have two : (2 : UInt64).toNat = 2 := rfl
  have tripled : (numberOfSignatures * 3).toNat = numberOfSignatures.toNat * 3 := by
    rw [Wrapping.toNat_mul_of_lt (by rw [three]; omega), three]
  have tripledBefore : (3 * numberOfSignatures).toNat = 3 * numberOfSignatures.toNat := by
    rw [Wrapping.toNat_mul_of_lt (by rw [three]; omega), three]
  have doubled : (numberOfSignatures * 2).toNat = numberOfSignatures.toNat * 2 := by
    rw [Wrapping.toNat_mul_of_lt (by rw [two]; omega), two]
  have doubledTerm : (numberOfBlocksInTerm * 2).toNat = numberOfBlocksInTerm.toNat * 2 := by
    rw [Wrapping.toNat_mul_of_lt (by rw [two]; omega), two]
  unfold rewardCoefficients rewardArm
  simp only [ge_iff_le, gt_iff_lt, UInt64.le_iff_toNat_le, UInt64.lt_iff_toNat_lt, tripled, tripledBefore,
    doubled, doubledTerm]
  split_ifs with twoThirds half third
  all_goals try rfl
  -- below one third the assertion `n > 3 · s` holds
  simp [Fault.ensure, show 3 * numberOfSignatures.toNat < numberOfBlocksInTerm.toNat by omega, pure, Except.pure]

/-- Below the wrapping lengths, and while the `i128` product fits, `final_rewards`
is `⌊r · (a · s + b · n) / 10 n⌋` with the arm chosen in exact arithmetic. -/
theorem finalRewards_of_short {intermediateReward numberOfSignatures numberOfBlocksInTerm : UInt64}
    (term : 0 < numberOfBlocksInTerm.toNat) (signed : numberOfSignatures.toNat ≤ numberOfBlocksInTerm.toNat)
    (short : 3 * numberOfBlocksInTerm.toNat < 2 ^ 64)
    (noOverflow : 10 * intermediateReward.toNat * numberOfBlocksInTerm.toNat < 2 ^ 127) :
    (finalRewards intermediateReward numberOfSignatures numberOfBlocksInTerm : Except (Fault ε) UInt64) =
      .ok (UInt64.ofNat ((rewardShare numberOfSignatures.toNat numberOfBlocksInTerm.toNat).toNat *
        intermediateReward.toNat / (10 * numberOfBlocksInTerm.toNat))) := by
  set share := (rewardShare numberOfSignatures.toNat numberOfBlocksInTerm.toNat).toNat
  have shared : rewardShare numberOfSignatures.toNat numberOfBlocksInTerm.toNat = share :=
    (Int.toNat_of_nonneg (rewardShare_nonneg _ _)).symm
  have bounded : share ≤ 10 * numberOfBlocksInTerm.toNat := by
    have := rewardShare_le signed
    omega
  have exact : (intermediateReward.toNat : ℤ) *
      ((rewardArm numberOfSignatures.toNat numberOfBlocksInTerm.toNat).1 * numberOfSignatures.toNat +
        (rewardArm numberOfSignatures.toNat numberOfBlocksInTerm.toNat).2 * numberOfBlocksInTerm.toNat) =
      ((share * intermediateReward.toNat : ℕ) : ℤ) := by
    change (intermediateReward.toNat : ℤ) * rewardShare _ _ = _
    rw [shared]
    push_cast
    ring
  -- `r · share ≤ 10 r n < 2 ^ 127`, and the reward is at most `r`
  have within : share * intermediateReward.toNat < 2 ^ 127 :=
    calc share * intermediateReward.toNat
        ≤ 10 * numberOfBlocksInTerm.toNat * intermediateReward.toNat := Nat.mul_le_mul_right _ bounded
      _ = 10 * intermediateReward.toNat * numberOfBlocksInTerm.toNat := by ring
      _ < 2 ^ 127 := noOverflow
  have fits := lt_of_le_of_lt (FloorShares.share_le intermediateReward.toNat bounded) intermediateReward.toNat_lt
  exact finalRewards_of_numerator (rewardCoefficients_of_short short signed) exact within term fits

/-- At every term length where neither `3 · n` nor the `i128` product wraps (any
term shorter than `2 ^ 63 / 10` blocks), `final_rewards` pays at most the
intermediate reward, more for more signatures, all of it for a validator that
signed every block and nothing below one third of the blocks. -/
theorem finalRewards_spec (intermediateReward numberOfBlocksInTerm : UInt64) (term : 0 < numberOfBlocksInTerm.toNat)
    (short : 3 * numberOfBlocksInTerm.toNat < 2 ^ 64)
    (noOverflow : 10 * intermediateReward.toNat * numberOfBlocksInTerm.toNat < 2 ^ 127) :
    (∀ numberOfSignatures, numberOfSignatures ≤ numberOfBlocksInTerm →
      ∃ reward, (finalRewards intermediateReward numberOfSignatures numberOfBlocksInTerm :
        Except (Fault ε) UInt64) = .ok reward ∧ reward ≤ intermediateReward) ∧
    (∀ fewer more fewerReward moreReward, fewer ≤ more → more ≤ numberOfBlocksInTerm →
      (finalRewards intermediateReward fewer numberOfBlocksInTerm : Except (Fault ε) UInt64) = .ok fewerReward →
      (finalRewards intermediateReward more numberOfBlocksInTerm : Except (Fault ε) UInt64) = .ok moreReward →
      fewerReward ≤ moreReward) ∧
    (finalRewards intermediateReward numberOfBlocksInTerm numberOfBlocksInTerm : Except (Fault ε) UInt64) =
      .ok intermediateReward ∧
    (∀ numberOfSignatures, 3 * numberOfSignatures.toNat < numberOfBlocksInTerm.toNat →
      (finalRewards intermediateReward numberOfSignatures numberOfBlocksInTerm : Except (Fault ε) UInt64) =
        .ok 0) := by
  -- every reward is `⌊share · r / 10 n⌋ ≤ r < 2 ^ 64`, so `UInt64.ofNat` keeps it
  have exact : ∀ {numberOfSignatures : UInt64}, numberOfSignatures.toNat ≤ numberOfBlocksInTerm.toNat →
      (UInt64.ofNat ((rewardShare numberOfSignatures.toNat numberOfBlocksInTerm.toNat).toNat *
        intermediateReward.toNat / (10 * numberOfBlocksInTerm.toNat))).toNat =
        (rewardShare numberOfSignatures.toNat numberOfBlocksInTerm.toNat).toNat *
          intermediateReward.toNat / (10 * numberOfBlocksInTerm.toNat) ∧
      (rewardShare numberOfSignatures.toNat numberOfBlocksInTerm.toNat).toNat *
        intermediateReward.toNat / (10 * numberOfBlocksInTerm.toNat) ≤ intermediateReward.toNat := by
    intro numberOfSignatures signed
    have atMost := FloorShares.share_le intermediateReward.toNat
      (show (rewardShare numberOfSignatures.toNat numberOfBlocksInTerm.toNat).toNat ≤ 10 * numberOfBlocksInTerm.toNat by
        have := rewardShare_le signed
        omega)
    exact ⟨by rw [UInt64.toNat_ofNat', Nat.mod_eq_of_lt (lt_of_le_of_lt atMost intermediateReward.toNat_lt)], atMost⟩
  refine ⟨?_, ?_, ?_, ?_⟩
  · intro numberOfSignatures signed
    rw [UInt64.le_iff_toNat_le] at signed
    refine ⟨_, finalRewards_of_short term signed short noOverflow, ?_⟩
    rw [UInt64.le_iff_toNat_le, (exact signed).1]
    exact (exact signed).2
  · intro fewer more fewerReward moreReward le signed paidFewer paidMore
    rw [UInt64.le_iff_toNat_le] at le signed
    rw [finalRewards_of_short term (le.trans signed) short noOverflow, Except.ok.injEq] at paidFewer
    rw [finalRewards_of_short term signed short noOverflow, Except.ok.injEq] at paidMore
    rw [← paidFewer, ← paidMore, UInt64.le_iff_toNat_le, (exact (le.trans signed)).1, (exact signed).1]
    exact Nat.div_le_div_right (Nat.mul_le_mul_right _ (Int.toNat_le_toNat (rewardShare_mono _ le)))
  · rw [finalRewards_of_short term le_rfl short noOverflow, rewardShare_self]
    have tenfold : (10 * (numberOfBlocksInTerm.toNat : ℤ)).toNat = 10 * numberOfBlocksInTerm.toNat := by omega
    rw [tenfold, Nat.mul_div_cancel_left _ (by omega), UInt64.ofNat_toNat]
  · intro numberOfSignatures third
    rw [finalRewards_of_short term (by omega) short noOverflow, rewardShare_of_lt_third third, Int.toNat_zero,
      Nat.zero_mul, Nat.zero_div]
    rfl

/-- The test's term of three hundred blocks, with an intermediate reward of a
thousand. -/
theorem finalRewards_spec_test_term :
    0 < (300 : UInt64).toNat ∧ 3 * (300 : UInt64).toNat < 2 ^ 64 ∧
      10 * (1000 : UInt64).toNat * (300 : UInt64).toNat < 2 ^ 127 ∧
      (∀ numberOfSignatures, numberOfSignatures ≤ 300 →
        ∃ reward, (finalRewards 1000 numberOfSignatures 300 : Except (Fault Unit) UInt64) = .ok reward ∧
          reward ≤ 1000) ∧
      (∀ fewer more fewerReward moreReward, fewer ≤ more → more ≤ 300 →
        (finalRewards 1000 fewer 300 : Except (Fault Unit) UInt64) = .ok fewerReward →
        (finalRewards 1000 more 300 : Except (Fault Unit) UInt64) = .ok moreReward →
        fewerReward ≤ moreReward) ∧
      (finalRewards 1000 300 300 : Except (Fault Unit) UInt64) = .ok 1000 ∧
      (∀ numberOfSignatures, 3 * numberOfSignatures.toNat < (300 : UInt64).toNat →
        (finalRewards 1000 numberOfSignatures 300 : Except (Fault Unit) UInt64) = .ok 0) :=
  have term : 0 < (300 : UInt64).toNat := by decide
  have short : 3 * (300 : UInt64).toNat < 2 ^ 64 := by decide
  have noOverflow : 10 * (1000 : UInt64).toNat * (300 : UInt64).toNat < 2 ^ 127 := by decide
  ⟨term, short, noOverflow, finalRewards_spec 1000 300 term short noOverflow⟩

end FinalRewards

/-! ### The additional rewards -/

section AdditionalRewards

variable {Address : Type} {ε : Type}

/-- `Ratio::new(missed, proposed)`: the average number of signatures missed per
block proposed, as a reduced fraction; a zero denominator panics. -/
def averageMissed (proposed missed : ℕ) : Except (Fault ε) ℚ :=
  if proposed = 0 then .error (.panic "denominator == 0") else .ok ((missed : ℚ) / proposed)

/-- `map.entry(average_missed).or_default().push(address)` in a `BTreeMap`,
kept as its groups in increasing order of their key. -/
def insertGroup (key : ℚ) (address : Address) : List (ℚ × List Address) → List (ℚ × List Address)
  | [] => [(key, [address])]
  | group :: groups =>
    if key < group.1 then (key, [address]) :: group :: groups
    else if key = group.1 then (group.1, group.2 ++ [address]) :: groups
    else group :: insertGroup key address groups

/-- The inner loop: `f(validator, reward)` for each validator of a group, each
time taking the reward from what is left. -/
def payGroup (reward : UInt64) (validators : List Address) (acc : List (Address × UInt64) × UInt64) :
    List (Address × UInt64) × UInt64 :=
  validators.foldl (fun acc validator => (acc.1 ++ [(validator, reward)], acc.2 - reward)) acc

/-- The outer loop, over the groups from the lowest average: the validators of
a group get what is left over one more than their number, and a zero reward
ends the loop. -/
def payGroups : List (List Address) → List (Address × UInt64) × UInt64 → List (Address × UInt64) × UInt64
  | [], acc => acc
  | validators :: groups, acc =>
    let reward := acc.2 / (UInt64.ofNat validators.length + 1)
    if reward = 0 then acc else payGroups groups (payGroup reward validators acc)

/-- `give_additional_rewards`, with the `f` of its caller, which adds each
payment to the pending rewards: the payments in order, and what is left, which
is burned. -/
def giveAdditionalRewards (reducedRewards : UInt64) (missedSignatures : AList fun _ : Address => ℕ × ℕ) :
    Except (Fault ε) (List (Address × UInt64) × UInt64) := do
  let averages ← missedSignatures.entries.mapM fun entry => do
    let average ← averageMissed entry.2.1 entry.2.2
    pure (entry.1, average)
  let sortedValidators := averages.foldl (fun groups entry => insertGroup entry.2 entry.1 groups) []
  pure (payGroups (sortedValidators.map Prod.snd) ([], reducedRewards))

/-- A group is paid the same reward each, taken from what is left. -/
theorem payGroup_eq (reward : UInt64) (validators : List Address) (paid : List (Address × UInt64))
    (left : UInt64) :
    payGroup reward validators (paid, left) =
      (paid ++ validators.map (fun validator => (validator, reward)),
        left - UInt64.ofNat validators.length * reward) := by
  induction validators generalizing paid left with
  | nil => simp [payGroup]
  | cons validator validators ih =>
    simp only [payGroup, List.foldl_cons] at ih ⊢
    rw [ih]
    simp only [List.append_assoc, List.singleton_append, List.map_cons, List.length_cons, Prod.mk.injEq,
      true_and]
    rw [UInt64.ofNat_add, show UInt64.ofNat 1 = 1 from rfl, UInt64.add_mul, UInt64.one_mul, ← sub_sub,
      sub_right_comm]

/-- The reward of a group, in numbers: what is left over one more than the
group's size. -/
theorem toNat_groupReward {validators : List Address} (left : UInt64) (small : validators.length + 1 < 2 ^ 64) :
    (left / (UInt64.ofNat validators.length + 1)).toNat = left.toNat / (validators.length + 1) := by
  have size : (UInt64.ofNat validators.length + 1).toNat = validators.length + 1 := by
    have length : validators.length < 2 ^ 64 := by omega
    rw [UInt64.toNat_add, UInt64.toNat_ofNat', Nat.mod_eq_of_lt length, UInt64.toNat_one,
      Nat.mod_eq_of_lt small]
  rw [UInt64.toNat_div, size]

/-- A group takes no more than what is left: what it is paid and what is left
after it add up to what was left before. -/
theorem toNat_payGroup {validators : List Address} (left : UInt64) (small : validators.length + 1 < 2 ^ 64) :
    validators.length * (left / (UInt64.ofNat validators.length + 1)).toNat +
      (left - UInt64.ofNat validators.length * (left / (UInt64.ofNat validators.length + 1))).toNat =
      left.toNat := by
  rw [toNat_groupReward left small]
  -- `len * (left / (len + 1)) ≤ left`, so neither the product nor the difference wraps
  have within : validators.length * (left.toNat / (validators.length + 1)) ≤ left.toNat :=
    calc validators.length * (left.toNat / (validators.length + 1))
        ≤ (validators.length + 1) * (left.toNat / (validators.length + 1)) := Nat.mul_le_mul_right _ (Nat.le_succ _)
      _ ≤ left.toNat := Nat.mul_div_le _ _
  have product : (UInt64.ofNat validators.length * (left / (UInt64.ofNat validators.length + 1))).toNat =
      validators.length * (left.toNat / (validators.length + 1)) := by
    have length : validators.length < 2 ^ 64 := by omega
    rw [UInt64.toNat_mul, UInt64.toNat_ofNat', Nat.mod_eq_of_lt length, toNat_groupReward left small,
      Nat.mod_eq_of_lt (lt_of_le_of_lt within (UInt64.toNat_lt left))]
  rw [UInt64.toNat_sub_of_le _ _ (UInt64.le_iff_toNat_le.mpr (by rw [product]; exact within)), product]
  omega

/-- The outer loop, over any groups: it pays validators of the groups in their
order, each at most once and a positive reward, takes from what is left exactly
what it pays, and leaves at most the size of the group where it stops, unless it
pays every validator. -/
theorem payGroups_spec (groups : List (List Address)) (paid : List (Address × UInt64)) (left : UInt64)
    (small : ∀ validators ∈ groups, validators.length + 1 < 2 ^ 64) :
    ∃ payments, (payGroups groups (paid, left)).1 = paid ++ payments ∧
      (payments.map fun payment => payment.2.toNat).sum + (payGroups groups (paid, left)).2.toNat = left.toNat ∧
      (∀ payment ∈ payments, 0 < payment.2.toNat) ∧
      payments.map Prod.fst <+: groups.flatten ∧
      ((∃ validators ∈ groups, (payGroups groups (paid, left)).2.toNat ≤ validators.length) ∨
        payments.map Prod.fst = groups.flatten) := by
  induction groups generalizing paid left with
  | nil => exact ⟨[], by simp [payGroups]⟩
  | cons validators groups ih =>
    have fits := small validators List.mem_cons_self
    by_cases stops : left / (UInt64.ofNat validators.length + 1) = 0
    · -- a zero reward: nothing is paid, and what is left is below the group's size plus one
      have below : left.toNat < validators.length + 1 := by
        have zero := congrArg UInt64.toNat stops
        rw [toNat_groupReward left fits, UInt64.toNat_zero, Nat.div_eq_zero_iff] at zero
        omega
      have stay : payGroups (validators :: groups) (paid, left) = (paid, left) := by
        rw [payGroups, if_pos stops]
      refine ⟨[], ?_, ?_, ?_, ?_, .inl ⟨validators, List.mem_cons_self, ?_⟩⟩ <;> simp [stay]
      omega
    · obtain ⟨payments, prefix_eq, sum, positive, order, ends⟩ :=
        ih (paid ++ validators.map fun validator => (validator, left / (UInt64.ofNat validators.length + 1)))
          (left - UInt64.ofNat validators.length * (left / (UInt64.ofNat validators.length + 1)))
          fun other member => small other (List.mem_cons_of_mem _ member)
      have step : payGroups (validators :: groups) (paid, left) =
          payGroups groups (paid ++ validators.map fun validator => (validator, left / (UInt64.ofNat validators.length + 1)),
            left - UInt64.ofNat validators.length * (left / (UInt64.ofNat validators.length + 1))) := by
        rw [payGroups, if_neg stops, payGroup_eq]
      have reward : 0 < (left / (UInt64.ofNat validators.length + 1)).toNat := by
        rw [Nat.pos_iff_ne_zero]
        intro zero
        exact stops (UInt64.toNat_inj.mp (by rw [zero, UInt64.toNat_zero]))
      refine ⟨validators.map (fun validator => (validator, left / (UInt64.ofNat validators.length + 1))) ++ payments,
        ?_, ?_, ?_, ?_, ?_⟩
      · rw [step, prefix_eq, List.append_assoc]
      · rw [step, List.map_append, List.sum_append, List.map_map, Nat.add_assoc, sum]
        simp only [Function.comp_def, List.map_const', List.sum_replicate, smul_eq_mul]
        exact toNat_payGroup left fits
      · intro payment member
        rcases List.mem_append.mp member with here | later
        · obtain ⟨validator, _, rfl⟩ := List.mem_map.mp here
          exact reward
        · exact positive payment later
      · rw [List.map_append, List.map_map, List.flatten_cons]
        simpa [Function.comp_def] using order
      · rw [step]
        rcases ends with ⟨other, member, bound⟩ | all
        · exact .inl ⟨other, List.mem_cons_of_mem _ member, bound⟩
        · right
          rw [List.map_append, List.map_map, all, List.flatten_cons]
          simp [Function.comp_def]

/-- Inserting a validator into the sorted groups adds it to exactly one group. -/
theorem insertGroup_perm (key : ℚ) (address : Address) (groups : List (ℚ × List Address)) :
    ((insertGroup key address groups).map Prod.snd).flatten.Perm
      (address :: (groups.map Prod.snd).flatten) := by
  induction groups with
  | nil => simp [insertGroup]
  | cons group groups ih =>
    simp only [insertGroup]
    split_ifs
    · simp
    · -- appended at the end of the group with the same key
      simp
    · simp only [List.map_cons, List.flatten_cons]
      exact (ih.append_left group.2).trans List.perm_middle

/-- The grouping fold keeps every validator it is given, each once. -/
theorem foldl_insertGroup_perm (averages : List (Address × ℚ)) (groups : List (ℚ × List Address)) :
    ((averages.foldl (fun groups entry => insertGroup entry.2 entry.1 groups) groups).map Prod.snd).flatten.Perm
      ((groups.map Prod.snd).flatten ++ averages.map Prod.fst) := by
  induction averages generalizing groups with
  | nil => simp
  | cons average averages ih =>
    rw [List.foldl_cons, List.map_cons]
    refine (ih _).trans ?_
    -- the new validator moves from the front of the groups to the end of the list
    exact ((insertGroup_perm _ _ _).append_right _).trans List.perm_middle.symm

/-- The additional rewards over any number of validator groups, for the
signatures the term collected (every validator proposed a block, as the term's
walk counts it; a validator with none makes Ratio::new panic). The payout pays
each validator of missed_signatures at most once and a positive reward, the
rewards and the burned remainder add up to reduced_rewards in unbounded
integers (so the remainder never wraps), and the remainder is at most the size
of the group where the loop stopped on a zero reward, hence at most the number
of validators, unless every validator was paid. -/
theorem giveAdditionalRewards_spec (reducedRewards : UInt64) (missedSignatures : AList fun _ : Address => ℕ × ℕ)
    (proposing : ∀ entry ∈ missedSignatures.entries, 0 < entry.2.1)
    (fewer : missedSignatures.entries.length + 1 < 2 ^ 64) :
    ∃ paid left, (giveAdditionalRewards reducedRewards missedSignatures : Except (Fault ε) _) = .ok (paid, left) ∧
      (paid.map Prod.fst).Nodup ∧
      (∀ payment ∈ paid, payment.1 ∈ missedSignatures ∧ 0 < payment.2.toNat) ∧
      (paid.map fun payment => payment.2.toNat).sum + left.toNat = reducedRewards.toNat ∧
      (left.toNat ≤ missedSignatures.entries.length ∨ (paid.map Prod.fst).Perm missedSignatures.keys) := by
  let average := fun entry : (_ : Address) × (ℕ × ℕ) => (entry.1, (entry.2.2 : ℚ) / entry.2.1)
  have averaged : (missedSignatures.entries.mapM fun entry => do
      let average ← (averageMissed entry.2.1 entry.2.2 : Except (Fault ε) ℚ)
      pure (entry.1, average)) = .ok (missedSignatures.entries.map average) :=
    Fault.mapM_eq_ok_map average fun entry member => by
      simp [averageMissed, (proposing entry member).ne', average, pure, Except.pure]
  -- the groups hold exactly the validators of missed_signatures
  let groups := ((missedSignatures.entries.map average).foldl
    (fun groups entry => insertGroup entry.2 entry.1 groups) []).map Prod.snd
  have grouped : groups.flatten.Perm missedSignatures.keys := by
    simpa [List.map_map, average, Function.comp_def, AList.keys, List.keys] using
      foldl_insertGroup_perm (missedSignatures.entries.map average) []
  have sized : ∀ validators ∈ groups, validators.length ≤ missedSignatures.entries.length := fun validators member =>
    calc validators.length ≤ groups.flatten.length := (List.sublist_flatten_of_mem member).length_le
      _ = missedSignatures.entries.length := by rw [grouped.length_eq, AList.keys, List.keys, List.length_map]
  obtain ⟨payments, paid, sum, positive, order, ends⟩ :=
    payGroups_spec groups [] reducedRewards fun validators member => by
      have := sized validators member
      omega
  refine ⟨payments, (payGroups groups ([], reducedRewards)).2, ?_, ?_, ?_, sum, ?_⟩
  · unfold giveAdditionalRewards
    rw [averaged, Fault.ok_bind, ← List.nil_append payments, ← paid]
    rfl
  · exact (grouped.nodup_iff.mpr (AList.keys_nodup _)).sublist order.sublist
  · intro payment member
    have listed : payment.1 ∈ groups.flatten := order.subset (List.mem_map_of_mem member)
    exact ⟨AList.mem_keys.mp (grouped.subset listed), positive payment member⟩
  · rcases ends with ⟨validators, member, bound⟩ | all
    · exact .inl (bound.trans (sized validators member))
    · exact .inr (all ▸ grouped)

/-- One validator that proposed a block and missed nothing, with one hundred to
give: every part of the payout's specification holds. -/
theorem giveAdditionalRewards_spec_alone :
    (∀ entry ∈ (AList.singleton 0 (1, 0) : AList fun _ : ℕ => ℕ × ℕ).entries, 0 < entry.2.1) ∧
      (AList.singleton 0 (1, 0) : AList fun _ : ℕ => ℕ × ℕ).entries.length + 1 < 2 ^ 64 ∧
      ∃ paid left, (giveAdditionalRewards 100 (AList.singleton 0 (1, 0) : AList fun _ : ℕ => ℕ × ℕ) :
          Except (Fault Unit) _) = .ok (paid, left) ∧
        (paid.map Prod.fst).Nodup ∧
        (∀ payment ∈ paid, payment.1 ∈ (AList.singleton 0 (1, 0) : AList fun _ : ℕ => ℕ × ℕ) ∧ 0 < payment.2.toNat) ∧
        (paid.map fun payment => payment.2.toNat).sum + left.toNat = (100 : UInt64).toNat ∧
        (left.toNat ≤ (AList.singleton 0 (1, 0) : AList fun _ : ℕ => ℕ × ℕ).entries.length ∨
          (paid.map Prod.fst).Perm (AList.singleton 0 (1, 0) : AList fun _ : ℕ => ℕ × ℕ).keys) :=
  have proposing : ∀ entry ∈ (AList.singleton 0 (1, 0) : AList fun _ : ℕ => ℕ × ℕ).entries, 0 < entry.2.1 := by
    simp [AList.singleton]
  have fewer : (AList.singleton 0 (1, 0) : AList fun _ : ℕ => ℕ × ℕ).entries.length + 1 < 2 ^ 64 := by
    simp [AList.singleton]
  ⟨proposing, fewer, giveAdditionalRewards_spec 100 _ proposing fewer⟩

/-- A validator alone is paid half of the reward, and the other half, rounded
up, is burned: more than the one validator there is, as soon as the reward is
four. -/
theorem giveAdditionalRewards_alone (address : Address) {proposed : ℕ} (proposing : 0 < proposed)
    (missed : ℕ) (reducedRewards : UInt64) (large : 4 ≤ reducedRewards.toNat) :
    (giveAdditionalRewards reducedRewards
        (AList.singleton address (proposed, missed) : AList fun _ : Address => ℕ × ℕ) : Except (Fault ε) _) =
      .ok ([(address, reducedRewards / 2)], reducedRewards - reducedRewards / 2) ∧
      (AList.singleton address (proposed, missed) : AList fun _ : Address => ℕ × ℕ).entries.length <
        (reducedRewards - reducedRewards / 2).toNat := by
  have half : (reducedRewards / 2).toNat = reducedRewards.toNat / 2 := UInt64.toNat_div ..
  have paying : reducedRewards / (UInt64.ofNat [address].length + 1) ≠ 0 := by
    rw [show UInt64.ofNat [address].length + 1 = 2 from rfl]
    intro zero
    have := congrArg UInt64.toNat zero
    rw [half] at this
    simp at this
    omega
  have averaged : (averageMissed proposed missed : Except (Fault ε) ℚ) = .ok ((missed : ℚ) / proposed) := by
    simp [averageMissed, proposing.ne']
  refine ⟨?_, ?_⟩
  · simp only [giveAdditionalRewards, AList.singleton, List.mapM_cons, List.mapM_nil, averaged,
      Fault.ok_bind]
    simp only [pure, Except.pure, Fault.ok_bind, List.foldl_cons, List.foldl_nil, insertGroup,
      List.map_cons, List.map_nil, payGroups]
    rw [if_neg paying, payGroup_eq]
    simp
  · rw [UInt64.toNat_sub_of_le _ _ (UInt64.le_iff_toNat_le.mpr (by omega)), half]
    simp only [AList.singleton, List.length_singleton]
    omega

/-- The reward of one hundred to a validator that proposed a block and missed
nothing: fifty are paid and fifty are burned, more than the one validator. -/
theorem giveAdditionalRewards_alone_burns_fifty :
    (giveAdditionalRewards 100 (AList.singleton 0 (1, 0) : AList fun _ : ℕ => ℕ × ℕ) :
        Except (Fault Unit) _) = .ok ([(0, 50)], 50) ∧
      (AList.singleton 0 (1, 0) : AList fun _ : ℕ => ℕ × ℕ).entries.length < (50 : UInt64).toNat :=
  giveAdditionalRewards_alone 0 Nat.one_pos 0 100 (by decide)

end AdditionalRewards

end Consensus

end CodeChain
