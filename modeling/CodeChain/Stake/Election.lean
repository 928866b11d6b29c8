import CodeChain.Stake.ActionData
import CodeChain.Lib.Ranking

/-!
# The election of validators

`Validators::elect` (`stake/action_data.rs`) elects the validators of a term by
the rule of the dynamic-validator spec (`spec/Dynamic-Validator.md`): rank the
candidates by (delegation, deposit, index in the candidate list), keep those
with the minimum deposit, the top `max_num_of_validators` of them, and of those
the top `min_num_of_validators` together with the others whose delegation
reaches the threshold.  The code gets the third key of the ranking from a
stable sort on (delegation, deposit) over the candidates in list order, which
it reverses.

The rule is written out here as `electionRule`, over the candidates with their
indices, and `elect` computes it whenever it returns.  It returns unless the
metadata lacks its parameters, the parameters allow fewer validators at most
than at least, or an eligible candidate is banned: each of those is a panic.
-/

namespace CodeChain

namespace Stake

variable {Address Public : Type} [DecidableEq Address] [LinearOrder Address]

/-! ### The rule of the spec -/

section Rule

variable (publicToAddress : Public → Address)

/-- The candidates with at least `minDeposit` that received delegations, as
validators, each with its index in the candidate list. -/
def eligibleCandidates (state : StakeState Address Public) (minDeposit : UInt64)
    (delegatees : AList fun _ : Address => UInt64) : List (Validator Public × ℕ) :=
  state.candidates.zipIdx.filterMap fun entry =>
    if entry.1.deposit ≥ minDeposit then
      (delegatees.lookup (publicToAddress entry.1.pubkey)).map fun delegation =>
        (Validator.new delegation entry.1.deposit entry.1.pubkey, entry.2)
    else none

/-- `first` ranks at or above `second`: more delegation, or as much and more
deposit, or as much of both and a higher index in the candidate list. -/
def RanksAtLeast (first second : Validator Public × ℕ) : Prop :=
  second.1.delegation < first.1.delegation ∨
    second.1.delegation = first.1.delegation ∧
      (second.1.deposit < first.1.deposit ∨ second.1.deposit = first.1.deposit ∧ second.2 ≤ first.2)

instance (first second : Validator Public × ℕ) : Decidable (RanksAtLeast first second) :=
  inferInstanceAs (Decidable (_ ∨ _))

/-- The eligible candidates from the highest ranked to the lowest. -/
def ranking (state : StakeState Address Public) (minDeposit : UInt64)
    (delegatees : AList fun _ : Address => UInt64) : List (Validator Public) :=
  ((eligibleCandidates publicToAddress state minDeposit delegatees).insertionSort RanksAtLeast).map
    Prod.fst

/-- The election rule of the spec: of the ranking, the top
`max_num_of_validators`, and of those each one within the top
`min_num_of_validators` or with a delegation at the threshold or above; the
result is stored from the lowest ranked up. -/
def electionRule (params : CommonParams) (state : StakeState Address Public) : List (Validator Public) :=
  let top := (ranking publicToAddress state params.minDeposit (Stakeholders.delegatees state)).take
    params.maxNumOfValidators
  let kept := top.zipIdx.filter fun entry =>
    decide (entry.2 < params.minNumOfValidators) || decide (entry.1.delegation ≥ params.delegationThreshold)
  (kept.map Prod.fst).reverse

end Rule

/-! ### The sort of `prepare_validators` -/

/-- The order of `prepare_validators`'s sort: by delegation, then deposit. -/
def keyAtMost (first second : Validator Public) : Prop :=
  first.delegation < second.delegation ∨ first.delegation = second.delegation ∧ first.deposit ≤ second.deposit

instance (first second : Validator Public) : Decidable (keyAtMost first second) :=
  inferInstanceAs (Decidable (_ ∨ _))

theorem keyAtMost_iff (first second : Validator Public) :
    keyAtMost first second ↔ first.delegation.toNat < second.delegation.toNat ∨
      first.delegation.toNat = second.delegation.toNat ∧ first.deposit.toNat ≤ second.deposit.toNat := by
  simp only [keyAtMost, UInt64.lt_iff_toNat_lt, UInt64.le_iff_toNat_le, ← UInt64.toNat_inj]

theorem ranksAtLeast_iff (first second : Validator Public × ℕ) :
    RanksAtLeast first second ↔ Ranking.byPosition keyAtMost second first := by
  simp only [RanksAtLeast, Ranking.byPosition, keyAtMost_iff, UInt64.lt_iff_toNat_lt, ← UInt64.toNat_inj]
  omega

theorem keyAtMost_total (first second : Validator Public) : keyAtMost first second ∨ keyAtMost second first := by
  rw [keyAtMost_iff, keyAtMost_iff]
  omega

theorem keyAtMost_trans (first second third : Validator Public) :
    keyAtMost first second → keyAtMost second third → keyAtMost first third := by
  rw [keyAtMost_iff, keyAtMost_iff, keyAtMost_iff]
  omega

section Keys

variable (publicToAddress : Public → Address)

omit [LinearOrder Address] in
theorem prepareValidators_eq (state : StakeState Address Public) (minDeposit : UInt64)
    (delegatees : AList fun _ : Address => UInt64) :
    Candidates.prepareValidators publicToAddress state minDeposit delegatees =
      ((eligibleCandidates publicToAddress state minDeposit delegatees).map Prod.fst).insertionSort
        keyAtMost := by
  -- the eligible candidates with their indices dropped are the validators the loop pushes
  have dropped : (eligibleCandidates publicToAddress state minDeposit delegatees).map Prod.fst =
      (state.candidates.filter fun candidate => candidate.deposit ≥ minDeposit).filterMap
        fun candidate => (delegatees.lookup (publicToAddress candidate.pubkey)).map
          fun delegation => Validator.new delegation candidate.deposit candidate.pubkey := by
    rw [eligibleCandidates, List.map_filterMap, List.filterMap_filter]
    conv_rhs => rw [← List.zipIdx_map_fst 0 state.candidates, List.filterMap_map]
    congr 1
    funext entry
    by_cases enough : minDeposit ≤ entry.1.deposit
    · simp [enough, Function.comp_def]
    · simp [enough]
  rw [dropped]
  rfl

omit [LinearOrder Address] in
theorem eligibleCandidates_increasing (state : StakeState Address Public) (minDeposit : UInt64)
    (delegatees : AList fun _ : Address => UInt64) :
    (eligibleCandidates publicToAddress state minDeposit delegatees).Pairwise
      fun first second => first.2 < second.2 := by
  refine (Ranking.pairwise_zipIdx state.candidates 0).filterMap _ ?_
  -- each eligible candidate keeps the index it has in the candidate list
  intro first second before firstEntry found secondEntry found'
  split at found <;> split at found' <;> simp only [reduceCtorEq, Option.map_eq_some_iff] at found found'
  obtain ⟨_, _, rfl⟩ := found
  obtain ⟨_, _, rfl⟩ := found'
  exact before

omit [LinearOrder Address] in
/-- The reversed stable sort of `prepare_validators` is the ranking of the
spec. -/
theorem reverse_prepareValidators (state : StakeState Address Public) (minDeposit : UInt64)
    (delegatees : AList fun _ : Address => UInt64) :
    (Candidates.prepareValidators publicToAddress state minDeposit delegatees).reverse =
      ranking publicToAddress state minDeposit delegatees := by
  have increasing := eligibleCandidates_increasing publicToAddress state minDeposit delegatees
  rw [prepareValidators_eq, Ranking.insertionSort_map_fst keyAtMost increasing, ← List.map_reverse,
    Ranking.reverse_insertionSort_byPosition keyAtMost_total keyAtMost_trans RanksAtLeast ranksAtLeast_iff
      increasing]
  rfl

omit [LinearOrder Address] in
theorem mem_ranking {state : StakeState Address Public} {minDeposit : UInt64}
    {delegatees : AList fun _ : Address => UInt64} {validator : Validator Public} :
    validator ∈ ranking publicToAddress state minDeposit delegatees ↔
      ∃ entry ∈ eligibleCandidates publicToAddress state minDeposit delegatees, entry.1 = validator := by
  simp only [ranking, List.mem_map, List.mem_insertionSort]

omit [LinearOrder Address] in
theorem length_ranking (state : StakeState Address Public) (minDeposit : UInt64)
    (delegatees : AList fun _ : Address => UInt64) :
    (ranking publicToAddress state minDeposit delegatees).length =
      (eligibleCandidates publicToAddress state minDeposit delegatees).length := by
  rw [ranking, List.length_map, List.length_insertionSort]

/-! ### What `elect` computes -/

/-- The selection of `elect` after the ranking is the rule's. -/
theorem select_eq_electionRule (params : CommonParams) (state : StakeState Address Public)
    {validators : List (Validator Public)}
    (top : validators = (ranking publicToAddress state params.minDeposit (Stakeholders.delegatees state)).take
      params.maxNumOfValidators) :
    (validators.take (min params.minNumOfValidators validators.length) ++
        (validators.drop (min params.minNumOfValidators validators.length)).filter
          fun validator => validator.delegation ≥ params.delegationThreshold).reverse =
      electionRule publicToAddress params state := by
  subst top
  rw [Ranking.take_append_filter_drop]
  rfl

theorem mem_ranking_of_mem_electionRule {params : CommonParams} {state : StakeState Address Public}
    {validator : Validator Public} (member : validator ∈ electionRule publicToAddress params state) :
    validator ∈ ranking publicToAddress state params.minDeposit (Stakeholders.delegatees state) := by
  simp only [electionRule, List.mem_reverse, List.mem_map, List.mem_filter] at member
  obtain ⟨entry, ⟨kept, _⟩, rfl⟩ := member
  exact List.mem_of_mem_take (List.fst_mem_of_mem_zipIdx kept)

theorem length_electionRule_le (params : CommonParams) (state : StakeState Address Public) :
    (electionRule publicToAddress params state).length ≤ params.maxNumOfValidators := by
  simp only [electionRule, List.length_reverse, List.length_map]
  calc _ ≤ _ := List.length_filter_le _ _
    _ = _ := List.length_zipIdx
    _ ≤ _ := List.length_take_le _ _

/-- The rule elects the top `min_num_of_validators` whenever there are as many
eligible candidates, and all of them otherwise. -/
theorem min_le_length_electionRule (params : CommonParams) (state : StakeState Address Public)
    (ordered : params.minNumOfValidators ≤ params.maxNumOfValidators) :
    min params.minNumOfValidators
        (eligibleCandidates publicToAddress state params.minDeposit (Stakeholders.delegatees state)).length ≤
      (electionRule publicToAddress params state).length := by
  rw [← select_eq_electionRule publicToAddress params state rfl, List.length_reverse, List.length_append,
    List.length_take, List.length_take, length_ranking]
  omega

/-- With parameters that allow at least as many validators at most as at
least, `elect` checks every eligible candidate against the banned addresses and
returns the rule's validators. -/
theorem elect_eq_of_params {ε : Type} {state : StakeState Address Public} {params : CommonParams}
    (found : state.metadata.params = some params)
    (ordered : params.minNumOfValidators ≤ params.maxNumOfValidators) :
    (Validators.elect publicToAddress state : Except (Fault ε) (Validators Public)) =
      ((ranking publicToAddress state params.minDeposit (Stakeholders.delegatees state)).forM
          fun validator => Fault.ensure (!(Banned.loadFromState state).isBanned (publicToAddress validator.pubkey))
            "is banned address") >>=
        fun _ => pure ⟨electionRule publicToAddress params state⟩ := by
  have checked : (Fault.ensure (params.maxNumOfValidators ≥ params.minNumOfValidators)
      "assertion failed: max_num_of_validators >= min_num_of_validators" : Except (Fault ε) Unit) = .ok () :=
    Fault.ensure_eq_ok.mpr (decide_eq_true ordered)
  simp only [Validators.elect, found, Fault.expect, Fault.ok_bind, checked, reverse_prepareValidators,
    select_eq_electionRule publicToAddress params state rfl]

/-- The election rule of the spec, as `elect` computes it: from a state with
parameters that allow at least as many validators at most as at least, `elect`
panics exactly when an eligible candidate is banned, and otherwise returns the
rule's validators, none of them banned, at least `min_num_of_validators` of
them or every eligible candidate, and at most `max_num_of_validators`. -/
theorem elect_eq_electionRule {ε : Type} (state : StakeState Address Public) {params : CommonParams}
    (found : state.metadata.params = some params)
    (ordered : params.minNumOfValidators ≤ params.maxNumOfValidators) :
    (Fault.Panics (Validators.elect publicToAddress state : Except (Fault ε) (Validators Public)) ↔
      ∃ entry ∈ eligibleCandidates publicToAddress state params.minDeposit (Stakeholders.delegatees state),
        publicToAddress entry.1.pubkey ∈ state.banned) ∧
    ((∀ entry ∈ eligibleCandidates publicToAddress state params.minDeposit (Stakeholders.delegatees state),
        publicToAddress entry.1.pubkey ∉ state.banned) →
      (Validators.elect publicToAddress state : Except (Fault ε) (Validators Public)) =
          .ok ⟨electionRule publicToAddress params state⟩ ∧
        (∀ validator ∈ electionRule publicToAddress params state,
          publicToAddress validator.pubkey ∉ state.banned) ∧
        min params.minNumOfValidators
            (eligibleCandidates publicToAddress state params.minDeposit (Stakeholders.delegatees state)).length ≤
          (electionRule publicToAddress params state).length ∧
        (electionRule publicToAddress params state).length ≤ params.maxNumOfValidators) := by
  have checks : (Validators.elect publicToAddress state : Except (Fault ε) (Validators Public)) = _ :=
    elect_eq_of_params publicToAddress found ordered
  have banned : ∀ validator : Validator Public,
      (!(Banned.loadFromState state).isBanned (publicToAddress validator.pubkey)) = false ↔
        publicToAddress validator.pubkey ∈ state.banned := by
    intro validator
    simp only [Banned.isBanned, Banned.loadFromState, Bool.not_eq_eq_eq_not, Bool.not_false]
    exact decide_eq_true_iff
  rw [checks]
  constructor
  · -- the rule's validators are returned without a check, so only the loop over the ranking panics
    have selected : ¬ Fault.Panics
        (pure ⟨electionRule publicToAddress params state⟩ : Except (Fault ε) (Validators Public)) :=
      Fault.ok_not_panics
    rw [Fault.bind_panics, Fault.forM_ensure_panics]
    simp only [selected, and_false, exists_false, or_false]
    constructor
    · rintro ⟨validator, member, isBanned⟩
      obtain ⟨entry, eligible, rfl⟩ := (mem_ranking publicToAddress).mp member
      exact ⟨entry, eligible, (banned _).mp isBanned⟩
    · rintro ⟨entry, eligible, isBanned⟩
      exact ⟨entry.1, (mem_ranking publicToAddress).mpr ⟨entry, eligible, rfl⟩, (banned _).mpr isBanned⟩
  · intro free
    have passed : ((ranking publicToAddress state params.minDeposit (Stakeholders.delegatees state)).forM
        fun validator => Fault.ensure (!(Banned.loadFromState state).isBanned (publicToAddress validator.pubkey))
          "is banned address" : Except (Fault ε) Unit) = .ok () := by
      rw [Fault.forM_ensure_eq_ok]
      intro validator member
      obtain ⟨entry, eligible, rfl⟩ := (mem_ranking publicToAddress).mp member
      by_contra isBanned
      exact free entry eligible ((banned _).mp (Bool.eq_false_iff.mpr isBanned))
    refine ⟨by rw [passed]; rfl, fun validator member => ?_,
      min_le_length_electionRule publicToAddress params state ordered,
      length_electionRule_le publicToAddress params state⟩
    obtain ⟨entry, eligible, rfl⟩ :=
      (mem_ranking publicToAddress).mp (mem_ranking_of_mem_electionRule publicToAddress member)
    exact free entry eligible

end Keys

/-- Parameters for the elections below: at most two validators, at least one,
a delegation threshold of 5 and a minimum deposit of 1. -/
def electionParams : CommonParams where
  maxExtraDataSize := 0
  maxTextContentSize := 0
  networkId := 0
  maxBodySize := 0
  termSeconds := 0
  nominationExpiration := 0
  custodyPeriod := 0
  releasePeriod := 0
  maxNumOfValidators := 2
  minNumOfValidators := 1
  delegationThreshold := 5
  minDeposit := 1
  maxCandidateMetadataSize := 0

/-- Candidate 5, with a deposit of 10, holds a delegation of 10 from
stakeholder 1 and is banned. -/
def bannedCandidateState : StakeState ℕ ℕ :=
  { StakeState.empty (fun _ => 0) ⟨0, some electionParams, 0, 0⟩ with
    stakeholders := {1}
    delegations := (∅ : AList fun _ : ℕ => AList fun _ : ℕ => UInt64).insert 1
      ((∅ : AList fun _ : ℕ => UInt64).insert 5 10)
    candidates := [⟨5, 10, 0, []⟩]
    banned := {5} }

theorem elect_panics_on_banned_candidate :
    Fault.Panics (Validators.elect id bannedCandidateState : Except (Fault Unit) (Validators ℕ)) := by
  decide

/-- Candidates 5, 6 and 7, each with a deposit of 10, hold delegations of 10, 3
and 7 from stakeholder 1; only address 8, no candidate, is banned. -/
def unbannedCandidatesState : StakeState ℕ ℕ :=
  { StakeState.empty (fun _ => 0) ⟨0, some electionParams, 0, 0⟩ with
    stakeholders := {1}
    delegations := (∅ : AList fun _ : ℕ => AList fun _ : ℕ => UInt64).insert 1
      ((((∅ : AList fun _ : ℕ => UInt64).insert 5 10).insert 6 3).insert 7 7)
    candidates := [⟨5, 10, 0, []⟩, ⟨6, 10, 0, []⟩, ⟨7, 10, 0, []⟩]
    banned := {8} }

/-- No eligible candidate is banned: the election keeps the two best ranked,
5 and 7 (7 is above the threshold), stored from the lowest ranked up. -/
theorem elect_eq_electionRule_of_unbanned :
    unbannedCandidatesState.metadata.params = some electionParams ∧
      electionParams.minNumOfValidators ≤ electionParams.maxNumOfValidators ∧
      (∀ entry ∈ eligibleCandidates id unbannedCandidatesState electionParams.minDeposit
          (Stakeholders.delegatees unbannedCandidatesState), id entry.1.pubkey ∉ unbannedCandidatesState.banned) ∧
      ((Validators.elect id unbannedCandidatesState : Except (Fault Unit) (Validators ℕ)) =
          .ok ⟨electionRule id electionParams unbannedCandidatesState⟩ ∧
        (∀ validator ∈ electionRule id electionParams unbannedCandidatesState,
          id validator.pubkey ∉ unbannedCandidatesState.banned) ∧
        min electionParams.minNumOfValidators
            (eligibleCandidates id unbannedCandidatesState electionParams.minDeposit
              (Stakeholders.delegatees unbannedCandidatesState)).length ≤
          (electionRule id electionParams unbannedCandidatesState).length ∧
        (electionRule id electionParams unbannedCandidatesState).length ≤ electionParams.maxNumOfValidators) ∧
      (electionRule id electionParams unbannedCandidatesState).map Validator.pubkey = [7, 5] :=
  have free : ∀ entry ∈ eligibleCandidates id unbannedCandidatesState electionParams.minDeposit
      (Stakeholders.delegatees unbannedCandidatesState), id entry.1.pubkey ∉ unbannedCandidatesState.banned := by
    decide
  ⟨rfl, by decide, free, (elect_eq_electionRule id unbannedCandidatesState rfl (by decide)).2 free, by decide⟩

end Stake

end CodeChain
