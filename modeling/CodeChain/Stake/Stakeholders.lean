import CodeChain.Stake.Conservation
import CodeChain.Lib.AListMap
import CodeChain.Lib.Wrapping

/-!
# The stakeholder set

`Stakeholders` is the set of addresses that the stake handler visits when it
sums the stakes (`get_stakes`, `Stakeholders::delegatees`) and when it reverts
delegations.  It is kept incrementally: `Stake::init` inserts every positive
genesis stake, `transfer_ccs` erases the sender when it is left with no balance
and no delegation and inserts the receiver when its balance is positive, and no
other step touches it.

Every other step moves no stake between addresses (`KeepsStakes`), so along
every run the set stays exactly the set of addresses owning stake, as long as
no `u64` sum wraps.  The bound cannot be dropped: the `u64` credit of a
transfer to the fee payer itself can wrap to zero while the set keeps the
address.
-/

namespace CodeChain

namespace Stake

open AListTotal Consensus

variable {Address Public Hash Signature Schnorr Seal : Type} [DecidableEq Address]

/-- The stored stakeholder set is exactly the set of addresses owning stake. -/
def StakeholdersExact (state : StakeState Address Public) : Prop :=
  ∀ address, address ∈ state.stakeholders ↔ 0 < stakeOf state address

theorem KeepsStakes.stakeholdersExact {state state' : StakeState Address Public}
    (kept : KeepsStakes state state') (exact : StakeholdersExact state) :
    StakeholdersExact state' := by
  intro address
  rw [kept.stakeholders_eq, kept.stakeOf_eq]
  exact exact address

/-! ### What the code tests -/

omit [DecidableEq Address] in
/-- A delegation sum that does not reach `2^64` is the exact sum. -/
theorem Delegation.sum_toNat (delegation : Delegation Address)
    (fits : delegationTotal delegation.delegatees < 2 ^ 64) :
    delegation.sum.toNat = delegationTotal delegation.delegatees := by
  have measured : ((delegation.delegatees.entries.map fun entry => entry.2).map UInt64.toNat).sum =
      delegationTotal delegation.delegatees := by
    rw [List.map_map]
    rfl
  rw [Delegation.sum, Wrapping.toNat_sum_of_lt (by rw [measured]; exact fits), measured]

/-- Without a wrap, an address owns stake exactly when its balance or its
delegation sum is positive, the test `update_by_decreased_balance` makes. -/
theorem stakeOf_pos_iff (state : StakeState Address Public) (address : Address)
    (fits : delegationTotal (Delegation.loadFromState state address).delegatees < 2 ^ 64) :
    0 < stakeOf state address ↔
      0 < (StakeAccount.loadFromState state address).balance ∨
        0 < (Delegation.loadFromState state address).sum := by
  rw [UInt64.lt_iff_toNat_lt, UInt64.lt_iff_toNat_lt, Delegation.sum_toNat _ fits, stakeOf,
    UInt64.toNat_zero]
  omega

/-- Saving an account replaces the balance an address owns, and keeps its
delegations. -/
theorem stakeOf_saveToState (account : StakeAccount Address) (state : StakeState Address Public)
    (address : Address) :
    stakeOf (account.saveToState state) address =
      if address = account.address then
        account.balance.toNat + delegationTotal (Delegation.loadFromState state address).delegatees
      else stakeOf state address := by
  by_cases here : address = account.address
  · subst here
    rw [if_pos rfl, stakeOf, StakeAccount.loadFromState_saveToState_self]
    rfl
  · rw [if_neg here, stakeOf, StakeAccount.loadFromState_saveToState_of_ne _ _ here]
    rfl

/-! ### Transfers -/

section Transfer

variable {state state' : StakeState Address Public} {feePayer receiver : Address}
  {quantity : UInt64}

/-- What a successful `transfer_ccs` does to the stakeholder set: the sender
leaves it when its debited copy holds nothing and it delegated nothing, and the
receiver joins it when its credited copy is positive. -/
theorem mem_stakeholders_transferCcs
    (transferred : transferCcs state feePayer receiver quantity = .ok state') (address : Address) :
    address ∈ state'.stakeholders ↔
      (address ∈ state.stakeholders ∧
          ¬(address = feePayer ∧ (StakeAccount.loadFromState state feePayer).balance - quantity = 0 ∧
            (Delegation.loadFromState state feePayer).sum = 0)) ∨
        (address = receiver ∧ 0 < (StakeAccount.loadFromState state receiver).balance + quantity) := by
  simp only [transferCcs, Fault.bind_eq_ok] at transferred
  obtain ⟨sender, debited, stakeholders, decreased, saved⟩ := transferred
  obtain ⟨-, rfl⟩ := StakeAccount.subtractBalance_eq_ok.mp debited
  cases saved
  -- the receiver's credit decides last, after the sender's debit
  change address ∈ (stakeholders.updateByIncreasedBalance
    ((StakeAccount.loadFromState state receiver).addBalance quantity)).addresses ↔ _
  rw [Stakeholders.mem_updateByIncreasedBalance,
    Stakeholders.mem_of_updateByDecreasedBalance_eq_ok decreased]
  rfl

/-- What a successful `transfer_ccs` leaves in each account: the receiver's
credited copy is saved last, over the sender's debited copy when the two are
one address. -/
theorem balance_transferCcs
    (transferred : transferCcs state feePayer receiver quantity = .ok state') (address : Address) :
    (StakeAccount.loadFromState state' address).balance =
      if address = receiver then (StakeAccount.loadFromState state receiver).balance + quantity
      else if address = feePayer then (StakeAccount.loadFromState state feePayer).balance - quantity
      else (StakeAccount.loadFromState state address).balance := by
  obtain ⟨-, stakeholders, rfl⟩ := transferCcs_eq_ok transferred
  by_cases toReceiver : address = receiver
  · subst toReceiver
    rw [if_pos rfl]
    exact congrArg StakeAccount.balance (StakeAccount.loadFromState_saveToState_self _ _)
  rw [if_neg toReceiver, StakeAccount.loadFromState_saveToState_of_ne _ _ toReceiver]
  by_cases fromSender : address = feePayer
  · subst fromSender
    rw [if_pos rfl]
    exact congrArg StakeAccount.balance (StakeAccount.loadFromState_saveToState_self _ _)
  rw [if_neg fromSender, StakeAccount.loadFromState_saveToState_of_ne _ _ fromSender]
  rfl

theorem delegations_transferCcs
    (transferred : transferCcs state feePayer receiver quantity = .ok state') :
    state'.delegations = state.delegations := by
  obtain ⟨-, stakeholders, rfl⟩ := transferCcs_eq_ok transferred
  rfl

/-- A transfer keeps the set exact when the credit does not wrap and the
sender's delegations sum below `2^64`. -/
theorem StakeholdersExact.transferCcs (exact : StakeholdersExact state)
    (credited : (StakeAccount.loadFromState state receiver).balance.toNat + quantity.toNat < 2 ^ 64)
    (senderFits : delegationTotal (Delegation.loadFromState state feePayer).delegatees < 2 ^ 64)
    (transferred : Stake.transferCcs state feePayer receiver quantity = .ok state') :
    StakeholdersExact state' := by
  have enough := (transferCcs_eq_ok transferred).1
  have covered := UInt64.le_iff_toNat_le.mp enough
  -- the three `u64` tests of the code, as tests on the stake
  have creditPositive : 0 < (StakeAccount.loadFromState state receiver).balance + quantity ↔
      0 < (StakeAccount.loadFromState state receiver).balance.toNat + quantity.toNat := by
    rw [UInt64.lt_iff_toNat_lt, UInt64.toNat_add, Nat.mod_eq_of_lt credited, UInt64.toNat_zero]
  have debitEmpty : (StakeAccount.loadFromState state feePayer).balance - quantity = 0 ↔
      (StakeAccount.loadFromState state feePayer).balance.toNat - quantity.toNat = 0 := by
    rw [← UInt64.toNat_inj, UInt64.toNat_sub_of_le _ _ enough, UInt64.toNat_zero]
  have sumEmpty : (Delegation.loadFromState state feePayer).sum = 0 ↔
      delegationTotal (Delegation.loadFromState state feePayer).delegatees = 0 := by
    rw [← UInt64.toNat_inj, Delegation.sum_toNat _ senderFits, UInt64.toNat_zero]
  intro address
  have owned : stakeOf state' address = (StakeAccount.loadFromState state' address).balance.toNat +
      delegationTotal (Delegation.loadFromState state address).delegatees := by
    simp only [stakeOf, Delegation.loadFromState, delegations_transferCcs transferred]
  rw [mem_stakeholders_transferCcs transferred, exact address, owned, balance_transferCcs transferred,
    creditPositive, debitEmpty, sumEmpty]
  unfold stakeOf
  by_cases toReceiver : address = receiver
  · -- the receiver, which may be the sender too
    subst toReceiver
    rw [if_pos rfl, UInt64.toNat_add, Nat.mod_eq_of_lt credited]
    by_cases fromSender : address = feePayer
    · subst fromSender
      simp only [true_and]
      omega
    · simp only [fromSender, false_and, not_false_eq_true, and_true, true_and]
      omega
  · rw [if_neg toReceiver]
    by_cases fromSender : address = feePayer
    · subst fromSender
      rw [if_pos rfl, UInt64.toNat_sub_of_le _ _ enough]
      simp only [toReceiver, false_and, or_false, true_and]
      omega
    · simp [toReceiver, fromSender]

end Transfer

/-! ### Genesis -/

/-- The loop of `Stake::init` keeps its stakeholders exact for the accounts it
has saved, when each genesis address held no balance before. -/
theorem init_loop_exact (entries : List (Sigma fun _ : Address => UInt64))
    (distinctKeys : entries.NodupKeys) (acc : StakeState Address Public × Stakeholders Address)
    (exact : ∀ address, address ∈ acc.2.addresses ↔ 0 < stakeOf acc.1 address)
    (fresh : ∀ address ∈ entries.keys, (StakeAccount.loadFromState acc.1 address).balance = 0)
    (address : Address) :
    address ∈ (entries.foldl
      (fun (acc : StakeState Address Public × Stakeholders Address) entry =>
        let account : StakeAccount Address := { address := entry.1, balance := entry.2 }
        (account.saveToState acc.1, acc.2.updateByIncreasedBalance account)) acc).2.addresses ↔
      0 < stakeOf (entries.foldl
        (fun (acc : StakeState Address Public × Stakeholders Address) entry =>
          let account : StakeAccount Address := { address := entry.1, balance := entry.2 }
          (account.saveToState acc.1, acc.2.updateByIncreasedBalance account)) acc).1 address := by
  induction entries generalizing acc with
  | nil => exact exact address
  | cons entry entries ih =>
      obtain ⟨key, value⟩ := entry
      have keyFresh := fresh key (by simp)
      refine ih (List.nodupKeys_of_nodupKeys_cons distinctKeys) _ ?_
        (fresh_saveToState_of_nodupKeys distinctKeys fresh)
      -- one genesis stake: its address joins exactly when the stake is positive
      intro other
      change other ∈ (acc.2.updateByIncreasedBalance ⟨key, value⟩).addresses ↔
        0 < stakeOf (StakeAccount.saveToState ⟨key, value⟩ acc.1) other
      rw [Stakeholders.mem_updateByIncreasedBalance, stakeOf_saveToState, exact other]
      by_cases here : other = key
      · subst here
        have before : stakeOf acc.1 other =
            delegationTotal (Delegation.loadFromState acc.1 other).delegatees := by
          rw [stakeOf, keyFresh, UInt64.toNat_zero, zero_add]
        rw [if_pos rfl, before, UInt64.lt_iff_toNat_lt, UInt64.toNat_zero]
        simp only [true_and]
        omega
      · rw [if_neg here]
        simp [here]

theorem stakeOf_empty (balance : Address → UInt64) (metadata : Metadata) (address : Address) :
    stakeOf (StakeState.empty balance metadata : StakeState Address Public) address = 0 :=
  rfl

/-- `Stake::init` on a state with no stake record leaves the set exact. -/
theorem stakeholdersExact_init (genesisStakes : AList fun _ : Address => UInt64)
    (balance : Address → UInt64) (metadata : Metadata) :
    StakeholdersExact
      (init genesisStakes (StakeState.empty balance metadata) : StakeState Address Public) := by
  have empty : ∀ address, address ∈ (Stakeholders.loadFromState
      (StakeState.empty balance metadata : StakeState Address Public)).addresses ↔
        0 < stakeOf (StakeState.empty balance metadata : StakeState Address Public) address := by
    intro address
    rw [stakeOf_empty]
    simp [Stakeholders.loadFromState, StakeState.empty]
  exact init_loop_exact genesisStakes.entries genesisStakes.nodupKeys
    (StakeState.empty balance metadata, Stakeholders.loadFromState (StakeState.empty balance metadata))
    empty (fun address _ => balance_loadFromState_empty balance metadata address)

/-- An environment over an empty chain, which no transfer or term close reads. -/
def emptyChainEnvironment : Environment ℕ ℕ Unit Unit Unit :=
  ⟨id, fun _ _ _ => .error "", ⟨fun _ => none, fun _ => none, fun _ => none, fun _ => none⟩, ⟨⟨[]⟩⟩⟩

/-- Genesis gives address `0` a stake of `2^63 + 1` CCS, and the fee payer `0`
transfers `2^63 - 1` CCS to itself.  The sender's copy keeps 2 CCS, so the set
keeps `0`; the receiver's copy is credited to `2^64`, which wraps to zero, and
is saved last.  Address `0` stays a stakeholder with no balance and no
delegation. -/
theorem transferCcs_to_self_wraps_stakeholder :
    ∃ state', execute emptyChainEnvironment
        (.transferCcs 0 9223372036854775807 : Action ℕ Unit Unit Unit)
        (init ((∅ : AList fun _ : ℕ => UInt64).insert 0 9223372036854775809)
          (StakeState.empty (fun _ => 0) ⟨0, none, 0, 0⟩)) 0 0 = .ok state' ∧
      0 ∈ state'.stakeholders ∧ (StakeAccount.loadFromState state' 0).balance = 0 ∧
        (Delegation.loadFromState state' 0).sum = 0 := by
  have held : (StakeAccount.loadFromState
      (init ((∅ : AList fun _ : ℕ => UInt64).insert 0 9223372036854775809)
        (StakeState.empty (fun _ => 0) ⟨0, none, 0, 0⟩) : StakeState ℕ ℕ) 0).balance = 9223372036854775809 :=
    rfl
  have genesisMember : 0 ∈ (init ((∅ : AList fun _ : ℕ => UInt64).insert 0 9223372036854775809)
      (StakeState.empty (fun _ => 0) ⟨0, none, 0, 0⟩) : StakeState ℕ ℕ).stakeholders := by
    rw [stakeholdersExact_init _ (fun _ => 0) ⟨0, none, 0, 0⟩ 0, stakeOf, held]
    exact Nat.lt_of_lt_of_le (by decide) (Nat.le_add_right _ _)
  have enough : (9223372036854775807 : UInt64) ≤ (StakeAccount.loadFromState
      (init ((∅ : AList fun _ : ℕ => UInt64).insert 0 9223372036854775809)
        (StakeState.empty (fun _ => 0) ⟨0, none, 0, 0⟩) : StakeState ℕ ℕ) 0).balance := by
    rw [held]
    decide
  obtain ⟨state', transferred⟩ := transferCcs_ok_of_le _ 0 0 enough
  refine ⟨state', transferred, ?_, ?_, ?_⟩
  · rw [mem_stakeholders_transferCcs transferred, held]
    exact Or.inl ⟨genesisMember, fun dropped => absurd dropped.2.1 (by decide)⟩
  · rw [balance_transferCcs transferred, if_pos rfl, held]
    decide
  · rw [Delegation.loadFromState, delegations_transferCcs transferred]
    rfl

/-! ### Runs -/

section Order

variable [LinearOrder Address] [DecidableEq Public]
  {env : Environment Address Public Hash Signature Seal}

/-- One transition keeps the set exact, as long as no sum wraps. -/
theorem StakeholdersExact.of_stakeStep {state state' : StakeState Address Public} {minted : ℕ}
    (step : StakeStep env Schnorr state minted state') (fits : stakeTotal state + minted < 2 ^ 64)
    (exact : StakeholdersExact state) : StakeholdersExact state' := by
  cases step with
  | execute action feePayer senderPublic accepted =>
      cases action with
      | transferCcs receiver quantity =>
          have senderOwned := stakeOf_le_stakeTotal state feePayer
          unfold stakeOf at senderOwned
          -- a credit to the fee payer itself is counted in `minted`; two
          -- different balances are both part of the total
          have credited : (StakeAccount.loadFromState state receiver).balance.toNat +
              quantity.toNat < 2 ^ 64 := by
            by_cases toSelf : receiver = feePayer
            · subst toSelf
              simp only [Action.minted, if_true] at fits
              omega
            · have covered := UInt64.le_iff_toNat_le.mp (transferCcs_eq_ok accepted).1
              have both := balance_add_balance_le_stakeTotal state toSelf
              omega
          exact exact.transferCcs credited (by omega) accepted
      | delegateCcs | revoke | selfNominate | changeParams | reportDoubleVote =>
          simp only [Action.minted, add_zero] at fits
          exact (keepsStakes_execute (by simp) fits accepted).stakeholdersExact exact
  | termClose lastTermFinishedBlockNum inactiveValidators closed =>
      rw [add_zero] at fits
      exact (keepsStakes_onTermClose env.publicToAddress fits closed).stakeholdersExact exact

/-- Along a run the set stays exact, as long as no sum wraps: by induction on
the run, from the step lemma and the total after the first step. -/
theorem StakeholdersExact.of_stakeRun {state state' : StakeState Address Public} {minted : ℕ}
    (run : StakeRun env Schnorr state minted state') (fits : stakeTotal state + minted < 2 ^ 64)
    (exact : StakeholdersExact state) : StakeholdersExact state' := by
  induction run with
  | done => exact exact
  | step first others ih =>
      have firstTotal := stakeTotal_of_stakeStep first (by omega)
      exact ih (by omega) (exact.of_stakeStep first (by omega))

omit [DecidableEq Public] in
/-- `get_stakes` holds the stake of every stakeholder, and nothing else. -/
theorem lookup_getStakes (state : StakeState Address Public) (address : Address) :
    (getStakes state).lookup address =
      if address ∈ state.stakeholders then
        some ((StakeAccount.loadFromState state address).balance +
          (Delegation.loadFromState state address).sum)
      else none := by
  have listed : address ∈ (Stakeholders.loadFromState state).iter ↔
      address ∈ state.stakeholders := by
    simp [Stakeholders.iter, FinsetSort.ascending_eq_sort, Stakeholders.loadFromState]
  have filled := AListMap.lookup_foldl_insert
    (fun stakeholder => (StakeAccount.loadFromState state stakeholder).balance +
      (Delegation.loadFromState state stakeholder).sum)
    (Stakeholders.loadFromState state).iter ∅ address
  rw [if_congr listed rfl rfl, AList.lookup_empty] at filled
  exact filled

/-- What the handler's code relies on: the stored set holds exactly the
addresses whose stake balance or delegation sum is positive, and `get_stakes`
holds the stake of exactly those addresses. -/
def StakeholdersSeeStake (state : StakeState Address Public) : Prop :=
  ∀ address,
    (address ∈ state.stakeholders ↔
        0 < (StakeAccount.loadFromState state address).balance ∨
          0 < (Delegation.loadFromState state address).sum) ∧
      (getStakes state).lookup address =
        if 0 < (StakeAccount.loadFromState state address).balance ∨
            0 < (Delegation.loadFromState state address).sum then
          some ((StakeAccount.loadFromState state address).balance +
            (Delegation.loadFromState state address).sum)
        else none

omit [DecidableEq Public] in
/-- An exact set below `2^64` is what the code relies on. -/
theorem StakeholdersExact.seeStake {state : StakeState Address Public}
    (exact : StakeholdersExact state) (fits : stakeTotal state < 2 ^ 64) :
    StakeholdersSeeStake state := by
  intro address
  have owned := stakeOf_le_stakeTotal state address
  unfold stakeOf at owned
  have member := (exact address).trans (stakeOf_pos_iff state address (by omega))
  refine ⟨member, ?_⟩
  rw [lookup_getStakes, if_congr member rfl rfl]

/-- From genesis, along every run in which no `u64` sum of stake wraps, the
stored stakeholder set is exactly the set of addresses whose stake balance or
delegation sum is positive, and `get_stakes` holds their stakes. -/
theorem stakeholders_exact_of_genesis_run (genesisStakes : AList fun _ : Address => UInt64)
    (balance : Address → UInt64) (metadata : Metadata) {minted : ℕ}
    {state' : StakeState Address Public}
    (run : StakeRun env Schnorr (init genesisStakes (StakeState.empty balance metadata)) minted state')
    (fits : total UInt64.toNat genesisStakes + minted < 2 ^ 64) :
    StakeholdersSeeStake state' := by
  have genesis : stakeTotal (init genesisStakes (StakeState.empty balance metadata) :
      StakeState Address Public) = total UInt64.toNat genesisStakes :=
    stakeTotal_init_empty genesisStakes balance metadata
  have exact := (stakeholdersExact_init genesisStakes balance metadata).of_stakeRun run (by omega)
  have final := stakeTotal_of_stakeRun run (by omega)
  exact exact.seeStake (by omega)

end Order

/-- Genesis with 5 CCS for address 1, which then transfers 3 CCS to address 2:
after the one step, the stakeholders are exactly the addresses with stake. -/
theorem stakeholders_exact_after_transfer :
    total UInt64.toNat ((∅ : AList fun _ : ℕ => UInt64).insert 1 5) +
        ((Action.transferCcs 2 3 : Action ℕ Unit Unit Unit).minted 1 + 0) < 2 ^ 64 ∧
      ∃ state', StakeRun emptyChainEnvironment Unit
          (init ((∅ : AList fun _ : ℕ => UInt64).insert 1 5) (StakeState.empty (fun _ => 0) ⟨0, none, 0, 0⟩))
          ((Action.transferCcs 2 3 : Action ℕ Unit Unit Unit).minted 1 + 0) state' ∧
        StakeholdersSeeStake state' := by
  have fits : total UInt64.toNat ((∅ : AList fun _ : ℕ => UInt64).insert 1 5) +
      ((Action.transferCcs 2 3 : Action ℕ Unit Unit Unit).minted 1 + 0) < 2 ^ 64 := by
    decide
  obtain ⟨state', run⟩ : ∃ state', StakeRun emptyChainEnvironment Unit
      (init ((∅ : AList fun _ : ℕ => UInt64).insert 1 5) (StakeState.empty (fun _ => 0) ⟨0, none, 0, 0⟩))
      ((Action.transferCcs 2 3 : Action ℕ Unit Unit Unit).minted 1 + 0) state' :=
    ⟨_, .step (.execute _ 1 0 rfl) (.done _)⟩
  exact ⟨fits, state', run, stakeholders_exact_of_genesis_run _ _ _ run fits⟩

end Stake

end CodeChain
