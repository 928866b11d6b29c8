import CodeChain.Stake.Handler

/-!
# Conservation of stake

The stake token CCS lives in two kinds of records: the balance of each stake
account, and for each delegator the quantity it delegated to each delegatee.
`totalCcs` is the sum of both over every address; `stakeTotal` is the same sum
taken over the stored entries only, which is what the proofs compute with.

A handler step moves CCS between the two records of one address, or between
the accounts of two different addresses.  Each such step keeps the total as
long as the total stays below `2^64`, so that no `u64` addition wraps.  The one
exception is `transfer_ccs` to the fee payer itself: the sender and the
receiver are loaded as two copies of one account, and the receiver's save
overwrites the sender's, so the quantity is credited without being debited.
-/

namespace CodeChain

namespace Stake

open AListTotal Consensus

variable {Address Public Hash Signature Schnorr Seal : Type} [DecidableEq Address]

/-- The CCS one delegator has delegated, over all its delegatees. -/
def delegationTotal (delegatees : AList fun _ : Address => UInt64) : ℕ :=
  total UInt64.toNat delegatees

/-- The CCS held in stake accounts. -/
def accountsTotal (state : StakeState Address Public) : ℕ :=
  total UInt64.toNat state.accounts

/-- The CCS held in delegations. -/
def delegationsTotal (state : StakeState Address Public) : ℕ :=
  total delegationTotal state.delegations

/-- All the CCS of a state, summed over its stored records. -/
def stakeTotal (state : StakeState Address Public) : ℕ :=
  accountsTotal state + delegationsTotal state

/-- The CCS one address owns: its balance and what it delegated. -/
def stakeOf (state : StakeState Address Public) (address : Address) : ℕ :=
  (StakeAccount.loadFromState state address).balance.toNat +
    delegationTotal (Delegation.loadFromState state address).delegatees

/-- The total CCS as the conservation property states it: the balance of every
address, and the quantity every delegator delegated to every delegatee. -/
noncomputable def totalCcs (state : StakeState Address Public) : ℕ :=
  (∑ᶠ address, (StakeAccount.loadFromState state address).balance.toNat) +
    ∑ᶠ delegator, ∑ᶠ delegatee,
      ((Delegation.loadFromState state delegator).getQuantity delegatee).toNat

/-! ### Loads as measured values -/

theorem balance_loadFromState_toNat (state : StakeState Address Public) (address : Address) :
    (StakeAccount.loadFromState state address).balance.toNat =
      valueAt UInt64.toNat state.accounts address := by
  simp only [StakeAccount.loadFromState, valueAt]
  cases state.accounts.lookup address <;> rfl

theorem getQuantity_toNat (delegation : Delegation Address) (delegatee : Address) :
    (delegation.getQuantity delegatee).toNat =
      valueAt UInt64.toNat delegation.delegatees delegatee := by
  simp only [Delegation.getQuantity, valueAt]
  cases delegation.delegatees.lookup delegatee <;> rfl

theorem delegationTotal_loadFromState (state : StakeState Address Public) (delegator : Address) :
    delegationTotal (Delegation.loadFromState state delegator).delegatees =
      valueAt delegationTotal state.delegations delegator := by
  simp only [Delegation.loadFromState, valueAt]
  cases state.delegations.lookup delegator <;> rfl

/-- The sum over all addresses is the sum over the stored records. -/
theorem totalCcs_eq_stakeTotal (state : StakeState Address Public) :
    totalCcs state = stakeTotal state := by
  have accounts : ∑ᶠ address, (StakeAccount.loadFromState state address).balance.toNat =
      accountsTotal state := by
    simp only [balance_loadFromState_toNat]
    exact finsum_valueAt UInt64.toNat state.accounts
  have perDelegator : ∀ delegator, ∑ᶠ delegatee,
      ((Delegation.loadFromState state delegator).getQuantity delegatee).toNat =
        valueAt delegationTotal state.delegations delegator := by
    intro delegator
    rw [← delegationTotal_loadFromState]
    simp only [getQuantity_toNat]
    exact finsum_valueAt UInt64.toNat _
  rw [totalCcs, accounts, finsum_congr perDelegator, finsum_valueAt]
  rfl

theorem getQuantity_le_delegationTotal (delegation : Delegation Address) (delegatee : Address) :
    (delegation.getQuantity delegatee).toNat ≤ delegationTotal delegation.delegatees := by
  rw [getQuantity_toNat]
  exact valueAt_le_total _ _ _

theorem stakeOf_le_stakeTotal (state : StakeState Address Public) (address : Address) :
    stakeOf state address ≤ stakeTotal state := by
  have inAccounts := valueAt_le_total UInt64.toNat state.accounts address
  have inDelegations := valueAt_le_total delegationTotal state.delegations address
  rw [stakeOf, balance_loadFromState_toNat, delegationTotal_loadFromState]
  unfold stakeTotal accountsTotal delegationsTotal
  omega

/-- The balances of two different addresses fit together in the total. -/
theorem balance_add_balance_le_stakeTotal (state : StakeState Address Public)
    {first second : Address} (distinct : first ≠ second) :
    (StakeAccount.loadFromState state first).balance.toNat +
        (StakeAccount.loadFromState state second).balance.toNat ≤ stakeTotal state := by
  have both := valueAt_add_valueAt_le_total UInt64.toNat state.accounts distinct
  rw [balance_loadFromState_toNat, balance_loadFromState_toNat]
  unfold stakeTotal accountsTotal
  omega

/-- The total is the sum of what each address owns. -/
theorem stakeTotal_eq_finsum_stakeOf (state : StakeState Address Public) :
    stakeTotal state = ∑ᶠ address, stakeOf state address := by
  have perAddress : ∀ address, stakeOf state address =
      valueAt UInt64.toNat state.accounts address +
        valueAt delegationTotal state.delegations address := by
    intro address
    rw [stakeOf, balance_loadFromState_toNat, delegationTotal_loadFromState]
  rw [finsum_congr perAddress,
    finsum_add_distrib (finite_support_valueAt _ _) (finite_support_valueAt _ _),
    finsum_valueAt, finsum_valueAt]
  rfl

/-! ### Saving records -/

/-- Saving an account replaces the balance stored for its address. -/
theorem accountsTotal_saveToState (account : StakeAccount Address)
    (state : StakeState Address Public) :
    accountsTotal (account.saveToState state) +
        (StakeAccount.loadFromState state account.address).balance.toNat =
      accountsTotal state + account.balance.toNat := by
  rw [balance_loadFromState_toNat]
  by_cases zero : account.balance = 0
  · simp only [accountsTotal, StakeAccount.saveToState, zero, ne_eq, not_true_eq_false,
      if_false, UInt64.toNat_zero, add_zero]
    exact total_erase_add_valueAt _ _ _
  · simp only [accountsTotal, StakeAccount.saveToState, ne_eq, zero, not_false_eq_true, if_true]
    exact total_insert_add_valueAt _ _ _ _

/-- Saving a delegation replaces the delegations stored for its delegator. -/
theorem delegationsTotal_saveToState (delegation : Delegation Address)
    (state : StakeState Address Public) :
    delegationsTotal (delegation.saveToState state) +
        delegationTotal (Delegation.loadFromState state delegation.delegator).delegatees =
      delegationsTotal state + delegationTotal delegation.delegatees := by
  rw [delegationTotal_loadFromState]
  by_cases empty : delegation.delegatees.entries = []
  · have nothing : delegationTotal delegation.delegatees = 0 := by
      simp [delegationTotal, total, empty]
    simp only [delegationsTotal, Delegation.saveToState, empty, ne_eq, not_true_eq_false,
      if_false, nothing, add_zero]
    exact total_erase_add_valueAt _ _ _
  · simp only [delegationsTotal, Delegation.saveToState, ne_eq, empty, not_false_eq_true, if_true]
    exact total_insert_add_valueAt _ _ _ _

/-! ### Steps that move no stake between addresses -/

/-- A step after which every address owns what it owned, and the stakeholder
set is as it was. -/
structure KeepsStakes (state state' : StakeState Address Public) : Prop where
  stakeOf_eq : ∀ address, stakeOf state' address = stakeOf state address
  stakeholders_eq : state'.stakeholders = state.stakeholders

theorem KeepsStakes.refl (state : StakeState Address Public) : KeepsStakes state state :=
  ⟨fun _ => rfl, rfl⟩

theorem KeepsStakes.trans {state middle state' : StakeState Address Public}
    (first : KeepsStakes state middle) (second : KeepsStakes middle state') :
    KeepsStakes state state' :=
  ⟨fun address => (second.stakeOf_eq address).trans (first.stakeOf_eq address),
    second.stakeholders_eq.trans first.stakeholders_eq⟩

/-- The total is the sum over the addresses, so it is kept too. -/
theorem KeepsStakes.stakeTotal_eq {state state' : StakeState Address Public}
    (kept : KeepsStakes state state') : stakeTotal state' = stakeTotal state := by
  rw [stakeTotal_eq_finsum_stakeOf, stakeTotal_eq_finsum_stakeOf, finsum_congr kept.stakeOf_eq]

/-- A step that leaves the stake records and the stakeholder set alone. -/
theorem keepsStakes_of_records {state state' : StakeState Address Public}
    (accounts : state'.accounts = state.accounts) (delegations : state'.delegations = state.delegations)
    (stakeholders : state'.stakeholders = state.stakeholders) : KeepsStakes state state' where
  stakeOf_eq address := by
    simp only [stakeOf, StakeAccount.loadFromState, Delegation.loadFromState, accounts, delegations]
  stakeholders_eq := stakeholders

/-- Saving the account and the delegations of one address, when together they
own what the address owned. -/
theorem keepsStakes_saveToState_both {state : StakeState Address Public}
    {account : StakeAccount Address} {delegation : Delegation Address}
    (same : delegation.delegator = account.address)
    (kept : account.balance.toNat + delegationTotal delegation.delegatees =
      stakeOf state account.address) :
    KeepsStakes state (account.saveToState (delegation.saveToState state)) where
  stakeOf_eq address := by
    by_cases here : address = account.address
    · subst here
      -- the account save leaves the delegations as the delegation save wrote them
      have delegationSaved : Delegation.loadFromState
          (account.saveToState (delegation.saveToState state)) account.address = delegation := by
        rw [← same]
        exact Delegation.loadFromState_saveToState_self delegation state
      rw [stakeOf, StakeAccount.loadFromState_saveToState_self, delegationSaved, kept]
    · have other : address ≠ delegation.delegator := by
        rw [same]
        exact here
      have delegationKept : Delegation.loadFromState
          (account.saveToState (delegation.saveToState state)) address =
            Delegation.loadFromState state address :=
        Delegation.loadFromState_saveToState_of_ne delegation state other
      rw [stakeOf, StakeAccount.loadFromState_saveToState_of_ne _ _ here, delegationKept]
      rfl
  stakeholders_eq := rfl

omit [DecidableEq Address] in
/-- The total reads the stake records only. -/
theorem stakeTotal_congr {state other : StakeState Address Public}
    (accounts : other.accounts = state.accounts) (delegations : other.delegations = state.delegations) :
    stakeTotal other = stakeTotal state := by
  unfold stakeTotal accountsTotal delegationsTotal
  rw [accounts, delegations]

/-- Taking CCC leaves the stake records alone. -/
theorem keepsStakes_subBalance {state state' : StakeState Address Public} {address : Address}
    {decr : UInt64} (subtracted : state.subBalance address decr = .ok state') :
    KeepsStakes state state' := by
  rw [StakeState.subBalance_eq_ok subtracted]
  exact keepsStakes_of_records rfl rfl rfl

/-- CCC refunds leave the stake records alone. -/
theorem keepsStakes_foldl_addBalance {ι : Type} (items : List ι) (payee : ι → Address)
    (amount : ι → UInt64) (state : StakeState Address Public) :
    KeepsStakes state
      (items.foldl (fun state item => state.addBalance (payee item) (amount item)) state) := by
  induction items generalizing state with
  | nil => exact .refl state
  | cons item items ih =>
      rw [List.foldl_cons]
      refine KeepsStakes.trans ?_ (ih (state.addBalance (payee item) (amount item)))
      exact keepsStakes_of_records rfl rfl rfl

/-! ### Moving CCS within one delegator's records -/

/-- Delegating more adds the quantity, when the sum stays below `2^64`. -/
theorem delegationTotal_addQuantity (delegation : Delegation Address) (delegatee : Address)
    (quantity : UInt64) (fits : delegationTotal delegation.delegatees + quantity.toNat < 2 ^ 64) :
    delegationTotal (delegation.addQuantity delegatee quantity).delegatees =
      delegationTotal delegation.delegatees + quantity.toNat := by
  unfold Delegation.addQuantity
  split
  · rename_i zero
    simp [zero]
  · have held := getQuantity_le_delegationTotal delegation delegatee
    have written := total_insert_add_valueAt UInt64.toNat delegation.delegatees delegatee
      (delegation.getQuantity delegatee + quantity)
    rw [← getQuantity_toNat, UInt64.toNat_add, Nat.mod_eq_of_lt (by omega)] at written
    show total UInt64.toNat (delegation.delegatees.insert delegatee _) = _
    unfold delegationTotal at held fits ⊢
    omega

/-- Taking back part of a delegation removes exactly that quantity. -/
theorem delegationTotal_subtractQuantity {delegation delegation' : Delegation Address}
    {delegatee : Address} {quantity : UInt64}
    (subtracted : delegation.subtractQuantity delegatee quantity = .ok delegation') :
    delegation'.delegator = delegation.delegator ∧
      delegationTotal delegation'.delegatees + quantity.toNat =
        delegationTotal delegation.delegatees := by
  unfold Delegation.subtractQuantity at subtracted
  split at subtracted
  · rename_i zero
    cases subtracted
    simp [zero]
  split at subtracted
  · rename_i current found
    have stored : valueAt UInt64.toNat delegation.delegatees delegatee = current.toNat := by
      simp [valueAt, found]
    split at subtracted
    · -- more was delegated than is taken back: the entry shrinks
      rename_i more
      cases subtracted
      have written := total_insert_add_valueAt UInt64.toNat delegation.delegatees delegatee
        (current - quantity)
      rw [stored, UInt64.toNat_sub_of_le _ _ (UInt64.le_of_lt more)] at written
      have bound : quantity.toNat < current.toNat := UInt64.lt_iff_toNat_lt.mp more
      refine ⟨rfl, ?_⟩
      show total UInt64.toNat (delegation.delegatees.insert delegatee _) + _ = _
      unfold delegationTotal
      omega
    split at subtracted
    · -- exactly the delegated quantity is taken back: the entry goes
      rename_i same
      cases subtracted
      have erased := total_erase_add_valueAt UInt64.toNat delegation.delegatees delegatee
      rw [stored, same] at erased
      exact ⟨rfl, erased⟩
    · simp at subtracted
  · simp at subtracted

/-! ### The stake actions -/

/-- What a successful `transfer_ccs` saves: the sender's debited copy, then
the receiver's credited copy. -/
theorem transferCcs_eq_ok {state state' : StakeState Address Public} {feePayer receiver : Address}
    {quantity : UInt64} (transferred : transferCcs state feePayer receiver quantity = .ok state') :
    quantity ≤ (StakeAccount.loadFromState state feePayer).balance ∧
      ∃ stakeholders : Stakeholders Address,
        state' = ((StakeAccount.loadFromState state receiver).addBalance quantity).saveToState
          (({ address := feePayer,
              balance := (StakeAccount.loadFromState state feePayer).balance - quantity } :
            StakeAccount Address).saveToState (stakeholders.saveToState state)) := by
  simp only [transferCcs, Fault.bind_eq_ok] at transferred
  obtain ⟨sender, debited, stakeholders, -, saved⟩ := transferred
  obtain ⟨enough, rfl⟩ := StakeAccount.subtractBalance_eq_ok.mp debited
  cases saved
  exact ⟨enough, _, rfl⟩

/-- Saving the accounts of two different addresses, one after the other. -/
theorem accountsTotal_saveToState_saveToState (first second : StakeAccount Address)
    (state : StakeState Address Public) (distinct : second.address ≠ first.address) :
    accountsTotal (second.saveToState (first.saveToState state)) +
        (StakeAccount.loadFromState state first.address).balance.toNat +
        (StakeAccount.loadFromState state second.address).balance.toNat =
      accountsTotal state + first.balance.toNat + second.balance.toNat := by
  have firstSaved := accountsTotal_saveToState first state
  have secondSaved := accountsTotal_saveToState second (first.saveToState state)
  rw [StakeAccount.loadFromState_saveToState_of_ne first state distinct] at secondSaved
  omega

/-- Saving two accounts of one address: the second save replaces the first. -/
theorem accountsTotal_saveToState_overwrite (first second : StakeAccount Address)
    (state : StakeState Address Public) (same : second.address = first.address) :
    accountsTotal (second.saveToState (first.saveToState state)) +
        (StakeAccount.loadFromState state first.address).balance.toNat =
      accountsTotal state + second.balance.toNat := by
  have firstSaved := accountsTotal_saveToState first state
  have secondSaved := accountsTotal_saveToState second (first.saveToState state)
  rw [same, StakeAccount.loadFromState_saveToState_self] at secondSaved
  omega

/-- A transfer between two different addresses keeps the total: the receiver's
record is untouched by the sender's save, and the credit cannot wrap. -/
theorem stakeTotal_transferCcs {state state' : StakeState Address Public}
    {feePayer receiver : Address} {quantity : UInt64} (distinct : feePayer ≠ receiver)
    (fits : stakeTotal state < 2 ^ 64)
    (transferred : transferCcs state feePayer receiver quantity = .ok state') :
    stakeTotal state' = stakeTotal state := by
  obtain ⟨enough, stakeholders, rfl⟩ := transferCcs_eq_ok transferred
  have bothFit := balance_add_balance_le_stakeTotal state distinct
  have covered := UInt64.le_iff_toNat_le.mp enough
  have saved := accountsTotal_saveToState_saveToState
    { address := feePayer, balance := (StakeAccount.loadFromState state feePayer).balance - quantity }
    ((StakeAccount.loadFromState state receiver).addBalance quantity)
    (stakeholders.saveToState state) (Ne.symm distinct)
  change _ + (StakeAccount.loadFromState state feePayer).balance.toNat +
      (StakeAccount.loadFromState state receiver).balance.toNat =
    accountsTotal state + ((StakeAccount.loadFromState state feePayer).balance - quantity).toNat +
      ((StakeAccount.loadFromState state receiver).balance + quantity).toNat at saved
  rw [UInt64.toNat_sub_of_le _ _ enough, UInt64.toNat_add, Nat.mod_eq_of_lt (by omega)] at saved
  change _ + delegationsTotal state = accountsTotal state + delegationsTotal state
  omega

/-- A transfer to the fee payer itself credits the quantity without debiting
it: the receiver's copy, loaded before the debit, is saved last. -/
theorem stakeTotal_transferCcs_self {state state' : StakeState Address Public}
    {address : Address} {quantity : UInt64}
    (fits : (StakeAccount.loadFromState state address).balance.toNat + quantity.toNat < 2 ^ 64)
    (transferred : transferCcs state address address quantity = .ok state') :
    stakeTotal state' = stakeTotal state + quantity.toNat := by
  obtain ⟨-, stakeholders, rfl⟩ := transferCcs_eq_ok transferred
  have saved := accountsTotal_saveToState_overwrite
    { address := address, balance := (StakeAccount.loadFromState state address).balance - quantity }
    ((StakeAccount.loadFromState state address).addBalance quantity)
    (stakeholders.saveToState state) rfl
  change _ + (StakeAccount.loadFromState state address).balance.toNat =
    accountsTotal state + ((StakeAccount.loadFromState state address).balance + quantity).toNat
    at saved
  rw [UInt64.toNat_add, Nat.mod_eq_of_lt fits] at saved
  change _ + delegationsTotal state = accountsTotal state + delegationsTotal state + quantity.toNat
  omega

/-- `transfer_ccs` fails only for want of balance. -/
theorem transferCcs_ok_of_le (state : StakeState Address Public) (feePayer receiver : Address)
    {quantity : UInt64} (enough : quantity ≤ (StakeAccount.loadFromState state feePayer).balance) :
    ∃ state', transferCcs state feePayer receiver quantity = .ok state' := by
  have debited : (StakeAccount.loadFromState state feePayer).subtractBalance quantity =
      .ok { address := feePayer,
            balance := (StakeAccount.loadFromState state feePayer).balance - quantity } :=
    StakeAccount.subtractBalance_eq_ok.mpr ⟨enough, rfl⟩
  simp only [transferCcs]
  rw [debited]
  simp only [Fault.ok_bind, Stakeholders.updateByDecreasedBalance, Fault.ensure,
    Delegation.delegator_loadFromState, decide_true, if_true]
  split <;> exact ⟨_, rfl⟩

section Keys

variable (publicToAddress : Public → Address)

/-- What a successful `delegate_ccs` saves: the delegation with the quantity
added, then the debited account. -/
theorem delegateCcs_eq_ok {state state' : StakeState Address Public}
    {feePayer delegatee : Address} {quantity : UInt64}
    (delegated : delegateCcs publicToAddress state feePayer delegatee quantity = .ok state') :
    quantity ≤ (StakeAccount.loadFromState state feePayer).balance ∧
      state' = ({ address := feePayer,
                  balance := (StakeAccount.loadFromState state feePayer).balance - quantity } :
                StakeAccount Address).saveToState
        (((Delegation.loadFromState state feePayer).addQuantity delegatee quantity).saveToState
          state) := by
  simp only [delegateCcs] at delegated
  split at delegated
  · simp [Fault.fail] at delegated
  simp only [Fault.bind_eq_ok] at delegated
  obtain ⟨-, -, -, -, account, debited, saved⟩ := delegated
  obtain ⟨enough, rfl⟩ := StakeAccount.subtractBalance_eq_ok.mp debited
  cases saved
  exact ⟨enough, rfl⟩

/-- Delegating moves CCS from the delegator's account into its delegations. -/
theorem keepsStakes_delegateCcs {state state' : StakeState Address Public}
    {feePayer delegatee : Address} {quantity : UInt64} (fits : stakeTotal state < 2 ^ 64)
    (delegated : delegateCcs publicToAddress state feePayer delegatee quantity = .ok state') :
    KeepsStakes state state' := by
  obtain ⟨enough, rfl⟩ := delegateCcs_eq_ok publicToAddress delegated
  have owned := stakeOf_le_stakeTotal state feePayer
  have covered := UInt64.le_iff_toNat_le.mp enough
  unfold stakeOf at owned
  have added := delegationTotal_addQuantity (Delegation.loadFromState state feePayer) delegatee
    quantity (by omega)
  apply keepsStakes_saveToState_both (by simp)
  rw [added, UInt64.toNat_sub_of_le _ _ enough]
  dsimp only
  unfold stakeOf
  omega

end Keys

/-- What a successful `revoke` saves: the delegation with the quantity taken
out, then the credited account. -/
theorem revoke_eq_ok {state state' : StakeState Address Public}
    {feePayer delegatee : Address} {quantity : UInt64}
    (revoked : revoke state feePayer delegatee quantity = .ok state') :
    ∃ delegation, (Delegation.loadFromState state feePayer).subtractQuantity delegatee quantity =
        .ok delegation ∧
      state' = ((StakeAccount.loadFromState state feePayer).addBalance quantity).saveToState
        (delegation.saveToState state) := by
  simp only [revoke, Fault.bind_eq_ok] at revoked
  obtain ⟨delegation, subtracted, saved⟩ := revoked
  cases saved
  exact ⟨delegation, subtracted, rfl⟩

/-- Revoking moves CCS from the delegations back into the account; the credit
cannot wrap since the delegated quantity was part of the total. -/
theorem keepsStakes_revoke {state state' : StakeState Address Public}
    {feePayer delegatee : Address} {quantity : UInt64} (fits : stakeTotal state < 2 ^ 64)
    (revoked : revoke state feePayer delegatee quantity = .ok state') :
    KeepsStakes state state' := by
  obtain ⟨delegation, subtracted, rfl⟩ := revoke_eq_ok revoked
  obtain ⟨same, taken⟩ := delegationTotal_subtractQuantity subtracted
  have owned := stakeOf_le_stakeTotal state feePayer
  unfold stakeOf at owned
  apply keepsStakes_saveToState_both same
  change ((StakeAccount.loadFromState state feePayer).balance + quantity).toNat + _ = _
  rw [UInt64.toNat_add, Nat.mod_eq_of_lt (by omega), StakeAccount.address_addBalance,
    StakeAccount.address_loadFromState]
  unfold stakeOf
  omega

/-! ### Term close and CCC-only steps -/

section Keys

variable [DecidableEq Public] (publicToAddress : Public → Address)

/-- `self_nominate` takes the deposit in CCC; the stake records are untouched. -/
theorem keepsStakes_selfNominate {state state' : StakeState Address Public}
    {feePayer : Address} {senderPublic : Public} {deposit currentTerm nominationEndsAt : UInt64}
    {metadata : List UInt8}
    (nominated : selfNominate publicToAddress state feePayer senderPublic deposit currentTerm
      nominationEndsAt metadata = .ok state') :
    KeepsStakes state state' := by
  simp only [selfNominate] at nominated
  split at nominated
  · simp [Fault.fail] at nominated
  split at nominated
  · simp [Fault.fail] at nominated
  -- the three outcomes of releasing the fee payer from the jail
  split at nominated
  · simp [Fault.fail] at nominated
  · simp only [pure_bind, Fault.bind_eq_ok] at nominated
    obtain ⟨paid, subtracted, candidates, -, saved⟩ := nominated
    cases saved
    exact (keepsStakes_subBalance subtracted).trans (keepsStakes_of_records rfl rfl rfl)
  · simp only [pure_bind, Fault.bind_eq_ok] at nominated
    obtain ⟨-, -, paid, subtracted, candidates, -, saved⟩ := nominated
    cases saved
    exact (keepsStakes_subBalance subtracted).trans (keepsStakes_of_records rfl rfl rfl)

/-- `update_candidates` refunds expired deposits in CCC. -/
theorem keepsStakes_updateCandidates {state state' : StakeState Address Public}
    {currentTerm nominationExpiration : UInt64} {inactiveValidators expired : List Address}
    (updated : updateCandidates publicToAddress state currentTerm nominationExpiration
      inactiveValidators = .ok (state', expired)) :
    KeepsStakes state state' := by
  simp only [updateCandidates, Fault.bind_eq_ok] at updated
  obtain ⟨renewed, -, saved⟩ := updated
  cases saved
  exact (keepsStakes_foldl_addBalance (renewed.drainExpiredCandidates currentTerm).1
    (fun candidate : Candidate Public => publicToAddress candidate.pubkey)
    (fun candidate => candidate.deposit) state).trans (keepsStakes_of_records rfl rfl rfl)

omit [DecidableEq Public] in
/-- `jail` moves candidates to the jail; the stake records are untouched. -/
theorem keepsStakes_jail {state state' : StakeState Address Public} {addresses : List Address}
    {custodyUntil kickAt : UInt64}
    (jailed : jail publicToAddress state addresses custodyUntil kickAt = .ok state') :
    KeepsStakes state state' := by
  simp only [jail] at jailed
  split at jailed
  · cases jailed
    exact .refl state
  simp only [Fault.bind_eq_ok] at jailed
  obtain ⟨records, -, saved⟩ := jailed
  cases saved
  exact keepsStakes_of_records rfl rfl rfl

end Keys

/-- `release_jailed_prisoners` refunds released deposits in CCC. -/
theorem keepsStakes_releaseJailedPrisoners (state : StakeState Address Public)
    (currentTerm : UInt64) : KeepsStakes state (releaseJailedPrisoners state currentTerm).1 :=
  (keepsStakes_foldl_addBalance _ (fun prisoner : Prisoner Address => prisoner.address)
    (fun prisoner => prisoner.deposit) state).trans (keepsStakes_of_records rfl rfl rfl)

/-! ### Reverting delegations -/

/-- The inner loop of `revert_delegations` moves CCS from one delegator's
delegations into its account; the credit never wraps. -/
theorem revertDelegator_spec {reverted : List Address}
    {start result : StakeAccount Address × Delegation Address}
    (fits : start.1.balance.toNat + delegationTotal start.2.delegatees < 2 ^ 64)
    (run : revertDelegator reverted start = .ok result) :
    result.1.address = start.1.address ∧ result.2.delegator = start.2.delegator ∧
      result.1.balance.toNat + delegationTotal result.2.delegatees =
        start.1.balance.toNat + delegationTotal start.2.delegatees := by
  refine Fault.foldlM_invariant
    (fun acc : StakeAccount Address × Delegation Address =>
      acc.1.address = start.1.address ∧ acc.2.delegator = start.2.delegator ∧
        acc.1.balance.toNat + delegationTotal acc.2.delegatees =
          start.1.balance.toNat + delegationTotal start.2.delegatees)
    ?_ ⟨rfl, rfl, rfl⟩ run
  rintro ⟨account, delegation⟩ ⟨address, delegator, owned⟩ delegatee - next step
  dsimp only at step address delegator owned ⊢
  split at step
  · -- a positive delegation to a reverted delegatee goes back to the account
    simp only [Fault.bind_eq_ok] at step
    obtain ⟨remaining, subtracted, returned⟩ := step
    cases returned
    obtain ⟨same, taken⟩ := delegationTotal_subtractQuantity subtracted
    refine ⟨address, same.trans delegator, ?_⟩
    change (account.balance + delegation.getQuantity delegatee).toNat +
      delegationTotal remaining.delegatees = _
    rw [UInt64.toNat_add, Nat.mod_eq_of_lt (by omega)]
    omega
  · cases step
    exact ⟨address, delegator, owned⟩

section Order

variable [LinearOrder Address]

/-- `revert_delegations` moves no stake between addresses: for each
stakeholder in turn, the account and the delegations it saves own what the
stakeholder owned. -/
theorem keepsStakes_revertDelegations {state state' : StakeState Address Public}
    {reverted : List Address} (fits : stakeTotal state < 2 ^ 64)
    (run : revertDelegations state reverted = .ok state') :
    KeepsStakes state state' := by
  refine Fault.foldlM_invariant (KeepsStakes state) ?_ (.refl state) run
  intro current kept stakeholder _ next step
  simp only [Fault.bind_eq_ok] at step
  obtain ⟨⟨account, delegation⟩, inner, saved⟩ := step
  cases saved
  have owned := stakeOf_le_stakeTotal current stakeholder
  rw [kept.stakeTotal_eq] at owned
  unfold stakeOf at owned
  obtain ⟨address, delegator, moved⟩ := revertDelegator_spec (by dsimp only; omega) inner
  refine kept.trans (keepsStakes_saveToState_both (delegator.trans address.symm) ?_)
  rw [moved, address]
  rfl

section Keys

variable (publicToAddress : Public → Address)

omit [LinearOrder Address] in
/-- The records `ban` saves before it reverts the criminal's delegations: the
jail, the banned set, the candidates and the validators, over a CCC refund. -/
theorem keepsStakes_ban_records (state : StakeState Address Public) (informant : Address) (deposit : UInt64)
    (jailed : Jail Address) (banned : Banned Address) (candidates : Candidates Public)
    (validators : Validators Public) :
    KeepsStakes state (validators.saveToState (candidates.saveToState (banned.saveToState
      (jailed.saveToState (state.addBalance informant deposit))))) := by
  apply keepsStakes_of_records <;>
    dsimp only [Validators.saveToState, Candidates.saveToState, Banned.saveToState, Jail.saveToState,
      StakeState.addBalance]

/-- `ban` moves CCC to the informant and reverts the delegations to the
criminal, each into its delegator's own account. -/
theorem keepsStakes_ban {state state' : StakeState Address Public} {informant : Public}
    {criminal : Address} (fits : stakeTotal state < 2 ^ 64)
    (banned : ban publicToAddress state informant criminal = .ok state') :
    KeepsStakes state state' := by
  simp only [ban] at banned
  split at banned
  · simp [Fault.fail] at banned
  split at banned
  · cases banned
  -- whatever the deposit, only CCC balances and other records change before the revert
  all_goals
    rw [pure_bind] at banned
    refine (keepsStakes_ban_records _ _ _ _ _ _ _).trans (keepsStakes_revertDelegations ?_ banned)
    rw [(keepsStakes_ban_records _ _ _ _ _ _ _).stakeTotal_eq]
    exact fits

/-- `change_params` installs parameters; the stake records are untouched. -/
theorem keepsStakes_changeParams (recover : Signature → UInt64 → CommonParams → Except String Public)
    {state state' : StakeState Address Public} {metadataSeq : UInt64} {params : CommonParams}
    {signatures : List Signature}
    (changed : changeParams publicToAddress recover state metadataSeq params signatures =
      .ok state') :
    KeepsStakes state state' := by
  simp only [changeParams, Fault.bind_eq_ok] at changed
  obtain ⟨updated, updating, signed, -, accepted⟩ := changed
  split at accepted
  · simp [Fault.fail] at accepted
  cases accepted
  rw [StakeState.updateParams_eq_ok updating]
  exact keepsStakes_of_records rfl rfl rfl

/-- The close of a term moves no stake between addresses: refunds are in
CCC, and the only stake that moves is reverted from delegations to accounts. -/
theorem keepsStakes_onTermClose [DecidableEq Public] {state state' : StakeState Address Public}
    {lastTermFinishedBlockNum : UInt64} {inactiveValidators : List Address}
    (fits : stakeTotal state < 2 ^ 64)
    (closed : onTermClose publicToAddress state lastTermFinishedBlockNum inactiveValidators =
      .ok state') :
    KeepsStakes state state' := by
  simp only [onTermClose, Fault.bind_eq_ok] at closed
  obtain ⟨params, -, -, -, -, -, -, -, ⟨updated, expired⟩, renewed, reverted, revertedOk, jailed,
    jailedOk, validators, -, increased⟩ := closed
  have afterRelease := (keepsStakes_updateCandidates publicToAddress renewed).trans
    (keepsStakes_releaseJailedPrisoners updated state.metadata.currentTermId)
  have afterRevert := afterRelease.trans
    (keepsStakes_revertDelegations (afterRelease.stakeTotal_eq.trans_lt fits) revertedOk)
  have afterJail := afterRevert.trans (keepsStakes_jail publicToAddress jailedOk)
  -- electing the validators and starting the next term touch no stake record
  rw [StakeState.increaseTermId_eq_ok increased]
  exact afterJail.trans (keepsStakes_of_records rfl rfl rfl)

end Keys

/-- Every action that `Stake::execute` accepts, a transfer apart, moves no
stake between addresses. -/
theorem keepsStakes_execute [DecidableEq Public] {env : Environment Address Public Hash Signature Seal}
    {action : Action Address Hash Signature Schnorr} {state state' : StakeState Address Public}
    {feePayer : Address} {senderPublic : Public}
    (notTransfer : ∀ receiver quantity, action ≠ .transferCcs receiver quantity)
    (fits : stakeTotal state < 2 ^ 64)
    (executed : execute env action state feePayer senderPublic = .ok state') :
    KeepsStakes state state' := by
  cases action with
  | transferCcs receiver quantity => exact absurd rfl (notTransfer receiver quantity)
  | delegateCcs delegatee quantity => exact keepsStakes_delegateCcs env.publicToAddress fits executed
  | revoke delegatee quantity => exact keepsStakes_revoke fits executed
  | selfNominate deposit metadata => exact keepsStakes_selfNominate env.publicToAddress executed
  | changeParams metadataSeq params signatures =>
      exact keepsStakes_changeParams env.publicToAddress env.recover executed
  | reportDoubleVote message1 message2 =>
      simp only [execute, Fault.bind_eq_ok] at executed
      obtain ⟨parent, -, criminal, -, banned⟩ := executed
      exact keepsStakes_ban env.publicToAddress fits banned

end Order


/-! ### Genesis and runs -/

/-- Saving the first genesis stake leaves the accounts of the later genesis
addresses as they were, since the genesis addresses are distinct. -/
theorem fresh_saveToState_of_nodupKeys {key : Address} {value : UInt64}
    {entries : List (Sigma fun _ : Address => UInt64)}
    (distinctKeys : (⟨key, value⟩ :: entries).NodupKeys) {state : StakeState Address Public}
    (fresh : ∀ address ∈ (⟨key, value⟩ :: entries).keys,
      (StakeAccount.loadFromState state address).balance = 0) :
    ∀ address ∈ entries.keys,
      (StakeAccount.loadFromState (StakeAccount.saveToState ⟨key, value⟩ state) address).balance =
        0 := by
  intro address member
  have distinct : address ≠ key := fun same =>
    List.notMem_keys_of_nodupKeys_cons distinctKeys (same ▸ member)
  rw [StakeAccount.loadFromState_saveToState_of_ne _ state distinct]
  exact fresh address (by simp [member])

/-- The loop of `Stake::init` adds each genesis stake to an account that held
none. -/
theorem stakeTotal_init_loop (entries : List (Sigma fun _ : Address => UInt64))
    (distinctKeys : entries.NodupKeys) (acc : StakeState Address Public × Stakeholders Address)
    (fresh : ∀ address ∈ entries.keys, (StakeAccount.loadFromState acc.1 address).balance = 0) :
    stakeTotal (entries.foldl
      (fun (acc : StakeState Address Public × Stakeholders Address) entry =>
        let account : StakeAccount Address := { address := entry.1, balance := entry.2 }
        (account.saveToState acc.1, acc.2.updateByIncreasedBalance account)) acc).1 =
      stakeTotal acc.1 + (entries.map fun entry => entry.2.toNat).sum := by
  induction entries generalizing acc with
  | nil => simp
  | cons entry entries ih =>
      obtain ⟨key, value⟩ := entry
      have keyFresh := fresh key (by simp)
      have rest := ih (List.nodupKeys_of_nodupKeys_cons distinctKeys)
        (StakeAccount.saveToState ⟨key, value⟩ acc.1, acc.2.updateByIncreasedBalance ⟨key, value⟩)
        (fresh_saveToState_of_nodupKeys distinctKeys fresh)
      have saved := accountsTotal_saveToState ⟨key, value⟩ acc.1
      dsimp only at saved
      rw [keyFresh, UInt64.toNat_zero, add_zero] at saved
      have savedTotal :
          stakeTotal (StakeAccount.saveToState ⟨key, value⟩ acc.1) = stakeTotal acc.1 + value.toNat := by
        change accountsTotal (StakeAccount.saveToState ⟨key, value⟩ acc.1) + delegationsTotal acc.1 =
          accountsTotal acc.1 + delegationsTotal acc.1 + value.toNat
        omega
      rw [List.foldl_cons, rest, List.map_cons, List.sum_cons]
      change stakeTotal (StakeAccount.saveToState ⟨key, value⟩ acc.1) + _ =
        stakeTotal acc.1 + (value.toNat + _)
      rw [savedTotal]
      omega

/-- `Stake::init` adds the genesis stakes to a state where their accounts held
nothing. -/
theorem stakeTotal_init (genesisStakes : AList fun _ : Address => UInt64)
    (state : StakeState Address Public)
    (fresh : ∀ address ∈ genesisStakes, (StakeAccount.loadFromState state address).balance = 0) :
    stakeTotal (init genesisStakes state) = stakeTotal state + total UInt64.toNat genesisStakes := by
  have loop := stakeTotal_init_loop genesisStakes.entries genesisStakes.nodupKeys
    (state, Stakeholders.loadFromState state)
    (fun address member => fresh address (AList.mem_keys.mp member))
  exact (stakeTotal_congr rfl rfl).trans loop

/-- No address holds stake before genesis. -/
theorem balance_loadFromState_empty (balance : Address → UInt64) (metadata : Metadata)
    (address : Address) :
    (StakeAccount.loadFromState (StakeState.empty balance metadata : StakeState Address Public)
      address).balance = 0 :=
  rfl

/-- After `Stake::init` on a state with no stake record, the CCS is the genesis
stake. -/
theorem stakeTotal_init_empty (genesisStakes : AList fun _ : Address => UInt64)
    (balance : Address → UInt64) (metadata : Metadata) :
    stakeTotal (init genesisStakes (StakeState.empty balance metadata : StakeState Address Public)) =
      total UInt64.toNat genesisStakes := by
  have genesis := stakeTotal_init genesisStakes
    (StakeState.empty balance metadata : StakeState Address Public)
    (fun address _ => balance_loadFromState_empty balance metadata address)
  have empty : stakeTotal (StakeState.empty balance metadata : StakeState Address Public) = 0 := rfl
  rw [genesis, empty, zero_add]

section Order

variable [LinearOrder Address] [DecidableEq Public]

/-- The CCS a stake action credits without debiting it: a transfer from the fee
payer to itself credits its quantity, and no other action creates any. -/
def Action.minted (action : Action Address Hash Signature Schnorr) (feePayer : Address) : ℕ :=
  match action with
  | .transferCcs receiver quantity => if receiver = feePayer then quantity.toNat else 0
  | _ => 0

/-- One transition of the stake records, labelled with the CCS it creates: an
action that `Stake::execute` accepted, or the close of a term. -/
inductive StakeStep (env : Environment Address Public Hash Signature Seal) (Schnorr : Type) :
    StakeState Address Public → ℕ → StakeState Address Public → Prop
  | execute {state state' : StakeState Address Public}
      (action : Action Address Hash Signature Schnorr) (feePayer : Address) (senderPublic : Public)
      (accepted : Stake.execute env action state feePayer senderPublic = .ok state') :
      StakeStep env Schnorr state (action.minted feePayer) state'
  | termClose {state state' : StakeState Address Public} (lastTermFinishedBlockNum : UInt64)
      (inactiveValidators : List Address)
      (closed : onTermClose env.publicToAddress state lastTermFinishedBlockNum inactiveValidators =
        .ok state') :
      StakeStep env Schnorr state 0 state'

/-- A run of stake transitions, labelled with the CCS created along it. -/
inductive StakeRun (env : Environment Address Public Hash Signature Seal) (Schnorr : Type) :
    StakeState Address Public → ℕ → StakeState Address Public → Prop
  | done (state : StakeState Address Public) : StakeRun env Schnorr state 0 state
  | step {state middle state' : StakeState Address Public} {minted rest : ℕ}
      (first : StakeStep env Schnorr state minted middle)
      (others : StakeRun env Schnorr middle rest state') :
      StakeRun env Schnorr state (minted + rest) state'

variable {env : Environment Address Public Hash Signature Seal}

/-- One transition adds exactly the CCS it creates, as long as no sum wraps. -/
theorem stakeTotal_of_stakeStep {state state' : StakeState Address Public} {minted : ℕ}
    (step : StakeStep env Schnorr state minted state') (fits : stakeTotal state + minted < 2 ^ 64) :
    stakeTotal state' = stakeTotal state + minted := by
  cases step with
  | execute action feePayer senderPublic accepted =>
      cases action with
      | transferCcs receiver quantity =>
          by_cases toSelf : receiver = feePayer
          · subst toSelf
            simp only [Action.minted, if_true] at fits ⊢
            have owned := stakeOf_le_stakeTotal state receiver
            unfold stakeOf at owned
            exact stakeTotal_transferCcs_self (by omega) accepted
          · simp only [Action.minted, toSelf, if_false, add_zero] at fits ⊢
            exact stakeTotal_transferCcs (Ne.symm toSelf) fits accepted
      | delegateCcs | revoke | selfNominate | changeParams | reportDoubleVote =>
          simp only [Action.minted, add_zero] at fits ⊢
          exact (keepsStakes_execute (by simp) fits accepted).stakeTotal_eq
  | termClose lastTermFinishedBlockNum inactiveValidators closed =>
      rw [add_zero] at fits ⊢
      exact (keepsStakes_onTermClose env.publicToAddress fits closed).stakeTotal_eq

/-- A run adds exactly the CCS its transitions create, as long as no sum
wraps: by induction on the run, from the step lemma. -/
theorem stakeTotal_of_stakeRun {state state' : StakeState Address Public} {minted : ℕ}
    (run : StakeRun env Schnorr state minted state') (fits : stakeTotal state + minted < 2 ^ 64) :
    stakeTotal state' = stakeTotal state + minted := by
  induction run with
  | done => rfl
  | step first others ih =>
      have firstTotal := stakeTotal_of_stakeStep first (by omega)
      have othersTotal := ih (by omega)
      omega

/-- From genesis, the CCS of every reachable state is the genesis stake plus
what transfers to oneself created along the way. -/
theorem totalCcs_of_genesis_run (genesisStakes : AList fun _ : Address => UInt64)
    (balance : Address → UInt64) (metadata : Metadata) {minted : ℕ}
    {state' : StakeState Address Public}
    (run : StakeRun env Schnorr (init genesisStakes (StakeState.empty balance metadata)) minted state')
    (fits : total UInt64.toNat genesisStakes + minted < 2 ^ 64) :
    totalCcs state' = total UInt64.toNat genesisStakes + minted := by
  have genesis : stakeTotal (init genesisStakes (StakeState.empty balance metadata) :
      StakeState Address Public) = total UInt64.toNat genesisStakes :=
    stakeTotal_init_empty genesisStakes balance metadata
  rw [totalCcs_eq_stakeTotal, stakeTotal_of_stakeRun run (by omega), genesis]

/-- Genesis gives address `0` a stake of 100 CCS.  The fee payer `0` then
transfers its 100 CCS to itself: `Stake::execute` accepts the action, and the
state holds 200 CCS. -/
theorem transferCcs_to_fee_payer_creates_ccs (env : Environment ℕ ℕ Unit Unit Unit)
    (senderPublic : ℕ) (balance : ℕ → UInt64) (metadata : Metadata) :
    ∃ state', execute env (.transferCcs 0 100 : Action ℕ Unit Unit Unit)
        (init ((∅ : AList fun _ : ℕ => UInt64).insert 0 100) (StakeState.empty balance metadata))
        0 senderPublic = .ok state' ∧
      totalCcs (init ((∅ : AList fun _ : ℕ => UInt64).insert 0 100)
        (StakeState.empty balance metadata) : StakeState ℕ ℕ) = 100 ∧
      totalCcs state' = 200 := by
  have held : (StakeAccount.loadFromState (init ((∅ : AList fun _ : ℕ => UInt64).insert 0 100)
      (StakeState.empty balance metadata) : StakeState ℕ ℕ) 0).balance = 100 := rfl
  have genesisTotal : stakeTotal (init ((∅ : AList fun _ : ℕ => UInt64).insert 0 100)
      (StakeState.empty balance metadata) : StakeState ℕ ℕ) = 100 := rfl
  have enough : (100 : UInt64) ≤ (StakeAccount.loadFromState
      (init ((∅ : AList fun _ : ℕ => UInt64).insert 0 100)
        (StakeState.empty balance metadata) : StakeState ℕ ℕ) 0).balance := by
    rw [held]
    decide
  obtain ⟨state', transferred⟩ := transferCcs_ok_of_le _ 0 0 enough
  refine ⟨state', transferred, by rw [totalCcs_eq_stakeTotal, genesisTotal], ?_⟩
  have fits : (StakeAccount.loadFromState (init ((∅ : AList fun _ : ℕ => UInt64).insert 0 100)
      (StakeState.empty balance metadata) : StakeState ℕ ℕ) 0).balance.toNat +
        (100 : UInt64).toNat < 2 ^ 64 := by
    rw [held]
    decide
  rw [totalCcs_eq_stakeTotal, stakeTotal_transferCcs_self fits transferred, genesisTotal]
  rfl

end Order

end Stake

end CodeChain
