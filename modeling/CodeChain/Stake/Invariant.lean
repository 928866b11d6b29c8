import CodeChain.Stake.Stakeholders

/-!
# The account-state invariant of the stake records

The stake records couple the candidates, the jail, the banned addresses, the
stored validators and the delegations of each stakeholder.  The handler relies
on their agreement: `delegate_ccs` asserts that a candidate is neither banned
nor jailed, `elect` and `renew_candidates` that no banned address is ranked
or renewed, and `ban` that a candidate is never a prisoner.  `AccountInvariant`
states that agreement.

The handler does not keep its last part.  The delegations to a candidate whose
nomination expires are reverted for the addresses of the stakeholder set only,
and `transfer_ccs` drops from that set a sender left with no balance whose
delegations sum to zero as a `u64`, which they do when they add up to `2^64`.
Such a delegator keeps its delegations through the revert, and is back in the
set as soon as it receives CCS.  A run from genesis that does this is
evaluated below, through `runEvents`, which feeds the handler a list of
actions and term closes and is read back as a `StakeRun`.
-/

namespace CodeChain

namespace Stake

variable {Address Public Hash Signature Schnorr Seal : Type} [DecidableEq Address]

section Keys

variable (publicToAddress : Public → Address)

/-- The addresses of the candidates, in list order. -/
def candidateAddresses (state : StakeState Address Public) : List Address :=
  state.candidates.map fun candidate => publicToAddress candidate.pubkey

/-- Whatever a stakeholder delegates goes to a candidate or a prisoner that is
not banned. -/
def DelegateesValid (state : StakeState Address Public) : Prop :=
  ∀ stakeholder ∈ state.stakeholders,
    ∀ entry ∈ (Delegation.loadFromState state stakeholder).delegatees.entries, 0 < entry.2 →
      (entry.1 ∈ candidateAddresses publicToAddress state ∨ entry.1 ∈ state.jail.keys) ∧
        entry.1 ∉ state.banned

instance (state : StakeState Address Public) : Decidable (DelegateesValid publicToAddress state) :=
  inferInstanceAs (Decidable (∀ stakeholder ∈ state.stakeholders,
    ∀ entry ∈ (Delegation.loadFromState state stakeholder).delegatees.entries, 0 < entry.2 →
      (entry.1 ∈ candidateAddresses publicToAddress state ∨ entry.1 ∈ state.jail.keys) ∧
        entry.1 ∉ state.banned))

/-- The account-state invariant: a candidate is listed once and is neither
jailed nor banned, no prisoner is banned, every validator is a candidate, and
the delegations go where `DelegateesValid` says. -/
structure AccountInvariant (state : StakeState Address Public) : Prop where
  candidatesNodup : (candidateAddresses publicToAddress state).Nodup
  candidatesFree : ∀ address ∈ candidateAddresses publicToAddress state,
    address ∉ state.jail.keys ∧ address ∉ state.banned
  prisonersNotBanned : ∀ address ∈ state.jail.keys, address ∉ state.banned
  validatorsCandidates : ∀ validator ∈ state.validators,
    publicToAddress validator.pubkey ∈ candidateAddresses publicToAddress state
  delegatees : DelegateesValid publicToAddress state

end Keys

/-! ### How a delegator leaves the stakeholder set with its delegations -/

section Transfer

variable {state state' : StakeState Address Public} {feePayer receiver : Address} {quantity : UInt64}

/-- A transfer that leaves the sender with nothing drops it from the set when
its delegations sum to zero as a `u64`, and keeps those delegations. -/
theorem transferCcs_drops_sender (transferred : transferCcs state feePayer receiver quantity = .ok state')
    (other : feePayer ≠ receiver)
    (emptied : (StakeAccount.loadFromState state feePayer).balance - quantity = 0)
    (wrapped : (Delegation.loadFromState state feePayer).sum = 0) :
    feePayer ∉ state'.stakeholders ∧
      Delegation.loadFromState state' feePayer = Delegation.loadFromState state feePayer := by
  refine ⟨fun member => ?_, by rw [Delegation.loadFromState, delegations_transferCcs transferred]; rfl⟩
  rcases (mem_stakeholders_transferCcs transferred feePayer).mp member with ⟨_, kept⟩ | ⟨toReceiver, _⟩
  · exact kept ⟨rfl, emptied, wrapped⟩
  · exact other toReceiver

end Transfer

/-- The inner loop of `revert_delegations` works on one delegator's record. -/
theorem revertDelegator_delegator {reverted : List Address}
    {start result : StakeAccount Address × Delegation Address}
    (run : revertDelegator reverted start = .ok result) : result.2.delegator = start.2.delegator := by
  refine Fault.foldlM_invariant (fun acc : StakeAccount Address × Delegation Address =>
    acc.2.delegator = start.2.delegator) ?_ rfl run
  rintro ⟨account, delegation⟩ same delegatee - next step
  dsimp only at step same ⊢
  split at step
  · simp only [Fault.bind_eq_ok] at step
    obtain ⟨remaining, subtracted, returned⟩ := step
    cases returned
    exact (delegationTotal_subtractQuantity subtracted).1.trans same
  · cases step
    exact same

section Order

variable [LinearOrder Address]

/-- `revert_delegations` visits the stakeholders only: the delegations of any
other address stay as they were. -/
theorem lookup_delegations_revertDelegations {state state' : StakeState Address Public}
    {reverted : List Address} (run : revertDelegations state reverted = .ok state') {address : Address}
    (outside : address ∉ state.stakeholders) :
    state'.delegations.lookup address = state.delegations.lookup address := by
  refine Fault.foldlM_invariant (fun current : StakeState Address Public =>
    current.delegations.lookup address = state.delegations.lookup address) ?_ rfl run
  intro current unchanged stakeholder visited next step
  simp only [Fault.bind_eq_ok] at step
  obtain ⟨⟨account, delegation⟩, inner, saved⟩ := step
  cases saved
  -- the record saved is the visited stakeholder's, which is not `address`
  have visitedMember : stakeholder ∈ state.stakeholders := by
    rwa [Stakeholders.iter, FinsetSort.ascending_eq_sort, Finset.mem_sort] at visited
  have apart : address ≠ delegation.delegator := by
    rw [revertDelegator_delegator inner, Delegation.delegator_loadFromState]
    exact fun same => outside (same ▸ visitedMember)
  simp only [StakeAccount.delegations_saveToState, Delegation.saveToState]
  split
  · rw [AList.lookup_insert_ne apart, unchanged]
  · rw [AList.lookup_erase_ne apart, unchanged]

/-! ### Runs given as lists of events -/

/-- One input of the stake handler: an action run for its fee payer, or the
close of a term. -/
inductive StakeEvent (Address Public Hash Signature Schnorr : Type) where
  | execute (action : Action Address Hash Signature Schnorr) (feePayer : Address) (senderPublic : Public)
  | termClose (lastTermFinishedBlockNum : UInt64) (inactiveValidators : List Address)

/-- The CCS an event creates, as `StakeStep` counts it. -/
def StakeEvent.minted : StakeEvent Address Public Hash Signature Schnorr → ℕ
  | .execute action feePayer _ => action.minted feePayer
  | .termClose _ _ => 0

variable [DecidableEq Public]

/-- Feed the handler a list of events in turn; the first failure ends the run. -/
def runEvents (env : Environment Address Public Hash Signature Seal) (state : StakeState Address Public) :
    List (StakeEvent Address Public Hash Signature Schnorr) → StakeResult Address (StakeState Address Public)
  | [] => .ok state
  | .execute action feePayer senderPublic :: events => do
      runEvents env (← execute env action state feePayer senderPublic) events
  | .termClose lastTermFinishedBlockNum inactiveValidators :: events => do
      runEvents env (← onTermClose env.publicToAddress state lastTermFinishedBlockNum inactiveValidators)
        events

/-- A list of events that the handler runs through is a run of stake
transitions. -/
theorem stakeRun_of_runEvents {env : Environment Address Public Hash Signature Seal}
    {state state' : StakeState Address Public} {events : List (StakeEvent Address Public Hash Signature Schnorr)}
    (ran : runEvents env state events = .ok state') :
    StakeRun env Schnorr state (events.map StakeEvent.minted).sum state' := by
  induction events generalizing state with
  | nil =>
      cases ran
      exact .done _
  | cons event events ih =>
      rw [List.map_cons, List.sum_cons]
      cases event with
      | execute action feePayer senderPublic =>
          simp only [runEvents, Fault.bind_eq_ok] at ran
          obtain ⟨middle, accepted, rest⟩ := ran
          exact .step (.execute action feePayer senderPublic accepted) (ih rest)
      | termClose lastTermFinishedBlockNum inactiveValidators =>
          simp only [runEvents, Fault.bind_eq_ok] at ran
          obtain ⟨middle, closed, rest⟩ := ran
          exact .step (.termClose lastTermFinishedBlockNum inactiveValidators closed) (ih rest)

end Order

/-! ### A delegation that outlives its candidate -/

/-- Parameters with nominations of one term and a single validator seat. -/
def singleSeatParams : CommonParams where
  maxExtraDataSize := 0x20
  maxTextContentSize := 0x200
  networkId := 0
  maxBodySize := 4194304
  termSeconds := 3600
  nominationExpiration := 1
  custodyPeriod := 1
  releasePeriod := 2
  maxNumOfValidators := 1
  minNumOfValidators := 1
  delegationThreshold := 1
  minDeposit := 0
  maxCandidateMetadataSize := 0x10

/-- Genesis gives address `0` a stake of `2^63` CCS and address `1` one of
`2^63 + 1`, and sets no parameters. -/
def wrappingGenesis : StakeState ℕ ℕ :=
  init (((∅ : AList fun _ : ℕ => UInt64).insert 0 9223372036854775808).insert 1 9223372036854775809)
    (StakeState.empty (fun _ => 0) ⟨0, none, 0, 0⟩)

/-- A chain where every parameter-change signature recovers to the key of
address `1`, the holder of the larger stake. -/
def approvedByOneEnvironment : Environment ℕ ℕ Unit Unit Unit :=
  ⟨id, fun _ _ _ => .ok 1, ⟨fun _ => none, fun _ => none, fun _ => none, fun _ => none⟩, ⟨⟨[]⟩⟩⟩

/-- Address `1` changes the parameters to `singleSeatParams`, with its own
approval.  Addresses `2` and `3` nominate themselves.  Address `0` delegates
`2^63` to `2`, receives `2^63` from `1` and delegates them to `3`; its
delegations now sum to `2^64`, zero as a `u64`, so its transfer of nothing
drops it from the stakeholders.  Two term closes expire both candidates, and
the revert skips `0`.  Last, `1` sends `0` one CCS, which brings it back. -/
def wrappingEvents : List (StakeEvent ℕ ℕ Unit Unit Unit) :=
  [.execute (.changeParams 0 singleSeatParams [()]) 1 1,
   .execute (.selfNominate 0 []) 2 2,
   .execute (.selfNominate 0 []) 3 3,
   .execute (.delegateCcs 2 9223372036854775808) 0 0,
   .execute (.transferCcs 0 9223372036854775808) 1 1,
   .execute (.delegateCcs 3 9223372036854775808) 0 0,
   .execute (.transferCcs 1 0) 0 0,
   .termClose 1 [],
   .termClose 2 [],
   .execute (.transferCcs 0 1) 1 1]

theorem delegation_outlives_expired_candidate :
    ∃ minted state', StakeRun approvedByOneEnvironment Unit wrappingGenesis minted state' ∧
      ¬ AccountInvariant id state' := by
  have ran : (runEvents approvedByOneEnvironment wrappingGenesis wrappingEvents).toOption.map
      (fun state => decide (DelegateesValid id state)) = some false := by
    decide +kernel
  cases final : runEvents approvedByOneEnvironment wrappingGenesis wrappingEvents with
  | error e =>
      rw [final] at ran
      cases ran
  | ok state' =>
      rw [final] at ran
      have broken : decide (DelegateesValid id state') = false := Option.some.inj ran
      exact ⟨_, state', stakeRun_of_runEvents final,
        fun invariant => absurd invariant.delegatees (of_decide_eq_false broken)⟩

end Stake

end CodeChain
