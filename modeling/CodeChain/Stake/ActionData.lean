import CodeChain.Lib.AListTotal
import CodeChain.Lib.Fault
import CodeChain.Lib.ListRemove
import CodeChain.Lib.FinsetSort

/-!
# Stake action data

The records the stake handler keeps in the state (`stake/action_data.rs`):
the stake balance of each account, the delegations of each delegator, the set
of stakeholders, the candidates, the jail, the banned addresses, the current
validators and the intermediate rewards, together with the slice of the
top-level state the handler reads (the CCC balance of each account and the
metadata with its `CommonParams`).

Every record is stored under its own key and decodes to its default when the
key is absent; saving the default removes the key.  The model keeps each record
as a field of `StakeState` with that default, so loading is reading the field
and saving is writing it.  Stake quantities are `u64` and are `UInt64` here:
`+=` on `u64` wraps in a release build, and `UInt64` addition wraps the same
way.  Addresses are ordered (`BTreeSet` and `BTreeMap` need `Ord`), and public
keys become addresses through `publicToAddress`, a hash outside the model.
-/

namespace CodeChain

namespace Stake

/-- The `RuntimeError` variants the stake handler returns. -/
inductive RuntimeError (Address : Type) where
  | insufficientBalance (address : Address) (cost balance : UInt64)
  | failedToHandleCustomAction (message : String)
  | invalidSeq (expected found : UInt64)
  | signatureOfInvalidAccount (address : Address)
  | insufficientStakes (expected found : UInt64)
  deriving DecidableEq, Repr

/-- The fields of `CommonParams` read by the stake handler, the engine and block
verification. -/
structure CommonParams where
  maxExtraDataSize : Nat
  maxTextContentSize : Nat
  networkId : UInt16
  maxBodySize : Nat
  termSeconds : UInt64
  nominationExpiration : UInt64
  custodyPeriod : UInt64
  releasePeriod : UInt64
  maxNumOfValidators : Nat
  minNumOfValidators : Nat
  delegationThreshold : UInt64
  minDeposit : UInt64
  maxCandidateMetadataSize : Nat
  deriving DecidableEq, Repr

/-- `CommonParams::verify`: the dynamic-validator parameters must be set and
consistent whenever terms are enabled. -/
def CommonParams.verify (params : CommonParams) : Except String Unit :=
  if params.termSeconds ≠ 0 then
    if params.nominationExpiration = 0 then
      .error "You should set the nomination expiration"
    else if params.custodyPeriod = 0 then
      .error "You should set the custody period"
    else if params.releasePeriod = 0 then
      .error "You should set the release period"
    else if params.maxNumOfValidators = 0 then
      .error "You should set the maximum number of validators"
    else if params.minNumOfValidators = 0 then
      .error "You should set the minimum number of validators"
    else if params.delegationThreshold = 0 then
      .error "You should set the delegation threshold"
    else if params.minDeposit = 0 then
      .error "You should set the minimum deposit"
    else if params.minNumOfValidators > params.maxNumOfValidators then
      let minimum := params.minNumOfValidators
      let maximum := params.maxNumOfValidators
      .error s!"The minimum number of validators({minimum}) is larger than the maximum number of validators({maximum})"
    else if params.custodyPeriod ≥ params.releasePeriod then
      let release := params.releasePeriod
      let custody := params.custodyPeriod
      .error s!"The release period({release}) should be longer than the custody period({custody})"
    else if params.maxCandidateMetadataSize ≥ params.maxTextContentSize then
      let candidate := params.maxCandidateMetadataSize
      let text := params.maxTextContentSize
      .error s!"The candidate metadata size limit({candidate}) should be shorter than the text limit({text})"
    else .ok ()
  else .ok ()

/-- The metadata record: the parameter sequence number, the current
`CommonParams` (absent until the first `ChangeParams` or genesis), and the term
bookkeeping. -/
structure Metadata where
  seq : UInt64
  params : Option CommonParams
  lastTermFinishedBlockNum : UInt64
  currentTermId : UInt64
  deriving DecidableEq, Repr

/-- `Metadata::increase_term_id`, which asserts that block numbers of term ends
increase. -/
def Metadata.increaseTermId {ε : Type} (metadata : Metadata) (lastTermFinishedBlockNum : UInt64) :
    Except (Fault ε) Metadata := do
  Fault.ensure (metadata.lastTermFinishedBlockNum < lastTermFinishedBlockNum)
    "assertion failed: last_term_finished_block_num < new"
  pure { metadata with
    lastTermFinishedBlockNum := lastTermFinishedBlockNum
    currentTermId := metadata.currentTermId + 1 }

/-- A `Validator` record: the weight used to pick proposers, the delegation and
deposit it was elected with, and its key. -/
structure Validator (Public : Type) where
  weight : UInt64
  delegation : UInt64
  deposit : UInt64
  pubkey : Public
  deriving DecidableEq, Repr

/-- `Validator::new`: a fresh validator weighs its delegation. -/
def Validator.new {Public : Type} (delegation deposit : UInt64) (pubkey : Public) :
    Validator Public :=
  { weight := delegation, delegation := delegation, deposit := deposit, pubkey := pubkey }

/-- A `Candidate`: a self-nominated account with its deposit and the term at
which its nomination ends. -/
structure Candidate (Public : Type) where
  pubkey : Public
  deposit : UInt64
  nominationEndsAt : UInt64
  metadata : List UInt8
  deriving DecidableEq, Repr

/-- A `Prisoner`: a jailed former candidate with its deposit, the term until
which it stays in custody and the term at which it is released. -/
structure Prisoner (Address : Type) where
  address : Address
  deposit : UInt64
  custodyUntil : UInt64
  releasedAt : UInt64
  deriving DecidableEq, Repr

/-- `IntermediateRewards`: rewards of the previous and of the current term. -/
structure IntermediateRewards (Address : Type) where
  previous : AList fun _ : Address => UInt64
  current : AList fun _ : Address => UInt64

/-- Every record the stake handler stores, with the CCC balance of each
account and the metadata it reads from the top-level state. -/
structure StakeState (Address Public : Type) where
  accounts : AList fun _ : Address => UInt64
  delegations : AList fun _ : Address => AList fun _ : Address => UInt64
  stakeholders : Finset Address
  candidates : List (Candidate Public)
  jail : AList fun _ : Address => Prisoner Address
  banned : Finset Address
  validators : List (Validator Public)
  intermediateRewards : IntermediateRewards Address
  balance : Address → UInt64
  metadata : Metadata

/-- A state with no stake record of any kind, as before genesis. -/
def StakeState.empty {Address Public : Type} (balance : Address → UInt64) (metadata : Metadata) :
    StakeState Address Public where
  accounts := ∅
  delegations := ∅
  stakeholders := ∅
  candidates := []
  jail := ∅
  banned := ∅
  validators := []
  intermediateRewards := { previous := ∅, current := ∅ }
  balance := balance
  metadata := metadata

variable {Address Public : Type} [DecidableEq Address]

/-- `StakeAccount`: the stake of one address, as loaded from the state. -/
structure StakeAccount (Address : Type) where
  address : Address
  balance : UInt64
  deriving DecidableEq, Repr

namespace StakeAccount

/-- `StakeAccount::load_from_state`: an address without a record holds zero. -/
def loadFromState (state : StakeState Address Public) (address : Address) :
    StakeAccount Address :=
  { address := address, balance := (state.accounts.lookup address).getD 0 }

/-- `StakeAccount::save_to_state`: a zero balance removes the record. -/
def saveToState (account : StakeAccount Address) (state : StakeState Address Public) :
    StakeState Address Public :=
  { state with
    accounts :=
      if account.balance ≠ 0 then state.accounts.insert account.address account.balance
      else state.accounts.erase account.address }

@[simp]
theorem delegations_saveToState (account : StakeAccount Address) (state : StakeState Address Public) :
    (account.saveToState state).delegations = state.delegations :=
  rfl

/-- `StakeAccount::subtract_balance`. -/
def subtractBalance (account : StakeAccount Address) (amount : UInt64) :
    Except (Fault (RuntimeError Address)) (StakeAccount Address) :=
  if account.balance < amount then
    Fault.fail (.insufficientBalance account.address amount account.balance)
  else
    .ok { account with balance := account.balance - amount }

/-- `StakeAccount::add_balance`; its `Result` is always `Ok`, and `+=` wraps. -/
def addBalance (account : StakeAccount Address) (amount : UInt64) : StakeAccount Address :=
  { account with balance := account.balance + amount }

@[simp]
theorem address_loadFromState (state : StakeState Address Public) (address : Address) :
    (loadFromState state address).address = address :=
  rfl

omit [DecidableEq Address] in
@[simp]
theorem address_addBalance (account : StakeAccount Address) (amount : UInt64) :
    (account.addBalance amount).address = account.address :=
  rfl

/-- Loading a saved account gives it back, a zero balance included. -/
@[simp]
theorem loadFromState_saveToState_self (account : StakeAccount Address)
    (state : StakeState Address Public) :
    loadFromState (account.saveToState state) account.address = account := by
  obtain ⟨address, balance⟩ := account
  by_cases zero : balance = 0
  · simp [loadFromState, saveToState, zero]
  · simp [loadFromState, saveToState, zero]

theorem loadFromState_saveToState_of_ne (account : StakeAccount Address)
    (state : StakeState Address Public) {address : Address} (distinct : address ≠ account.address) :
    loadFromState (account.saveToState state) address = loadFromState state address := by
  by_cases zero : account.balance = 0
  · simp [loadFromState, saveToState, zero, AList.lookup_erase_ne distinct]
  · simp [loadFromState, saveToState, zero, AList.lookup_insert_ne distinct]

omit [DecidableEq Address] in
theorem subtractBalance_eq_ok {account account' : StakeAccount Address} {amount : UInt64} :
    account.subtractBalance amount = .ok account' ↔
      amount ≤ account.balance ∧ account' = { account with balance := account.balance - amount } := by
  by_cases short : account.balance < amount
  · simp [subtractBalance, short, UInt64.not_le.mpr short]
  · simp [subtractBalance, short, UInt64.not_lt.mp short, eq_comm]

end StakeAccount

/-- `Delegation`: how much one delegator has delegated to each delegatee. -/
structure Delegation (Address : Type) where
  delegator : Address
  delegatees : AList fun _ : Address => UInt64

namespace Delegation

/-- `Delegation::load_from_state`. -/
def loadFromState (state : StakeState Address Public) (delegator : Address) :
    Delegation Address :=
  { delegator := delegator, delegatees := (state.delegations.lookup delegator).getD ∅ }

/-- `Delegation::save_to_state`: an empty map removes the record. -/
def saveToState (delegation : Delegation Address) (state : StakeState Address Public) :
    StakeState Address Public :=
  { state with
    delegations :=
      if delegation.delegatees.entries ≠ [] then
        state.delegations.insert delegation.delegator delegation.delegatees
      else state.delegations.erase delegation.delegator }

@[simp]
theorem accounts_saveToState (delegation : Delegation Address) (state : StakeState Address Public) :
    (delegation.saveToState state).accounts = state.accounts :=
  rfl

/-- `Delegation::get_quantity`. -/
def getQuantity (delegation : Delegation Address) (delegatee : Address) : UInt64 :=
  (delegation.delegatees.lookup delegatee).getD 0

/-- `Delegation::add_quantity`; its `Result` is always `Ok`. -/
def addQuantity (delegation : Delegation Address) (delegatee : Address) (quantity : UInt64) :
    Delegation Address :=
  if quantity = 0 then delegation
  else
    { delegation with
      delegatees := delegation.delegatees.insert delegatee
        (delegation.getQuantity delegatee + quantity) }

/-- `Delegation::subtract_quantity`: the entry shrinks, or disappears when it is
used up; taking more than was delegated is an error. -/
def subtractQuantity (delegation : Delegation Address) (delegatee : Address)
    (quantity : UInt64) : Except (Fault (RuntimeError Address)) (Delegation Address) :=
  if quantity = 0 then .ok delegation
  else
    match delegation.delegatees.lookup delegatee with
    | some current =>
        if current > quantity then
          .ok { delegation with
            delegatees := delegation.delegatees.insert delegatee (current - quantity) }
        else if current = quantity then
          .ok { delegation with delegatees := delegation.delegatees.erase delegatee }
        else
          Fault.fail (.failedToHandleCustomAction
            "Cannot subtract more than that is delegated to")
    | none =>
        Fault.fail (.failedToHandleCustomAction "Cannot subtract more than that is delegated to")

/-- `Delegation::sum`: the `u64` sum of all delegated quantities. -/
def sum (delegation : Delegation Address) : UInt64 :=
  (delegation.delegatees.entries.map fun entry => entry.2).sum

@[simp]
theorem delegator_loadFromState (state : StakeState Address Public) (delegator : Address) :
    (loadFromState state delegator).delegator = delegator :=
  rfl

/-- Loading a saved delegation gives it back, an empty one included. -/
@[simp]
theorem loadFromState_saveToState_self (delegation : Delegation Address)
    (state : StakeState Address Public) :
    loadFromState (delegation.saveToState state) delegation.delegator = delegation := by
  obtain ⟨delegator, ⟨entries, distinctKeys⟩⟩ := delegation
  by_cases empty : entries = []
  · subst empty
    simp [loadFromState, saveToState]
    rfl
  · simp [loadFromState, saveToState, empty]

theorem loadFromState_saveToState_of_ne (delegation : Delegation Address)
    (state : StakeState Address Public) {delegator : Address}
    (distinct : delegator ≠ delegation.delegator) :
    loadFromState (delegation.saveToState state) delegator = loadFromState state delegator := by
  by_cases empty : delegation.delegatees.entries = []
  · simp [loadFromState, saveToState, empty, AList.lookup_erase_ne distinct]
  · simp [loadFromState, saveToState, empty, AList.lookup_insert_ne distinct]

@[simp]
theorem delegator_addQuantity (delegation : Delegation Address) (delegatee : Address)
    (quantity : UInt64) : (delegation.addQuantity delegatee quantity).delegator = delegation.delegator := by
  unfold addQuantity
  split <;> rfl

end Delegation

/-- `Stakeholders`: the addresses that hold stake. -/
structure Stakeholders (Address : Type) where
  addresses : Finset Address

namespace Stakeholders

/-- `Stakeholders::load_from_state`. -/
def loadFromState (state : StakeState Address Public) : Stakeholders Address :=
  { addresses := state.stakeholders }

/-- `Stakeholders::save_to_state`. -/
def saveToState (stakeholders : Stakeholders Address) (state : StakeState Address Public) :
    StakeState Address Public :=
  { state with stakeholders := stakeholders.addresses }

omit [DecidableEq Address] in
@[simp]
theorem accounts_saveToState (stakeholders : Stakeholders Address) (state : StakeState Address Public) :
    (stakeholders.saveToState state).accounts = state.accounts :=
  rfl

omit [DecidableEq Address] in
@[simp]
theorem delegations_saveToState (stakeholders : Stakeholders Address) (state : StakeState Address Public) :
    (stakeholders.saveToState state).delegations = state.delegations :=
  rfl

/-- `Stakeholders::update_by_increased_balance`. -/
def updateByIncreasedBalance (stakeholders : Stakeholders Address)
    (account : StakeAccount Address) : Stakeholders Address :=
  if account.balance > 0 then { addresses := insert account.address stakeholders.addresses }
  else stakeholders

/-- `Stakeholders::update_by_decreased_balance`, which asserts that the account
and the delegation belong to the same address. -/
def updateByDecreasedBalance {ε : Type} (stakeholders : Stakeholders Address)
    (account : StakeAccount Address) (delegation : Delegation Address) :
    Except (Fault ε) (Stakeholders Address) := do
  Fault.ensure (decide (account.address = delegation.delegator))
    "assertion failed: account.address == delegation.delegator"
  if account.balance = 0 ∧ delegation.sum = 0 then
    pure { addresses := stakeholders.addresses.erase account.address }
  else
    pure stakeholders

theorem mem_updateByIncreasedBalance (stakeholders : Stakeholders Address)
    (account : StakeAccount Address) (address : Address) :
    address ∈ (stakeholders.updateByIncreasedBalance account).addresses ↔
      address ∈ stakeholders.addresses ∨ (address = account.address ∧ 0 < account.balance) := by
  unfold updateByIncreasedBalance
  split
  · rename_i positive
    simp [positive, or_comm]
  · rename_i notPositive
    simp [notPositive]

/-- A successful `update_by_decreased_balance` drops the address exactly when
its account holds nothing and it delegated nothing. -/
theorem mem_of_updateByDecreasedBalance_eq_ok {ε : Type}
    {stakeholders stakeholders' : Stakeholders Address} {account : StakeAccount Address}
    {delegation : Delegation Address}
    (updated : (stakeholders.updateByDecreasedBalance account delegation :
      Except (Fault ε) (Stakeholders Address)) = .ok stakeholders')
    (address : Address) :
    address ∈ stakeholders'.addresses ↔
      address ∈ stakeholders.addresses ∧
        ¬(address = account.address ∧ account.balance = 0 ∧ delegation.sum = 0) := by
  simp only [updateByDecreasedBalance, Fault.bind_eq_ok] at updated
  obtain ⟨-, -, decided⟩ := updated
  split at decided
  · rename_i emptied
    rw [Fault.pure_eq_ok] at decided
    subst decided
    simp only [Finset.mem_erase, emptied, and_true]
    exact and_comm
  · rename_i kept
    rw [Fault.pure_eq_ok] at decided
    subst decided
    exact ⟨fun member => ⟨member, fun dropped => kept dropped.2⟩, fun member => member.1⟩

/-- `Stakeholders::iter`: a `BTreeSet` is visited in increasing order. -/
def iter [LinearOrder Address] (stakeholders : Stakeholders Address) : List Address :=
  FinsetSort.ascending stakeholders.addresses

end Stakeholders

namespace Stakeholders

/-- `Stakeholders::delegatees`: the total delegated to each delegatee by all
stakeholders (a `HashMap`, here a finite map). -/
def delegatees [LinearOrder Address] (state : StakeState Address Public) :
    AList fun _ : Address => UInt64 :=
  (loadFromState state).iter.foldl
    (fun result stakeholder =>
      (Delegation.loadFromState state stakeholder).delegatees.entries.foldl
        (fun result entry => result.insert entry.1 ((result.lookup entry.1).getD 0 + entry.2))
        result)
    ∅

end Stakeholders

section Keys

variable (publicToAddress : Public → Address)

/-- `Candidates`: the self-nominated accounts, lowest priority first. -/
structure Candidates (Public : Type) where
  list : List (Candidate Public)

namespace Candidates

def loadFromState (state : StakeState Address Public) : Candidates Public :=
  { list := state.candidates }

def saveToState (candidates : Candidates Public) (state : StakeState Address Public) :
    StakeState Address Public :=
  { state with candidates := candidates.list }

omit [DecidableEq Address] in
@[simp]
theorem accounts_saveToState (candidates : Candidates Public) (state : StakeState Address Public) :
    (candidates.saveToState state).accounts = state.accounts :=
  rfl

omit [DecidableEq Address] in
@[simp]
theorem delegations_saveToState (candidates : Candidates Public) (state : StakeState Address Public) :
    (candidates.saveToState state).delegations = state.delegations :=
  rfl

def getCandidate (candidates : Candidates Public) (account : Address) :
    Option (Candidate Public) :=
  candidates.list.find? fun candidate => publicToAddress candidate.pubkey = account

/-- `Candidates::remove`: the first candidate of the address, taken out. -/
def remove (candidates : Candidates Public) (address : Address) :
    Option (Candidate Public) × Candidates Public :=
  match ListRemove.takeFirst (fun candidate => publicToAddress candidate.pubkey = address)
      candidates.list with
  | some (candidate, rest) => (some candidate, { list := rest })
  | none => (none, candidates)

/-- The candidate `remove` takes out is the one `get_candidate` finds. -/
theorem remove_fst (candidates : Candidates Public) (address : Address) :
    (candidates.remove publicToAddress address).1 = candidates.getCandidate publicToAddress address := by
  rw [getCandidate, ← ListRemove.takeFirst_map_fst, remove]
  split <;> simp_all

/-- `Candidates::reprioritize`: move every target, in the given order, to the
high-priority end; a target that is not a candidate is a panic. -/
def reprioritize {ε : Type} (candidates : Candidates Public) (targets : List Address) :
    Except (Fault ε) (Candidates Public) := do
  let (kept, renewed) ← targets.foldlM
    (fun (acc : List (Candidate Public) × List (Candidate Public)) target => do
      let (candidate, rest) ← Fault.expect
        (ListRemove.takeFirst (fun candidate => publicToAddress candidate.pubkey = target) acc.1)
        "Reprioritize target should be a candidate"
      pure (rest, acc.2 ++ [candidate]))
    (candidates.list, [])
  pure { list := kept ++ renewed }

/-- `Candidates::add_deposit`: raise the deposit of an existing candidate (its
nomination end never moves back) or append a new one, then give it the highest
priority. -/
def addDeposit {ε : Type} (candidates : Candidates Public) [DecidableEq Public]
    (pubkey : Public) (quantity nominationEndsAt : UInt64) (metadata : List UInt8) :
    Except (Fault ε) (Candidates Public) :=
  let updated : List (Candidate Public) :=
    match candidates.list.findIdx? fun candidate => candidate.pubkey = pubkey with
    | some index =>
        candidates.list.modify index fun candidate =>
          { candidate with
            deposit := candidate.deposit + quantity
            nominationEndsAt := max candidate.nominationEndsAt nominationEndsAt
            metadata := metadata }
    | none =>
        let fresh : Candidate Public :=
          { pubkey := pubkey, deposit := quantity, nominationEndsAt := nominationEndsAt,
            metadata := metadata }
        candidates.list ++ [fresh]
  reprioritize publicToAddress { list := updated } [publicToAddress pubkey]

/-- `Candidates::renew_candidates`: every current validator that was not
inactive has its nomination extended and is moved, in list order, to the
high-priority end; renewing a banned address is a panic. -/
def renewCandidates {ε : Type} [DecidableEq Public] (candidates : Candidates Public)
    (validators : List (Validator Public)) (nominationEndsAt : UInt64)
    (inactiveValidators : List Address) (banned : Finset Address) :
    Except (Fault ε) (Candidates Public) := do
  let toRenew : List Public := (validators.map fun validator => validator.pubkey).filter
    fun pubkey => publicToAddress pubkey ∉ inactiveValidators
  let renewing := fun candidate : Candidate Public => decide (candidate.pubkey ∈ toRenew)
  let renewed ← candidates.list.mapM fun candidate => do
    if renewing candidate then
      Fault.ensure (decide (publicToAddress candidate.pubkey ∉ banned)) "is banned address"
      pure { candidate with nominationEndsAt := nominationEndsAt }
    else pure candidate
  let toReprioritize := (renewed.filter renewing).map fun candidate =>
    publicToAddress candidate.pubkey
  reprioritize publicToAddress { list := renewed } toReprioritize

/-- `Candidates::drain_expired_candidates`: take out, in order, every candidate
whose nomination ended by the given term. -/
def drainExpiredCandidates (candidates : Candidates Public) (termIndex : UInt64) :
    List (Candidate Public) × Candidates Public :=
  let (expired, retained) := candidates.list.partition
    fun candidate => candidate.nominationEndsAt ≤ termIndex
  (expired, { list := retained })

end Candidates

/-- `ReleaseResult`: what `Jail::try_release` found. -/
inductive ReleaseResult (Address : Type) where
  | notExists
  | inCustody
  | released (prisoner : Prisoner Address)
  deriving DecidableEq, Repr

/-- `Jail`: the prisoners, keyed by address. -/
structure Jail (Address : Type) where
  prisoners : AList fun _ : Address => Prisoner Address

namespace Jail

def loadFromState (state : StakeState Address Public) : Jail Address :=
  { prisoners := state.jail }

def saveToState (jail : Jail Address) (state : StakeState Address Public) :
    StakeState Address Public :=
  { state with jail := jail.prisoners }

omit [DecidableEq Address] in
@[simp]
theorem accounts_saveToState (jail : Jail Address) (state : StakeState Address Public) :
    (jail.saveToState state).accounts = state.accounts :=
  rfl

omit [DecidableEq Address] in
@[simp]
theorem delegations_saveToState (jail : Jail Address) (state : StakeState Address Public) :
    (jail.saveToState state).delegations = state.delegations :=
  rfl

def getPrisoner (jail : Jail Address) (address : Address) : Option (Prisoner Address) :=
  jail.prisoners.lookup address

/-- `Jail::add`, which asserts that custody ends no later than the release. -/
def add {ε : Type} (jail : Jail Address) (candidate : Candidate Public)
    (custodyUntil releasedAt : UInt64) : Except (Fault ε) (Jail Address) := do
  Fault.ensure (custodyUntil ≤ releasedAt) "assertion failed: custody_until <= released_at"
  let address := publicToAddress candidate.pubkey
  let prisoner : Prisoner Address :=
    { address := address, deposit := candidate.deposit, custodyUntil := custodyUntil,
      releasedAt := releasedAt }
  pure { prisoners := jail.prisoners.insert address prisoner }

def remove (jail : Jail Address) (address : Address) :
    Option (Prisoner Address) × Jail Address :=
  (jail.prisoners.lookup address, { prisoners := jail.prisoners.erase address })

/-- `Jail::try_release`: a prisoner whose custody is over leaves the jail. -/
def tryRelease (jail : Jail Address) (address : Address) (termIndex : UInt64) :
    ReleaseResult Address × Jail Address :=
  match jail.prisoners.lookup address with
  | some prisoner =>
      if prisoner.custodyUntil < termIndex then
        (.released prisoner, { prisoners := jail.prisoners.erase address })
      else (.inCustody, jail)
  | none => (.notExists, jail)

/-- `Jail::drain_released_prisoners`: take out every prisoner released by the
given term. -/
def drainReleasedPrisoners (jail : Jail Address) (termIndex : UInt64) :
    List (Prisoner Address) × Jail Address :=
  let releasing := fun entry : Sigma fun _ : Address => Prisoner Address =>
    entry.2.releasedAt ≤ termIndex
  (((jail.prisoners.entries.filter releasing).map fun entry => entry.2),
    { prisoners :=
      { entries := jail.prisoners.entries.filter fun entry => !releasing entry
        nodupKeys := jail.prisoners.nodupKeys.sublist List.filter_sublist } })

end Jail

/-- `Validators`: the validators of the current term, in ascending order. -/
structure Validators (Public : Type) where
  list : List (Validator Public)

namespace Validators

def loadFromState (state : StakeState Address Public) : Validators Public :=
  { list := state.validators }

def saveToState (validators : Validators Public) (state : StakeState Address Public) :
    StakeState Address Public :=
  { state with validators := validators.list }

omit [DecidableEq Address] in
@[simp]
theorem accounts_saveToState (validators : Validators Public) (state : StakeState Address Public) :
    (validators.saveToState state).accounts = state.accounts :=
  rfl

omit [DecidableEq Address] in
@[simp]
theorem delegations_saveToState (validators : Validators Public) (state : StakeState Address Public) :
    (validators.saveToState state).delegations = state.delegations :=
  rfl

/-- `Validators::remove`: drop every validator of the address. -/
def remove (validators : Validators Public) (target : Address) : Validators Public :=
  { list := validators.list.filter fun validator => publicToAddress validator.pubkey ≠ target }

/-- `Validators::min_delegation`, which expects at least one validator. -/
def minDelegation {ε : Type} (validators : Validators Public) : Except (Fault ε) UInt64 :=
  Fault.expect (validators.list.map fun validator => validator.delegation).min?
    "There must be at least one validators"

end Validators

end Keys

/-- `Banned`: the addresses punished for double voting. -/
structure Banned (Address : Type) where
  addresses : Finset Address

namespace Banned

def loadFromState (state : StakeState Address Public) : Banned Address :=
  { addresses := state.banned }

def saveToState (banned : Banned Address) (state : StakeState Address Public) :
    StakeState Address Public :=
  { state with banned := banned.addresses }

omit [DecidableEq Address] in
@[simp]
theorem accounts_saveToState (banned : Banned Address) (state : StakeState Address Public) :
    (banned.saveToState state).accounts = state.accounts :=
  rfl

omit [DecidableEq Address] in
@[simp]
theorem delegations_saveToState (banned : Banned Address) (state : StakeState Address Public) :
    (banned.saveToState state).delegations = state.delegations :=
  rfl

def add (banned : Banned Address) (address : Address) : Banned Address :=
  { addresses := insert address banned.addresses }

def isBanned (banned : Banned Address) (address : Address) : Bool :=
  decide (address ∈ banned.addresses)

end Banned

/-- `u64::saturating_sub`. -/
def saturatingSub (value amount : UInt64) : UInt64 :=
  if amount ≤ value then value - amount else 0

/-- The derived `Ord` of `Validator`: weight, then delegation, then deposit,
then key. -/
def Validator.le [Ord Public] (first second : Validator Public) : Bool :=
  ((compare first.weight second.weight).then ((compare first.delegation second.delegation).then
    ((compare first.deposit second.deposit).then (compare first.pubkey second.pubkey)))) != .gt

section Keys

variable (publicToAddress : Public → Address)

/-- `Candidates::prepare_validators`: the candidates with enough deposit that
received delegations, sorted stably by (delegation, deposit) so that equal keys
keep their priority order. -/
def Candidates.prepareValidators (state : StakeState Address Public) (minDeposit : UInt64)
    (delegations : AList fun _ : Address => UInt64) : List (Validator Public) :=
  let result := (state.candidates.filter fun candidate => candidate.deposit ≥ minDeposit).filterMap
    fun candidate => (delegations.lookup (publicToAddress candidate.pubkey)).map
      fun delegation => Validator.new delegation candidate.deposit candidate.pubkey
  result.insertionSort fun first second =>
    first.delegation < second.delegation ∨
      first.delegation = second.delegation ∧ first.deposit ≤ second.deposit

namespace Validators

/-- `Validators::elect`: rank the candidates by (delegation, deposit,
priority), keep at most `max_num_of_validators`, and of those keep the first
`min_num_of_validators` together with the rest whose delegation reaches the
threshold; the result is stored in ascending order. -/
def elect {ε : Type} [LinearOrder Address] (state : StakeState Address Public) :
    Except (Fault ε) (Validators Public) := do
  let params ← Fault.expect state.metadata.params
    "CommonParams must exist in the metadata when elect"
  Fault.ensure (params.maxNumOfValidators ≥ params.minNumOfValidators)
    "assertion failed: max_num_of_validators >= min_num_of_validators"
  let delegatees := Stakeholders.delegatees state
  let validators :=
    (Candidates.prepareValidators publicToAddress state params.minDeposit delegatees).reverse
  let banned := Banned.loadFromState state
  validators.forM fun validator =>
    Fault.ensure (!banned.isBanned (publicToAddress validator.pubkey)) "is banned address"
  let validators := validators.take params.maxNumOfValidators
  let minimum := validators.take (min params.minNumOfValidators validators.length)
  let rest := validators.drop (min params.minNumOfValidators validators.length)
  let overThreshold := rest.filter fun validator =>
    validator.delegation ≥ params.delegationThreshold
  pure { list := (minimum ++ overThreshold).reverse }

/-- The loop of `update_weight` over the validators from the highest: each one
that is not the author loses twice the minimum delegation, and the author loses
the minimum delegation and ends the loop. -/
def lowerWeights (blockAuthor : Address) (minDelegation : UInt64) :
    List (Validator Public) → List (Validator Public)
  | [] => []
  | validator :: rest =>
      if publicToAddress validator.pubkey = blockAuthor then
        { validator with weight := saturatingSub validator.weight minDelegation } :: rest
      else
        { validator with weight := saturatingSub validator.weight (minDelegation * 2) } ::
          lowerWeights blockAuthor minDelegation rest

/-- `Validators::update_weight`: lower the weights, reset all of them to the
delegations once every weight is zero, and sort. -/
def updateWeight {ε : Type} [Ord Public] (validators : Validators Public)
    (blockAuthor : Address) : Except (Fault ε) (Validators Public) := do
  let minDelegation ← validators.minDelegation
  let lowered := (lowerWeights publicToAddress blockAuthor minDelegation validators.list.reverse).reverse
  let reset :=
    if lowered.all fun validator => validator.weight = 0 then
      lowered.map fun validator => { validator with weight := validator.delegation }
    else lowered
  pure { list := reset.insertionSort fun first second => Validator.le first second }

end Validators

end Keys

namespace IntermediateRewards

def loadFromState (state : StakeState Address Public) : IntermediateRewards Address :=
  state.intermediateRewards

def saveToState (rewards : IntermediateRewards Address) (state : StakeState Address Public) :
    StakeState Address Public :=
  { state with intermediateRewards := rewards }

omit [DecidableEq Address] in
@[simp]
theorem accounts_saveToState (rewards : IntermediateRewards Address) (state : StakeState Address Public) :
    (rewards.saveToState state).accounts = state.accounts :=
  rfl

omit [DecidableEq Address] in
@[simp]
theorem delegations_saveToState (rewards : IntermediateRewards Address) (state : StakeState Address Public) :
    (rewards.saveToState state).delegations = state.delegations :=
  rfl

def addQuantity (rewards : IntermediateRewards Address) (address : Address) (quantity : UInt64) :
    IntermediateRewards Address :=
  if quantity = 0 then rewards
  else
    { rewards with
      current := rewards.current.insert address ((rewards.current.lookup address).getD 0 + quantity) }

def drainPrevious (rewards : IntermediateRewards Address) :
    (AList fun _ : Address => UInt64) × IntermediateRewards Address :=
  (rewards.previous, { rewards with previous := ∅ })

def moveCurrentToPrevious {ε : Type} (rewards : IntermediateRewards Address) :
    Except (Fault ε) (IntermediateRewards Address) := do
  Fault.ensure (rewards.previous.entries.isEmpty) "assertion failed: self.previous.is_empty()"
  pure { previous := rewards.current, current := rewards.previous }

end IntermediateRewards

end Stake

end CodeChain
