import CodeChain.Consensus.Message
import CodeChain.Stake.ActionData

/-!
# Validator sets

The two validator sets of the engine (`consensus/validator_set`).
`RoundRobinValidator` is a fixed list of keys, counted one vote per index.
`DynamicValidator` reads the validators the stake handler elected, as stored in
the state after the parent block, and falls back to a fixed initial list while
the chain is in its first term or no validator is stored; it weighs votes by
delegation.  Both draw a validator from an index modulo the number of
validators.

The chain is read through `ConsensusClient`: the header of a block, the term a
block belongs to, and the stake records in the state after a block.
-/

namespace CodeChain

namespace Consensus

open Stake

/-- A block header, with the hash the code caches for it. -/
structure Header (Hash Address Seal : Type) where
  hash : Hash
  parentHash : Hash
  number : UInt64
  author : Address
  timestamp : UInt64
  sealFields : Seal

/-- What the engine reads from the chain. -/
structure ConsensusClient (Hash Address Public Seal : Type) where
  blockHeader : Hash → Option (Header Hash Address Seal)
  blockHeaderByNumber : UInt64 → Option (Header Hash Address Seal)
  currentTermId : Hash → Option UInt64
  stateAt : Hash → Option (StakeState Address Public)

/-- The `EngineError` variants of seal and vote checks. -/
inductive EngineError (Address : Type) where
  | badSealFieldSize (min : Option Nat) (max : Option Nat) (found : Nat)
  | validatorNotExist (height : UInt64) (index : Nat)
  | blockNotAuthorized (address : Address)
  | notProposer (expected found : Address)
  | prevBlockNotExist (height : UInt64)
  deriving DecidableEq, Repr

variable {Hash Address Public Seal : Type} [DecidableEq Address] [DecidableEq Public]
variable (publicToAddress : Public → Address)

/-- `RoundRobinValidator`: a fixed list of validator keys. -/
structure RoundRobinValidator (Public : Type) where
  validators : List Public

namespace RoundRobinValidator

/-- `get`: the key at the index modulo the number of validators. -/
def get {ε : Type} (set : RoundRobinValidator Public) (index : Nat) : Except (Fault ε) Public := do
  Fault.ensure (set.validators.length ≠ 0) "Cannot operate with an empty validator set."
  Fault.expect set.validators[index % set.validators.length]?
    "There are validator_n authorities; taking number modulo validator_n gives number in validator_n range; qed"

def count (set : RoundRobinValidator Public) : Nat :=
  set.validators.length

def containsAddress (set : RoundRobinValidator Public) (address : Address) : Bool :=
  set.validators.any fun key => publicToAddress key = address

def getIndexByAddress (set : RoundRobinValidator Public) (address : Address) : Option Nat :=
  set.validators.findIdx? fun key => publicToAddress key = address

/-- `next_block_proposer`: the validator after the parent's proposer, `view`
places further; the parent's proposer must be a validator. -/
def nextBlockProposer {ε : Type} (set : RoundRobinValidator Public)
    (client : ConsensusClient Hash Address Public Seal) (parent : Hash) (view : UInt64) :
    Except (Fault ε) (Option Address) :=
  match client.blockHeader parent with
  | none => .ok none
  | some header => do
      let previous ← Fault.expect (set.getIndexByAddress publicToAddress header.author)
        "The proposer must be in the validator set"
      let proposer ← set.get (previous + 1 + view.toNat)
      pure (some (publicToAddress proposer))

/-- `check_enough_votes`: more than two thirds of the indices are set. -/
def checkEnoughVotes (set : RoundRobinValidator Public) (votes : BitSet) :
    Except (EngineError Address) Unit :=
  let validatorCount := set.count
  let voted := votes.count
  if voted * 3 > validatorCount * 2 then .ok ()
  else .error (.badSealFieldSize (some (validatorCount * 2 / 3)) none voted)

end RoundRobinValidator

/-- `DynamicValidator`: the elected validators, or the initial list. -/
structure DynamicValidator (Public : Type) where
  initialList : RoundRobinValidator Public

namespace DynamicValidator

/-- `DynamicValidator::validators`: the stored validators after `parent`,
highest first, or `none` in the first term or when none is stored. -/
def validators {ε : Type} (client : ConsensusClient Hash Address Public Seal) (parent : Hash) :
    Except (Fault ε) (Option (List (Validator Public))) := do
  let termId ← Fault.expect (client.currentTermId parent)
    "valdators() is called when creating a block or verifying a block."
  if termId = 0 then
    return none
  match client.stateAt parent with
  | none => return none
  | some state =>
      let stored := (Validators.loadFromState state).list
      if stored.isEmpty then return none else return some stored.reverse

/-- `get`: the validator at the index modulo the number of validators. -/
def get {ε : Type} (set : DynamicValidator Public) (client : ConsensusClient Hash Address Public Seal)
    (parent : Hash) (index : Nat) : Except (Fault ε) Public := do
  match ← validators client parent with
  | some elected =>
      let keys := elected.map fun validator => validator.pubkey
      Fault.expect keys[index % keys.length]? "called `Option::unwrap()` on a `None` value"
  | none => set.initialList.get index

def count {ε : Type} (set : DynamicValidator Public) (client : ConsensusClient Hash Address Public Seal)
    (parent : Hash) : Except (Fault ε) Nat := do
  match ← validators client parent with
  | some elected => return elected.length
  | none => return set.initialList.count

def containsAddress {ε : Type} (set : DynamicValidator Public)
    (client : ConsensusClient Hash Address Public Seal) (parent : Hash) (address : Address) :
    Except (Fault ε) Bool := do
  match ← validators client parent with
  | some elected =>
      return elected.any fun validator => publicToAddress validator.pubkey = address
  | none => return set.initialList.containsAddress publicToAddress address

def nextBlockProposer {ε : Type} (set : DynamicValidator Public)
    (client : ConsensusClient Hash Address Public Seal) (parent : Hash) (view : UInt64) :
    Except (Fault ε) (Option Address) := do
  match ← validators client parent with
  | some elected =>
      let keys := elected.map fun validator => validator.pubkey
      let proposer ← Fault.expect keys[view.toNat % keys.length]?
        "called `Option::unwrap()` on a `None` value"
      return some (publicToAddress proposer)
  | none => set.initialList.nextBlockProposer publicToAddress client parent view

/-- One iteration of the loop of `check_enough_votes`: every index must name a
validator (an `assert!`), whose delegation is added. -/
def addVotedDelegation (elected : List (Validator Public)) (sum : UInt64) (index : Nat) :
    Except (Fault (EngineError Address)) UInt64 := do
  Fault.ensure (index < elected.length) "assertion failed: index < n_validators"
  let validator ← match elected[index]? with
    | some validator => pure validator
    | none => Fault.fail (.validatorNotExist 0 index)
  pure (sum + validator.delegation)

/-- `check_enough_votes`: the voted delegation is more than two thirds of the
total. -/
def checkEnoughVotes (set : DynamicValidator Public) (client : ConsensusClient Hash Address Public Seal)
    (parent : Hash) (votes : BitSet) :
    Except (Fault (EngineError Address)) Unit := do
  match ← validators client parent with
  | some elected =>
      let votedDelegation ← votes.trueIndexIter.foldlM (addVotedDelegation elected) 0
      let totalDelegation := (elected.map fun validator => validator.delegation).sum
      if votedDelegation * 3 > totalDelegation * 2 then return ()
      else
        Fault.fail (.badSealFieldSize (some (totalDelegation.toNat * 2 / 3))
          (some totalDelegation.toNat) votedDelegation.toNat)
  | none =>
      match set.initialList.checkEnoughVotes votes with
      | .ok () => return ()
      | .error e => Fault.fail e

omit [DecidableEq Address] [DecidableEq Public] in
/-- Reading the validators never returns an `Err`, so what it returns does not
depend on the error type of the caller. -/
theorem validators_eq_ok_congr {ε ε' : Type} {client : ConsensusClient Hash Address Public Seal}
    {parent : Hash} {stored : Option (List (Validator Public))}
    (read : (validators client parent : Except (Fault ε) _) = .ok stored) :
    (validators client parent : Except (Fault ε') _) = .ok stored := by
  simp only [validators, Fault.bind_eq_ok, Fault.expect_eq_ok] at read ⊢
  obtain ⟨termId, term, rest⟩ := read
  refine ⟨termId, term, ?_⟩
  -- every branch after the term id is a `return`
  revert rest
  split
  · simp
  split
  · simp
  split <;> simp

omit [DecidableEq Address] [DecidableEq Public] in
/-- The key `get` returns does not depend on the error type of the caller:
`Stake::execute` and `Action::verify` read the same validator. -/
theorem get_eq_ok_congr {ε ε' : Type} {set : DynamicValidator Public}
    {client : ConsensusClient Hash Address Public Seal} {parent : Hash} {index : Nat}
    {signer : Public} (got : (set.get client parent index : Except (Fault ε) Public) = .ok signer) :
    (set.get client parent index : Except (Fault ε') Public) = .ok signer := by
  simp only [get, Fault.bind_eq_ok] at got ⊢
  obtain ⟨stored, read, picked⟩ := got
  refine ⟨stored, validators_eq_ok_congr read, ?_⟩
  split at picked
  · simpa using picked
  · simpa [RoundRobinValidator.get] using picked

omit [DecidableEq Address] [DecidableEq Public] in
/-- An index past the elected validators stops the loop of `check_enough_votes`
with a panic, whatever comes before it: every index in range only adds its
delegation, so induction on the indices reaches the one out of range. -/
theorem foldlM_addVotedDelegation_panics {elected : List (Validator Public)} {indices : List Nat}
    {index : Nat} (member : index ∈ indices) (outside : elected.length ≤ index) (start : UInt64) :
    Fault.Panics (indices.foldlM (addVotedDelegation elected) start :
      Except (Fault (EngineError Address)) UInt64) := by
  induction indices generalizing start with
  | nil => cases member
  | cons first rest ih =>
      rw [List.foldlM_cons, Fault.bind_panics]
      by_cases inRange : first < elected.length
      · -- the first index names a validator: the panic comes later
        have later : index ∈ rest := by
          rcases List.mem_cons.mp member with rfl | later
          · omega
          · exact later
        right
        refine ⟨start + elected[first].delegation, ?_, ih later _⟩
        simp [addVotedDelegation, Fault.ensure, inRange]
      · left
        exact ⟨"assertion failed: index < n_validators",
          by simp [addVotedDelegation, Fault.ensure, inRange, bind, Except.bind]⟩

omit [DecidableEq Address] [DecidableEq Public] in
/-- With elected validators, `check_enough_votes` panics on a bitset that sets
an index past their number. -/
theorem checkEnoughVotes_panics {set : DynamicValidator Public}
    {client : ConsensusClient Hash Address Public Seal} {parent : Hash} {votes : BitSet}
    {elected : List (Validator Public)}
    (stored : (validators client parent : Except (Fault (EngineError Address)) _) = .ok (some elected))
    {index : Nat} (member : index ∈ votes.trueIndexIter) (outside : elected.length ≤ index) :
    Fault.Panics (set.checkEnoughVotes client parent votes) := by
  simp only [checkEnoughVotes, stored, Fault.ok_bind]
  rw [Fault.bind_panics]
  exact Or.inl (foldlM_addVotedDelegation_panics member outside 0)

end DynamicValidator

end Consensus

end CodeChain
