import CodeChain.Lib.Fault
import CodeChain.Lib.FinsetSort

/-!
# Consensus messages and vote bitsets

The vocabulary of the Tendermint engine: the steps of a view, the
`(height, view, step)` triple a vote is cast at, the vote itself
(`ConsensusMessage`: what is voted on, a Schnorr signature and the index of the
signer in the validator set) and the 800-bit `BitSet` that records which
validators voted (`consensus/bit_set.rs`, `tendermint/message.rs`,
`tendermint/types.rs`).

Signatures are opaque.  A message is valid for a public key when
`verifySchnorr` accepts its signature over the vote it carries; the hash of the
RLP encoding of the vote that the code signs is folded into that function.
-/

namespace CodeChain

namespace Consensus

/-- `Step`: the phases of one view. -/
inductive Step where
  | propose
  | prevote
  | precommit
  | commit
  deriving DecidableEq, Repr

/-- `Step::number`, the order of steps within a view. -/
def Step.number : Step → Nat
  | .propose => 0
  | .prevote => 1
  | .precommit => 2
  | .commit => 3

/-- `Step::is_pre`: only prevotes and precommits are gossiped. -/
def Step.isPre : Step → Bool
  | .prevote | .precommit => true
  | _ => false

/-- `VoteStep`: where a vote is cast. -/
structure VoteStep where
  height : UInt64
  view : UInt64
  step : Step
  deriving DecidableEq, Repr

/-- The `Ord` of `VoteStep`: by height, then view, then step number. -/
def VoteStep.lt (first second : VoteStep) : Prop :=
  first.height < second.height ∨
    (first.height = second.height ∧ (first.view < second.view ∨
      (first.view = second.view ∧ first.step.number < second.step.number)))

instance : LT VoteStep := ⟨VoteStep.lt⟩

instance (first second : VoteStep) : Decidable (first < second) :=
  inferInstanceAs (Decidable (first.height < second.height ∨
    (first.height = second.height ∧ (first.view < second.view ∨
      (first.view = second.view ∧ first.step.number < second.step.number)))))

/-- `VoteOn`: what a vote is about; `none` is a vote for no block. -/
structure VoteOn (Hash : Type) where
  step : VoteStep
  blockHash : Option Hash
  deriving DecidableEq, Repr

/-- `ConsensusMessage`: a signed vote and the index of its signer. -/
structure ConsensusMessage (Hash Signature : Type) where
  on : VoteOn Hash
  signature : Signature
  signerIndex : Nat
  deriving DecidableEq, Repr

namespace ConsensusMessage

variable {Hash Signature Public : Type}

/-- `Message::round`. -/
def round (message : ConsensusMessage Hash Signature) : VoteStep :=
  message.on.step

/-- `Message::height`. -/
def height (message : ConsensusMessage Hash Signature) : UInt64 :=
  message.on.step.height

/-- `Message::block_hash`. -/
def blockHash (message : ConsensusMessage Hash Signature) : Option Hash :=
  message.on.blockHash

/-- `Message::verify`: the signature is a valid Schnorr signature of the
signer over the vote.  A key error and a failed check both count as invalid. -/
def verify (verifySchnorr : Public → Signature → VoteOn Hash → Bool)
    (message : ConsensusMessage Hash Signature) (signerPublic : Public) : Bool :=
  verifySchnorr signerPublic message.signature message.on

end ConsensusMessage

/-- `MAX_VALIDATOR_SIZE`: a bitset has room for 800 validators. -/
def maxValidatorSize : Nat := 800

instance : NeZero maxValidatorSize :=
  ⟨by decide⟩

/-- `BitSet`: a set of validator indices below `MAX_VALIDATOR_SIZE`. -/
structure BitSet where
  indices : Finset (Fin maxValidatorSize)
  deriving DecidableEq

namespace BitSet

/-- `BitSet::new`. -/
def new : BitSet := { indices := ∅ }

/-- `BitSet::is_set`; an index past the array is an out-of-bounds panic. -/
def isSet {ε : Type} (bitset : BitSet) (index : Nat) : Except (Fault ε) Bool :=
  if bound : index < maxValidatorSize then .ok (decide (⟨index, bound⟩ ∈ bitset.indices))
  else .error (.panic "index out of bounds")

/-- `BitSet::set`; an index past the array is an out-of-bounds panic. -/
def set {ε : Type} (bitset : BitSet) (index : Nat) : Except (Fault ε) BitSet :=
  if bound : index < maxValidatorSize then .ok { indices := insert ⟨index, bound⟩ bitset.indices }
  else .error (.panic "index out of bounds")

/-- `BitSet::count`. -/
def count (bitset : BitSet) : Nat :=
  bitset.indices.card

/-- `BitSet::true_index_iter`: the set indices in increasing order. -/
def trueIndexIter (bitset : BitSet) : List Nat :=
  (FinsetSort.ascending bitset.indices).map Fin.val

@[simp]
theorem length_trueIndexIter (bitset : BitSet) : bitset.trueIndexIter.length = bitset.count := by
  simp [trueIndexIter, FinsetSort.ascending_eq_sort, count]

theorem mem_trueIndexIter {bitset : BitSet} {index : Nat} :
    index ∈ bitset.trueIndexIter ↔ ∃ bound : index < maxValidatorSize,
      (⟨index, bound⟩ : Fin maxValidatorSize) ∈ bitset.indices := by
  constructor
  · intro member
    obtain ⟨position, sorted, rfl⟩ := List.mem_map.mp member
    exact ⟨position.isLt, by simpa [FinsetSort.ascending_eq_sort] using sorted⟩
  · rintro ⟨bound, member⟩
    exact List.mem_map.mpr ⟨⟨index, bound⟩, by simpa [FinsetSort.ascending_eq_sort] using member, rfl⟩

theorem nodup_trueIndexIter (bitset : BitSet) : bitset.trueIndexIter.Nodup := by
  rw [trueIndexIter, FinsetSort.ascending_eq_sort]
  exact (Finset.sort_nodup _ _).map Fin.val_injective

theorem trueIndexIter_singleton (index : Fin maxValidatorSize) :
    (⟨{index}⟩ : BitSet).trueIndexIter = [index.val] := by
  simp [trueIndexIter, FinsetSort.ascending_eq_sort]

/-- An index below every set index comes first. -/
theorem trueIndexIter_insert {indices : Finset (Fin maxValidatorSize)} {index : Fin maxValidatorSize}
    (below : ∀ other ∈ indices, index ≤ other) (fresh : index ∉ indices) :
    (⟨insert index indices⟩ : BitSet).trueIndexIter = index.val :: (⟨indices⟩ : BitSet).trueIndexIter := by
  simp only [trueIndexIter, FinsetSort.ascending_eq_sort]
  rw [Finset.sort_insert _ below fresh, List.map_cons]

end BitSet

end Consensus

end CodeChain
