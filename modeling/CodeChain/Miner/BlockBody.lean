import Mathlib

/-!
# The size of a block body

`Miner::prepare_block` (`miner/miner.rs`) fills a block with the transactions
that `MemPool::top_transactions` (`miner/mem_pool.rs`) returns for the size
limit `max_body_size`: the transactions in queue order, while the running sum
of the sizes of their RLP encodings stays below the limit.  The importer
(`verify_block_with_params`, `verification/verification.rs`) measures instead
the RLP encoding of the whole body, a list: the transactions and the list
header in front of them (`RlpStream::insert_list_payload`, `util/rlp`).

The header is one byte for a payload of at most 55 bytes and one byte more per
byte of the payload's length after that, so a body that the producer filled to
within a few bytes of the limit is too big for every importer, its producer
included.

The encoding of one transaction is not modelled: its size is a parameter.
-/

namespace CodeChain

namespace Rlp

/-- `BasicEncoder::insert_size`: the number of bytes of a length, taken as a
`u32`, without its leading zero bytes. -/
def sizeBytes (size : Nat) : Nat :=
  let size := size % 2 ^ 32
  if size < 2 ^ 8 then 1
  else if size < 2 ^ 16 then 2
  else if size < 2 ^ 24 then 3
  else 4

/-- `BasicEncoder::insert_list_payload`: the length of the header of a list
with `len` bytes of payload. -/
def listHeaderLength (len : Nat) : Nat :=
  if len ≤ 55 then 1 else 1 + sizeBytes len

/-- The length of the RLP encoding of a list with `len` bytes of payload. -/
def listLength (len : Nat) : Nat :=
  listHeaderLength len + len

theorem one_le_listHeaderLength (len : Nat) : 1 ≤ listHeaderLength len := by
  unfold listHeaderLength
  split <;> omega

/-- A payload past 55 bytes needs at least two bytes of header. -/
theorem two_le_listHeaderLength {len : Nat} (long : 55 < len) : 2 ≤ listHeaderLength len := by
  have one : 1 ≤ sizeBytes len := by
    unfold sizeBytes
    dsimp only
    split_ifs <;> omega
  unfold listHeaderLength
  rw [if_neg (by omega)]
  omega

end Rlp

namespace Miner

variable {Tx Public : Type}

/-- `MemPoolItem`, with what `top_transactions` reads of it. -/
structure MemPoolItem (Tx : Type) where
  tx : Tx
  insertedTimestamp : UInt64

section Selection

variable (encodedSize : Tx → Nat) (expiration : Tx → Option UInt64)

/-- The `take_while` of `top_transactions`: add the size of each transaction
to the running size, and stop at the first that brings it to the limit. -/
def takeWithinSize (sizeLimit : Nat) : Nat → List (MemPoolItem Tx) → List (MemPoolItem Tx)
  | _, [] => []
  | currentSize, item :: rest =>
      let currentSize := currentSize + encodedSize item.tx
      if currentSize < sizeLimit then item :: takeWithinSize sizeLimit currentSize rest else []

/-- `MemPool::top_transactions`: the queue without the transactions that
expired before the block's timestamp or were inserted outside `range`, cut by
the size limit. -/
def topTransactions (queue : List (MemPoolItem Tx)) (sizeLimit : Nat)
    (currentTimestamp : Option UInt64) (range : UInt64 × UInt64) : List Tx :=
  let live := queue.filter fun item =>
    match expiration item.tx, currentTimestamp with
    | some expiration, some timestamp => decide (expiration ≥ timestamp)
    | _, _ => true
  let inRange := live.filter fun item =>
    decide (range.1 ≤ item.insertedTimestamp ∧ item.insertedTimestamp < range.2)
  (takeWithinSize encodedSize sizeLimit 0 inRange).map fun item => item.tx

/-- The sizes of what the size cut keeps, added to the running size, stay
below the limit. -/
theorem takeWithinSize_sum_lt (sizeLimit : Nat) :
    ∀ (currentSize : Nat) (items : List (MemPoolItem Tx)),
      (takeWithinSize encodedSize sizeLimit currentSize items).length = 0 ∨
        currentSize + ((takeWithinSize encodedSize sizeLimit currentSize items).map
          fun item => encodedSize item.tx).sum < sizeLimit
  | _, [] => Or.inl rfl
  | currentSize, item :: rest => by
      simp only [takeWithinSize]
      split
      · rename_i fits
        right
        rcases takeWithinSize_sum_lt sizeLimit (currentSize + encodedSize item.tx) rest with
          empty | below
        · rw [List.length_eq_zero_iff.mp empty]
          simpa using fits
        · simp only [List.map_cons, List.sum_cons]
          omega
      · exact Or.inl rfl

/-- `top_transactions` returns transactions whose encodings add up to less than
the size limit. -/
theorem topTransactions_sum_lt (queue : List (MemPoolItem Tx)) (sizeLimit : Nat)
    (currentTimestamp : Option UInt64) (range : UInt64 × UInt64) :
    ((topTransactions encodedSize expiration queue sizeLimit currentTimestamp range).map
      encodedSize).sum < sizeLimit ∨
      topTransactions encodedSize expiration queue sizeLimit currentTimestamp range = [] := by
  simp only [topTransactions, List.map_map]
  rcases takeWithinSize_sum_lt encodedSize sizeLimit 0 _ with empty | below
  · right
    simpa using empty
  · left
    simpa [Function.comp_def] using below

end Selection

/-- What pushing one transaction into the open block gave. -/
inductive PushResult where
  | ok
  | alreadyImported
  | failed
  deriving DecidableEq, Repr

/-- The loop of `prepare_block` over the selected transactions.  A signer whose
transaction was refused is skipped from then on.  `tryPush` stands for
`verify_transaction` and `push_transaction` on the block built so far. -/
def pushTransactions [DecidableEq Public] (signerPublic : Tx → Public) (isAllowed : Tx → Bool)
    (tryPush : List Tx → Tx → PushResult) : List Tx → List Public → List Tx → List Tx
  | [], _, pushed => pushed
  | tx :: rest, invalidUsers, pushed =>
      if signerPublic tx ∈ invalidUsers then
        pushTransactions signerPublic isAllowed tryPush rest invalidUsers pushed
      else if !isAllowed tx then
        pushTransactions signerPublic isAllowed tryPush rest (signerPublic tx :: invalidUsers)
          pushed
      else
        match tryPush pushed tx with
        | .ok =>
            pushTransactions signerPublic isAllowed tryPush rest invalidUsers (pushed ++ [tx])
        | .alreadyImported =>
            pushTransactions signerPublic isAllowed tryPush rest invalidUsers pushed
        | .failed =>
            pushTransactions signerPublic isAllowed tryPush rest (signerPublic tx :: invalidUsers)
              pushed

/-- The body of the block is what was pushed, in order: a sublist of the
selected transactions after what was there before. -/
theorem pushTransactions_sublist [DecidableEq Public] (signerPublic : Tx → Public)
    (isAllowed : Tx → Bool) (tryPush : List Tx → Tx → PushResult) :
    ∀ (transactions : List Tx) (invalidUsers : List Public) (pushed : List Tx),
      ∃ added, added.Sublist transactions ∧
        pushTransactions signerPublic isAllowed tryPush transactions invalidUsers pushed =
          pushed ++ added
  | [], _, pushed => ⟨[], List.Sublist.slnil, by simp [pushTransactions]⟩
  | tx :: rest, invalidUsers, pushed => by
      unfold pushTransactions
      -- a skipped transaction adds nothing; a pushed one is kept in front of the rest
      have skip : ∀ users, (∃ added, added.Sublist (tx :: rest) ∧
          pushTransactions signerPublic isAllowed tryPush rest users pushed = pushed ++ added) := by
        intro users
        obtain ⟨added, sub, eq⟩ :=
          pushTransactions_sublist signerPublic isAllowed tryPush rest users pushed
        exact ⟨added, sub.cons tx, eq⟩
      split
      · exact skip invalidUsers
      split
      · exact skip _
      split
      · obtain ⟨added, sub, eq⟩ :=
          pushTransactions_sublist signerPublic isAllowed tryPush rest invalidUsers (pushed ++ [tx])
        exact ⟨tx :: added, sub.cons_cons tx, by simp [eq]⟩
      · exact skip invalidUsers
      · exact skip _

section Producer

variable [DecidableEq Public] (encodedSize : Tx → Nat) (expiration : Tx → Option UInt64)
variable (signerPublic : Tx → Public) (isAllowed : Tx → Bool) (tryPush : List Tx → Tx → PushResult)

/-- The body that `prepare_block` builds at `timestamp`: the pending
transactions that `top_transactions` selects for the limit `max_body_size`
over `DEFAULT_RANGE`, as far as they could be pushed. -/
def prepareBlockBody (queue : List (MemPoolItem Tx)) (maxBodySize : Nat) (timestamp : UInt64) :
    List Tx :=
  let transactions := topTransactions encodedSize expiration queue maxBodySize (some timestamp)
    (0, 18446744073709551615)
  pushTransactions signerPublic isAllowed tryPush transactions [] []

/-- The transactions of a prepared body add up to less than `max_body_size`:
the producer counts the transactions, not the list around them. -/
theorem prepareBlockBody_sum_lt (queue : List (MemPoolItem Tx)) (maxBodySize : Nat)
    (timestamp : UInt64) :
    ((prepareBlockBody encodedSize expiration signerPublic isAllowed tryPush queue maxBodySize
      timestamp).map encodedSize).sum < maxBodySize ∨
      prepareBlockBody encodedSize expiration signerPublic isAllowed tryPush queue maxBodySize
        timestamp = [] := by
  obtain ⟨added, sub, pushed⟩ := pushTransactions_sublist signerPublic isAllowed tryPush
    (topTransactions encodedSize expiration queue maxBodySize (some timestamp)
      (0, 18446744073709551615)) [] []
  simp only [prepareBlockBody, pushed, List.nil_append]
  rcases topTransactions_sum_lt encodedSize expiration queue maxBodySize (some timestamp)
    (0, 18446744073709551615) with below | empty
  · left
    exact lt_of_le_of_lt ((sub.map encodedSize).sum_le_sum fun _ _ => Nat.zero_le _) below
  · right
    rw [empty] at sub
    exact List.sublist_nil.mp sub

end Producer

/-- The errors of `verify_block_with_params` on the body. -/
inductive BlockError where
  | bodySizeIsTooBig
  deriving DecidableEq, Repr

/-- The body check of `verify_block_with_params`: the RLP of the whole body,
list header included, must fit in `max_body_size`. -/
def verifyBodySize (encodedSize : Tx → Nat) (maxBodySize : Nat) (body : List Tx) :
    Except BlockError Unit :=
  if Rlp.listLength (body.map encodedSize).sum > maxBodySize then .error .bodySizeIsTooBig
  else .ok ()

theorem verifyBodySize_eq_ok {encodedSize : Tx → Nat} {maxBodySize : Nat} {body : List Tx} :
    verifyBodySize encodedSize maxBodySize body = .ok () ↔
      Rlp.listHeaderLength (body.map encodedSize).sum + (body.map encodedSize).sum ≤ maxBodySize := by
  unfold verifyBodySize Rlp.listLength
  split <;> simp_all

/-- A block whose transactions take between 56 and `max_body_size - 1` bytes
passes the producer's cut and fails the importer's check: the list header is
at least two bytes. -/
theorem verifyBodySize_rejects_near_limit {encodedSize : Tx → Nat} {maxBodySize : Nat}
    {body : List Tx} (long : 55 < (body.map encodedSize).sum)
    (nearLimit : maxBodySize - 1 ≤ (body.map encodedSize).sum) :
    verifyBodySize encodedSize maxBodySize body = .error .bodySizeIsTooBig := by
  have header := Rlp.two_le_listHeaderLength long
  unfold verifyBodySize Rlp.listLength
  rw [if_pos (by omega)]

/-- With `max_body_size` 100 and one pending transaction of 99 bytes, the
producer puts the transaction in its block, and the importer rejects the block:
its body is 101 bytes. -/
theorem prepareBlockBody_rejected_by_verifier :
    prepareBlockBody (fun _ : Unit => 99) (fun _ => none) (fun _ => ()) (fun _ => true)
        (fun _ _ => .ok) [⟨(), 0⟩] 100 1 = [()] ∧
      verifyBodySize (fun _ : Unit => 99) 100
        (prepareBlockBody (fun _ : Unit => 99) (fun _ => none) (fun _ => ()) (fun _ => true)
          (fun _ _ => .ok) [⟨(), 0⟩] 100 1) = .error .bodySizeIsTooBig := by
  have prepared : prepareBlockBody (fun _ : Unit => 99) (fun _ => none) (fun _ => ()) (fun _ => true)
      (fun _ _ => .ok) [⟨(), 0⟩] 100 1 = [()] := by
    decide
  refine ⟨prepared, ?_⟩
  rw [prepared]
  exact verifyBodySize_rejects_near_limit (by decide) (by decide)

end Miner

end CodeChain
