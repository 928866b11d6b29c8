import CodeChain.Miner.MemPool
import CodeChain.Lib.AListMap

/-!
# Rebuilding the pool from its backup

`recover_from_db` reads the items of the backup column back and rebuilds the
indexes and the queues from them alone.  Every item of the backup is pooled
again, whatever its sequence number: the filter of `verify_transaction`, which
turns away a transaction below its signer's account, is not applied.  A node
that restarts after the chain has passed a pooled transaction therefore pools
it again, as a current order whose height is a wrapped `u64` difference.

The orders are rebuilt from the origins of the items, while `update_orders`
made the orders of a signer that became local local without touching its
items.  The rebuilt queue then holds external orders where the pool that wrote
the backup held local ones, which `enforce_limit` never drops.
-/

namespace CodeChain

namespace Miner

namespace Pool

namespace MemPool

variable {Hash Public : Type} [DecidableEq Public] {fetchAccount : Public → AccountDetails}

/-! ### The recovered pool holds every item of the backup -/

@[simp]
theorem byHash_setCell (pool : MemPool Hash Public) (signer : Public) (seq : UInt64)
    (tagged : TransactionOrderWithTag Hash) : (pool.setCell signer seq tagged).byHash = pool.byHash :=
  rfl

/-- Queuing new orders touches the table and the queues only. -/
theorem byHash_addNewOrdersToQueue {pool pool' : MemPool Hash Public} {signer : Public}
    {seqList : List UInt64} {newNextSeq : UInt64}
    (queued : pool.addNewOrdersToQueue signer seqList newNextSeq = .ok pool') : pool'.byHash = pool.byHash := by
  simp only [addNewOrdersToQueue, Fault.bind_eq_ok] at queued
  obtain ⟨_, -, loop⟩ := queued
  refine Fault.foldlM_invariant (fun acc : MemPool Hash Public => acc.byHash = pool.byHash) ?_ rfl loop
  rintro acc same seq - next step
  simp only [Fault.bind_eq_ok] at step
  obtain ⟨tagged, -, placed⟩ := step
  -- a `New` order goes to one of the queues; any other tag panics
  split at placed
  · split at placed <;> (cases placed; exact same)
  · cases placed

theorem byHash_recoverSigner {toInsert : AList fun _ : Public => List UInt64}
    {recoverBlockNumber recoverTimestamp : UInt64} {pool pool' : MemPool Hash Public} {signer : Public}
    (recovered : recoverSigner fetchAccount recoverBlockNumber recoverTimestamp toInsert pool signer = .ok pool') :
    pool'.byHash = pool.byHash := by
  simp only [recoverSigner, Fault.bind_eq_ok] at recovered
  obtain ⟨_, -, _, -, queuedPool, queued, settled⟩ := recovered
  have kept : queuedPool.byHash = pool.byHash := by
    split at queued
    · rw [byHash_addNewOrdersToQueue queued]
    · cases queued
      rfl
  cases settled
  exact kept

variable [DecidableEq Hash]

@[simp]
theorem byHash_recoverItem (acc : MemPool Hash Public × UInt64 × (AList fun _ : Public => List UInt64))
    (entry : Sigma fun _ : Hash => MemPoolItem Hash Public) :
    (recoverItem fetchAccount acc entry).1.byHash = acc.1.byHash.insert entry.1 entry.2 := by
  obtain ⟨pool, maxInsertionId, toInsert⟩ := acc
  rfl

/-- The recovered pool holds the items of the backup, and those the pool held
under the other hashes. -/
theorem lookup_byHash_recoverFromDb {pool recovered : MemPool Hash Public}
    {recoverBlockNumber recoverTimestamp : UInt64}
    (recoveredOk : pool.recoverFromDb fetchAccount recoverBlockNumber recoverTimestamp = .ok recovered)
    (hash : Hash) : recovered.byHash.lookup hash = (pool.db.lookup hash).or (pool.byHash.lookup hash) := by
  rcases read : pool.db.entries.foldl (recoverItem fetchAccount) (pool, 0, ∅) with ⟨readPool, maxInsertionId, toInsert⟩
  -- the first loop inserts every item of the backup
  have inserted : pool.db.entries.foldl (fun m entry => m.insert entry.1 entry.2) pool.byHash =
      readPool.byHash := by
    rw [← show (pool.db.entries.foldl (recoverItem fetchAccount) (pool, 0, ∅)).1 = readPool by rw [read]]
    exact @List.foldl_hom _ _ _ (fun acc => acc.1.byHash) (recoverItem fetchAccount)
      (fun m entry => m.insert entry.1 entry.2) pool.db.entries (pool, 0, ∅)
      fun acc entry => (byHash_recoverItem acc entry).symm
  -- the second loop keeps them
  simp only [recoverFromDb, read, Fault.bind_eq_ok] at recoveredOk
  obtain ⟨queuedPool, loop, settled⟩ := recoveredOk
  have kept : queuedPool.byHash = readPool.byHash :=
    Fault.foldlM_invariant (fun acc : MemPool Hash Public => acc.byHash = readPool.byHash)
      (fun _ same _ _ _ step => (byHash_recoverSigner step).trans same) rfl loop
  cases settled
  rw [kept, ← inserted, AListMap.lookup_foldl_insert_entries pool.db.nodupKeys]
  rfl

/-! ### Part (c) of the consistency of the pool -/

/-- Measured from the accounts `accountSeq`, no pooled transaction is below
its signer's account, and the current orders of each signer are those from its
account up to its `next_seqs`, with none missing. -/
structure CurrentRuns (accountSeq : Public → UInt64) (pool : MemPool Hash Public) : Prop where
  aboveAccount : ∀ entry ∈ pool.byHash.entries, accountSeq entry.2.signerPublic ≤ entry.2.seq
  currentExact : ∀ signer seq,
    (∃ tagged, pool.bySignerPublic.get signer seq = some tagged ∧ tagged.tag = .current) ↔
      accountSeq signer ≤ seq ∧ seq < (pool.nextSeqs.lookup signer).getD (accountSeq signer)

theorem recoverFromDb_keeps_stale {pool recovered : MemPool Hash Public} {fetchAccount : Public → AccountDetails}
    {recoverBlockNumber recoverTimestamp : UInt64}
    (recoveredOk : pool.recoverFromDb fetchAccount recoverBlockNumber recoverTimestamp = .ok recovered)
    {hash : Hash} {item : MemPoolItem Hash Public} (stored : pool.db.lookup hash = some item)
    (stale : item.seq < (fetchAccount item.signerPublic).seq) :
    ¬ CurrentRuns (fun signer => (fetchAccount signer).seq) recovered := by
  intro runs
  have pooled : item ∈ recovered.byHash.lookup hash := by
    rw [lookup_byHash_recoverFromDb recoveredOk, stored]
    rfl
  have above := runs.aboveAccount _ (AList.mem_lookup_iff.mp pooled)
  exact absurd above (UInt64.not_le.mpr stale)

/-! ### Two histories -/

/-- A transaction that waits for nothing. -/
def noTimelock : TxTimelock :=
  ⟨none, none⟩

/-- A payment of `5` with fee `100` from signer `1`, of RLP length `50`. -/
def payment (hash seq : ℕ) : SignedTransaction ℕ ℕ :=
  ⟨hash, 1, UInt64.ofNat seq, 100, .pay 5, 50, by decide⟩

/-- Every signer at sequence number `seq`, with a large balance. -/
def accountAt (seq : UInt64) : ℕ → AccountDetails :=
  fun _ => ⟨seq, 1000000⟩

/-- A pool of `8192` transactions and a megabyte, over an empty backup. -/
def emptyPool : MemPool ℕ ℕ :=
  withLimits 8192 1000000 3 ∅

/-- An external payment of sequence number `0` taken at block `1`. -/
def externalHistory : PoolResult (MemPool ℕ ℕ) := do
  let (pool, _) ← emptyPool.add id [⟨payment 10 0, .external, noTimelock⟩] 1 100 (accountAt 0)
  pure pool

/-- Once the chain has taken a transaction of signer `1`, the pool rebuilt from
the backup of `externalHistory` pools the payment of sequence number `0`
again. -/
theorem recoverFromDb_keeps_stale_payment :
    ∃ original recovered, externalHistory = .ok original ∧
      (withLimits 8192 1000000 3 original.db).recoverFromDb (accountAt 1) 2 200 = .ok recovered ∧
      ¬ CurrentRuns (fun signer => (accountAt 1 signer).seq) recovered := by
  have ran : (externalHistory.toOption.bind fun original =>
      ((withLimits 8192 1000000 3 original.db).recoverFromDb (accountAt 1) 2 200).toOption.map fun _ =>
        (original.db.lookup 10).map fun item => decide (item.seq < (accountAt 1 item.signerPublic).seq)) =
      some (some true) := by
    decide +kernel
  cases added : externalHistory with
  | error e =>
      rw [added] at ran
      cases ran
  | ok original =>
      cases recovered : (withLimits 8192 1000000 3 original.db).recoverFromDb (accountAt 1) 2 200 with
      | error e =>
          rw [added] at ran
          simp only [Except.toOption, Option.bind_some, recovered] at ran
          cases ran
      | ok pool =>
          rw [added] at ran
          simp only [Except.toOption, Option.bind_some, recovered, Option.map_some, Option.some.injEq] at ran
          obtain ⟨item, stored, stale⟩ := Option.map_eq_some_iff.mp ran
          exact ⟨original, pool, rfl, recovered,
            recoverFromDb_keeps_stale recovered stored (of_decide_eq_true stale)⟩

/-- The payment of `externalHistory`, then a local payment of the same signer:
the signer becomes local, and so does its first order. -/
def localHistory : PoolResult (MemPool ℕ ℕ) := do
  let pool ← externalHistory
  let (pool, _) ← pool.add id [⟨payment 11 1, .local, noTimelock⟩] 2 200 (accountAt 0)
  pure pool

theorem recoverFromDb_forgets_local_order :
    ∃ original recovered, localHistory = .ok original ∧
      (withLimits 8192 1000000 3 original.db).recoverFromDb (accountAt 0) 2 200 = .ok recovered ∧
      original.current.queue.map (·.origin) = [.local, .local] ∧
      recovered.current.queue.map (·.origin) = [.local, .external] := by
  have ran : (localHistory.toOption.bind fun original =>
      ((withLimits 8192 1000000 3 original.db).recoverFromDb (accountAt 0) 2 200).toOption.map fun recovered =>
        (original.current.queue.map (·.origin), recovered.current.queue.map (·.origin))) =
      some ([.local, .local], [.local, .external]) := by
    decide +kernel
  cases added : localHistory with
  | error e =>
      rw [added] at ran
      cases ran
  | ok original =>
      cases recovered : (withLimits 8192 1000000 3 original.db).recoverFromDb (accountAt 0) 2 200 with
      | error e =>
          rw [added] at ran
          simp only [Except.toOption, Option.bind_some, recovered] at ran
          cases ran
      | ok pool =>
          rw [added] at ran
          simp only [Except.toOption, Option.bind_some, recovered, Option.map_some, Option.some.injEq,
            Prod.mk.injEq] at ran
          exact ⟨original, pool, rfl, recovered, ran⟩

end MemPool

end Pool

end Miner

end CodeChain
