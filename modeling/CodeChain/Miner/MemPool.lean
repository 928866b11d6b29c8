import CodeChain.Miner.MemPoolTypes

/-!
# The transaction pool

`MemPool` (`miner/mem_pool.rs`) keeps the transactions the node has heard of,
indexed by hash, by signer and sequence number, and in two queues: `current`,
the transactions whose predecessors are all in the pool or in the chain and
whose timelocks have passed, and `future`, the others.  `first_seqs` holds the
account sequence number the orders of a signer were last measured from, and
`next_seqs` the first sequence number of the signer that is not current.
Every change is also written to a key-value backup, from which
`recover_from_db` rebuilds the pool.

The loops over the keys of a `HashMap` visit the entries of the finite map in
their order.  `move_queue` steps through a range of sequence numbers and acts
on those that have an order; the model visits the sequence numbers of the row
that lie in the range.  The loop of `check_transactions` moves past one order
at each step, so the number of orders of the row is fuel enough for it.
-/

namespace CodeChain

namespace Miner

namespace Pool

variable {Hash Public Address : Type} [DecidableEq Hash] [DecidableEq Public]

/-- The errors `add` reports for a transaction it does not take. -/
inductive Error (Address : Type) where
  | insufficientFee (minimal got : UInt64)
  | insufficientBalance (address : Address) (cost balance : UInt64)
  | transactionAlreadyImported
  | old
  | tooCheapToReplace
  | limitReached
  deriving DecidableEq, Repr

/-- `TransactionImportResult`: the queue a taken transaction went to. -/
inductive TransactionImportResult where
  | current
  | future
  deriving DecidableEq, Repr

/-- One write of a `DBTransaction` to the backup column. -/
inductive BackupOp (Hash Public : Type) where
  | put (hash : Hash) (item : MemPoolItem Hash Public)
  | delete (hash : Hash)

/-- `KeyValueDB::write`: the operations of a batch, in order. -/
def writeBatch (db : AList fun _ : Hash => MemPoolItem Hash Public) (batch : List (BackupOp Hash Public)) :
    AList fun _ : Hash => MemPoolItem Hash Public :=
  batch.foldl (fun db op =>
    match op with
    | .put hash item => db.insert hash item
    | .delete hash => db.erase hash) db

/-- `DEFAULT_POOLING_PERIOD`. -/
def defaultPoolingPeriod : UInt64 := 128

/-- `MemPool`, with the items of its backup column as `db`. -/
structure MemPool (Hash Public : Type) where
  minimalFee : UInt64
  feeBumpShift : ℕ
  maxBlockNumberPeriodInPool : UInt64
  current : CurrentQueue Hash
  future : FutureQueue Hash
  bySignerPublic : Table Public UInt64 (TransactionOrderWithTag Hash)
  queueCountLimit : ℕ
  queueMemoryLimit : ℕ
  byHash : AList fun _ : Hash => MemPoolItem Hash Public
  firstSeqs : AList fun _ : Public => UInt64
  nextSeqs : AList fun _ : Public => UInt64
  isLocalAccount : Finset Public
  lastBlockNumber : UInt64
  lastTimestamp : UInt64
  nextTransactionId : UInt64
  db : AList fun _ : Hash => MemPoolItem Hash Public

/-- The pool computations: a state of the pool, or a panic. -/
abbrev PoolResult (α : Type) := Except (Fault Empty) α

namespace MemPool

/-- `MemPool::with_limits`: an empty pool over a backup. -/
def withLimits (limit memoryLimit feeBumpShift : ℕ) (db : AList fun _ : Hash => MemPoolItem Hash Public) :
    MemPool Hash Public where
  minimalFee := 0
  feeBumpShift := feeBumpShift
  maxBlockNumberPeriodInPool := defaultPoolingPeriod
  current := .new
  future := .new
  bySignerPublic := ∅
  queueCountLimit := limit
  queueMemoryLimit := memoryLimit
  byHash := ∅
  firstSeqs := ∅
  nextSeqs := ∅
  isLocalAccount := ∅
  lastBlockNumber := 0
  lastTimestamp := 0
  nextTransactionId := 0
  db := db

/-- `should_wait_timelock`: the timelock names a later block or a later time. -/
def shouldWaitTimelock (timelock : TxTimelock) (bestBlockNumber bestBlockTimestamp : UInt64) : Bool :=
  (match timelock.block with
    | some blockNumber => decide (blockNumber > bestBlockNumber)
    | none => false) ||
  (match timelock.timestamp with
    | some timestamp => decide (timestamp > bestBlockTimestamp)
    | none => false)

/-- The row of a signer, which the helpers expect to be there. -/
def row (pool : MemPool Hash Public) (signer : Public) :
    PoolResult (AList fun _ : UInt64 => TransactionOrderWithTag Hash) :=
  Fault.expect (pool.bySignerPublic.lookup signer)
    "This function should be called after checking from self.by_signer_public.keys()"

/-- The pool with one cell of the table set. -/
def setCell (pool : MemPool Hash Public) (signer : Public) (seq : UInt64)
    (tagged : TransactionOrderWithTag Hash) : MemPool Hash Public :=
  { pool with bySignerPublic := (pool.bySignerPublic.insert signer seq tagged).2 }

/-- The loop of `check_transactions`: step over the sequence numbers whose
orders need not wait for their timelock. -/
def checkFrom (cells : AList fun _ : UInt64 => TransactionOrderWithTag Hash)
    (currentBlockNumber currentTimestamp : UInt64) : ℕ → UInt64 → UInt64
  | 0, startSeq => startSeq
  | fuel + 1, startSeq =>
      match cells.lookup startSeq with
      | some tagged =>
          if shouldWaitTimelock tagged.order.timelock currentBlockNumber currentTimestamp then startSeq
          else checkFrom cells currentBlockNumber currentTimestamp fuel (startSeq + 1)
      | none => startSeq

/-- `check_transactions`: the sequence number after the run of orders from
`start_seq` that can be current. -/
def checkTransactions (pool : MemPool Hash Public) (signer : Public) (startSeq : UInt64)
    (currentBlockNumber currentTimestamp : UInt64) : PoolResult UInt64 := do
  let cells ← pool.row signer
  pure (checkFrom cells currentBlockNumber currentTimestamp cells.entries.length startSeq)

/-- `check_new_transactions`: the smallest of the given sequence numbers below
`next_seq` whose order waits for its timelock. -/
def checkNewTransactions (pool : MemPool Hash Public) (signer : Public) (seqs : List UInt64)
    (nextSeq currentBlockNumber currentTimestamp : UInt64) : PoolResult (Option UInt64) := do
  let cells ← pool.row signer
  seqs.foldlM (fun result seq => do
    if seq ≥ nextSeq then
      pure result
    else
      let tagged ← Fault.expect (cells.lookup seq) "Must exist"
      let smaller := match result with
        | none => true
        | some found => decide (found > seq)
      if shouldWaitTimelock tagged.order.timelock currentBlockNumber currentTimestamp && smaller then
        pure (some seq)
      else
        pure result) none

/-- `move_queue`: move the orders of the signer with a sequence number in
`[start_seq, end_seq)` to the queue `target` (`to` in the source). -/
def moveQueue (pool : MemPool Hash Public) (signer : Public) (startSeq endSeq : UInt64)
    (target : QueueTag) : PoolResult (MemPool Hash Public) := do
  let cells ← pool.row signer
  let seqs := (cells.keys.filter fun seq => decide (startSeq ≤ seq ∧ seq < endSeq)).insertionSort (· ≤ ·)
  seqs.foldlM (fun pool seq => do
    match pool.bySignerPublic.get signer seq with
    | some tagged =>
        match tagged.tag, target with
        | .current, .future => do
            let current ← pool.current.remove tagged.order
            pure { pool.setCell signer seq ⟨tagged.order, .future⟩ with
              current := current, future := pool.future.insert tagged.order }
        | .future, .current => do
            let future ← pool.future.remove tagged.order
            pure { pool.setCell signer seq ⟨tagged.order, .current⟩ with
              future := future, current := pool.current.insert tagged.order }
        | _, _ => pure pool
    | none => pure pool) pool

/-- `add_new_orders_to_queue`: queue the new orders of the signer, as current
below `new_next_seq` and as future from it. -/
def addNewOrdersToQueue (pool : MemPool Hash Public) (signer : Public) (seqList : List UInt64)
    (newNextSeq : UInt64) : PoolResult (MemPool Hash Public) := do
  let _ ← pool.row signer
  seqList.foldlM (fun pool seq => do
    let tagged ← Fault.expect (pool.bySignerPublic.get signer seq) "Must exist"
    match tagged.tag with
    | .new =>
        if seq < newNextSeq then
          pure { pool.setCell signer seq ⟨tagged.order, .current⟩ with
            current := pool.current.insert tagged.order }
        else
          pure { pool.setCell signer seq ⟨tagged.order, .future⟩ with
            future := pool.future.insert tagged.order }
    | _ => .error (.panic "internal error: entered unreachable code")) pool

/-- `update_orders`: measure the queued orders of the signer from
`current_seq`, dropping those below it, making them local when asked, and
queue them as current below `new_next_seq`. -/
def updateOrders (pool : MemPool Hash Public) (signer : Public) (currentSeq newNextSeq : UInt64)
    (toLocal : Bool) (batch : List (BackupOp Hash Public)) :
    PoolResult (MemPool Hash Public × List (BackupOp Hash Public)) := do
  let cells ← pool.row signer
  cells.keys.foldlM (fun (acc : MemPool Hash Public × List (BackupOp Hash Public)) seq => do
    let (pool, batch) := acc
    let tagged ← Fault.expect (pool.bySignerPublic.get signer seq) "Must exist"
    let oldOrder := tagged.order
    let pool ← match tagged.tag with
      | .current => do pure { pool with current := ← pool.current.remove oldOrder }
      | .future => do pure { pool with future := ← pool.future.remove oldOrder }
      | .new => pure pool
    if tagged.tag = .new then
      pure (pool, batch)
    else
      -- the cell goes; the row stays even when it is left empty
      let remaining := ((pool.bySignerPublic.lookup signer).getD ∅).erase seq
      let pool := { pool with bySignerPublic := AList.insert signer remaining pool.bySignerPublic }
      if seq < currentSeq then
        pure ({ pool with byHash := pool.byHash.erase oldOrder.hash }, batch ++ [.delete oldOrder.hash])
      else
        let newOrder := oldOrder.updateHeight seq currentSeq
        let newOrder := if toLocal then newOrder.changeOrigin .local else newOrder
        if seq < newNextSeq then
          pure ({ pool.setCell signer seq ⟨newOrder, .current⟩ with
            current := pool.current.insert newOrder }, batch)
        else
          pure ({ pool.setCell signer seq ⟨newOrder, .future⟩ with
            future := pool.future.insert newOrder }, batch)) (pool, batch)

/-- `effective_minimum_fee`: a full current queue asks for more than its
lowest fee. -/
def effectiveMinimumFee (pool : MemPool Hash Public) : UInt64 :=
  if pool.current.len ≥ pool.queueCountLimit then pool.current.minimumFee else 0

/-- `verify_transaction`: the fee, the balance, the hash, the sequence number
and, for a transaction that is not local, the fee bump over the one it
replaces. -/
def verifyTransaction (publicToAddress : Public → Address) (pool : MemPool Hash Public)
    (tx : SignedTransaction Hash Public) (origin : TxOrigin) (clientAccount : AccountDetails) :
    Except (Error Address) Unit := do
  if origin ≠ .local ∧ tx.fee < pool.minimalFee then
    throw (.insufficientFee pool.minimalFee tx.fee)
  let fullPoolsLowest := pool.effectiveMinimumFee
  if origin ≠ .local ∧ tx.fee < fullPoolsLowest then
    throw (.insufficientFee fullPoolsLowest tx.fee)
  if clientAccount.balance < tx.fee then
    throw (.insufficientBalance (publicToAddress tx.signerPublic) tx.fee clientAccount.balance)
  if (pool.byHash.lookup tx.hash).isSome then
    throw .transactionAlreadyImported
  if tx.seq < clientAccount.seq then
    throw .old
  if origin ≠ .local then
    if let some tagged := pool.bySignerPublic.get tx.signerPublic tx.seq then
      let oldFee := tagged.order.fee
      let minRequiredFee := oldFee + (oldFee >>> UInt64.ofNat pool.feeBumpShift)
      if tx.fee < minRequiredFee then
        throw .tooCheapToReplace

/-- `get_orders_to_drop`: walking the queue from its first order, the
external orders met after the count or the memory passed its limit. -/
def getOrdersToDrop (set : List (TransactionOrder Hash)) (limit memoryLimit : ℕ) :
    List (TransactionOrder Hash) :=
  (set.foldl (fun (acc : ℕ × ℕ × List (TransactionOrder Hash)) order =>
    let count := acc.1 + 1
    let memUsage := acc.2.1 + order.memUsage
    let dropped := !order.origin.isLocalOrRetracted && (memUsage > memoryLimit || count > limit)
    (count, memUsage, if dropped then acc.2.2 ++ [order] else acc.2.2)) (0, 0, [])).2.2

/-- One order that `enforce_limit` drops, from the current queue or the
future one. -/
def dropOrder (acc : MemPool Hash Public × List (BackupOp Hash Public))
    (dropped : TransactionOrder Hash × Bool) : PoolResult (MemPool Hash Public × List (BackupOp Hash Public)) := do
  let (pool, batch) := acc
  let (order, isCurrent) := dropped
  let item ← Fault.expect (pool.byHash.lookup order.hash) "by_hash and current/future should be synced"
  let (removed, table) := pool.bySignerPublic.remove item.signerPublic item.seq
  let _ ← Fault.expect removed "by_hash and by_signer_public should be synced"
  let (cleared, table) := table.clearIfEmpty item.signerPublic
  let pool := { pool with
    byHash := pool.byHash.erase order.hash
    bySignerPublic := table
    isLocalAccount := if cleared then pool.isLocalAccount.erase item.signerPublic else pool.isLocalAccount }
  let pool ← if isCurrent then do pure { pool with current := ← pool.current.remove order }
    else do pure { pool with future := ← pool.future.remove order }
  pure (pool, batch ++ [.delete order.hash])

/-- `enforce_limit`: drop the orders of each queue past its limits. -/
def enforceLimit (pool : MemPool Hash Public) (batch : List (BackupOp Hash Public)) :
    PoolResult (MemPool Hash Public × List (BackupOp Hash Public)) :=
  let toDropCurrent :=
    if pool.current.memUsage > pool.queueMemoryLimit ∨ pool.current.count > pool.queueCountLimit then
      getOrdersToDrop pool.current.queue pool.queueCountLimit pool.queueMemoryLimit
    else []
  let toDropFuture :=
    if pool.future.memUsage > pool.queueMemoryLimit ∨ pool.future.count > pool.queueCountLimit then
      getOrdersToDrop pool.future.queue pool.queueCountLimit pool.queueMemoryLimit
    else []
  (toDropCurrent.map (·, true) ++ toDropFuture.map (·, false)).foldlM dropOrder (pool, batch)

/-- The asserts that end `add` and `remove`: the queues, the fee counter and
the table count the transactions of `by_hash`. -/
def checkCounts (pool : MemPool Hash Public) : PoolResult Unit := do
  Fault.assertEq (pool.current.len + pool.future.len) pool.byHash.entries.length
  Fault.assertEq (pool.current.feeCounter.entries.map fun entry => entry.2).sum pool.current.len
  Fault.assertEq pool.bySignerPublic.len pool.byHash.entries.length

/-- What the first loop of `add` carries: the pool, the results so far, the
sequence numbers taken for each signer, the signers that became local, and
the backup batch. -/
structure AddState (Hash Public Address : Type) where
  pool : MemPool Hash Public
  results : List (Except (Error Address) (Public × UInt64))
  toInsert : AList fun _ : Public => List UInt64
  newLocalAccounts : Finset Public
  batch : List (BackupOp Hash Public)

/-- One input of `add`: settle its origin, verify it, and on success record
the item and its order, tagged `New`, replacing an order of the same signer
and sequence number. -/
def addInput (publicToAddress : Public → Address) (fetchAccount : Public → AccountDetails)
    (insertedBlockNumber insertedTimestamp : UInt64) (state : AddState Hash Public Address)
    (input : MemPoolInput Hash Public) : PoolResult (AddState Hash Public Address) := do
  let pool := state.pool
  let tx := input.transaction
  let signerPublic := tx.signerPublic
  let seq := tx.seq
  let hash := tx.hash
  let (origin, isLocalAccount, newLocalAccounts) :=
    if input.origin.isLocal ∧ signerPublic ∉ pool.isLocalAccount then
      (TxOrigin.local, insert signerPublic pool.isLocalAccount, insert signerPublic state.newLocalAccounts)
    else if input.origin.isExternal ∧ signerPublic ∈ pool.isLocalAccount then
      (TxOrigin.local, pool.isLocalAccount, state.newLocalAccounts)
    else (input.origin, pool.isLocalAccount, state.newLocalAccounts)
  let pool := { pool with isLocalAccount := isLocalAccount }
  let clientAccount := fetchAccount signerPublic
  match verifyTransaction publicToAddress pool tx origin clientAccount with
  | .error e =>
      pure { state with pool := pool, newLocalAccounts := newLocalAccounts, results := state.results ++ [.error e] }
  | .ok () =>
      let id := pool.nextTransactionId
      let item : MemPoolItem Hash Public := ⟨tx, origin, insertedBlockNumber, insertedTimestamp, id, input.timelock⟩
      let order := TransactionOrder.forTransaction item clientAccount.seq
      let (old, table) := pool.bySignerPublic.insert signerPublic seq ⟨order, .new⟩
      let pool := { pool with
        nextTransactionId := id + 1
        byHash := pool.byHash.insert hash item
        bySignerPublic := table }
      let batch := state.batch ++ [.put hash item]
      let (pool, batch) ← match old with
        | none => pure (pool, batch)
        | some oldTagged => do
            let pool := { pool with byHash := pool.byHash.erase oldTagged.order.hash }
            let batch := batch ++ [.delete oldTagged.order.hash]
            match oldTagged.tag with
            | .current => pure ({ pool with current := ← pool.current.remove oldTagged.order }, batch)
            | .future => pure ({ pool with future := ← pool.future.remove oldTagged.order }, batch)
            | .new => .error (.panic "internal error: entered unreachable code")
      pure { pool := pool
             results := state.results ++ [.ok (signerPublic, seq)]
             toInsert := state.toInsert.insert signerPublic ((state.toInsert.lookup signerPublic).getD [] ++ [seq])
             newLocalAccounts := newLocalAccounts
             batch := batch }

/-- One signer in the second loop of `add`: find its next sequence number,
measure its orders from its account when that moved or it became local, or
move orders between the queues, then queue its new orders. -/
def addSigner (fetchAccount : Public → AccountDetails) (insertedBlockNumber insertedTimestamp : UInt64)
    (toInsert : AList fun _ : Public => List UInt64) (newLocalAccounts : Finset Public)
    (acc : MemPool Hash Public × List (BackupOp Hash Public)) (signer : Public) :
    PoolResult (MemPool Hash Public × List (BackupOp Hash Public)) := do
  let (pool, batch) := acc
  let currentSeq := (fetchAccount signer).seq
  let firstSeq := (pool.firstSeqs.lookup signer).getD 0
  let nextSeq := (pool.nextSeqs.lookup signer).getD currentSeq
  let newNextSeq ←
    if currentSeq < firstSeq ∨ insertedBlockNumber < pool.lastBlockNumber ∨
        insertedTimestamp < pool.lastTimestamp ∨ nextSeq < currentSeq then
      pool.checkTransactions signer currentSeq insertedBlockNumber insertedTimestamp
    else do
      let found ← match toInsert.lookup signer with
        | some seqs => pool.checkNewTransactions signer seqs nextSeq insertedBlockNumber insertedTimestamp
        | none => pure none
      match found with
      | some seq => pure seq
      | none => pool.checkTransactions signer nextSeq insertedBlockNumber insertedTimestamp
  let isThisAccountLocal := decide (signer ∈ newLocalAccounts)
  let (pool, batch, firstSeq) ←
    if currentSeq ≠ firstSeq ∨ isThisAccountLocal then do
      let (pool, batch) ← pool.updateOrders signer currentSeq newNextSeq isThisAccountLocal batch
      pure ({ pool with firstSeqs := pool.firstSeqs.insert signer currentSeq }, batch, currentSeq)
    else if newNextSeq < nextSeq then do
      pure (← pool.moveQueue signer newNextSeq nextSeq .future, batch, firstSeq)
    else if newNextSeq > nextSeq then do
      pure (← pool.moveQueue signer nextSeq newNextSeq .current, batch, firstSeq)
    else pure (pool, batch, firstSeq)
  let pool := { pool with
    nextSeqs := if newNextSeq ≤ firstSeq then pool.nextSeqs.erase signer
      else pool.nextSeqs.insert signer newNextSeq }
  let pool ← match toInsert.lookup signer with
    | some seqList => pool.addNewOrdersToQueue signer seqList newNextSeq
    | none => pure pool
  let (cleared, table) := pool.bySignerPublic.clearIfEmpty signer
  pure ({ pool with
    bySignerPublic := table
    isLocalAccount := if cleared then pool.isLocalAccount.erase signer else pool.isLocalAccount }, batch)

/-- The result `add` reports for one input, read from the table once the
pool has settled. -/
def importResult (pool : MemPool Hash Public) :
    Except (Error Address) (Public × UInt64) → PoolResult (Except (Error Address) TransactionImportResult)
  | .ok (signerPublic, seq) =>
      match pool.bySignerPublic.get signerPublic seq with
      | some tagged =>
          match tagged.tag with
          | .current => pure (.ok .current)
          | .future => pure (.ok .future)
          | .new => .error (.panic "internal error: entered unreachable code")
      | none => pure (.error .limitReached)
  | .error e => pure (.error e)

/-- `MemPool::add`. -/
def add (publicToAddress : Public → Address) (pool : MemPool Hash Public)
    (inputs : List (MemPoolInput Hash Public)) (insertedBlockNumber insertedTimestamp : UInt64)
    (fetchAccount : Public → AccountDetails) :
    PoolResult (MemPool Hash Public × List (Except (Error Address) TransactionImportResult)) := do
  let state ← inputs.foldlM (addInput publicToAddress fetchAccount insertedBlockNumber insertedTimestamp)
    ⟨pool, [], ∅, ∅, []⟩
  let (pool, batch) ← state.pool.bySignerPublic.keys.foldlM
    (addSigner fetchAccount insertedBlockNumber insertedTimestamp state.toInsert state.newLocalAccounts)
    (state.pool, state.batch)
  let (pool, batch) ← pool.enforceLimit batch
  let pool := { pool with lastBlockNumber := insertedBlockNumber, lastTimestamp := insertedTimestamp }
  pool.checkCounts
  let pool := { pool with db := writeBatch pool.db batch }
  let results ← state.results.mapM pool.importResult
  pure (pool, results)

/-- One hash of `remove`: take its item out of every index, and remember the
lowest sequence number removed for each signer at or above its account. -/
def removeHash (fetchSeq : Public → PoolResult UInt64)
    (acc : MemPool Hash Public × (AList fun _ : Public => UInt64) × List (BackupOp Hash Public))
    (hash : Hash) :
    PoolResult (MemPool Hash Public × (AList fun _ : Public => UInt64) × List (BackupOp Hash Public)) := do
  let (pool, removed, batch) := acc
  match pool.byHash.lookup hash with
  | none => pure acc
  | some item =>
      let signerPublic := item.signerPublic
      let seq := item.seq
      let currentSeq ← fetchSeq signerPublic
      let tagged ← Fault.expect (pool.bySignerPublic.get signerPublic seq)
        "by_hash and by_signer_public must be synced"
      let pool ← match tagged.tag with
        | .current => do pure { pool with current := ← pool.current.remove tagged.order }
        | .future => do pure { pool with future := ← pool.future.remove tagged.order }
        | .new => .error (.panic "internal error: entered unreachable code")
      let pool := { pool with
        byHash := pool.byHash.erase hash
        bySignerPublic := (pool.bySignerPublic.remove signerPublic seq).2 }
      let removed :=
        if currentSeq ≤ seq then
          match removed.lookup signerPublic with
          | some oldSeq => if oldSeq ≤ seq then removed else removed.insert signerPublic seq
          | none => removed.insert signerPublic seq
        else removed
      pure (pool, removed, batch ++ [.delete hash])

/-- One signer in the second loop of `remove`. -/
def removeSigner (fetchSeq : Public → PoolResult UInt64) (currentBlockNumber currentTimestamp : UInt64)
    (removed : AList fun _ : Public => UInt64)
    (acc : MemPool Hash Public × List (BackupOp Hash Public)) (signer : Public) :
    PoolResult (MemPool Hash Public × List (BackupOp Hash Public)) := do
  let (pool, batch) := acc
  let currentSeq ← fetchSeq signer
  let firstSeq := (pool.firstSeqs.lookup signer).getD 0
  let nextSeq := (pool.nextSeqs.lookup signer).getD currentSeq
  let newNextSeq ←
    if currentSeq < firstSeq ∨ currentBlockNumber < pool.lastBlockNumber ∨
        currentTimestamp < pool.lastTimestamp ∨ nextSeq < currentSeq then
      pool.checkTransactions signer currentSeq currentBlockNumber currentTimestamp
    else
      match removed.lookup signer with
      | some seq => pure seq
      | none => pool.checkTransactions signer nextSeq currentBlockNumber currentTimestamp
  let (pool, batch, firstSeq) ←
    if currentSeq ≠ firstSeq then do
      let (pool, batch) ← pool.updateOrders signer currentSeq newNextSeq false batch
      pure ({ pool with firstSeqs := pool.firstSeqs.insert signer currentSeq }, batch, currentSeq)
    else if newNextSeq < nextSeq then do
      pure (← pool.moveQueue signer newNextSeq nextSeq .future, batch, firstSeq)
    else if newNextSeq > nextSeq then do
      pure (← pool.moveQueue signer nextSeq newNextSeq .current, batch, firstSeq)
    else pure (pool, batch, firstSeq)
  let pool := { pool with
    nextSeqs := if newNextSeq ≤ firstSeq then pool.nextSeqs.erase signer
      else pool.nextSeqs.insert signer newNextSeq }
  let (cleared, table) := pool.bySignerPublic.clearIfEmpty signer
  pure ({ pool with
    bySignerPublic := table
    isLocalAccount := if cleared then pool.isLocalAccount.erase signer else pool.isLocalAccount }, batch)

/-- `MemPool::remove`. -/
def remove (pool : MemPool Hash Public) (transactionHashes : List Hash)
    (fetchSeq : Public → PoolResult UInt64) (currentBlockNumber currentTimestamp : UInt64) :
    PoolResult (MemPool Hash Public) := do
  let (pool, removed, batch) ← transactionHashes.foldlM (removeHash fetchSeq) (pool, ∅, [])
  let (pool, batch) ← pool.bySignerPublic.keys.foldlM
    (removeSigner fetchSeq currentBlockNumber currentTimestamp removed) (pool, batch)
  let pool := { pool with lastBlockNumber := currentBlockNumber, lastTimestamp := currentTimestamp }
  pool.checkCounts
  pure { pool with db := writeBatch pool.db batch }

/-- Whether `remove_old` drops an item: it expired, it stayed too long, or it
stayed long enough for its signer's balance to be checked and costs more. -/
def isInvalid (pool : MemPool Hash Public) (signers : AList fun _ : Public => AccountDetails)
    (currentBlockNumber currentTimestamp : UInt64) (item : MemPoolItem Hash Public) : Bool :=
  let maxBlockNumber := pool.maxBlockNumberPeriodInPool
  let balanceCheck := maxBlockNumber >>> 3
  let timeDiff := if item.insertedBlockNumber ≤ currentBlockNumber then currentBlockNumber - item.insertedBlockNumber else 0
  if !item.origin.isLocal then
    match item.expiration with
    | some expiration =>
        if expiration < currentTimestamp then true
        else if timeDiff > maxBlockNumber then true
        else if timeDiff > balanceCheck then
          match signers.lookup item.signerPublic with
          | some details => decide (item.cost > details.balance)
          | none => false
        else false
    | none =>
        if timeDiff > maxBlockNumber then true
        else if timeDiff > balanceCheck then
          match signers.lookup item.signerPublic with
          | some details => decide (item.cost > details.balance)
          | none => false
        else false
  else false

/-- `MemPool::remove_old`: remove the invalid external transactions, reading
each signer's sequence number from the accounts fetched at the start. -/
def removeOld (pool : MemPool Hash Public) (fetchAccount : Public → AccountDetails)
    (currentBlockNumber currentTimestamp : UInt64) : PoolResult (MemPool Hash Public) :=
  let signers : AList fun _ : Public => AccountDetails :=
    pool.bySignerPublic.keys.foldl (fun signers sender => signers.insert sender (fetchAccount sender)) ∅
  let invalid := (pool.byHash.entries.filter fun entry =>
    isInvalid pool signers currentBlockNumber currentTimestamp entry.2).map Sigma.fst
  let fetchSeq := fun signer => (·.seq) <$>
    Fault.expect (signers.lookup signer) "We fetch details for all signers from both current and future"
  pool.remove invalid fetchSeq currentBlockNumber currentTimestamp

/-- What the first loop of `recover_from_db` carries: the pool, the largest
insertion id, and the sequence numbers of each signer. -/
def recoverItem (fetchAccount : Public → AccountDetails)
    (acc : MemPool Hash Public × UInt64 × (AList fun _ : Public => List UInt64))
    (entry : Sigma fun _ : Hash => MemPoolItem Hash Public) :
    MemPool Hash Public × UInt64 × (AList fun _ : Public => List UInt64) :=
  let (pool, maxInsertionId, toInsert) := acc
  let item := entry.2
  let signerPublic := item.signerPublic
  let seq := item.seq
  let clientAccount := fetchAccount signerPublic
  let order := TransactionOrder.forTransaction item clientAccount.seq
  ({ pool with
      byHash := pool.byHash.insert entry.1 item
      bySignerPublic := (pool.bySignerPublic.insert signerPublic seq ⟨order, .new⟩).2
      isLocalAccount := if item.origin = .local then insert signerPublic pool.isLocalAccount
        else pool.isLocalAccount },
    if item.insertionId > maxInsertionId then item.insertionId else maxInsertionId,
    toInsert.insert signerPublic ((toInsert.lookup signerPublic).getD [] ++ [seq]))

/-- One signer in the second loop of `recover_from_db`: its orders are
measured from its account and queued.  The `match`es are terms, so that each
step is one bind. -/
def recoverSigner (fetchAccount : Public → AccountDetails) (recoverBlockNumber recoverTimestamp : UInt64)
    (toInsert : AList fun _ : Public => List UInt64) (pool : MemPool Hash Public) (signer : Public) :
    PoolResult (MemPool Hash Public) := do
  let currentSeq := (fetchAccount signer).seq
  let found ← (match toInsert.lookup signer with
    | some seqs => pool.checkNewTransactions signer seqs currentSeq recoverBlockNumber recoverTimestamp
    | none => pure none)
  let nextSeq ← (match found with
    | some seq => pure seq
    | none => pool.checkTransactions signer currentSeq recoverBlockNumber recoverTimestamp)
  let pool := { pool with
    firstSeqs := pool.firstSeqs.insert signer currentSeq
    nextSeqs := if nextSeq > currentSeq then pool.nextSeqs.insert signer nextSeq else pool.nextSeqs }
  let pool ← (match toInsert.lookup signer with
    | some seqList => pool.addNewOrdersToQueue signer seqList nextSeq
    | none => pure pool)
  let (cleared, table) := pool.bySignerPublic.clearIfEmpty signer
  pure { pool with
    bySignerPublic := table
    isLocalAccount := if cleared then pool.isLocalAccount.erase signer else pool.isLocalAccount }

/-- `MemPool::recover_from_db`: rebuild the indexes and the queues from the
items of the backup, measured from the accounts of the latest state. -/
def recoverFromDb (pool : MemPool Hash Public) (fetchAccount : Public → AccountDetails)
    (recoverBlockNumber recoverTimestamp : UInt64) : PoolResult (MemPool Hash Public) := do
  let (pool, maxInsertionId, toInsert) := pool.db.entries.foldl (recoverItem fetchAccount) (pool, 0, ∅)
  let pool ← pool.bySignerPublic.keys.foldlM
    (recoverSigner fetchAccount recoverBlockNumber recoverTimestamp toInsert) pool
  pure { pool with
    lastBlockNumber := recoverBlockNumber
    lastTimestamp := recoverTimestamp
    nextTransactionId := maxInsertionId + 1 }

end MemPool

end Pool

end Miner

end CodeChain
