import CodeChain.Lib.Fault

/-!
# The records of the transaction pool

The types of `miner/mem_pool_types.rs` and the `Table` of `util/table`.  A
transaction is kept three times: as a `MemPoolItem` by its hash, as a
`TransactionOrder` in the current or the future queue, and as that order with
its queue's tag in a table indexed by signer and sequence number.

A queue is a `BTreeSet<TransactionOrder>` whose order is the hand-written
`Ord` of `TransactionOrder`, under which two orders are equal when they compare
equal, whatever their hashes.  It is modelled as a list sorted by that
comparison: inserting an order that compares equal to one in the set leaves
the set as it is, and removing an order removes the one that compares equal.
A `HashMap` is a finite map, visited in the order of its entries.
-/

namespace CodeChain

namespace Miner

namespace Pool

/-- `TxOrigin`: where a transaction came from. -/
inductive TxOrigin where
  | local
  | external
  | retractedBlock
  deriving DecidableEq, Repr

namespace TxOrigin

/-- `Ord for TxOrigin`: retracted transactions first, then local ones. -/
def compare (self other : TxOrigin) : Ordering :=
  if other = self then .eq
  else match self, other with
    | .retractedBlock, _ => .lt
    | _, .retractedBlock => .gt
    | .local, _ => .lt
    | _, _ => .gt

def isLocal (origin : TxOrigin) : Bool :=
  origin = .local

def isLocalOrRetracted (origin : TxOrigin) : Bool :=
  origin = .local || origin = .retractedBlock

def isExternal (origin : TxOrigin) : Bool :=
  origin = .external

end TxOrigin

/-- `TxTimelock`: the block number and the timestamp a transaction waits for. -/
structure TxTimelock where
  block : Option UInt64
  timestamp : Option UInt64
  deriving DecidableEq, Repr

/-- The derived `Ord` of `Option<u64>`: `None` first. -/
def compareOption : Option UInt64 → Option UInt64 → Ordering
  | none, none => .eq
  | none, some _ => .lt
  | some _, none => .gt
  | some a, some b => compare a b

/-- The derived `Ord` of `TxTimelock`: by block, then by timestamp. -/
def TxTimelock.compare (self other : TxTimelock) : Ordering :=
  (compareOption self.block other.block).then (compareOption self.timestamp other.timestamp)

/-- The parts of a transaction's action that the pool reads: the quantity that
`Pay` and `WrapCCC` spend, and the expiration of `TransferAsset`. -/
inductive TxAction where
  | pay (quantity : UInt64)
  | wrapCcc (quantity : UInt64)
  | transferAsset (expiration : Option UInt64)
  | other
  deriving DecidableEq, Repr

/-- A `SignedTransaction` as the pool sees it, with the length of its RLP
encoding, which is never empty. -/
structure SignedTransaction (Hash Public : Type) where
  hash : Hash
  signerPublic : Public
  seq : UInt64
  fee : UInt64
  action : TxAction
  rlpLength : ℕ
  rlpLength_pos : 0 < rlpLength
  deriving DecidableEq

/-- `MemPoolItem`: a pooled transaction with its origin, the time it came in,
its insertion id and its timelock. -/
structure MemPoolItem (Hash Public : Type) where
  tx : SignedTransaction Hash Public
  origin : TxOrigin
  insertedBlockNumber : UInt64
  insertedTimestamp : UInt64
  insertionId : UInt64
  timelock : TxTimelock
  deriving DecidableEq

namespace MemPoolItem

variable {Hash Public : Type}

def hash (item : MemPoolItem Hash Public) : Hash :=
  item.tx.hash

def seq (item : MemPoolItem Hash Public) : UInt64 :=
  item.tx.seq

def signerPublic (item : MemPoolItem Hash Public) : Public :=
  item.tx.signerPublic

/-- `MemPoolItem::cost`: the fee, and what `Pay` and `WrapCCC` send. -/
def cost (item : MemPoolItem Hash Public) : UInt64 :=
  match item.tx.action with
  | .pay quantity => item.tx.fee + quantity
  | .wrapCcc quantity => item.tx.fee + quantity
  | _ => item.tx.fee

def expiration (item : MemPoolItem Hash Public) : Option UInt64 :=
  match item.tx.action with
  | .transferAsset expiration => expiration
  | _ => none

end MemPoolItem

/-- `TransactionOrder`: what a queue ranks a transaction by. -/
structure TransactionOrder (Hash : Type) where
  seqHeight : UInt64
  fee : UInt64
  feePerByte : UInt64
  memUsage : ℕ
  hash : Hash
  insertionId : UInt64
  origin : TxOrigin
  timelock : TxTimelock
  deriving DecidableEq

namespace TransactionOrder

variable {Hash Public : Type}

/-- `TransactionOrder::for_transaction`: the height above the account's
sequence number is a `u64` difference. -/
def forTransaction (item : MemPoolItem Hash Public) (seqSeq : UInt64) : TransactionOrder Hash where
  seqHeight := item.seq - seqSeq
  fee := item.tx.fee
  memUsage := item.tx.rlpLength
  feePerByte := item.tx.fee / UInt64.ofNat item.tx.rlpLength
  hash := item.hash
  insertionId := item.insertionId
  origin := item.origin
  timelock := item.timelock

def updateHeight (order : TransactionOrder Hash) (seq baseSeq : UInt64) : TransactionOrder Hash :=
  { order with seqHeight := seq - baseSeq }

def changeOrigin (order : TransactionOrder Hash) (origin : TxOrigin) : TransactionOrder Hash :=
  { order with origin := origin }

/-- `Ord for TransactionOrder`: origin, height, fee per byte, then the higher
fee, the nearer timelock and the earlier insertion. -/
def compare (self b : TransactionOrder Hash) : Ordering :=
  if self.origin ≠ b.origin then self.origin.compare b.origin
  else if self.seqHeight ≠ b.seqHeight then Ord.compare self.seqHeight b.seqHeight
  else if self.feePerByte ≠ b.feePerByte then Ord.compare self.feePerByte b.feePerByte
  else if self.fee ≠ b.fee then Ord.compare b.fee self.fee
  else if self.timelock ≠ b.timelock then self.timelock.compare b.timelock
  else Ord.compare self.insertionId b.insertionId

end TransactionOrder

/-- `QueueTag`: the queue an order is in, or `New` before it is queued. -/
inductive QueueTag where
  | current
  | future
  | new
  deriving DecidableEq, Repr

structure TransactionOrderWithTag (Hash : Type) where
  order : TransactionOrder Hash
  tag : QueueTag
  deriving DecidableEq

/-! ### Sorted sets -/

namespace OrderedSet

variable {α : Type} (cmp : α → α → Ordering)

/-- `BTreeSet::insert`: nothing changes when an equal element is there. -/
def insert (value : α) : List α → List α
  | [] => [value]
  | head :: rest =>
      match cmp value head with
      | .lt => value :: head :: rest
      | .eq => head :: rest
      | .gt => head :: insert value rest

/-- `BTreeSet::remove`: the set without the element equal to `value`, or
`none` when there is none. -/
def remove (value : α) : List α → Option (List α)
  | [] => none
  | head :: rest =>
      match cmp value head with
      | .eq => some rest
      | _ => (remove value rest).map (head :: ·)

end OrderedSet

/-! ### Queues -/

/-- `CurrentQueue`: the orders that can go into a block, with the number of
orders of each fee, and the memory and the number of the external ones. -/
structure CurrentQueue (Hash : Type) where
  queue : List (TransactionOrder Hash)
  feeCounter : AList fun _ : UInt64 => ℕ
  memUsage : ℕ
  count : ℕ

/-- `FutureQueue`: the orders that wait for an earlier sequence number or
their timelock. -/
structure FutureQueue (Hash : Type) where
  queue : List (TransactionOrder Hash)
  memUsage : ℕ
  count : ℕ

namespace CurrentQueue

variable {Hash : Type}

def new : CurrentQueue Hash :=
  ⟨[], ∅, 0, 0⟩

def len (queue : CurrentQueue Hash) : ℕ :=
  queue.queue.length

/-- `CurrentQueue::insert`: the counters move even when an equal order is
already queued. -/
def insert (current : CurrentQueue Hash) (order : TransactionOrder Hash) : CurrentQueue Hash :=
  let external := !order.origin.isLocalOrRetracted
  { queue := OrderedSet.insert TransactionOrder.compare order current.queue
    feeCounter := current.feeCounter.insert order.fee ((current.feeCounter.lookup order.fee).getD 0 + 1)
    memUsage := if external then current.memUsage + order.memUsage else current.memUsage
    count := if external then current.count + 1 else current.count }

/-- `CurrentQueue::remove`, which asserts that the order is queued and that
its fee is counted. -/
def remove {ε : Type} (current : CurrentQueue Hash) (order : TransactionOrder Hash) :
    Except (Fault ε) (CurrentQueue Hash) := do
  let queue ← Fault.expect (OrderedSet.remove TransactionOrder.compare order current.queue)
    "assertion failed: self.queue.remove(order)"
  let external := !order.origin.isLocalOrRetracted
  let counter ← Fault.expect (current.feeCounter.lookup order.fee)
    "called `Option::unwrap()` on a `None` value"
  let feeCounter := if counter - 1 ≠ 0 then current.feeCounter.insert order.fee (counter - 1)
    else current.feeCounter.erase order.fee
  pure { queue := queue
         feeCounter := feeCounter
         memUsage := if external then current.memUsage - order.memUsage else current.memUsage
         count := if external then current.count - 1 else current.count }

/-- `CurrentQueue::minimum_fee`: one more than the lowest fee, or zero. -/
def minimumFee (current : CurrentQueue Hash) : UInt64 :=
  (current.feeCounter.keys.min?.map (· + 1)).getD 0

end CurrentQueue

namespace FutureQueue

variable {Hash : Type}

def new : FutureQueue Hash :=
  ⟨[], 0, 0⟩

def len (queue : FutureQueue Hash) : ℕ :=
  queue.queue.length

def insert (future : FutureQueue Hash) (order : TransactionOrder Hash) : FutureQueue Hash :=
  let external := !order.origin.isLocalOrRetracted
  { queue := OrderedSet.insert TransactionOrder.compare order future.queue
    memUsage := if external then future.memUsage + order.memUsage else future.memUsage
    count := if external then future.count + 1 else future.count }

def remove {ε : Type} (future : FutureQueue Hash) (order : TransactionOrder Hash) :
    Except (Fault ε) (FutureQueue Hash) := do
  let queue ← Fault.expect (OrderedSet.remove TransactionOrder.compare order future.queue)
    "assertion failed: self.queue.remove(order)"
  let external := !order.origin.isLocalOrRetracted
  pure { queue := queue
         memUsage := if external then future.memUsage - order.memUsage else future.memUsage
         count := if external then future.count - 1 else future.count }

end FutureQueue

/-! ### Tables -/

/-- `Table<Row, Col, Val>` of `util/table`: a map of maps. -/
abbrev Table (Row Col Val : Type) := AList fun _ : Row => AList fun _ : Col => Val

namespace Table

variable {Row Col Val : Type} [DecidableEq Row] [DecidableEq Col]

def get (table : Table Row Col Val) (row : Row) (col : Col) : Option Val :=
  (table.lookup row).bind fun cells => cells.lookup col

/-- `Table::insert`: the value that was in the cell, and the new table. -/
def insert (table : Table Row Col Val) (row : Row) (col : Col) (val : Val) :
    Option Val × Table Row Col Val :=
  let cells := (table.lookup row).getD ∅
  (cells.lookup col, AList.insert row (cells.insert col val) table)

/-- `Table::remove`: a row that becomes empty goes. -/
def remove (table : Table Row Col Val) (row : Row) (col : Col) : Option Val × Table Row Col Val :=
  match table.lookup row with
  | none => (none, table)
  | some cells =>
      let remaining := cells.erase col
      (cells.lookup col,
        if remaining.entries = [] then AList.erase row table else AList.insert row remaining table)

/-- `Table::clear_if_empty`: drop a row that is there and empty. -/
def clearIfEmpty (table : Table Row Col Val) (row : Row) : Bool × Table Row Col Val :=
  match table.lookup row with
  | some cells => if cells.entries = [] then (true, AList.erase row table) else (false, table)
  | none => (false, table)

/-- `Table::len`: the number of cells. -/
def len (table : Table Row Col Val) : ℕ :=
  (table.entries.map fun entry => entry.2.entries.length).sum

end Table

/-- `AccountDetails`: the sequence number and the balance of an account in
the latest state. -/
structure AccountDetails where
  seq : UInt64
  balance : UInt64
  deriving DecidableEq, Repr

/-- `MemPoolInput`: a transaction offered to the pool. -/
structure MemPoolInput (Hash Public : Type) where
  transaction : SignedTransaction Hash Public
  origin : TxOrigin
  timelock : TxTimelock

end Pool

end Miner

end CodeChain
