import CodeChain.VM.Executor

/-!
# Timelocks of asset inputs

An input of an asset transfer may carry a `Timelock`: a block number, a number
of blocks since the block of the asset it spends, a time, or a time since that
block.  `CodeChainMachine::verify_transfer_timelock`
(`core/src/codechain_machine.rs`) checks them against the header of the block
that holds the transfer, and the script machine's `CHKTIMELOCK` checks the
same four kinds against the parent block through `ChainTimeInfo`
(`core/src/client/client.rs`).

Both read the block of the spent asset from the transaction index of the
chain.  The ages are `u64` sums and differences; the release profile has no
overflow checks, so they wrap.
-/

namespace CodeChain

namespace Machine

/-- `Timelock`. -/
inductive Timelock where
  | block (value : UInt64)
  | blockAge (value : UInt64)
  | time (value : UInt64)
  | timeAge (value : UInt64)
  deriving DecidableEq, Repr

/-- `HistoryError::Timelocked`. -/
structure Timelocked where
  timelock : Timelock
  remainingTime : UInt64
  deriving DecidableEq, Repr

/-- The fields of a header that the timelocks read. -/
structure TimeHeader where
  number : UInt64
  timestamp : UInt64
  deriving DecidableEq, Repr

/-- The fields of `AssetTransferInput` that `verify_transfer_timelock` reads:
the tracker of the spent asset and the timelock. -/
structure TimelockInput (Tracker : Type) where
  tracker : Tracker
  timelock : Option Timelock

/-- The transaction index of the chain: `transaction_header`, the header of the
block holding the transaction of a tracker. -/
structure TransactionIndex (Tracker : Type) where
  transactionHeader : Tracker → Option TimeHeader

namespace TransactionIndex

variable {Tracker : Type} (index : TransactionIndex Tracker)

/-- `transaction_block_number`. -/
def transactionBlockNumber (tracker : Tracker) : Option UInt64 :=
  (index.transactionHeader tracker).map (·.number)

/-- `transaction_block_timestamp`. -/
def transactionBlockTimestamp (tracker : Tracker) : Option UInt64 :=
  (index.transactionHeader tracker).map (·.timestamp)

/-- `impl ChainTimeInfo for Client`: the ages are the parent's number and
timestamp less those of the tracker's block, by a `u64` subtraction. -/
def chainTimeInfo : VM.ChainTimeInfo Tracker where
  transactionBlockAge tracker parentBlockNumber :=
    (index.transactionBlockNumber tracker).map (parentBlockNumber - ·)
  transactionTimeAge tracker parentTimestamp :=
    (index.transactionBlockTimestamp tracker).map (parentTimestamp - ·)

end TransactionIndex

variable {Tracker : Type}

/-- The `BlockAge` and `TimeAge` arms of `verify_transfer_timelock`, which
differ only in what they read: the threshold is the start, as the index gives
it, plus the age, and it must not be above the header's value.  An asset the
index does not know is locked for `u64::MAX`. -/
def verifyAge (timelock : Timelock) (start : Option UInt64) (value now : UInt64) :
    Except Timelocked Unit :=
  match start with
  | none => .error ⟨timelock, UInt64.ofNat (2 ^ 64 - 1)⟩
  | some start =>
    let absolute := start + value
    if absolute > now then .error ⟨timelock, absolute - now⟩ else .ok ()

/-- The `match` of `verify_transfer_timelock` on one input. -/
def verifyInputTimelock (client : TransactionIndex Tracker) (header : TimeHeader)
    (input : TimelockInput Tracker) : Except Timelocked Unit :=
  match input.timelock with
  | none => .ok ()
  | some timelock =>
    match timelock with
    | .block value =>
        if value > header.number then .error ⟨timelock, value - header.number⟩ else .ok ()
    | .blockAge value =>
        verifyAge timelock (client.transactionBlockNumber input.tracker) value header.number
    | .time value =>
        if value > header.timestamp then .error ⟨timelock, value - header.timestamp⟩ else .ok ()
    | .timeAge value =>
        verifyAge timelock (client.transactionBlockTimestamp input.tracker) value header.timestamp

/-- `verify_transfer_timelock`: every input in turn; the first that is locked
is the error. -/
def verifyTransferTimelock (client : TransactionIndex Tracker) (inputs : List (TimelockInput Tracker))
    (header : TimeHeader) : Except Timelocked Unit :=
  inputs.forM (verifyInputTimelock client header)

/-! ### What the checks accept -/

theorem verifyTransferTimelock_eq_ok {client : TransactionIndex Tracker} {header : TimeHeader}
    {inputs : List (TimelockInput Tracker)} :
    verifyTransferTimelock client inputs header = .ok () ↔
      ∀ input ∈ inputs, verifyInputTimelock client header input = .ok () := by
  unfold verifyTransferTimelock
  induction inputs with
  | nil => simp [List.forM, pure, Except.pure]
  | cons input inputs ih =>
    simp only [List.forM, List.forall_mem_cons, ← ih]
    cases verifyInputTimelock client header input with
    | error locked => simp [bind, Except.bind]
    | ok passed => simp [bind, Except.bind]

/-- An age passes when the start plus the age, taken modulo `2 ^ 64`, is at
most the header's value. -/
theorem verifyAge_eq_ok {timelock : Timelock} {start : Option UInt64} {value now : UInt64} :
    verifyAge timelock start value now = .ok () ↔
      ∃ started, start = some started ∧ (started.toNat + value.toNat) % 2 ^ 64 ≤ now.toNat := by
  cases start with
  | none => simp [verifyAge]
  | some started =>
    have sum : (started + value).toNat = (started.toNat + value.toNat) % 2 ^ 64 := UInt64.toNat_add ..
    simp only [verifyAge, gt_iff_lt, Option.some.injEq, exists_eq_left']
    split_ifs with above
    · simp only [false_iff, not_le]
      rw [UInt64.lt_iff_toNat_lt, sum] at above
      exact above
    · simp only [true_iff]
      rw [UInt64.lt_iff_toNat_lt, sum] at above
      exact Nat.le_of_not_lt above

/-- An age timelock whose threshold passes `u64::MAX` unlocks: the sum wraps,
so an input confirmed in a block at or below the header, with an age that
takes the threshold past `2 ^ 64`, is accepted as soon as the header's number
(timestamp) reaches the wrapped sum, although it is below the true threshold. -/
theorem wrapped_age_timelock_unlocks (client : TransactionIndex Tracker) (header confirmed : TimeHeader)
    (tracker : Tracker) (found : client.transactionHeader tracker = some confirmed) (value : UInt64)
    (wrapsNumber : 2 ^ 64 ≤ confirmed.number.toNat + value.toNat)
    (reachedNumber : confirmed.number.toNat + value.toNat - 2 ^ 64 ≤ header.number.toNat)
    (wrapsTime : 2 ^ 64 ≤ confirmed.timestamp.toNat + value.toNat)
    (reachedTime : confirmed.timestamp.toNat + value.toNat - 2 ^ 64 ≤ header.timestamp.toNat) :
    verifyTransferTimelock client [⟨tracker, some (.blockAge value)⟩] header = .ok () ∧
      header.number.toNat < confirmed.number.toNat + value.toNat ∧
      verifyTransferTimelock client [⟨tracker, some (.timeAge value)⟩] header = .ok () ∧
      header.timestamp.toNat < confirmed.timestamp.toNat + value.toNat := by
  have below : ∀ start now : UInt64, 2 ^ 64 ≤ start.toNat + value.toNat →
      start.toNat + value.toNat - 2 ^ 64 ≤ now.toNat →
      (start.toNat + value.toNat) % 2 ^ 64 ≤ now.toNat ∧ now.toNat < start.toNat + value.toNat := by
    intro start now wraps reached
    have small : start.toNat + value.toNat < 2 * 2 ^ 64 := by
      have := start.toNat_lt
      have := value.toNat_lt
      omega
    have reduced : (start.toNat + value.toNat) % 2 ^ 64 = start.toNat + value.toNat - 2 ^ 64 := by
      rw [Nat.mod_eq_sub_mod wraps, Nat.mod_eq_of_lt (by omega)]
    exact ⟨reduced ▸ reached, by have := now.toNat_lt; omega⟩
  obtain ⟨numberPasses, numberBelow⟩ := below _ _ wrapsNumber reachedNumber
  obtain ⟨timePasses, timeBelow⟩ := below _ _ wrapsTime reachedTime
  refine ⟨?_, numberBelow, ?_, timeBelow⟩
  all_goals
    rw [verifyTransferTimelock_eq_ok, List.forall_mem_singleton]
    simp only [verifyInputTimelock, verifyAge_eq_ok, TransactionIndex.transactionBlockNumber,
      TransactionIndex.transactionBlockTimestamp, found, Option.map_some, Option.some.injEq,
      exists_eq_left']
  · exact numberPasses
  · exact timePasses

/-- The index of an asset confirmed in block 1 at time 1. -/
def oneAssetIndex : TransactionIndex ℕ :=
  ⟨fun _ => some ⟨1, 1⟩⟩

/-- The largest age, `u64::MAX`. -/
def maxAge : UInt64 :=
  UInt64.ofNat (2 ^ 64 - 1)

theorem wrapped_age_timelock_unlocks_at_block_five :
    oneAssetIndex.transactionHeader 0 = some ⟨1, 1⟩ ∧
      2 ^ 64 ≤ (1 : UInt64).toNat + maxAge.toNat ∧ (1 : UInt64).toNat + maxAge.toNat - 2 ^ 64 ≤ (5 : UInt64).toNat ∧
      verifyTransferTimelock oneAssetIndex [⟨0, some (.blockAge maxAge)⟩] ⟨5, 5⟩ = .ok () ∧
      (5 : UInt64).toNat < (1 : UInt64).toNat + maxAge.toNat ∧
      verifyTransferTimelock oneAssetIndex [⟨0, some (.timeAge maxAge)⟩] ⟨5, 5⟩ = .ok () ∧
      (5 : UInt64).toNat < (1 : UInt64).toNat + maxAge.toNat :=
  have wraps : 2 ^ 64 ≤ (1 : UInt64).toNat + maxAge.toNat := by decide
  have reached : (1 : UInt64).toNat + maxAge.toNat - 2 ^ 64 ≤ (5 : UInt64).toNat := by decide
  ⟨rfl, wraps, reached,
    wrapped_age_timelock_unlocks oneAssetIndex ⟨5, 5⟩ ⟨1, 1⟩ 0 rfl maxAge wraps reached wraps reached⟩

/-! ### The ages of the script machine -/

/-- For an asset confirmed at or below the parent block, the age that the
client gives `CHKTIMELOCK` is the exact difference: the machine's `BlockAge`
pushes true exactly when the parent is at least the age above the asset's
block. -/
theorem timelockPassed_blockAge {Input Hash : Type} (environment : VM.Environment Input Tracker Hash)
    (index : TransactionIndex Tracker) (reads : environment.client = index.chainTimeInfo)
    {confirmed : TimeHeader} (found : index.transactionHeader (environment.trackerOf environment.cur) = some confirmed)
    (below : confirmed.number ≤ environment.parentBlockNumber) (value : UInt64) :
    VM.timelockPassed environment VM.timelockTypeBlockAge value =
      .ok (decide (value.toNat ≤ environment.parentBlockNumber.toNat - confirmed.number.toNat)) := by
  have age : (environment.parentBlockNumber - confirmed.number).toNat =
      environment.parentBlockNumber.toNat - confirmed.number.toNat :=
    UInt64.toNat_sub_of_le _ _ below
  simp only [VM.timelockPassed, reads, TransactionIndex.chainTimeInfo,
    TransactionIndex.transactionBlockNumber, found, Option.map_some, Option.elim_some]
  rw [if_neg (by decide), if_pos trivial]
  simp only [ge_iff_le, UInt64.le_iff_toNat_le, age]

end Machine

end CodeChain
