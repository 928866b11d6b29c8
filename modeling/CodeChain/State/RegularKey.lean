import CodeChain.Stake.Slashing

/-!
# Regular keys

An account may name a regular key (`TopLevelState::set_regular_key`,
`state/src/impls/top_level.rs`): a second key that signs transactions on the
account's behalf.  The regular account of a key, stored at the key's address,
holds the owner's public key, and `apply_internal` charges a transaction that a
live regular key signs to its owner.  `set_regular_key` refuses a key that is
already in use, or whose address is a platform account that is not null, and
kills the previous key; `transfer_balance` refuses to pay to the address of a
live regular key.  What these checks keep is `RegularKeysConsistent`.

The stake handler runs on the same accounts: its `balance` is the CCC balance
of the platform accounts, and `Stake::execute` receives the signer's public
key, which `ban` rewards with the confiscated deposit without looking for a
regular account.

Accounts and regular accounts are read as committed values: a transaction
that fails is reverted to `FEE_CHECKPOINT` and leaves them as they were.
-/

namespace CodeChain

namespace State

/-- The `RuntimeError` variants of regular keys and transfers, and those the
stake handler returns. -/
inductive KeyError (Address : Type) where
  | cannotUseMasterKey
  | invalidTransferDestination
  | regularKeyAlreadyInUse
  | regularKeyAlreadyInUseAsPlatformAccount
  | stake (error : Stake.RuntimeError Address)
  deriving DecidableEq, Repr

/-- The platform accounts and the regular accounts, with the stake records.
The CCC balance of a platform account is the stake state's `balance`.
`regularAccount` is the owner's public key of the regular account stored at an
address, and `none` for a null one (a zero owner). -/
structure KeyedState (Address Public : Type) where
  stake : Stake.StakeState Address Public
  seq : Address → UInt64
  regularKey : Address → Option Public
  regularAccount : Address → Option Public

/-- The actions of `Action` that move CCC or keys: `Pay`, `SetRegularKey`, and a
custom action of the stake handler. -/
inductive KeyAction (Address Public Hash Signature Schnorr : Type) where
  | pay (receiver : Address) (quantity : UInt64)
  | setRegularKey (key : Public)
  | custom (action : Stake.Action Address Hash Signature Schnorr)

/-- `Transaction::is_master_key_allowed`. -/
def KeyAction.isMasterKeyAllowed {Address Public Hash Signature Schnorr : Type} :
    KeyAction Address Public Hash Signature Schnorr → Bool
  | .setRegularKey _ => true
  | _ => false

/-- `Transaction`, without the network id. -/
structure KeyTransaction (Address Public Hash Signature Schnorr : Type) where
  seq : UInt64
  fee : UInt64
  action : KeyAction Address Public Hash Signature Schnorr

namespace KeyedState

variable {Address Public Hash Signature Schnorr Seal : Type}
variable [DecidableEq Address] [LinearOrder Address] [DecidableEq Public]

/-- The results of the operations on accounts. -/
abbrev KeyResult (Address α : Type) := Except (Fault (KeyError Address)) α

section Accounts

variable (publicToAddress : Public → Address)

/-- `account_exists_and_not_null`: `Account::is_null` is a zero balance and a
zero seq. -/
def accountExistsAndNotNull (state : KeyedState Address Public) (address : Address) : Bool :=
  state.stake.balance address != 0 || state.seq address != 0

/-- `regular_account_exists_and_not_null`: the regular account of a key is
stored at the key's address. -/
def regularAccountExistsAndNotNull (state : KeyedState Address Public) (key : Public) : Bool :=
  (state.regularAccount (publicToAddress key)).isSome

/-- `regular_account_exists_and_not_null_by_address`. -/
def regularAccountExistsAndNotNullByAddress (state : KeyedState Address Public) (address : Address) :
    Bool :=
  (state.regularAccount address).isSome

/-- `inc_seq`; `+= 1` wraps. -/
def incSeq (state : KeyedState Address Public) (address : Address) : KeyedState Address Public :=
  { state with seq := Function.update state.seq address (state.seq address + 1) }

/-- `sub_balance`. -/
def subBalance (state : KeyedState Address Public) (address : Address) (decr : UInt64) :
    KeyResult Address (KeyedState Address Public) := do
  let stake ← Fault.mapError .stake (state.stake.subBalance address decr)
  pure { state with stake }

/-- `transfer_balance`: never to the address of a live regular key. -/
def transferBalance (state : KeyedState Address Public) (sender receiver : Address) (quantity : UInt64) :
    KeyResult Address (KeyedState Address Public) :=
  if state.regularAccountExistsAndNotNullByAddress receiver then
    Fault.fail .invalidTransferDestination
  else do
    let state ← state.subBalance sender quantity
    pure { state with stake := state.stake.addBalance receiver quantity }

/-- `kill_regular_account`. -/
def killRegularAccount (state : KeyedState Address Public) (key : Public) : KeyedState Address Public :=
  { state with regularAccount := Function.update state.regularAccount (publicToAddress key) none }

/-- `set_regular_key`: the owner is the signer, or the owner of the signer when
the signer is itself a live regular key. -/
def setRegularKey (state : KeyedState Address Public) (signerPublic regularKey : Public) :
    KeyResult Address (KeyedState Address Public) := do
  -- `get_regular_account_mut(signer_public).owner_public()` when it is not null
  let ownerPublic := (state.regularAccount (publicToAddress signerPublic)).getD signerPublic
  let ownerAddress := publicToAddress ownerPublic
  if state.regularAccountExistsAndNotNull publicToAddress regularKey then
    Fault.fail .regularKeyAlreadyInUse
  let regularAddress := publicToAddress regularKey
  if state.accountExistsAndNotNull regularAddress then
    Fault.fail .regularKeyAlreadyInUseAsPlatformAccount
  let state := match state.regularKey ownerAddress with
    | some prevRegularKey => state.killRegularAccount publicToAddress prevRegularKey
    | none => state
  pure { state with
    regularKey := Function.update state.regularKey ownerAddress (some regularKey)
    regularAccount := Function.update state.regularAccount regularAddress (some ownerPublic) }

/-- The fee payer of `apply_internal`: the owner of a live regular key, or else
the signer, whose master key signs only `SetRegularKey` once the account has a
regular key. -/
def feePayerOf (state : KeyedState Address Public) (signerPublic : Public) (masterKeyAllowed : Bool) :
    KeyResult Address Address :=
  match state.regularAccount (publicToAddress signerPublic) with
  | some ownerPublic => .ok (publicToAddress ownerPublic)
  | none =>
    let address := publicToAddress signerPublic
    if !masterKeyAllowed && (state.regularKey address).isSome then Fault.fail .cannotUseMasterKey
    else .ok address

end Accounts

/-- `apply_action` for the modelled actions: the stake handler gets the fee
payer and the signer's public key. -/
def applyAction (env : Stake.Environment Address Public Hash Signature Seal)
    (state : KeyedState Address Public) (action : KeyAction Address Public Hash Signature Schnorr)
    (feePayer : Address) (signerPublic : Public) : KeyResult Address (KeyedState Address Public) :=
  match action with
  | .pay receiver quantity => state.transferBalance feePayer receiver quantity
  | .setRegularKey key => state.setRegularKey env.publicToAddress signerPublic key
  | .custom action => do
      let stake ← Fault.mapError .stake (Stake.execute env action state.stake feePayer signerPublic)
      pure { state with stake }

/-- `TopLevelState::apply` with `apply_internal`: resolve the fee payer, check
its seq, charge the fee and run the action. -/
def apply (env : Stake.Environment Address Public Hash Signature Seal) (state : KeyedState Address Public)
    (tx : KeyTransaction Address Public Hash Signature Schnorr) (signerPublic : Public) :
    KeyResult Address (KeyedState Address Public) := do
  let feePayer ← state.feePayerOf env.publicToAddress signerPublic tx.action.isMasterKeyAllowed
  let seq := state.seq feePayer
  if tx.seq ≠ seq then
    Fault.fail (.stake (.invalidSeq seq tx.seq))
  let state := state.incSeq feePayer
  let state ← state.subBalance feePayer tx.fee
  state.applyAction env tx.action feePayer signerPublic

/-! ### What the checks keep -/

/-- What regular keys keep: (i) the regular account of an account's key names
the account's owner, (ii) every live regular account is the key of its owner's
account, and (iii) the platform account at the address of a live regular key
is null. -/
structure RegularKeysConsistent (publicToAddress : Public → Address) (state : KeyedState Address Public) :
    Prop where
  owned : ∀ address key, state.regularKey address = some key →
    ∃ ownerPublic, state.regularAccount (publicToAddress key) = some ownerPublic ∧
      publicToAddress ownerPublic = address
  referenced : ∀ address ownerPublic, state.regularAccount address = some ownerPublic →
    ∃ key, state.regularKey (publicToAddress ownerPublic) = some key ∧ publicToAddress key = address
  keyAccountNull : ∀ key, state.regularAccountExistsAndNotNull publicToAddress key = true →
    state.accountExistsAndNotNull (publicToAddress key) = false

/-! ### A report signed by a regular key -/

section Inversion

variable {env : Stake.Environment Address Public Hash Signature Seal}
variable {state state' : KeyedState Address Public}

/-- An accepted transaction: its fee payer, its seq, the state after the fee,
and the action on it. -/
theorem apply_eq_ok {tx : KeyTransaction Address Public Hash Signature Schnorr} {signerPublic : Public}
    (applied : state.apply env tx signerPublic = .ok state') :
    ∃ feePayer charged,
      state.feePayerOf env.publicToAddress signerPublic tx.action.isMasterKeyAllowed = .ok feePayer ∧
      tx.seq = state.seq feePayer ∧ (state.incSeq feePayer).subBalance feePayer tx.fee = .ok charged ∧
      charged.applyAction env tx.action feePayer signerPublic = .ok state' := by
  simp only [apply, Fault.bind_eq_ok] at applied
  obtain ⟨feePayer, resolved, rest⟩ := applied
  by_cases mismatch : tx.seq ≠ state.seq feePayer
  · rw [if_pos mismatch] at rest
    simp [Fault.fail] at rest
  · rw [if_neg mismatch, Fault.bind_eq_ok] at rest
    obtain ⟨charged, subtracted, acted⟩ := rest
    exact ⟨feePayer, charged, resolved, not_not.mp mismatch, subtracted, acted⟩

omit [LinearOrder Address] [DecidableEq Public] in
/-- Charging a fee changes the CCC balances only. -/
theorem subBalance_eq_ok {address : Address} {decr : UInt64}
    (subtracted : state.subBalance address decr = .ok state') :
    ∃ stake, state.stake.subBalance address decr = .ok stake ∧ state' = { state with stake } := by
  simp only [subBalance, Fault.bind_eq_ok, Fault.mapError_eq_ok, Fault.pure_eq_ok] at subtracted
  obtain ⟨stake, taken, saved⟩ := subtracted
  exact ⟨stake, taken, saved.symm⟩

/-- A custom action runs the stake handler on the stake records only. -/
theorem applyAction_custom_eq_ok {action : Stake.Action Address Hash Signature Schnorr}
    {feePayer : Address} {signerPublic : Public}
    (acted : state.applyAction env (.custom action) feePayer signerPublic = .ok state') :
    ∃ stake, Stake.execute env action state.stake feePayer signerPublic = .ok stake ∧
      state' = { state with stake } := by
  simp only [applyAction, Fault.bind_eq_ok, Fault.mapError_eq_ok, Fault.pure_eq_ok] at acted
  obtain ⟨stake, executed, saved⟩ := acted
  exact ⟨stake, executed, saved.symm⟩

end Inversion

/-- A `ReportDoubleVote` that a live regular key signs pays the deposit of the
banned candidate to the platform account at the key's own address, which the
key keeps: the account is no longer null. -/
theorem ban_credits_live_regular_key (env : Stake.Environment Address Public Hash Signature Seal)
    {state state' : KeyedState Address Public} (consistent : RegularKeysConsistent env.publicToAddress state)
    {regularKey : Public} (live : state.regularAccountExistsAndNotNull env.publicToAddress regularKey = true)
    {seq fee : UInt64} {message1 message2 : Consensus.ConsensusMessage Hash Schnorr}
    (applied : state.apply env ⟨seq, fee, .custom (.reportDoubleVote message1 message2)⟩ regularKey =
      .ok state')
    {criminal : Address} (nowBanned : criminal ∈ state'.stake.banned) (before : criminal ∉ state.stake.banned)
    {candidate : Stake.Candidate Public}
    (nominated : (Stake.Candidates.loadFromState state.stake).getCandidate env.publicToAddress criminal =
      some candidate)
    (deposited : candidate.deposit ≠ 0) :
    state'.stake.balance (env.publicToAddress regularKey) = candidate.deposit ∧
      state'.regularAccountExistsAndNotNull env.publicToAddress regularKey = true ∧
      ¬ RegularKeysConsistent env.publicToAddress state' := by
  obtain ⟨feePayer, charged, -, -, subtracted, acted⟩ := apply_eq_ok applied
  obtain ⟨chargedStake, taken, rfl⟩ := subBalance_eq_ok subtracted
  obtain ⟨stake, executed, rfl⟩ := applyAction_custom_eq_ok acted
  obtain ⟨parent, signer, -, -, banned⟩ := Stake.execute_reportDoubleVote_eq_ok executed
  -- the fee changes the CCC balances only, so the criminal is the banned candidate
  have kept := Stake.StakeState.subBalance_eq_ok taken
  have sameBanned : chargedStake.banned = state.stake.banned := by
    rw [kept]
    rfl
  have sameCandidates :
      Stake.Candidates.loadFromState chargedStake = Stake.Candidates.loadFromState state.stake := by
    rw [kept]
    rfl
  have isSigner : env.publicToAddress signer = criminal := by
    rw [(Stake.ban_banned env.publicToAddress banned).2, Finset.mem_insert, sameBanned] at nowBanned
    exact (nowBanned.resolve_right before).symm
  rw [← isSigner, ← sameCandidates] at nominated
  -- the account of the key held nothing before the fee, and pays none of it
  have empty : chargedStake.balance (env.publicToAddress regularKey) = 0 := by
    have null := consistent.keyAccountNull regularKey live
    simp only [accountExistsAndNotNull, Bool.or_eq_false_iff, bne_eq_false_iff_eq] at null
    exact Stake.StakeState.balance_subBalance_of_eq_zero taken null.1
  have credited : stake.balance (env.publicToAddress regularKey) = candidate.deposit := by
    rw [Stake.balance_ban env.publicToAddress banned nominated]
    simp [Stake.StakeState.addBalance, deposited, empty]
  have stillLive : { { state.incSeq feePayer with stake := chargedStake } with stake := stake }.regularAccountExistsAndNotNull
      env.publicToAddress regularKey = true := live
  refine ⟨credited, stillLive, fun after => ?_⟩
  have null := after.keyAccountNull regularKey stillLive
  simp [accountExistsAndNotNull, credited, deposited] at null

/-- A chain of one header, at term 0, whose validator set is the key 5. -/
def reportEnvironment : Stake.Environment ℕ ℕ ℕ Unit Unit :=
  ⟨id, fun _ _ _ => .error "",
    ⟨fun _ => none, fun _ => some ⟨0, 0, 0, 0, 0, ()⟩, fun _ => some 0, fun _ => none⟩, ⟨⟨[5]⟩⟩⟩

/-- Two prevotes of the key 5 at height 1 for different blocks, signed as
`Stake.signedBy` signs. -/
def reportMessage1 : Consensus.ConsensusMessage ℕ (ℕ × Consensus.VoteOn ℕ) :=
  ⟨⟨⟨1, 0, .prevote⟩, some 1⟩, (5, ⟨⟨1, 0, .prevote⟩, some 1⟩), 0⟩

def reportMessage2 : Consensus.ConsensusMessage ℕ (ℕ × Consensus.VoteOn ℕ) :=
  ⟨⟨⟨1, 0, .prevote⟩, some 2⟩, (5, ⟨⟨1, 0, .prevote⟩, some 2⟩), 0⟩

/-- The account 1, which has sent one transaction, with the regular key 2, and
the candidate 5 with a deposit of 7. -/
def keyedBeforeReport : KeyedState ℕ ℕ where
  stake := { Stake.StakeState.empty (fun address => if address = 1 then 10 else 0) ⟨0, none, 0, 0⟩ with
    candidates := [⟨5, 7, 0, []⟩] }
  seq := fun address => if address = 1 then 1 else 0
  regularKey := fun address => if address = 1 then some 2 else none
  regularAccount := fun address => if address = 2 then some 1 else none

theorem keyedBeforeReport_consistent : RegularKeysConsistent id keyedBeforeReport where
  owned := by
    intro address key found
    simp only [keyedBeforeReport, Option.ite_none_right_eq_some, Option.some.injEq] at found
    obtain ⟨rfl, rfl⟩ := found
    exact ⟨1, rfl, rfl⟩
  referenced := by
    intro address ownerPublic found
    simp only [keyedBeforeReport, Option.ite_none_right_eq_some, Option.some.injEq] at found
    obtain ⟨rfl, rfl⟩ := found
    exact ⟨2, rfl, rfl⟩
  keyAccountNull := by
    intro key live
    simp [regularAccountExistsAndNotNull, keyedBeforeReport] at live
    subst live
    rfl

/-- The report of the account 1, signed by its regular key 2. -/
def reportByRegularKey : KeyTransaction ℕ ℕ ℕ Unit (ℕ × Consensus.VoteOn ℕ) :=
  ⟨1, 0, .custom (.reportDoubleVote reportMessage1 reportMessage2)⟩

/-- The accounts after the report. -/
def keyedAfterReport : KeyedState ℕ ℕ :=
  ((keyedBeforeReport.apply reportEnvironment reportByRegularKey 2).toOption).getD keyedBeforeReport

theorem ban_credits_live_regular_key_of_report :
    Stake.verifyReportDoubleVote reportEnvironment Stake.signedBy reportMessage1 reportMessage2 = .ok () ∧
      RegularKeysConsistent id keyedBeforeReport ∧
      keyedBeforeReport.regularAccountExistsAndNotNull id 2 = true ∧
      keyedBeforeReport.apply reportEnvironment reportByRegularKey 2 = .ok keyedAfterReport ∧
      5 ∈ keyedAfterReport.stake.banned ∧ 5 ∉ keyedBeforeReport.stake.banned ∧
      (Stake.Candidates.loadFromState keyedBeforeReport.stake).getCandidate id 5 = some ⟨5, 7, 0, []⟩ ∧
      (7 : UInt64) ≠ 0 ∧
      keyedAfterReport.stake.balance 2 = 7 ∧ keyedAfterReport.regularAccountExistsAndNotNull id 2 = true ∧
      ¬ RegularKeysConsistent id keyedAfterReport :=
  have applied : keyedBeforeReport.apply reportEnvironment reportByRegularKey 2 = .ok keyedAfterReport := rfl
  have nowBanned : 5 ∈ keyedAfterReport.stake.banned := by decide
  have before : 5 ∉ keyedBeforeReport.stake.banned := by decide
  have nominated :
      (Stake.Candidates.loadFromState keyedBeforeReport.stake).getCandidate id 5 = some ⟨5, 7, 0, []⟩ := rfl
  ⟨rfl, keyedBeforeReport_consistent, rfl, applied, nowBanned, before, nominated, by decide,
    ban_credits_live_regular_key reportEnvironment keyedBeforeReport_consistent rfl applied nowBanned before
      nominated (by decide)⟩

end KeyedState

end State

end CodeChain
