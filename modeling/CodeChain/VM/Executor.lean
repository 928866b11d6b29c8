import CodeChain.Lib.Bytes
import CodeChain.Lib.Fault
import CodeChain.VM.Instruction

/-!
# The asset-script VM

`execute` (`vm/src/executor.rs`) unlocks an asset by running the unlock
script, pushes of the asset's parameters and the lock script as one program
over a stack of byte strings.  Each instruction goes on to the next or jumps
forward, so every run ends: with the result of `SUCCESS`, `FAIL` or `BURN`, by
running off the end of the program, where the top of the stack decides, or
with a `RuntimeError`.

The signature checks ask `PartialHashing::hash_partially` of the transaction,
or of the order on the input, for the hash the signatures sign.  That call is
the only way a script can panic: every other operation of the VM returns a
`RuntimeError` for a bad stack.

The hash functions, the signature check and the chain's time information are
parameters, and so are the types of the input, of its tracker and of the hash
a signature signs.
-/

namespace CodeChain

namespace VM

open Fault Bytes

/-- `ScriptResult`. -/
inductive ScriptResult where
  | fail
  | unlocked
  | burnt
  deriving DecidableEq, Repr

/-- `RuntimeError` of the VM. -/
inductive RuntimeError where
  | outOfMemory
  | indexOutOfBound
  | stackUnderflow
  | typeMismatch
  | invalidFilter
  | invalidSigCount
  | invalidTimelockType
  deriving DecidableEq, Repr

/-- `HashingError`. -/
inductive HashingError where
  | invalidFilter
  deriving DecidableEq, Repr

/-- `From<HashingError> for RuntimeError`. -/
def RuntimeError.ofHashingError : HashingError → RuntimeError
  | .invalidFilter => .invalidFilter

/-- A value on the stack: `Item(Vec<u8>)`. -/
abbrev Item := List UInt8

/-- `From<bool> for Item`. -/
def Item.ofBool : Bool → Item
  | true => [1]
  | false => []

/-- `From<Item> for bool`: some byte is not zero. -/
def Item.toBool (item : Item) : Bool :=
  item.any (· != 0)

/-- `Item::assert_len`. -/
def Item.assertLen (item : Item) (len : ℕ) : Except (Fault RuntimeError) Item :=
  if item.length = len then .ok item else fail .typeMismatch

/-- `Config`: the memory a stack may use. -/
structure Config where
  maxMemory : ℕ

/-- `Config::default`, with `DEFAULT_MAX_MEMORY`. -/
def Config.default : Config :=
  ⟨1024⟩

/-- `SIGNATURE_LENGTH` of an ECDSA signature. -/
def signatureLength : ℕ := 65

/-! ### The stack -/

/-- `Stack`: the items from the bottom up, as in the `Vec`, and the number of
bytes they hold. -/
structure Stack where
  stack : List Item
  memoryUsage : ℕ
  config : Config

/-- `Stack::new`. -/
def Stack.new (config : Config) : Stack :=
  ⟨[], 0, config⟩

/-- `Stack::push`: refused when the memory would exceed the limit. -/
def Stack.push (stack : Stack) (val : Item) : Except (Fault RuntimeError) Stack :=
  if stack.memoryUsage + val.length > stack.config.maxMemory then fail .outOfMemory
  else .ok { stack with memoryUsage := stack.memoryUsage + val.length, stack := stack.stack ++ [val] }

/-- `Stack::pop`. -/
def Stack.pop (stack : Stack) : Except (Fault RuntimeError) (Item × Stack) :=
  match stack.stack.getLast? with
  | some item =>
      .ok (item, { stack with
        stack := stack.stack.dropLast
        memoryUsage := stack.memoryUsage - item.length })
  | none => fail .stackUnderflow

/-- `Stack::len`. -/
def Stack.len (stack : Stack) : ℕ :=
  stack.stack.length

/-- `Stack::get`: the item at an index from the bottom. -/
def Stack.get (stack : Stack) (index : ℕ) : Except (Fault RuntimeError) Item :=
  match stack.stack[index]? with
  | some item => .ok item
  | none => fail .indexOutOfBound

/-- `Stack::remove`: take out the item at an index from the bottom. -/
def Stack.remove (stack : Stack) (index : ℕ) : Except (Fault RuntimeError) (Item × Stack) :=
  if inside : index < stack.stack.length then
    let item := stack.stack[index]
    .ok (item, { stack with
      stack := stack.stack.eraseIdx index
      memoryUsage := stack.memoryUsage - item.length })
  else fail .indexOutOfBound

/-- The loops of `CHKMULTISIG`: pop `count` items, each of `len` bytes, the
first popped first. -/
def Stack.popSized (len : ℕ) : ℕ → Stack → Except (Fault RuntimeError) (List Item × Stack)
  | 0, stack => .ok ([], stack)
  | count + 1, stack => do
    let (item, stack) ← stack.pop
    let item ← item.assertLen len
    let (items, stack) ← stack.popSized len count
    pure (item :: items, stack)

/-! ### Signatures and their tags -/

/-- `Tag` (`types/src/util/tag.rs`): which inputs and outputs a signature
signs. -/
structure Tag where
  signAllInputs : Bool
  signAllOutputs : Bool
  filterLen : ℕ
  filter : List UInt8
  bitvec : List UInt8

/-- `Tag::try_new`: the last byte holds the two flags and the length of the
filter before it, which may not start with a zero byte. -/
def Tag.tryNew (bitvec : List UInt8) : Except (Fault HashingError) Tag :=
  match bitvec.getLast? with
  | none => fail .invalidFilter
  | some tag =>
    let filter := bitvec.dropLast
    let filterLen := (tag >>> 2).toNat
    if filter.length ≠ filterLen then fail .invalidFilter
    else if filter.length ≠ 0 ∧ filter.head? = some 0 then fail .invalidFilter
    else .ok
      { signAllInputs := tag &&& 1 == 1
        signAllOutputs := (tag >>> 1) &&& 1 == 1
        filterLen := filterLen
        filter := filter
        bitvec := bitvec }

/-- `PartialHashing::hash_partially` of a transaction or an order: the hash a
signature with this tag signs for the input, which may be burnt. -/
abbrev PartialHashing (Input Hash : Type) :=
  Tag → Input → Bool → Except (Fault HashingError) Hash

/-- The hash functions and the signature check. -/
structure Crypto (Hash : Type) where
  blake256 : Item → Item
  sha256 : Item → Item
  ripemd160 : Item → Item
  keccak256 : Item → Item
  blake160 : Item → Item
  /-- `verify(public, signature, message) == Ok(true)`. -/
  verify : Item → Item → Hash → Bool

/-- `ChainTimeInfo`: how many blocks and seconds ago the transaction of a
tracker was confirmed, seen from the parent block. -/
structure ChainTimeInfo (Tracker : Type) where
  transactionBlockAge : Tracker → UInt64 → Option UInt64
  transactionTimeAge : Tracker → UInt64 → Option UInt64

/-- `check_multi_sig`: every signature, the last first, is matched by a later
public key than the one the signature before it matched, the keys tried from
the last. -/
def checkMultiSig {Hash : Type} (verify : Item → Item → Hash → Bool) (txHash : Hash)
    (pubkey signatures : List Item) : Bool :=
  go pubkey.reverse signatures.reverse
where
  /-- The keys and signatures in the order `Vec::pop` gives them. -/
  go : List Item → List Item → Bool
    | _, [] => true
    | keys, signature :: signatures =>
      match dropUntilVerified signature keys with
      | some keys => go keys signatures
      | none => false
  /-- Pop keys until one verifies the signature, and give the keys left. -/
  dropUntilVerified (signature : Item) : List Item → Option (List Item)
    | [] => none
    | key :: keys => if verify key signature txHash then some keys else dropUntilVerified signature keys

/-- `read_u64`: at most eight bytes, big-endian. -/
def readU64 (valueItem : Item) : Except (Fault RuntimeError) UInt64 :=
  if valueItem.length > 8 then fail .typeMismatch
  else .ok (UInt64.ofNat (bigEndian valueItem))

/-! The timelock types of `CHKTIMELOCK`. -/

def timelockTypeBlock : UInt8 := 0x01
def timelockTypeBlockAge : UInt8 := 0x02
def timelockTypeTime : UInt8 := 0x03
def timelockTypeTimeAge : UInt8 := 0x04

/-! ### One instruction -/

/-- What a run of `execute` is given besides the scripts: the primitives, what
the signatures sign, the input being unlocked and the tracker of the asset it
spends (`cur.prev_out.tracker`), whether it is burnt, and the parent block. -/
structure Environment (Input Tracker Hash : Type) where
  crypto : Crypto Hash
  tx : PartialHashing Input Hash
  cur : Input
  trackerOf : Input → Tracker
  burn : Bool
  client : ChainTimeInfo Tracker
  parentBlockNumber : UInt64
  parentBlockTimestamp : UInt64

/-- What one instruction leads to: the next stack and how many instructions to
skip, or the result it stops with. -/
inductive Next where
  | go (stack : Stack) (skip : ℕ)
  | stop (result : ScriptResult)

variable {Input Tracker Hash : Type} (environment : Environment Input Tracker Hash)

/-- The hash the signatures of a `CHKSIG` or `CHKMULTISIG` sign, for a tag
popped from the stack. -/
def signedHash (tagBytes : Item) : Except (Fault RuntimeError) Hash := do
  let tag ← mapError RuntimeError.ofHashingError (Tag.tryNew tagBytes)
  mapError RuntimeError.ofHashingError (environment.tx tag environment.cur environment.burn)

/-- Push a value and go to the next instruction. -/
def pushNext (stack : Stack) (value : Item) : Except (Fault RuntimeError) Next := do
  pure (.go (← stack.push value) 0)

/-- Replace the top of the stack by its image. -/
def mapTop (change : Item → Item) (stack : Stack) : Except (Fault RuntimeError) Next := do
  let (value, stack) ← stack.pop
  pushNext stack (change value)

/-- `CHKTIMELOCK`: whether the timelock of the given type has passed. -/
def timelockPassed (timelockType : UInt8) (value : UInt64) : Except (Fault RuntimeError) Bool :=
  if timelockType = timelockTypeBlock then .ok (environment.parentBlockNumber ≥ value)
  else if timelockType = timelockTypeBlockAge then
    .ok ((environment.client.transactionBlockAge (environment.trackerOf environment.cur)
      environment.parentBlockNumber).elim false (· ≥ value))
  else if timelockType = timelockTypeTime then .ok (environment.parentBlockTimestamp ≥ value)
  else if timelockType = timelockTypeTimeAge then
    .ok ((environment.client.transactionTimeAge (environment.trackerOf environment.cur)
      environment.parentBlockTimestamp).elim false (· ≥ value))
  else fail .invalidTimelockType

/-- One arm of the `match` in the loop of `execute`. -/
def step : Instruction → Stack → Except (Fault RuntimeError) Next
  | .nop, stack => .ok (.go stack 0)
  | .burn, _ => .ok (.stop .burnt)
  | .success, _ => .ok (.stop .unlocked)
  | .fail, _ => .ok (.stop .fail)
  | .not, stack => mapTop (fun value => Item.ofBool !value.toBool) stack
  | .eq, stack => do
    let (first, stack) ← stack.pop
    let (second, stack) ← stack.pop
    pushNext stack (Item.ofBool (first == second))
  | .jmp offset, stack => .ok (.go stack offset.toNat)
  | .jnz offset, stack => do
    let (condition, stack) ← stack.pop
    pure (.go stack (if condition.toBool then offset.toNat else 0))
  | .jz offset, stack => do
    let (condition, stack) ← stack.pop
    pure (.go stack (if !condition.toBool then offset.toNat else 0))
  | .push value, stack => pushNext stack [value]
  | .pop, stack => do
    let (_, stack) ← stack.pop
    pure (.go stack 0)
  | .pushB blob, stack => pushNext stack blob
  | .dup, stack => do
    let (top, stack) ← stack.pop
    let stack ← stack.push top
    pushNext stack top
  | .swap, stack => do
    let (first, stack) ← stack.pop
    let (second, stack) ← stack.pop
    let stack ← stack.push first
    pushNext stack second
  | .copy index, stack =>
    if stack.len ≤ index.toNat then fail .stackUnderflow
    else do
      let item ← stack.get (stack.len - 1 - index.toNat)
      pushNext stack item
  | .drop index, stack => do
    let (_, stack) ← stack.remove index.toNat
    pure (.go stack 0)
  | .chkSig, stack => do
    let (pubkey, stack) ← stack.pop
    let pubkey ← pubkey.assertLen 64
    let (tagBytes, stack) ← stack.pop
    let txHash ← signedHash environment tagBytes
    let (signature, stack) ← stack.pop
    let signature ← signature.assertLen signatureLength
    pushNext stack [if environment.crypto.verify pubkey signature txHash then 1 else 0]
  | .chkMultiSig, stack => do
    let (count, stack) ← stack.pop
    let n := ((← count.assertLen 1).headD 0).toNat
    let (pubkey, stack) ← stack.popSized 64 n
    let (count, stack) ← stack.pop
    let m := ((← count.assertLen 1).headD 0).toNat
    if m > n ∨ m = 0 ∨ m > 6 then fail .invalidSigCount
    let (signatures, stack) ← stack.popSized signatureLength m
    let (tagBytes, stack) ← stack.pop
    let txHash ← signedHash environment tagBytes
    pushNext stack
      [if checkMultiSig environment.crypto.verify txHash pubkey signatures then 1 else 0]
  | .blake256, stack => mapTop environment.crypto.blake256 stack
  | .sha256, stack => mapTop environment.crypto.sha256 stack
  | .ripemd160, stack => mapTop environment.crypto.ripemd160 stack
  | .keccak256, stack => mapTop environment.crypto.keccak256 stack
  | .blake160, stack => mapTop environment.crypto.blake160 stack
  | .chkTimelock timelockType, stack => do
    let (valueItem, stack) ← stack.pop
    let value ← readU64 valueItem
    pushNext stack (Item.ofBool (← timelockPassed environment timelockType value))

/-! ### The loop -/

/-- After the last instruction: unlocked when the top of the stack is true and
nothing is under it. -/
def finish (stack : Stack) : Except (Fault RuntimeError) ScriptResult := do
  let (result, stack) ← stack.pop
  if result.toBool && stack.len == 0 then pure .unlocked else pure .fail

/-- The loop of `execute` from a program counter.  A step moves the counter
forward by one more than it skips, so the loop ends. -/
def runFrom (script : List Instruction) (pc : ℕ) (stack : Stack) :
    Except (Fault RuntimeError) ScriptResult :=
  if running : pc < script.length then
    match step environment script[pc] stack with
    | .ok (.go stack skip) => runFrom script (pc + skip + 1) stack
    | .ok (.stop result) => .ok result
    | .error fault => .error fault
  else finish stack
termination_by script.length - pc

/-- `execute`: refuse an unlock script that does more than push or checks too
many signatures, then run the unlock script, the parameters pushed last first,
and the lock script. -/
def execute (unlock : List Instruction) (params : List Item) (lock : List Instruction)
    (config : Config) : Except (Fault RuntimeError) ScriptResult :=
  if !isValidUnlockScript unlock then .ok .fail
  else if hasExpensiveOpcodes unlock then .ok .fail
  else runFrom environment (unlock ++ (params.map Instruction.pushB).reverse ++ lock) 0 (Stack.new config)

/-! ### Where a script can panic

Every operation on the stack, the decoding of a tag and the reading of a
timelock end in a value or a `RuntimeError`.  Only the target's
`hash_partially` can panic, and a script panics only when it does. -/

section Panics

@[simp]
theorem Stack.push_not_panics (stack : Stack) (val : Item) : ¬ Panics (stack.push val) := by
  unfold Stack.push
  split
  · exact fail_not_panics
  · exact ok_not_panics

@[simp]
theorem Stack.pop_not_panics (stack : Stack) : ¬ Panics stack.pop := by
  unfold Stack.pop
  split
  · exact ok_not_panics
  · exact fail_not_panics

@[simp]
theorem Stack.get_not_panics (stack : Stack) (index : ℕ) : ¬ Panics (stack.get index) := by
  unfold Stack.get
  split
  · exact ok_not_panics
  · exact fail_not_panics

@[simp]
theorem Stack.remove_not_panics (stack : Stack) (index : ℕ) : ¬ Panics (stack.remove index) := by
  unfold Stack.remove
  split
  · exact ok_not_panics
  · exact fail_not_panics

@[simp]
theorem Item.assertLen_not_panics (item : Item) (len : ℕ) : ¬ Panics (item.assertLen len) := by
  unfold Item.assertLen
  split
  · exact ok_not_panics
  · exact fail_not_panics

@[simp]
theorem Stack.popSized_not_panics (len count : ℕ) (stack : Stack) :
    ¬ Panics (stack.popSized len count) := by
  induction count generalizing stack with
  | zero => exact ok_not_panics
  | succ count ih =>
    refine not_panics_bind (Stack.pop_not_panics stack) fun popped _ => ?_
    refine not_panics_bind (Item.assertLen_not_panics _ _) fun item _ => ?_
    exact not_panics_bind (ih _) fun _ _ => ok_not_panics

@[simp]
theorem Tag.tryNew_not_panics (bitvec : List UInt8) : ¬ Panics (Tag.tryNew bitvec) := by
  unfold Tag.tryNew
  split
  · exact fail_not_panics
  · dsimp only
    split_ifs
    · exact fail_not_panics
    · exact fail_not_panics
    · exact ok_not_panics

@[simp]
theorem readU64_not_panics (valueItem : Item) : ¬ Panics (readU64 valueItem) := by
  unfold readU64
  split
  · exact fail_not_panics
  · exact ok_not_panics

@[simp]
theorem timelockPassed_not_panics (timelockType : UInt8) (value : UInt64) :
    ¬ Panics (timelockPassed environment timelockType value) := by
  unfold timelockPassed
  split_ifs <;> first | exact ok_not_panics | exact fail_not_panics

/-- The target of the signatures does not panic for the input being unlocked,
whatever the tag. -/
def HashingSafe : Prop :=
  ∀ tag, ¬ Panics (environment.tx tag environment.cur environment.burn)

variable {environment}

theorem signedHash_not_panics (safe : HashingSafe environment) (tagBytes : Item) :
    ¬ Panics (signedHash environment tagBytes) := by
  unfold signedHash
  refine not_panics_bind (by simp) fun tag _ => ?_
  rw [mapError_panics]
  exact safe tag

theorem step_not_panics (safe : HashingSafe environment) (instruction : Instruction) (stack : Stack) :
    ¬ Panics (step environment instruction stack) := by
  cases instruction
  case copy index =>
    simp only [step]
    split_ifs
    · exact fail_not_panics
    · simp [pushNext, bind_panics]
  all_goals simp [step, pushNext, mapTop, bind_panics, signedHash_not_panics safe]
  -- what is left is `CHKMULTISIG`, whose count check fails without a panic
  intros
  split_ifs <;> simp [bind_panics, signedHash_not_panics safe]

theorem finish_not_panics (stack : Stack) : ¬ Panics (finish stack) := by
  unfold finish
  refine not_panics_bind (Stack.pop_not_panics stack) fun popped _ => ?_
  obtain ⟨result, rest⟩ := popped
  dsimp only
  split_ifs <;> exact ok_not_panics

/-- The loop panics only where one of its steps does. -/
theorem runFrom_not_panics (safe : HashingSafe environment) (script : List Instruction) (pc : ℕ)
    (stack : Stack) : ¬ Panics (runFrom environment script pc stack) := by
  fun_induction runFrom environment script pc stack with
  | case1 _ _ _ _ _ _ ih => exact ih
  | case2 => exact ok_not_panics
  | case3 pc stack running fault stepped =>
    rintro ⟨message, panicked⟩
    cases panicked
    exact step_not_panics safe script[pc] stack ⟨message, stepped⟩
  | case4 => exact finish_not_panics _

/-- A script panics only when the target of its signatures does. -/
theorem execute_not_panics (safe : HashingSafe environment) (unlock : List Instruction)
    (params : List Item) (lock : List Instruction) (config : Config) :
    ¬ Panics (execute environment unlock params lock config) := by
  unfold execute
  split_ifs
  · exact ok_not_panics
  · exact ok_not_panics
  · exact runFrom_not_panics safe _ 0 _

end Panics

/-! ### Running a program step by step -/

section Run

variable {environment} {script : List Instruction} {pc : ℕ} {stack : Stack}

theorem runFrom_of_go (running : pc < script.length) {next : Stack} {skip : ℕ}
    (stepped : step environment script[pc] stack = .ok (.go next skip)) :
    runFrom environment script pc stack = runFrom environment script (pc + skip + 1) next := by
  rw [runFrom, dif_pos running, stepped]

theorem runFrom_panics_of_step (running : pc < script.length)
    (panicked : Panics (step environment script[pc] stack)) :
    Panics (runFrom environment script pc stack) := by
  obtain ⟨message, stepped⟩ := panicked
  rw [runFrom, dif_pos running, stepped]
  exact ⟨message, rfl⟩

theorem pushNext_of_fits {value : Item}
    (fits : stack.memoryUsage + value.length ≤ stack.config.maxMemory) :
    pushNext stack value = .ok (.go { stack with
      memoryUsage := stack.memoryUsage + value.length
      stack := stack.stack ++ [value] } 0) := by
  simp [pushNext, Stack.push, Nat.not_lt.2 fits, pure, Except.pure, bind, Except.bind]

theorem Stack.pop_of_eq {rest : List Item} {top : Item} (layout : stack.stack = rest ++ [top]) :
    stack.pop = .ok (top, { stack with stack := rest, memoryUsage := stack.memoryUsage - top.length }) := by
  simp [Stack.pop, layout]

@[simp]
theorem Stack.pop_mk (rest : List Item) (top : Item) (memoryUsage : ℕ) (config : Config) :
    (Stack.mk (rest ++ [top]) memoryUsage config).pop =
      .ok (top, ⟨rest, memoryUsage - top.length, config⟩) :=
  Stack.pop_of_eq rfl

/-- A `CHKSIG` whose public key and tag are on the stack asks the target for
the hash of the tag, and panics with it. -/
theorem step_chkSig_panics {rest : List Item} {tagBytes pubkey : Item}
    (layout : stack.stack = rest ++ [tagBytes, pubkey]) (sized : pubkey.length = 64) {tag : Tag}
    (parsed : Tag.tryNew tagBytes = .ok tag)
    (panicked : Panics (environment.tx tag environment.cur environment.burn)) :
    Panics (step environment .chkSig stack) := by
  obtain ⟨message, hashed⟩ := panicked
  have layoutTop : stack.stack = (rest ++ [tagBytes]) ++ [pubkey] := by simp [layout]
  refine ⟨message, ?_⟩
  simp [step, Stack.pop_of_eq layoutTop, Item.assertLen, sized, signedHash, parsed, hashed, mapError,
    bind, Except.bind]

end Run

end VM

end CodeChain
