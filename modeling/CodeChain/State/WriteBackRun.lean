import CodeChain.State.WriteBack

/-!
# Runs of a write-back cache

A state calls seven operations on a `WriteBack` cache: `get`, `get_mut` (whose
reference the caller changes), `create`, `remove`, `checkpoint`,
`discard_checkpoint` and `revert_to_checkpoint`.  Only `create` can stop, on
its assertion; none returns an `Err`.

Each operation refines its counterpart on a stack of snapshots of the reads
(`WriteBack.Refines`), so a whole run does.  When the checkpoints of a block
are properly nested, the block leaves the saved snapshots alone, and a revert
right after it, opened by a checkpoint of its own, gives back the reads the
cache had at that checkpoint, however many inner checkpoints the block merged
or reverted.
-/

namespace CodeChain

namespace State

namespace WriteBack

variable {Key Item : Type} [DecidableEq Key] [Inhabited Item]

/-- The operations a state makes on a cache.  `getMut key change` is a
`get_mut` followed by the caller's change of the item through the reference. -/
inductive Op (Key Item : Type)
  | get (key : Key)
  | getMut (key : Key) (change : Item → Item)
  | create (key : Key) (item : Item)
  | remove (key : Key)
  | checkpoint
  | discardCheckpoint
  | revertToCheckpoint

/-- The operations that open or close a checkpoint. -/
def Op.isCheckpointing : Op Key Item → Bool
  | .checkpoint | .discardCheckpoint | .revertToCheckpoint => true
  | _ => false

/-- One operation on the cache over the trie `db`.  The operations return no
`Err`; `create` panics when the key holds a cached item. -/
def exec (db : Key → Option Item) : Op Key Item → WriteBack Key Item →
    Except (Fault Empty) (WriteBack Key Item)
  | .get key, writeBack => .ok (writeBack.get db key).2
  | .getMut key change, writeBack =>
      let (item, writeBack) := writeBack.getMut db key
      .ok (writeBack.put key (change item))
  | .create key item, writeBack => writeBack.create key item
  | .remove key, writeBack => .ok (writeBack.remove key)
  | .checkpoint, writeBack => .ok writeBack.checkpoint
  | .discardCheckpoint, writeBack => .ok writeBack.discardCheckpoint
  | .revertToCheckpoint, writeBack => .ok writeBack.revertToCheckpoint

/-- The operations one after another; the run stops at the first panic. -/
def run (db : Key → Option Item) : List (Op Key Item) → WriteBack Key Item →
    Except (Fault Empty) (WriteBack Key Item)
  | [], writeBack => .ok writeBack
  | op :: ops, writeBack => do run db ops (← exec db op writeBack)

/-! ## What an operation does to the reads -/

/-- What an operation does to a stack of snapshots of the reads. -/
def Op.onStack : Op Key Item → Snapshots.Stack (Key → Option Item) →
    Snapshots.Stack (Key → Option Item)
  | .get _ => id
  | .getMut key change => Snapshots.Stack.update fun current =>
      Function.update current key (some (change ((current key).getD default)))
  | .create key item => Snapshots.Stack.update (Function.update · key (some item))
  | .remove key => Snapshots.Stack.update (Function.update · key none)
  | .checkpoint => Snapshots.Stack.checkpoint
  | .discardCheckpoint => Snapshots.Stack.discard
  | .revertToCheckpoint => Snapshots.Stack.revert

/-- The snapshots after a run of operations. -/
def runOnStack (ops : List (Op Key Item)) (stack : Snapshots.Stack (Key → Option Item)) :
    Snapshots.Stack (Key → Option Item) :=
  ops.foldl (fun stack op => op.onStack stack) stack

/-- An operation that opens or closes no checkpoint changes the current reads
only. -/
theorem Op.onStack_eq_update {op : Op Key Item} (changing : op.isCheckpointing = false) :
    ∃ change, op.onStack = Snapshots.Stack.update change := by
  cases op with
  | get key => exact ⟨id, rfl⟩
  | getMut key change =>
      exact ⟨fun current => Function.update current key (some (change ((current key).getD default))),
        rfl⟩
  | create key item => exact ⟨(Function.update · key (some item)), rfl⟩
  | remove key => exact ⟨(Function.update · key none), rfl⟩
  | checkpoint => cases changing
  | discardCheckpoint => cases changing
  | revertToCheckpoint => cases changing

section Refinement

variable {db : Key → Option Item} {writeBack after : WriteBack Key Item}
  {stack : Snapshots.Stack (Key → Option Item)}

/-- A write through a reference returned by `get_mut`: the change of the
item that `get_mut` read, or `Item::default()` when there was none. -/
theorem Refines.getMut_put (refines : Refines db writeBack stack) (key : Key)
    (change : Item → Item) :
    Refines db (((writeBack.getMut db key).2).put key (change (writeBack.getMut db key).1))
      ((Op.getMut key change).onStack stack) := by
  obtain ⟨read, recorded, loaded⟩ := refines.getMut key
  have written := loaded.put recorded (change (writeBack.getMut db key).1)
  have reads : (fun current => Function.update current key
        (some (change ((current key).getD default)))) stack.current =
      Function.update (Function.update stack.current key (some (writeBack.getMut db key).1)) key
        (some (change (writeBack.getMut db key).1)) := by
    rw [Function.update_idem, read]
  simpa only [Op.onStack, Snapshots.Stack.update, reads] using written

/-- One operation refines its counterpart on the snapshots. -/
theorem Refines.exec (refines : Refines db writeBack stack) {op : Op Key Item}
    (ran : WriteBack.exec db op writeBack = .ok after) : Refines db after (op.onStack stack) := by
  cases op with
  | get key =>
      cases ran
      exact (refines.get key).2
  | getMut key change =>
      cases ran
      exact refines.getMut_put key change
  | create key item => exact refines.create ran
  | remove key =>
      cases ran
      exact refines.remove key
  | checkpoint =>
      cases ran
      exact refines.checkpoint
  | discardCheckpoint =>
      cases ran
      exact refines.discardCheckpoint
  | revertToCheckpoint =>
      cases ran
      exact refines.revertToCheckpoint

/-- A run refines the run of the counterparts, step by step. -/
theorem Refines.run (refines : Refines db writeBack stack) {ops : List (Op Key Item)}
    (ran : WriteBack.run db ops writeBack = .ok after) :
    Refines db after (runOnStack ops stack) := by
  induction ops generalizing writeBack stack with
  | nil =>
      cases ran
      exact refines
  | cons op ops ih =>
      simp only [WriteBack.run, Fault.bind_eq_ok] at ran
      obtain ⟨next, stepped, rest⟩ := ran
      exact ih (refines.exec stepped) rest

end Refinement

/-! ## Properly nested checkpoints -/

/-- The runs whose checkpoints are properly nested: every discard and every
revert closes the newest checkpoint still open, and every checkpoint is closed. -/
inductive Nested : List (Op Key Item) → Prop
  | nil : Nested []
  | change {op : Op Key Item} {rest : List (Op Key Item)} :
      op.isCheckpointing = false → Nested rest → Nested (op :: rest)
  | commit {inner rest : List (Op Key Item)} :
      Nested inner → Nested rest → Nested (.checkpoint :: inner ++ .discardCheckpoint :: rest)
  | abort {inner rest : List (Op Key Item)} :
      Nested inner → Nested rest → Nested (.checkpoint :: inner ++ .revertToCheckpoint :: rest)

theorem runOnStack_append (first second : List (Op Key Item))
    (stack : Snapshots.Stack (Key → Option Item)) :
    runOnStack (first ++ second) stack = runOnStack second (runOnStack first stack) :=
  List.foldl_append

/-- A properly nested run is a balanced block: it leaves the saved snapshots
as it found them. -/
theorem Nested.balanced {ops : List (Op Key Item)} (nested : Nested ops) :
    Snapshots.Stack.Balanced (runOnStack ops) := by
  induction nested with
  | nil => exact .skip
  | @change op rest changing _ restBalanced =>
      obtain ⟨change, onStack⟩ := Op.onStack_eq_update changing
      have split : runOnStack (op :: rest) = runOnStack rest ∘ Snapshots.Stack.update change := by
        funext stack
        simp only [runOnStack, List.foldl_cons, Function.comp_apply, onStack]
      rw [split]
      exact .seq (.update change) restBalanced
  | @commit inner rest _ _ innerBalanced restBalanced =>
      have split : runOnStack (.checkpoint :: inner ++ .discardCheckpoint :: rest) =
          runOnStack rest ∘ fun stack => (runOnStack inner stack.checkpoint).discard := by
        funext stack
        rw [Function.comp_apply, runOnStack_append]
        rfl
      rw [split]
      exact .seq (.commit innerBalanced) restBalanced
  | @abort inner rest _ _ innerBalanced restBalanced =>
      have split : runOnStack (.checkpoint :: inner ++ .revertToCheckpoint :: rest) =
          runOnStack rest ∘ fun stack => (runOnStack inner stack.checkpoint).revert := by
        funext stack
        rw [Function.comp_apply, runOnStack_append]
        rfl
      rw [split]
      exact .seq (.abort innerBalanced) restBalanced

/-- Over a fixed trie, start a cache with `WriteBack::new` and run any
operations, leaving any checkpoints open.  A checkpoint, then a block whose
checkpoints are properly nested, then a revert, give back the reads of every
key that the cache had at the checkpoint. -/
theorem revertToCheckpoint_restores_reads (db : Key → Option Item)
    (opening inner : List (Op Key Item)) (nested : Nested inner) {atCheckpoint after : WriteBack Key Item}
    (opened : run db opening new = .ok atCheckpoint)
    (reverted : run db (.checkpoint :: inner ++ [.revertToCheckpoint]) atCheckpoint = .ok after) :
    read db after = read db atCheckpoint := by
  obtain ⟨stack, refines⟩ : ∃ stack, Refines db atCheckpoint stack :=
    ⟨_, (refines_new db).run opened⟩
  have block := refines.run reverted
  have restored : runOnStack (.checkpoint :: inner ++ [.revertToCheckpoint]) stack = stack := by
    rw [runOnStack_append]
    exact nested.balanced.revert_eq stack
  rw [restored] at block
  rw [block.read_eq, refines.read_eq]

/-- A trie holding 10 at key 1, and nothing else. -/
def exampleTrie (key : ℕ) : Option ℕ :=
  if key = 1 then some 10 else none

/-- A block that creates an item, merges an inner checkpoint that removed an
item, and reverts another that changed an item. -/
def exampleBlock : List (Op ℕ ℕ) :=
  [.create 2 5, .checkpoint, .remove 1, .discardCheckpoint, .checkpoint, .getMut 3 (· + 7),
    .revertToCheckpoint]

/-- The cache after a change of key 1 under a checkpoint left open. -/
def exampleAtCheckpoint : WriteBack ℕ ℕ :=
  match run exampleTrie [.checkpoint, .getMut 1 (· + 1)] new with
  | .ok writeBack => writeBack
  | .error _ => new

/-- The cache after the block, opened by a checkpoint and closed by a revert. -/
def exampleAfterBlock : WriteBack ℕ ℕ :=
  match run exampleTrie (.checkpoint :: exampleBlock ++ [.revertToCheckpoint]) exampleAtCheckpoint with
  | .ok writeBack => writeBack
  | .error _ => new

theorem revertToCheckpoint_restores_example_reads :
    read exampleTrie exampleAfterBlock = read exampleTrie exampleAtCheckpoint :=
  revertToCheckpoint_restores_reads exampleTrie [.checkpoint, .getMut 1 (· + 1)] exampleBlock
    (.change rfl (.commit (.change rfl .nil) (.abort (.change rfl .nil) .nil))) rfl rfl

end WriteBack

end State

end CodeChain
