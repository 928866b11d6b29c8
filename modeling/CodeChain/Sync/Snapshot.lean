import CodeChain.Lib.Fault
import CodeChain.Lib.Worklist

/-!
# State snapshots

`write_snapshot` cuts the state trie under a root into chunk files: the head
chunk holds the root and its children, and every grandchild gets a chunk of its
whole subtree.  `read_snapshot` reads them back into a database: it checks each
pair of a chunk against the hash of its value, takes one reference from every
key no node of the chunk names, checks the head's shape, and reads a chunk for
every key the trie built so far misses, which must then miss nothing.

The model keeps the trie nodes as `Node::decoded` gives them, the journal the
chunks are read into (an `ArchiveDB`, whose `MemoryDB` overlay counts
references), and the database as a map.  A chunk file is the list of pairs it
encodes: the RLP and snappy layers are not modelled, nor is the panic of
`Node::decoded` on bytes that are no RLP of a node.  `blake256` and the decoder
are the parameters of a `Codec`.  The loops that walk the trie need not end and
run with fuel; a computation that runs out is `none`.

`is_deeper_than` answers `false` on every path, so the head check never rejects
a head, however deep its nodes (`isDeeperThan_ne_true`).  What `read_snapshot`
accepts leaves every node the root reaches in the database under the hash of
its value (`readSnapshot_reaches_keyed`).
-/

namespace CodeChain

namespace Sync

namespace Snapshot

/-- Bytes, as the database and RLP hold them. -/
abbrev Bytes := List UInt8

/-- `NULL_RLP`, the RLP of the empty string. -/
def nullRlp : Bytes := [0x80]

/-- `cmerkle::Node`: a leaf, with the rest of its key's path and its value, or a
branch, with the part of the path it spans and its sixteen child slots. -/
inductive Node (Hash : Type) where
  | leaf (nibbles : List (Fin 16)) (value : Bytes)
  | branch (nibbles : List (Fin 16)) (children : Vector (Option Hash) 16)
  deriving DecidableEq

/-- The children a node names: `children.iter().filter_map(|child| *child)` for
a branch, none for a leaf. -/
def Node.childKeys {Hash : Type} : Node Hash → List Hash
  | leaf .. => []
  | branch _ children => children.toList.filterMap id

/-- What the snapshot code takes from `ccrypto` and `cmerkle`: `blake256`, and
`Node::decoded`, which reads `NULL_RLP` as no node. -/
structure Codec (Hash : Type) where
  blake256 : Bytes → Hash
  decoded : Bytes → Option (Node Hash)
  decoded_nullRlp : decoded nullRlp = none

variable {Hash : Type} (codec : Codec Hash)

/-- `BLAKE_NULL_RLP`. -/
def Codec.blakeNullRlp : Hash :=
  codec.blake256 nullRlp

/-- The children the node of a value names; a value that is no node names none. -/
def Codec.childKeys (value : Bytes) : List Hash :=
  match codec.decoded value with
  | some node => node.childKeys
  | none => []

/-- The state column of a `KeyValueDB`. -/
abbrev Store (Hash : Type) := Hash → Option Bytes

/-- The snapshot directory: the file named after a root holds the pairs of its
chunk. -/
abbrev Files (Hash : Type) := Hash → Option (List (Hash × Bytes))

/-- The two `BaseDataError`s of `ArchiveDB::inject`, as `UtilError`s. -/
inductive UtilError (Hash : Type) where
  | alreadyExists (key : Hash)
  | negativelyReferencedHash (key : Hash)
  deriving DecidableEq

/-- `snapshot::error::Error`.  `DBError` is not modelled: the database here
never fails; `FileError` carries the kind of a missing file. -/
inductive Error (Hash : Type) where
  | nodeNotFound (key : Hash)
  | syncError (reason : String)
  | fileError
  | utilError (error : UtilError Hash)
  deriving DecidableEq

/-- `MemoryDB`: values with reference counts, which removals may drive below
zero. -/
abbrev MemoryDB (Hash : Type) := AList fun _ : Hash => Bytes × ℤ

/-- The journal of `journaldb::new(backing, Algorithm::Archive, COL_STATE)`: an
`ArchiveDB`, of which this is the overlay.  Its backing database is the live
one, passed to every read. -/
abbrev ArchiveDB (Hash : Type) := MemoryDB Hash

variable [DecidableEq Hash]

namespace MemoryDB

/-- `MemoryDB::raw`: an entry with its count; the key of `NULL_RLP` always
holds it, once. -/
def raw (memory : MemoryDB Hash) (key : Hash) : Option (Bytes × ℤ) :=
  if key = codec.blakeNullRlp then some (nullRlp, 1) else AList.lookup key memory

/-- `MemoryDB::insert`: the key of the value, with one more reference to it.
An entry whose references were all removed takes the new value; `NULL_RLP` is
never stored. -/
def insert (memory : MemoryDB Hash) (value : Bytes) : Hash × MemoryDB Hash :=
  if value = nullRlp then (codec.blakeNullRlp, memory)
  else
    let key := codec.blake256 value
    match AList.lookup key memory with
    | some (old, rc) => (key, AList.insert key (if rc ≤ 0 then value else old, rc + 1) memory)
    | none => (key, AList.insert key (value, 1) memory)

/-- `MemoryDB::remove`: one reference fewer; a key it does not hold gets the
count `-1`. -/
def remove (memory : MemoryDB Hash) (key : Hash) : MemoryDB Hash :=
  if key = codec.blakeNullRlp then memory
  else
    match AList.lookup key memory with
    | some (value, rc) => AList.insert key (value, rc - 1) memory
    | none => AList.insert key ([], -1) memory

end MemoryDB

namespace ArchiveDB

/-- `ArchiveDB::get`: a referenced entry of the overlay, else the database. -/
def get (journal : ArchiveDB Hash) (backing : Store Hash) (key : Hash) : Option Bytes :=
  match MemoryDB.raw codec journal key with
  | some (value, rc) => if 0 < rc then some value else backing key
  | none => backing key

/-- One entry of the overlay `inject` drains.  A referenced entry is put, and
the database must not hold its key yet; an entry removed more often than
inserted is deleted, and the database must hold it.  The checks read the
database as it was before the transaction. -/
def injectEntry (backing written : Store Hash) (entry : Σ _ : Hash, Bytes × ℤ) :
    Except (Fault (Error Hash)) (Store Hash) := do
  let written ← if 0 < entry.2.2 then do
      Fault.failIf ((backing entry.1).isSome = true) (.utilError (.alreadyExists entry.1))
      pure (Function.update written entry.1 (some entry.2.1))
    else pure written
  if entry.2.2 < 0 then do
    Fault.assertEq (-1) entry.2.2
    Fault.failIf ((backing entry.1).isNone = true) (.utilError (.negativelyReferencedHash entry.1))
    pure (Function.update written entry.1 none)
  else pure written

/-- `ArchiveDB::inject`, followed by `write_buffered` of its transaction: the
database with the overlay written into it. -/
def inject (journal : ArchiveDB Hash) (backing : Store Hash) : Except (Fault (Error Hash)) (Store Hash) :=
  journal.entries.foldlM (injectEntry backing) backing

end ArchiveDB

/-- What a `HashDB` over the database reads, as `TrieDB` and a drained journal
do. -/
def hashView (backing : Store Hash) : Hash → Option Bytes :=
  ArchiveDB.get codec ∅ backing

/-- `Chunk`: the journal a chunk file was read into, and the keys it inserted
that no node of the chunk names. -/
structure Chunk (Hash : Type) where
  journal : ArchiveDB Hash
  neverReferencedKeys : List Hash

/-- The state of `read_chunk`'s loop: the journal, and `inserted_keys` and
`referenced_keys`, two sets kept as lists without repeats. -/
structure Reading (Hash : Type) where
  journal : ArchiveDB Hash
  insertedKeys : List Hash
  referencedKeys : List Hash

/-- One pair of a chunk file: its value must be a node, whose children are then
referenced, and its key the hash the journal inserts the value under. -/
def readPair (reading : Reading Hash) (pair : Hash × Bytes) : Except (Fault (Error Hash)) (Reading Hash) := do
  let node ← match codec.decoded pair.2 with
    | some node => pure node
    | none => Fault.fail (.syncError "Chunk condtains an invalid node")
  let referencedKeys := node.childKeys.foldl (fun keys child => keys.insert child) reading.referencedKeys
  -- `journal.insert(&value)` both stores the value and answers its key
  let inserted := MemoryDB.insert codec reading.journal pair.2
  Fault.failIf (inserted.1 ≠ pair.1) (.syncError "Chunk contains an invalid key for a value")
  pure ⟨inserted.2, reading.insertedKeys.insert inserted.1, referencedKeys⟩

/-- `Snapshot::read_chunk`: the chunk file of `root` read into a fresh journal,
the root counting as referenced. -/
def readChunk (files : Files Hash) (root : Hash) : Except (Fault (Error Hash)) (Chunk Hash) := do
  let pairs ← match files root with
    | some pairs => pure pairs
    | none => Fault.fail .fileError
  let reading ← pairs.foldlM (readPair codec) ⟨∅, [], [root]⟩
  pure ⟨reading.journal, reading.insertedKeys.filter fun key => key ∉ reading.referencedKeys⟩

namespace Chunk

/-- `Chunk::purge`: each never-referenced key loses one reference.  The `bool`
it returns is only logged. -/
def purge (chunk : Chunk Hash) : Chunk Hash :=
  ⟨chunk.neverReferencedKeys.foldl (MemoryDB.remove codec) chunk.journal, []⟩

/-- What the chunk's journal reads over the database. -/
def view (chunk : Chunk Hash) (backing : Store Hash) : Hash → Option Bytes :=
  ArchiveDB.get codec chunk.journal backing

end Chunk

section Walks

variable (view : Hash → Option Bytes)

/-- One turn of `is_deeper_than`'s loop: a key the journal lacks is skipped, a
node at `max_depth` or deeper returns `false`, and any other node has its
children pushed one level down. -/
def deeperTurn (maxDepth : ℕ) (item : Hash × ℕ) (_ : Unit) : Except Bool (Unit × List (Hash × ℕ)) :=
  match view item.1 with
  | none => .ok ((), [])
  | some value =>
    if maxDepth ≤ item.2 then .error false
    else .ok ((), (codec.childKeys value).map fun child => (child, item.2 + 1))

/-- `Chunk::is_deeper_than`, for at most `fuel` turns: `false` when the loop
ends. -/
def isDeeperThan (fuel : ℕ) (root : Hash) (maxDepth : ℕ) : Option Bool :=
  (Worklist.run (deeperTurn codec view maxDepth) fuel [(root, 0)] ()).map fun
    | .ok () => false
    | .error answer => answer

/-- One turn of `missing_keys`'s loop: a key the journal lacks is a result, and
a node has its children pushed. -/
def missingTurn (key : Hash) (result : List Hash) : Except Empty (List Hash × List Hash) :=
  match view key with
  | none => .ok (result ++ [key], [])
  | some value => .ok (result, codec.childKeys value)

/-- `Chunk::missing_keys`, for at most `fuel` turns. -/
def missingKeys (fuel : ℕ) (root : Hash) : Option (List Hash) :=
  (Worklist.run (missingTurn codec view) fuel [root] []).map fun
    | .ok result => result
    | .error never => never.elim

/-- `key` is `depth` child steps below `root` in what `view` reads. -/
inductive Below (root : Hash) : Hash → ℕ → Prop
  | root : Below root root 0
  | child {parent : Hash} {depth : ℕ} {value : Bytes} {key : Hash} :
      Below root parent depth → view parent = some value → key ∈ codec.childKeys value →
      Below root key (depth + 1)

end Walks

/-- A chunk read for a key the head misses: read, purged, checked to miss
nothing, and written. -/
def readChunkInto (fuel : ℕ) (files : Files Hash) (db : Store Hash) (chunkRoot : Hash) :
    ExceptT (Fault (Error Hash)) Option (Store Hash) := do
  let chunk := (← readChunk codec files chunkRoot).purge codec
  if !(← missingKeys codec (chunk.view codec db) fuel chunkRoot).isEmpty then
    throw (.error (.syncError "Chunk is an incomplete trie"))
  ArchiveDB.inject chunk.journal db

/-- `Snapshot::read_snapshot`, each walk running for at most `fuel` turns. -/
def readSnapshot (fuel : ℕ) (files : Files Hash) (db : Store Hash) (root : Hash) :
    ExceptT (Fault (Error Hash)) Option (Store Hash) := do
  let head := (← readChunk codec files root).purge codec
  if ← isDeeperThan codec (head.view codec db) fuel root 2 then
    throw (.error (.syncError "Head chunk has an invalid shape"))
  let db ← ArchiveDB.inject head.journal db
  -- the head's journal was drained into `db`, and reads `db` alone from here on
  (← missingKeys codec (hashView codec db) fuel root).foldlM (readChunkInto codec fuel files) db

/-! ### The head check -/

omit [DecidableEq Hash] in
/-- `is_deeper_than` never answers `true`: both its `return` and its end give
`false`. -/
theorem isDeeperThan_ne_true (view : Hash → Option Bytes) (fuel : ℕ) (root : Hash) (maxDepth : ℕ) :
    isDeeperThan codec view fuel root maxDepth ≠ some true := by
  unfold isDeeperThan
  cases ran : Worklist.run (deeperTurn codec view maxDepth) fuel [(root, 0)] () with
  | none => simp
  | some outcome =>
    cases outcome with
    | ok => simp
    | error answer =>
      -- an early stop returns what one turn returned, and every turn returns `false`
      obtain ⟨item, _, turned⟩ := (Worklist.runs_of_run ran).exists_visit_of_error
      have answered : answer = false := by
        unfold deeperTurn at turned
        split at turned
        · cases turned
        · split at turned
          · cases turned
            rfl
          · cases turned
      simp [answered]

/-! ### The journal's counts -/

namespace MemoryDB

/-- Every referenced entry is stored under the hash of its value. -/
def Keyed (memory : MemoryDB Hash) : Prop :=
  ∀ key value rc, AList.lookup key memory = some (value, rc) → 0 < rc → codec.blake256 value = key

/-- No entry's count is below `bound`. -/
def AtLeast (bound : ℤ) (memory : MemoryDB Hash) : Prop :=
  ∀ key value rc, AList.lookup key memory = some (value, rc) → bound ≤ rc

/-- `insert` answers the hash of the value, `NULL_RLP` included. -/
@[simp]
theorem fst_insert (memory : MemoryDB Hash) (value : Bytes) :
    (insert codec memory value).1 = codec.blake256 value := by
  unfold insert
  split
  · rename_i null
    rw [null]
    rfl
  · dsimp only
    split <;> rfl

theorem lookup_insert_of_ne {memory : MemoryDB Hash} {value : Bytes} {key : Hash}
    (other : key ≠ codec.blake256 value) : AList.lookup key (insert codec memory value).2 = AList.lookup key memory := by
  unfold insert
  split
  · rfl
  · dsimp only
    split <;> exact AList.lookup_insert_ne other

/-- The entry an insert leaves under the value's hash: the value, or the value
it held while still referenced, with one more reference. -/
theorem lookup_insert_self {memory : MemoryDB Hash} {value : Bytes} (stored : value ≠ nullRlp) :
    ∃ kept rc, AList.lookup (codec.blake256 value) (insert codec memory value).2 = some (kept, rc + 1) ∧
      (AList.lookup (codec.blake256 value) memory = some (kept, rc) ∧ 0 < rc ∨
        kept = value ∧ (rc = 0 ∨ ∃ old, AList.lookup (codec.blake256 value) memory = some (old, rc) ∧ rc ≤ 0)) := by
  unfold insert
  rw [if_neg stored]
  dsimp only
  split
  · rename_i old rc found
    refine ⟨if rc ≤ 0 then value else old, rc, AList.lookup_insert _, ?_⟩
    by_cases removed : rc ≤ 0
    · exact .inr ⟨if_pos removed, .inr ⟨old, found, removed⟩⟩
    · rw [if_neg removed]
      exact .inl ⟨found, by omega⟩
  · exact ⟨value, 0, AList.lookup_insert _, .inr ⟨rfl, .inl rfl⟩⟩

theorem mem_insert_of_mem {memory : MemoryDB Hash} {key : Hash} (held : key ∈ memory) (value : Bytes) :
    key ∈ (insert codec memory value).2 := by
  unfold insert
  split
  · exact held
  · dsimp only
    split <;> exact (AList.mem_insert _).mpr (.inr held)

theorem mem_insert_self {memory : MemoryDB Hash} {value : Bytes} (stored : value ≠ nullRlp) :
    codec.blake256 value ∈ (insert codec memory value).2 := by
  obtain ⟨kept, rc, entry, _⟩ := @lookup_insert_self _ codec _ memory _ stored
  exact AList.lookup_isSome.mp (by rw [entry]; rfl)

theorem Keyed.insert {memory : MemoryDB Hash} (keyed : Keyed codec memory) (value : Bytes) :
    Keyed codec (insert codec memory value).2 := by
  intro key kept rc found positive
  by_cases same : key = codec.blake256 value
  · by_cases null : value = nullRlp
    · -- `NULL_RLP` is never stored: the journal is as it was
      rw [MemoryDB.insert, if_pos null] at found
      exact keyed key kept rc found positive
    · subst same
      obtain ⟨stored, count, entry, earlier⟩ := lookup_insert_self codec null
      rw [entry, Option.some_inj, Prod.mk.injEq] at found
      obtain ⟨rfl, rfl⟩ := found
      rcases earlier with ⟨old, referenced⟩ | ⟨rfl, _⟩
      · exact keyed _ _ _ old referenced
      · rfl
  · rw [lookup_insert_of_ne codec same] at found
    exact keyed key kept rc found positive

theorem AtLeast.insert {bound : ℤ} {memory : MemoryDB Hash} (atLeast : AtLeast bound memory) (small : bound ≤ 1)
    (value : Bytes) : AtLeast bound (insert codec memory value).2 := by
  intro key kept rc found
  by_cases same : key = codec.blake256 value
  · by_cases null : value = nullRlp
    · rw [MemoryDB.insert, if_pos null] at found
      exact atLeast key kept rc found
    · subst same
      obtain ⟨stored, count, entry, earlier⟩ := lookup_insert_self codec null
      rw [entry, Option.some_inj, Prod.mk.injEq] at found
      obtain ⟨rfl, rfl⟩ := found
      rcases earlier with ⟨old, _⟩ | ⟨_, fresh | ⟨old, before, _⟩⟩
      · have := atLeast _ _ _ old
        omega
      · omega
      · have := atLeast _ _ _ before
        omega
  · rw [lookup_insert_of_ne codec same] at found
    exact atLeast key kept rc found

theorem lookup_remove_of_ne {memory : MemoryDB Hash} {removed key : Hash} (other : key ≠ removed) :
    AList.lookup key (remove codec memory removed) = AList.lookup key memory := by
  unfold remove
  split
  · rfl
  · split <;> exact AList.lookup_insert_ne other

theorem lookup_remove_self {memory : MemoryDB Hash} {key : Hash} (stored : key ≠ codec.blakeNullRlp)
    {value : Bytes} {rc : ℤ} (found : AList.lookup key memory = some (value, rc)) :
    AList.lookup key (remove codec memory key) = some (value, rc - 1) := by
  rw [remove, if_neg stored, found]
  exact AList.lookup_insert _

theorem Keyed.remove {memory : MemoryDB Hash} (keyed : Keyed codec memory) (removed : Hash) :
    Keyed codec (remove codec memory removed) := by
  intro key kept rc found positive
  by_cases same : key = removed
  · subst same
    unfold MemoryDB.remove at found
    split at found
    · exact keyed key kept rc found positive
    · split at found
      · rename_i count before
        rw [AList.lookup_insert, Option.some_inj, Prod.mk.injEq] at found
        obtain ⟨rfl, rfl⟩ := found
        exact keyed _ _ _ before (by omega)
      · rw [AList.lookup_insert, Option.some_inj, Prod.mk.injEq] at found
        omega
  · rw [lookup_remove_of_ne codec same] at found
    exact keyed key kept rc found positive

theorem Keyed.foldl_remove {memory : MemoryDB Hash} (keyed : Keyed codec memory) (keys : List Hash) :
    Keyed codec (keys.foldl (MemoryDB.remove codec) memory) := by
  induction keys generalizing memory with
  | nil => exact keyed
  | cons key keys ih => exact ih (keyed.remove codec key)

/-- Taking one reference from each of distinct keys that each hold one keeps
every count at zero or above. -/
theorem AtLeast.foldl_remove {memory : MemoryDB Hash} (atLeast : AtLeast 0 memory) {keys : List Hash}
    (distinct : keys.Nodup)
    (referenced : ∀ key ∈ keys, key = codec.blakeNullRlp ∨ ∃ value rc, AList.lookup key memory = some (value, rc) ∧ 1 ≤ rc) :
    AtLeast 0 (keys.foldl (remove codec) memory) := by
  induction keys generalizing memory with
  | nil => exact atLeast
  | cons first keys ih =>
    rw [List.nodup_cons] at distinct
    rw [List.foldl_cons]
    -- the first key loses its reference, and the others keep theirs
    have removedOnce : AtLeast 0 (remove codec memory first) := by
      intro key value rc found
      by_cases same : key = first
      · subst same
        rcases referenced key List.mem_cons_self with null | ⟨held, count, before, positive⟩
        · rw [remove, if_pos null] at found
          exact atLeast key value rc found
        · by_cases null : key = codec.blakeNullRlp
          · rw [remove, if_pos null] at found
            exact atLeast key value rc found
          · rw [lookup_remove_self codec null before, Option.some_inj, Prod.mk.injEq] at found
            omega
      · rw [lookup_remove_of_ne codec same] at found
        exact atLeast key value rc found
    refine ih removedOnce distinct.2 fun key member => ?_
    have other : key ≠ first := fun same => distinct.1 (same ▸ member)
    rw [lookup_remove_of_ne codec other]
    exact referenced key (List.mem_cons_of_mem first member)

end MemoryDB

/-! ### Reading a chunk -/

/-- What one pair does: its value is a node, its key is the value's hash, and
the journal inserts the value. -/
theorem readPair_eq_ok {reading next : Reading Hash} {pair : Hash × Bytes}
    (read : readPair codec reading pair = .ok next) :
    ∃ node, codec.decoded pair.2 = some node ∧ codec.blake256 pair.2 = pair.1 ∧
      next = ⟨(MemoryDB.insert codec reading.journal pair.2).2, reading.insertedKeys.insert pair.1,
        node.childKeys.foldl (fun keys child => keys.insert child) reading.referencedKeys⟩ := by
  unfold readPair at read
  split at read
  · rename_i node decodes
    simp only [Fault.bind_eq_ok, Fault.failIf_eq_ok, Fault.pure_eq_ok, MemoryDB.fst_insert, not_not] at read
    obtain ⟨_, rfl, _, keyed, rfl⟩ := read
    exact ⟨_, decodes, keyed, by rw [keyed]⟩
  · simp [Fault.fail] at read

/-- What `read_chunk`'s loop keeps: every entry of the journal is keyed by its
value's hash and referenced, and the keys inserted, without repeats, are held by
the journal or are the key of `NULL_RLP`. -/
structure Reading.Sound (reading : Reading Hash) : Prop where
  keyed : MemoryDB.Keyed codec reading.journal
  referenced : MemoryDB.AtLeast 1 reading.journal
  distinct : reading.insertedKeys.Nodup
  held : ∀ key ∈ reading.insertedKeys, key = codec.blakeNullRlp ∨ key ∈ reading.journal

theorem Reading.Sound.readPair {reading next : Reading Hash} (sound : reading.Sound codec) {pair : Hash × Bytes}
    (read : readPair codec reading pair = .ok next) : next.Sound codec := by
  obtain ⟨node, _, keyOfValue, rfl⟩ := readPair_eq_ok codec read
  refine ⟨sound.keyed.insert codec pair.2, sound.referenced.insert codec le_rfl pair.2, sound.distinct.insert,
    fun key member => ?_⟩
  rcases List.mem_insert_iff.mp member with rfl | earlier
  · -- the key just inserted: the value is stored, unless it is `NULL_RLP`
    by_cases null : pair.2 = nullRlp
    · left
      rw [← keyOfValue, null]
      rfl
    · right
      rw [← keyOfValue]
      exact MemoryDB.mem_insert_self codec null
  · rcases sound.held key earlier with null | held
    · exact .inl null
    · exact .inr (MemoryDB.mem_insert_of_mem codec held pair.2)

/-- What `read_chunk` reads: a journal whose entries are keyed by their values'
hashes and referenced, and never-referenced keys, without repeats, each held by
the journal or the key of `NULL_RLP`. -/
theorem readChunk_sound {files : Files Hash} {root : Hash} {chunk : Chunk Hash}
    (read : readChunk codec files root = .ok chunk) :
    MemoryDB.Keyed codec chunk.journal ∧ MemoryDB.AtLeast 1 chunk.journal ∧ chunk.neverReferencedKeys.Nodup ∧
      ∀ key ∈ chunk.neverReferencedKeys, key = codec.blakeNullRlp ∨ key ∈ chunk.journal := by
  unfold readChunk at read
  split at read
  · rename_i pairs _
    simp only [Fault.bind_eq_ok, Fault.pure_eq_ok] at read
    obtain ⟨_, rfl, reading, loop, rfl⟩ := read
    have fresh : (⟨∅, [], [root]⟩ : Reading Hash).Sound codec :=
      ⟨fun _ _ _ found => by simp at found, fun _ _ _ found => by simp at found, List.nodup_nil,
        fun _ member => absurd member List.not_mem_nil⟩
    have sound : reading.Sound codec :=
      Fault.foldlM_invariant (Reading.Sound codec) (fun _ sound _ _ _ read => sound.readPair codec read) fresh loop
    refine ⟨sound.keyed, sound.referenced, sound.distinct.filter _, fun key member => ?_⟩
    exact sound.held key (List.mem_filter.mp member).1
  · simp [Fault.fail] at read

/-- After `purge` the journal's entries are still keyed by their values' hashes,
and no count is below zero. -/
theorem purge_sound {files : Files Hash} {root : Hash} {chunk : Chunk Hash}
    (read : readChunk codec files root = .ok chunk) :
    MemoryDB.Keyed codec (chunk.purge codec).journal ∧ MemoryDB.AtLeast 0 (chunk.purge codec).journal := by
  obtain ⟨keyed, referenced, distinct, held⟩ := readChunk_sound codec read
  refine ⟨MemoryDB.Keyed.foldl_remove codec keyed _, MemoryDB.AtLeast.foldl_remove codec
    (fun key value rc found => by have := referenced key value rc found; omega) distinct fun key member => ?_⟩
  rcases held key member with null | stored
  · exact .inl null
  · obtain ⟨entry, found⟩ := Option.isSome_iff_exists.mp (AList.lookup_isSome.mpr stored)
    exact .inr ⟨entry.1, entry.2, found, referenced key entry.1 entry.2 found⟩

/-! ### Writing a journal into the database -/

/-- The database with the referenced entries of a journal written over it. -/
def overlayOnto (journal : ArchiveDB Hash) (backing : Store Hash) : Store Hash := fun key =>
  match AList.lookup key journal with
  | some (value, rc) => if 0 < rc then some value else backing key
  | none => backing key

/-- One entry of a journal whose counts are not negative: a referenced one is
put, where the database held nothing. -/
theorem injectEntry_eq_ok {backing written next : Store Hash} {entry : Σ _ : Hash, Bytes × ℤ}
    (nonneg : 0 ≤ entry.2.2) (ran : ArchiveDB.injectEntry backing written entry = .ok next) :
    (0 < entry.2.2 → backing entry.1 = none) ∧
      next = if 0 < entry.2.2 then Function.update written entry.1 (some entry.2.1) else written := by
  unfold ArchiveDB.injectEntry at ran
  -- the deleting branch needs a negative count
  have kept : ¬ entry.2.2 < 0 := by omega
  by_cases positive : 0 < entry.2.2
  · simp only [if_pos positive, if_neg kept, Fault.bind_eq_ok, Fault.failIf_eq_ok, Fault.pure_eq_ok] at ran
    obtain ⟨_, absent, _, rfl, rfl⟩ := ran
    refine ⟨fun _ => ?_, by rw [if_pos positive]⟩
    simpa using absent
  · simp only [if_neg positive, if_neg kept, Fault.bind_eq_ok, Fault.pure_eq_ok] at ran
    obtain ⟨_, rfl, rfl⟩ := ran
    exact ⟨fun yes => absurd yes positive, by rw [if_neg positive]⟩

theorem inject_eq_ok {journal : ArchiveDB Hash} {backing written : Store Hash} (nonneg : MemoryDB.AtLeast 0 journal)
    (ran : ArchiveDB.inject journal backing = .ok written) :
    written = overlayOnto journal backing ∧
      ∀ key value rc, AList.lookup key journal = some (value, rc) → 0 < rc → backing key = none := by
  -- the loop over the entries, from any database it has written so far
  have general : ∀ (entries : List (Σ _ : Hash, Bytes × ℤ)) (start : Store Hash), entries.NodupKeys →
      (∀ entry ∈ entries, 0 ≤ entry.2.2) → entries.foldlM (ArchiveDB.injectEntry backing) start = .ok written →
      (∀ key, written key = match entries.dlookup key with
        | some (value, rc) => if 0 < rc then some value else start key
        | none => start key) ∧ ∀ entry ∈ entries, 0 < entry.2.2 → backing entry.1 = none := by
    intro entries
    induction entries with
    | nil =>
      intro start _ _ ran
      cases ran
      exact ⟨fun key => rfl, fun _ member => absurd member List.not_mem_nil⟩
    | cons entry entries ih =>
      intro start distinct nonneg ran
      rw [List.foldlM_cons, Fault.bind_eq_ok] at ran
      obtain ⟨next, first, rest⟩ := ran
      obtain ⟨absent, rfl⟩ := injectEntry_eq_ok (nonneg entry List.mem_cons_self) first
      rw [List.nodupKeys_cons] at distinct
      obtain ⟨later, checked⟩ := ih _ distinct.2 (fun other member => nonneg other (List.mem_cons_of_mem entry member)) rest
      refine ⟨fun key => ?_, fun other member => ?_⟩
      · rw [later key]
        by_cases same : key = entry.1
        · -- the entry's key is in no later entry
          subst same
          rw [List.dlookup_cons_eq, List.dlookup_eq_none.mpr distinct.1]
          dsimp only
          split <;> simp
        · have untouched :
              (if 0 < entry.2.2 then Function.update start entry.1 (some entry.2.1) else start) key = start key := by
            split
            · exact Function.update_of_ne same _ _
            · rfl
          rw [List.dlookup_cons_ne _ _ same, untouched]
      · rcases List.mem_cons.mp member with rfl | member
        · exact absent
        · exact checked other member
  obtain ⟨overlaid, checked⟩ := general journal.entries backing journal.nodupKeys
    (fun entry member => nonneg entry.1 entry.2.1 entry.2.2 (AList.mem_lookup_iff.mpr member)) ran
  exact ⟨funext overlaid, fun key value rc found => checked ⟨key, (value, rc)⟩ (AList.mem_lookup_iff.mp found)⟩

/-! ### Views of the database -/

/-- Every value a view reads is under the hash of the value. -/
def ViewKeyed (view : Hash → Option Bytes) : Prop :=
  ∀ key value, view key = some value → codec.blake256 value = key

omit [DecidableEq Hash] in
/-- `later` reads everything `view` reads, and the same. -/
def Extends (view later : Hash → Option Bytes) : Prop :=
  ∀ key value, view key = some value → later key = some value

omit [DecidableEq Hash] in
theorem Extends.refl (view : Hash → Option Bytes) : Extends view view :=
  fun _ _ found => found

omit [DecidableEq Hash] in
theorem Extends.trans {view middle later : Hash → Option Bytes} (first : Extends view middle)
    (second : Extends middle later) : Extends view later :=
  fun key value found => second key value (first key value found)

theorem get_eq (journal : ArchiveDB Hash) (backing : Store Hash) (key : Hash) :
    ArchiveDB.get codec journal backing key =
      if key = codec.blakeNullRlp then some nullRlp else overlayOnto journal backing key := by
  unfold ArchiveDB.get MemoryDB.raw overlayOnto
  split_ifs <;> rfl

theorem hashView_eq (backing : Store Hash) (key : Hash) :
    hashView codec backing key = if key = codec.blakeNullRlp then some nullRlp else backing key := by
  rw [hashView, get_eq]
  rfl

/-- Once a journal is written into the database, the database alone reads what
the journal read over it. -/
theorem hashView_overlayOnto (journal : ArchiveDB Hash) (backing : Store Hash) :
    hashView codec (overlayOnto journal backing) = ArchiveDB.get codec journal backing := by
  funext key
  rw [hashView_eq, get_eq]

theorem Extends.hashView {backing later : Store Hash} (grows : Extends backing later) :
    Extends (hashView codec backing) (hashView codec later) := by
  intro key value found
  rw [hashView_eq] at found ⊢
  by_cases null : key = codec.blakeNullRlp
  · rw [if_pos null] at found ⊢
    exact found
  · rw [if_neg null] at found ⊢
    exact grows key value found

/-- Writing a journal whose referenced keys the database lacks only adds to it. -/
theorem extends_overlayOnto {journal : ArchiveDB Hash} {backing : Store Hash}
    (absent : ∀ key value rc, AList.lookup key journal = some (value, rc) → 0 < rc → backing key = none) :
    Extends backing (overlayOnto journal backing) := by
  intro key value found
  unfold overlayOnto
  split
  · rename_i stored rc entry
    split
    · rename_i positive
      rw [absent key stored rc entry positive] at found
      cases found
    · exact found
  · exact found

theorem ViewKeyed.hashView {backing : Store Hash} (keyed : ViewKeyed codec backing) :
    ViewKeyed codec (hashView codec backing) := by
  intro key value found
  rw [hashView_eq] at found
  split at found
  · rename_i null
    rw [Option.some_inj] at found
    rw [← found, null]
    rfl
  · exact keyed key value found

theorem ViewKeyed.overlayOnto {journal : ArchiveDB Hash} {backing : Store Hash} (keyed : ViewKeyed codec backing)
    (journalKeyed : MemoryDB.Keyed codec journal) : ViewKeyed codec (overlayOnto journal backing) := by
  intro key value found
  unfold Snapshot.overlayOnto at found
  split at found
  · rename_i stored rc entry
    split at found
    · rename_i positive
      rw [Option.some_inj] at found
      exact found ▸ journalKeyed key stored rc entry positive
    · exact keyed key value found
  · exact keyed key value found

/-! ### Walks -/

section Walking

variable {view : Hash → Option Bytes}

omit [DecidableEq Hash] in
/-- A walk from the root either stays at it or goes through one of its children. -/
theorem Below.cases_root {root key : Hash} {depth : ℕ} (below : Below codec view root key depth) :
    key = root ∧ depth = 0 ∨
      ∃ value child rest, view root = some value ∧ child ∈ codec.childKeys value ∧
        Below codec view child key rest ∧ depth = rest + 1 := by
  induction below with
  | root => exact .inl ⟨rfl, rfl⟩
  | child below found member ih =>
    rcases ih with ⟨rfl, rfl⟩ | ⟨value, child, rest, rootFound, childMember, childBelow, rfl⟩
    · exact .inr ⟨_, _, 0, found, member, .root, rfl⟩
    · exact .inr ⟨value, child, rest + 1, rootFound, childMember, .child childBelow found member, rfl⟩

omit [DecidableEq Hash] in
/-- The loop of `missing_keys`: every key a walk from the stack reaches is read
by the view or ends up in the result. -/
theorem runs_missingTurn {stack acc result : List Hash}
    (runs : Worklist.Runs (missingTurn codec view) stack acc (.ok result)) :
    acc ⊆ result ∧
      ∀ item ∈ stack, ∀ key depth, Below codec view item key depth → (view key).isSome ∨ key ∈ result := by
  generalize finished : (Except.ok result : Except Empty (List Hash)) = outcome at runs
  induction runs with
  | done acc =>
    cases finished
    exact ⟨List.Subset.refl _, fun _ member => absurd member List.not_mem_nil⟩
  | stop turned =>
    rename_i never
    exact never.elim
  | next turned _ ih =>
    rename_i item stack acc next pushed outcome
    obtain ⟨grown, reached⟩ := ih finished
    unfold missingTurn at turned
    split at turned
    · -- a key the view lacks is a result, and nothing is pushed
      rename_i absent
      cases turned
      refine ⟨fun key member => grown (List.mem_append_left _ member), fun other member key depth below => ?_⟩
      rcases List.mem_cons.mp member with rfl | later
      · rcases below.cases_root with ⟨rfl, _⟩ | ⟨value, _, _, found, _⟩
        · exact .inr (grown (List.mem_append_right _ (List.mem_singleton_self _)))
        · rw [absent] at found
          cases found
      · exact reached other later key depth below
    · -- a node has its children pushed, each walked on from
      rename_i value found
      cases turned
      refine ⟨grown, fun other member key depth below => ?_⟩
      rcases List.mem_cons.mp member with rfl | later
      · rcases below.cases_root with ⟨rfl, _⟩ | ⟨stored, child, rest, found', childMember, childBelow, _⟩
        · exact .inl (by rw [found]; rfl)
        · rw [found, Option.some_inj] at found'
          subst found'
          exact reached child (Worklist.mem_push.mpr (.inl childMember)) key rest childBelow
      · exact reached other (Worklist.mem_push.mpr (.inr later)) key depth below

omit [DecidableEq Hash] in
/-- Every key a walk from the root reaches is read by the view or is one of the
keys `missing_keys` returns. -/
theorem missingKeys_complete {fuel : ℕ} {root : Hash} {result : List Hash}
    (found : missingKeys codec view fuel root = some result) {key : Hash} {depth : ℕ}
    (below : Below codec view root key depth) : (view key).isSome ∨ key ∈ result := by
  unfold missingKeys at found
  cases ran : Worklist.run (missingTurn codec view) fuel [root] [] with
  | none => rw [ran] at found; cases found
  | some outcome =>
    rw [ran, Option.map_some, Option.some_inj] at found
    cases outcome with
    | error never => exact never.elim
    | ok keys =>
      cases found
      exact (runs_missingTurn codec (Worklist.runs_of_run ran)).2 root List.mem_cons_self key depth below

/-- Every key a walk from `root` reaches is read by the view. -/
def Closed (view : Hash → Option Bytes) (root : Hash) : Prop :=
  ∀ key depth, Below codec view root key depth → (view key).isSome

omit [DecidableEq Hash] in
theorem closed_of_missingKeys_eq_nil {fuel : ℕ} {root : Hash} (found : missingKeys codec view fuel root = some []) :
    Closed codec view root := by
  intro key depth below
  rcases missingKeys_complete codec found below with present | member
  · exact present
  · cases member

omit [DecidableEq Hash] in
/-- A closed trie stays closed in a view that reads more: its walks are the same. -/
theorem Closed.extends {root : Hash} (closed : Closed codec view root) {later : Hash → Option Bytes}
    (grows : Extends view later) : Closed codec later root := by
  have walk : ∀ key depth, Below codec later root key depth → Below codec view root key depth := by
    intro key depth below
    induction below with
    | root => exact .root
    | child _ found member ih =>
      obtain ⟨stored, present⟩ := Option.isSome_iff_exists.mp (closed _ _ ih)
      rw [grows _ _ present, Option.some_inj] at found
      exact .child ih present (found ▸ member)
  intro key depth below
  obtain ⟨stored, present⟩ := Option.isSome_iff_exists.mp (closed key depth (walk key depth below))
  rw [grows _ _ present]
  rfl

end Walking

/-! ### Reading chunks into the database -/

/-- A chunk that was read, purged and written into a keyed database: the
database only grows, stays keyed, and reads what the chunk read over it. -/
theorem inject_purged {files : Files Hash} {root : Hash} {chunk : Chunk Hash} {db written : Store Hash}
    (read : readChunk codec files root = .ok chunk) (keyed : ViewKeyed codec db)
    (ran : ArchiveDB.inject (chunk.purge codec).journal db = .ok written) :
    hashView codec written = (chunk.purge codec).view codec db ∧ Extends db written ∧ ViewKeyed codec written := by
  obtain ⟨journalKeyed, nonneg⟩ := purge_sound codec read
  obtain ⟨rfl, absent⟩ := inject_eq_ok nonneg ran
  exact ⟨hashView_overlayOnto codec _ _, extends_overlayOnto absent, keyed.overlayOnto codec journalKeyed⟩

/-- `read_chunk` of a missing key into a keyed database: the database grows,
stays keyed, and holds every key a walk from the chunk's root reaches. -/
theorem readChunkInto_eq_ok {fuel : ℕ} {files : Files Hash} {db written : Store Hash} {chunkRoot : Hash}
    (keyed : ViewKeyed codec db) (ran : (readChunkInto codec fuel files db chunkRoot).run = some (.ok written)) :
    Extends (hashView codec db) (hashView codec written) ∧ ViewKeyed codec written ∧
      Closed codec (hashView codec written) chunkRoot := by
  unfold readChunkInto at ran
  obtain ⟨chunk, read, ran⟩ := Fueled.run_liftExcept_bind_eq_ok.mp ran
  obtain ⟨keys, found, ran⟩ := Fueled.run_liftOption_bind_eq_ok.mp ran
  split at ran
  · -- a chunk with missing keys is refused
    simp at ran
  · rename_i complete
    have none_missing : keys = [] := by simpa using complete
    rw [Fueled.run_liftExcept, Option.some_inj] at ran
    obtain ⟨viewed, grows, keyedWritten⟩ := inject_purged codec read keyed ran
    have closed := closed_of_missingKeys_eq_nil codec (none_missing ▸ found)
    exact ⟨grows.hashView codec, keyedWritten, viewed ▸ closed⟩

/-- What `read_snapshot` keeps along its loop over the missing keys: the
database grows, stays keyed, and every chunk read so far is complete in it. -/
structure Covers (start : Store Hash) (done : List Hash) (db : Store Hash) : Prop where
  grows : Extends (hashView codec start) (hashView codec db)
  keyed : ViewKeyed codec db
  closed : ∀ key ∈ done, Closed codec (hashView codec db) key

theorem Covers.readChunkInto {start db written : Store Hash} {done : List Hash} {fuel : ℕ} {files : Files Hash}
    {chunkRoot : Hash} (covers : Covers codec start done db)
    (ran : (readChunkInto codec fuel files db chunkRoot).run = some (.ok written)) :
    Covers codec start (done ++ [chunkRoot]) written := by
  obtain ⟨grows, keyed, closed⟩ := readChunkInto_eq_ok codec covers.keyed ran
  refine ⟨covers.grows.trans grows, keyed, fun key member => ?_⟩
  rcases List.mem_append.mp member with earlier | latest
  · exact (covers.closed key earlier).extends codec grows
  · rw [List.mem_singleton.mp latest]
    exact closed

/-- A walk in the final database either was a walk in the database the head
was written into, or passes through one of the keys it lacked. -/
theorem below_of_covers {start written : Store Hash} {root : Hash} {fuel : ℕ} {keys : List Hash}
    (found : missingKeys codec (hashView codec start) fuel root = some keys) (covers : Covers codec start keys written)
    {key : Hash} {depth : ℕ} (below : Below codec (hashView codec written) root key depth) :
    Below codec (hashView codec start) root key depth ∨
      ∃ chunkRoot ∈ keys, ∃ rest, Below codec (hashView codec written) chunkRoot key rest := by
  induction below with
  | root => exact .inl .root
  | @child parent _ _ _ _ found' member ih =>
    rcases ih with earlier | ⟨chunkRoot, missing, rest, later⟩
    · rcases missingKeys_complete codec found earlier with present | missing
      · -- the parent was there before, with the value it has now
        obtain ⟨stored, present⟩ := Option.isSome_iff_exists.mp present
        rw [covers.grows _ _ present, Option.some_inj] at found'
        exact .inl (.child earlier present (found' ▸ member))
      · exact .inr ⟨parent, missing, 1, .child .root found' member⟩
    · exact .inr ⟨chunkRoot, missing, rest + 1, .child later found' member⟩

/-- `read_snapshot` into a keyed database, where it ends in a database: every
key a walk from the root reaches is in it, under the hash of its value. -/
theorem readSnapshot_reaches_keyed {fuel : ℕ} {files : Files Hash} {db written : Store Hash} {root : Hash}
    (keyed : ViewKeyed codec db) (ran : (readSnapshot codec fuel files db root).run = some (.ok written))
    {key : Hash} {depth : ℕ} (below : Below codec (hashView codec written) root key depth) :
    ∃ value, hashView codec written key = some value ∧ codec.blake256 value = key := by
  unfold readSnapshot at ran
  obtain ⟨head, read, ran⟩ := Fueled.run_liftExcept_bind_eq_ok.mp ran
  obtain ⟨deeper, _, ran⟩ := Fueled.run_liftOption_bind_eq_ok.mp ran
  split at ran
  · simp at ran
  · obtain ⟨headDb, injected, ran⟩ := Fueled.run_liftExcept_bind_eq_ok.mp ran
    obtain ⟨-, -, headKeyed⟩ := inject_purged codec read keyed injected
    obtain ⟨keys, found, ran⟩ := Fueled.run_liftOption_bind_eq_ok.mp ran
    -- the loop over the missing keys keeps `Covers`
    have covers : Covers codec headDb keys written :=
      Fueled.foldlM_invariant (Covers codec headDb) ran ⟨.refl _, headKeyed, fun _ member => absurd member List.not_mem_nil⟩
        fun _ _ _ _ covers turned => covers.readChunkInto codec turned
    have present : (hashView codec written key).isSome := by
      rcases below_of_covers codec found covers below with earlier | ⟨chunkRoot, missing, rest, later⟩
      · rcases missingKeys_complete codec found earlier with present | missing
        · obtain ⟨stored, present⟩ := Option.isSome_iff_exists.mp present
          rw [covers.grows _ _ present]
          rfl
        · exact covers.closed key missing key 0 .root
      · exact covers.closed chunkRoot missing key rest later
    obtain ⟨value, stored⟩ := Option.isSome_iff_exists.mp present
    exact ⟨value, stored, covers.keyed.hashView codec key value stored⟩

/-- A codec to run the model on: `[1, c]` is a branch naming `c` in its first
slot, `[2]` a leaf, and a value hashes to the sum of its bytes. -/
def sumCodec : Codec ℕ where
  blake256 value := (value.map UInt8.toNat).sum
  decoded
    | [1, child] => some (.branch [] ((Vector.replicate 16 none).set 0 (some child.toNat)))
    | [2] => some (.leaf [] [])
    | _ => none
  decoded_nullRlp := rfl

/-- A head chunk three levels deep: root `4` names `3`, which names the leaf `2`. -/
def deepHead : List (ℕ × Bytes) :=
  [(4, [1, 3]), (3, [1, 2]), (2, [2])]

/-- The head chunk file of root `4` holds a node two levels below the root, yet
`read_snapshot` reads it into an empty database without error, the grandchild
written with the rest. -/
theorem readSnapshot_accepts_deep_head :
    Below sumCodec (fun key => deepHead.lookup key) 4 2 2 ∧
      ∃ written, (readSnapshot sumCodec 8 (fun key => if key = 4 then some deepHead else none)
        (fun _ => none) 4).run = some (.ok written) ∧ written 2 = some [2] := by
  have child : Below sumCodec (fun key => deepHead.lookup key) 4 3 1 :=
    .child .root rfl (by decide : 3 ∈ sumCodec.childKeys [1, 3])
  have grandchild : Below sumCodec (fun key => deepHead.lookup key) 4 2 2 :=
    .child child rfl (by decide : 2 ∈ sumCodec.childKeys [1, 2])
  exact ⟨grandchild, _, rfl, rfl⟩

end Snapshot

end Sync

end CodeChain
