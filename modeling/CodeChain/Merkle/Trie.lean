import CodeChain.Sync.Snapshot
import CodeChain.Lib.Faulty
import CodeChain.Lib.PathMap
import CodeChain.Merkle.NibbleSlice

/-!
# The Merkle trie

`TrieDBMut` keeps a map from keys to values as a trie of nodes in a `HashDB`,
each node stored under the hash of its encoding, and `TrieDB` reads it.  A key
is found at the path of the 64 nibbles of its hash.  A leaf holds the rest of
its path and the value; a branch holds a part of the path and sixteen slots,
one for each next nibble.  `insert_aux` walks down the path and writes the
nodes on the way back up, splitting a leaf or a branch where the path leaves
it; `remove_aux` walks down the same way and, when a branch is left with one
child, merges the child into it.

The model keeps the paths as the nibble lists `NibbleSlice::to_vec` gives (the
hex-prefix round trip of the slices is proved in `NibbleSlice`), and the
database as the `ArchiveDB` the state writes through: the overlay is the state
of the trie's computations, and the database below it is fixed.  The RLP of a
node is the codec's: `Node::decoded` reads back what `Node::encoded` writes.
A computation runs in `Faulty`, with the overlay and `old_val` as its state; an
index past a slice's end is a panic, as `NibbleSlice::at` indexes the bytes.
The path a node holds, `partial` in the code, is its `stem` here.
-/

namespace CodeChain

namespace Merkle

open Sync.Snapshot PathMap

/-- The nibbles of a path, as `NibbleSlice::to_vec` lists them. -/
abbrev Nibbles := List (Fin 16)

/-- What the trie takes from `ccrypto` and `rlp`: `blake256`; `Node::encoded`,
which `Node::decoded` reads back; and the 64 nibbles of a hash, as
`NibbleSlice::new` reads them from its 32 bytes. -/
structure TrieCodec (Hash : Type) extends Codec Hash where
  encoded : Node Hash → Bytes
  decoded_encoded : ∀ node, decoded (encoded node) = some node
  nibblesOf : Hash → Nibbles
  length_nibblesOf : ∀ hash, (nibblesOf hash).length = 64

/-- `TrieError`. -/
inductive TrieError (Hash : Type) where
  | invalidStateRoot (root : Hash)
  | incompleteDatabase (missing : Hash)
  deriving DecidableEq

/-- What `insert_aux` and `remove_aux` change: the overlay of the database they
write through, and `old_val`. -/
structure Scratch (Hash : Type) where
  journal : ArchiveDB Hash
  oldVal : Option Bytes

/-- A computation of `insert_aux` or `remove_aux`. -/
abbrev TrieM (Hash α : Type) := Faulty (Scratch Hash) (TrieError Hash) α

variable {Hash : Type} [DecidableEq Hash] (codec : TrieCodec Hash)

/-- The hash a node is stored under. -/
def TrieCodec.hashOf (node : Node Hash) : Hash :=
  codec.blake256 (codec.encoded node)

/-- `Node::encoded_until`: the node with the first `size` nibbles of its path. -/
def encodedUntil (node : Node Hash) (size : ℕ) : Bytes :=
  match node with
  | .leaf nibbles value => codec.encoded (.leaf (nibbles.take size) value)
  | .branch nibbles children => codec.encoded (.branch (nibbles.take size) children)

/-- `empty_children()`. -/
def emptyChildren : Vector (Option Hash) 16 :=
  Vector.replicate 16 none

/-- `NibbleSlice::starts_with` on the nibbles of two slices. -/
def startsWith (path them : Nibbles) : Bool :=
  commonPrefix path them = them.length

section Reading

variable (view : Hash → Option Bytes)

/-- `TrieDB::get_aux`, over what the database reads.  A leaf answers when its
path is the rest of the key's (`==` on slices is the same length and a common
prefix of all of it); a branch passes the key on to the slot of the nibble
after its own path. -/
def getAux (path : Nibbles) : Option Hash → Except (Fault (TrieError Hash)) (Option Bytes)
  | none => pure none
  | some hash =>
    match view hash with
    | none => throw (.error (.incompleteDatabase hash))
    | some nodeRlp =>
      match codec.decoded nodeRlp with
      | some (.leaf stem value) => if stem = path then pure (some value) else pure none
      | some (.branch stem children) =>
        if startsWith path stem then
          match next : path.drop stem.length with
          | [] => throw (.panic "index out of bounds")
          | index :: rest => getAux rest children[index]
        else pure none
      | none => pure none
termination_by path.length
decreasing_by
  have shorter := congrArg List.length next
  simp only [List.length_drop, List.length_cons] at shorter
  omega

end Reading

section Writing

variable (backing : Store Hash)

/-- What the overlay reads, over the database below it. -/
def readThrough (journal : ArchiveDB Hash) : Hash → Option Bytes :=
  ArchiveDB.get codec.toCodec journal backing

/-- `self.db.get(&hash).ok_or_else(|| TrieError::IncompleteDatabase(missing))`
through the overlay. -/
def fetch (hash missing : Hash) : TrieM Hash Bytes := do
  match readThrough codec backing (← get).journal hash with
  | some bytes => pure bytes
  | none => throw (.error (.incompleteDatabase missing))

theorem run_fetch_of_eq_some {hash missing : Hash} {scratch : Scratch Hash} {bytes : Bytes}
    (found : readThrough codec backing scratch.journal hash = some bytes) :
    (fetch codec backing hash missing).run scratch = (.ok bytes, scratch) := by
  simp only [fetch, Faulty.run_bind, Faulty.run_get, found]
  rfl

/-- `self.db.insert(&node_rlp)`: the overlay takes one reference to the bytes,
and the answer is their hash. -/
def write (bytes : Bytes) : TrieM Hash Hash :=
  modifyGet fun scratch =>
    ((MemoryDB.insert codec.toCodec scratch.journal bytes).1,
      { scratch with journal := (MemoryDB.insert codec.toCodec scratch.journal bytes).2 })

@[simp]
theorem run_write (bytes : Bytes) (scratch : Scratch Hash) :
    (write codec bytes).run scratch =
      (.ok (MemoryDB.insert codec.toCodec scratch.journal bytes).1,
        { scratch with journal := (MemoryDB.insert codec.toCodec scratch.journal bytes).2 }) :=
  rfl

/-- `*old_val = Some(value)`. -/
def setOldVal (value : Bytes) : TrieM Hash Unit :=
  modify fun scratch => { scratch with oldVal := some value }

omit [DecidableEq Hash] in
@[simp]
theorem run_setOldVal (value : Bytes) (scratch : Scratch Hash) :
    (setOldVal value).run scratch = (.ok (), { scratch with oldVal := some value }) :=
  rfl

/-- How far `insert_aux` may still go down: a slot that holds nothing ends the
walk at once. -/
def insertMeasure (path : Nibbles) : Option Hash → ℕ
  | none => 0
  | some _ => path.length + 1

omit [DecidableEq Hash] in
theorem insertMeasure_le (path : Nibbles) (cur : Option Hash) : insertMeasure path cur ≤ path.length + 1 := by
  cases cur <;> simp [insertMeasure]

/-- `TrieDBMut::insert_aux`: the hash of the node that takes the place of the
one at `cur`, with `value` at `path` below it. -/
def insertAux (path : Nibbles) (insertValue : Bytes) (cur : Option Hash) : TrieM Hash Hash :=
  match cur with
  | none => write codec (codec.encoded (.leaf path insertValue))
  | some hash => do
    let nodeRlp ← fetch codec backing hash hash
    match codec.decoded nodeRlp with
    | some (.leaf stem value) =>
      if stem = path then
        -- renew the leaf
        let hash ← write codec (codec.encoded (.leaf path insertValue))
        setOldVal value
        pure hash
      else
        -- a branch over the common part, with the old leaf and the new one below it
        let common := commonPrefix stem path
        match stem.drop common with
        | [] => throw (.panic "index out of bounds")
        | oldIndex :: oldRest =>
          let oldHash ← insertAux oldRest value emptyChildren[oldIndex]
          let newChild := emptyChildren.set oldIndex (some oldHash)
          match next : path.drop common with
          | [] => throw (.panic "index out of bounds")
          | newIndex :: newRest =>
            let newHash ← insertAux newRest insertValue newChild[newIndex]
            write codec (encodedUntil codec (.branch stem (newChild.set newIndex (some newHash))) common)
    | some (.branch stem children) =>
      let common := commonPrefix stem path
      if common < stem.length then
        -- a branch over the common part, with the old branch, shortened, and
        -- the new leaf below it
        let newStem := stem.drop common
        let bHash ← write codec (codec.encoded (.branch (newStem.drop 1) children))
        match newStem with
        | [] => throw (.panic "index out of bounds")
        | oldIndex :: _ =>
          let newChild := emptyChildren.set oldIndex (some bHash)
          match next : path.drop common with
          | [] => throw (.panic "index out of bounds")
          | newIndex :: newRest =>
            let newHash ← insertAux newRest insertValue newChild[newIndex]
            write codec (encodedUntil codec (.branch stem (newChild.set newIndex (some newHash))) common)
      else
        -- insert into the slot of the next nibble
        match next : path.drop common with
        | [] => throw (.panic "index out of bounds")
        | newIndex :: newRest =>
          let newHash ← insertAux newRest insertValue children[newIndex]
          write codec (codec.encoded (.branch stem (children.set newIndex (some newHash))))
    | none => write codec (codec.encoded (.leaf path insertValue))
termination_by insertMeasure path cur
decreasing_by
  all_goals first
    | -- the old leaf goes into a slot that holds nothing
      (simp [insertMeasure, emptyChildren]; done)
    | -- the new value goes a nibble further down its path
      (have shorter := congrArg List.length next
       simp only [List.length_drop, List.length_cons] at shorter
       refine Nat.lt_of_le_of_lt (insertMeasure_le newRest _) ?_
       simp only [insertMeasure]
       omega)

/-- `TrieDBMut::remove_aux`: what takes the place of the node at `cur` once
`path` is removed below it, nothing when no path is left. -/
def removeAux (path : Nibbles) (cur : Option Hash) : TrieM Hash (Option Hash) :=
  match cur with
  | none => pure none
  | some hash => do
    let nodeRlp ← fetch codec backing hash hash
    match codec.decoded nodeRlp with
    | some (.leaf stem value) =>
      if path = stem then
        setOldVal value
        pure none
      else pure (some hash)
    | some (.branch stem children) =>
      if startsWith path stem then
        match next : path.drop stem.length with
        | [] => throw (.panic "index out of bounds")
        | index :: rest =>
          let child ← removeAux rest children[index]
          let children := children.set index child
          if children[index] = none then
            -- fix the node
            match (children.toList.filter Option.isNone).length with
            | 16 => pure none
            | 15 =>
              -- the one child left takes the branch's place, under the
              -- branch's path, its slot and its own path
              let only ← liftM (Fault.expect ((List.finRange 16).find? fun i => (children[i]).isSome)
                "Can not find leaf in the branch" : Except (Fault (TrieError Hash)) (Fin 16))
              let newLeafHash ← liftM (Fault.expect children[only] "Index is wrong" :
                Except (Fault (TrieError Hash)) Hash)
              let newLeafData ← fetch codec backing newLeafHash hash
              match codec.decoded newLeafData with
              | none => throw (.error (.incompleteDatabase hash))
              | some (.leaf childStem childValue) =>
                some <$> write codec (codec.encoded (.leaf (stem ++ only :: childStem) childValue))
              | some (.branch childStem grandchildren) =>
                some <$> write codec (codec.encoded (.branch (stem ++ only :: childStem) grandchildren))
            | _ => some <$> write codec (codec.encoded (.branch stem children))
          else some <$> write codec (codec.encoded (.branch stem children))
      else pure (some hash)
    | none => pure (some hash)
termination_by path.length
decreasing_by
  have shorter := congrArg List.length next
  simp only [List.length_drop, List.length_cons] at shorter
  omega

end Writing

/-! ### The trie and its operations -/

/-- `TrieDBMut`: the overlay of the database it writes through, and its root. -/
structure TrieDBMut (Hash : Type) where
  journal : ArchiveDB Hash
  root : Hash

section Operations

variable (backing : Store Hash)

/-- The path of a key: the nibbles of its hash. -/
def TrieCodec.pathOf (key : Bytes) : Nibbles :=
  codec.nibblesOf (codec.blake256 key)

/-- `TrieDB::try_new`: the root must be in the database. -/
def tryNew (view : Hash → Option Bytes) (root : Hash) : Except (Fault (TrieError Hash)) Hash :=
  if (view root).isSome then pure root else throw (.error (.invalidStateRoot root))

/-- `Trie::get` of a `TrieDB`. -/
def trieDBGet (view : Hash → Option Bytes) (root : Hash) (key : Bytes) :
    Except (Fault (TrieError Hash)) (Option Bytes) :=
  getAux codec view (codec.pathOf key) (some root)

namespace TrieDBMut

/-- `TrieDBMut::new`: the root of the empty trie. -/
def new (journal : ArchiveDB Hash) : TrieDBMut Hash :=
  ⟨journal, codec.blakeNullRlp⟩

/-- `TrieDBMut::from_existing`: the root must be in the database. -/
def fromExisting (journal : ArchiveDB Hash) (root : Hash) : Except (Fault (TrieError Hash)) (TrieDBMut Hash) :=
  (fun root => ⟨journal, root⟩) <$> tryNew (readThrough codec backing journal) root

/-- `TrieMut::is_empty`: the root is the root of the empty trie. -/
def isEmpty (trie : TrieDBMut Hash) : Bool :=
  trie.root = codec.blakeNullRlp

/-- `TrieMut::get`: a `TrieDB` over the same database and root. -/
def get (trie : TrieDBMut Hash) (key : Bytes) : Except (Fault (TrieError Hash)) (Option Bytes) := do
  let root ← tryNew (readThrough codec backing trie.journal) trie.root
  trieDBGet codec (readThrough codec backing trie.journal) root key

/-- `TrieMut::contains`: whether `get` finds a value. -/
def contains (trie : TrieDBMut Hash) (key : Bytes) : Except (Fault (TrieError Hash)) Bool :=
  (trie.get codec backing key).map Option.isSome

/-- `TrieMut::insert`: the old value of the key, and the trie with the new
root.  The overlay keeps what was written before a failure. -/
def insert (trie : TrieDBMut Hash) (key value : Bytes) : Except (Fault (TrieError Hash)) (Option Bytes) × TrieDBMut Hash :=
  match (insertAux codec backing (codec.pathOf key) value (some trie.root)).run ⟨trie.journal, none⟩ with
  | (.ok root, after) => (.ok after.oldVal, ⟨after.journal, root⟩)
  | (.error fault, after) => (.error fault, ⟨after.journal, trie.root⟩)

/-- `TrieMut::remove`: the old value of the key, and the trie with the new
root, the root of the empty trie once nothing is left. -/
def remove (trie : TrieDBMut Hash) (key : Bytes) : Except (Fault (TrieError Hash)) (Option Bytes) × TrieDBMut Hash :=
  match (removeAux codec backing (codec.pathOf key) (some trie.root)).run ⟨trie.journal, none⟩ with
  | (.ok root, after) => (.ok after.oldVal, ⟨after.journal, root.getD codec.blakeNullRlp⟩)
  | (.error fault, after) => (.error fault, ⟨after.journal, trie.root⟩)

end TrieDBMut

end Operations

/-! ### Two codecs

The theorems about the trie assume that `blake256` has no collisions among the
encodings a run reads or writes.  The first codec takes the bytes themselves as
their hash, so that it has none at all.  The second hashes a value to 32 bytes
that say only its length, so that any two values of one length collide, and
has none among the few encodings of a short run.  Their nodes are written with
each byte string escaped, so that they read back. -/

section Escaped

/-- Each byte after a `1`, then a `0`: bytes that say where they end. -/
def escape (bytes : Bytes) : Bytes :=
  bytes.flatMap (fun byte => [1, byte]) ++ [0]

/-- The bytes `escape` wrote at the start, and what follows them. -/
def unescape : Bytes → Option (Bytes × Bytes)
  | 0 :: rest => some ([], rest)
  | 1 :: byte :: rest => (unescape rest).map fun read => (byte :: read.1, read.2)
  | _ => none

theorem unescape_escape (bytes rest : Bytes) : unescape (escape bytes ++ rest) = some (bytes, rest) := by
  induction bytes with
  | nil => rfl
  | cons byte bytes ih =>
    simp only [escape, List.flatMap_cons, List.cons_append, List.nil_append, List.append_assoc] at ih ⊢
    simp [unescape, ih]

/-- A nibble as a byte. -/
def nibbleByte (nibble : Fin 16) : UInt8 :=
  UInt8.ofNat nibble.val

/-- A byte below 16 as a nibble. -/
def toNibble (byte : UInt8) : Option (Fin 16) :=
  if small : byte.toNat < 16 then some ⟨byte.toNat, small⟩ else none

theorem mapM_toNibble (nibbles : Nibbles) : nibbles.mapM (toNibble ∘ nibbleByte) = some nibbles := by
  induction nibbles with
  | nil => rfl
  | cons nibble nibbles ih =>
    have exact : (nibbleByte nibble).toNat = nibble.val := by
      simp only [nibbleByte, UInt8.toNat_ofNat']
      omega
    have back : toNibble (nibbleByte nibble) = some nibble := by
      rw [toNibble, dif_pos (exact ▸ nibble.isLt)]
      simp only [exact]
    simp [back, ih]

/-- A child slot: `0` for none, `1` and the escaped hash for one. -/
def slotBytes : Option Bytes → Bytes
  | none => [0]
  | some hash => 1 :: escape hash

/-- The first `count` child slots. -/
def readSlots : ℕ → Bytes → Option (List (Option Bytes))
  | 0, _ => some []
  | count + 1, 0 :: rest => (readSlots count rest).map (none :: ·)
  | count + 1, 1 :: rest => do
    let read ← unescape rest
    let slots ← readSlots count read.2
    pure (some read.1 :: slots)
  | _ + 1, _ => none

theorem readSlots_slotBytes (slots : List (Option Bytes)) (rest : Bytes) :
    readSlots slots.length (slots.flatMap slotBytes ++ rest) = some slots := by
  induction slots with
  | nil => rfl
  | cons slot slots ih =>
    cases slot with
    | none => simp [slotBytes, readSlots, ih]
    | some hash => simp [slotBytes, readSlots, unescape_escape, ih]

/-- A node: a tag, the escaped nibbles, and the escaped value or the slots. -/
def escapedEncoded : Node Bytes → Bytes
  | .leaf nibbles value => 2 :: escape (nibbles.map nibbleByte) ++ escape value
  | .branch nibbles children => 3 :: escape (nibbles.map nibbleByte) ++ children.toList.flatMap slotBytes

/-- Reads what `escapedEncoded` writes. -/
def escapedDecoded : Bytes → Option (Node Bytes)
  | 2 :: rest => do
    let read ← unescape rest
    let nibbles ← read.1.mapM toNibble
    let value ← unescape read.2
    pure (.leaf nibbles value.1)
  | 3 :: rest => do
    let read ← unescape rest
    let nibbles ← read.1.mapM toNibble
    let children ← readSlots 16 read.2
    if fits : children.length = 16 then pure (.branch nibbles ⟨children.toArray, by simpa using fits⟩)
    else none
  | _ => none

theorem escapedDecoded_escapedEncoded (node : Node Bytes) : escapedDecoded (escapedEncoded node) = some node := by
  cases node with
  | leaf nibbles value =>
    have ends := unescape_escape value []
    rw [List.append_nil] at ends
    simp [escapedEncoded, escapedDecoded, unescape_escape, mapM_toNibble, ends]
  | branch nibbles children =>
    have slots := readSlots_slotBytes children.toList []
    rw [List.append_nil, Vector.length_toList] at slots
    simp [escapedEncoded, escapedDecoded, unescape_escape, mapM_toNibble, slots]
    rfl

/-- The two nibbles of a byte, the high one first. -/
def byteNibbles (byte : UInt8) : Nibbles :=
  [Fin.ofNat 16 (byte.toNat / 16), Fin.ofNat 16 byte.toNat]

/-- The nibbles of the first 32 bytes of a value, padded with zeros. -/
def paddedNibbles (bytes : Bytes) : Nibbles :=
  ((bytes ++ List.replicate 32 0).take 32).flatMap byteNibbles

theorem length_paddedNibbles (bytes : Bytes) : (paddedNibbles bytes).length = 64 := by
  have two : (fun byte => (byteNibbles byte).length) = fun _ => 2 := rfl
  rw [paddedNibbles, List.length_flatMap, two, List.map_const', List.sum_replicate, List.length_take,
    List.length_append, List.length_replicate, smul_eq_mul]
  omega

/-- The codec whose hash of a value is the value: no two values share a hash.
The path of a key is read from its first 32 bytes. -/
def escapedCodec : TrieCodec Bytes where
  blake256 := id
  decoded := escapedDecoded
  decoded_nullRlp := rfl
  encoded := escapedEncoded
  decoded_encoded := escapedDecoded_escapedEncoded
  nibblesOf := paddedNibbles
  length_nibblesOf := length_paddedNibbles

theorem length_escape (bytes : Bytes) : (escape bytes).length = 2 * bytes.length + 1 := by
  induction bytes with
  | nil => rfl
  | cons byte bytes ih =>
    simp only [escape, List.flatMap_cons, List.length_append, List.length_cons, List.length_nil] at ih ⊢
    omega

theorem length_escapedEncoded_leaf (nibbles : Nibbles) (value : Bytes) :
    (escapedEncoded (.leaf nibbles value)).length = 2 * nibbles.length + 2 * value.length + 3 := by
  simp only [escapedEncoded, List.length_cons, List.length_append, length_escape, List.length_map]
  omega

/-- The codec whose hash of a value is 32 bytes that say only its length below
256: two values of one length always share a hash. -/
def sizedCodec : TrieCodec Bytes where
  blake256 bytes := UInt8.ofNat bytes.length :: List.replicate 31 0
  decoded := escapedDecoded
  decoded_nullRlp := rfl
  encoded := escapedEncoded
  decoded_encoded := escapedDecoded_escapedEncoded
  nibblesOf := paddedNibbles
  length_nibblesOf := length_paddedNibbles

end Escaped

end Merkle

end CodeChain
