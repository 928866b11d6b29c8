import CodeChain.Merkle.Trie

/-!
# What a trie holds

A trie holds a map from paths to values.  `Holds view depth hash map` says
that the trie at `hash`, read from `view`, holds `map`, whose paths are all
`depth` nibbles long, and has the shape `TrieDBMut` keeps: every node is
stored as its encoding under its hash, a leaf holds the rest of its path, and a
branch has two occupied slots or more.  `RootHolds` adds the root of the empty
trie, which holds nothing.

A map has one canonical node at most, the node of that shape whose children
are the hashes of the canonical nodes of its slots (`Canon.unique`), whatever
collisions the hash has; the root of a trie of this shape is the hash of it, so
a function of the map it holds, whatever database it is read from
(`Holds.hash_eq`).

The hash of a real codec has collisions, so the proofs ask for none only among
a set of encodings (`Addressed`) that covers the canonical nodes of the maps
involved (`Covered`).  Over a database that keeps every value under its hash,
writing a node of the set leaves it readable under its hash and keeps every
read that was there before, so a trie keeps what it holds while the operations
write (`Holds.mono`).  Reading a key walks to the value the map holds at its
path (`getAux_of_holds`).
-/

namespace CodeChain

namespace Merkle

open Sync.Snapshot PathMap

variable {Hash : Type} (codec : TrieCodec Hash)

/-- `view` holds the encoding of `node` under its hash. -/
def Stored (view : Hash → Option Bytes) (node : Node Hash) : Prop :=
  view (codec.hashOf node) = some (codec.encoded node)

theorem encoded_ne_nullRlp (node : Node Hash) : codec.encoded node ≠ nullRlp := by
  intro null
  have decoded := codec.decoded_encoded node
  rw [null, codec.decoded_nullRlp] at decoded
  cases decoded

/-! ### The database the trie writes through -/

section Database

variable [DecidableEq Hash] {backing : Store Hash} (encodings : Set Bytes)

/-- The overlay keeps every referenced value under its hash, no count in it is
below zero, and every referenced value is one of `encodings`. -/
structure Sound (journal : ArchiveDB Hash) : Prop where
  keyed : MemoryDB.Keyed codec.toCodec journal
  counted : MemoryDB.AtLeast 0 journal
  within : ∀ key value rc, AList.lookup key journal = some (value, rc) → 0 < rc → value ∈ encodings

theorem sound_empty : Sound codec encodings ∅ :=
  ⟨fun _ _ _ found => by simp at found, fun _ _ _ found => by simp at found, fun _ _ _ found => by simp at found⟩

variable (backing) in
/-- What the proofs about the trie assume of the hash and of the database below
the overlay: no two of `encodings`, `NULL_RLP` one of them, share a hash, and
the database keeps every value under its hash, each one of `encodings`.  The
encodings are those a run reads or writes, a finite set, so that a hash of 32
bytes can have no collision on them. -/
structure Addressed : Prop where
  collisionFree : Set.InjOn codec.blake256 encodings
  null : nullRlp ∈ encodings
  keyed : ViewKeyed codec.toCodec backing
  backed : ∀ key value, backing key = some value → value ∈ encodings

variable {codec encodings}

omit [DecidableEq Hash] in
/-- A node of the encodings is never under the root of the empty trie. -/
theorem hashOf_ne_blakeNullRlp (collisionFree : Set.InjOn codec.blake256 encodings) (null : nullRlp ∈ encodings)
    {node : Node Hash} (fine : codec.encoded node ∈ encodings) : codec.hashOf node ≠ codec.blakeNullRlp :=
  fun same => encoded_ne_nullRlp codec node (collisionFree fine null same)

theorem readThrough_blakeNullRlp (journal : ArchiveDB Hash) :
    readThrough codec backing journal codec.blakeNullRlp = some nullRlp := by
  rw [readThrough, get_eq, if_pos rfl]

/-- Writing one of the encodings keeps the overlay sound. -/
theorem Sound.insert {journal : ArchiveDB Hash} (sound : Sound codec encodings journal) {bytes : Bytes}
    (fine : bytes ∈ encodings) : Sound codec encodings (MemoryDB.insert codec.toCodec journal bytes).2 := by
  refine ⟨sound.keyed.insert _ bytes, sound.counted.insert _ (by norm_num) bytes, fun key value rc found positive => ?_⟩
  by_cases here : key = codec.blake256 bytes
  · by_cases null : bytes = nullRlp
    · -- `NULL_RLP` is never stored: the journal is as it was
      rw [MemoryDB.insert, if_pos null] at found
      exact sound.within key value rc found positive
    · subst here
      obtain ⟨kept, count, entry, earlier⟩ := MemoryDB.lookup_insert_self codec.toCodec null
      rw [entry, Option.some_inj, Prod.mk.injEq] at found
      obtain ⟨rfl, rfl⟩ := found
      rcases earlier with ⟨before, referenced⟩ | ⟨rfl, _⟩
      · exact sound.within _ kept count before referenced
      · exact fine
  · rw [MemoryDB.lookup_insert_of_ne codec.toCodec here] at found
    exact sound.within key value rc found positive

theorem Sound.viewKeyed {journal : ArchiveDB Hash} (sound : Sound codec encodings journal)
    (keyedBacking : ViewKeyed codec.toCodec backing) :
    ViewKeyed codec.toCodec (readThrough codec backing journal) := by
  intro key value found
  rw [readThrough, get_eq] at found
  split at found
  · rename_i null
    rw [Option.some_inj] at found
    rw [← found, null]
    rfl
  · exact ViewKeyed.overlayOnto codec.toCodec keyedBacking sound.keyed key value found

/-- Every value read through a sound overlay is one of the encodings:
`NULL_RLP`, a referenced value of the overlay, or a value of the database. -/
theorem Sound.mem_of_read {journal : ArchiveDB Hash} (sound : Sound codec encodings journal)
    (addressed : Addressed codec backing encodings) {key : Hash} {value : Bytes}
    (found : readThrough codec backing journal key = some value) : value ∈ encodings := by
  rw [readThrough, get_eq] at found
  split at found
  · rw [← Option.some_inj.mp found]
    exact addressed.null
  · unfold overlayOnto at found
    split at found
    · rename_i stored rc entry
      split at found
      · rename_i positive
        rw [← Option.some_inj.mp found]
        exact sound.within key stored rc entry positive
      · exact addressed.backed key value found
    · exact addressed.backed key value found

theorem readThrough_insert_of_ne {journal : ArchiveDB Hash} {bytes : Bytes} {key : Hash}
    (other : key ≠ codec.blake256 bytes) :
    readThrough codec backing (MemoryDB.insert codec.toCodec journal bytes).2 key =
      readThrough codec backing journal key := by
  simp only [readThrough, get_eq, overlayOnto, MemoryDB.lookup_insert_of_ne codec.toCodec other]

/-- A node of the encodings written through a sound overlay reads back under
its hash: the entry there either was the node's encoding already, or takes it
now, and its count is above zero either way. -/
theorem stored_insert (addressed : Addressed codec backing encodings) {journal : ArchiveDB Hash}
    (sound : Sound codec encodings journal) (node : Node Hash) (fine : codec.encoded node ∈ encodings) :
    Stored codec (readThrough codec backing (MemoryDB.insert codec.toCodec journal (codec.encoded node)).2) node := by
  unfold Stored readThrough
  rw [get_eq, if_neg (hashOf_ne_blakeNullRlp addressed.collisionFree addressed.null fine)]
  obtain ⟨kept, rc, entry, earlier⟩ := MemoryDB.lookup_insert_self codec.toCodec (encoded_ne_nullRlp codec node)
  have positive : 0 < rc + 1 ∧ kept = codec.encoded node := by
    rcases earlier with ⟨before, referenced⟩ | ⟨same, fresh | ⟨old, before, _⟩⟩
    · -- a referenced entry under the node's hash holds one of the encodings
      exact ⟨by omega, addressed.collisionFree (sound.within _ kept rc before referenced) fine
        (sound.keyed _ kept rc before referenced)⟩
    · exact ⟨by omega, same⟩
    · have := sound.counted _ old rc before
      exact ⟨by omega, same⟩
  simp only [overlayOnto, TrieCodec.hashOf, entry, if_pos positive.1, positive.2]

/-- Writing a node of the encodings through a sound overlay keeps every value
read before. -/
theorem extends_insert (addressed : Addressed codec backing encodings) {journal : ArchiveDB Hash}
    (sound : Sound codec encodings journal) (node : Node Hash) (fine : codec.encoded node ∈ encodings) :
    Extends (readThrough codec backing journal)
      (readThrough codec backing (MemoryDB.insert codec.toCodec journal (codec.encoded node)).2) := by
  intro key value found
  by_cases here : key = codec.hashOf node
  · -- what was read under the node's hash already was the node's encoding
    have same : value = codec.encoded node := addressed.collisionFree (sound.mem_of_read addressed found) fine
      ((sound.viewKeyed addressed.keyed key value found).trans here)
    rw [here, same]
    exact stored_insert addressed sound node fine
  · rw [readThrough_insert_of_ne here]
    exact found

variable (codec backing encodings)

/-- `after` is `before` with nodes written into it: still sound, and reading
everything `before` read. -/
structure Grows (before after : ArchiveDB Hash) : Prop where
  sound : Sound codec encodings after
  keeps : Extends (readThrough codec backing before) (readThrough codec backing after)

variable {codec backing encodings}

theorem Grows.refl {journal : ArchiveDB Hash} (sound : Sound codec encodings journal) :
    Grows codec backing encodings journal journal :=
  ⟨sound, Extends.refl _⟩

theorem Grows.trans {first middle last : ArchiveDB Hash} (earlier : Grows codec backing encodings first middle)
    (later : Grows codec backing encodings middle last) : Grows codec backing encodings first last :=
  ⟨later.sound, earlier.keeps.trans later.keeps⟩

/-- Writing a node of the encodings grows the overlay. -/
theorem Grows.insert (addressed : Addressed codec backing encodings) {journal : ArchiveDB Hash}
    (sound : Sound codec encodings journal) (node : Node Hash) (fine : codec.encoded node ∈ encodings) :
    Grows codec backing encodings journal (MemoryDB.insert codec.toCodec journal (codec.encoded node)).2 :=
  ⟨sound.insert fine, extends_insert addressed sound node fine⟩

end Database

/-! ### The tries of `TrieDBMut` -/

/-- The trie at `hash` holds `map`, whose paths are all `depth` long, and has
the shape `TrieDBMut` keeps: every node is stored under its hash, a leaf holds
the rest of its path, a slot is empty exactly when it holds nothing, and a
branch has two occupied slots or more. -/
inductive Holds (view : Hash → Option Bytes) : ℕ → Hash → (Nibbles → Option Bytes) → Prop
  | leaf {stem : Nibbles} {value : Bytes} (stored : Stored codec view (.leaf stem value)) :
      Holds view stem.length (codec.hashOf (.leaf stem value)) (single stem value)
  | branch {stem : Nibbles} {children : Vector (Option Hash) 16} {slots : Fin 16 → Nibbles → Option Bytes}
      {depth : ℕ} (stored : Stored codec view (.branch stem children))
      (vacant : ∀ i, children.get i = none → ¬ Occupied (slots i))
      (held : ∀ i child, children.get i = some child → Holds view depth child (slots i))
      (forks : Forks slots) :
      Holds view (stem.length + 1 + depth) (codec.hashOf (.branch stem children)) (through stem slots)

/-- What a child slot holds: nothing when it is empty, the map of its trie
otherwise. -/
def SlotHolds (view : Hash → Option Bytes) (depth : ℕ) : Option Hash → (Nibbles → Option Bytes) → Prop
  | none, map => ¬ Occupied map
  | some hash, map => Holds codec view depth hash map

/-- The trie at `root` holds `map`, whose paths are the 64 nibbles of a hash:
the root of the empty trie holds nothing, and any other root is a trie of the
shape `Holds` says. -/
def RootHolds (view : Hash → Option Bytes) (root : Hash) (map : Nibbles → Option Bytes) : Prop :=
  root = codec.blakeNullRlp ∧ ¬ Occupied map ∨ Holds codec view 64 root map

variable {codec}

/-- A new trie holds nothing. -/
theorem rootHolds_new (view : Hash → Option Bytes) (journal : ArchiveDB Hash) :
    RootHolds codec view (TrieDBMut.new codec journal).root fun _ => none :=
  .inl ⟨rfl, fun ⟨_, _, found⟩ => by cases found⟩

section Shape

variable {view later : Hash → Option Bytes}

theorem Holds.occupied {depth : ℕ} {hash : Hash} {map : Nibbles → Option Bytes} (holds : Holds codec view depth hash map) :
    Occupied map := by
  cases holds with
  | leaf => exact occupied_single _ _
  | branch _ _ _ forks => exact occupied_through forks

/-- The root of a trie is the hash of a node stored under it. -/
theorem Holds.stored {depth : ℕ} {hash : Hash} {map : Nibbles → Option Bytes} (holds : Holds codec view depth hash map) :
    ∃ node, hash = codec.hashOf node ∧ Stored codec view node := by
  cases holds with
  | leaf stored => exact ⟨_, rfl, stored⟩
  | branch stored => exact ⟨_, rfl, stored⟩

/-- A trie keeps what it holds in a database that keeps what it read. -/
theorem Holds.mono (grows : Extends view later) {depth : ℕ} {hash : Hash} {map : Nibbles → Option Bytes}
    (holds : Holds codec view depth hash map) : Holds codec later depth hash map := by
  induction holds with
  | leaf stored => exact .leaf (grows _ _ stored)
  | branch stored vacant _ forks ih => exact .branch (grows _ _ stored) vacant ih forks

theorem SlotHolds.mono (grows : Extends view later) {depth : ℕ} {slot : Option Hash} {map : Nibbles → Option Bytes}
    (holds : SlotHolds codec view depth slot map) : SlotHolds codec later depth slot map := by
  cases slot with
  | none => exact holds
  | some hash => exact Holds.mono grows holds

/-- The empty slots of a branch whose slots hold as `SlotHolds` says. -/
theorem vacant_of_slotHolds {children : Vector (Option Hash) 16} {slots : Fin 16 → Nibbles → Option Bytes}
    {depth : ℕ} (slotsHold : ∀ i, SlotHolds codec view depth (children.get i) (slots i)) (i : Fin 16)
    (vacant : children.get i = none) : ¬ Occupied (slots i) := by
  have slot := slotsHold i
  rw [vacant] at slot
  exact slot

/-- The children of a branch whose slots hold as `SlotHolds` says. -/
theorem held_of_slotHolds {children : Vector (Option Hash) 16} {slots : Fin 16 → Nibbles → Option Bytes}
    {depth : ℕ} (slotsHold : ∀ i, SlotHolds codec view depth (children.get i) (slots i)) (i : Fin 16) (child : Hash)
    (held : children.get i = some child) : Holds codec view depth child (slots i) := by
  have slot := slotsHold i
  rw [held] at slot
  exact slot

/-- A branch as its slots say: each holds what its child holds, or nothing. -/
theorem Holds.ofSlots {stem : Nibbles} {children : Vector (Option Hash) 16} {slots : Fin 16 → Nibbles → Option Bytes}
    {depth : ℕ} (stored : Stored codec view (.branch stem children))
    (slotsHold : ∀ i, SlotHolds codec view depth (children.get i) (slots i)) (forks : Forks slots) :
    Holds codec view (stem.length + 1 + depth) (codec.hashOf (.branch stem children)) (through stem slots) :=
  .branch stored (vacant_of_slotHolds slotsHold) (held_of_slotHolds slotsHold) forks

/-- The slots of a branch as `Holds` has them. -/
theorem slotHolds_of_branch {children : Vector (Option Hash) 16} {slots : Fin 16 → Nibbles → Option Bytes}
    {depth : ℕ} (vacant : ∀ i, children.get i = none → ¬ Occupied (slots i))
    (held : ∀ i child, children.get i = some child → Holds codec view depth child (slots i)) (i : Fin 16) :
    SlotHolds codec view depth (children.get i) (slots i) := by
  cases slot : children.get i with
  | none => exact vacant i slot
  | some child => exact held i child slot

/-- A child slot set in a vector of children, the others kept. -/
theorem slotHolds_set {children : Vector (Option Hash) 16} {slots : Fin 16 → Nibbles → Option Bytes} {depth : ℕ}
    {i : Fin 16} {slot : Option Hash} {map : Nibbles → Option Bytes}
    (others : ∀ j, j ≠ i → SlotHolds codec view depth (children.get j) (slots j))
    (here : SlotHolds codec view depth slot map) (j : Fin 16) :
    SlotHolds codec view depth ((children.set i slot i.isLt).get j) (Function.update slots i map j) := by
  rw [Vector.get_eq_getElem]
  by_cases same : j = i
  · subst same
    simpa using here
  · have apart : (i : ℕ) ≠ j := fun equal => same (Fin.ext equal).symm
    rw [Function.update_of_ne same, Vector.getElem_set_ne _ _ apart, ← Vector.get_eq_getElem]
    exact others j same

end Shape

/-! ### The canonical tries -/

section Canonical

variable {view : Hash → Option Bytes}

variable (codec) in
/-- `node` is the node of the shape `Holds` says for `map`, whose paths are
`depth` long, with every child the hash of such a node: `Holds` without a
database.  Every node a run of `TrieDBMut` writes, and every node `trie_root`
hashes, is one of these for a part of a map the run passes through. -/
inductive Canon : ℕ → Node Hash → (Nibbles → Option Bytes) → Prop
  | leaf (stem : Nibbles) (value : Bytes) : Canon stem.length (.leaf stem value) (single stem value)
  | branch {stem : Nibbles} {children : Vector (Option Hash) 16} {slots : Fin 16 → Nibbles → Option Bytes}
      {depth : ℕ} (nodes : Fin 16 → Node Hash) (vacant : ∀ i, children.get i = none → ¬ Occupied (slots i))
      (named : ∀ i child, children.get i = some child → child = codec.hashOf (nodes i))
      (held : ∀ i child, children.get i = some child → Canon depth (nodes i) (slots i)) (forks : Forks slots) :
      Canon (stem.length + 1 + depth) (.branch stem children) (through stem slots)

/-- A branch whose every child is the hash of a canonical node of its slot is
canonical. -/
theorem Canon.ofChildren {stem : Nibbles} {children : Vector (Option Hash) 16}
    {slots : Fin 16 → Nibbles → Option Bytes} {depth : ℕ} (vacant : ∀ i, children.get i = none → ¬ Occupied (slots i))
    (held : ∀ i child, children.get i = some child → ∃ node, child = codec.hashOf node ∧ Canon codec depth node (slots i))
    (forks : Forks slots) : Canon codec (stem.length + 1 + depth) (.branch stem children) (through stem slots) := by
  -- a node for every slot, of any shape where the slot is empty
  have named : ∀ i, ∃ node, ∀ child, children.get i = some child →
      child = codec.hashOf node ∧ Canon codec depth node (slots i) := by
    intro i
    cases slot : children.get i with
    | none => exact ⟨.leaf [] [], fun _ absent => by cases absent⟩
    | some child =>
      obtain ⟨node, named, canon⟩ := held i child slot
      exact ⟨node, fun _ again => Option.some_inj.mp again ▸ ⟨named, canon⟩⟩
  choose nodes nodesSpec using named
  exact .branch nodes vacant (fun i child slot => (nodesSpec i child slot).1) (fun i child slot => (nodesSpec i child slot).2)
    forks

/-- A trie of the shape `Holds` says is the hash of a canonical node of its
map. -/
theorem Holds.canon {depth : ℕ} {hash : Hash} {map : Nibbles → Option Bytes} (holds : Holds codec view depth hash map) :
    ∃ node, hash = codec.hashOf node ∧ Canon codec depth node map := by
  induction holds with
  | leaf _ => exact ⟨_, rfl, .leaf _ _⟩
  | branch _ vacant _ forks ih => exact ⟨_, rfl, Canon.ofChildren vacant ih forks⟩

/-- A branch whose slots hold as `SlotHolds` says, in any database, is
canonical. -/
theorem Canon.ofSlots {stem : Nibbles} {children : Vector (Option Hash) 16} {slots : Fin 16 → Nibbles → Option Bytes}
    {depth : ℕ} (slotsHold : ∀ i, SlotHolds codec view depth (children.get i) (slots i)) (forks : Forks slots) :
    Canon codec (stem.length + 1 + depth) (.branch stem children) (through stem slots) :=
  Canon.ofChildren (vacant_of_slotHolds slotsHold) (fun i child held => (held_of_slotHolds slotsHold i child held).canon)
    forks

theorem Canon.occupied {depth : ℕ} {node : Node Hash} {map : Nibbles → Option Bytes}
    (canon : Canon codec depth node map) : Occupied map := by
  cases canon with
  | leaf => exact occupied_single _ _
  | branch _ _ _ _ forks => exact occupied_through forks

/-- A map has one canonical node at most, whatever collisions the hash has:
leaves and branches are told apart by their maps, a branch's stem and slots
are its map's, and its children are the hashes of the same nodes by
induction. -/
theorem Canon.unique {depth : ℕ} {node : Node Hash} {map : Nibbles → Option Bytes} (canon : Canon codec depth node map) :
    ∀ {depth' : ℕ} {node' : Node Hash} {map' : Nibbles → Option Bytes}, Canon codec depth' node' map' →
      map = map' → node = node' := by
  induction canon with
  | leaf =>
    intro depth' node' map' canon' same
    cases canon' with
    | leaf =>
      obtain ⟨rfl, rfl⟩ := single_inj same
      rfl
    | branch _ _ _ _ forks' => exact absurd same (single_ne_through forks')
  | branch nodes vacant named held forks ih =>
    rename_i stem children slots depth
    intro depth' node' map' canon' same
    cases canon' with
    | leaf => exact absurd same.symm (single_ne_through forks)
    | branch nodes' vacant' named' held' forks' =>
      rename_i children' _ _
      obtain ⟨rfl, rfl⟩ := through_inj forks forks' same
      -- each slot holds the same map, so its child is the hash of the same node
      have sameChild : ∀ i : Fin 16, children.get i = children'.get i := by
        intro i
        cases slot : children.get i with
        | none =>
          cases slot' : children'.get i with
          | none => rfl
          | some child' => exact absurd (held' i child' slot').occupied (vacant i slot)
        | some child =>
          cases slot' : children'.get i with
          | none => exact absurd (held i child slot).occupied (vacant' i slot')
          | some child' => rw [named i child slot, named' i child' slot', ih i child slot (held' i child' slot') rfl]
      rw [Vector.ext fun i within => sameChild ⟨i, within⟩]

variable (codec) in
/-- Every canonical node of every part of `map` has its encoding in
`encodings`. -/
def Covered (encodings : Set Bytes) (map : Nibbles → Option Bytes) : Prop :=
  ∀ route depth node, Canon codec depth node (past map route) → codec.encoded node ∈ encodings

variable {encodings : Set Bytes} {map : Nibbles → Option Bytes}

theorem Covered.mem (covered : Covered codec encodings map) {depth : ℕ} {node : Node Hash}
    (canon : Canon codec depth node map) : codec.encoded node ∈ encodings := by
  rw [← past_nil map] at canon
  exact covered [] depth node canon

/-- The parts of a covered map are covered. -/
theorem Covered.part (covered : Covered codec encodings map) (route : Nibbles) :
    Covered codec encodings (past map route) := by
  intro route' depth node canon
  rw [past_past] at canon
  exact covered (route ++ route') depth node canon

/-- The slots of a covered branch's map are covered. -/
theorem Covered.slot {stem : Nibbles} {slots : Fin 16 → Nibbles → Option Bytes}
    (covered : Covered codec encodings (through stem slots)) (i : Fin 16) : Covered codec encodings (slots i) := by
  have slot := covered.part (stem ++ [i])
  rwa [past_through] at slot

/-- Set at a path through a branch, the map's part in the path's slot is the
slot's map set at the rest of the path, and covered with it. -/
theorem Covered.slot_update {stem rest : Nibbles} {slots : Fin 16 → Nibbles → Option Bytes} {index : Fin 16}
    {value : Option Bytes} (covered : Covered codec encodings (Function.update (through stem slots) (stem ++ index :: rest) value)) :
    Covered codec encodings (Function.update (slots index) rest value) := by
  rw [update_through] at covered
  simpa using covered.slot index

end Canonical

/-! ### Reading -/

theorem startsWith_iff (path stem : Nibbles) : startsWith path stem = true ↔ stem <+: path := by
  rw [startsWith, decide_eq_true_iff, commonPrefix_comm, commonPrefix_eq_length_iff]

/-- A path of the length of a branch's paths that runs through its stem goes on
into one of its slots. -/
theorem exists_slot_of_prefix {stem path : Nibbles} {depth : ℕ} (length : path.length = stem.length + 1 + depth)
    (runs : stem <+: path) : ∃ index rest, path = stem ++ index :: rest ∧ rest.length = depth := by
  obtain ⟨after, rfl⟩ := runs
  cases after with
  | nil =>
    simp only [List.append_nil] at length
    omega
  | cons index rest =>
    refine ⟨index, rest, rfl, ?_⟩
    simp only [List.length_append, List.length_cons] at length
    omega

/-- `get_aux` reads what the trie holds at a path of its length. -/
theorem getAux_of_holds {view : Hash → Option Bytes} {depth : ℕ} {hash : Hash} {map : Nibbles → Option Bytes}
    (holds : Holds codec view depth hash map) {path : Nibbles} (length : path.length = depth) :
    getAux codec view path (some hash) = .ok (map path) := by
  induction holds generalizing path with
  | leaf stored =>
    rename_i stem value
    unfold Stored at stored
    simp only [getAux, stored, codec.decoded_encoded, single]
    by_cases same : stem = path
    · rw [if_pos same, if_pos same.symm]
      rfl
    · rw [if_neg same, if_neg (Ne.symm same)]
      rfl
  | branch stored vacant held forks ih =>
    rename_i stem children slots depth
    unfold Stored at stored
    simp only [getAux, stored, codec.decoded_encoded]
    by_cases runs : stem <+: path
    · -- the walk goes on into the slot of the next nibble
      rw [if_pos ((startsWith_iff path stem).mpr runs)]
      obtain ⟨index, rest, rfl, restLength⟩ := exists_slot_of_prefix length runs
      split
      · rename_i next
        simp at next
      · rename_i index' rest' next
        simp only [List.drop_left', List.cons.injEq] at next
        obtain ⟨rfl, rfl⟩ := next
        rw [through_append_cons]
        cases slot : children[index] with
        | none =>
          have empty : slots index rest = none := by
            cases found : slots index rest with
            | none => rfl
            | some value => exact absurd ⟨rest, value, found⟩ (vacant index slot)
          rw [empty, getAux]
          rfl
        | some child => exact ih index child slot restLength
    · -- a path off the stem is not in the branch's map
      rw [if_neg (fun starts => runs ((startsWith_iff path stem).mp starts))]
      cases found : through stem slots path with
      | none => rfl
      | some value => exact absurd (prefix_of_through_eq_some found) runs

/-- `TrieMut::get` on a trie of the shape `TrieDBMut` keeps never fails, and
answers what the trie holds at the key's path. -/
theorem TrieDBMut.get_holds [DecidableEq Hash] {backing : Store Hash} {trie : TrieDBMut Hash}
    {map : Nibbles → Option Bytes} (holds : RootHolds codec (readThrough codec backing trie.journal) trie.root map)
    (key : Bytes) : trie.get codec backing key = .ok (map (codec.pathOf key)) := by
  rcases holds with ⟨empty, vacant⟩ | holds
  · -- the root of the empty trie is always there, and reads as no node
    have nothing : map (codec.pathOf key) = none := by
      cases found : map (codec.pathOf key) with
      | none => rfl
      | some held => exact absurd ⟨_, held, found⟩ vacant
    have found : readThrough codec backing trie.journal codec.blakeNullRlp = some nullRlp :=
      readThrough_blakeNullRlp trie.journal
    rw [← empty] at found
    simp [TrieDBMut.get, tryNew, trieDBGet, getAux, found, codec.decoded_nullRlp, nothing]
  · obtain ⟨node, root, stored⟩ := holds.stored
    unfold Stored at stored
    rw [← root] at stored
    simp only [TrieDBMut.get, tryNew, stored, Option.isSome_some, ↓reduceIte]
    exact getAux_of_holds holds (codec.length_nibblesOf _)

/-! ### The root is a function of the map -/

/-- Two tries of the shape `Holds` says that hold the same map have the same
root, whatever databases they are read from: their roots are the hashes of the
map's one canonical node. -/
theorem Holds.hash_eq {view view' : Hash → Option Bytes} {depth depth' : ℕ} {hash hash' : Hash}
    {map : Nibbles → Option Bytes} (holds : Holds codec view depth hash map) (holds' : Holds codec view' depth' hash' map) :
    hash = hash' := by
  obtain ⟨node, rfl, canon⟩ := holds.canon
  obtain ⟨node', rfl, canon'⟩ := holds'.canon
  rw [canon.unique canon' rfl]

/-- Two tries that hold the same map have the same root. -/
theorem RootHolds.root_eq {view view' : Hash → Option Bytes} {root root' : Hash} {map : Nibbles → Option Bytes}
    (holds : RootHolds codec view root map) (holds' : RootHolds codec view' root' map) : root = root' := by
  rcases holds with ⟨rfl, vacant⟩ | holds <;> rcases holds' with ⟨rfl, vacant'⟩ | holds'
  · rfl
  · exact absurd holds'.occupied vacant
  · exact absurd holds.occupied vacant'
  · exact holds.hash_eq holds'

/-- `TrieMut::is_empty`, which compares the root with the root of the empty
trie, says whether the trie holds nothing, when the hash has no collision with
`NULL_RLP` on the map's canonical nodes. -/
theorem RootHolds.root_eq_blakeNullRlp_iff {encodings : Set Bytes} (collisionFree : Set.InjOn codec.blake256 encodings)
    (null : nullRlp ∈ encodings) {view : Hash → Option Bytes} {root : Hash} {map : Nibbles → Option Bytes}
    (covered : Covered codec encodings map) (holds : RootHolds codec view root map) :
    root = codec.blakeNullRlp ↔ ¬ Occupied map := by
  rcases holds with ⟨empty, vacant⟩ | holds
  · exact ⟨fun _ => vacant, fun _ => empty⟩
  · refine ⟨fun empty => ?_, fun vacant => absurd holds.occupied vacant⟩
    obtain ⟨node, rfl, canon⟩ := holds.canon
    exact absurd empty (hashOf_ne_blakeNullRlp collisionFree null (covered.mem canon))

end Merkle

end CodeChain
