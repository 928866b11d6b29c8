import CodeChain.Merkle.TrieMap

/-!
# Inserting into the trie

`insert_aux` on a trie of the shape `TrieDBMut` keeps, at a path of the trie's
length, never fails: it answers the root of a trie of the same shape that holds
the new value at the path and everything else as before, and sets `old_val` to
what the path held.  Each way through the code has its lemma: a leaf renewed, a
leaf split into a branch over the common part of the two paths, a branch split
the same way when the path leaves its stem, and the walk on into the slot of the
next nibble; the induction over the trie puts them together
(`insertAux_inserted`).  Every node written is the canonical node of a part of
the new map, so its encoding is one the hash has no collision on; the database
only grows, and what the trie held before stays readable (`Grows`).
-/

namespace CodeChain

namespace Merkle

open Sync.Snapshot PathMap

variable {Hash : Type} [DecidableEq Hash] {codec : TrieCodec Hash} {backing : Store Hash} {encodings : Set Bytes}

variable (codec backing encodings) in
/-- What `insert_aux` leaves when it puts `value` at `path` into a slot holding
`map`, whose paths are `depth` long: the root of a trie that holds `map` with
`value` at `path`, in an overlay grown from the one before, and `old_val` set
to what the path held, if anything. -/
def Inserted (before : Scratch Hash) (depth : ℕ) (map : Nibbles → Option Bytes) (path : Nibbles) (value : Bytes) :
    Except (Fault (TrieError Hash)) Hash × Scratch Hash → Prop
  | (.ok root, after) =>
    Grows codec backing encodings before.journal after.journal ∧
      Holds codec (readThrough codec backing after.journal) depth root (Function.update map path (some value)) ∧
      after.oldVal = (map path).or before.oldVal
  | (.error _, _) => False

omit [DecidableEq Hash] in
@[simp]
theorem getElem_emptyChildren {i : ℕ} (within : i < 16) : (emptyChildren : Vector (Option Hash) 16)[i] = none := by
  simp [emptyChildren]

omit [DecidableEq Hash] in
/-- A slot of a vector of children that holds nothing holds no map. -/
theorem slotHolds_emptyChildren {view : Hash → Option Bytes} {depth : ℕ} (i : Fin 16) :
    SlotHolds codec view depth ((emptyChildren : Vector (Option Hash) 16).get i) ((fun _ _ => none) i) := by
  rw [Vector.get_eq_getElem, getElem_emptyChildren i.isLt]
  rintro ⟨key, found, held⟩
  cases held

theorem insertAux_none (path : Nibbles) (value : Bytes) :
    insertAux codec backing path value none = write codec (codec.encoded (.leaf path value)) := by
  rw [insertAux]

omit [DecidableEq Hash] in
/-- The slots of a fresh branch with two children. -/
theorem slotHolds_fork {view : Hash → Option Bytes} {i j : Fin 16} {first second : Hash}
    {firstMap secondMap : Nibbles → Option Bytes} {depth : ℕ} (firstHolds : Holds codec view depth first firstMap)
    (secondHolds : Holds codec view depth second secondMap) (k : Fin 16) :
    SlotHolds codec view depth (((emptyChildren.set i (some first) i.isLt).set j (some second) j.isLt).get k)
      (Function.update (Function.update (fun _ _ => none) i firstMap) j secondMap k) := by
  have firstSlot : SlotHolds codec view depth (some first) firstMap := firstHolds
  have secondSlot : SlotHolds codec view depth (some second) secondMap := secondHolds
  exact slotHolds_set (fun k _ => slotHolds_set (fun k _ => slotHolds_emptyChildren k) firstSlot k) secondSlot k

omit [DecidableEq Hash] in
/-- A fresh branch over `stem` with two children, in two different slots. -/
theorem holds_fork {view : Hash → Option Bytes} {stem : Nibbles} {i j : Fin 16} (apart : i ≠ j) {first second : Hash}
    {firstMap secondMap : Nibbles → Option Bytes} {depth : ℕ} (firstHolds : Holds codec view depth first firstMap)
    (secondHolds : Holds codec view depth second secondMap)
    (stored : Stored codec view (.branch stem ((emptyChildren.set i (some first) i.isLt).set j (some second) j.isLt))) :
    Holds codec view (stem.length + 1 + depth)
      (codec.hashOf (.branch stem ((emptyChildren.set i (some first) i.isLt).set j (some second) j.isLt)))
      (through stem (Function.update (Function.update (fun _ _ => none) i firstMap) j secondMap)) :=
  Holds.ofSlots stored (slotHolds_fork firstHolds secondHolds) (forks_pair apart firstHolds.occupied secondHolds.occupied)

omit [DecidableEq Hash] in
/-- That branch is canonical. -/
theorem canon_fork {view : Hash → Option Bytes} {stem : Nibbles} {i j : Fin 16} (apart : i ≠ j) {first second : Hash}
    {firstMap secondMap : Nibbles → Option Bytes} {depth : ℕ} (firstHolds : Holds codec view depth first firstMap)
    (secondHolds : Holds codec view depth second secondMap) :
    Canon codec (stem.length + 1 + depth) (.branch stem ((emptyChildren.set i (some first) i.isLt).set j (some second) j.isLt))
      (through stem (Function.update (Function.update (fun _ _ => none) i firstMap) j secondMap)) :=
  Canon.ofSlots (slotHolds_fork firstHolds secondHolds) (forks_pair apart firstHolds.occupied secondHolds.occupied)

omit [DecidableEq Hash] in
/-- The two slots of a covered fork are covered. -/
theorem Covered.fork {stem : Nibbles} {i j : Fin 16} (apart : i ≠ j) {firstMap secondMap : Nibbles → Option Bytes}
    (covered : Covered codec encodings
      (through stem (Function.update (Function.update (fun _ _ => none) i firstMap) j secondMap))) :
    Covered codec encodings firstMap ∧ Covered codec encodings secondMap := by
  have first := covered.slot i
  have second := covered.slot j
  rw [Function.update_of_ne apart, Function.update_self] at first
  rw [Function.update_self] at second
  exact ⟨first, second⟩

/-! ### The ways through `insert_aux` -/

/-- An empty slot takes a leaf. -/
theorem inserted_none (addressed : Addressed codec backing encodings) {scratch : Scratch Hash}
    (sound : Sound codec encodings scratch.journal) {map : Nibbles → Option Bytes} (vacant : ¬ Occupied map)
    (path : Nibbles) (value : Bytes) (covered : Covered codec encodings (Function.update map path (some value))) :
    Inserted codec backing encodings scratch path.length map path value
      ((insertAux codec backing path value none).run scratch) := by
  rw [insertAux_none, run_write, MemoryDB.fst_insert]
  have nothing : map path = none := by
    cases found : map path with
    | none => rfl
    | some held => exact absurd ⟨path, held, found⟩ vacant
  rw [update_of_not_occupied vacant] at covered
  have fine := covered.mem (.leaf path value)
  refine ⟨Grows.insert addressed sound _ fine, ?_, by simp [nothing]⟩
  rw [update_of_not_occupied vacant]
  exact .leaf (stored_insert addressed sound _ fine)

/-- The root of the empty trie reads as no node, and takes a leaf. -/
theorem inserted_blakeNullRlp (addressed : Addressed codec backing encodings) {scratch : Scratch Hash}
    (sound : Sound codec encodings scratch.journal) {map : Nibbles → Option Bytes} (vacant : ¬ Occupied map)
    (path : Nibbles) (value : Bytes) (covered : Covered codec encodings (Function.update map path (some value))) :
    Inserted codec backing encodings scratch path.length map path value
      ((insertAux codec backing path value (some codec.blakeNullRlp)).run scratch) := by
  rw [insertAux]
  simp only [Faulty.run_bind, run_fetch_of_eq_some codec backing (readThrough_blakeNullRlp scratch.journal),
    codec.decoded_nullRlp]
  rw [← insertAux_none path value]
  exact inserted_none addressed sound vacant path value covered

/-- A leaf at the path is renewed, and `old_val` takes its value. -/
theorem inserted_renew (addressed : Addressed codec backing encodings) {scratch : Scratch Hash}
    (sound : Sound codec encodings scratch.journal) {stem : Nibbles} {old : Bytes}
    (stored : Stored codec (readThrough codec backing scratch.journal) (.leaf stem old)) (value : Bytes)
    (covered : Covered codec encodings (Function.update (single stem old) stem (some value))) :
    Inserted codec backing encodings scratch stem.length (single stem old) stem value
      ((insertAux codec backing stem value (some (codec.hashOf (.leaf stem old)))).run scratch) := by
  rw [insertAux]
  simp only [Faulty.run_bind, run_fetch_of_eq_some codec backing stored, codec.decoded_encoded, if_true, run_write,
    run_setOldVal, Faulty.run_pure, MemoryDB.fst_insert]
  rw [update_single_self] at covered
  have fine := covered.mem (.leaf stem value)
  refine ⟨Grows.insert addressed sound _ fine, ?_, by simp [single]⟩
  rw [update_single_self]
  exact .leaf (stored_insert addressed sound _ fine)

/-- A leaf whose path the new one parts from turns into a branch over their
common part, with the old leaf and the new one in two slots. -/
theorem inserted_split_leaf (addressed : Addressed codec backing encodings) {scratch : Scratch Hash}
    (sound : Sound codec encodings scratch.journal) {stem path : Nibbles} {old : Bytes}
    (stored : Stored codec (readThrough codec backing scratch.journal) (.leaf stem old))
    (length : path.length = stem.length) (differ : stem ≠ path) (value : Bytes)
    (covered : Covered codec encodings (Function.update (single stem old) path (some value))) :
    Inserted codec backing encodings scratch stem.length (single stem old) path value
      ((insertAux codec backing path value (some (codec.hashOf (.leaf stem old)))).run scratch) := by
  obtain ⟨oldIndex, oldRest, newIndex, newRest, oldDrop, newDrop, apart⟩ :=
    exists_drop_commonPrefix (commonPrefix_lt_of_ne length.symm differ)
      (length ▸ commonPrefix_lt_of_ne length.symm differ)
  rw [insertAux]
  simp only [Faulty.run_bind, run_fetch_of_eq_some codec backing stored, codec.decoded_encoded, if_neg differ,
    oldDrop, Fin.getElem_fin, getElem_emptyChildren, insertAux_none, run_write, MemoryDB.fst_insert]
  split
  · rename_i next
    rw [newDrop] at next
    cases next
  · rename_i index rest next
    rw [newDrop, List.cons.injEq] at next
    obtain ⟨rfl, rfl⟩ := next
    have apartVal : (oldIndex : ℕ) ≠ newIndex := fun same => apart (Fin.ext same)
    simp only [Faulty.run_bind, Vector.getElem_set_ne _ _ apartVal, getElem_emptyChildren, insertAux_none,
      run_write, MemoryDB.fst_insert, encodedUntil]
    have stemLength := congrArg List.length oldDrop
    have pathLength := congrArg List.length newDrop
    have commonLength := commonPrefix_le_length stem path
    simp only [List.length_drop, List.length_cons] at stemLength pathLength
    have restLength : newRest.length = oldRest.length := by omega
    -- the new map is the branch's over the two leaves, and so are the nodes written
    rw [update_single_of_parts apart oldDrop newDrop (take_commonPrefix stem path)] at covered
    obtain ⟨oldCovered, newCovered⟩ := covered.fork apart
    have oldFine := oldCovered.mem (.leaf oldRest old)
    have newFine := newCovered.mem (.leaf newRest value)
    -- the old leaf, the new leaf and the branch over them, written in this order
    have first := Grows.insert addressed sound _ oldFine
    have second := Grows.insert addressed first.sound _ newFine
    have oldHolds := (Holds.leaf (stored_insert addressed sound _ oldFine)).mono second.keeps
    have newHolds : Holds codec _ oldRest.length _ _ :=
      restLength ▸ Holds.leaf (stored_insert addressed first.sound _ newFine)
    have branchFine := covered.mem (canon_fork apart oldHolds newHolds)
    have third := Grows.insert addressed second.sound _ branchFine
    have fork := holds_fork apart (oldHolds.mono third.keeps) (newHolds.mono third.keeps)
      (stored_insert addressed second.sound _ branchFine)
    rw [← update_single_of_parts apart oldDrop newDrop (take_commonPrefix stem path), List.length_take,
      min_eq_left commonLength] at fork
    have depth : commonPrefix stem path + 1 + oldRest.length = stem.length := by omega
    refine ⟨first.trans (second.trans third), depth ▸ fork, ?_⟩
    simp [single, Ne.symm differ]

/-- A branch whose stem the path leaves turns into a branch over their common
part, with the old branch, shortened, and a leaf for the new value in two
slots. -/
theorem inserted_split_branch (addressed : Addressed codec backing encodings) {scratch : Scratch Hash}
    (sound : Sound codec encodings scratch.journal) {stem : Nibbles} {children : Vector (Option Hash) 16}
    {slots : Fin 16 → Nibbles → Option Bytes} {depth : ℕ}
    (stored : Stored codec (readThrough codec backing scratch.journal) (.branch stem children))
    (vacant : ∀ i, children.get i = none → ¬ Occupied (slots i))
    (held : ∀ i child, children.get i = some child → Holds codec (readThrough codec backing scratch.journal) depth child (slots i))
    (forks : Forks slots) {path : Nibbles} (length : path.length = stem.length + 1 + depth) (leaves : ¬ stem <+: path)
    (value : Bytes) (covered : Covered codec encodings (Function.update (through stem slots) path (some value))) :
    Inserted codec backing encodings scratch (stem.length + 1 + depth) (through stem slots) path value
      ((insertAux codec backing path value (some (codec.hashOf (.branch stem children)))).run scratch) := by
  have commonLength := commonPrefix_le_length stem path
  have short : commonPrefix stem path < stem.length :=
    lt_of_le_of_ne commonLength fun whole => leaves ((commonPrefix_eq_length_iff stem path).mp whole)
  obtain ⟨oldIndex, oldRest, newIndex, newRest, oldDrop, newDrop, apart⟩ :=
    exists_drop_commonPrefix short (by omega)
  rw [insertAux]
  simp only [Faulty.run_bind, run_fetch_of_eq_some codec backing stored, codec.decoded_encoded, if_pos short,
    oldDrop, List.drop_one, List.tail_cons, run_write, MemoryDB.fst_insert]
  split
  · rename_i next
    rw [newDrop] at next
    cases next
  · rename_i index rest next
    rw [newDrop, List.cons.injEq] at next
    obtain ⟨rfl, rfl⟩ := next
    have apartVal : (oldIndex : ℕ) ≠ newIndex := fun same => apart (Fin.ext same)
    simp only [Faulty.run_bind, Fin.getElem_fin, Vector.getElem_set_ne _ _ apartVal, getElem_emptyChildren,
      insertAux_none, run_write, MemoryDB.fst_insert, encodedUntil]
    have stemLength := congrArg List.length oldDrop
    have pathLength := congrArg List.length newDrop
    simp only [List.length_drop, List.length_cons] at stemLength pathLength
    have restLength : newRest.length = oldRest.length + 1 + depth := by omega
    -- the new map is the branch's over the old branch, shortened, and the new leaf
    rw [update_through_of_parts apart oldDrop newDrop (take_commonPrefix stem path)] at covered
    obtain ⟨oldCovered, newCovered⟩ := covered.fork apart
    have oldFine := oldCovered.mem (Canon.ofSlots (slotHolds_of_branch vacant held) forks)
    have newFine := newCovered.mem (.leaf newRest value)
    -- the old branch shortened, the new leaf and the branch over them, written in this order
    have first := Grows.insert addressed sound _ oldFine
    have second := Grows.insert addressed first.sound _ newFine
    have oldHolds := (Holds.branch (stored_insert addressed sound _ oldFine) vacant
      (fun i child slot => (held i child slot).mono first.keeps) forks).mono second.keeps
    have newHolds : Holds codec _ (oldRest.length + 1 + depth) _ _ :=
      restLength ▸ Holds.leaf (stored_insert addressed first.sound _ newFine)
    have branchFine := covered.mem (canon_fork apart oldHolds newHolds)
    have third := Grows.insert addressed second.sound _ branchFine
    have fork := holds_fork apart (oldHolds.mono third.keeps) (newHolds.mono third.keeps)
      (stored_insert addressed second.sound _ branchFine)
    rw [← update_through_of_parts apart oldDrop newDrop (take_commonPrefix stem path), List.length_take,
      min_eq_left commonLength] at fork
    have depthEq : commonPrefix stem path + 1 + (oldRest.length + 1 + depth) = stem.length + 1 + depth := by omega
    refine ⟨first.trans (second.trans third), depthEq ▸ fork, ?_⟩
    have nothing : through stem slots path = none := by
      cases found : through stem slots path with
      | none => rfl
      | some held => exact absurd (prefix_of_through_eq_some found) leaves
    simp [nothing]

/-- A path that runs through a branch's stem goes on into the slot of the next
nibble, and the branch is written again with the slot's new child. -/
theorem inserted_descend (addressed : Addressed codec backing encodings) {scratch : Scratch Hash} {stem : Nibbles}
    {children : Vector (Option Hash) 16} {slots : Fin 16 → Nibbles → Option Bytes} {depth : ℕ}
    (stored : Stored codec (readThrough codec backing scratch.journal) (.branch stem children))
    (vacant : ∀ i, children.get i = none → ¬ Occupied (slots i))
    (held : ∀ i child, children.get i = some child → Holds codec (readThrough codec backing scratch.journal) depth child (slots i))
    (forks : Forks slots) {index : Fin 16} {rest : Nibbles} (value : Bytes)
    (covered : Covered codec encodings (Function.update (through stem slots) (stem ++ index :: rest) (some value)))
    (child : Inserted codec backing encodings scratch depth (slots index) rest value
      ((insertAux codec backing rest value (children.get index)).run scratch)) :
    Inserted codec backing encodings scratch (stem.length + 1 + depth) (through stem slots) (stem ++ index :: rest) value
      ((insertAux codec backing (stem ++ index :: rest) value (some (codec.hashOf (.branch stem children)))).run
        scratch) := by
  have whole : commonPrefix stem (stem ++ index :: rest) = stem.length :=
    (commonPrefix_eq_length_iff _ _).mpr (List.prefix_append _ _)
  rw [insertAux]
  simp only [Faulty.run_bind, run_fetch_of_eq_some codec backing stored, codec.decoded_encoded, whole,
    lt_self_iff_false, ↓reduceIte]
  split
  · rename_i next
    rw [whole, List.drop_left] at next
    cases next
  · rename_i index' rest' next
    rw [whole, List.drop_left, List.cons.injEq] at next
    obtain ⟨rfl, rfl⟩ := next
    rw [Faulty.run_bind]
    have ran : Inserted codec backing encodings scratch depth (slots index) rest value
        ((insertAux codec backing rest value children[index]).run scratch) := child
    generalize (insertAux codec backing rest value children[index]).run scratch = result at ran ⊢
    obtain ⟨_ | newHash, after⟩ := result
    · cases ran
    · obtain ⟨grows, holds, oldVal⟩ := ran
      simp only [run_write, MemoryDB.fst_insert]
      -- the slots of the branch with the slot's new child, before the branch is written
      have slotsHold : ∀ k, SlotHolds codec (readThrough codec backing after.journal) depth
          ((children.set index (some newHash) index.isLt).get k)
          (Function.update slots index (Function.update (slots index) rest (some value)) k) :=
        slotHolds_set (fun j _ => (slotHolds_of_branch vacant held j).mono grows.keeps) holds
      have forks' : Forks (Function.update slots index (Function.update (slots index) rest (some value))) :=
        forks.update holds.occupied
      rw [update_through] at covered
      have fine := covered.mem (Canon.ofSlots slotsHold forks')
      have last := Grows.insert addressed grows.sound _ fine
      refine ⟨grows.trans last, ?_, ?_⟩
      · rw [update_through]
        exact Holds.ofSlots (stored_insert addressed grows.sound _ fine) (fun k => (slotsHold k).mono last.keeps) forks'
      · rw [oldVal, through_append_cons]

/-! ### Inserting into a whole trie -/

/-- `insert_aux` on a trie of the shape `TrieDBMut` keeps, at a path of the
trie's length, never fails and puts the value at the path: by induction over
the trie, one lemma for each way through the code. -/
theorem insertAux_inserted (addressed : Addressed codec backing encodings) {scratch : Scratch Hash}
    (sound : Sound codec encodings scratch.journal) {depth : ℕ} {hash : Hash} {map : Nibbles → Option Bytes}
    (holds : Holds codec (readThrough codec backing scratch.journal) depth hash map) {path : Nibbles}
    (length : path.length = depth) (value : Bytes) (covered : Covered codec encodings (Function.update map path (some value))) :
    Inserted codec backing encodings scratch depth map path value
      ((insertAux codec backing path value (some hash)).run scratch) := by
  induction holds generalizing path with
  | leaf stored =>
    rename_i stem old
    by_cases same : stem = path
    · subst same
      exact inserted_renew addressed sound stored value covered
    · exact inserted_split_leaf addressed sound stored length same value covered
  | branch stored vacant held forks ih =>
    rename_i stem children slots depth
    by_cases runs : stem <+: path
    · obtain ⟨index, rest, rfl, restLength⟩ := exists_slot_of_prefix length runs
      refine inserted_descend addressed stored vacant held forks value covered ?_
      cases slot : children.get index with
      | none => exact restLength ▸ inserted_none addressed sound (vacant index slot) rest value covered.slot_update
      | some child => exact ih index child slot restLength covered.slot_update
    · exact inserted_split_branch addressed sound stored vacant held forks length runs value covered

/-- `TrieMut::insert` on a trie of the shape `TrieDBMut` keeps never fails: it
answers what the key's path held, and leaves a trie of the same shape that
holds the value at the key's path and everything else as before, over an
overlay that only grew. -/
theorem TrieDBMut.insert_holds (addressed : Addressed codec backing encodings) {trie : TrieDBMut Hash}
    (sound : Sound codec encodings trie.journal) {map : Nibbles → Option Bytes}
    (holds : RootHolds codec (readThrough codec backing trie.journal) trie.root map) (key value : Bytes)
    (covered : Covered codec encodings (Function.update map (codec.pathOf key) (some value))) :
    (trie.insert codec backing key value).1 = .ok (map (codec.pathOf key)) ∧
      Grows codec backing encodings trie.journal (trie.insert codec backing key value).2.journal ∧
      RootHolds codec (readThrough codec backing (trie.insert codec backing key value).2.journal)
        (trie.insert codec backing key value).2.root (Function.update map (codec.pathOf key) (some value)) := by
  have length := codec.length_nibblesOf (codec.blake256 key)
  have inserted : Inserted codec backing encodings ⟨trie.journal, none⟩ 64 map (codec.pathOf key) value
      ((insertAux codec backing (codec.pathOf key) value (some trie.root)).run ⟨trie.journal, none⟩) := by
    rcases holds with ⟨empty, vacant⟩ | holds
    · rw [empty]
      exact length ▸ inserted_blakeNullRlp addressed sound vacant (codec.pathOf key) value covered
    · exact insertAux_inserted addressed sound holds length value covered
  unfold TrieDBMut.insert
  generalize (insertAux codec backing (codec.pathOf key) value (some trie.root)).run ⟨trie.journal, none⟩ = result
    at inserted ⊢
  obtain ⟨_ | root, after⟩ := result
  · cases inserted
  · obtain ⟨grows, holds', oldVal⟩ := inserted
    refine ⟨?_, grows, .inr holds'⟩
    dsimp only
    rw [oldVal, Option.or_none]

end Merkle

end CodeChain
