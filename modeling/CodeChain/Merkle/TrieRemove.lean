import CodeChain.Merkle.TrieMap

/-!
# Removing from the trie

`remove_aux` on a trie of the shape `TrieDBMut` keeps, at a path of the trie's
length, never fails: it answers what takes the trie's place, a trie of the
same shape that holds everything but the path, or nothing when nothing is
left, and sets `old_val` to what the path held.  A leaf at the path goes; a
path that a leaf or a branch does not hold leaves it as it was; and a path
through a branch goes on into the slot of the next nibble, after which the
branch is written again, or goes with its last slot, or, left with one child,
is merged with it into one node under the branch's path, the slot and the
child's path.  The merge is what keeps every branch with two children or more,
so that the shape, and with it the root, stays a function of the map; the
nodes written are the canonical nodes of parts of the new map.
-/

namespace CodeChain

namespace Merkle

open Sync.Snapshot PathMap

variable {Hash : Type} [DecidableEq Hash] {codec : TrieCodec Hash} {backing : Store Hash} {encodings : Set Bytes}

variable (codec backing encodings) in
/-- What `remove_aux` leaves when it removes `path` from a slot holding `map`,
whose paths are `depth` long: what takes the slot's place holds `map` without
`path`, nothing when nothing is left, in an overlay grown from the one before,
and `old_val` took what the path held, if anything. -/
def Removed (before : Scratch Hash) (depth : ℕ) (map : Nibbles → Option Bytes) (path : Nibbles) :
    Except (Fault (TrieError Hash)) (Option Hash) × Scratch Hash → Prop
  | (.ok slot, after) =>
    Grows codec backing encodings before.journal after.journal ∧
      SlotHolds codec (readThrough codec backing after.journal) depth slot (Function.update map path none) ∧
      after.oldVal = (map path).or before.oldVal
  | (.error _, _) => False

theorem removeAux_none (path : Nibbles) : removeAux codec backing path none = pure none := by
  rw [removeAux]

omit [DecidableEq Hash] in
/-- A slot is occupied exactly when its map holds something. -/
theorem SlotHolds.isSome_iff {view : Hash → Option Bytes} {depth : ℕ} {slot : Option Hash}
    {map : Nibbles → Option Bytes} (holds : SlotHolds codec view depth slot map) : slot.isSome ↔ Occupied map := by
  cases slot with
  | none =>
    constructor
    · intro isSome
      simp at isSome
    · intro occupied
      exact absurd occupied holds
  | some hash => exact ⟨fun _ => (holds : Holds codec view depth hash map).occupied, fun _ => rfl⟩

omit [DecidableEq Hash] in
/-- Slots with two children or more fork. -/
theorem forks_of_card {view : Hash → Option Bytes} {depth : ℕ} {children : Vector (Option Hash) 16}
    {slots : Fin 16 → Nibbles → Option Bytes} (slotsHold : ∀ k, SlotHolds codec view depth (children.get k) (slots k))
    (two : 1 < (occupiedSlots children).card) : Forks slots := by
  obtain ⟨i, iMember, j, jMember, apart⟩ := Finset.one_lt_card.mp two
  exact ⟨i, j, apart, (slotsHold i).isSome_iff.mp (mem_occupiedSlots.mp iMember),
    (slotsHold j).isSome_iff.mp (mem_occupiedSlots.mp jMember)⟩

/-! ### The ways through `remove_aux` -/

/-- Nothing taken from a slot that holds nothing. -/
theorem removed_none {scratch : Scratch Hash} (sound : Sound codec encodings scratch.journal) {depth : ℕ}
    {map : Nibbles → Option Bytes} (vacant : ¬ Occupied map) (path : Nibbles) :
    Removed codec backing encodings scratch depth map path ((removeAux codec backing path none).run scratch) := by
  rw [removeAux_none, Faulty.run_pure]
  have nothing : map path = none := by
    cases found : map path with
    | none => rfl
    | some held => exact absurd ⟨path, held, found⟩ vacant
  refine ⟨Grows.refl sound, ?_, by simp [nothing]⟩
  rw [Function.update_eq_self_iff.mpr nothing.symm]
  exact vacant

/-- A trie that does not hold the path stays as it was. -/
theorem removed_unchanged {scratch : Scratch Hash} (sound : Sound codec encodings scratch.journal) {depth : ℕ} {hash : Hash}
    {map : Nibbles → Option Bytes} (holds : Holds codec (readThrough codec backing scratch.journal) depth hash map)
    {path : Nibbles} (nothing : map path = none) :
    Removed codec backing encodings scratch depth map path (.ok (some hash), scratch) := by
  refine ⟨Grows.refl sound, ?_, by simp [nothing]⟩
  rw [Function.update_eq_self_iff.mpr nothing.symm]
  exact holds

/-- A leaf at the path goes, and `old_val` takes its value. -/
theorem removed_leaf_self {scratch : Scratch Hash} (sound : Sound codec encodings scratch.journal) {stem : Nibbles}
    {value : Bytes} (stored : Stored codec (readThrough codec backing scratch.journal) (.leaf stem value)) :
    Removed codec backing encodings scratch stem.length (single stem value) stem
      ((removeAux codec backing stem (some (codec.hashOf (.leaf stem value)))).run scratch) := by
  rw [removeAux]
  simp only [Faulty.run_bind, run_fetch_of_eq_some codec backing stored, codec.decoded_encoded, if_true,
    run_setOldVal, Faulty.run_pure]
  exact ⟨Grows.refl sound, not_occupied_update_single stem value, by simp [single]⟩

/-- A leaf at another path stays. -/
theorem removed_leaf_other {scratch : Scratch Hash} (sound : Sound codec encodings scratch.journal) {stem path : Nibbles}
    {value : Bytes} (stored : Stored codec (readThrough codec backing scratch.journal) (.leaf stem value))
    (differ : path ≠ stem) :
    Removed codec backing encodings scratch stem.length (single stem value) path
      ((removeAux codec backing path (some (codec.hashOf (.leaf stem value)))).run scratch) := by
  rw [removeAux]
  simp only [Faulty.run_bind, run_fetch_of_eq_some codec backing stored, codec.decoded_encoded, if_neg differ,
    Faulty.run_pure]
  exact removed_unchanged sound (.leaf stored) (by simp [single, differ])

/-- A branch whose stem the path leaves stays. -/
theorem removed_off_branch {scratch : Scratch Hash} (sound : Sound codec encodings scratch.journal) {stem : Nibbles}
    {children : Vector (Option Hash) 16} {slots : Fin 16 → Nibbles → Option Bytes} {depth : ℕ}
    (stored : Stored codec (readThrough codec backing scratch.journal) (.branch stem children))
    (vacant : ∀ i, children.get i = none → ¬ Occupied (slots i))
    (held : ∀ i child, children.get i = some child → Holds codec (readThrough codec backing scratch.journal) depth child (slots i))
    (forks : Forks slots) {path : Nibbles} (leaves : ¬ stem <+: path) :
    Removed codec backing encodings scratch (stem.length + 1 + depth) (through stem slots) path
      ((removeAux codec backing path (some (codec.hashOf (.branch stem children)))).run scratch) := by
  rw [removeAux]
  simp only [Faulty.run_bind, run_fetch_of_eq_some codec backing stored, codec.decoded_encoded,
    if_neg (fun starts => leaves ((startsWith_iff path stem).mp starts)), Faulty.run_pure]
  refine removed_unchanged sound (.branch stored vacant held forks) ?_
  cases found : through stem slots path with
  | none => rfl
  | some value => exact absurd (prefix_of_through_eq_some found) leaves

/-- A branch left with one child merges with it: the child's node, under the
branch's stem, the slot and the child's own stem, takes the branch's place. -/
theorem removed_merge (addressed : Addressed codec backing encodings) {scratch after : Scratch Hash} {stem : Nibbles}
    {children : Vector (Option Hash) 16} {slots : Fin 16 → Nibbles → Option Bytes} {depth : ℕ} {path : Nibbles}
    {map : Nibbles → Option Bytes} (hash : Hash) (grows : Grows codec backing encodings scratch.journal after.journal)
    (slotsHold : ∀ k, SlotHolds codec (readThrough codec backing after.journal) depth (children.get k) (slots k))
    (oldVal : after.oldVal = (map path).or scratch.oldVal) (removed : Function.update map path none = through stem slots)
    (one : (occupiedSlots children).card = 1) (covered : Covered codec encodings (Function.update map path none)) :
    Removed codec backing encodings scratch (stem.length + 1 + depth) map path
      ((do
        let only ← liftM (Fault.expect ((List.finRange 16).find? fun i => (children.get i).isSome)
          "Can not find leaf in the branch" : Except (Fault (TrieError Hash)) (Fin 16))
        let newLeafHash ← liftM (Fault.expect (children.get only) "Index is wrong" : Except (Fault (TrieError Hash)) Hash)
        let newLeafData ← fetch codec backing newLeafHash hash
        match codec.decoded newLeafData with
        | none => throw (.error (.incompleteDatabase hash))
        | some (.leaf childStem childValue) =>
          some <$> write codec (codec.encoded (.leaf (stem ++ only :: childStem) childValue))
        | some (.branch childStem grandchildren) =>
          some <$> write codec (codec.encoded (.branch (stem ++ only :: childStem) grandchildren)) :
        TrieM Hash (Option Hash)).run after) := by
  obtain ⟨only, alone⟩ := Finset.card_eq_one.mp one
  obtain ⟨onlyChild, onlySlot⟩ : ∃ child, children.get only = some child :=
    Option.isSome_iff_exists.mp (mem_occupiedSlots.mp (alone ▸ Finset.mem_singleton_self only))
  have search : (List.finRange 16).find? (fun i => (children.get i).isSome) = some only :=
    find?_eq_of_occupiedSlots_eq alone
  -- every other slot holds nothing
  have others : ∀ j, j ≠ only → ¬ Occupied (slots j) := by
    intro j apart occupied
    have member := mem_occupiedSlots.mpr ((slotsHold j).isSome_iff.mpr occupied)
    rw [alone, Finset.mem_singleton] at member
    exact apart member
  have onlyHolds : Holds codec (readThrough codec backing after.journal) depth onlyChild (slots only) := by
    have slot := slotsHold only
    rw [onlySlot] at slot
    exact slot
  simp only [Faulty.run_bind, Faulty.run_liftM, search, Fault.expect, onlySlot]
  generalize onlyMap : slots only = childMap at onlyHolds
  cases onlyHolds with
  | leaf stored =>
    rename_i childStem childValue
    simp only [run_fetch_of_eq_some codec backing stored, codec.decoded_encoded, Faulty.run_map, run_write,
      MemoryDB.fst_insert]
    rw [removed, through_eq_single others onlyMap] at covered
    have fine := covered.mem (.leaf (stem ++ only :: childStem) childValue)
    have last := Grows.insert addressed grows.sound _ fine
    refine ⟨grows.trans last, ?_, oldVal⟩
    rw [removed, through_eq_single others onlyMap]
    have length : (stem ++ only :: childStem).length = stem.length + 1 + childStem.length := by
      simp only [List.length_append, List.length_cons]
      omega
    exact length ▸ Holds.leaf (stored_insert addressed grows.sound _ fine)
  | branch stored vacant held forks =>
    rename_i childStem grandchildren childSlots childDepth
    simp only [run_fetch_of_eq_some codec backing stored, codec.decoded_encoded, Faulty.run_map, run_write,
      MemoryDB.fst_insert]
    rw [removed, through_eq_through others onlyMap] at covered
    have fine := covered.mem (Canon.ofSlots (slotHolds_of_branch vacant held) forks)
    have last := Grows.insert addressed grows.sound _ fine
    refine ⟨grows.trans last, ?_, oldVal⟩
    rw [removed, through_eq_through others onlyMap]
    have length : (stem ++ only :: childStem).length + 1 + childDepth =
        stem.length + 1 + (childStem.length + 1 + childDepth) := by
      simp only [List.length_append, List.length_cons]
      omega
    exact length ▸ Holds.branch (stored_insert addressed grows.sound _ fine) vacant
      (fun i grandchild slot => (held i grandchild slot).mono last.keeps) forks

/-- A path that runs through a branch's stem goes on into the slot of the next
nibble.  When the slot still holds something, the branch is written again; when
it is left empty, a branch with two children or more is written again, and a
branch left with one child is merged with it. -/
theorem removed_descend (addressed : Addressed codec backing encodings) {scratch : Scratch Hash} {stem : Nibbles}
    {children : Vector (Option Hash) 16} {slots : Fin 16 → Nibbles → Option Bytes} {depth : ℕ}
    (stored : Stored codec (readThrough codec backing scratch.journal) (.branch stem children))
    (vacant : ∀ i, children.get i = none → ¬ Occupied (slots i))
    (held : ∀ i child, children.get i = some child → Holds codec (readThrough codec backing scratch.journal) depth child (slots i))
    (forks : Forks slots) {index : Fin 16} {rest : Nibbles}
    (covered : Covered codec encodings (Function.update (through stem slots) (stem ++ index :: rest) none))
    (child : Removed codec backing encodings scratch depth (slots index) rest
      ((removeAux codec backing rest (children.get index)).run scratch)) :
    Removed codec backing encodings scratch (stem.length + 1 + depth) (through stem slots) (stem ++ index :: rest)
      ((removeAux codec backing (stem ++ index :: rest) (some (codec.hashOf (.branch stem children)))).run
        scratch) := by
  have starts : startsWith (stem ++ index :: rest) stem = true := (startsWith_iff _ _).mpr (List.prefix_append _ _)
  rw [removeAux]
  simp only [Faulty.run_bind, run_fetch_of_eq_some codec backing stored, codec.decoded_encoded, starts, if_true]
  split
  · rename_i next
    rw [List.drop_left] at next
    cases next
  · rename_i index' rest' next
    rw [List.drop_left, List.cons.injEq] at next
    obtain ⟨rfl, rfl⟩ := next
    rw [Faulty.run_bind]
    have ran : Removed codec backing encodings scratch depth (slots index) rest
        ((removeAux codec backing rest children[index]).run scratch) := child
    generalize (removeAux codec backing rest children[index]).run scratch = result at ran ⊢
    obtain ⟨_ | childSlot, after⟩ := result
    · cases ran
    · obtain ⟨grows, holds, oldVal⟩ := ran
      dsimp only
      -- the slots of the branch with the slot's new child
      have slotsHold : ∀ k, SlotHolds codec (readThrough codec backing after.journal) depth
          ((children.set index childSlot).get k) (Function.update slots index (Function.update (slots index) rest none) k) :=
        slotHolds_set (fun j _ => (slotHolds_of_branch vacant held j).mono grows.keeps) holds
      have oldVal' : after.oldVal = (through stem slots (stem ++ index :: rest)).or scratch.oldVal := by
        rw [through_append_cons]
        exact oldVal
      -- the branch written again, when its slots still fork
      have again : Forks (Function.update slots index (Function.update (slots index) rest none)) →
          Removed codec backing encodings scratch (stem.length + 1 + depth) (through stem slots) (stem ++ index :: rest)
            ((some <$> write codec (codec.encoded (.branch stem (children.set index childSlot)))).run after) := by
        intro forks'
        rw [Faulty.run_map, run_write, MemoryDB.fst_insert]
        have fine : codec.encoded (.branch stem (children.set index childSlot)) ∈ encodings := by
          have branch := covered
          rw [update_through] at branch
          exact branch.mem (Canon.ofSlots slotsHold forks')
        have last := Grows.insert addressed grows.sound _ fine
        refine ⟨grows.trans last, ?_, oldVal'⟩
        rw [update_through]
        exact Holds.ofSlots (stored_insert addressed grows.sound _ fine) (fun k => (slotsHold k).mono last.keeps)
          forks'
      have selfSlot : (children.set index childSlot)[index] = childSlot := by simp
      rw [selfSlot]
      cases childSlot with
      | some newChild =>
        rw [if_neg (fun absent => by cases absent)]
        exact again (forks.update (holds : Holds codec _ depth newChild _).occupied)
      | none =>
        rw [if_pos rfl]
        have count := vacant_add_card_occupiedSlots (children.set index none)
        -- a slot besides the emptied one still holds something
        obtain ⟨other, apart, otherOccupied⟩ := forks.exists_ne index
        have otherMember : other ∈ occupiedSlots (children.set index none) := by
          refine mem_occupiedSlots.mpr ((slotsHold other).isSome_iff.mpr ?_)
          rw [Function.update_of_ne apart]
          exact otherOccupied
        have someLeft := Finset.card_pos.mpr ⟨other, otherMember⟩
        split
        · rename_i sixteen
          omega
        · rename_i fifteen
          exact removed_merge addressed _ grows slotsHold oldVal' (update_through stem slots index rest none)
            (by omega) covered
        · rename_i notSixteen notFifteen
          have sixteen : ¬ (List.filter Option.isNone (children.set index none).toList).length = 16 := notSixteen
          have fifteen : ¬ (List.filter Option.isNone (children.set index none).toList).length = 15 := notFifteen
          exact again (forks_of_card slotsHold (by omega))

/-! ### Removing from a whole trie -/

/-- `remove_aux` on a trie of the shape `TrieDBMut` keeps, at a path of the
trie's length, never fails and removes the path: by induction over the trie,
one lemma for each way through the code. -/
theorem removeAux_removed (addressed : Addressed codec backing encodings) {scratch : Scratch Hash}
    (sound : Sound codec encodings scratch.journal) {depth : ℕ} {hash : Hash} {map : Nibbles → Option Bytes}
    (holds : Holds codec (readThrough codec backing scratch.journal) depth hash map) {path : Nibbles}
    (length : path.length = depth) (covered : Covered codec encodings (Function.update map path none)) :
    Removed codec backing encodings scratch depth map path ((removeAux codec backing path (some hash)).run scratch) := by
  induction holds generalizing path with
  | leaf stored =>
    rename_i stem value
    by_cases same : path = stem
    · subst same
      exact removed_leaf_self sound stored
    · exact removed_leaf_other sound stored same
  | branch stored vacant held forks ih =>
    rename_i stem children slots depth
    by_cases runs : stem <+: path
    · obtain ⟨index, rest, rfl, restLength⟩ := exists_slot_of_prefix length runs
      refine removed_descend addressed stored vacant held forks covered ?_
      cases slot : children.get index with
      | none => exact removed_none sound (vacant index slot) rest
      | some child => exact ih index child slot restLength covered.slot_update
    · exact removed_off_branch sound stored vacant held forks runs

/-- `TrieMut::remove` on a trie of the shape `TrieDBMut` keeps never fails: it
answers what the key's path held, and leaves a trie of the same shape that
holds everything else, the root of the empty trie when nothing is left, over
an overlay that only grew. -/
theorem TrieDBMut.remove_holds (addressed : Addressed codec backing encodings) {trie : TrieDBMut Hash}
    (sound : Sound codec encodings trie.journal) {map : Nibbles → Option Bytes}
    (holds : RootHolds codec (readThrough codec backing trie.journal) trie.root map) (key : Bytes)
    (covered : Covered codec encodings (Function.update map (codec.pathOf key) none)) :
    (trie.remove codec backing key).1 = .ok (map (codec.pathOf key)) ∧
      Grows codec backing encodings trie.journal (trie.remove codec backing key).2.journal ∧
      RootHolds codec (readThrough codec backing (trie.remove codec backing key).2.journal)
        (trie.remove codec backing key).2.root (Function.update map (codec.pathOf key) none) := by
  unfold TrieDBMut.remove
  rcases holds with ⟨empty, vacant⟩ | holds
  · -- the root of the empty trie reads as no node, and stays
    have nothing : map (codec.pathOf key) = none := by
      cases found : map (codec.pathOf key) with
      | none => rfl
      | some held => exact absurd ⟨_, held, found⟩ vacant
    have fetched : (fetch codec backing codec.blakeNullRlp codec.blakeNullRlp).run ⟨trie.journal, none⟩ =
        (.ok nullRlp, ⟨trie.journal, none⟩) :=
      run_fetch_of_eq_some codec backing (readThrough_blakeNullRlp _)
    rw [empty, removeAux]
    simp only [Faulty.run_bind, fetched, codec.decoded_nullRlp, Faulty.run_pure, Option.getD_some]
    refine ⟨by rw [nothing], Grows.refl sound, .inl ⟨rfl, ?_⟩⟩
    rw [Function.update_eq_self_iff.mpr nothing.symm]
    exact vacant
  · have removed : Removed codec backing encodings ⟨trie.journal, none⟩ 64 map (codec.pathOf key)
        ((removeAux codec backing (codec.pathOf key) (some trie.root)).run ⟨trie.journal, none⟩) :=
      removeAux_removed addressed sound holds (codec.length_nibblesOf (codec.blake256 key)) covered
    generalize (removeAux codec backing (codec.pathOf key) (some trie.root)).run ⟨trie.journal, none⟩ = result
      at removed ⊢
    obtain ⟨_ | slot, after⟩ := result
    · cases removed
    · obtain ⟨grows, holds', oldVal⟩ := removed
      refine ⟨?_, grows, ?_⟩
      · dsimp only
        rw [oldVal, Option.or_none]
      · cases slot with
        | none => exact .inl ⟨rfl, holds'⟩
        | some root => exact .inr holds'

end Merkle

end CodeChain
