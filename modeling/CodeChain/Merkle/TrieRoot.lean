import CodeChain.Merkle.TrieHash
import CodeChain.Merkle.TrieRuns

/-!
# `trie_root` agrees with the trie

`trie_root` hashes the root node of the trie of its pairs, built at once from
the pairs sorted by key; `TrieDBMut` reaches its root by inserting the pairs
one after the other.  Both come to the same root: the node `hash256rlp` writes
for a run of sorted pairs is the root of a trie of the shape `Holds` says,
holding the pairs, and the root of such a trie is a function of what it holds
(`RootHolds.root_eq`).

The proof follows `hash256rlp`.  A single pair is a leaf.  Several pairs share
their keys up to the nibble `shared` the fold finds, and two of them differ
there; sorted by key, they come in runs of one nibble at `shared`, in the order
of the nibbles, so that the loop `for i in 0..16`, which counts from `begin`
the pairs of nibble `i` and moves `begin` past them, hands each run whole to
`hash256aux` (`branchSlots_eq`).  Each run, shorter than the pairs, is a trie by
induction, and the branch over them holds the pairs.

The nodes are read from a database that holds every node of a set of
encodings under its hash, which the codec's hash, without collisions on the
set, makes well defined.  The nodes `hash256rlp` writes are the canonical nodes
of the parts of the map, so that a run of `TrieDBMut` that makes the same map
reads and writes them too, and `runEncodings` holds them.  With the runs, a
run of inserts and removes from `TrieDBMut::new` over an empty database thus
refines the map it makes (`TrieDBMut.runCalls_refines`).

As the `BTreeMap` sorts the pairs, `trie_root` does not depend on their order
when no two keys share a path (`trieRoot_perm`).
-/

namespace CodeChain

namespace Merkle

open Sync.Snapshot PathMap

variable {Hash : Type} (codec : TrieCodec Hash)

/-! ### A database that holds every node -/

open Classical in
/-- Every node of the encodings, under its hash. -/
noncomputable def fullView (encodings : Set Bytes) (hash : Hash) : Option Bytes :=
  if found : ∃ node, codec.hashOf node = hash ∧ codec.encoded node ∈ encodings then some (codec.encoded found.choose)
  else none

theorem stored_fullView {encodings : Set Bytes} (collisionFree : Set.InjOn codec.blake256 encodings) (node : Node Hash)
    (fine : codec.encoded node ∈ encodings) : Stored codec (fullView codec encodings) node := by
  have found : ∃ other, codec.hashOf other = codec.hashOf node ∧ codec.encoded other ∈ encodings := ⟨node, rfl, fine⟩
  unfold Stored fullView
  rw [dif_pos found]
  exact congrArg some (collisionFree found.choose_spec.2 fine found.choose_spec.1)

/-! ### Runs of pairs by their next nibble -/

/-- The nibble of a pair's key at `shared`, which the loop of `hash256rlp`
reads. -/
def nextNibble (shared : ℕ) (pair : Nibbles × Bytes) : Fin 16 :=
  pair.1.getD shared ⟨0, Nat.zero_lt_succ 15⟩

/-- The pairs whose key has nibble `i` at `shared`. -/
def block (input : List (Nibbles × Bytes)) (shared : ℕ) (i : Fin 16) : List (Nibbles × Bytes) :=
  input.filter fun pair => nextNibble shared pair = i

theorem getElem?_eq_nextNibble {shared : ℕ} {pair : Nibbles × Bytes} (long : shared < pair.1.length) :
    pair.1[shared]? = some (nextNibble shared pair) := by
  rw [nextNibble, List.getD_eq_getElem _ _ long, List.getElem?_eq_getElem long]

/-- The count of the loop, over keys long enough to index. -/
theorem countLeading_eq {shared : ℕ} {i : Fin 16} {pairs : List (Nibbles × Bytes)}
    (long : ∀ pair ∈ pairs, shared < pair.1.length) :
    countLeading shared i pairs = .ok (pairs.takeWhile fun pair => nextNibble shared pair = i).length := by
  induction pairs with
  | nil => rfl
  | cons pair rest ih =>
    rw [countLeading, getElem?_eq_nextNibble (long pair List.mem_cons_self)]
    dsimp only
    by_cases here : nextNibble shared pair = i
    · rw [if_pos here, ih (fun other member => long other (List.mem_cons_of_mem _ member)),
        List.takeWhile_cons_of_pos (by simpa using here)]
      rfl
    · rw [if_neg here, List.takeWhile_cons_of_neg (by simpa using here)]
      rfl

section Runs

variable {input : List (Nibbles × Bytes)} {shared : ℕ}

/-- The pairs from nibble `i` on. -/
abbrev fromNibble (input : List (Nibbles × Bytes)) (shared i : ℕ) : List (Nibbles × Bytes) :=
  input.filter fun pair => i ≤ (nextNibble shared pair).val

theorem nibble_eq_iff {pair : Nibbles × Bytes} {i : ℕ} (within : i < 16) :
    (decide (nextNibble shared pair = ⟨i, within⟩)) = decide ((nextNibble shared pair).val = i) := by
  simp [Fin.ext_iff]

/-- From nibble `i` on, the pairs are still sorted by nibble, and none has a
nibble below `i`. -/
theorem fromNibble_sorted (sorted : input.Pairwise fun first second => nextNibble shared first ≤ nextNibble shared second)
    (i : ℕ) :
    (fromNibble input shared i).Pairwise (fun first second => (nextNibble shared first).val ≤ (nextNibble shared second).val) ∧
      ∀ pair ∈ fromNibble input shared i, i ≤ (nextNibble shared pair).val :=
  ⟨sorted.filter _, fun pair member => by simpa using (List.mem_filter.mp member).2⟩

/-- From nibble `i` on, the pairs `take_while` counts are the run of nibble `i`. -/
theorem takeWhile_fromNibble (sorted : input.Pairwise fun first second => nextNibble shared first ≤ nextNibble shared second)
    {i : ℕ} (within : i < 16) :
    (fromNibble input shared i).takeWhile (fun pair => nextNibble shared pair = ⟨i, within⟩) =
      block input shared ⟨i, within⟩ := by
  obtain ⟨byValue, low⟩ := fromNibble_sorted sorted i
  simp only [nibble_eq_iff within]
  rw [SortedMap.takeWhile_eq_filter (fun pair => (nextNibble shared pair).val) byValue low, block, List.filter_filter]
  refine List.filter_congr fun pair _ => ?_
  rw [Bool.eq_iff_iff]
  simp only [Bool.and_eq_true, decide_eq_true_eq, Fin.ext_iff]
  omega

/-- From nibble `i` on, what `take_while` leaves is the pairs from nibble
`i + 1` on. -/
theorem dropWhile_fromNibble (sorted : input.Pairwise fun first second => nextNibble shared first ≤ nextNibble shared second)
    {i : ℕ} (within : i < 16) :
    (fromNibble input shared i).dropWhile (fun pair => nextNibble shared pair = ⟨i, within⟩) =
      fromNibble input shared (i + 1) := by
  obtain ⟨byValue, low⟩ := fromNibble_sorted sorted i
  simp only [nibble_eq_iff within]
  rw [SortedMap.dropWhile_eq_filter (fun pair => (nextNibble shared pair).val) byValue low, List.filter_filter]
  refine List.filter_congr fun pair _ => ?_
  rw [Bool.eq_iff_iff]
  simp only [Bool.and_eq_true, decide_eq_true_eq]
  omega

/-- Where the pairs of nibble `i` start, `countLeading` counts the length of
their run. -/
theorem countLeading_block (long : ∀ pair ∈ input, shared < pair.1.length)
    (sorted : input.Pairwise fun first second => nextNibble shared first ≤ nextNibble shared second)
    {i begin : ℕ} (within : i < 16) (start : input.drop begin = fromNibble input shared i) :
    countLeading shared ⟨i, within⟩ (input.drop begin) = .ok (block input shared ⟨i, within⟩).length := by
  rw [countLeading_eq fun pair member => long pair (List.mem_of_mem_drop member), start,
    takeWhile_fromNibble sorted within]

/-- Past the last pair, no run is left. -/
theorem block_eq_nil_of_le
    (sorted : input.Pairwise fun first second => nextNibble shared first ≤ nextNibble shared second)
    {i begin : ℕ} (within : i < 16) (start : input.drop begin = fromNibble input shared i)
    (past : input.length ≤ begin) : block input shared ⟨i, within⟩ = [] := by
  rw [← takeWhile_fromNibble sorted within, ← start, List.drop_eq_nil_of_le past]
  rfl

/-- The run of nibble `i` is the slice `hash256aux` is given, and the pairs
after it are the pairs from nibble `i + 1` on. -/
theorem take_drop_block
    (sorted : input.Pairwise fun first second => nextNibble shared first ≤ nextNibble shared second)
    {i begin : ℕ} (within : i < 16) (start : input.drop begin = fromNibble input shared i) :
    (input.drop begin).take (block input shared ⟨i, within⟩).length = block input shared ⟨i, within⟩ ∧
      input.drop (begin + (block input shared ⟨i, within⟩).length) = fromNibble input shared (i + 1) := by
  have whole : block input shared ⟨i, within⟩ ++ fromNibble input shared (i + 1) = fromNibble input shared i := by
    rw [← takeWhile_fromNibble sorted within, ← dropWhile_fromNibble sorted within]
    exact List.takeWhile_append_dropWhile
  rw [← List.drop_drop, start, ← whole]
  exact ⟨List.take_left' rfl, List.drop_left' rfl⟩

end Runs

/-! ### The loop of `hash256rlp` -/

section Loop

variable {input : List (Nibbles × Bytes)} {shared : ℕ}

/-- The slot the loop fills for nibble `i`, given the items of the runs: empty
for no pair, the hash of the run's item otherwise. -/
def slotHash (input : List (Nibbles × Bytes)) (shared : ℕ) (items : Fin 16 → Bytes) (i : Fin 16) : Option Hash :=
  if block input shared i = [] then none else some (codec.blake256 (items i))

/-- Setting slot `i` to what it should hold moves the loop's picture of the
children one nibble on. -/
theorem ofFn_set_eq {i : ℕ} (within : i < 16) {children : Vector (Option Hash) 16} {slots : Fin 16 → Option Hash}
    {child : Option Hash} (here : child = slots ⟨i, within⟩) :
    (Vector.ofFn fun j => if j.val < i + 1 then (children.set i child within).get j else slots j) =
      Vector.ofFn fun j => if j.val < i then children.get j else slots j := by
  refine Vector.ext fun j bound => ?_
  rw [Vector.getElem_ofFn, Vector.getElem_ofFn]
  dsimp only
  rcases lt_trichotomy j i with before | same | after
  · rw [if_pos (by omega), if_pos before, Vector.get_eq_getElem, Vector.get_eq_getElem, Vector.getElem_set_ne _ _ (Nat.ne_of_gt before)]
  · subst same
    rw [if_pos (by omega), if_neg (lt_irrefl j), Vector.get_eq_getElem, Vector.getElem_set_self, here]
  · rw [if_neg (by omega), if_neg (by omega)]

/-- The loop from nibble `i` on, `begin` at the pairs of nibble `i`, fills
every slot from `i` on with the hash of its run's item and keeps the slots
before it. -/
theorem branchSlots_eq (long : ∀ pair ∈ input, shared < pair.1.length)
    (sorted : input.Pairwise fun first second => nextNibble shared first ≤ nextNibble shared second)
    {items : Fin 16 → Bytes}
    (built : ∀ j, block input shared j ≠ [] → hash256rlp codec (block input shared j) (shared + 1) = .ok (items j)) :
    ∀ count {i begin : ℕ} (children : Vector (Option Hash) 16), i + count = 16 →
      input.drop begin = fromNibble input shared i →
      branchSlots codec input shared i begin children =
        .ok (Vector.ofFn fun j => if j.val < i then children.get j else slotHash codec input shared items j) := by
  intro count
  -- the loop counts nibbles up to sixteen
  induction count with
  | zero =>
    intro i begin children last _
    rw [branchSlots, dif_neg (by omega)]
    refine congrArg Except.ok (Vector.ext fun j within => ?_)
    simp [Vector.get_eq_getElem, show j < i by omega]
  | succ count ih =>
    intro i begin children next start
    have within : i < 16 := by omega
    obtain ⟨slice, after⟩ := take_drop_block sorted within start
    rw [branchSlots, dif_pos within]
    -- both ways of counting give the length of the run
    split
    case' isTrue => rw [countLeading_block long sorted within start, Fault.ok_bind]
    case' isFalse past =>
      have none : (pure 0 : Except (Fault Empty) ℕ) = .ok (block input shared ⟨i, within⟩).length := by
        rw [block_eq_nil_of_le sorted within start (not_lt.mp past)]
        rfl
      rw [none, Fault.ok_bind]
    all_goals
      dsimp only
      rw [slice]
      by_cases empty : block input shared ⟨i, within⟩ = []
      · have zero : (block input shared ⟨i, within⟩).length = 0 := by rw [empty, List.length_nil]
        rw [zero] at after ⊢
        dsimp only
        rw [pure_bind, ih _ (by omega) after]
        exact congrArg Except.ok (ofFn_set_eq within (by rw [slotHash, if_pos empty]))
      · obtain ⟨n, succ⟩ := Nat.exists_eq_succ_of_ne_zero (mt List.length_eq_zero_iff.mp empty)
        rw [succ] at after ⊢
        dsimp only
        rw [built ⟨i, within⟩ empty, Fault.ok_bind, pure_bind, ih _ (by omega) after]
        exact congrArg Except.ok (ofFn_set_eq within (by rw [slotHash, if_neg empty]))

end Loop

/-! ### The pairs of a branch -/

section Branch

variable {key : Nibbles} {value : Bytes} {second : Nibbles × Bytes} {rest : List (Nibbles × Bytes)}
  {lead : Nibbles} {depth : ℕ}

/-- The nibble at `shared` of a key that goes on as `a :: rest` from there. -/
theorem nextNibble_eq_of_drop {shared : ℕ} {pair : Nibbles × Bytes} {a : Fin 16} {rest : Nibbles}
    (dropped : pair.1.drop shared = a :: rest) : nextNibble shared pair = a := by
  have long : shared < pair.1.length := by
    have lengths := congrArg List.length dropped
    rw [List.length_drop, List.length_cons] at lengths
    omega
  have found : pair.1[shared]? = some a := by
    rw [← Nat.add_zero shared, ← List.getElem?_drop, dropped]
    rfl
  rw [getElem?_eq_nextNibble long] at found
  exact Option.some.inj found

/-- Keys that all run `depth` nibbles past `lead`, of at least two pairs,
share at least `lead` and not all their nibbles. -/
theorem sharedPrefixOf_bounds
    (keys : ∀ pair ∈ (key, value) :: second :: rest, lead <+: pair.1 ∧ pair.1.length = lead.length + depth)
    (sorted : SortedMap.Sorted ((key, value) :: second :: rest)) :
    lead.length ≤ sharedPrefixOf key (second :: rest) ∧ sharedPrefixOf key (second :: rest) < lead.length + depth := by
  have first := keys (key, value) List.mem_cons_self
  have other := keys second (List.mem_cons_of_mem _ List.mem_cons_self)
  constructor
  · refine le_sharedPrefixOf (by rw [first.2]; exact Nat.le_add_right _ _) fun pair member => ?_
    rw [sharedPrefixLen_eq_commonPrefix]
    exact length_le_commonPrefix first.1 (keys pair (List.mem_cons_of_mem _ member)).1
  · -- the first two keys differ, sorted strictly
    have differ : key ≠ second.1 := ne_of_lt (List.rel_of_pairwise_cons sorted List.mem_cons_self)
    calc sharedPrefixOf key (second :: rest)
        ≤ sharedPrefixLen key second.1 := sharedPrefixOf_le_of_mem List.mem_cons_self
      _ = commonPrefix key second.1 := sharedPrefixLen_eq_commonPrefix _ _
      _ < key.length := commonPrefix_lt_of_ne (first.2.trans other.2.symm) differ
      _ = lead.length + depth := first.2

/-- Every key starts with the nibbles the first one shares with the rest. -/
theorem take_sharedPrefixOf {pair : Nibbles × Bytes} (member : pair ∈ (key, value) :: second :: rest) :
    pair.1.take (sharedPrefixOf key (second :: rest)) = key.take (sharedPrefixOf key (second :: rest)) := by
  rcases List.mem_cons.mp member with rfl | later
  · rfl
  · refine (take_eq_of_le_commonPrefix ?_).symm
    rw [← sharedPrefixLen_eq_commonPrefix]
    exact sharedPrefixOf_le_of_mem later

/-- Every key is the shared nibbles, its nibble at `shared`, and the rest. -/
theorem key_eq_take_append
    (keys : ∀ pair ∈ (key, value) :: second :: rest, lead <+: pair.1 ∧ pair.1.length = lead.length + depth)
    (sorted : SortedMap.Sorted ((key, value) :: second :: rest)) {pair : Nibbles × Bytes}
    (member : pair ∈ (key, value) :: second :: rest) :
    pair.1 = key.take (sharedPrefixOf key (second :: rest)) ++
      nextNibble (sharedPrefixOf key (second :: rest)) pair :: pair.1.drop (sharedPrefixOf key (second :: rest) + 1) := by
  have long : sharedPrefixOf key (second :: rest) < pair.1.length := by
    rw [(keys pair member).2]
    exact (sharedPrefixOf_bounds keys sorted).2
  rw [← take_sharedPrefixOf member, nextNibble, List.getD_eq_getElem _ _ long, ← List.drop_eq_getElem_cons long,
    List.take_append_drop]

/-- Sorted by key, the pairs are sorted by their nibble at `shared`. -/
theorem pairwise_nextNibble
    (keys : ∀ pair ∈ (key, value) :: second :: rest, lead <+: pair.1 ∧ pair.1.length = lead.length + depth)
    (sorted : SortedMap.Sorted ((key, value) :: second :: rest)) :
    ((key, value) :: second :: rest).Pairwise fun first other =>
      nextNibble (sharedPrefixOf key (second :: rest)) first ≤ nextNibble (sharedPrefixOf key (second :: rest)) other := by
  refine List.Pairwise.imp_of_mem (fun {first other} firstMember otherMember ordered => ?_) sorted
  have long : ∀ pair ∈ (key, value) :: second :: rest, sharedPrefixOf key (second :: rest) < pair.1.length :=
    fun pair member => by
      rw [(keys pair member).2]
      exact (sharedPrefixOf_bounds keys sorted).2
  have agree := (take_sharedPrefixOf firstMember).trans (take_sharedPrefixOf otherMember).symm
  rw [nextNibble, nextNibble, List.getD_eq_getElem _ _ (long first firstMember),
    List.getD_eq_getElem _ _ (long other otherMember)]
  exact SortedMap.getElem_le_of_lt ordered agree _ _

/-- Two of the pairs part at `shared`: the fold stops where the first key
parts from one of the others. -/
theorem exists_nextNibble_ne
    (keys : ∀ pair ∈ (key, value) :: second :: rest, lead <+: pair.1 ∧ pair.1.length = lead.length + depth)
    (sorted : SortedMap.Sorted ((key, value) :: second :: rest)) :
    ∃ pair ∈ second :: rest, nextNibble (sharedPrefixOf key (second :: rest)) pair ≠
      nextNibble (sharedPrefixOf key (second :: rest)) (key, value) := by
  obtain ⟨_, below⟩ := sharedPrefixOf_bounds keys sorted
  obtain ⟨_, firstLength⟩ := keys (key, value) List.mem_cons_self
  dsimp only at firstLength
  rcases sharedPrefixOf_attained key (second :: rest) with whole | ⟨pair, member, parts⟩
  · omega
  · obtain ⟨_, otherLength⟩ := keys pair (List.mem_cons_of_mem _ member)
    rw [sharedPrefixLen_eq_commonPrefix] at parts
    have shortFirst : commonPrefix key pair.1 < key.length := by omega
    have shortOther : commonPrefix key pair.1 < pair.1.length := by omega
    obtain ⟨a, _, b, _, firstRest, otherRest, apart⟩ := exists_drop_commonPrefix shortFirst shortOther
    rw [← parts] at firstRest otherRest
    refine ⟨pair, member, ?_⟩
    have firstNibble : nextNibble (sharedPrefixOf key (second :: rest)) (key, value) = a :=
      nextNibble_eq_of_drop firstRest
    rw [nextNibble_eq_of_drop otherRest, firstNibble]
    exact apart.symm

end Branch

/-! ### The slots of a branch over runs -/

section Slots

variable {codec} {input : List (Nibbles × Bytes)} {common : Nibbles} {shared : ℕ}

/-- Over pairs whose keys all go on from `common` at nibble `shared`, the
branch whose stem takes `lead` to `common` holds, slot by slot, what the pairs
hold past `lead`. -/
theorem through_lookup_eq (sorted : SortedMap.Sorted input)
    (split : ∀ {pair}, pair ∈ input → pair.1 = common ++ nextNibble shared pair :: pair.1.drop (shared + 1))
    {lead stem : Nibbles} (leadStem : lead ++ stem = common) :
    through stem (fun i path => SortedMap.lookup input (common ++ i :: path)) =
      fun path => SortedMap.lookup input (lead ++ path) := by
  funext path
  refine Option.ext fun found => ?_
  rw [through_eq_some]
  constructor
  · rintro ⟨i, tail, rfl, held⟩
    rw [← List.append_assoc, leadStem]
    exact held
  · intro held
    have member := (SortedMap.lookup_eq_some_iff sorted).mp held
    have whole := split member
    dsimp only at whole
    refine ⟨nextNibble shared (lead ++ path, found), (lead ++ path).drop (shared + 1), (List.append_right_inj lead).mp ?_, ?_⟩
    · rw [← List.append_assoc, leadStem]
      exact whole
    · rw [← whole]
      exact held

/-- The run of nibble `i`, past `common` and `i`, holds what the pairs hold
there. -/
theorem lookup_block (takeLength : common.length = shared) (i : Fin 16) :
    (fun path => SortedMap.lookup (block input shared i) (common ++ [i] ++ path)) =
      fun path => SortedMap.lookup input (common ++ i :: path) := by
  funext path
  rw [List.append_assoc, List.singleton_append, block,
    SortedMap.lookup_filter _ fun found => decide_eq_true (nextNibble_eq_of_drop (List.drop_left' takeLength))]

/-- Slot `i` of that branch holds the run of nibble `i`: nothing where the run
is empty, and the trie of the run where it is not. -/
theorem slotHolds_slotHash {view : Hash → Option Bytes} (sorted : SortedMap.Sorted input)
    (takeLength : common.length = shared) {depth : ℕ} {nodes : Fin 16 → Node Hash}
    (runs : ∀ j, block input shared j ≠ [] → Holds codec view depth (codec.hashOf (nodes j))
      fun path => SortedMap.lookup (block input shared j) (common ++ [j] ++ path)) (i : Fin 16) :
    SlotHolds codec view depth (slotHash codec input shared (fun j => codec.encoded (nodes j)) i)
      fun path => SortedMap.lookup input (common ++ i :: path) := by
  -- a key that goes on from `common` with `i` has nibble `i` at `shared`
  have nextNibble_take : ∀ tail found, nextNibble shared (common ++ i :: tail, found) = i :=
    fun tail found => nextNibble_eq_of_drop (List.drop_left' takeLength)
  rw [slotHash]
  by_cases empty : block input shared i = []
  · -- no key goes on with `i`: it would be in the empty run
    rw [if_pos empty]
    rintro ⟨tail, found, held⟩
    have member := (SortedMap.lookup_eq_some_iff sorted).mp held
    have inRun : (common ++ i :: tail, found) ∈ block input shared i :=
      List.mem_filter.mpr ⟨member, decide_eq_true (nextNibble_take tail found)⟩
    rw [empty] at inRun
    cases inRun
  · rw [if_neg empty]
    have holds := runs i empty
    rw [lookup_block takeLength i] at holds
    exact holds

/-- A run misses one of two pairs that part at `shared`, so it is shorter than
the pairs. -/
theorem length_block_lt {first other : Nibbles × Bytes} (firstMember : first ∈ input) (otherMember : other ∈ input)
    (parts : nextNibble shared other ≠ nextNibble shared first) (j : Fin 16) :
    (block input shared j).length < input.length := by
  rw [block, List.length_filter_lt_length_iff_exists]
  by_cases firstHere : nextNibble shared first = j
  · refine ⟨other, otherMember, ?_⟩
    rw [← firstHere]
    simpa using parts
  · exact ⟨first, firstMember, by simpa using firstHere⟩

/-- The keys of the run of nibble `j` go on from `common` with `j`, as long as
all the keys. -/
theorem block_keys (takeLength : common.length = shared)
    (split : ∀ {pair}, pair ∈ input → pair.1 = common ++ nextNibble shared pair :: pair.1.drop (shared + 1))
    {total : ℕ} (lengths : ∀ pair ∈ input, pair.1.length = total) (below : shared < total) (j : Fin 16) :
    ∀ pair ∈ block input shared j, common ++ [j] <+: pair.1 ∧
      pair.1.length = (common ++ [j]).length + (total - shared - 1) := by
  intro pair member
  obtain ⟨member, nibble⟩ := List.mem_filter.mp member
  have whole := split member
  rw [of_decide_eq_true nibble] at whole
  refine ⟨⟨pair.1.drop (shared + 1), by rw [List.append_assoc, List.singleton_append, ← whole]⟩, ?_⟩
  rw [List.length_append, takeLength, List.length_singleton, lengths pair member]
  omega

end Slots

/-! ### Every node `hash256rlp` writes is a trie -/

section Builds

/-- From the nibble `lead.length` on, `hash256rlp` writes the node of a trie
that holds the pairs, whenever their keys all run `depth` nibbles past `lead`
and the encodings cover what the pairs hold past `lead`. -/
def Builds (encodings : Set Bytes) (input : List (Nibbles × Bytes)) : Prop :=
  ∀ lead depth, (∀ pair ∈ input, lead <+: pair.1 ∧ pair.1.length = lead.length + depth) →
    Covered codec encodings (fun path => SortedMap.lookup input (lead ++ path)) →
    ∃ node, hash256rlp codec input lead.length = .ok (codec.encoded node) ∧
      Holds codec (fullView codec encodings) depth (codec.hashOf node) fun path => SortedMap.lookup input (lead ++ path)

variable {codec} {encodings : Set Bytes}

/-- One pair is a leaf that holds the rest of its key. -/
theorem builds_single (collisionFree : Set.InjOn codec.blake256 encodings) (key : Nibbles) (value : Bytes) :
    Builds codec encodings [(key, value)] := by
  intro lead depth keys covered
  obtain ⟨⟨stem, stemEq⟩, length⟩ := keys (key, value) List.mem_cons_self
  subst stemEq
  have stemLength : stem.length = depth := by
    dsimp only at length
    rw [List.length_append] at length
    omega
  refine ⟨.leaf stem value, ?_, ?_⟩
  · rw [hash256rlp, if_pos (by simp), List.drop_left]
    rfl
  · -- the leaf's map is the one pair's, seen past `lead`
    have map : single stem value = fun path => SortedMap.lookup [(lead ++ stem, value)] (lead ++ path) := by
      funext path
      rw [SortedMap.lookup_cons, SortedMap.lookup_nil, single]
      by_cases same : path = stem
      · rw [if_pos same, if_pos (by rw [same])]
      · have apart : lead ++ stem ≠ lead ++ path := fun equal => same (List.append_cancel_left equal).symm
        rw [if_neg same, if_neg apart]
    rw [← map] at covered ⊢
    rw [← stemLength]
    exact .leaf (stored_fullView codec collisionFree _ (covered.mem (.leaf stem value)))

/-- Several pairs sorted by key, whose runs by their nibble at `shared` are
tries by induction, make a branch that holds them. -/
theorem builds_branch (collisionFree : Set.InjOn codec.blake256 encodings) {key : Nibbles} {value : Bytes}
    {second : Nibbles × Bytes} {rest : List (Nibbles × Bytes)} (sorted : SortedMap.Sorted ((key, value) :: second :: rest))
    (ih : ∀ smaller : List (Nibbles × Bytes), smaller.length < ((key, value) :: second :: rest).length →
      SortedMap.Sorted smaller → smaller ≠ [] → Builds codec encodings smaller) :
    Builds codec encodings ((key, value) :: second :: rest) := by
  intro lead depth keys covered
  obtain ⟨above, below⟩ := sharedPrefixOf_bounds keys sorted
  obtain ⟨other, otherMember, parts⟩ := exists_nextNibble_ne keys sorted
  have split : ∀ {pair}, pair ∈ (key, value) :: second :: rest → pair.1 = key.take (sharedPrefixOf key (second :: rest)) ++
      nextNibble (sharedPrefixOf key (second :: rest)) pair :: pair.1.drop (sharedPrefixOf key (second :: rest) + 1) :=
    fun member => key_eq_take_append keys sorted member
  have ordered := pairwise_nextNibble keys sorted
  obtain ⟨firstPrefix, firstLength⟩ := keys (key, value) List.mem_cons_self
  dsimp only at firstPrefix firstLength
  generalize sharedEq : sharedPrefixOf key (second :: rest) = shared at above below parts split ordered
  have takeLength : (key.take shared).length = shared := by
    rw [List.length_take]
    omega
  have long : ∀ pair ∈ (key, value) :: second :: rest, shared < pair.1.length := fun pair member => by
    rw [(keys pair member).2]
    exact below
  -- the stem runs from `lead` to `shared`, and the map past `lead` is the branch's over the runs
  have leadStem : lead ++ (key.take shared).drop lead.length = key.take shared := by
    have leadTake : (key.take shared).take lead.length = lead := by
      rw [List.take_take, min_eq_left above]
      exact (List.prefix_iff_eq_take.mp firstPrefix).symm
    calc lead ++ (key.take shared).drop lead.length
        = (key.take shared).take lead.length ++ (key.take shared).drop lead.length := by rw [leadTake]
      _ = key.take shared := List.take_append_drop _ _
  rw [← through_lookup_eq sorted split leadStem] at covered
  have runs : ∀ j, ∃ node, block ((key, value) :: second :: rest) shared j ≠ [] →
      hash256rlp codec (block ((key, value) :: second :: rest) shared j) (shared + 1) = .ok (codec.encoded node) ∧
        Holds codec (fullView codec encodings) (lead.length + depth - shared - 1) (codec.hashOf node)
          fun path => SortedMap.lookup (block ((key, value) :: second :: rest) shared j) (key.take shared ++ [j] ++ path) := by
    intro j
    by_cases empty : block ((key, value) :: second :: rest) shared j = []
    · exact ⟨.leaf [] [], fun nonempty => absurd empty nonempty⟩
    · have runKeys := block_keys takeLength split (fun pair member => (keys pair member).2) below j
      have shorter := length_block_lt List.mem_cons_self (List.mem_cons_of_mem _ otherMember) parts j
      have runCovered : Covered codec encodings fun path =>
          SortedMap.lookup (block ((key, value) :: second :: rest) shared j) (key.take shared ++ [j] ++ path) := by
        rw [lookup_block takeLength j]
        exact covered.slot j
      obtain ⟨node, built, holds⟩ := ih _ shorter (List.Pairwise.filter _ sorted) empty _ _ runKeys runCovered
      rw [List.length_append, takeLength, List.length_singleton] at built
      exact ⟨node, fun _ => ⟨built, holds⟩⟩
  choose nodes runsHold using runs
  have start : ((key, value) :: second :: rest).drop 0 = fromNibble ((key, value) :: second :: rest) shared 0 := by
    rw [List.drop_zero]
    exact (List.filter_eq_self.mpr fun pair _ => by simp).symm
  refine ⟨.branch ((key.take shared).drop lead.length) (Vector.ofFn fun j => if j.val < 0 then emptyChildren.get j
    else slotHash codec ((key, value) :: second :: rest) shared (fun j => codec.encoded (nodes j)) j), ?_, ?_⟩
  · rw [hash256rlp]
    rw [sharedEq, if_pos above, branchSlots_eq codec long ordered (fun j nonempty => (runsHold j nonempty).1) 16
      emptyChildren rfl start, Fault.ok_bind]
    rfl
  · have depthEq : ((key.take shared).drop lead.length).length + 1 + (lead.length + depth - shared - 1) = depth := by
      rw [List.length_drop, takeLength]
      omega
    have occupied : ∀ pair ∈ (key, value) :: second :: rest, Occupied fun path =>
        SortedMap.lookup ((key, value) :: second :: rest) (key.take shared ++ nextNibble shared pair :: path) :=
      fun pair member => ⟨pair.1.drop (shared + 1), pair.2, by
        dsimp only
        rw [← split member]
        exact (SortedMap.lookup_eq_some_iff sorted).mpr member⟩
    have slotsHold : ∀ i, SlotHolds codec (fullView codec encodings) (lead.length + depth - shared - 1)
        ((Vector.ofFn fun j => if j.val < 0 then emptyChildren.get j
          else slotHash codec ((key, value) :: second :: rest) shared (fun j => codec.encoded (nodes j)) j).get i)
        (fun path => SortedMap.lookup ((key, value) :: second :: rest) (key.take shared ++ i :: path)) := by
      intro i
      rw [Vector.get_eq_getElem, Vector.getElem_ofFn]
      dsimp only
      rw [if_neg (Nat.not_lt_zero _)]
      exact slotHolds_slotHash sorted takeLength (fun j nonempty => (runsHold j nonempty).2) i
    have forks : Forks fun i path => SortedMap.lookup ((key, value) :: second :: rest) (key.take shared ++ i :: path) :=
      ⟨_, _, parts.symm, occupied _ List.mem_cons_self, occupied _ (List.mem_cons_of_mem _ otherMember)⟩
    rw [← depthEq, ← through_lookup_eq sorted split leadStem]
    exact Holds.ofSlots (stored_fullView codec collisionFree _ (covered.mem (Canon.ofSlots slotsHold forks))) slotsHold
      forks

/-- Pairs sorted strictly by key, at least one, make a trie, by induction on
how many there are. -/
theorem builds_of_sorted (collisionFree : Set.InjOn codec.blake256 encodings) {input : List (Nibbles × Bytes)}
    (sorted : SortedMap.Sorted input) (nonempty : input ≠ []) : Builds codec encodings input := by
  obtain ⟨size, bound⟩ : ∃ size, input.length < size := ⟨_, Nat.lt_succ_self _⟩
  induction size generalizing input with
  | zero => exact absurd bound (Nat.not_lt_zero _)
  | succ size ih =>
    rcases input with _ | ⟨⟨key, value⟩, _ | ⟨second, rest⟩⟩
    · exact absurd rfl nonempty
    · exact builds_single collisionFree key value
    · exact builds_branch collisionFree sorted fun smaller shorter sortedSmaller nonemptySmaller =>
        ih sortedSmaller nonemptySmaller (by omega)

end Builds

/-! ### The root -/

/-- `trie_root` of no pairs is the root of the empty trie. -/
theorem trieRoot_nil : trieRoot codec [] = .ok codec.blakeNullRlp := by
  unfold trieRoot genTrieRoot
  rw [List.map_nil, SortedMap.ofList, List.foldl_nil, hash256rlp]
  rfl

/-- `trie_root` of pairs is the root of every trie of the shape `TrieDBMut`
keeps that holds the map inserting the pairs makes, when the hash has no
collision on the canonical nodes of that map. -/
theorem trieRoot_eq_of_rootHolds {encodings : Set Bytes} (collisionFree : Set.InjOn codec.blake256 encodings)
    {view : Hash → Option Bytes} {root : Hash} {input : List (Bytes × Bytes)}
    (covered : Covered codec encodings
      ((input.map fun pair => Call.insert pair.1 pair.2).foldl (Call.apply codec) (fun _ => none)))
    (holds : RootHolds codec view root
      ((input.map fun pair => Call.insert pair.1 pair.2).foldl (Call.apply codec) (fun _ => none))) :
    trieRoot codec input = .ok root := by
  -- the inserts make the map of the sorted pairs
  have fold : (input.map fun pair => Call.insert pair.1 pair.2).foldl (Call.apply codec) (fun _ => none) =
      SortedMap.lookup (SortedMap.ofList (input.map fun pair => (codec.pathOf pair.1, pair.2))) := by
    rw [SortedMap.lookup_ofList, List.foldl_map, List.foldl_map]
    congr 1
    funext map pair
    rw [Call.apply]
    -- the two sides decide equality of paths by different instances
    congr
    funext first second
    exact Subsingleton.elim _ _
  have lengths : ∀ pair ∈ SortedMap.ofList (input.map fun pair => (codec.pathOf pair.1, pair.2)), pair.1.length = 64 := by
    intro pair member
    obtain ⟨source, _, rfl⟩ := List.mem_map.mp (SortedMap.mem_ofList member)
    exact codec.length_nibblesOf _
  have sorted := SortedMap.sorted_ofList (input.map fun pair => (codec.pathOf pair.1, pair.2))
  rw [fold] at covered holds
  unfold trieRoot genTrieRoot
  generalize SortedMap.ofList (input.map fun pair => (codec.pathOf pair.1, pair.2)) = entries
    at covered holds lengths sorted ⊢
  rcases entries with _ | ⟨first, others⟩
  · -- no pair: the root of the empty trie
    have empty : SortedMap.lookup ([] : List (Nibbles × Bytes)) = fun _ => none := rfl
    rw [empty] at holds
    rw [← (rootHolds_new view (∅ : ArchiveDB Hash)).root_eq holds, hash256rlp]
    rfl
  · obtain ⟨node, built, holds'⟩ := builds_of_sorted collisionFree sorted (List.cons_ne_nil first others) [] 64
      (fun pair member => ⟨List.nil_prefix, lengths pair member⟩) covered
    rw [List.length_nil] at built
    simp only [List.nil_append] at holds'
    have rootHolds : RootHolds codec (fullView codec encodings) (codec.hashOf node)
        (SortedMap.lookup (first :: others)) :=
      .inr holds'
    rw [built, ← rootHolds.root_eq holds]
    rfl

/-- A run of `insert`s and `remove`s on `TrieDBMut::new` over an empty
database, with a hash that has no collision on the encodings the run reads or
writes, refines the map the run makes: the run never fails and each call
answers what the map held at its key, `get` answers what the final map holds,
the root is `trie_root` of any pairs whose inserts make the final map, and it
is the root of the empty trie when that map is empty. -/
theorem TrieDBMut.runCalls_refines [DecidableEq Hash] {calls : List Call}
    (collisionFree : Set.InjOn codec.blake256 (runEncodings codec calls)) :
    ((TrieDBMut.new codec ∅).runCalls codec (fun _ => none) calls).1 = (answers codec (fun _ => none) calls).map .ok ∧
      (∀ key, ((TrieDBMut.new codec ∅).runCalls codec (fun _ => none) calls).2.get codec (fun _ => none) key =
        .ok (calls.foldl (Call.apply codec) (fun _ => none) (codec.pathOf key))) ∧
      (∀ pairs : List (Bytes × Bytes),
        (pairs.map fun pair => Call.insert pair.1 pair.2).foldl (Call.apply codec) (fun _ => none) =
            calls.foldl (Call.apply codec) (fun _ => none) →
          trieRoot codec pairs = .ok ((TrieDBMut.new codec ∅).runCalls codec (fun _ => none) calls).2.root) ∧
      (calls.foldl (Call.apply codec) (fun _ => none) = (fun _ => none) →
        ((TrieDBMut.new codec ∅).runCalls codec (fun _ => none) calls).2.root = codec.blakeNullRlp) := by
  have addressed := addressed_runEncodings collisionFree
  have covered : RunCovered codec (runEncodings codec calls) (fun _ => none) calls := runCovered_runEncodings calls
  obtain ⟨answered, -, holds⟩ :=
    TrieDBMut.runCalls_holds addressed (sound_empty codec _) (rootHolds_new _ ∅) calls covered
  -- the root is `trie_root` of every list of pairs that makes the final map
  have rooted : ∀ pairs : List (Bytes × Bytes),
      (pairs.map fun pair => Call.insert pair.1 pair.2).foldl (Call.apply codec) (fun _ => none) =
          calls.foldl (Call.apply codec) (fun _ => none) →
        trieRoot codec pairs = .ok ((TrieDBMut.new codec ∅).runCalls codec (fun _ => none) calls).2.root := by
    intro pairs same
    have pairsCovered := covered.last
    rw [← same] at pairsCovered holds
    exact trieRoot_eq_of_rootHolds codec addressed.collisionFree pairsCovered holds
  refine ⟨answered, TrieDBMut.get_holds holds, rooted, fun empty => ?_⟩
  have nilRoot := rooted [] (by rw [empty]; rfl)
  rw [trieRoot_nil, Except.ok.injEq] at nilRoot
  exact nilRoot.symm

theorem TrieDBMut.runCalls_refines_sized :
    ¬ Function.Injective sizedCodec.blake256 ∧
      Set.InjOn sizedCodec.blake256 (runEncodings sizedCodec [.insert [1] [7]]) ∧
      ((TrieDBMut.new sizedCodec ∅).runCalls sizedCodec (fun _ => none) [.insert [1] [7]]).1 =
        (answers sizedCodec (fun _ => none) [.insert [1] [7]]).map .ok ∧
      (∀ key, ((TrieDBMut.new sizedCodec ∅).runCalls sizedCodec (fun _ => none) [.insert [1] [7]]).2.get sizedCodec
          (fun _ => none) key =
        .ok ([Call.insert [1] [7]].foldl (Call.apply sizedCodec) (fun _ => none) (sizedCodec.pathOf key))) ∧
      (∀ pairs : List (Bytes × Bytes),
        (pairs.map fun pair => Call.insert pair.1 pair.2).foldl (Call.apply sizedCodec) (fun _ => none) =
            [Call.insert [1] [7]].foldl (Call.apply sizedCodec) (fun _ => none) →
          trieRoot sizedCodec pairs = .ok ((TrieDBMut.new sizedCodec ∅).runCalls sizedCodec (fun _ => none)
            [.insert [1] [7]]).2.root) ∧
      ([Call.insert [1] [7]].foldl (Call.apply sizedCodec) (fun _ => none) = (fun _ => none) →
        ((TrieDBMut.new sizedCodec ∅).runCalls sizedCodec (fun _ => none) [.insert [1] [7]]).2.root =
          sizedCodec.blakeNullRlp) :=
  ⟨fun injective => absurd (@injective [0] [1] rfl) (by decide),
    sizedCodec_injOn_insert [1] [7] (by decide),
    TrieDBMut.runCalls_refines sizedCodec (sizedCodec_injOn_insert [1] [7] (by decide))⟩

/-- `trie_root` does not depend on the order of its pairs when no two keys
hash to one path: the `BTreeMap` sorts them. -/
theorem trieRoot_perm {input input' : List (Bytes × Bytes)} (perm : input.Perm input')
    (distinct : (input.map fun pair => codec.pathOf pair.1).Nodup) : trieRoot codec input = trieRoot codec input' := by
  have keys : ((input.map fun pair => (codec.pathOf pair.1, pair.2)).map Prod.fst).Nodup := by
    rw [List.map_map]
    exact distinct
  unfold trieRoot
  rw [SortedMap.ofList_perm (perm.map _) keys]

theorem trieRoot_perm_swap :
    [([1], [7]), ([2], [8])].Perm [([2], [8]), ([1], [7])] ∧
      ([([1], [7]), ([2], [8])].map fun pair : Bytes × Bytes => escapedCodec.pathOf pair.1).Nodup ∧
      trieRoot escapedCodec [([1], [7]), ([2], [8])] = trieRoot escapedCodec [([2], [8]), ([1], [7])] :=
  ⟨List.Perm.swap _ _ _, by decide, trieRoot_perm escapedCodec (List.Perm.swap _ _ _) (by decide)⟩

end Merkle

end CodeChain
