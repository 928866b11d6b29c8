import CodeChain.Merkle.TrieInsert
import CodeChain.Merkle.TrieRemove

/-!
# Runs of calls on the trie

A `TrieDBMut` is written by a run of `insert`s and `remove`s.  What the trie
stands for is a map from the paths of keys to values, and a call on it is a
step of that map: `insert` and `remove` answer what the key's path held and
set or clear it.  A run of calls on a trie of the shape `TrieDBMut` keeps gives
exactly the answers of the same run on its map, never fails, and leaves a trie
of the same shape that holds the map the run makes (`runCalls_holds`).

As the root of such a trie is a function of its map, two runs that make the
same map end at the same root, from whatever tries and databases they start
(`runCalls_root_eq`): the root commits to the contents, not to the history.
Inserting the same pairs in any order gives one root, and removing every key
from the trie it was inserted into gives back the root of the empty trie.
After a run, `get` answers what the run's map holds, and `is_empty` says that
it holds nothing.

The hash is assumed to have no collision on the encodings a run reads or
writes (`Addressed`), and those are the canonical nodes of the parts of the
maps the run passes through (`RunCovered`).  From the empty trie over an empty
database they are `runEncodings`, a finite set.
-/

namespace CodeChain

namespace Merkle

open Sync.Snapshot PathMap

variable {Hash : Type} [DecidableEq Hash] (codec : TrieCodec Hash) (backing : Store Hash)

/-- A call on the trie. -/
inductive Call where
  | insert (key value : Bytes)
  | remove (key : Bytes)

/-- What a call answers on a map: what the key's path held. -/
def Call.answer (map : Nibbles → Option Bytes) : Call → Option Bytes
  | insert key _ => map (codec.pathOf key)
  | remove key => map (codec.pathOf key)

/-- What a call makes of a map: the key's path set to the value, or cleared. -/
def Call.apply (map : Nibbles → Option Bytes) : Call → Nibbles → Option Bytes
  | insert key value => Function.update map (codec.pathOf key) (some value)
  | remove key => Function.update map (codec.pathOf key) none

/-- A run of calls on a map: the answers, one a call. -/
def answers (map : Nibbles → Option Bytes) : List Call → List (Option Bytes)
  | [] => []
  | call :: calls => call.answer codec map :: answers (call.apply codec map) calls

/-- A call on a `TrieDBMut`. -/
def TrieDBMut.call (trie : TrieDBMut Hash) : Call → Except (Fault (TrieError Hash)) (Option Bytes) × TrieDBMut Hash
  | .insert key value => trie.insert codec backing key value
  | .remove key => trie.remove codec backing key

/-- Calls on a `TrieDBMut` one after the other: their answers and the trie
they leave. -/
def TrieDBMut.runCalls (trie : TrieDBMut Hash) : List Call → List (Except (Fault (TrieError Hash)) (Option Bytes)) × TrieDBMut Hash
  | [] => ([], trie)
  | call :: calls =>
    ((trie.call codec backing call).1 :: ((trie.call codec backing call).2.runCalls calls).1,
      ((trie.call codec backing call).2.runCalls calls).2)

variable (encodings : Set Bytes)

/-- Every map a run of calls passes through from `map`, `map` included, has the
encodings of its canonical nodes in `encodings`. -/
def RunCovered (map : Nibbles → Option Bytes) (calls : List Call) : Prop :=
  ∀ later ∈ calls.scanl (Call.apply codec) map, Covered codec encodings later

variable {codec backing encodings}

omit [DecidableEq Hash] in
theorem RunCovered.start {map : Nibbles → Option Bytes} {calls : List Call}
    (covered : RunCovered codec encodings map calls) : Covered codec encodings map :=
  covered map (List.mem_of_mem_head? List.head?_scanl)

omit [DecidableEq Hash] in
theorem RunCovered.next {map : Nibbles → Option Bytes} {call : Call} {calls : List Call}
    (covered : RunCovered codec encodings map (call :: calls)) : RunCovered codec encodings (call.apply codec map) calls := by
  intro later member
  rw [RunCovered, List.scanl_cons] at covered
  exact covered later (List.mem_cons_of_mem _ member)

omit [DecidableEq Hash] in
theorem RunCovered.last {map : Nibbles → Option Bytes} {calls : List Call}
    (covered : RunCovered codec encodings map calls) : Covered codec encodings (calls.foldl (Call.apply codec) map) :=
  covered _ (List.mem_of_getLast? List.getLast?_scanl)

/-- One call on a trie of the shape `TrieDBMut` keeps is a step of its map. -/
theorem TrieDBMut.call_holds (addressed : Addressed codec backing encodings) {trie : TrieDBMut Hash}
    (sound : Sound codec encodings trie.journal) {map : Nibbles → Option Bytes}
    (holds : RootHolds codec (readThrough codec backing trie.journal) trie.root map) (call : Call)
    (covered : Covered codec encodings (call.apply codec map)) :
    (trie.call codec backing call).1 = .ok (call.answer codec map) ∧
      Grows codec backing encodings trie.journal (trie.call codec backing call).2.journal ∧
      RootHolds codec (readThrough codec backing (trie.call codec backing call).2.journal)
        (trie.call codec backing call).2.root (call.apply codec map) := by
  cases call with
  | insert key value => exact TrieDBMut.insert_holds addressed sound holds key value covered
  | remove key => exact TrieDBMut.remove_holds addressed sound holds key covered

/-- A run of calls on a trie of the shape `TrieDBMut` keeps never fails,
answers what the same run answers on its map, and leaves a trie that holds the
map the run makes, over an overlay that only grew. -/
theorem TrieDBMut.runCalls_holds (addressed : Addressed codec backing encodings) {trie : TrieDBMut Hash}
    (sound : Sound codec encodings trie.journal) {map : Nibbles → Option Bytes}
    (holds : RootHolds codec (readThrough codec backing trie.journal) trie.root map) (calls : List Call)
    (covered : RunCovered codec encodings map calls) :
    (trie.runCalls codec backing calls).1 = (answers codec map calls).map .ok ∧
      Grows codec backing encodings trie.journal (trie.runCalls codec backing calls).2.journal ∧
      RootHolds codec (readThrough codec backing (trie.runCalls codec backing calls).2.journal)
        (trie.runCalls codec backing calls).2.root (calls.foldl (Call.apply codec) map) := by
  induction calls generalizing trie map with
  | nil => exact ⟨rfl, Grows.refl sound, holds⟩
  | cons call calls ih =>
    obtain ⟨answered, grows, holds'⟩ := TrieDBMut.call_holds addressed sound holds call covered.next.start
    obtain ⟨rest, restGrows, restHolds⟩ := ih grows.sound holds' covered.next
    refine ⟨?_, grows.trans restGrows, restHolds⟩
    simp only [TrieDBMut.runCalls, answers, List.map_cons, answered, rest]

/-! ### What `get` answers -/

/-- After `insert`, `get` answers the value at the key's path and what it
answered before at every other path; `insert` itself answers what `get` did. -/
theorem TrieDBMut.insert_get (addressed : Addressed codec backing encodings) {trie : TrieDBMut Hash}
    (sound : Sound codec encodings trie.journal) {map : Nibbles → Option Bytes}
    (holds : RootHolds codec (readThrough codec backing trie.journal) trie.root map) (key value key' : Bytes)
    (covered : Covered codec encodings (Function.update map (codec.pathOf key) (some value))) :
    (trie.insert codec backing key value).1 = trie.get codec backing key ∧
      (trie.insert codec backing key value).2.get codec backing key' =
        if codec.pathOf key' = codec.pathOf key then .ok (some value) else trie.get codec backing key' := by
  obtain ⟨answered, -, holds'⟩ := TrieDBMut.insert_holds addressed sound holds key value covered
  refine ⟨by rw [answered, TrieDBMut.get_holds holds], ?_⟩
  rw [TrieDBMut.get_holds holds', TrieDBMut.get_holds holds]
  split
  · rename_i same
    rw [same, Function.update_self]
  · rename_i apart
    rw [Function.update_of_ne apart]

/-- After `remove`, `get` answers nothing at the key's path and what it
answered before at every other path; `remove` itself answers what `get` did. -/
theorem TrieDBMut.remove_get (addressed : Addressed codec backing encodings) {trie : TrieDBMut Hash}
    (sound : Sound codec encodings trie.journal) {map : Nibbles → Option Bytes}
    (holds : RootHolds codec (readThrough codec backing trie.journal) trie.root map) (key key' : Bytes)
    (covered : Covered codec encodings (Function.update map (codec.pathOf key) none)) :
    (trie.remove codec backing key).1 = trie.get codec backing key ∧
      (trie.remove codec backing key).2.get codec backing key' =
        if codec.pathOf key' = codec.pathOf key then .ok none else trie.get codec backing key' := by
  obtain ⟨answered, -, holds'⟩ := TrieDBMut.remove_holds addressed sound holds key covered
  refine ⟨by rw [answered, TrieDBMut.get_holds holds], ?_⟩
  rw [TrieDBMut.get_holds holds', TrieDBMut.get_holds holds]
  split
  · rename_i same
    rw [same, Function.update_self]
  · rename_i apart
    rw [Function.update_of_ne apart]

/-! ### The root commits to the contents -/

/-- Two runs of calls that make the same map end at the same root, from
whatever tries of the shape `TrieDBMut` keeps and whatever databases they
start. -/
theorem TrieDBMut.runCalls_root_eq {backing' : Store Hash} {encodings' : Set Bytes}
    (addressed : Addressed codec backing encodings) (addressed' : Addressed codec backing' encodings')
    {trie trie' : TrieDBMut Hash} (sound : Sound codec encodings trie.journal) (sound' : Sound codec encodings' trie'.journal)
    {map map' : Nibbles → Option Bytes} (holds : RootHolds codec (readThrough codec backing trie.journal) trie.root map)
    (holds' : RootHolds codec (readThrough codec backing' trie'.journal) trie'.root map') {calls calls' : List Call}
    (covered : RunCovered codec encodings map calls) (covered' : RunCovered codec encodings' map' calls')
    (same : calls.foldl (Call.apply codec) map = calls'.foldl (Call.apply codec) map') :
    (trie.runCalls codec backing calls).2.root = (trie'.runCalls codec backing' calls').2.root := by
  have ends := (TrieDBMut.runCalls_holds addressed sound holds calls covered).2.2
  have ends' := (TrieDBMut.runCalls_holds addressed' sound' holds' calls' covered').2.2
  rw [same] at ends
  exact ends.root_eq ends'

/-! ### Orders of calls -/

omit [DecidableEq Hash] in
/-- Inserts at different paths can go in any order. -/
theorem foldl_insert_perm {pairs pairs' : List (Bytes × Bytes)} (perm : pairs.Perm pairs')
    (distinct : (pairs.map fun pair => codec.pathOf pair.1).Nodup) (map : Nibbles → Option Bytes) :
    (pairs.map fun pair => Call.insert pair.1 pair.2).foldl (Call.apply codec) map =
      (pairs'.map fun pair => Call.insert pair.1 pair.2).foldl (Call.apply codec) map := by
  rw [List.foldl_map, List.foldl_map]
  refine perm.foldl_eq' (fun first firstMember second secondMember before => ?_) map
  by_cases same : first = second
  · rw [same]
  · have apart : codec.pathOf first.1 ≠ codec.pathOf second.1 :=
      fun paths => same (List.inj_on_of_nodup_map distinct firstMember secondMember paths)
    exact Function.update_comm apart _ _ before

/-- Inserting the same pairs, no two keys of which share a path, in any order
gives one root. -/
theorem TrieDBMut.insert_perm_root_eq (addressed : Addressed codec backing encodings) {trie : TrieDBMut Hash}
    (sound : Sound codec encodings trie.journal) {map : Nibbles → Option Bytes}
    (holds : RootHolds codec (readThrough codec backing trie.journal) trie.root map) {pairs pairs' : List (Bytes × Bytes)}
    (perm : pairs.Perm pairs') (distinct : (pairs.map fun pair => codec.pathOf pair.1).Nodup)
    (covered : RunCovered codec encodings map (pairs.map fun pair => .insert pair.1 pair.2))
    (covered' : RunCovered codec encodings map (pairs'.map fun pair => .insert pair.1 pair.2)) :
    (trie.runCalls codec backing (pairs.map fun pair => .insert pair.1 pair.2)).2.root =
      (trie.runCalls codec backing (pairs'.map fun pair => .insert pair.1 pair.2)).2.root :=
  TrieDBMut.runCalls_root_eq addressed addressed sound sound holds holds covered covered'
    (foldl_insert_perm perm distinct map)

/-- The key a call is about. -/
def Call.key : Call → Bytes
  | insert key _ => key
  | remove key => key

omit [DecidableEq Hash] in
/-- Every map a run of calls passes through holds at a path none of its keys
reaches what the map it started from held there. -/
theorem apply_of_mem_scanl {calls : List Call} {path : Nibbles}
    (absent : path ∉ calls.map fun call => codec.pathOf call.key) {map later : Nibbles → Option Bytes}
    (member : later ∈ calls.scanl (Call.apply codec) map) : later path = map path := by
  induction calls generalizing map with
  | nil =>
    rw [List.scanl_nil, List.mem_singleton] at member
    rw [member]
  | cons call calls ih =>
    simp only [List.map_cons, List.mem_cons, not_or] at absent
    rw [List.scanl_cons, List.mem_cons] at member
    rcases member with rfl | later
    · rfl
    · rw [ih absent.2 later]
      cases call with
      | insert key value => exact Function.update_of_ne absent.1 _ _
      | remove key => exact Function.update_of_ne absent.1 _ _

omit [DecidableEq Hash] in
/-- A run of calls changes no path but the paths of its keys. -/
theorem foldl_apply_of_not_mem {calls : List Call} {path : Nibbles}
    (absent : path ∉ calls.map fun call => codec.pathOf call.key) (map : Nibbles → Option Bytes) :
    calls.foldl (Call.apply codec) map path = map path :=
  apply_of_mem_scanl absent (List.mem_of_getLast? List.getLast?_scanl)

omit [DecidableEq Hash] in
/-- Removing keys clears their paths and keeps the others. -/
theorem foldl_remove_apply (keys : List Bytes) (map : Nibbles → Option Bytes) (path : Nibbles) :
    (keys.map Call.remove).foldl (Call.apply codec) map path =
      if path ∈ keys.map codec.pathOf then none else map path := by
  induction keys generalizing map with
  | nil => simp
  | cons key keys ih =>
    simp only [List.map_cons, List.foldl_cons, ih, List.mem_cons, Call.apply]
    by_cases here : path = codec.pathOf key
    · simp [here]
    · simp [here]

/-- Inserting pairs into the empty trie and removing their keys again gives back
the root of the empty trie. -/
theorem TrieDBMut.remove_inserted_root (addressed : Addressed codec backing encodings) {journal : ArchiveDB Hash}
    (sound : Sound codec encodings journal) (pairs : List (Bytes × Bytes))
    (covered : RunCovered codec encodings (fun _ => none)
      ((pairs.map fun pair => .insert pair.1 pair.2) ++ pairs.map fun pair => .remove pair.1)) :
    ((TrieDBMut.new codec journal).runCalls codec backing
      ((pairs.map fun pair => .insert pair.1 pair.2) ++ pairs.map fun pair => .remove pair.1)).2.root =
      codec.blakeNullRlp := by
  have ends := (TrieDBMut.runCalls_holds addressed sound (rootHolds_new _ journal)
    ((pairs.map fun pair => .insert pair.1 pair.2) ++ pairs.map fun pair => .remove pair.1) covered).2.2
  -- every path a pair set is cleared again, and no other was set
  have cleared : ((pairs.map fun pair => Call.insert pair.1 pair.2) ++ pairs.map fun pair => Call.remove pair.1).foldl
      (Call.apply codec) (fun _ => none) = fun _ => none := by
    funext path
    have removes : (pairs.map fun pair => Call.remove pair.1) = (pairs.map Prod.fst).map Call.remove := by
      rw [List.map_map]
      rfl
    rw [List.foldl_append, removes, foldl_remove_apply]
    split
    · rfl
    · rename_i absent
      refine foldl_apply_of_not_mem ?_ _
      rw [List.map_map] at absent ⊢
      exact absent
  rw [cleared] at ends
  exact ends.root_eq (rootHolds_new (fun _ => none) journal)

/-! ### The encodings of a run from the empty trie -/

variable (codec) in
/-- The encodings a run of calls from the empty trie over an empty database
reads or writes: `NULL_RLP`, and the canonical nodes of every part of every map
the run passes through. -/
def runEncodings (calls : List Call) : Set Bytes :=
  insert nullRlp {bytes | ∃ map ∈ calls.scanl (Call.apply codec) (fun _ => none), ∃ route depth node,
    Canon codec depth node (past map route) ∧ codec.encoded node = bytes}

omit [DecidableEq Hash] in
theorem runCovered_runEncodings (calls : List Call) :
    RunCovered codec (runEncodings codec calls) (fun _ => none) calls :=
  fun map member route depth node canon => Set.mem_insert_of_mem _ ⟨map, member, route, depth, node, canon, rfl⟩

omit [DecidableEq Hash] in
/-- An empty database and a hash without collisions on a run's encodings are
what the proofs about the run assume. -/
theorem addressed_runEncodings {calls : List Call} (collisionFree : Set.InjOn codec.blake256 (runEncodings codec calls)) :
    Addressed codec (fun _ => none) (runEncodings codec calls) :=
  ⟨collisionFree, Set.mem_insert _ _, (fun _ _ found => by cases found), fun _ _ found => by cases found⟩

omit [DecidableEq Hash] in
/-- One insert into the empty trie reads or writes `NULL_RLP` and the leaves
that hold the rest of the key's path past each of its nibbles. -/
theorem mem_runEncodings_insert {key value bytes : Bytes} (read : bytes ∈ runEncodings codec [.insert key value]) :
    bytes = nullRlp ∨ ∃ count, bytes = codec.encoded (.leaf ((codec.pathOf key).drop count) value) := by
  rcases Set.mem_insert_iff.mp read with null | ⟨later, member, route, depth, node, canon, rfl⟩
  · exact .inl null
  · right
    have empty : ¬ Occupied fun _ : Nibbles => (none : Option Bytes) := fun ⟨_, _, found⟩ => by cases found
    -- the run passes through the empty map and the map of one path
    simp only [List.scanl_cons, List.scanl_nil, List.mem_cons, List.not_mem_nil, or_false] at member
    rcases member with rfl | rfl
    · exact absurd canon.occupied empty
    · rw [Call.apply, update_of_not_occupied empty, past_single] at canon
      split at canon
      · exact ⟨route.length, congrArg codec.encoded (canon.unique (.leaf _ value) rfl)⟩
      · exact absurd canon.occupied empty

/-- The hash of `sizedCodec` has no collision on what one insert of a value of
at most 60 bytes into the empty trie reads or writes: those encodings have
different lengths, below 256. -/
theorem sizedCodec_injOn_insert (key value : Bytes) (short : value.length ≤ 60) :
    Set.InjOn sizedCodec.blake256 (runEncodings sizedCodec [.insert key value]) := by
  have pathLength := sizedCodec.length_nibblesOf (sizedCodec.blake256 key)
  have leafLength : ∀ count, (sizedCodec.encoded (.leaf ((sizedCodec.pathOf key).drop count) value)).length =
      2 * (64 - count) + 2 * value.length + 3 := fun count => by
    rw [show sizedCodec.encoded = escapedEncoded from rfl, length_escapedEncoded_leaf, List.length_drop,
      TrieCodec.pathOf, pathLength]
  have nullLength : nullRlp.length = 1 := rfl
  -- every encoding is shorter than 256 bytes, so its hash gives its length
  have bound : ∀ bytes ∈ runEncodings sizedCodec [.insert key value], bytes.length < 256 := by
    intro bytes read
    rcases mem_runEncodings_insert read with rfl | ⟨count, rfl⟩
    · rw [nullLength]
      omega
    · rw [leafLength]
      omega
  intro first firstMember second secondMember hashes
  have heads : UInt8.ofNat first.length = UInt8.ofNat second.length := (List.cons.inj hashes).1
  have lengths := congrArg UInt8.toNat heads
  rw [UInt8.toNat_ofNat', UInt8.toNat_ofNat', Nat.mod_eq_of_lt (bound first firstMember),
    Nat.mod_eq_of_lt (bound second secondMember)] at lengths
  rcases mem_runEncodings_insert firstMember with rfl | ⟨count, rfl⟩ <;>
    rcases mem_runEncodings_insert secondMember with rfl | ⟨count', rfl⟩
  · rfl
  · rw [nullLength, leafLength] at lengths
    omega
  · rw [nullLength, leafLength] at lengths
    omega
  · -- two leaves of one length hold the same rest of the path
    rw [leafLength, leafLength] at lengths
    rcases le_or_gt 64 count with long | within
    · have firstNil : (sizedCodec.pathOf key).drop count = [] :=
        List.drop_eq_nil_of_le (by rw [TrieCodec.pathOf, pathLength]; exact long)
      have secondNil : (sizedCodec.pathOf key).drop count' = [] :=
        List.drop_eq_nil_of_le (by rw [TrieCodec.pathOf, pathLength]; omega)
      rw [firstNil, secondNil]
    · rw [show count' = count by omega]

omit [DecidableEq Hash] in
/-- A part of a map of a run from the empty trie that has a canonical node lies
along the path of one of the run's keys. -/
theorem exists_key_of_canon {calls : List Call} {later : Nibbles → Option Bytes}
    (member : later ∈ calls.scanl (Call.apply codec) (fun _ => none)) {route : Nibbles} {depth : ℕ} {node : Node Hash}
    (canon : Canon codec depth node (past later route)) :
    ∃ path ∈ calls.map (fun call => codec.pathOf call.key), route ∈ path.inits := by
  obtain ⟨rest, value, found⟩ := canon.occupied
  have keyed : route ++ rest ∈ calls.map fun call => codec.pathOf call.key := by
    by_contra absent
    rw [past, apply_of_mem_scanl absent member] at found
    cases found
  exact ⟨route ++ rest, keyed, (List.mem_inits _ _).mpr (List.prefix_append route rest)⟩

omit [DecidableEq Hash] in
/-- A run reads or writes finitely many encodings: one canonical node at most
for each part of each map the run passes through, along the paths of its keys.
A hash of 32 bytes without collisions among them is what `Addressed` asks. -/
theorem runEncodings_finite (calls : List Call) : (runEncodings codec calls).Finite := by
  -- one canonical node at most for each part of each map, along each key's path
  have parts : (⋃ later ∈ {later | later ∈ calls.scanl (Call.apply codec) (fun _ => none)},
      ⋃ path ∈ {path | path ∈ calls.map fun call => codec.pathOf call.key}, ⋃ route ∈ {route | route ∈ path.inits},
        {bytes | ∃ depth node, Canon codec depth node (past later route) ∧ codec.encoded node = bytes}).Finite := by
    refine Set.Finite.biUnion (List.finite_toSet _) fun later _ => Set.Finite.biUnion (List.finite_toSet _) fun path _ =>
      Set.Finite.biUnion (List.finite_toSet _) fun route _ => Set.Subsingleton.finite ?_
    rintro _ ⟨depth, node, canon, rfl⟩ _ ⟨depth', node', canon', rfl⟩
    rw [canon.unique canon' rfl]
  refine Set.Finite.insert nullRlp (parts.subset ?_)
  rintro _ ⟨later, member, route, depth, node, canon, rfl⟩
  obtain ⟨path, keyed, along⟩ := exists_key_of_canon member canon
  simp only [Set.mem_iUnion]
  exact ⟨later, member, path, keyed, route, along, depth, node, canon, rfl⟩

/-! ### `is_empty` -/

/-- On a trie that a run of calls reaches from `TrieDBMut::new` over an empty
database, with a hash that has no collision on the run's encodings, `is_empty`
answers whether `get` finds nothing at every key. -/
theorem TrieDBMut.isEmpty_runCalls {calls : List Call} (collisionFree : Set.InjOn codec.blake256 (runEncodings codec calls)) :
    ((TrieDBMut.new codec ∅).runCalls codec (fun _ => none) calls).2.isEmpty codec = true ↔
      ∀ key, ((TrieDBMut.new codec ∅).runCalls codec (fun _ => none) calls).2.get codec (fun _ => none) key = .ok none := by
  have covered : RunCovered codec (runEncodings codec calls) (fun _ => none) calls := runCovered_runEncodings calls
  have holds := (TrieDBMut.runCalls_holds (addressed_runEncodings collisionFree) (sound_empty codec _)
    (rootHolds_new _ ∅) calls covered).2.2
  rw [TrieDBMut.isEmpty, decide_eq_true_iff,
    holds.root_eq_blakeNullRlp_iff collisionFree (Set.mem_insert _ _) covered.last]
  simp only [TrieDBMut.get_holds holds, Except.ok.injEq]
  constructor
  · intro vacant key
    cases found : calls.foldl (Call.apply codec) (fun _ => none) (codec.pathOf key) with
    | none => rfl
    | some value => exact absurd ⟨_, value, found⟩ vacant
  · -- the run set no path but the paths of its keys
    rintro nothing ⟨path, value, found⟩
    by_cases keyed : path ∈ calls.map fun call => codec.pathOf call.key
    · obtain ⟨call, -, rfl⟩ := List.mem_map.mp keyed
      rw [nothing call.key] at found
      cases found
    · rw [foldl_apply_of_not_mem keyed] at found
      cases found

theorem TrieDBMut.isEmpty_runCalls_sized :
    Set.InjOn sizedCodec.blake256 (runEncodings sizedCodec [.insert [1] [7]]) ∧
      (((TrieDBMut.new sizedCodec ∅).runCalls sizedCodec (fun _ => none) [.insert [1] [7]]).2.isEmpty sizedCodec = true ↔
        ∀ key, ((TrieDBMut.new sizedCodec ∅).runCalls sizedCodec (fun _ => none) [.insert [1] [7]]).2.get sizedCodec
          (fun _ => none) key = .ok none) :=
  ⟨sizedCodec_injOn_insert [1] [7] (by decide),
    TrieDBMut.isEmpty_runCalls (sizedCodec_injOn_insert [1] [7] (by decide))⟩

end Merkle

end CodeChain
