import CodeChain.Merkle.Trie
import CodeChain.Lib.SortedMap

/-!
# The root of a trie computed from its pairs

`trie_root` computes, without a database, the root the trie of a list of
key-value pairs has.  It collects the pairs into a `BTreeMap`, which sorts them
by key and keeps the last value of each key, and `hash256rlp` writes the RLP of
the root node of their trie: the empty string for no pair, a leaf with the rest
of its key for one pair, and for several a branch over the nibbles their keys
share, whose slots the loop `for i in 0..16` fills from the run of pairs whose
next nibble is `i`.  `hash256aux` hashes the node of each run.

The model writes each node with the codec's `encoded`: `hash256rlp` appends the
partial path with `hex_prefix_encode`, which writes a list of nibbles as
`NibbleSlice::encoded` writes a slice holding them (`hexPrefixEncode_toVec`),
then the value, or the sixteen slots as `Node::encoded` appends them.  The
`BTreeMap` is keyed here by the nibbles of the keys' hashes: `as_nibbles` reads
them from the bytes of a hash in order, so they order the hashes as the hashes
order themselves.  Slicing a key past its end and indexing a nibble past it
panic, as in the code.
-/

namespace CodeChain

namespace Merkle

open Sync.Snapshot PathMap

/-! ### Prefixes and their encoding -/

/-- `shared_prefix_len`: the number of items two slices share from the start. -/
def sharedPrefixLen {α : Type} [DecidableEq α] (first second : List α) : ℕ :=
  ((List.range (min first.length second.length)).takeWhile fun i => first[i]? = second[i]?).length

theorem sharedPrefixLen_eq_commonPrefix {α : Type} [DecidableEq α] (first second : List α) :
    sharedPrefixLen first second = commonPrefix first second := by
  induction first generalizing second with
  | nil => simp [sharedPrefixLen, commonPrefix]
  | cons a rest ih =>
    cases second with
    | nil => simp [sharedPrefixLen, commonPrefix]
    | cons b others =>
      -- the loop looks at index 0, then at the indices of the tails shifted by one
      have shifted : List.range (min (rest.length + 1) (others.length + 1)) =
          0 :: (List.range (min rest.length others.length)).map Nat.succ := by
        rw [Nat.succ_min_succ, List.range_succ_eq_map]
      rw [sharedPrefixLen, List.length_cons, List.length_cons, shifted, commonPrefix]
      by_cases same : a = b
      · rw [List.takeWhile_cons_of_pos (by simp [same]), if_pos same, List.length_cons, List.takeWhile_map,
          List.length_map, ← ih others, sharedPrefixLen]
        rfl
      · rw [List.takeWhile_cons_of_neg (by simp [same]), if_neg same, List.length_nil]

/-- `hex_prefix_encode`. -/
def hexPrefixEncode (nibbles : List UInt8) : List UInt8 :=
  NibbleSlice.hexPrefix nibbles.length fun i => nibbles[i]!

/-- The hex-prefix bytes of `l` nibbles read no nibble past the `l`th. -/
theorem hexPrefix_congr {l : ℕ} {nibble nibble' : ℕ → UInt8} (agree : ∀ i < l, nibble i = nibble' i) :
    NibbleSlice.hexPrefix l nibble = NibbleSlice.hexPrefix l nibble' := by
  unfold NibbleSlice.hexPrefix
  congr 1
  · by_cases odd : l % 2 = 1
    · rw [if_pos odd, if_pos odd, agree 0 (by omega)]
    · rw [if_neg odd, if_neg odd]
  · refine List.map_congr_left fun k member => ?_
    have within := List.mem_range.mp member
    rw [agree _ (by omega), agree _ (by omega)]

/-- `hex_prefix_encode` writes the nibbles of a slice as `NibbleSlice::encoded`
writes the slice. -/
theorem hexPrefixEncode_toVec (slice : NibbleSlice) : hexPrefixEncode slice.toVec = slice.encoded := by
  rw [hexPrefixEncode, NibbleSlice.encoded, NibbleSlice.length_toVec]
  refine hexPrefix_congr fun i within => ?_
  have inside : i < slice.toVec.length := by
    rw [NibbleSlice.length_toVec]
    exact within
  rw [getElem!_pos slice.toVec i inside, NibbleSlice.getElem_toVec]

/-! ### `hash256rlp` -/

section Root

variable {Hash : Type} (codec : TrieCodec Hash)

/-- `input[begin..].iter().take_while(|pair| pair.0[shared_prefix] == i).count()`
on the pairs from `begin` on: a key too short to index panics. -/
def countLeading (sharedPrefix : ℕ) (i : Fin 16) : List (Nibbles × Bytes) → Except (Fault Empty) ℕ
  | [] => pure 0
  | pair :: rest =>
    match pair.1[sharedPrefix]? with
    | none => throw (.panic "index out of bounds")
    | some nibble => if nibble = i then (· + 1) <$> countLeading sharedPrefix i rest else pure 0

/-- The `fold` of `hash256rlp`: the fewest nibbles the first key shares with a
later one, and at most its length. -/
def sharedPrefixOf (key : Nibbles) (rest : List (Nibbles × Bytes)) : ℕ :=
  rest.foldl (fun acc pair => min (sharedPrefixLen key pair.1) acc) key.length

/-- The length of the longest key, which bounds how deep `hash256rlp` goes. -/
def longestKey (input : List (Nibbles × Bytes)) : ℕ :=
  (input.map fun pair => pair.1.length).foldr max 0

/-- The fold of `hash256rlp` never rises above where it starts. -/
theorem foldl_min_le (key : Nibbles) (rest : List (Nibbles × Bytes)) (start : ℕ) :
    rest.foldl (fun acc pair => min (sharedPrefixLen key pair.1) acc) start ≤ start := by
  induction rest generalizing start with
  | nil => exact le_rfl
  | cons pair rest ih => exact (ih _).trans (min_le_right _ _)

theorem sharedPrefixOf_le (key : Nibbles) (rest : List (Nibbles × Bytes)) : sharedPrefixOf key rest ≤ key.length :=
  foldl_min_le key rest key.length

theorem sharedPrefixOf_le_of_mem {key : Nibbles} {rest : List (Nibbles × Bytes)} {pair : Nibbles × Bytes}
    (member : pair ∈ rest) : sharedPrefixOf key rest ≤ sharedPrefixLen key pair.1 := by
  unfold sharedPrefixOf
  generalize key.length = start
  induction rest generalizing start with
  | nil => cases member
  | cons head rest ih =>
    rw [List.foldl_cons]
    rcases List.mem_cons.mp member with rfl | there
    · exact (foldl_min_le key rest _).trans (min_le_left _ _)
    · exact ih there _

/-- A bound below the first key's length and below every prefix it shares is
below the fold. -/
theorem le_sharedPrefixOf {key : Nibbles} {rest : List (Nibbles × Bytes)} {bound : ℕ} (short : bound ≤ key.length)
    (shares : ∀ pair ∈ rest, bound ≤ sharedPrefixLen key pair.1) : bound ≤ sharedPrefixOf key rest := by
  unfold sharedPrefixOf
  generalize key.length = start at short
  induction rest generalizing start with
  | nil => exact short
  | cons head rest ih =>
    rw [List.foldl_cons]
    exact ih (fun pair member => shares pair (List.mem_cons_of_mem _ member))
      _ (le_min (shares head List.mem_cons_self) short)

/-- The fold ends at the first key's length or at the prefix it shares with
one of the other keys. -/
theorem sharedPrefixOf_attained (key : Nibbles) (rest : List (Nibbles × Bytes)) :
    sharedPrefixOf key rest = key.length ∨ ∃ pair ∈ rest, sharedPrefixOf key rest = sharedPrefixLen key pair.1 := by
  unfold sharedPrefixOf
  generalize key.length = start
  induction rest generalizing start with
  | nil => exact .inl rfl
  | cons head rest ih =>
    rw [List.foldl_cons]
    rcases ih (min (sharedPrefixLen key head.1) start) with atStart | ⟨pair, member, found⟩
    · rcases min_choice (sharedPrefixLen key head.1) start with first | second
      · exact .inr ⟨head, List.mem_cons_self, atStart.trans first⟩
      · exact .inl (atStart.trans second)
    · exact .inr ⟨pair, List.mem_cons_of_mem _ member, found⟩

theorem length_le_longestKey {pair : Nibbles × Bytes} {input : List (Nibbles × Bytes)} (member : pair ∈ input) :
    pair.1.length ≤ longestKey input := by
  induction input with
  | nil => cases member
  | cons head tail ih =>
    simp only [longestKey, List.map_cons, List.foldr_cons] at ih ⊢
    rcases List.mem_cons.mp member with rfl | there
    · exact le_max_left _ _
    · exact (ih there).trans (le_max_right _ _)

theorem longestKey_le_of_sublist {slice input : List (Nibbles × Bytes)} (sub : List.Sublist slice input) :
    longestKey slice ≤ longestKey input := by
  induction sub with
  | slnil => exact le_rfl
  | cons head _ ih =>
    simp only [longestKey, List.map_cons, List.foldr_cons] at ih ⊢
    exact ih.trans (le_max_right _ _)
  | cons_cons head _ ih =>
    simp only [longestKey, List.map_cons, List.foldr_cons] at ih ⊢
    exact max_le_max le_rfl ih

/-- The run of pairs `hash256aux` is given: `&input[begin..(begin + len)]`. -/
theorem run_sublist (input : List (Nibbles × Bytes)) (begin len : ℕ) : List.Sublist ((input.drop begin).take len) input :=
  (List.take_sublist _ _).trans (List.drop_sublist _ _)

mutual

/-- `hash256rlp`: the RLP item of the node over pairs sorted by key, from the
nibble `preLen` of their keys on. -/
def hash256rlp (input : List (Nibbles × Bytes)) (preLen : ℕ) : Except (Fault Empty) Bytes :=
  match input with
  | [] => pure nullRlp
  | [(key, value)] =>
    if preLen ≤ key.length then pure (codec.encoded (.leaf (key.drop preLen) value))
    else throw (.panic "range start index out of range for slice")
  | (key, value) :: second :: rest =>
    let shared := sharedPrefixOf key (second :: rest)
    if preLen ≤ shared then do
      let children ← branchSlots ((key, value) :: second :: rest) shared 0 0 emptyChildren
      pure (codec.encoded (.branch ((key.take shared).drop preLen) children))
    else throw (.panic "slice index starts after its end")
termination_by (input.length, longestKey input + 2 - preLen, 17)
decreasing_by
  have first : (key, value) ∈ (key, value) :: second :: rest := List.mem_cons_self
  have bounded := (sharedPrefixOf_le key (second :: rest)).trans (length_le_longestKey first)
  have : preLen ≤ sharedPrefixOf key (second :: rest) := ‹preLen ≤ shared›
  simp only [Prod.lex_def, true_and]
  omega

/-- The loop `for i in 0..16` of `hash256rlp`: slot `i` takes the hash
`hash256aux` gives the run of pairs from `begin` on whose nibble at
`sharedPrefix` is `i`, and stays empty when there is none. -/
def branchSlots (input : List (Nibbles × Bytes)) (sharedPrefix i begin : ℕ) (children : Vector (Option Hash) 16) :
    Except (Fault Empty) (Vector (Option Hash) 16) :=
  if within : i < 16 then do
    let len ← if begin < input.length then countLeading sharedPrefix ⟨i, within⟩ (input.drop begin) else pure 0
    let child ← match len with
      | 0 => pure none
      | _ + 1 => do
        let item ← hash256rlp ((input.drop begin).take len) (sharedPrefix + 1)
        pure (some (codec.blake256 item))
    branchSlots input sharedPrefix (i + 1) (begin + len) (children.set i child within)
  else pure children
termination_by (input.length, longestKey input + 2 - min sharedPrefix (longestKey input), 16 - i)
decreasing_by
  all_goals
    have shorter := (run_sublist input begin len).length_le
    have lower := longestKey_le_of_sublist (run_sublist input begin len)
    simp only [Prod.lex_def, true_and]
    omega

end

/-- `gen_trie_root`: the hash of the RLP of the root node. -/
def genTrieRoot (input : List (Nibbles × Bytes)) : Except (Fault Empty) Hash :=
  codec.blake256 <$> hash256rlp codec input 0

/-- `trie_root`: the pairs collected under the nibbles of their keys' hashes,
each key with its last value, in the order of the keys. -/
def trieRoot (input : List (Bytes × Bytes)) : Except (Fault Empty) Hash :=
  genTrieRoot codec (SortedMap.ofList (input.map fun pair => (codec.pathOf pair.1, pair.2)))

end Root

end Merkle

end CodeChain
