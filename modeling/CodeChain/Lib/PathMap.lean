import Mathlib

/-!
# Maps over paths, as a trie holds them

A trie over an alphabet holds a partial map from paths to values.  A leaf holds
one path, and a branch the paths that run through its stem and then one of its
slots, each slot holding a map of its own for the rest of the path.  This file
gives these two maps, `single` and `through`: how an update at a path passes
down into the slot the path runs through, and how a branch with one occupied
slot left is the same map as that slot under a longer stem.  It also gives the
length of the common prefix of two paths, where an insert splits a node, and
counts the occupied slots of a vector of children.

A branch with two occupied slots determines its stem and its slots, and it is
no leaf's map (`through_inj`, `single_ne_through`): this is what makes the
shape of a trie a function of the map it holds.
-/

namespace CodeChain

namespace PathMap

variable {α β : Type} [DecidableEq α]

/-! ### Common prefixes -/

/-- How many elements two lists have in common from the start. -/
def commonPrefix : List α → List α → ℕ
  | [], _ => 0
  | _ :: _, [] => 0
  | a :: rest, b :: others => if a = b then commonPrefix rest others + 1 else 0

theorem commonPrefix_comm (first second : List α) : commonPrefix first second = commonPrefix second first := by
  induction first generalizing second with
  | nil => cases second <;> rfl
  | cons a rest ih =>
    cases second with
    | nil => rfl
    | cons b others =>
      simp only [commonPrefix, ih others]
      by_cases same : a = b
      · rw [if_pos same, if_pos same.symm]
      · rw [if_neg same, if_neg (Ne.symm same)]

theorem commonPrefix_le_length (first second : List α) : commonPrefix first second ≤ first.length := by
  induction first generalizing second with
  | nil => exact le_refl _
  | cons a rest ih =>
    cases second with
    | nil => exact Nat.zero_le _
    | cons b others =>
      simp only [commonPrefix, List.length_cons]
      split
      · exact Nat.succ_le_succ (ih others)
      · exact Nat.zero_le _

/-- Both lists have the same first `commonPrefix` elements. -/
theorem take_commonPrefix (first second : List α) :
    first.take (commonPrefix first second) = second.take (commonPrefix first second) := by
  induction first generalizing second with
  | nil => rfl
  | cons a rest ih =>
    cases second with
    | nil => rfl
    | cons b others =>
      simp only [commonPrefix]
      split
      · rename_i same
        rw [same, List.take_succ_cons, List.take_succ_cons, ih others]
      · rfl

/-- Where the common prefix ends, the two lists go on with different elements. -/
theorem ne_of_drop_commonPrefix {first second rest others : List α} {a b : α}
    (firstRest : first.drop (commonPrefix first second) = a :: rest)
    (secondRest : second.drop (commonPrefix first second) = b :: others) : a ≠ b := by
  induction first generalizing second with
  | nil => cases firstRest
  | cons c tail ih =>
    cases second with
    | nil => cases secondRest
    | cons d tail' =>
      simp only [commonPrefix] at firstRest secondRest
      split at firstRest
      · rename_i same
        rw [if_pos same, List.drop_succ_cons] at secondRest
        rw [List.drop_succ_cons] at firstRest
        exact ih firstRest secondRest
      · rename_i differ
        rw [if_neg differ, List.drop_zero, List.cons.injEq] at secondRest
        rw [List.drop_zero, List.cons.injEq] at firstRest
        rw [← firstRest.1, ← secondRest.1]
        exact differ

/-- Two lists that go on past their common prefix go on with different
elements. -/
theorem exists_drop_commonPrefix {first second : List α} (shortFirst : commonPrefix first second < first.length)
    (shortSecond : commonPrefix first second < second.length) :
    ∃ a rest b others, first.drop (commonPrefix first second) = a :: rest ∧
      second.drop (commonPrefix first second) = b :: others ∧ a ≠ b := by
  obtain ⟨a, rest, firstRest⟩ := List.exists_cons_of_ne_nil (fun empty => by
    rw [List.drop_eq_nil_iff] at empty
    omega : first.drop (commonPrefix first second) ≠ [])
  obtain ⟨b, others, secondRest⟩ := List.exists_cons_of_ne_nil (fun empty => by
    rw [List.drop_eq_nil_iff] at empty
    omega : second.drop (commonPrefix first second) ≠ [])
  exact ⟨a, rest, b, others, firstRest, secondRest, ne_of_drop_commonPrefix firstRest secondRest⟩

/-- The common prefix is all of the first list exactly when it is a prefix of
the second. -/
theorem commonPrefix_eq_length_iff (first second : List α) :
    commonPrefix first second = first.length ↔ first <+: second := by
  induction first generalizing second with
  | nil => exact ⟨fun _ => List.nil_prefix, fun _ => rfl⟩
  | cons a rest ih =>
    cases second with
    | nil => simp [commonPrefix]
    | cons b others =>
      simp only [commonPrefix, List.length_cons, List.cons_prefix_cons]
      split
      · rename_i same
        rw [Nat.add_right_cancel_iff, ih others]
        exact ⟨fun isPrefix => ⟨same, isPrefix⟩, fun both => both.2⟩
      · rename_i differ
        exact ⟨fun zero => absurd zero.symm (Nat.succ_ne_zero _), fun both => absurd both.1 differ⟩

/-- Two different lists of one length part before the end. -/
theorem commonPrefix_lt_of_ne {first second : List α} (length : first.length = second.length) (differ : first ≠ second) :
    commonPrefix first second < first.length := by
  refine lt_of_le_of_ne (commonPrefix_le_length first second) fun whole => differ ?_
  exact ((commonPrefix_eq_length_iff first second).mp whole).eq_of_length length

theorem commonPrefix_append (lead first second : List α) :
    commonPrefix (lead ++ first) (lead ++ second) = lead.length + commonPrefix first second := by
  induction lead with
  | nil => simp
  | cons a lead ih =>
    simp only [List.cons_append, commonPrefix, ↓reduceIte, ih, List.length_cons]
    omega

/-- Two lists that start with one list share at least its length. -/
theorem length_le_commonPrefix {lead first second : List α} (firstStarts : lead <+: first)
    (secondStarts : lead <+: second) : lead.length ≤ commonPrefix first second := by
  obtain ⟨firstRest, rfl⟩ := firstStarts
  obtain ⟨secondRest, rfl⟩ := secondStarts
  rw [commonPrefix_append]
  exact Nat.le_add_right _ _

/-- Two lists agree up to any point within their common prefix. -/
theorem take_eq_of_le_commonPrefix {first second : List α} {count : ℕ} (within : count ≤ commonPrefix first second) :
    first.take count = second.take count := by
  have shared := congrArg (List.take count) (take_commonPrefix first second)
  rwa [List.take_take, List.take_take, min_eq_left within] at shared

/-! ### The maps of a leaf and of a branch -/

/-- The map that holds `value` at `path` and nothing else. -/
def single (path : List α) (value : β) (key : List α) : Option β :=
  if key = path then some value else none

/-- The map of a branch: a path that runs through `stem` and then slot `i`
holds what `slots i` holds at the rest of it. -/
def through : List α → (α → List α → Option β) → List α → Option β
  | [], slots, i :: rest => slots i rest
  | [], _, [] => none
  | _ :: _, _, [] => none
  | a :: stem, slots, b :: key => if a = b then through stem slots key else none

/-- A map that holds something. -/
def Occupied (map : List α → Option β) : Prop :=
  ∃ key value, map key = some value

/-- Two different slots hold something. -/
def Forks (slots : α → List α → Option β) : Prop :=
  ∃ i j, i ≠ j ∧ Occupied (slots i) ∧ Occupied (slots j)

@[simp]
theorem single_eq_some {path key : List α} {value found : β} :
    single path value key = some found ↔ key = path ∧ value = found := by
  unfold single
  split <;> simp [*]

@[simp]
theorem through_append_cons (stem : List α) (slots : α → List α → Option β) (i : α) (rest : List α) :
    through stem slots (stem ++ i :: rest) = slots i rest := by
  induction stem with
  | nil => rfl
  | cons a stem ih => simp [through, ih]

/-- What a branch's map holds: a value of a slot, under the stem and the slot. -/
theorem through_eq_some {stem key : List α} {slots : α → List α → Option β} {value : β} :
    through stem slots key = some value ↔ ∃ i rest, key = stem ++ i :: rest ∧ slots i rest = some value := by
  induction stem generalizing key with
  | nil =>
    cases key with
    | nil => simp [through]
    | cons i rest => simp [through]
  | cons a stem ih =>
    cases key with
    | nil => simp [through]
    | cons b key =>
      simp only [through, List.cons_append, List.cons.injEq]
      split
      · rename_i same
        rw [ih]
        subst same
        simp
      · rename_i differ
        simp only [reduceCtorEq, false_iff, not_exists, not_and]
        intro _ _ same
        exact absurd same.1.symm differ

theorem occupied_single (path : List α) (value : β) : Occupied (single path value) :=
  ⟨path, value, by simp⟩

/-- Every path of a branch's map runs through its stem. -/
theorem prefix_of_through_eq_some {stem key : List α} {slots : α → List α → Option β} {value : β}
    (found : through stem slots key = some value) : stem <+: key := by
  obtain ⟨i, rest, rfl, _⟩ := through_eq_some.mp found
  exact List.prefix_append _ _

/-- A list that every path of a forking branch's map starts with is a prefix of
its stem: two of the paths part right after the stem. -/
theorem prefix_stem_of_forks {stem start : List α} {slots : α → List α → Option β} (forks : Forks slots)
    (starts : ∀ key value, through stem slots key = some value → start <+: key) : start <+: stem := by
  obtain ⟨i, j, differ, ⟨rest, value, found⟩, ⟨rest', value', found'⟩⟩ := forks
  have first := starts _ _ (through_eq_some.mpr ⟨i, rest, rfl, found⟩)
  have second := starts _ _ (through_eq_some.mpr ⟨j, rest', rfl, found'⟩)
  by_cases short : start.length ≤ stem.length
  · exact List.prefix_of_prefix_length_le first (List.prefix_append _ _) short
  · -- a longer start would hold both `i` and `j` right after the stem
    have within : stem.length < start.length := by omega
    have atFirst := first.getElem within
    have atSecond := second.getElem within
    simp only [List.getElem_append_right (le_refl _), Nat.sub_self, List.getElem_cons_zero] at atFirst atSecond
    exact absurd (atFirst.symm.trans atSecond) differ

/-- A forking branch's map determines the branch's stem and its slots. -/
theorem through_inj {stem stem' : List α} {slots slots' : α → List α → Option β} (forks : Forks slots)
    (forks' : Forks slots') (same : through stem slots = through stem' slots') :
    stem = stem' ∧ slots = slots' := by
  have shorter : stem' <+: stem :=
    prefix_stem_of_forks forks fun key value found => prefix_of_through_eq_some (same ▸ found)
  have longer : stem <+: stem' :=
    prefix_stem_of_forks forks' fun key value found => prefix_of_through_eq_some (same.symm ▸ found)
  have stems : stem = stem' := longer.eq_of_length (le_antisymm longer.length_le shorter.length_le)
  subst stems
  refine ⟨rfl, funext fun i => funext fun rest => ?_⟩
  rw [← through_append_cons stem slots i rest, same, through_append_cons]

/-- A forking branch's map holds two paths, a leaf's one. -/
theorem single_ne_through {path stem : List α} {value : β} {slots : α → List α → Option β} (forks : Forks slots) :
    single path value ≠ through stem slots := by
  intro same
  obtain ⟨i, j, differ, ⟨rest, _, found⟩, ⟨rest', _, found'⟩⟩ := forks
  have first : single path value (stem ++ i :: rest) ≠ none := by
    rw [same, through_append_cons, found]
    exact Option.some_ne_none _
  have second : single path value (stem ++ j :: rest') ≠ none := by
    rw [same, through_append_cons, found']
    exact Option.some_ne_none _
  simp only [single, ne_eq, ite_eq_right_iff, reduceCtorEq, imp_false, not_not] at first second
  rw [← second, List.append_cancel_left_eq, List.cons.injEq] at first
  exact differ first.1

theorem single_inj {path path' : List α} {value value' : β} (same : single path value = single path' value') :
    path = path' ∧ value = value' := by
  have found : single path' value' path = some value := by rw [← same]; simp
  exact (single_eq_some.mp found).imp id Eq.symm

theorem occupied_through {stem : List α} {slots : α → List α → Option β} (forks : Forks slots) :
    Occupied (through stem slots) := by
  obtain ⟨i, _, _, ⟨rest, value, found⟩, _⟩ := forks
  exact ⟨stem ++ i :: rest, value, by rw [through_append_cons, found]⟩

/-! ### The part of a map past a route -/

omit [DecidableEq α] in
/-- What `map` holds past `route`: the map of the part of a trie that `route`
leads to. -/
def past (map : List α → Option β) (route key : List α) : Option β :=
  map (route ++ key)

omit [DecidableEq α] in
@[simp]
theorem past_nil (map : List α → Option β) : past map [] = map :=
  rfl

omit [DecidableEq α] in
theorem past_past (map : List α → Option β) (route route' : List α) :
    past (past map route) route' = past map (route ++ route') := by
  funext key
  simp only [past, List.append_assoc]

/-- Past a route, a leaf's map holds the rest of the leaf's path when the route
runs along it, and nothing when it leaves it. -/
theorem past_single (path : List α) (value : β) (route : List α) :
    past (single path value) route = if route <+: path then single (path.drop route.length) value else fun _ => none := by
  funext key
  split
  · rename_i along
    obtain ⟨rest, rfl⟩ := along
    simp [past, single]
  · rename_i off
    rw [past, single, if_neg fun same => off ⟨key, same⟩]

/-- Past its stem and a slot, a branch's map is the slot's. -/
@[simp]
theorem past_through (stem : List α) (slots : α → List α → Option β) (i : α) :
    past (through stem slots) (stem ++ [i]) = slots i := by
  funext key
  rw [past, List.append_assoc, List.singleton_append, through_append_cons]

/-! ### Updates and merges -/

/-- An update at a path through a branch is an update of the slot the path
runs through. -/
theorem update_through (stem : List α) (slots : α → List α → Option β) (i : α) (rest : List α)
    (value : Option β) :
    Function.update (through stem slots) (stem ++ i :: rest) value =
      through stem (Function.update slots i (Function.update (slots i) rest value)) := by
  funext key
  by_cases here : key = stem ++ i :: rest
  · subst here
    simp
  · rw [Function.update_of_ne here]
    refine Option.ext fun found => ?_
    rw [through_eq_some, through_eq_some]
    refine exists_congr fun j => exists_congr fun rest' => and_congr_right fun split => ?_
    -- the slots differ only at `i` and `rest`, which `key` does not reach
    by_cases slot : j = i
    · subst slot
      have other : rest' ≠ rest := fun same => here (by rw [split, same])
      simp [Function.update_of_ne other]
    · simp [Function.update_of_ne slot]

/-- Setting a path in a map that holds nothing gives the map of that path. -/
theorem update_of_not_occupied {map : List α → Option β} (vacant : ¬ Occupied map) (key : List α) (value : β) :
    Function.update map key (some value) = single key value := by
  funext other
  by_cases here : other = key
  · subst here
    simp [single]
  · rw [Function.update_of_ne here, single, if_neg here]
    cases found : map other with
    | none => rfl
    | some held => exact absurd ⟨other, held, found⟩ vacant

theorem update_single_self (path : List α) (value value' : β) :
    Function.update (single path value) path (some value') = single path value' := by
  funext key
  by_cases here : key = path
  · subst here
    simp [single]
  · rw [Function.update_of_ne here]
    simp [single, here]

/-- Removing the one path of a leaf's map leaves nothing. -/
theorem not_occupied_update_single (path : List α) (value : β) :
    ¬ Occupied (Function.update (single path value) path none) := by
  rintro ⟨key, found, held⟩
  by_cases here : key = path
  · subst here
    simp at held
  · rw [Function.update_of_ne here] at held
    simp [single, here] at held

/-- Setting a path through an empty slot of a branch puts a leaf's map in the
slot. -/
theorem update_through_vacant {stem rest : List α} {slots : α → List α → Option β} {i : α}
    (vacant : ¬ Occupied (slots i)) (value : β) :
    Function.update (through stem slots) (stem ++ i :: rest) (some value) =
      through stem (Function.update slots i (single rest value)) := by
  rw [update_through, update_of_not_occupied vacant]

/-- A branch with one occupied slot holding one path is a leaf at the stem, the
slot and that path. -/
theorem through_eq_single {stem rest : List α} {slots : α → List α → Option β} {i : α} {value : β}
    (only : ∀ j, j ≠ i → ¬ Occupied (slots j)) (slot : slots i = single rest value) :
    through stem slots = single (stem ++ i :: rest) value := by
  funext key
  refine Option.ext fun found => ?_
  rw [through_eq_some, single_eq_some]
  constructor
  · rintro ⟨j, rest', rfl, held⟩
    by_cases same : j = i
    · subst same
      rw [slot, single_eq_some] at held
      rw [held.1]
      exact ⟨rfl, held.2⟩
    · exact absurd ⟨rest', found, held⟩ (only j same)
  · rintro ⟨rfl, rfl⟩
    exact ⟨i, rest, rfl, by rw [slot]; simp⟩

/-- A branch with one occupied slot holding a branch is that branch under a
longer stem: the stem, the slot and the stem below. -/
theorem through_eq_through {stem below : List α} {slots slots' : α → List α → Option β} {i : α}
    (only : ∀ j, j ≠ i → ¬ Occupied (slots j)) (slot : slots i = through below slots') :
    through stem slots = through (stem ++ i :: below) slots' := by
  funext key
  refine Option.ext fun found => ?_
  rw [through_eq_some, through_eq_some]
  constructor
  · rintro ⟨j, rest, rfl, held⟩
    by_cases same : j = i
    · subst same
      rw [slot, through_eq_some] at held
      obtain ⟨k, rest', rfl, held'⟩ := held
      exact ⟨k, rest', by simp, held'⟩
    · exact absurd ⟨rest, found, held⟩ (only j same)
  · rintro ⟨k, rest', rfl, held⟩
    refine ⟨i, below ++ k :: rest', by simp, ?_⟩
    rw [slot, through_append_cons]
    exact held

/-- A leaf's map is a branch's that holds it in one slot, the path split where
the slot is. -/
theorem single_eq_through (stem rest : List α) (i : α) (value : β) :
    single (stem ++ i :: rest) value = through stem (Function.update (fun _ _ => none) i (single rest value)) := by
  refine (through_eq_single (fun j other => ?_) (by simp)).symm
  rintro ⟨key, found, held⟩
  simp [Function.update_of_ne other] at held

/-- A branch's map is a shorter branch's that holds it in one slot. -/
theorem through_eq_through_slot (stem below : List α) (i : α) (slots : α → List α → Option β) :
    through (stem ++ i :: below) slots = through stem (Function.update (fun _ _ => none) i (through below slots)) := by
  refine (through_eq_through (fun j other => ?_) (by simp)).symm
  rintro ⟨key, found, held⟩
  simp [Function.update_of_ne other] at held

/-- A path that parts from a leaf's path after `count` elements splits the
leaf into a branch over their common part, with the rests of the two paths in
two slots. -/
theorem update_single_of_parts {stem path rest others : List α} {count : ℕ} {i j : α} (apart : i ≠ j)
    (stemRest : stem.drop count = i :: rest) (pathRest : path.drop count = j :: others)
    (common : stem.take count = path.take count) (value value' : β) :
    Function.update (single stem value) path (some value') =
      through (stem.take count)
        (Function.update (Function.update (fun _ _ => none) i (single rest value)) j (single others value')) := by
  have stemSplit : stem = stem.take count ++ i :: rest := by rw [← stemRest, List.take_append_drop]
  have pathSplit : path = stem.take count ++ j :: others := by rw [common, ← pathRest, List.take_append_drop]
  have vacant : ¬ Occupied (Function.update (fun _ _ => none) i (single rest value) j) := by
    rintro ⟨key, found, held⟩
    simp [Function.update_of_ne (Ne.symm apart)] at held
  rw [← update_through_vacant vacant, ← single_eq_through, ← stemSplit, ← pathSplit]

/-- A path that parts from a branch's stem after `count` elements splits the
branch into a branch over their common part, with the rest of the old branch
and the rest of the path in two slots. -/
theorem update_through_of_parts {stem path below others : List α} {count : ℕ} {i j : α} (apart : i ≠ j)
    {slots : α → List α → Option β} (stemRest : stem.drop count = i :: below) (pathRest : path.drop count = j :: others)
    (common : stem.take count = path.take count) (value : β) :
    Function.update (through stem slots) path (some value) =
      through (stem.take count)
        (Function.update (Function.update (fun _ _ => none) i (through below slots)) j (single others value)) := by
  have stemSplit : stem = stem.take count ++ i :: below := by rw [← stemRest, List.take_append_drop]
  have pathSplit : path = stem.take count ++ j :: others := by rw [common, ← pathRest, List.take_append_drop]
  have vacant : ¬ Occupied (Function.update (fun _ _ => none) i (through below slots) j) := by
    rintro ⟨key, found, held⟩
    simp [Function.update_of_ne (Ne.symm apart)] at held
  rw [← update_through_vacant vacant, ← through_eq_through_slot, ← stemSplit, ← pathSplit]

/-- A slot set to a map that holds something keeps two slots occupied. -/
theorem Forks.update {slots : α → List α → Option β} (forks : Forks slots) {i : α} {map : List α → Option β}
    (occupied : Occupied map) : Forks (Function.update slots i map) := by
  obtain ⟨j, k, apart, first, second⟩ := forks
  by_cases atFirst : i = j
  · subst atFirst
    exact ⟨i, k, apart, by simpa using occupied, by simpa [Function.update_of_ne (Ne.symm apart)] using second⟩
  · exact ⟨i, j, atFirst, by simpa using occupied, by simpa [Function.update_of_ne (Ne.symm atFirst)] using first⟩

/-- A forking branch has an occupied slot besides any given one. -/
theorem Forks.exists_ne {slots : α → List α → Option β} (forks : Forks slots) (i : α) :
    ∃ j, j ≠ i ∧ Occupied (slots j) := by
  obtain ⟨a, b, apart, first, second⟩ := forks
  by_cases atFirst : a = i
  · exact ⟨b, fun same => apart (atFirst.trans same.symm), second⟩
  · exact ⟨a, atFirst, first⟩

/-- Two different slots set to maps that hold something. -/
theorem forks_pair {i j : α} (apart : i ≠ j) {first second : List α → Option β} (firstOccupied : Occupied first)
    (secondOccupied : Occupied second) :
    Forks (Function.update (Function.update (fun _ _ => none) i first) j second) :=
  ⟨i, j, apart, by simpa [Function.update_of_ne apart] using firstOccupied, by simpa using secondOccupied⟩

/-! ### Occupied slots of a vector of children -/

section Slots

variable {γ : Type} {n : ℕ}

/-- The slots of `slots` that hold something. -/
def occupiedSlots (slots : Vector (Option γ) n) : Finset (Fin n) :=
  Finset.univ.filter fun i => (slots[i]).isSome

omit [DecidableEq α] in
theorem toList_eq_map (slots : Vector (Option γ) n) : slots.toList = (List.finRange n).map fun i => slots[i] := by
  apply List.ext_getElem
  · simp
  · intro k _ _
    simp

/-- The empty slots, counted as a filter over the slots counts them, and the
occupied ones make up all of them. -/
theorem vacant_add_card_occupiedSlots (slots : Vector (Option γ) n) :
    (slots.toList.filter Option.isNone).length + (occupiedSlots slots).card = n := by
  have counted : (occupiedSlots slots).card = (slots.toList.filter fun slot => !slot.isNone).length := by
    rw [occupiedSlots, toList_eq_map, List.filter_map, List.length_map, Fin.univ_def, Finset.card_def,
      Finset.filter_val]
    simp
    rfl
  rw [counted, ← List.length_eq_length_filter_add, Vector.length_toList]

theorem mem_occupiedSlots {slots : Vector (Option γ) n} {i : Fin n} :
    i ∈ occupiedSlots slots ↔ (slots[i]).isSome := by
  simp [occupiedSlots]

/-- The first occupied slot, as a search over the slots in order finds it, is
the only one when there is only one. -/
theorem find?_eq_of_occupiedSlots_eq {slots : Vector (Option γ) n} {only : Fin n}
    (alone : occupiedSlots slots = {only}) :
    (List.finRange n).find? (fun i => (slots[i]).isSome) = some only := by
  have held : (slots[only]).isSome := mem_occupiedSlots.mp (alone ▸ Finset.mem_singleton_self only)
  cases found : (List.finRange n).find? (fun i => (slots[i]).isSome) with
  | none =>
    rw [List.find?_eq_none] at found
    exact absurd held (by simpa using found only (List.mem_finRange only))
  | some first =>
    have firstHeld := List.find?_some found
    have member : first ∈ occupiedSlots slots := mem_occupiedSlots.mpr firstHeld
    rw [alone, Finset.mem_singleton] at member
    rw [member]

end Slots

end PathMap

end CodeChain
