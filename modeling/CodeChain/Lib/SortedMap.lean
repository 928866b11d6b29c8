import Mathlib

/-!
# Sorted association lists

A `BTreeMap` collected from an iterator keeps the last value given to each key
and hands its entries back in the order of their keys.  Here it is a list of
pairs sorted strictly by key: `insert` puts an entry in its place and replaces
the value of an equal key, and `ofList` inserts the entries of a list one after
the other.  A lookup in `ofList entries` finds the last value the entries gave
the key (`lookup_ofList`), and the result is sorted (`sorted_ofList`).

A list sorted by some measure of its items falls into blocks of equal
measure, one after the other: from the first block on, `takeWhile` and
`dropWhile` cut out a block as `filter` picks it.  Keys that are lists, sorted
lexicographically and sharing a prefix, are sorted by their item just past the
prefix.
-/

namespace CodeChain

namespace SortedMap

section Map

variable {κ β : Type} [LinearOrder κ]

/-- `BTreeMap::insert`: the entry in its place by key, in place of the entry of
an equal key. -/
def insert (entry : κ × β) : List (κ × β) → List (κ × β)
  | [] => [entry]
  | head :: tail =>
    if entry.1 < head.1 then entry :: head :: tail
    else if entry.1 = head.1 then entry :: tail
    else head :: insert entry tail

/-- A `BTreeMap` collected from the entries of a list, in their order. -/
def ofList (entries : List (κ × β)) : List (κ × β) :=
  entries.foldl (fun map entry => insert entry map) []

/-- The value of a key. -/
def lookup (map : List (κ × β)) (key : κ) : Option β :=
  (map.find? fun entry => entry.1 = key).map Prod.snd

/-- Sorted strictly by key. -/
def Sorted (map : List (κ × β)) : Prop :=
  map.Pairwise fun first second => first.1 < second.1

theorem mem_insert {entry other : κ × β} {map : List (κ × β)} (member : other ∈ insert entry map) :
    other = entry ∨ other ∈ map := by
  induction map with
  | nil => simpa [insert] using member
  | cons head tail ih =>
    rw [insert] at member
    split_ifs at member
    · simpa using member
    · simp only [List.mem_cons] at member
      rcases member with here | there
      · exact .inl here
      · exact .inr (List.mem_cons_of_mem _ there)
    · simp only [List.mem_cons] at member
      rcases member with here | there
      · exact .inr (here ▸ List.mem_cons_self)
      · rcases ih there with found | found
        · exact .inl found
        · exact .inr (List.mem_cons_of_mem _ found)

@[simp]
theorem lookup_nil (key : κ) : lookup ([] : List (κ × β)) key = none :=
  rfl

theorem lookup_cons (head : κ × β) (tail : List (κ × β)) (key : κ) :
    lookup (head :: tail) key = if head.1 = key then some head.2 else lookup tail key := by
  by_cases here : head.1 = key
  · simp [lookup, here]
  · simp [lookup, here]

/-- A lookup after an insert finds the inserted value at its key and what it
found before at every other key. -/
theorem lookup_insert (entry : κ × β) (map : List (κ × β)) (key : κ) :
    lookup (insert entry map) key = if key = entry.1 then some entry.2 else lookup map key := by
  induction map with
  | nil =>
    rw [insert, lookup_cons, lookup_nil]
    by_cases here : key = entry.1
    · simp [here]
    · simp [here, Ne.symm here]
  | cons head tail ih =>
    by_cases before : entry.1 < head.1
    · rw [insert, if_pos before, lookup_cons]
      by_cases here : key = entry.1
      · subst here
        simp
      · simp [here, Ne.symm here]
    by_cases same : entry.1 = head.1
    · -- the entry takes the place of the head
      rw [insert, if_neg before, if_pos same, lookup_cons, lookup_cons]
      by_cases here : key = entry.1
      · subst here
        simp
      · have apart : head.1 ≠ key := fun equal => here (equal.symm.trans same.symm)
        simp [here, Ne.symm here, apart]
    · rw [insert, if_neg before, if_neg same, lookup_cons, ih, lookup_cons]
      by_cases here : key = entry.1
      · subst here
        have apart : head.1 ≠ entry.1 := fun equal => same equal.symm
        simp [apart]
      · simp [here]

theorem sorted_insert (entry : κ × β) {map : List (κ × β)} (sorted : Sorted map) : Sorted (insert entry map) := by
  induction map with
  | nil => exact List.pairwise_singleton _ _
  | cons head tail ih =>
    rw [insert]
    split_ifs with before same
    · refine List.Pairwise.cons (fun other member => ?_) sorted
      rcases List.mem_cons.mp member with rfl | there
      · exact before
      · exact before.trans (List.rel_of_pairwise_cons sorted there)
    · refine List.Pairwise.cons (fun other member => ?_) sorted.of_cons
      exact same ▸ List.rel_of_pairwise_cons sorted member
    · have after : head.1 < entry.1 := lt_of_le_of_ne (not_lt.mp before) (Ne.symm same)
      refine List.Pairwise.cons (fun other member => ?_) (ih sorted.of_cons)
      rcases mem_insert member with rfl | there
      · exact after
      · exact List.rel_of_pairwise_cons sorted there

theorem sorted_ofList (entries : List (κ × β)) : Sorted (ofList entries) := by
  have start : Sorted ([] : List (κ × β)) := List.Pairwise.nil
  unfold ofList
  generalize ([] : List (κ × β)) = map at start
  induction entries generalizing map with
  | nil => exact start
  | cons entry entries ih => exact ih _ (sorted_insert entry start)

/-- What a lookup in `ofList` finds: the last value the entries gave the key,
as updating a function with each entry in turn leaves it. -/
theorem lookup_ofList (entries : List (κ × β)) :
    lookup (ofList entries) = entries.foldl (fun (map : κ → Option β) entry => Function.update map entry.1 (some entry.2)) fun _ => none := by
  unfold ofList
  have start : lookup ([] : List (κ × β)) = fun _ => none := rfl
  rw [← start]
  generalize ([] : List (κ × β)) = map
  induction entries generalizing map with
  | nil => rfl
  | cons entry entries ih =>
    rw [List.foldl_cons, List.foldl_cons, ih]
    congr 1
    funext key
    rw [lookup_insert, Function.update_apply]

/-- In a sorted map a lookup finds exactly the entries of the map. -/
theorem lookup_eq_some_iff {map : List (κ × β)} (sorted : Sorted map) {key : κ} {value : β} :
    lookup map key = some value ↔ (key, value) ∈ map := by
  induction map with
  | nil => simp
  | cons head tail ih =>
    rw [lookup_cons, List.mem_cons]
    by_cases here : head.1 = key
    · -- no later entry has the head's key
      have later : (key, value) ∉ tail := fun member => by
        have above : head.1 < key := List.rel_of_pairwise_cons sorted member
        rw [here] at above
        exact lt_irrefl key above
      rw [if_pos here, Option.some.injEq]
      constructor
      · rintro rfl
        exact .inl (by rw [← here])
      · rintro (rfl | member)
        · rfl
        · exact absurd member later
    · rw [if_neg here, ih sorted.of_cons]
      constructor
      · exact .inr
      · rintro (rfl | member)
        · exact absurd rfl here
        · exact member

theorem mem_foldl_insert {entries map : List (κ × β)} {entry : κ × β}
    (member : entry ∈ entries.foldl (fun map entry => insert entry map) map) : entry ∈ entries ∨ entry ∈ map := by
  induction entries generalizing map with
  | nil => exact .inr member
  | cons head tail ih =>
    rcases ih member with later | inserted
    · exact .inl (List.mem_cons_of_mem _ later)
    · rcases mem_insert inserted with rfl | before
      · exact .inl List.mem_cons_self
      · exact .inr before

/-- Every entry of `ofList` comes from the list. -/
theorem mem_ofList {entries : List (κ × β)} {entry : κ × β} (member : entry ∈ ofList entries) : entry ∈ entries := by
  rcases mem_foldl_insert member with found | absent
  · exact found
  · cases absent

/-- A lookup among the entries a filter keeps, of a key whose entries it keeps. -/
theorem lookup_filter (map : List (κ × β)) {keep : κ × β → Bool} {key : κ} (kept : ∀ value, keep (key, value) = true) :
    lookup (map.filter keep) key = lookup map key := by
  induction map with
  | nil => rfl
  | cons head tail ih =>
    obtain ⟨first, value⟩ := head
    by_cases here : first = key
    · subst here
      rw [List.filter_cons_of_pos (kept value), lookup_cons, lookup_cons, ih]
    · by_cases keeps : keep (first, value) = true
      · rw [List.filter_cons_of_pos keeps, lookup_cons, lookup_cons, ih]
      · rw [List.filter_cons_of_neg keeps, lookup_cons, if_neg here, ih]

/-- In a map sorted strictly by key, no entry after the first has its key. -/
theorem lookup_tail_eq_none {head : κ × β} {tail : List (κ × β)} (sorted : Sorted (head :: tail)) :
    lookup tail head.1 = none := by
  cases found : lookup tail head.1 with
  | none => rfl
  | some value =>
    have member : (head.1, value) ∈ tail := (lookup_eq_some_iff sorted.of_cons).mp found
    have above := List.rel_of_pairwise_cons sorted member
    exact absurd above (lt_irrefl head.1)

/-- The first key of a map sorted strictly by key is its least. -/
theorem le_of_mem_sorted {head entry : κ × β} {tail : List (κ × β)} (sorted : Sorted (head :: tail))
    (member : entry ∈ head :: tail) : head.1 ≤ entry.1 := by
  rcases List.mem_cons.mp member with rfl | later
  · exact le_rfl
  · exact (List.rel_of_pairwise_cons sorted later).le

/-- Two maps sorted strictly by key that look up alike are the same list. -/
theorem eq_of_lookup_eq {map map' : List (κ × β)} (sorted : Sorted map) (sorted' : Sorted map')
    (same : lookup map = lookup map') : map = map' := by
  induction map generalizing map' with
  | nil =>
    cases map' with
    | nil => rfl
    | cons head' tail' =>
      have found : lookup (head' :: tail') head'.1 = some head'.2 := by rw [lookup_cons, if_pos rfl]
      rw [← same, lookup_nil] at found
      cases found
  | cons head tail ih =>
    cases map' with
    | nil =>
      have found : lookup (head :: tail) head.1 = some head.2 := by rw [lookup_cons, if_pos rfl]
      rw [same, lookup_nil] at found
      cases found
    | cons head' tail' =>
      -- each head is in the other map, so neither key is below the other
      have found : lookup (head' :: tail') head.1 = some head.2 := by rw [← same, lookup_cons, if_pos rfl]
      have found' : lookup (head :: tail) head'.1 = some head'.2 := by rw [same, lookup_cons, if_pos rfl]
      have keys : head.1 = head'.1 :=
        le_antisymm (le_of_mem_sorted sorted ((lookup_eq_some_iff sorted).mp found'))
          (le_of_mem_sorted sorted' ((lookup_eq_some_iff sorted').mp found))
      have values : head.2 = head'.2 := by
        rw [lookup_cons, if_pos keys.symm, Option.some.injEq] at found
        exact found.symm
      have heads : head = head' := Prod.ext keys values
      subst heads
      -- the tails look up alike: at the head's key neither has an entry
      refine congrArg _ (ih sorted.of_cons sorted'.of_cons (funext fun key => ?_))
      by_cases here : head.1 = key
      · subst here
        rw [lookup_tail_eq_none sorted, lookup_tail_eq_none sorted']
      · have atKey := congrFun same key
        rwa [lookup_cons, lookup_cons, if_neg here, if_neg here] at atKey

/-- Entries of distinct keys collect into the same map in any order. -/
theorem ofList_perm {entries entries' : List (κ × β)} (perm : entries.Perm entries')
    (distinct : (entries.map Prod.fst).Nodup) : ofList entries = ofList entries' := by
  refine eq_of_lookup_eq (sorted_ofList _) (sorted_ofList _) ?_
  rw [lookup_ofList, lookup_ofList]
  refine perm.foldl_eq' (fun first firstMember second secondMember map => ?_) _
  by_cases same : first = second
  · rw [same]
  · have apart : first.1 ≠ second.1 :=
      fun keys => same (List.inj_on_of_nodup_map distinct firstMember secondMember keys)
    exact Function.update_comm apart _ _ map

end Map

/-! ### Blocks of a sorted list -/

section Blocks

variable {α ι : Type} [LinearOrder ι] (measure : α → ι)

/-- From the first block on, the items of one measure are the items `takeWhile`
takes. -/
theorem takeWhile_eq_filter {items : List α} {i : ι}
    (sorted : items.Pairwise fun first second => measure first ≤ measure second)
    (low : ∀ item ∈ items, i ≤ measure item) :
    items.takeWhile (fun item => measure item = i) = items.filter (fun item => measure item = i) := by
  induction items with
  | nil => rfl
  | cons item items ih =>
    by_cases here : measure item = i
    · rw [List.takeWhile_cons_of_pos (by simpa using here), List.filter_cons_of_pos (by simpa using here),
        ih sorted.of_cons fun other member => low other (List.mem_cons_of_mem _ member)]
    · -- the block of `i` is empty: every later item measures past `i`
      have past : i < measure item := lt_of_le_of_ne (low item List.mem_cons_self) (Ne.symm here)
      rw [List.takeWhile_cons_of_neg (by simpa using here), List.filter_cons_of_neg (by simpa using here)]
      refine (List.filter_eq_nil_iff.mpr fun other member => ?_).symm
      have later := List.rel_of_pairwise_cons sorted member
      simpa using (ne_of_lt (past.trans_le later)).symm

/-- From the first block on, the items of other measures are the items
`dropWhile` leaves. -/
theorem dropWhile_eq_filter {items : List α} {i : ι}
    (sorted : items.Pairwise fun first second => measure first ≤ measure second)
    (low : ∀ item ∈ items, i ≤ measure item) :
    items.dropWhile (fun item => measure item = i) = items.filter (fun item => measure item ≠ i) := by
  induction items with
  | nil => rfl
  | cons item items ih =>
    by_cases here : measure item = i
    · rw [List.dropWhile_cons_of_pos (by simpa using here), List.filter_cons_of_neg (by simpa using here),
        ih sorted.of_cons fun other member => low other (List.mem_cons_of_mem _ member)]
    · have past : i < measure item := lt_of_le_of_ne (low item List.mem_cons_self) (Ne.symm here)
      rw [List.dropWhile_cons_of_neg (by simpa using here), List.filter_cons_of_pos (by simpa using here)]
      refine congrArg _ (List.filter_eq_self.mpr fun other member => ?_).symm
      have later := List.rel_of_pairwise_cons sorted member
      simpa using (ne_of_lt (past.trans_le later)).symm

end Blocks

/-! ### Keys that are lists -/

section ListKeys

variable {α : Type} [LinearOrder α]

/-- Of two lists in lexicographic order that share their first `shared` items,
the first has the smaller item at `shared`. -/
theorem getElem_le_of_lt {first second : List α} (ordered : first < second) {shared : ℕ}
    (same : first.take shared = second.take shared) (long : shared < first.length)
    (long' : shared < second.length) : first[shared] ≤ second[shared] := by
  induction shared generalizing first second with
  | zero =>
    match first, second, long, long' with
    | x :: _, y :: _, _, _ =>
      rcases List.cons_lt_cons_iff.mp ordered with smaller | ⟨equal, _⟩
      · exact smaller.le
      · exact equal.le
  | succ shared ih =>
    match first, second, long, long' with
    | x :: first, y :: second, long, long' =>
      simp only [List.take_succ_cons, List.cons.injEq] at same
      obtain ⟨rfl, same⟩ := same
      rcases List.cons_lt_cons_iff.mp ordered with smaller | ⟨_, ordered⟩
      · exact absurd smaller (lt_irrefl x)
      · exact ih ordered same (by simpa using long) (by simpa using long')

end ListKeys

end SortedMap

end CodeChain
