import Mathlib

/-!
# Ranking by a key, then by position

A stable sort keeps the order of the elements that its relation ranks equal, so
sorting by a total preorder is sorting by the preorder and then by the position
of each element in the input.  This is proved here of Mathlib's
`List.insertionSort`, for a list whose elements carry strictly increasing
positions, together with the descending form of the same ranking and the
selection that keeps a first part of a list and, after it, only the elements
that pass a test.
-/

namespace CodeChain

namespace Ranking

variable {α : Type}

/-- Ascending by `r`, and by position between elements that `r` ranks equal. -/
def byPosition (r : α → α → Prop) (first second : α × ℕ) : Prop :=
  r first.1 second.1 ∧ (r second.1 first.1 → first.2 ≤ second.2)

instance (r : α → α → Prop) [DecidableRel r] : DecidableRel (byPosition r) :=
  fun first second =>
    inferInstanceAs (Decidable (r first.1 second.1 ∧ (r second.1 first.1 → first.2 ≤ second.2)))

theorem pairwise_zipIdx (items : List α) (start : ℕ) :
    (items.zipIdx start).Pairwise fun first second => first.2 < second.2 := by
  induction items generalizing start with
  | nil => exact List.Pairwise.nil
  | cons item items ih =>
      rw [List.zipIdx_cons, List.pairwise_cons]
      exact ⟨fun _ member => List.le_snd_of_mem_zipIdx member, ih (start + 1)⟩

section Positions

variable {entries : List (α × ℕ)} (increasing : entries.Pairwise fun first second => first.2 < second.2)
include increasing

/-- Positions tell the entries of the list apart. -/
theorem eq_of_snd_eq {first second : α × ℕ} (firstMember : first ∈ entries)
    (secondMember : second ∈ entries) (same : first.2 = second.2) : first = second := by
  by_contra different
  have : Std.Symm fun first second : α × ℕ => first.2 ≠ second.2 := ⟨fun _ _ apart => Ne.symm apart⟩
  exact (increasing.imp Nat.ne_of_lt).forall firstMember secondMember different same

end Positions

/-- Inserting an entry that comes before every other by position: the order by
position only breaks the ties of `r` that the insertion never sees. -/
theorem map_orderedInsert_byPosition (r : α → α → Prop) [DecidableRel r] (entry : α × ℕ)
    {sorted : List (α × ℕ)} (later : ∀ other ∈ sorted, entry.2 < other.2) :
    (sorted.orderedInsert (byPosition r) entry).map Prod.fst =
      (sorted.map Prod.fst).orderedInsert r entry.1 := by
  induction sorted with
  | nil => rfl
  | cons other sorted ih =>
      have before : byPosition r entry other ↔ r entry.1 other.1 :=
        ⟨And.left, fun ranked => ⟨ranked, fun _ => (later other List.mem_cons_self).le⟩⟩
      rw [List.orderedInsert_cons, List.map_cons, List.orderedInsert_cons]
      by_cases ranked : r entry.1 other.1
      · rw [if_pos (before.mpr ranked), if_pos ranked]
        rfl
      · rw [if_neg (mt before.mp ranked), if_neg ranked, List.map_cons,
          ih fun other member => later other (List.mem_cons_of_mem _ member)]

/-- The stable sort by `r` of a list with increasing positions is its sort by
`r` and then by position. -/
theorem insertionSort_map_fst (r : α → α → Prop) [DecidableRel r] {entries : List (α × ℕ)}
    (increasing : entries.Pairwise fun first second => first.2 < second.2) :
    (entries.map Prod.fst).insertionSort r = (entries.insertionSort (byPosition r)).map Prod.fst := by
  induction entries with
  | nil => rfl
  | cons entry entries ih =>
      obtain ⟨later, increasing⟩ := List.pairwise_cons.mp increasing
      have laterSorted : ∀ other ∈ entries.insertionSort (byPosition r), entry.2 < other.2 :=
        fun other member => later other ((List.mem_insertionSort _).mp member)
      rw [List.map_cons, List.insertionSort_cons, List.insertionSort_cons, ih increasing,
        map_orderedInsert_byPosition r entry laterSorted]

section Preorder

variable {r : α → α → Prop} (total : ∀ first second, r first second ∨ r second first)
  (trans : ∀ first second third, r first second → r second third → r first third)

include total in
theorem byPosition_total (first second : α × ℕ) :
    byPosition r first second ∨ byPosition r second first := by
  by_cases forward : r first.1 second.1 <;> by_cases backward : r second.1 first.1
  · rcases Nat.le_total first.2 second.2 with before | after
    · exact Or.inl ⟨forward, fun _ => before⟩
    · exact Or.inr ⟨backward, fun _ => after⟩
  · exact Or.inl ⟨forward, fun ranked => absurd ranked backward⟩
  · exact Or.inr ⟨backward, fun ranked => absurd ranked forward⟩
  · exact absurd (total first.1 second.1) (by tauto)

include trans in
theorem byPosition_trans {first second third : α × ℕ} (firstSecond : byPosition r first second)
    (secondThird : byPosition r second third) : byPosition r first third := by
  obtain ⟨rankedFirst, tiedFirst⟩ := firstSecond
  obtain ⟨rankedSecond, tiedSecond⟩ := secondThird
  refine ⟨trans _ _ _ rankedFirst rankedSecond, fun backward => ?_⟩
  -- ends that `r` ranks equal are ranked equal with the middle as well
  have secondFirst : r second.1 first.1 := trans _ _ _ rankedSecond backward
  have thirdSecond : r third.1 second.1 := trans _ _ _ backward rankedFirst
  exact (tiedFirst secondFirst).trans (tiedSecond thirdSecond)

variable [DecidableRel r]

include total trans in
theorem pairwise_insertionSort_byPosition (entries : List (α × ℕ)) :
    (entries.insertionSort (byPosition r)).Pairwise (byPosition r) := by
  have : Std.Total (byPosition r) := ⟨byPosition_total total⟩
  have : IsTrans (α × ℕ) (byPosition r) := ⟨fun _ _ _ => byPosition_trans trans⟩
  exact List.pairwise_insertionSort _ _

include total trans in
/-- The descending ranking is the ascending one reversed: any relation that
ranks as `byPosition r` does, the other way round, sorts the entries into the
reverse of their ascending sort. -/
theorem reverse_insertionSort_byPosition (s : α × ℕ → α × ℕ → Prop) [DecidableRel s]
    (flipped : ∀ first second, s first second ↔ byPosition r second first)
    {entries : List (α × ℕ)} (increasing : entries.Pairwise fun first second => first.2 < second.2) :
    (entries.insertionSort (byPosition r)).reverse = entries.insertionSort s := by
  have : Std.Total s := ⟨fun first second => by
    rw [flipped, flipped]
    exact (byPosition_total total second first)⟩
  have : IsTrans (α × ℕ) s := ⟨fun first second third firstSecond secondThird =>
    (flipped first third).mpr
      (byPosition_trans trans ((flipped second third).mp secondThird) ((flipped first second).mp firstSecond))⟩
  refine List.Perm.eq_of_pairwise ?_ ?_ (List.pairwise_insertionSort s entries) ?_
  · -- entries ranked both ways share their position, and positions tell entries apart
    intro first second firstMember secondMember forward backward
    rw [flipped] at forward backward
    have same : first.2 = second.2 := le_antisymm (backward.2 forward.1) (forward.2 backward.1)
    rw [List.mem_reverse, List.mem_insertionSort] at firstMember
    rw [List.mem_insertionSort] at secondMember
    exact eq_of_snd_eq increasing firstMember secondMember same
  · rw [List.pairwise_reverse]
    exact (pairwise_insertionSort_byPosition total trans entries).imp fun ranked => (flipped _ _).mpr ranked
  · exact (List.reverse_perm _).trans ((List.perm_insertionSort _ _).trans (List.perm_insertionSort _ _).symm)

end Preorder

/-! ### Keeping a first part and what passes a test -/

/-- With no first part kept, only what passes the test is kept. -/
theorem filter_zipIdx_of_le (keep : α → Bool) (items : List α) (start : ℕ) :
    ((items.zipIdx start).filter fun entry => decide (entry.2 < start) || keep entry.1).map Prod.fst =
      items.filter keep := by
  have atOrAfter : ∀ entry ∈ items.zipIdx start,
      (decide (entry.2 < start) || keep entry.1) = keep entry.1 := by
    intro entry member
    have := List.le_snd_of_mem_zipIdx member
    simp only [Bool.or_eq_right_iff_imp, decide_eq_true_eq]
    omega
  rw [List.filter_congr atOrAfter]
  calc _ = ((items.zipIdx start).map Prod.fst).filter keep := List.filter_map.symm
    _ = items.filter keep := by rw [List.zipIdx_map_fst]

theorem take_append_filter_drop_zipIdx (keep : α → Bool) (items : List α) (count start : ℕ) :
    items.take count ++ (items.drop count).filter keep =
      ((items.zipIdx start).filter fun entry => decide (entry.2 < start + count) || keep entry.1).map
        Prod.fst := by
  induction items generalizing count start with
  | nil => simp
  | cons item items ih =>
      cases count with
      | zero => simpa using (filter_zipIdx_of_le keep (item :: items) start).symm
      | succ count =>
          -- the head is within the first part; the rest starts one position later
          rw [List.take_succ_cons, List.drop_succ_cons, List.zipIdx_cons, List.filter_cons,
            if_pos (by simp), List.map_cons, List.cons_append,
            show start + (count + 1) = start + 1 + count by omega, ih count (start + 1)]

/-- Keeping the first `count` elements of a list (all of them when it is
shorter) and, of the others, those that pass `keep` is keeping each element
whose position is below `count` or that passes `keep`. -/
theorem take_append_filter_drop (keep : α → Bool) (count : ℕ) (items : List α) :
    items.take (min count items.length) ++ (items.drop (min count items.length)).filter keep =
      (items.zipIdx.filter fun entry => decide (entry.2 < count) || keep entry.1).map Prod.fst := by
  have whole : items.take (min count items.length) ++ (items.drop (min count items.length)).filter keep =
      items.take count ++ (items.drop count).filter keep := by
    rcases le_total count items.length with within | beyond
    · rw [min_eq_left within]
    · rw [min_eq_right beyond, List.take_length, List.drop_length, List.take_of_length_le beyond,
        List.drop_of_length_le beyond]
  rw [whole, take_append_filter_drop_zipIdx keep items count 0, Nat.zero_add]

end Ranking

end CodeChain
