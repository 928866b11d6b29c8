import Mathlib

/-!
# Matching a list into a sublist of another

`Embeds R xs ys` says that the elements of `xs` can be matched, in order, to
elements of `ys` taken in order and each used once, every pair related by
`R`: some sublist of `ys` is related to `xs` position by position.  The lemmas
give its cases on `cons`, which a greedy matcher follows, its reversal, and
the same statement as a strictly increasing map of positions.

`select keep start xs` keeps the elements of `xs` at the positions, counted
from `start`, that `keep` picks.  Two lists give the same selection exactly
when they agree, element or absence, at every picked position: the selection
of a shorter list is shorter unless no position is picked between the two
lengths.
-/

namespace CodeChain

namespace Subsequence

variable {α β : Type*}

/-- Some sublist of `ys` is related to `xs` by `R`, position by position. -/
def Embeds (R : α → β → Prop) (xs : List α) (ys : List β) : Prop :=
  ∃ sub, List.Sublist sub ys ∧ List.Forall₂ R xs sub

variable {R : α → β → Prop} {x : α} {xs : List α} {y : β} {ys : List β}

@[simp]
theorem embeds_nil (ys : List β) : Embeds R [] ys :=
  ⟨[], List.nil_sublist ys, .nil⟩

@[simp]
theorem not_embeds_cons_nil (x : α) (xs : List α) : ¬ Embeds R (x :: xs) [] := by
  rintro ⟨sub, sublist, related⟩
  rw [List.sublist_nil.mp sublist] at related
  cases related

theorem Embeds.cons_right (y : β) (embeds : Embeds R xs ys) : Embeds R xs (y :: ys) := by
  obtain ⟨sub, sublist, related⟩ := embeds
  exact ⟨sub, sublist.cons y, related⟩

theorem Embeds.of_cons (embeds : Embeds R (x :: xs) ys) : Embeds R xs ys := by
  obtain ⟨sub, sublist, related⟩ := embeds
  cases related with
  | cons _ rest => exact ⟨_, (List.sublist_cons_self _ _).trans sublist, rest⟩

theorem embeds_cons_cons_iff :
    Embeds R (x :: xs) (y :: ys) ↔ R x y ∧ Embeds R xs ys ∨ Embeds R (x :: xs) ys := by
  constructor
  · rintro ⟨sub, sublist, related⟩
    -- the sublist either skips `y` or starts with it
    cases sublist with
    | cons _ skipped => exact .inr ⟨sub, skipped, related⟩
    | cons_cons _ kept =>
      cases related with
      | cons first rest => exact .inl ⟨first, _, kept, rest⟩
  · rintro (⟨first, sub, sublist, related⟩ | later)
    · exact ⟨y :: sub, sublist.cons_cons y, .cons first related⟩
    · exact later.cons_right y

/-- Matching `x` to the first `y` it is related to loses nothing: a match of
`x` further on leaves fewer elements for `xs`. -/
theorem embeds_cons_cons_of_rel (first : R x y) :
    Embeds R (x :: xs) (y :: ys) ↔ Embeds R xs ys := by
  rw [embeds_cons_cons_iff]
  constructor
  · rintro (⟨-, rest⟩ | later)
    · exact rest
    · exact later.of_cons
  · exact fun rest => .inl ⟨first, rest⟩

theorem embeds_cons_cons_of_not_rel (first : ¬ R x y) :
    Embeds R (x :: xs) (y :: ys) ↔ Embeds R (x :: xs) ys := by
  rw [embeds_cons_cons_iff]
  simp only [first, false_and, false_or]

@[simp]
theorem embeds_reverse_iff : Embeds R xs.reverse ys.reverse ↔ Embeds R xs ys := by
  constructor
  · rintro ⟨sub, sublist, related⟩
    refine ⟨sub.reverse, by simpa using sublist.reverse, ?_⟩
    rw [← List.forall₂_reverse_iff, List.reverse_reverse]
    exact related
  · rintro ⟨sub, sublist, related⟩
    exact ⟨sub.reverse, sublist.reverse, List.forall₂_reverse_iff.mpr related⟩

/-- The match as a map of positions: position `i` of `xs` goes to position
`f i` of `ys`, and `f` is strictly increasing. -/
theorem embeds_iff_exists_strictMono :
    Embeds R xs ys ↔
      ∃ f : Fin xs.length → Fin ys.length, StrictMono f ∧ ∀ i, R (xs.get i) (ys.get (f i)) := by
  constructor
  · rintro ⟨sub, sublist, related⟩
    obtain ⟨picks, picked⟩ := List.sublist_iff_exists_fin_orderEmbedding_get_eq.mp sublist
    have sameLength : xs.length = sub.length := related.length_eq
    refine ⟨fun i => picks (Fin.cast sameLength i), fun i j before => picks.strictMono before, fun i => ?_⟩
    rw [← picked]
    exact (List.forall₂_iff_get.mp related).2 i i.isLt _
  · rintro ⟨f, increasing, related⟩
    have sameLength : (List.ofFn fun i => ys.get (f i)).length = xs.length := List.length_ofFn
    refine ⟨List.ofFn fun i => ys.get (f i), ?_, ?_⟩
    · rw [List.sublist_iff_exists_fin_orderEmbedding_get_eq]
      refine ⟨(Fin.castOrderIso sameLength).toOrderEmbedding.trans (OrderEmbedding.ofStrictMono f increasing),
        fun i => ?_⟩
      simp [Fin.cast]
    · rw [List.forall₂_iff_get]
      refine ⟨sameLength.symm, fun i _ _ => ?_⟩
      simpa using related ⟨i, by omega⟩

/-! ### Selecting positions -/

/-- The elements of a list at the positions, counted from `start`, that `keep`
picks. -/
def select (keep : ℕ → Bool) : ℕ → List α → List α
  | _, [] => []
  | start, x :: xs => if keep start then x :: select keep (start + 1) xs else select keep (start + 1) xs

variable {keep : ℕ → Bool} {start : ℕ}

@[simp]
theorem select_nil : select keep start ([] : List α) = [] :=
  rfl

theorem select_cons_of_keep (kept : keep start = true) (x : α) (xs : List α) :
    select keep start (x :: xs) = x :: select keep (start + 1) xs := by
  simp [select, kept]

theorem select_cons_of_not_keep (dropped : keep start = false) (x : α) (xs : List α) :
    select keep start (x :: xs) = select keep (start + 1) xs := by
  simp [select, dropped]

/-- A statement about every position splits into the first and the rest. -/
theorem forall_position_iff {P : ℕ → Prop} : (∀ i, P i) ↔ P 0 ∧ ∀ i, P (i + 1) :=
  ⟨fun all => ⟨all 0, fun i => all (i + 1)⟩, fun ⟨first, rest⟩ i => by cases i with
    | zero => exact first
    | succ i => exact rest i⟩

theorem select_eq_nil_iff {xs : List α} :
    select keep start xs = [] ↔ ∀ i, keep (start + i) = true → xs[i]? = none := by
  induction xs generalizing start with
  | nil => simp
  | cons x xs ih =>
    rw [forall_position_iff]
    simp only [Nat.add_zero, List.getElem?_cons_zero, List.getElem?_cons_succ, ← Nat.add_assoc,
      Nat.add_right_comm start _ 1, ← ih]
    cases kept : keep start with
    | true => simp [select_cons_of_keep kept]
    | false => simp [select_cons_of_not_keep kept]

/-- Two lists give the same selection exactly when they agree at every picked
position. -/
theorem select_eq_select_iff {xs ys : List α} :
    select keep start xs = select keep start ys ↔ ∀ i, keep (start + i) = true → xs[i]? = ys[i]? := by
  induction xs generalizing start ys with
  | nil =>
    rw [select_nil, eq_comm, select_eq_nil_iff]
    simp only [List.getElem?_nil, eq_comm]
  | cons x xs ih =>
    cases ys with
    | nil =>
      rw [select_nil, select_eq_nil_iff]
      simp only [List.getElem?_nil]
    | cons y ys =>
      rw [forall_position_iff]
      simp only [Nat.add_zero, List.getElem?_cons_zero, List.getElem?_cons_succ, ← Nat.add_assoc,
        Nat.add_right_comm start _ 1, ← ih]
      cases kept : keep start with
      | true => simp [select_cons_of_keep kept]
      | false => simp [select_cons_of_not_keep kept]

/-- Selecting from a list is selecting from its first `n` elements and then
from the rest, `n` positions on. -/
theorem select_take_append_drop (n : ℕ) (xs : List α) :
    select keep start (xs.take n) ++ select keep (start + n) (xs.drop n) = select keep start xs := by
  induction xs generalizing start n with
  | nil => simp
  | cons x xs ih =>
    cases n with
    | zero => simp
    | succ n =>
      have rest : select keep (start + 1) (xs.take n) ++ select keep (start + 1 + n) (xs.drop n) =
          select keep (start + 1) xs :=
        ih n
      cases kept : keep start with
      | true => simp [List.take_succ_cons, select_cons_of_keep kept, ← rest, Nat.add_assoc, Nat.add_comm 1 n]
      | false => simp [List.take_succ_cons, select_cons_of_not_keep kept, ← rest, Nat.add_assoc, Nat.add_comm 1 n]

end Subsequence

end CodeChain
