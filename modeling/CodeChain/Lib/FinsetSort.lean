import Mathlib

/-!
# Sorting a finite set by insertion

`Finset.sort` sorts with `List.mergeSort`, which is defined by well-founded
recursion, so neither `decide` nor `rfl` can evaluate it on a concrete set.
`ascending` returns the same list, sorted by insertion, which is structural;
`ascending_eq_sort` hands every question about it to the `Finset.sort` API.
-/

namespace CodeChain

namespace FinsetSort

variable {α : Type} [LinearOrder α]

/-- The elements of a finite set in increasing order. -/
def ascending (s : Finset α) : List α :=
  Quot.liftOn s.val (List.insertionSort (· ≤ ·)) fun _ _ permuted =>
    List.Perm.eq_of_pairwise' (List.pairwise_insertionSort _ _) (List.pairwise_insertionSort _ _)
      ((List.perm_insertionSort _ _).trans (permuted.trans (List.perm_insertionSort _ _).symm))

theorem ascending_eq_sort (s : Finset α) : ascending s = s.sort (· ≤ ·) := by
  obtain ⟨⟨elements⟩, nodup⟩ := s
  exact (List.mergeSort_eq_insertionSort _ elements).symm

example : ascending ({3, 1, 2} : Finset ℕ) = [1, 2, 3] := by
  decide

end FinsetSort

end CodeChain
