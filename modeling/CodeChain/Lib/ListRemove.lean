import Mathlib

/-!
# Removing the first match from a list

`Vec::position` followed by `Vec::remove` takes the first element that
satisfies a test out of a vector and keeps the others in order.  `takeFirst`
is that pair of calls on lists; the lemmas say what it returns and that the
rest of the list is a permutation away from the original.
-/

namespace CodeChain

namespace ListRemove

variable {α : Type*}

/-- The first element satisfying `test`, and the list without it. -/
def takeFirst (test : α → Bool) : List α → Option (α × List α)
  | [] => none
  | head :: tail =>
      if test head then some (head, tail)
      else (takeFirst test tail).map fun (found, rest) => (found, head :: rest)

@[simp]
theorem takeFirst_nil (test : α → Bool) : takeFirst test ([] : List α) = none :=
  rfl

theorem takeFirst_cons (test : α → Bool) (head : α) (tail : List α) :
    takeFirst test (head :: tail) =
      if test head then some (head, tail)
      else (takeFirst test tail).map fun (found, rest) => (found, head :: rest) :=
  rfl

/-- Nothing is taken exactly when no element passes the test. -/
theorem takeFirst_eq_none {test : α → Bool} {list : List α} :
    takeFirst test list = none ↔ ∀ element ∈ list, test element = false := by
  induction list with
  | nil => simp
  | cons head tail ih =>
      by_cases passes : test head = true
      · simp [takeFirst_cons, passes]
      · simp [takeFirst_cons, passes, ih]

/-- What is taken passes the test, and the rest is the list without it. -/
theorem takeFirst_spec {test : α → Bool} {list rest : List α} {found : α}
    (taken : takeFirst test list = some (found, rest)) :
    test found = true ∧ (found :: rest).Perm list := by
  induction list generalizing rest with
  | nil => simp at taken
  | cons head tail ih =>
      rw [takeFirst_cons] at taken
      by_cases passes : test head = true
      · simp only [passes, if_true, Option.some.injEq, Prod.mk.injEq] at taken
        obtain ⟨rfl, rfl⟩ := taken
        exact ⟨passes, List.Perm.refl _⟩
      · simp only [passes, Bool.false_eq_true, if_false, Option.map_eq_some_iff,
          Prod.mk.injEq, Prod.exists] at taken
        obtain ⟨found', rest', inner, rfl, rfl⟩ := taken
        obtain ⟨foundPasses, permuted⟩ := ih inner
        -- the taken element moves to the front past the kept head
        exact ⟨foundPasses, (List.Perm.swap head found' rest').trans (permuted.cons head)⟩

/-- What is taken is what `find?` finds. -/
theorem takeFirst_map_fst (test : α → Bool) (list : List α) :
    (takeFirst test list).map Prod.fst = list.find? test := by
  induction list with
  | nil => rfl
  | cons head tail ih =>
      by_cases passes : test head = true
      · simp [takeFirst_cons, passes]
      · simp [takeFirst_cons, passes, ← ih, Option.map_map, Function.comp_def]

theorem mem_of_takeFirst {test : α → Bool} {list rest : List α} {found : α}
    (taken : takeFirst test list = some (found, rest)) : found ∈ list :=
  (takeFirst_spec taken).2.subset (List.mem_cons_self ..)

/-- Something is taken whenever some element passes the test. -/
theorem takeFirst_isSome {test : α → Bool} {list : List α} {element : α}
    (member : element ∈ list) (passes : test element = true) :
    (takeFirst test list).isSome := by
  cases taken : takeFirst test list with
  | none => simp [takeFirst_eq_none.mp taken element member] at passes
  | some pair => rfl

section Erase

variable [DecidableEq α]

/-- What is left is the list without the first copy of what was taken: no copy
comes before it, as that copy would have passed the test first. -/
theorem takeFirst_rest_eq_erase {test : α → Bool} {list rest : List α} {found : α}
    (taken : takeFirst test list = some (found, rest)) : rest = list.erase found := by
  induction list generalizing rest with
  | nil => simp at taken
  | cons head tail ih =>
      rw [takeFirst_cons] at taken
      by_cases passes : test head = true
      · simp only [passes, if_true, Option.some.injEq, Prod.mk.injEq] at taken
        obtain ⟨rfl, rfl⟩ := taken
        simp
      · simp only [passes, Bool.false_eq_true, if_false, Option.map_eq_some_iff,
          Prod.mk.injEq, Prod.exists] at taken
        obtain ⟨found', rest', inner, rfl, rfl⟩ := taken
        have differs : head ≠ found' := fun same => passes (same ▸ (takeFirst_spec inner).1)
        rw [ih inner, List.erase_cons_tail (by simpa using differs)]

/-- When exactly one element passes the test, that element is taken. -/
theorem takeFirst_of_unique {test : α → Bool} {list : List α} {element : α} (member : element ∈ list)
    (passes : test element = true) (unique : ∀ other ∈ list, test other = true → other = element) :
    takeFirst test list = some (element, list.erase element) := by
  obtain ⟨⟨found, rest⟩, taken⟩ := Option.isSome_iff_exists.mp (takeFirst_isSome member passes)
  have same : found = element := unique found (mem_of_takeFirst taken) (takeFirst_spec taken).1
  subst same
  rw [taken, takeFirst_rest_eq_erase taken]

end Erase

end ListRemove

end CodeChain
