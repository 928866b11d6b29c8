import Mathlib

/-!
# Totals of finite maps

A finite map is an association list with distinct keys (`AList`).  When its
values are measured by natural numbers, the total of the map is the sum of the
measures of its entries.  A key that is absent counts as zero, so the total is
the same as the `finsum` over every key of the measure found there: this is how
a sum "over all keys" is stated, and the lemmas below let an update of one key
be accounted for without unfolding the list.
-/

namespace CodeChain

namespace AListTotal

variable {α β : Type*} [DecidableEq α] (measure : β → ℕ)

/-- The measure of the value stored at `key`, or zero when the key is absent. -/
def valueAt (m : AList fun _ : α => β) (key : α) : ℕ :=
  ((m.lookup key).map measure).getD 0

/-- The sum of the measures of all entries of the map. -/
def total (m : AList fun _ : α => β) : ℕ :=
  (m.entries.map fun entry => measure entry.2).sum

omit [DecidableEq α] in
@[simp]
theorem total_empty : total measure (∅ : AList fun _ : α => β) = 0 :=
  rfl

@[simp]
theorem valueAt_empty (key : α) : valueAt measure (∅ : AList fun _ : α => β) key = 0 :=
  rfl

@[simp]
theorem valueAt_insert_self (m : AList fun _ : α => β) (key : α) (value : β) :
    valueAt measure (m.insert key value) key = measure value := by
  simp [valueAt, AList.lookup_insert]

theorem valueAt_insert_of_ne (m : AList fun _ : α => β) {key other : α} (value : β)
    (distinct : other ≠ key) :
    valueAt measure (m.insert key value) other = valueAt measure m other := by
  simp [valueAt, AList.lookup_insert_ne distinct]

@[simp]
theorem valueAt_erase_self (m : AList fun _ : α => β) (key : α) :
    valueAt measure (m.erase key) key = 0 := by
  simp [valueAt, AList.lookup_erase]

theorem valueAt_erase_of_ne (m : AList fun _ : α => β) {key other : α}
    (distinct : other ≠ key) :
    valueAt measure (m.erase key) other = valueAt measure m other := by
  simp [valueAt, AList.lookup_erase_ne distinct]

/-- Erasing the first entry of a key removes exactly the measure found there;
this holds for any list of entries, distinct keys or not. -/
private theorem list_total_kerase (key : α) (entries : List (Sigma fun _ : α => β)) :
    ((entries.kerase key).map fun entry => measure entry.2).sum +
        ((entries.dlookup key).map measure).getD 0 =
      (entries.map fun entry => measure entry.2).sum := by
  induction entries with
  | nil => simp
  | cons entry entries ih =>
      by_cases atKey : key = entry.1
      · obtain ⟨entryKey, entryValue⟩ := entry
        simp only at atKey
        subst atKey
        simp [List.dlookup_cons_eq]
        omega
      · rw [List.kerase_cons_ne atKey, List.dlookup_cons_ne _ _ atKey]
        simp only [List.map_cons, List.sum_cons]
        omega

/-- Erasing a key lowers the total by the measure stored there. -/
theorem total_erase_add_valueAt (m : AList fun _ : α => β) (key : α) :
    total measure (m.erase key) + valueAt measure m key = total measure m :=
  list_total_kerase measure key m.entries

/-- Inserting at a key replaces whatever was stored there. -/
theorem total_insert (m : AList fun _ : α => β) (key : α) (value : β) :
    total measure (m.insert key value) = measure value + total measure (m.erase key) := by
  simp [total, AList.entries_insert, AList.erase]

/-- Writing one key changes the total by the new measure minus the old one. -/
theorem total_insert_add_valueAt (m : AList fun _ : α => β) (key : α) (value : β) :
    total measure (m.insert key value) + valueAt measure m key =
      total measure m + measure value := by
  have erased := total_erase_add_valueAt measure m key
  rw [total_insert]
  omega

theorem valueAt_le_total (m : AList fun _ : α => β) (key : α) :
    valueAt measure m key ≤ total measure m := by
  have erased := total_erase_add_valueAt measure m key
  omega

/-- Two different keys together hold at most the total. -/
theorem valueAt_add_valueAt_le_total (m : AList fun _ : α => β) {first second : α}
    (distinct : first ≠ second) :
    valueAt measure m first + valueAt measure m second ≤ total measure m := by
  have erasedFirst := total_erase_add_valueAt measure m first
  have secondKept := valueAt_erase_of_ne measure m distinct.symm
  have secondBound := valueAt_le_total measure (m.erase first) second
  omega

private theorem list_sum_keys_dlookup (entries : List (Sigma fun _ : α => β))
    (distinctKeys : entries.NodupKeys) :
    (entries.keys.map fun key => ((entries.dlookup key).map measure).getD 0).sum =
      (entries.map fun entry => measure entry.2).sum := by
  induction entries with
  | nil => simp
  | cons entry entries ih =>
      obtain ⟨entryKey, entryValue⟩ := entry
      have fresh : entryKey ∉ entries.keys := List.notMem_keys_of_nodupKeys_cons distinctKeys
      have rest := ih (List.nodupKeys_of_nodupKeys_cons distinctKeys)
      have unchanged : ∀ key ∈ entries.keys,
          ((List.dlookup key (⟨entryKey, entryValue⟩ :: entries)).map measure).getD 0 =
            ((entries.dlookup key).map measure).getD 0 := by
        intro key member
        have distinct : key ≠ entryKey := fun same => fresh (same ▸ member)
        rw [List.dlookup_cons_ne _ _ distinct]
      rw [List.keys_cons, List.map_cons, List.sum_cons, List.map_congr_left unchanged, rest]
      simp [List.dlookup_cons_eq]

/-- Only the stored keys can hold a nonzero measure. -/
theorem support_valueAt_subset (m : AList fun _ : α => β) :
    Function.support (valueAt measure m) ⊆ (m.keys.toFinset : Set α) := by
  intro key nonzero
  by_contra absent
  have notKey : key ∉ m := by simpa [AList.mem_keys] using absent
  exact nonzero (by simp [valueAt, AList.lookup_eq_none.mpr notKey])

theorem finite_support_valueAt (m : AList fun _ : α => β) :
    (Function.support (valueAt measure m)).Finite :=
  m.keys.toFinset.finite_toSet.subset (support_valueAt_subset measure m)

/-- The total is the sum over every key of the measure stored there. -/
theorem finsum_valueAt (m : AList fun _ : α => β) :
    ∑ᶠ key, valueAt measure m key = total measure m := by
  rw [finsum_eq_finsetSum_of_support_subset _ (support_valueAt_subset measure m),
    List.sum_toFinset _ m.keys_nodup]
  exact list_sum_keys_dlookup measure m.entries m.nodupKeys

end AListTotal

end CodeChain
