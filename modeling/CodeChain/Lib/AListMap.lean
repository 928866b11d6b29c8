import Mathlib

/-!
# Changing every value of a finite map

`mapValues` applies a function to every value of an association list and keeps
its keys, as a loop over the values of a hash map by mutable reference does.
A loop that inserts a value computed from each key of a list, or the entries
of another map, fills the map at exactly those keys.
-/

namespace CodeChain

namespace AListMap

variable {α β γ : Type*} [DecidableEq α]

/-- Apply `change` to every value. -/
def mapValues (change : β → γ) (m : AList fun _ : α => β) : AList fun _ : α => γ :=
  ⟨m.entries.map (.map id fun _ => change), m.nodupKeys.map₂ _⟩

@[simp]
theorem lookup_mapValues (change : β → γ) (m : AList fun _ : α => β) (key : α) :
    (mapValues change m).lookup key = (m.lookup key).map change :=
  List.dlookup_map₂ key

@[simp]
theorem mem_mapValues (change : β → γ) (m : AList fun _ : α => β) (key : α) :
    key ∈ mapValues change m ↔ key ∈ m := by
  rw [← AList.lookup_isSome, ← AList.lookup_isSome, lookup_mapValues, Option.isSome_map]

/-- Inserting at each key of a list the value computed from it: the keys of
the list map to their values, every other key keeps its own. -/
theorem lookup_foldl_insert (value : α → β) (keys : List α) (m : AList fun _ : α => β)
    (key : α) :
    (keys.foldl (fun m inserted => m.insert inserted (value inserted)) m).lookup key =
      if key ∈ keys then some (value key) else m.lookup key := by
  induction keys generalizing m with
  | nil => simp
  | cons first rest ih =>
      rw [List.foldl_cons, ih]
      by_cases later : key ∈ rest
      · simp [later]
      · by_cases here : key = first
        · subst here
          simp [later]
        · simp [later, here, AList.lookup_insert_ne here]

/-- Inserting the entries of a list with distinct keys, one by one: its keys
map to its values, every other key keeps its own. -/
theorem lookup_foldl_insert_entries {entries : List (Sigma fun _ : α => β)} (distinct : entries.NodupKeys)
    (m : AList fun _ : α => β) (key : α) :
    (entries.foldl (fun m entry => m.insert entry.1 entry.2) m).lookup key =
      (entries.dlookup key).or (m.lookup key) := by
  induction entries generalizing m with
  | nil => simp
  | cons first rest ih =>
      obtain ⟨notLater, restDistinct⟩ := List.nodupKeys_cons.mp distinct
      rw [List.foldl_cons, ih restDistinct]
      by_cases here : key = first.1
      · subst here
        rw [List.dlookup_eq_none.mpr notLater, List.dlookup_cons_eq, AList.lookup_insert]
        rfl
      · rw [List.dlookup_cons_ne _ _ here, AList.lookup_insert_ne here]

/-- Inserting each item of a list under its own key: a key finds the last item
of that key, or what it found before. -/
theorem lookup_foldl_insert_keyed_eq_some (key : β → α) {items : List β} {m : AList fun _ : α => β} {k : α}
    {item : β} (found : (items.foldl (fun m item => m.insert (key item) item) m).lookup k = some item) :
    item ∈ items ∧ key item = k ∨ m.lookup k = some item := by
  induction items generalizing m with
  | nil => exact .inr found
  | cons first rest ih =>
      rw [List.foldl_cons] at found
      rcases ih found with ⟨member, keyed⟩ | earlier
      · exact .inl ⟨List.mem_cons_of_mem _ member, keyed⟩
      · by_cases here : k = key first
        · subst here
          rw [AList.lookup_insert, Option.some_inj] at earlier
          subst earlier
          exact .inl ⟨List.mem_cons_self, rfl⟩
        · rw [AList.lookup_insert_ne here] at earlier
          exact .inr earlier

theorem mem_foldl_insert_keyed (key : β → α) (items : List β) (m : AList fun _ : α => β) (k : α) :
    k ∈ items.foldl (fun m item => m.insert (key item) item) m ↔ (∃ item ∈ items, key item = k) ∨ k ∈ m := by
  induction items generalizing m with
  | nil => simp
  | cons first rest ih =>
      have swap : k = key first ↔ key first = k := eq_comm
      rw [List.foldl_cons, ih, AList.mem_insert, swap]
      simp only [List.mem_cons, exists_eq_or_imp]
      exact or_left_comm.trans or_assoc.symm

end AListMap

end CodeChain
