import CodeChain.Lib.Fault
import CodeChain.Lib.Snapshots

/-!
# The write-back cache

`WriteBack` (`state/src/cache/write_back.rs`) holds the items of one kind that a
state has read or written since its last commit, over the trie of the state
root.  An entry remembers its item (`None` for a deleted one) and whether it
differs from the trie.  Checkpoints form a stack; the newest one records, for
every key written since it was taken, the entry the key had before.  Reverting
puts the recorded entries back, and discarding merges the newest checkpoint into
the one below it.

Reads go through the cache first and then to the trie, here a function from
keys to items.  The touch counter, which only orders entries for the global
cache, is left out.
-/

namespace CodeChain

namespace State

/-- An entry of the cache: the item, and whether it differs from the trie. -/
structure Entry (Item : Type) where
  item : Option Item
  isDirty : Bool
  deriving DecidableEq, Repr

/-- `WriteBack`: the cached entries and the stack of checkpoints, the newest
first. -/
structure WriteBack (Key Item : Type) [DecidableEq Key] where
  cache : AList fun _ : Key => Entry Item
  checkpoints : List (AList fun _ : Key => Option (Entry Item))

namespace WriteBack

variable {Key Item : Type} [DecidableEq Key]

/-- `WriteBack::new`. -/
def new : WriteBack Key Item :=
  ⟨∅, []⟩

/-- What an entry reads as: its item, and the trie's item when there is no
entry. -/
def readEntry (db : Key → Option Item) (key : Key) : Option (Entry Item) → Option Item
  | some entry => entry.item
  | none => db key

/-- What a read returns: the cached item, else the item in the trie. -/
def read (db : Key → Option Item) (writeBack : WriteBack Key Item) (key : Key) : Option Item :=
  readEntry db key (writeBack.cache.lookup key)

/-- `WriteBack::checkpoint`: push an empty checkpoint. -/
def checkpoint (writeBack : WriteBack Key Item) : WriteBack Key Item :=
  { writeBack with checkpoints := ∅ :: writeBack.checkpoints }

/-- `entry(key).or_insert(old)` on the newest checkpoint, if there is one. -/
def record (checkpoints : List (AList fun _ : Key => Option (Entry Item))) (key : Key)
    (old : Option (Entry Item)) : List (AList fun _ : Key => Option (Entry Item)) :=
  match checkpoints with
  | [] => []
  | last :: rest => (if key ∈ last then last else last.insert key old) :: rest

/-- `WriteBack::discard_checkpoint`: pop the newest checkpoint into the one
below it, which takes it whole when it is empty. -/
def discardCheckpoint (writeBack : WriteBack Key Item) : WriteBack Key Item :=
  match writeBack.checkpoints with
  | [] => writeBack
  | [_] => { writeBack with checkpoints := [] }
  | last :: previous :: rest =>
      -- `prev.entry(k).or_insert(v)` for every record: the older record wins
      let merged := if previous.entries.isEmpty then last else previous ∪ last
      { writeBack with checkpoints := merged :: rest }

/-- Put back one recorded entry: a recorded item is restored, and a key that
had no entry loses its entry when that entry is dirty. -/
def restore (cache : AList fun _ : Key => Entry Item)
    (record : Sigma fun _ : Key => Option (Entry Item)) : AList fun _ : Key => Entry Item :=
  match record.2 with
  | some entry => cache.insert record.1 entry
  | none =>
      match cache.lookup record.1 with
      | some entry => if entry.isDirty then cache.erase record.1 else cache
      | none => cache

/-- `WriteBack::revert_to_checkpoint`: pop the newest checkpoint and put back
what it recorded. -/
def revertToCheckpoint (writeBack : WriteBack Key Item) : WriteBack Key Item :=
  match writeBack.checkpoints with
  | [] => writeBack
  | last :: rest => ⟨last.entries.foldl restore writeBack.cache, rest⟩

/-- `WriteBack::insert`: a dirty entry records the entry it replaces in the
newest checkpoint. -/
def insert (writeBack : WriteBack Key Item) (key : Key) (entry : Entry Item) :
    WriteBack Key Item :=
  let old := writeBack.cache.lookup key
  let cache := writeBack.cache.insert key entry
  if entry.isDirty then ⟨cache, record writeBack.checkpoints key old⟩
  else { writeBack with cache := cache }

/-- `WriteBack::note`: record the current entry of a key about to change. -/
def note (writeBack : WriteBack Key Item) (key : Key) : WriteBack Key Item :=
  { writeBack with checkpoints := record writeBack.checkpoints key (writeBack.cache.lookup key) }

/-- `WriteBack::get`: the cached item, or the trie's, cached as clean. -/
def get (db : Key → Option Item) (writeBack : WriteBack Key Item) (key : Key) :
    Option Item × WriteBack Key Item :=
  match writeBack.cache.lookup key with
  | some entry => (entry.item, writeBack)
  | none => (db key, writeBack.insert key ⟨db key, false⟩)

/-- A write through the reference that `get_mut` returns. -/
def put (writeBack : WriteBack Key Item) (key : Key) (item : Item) : WriteBack Key Item :=
  { writeBack with cache := writeBack.cache.insert key ⟨some item, true⟩ }

/-- `WriteBack::get_mut`: load the entry, note it, and mark it dirty; a missing
item becomes `Item::default()`.  The item is returned for the caller to change
and `put` back. -/
def getMut [Inhabited Item] (db : Key → Option Item) (writeBack : WriteBack Key Item)
    (key : Key) : Item × WriteBack Key Item :=
  let writeBack := if key ∈ writeBack.cache then writeBack else writeBack.insert key ⟨db key, false⟩
  let writeBack := writeBack.note key
  let item := ((writeBack.cache.lookup key).bind Entry.item).getD default
  (item, writeBack.put key item)

/-- `WriteBack::create`: the key must hold no item in the cache. -/
def create {ε : Type} (writeBack : WriteBack Key Item) (key : Key) (item : Item) :
    Except (Fault ε) (WriteBack Key Item) := do
  match writeBack.cache.lookup key with
  | some cached => Fault.ensure cached.item.isNone "assertion failed: cached.item.is_none()"
  | none => pure ()
  pure (writeBack.insert key ⟨some item, true⟩)

/-- `WriteBack::remove`. -/
def remove (writeBack : WriteBack Key Item) (key : Key) : WriteBack Key Item :=
  writeBack.insert key ⟨none, true⟩

/-! ## The cache refines a stack of snapshots -/

section Refinement

variable (db : Key → Option Item)

/-- A clean entry holds the trie's item. -/
def Agrees (key : Key) (entry : Entry Item) : Prop :=
  entry.isDirty = false → entry.item = db key

/-- The reads after reverting one checkpoint onto the reads `current`. -/
def readReverted (checkpoint : AList fun _ : Key => Option (Entry Item))
    (current : Key → Option Item) (key : Key) : Option Item :=
  match checkpoint.lookup key with
  | some recorded => readEntry db key recorded
  | none => current key

/-- Reverting the checkpoints one by one turns the reads `current` into the
saved reads, level by level. -/
def Unwinds : (Key → Option Item) → List (AList fun _ : Key => Option (Entry Item)) →
    List (Key → Option Item) → Prop
  | _, [], [] => True
  | current, checkpoint :: checkpoints, saved :: rest =>
      readReverted db checkpoint current = saved ∧ Unwinds saved checkpoints rest
  | _, _, _ => False

/-- Every clean entry, cached or recorded, holds the trie's item. -/
structure CleanAgrees (writeBack : WriteBack Key Item) : Prop where
  cache : ∀ key entry, writeBack.cache.lookup key = some entry → Agrees db key entry
  recorded : ∀ checkpoint ∈ writeBack.checkpoints, ∀ key entry,
    checkpoint.lookup key = some (some entry) → Agrees db key entry

/-- The cache refines a stack of snapshots of the reads: it reads as the
current state, and its checkpoints revert it to the saved states. -/
structure Refines (writeBack : WriteBack Key Item)
    (stack : Snapshots.Stack (Key → Option Item)) : Prop where
  read_eq : read db writeBack = stack.current
  unwinds : Unwinds db stack.current writeBack.checkpoints stack.saved
  clean : CleanAgrees db writeBack

theorem refines_new : Refines db (new : WriteBack Key Item) ⟨db, []⟩ :=
  ⟨rfl, trivial, ⟨fun _ _ found => by simp [new] at found, fun _ member => by simp [new] at member⟩⟩

/-! ### What each operation leaves alone -/

@[simp]
theorem checkpoint_cache (writeBack : WriteBack Key Item) :
    writeBack.checkpoint.cache = writeBack.cache :=
  rfl

@[simp]
theorem checkpoint_checkpoints (writeBack : WriteBack Key Item) :
    writeBack.checkpoint.checkpoints = ∅ :: writeBack.checkpoints :=
  rfl

@[simp]
theorem discardCheckpoint_cache (writeBack : WriteBack Key Item) :
    writeBack.discardCheckpoint.cache = writeBack.cache := by
  unfold discardCheckpoint
  split <;> rfl

@[simp]
theorem note_cache (writeBack : WriteBack Key Item) (key : Key) :
    (writeBack.note key).cache = writeBack.cache :=
  rfl

@[simp]
theorem put_checkpoints (writeBack : WriteBack Key Item) (key : Key) (item : Item) :
    (writeBack.put key item).checkpoints = writeBack.checkpoints :=
  rfl

/-! ### Reverting one checkpoint -/

variable {db}

theorem readEntry_restore {cache : AList fun _ : Key => Entry Item}
    (agrees : ∀ key entry, cache.lookup key = some entry → Agrees db key entry)
    (record : Sigma fun _ : Key => Option (Entry Item)) (key : Key) :
    readEntry db key ((restore cache record).lookup key) =
      if key = record.1 then readEntry db key record.2 else readEntry db key (cache.lookup key) := by
  obtain ⟨restored, recorded⟩ := record
  by_cases same : key = restored
  · subst same
    rw [if_pos rfl]
    cases recorded with
    | some entry => simp [restore]
    | none =>
        cases found : cache.lookup key with
        | none => simp [restore, found, readEntry]
        | some entry =>
            -- a dirty entry is dropped; a clean one already reads as the trie
            cases dirty : entry.isDirty
            · simp [restore, found, dirty, readEntry, agrees key entry found dirty]
            · simp [restore, found, dirty, readEntry]
  · rw [if_neg same]
    cases recorded with
    | some entry => simp [restore, AList.lookup_insert_ne same]
    | none =>
        simp only [restore]
        split
        · split
          · rw [AList.lookup_erase_ne same]
          · rfl
        · rfl

theorem agrees_restore {cache : AList fun _ : Key => Entry Item}
    (agrees : ∀ key entry, cache.lookup key = some entry → Agrees db key entry)
    {record : Sigma fun _ : Key => Option (Entry Item)}
    (recorded : ∀ entry, record.2 = some entry → Agrees db record.1 entry) :
    ∀ key entry, (restore cache record).lookup key = some entry → Agrees db key entry := by
  obtain ⟨restored, recorded'⟩ := record
  intro key entry found
  cases recorded' with
  | some kept =>
      by_cases same : key = restored
      · subst same
        simp only [restore, AList.lookup_insert, Option.some_inj] at found
        subst found
        exact recorded _ rfl
      · simp only [restore, AList.lookup_insert_ne same] at found
        exact agrees key entry found
  | none =>
      simp only [restore] at found
      split at found
      · split at found
        · by_cases same : key = restored
          · subst same
            simp at found
          · rw [AList.lookup_erase_ne same] at found
            exact agrees key entry found
        · exact agrees key entry found
      · exact agrees key entry found

theorem agrees_foldl_restore {cache : AList fun _ : Key => Entry Item}
    (agrees : ∀ key entry, cache.lookup key = some entry → Agrees db key entry)
    (records : List (Sigma fun _ : Key => Option (Entry Item)))
    (recorded : ∀ record ∈ records, ∀ entry, record.2 = some entry → Agrees db record.1 entry) :
    ∀ key entry, (records.foldl restore cache).lookup key = some entry → Agrees db key entry := by
  induction records generalizing cache with
  | nil => exact agrees
  | cons first rest ih =>
      exact ih (agrees_restore agrees (recorded first List.mem_cons_self))
        fun record member => recorded record (List.mem_cons_of_mem _ member)

/-- Restoring distinct records reads, at each key, as its record if it has one
and as before otherwise. -/
theorem readEntry_foldl_restore {cache : AList fun _ : Key => Entry Item}
    (agrees : ∀ key entry, cache.lookup key = some entry → Agrees db key entry)
    (records : List (Sigma fun _ : Key => Option (Entry Item))) (distinct : records.NodupKeys)
    (recorded : ∀ record ∈ records, ∀ entry, record.2 = some entry → Agrees db record.1 entry)
    (key : Key) :
    readEntry db key ((records.foldl restore cache).lookup key) =
      match records.dlookup key with
      | some record => readEntry db key record
      | none => readEntry db key (cache.lookup key) := by
  induction records generalizing cache with
  | nil => rfl
  | cons first rest ih =>
      obtain ⟨absent, restDistinct⟩ := List.nodupKeys_cons.mp distinct
      have restAgrees := agrees_restore agrees (recorded first List.mem_cons_self)
      rw [List.foldl_cons, ih restAgrees restDistinct
        (fun record member => recorded record (List.mem_cons_of_mem _ member)),
        readEntry_restore agrees]
      by_cases same : key = first.1
      · subst same
        -- the first record is the only one for its key
        rw [List.dlookup_eq_none.mpr absent, if_pos rfl, List.dlookup_cons_eq]
      · rw [if_neg same, List.dlookup_cons_ne _ _ same]

theorem read_revert {writeBack : WriteBack Key Item} (clean : CleanAgrees db writeBack)
    {checkpoint : AList fun _ : Key => Option (Entry Item)}
    {rest : List (AList fun _ : Key => Option (Entry Item))}
    (stacked : writeBack.checkpoints = checkpoint :: rest) :
    read db writeBack.revertToCheckpoint = readReverted db checkpoint (read db writeBack) := by
  have recorded := clean.recorded checkpoint (stacked ▸ List.mem_cons_self)
  funext key
  simp only [revertToCheckpoint, stacked, read]
  rw [readEntry_foldl_restore clean.cache _ checkpoint.nodupKeys]
  · rfl
  · rintro ⟨recordKey, recordEntry⟩ member entry rfl
    exact recorded recordKey entry (AList.mem_lookup_iff.mpr member)

/-! ### Recording an entry -/

/-- A revert ignores what a key it holds a record of reads as. -/
theorem readReverted_of_mem {checkpoint : AList fun _ : Key => Option (Entry Item)}
    {current current' : Key → Option Item} {key : Key} (member : key ∈ checkpoint)
    (unchanged : ∀ other, other ≠ key → current' other = current other) :
    readReverted db checkpoint current' = readReverted db checkpoint current := by
  funext other
  by_cases same : other = key
  · subst same
    obtain ⟨recorded, found⟩ := Option.isSome_iff_exists.mp (AList.lookup_isSome.mpr member)
    simp only [readReverted, found]
  · simp only [readReverted, unchanged other same]

/-- Recording the entry a key reads as keeps what a revert gives, whatever
the key then reads as. -/
theorem readReverted_record {checkpoint : AList fun _ : Key => Option (Entry Item)}
    {current current' : Key → Option Item} {key : Key} {old : Option (Entry Item)}
    (unchanged : ∀ other, other ≠ key → current' other = current other)
    (oldRead : readEntry db key old = current key) :
    readReverted db (if key ∈ checkpoint then checkpoint else checkpoint.insert key old) current' =
      readReverted db checkpoint current := by
  split
  · rename_i member
    exact readReverted_of_mem member unchanged
  · rename_i absent
    funext other
    by_cases same : other = key
    · subst same
      simp only [readReverted, AList.lookup_insert, AList.lookup_eq_none.mpr absent, oldRead]
    · simp only [readReverted, AList.lookup_insert_ne same, unchanged other same]

theorem unwinds_record {current current' : Key → Option Item} {key : Key}
    {old : Option (Entry Item)} (unchanged : ∀ other, other ≠ key → current' other = current other)
    (oldRead : readEntry db key old = current key) :
    ∀ {checkpoints saved}, Unwinds db current checkpoints saved →
      Unwinds db current' (record checkpoints key old) saved
  | [], [], _ => trivial
  | _ :: _, _ :: _, ⟨reverted, rest⟩ => ⟨(readReverted_record unchanged oldRead).trans reverted, rest⟩

theorem agrees_record {checkpoints : List (AList fun _ : Key => Option (Entry Item))} {key : Key}
    {old : Option (Entry Item)}
    (recorded : ∀ checkpoint ∈ checkpoints, ∀ key entry,
      checkpoint.lookup key = some (some entry) → Agrees db key entry)
    (oldAgrees : ∀ entry, old = some entry → Agrees db key entry) :
    ∀ checkpoint ∈ record checkpoints key old, ∀ other entry,
      checkpoint.lookup other = some (some entry) → Agrees db other entry := by
  intro checkpoint member other entry found
  cases checkpoints with
  | nil => cases member
  | cons last rest =>
      rcases List.mem_cons.mp member with rfl | inRest
      · split at found
        · exact recorded last List.mem_cons_self other entry found
        · by_cases same : other = key
          · subst same
            rw [AList.lookup_insert, Option.some_inj] at found
            exact oldAgrees entry found
          · rw [AList.lookup_insert_ne same] at found
            exact recorded last List.mem_cons_self other entry found
      · exact recorded checkpoint (List.mem_cons_of_mem _ inRest) other entry found

theorem mem_record_head (checkpoints : List (AList fun _ : Key => Option (Entry Item))) (key : Key)
    (old : Option (Entry Item)) : ∀ checkpoint ∈ (record checkpoints key old).head?, key ∈ checkpoint := by
  intro checkpoint member
  cases checkpoints with
  | nil => cases member
  | cons last rest =>
      rw [record, List.head?_cons, Option.mem_some_iff] at member
      subst member
      split
      · assumption
      · exact (AList.mem_insert _).mpr (Or.inl rfl)

/-! ### Each operation refines its abstract counterpart -/

variable {writeBack : WriteBack Key Item} {stack : Snapshots.Stack (Key → Option Item)}

theorem Refines.checkpoint (refines : Refines db writeBack stack) :
    Refines db writeBack.checkpoint stack.checkpoint := by
  refine ⟨refines.read_eq, ⟨?_, refines.unwinds⟩, ⟨refines.clean.cache, ?_⟩⟩
  · funext key
    simp [readReverted]
  · simp only [checkpoint_checkpoints]
    intro checkpoint member key entry found
    rcases List.mem_cons.mp member with rfl | older
    · simp at found
    · exact refines.clean.recorded checkpoint older key entry found

theorem Refines.revertToCheckpoint (refines : Refines db writeBack stack) :
    Refines db writeBack.revertToCheckpoint stack.revert := by
  obtain ⟨readEq, unwinds, clean⟩ := refines
  obtain ⟨current, saved⟩ := stack
  match stacked : writeBack.checkpoints, saved, unwinds with
  | [], [], _ =>
      have same : writeBack.revertToCheckpoint = writeBack := by
        simp only [WriteBack.revertToCheckpoint, stacked]
      rw [same]
      exact ⟨readEq, by rw [stacked]; trivial, clean⟩
  | checkpoint :: rest, newest :: older, ⟨reverted, unwindsRest⟩ =>
      have recorded := clean.recorded checkpoint (by rw [stacked]; exact List.mem_cons_self)
      refine ⟨?_, ?_, ⟨?_, ?_⟩⟩
      · rw [read_revert clean stacked, readEq]
        exact reverted
      · simp only [WriteBack.revertToCheckpoint, stacked, Snapshots.Stack.revert]
        exact unwindsRest
      · simp only [WriteBack.revertToCheckpoint, stacked]
        refine agrees_foldl_restore clean.cache _ ?_
        rintro ⟨recordKey, recordEntry⟩ member entry rfl
        exact recorded recordKey entry (AList.mem_lookup_iff.mpr member)
      · simp only [WriteBack.revertToCheckpoint, stacked]
        exact fun older member => clean.recorded older (by rw [stacked]; exact List.mem_cons_of_mem _ member)

/-- Merging a checkpoint into the one below it reverts as the two reverts in
turn. -/
theorem readReverted_union (previous last : AList fun _ : Key => Option (Entry Item))
    (current : Key → Option Item) :
    readReverted db (previous ∪ last) current =
      readReverted db previous (readReverted db last current) := by
  funext key
  by_cases older : key ∈ previous
  · obtain ⟨recorded, found⟩ := Option.isSome_iff_exists.mp (AList.lookup_isSome.mpr older)
    simp only [readReverted, AList.lookup_union_left older, found]
  · simp only [readReverted, AList.lookup_union_right older, AList.lookup_eq_none.mpr older]

theorem readReverted_of_isEmpty {previous : AList fun _ : Key => Option (Entry Item)}
    (empty : previous.entries.isEmpty = true) (current : Key → Option Item) :
    readReverted db previous current = current := by
  funext key
  have absent : key ∉ previous := by
    rw [AList.mem_keys, AList.keys, List.isEmpty_iff.mp empty]
    exact List.not_mem_nil
  simp only [readReverted, AList.lookup_eq_none.mpr absent]

theorem Refines.discardCheckpoint (refines : Refines db writeBack stack) :
    Refines db writeBack.discardCheckpoint stack.discard := by
  obtain ⟨readEq, unwinds, clean⟩ := refines
  obtain ⟨current, saved⟩ := stack
  dsimp only at readEq unwinds
  have readSame : read db writeBack.discardCheckpoint = current := by
    rw [← readEq]
    funext key
    simp only [read, discardCheckpoint_cache]
  have cacheAgrees : ∀ key entry, writeBack.discardCheckpoint.cache.lookup key = some entry →
      Agrees db key entry := by
    rw [discardCheckpoint_cache]
    exact clean.cache
  match stacked : writeBack.checkpoints, saved, unwinds with
  | [], [], nothing =>
      refine ⟨readSame, ?_, ⟨cacheAgrees, ?_⟩⟩
      · simp only [WriteBack.discardCheckpoint, stacked, Snapshots.Stack.discard, List.tail_nil]
        exact nothing
      · simp [WriteBack.discardCheckpoint, stacked]
  | [_], [_], _ =>
      refine ⟨readSame, ?_, ⟨cacheAgrees, ?_⟩⟩
      · simp only [WriteBack.discardCheckpoint, stacked, Snapshots.Stack.discard, List.tail_cons]
        trivial
      · simp [WriteBack.discardCheckpoint, stacked]
  | last :: previous :: rest, newest :: older :: oldest, ⟨reverted, previousReverted, unwindsRest⟩ =>
      have merged : readReverted db
          (if previous.entries.isEmpty then last else previous ∪ last) current = older := by
        split
        · rename_i empty
          rw [← previousReverted, readReverted_of_isEmpty empty, reverted]
        · rw [readReverted_union, reverted, previousReverted]
      have lastAgrees := clean.recorded last (by rw [stacked]; exact List.mem_cons_self)
      have previousAgrees := clean.recorded previous
        (by rw [stacked]; exact List.mem_cons_of_mem _ List.mem_cons_self)
      refine ⟨readSame, ?_, ⟨cacheAgrees, ?_⟩⟩
      · simp only [WriteBack.discardCheckpoint, stacked, Snapshots.Stack.discard, List.tail_cons]
        exact ⟨merged, unwindsRest⟩
      · simp only [WriteBack.discardCheckpoint, stacked]
        intro checkpoint member key entry found
        rcases List.mem_cons.mp member with rfl | inRest
        · split at found
          · exact lastAgrees key entry found
          · rcases AList.mem_lookup_union.mp found with inPrevious | ⟨-, inLast⟩
            · exact previousAgrees key entry inPrevious
            · exact lastAgrees key entry inLast
        · exact clean.recorded checkpoint (by rw [stacked]; simp [inRest]) key entry found

/-- A dirty write changes the current state at its key. -/
theorem Refines.insert_dirty (refines : Refines db writeBack stack) (key : Key) {entry : Entry Item}
    (dirty : entry.isDirty = true) :
    Refines db (writeBack.insert key entry) (stack.update (Function.update · key entry.item)) := by
  obtain ⟨readEq, unwinds, clean⟩ := refines
  have unchanged : ∀ other, other ≠ key →
      Function.update stack.current key entry.item other = stack.current other :=
    fun other different => Function.update_of_ne different _ _
  have oldRead : readEntry db key (writeBack.cache.lookup key) = stack.current key := by
    rw [← readEq]
    rfl
  refine ⟨?_, ?_, ⟨?_, ?_⟩⟩
  · funext other
    by_cases same : other = key
    · subst same
      simp [WriteBack.insert, dirty, read, readEntry]
    · simp [WriteBack.insert, dirty, read, AList.lookup_insert_ne same, ← readEq,
        Function.update_of_ne same]
  · simpa [WriteBack.insert, dirty, Snapshots.Stack.update] using unwinds_record unchanged oldRead unwinds
  · intro other written found
    by_cases same : other = key
    · subst same
      simp only [WriteBack.insert, dirty, if_true, AList.lookup_insert, Option.some_inj] at found
      subst found
      intro clean
      rw [dirty] at clean
      cases clean
    · simp only [WriteBack.insert, dirty, if_true, AList.lookup_insert_ne same] at found
      exact clean.cache other written found
  · simp only [WriteBack.insert, dirty, if_true]
    exact agrees_record clean.recorded fun old found => clean.cache key old found

/-- Caching the trie's item of an uncached key changes no read. -/
theorem Refines.insert_clean (refines : Refines db writeBack stack) {key : Key}
    (uncached : key ∉ writeBack.cache) : Refines db (writeBack.insert key ⟨db key, false⟩) stack := by
  obtain ⟨readEq, unwinds, clean⟩ := refines
  refine ⟨?_, unwinds, ⟨?_, clean.recorded⟩⟩
  · rw [← readEq]
    funext other
    by_cases same : other = key
    · subst same
      simp [WriteBack.insert, read, readEntry, AList.lookup_eq_none.mpr uncached]
    · simp [WriteBack.insert, read, AList.lookup_insert_ne same]
  · intro other entry found
    by_cases same : other = key
    · subst same
      simp only [WriteBack.insert, Bool.false_eq_true, if_false, AList.lookup_insert,
        Option.some_inj] at found
      subst found
      exact fun _ => rfl
    · simp only [WriteBack.insert, Bool.false_eq_true, if_false, AList.lookup_insert_ne same] at found
      exact clean.cache other entry found

theorem Refines.note (refines : Refines db writeBack stack) (key : Key) :
    Refines db (writeBack.note key) stack := by
  obtain ⟨readEq, unwinds, clean⟩ := refines
  have oldRead : readEntry db key (writeBack.cache.lookup key) = stack.current key := by
    rw [← readEq]
    rfl
  exact ⟨readEq, unwinds_record (fun _ _ => rfl) oldRead unwinds,
    ⟨clean.cache, agrees_record clean.recorded fun old found => clean.cache key old found⟩⟩

/-- A write through a reference: the newest checkpoint already holds the
key's record. -/
theorem Refines.put (refines : Refines db writeBack stack) {key : Key}
    (recorded : ∀ checkpoint ∈ writeBack.checkpoints.head?, key ∈ checkpoint) (item : Item) :
    Refines db (writeBack.put key item) (stack.update (Function.update · key (some item))) := by
  obtain ⟨readEq, unwinds, clean⟩ := refines
  refine ⟨?_, ?_, ⟨?_, clean.recorded⟩⟩
  · funext other
    by_cases same : other = key
    · subst same
      simp [WriteBack.put, read, readEntry, Snapshots.Stack.update]
    · simp [WriteBack.put, read, AList.lookup_insert_ne same, ← readEq, Snapshots.Stack.update,
        Function.update_of_ne same]
  · -- the recorded key makes the newest revert ignore what the key reads as now
    change Unwinds db (Function.update stack.current key (some item)) writeBack.checkpoints stack.saved
    match stacked : writeBack.checkpoints, stack.saved, unwinds with
    | [], [], _ => trivial
    | last :: rest, newest :: older, ⟨reverted, unwindsRest⟩ =>
        have member := recorded last (by rw [stacked]; rfl)
        have same : readReverted db last (Function.update stack.current key (some item)) =
            readReverted db last stack.current :=
          readReverted_of_mem member fun other different => Function.update_of_ne different _ _
        exact ⟨same.trans reverted, unwindsRest⟩
  · intro other entry found
    by_cases same : other = key
    · subst same
      simp only [WriteBack.put, AList.lookup_insert, Option.some_inj] at found
      subst found
      intro clean
      cases clean
    · simp only [WriteBack.put, AList.lookup_insert_ne same] at found
      exact clean.cache other entry found

theorem Refines.get (refines : Refines db writeBack stack) (key : Key) :
    (writeBack.get db key).1 = stack.current key ∧ Refines db (writeBack.get db key).2 stack := by
  unfold WriteBack.get
  cases found : writeBack.cache.lookup key with
  | some entry =>
      refine ⟨?_, refines⟩
      rw [← refines.read_eq]
      simp [read, found, readEntry]
  | none =>
      refine ⟨?_, refines.insert_clean (AList.lookup_eq_none.mp found)⟩
      rw [← refines.read_eq]
      simp [read, found, readEntry]

theorem Refines.getMut [Inhabited Item] (refines : Refines db writeBack stack) (key : Key) :
    (writeBack.getMut db key).1 = (stack.current key).getD default ∧
      (∀ checkpoint ∈ (writeBack.getMut db key).2.checkpoints.head?, key ∈ checkpoint) ∧
      Refines db (writeBack.getMut db key).2
        (stack.update (Function.update · key (some (writeBack.getMut db key).1))) := by
  -- loading the entry changes no read, and noting it records it
  have loaded : Refines db
      (if key ∈ writeBack.cache then writeBack else writeBack.insert key ⟨db key, false⟩) stack := by
    split
    · exact refines
    · exact refines.insert_clean ‹_›
  have noted := loaded.note key
  have item : (((if key ∈ writeBack.cache then writeBack else
      writeBack.insert key ⟨db key, false⟩).note key).cache.lookup key).bind Entry.item =
      stack.current key := by
    rw [← noted.read_eq]
    split
    · rename_i cached
      obtain ⟨entry, found⟩ := Option.isSome_iff_exists.mp (AList.lookup_isSome.mpr cached)
      simp [WriteBack.note, read, found, readEntry]
    · simp [WriteBack.note, WriteBack.insert, read, readEntry]
  refine ⟨by simp only [WriteBack.getMut, item], mem_record_head _ _ _, ?_⟩
  exact noted.put (mem_record_head _ _ _) _

theorem Refines.create {ε : Type} (refines : Refines db writeBack stack) {key : Key} {item : Item}
    {created : WriteBack Key Item} (ok : (writeBack.create key item : Except (Fault ε) _) = .ok created) :
    Refines db created (stack.update (Function.update · key (some item))) := by
  have inserted : created = writeBack.insert key ⟨some item, true⟩ := by
    simp only [WriteBack.create] at ok
    split at ok
    · simp only [Fault.bind_eq_ok, Fault.pure_eq_ok] at ok
      obtain ⟨-, -, inserted⟩ := ok
      exact inserted.symm
    · exact (Fault.pure_eq_ok.mp ok).symm
  subst inserted
  exact refines.insert_dirty key rfl

theorem Refines.remove (refines : Refines db writeBack stack) (key : Key) :
    Refines db (writeBack.remove key) (stack.update (Function.update · key none)) :=
  refines.insert_dirty key rfl

end Refinement

end WriteBack

end State

end CodeChain
