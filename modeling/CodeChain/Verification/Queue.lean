import CodeChain.Lib.AListTotal

/-!
# The verification queue

`VerificationQueue` (`verification/queue/mod.rs`) takes blocks or headers in
(`import`), lets verifier threads check them out of order (`verify`, which
re-serialises the results through `Verifying` placeholders and
`drain_verifying`), and hands the results to the importer in import order
(`drain`).  The importer then marks each drained item good or bad
(`mark_as_good`, `mark_as_bad`); `mark_as_good` returns whether `processing`,
the map from every queued hash to its score, became empty, and the importer
notifies the chain of new blocks only then.

Each operation is one critical section, and a verifier thread runs two: it
takes an item, verifies it outside the locks, and records the outcome.  A run
is any interleaving of these steps.

A hash whose verification fails goes to `bad` and leaves `verifying`, but it
stays in `processing`: no queue holds it any more, so it is never drained, and
the importer only marks drained hashes.  From then on `processing` is never
empty again.  The total score, in contrast, is kept exactly.
-/

namespace CodeChain

namespace Verification

open AListTotal

/-- Why `K::create` failed: `BlockError::TemporarilyInvalid`, which does not
make the hash bad, or any other error. -/
inductive CreateError where
  | temporarilyInvalid
  | invalid
  deriving DecidableEq, Repr

/-- The errors of `import`. -/
inductive ImportError where
  | alreadyQueued
  | knownBad
  | create (error : CreateError)
  deriving DecidableEq, Repr

/-- What the queue reads of a kind of item (`kind.rs`): the hashes of inputs,
of items to verify and of verified items, the score of an item, and
`K::create`, which keeps the hash of its input. -/
structure Kind (Hash Input Unverified Verified : Type) where
  inputHash : Input → Hash
  inputParentHash : Input → Hash
  create : Input → Except CreateError Unverified
  hash : Unverified → Hash
  score : Unverified → ℕ
  verifiedHash : Verified → Hash
  verifiedParentHash : Verified → Hash
  create_hash : ∀ input item, create input = .ok item → hash item = inputHash input

/-- An item being verified: its hash, and its result once the verifier thread
recorded it. -/
structure Verifying (Hash Verified : Type) where
  hash : Hash
  output : Option Verified

/-- The queues, the bad hashes, the scores of the queued hashes and their
total.  The memory sizes are left out. -/
structure Queue (Hash Unverified Verified : Type) where
  unverified : List Unverified
  verifying : List (Verifying Hash Verified)
  verified : List Verified
  bad : Finset Hash
  processing : AList fun _ : Hash => ℕ
  totalScore : ℕ

variable {Hash Input Unverified Verified : Type} [DecidableEq Hash]
  (kind : Kind Hash Input Unverified Verified)

/-- A new queue. -/
def Queue.empty : Queue Hash Unverified Verified :=
  ⟨[], [], [], ∅, ∅, 0⟩

/-! ### The operations -/

/-- `VerificationQueue::import` (a keyword in Lean): refuse a queued or bad
hash and the child of a bad hash, then create the item and queue it with its
score. -/
def Queue.importItem (input : Input) (queue : Queue Hash Unverified Verified) :
    Except ImportError Hash × Queue Hash Unverified Verified :=
  let hash := kind.inputHash input
  if hash ∈ queue.processing then (.error .alreadyQueued, queue)
  else if hash ∈ queue.bad then (.error .knownBad, queue)
  else if kind.inputParentHash input ∈ queue.bad then
    (.error .knownBad, { queue with bad := insert hash queue.bad })
  else
    match kind.create input with
    | .ok item =>
        (.ok hash, { queue with
          processing := queue.processing.insert hash (kind.score item)
          totalScore := queue.totalScore + kind.score item
          unverified := queue.unverified ++ [item] })
    | .error .temporarilyInvalid => (.error (.create .temporarilyInvalid), queue)
    | .error .invalid => (.error (.create .invalid), { queue with bad := insert hash queue.bad })

/-- The first critical section of a verifier thread in `verify`: take the
oldest unverified item, and leave a placeholder for its result. -/
def Queue.takeUnverified (queue : Queue Hash Unverified Verified) :
    Option (Unverified × Queue Hash Unverified Verified) :=
  match queue.unverified with
  | [] => none
  | item :: rest =>
      some (item, { queue with
        unverified := rest
        verifying := queue.verifying ++ [⟨kind.hash item, none⟩] })

/-- `VerificationQueue::drain_verifying`: move the leading recorded results to
`verified`, or to `bad` when their parent is bad, up to the first placeholder
still waiting. -/
def drainVerifying : List (Verifying Hash Verified) → List Verified → Finset Hash →
    List (Verifying Hash Verified) × List Verified × Finset Hash
  | [], verified, bad => ([], verified, bad)
  | entry :: rest, verified, bad =>
      match entry.output with
      | none => (entry :: rest, verified, bad)
      | some output =>
          if kind.verifiedParentHash output ∈ bad then
            drainVerifying rest verified (insert (kind.verifiedHash output) bad)
          else drainVerifying rest (verified ++ [output]) bad

/-- The loop of `verify` over `verifying`: record the result in the first
placeholder of `hash`, and return that placeholder's index. -/
def storeOutput (hash : Hash) (output : Verified) :
    List (Verifying Hash Verified) → Option ℕ × List (Verifying Hash Verified)
  | [] => (none, [])
  | entry :: rest =>
      if entry.hash = hash then (some 0, { entry with output := some output } :: rest)
      else
        let stored := storeOutput hash output rest
        (stored.1.map (· + 1), entry :: stored.2)

/-- `drain_verifying` on the queue's own lists. -/
def Queue.drainVerifying (queue : Queue Hash Unverified Verified) :
    Queue Hash Unverified Verified :=
  let drained := Verification.drainVerifying kind queue.verifying queue.verified queue.bad
  { queue with verifying := drained.1, verified := drained.2.1, bad := drained.2.2 }

/-- The second critical section of a verifier thread: record the outcome of
`K::verify` for the item it took, `none` for an `Err`.  A result is drained
when its placeholder comes first; a failure makes the hash bad and drops its
placeholders.  The boolean is whether the ready signal is sent. -/
def Queue.finishVerify (item : Unverified) (outcome : Option Verified)
    (queue : Queue Hash Unverified Verified) : Bool × Queue Hash Unverified Verified :=
  let hash := kind.hash item
  match outcome with
  | some output =>
      let stored := storeOutput hash output queue.verifying
      let queue := { queue with verifying := stored.2 }
      if stored.1 = some 0 then (true, queue.drainVerifying kind) else (false, queue)
  | none =>
      -- `processing` keeps the hash: only `mark_as_good` and `mark_as_bad` remove one
      let queue := { queue with
        bad := insert hash queue.bad
        verifying := queue.verifying.filter fun entry => entry.hash ≠ hash }
      if (queue.verifying.head?.map fun entry => entry.output.isSome).getD false then
        (true, queue.drainVerifying kind)
      else (false, queue)

/-- `VerificationQueue::drain`: up to `max` verified items, oldest first. -/
def Queue.drain (max : ℕ) (queue : Queue Hash Unverified Verified) :
    List Verified × Queue Hash Unverified Verified :=
  (queue.verified.take max, { queue with verified := queue.verified.drop max })

/-- Remove a hash from `processing` and take its score off `total_score`, as
`mark_as_good` and `mark_as_bad` do for each hash. -/
def Queue.unmark (queue : Queue Hash Unverified Verified) (hash : Hash) :
    Queue Hash Unverified Verified :=
  match queue.processing.lookup hash with
  | some score =>
      { queue with processing := queue.processing.erase hash, totalScore := queue.totalScore - score }
  | none => queue

/-- `VerificationQueue::mark_as_good`: unmark the hashes; whether `processing`
is now empty. -/
def Queue.markAsGood (hashes : List Hash) (queue : Queue Hash Unverified Verified) :
    Bool × Queue Hash Unverified Verified :=
  if hashes.isEmpty then (queue.processing.entries.isEmpty, queue)
  else
    let queue := hashes.foldl Queue.unmark queue
    (queue.processing.entries.isEmpty, queue)

/-- The loop of `mark_as_bad` over the old `verified`: drop, make bad and
unmark every result whose parent is bad, the bad set growing as it goes; keep
the others in order. -/
def dropBadChildren (queue : Queue Hash Unverified Verified) (output : Verified) :
    Queue Hash Unverified Verified :=
  if kind.verifiedParentHash output ∈ queue.bad then
    { queue with bad := insert (kind.verifiedHash output) queue.bad }.unmark (kind.verifiedHash output)
  else { queue with verified := queue.verified ++ [output] }

/-- `VerificationQueue::mark_as_bad`: make the hashes bad and unmark them,
then drop their verified descendants. -/
def Queue.markAsBad (hashes : List Hash) (queue : Queue Hash Unverified Verified) :
    Queue Hash Unverified Verified :=
  if hashes.isEmpty then queue
  else
    let marked := hashes.foldl
      (fun queue hash => { queue with bad := insert hash queue.bad }.unmark hash) queue
    marked.verified.foldl (dropBadChildren kind) { marked with verified := [] }

/-- The loop of `Importer::import_verified_blocks` over the drained items: the
child of an item found invalid in this round is invalid; otherwise `accepts`
says whether the client imported it.  The imported hashes, then the invalid
ones. -/
def classify (accepts : Verified → Bool) (blocks : List Verified) : List Hash × List Hash :=
  blocks.foldl (fun (found : List Hash × List Hash) block =>
    if kind.verifiedParentHash block ∈ found.2 then (found.1, found.2 ++ [kind.verifiedHash block])
    else if accepts block then (found.1 ++ [kind.verifiedHash block], found.2)
    else (found.1, found.2 ++ [kind.verifiedHash block])) ([], [])

/-- `Importer::import_verified_blocks` as the queue sees it: drain up to 1000
items, mark the invalid ones bad and the imported ones good.  `none` when
nothing was drained, and otherwise the `is_empty` that gates the notification
of new blocks. -/
def Queue.importVerified (accepts : Verified → Bool) (queue : Queue Hash Unverified Verified) :
    Option Bool × Queue Hash Unverified Verified :=
  let drained := queue.drain 1000
  if drained.1.isEmpty then (none, drained.2)
  else
    let classified := classify kind accepts drained.1
    let queue := if classified.2.isEmpty then drained.2 else drained.2.markAsBad kind classified.2
    let marked := queue.markAsGood classified.1
    (some marked.1, marked.2)

/-- One critical section of any thread.  A verifier may record the outcome of
any item; a result keeps the hash of its item. -/
inductive Step : Queue Hash Unverified Verified → Queue Hash Unverified Verified → Prop
  | importItem (queue : Queue Hash Unverified Verified) (input : Input) :
      Step queue (queue.importItem kind input).2
  | takeUnverified {queue queue' : Queue Hash Unverified Verified} {item : Unverified}
      (taken : queue.takeUnverified kind = some (item, queue')) : Step queue queue'
  | finishVerify (queue : Queue Hash Unverified Verified) (item : Unverified)
      (outcome : Option Verified) (keepsHash : ∀ output ∈ outcome, kind.verifiedHash output = kind.hash item) :
      Step queue (queue.finishVerify kind item outcome).2
  | importVerified (queue : Queue Hash Unverified Verified) (accepts : Verified → Bool) :
      Step queue (queue.importVerified kind accepts).2

/-! ### What the list operations keep -/

theorem drainVerifying_suffix (verifying : List (Verifying Hash Verified))
    (verified : List Verified) (bad : Finset Hash) :
    (drainVerifying kind verifying verified bad).1 <:+ verifying := by
  fun_induction drainVerifying kind verifying verified bad with
  | case1 => exact List.suffix_refl _
  | case2 => exact List.suffix_refl _
  | case3 entry rest _ _ _ _ _ ih => exact ih.trans (List.suffix_cons entry rest)
  | case4 entry rest _ _ _ _ _ ih => exact ih.trans (List.suffix_cons entry rest)

/-- A drained result comes from a placeholder. -/
theorem mem_drainVerifying_verified {verifying : List (Verifying Hash Verified)}
    {verified : List Verified} {bad : Finset Hash} {output : Verified}
    (member : output ∈ (drainVerifying kind verifying verified bad).2.1) :
    output ∈ verified ∨ ∃ entry ∈ verifying, entry.output = some output := by
  fun_induction drainVerifying kind verifying verified bad with
  | case1 => exact Or.inl member
  | case2 => exact Or.inl member
  | case3 entry rest _ _ _ _ _ ih =>
    rcases ih member with old | ⟨later, laterMember, recorded⟩
    · exact Or.inl old
    · exact Or.inr ⟨later, List.mem_cons_of_mem entry laterMember, recorded⟩
  | case4 entry rest _ _ recordedOutput recordedEq _ ih =>
    rcases ih member with old | ⟨later, laterMember, recorded⟩
    · rcases List.mem_append.1 old with old | drained
      · exact Or.inl old
      · rw [List.mem_singleton.1 drained]
        exact Or.inr ⟨entry, List.mem_cons_self, recordedEq⟩
    · exact Or.inr ⟨later, List.mem_cons_of_mem entry laterMember, recorded⟩

/-- `storeOutput` changes one placeholder of the hash, and nothing else. -/
theorem mem_storeOutput {hash : Hash} {output : Verified}
    {verifying : List (Verifying Hash Verified)} {entry : Verifying Hash Verified}
    (member : entry ∈ (storeOutput hash output verifying).2) :
    entry ∈ verifying ∨
      ∃ old ∈ verifying, old.hash = hash ∧ entry = { old with output := some output } := by
  fun_induction storeOutput hash output verifying with
  | case1 => exact Or.inl member
  | case2 first rest found =>
    rcases List.mem_cons.1 member with stored | later
    · exact Or.inr ⟨first, List.mem_cons_self, found, stored⟩
    · exact Or.inl (List.mem_cons_of_mem first later)
  | case3 first rest _ _ ih =>
    rcases List.mem_cons.1 member with same | later
    · exact Or.inl (same ▸ List.mem_cons_self)
    · rcases ih later with old | ⟨old, oldMember, oldHash, stored⟩
      · exact Or.inl (List.mem_cons_of_mem first old)
      · exact Or.inr ⟨old, List.mem_cons_of_mem first oldMember, oldHash, stored⟩

/-- The importer only marks hashes of the items it drained. -/
theorem classify_subset (accepts : Verified → Bool) (blocks : List Verified) :
    (classify kind accepts blocks).1 ++ (classify kind accepts blocks).2 ⊆
      blocks.map kind.verifiedHash := by
  refine List.foldlRecOn
    (motive := fun (found : List Hash × List Hash) => found.1 ++ found.2 ⊆ blocks.map kind.verifiedHash)
    blocks _ (by simp) ?_
  intro found classified block member
  have drained : kind.verifiedHash block ∈ blocks.map kind.verifiedHash := List.mem_map_of_mem member
  rw [List.append_subset] at classified
  split_ifs <;> simp [List.append_subset, classified.1, classified.2, drained]

/-- `mark_as_good` answers whether the `processing` it leaves is empty. -/
theorem markAsGood_fst (hashes : List Hash) (queue : Queue Hash Unverified Verified) :
    (queue.markAsGood hashes).1 = (queue.markAsGood hashes).2.processing.entries.isEmpty := by
  unfold Queue.markAsGood
  split <;> rfl

/-- The importer reports `is_empty` for the queue it leaves. -/
theorem importVerified_fst (accepts : Verified → Bool) (queue : Queue Hash Unverified Verified) :
    (queue.importVerified kind accepts).1 = none ∨
      (queue.importVerified kind accepts).1 =
        some (queue.importVerified kind accepts).2.processing.entries.isEmpty := by
  unfold Queue.importVerified
  dsimp only
  split
  · exact Or.inl rfl
  · exact Or.inr (congrArg some (markAsGood_fst _ _))

omit [DecidableEq Hash] in
theorem isEmpty_entries_of_mem {processing : AList fun _ : Hash => ℕ} {hash : Hash}
    (member : hash ∈ processing) : processing.entries.isEmpty = false := by
  rw [AList.mem_keys, AList.keys] at member
  cases queued : processing.entries with
  | nil => simp [queued] at member
  | cons => rfl

/-! ### A hash that stays in `processing`

A failed `K::verify` leaves its hash in `processing` while no queue holds an
item, a placeholder or a result of it.  Every step keeps that: the hash can
not be imported again, since it is queued, and the importer only marks hashes
it drained. -/

/-- The hash is queued, and nothing of it is left to drain. -/
structure Stuck (queue : Queue Hash Unverified Verified) (hash : Hash) : Prop where
  processing : hash ∈ queue.processing
  unverified : ∀ item ∈ queue.unverified, kind.hash item ≠ hash
  placeholders : ∀ entry ∈ queue.verifying, entry.hash ≠ hash
  outputs : ∀ entry ∈ queue.verifying, ∀ output ∈ entry.output, kind.verifiedHash output ≠ hash
  verified : ∀ output ∈ queue.verified, kind.verifiedHash output ≠ hash

section Stuck

variable {kind} {queue : Queue Hash Unverified Verified} {hash : Hash}

omit [DecidableEq Hash] in
theorem Stuck.withBad (stuck : Stuck kind queue hash) (bad : Finset Hash) :
    Stuck kind { queue with bad := bad } hash :=
  ⟨stuck.processing, stuck.unverified, stuck.placeholders, stuck.outputs, stuck.verified⟩

theorem Stuck.importItem (stuck : Stuck kind queue hash) (input : Input) :
    Stuck kind (queue.importItem kind input).2 hash := by
  unfold Queue.importItem
  dsimp only
  by_cases queued : kind.inputHash input ∈ queue.processing
  · rw [if_pos queued]
    exact stuck
  rw [if_neg queued]
  have other : kind.inputHash input ≠ hash := fun same => queued (same ▸ stuck.processing)
  split_ifs
  · exact stuck
  · exact stuck.withBad _
  split
  case h_1 item created =>
    -- the new item carries the hash of its input, which is not the stuck one
    have itemHash := kind.create_hash input item created
    refine ⟨(AList.mem_insert _).2 (Or.inr stuck.processing), ?_, stuck.placeholders, stuck.outputs,
      stuck.verified⟩
    simp only [List.mem_append, List.mem_singleton]
    rintro queued (old | rfl)
    · exact stuck.unverified queued old
    · exact itemHash ▸ other
  case h_2 => exact stuck
  case h_3 => exact stuck.withBad _

omit [DecidableEq Hash] in
theorem Stuck.takeUnverified (stuck : Stuck kind queue hash) {item : Unverified}
    {queue' : Queue Hash Unverified Verified}
    (taken : queue.takeUnverified kind = some (item, queue')) : Stuck kind queue' hash := by
  unfold Queue.takeUnverified at taken
  split at taken
  case h_1 => cases taken
  case h_2 first rest listed =>
    simp only [Option.some.injEq, Prod.mk.injEq] at taken
    obtain ⟨rfl, rfl⟩ := taken
    have firstOther : kind.hash first ≠ hash := stuck.unverified first (by simp [listed])
    refine ⟨stuck.processing, fun later member => stuck.unverified later (by simp [listed, member]),
      ?_, ?_, stuck.verified⟩
    · simp only [List.mem_append, List.mem_singleton]
      rintro entry (old | rfl)
      · exact stuck.placeholders entry old
      · exact firstOther
    · simp only [List.mem_append, List.mem_singleton]
      rintro entry (old | rfl)
      · exact stuck.outputs entry old
      · nofun

theorem Stuck.drainVerifying (stuck : Stuck kind queue hash) :
    Stuck kind (queue.drainVerifying kind) hash := by
  have kept := drainVerifying_suffix kind queue.verifying queue.verified queue.bad
  refine ⟨stuck.processing, stuck.unverified,
    fun entry member => stuck.placeholders entry (kept.subset member),
    fun entry member => stuck.outputs entry (kept.subset member), ?_⟩
  intro output member
  rcases mem_drainVerifying_verified kind member with old | ⟨entry, entryMember, recorded⟩
  · exact stuck.verified output old
  · exact stuck.outputs entry entryMember output recorded

theorem Stuck.storeOutput (stuck : Stuck kind queue hash) {itemHash : Hash} {output : Verified}
    (keepsHash : kind.verifiedHash output = itemHash) :
    Stuck kind { queue with verifying := (storeOutput itemHash output queue.verifying).2 } hash := by
  refine ⟨stuck.processing, stuck.unverified, ?_, ?_, stuck.verified⟩
  · intro entry member
    rcases mem_storeOutput member with old | ⟨old, oldMember, -, rfl⟩
    · exact stuck.placeholders entry old
    · exact stuck.placeholders old oldMember
  · intro entry member stored storedMember
    rcases mem_storeOutput member with old | ⟨old, oldMember, oldHash, rfl⟩
    · exact stuck.outputs entry old stored storedMember
    · -- the recorded result has the hash of its placeholder
      simp only [Option.mem_def, Option.some.injEq] at storedMember
      subst storedMember
      rw [keepsHash, ← oldHash]
      exact stuck.placeholders old oldMember

theorem Stuck.finishVerify (stuck : Stuck kind queue hash) (item : Unverified)
    (outcome : Option Verified)
    (keepsHash : ∀ output ∈ outcome, kind.verifiedHash output = kind.hash item) :
    Stuck kind (queue.finishVerify kind item outcome).2 hash := by
  cases outcome with
  | some output =>
    have stored := stuck.storeOutput (keepsHash output rfl)
    unfold Queue.finishVerify
    dsimp only
    split
    · exact stored.drainVerifying
    · exact stored
  | none =>
    have filtered : Stuck kind { queue with
        bad := insert (kind.hash item) queue.bad
        verifying := queue.verifying.filter fun entry => entry.hash ≠ kind.hash item } hash :=
      ⟨stuck.processing, stuck.unverified,
        fun entry member => stuck.placeholders entry (List.mem_filter.1 member).1,
        fun entry member => stuck.outputs entry (List.mem_filter.1 member).1, stuck.verified⟩
    unfold Queue.finishVerify
    dsimp only
    split
    · exact filtered.drainVerifying
    · exact filtered

theorem Stuck.unmark (stuck : Stuck kind queue hash) {removed : Hash} (other : removed ≠ hash) :
    Stuck kind (queue.unmark removed) hash := by
  unfold Queue.unmark
  split
  · exact ⟨AList.mem_erase.2 ⟨other.symm, stuck.processing⟩, stuck.unverified, stuck.placeholders,
      stuck.outputs, stuck.verified⟩
  · exact stuck

theorem Stuck.markAsGood (stuck : Stuck kind queue hash) {hashes : List Hash}
    (others : hash ∉ hashes) : Stuck kind (queue.markAsGood hashes).2 hash := by
  unfold Queue.markAsGood
  split
  · exact stuck
  · exact List.foldlRecOn (motive := fun queue => Stuck kind queue hash) hashes _ stuck
      fun _ current removed member => current.unmark fun same => others (same ▸ member)

theorem Stuck.dropBadChildren (stuck : Stuck kind queue hash) {output : Verified}
    (other : kind.verifiedHash output ≠ hash) : Stuck kind (dropBadChildren kind queue output) hash := by
  unfold Verification.dropBadChildren
  split
  · exact (stuck.withBad _).unmark other
  · refine ⟨stuck.processing, stuck.unverified, stuck.placeholders, stuck.outputs, ?_⟩
    simp only [List.mem_append, List.mem_singleton]
    rintro kept (old | rfl)
    · exact stuck.verified kept old
    · exact other

theorem Stuck.markAsBad (stuck : Stuck kind queue hash) {hashes : List Hash}
    (others : hash ∉ hashes) : Stuck kind (queue.markAsBad kind hashes) hash := by
  unfold Queue.markAsBad
  split
  · exact stuck
  -- first the given hashes, then the verified results the second loop walks over
  have marked := List.foldlRecOn (motive := fun queue => Stuck kind queue hash) hashes
    (fun queue removed => { queue with bad := insert removed queue.bad }.unmark removed) stuck
    fun _ current removed member => (current.withBad _).unmark fun same => others (same ▸ member)
  exact List.foldlRecOn (motive := fun queue => Stuck kind queue hash) _ _
    ⟨marked.processing, marked.unverified, marked.placeholders, marked.outputs, nofun⟩
    fun _ current output member => current.dropBadChildren (marked.verified output member)

theorem Stuck.importVerified (stuck : Stuck kind queue hash) (accepts : Verified → Bool) :
    Stuck kind (queue.importVerified kind accepts).2 hash := by
  have drained : Stuck kind (queue.drain 1000).2 hash :=
    ⟨stuck.processing, stuck.unverified, stuck.placeholders, stuck.outputs,
      fun output member => stuck.verified output (List.mem_of_mem_drop member)⟩
  -- the hashes the importer marks are those of drained items, none of which is the stuck one
  have others : hash ∉ (classify kind accepts (queue.drain 1000).1).1 ++
      (classify kind accepts (queue.drain 1000).1).2 := by
    intro member
    obtain ⟨block, blockMember, same⟩ := List.mem_map.1 (classify_subset kind accepts _ member)
    exact stuck.verified block (List.mem_of_mem_take blockMember) same
  unfold Queue.importVerified
  dsimp only
  split
  · exact drained
  · refine Stuck.markAsGood ?_ fun imported => others (List.mem_append_left _ imported)
    split
    · exact drained
    · exact drained.markAsBad fun invalid => others (List.mem_append_right _ invalid)

theorem Stuck.step (stuck : Stuck kind queue hash) {queue' : Queue Hash Unverified Verified}
    (step : Step kind queue queue') : Stuck kind queue' hash := by
  cases step with
  | importItem input => exact stuck.importItem input
  | takeUnverified taken => exact stuck.takeUnverified taken
  | finishVerify item outcome keepsHash => exact stuck.finishVerify item outcome keepsHash
  | importVerified accepts => exact stuck.importVerified accepts

theorem Stuck.run (stuck : Stuck kind queue hash) {queue' : Queue Hash Unverified Verified}
    (run : Relation.ReflTransGen (Step kind) queue queue') : Stuck kind queue' hash := by
  induction run with
  | refl => exact stuck
  | tail _ step stuckBefore => exact stuckBefore.step step

/-- Once a hash is stuck, the importer's `is_empty` never holds again, on any
run: the chain is not notified of the blocks it imports. -/
theorem Stuck.importVerified_ne_some_true (stuck : Stuck kind queue hash)
    {later : Queue Hash Unverified Verified} (run : Relation.ReflTransGen (Step kind) queue later)
    (accepts : Verified → Bool) : (later.importVerified kind accepts).1 ≠ some true := by
  have queued := ((stuck.run run).importVerified accepts).processing
  rcases importVerified_fst kind accepts later with nothing | reported
  · rw [nothing]
    nofun
  · rw [reported, isEmpty_entries_of_mem queued]
    nofun

end Stuck

/-! ### The total score

Every hash leaves `processing` through `unmark`, which takes its own score off
the total, so `total_score` stays the sum of the scores in `processing` on
every run, and the subtraction in `mark_as_good` never needs more than is
there. -/

/-- `total_score` is the sum of the scores in `processing`. -/
def ScoreExact (queue : Queue Hash Unverified Verified) : Prop :=
  queue.totalScore = total id queue.processing

section Score

variable {kind} {queue : Queue Hash Unverified Verified}

omit [DecidableEq Hash] in
theorem scoreExact_empty : ScoreExact (Queue.empty : Queue Hash Unverified Verified) :=
  rfl

theorem ScoreExact.importItem (exactly : ScoreExact queue) (input : Input) :
    ScoreExact (queue.importItem kind input).2 := by
  unfold Queue.importItem
  dsimp only
  by_cases queued : kind.inputHash input ∈ queue.processing
  · rw [if_pos queued]
    exact exactly
  rw [if_neg queued]
  split_ifs
  · exact exactly
  · exact exactly
  split
  case h_1 item _ =>
    -- the hash is fresh, so its score is added to the total
    have fresh : valueAt id queue.processing (kind.inputHash input) = 0 := by
      simp [valueAt, AList.lookup_eq_none.2 queued]
    have inserted :=
      total_insert_add_valueAt id queue.processing (kind.inputHash input) (kind.score item)
    show queue.totalScore + kind.score item = total id (queue.processing.insert _ _)
    rw [fresh, id] at inserted
    rw [exactly]
    omega
  case h_2 => exact exactly
  case h_3 => exact exactly

omit [DecidableEq Hash] in
theorem ScoreExact.takeUnverified (exactly : ScoreExact queue) {item : Unverified}
    {queue' : Queue Hash Unverified Verified}
    (taken : queue.takeUnverified kind = some (item, queue')) : ScoreExact queue' := by
  unfold Queue.takeUnverified at taken
  split at taken
  case h_1 => cases taken
  case h_2 =>
    simp only [Option.some.injEq, Prod.mk.injEq] at taken
    obtain ⟨rfl, rfl⟩ := taken
    exact exactly

/-- Recording an outcome touches neither `processing` nor the total. -/
theorem ScoreExact.finishVerify (exactly : ScoreExact queue) (item : Unverified)
    (outcome : Option Verified) : ScoreExact (queue.finishVerify kind item outcome).2 := by
  unfold Queue.finishVerify
  cases outcome <;> dsimp only <;> split <;> exact exactly

theorem ScoreExact.unmark (exactly : ScoreExact queue) (removed : Hash) :
    ScoreExact (queue.unmark removed) := by
  unfold Queue.unmark
  split
  case h_1 score found =>
    have erased := total_erase_add_valueAt id queue.processing removed
    have stored : valueAt id queue.processing removed = score := by simp [valueAt, found]
    show queue.totalScore - score = total id (queue.processing.erase removed)
    rw [exactly]
    omega
  case h_2 => exact exactly

theorem ScoreExact.markAsGood (exactly : ScoreExact queue) (hashes : List Hash) :
    ScoreExact (queue.markAsGood hashes).2 := by
  unfold Queue.markAsGood
  split
  · exact exactly
  · exact List.foldlRecOn (motive := ScoreExact) hashes _ exactly
      fun _ current removed _ => current.unmark removed

omit [DecidableEq Hash] in
theorem ScoreExact.withBad (exactly : ScoreExact queue) (bad : Finset Hash) :
    ScoreExact { queue with bad := bad } :=
  exactly

theorem ScoreExact.dropBadChildren (exactly : ScoreExact queue) (output : Verified) :
    ScoreExact (dropBadChildren kind queue output) := by
  unfold Verification.dropBadChildren
  split
  · exact (exactly.withBad (insert (kind.verifiedHash output) queue.bad)).unmark _
  · exact exactly

theorem ScoreExact.markAsBad (exactly : ScoreExact queue) (hashes : List Hash) :
    ScoreExact (queue.markAsBad kind hashes) := by
  unfold Queue.markAsBad
  split
  · exact exactly
  have marked := List.foldlRecOn (motive := ScoreExact) hashes
    (fun queue removed => { queue with bad := insert removed queue.bad }.unmark removed) exactly
    fun current scored removed _ => (scored.withBad (insert removed current.bad)).unmark removed
  exact List.foldlRecOn (motive := ScoreExact) _ _ marked
    fun _ scored output _ => scored.dropBadChildren output

theorem ScoreExact.importVerified (exactly : ScoreExact queue) (accepts : Verified → Bool) :
    ScoreExact (queue.importVerified kind accepts).2 := by
  have drained : ScoreExact (queue.drain 1000).2 := exactly
  unfold Queue.importVerified
  dsimp only
  split
  · exact drained
  · refine ScoreExact.markAsGood ?_ _
    split
    · exact drained
    · exact drained.markAsBad _

theorem ScoreExact.step (exactly : ScoreExact queue) {queue' : Queue Hash Unverified Verified}
    (step : Step kind queue queue') : ScoreExact queue' := by
  cases step with
  | importItem input => exact exactly.importItem input
  | takeUnverified taken => exact exactly.takeUnverified taken
  | finishVerify item outcome => exact exactly.finishVerify item outcome
  | importVerified accepts => exact exactly.importVerified accepts

/-- On every run from a new queue, `total_score` is the sum of the scores in
`processing`. -/
theorem scoreExact_of_run {queue : Queue Hash Unverified Verified}
    (run : Relation.ReflTransGen (Step kind) Queue.empty queue) : ScoreExact queue := by
  induction run with
  | refl => exact scoreExact_empty
  | tail _ step exactBefore => exact exactBefore.step step

end Score

/-! ### A failed verification -/

/-- Items that are a pair of their hash and their parent's hash, each of
score one, and that `K::create` always accepts. -/
def pairKind : Kind ℕ (ℕ × ℕ) (ℕ × ℕ) (ℕ × ℕ) where
  inputHash := Prod.fst
  inputParentHash := Prod.snd
  create := .ok
  hash := Prod.fst
  score _ := 1
  verifiedHash := Prod.fst
  verifiedParentHash := Prod.snd
  create_hash := by
    rintro input item ⟨⟩
    rfl

/-- Import block 1 on a new queue, let a verifier take it, and let `K::verify`
fail: block 1 stays in `processing` while every queue is empty, and on no later
run does the importer find the queue empty. -/
theorem failed_verification_stays_processing :
    ∃ queue, Relation.ReflTransGen (Step pairKind) Queue.empty queue ∧
      queue.unverified = [] ∧ queue.verifying = [] ∧ queue.verified = [] ∧
      1 ∈ queue.processing ∧
      ∀ later, Relation.ReflTransGen (Step pairKind) queue later →
        1 ∈ later.processing ∧ ∀ accepts, (later.importVerified pairKind accepts).1 ≠ some true := by
  let imported := (Queue.empty.importItem pairKind (1, 0)).2
  let taken : Queue ℕ (ℕ × ℕ) (ℕ × ℕ) :=
    { imported with unverified := [], verifying := [⟨1, none⟩] }
  let failed := (taken.finishVerify pairKind (1, 0) none).2
  have take : imported.takeUnverified pairKind = some ((1, 0), taken) := rfl
  have run : Relation.ReflTransGen (Step pairKind) Queue.empty failed :=
    .tail (.tail (.single (.importItem _ (1, 0))) (.takeUnverified take))
      (.finishVerify _ (1, 0) none nofun)
  have stuck : Stuck pairKind failed 1 := ⟨by decide, nofun, nofun, nofun, nofun⟩
  exact ⟨failed, run, rfl, rfl, rfl, stuck.processing, fun later after =>
    ⟨(stuck.run after).processing, stuck.importVerified_ne_some_true after⟩⟩

end Verification

end CodeChain
