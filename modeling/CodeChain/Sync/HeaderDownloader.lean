import CodeChain.Blockchain.HeaderChain
import CodeChain.Lib.AListMap
import CodeChain.Sync.Message

/-!
# The header downloader of one peer

`HeaderDownloader` (`sync/src/block/downloader/header.rs`) keeps, for one peer,
the score and best hash the peer announced, a pivot (the header the next
request starts from, with the total score the downloader believes it has), the
headers downloaded from the peer and those handed to the client's queue.  A
response whose first header is the pivot moves the pivot to its last header and
adds the scores of the others; any other response moves the pivot back to its
parent.  The pivot's header is looked up in the queued headers, the downloaded
ones and the client, and `unwrap` panics when none has it.

On every run in which the client's headers are closed under parents, the
client reports only imported headers, and a peer sends the stored header for a
stored hash, the pivot is always stored, so looking it up never panics.  The
pivot's score is another matter: `update` copies the score a peer claims onto a
block the client knows, and from then on the pivot carries a score that is not
the block's.

Scores are `U256`, whose arithmetic panics on overflow; the clock is a number
of seconds.  `Extension::on_header_response`, which feeds the responses and
the import results in, is not modelled: its effects are the steps below.
-/

namespace CodeChain

namespace Sync

namespace Downloader

open Blockchain (Header)

/-- `MAX_HEADER_REQUEST_LENGTH`. -/
def maxHeaderRequestLength : UInt64 := 128

/-- `MAX_RETRY`. -/
def maxRetry : ℕ := 3

/-- `MAX_WAIT`, in seconds. -/
def maxWait : ℕ := 15

/-- `U256` addition, which panics on overflow. -/
def addScore {ε : Type} (score other : ℕ) : Except (Fault ε) ℕ :=
  if score + other < 2 ^ 256 then .ok (score + other) else .error (.panic "arithmetic operation overflow")

/-- `U256` subtraction, which panics below zero. -/
def subScore {ε : Type} (score other : ℕ) : Except (Fault ε) ℕ :=
  if other ≤ score then .ok (score - other) else .error (.panic "arithmetic operation overflow")

/-- `Pivot`. -/
structure Pivot (Hash : Type) where
  hash : Hash
  totalScore : ℕ
  deriving DecidableEq, Repr

/-- What the header downloader reads of the client: its headers, the total
scores of its blocks and its best block. -/
structure Client (Hash : Type) where
  blockHeader : Hash → Option (Header Hash)
  blockTotalScore : Hash → Option ℕ
  bestBlockHash : Hash

variable {Hash : Type} [DecidableEq Hash]

/-- `HeaderDownloader`, the client apart.  The hash maps are finite maps. -/
structure HeaderDownloader (Hash : Type) [DecidableEq Hash] where
  totalScore : ℕ
  bestHash : Hash
  pivot : Pivot Hash
  requestTime : Option ℕ
  downloaded : AList fun _ : Hash => Header Hash
  queued : AList fun _ : Hash => Header Hash
  trial : ℕ

namespace HeaderDownloader

variable (client : Client Hash)

/-- `HeaderDownloader::new`: the pivot is the client's best block. -/
def new {ε : Type} (totalScore : ℕ) (bestHash : Hash) : Except (Fault ε) (HeaderDownloader Hash) := do
  let bestScore ← Fault.expect (client.blockTotalScore client.bestBlockHash) "Best block always exist"
  pure
    { totalScore := totalScore
      bestHash := bestHash
      pivot := ⟨client.bestBlockHash, bestScore⟩
      requestTime := none
      downloaded := ∅
      queued := ∅
      trial := 0 }

/-- `HeaderDownloader::update`: take a higher score and best hash from the
peer, and make the best hash the pivot, with the peer's score, when the client
has its header. -/
def update (downloader : HeaderDownloader Hash) (totalScore : ℕ) (bestHash : Hash) :
    Bool × HeaderDownloader Hash :=
  if downloader.totalScore = totalScore then (true, downloader)
  else if downloader.totalScore < totalScore then
    if (client.blockHeader bestHash).isSome then
      (true, { downloader with totalScore := totalScore, bestHash := bestHash, pivot := ⟨bestHash, totalScore⟩ })
    else (true, { downloader with totalScore := totalScore, bestHash := bestHash })
  else (false, downloader)

/-- `is_valid`. -/
def isValid (downloader : HeaderDownloader Hash) : Bool :=
  decide (downloader.trial < maxRetry)

/-- `is_expired`, at the time `now`. -/
def isExpired (now : ℕ) (downloader : HeaderDownloader Hash) : Bool :=
  match downloader.requestTime with
  | some time => decide (maxWait < now - time)
  | none => false

/-- `pivot_header`: the pivot's header from the queued headers, the downloaded
ones or the client, in that order; `unwrap` panics when none has it. -/
def pivotHeader {ε : Type} (downloader : HeaderDownloader Hash) : Except (Fault ε) (Header Hash) :=
  match downloader.queued.lookup downloader.pivot.hash with
  | some header => .ok header
  | none =>
      match downloader.downloaded.lookup downloader.pivot.hash with
      | some header => .ok header
      | none =>
          Fault.expect (client.blockHeader downloader.pivot.hash) "called `Option::unwrap()` on a `None` value"

/-- `is_idle`. -/
def isIdle (now : ℕ) (downloader : HeaderDownloader Hash) : Bool :=
  let canRequest := downloader.requestTime.isNone && decide (downloader.pivot.totalScore < downloader.totalScore)
  downloader.isValid && (canRequest || downloader.isExpired now)

/-- `create_request`: when idle, ask for the headers from the pivot's number. -/
def createRequest {ε : Type} (now : ℕ) (downloader : HeaderDownloader Hash) :
    Except (Fault ε) (Option RequestMessage × HeaderDownloader Hash) :=
  if downloader.isIdle now then do
    let pivotHeader ← downloader.pivotHeader client
    pure (some (.headers (UInt64.ofNat pivotHeader.number) maxHeaderRequestLength),
      { downloader with requestTime := some now })
  else pure (none, downloader)

/-- The move of the pivot in `import_headers`: none once it reached the best
hash; forward to the last header when the response starts at the pivot; back to
the parent of the pivot's header otherwise, unless it is a genesis. -/
def movePivot {ε : Type} (downloader : HeaderDownloader Hash) (first : Header Hash)
    (headers : List (Header Hash)) : Except (Fault ε) (HeaderDownloader Hash) :=
  if downloader.bestHash = downloader.pivot.hash then pure downloader
  else if first.hash = downloader.pivot.hash then do
    let downloaded := headers.foldl (fun downloaded header => downloaded.insert header.hash header)
      downloader.downloaded
    let newScores ← (headers.drop 1).foldlM (fun acc header => addScore acc header.score) 0
    let last ← Fault.expect headers.getLast? "Last downloaded header must exist"
    let totalScore ← addScore downloader.pivot.totalScore newScores
    pure { downloader with downloaded := downloaded, pivot := ⟨last.hash, totalScore⟩ }
  else do
    let pivotHeader ← downloader.pivotHeader client
    if pivotHeader.number ≠ 0 then do
      let totalScore ← subScore downloader.pivot.totalScore pivotHeader.score
      pure { downloader with pivot := ⟨pivotHeader.parentHash, totalScore⟩ }
    else pure downloader

/-- `import_headers`: move the pivot and mark the request answered. -/
def importHeaders {ε : Type} (downloader : HeaderDownloader Hash) (headers : List (Header Hash)) :
    Except (Fault ε) (HeaderDownloader Hash) := do
  let first ← Fault.expect headers.head? "First header must exist"
  let moved ← movePivot client downloader first headers
  pure { moved with requestTime := none, trial := 0 }

/-- `mark_as_imported`: forget the queued headers of imported blocks, and make
the best hash the pivot, with the peer's score, once it is imported. -/
def markAsImported (downloader : HeaderDownloader Hash) (hashes : List Hash) : HeaderDownloader Hash :=
  hashes.foldl
    (fun downloader hash =>
      if downloader.bestHash = hash then
        { downloader with queued := downloader.queued.erase hash, pivot := ⟨hash, downloader.totalScore⟩ }
      else { downloader with queued := downloader.queued.erase hash })
    downloader

/-- `mark_as_queued`: move the downloaded headers of the given hashes to the
queued ones. -/
def markAsQueued (downloader : HeaderDownloader Hash) (hashes : List Hash) : HeaderDownloader Hash :=
  hashes.foldl
    (fun downloader hash =>
      match downloader.downloaded.lookup hash with
      | some header =>
          { downloader with
            downloaded := downloader.downloaded.erase hash
            queued := downloader.queued.insert hash header }
      | none => downloader)
    downloader

end HeaderDownloader

/-- The continuity check of `is_valid_response` for headers: each header is
one above the one before and names it as its parent. -/
def continuous : List (Header Hash) → Bool
  | parent :: child :: rest =>
      (child.number == parent.number + 1 && child.parentHash == parent.hash) && continuous (child :: rest)
  | _ => true

/-- In a continuous response, every header after the first names one of the
response as its parent. -/
theorem exists_parent_of_continuous {headers : List (Header Hash)} (chained : continuous headers = true)
    {header : Header Hash} (member : header ∈ headers.tail) :
    ∃ parent ∈ headers, parent.hash = header.parentHash := by
  induction headers with
  | nil => cases member
  | cons parent rest ih =>
      cases rest with
      | nil => cases member
      | cons child rest =>
          simp only [continuous, Bool.and_eq_true, beq_iff_eq] at chained
          obtain ⟨⟨-, named⟩, restChained⟩ := chained
          rcases List.mem_cons.mp member with rfl | later
          · exact ⟨parent, List.mem_cons_self, named.symm⟩
          · obtain ⟨other, otherMember, same⟩ := ih restChained later
            exact ⟨other, List.mem_cons_of_mem _ otherMember, same⟩

/-! ### Where the pivot's header is -/

namespace HeaderDownloader

variable (client : Client Hash)

/-- The queued headers, the downloaded ones or the client hold `header` under
`hash`. -/
def StoredAs (downloader : HeaderDownloader Hash) (hash : Hash) (header : Header Hash) : Prop :=
  downloader.queued.lookup hash = some header ∨ downloader.downloaded.lookup hash = some header ∨
    client.blockHeader hash = some header

/-- Some header is held under `hash`. -/
def Stored (downloader : HeaderDownloader Hash) (hash : Hash) : Prop :=
  ∃ header, downloader.StoredAs client hash header

/-- What keeps `pivot_header` from panicking: the pivot is stored, and so is
the parent of every stored header but a genesis. -/
structure Sound (downloader : HeaderDownloader Hash) : Prop where
  pivot : downloader.Stored client downloader.pivot.hash
  parents : ∀ hash header, downloader.StoredAs client hash header → header.number ≠ 0 →
    downloader.Stored client header.parentHash

variable {client}

/-- `pivot_header` returns one of the stored headers of the pivot. -/
theorem storedAs_of_pivotHeader {ε : Type} {downloader : HeaderDownloader Hash} {header : Header Hash}
    (found : (downloader.pivotHeader client : Except (Fault ε) _) = .ok header) :
    downloader.StoredAs client downloader.pivot.hash header := by
  unfold pivotHeader at found
  split at found
  · next inQueue =>
      cases found
      exact .inl inQueue
  · split at found
    · next inDownloaded =>
        cases found
        exact .inr (.inl inDownloaded)
    · exact .inr (.inr (Fault.expect_eq_ok.mp found))

/-- `pivot_header` returns when the pivot is stored. -/
theorem exists_pivotHeader {ε : Type} {downloader : HeaderDownloader Hash}
    (stored : downloader.Stored client downloader.pivot.hash) :
    ∃ header, (downloader.pivotHeader client : Except (Fault ε) _) = .ok header := by
  unfold pivotHeader
  obtain ⟨header, inQueue | inDownloaded | inClient⟩ := stored
  · exact ⟨header, by rw [inQueue]⟩
  · split
    · exact ⟨_, rfl⟩
    · exact ⟨header, by rw [inDownloaded]⟩
  · split
    · exact ⟨_, rfl⟩
    · split
      · exact ⟨_, rfl⟩
      · exact ⟨header, by rw [inClient]; rfl⟩

/-- A change that stores nothing new and forgets nothing keeps the invariant,
wherever the pivot goes among the stored hashes. -/
theorem Sound.of_storedAs {downloader downloader' : HeaderDownloader Hash} (sound : downloader.Sound client)
    (backwards : ∀ hash header, downloader'.StoredAs client hash header → downloader.StoredAs client hash header)
    (forwards : ∀ hash, downloader.Stored client hash → downloader'.Stored client hash)
    (pivotStored : downloader'.Stored client downloader'.pivot.hash) : downloader'.Sound client :=
  ⟨pivotStored, fun hash header stored nonzero =>
    forwards _ (sound.parents hash header (backwards hash header stored) nonzero)⟩

/-- With the same maps, the same headers are stored. -/
theorem storedAs_of_maps {downloader downloader' : HeaderDownloader Hash}
    (sameQueued : downloader'.queued = downloader.queued) (sameDownloaded : downloader'.downloaded = downloader.downloaded) :
    downloader'.StoredAs client = downloader.StoredAs client := by
  funext hash header
  rw [StoredAs, StoredAs, sameQueued, sameDownloaded]

/-- A change of the pivot alone, to a stored hash, keeps the invariant. -/
theorem Sound.of_maps {downloader downloader' : HeaderDownloader Hash} (sound : downloader.Sound client)
    (sameQueued : downloader'.queued = downloader.queued) (sameDownloaded : downloader'.downloaded = downloader.downloaded)
    (pivotStored : downloader.Stored client downloader'.pivot.hash) : downloader'.Sound client := by
  have same : downloader'.StoredAs client = downloader.StoredAs client := storedAs_of_maps sameQueued sameDownloaded
  refine sound.of_storedAs (fun hash header stored => ?_) (fun hash ⟨header, stored⟩ => ⟨header, ?_⟩) ?_
  · rwa [same] at stored
  · rwa [same]
  · obtain ⟨header, stored⟩ := pivotStored
    exact ⟨header, by rwa [same]⟩

/-! ### What each operation keeps -/

theorem Sound.update {downloader : HeaderDownloader Hash} (sound : downloader.Sound client) (totalScore : ℕ)
    (bestHash : Hash) : (downloader.update client totalScore bestHash).2.Sound client := by
  unfold HeaderDownloader.update
  split
  · exact sound
  · split
    · split
      · next known =>
          -- the pivot moves to the best hash, whose header the client has
          obtain ⟨header, found⟩ := Option.isSome_iff_exists.mp known
          exact sound.of_maps rfl rfl ⟨header, .inr (.inr found)⟩
      · exact sound.of_maps rfl rfl sound.pivot
    · exact sound

theorem Sound.createRequest {ε : Type} {downloader downloader' : HeaderDownloader Hash} {now : ℕ}
    {request : Option RequestMessage} (sound : downloader.Sound client)
    (created : (downloader.createRequest client now : Except (Fault ε) _) = .ok (request, downloader')) :
    downloader'.Sound client := by
  unfold HeaderDownloader.createRequest at created
  split at created
  · obtain ⟨header, -, result⟩ := Fault.bind_eq_ok.mp created
    simp only [Fault.pure_eq_ok, Prod.mk.injEq] at result
    obtain ⟨-, rfl⟩ := result
    exact sound.of_maps rfl rfl sound.pivot
  · simp only [Fault.pure_eq_ok, Prod.mk.injEq] at created
    obtain ⟨-, rfl⟩ := created
    exact sound

/-- One hash of `mark_as_queued`: its downloaded header, if any, moves to the
queued ones, so the same hashes stay stored. -/
theorem Sound.markAsQueued_step {downloader : HeaderDownloader Hash} (sound : downloader.Sound client)
    {hash : Hash} {header : Header Hash} (found : downloader.downloaded.lookup hash = some header) :
    ({ downloader with
        downloaded := downloader.downloaded.erase hash
        queued := downloader.queued.insert hash header } : HeaderDownloader Hash).Sound client := by
  refine sound.of_storedAs (fun other stored held => ?_) (fun other ⟨stored, held⟩ => ?_) ?_
  · -- what the moved maps hold, the old ones held
    rcases held with inQueue | inDownloaded | inClient
    · by_cases moved : other = hash
      · subst moved
        rw [AList.lookup_insert, Option.some_inj] at inQueue
        exact .inr (.inl (inQueue ▸ found))
      · exact .inl (by rwa [AList.lookup_insert_ne moved] at inQueue)
    · by_cases moved : other = hash
      · subst moved
        rw [AList.lookup_erase] at inDownloaded
        cases inDownloaded
      · exact .inr (.inl (by rwa [AList.lookup_erase_ne moved] at inDownloaded))
    · exact .inr (.inr inClient)
  · -- and every hash stored before is stored after
    by_cases moved : other = hash
    · subst moved
      exact ⟨header, .inl (AList.lookup_insert _)⟩
    · rcases held with inQueue | inDownloaded | inClient
      · exact ⟨stored, .inl (by rwa [AList.lookup_insert_ne moved])⟩
      · exact ⟨stored, .inr (.inl (by rwa [AList.lookup_erase_ne moved]))⟩
      · exact ⟨stored, .inr (.inr inClient)⟩
  · obtain ⟨stored, held⟩ := sound.pivot
    by_cases moved : downloader.pivot.hash = hash
    · rw [moved]
      exact ⟨header, .inl (AList.lookup_insert _)⟩
    · rcases held with inQueue | inDownloaded | inClient
      · exact ⟨stored, .inl (by rwa [AList.lookup_insert_ne moved])⟩
      · exact ⟨stored, .inr (.inl (by rwa [AList.lookup_erase_ne moved]))⟩
      · exact ⟨stored, .inr (.inr inClient)⟩

theorem Sound.markAsQueued {downloader : HeaderDownloader Hash} (sound : downloader.Sound client)
    (hashes : List Hash) : (downloader.markAsQueued hashes).Sound client := by
  -- one hash per turn of the loop
  induction hashes generalizing downloader with
  | nil => exact sound
  | cons hash rest ih =>
      unfold HeaderDownloader.markAsQueued at ih ⊢
      rw [List.foldl_cons]
      apply ih
      split
      · next header found => exact sound.markAsQueued_step found
      · exact sound

/-- One hash of `mark_as_imported`, whose header the client has: the queued
copy goes, and the pivot may move to it. -/
theorem Sound.markAsImported_step {downloader : HeaderDownloader Hash} (sound : downloader.Sound client)
    {hash : Hash} (imported : (client.blockHeader hash).isSome) (pivot : Pivot Hash)
    (pivotStored : pivot.hash = downloader.pivot.hash ∨ pivot.hash = hash) :
    ({ downloader with queued := downloader.queued.erase hash, pivot := pivot } : HeaderDownloader Hash).Sound
      client := by
  obtain ⟨inChain, chained⟩ := Option.isSome_iff_exists.mp imported
  have forwards : ∀ other, downloader.Stored client other →
      ({ downloader with queued := downloader.queued.erase hash, pivot := pivot } : HeaderDownloader Hash).Stored
        client other := by
    rintro other ⟨stored, inQueue | inDownloaded | inClient⟩
    · by_cases erased : other = hash
      · subst erased
        exact ⟨inChain, .inr (.inr chained)⟩
      · exact ⟨stored, .inl (by rwa [AList.lookup_erase_ne erased])⟩
    · exact ⟨stored, .inr (.inl inDownloaded)⟩
    · exact ⟨stored, .inr (.inr inClient)⟩
  refine sound.of_storedAs (fun other stored held => ?_) forwards ?_
  · rcases held with inQueue | inDownloaded | inClient
    · by_cases erased : other = hash
      · subst erased
        rw [AList.lookup_erase] at inQueue
        cases inQueue
      · exact .inl (by rwa [AList.lookup_erase_ne erased] at inQueue)
    · exact .inr (.inl inDownloaded)
    · exact .inr (.inr inClient)
  · rcases pivotStored with same | imported
    · exact forwards _ (same ▸ sound.pivot)
    · exact ⟨inChain, .inr (.inr (imported ▸ chained))⟩

theorem Sound.markAsImported {downloader : HeaderDownloader Hash} (sound : downloader.Sound client)
    {hashes : List Hash} (imported : ∀ hash ∈ hashes, (client.blockHeader hash).isSome) :
    (downloader.markAsImported hashes).Sound client := by
  induction hashes generalizing downloader with
  | nil => exact sound
  | cons hash rest ih =>
      unfold HeaderDownloader.markAsImported at ih ⊢
      rw [List.foldl_cons]
      refine ih ?_ fun other member => imported other (List.mem_cons_of_mem _ member)
      have chained := imported hash List.mem_cons_self
      split
      · exact sound.markAsImported_step chained _ (.inr rfl)
      · exact sound.markAsImported_step chained _ (.inl rfl)

/-- The forward move of `import_headers`: the response joins the downloaded
headers and the pivot goes to its last header. -/
theorem Sound.insertHeaders {downloader : HeaderDownloader Hash} (sound : downloader.Sound client)
    {first : Header Hash} {rest : List (Header Hash)} (chained : continuous (first :: rest) = true)
    (atPivot : first.hash = downloader.pivot.hash)
    (agrees : ∀ stored, downloader.StoredAs client first.hash stored → stored = first)
    {last : Header Hash} (lastMember : last ∈ first :: rest) (totalScore : ℕ) :
    ({ downloader with
        downloaded := (first :: rest).foldl (fun downloaded header => downloaded.insert header.hash header)
          downloader.downloaded
        pivot := ⟨last.hash, totalScore⟩ } : HeaderDownloader Hash).Sound client := by
  set inserted := (first :: rest).foldl (fun downloaded header => downloaded.insert header.hash header)
    downloader.downloaded
  have downloadedStored : ∀ other ∈ inserted,
      ({ downloader with downloaded := inserted, pivot := ⟨last.hash, totalScore⟩ } :
        HeaderDownloader Hash).Stored client other := by
    intro other member
    obtain ⟨header, found⟩ := Option.isSome_iff_exists.mp (AList.lookup_isSome.mpr member)
    exact ⟨header, .inr (.inl found)⟩
  have responseStored : ∀ header ∈ first :: rest,
      ({ downloader with downloaded := inserted, pivot := ⟨last.hash, totalScore⟩ } :
        HeaderDownloader Hash).Stored client header.hash :=
    fun header member => downloadedStored _
      ((AListMap.mem_foldl_insert_keyed _ _ _ _).mpr (.inl ⟨header, member, rfl⟩))
  have forwards : ∀ other, downloader.Stored client other →
      ({ downloader with downloaded := inserted, pivot := ⟨last.hash, totalScore⟩ } :
        HeaderDownloader Hash).Stored client other := by
    rintro other ⟨stored, inQueue | inDownloaded | inClient⟩
    · exact ⟨stored, .inl inQueue⟩
    · exact downloadedStored _ ((AListMap.mem_foldl_insert_keyed _ _ _ _).mpr
        (.inr (AList.lookup_isSome.mp (Option.isSome_iff_exists.mpr ⟨stored, inDownloaded⟩))))
    · exact ⟨stored, .inr (.inr inClient)⟩
  refine ⟨responseStored last lastMember, fun other header held nonzero => ?_⟩
  rcases held with inQueue | inDownloaded | inClient
  · exact forwards _ (sound.parents other header (.inl inQueue) nonzero)
  · rcases AListMap.lookup_foldl_insert_keyed_eq_some _ inDownloaded with ⟨member, -⟩ | before
    · rcases List.mem_cons.mp member with rfl | later
      · -- the first header is the pivot's stored header, whose parent is stored
        obtain ⟨stored, held⟩ := sound.pivot
        rw [← atPivot] at held
        have same := agrees stored held
        subst same
        exact forwards _ (sound.parents _ stored held nonzero)
      · -- a later one names an earlier one of the response
        obtain ⟨parent, parentMember, named⟩ := exists_parent_of_continuous chained later
        exact named ▸ responseStored parent parentMember
    · exact forwards _ (sound.parents other header (.inr (.inl before)) nonzero)
  · exact forwards _ (sound.parents other header (.inr (.inr inClient)) nonzero)

theorem Sound.importHeaders {ε : Type} {downloader downloader' : HeaderDownloader Hash}
    {headers : List (Header Hash)} (sound : downloader.Sound client) (chained : continuous headers = true)
    (agrees : ∀ first ∈ headers.head?, ∀ stored, downloader.StoredAs client first.hash stored → stored = first)
    (imported : (downloader.importHeaders client headers : Except (Fault ε) _) = .ok downloader') :
    downloader'.Sound client := by
  unfold HeaderDownloader.importHeaders at imported
  obtain ⟨first, hasFirst, imported⟩ := Fault.bind_eq_ok.mp imported
  obtain ⟨moved, movedEq, result⟩ := Fault.bind_eq_ok.mp imported
  rw [Fault.pure_eq_ok] at result
  subst result
  rw [Fault.expect_eq_ok] at hasFirst
  obtain ⟨rest, rfl⟩ : ∃ rest, headers = first :: rest := by
    cases headers with
    | nil => cases hasFirst
    | cons head rest =>
        cases hasFirst
        exact ⟨rest, rfl⟩
  have firstAgrees := agrees first rfl
  suffices movedSound : moved.Sound client from movedSound.of_maps rfl rfl movedSound.pivot
  unfold movePivot at movedEq
  split at movedEq
  · rw [Fault.pure_eq_ok] at movedEq
    exact movedEq ▸ sound
  · split at movedEq
    · next atPivot =>
        obtain ⟨newScores, -, movedEq⟩ := Fault.bind_eq_ok.mp movedEq
        obtain ⟨last, hasLast, movedEq⟩ := Fault.bind_eq_ok.mp movedEq
        obtain ⟨totalScore, -, movedEq⟩ := Fault.bind_eq_ok.mp movedEq
        rw [Fault.pure_eq_ok] at movedEq
        subst movedEq
        exact sound.insertHeaders chained atPivot firstAgrees
          (List.mem_of_getLast? (Fault.expect_eq_ok.mp hasLast)) totalScore
    · -- the pivot goes back to its parent, stored with its header
      obtain ⟨pivotHeader, found, movedEq⟩ := Fault.bind_eq_ok.mp movedEq
      have held := storedAs_of_pivotHeader found
      split at movedEq
      · next nonzero =>
          obtain ⟨totalScore, -, movedEq⟩ := Fault.bind_eq_ok.mp movedEq
          rw [Fault.pure_eq_ok] at movedEq
          subst movedEq
          exact sound.of_maps rfl rfl (sound.parents _ _ held nonzero)
      · rw [Fault.pure_eq_ok] at movedEq
        exact movedEq ▸ sound

end HeaderDownloader

/-! ### Runs -/

/-- Every header of the client but a genesis has its parent's header in the
client too. -/
def Client.ParentsKnown (client : Client Hash) : Prop :=
  ∀ hash header, client.blockHeader hash = some header → header.number ≠ 0 →
    (client.blockHeader header.parentHash).isSome

open CodeChain.Sync.Downloader.HeaderDownloader

/-- One step of a peer's header download, with what the rest of the node
guarantees of it: a response passed the continuity check and, as hashes do not
collide, starts with the stored header of its first hash; the client reports
only headers it has; the client only gains headers, closed under parents. -/
inductive Step : Client Hash × HeaderDownloader Hash → Client Hash × HeaderDownloader Hash → Prop
  | update {client : Client Hash} {downloader : HeaderDownloader Hash} (totalScore : ℕ) (bestHash : Hash) :
      Step (client, downloader) (client, (downloader.update client totalScore bestHash).2)
  | createRequest {ε : Type} {client : Client Hash} {downloader downloader' : HeaderDownloader Hash} (now : ℕ)
      (request : Option RequestMessage)
      (created : (downloader.createRequest client now : Except (Fault ε) _) = .ok (request, downloader')) :
      Step (client, downloader) (client, downloader')
  | importHeaders {ε : Type} {client : Client Hash} {downloader downloader' : HeaderDownloader Hash}
      (headers : List (Header Hash)) (chained : continuous headers = true)
      (agrees : ∀ first ∈ headers.head?, ∀ stored, downloader.StoredAs client first.hash stored → stored = first)
      (imported : (downloader.importHeaders client headers : Except (Fault ε) _) = .ok downloader') :
      Step (client, downloader) (client, downloader')
  | markAsQueued {client : Client Hash} {downloader : HeaderDownloader Hash} (hashes : List Hash) :
      Step (client, downloader) (client, downloader.markAsQueued hashes)
  | markAsImported {client : Client Hash} {downloader : HeaderDownloader Hash} (hashes : List Hash)
      (imported : ∀ hash ∈ hashes, (client.blockHeader hash).isSome) :
      Step (client, downloader) (client, downloader.markAsImported hashes)
  | clientImports {client client' : Client Hash} {downloader : HeaderDownloader Hash}
      (keeps : ∀ hash header, client.blockHeader hash = some header → client'.blockHeader hash = some header)
      (known : client'.ParentsKnown) :
      Step (client, downloader) (client', downloader)

/-- The states of a peer's downloader from `new`, on a client whose headers
are closed under parents and include its best block. -/
inductive Reachable : Client Hash × HeaderDownloader Hash → Prop
  | new {ε : Type} {client : Client Hash} {downloader : HeaderDownloader Hash} (totalScore : ℕ) (bestHash : Hash)
      (known : client.ParentsKnown) (hasBest : (client.blockHeader client.bestBlockHash).isSome)
      (created : (HeaderDownloader.new client totalScore bestHash : Except (Fault ε) _) = .ok downloader) :
      Reachable (client, downloader)
  | step {state state' : Client Hash × HeaderDownloader Hash} : Reachable state → Step state state' →
      Reachable state'

/-- A larger client stores the same headers of the downloader and more. -/
theorem HeaderDownloader.Sound.clientImports {client client' : Client Hash} {downloader : HeaderDownloader Hash}
    (sound : downloader.Sound client)
    (keeps : ∀ hash header, client.blockHeader hash = some header → client'.blockHeader hash = some header)
    (known : client'.ParentsKnown) : downloader.Sound client' := by
  have forwards : ∀ other, downloader.Stored client other → downloader.Stored client' other := by
    rintro other ⟨stored, inQueue | inDownloaded | inClient⟩
    · exact ⟨stored, .inl inQueue⟩
    · exact ⟨stored, .inr (.inl inDownloaded)⟩
    · exact ⟨stored, .inr (.inr (keeps _ _ inClient))⟩
  refine ⟨forwards _ sound.pivot, fun other header held nonzero => ?_⟩
  rcases held with inQueue | inDownloaded | inClient
  · exact forwards _ (sound.parents other header (.inl inQueue) nonzero)
  · exact forwards _ (sound.parents other header (.inr (.inl inDownloaded)) nonzero)
  · obtain ⟨parent, found⟩ := Option.isSome_iff_exists.mp (known other header inClient nonzero)
    exact ⟨parent, .inr (.inr found)⟩

theorem sound_new {ε : Type} {client : Client Hash} {downloader : HeaderDownloader Hash} {totalScore : ℕ}
    {bestHash : Hash} (known : client.ParentsKnown) (hasBest : (client.blockHeader client.bestBlockHash).isSome)
    (created : (HeaderDownloader.new client totalScore bestHash : Except (Fault ε) _) = .ok downloader) :
    downloader.Sound client := by
  unfold HeaderDownloader.new at created
  obtain ⟨bestScore, -, created⟩ := Fault.bind_eq_ok.mp created
  rw [Fault.pure_eq_ok] at created
  subst created
  obtain ⟨best, found⟩ := Option.isSome_iff_exists.mp hasBest
  -- nothing is downloaded or queued yet: every stored header is the client's
  refine ⟨⟨best, .inr (.inr found)⟩, fun hash header held nonzero => ?_⟩
  rcases held with inQueue | inDownloaded | inClient
  · cases inQueue
  · cases inDownloaded
  · obtain ⟨parent, parentFound⟩ := Option.isSome_iff_exists.mp (known hash header inClient nonzero)
    exact ⟨parent, .inr (.inr parentFound)⟩

/-- Each step keeps the client closed under parents and the pivot stored. -/
theorem Step.sound {state state' : Client Hash × HeaderDownloader Hash} (step : Step state state')
    (known : state.1.ParentsKnown) (sound : state.2.Sound state.1) :
    state'.1.ParentsKnown ∧ state'.2.Sound state'.1 := by
  cases step with
  | update totalScore bestHash => exact ⟨known, sound.update totalScore bestHash⟩
  | createRequest now request created => exact ⟨known, sound.createRequest created⟩
  | importHeaders headers chained agrees imported => exact ⟨known, sound.importHeaders chained agrees imported⟩
  | markAsQueued hashes => exact ⟨known, sound.markAsQueued hashes⟩
  | markAsImported hashes imported => exact ⟨known, sound.markAsImported imported⟩
  | clientImports keeps known' => exact ⟨known', sound.clientImports keeps known'⟩

theorem Reachable.sound {state : Client Hash × HeaderDownloader Hash} (reachable : Reachable state) :
    state.1.ParentsKnown ∧ state.2.Sound state.1 := by
  induction reachable with
  | new totalScore bestHash known hasBest created => exact ⟨known, sound_new known hasBest created⟩
  | step _ step holds => exact step.sound holds.1 holds.2

/-- In every reachable state the pivot's header is found: `pivot_header`
never panics. -/
theorem pivotHeader_of_reachable {ε : Type} {client : Client Hash} {downloader : HeaderDownloader Hash}
    (reachable : Reachable (client, downloader)) :
    ∃ header, (downloader.pivotHeader client : Except (Fault ε) _) = .ok header :=
  exists_pivotHeader reachable.sound.2.pivot

/-! ### The pivot's score -/

/-- A client holding one genesis block `0` of score `1`. -/
def genesisClient : Client ℕ where
  blockHeader hash := if hash = 0 then some ⟨0, 0, 0, 1⟩ else none
  blockTotalScore hash := if hash = 0 then some 1 else none
  bestBlockHash := 0

theorem genesisClient_parentsKnown : genesisClient.ParentsKnown := by
  intro hash header found nonzero
  simp only [genesisClient] at found
  split at found
  · cases found
    exact absurd rfl nonzero
  · cases found

/-- A peer first announces score `5` for block `9`, then score `7` for the
genesis block: the pivot becomes the genesis block with score `7`, though the
client's total score of that block is `1`. -/
theorem update_misscores_pivot :
    ∃ downloader, Reachable (genesisClient, downloader) ∧ downloader.pivot = ⟨0, 7⟩ ∧
      genesisClient.blockTotalScore downloader.pivot.hash = some 1 := by
  let created : HeaderDownloader ℕ :=
    { totalScore := 5, bestHash := 9, pivot := ⟨0, 1⟩, requestTime := none, downloaded := ∅, queued := ∅,
      trial := 0 }
  have new : (HeaderDownloader.new genesisClient 5 9 : Except (Fault Unit) _) = .ok created := rfl
  exact ⟨(created.update genesisClient 7 0).2,
    .step (.new 5 9 genesisClient_parentsKnown rfl new) (.update 7 0), rfl, rfl⟩

/-- The genesis block `0`, of score 1, and block `1`, of score 10, the best. -/
def twoBlockClient : Client ℕ where
  blockHeader hash := if hash = 0 then some ⟨0, 0, 0, 1⟩ else if hash = 1 then some ⟨1, 0, 1, 10⟩ else none
  blockTotalScore hash := if hash = 0 then some 1 else if hash = 1 then some 11 else none
  bestBlockHash := 1

theorem twoBlockClient_parentsKnown : twoBlockClient.ParentsKnown := by
  intro hash header found nonzero
  simp only [twoBlockClient] at found
  split at found
  · cases found
    exact absurd rfl nonzero
  · split at found
    · cases found
      rfl
    · cases found

/-- A peer first announces score `5` for block `9`, then score `7` for block
`1`, whose true total score is 11, and last score `8` for a block `2` the
client does not have.  The pivot stays at block `1` with score `7`, and a
response that does not start at the pivot makes `import_headers` step back
by the score 10 of block `1`: the `U256` subtraction underflows. -/
theorem importHeaders_underflows_after_update :
    ∃ downloader, Reachable (twoBlockClient, downloader) ∧ downloader.pivot = ⟨1, 7⟩ ∧
      twoBlockClient.blockTotalScore 1 = some 11 ∧
      continuous [(⟨5, 4, 3, 1⟩ : Header ℕ)] = true ∧
      (∀ stored, downloader.StoredAs twoBlockClient 5 stored → stored = ⟨5, 4, 3, 1⟩) ∧
      Fault.Panics (downloader.importHeaders twoBlockClient [⟨5, 4, 3, 1⟩] : Except (Fault Unit) _) := by
  let created : HeaderDownloader ℕ :=
    { totalScore := 5, bestHash := 9, pivot := ⟨1, 11⟩, requestTime := none, downloaded := ∅, queued := ∅,
      trial := 0 }
  have new : (HeaderDownloader.new twoBlockClient 5 9 : Except (Fault Unit) _) = .ok created := rfl
  -- block `1` is known, so the first update moves the pivot; block `2` is not, so the second keeps it
  let updated := ((created.update twoBlockClient 7 1).2.update twoBlockClient 8 2).2
  have reached : Reachable (twoBlockClient, updated) :=
    .step (.step (.new 5 9 twoBlockClient_parentsKnown rfl new) (.update 7 1)) (.update 8 2)
  refine ⟨updated, reached, rfl, rfl, rfl, ?_, ⟨"arithmetic operation overflow", rfl⟩⟩
  rintro stored (queued | downloaded | inClient)
  · cases queued
  · cases downloaded
  · cases inClient

end Downloader

end Sync

end CodeChain
