import CodeChain.Lib.Fault
import CodeChain.Sync.Message

/-!
# The body downloader

`BodyDownloader` (`sync/src/block/downloader/body.rs`) keeps the blocks whose
headers are enacted but whose bodies are missing, in the order they were added:
the targets, the hashes whose bodies are being downloaded, and the bodies
downloaded.  `Extension::on_body_response` files a response's bodies, drains
the prefix of targets whose bodies have come, and imports those blocks one by
one, stopping at the first import that fails.

`drain` removes the targets before they are imported.  So when an import fails,
as it does for a body that does not match its header, that block and every
later drained one leave the targets without reaching the client: the target is
forgotten.  When no import fails, no target is ever forgotten: on every run,
a target that was not removed on purpose stays a target or is handed to the
client.

The client is what `on_body_response` asks of it: whether it has a header, and
the outcome of importing a block.  Sending the next requests to peers is not
modelled.
-/

namespace CodeChain

namespace Sync

namespace Downloader

/-- `MAX_BODY_REQEUST_LENGTH`. -/
def maxBodyRequestLength : ℕ := 128

/-- `Target`: a block whose body is wanted, with the header's transactions
root and the parent's hash and transactions root. -/
structure Target (Hash : Type) where
  hash : Hash
  transactionHash : Hash
  transactionsRoot : Hash
  transactionRoot : Hash
  deriving DecidableEq, Repr

/-- What `add_target` reads of a header: its hash and transactions root. -/
structure BodyHeader (Hash : Type) where
  hash : Hash
  transactionsRoot : Hash
  deriving DecidableEq, Repr

/-- What `import_block` answers: the block is imported, it was already in the
chain, or the import failed. -/
inductive ImportResult where
  | imported
  | alreadyInChain
  | failed
  deriving DecidableEq, Repr

/-- What `on_body_response` asks of the client. -/
structure BodyClient (Hash Transaction : Type) where
  hasHeader : Hash → Bool
  importBlock : Hash → List Transaction → ImportResult

variable {Hash Transaction : Type} [DecidableEq Hash]

/-- `BodyDownloader`.  The hash set and hash map are finite. -/
structure BodyDownloader (Hash Transaction : Type) [DecidableEq Hash] where
  targets : List (Target Hash)
  downloading : Finset Hash
  downloaded : AList fun _ : Hash => List Transaction

namespace BodyDownloader

/-- The hashes of the targets, in order. -/
def targetHashes (downloader : BodyDownloader Hash Transaction) : List Hash :=
  downloader.targets.map Target.hash

/-- The loop of `create_request`: the targets neither downloading nor
downloaded, in order, stopping once `MAX_BODY_REQEUST_LENGTH` are taken. -/
def collectHashes (downloader : BodyDownloader Hash Transaction) : List (Target Hash) → List Hash → List Hash
  | [], hashes => hashes
  | target :: rest, hashes =>
      let hashes :=
        if target.hash ∉ downloader.downloading ∧ target.hash ∉ downloader.downloaded then hashes ++ [target.hash]
        else hashes
      if maxBodyRequestLength ≤ hashes.length then hashes else collectHashes downloader rest hashes

/-- `create_request`: ask for the collected hashes and mark them downloading. -/
def createRequest (downloader : BodyDownloader Hash Transaction) :
    Option (List Hash) × BodyDownloader Hash Transaction :=
  let hashes := collectHashes downloader downloader.targets []
  if hashes.isEmpty then (none, downloader)
  else (some hashes, { downloader with downloading := downloader.downloading ∪ hashes.toFinset })

/-- One pair of `import_bodies`: a body for a hash being downloaded is filed,
unless it is empty while the header's transactions root differs from the
parent's; finding no target for it is a panic. -/
def importBody {ε : Type} (downloader : BodyDownloader Hash Transaction) (hash : Hash)
    (body : List Transaction) : Except (Fault ε) (BodyDownloader Hash Transaction) :=
  if hash ∈ downloader.downloading then do
    let downloader := { downloader with downloading := downloader.downloading.erase hash }
    if body.isEmpty then do
      let target ← Fault.expect (downloader.targets.find? fun target => target.hash = hash)
        "Downloading target must exist"
      if target.transactionRoot ≠ target.transactionsRoot then pure downloader
      else pure { downloader with downloaded := downloader.downloaded.insert hash body }
    else pure { downloader with downloaded := downloader.downloaded.insert hash body }
  else pure downloader

/-- `import_bodies`: the pairs of hashes and bodies, as `zip` makes them. -/
def importBodies {ε : Type} (downloader : BodyDownloader Hash Transaction) (hashes : List Hash)
    (bodies : List (List Transaction)) : Except (Fault ε) (BodyDownloader Hash Transaction) :=
  (hashes.zip bodies).foldlM (fun downloader pair => downloader.importBody pair.1 pair.2) downloader

/-- `add_target`. -/
def addTarget (downloader : BodyDownloader Hash Transaction) (header parent : BodyHeader Hash) :
    BodyDownloader Hash Transaction :=
  { downloader with
    targets := downloader.targets ++
      [⟨header.hash, parent.hash, header.transactionsRoot, parent.transactionsRoot⟩] }

/-- `remove_target`: for each hash, the first target of it and its download. -/
def removeTarget (downloader : BodyDownloader Hash Transaction) (hashes : List Hash) :
    BodyDownloader Hash Transaction :=
  hashes.foldl
    (fun downloader hash =>
      { targets := downloader.targets.eraseP fun target => target.hash = hash
        downloading := downloader.downloading.erase hash
        downloaded := downloader.downloaded.erase hash })
    downloader

/-- `reset_downloading`. -/
def resetDownloading (downloader : BodyDownloader Hash Transaction) (hashes : List Hash) :
    BodyDownloader Hash Transaction :=
  { downloader with downloading := hashes.foldl (fun downloading hash => downloading.erase hash) downloader.downloading }

/-- The loop of `drain`: the bodies of the leading targets, as long as each
has one, taken out of the downloaded ones. -/
def drainBodies : List (Target Hash) → (AList fun _ : Hash => List Transaction) →
    List (Hash × List Transaction) × (AList fun _ : Hash => List Transaction)
  | [], downloaded => ([], downloaded)
  | target :: rest, downloaded =>
      match downloaded.lookup target.hash with
      | some body =>
          let drained := drainBodies rest (downloaded.erase target.hash)
          ((target.hash, body) :: drained.1, drained.2)
      | none => ([], downloaded)

/-- `drain`: the leading targets with bodies leave the targets, with their
bodies. -/
def drain (downloader : BodyDownloader Hash Transaction) :
    List (Hash × List Transaction) × BodyDownloader Hash Transaction :=
  let drained := drainBodies downloader.targets downloader.downloaded
  (drained.1, { downloader with targets := downloader.targets.drop drained.1.length, downloaded := drained.2 })

end BodyDownloader

/-- The import loop of `on_body_response`: each drained block is imported in
order until an import fails; the blocks the client took are returned. -/
def importDrained {ε : Type} (client : BodyClient Hash Transaction) :
    List (Hash × List Transaction) → Except (Fault ε) (List Hash)
  | [] => pure []
  | (hash, transactions) :: rest => do
      Fault.ensure (client.hasHeader hash) "Downloaded body's header must exist"
      match client.importBlock hash transactions with
      | .failed => pure []
      | _ => do
          let accepted ← importDrained client rest
          pure (hash :: accepted)

/-- `on_body_response`, up to the requests it sends next: the new downloader
and the blocks handed to the client. -/
def onBodyResponse {ε : Type} (client : BodyClient Hash Transaction) (downloader : BodyDownloader Hash Transaction)
    (hashes : List Hash) (bodies : List (List Transaction)) :
    Except (Fault ε) (BodyDownloader Hash Transaction × List Hash) := do
  let downloader ← downloader.importBodies hashes bodies
  let (completed, downloader) := downloader.drain
  let accepted ← importDrained client completed
  pure (downloader, accepted)

namespace BodyDownloader

/-- No target, nothing downloading or downloaded: `BodyDownloader::default`. -/
def empty : BodyDownloader Hash Transaction :=
  ⟨[], ∅, ∅⟩

/-! ### What each operation does to the targets -/

theorem targets_importBody {ε : Type} {downloader downloader' : BodyDownloader Hash Transaction} {hash : Hash}
    {body : List Transaction} (filed : (downloader.importBody hash body : Except (Fault ε) _) = .ok downloader') :
    downloader'.targets = downloader.targets := by
  unfold importBody at filed
  split at filed
  · split at filed
    · obtain ⟨target, -, filed⟩ := Fault.bind_eq_ok.mp filed
      split at filed <;> rw [Fault.pure_eq_ok] at filed <;> rw [← filed]
    · rw [Fault.pure_eq_ok] at filed
      rw [← filed]
  · rw [Fault.pure_eq_ok] at filed
    rw [← filed]

theorem targets_importBodies {ε : Type} {downloader downloader' : BodyDownloader Hash Transaction}
    {hashes : List Hash} {bodies : List (List Transaction)}
    (filed : (downloader.importBodies hashes bodies : Except (Fault ε) _) = .ok downloader') :
    downloader'.targets = downloader.targets :=
  Fault.foldlM_invariant (fun later : BodyDownloader Hash Transaction => later.targets = downloader.targets)
    (fun _ same _ _ _ next => (targets_importBody next).trans same) rfl filed

/-- `drain` hands out the bodies of a prefix of the targets, in order. -/
theorem map_fst_drainBodies (targets : List (Target Hash)) (downloaded : AList fun _ : Hash => List Transaction) :
    (drainBodies targets downloaded).1.map Prod.fst =
      (targets.map Target.hash).take (drainBodies targets downloaded).1.length := by
  induction targets generalizing downloaded with
  | nil => rfl
  | cons target rest ih =>
      unfold drainBodies
      split
      · rw [List.map_cons, ih, List.length_cons, List.map_cons, List.take_succ_cons]
      · rfl

/-- A target is still a target after `drain`, or its body was drained. -/
theorem mem_drain {downloader : BodyDownloader Hash Transaction} {hash : Hash}
    (member : hash ∈ downloader.targetHashes) :
    hash ∈ downloader.drain.2.targetHashes ∨ hash ∈ downloader.drain.1.map Prod.fst := by
  unfold drain targetHashes at *
  dsimp only
  rw [map_fst_drainBodies, List.map_drop]
  rw [← List.take_append_drop (drainBodies downloader.targets downloader.downloaded).1.length
    (downloader.targets.map Target.hash)] at member
  rcases List.mem_append.mp member with drained | kept
  · exact .inr drained
  · exact .inl kept

theorem targetHashes_addTarget (downloader : BodyDownloader Hash Transaction) (header parent : BodyHeader Hash) :
    (downloader.addTarget header parent).targetHashes = downloader.targetHashes ++ [header.hash] := by
  simp [addTarget, targetHashes]

/-- `remove_target` keeps the targets of the other hashes. -/
theorem mem_removeTarget {downloader : BodyDownloader Hash Transaction} {hashes : List Hash} {hash : Hash}
    (member : hash ∈ downloader.targetHashes) (spared : hash ∉ hashes) :
    hash ∈ (downloader.removeTarget hashes).targetHashes := by
  induction hashes generalizing downloader with
  | nil => exact member
  | cons removed rest ih =>
      unfold removeTarget at ih ⊢
      rw [List.foldl_cons]
      refine ih ?_ fun later => spared (List.mem_cons_of_mem _ later)
      obtain ⟨target, targetMember, rfl⟩ := List.mem_map.mp member
      have other : ¬ decide (target.hash = removed) = true := by
        rw [decide_eq_true_iff]
        intro same
        exact spared (same ▸ List.mem_cons_self)
      exact List.mem_map_of_mem
        ((@List.mem_eraseP_of_neg _ (fun target => decide (target.hash = removed)) _ _ other).mpr targetMember)

theorem targets_createRequest (downloader : BodyDownloader Hash Transaction) :
    downloader.createRequest.2.targets = downloader.targets := by
  unfold createRequest
  dsimp only
  split <;> rfl

end BodyDownloader

omit [DecidableEq Hash] in
/-- When no import fails, the client takes every drained block. -/
theorem importDrained_of_accepts {ε : Type} {client : BodyClient Hash Transaction}
    (accepts : ∀ hash transactions, client.importBlock hash transactions ≠ .failed)
    {completed : List (Hash × List Transaction)} {accepted : List Hash}
    (imported : (importDrained client completed : Except (Fault ε) _) = .ok accepted) :
    accepted = completed.map Prod.fst := by
  induction completed generalizing accepted with
  | nil =>
      rw [importDrained, Fault.pure_eq_ok] at imported
      exact imported.symm
  | cons pair rest ih =>
      obtain ⟨hash, transactions⟩ := pair
      rw [importDrained] at imported
      obtain ⟨-, -, imported⟩ := Fault.bind_eq_ok.mp imported
      -- the import of this block did not fail, so the loop goes on
      split at imported
      · next failed => exact absurd failed (accepts hash transactions)
      · obtain ⟨later, laterImported, result⟩ := Fault.bind_eq_ok.mp imported
        rw [Fault.pure_eq_ok] at result
        rw [← result, ih laterImported, List.map_cons]

/-- When no import fails, `on_body_response` forgets no target: each one is
still a target or was handed to the client. -/
theorem mem_onBodyResponse {ε : Type} {client : BodyClient Hash Transaction}
    (accepts : ∀ hash transactions, client.importBlock hash transactions ≠ .failed)
    {downloader downloader' : BodyDownloader Hash Transaction} {hashes : List Hash}
    {bodies : List (List Transaction)} {accepted : List Hash}
    (responded : (onBodyResponse client downloader hashes bodies : Except (Fault ε) _) = .ok (downloader', accepted))
    {hash : Hash} (member : hash ∈ downloader.targetHashes) :
    hash ∈ downloader'.targetHashes ∨ hash ∈ accepted := by
  unfold onBodyResponse at responded
  obtain ⟨filed, filedEq, responded⟩ := Fault.bind_eq_ok.mp responded
  obtain ⟨taken, takenEq, result⟩ := Fault.bind_eq_ok.mp responded
  simp only [Fault.pure_eq_ok, Prod.mk.injEq] at result
  obtain ⟨rfl, rfl⟩ := result
  have stillTarget : hash ∈ filed.targetHashes := by
    rwa [BodyDownloader.targetHashes, BodyDownloader.targets_importBodies filedEq]
  rw [importDrained_of_accepts accepts takenEq]
  exact BodyDownloader.mem_drain stillTarget

/-! ### Runs -/

/-- One operation on the body downloader, paired with the blocks handed to the
client so far, on a run in which the hash `kept` is never removed on purpose. -/
inductive BodyStep (client : BodyClient Hash Transaction) (kept : Hash) :
    BodyDownloader Hash Transaction × Finset Hash → BodyDownloader Hash Transaction × Finset Hash → Prop
  | addTarget {downloader : BodyDownloader Hash Transaction} {accepted : Finset Hash} (header parent : BodyHeader Hash) :
      BodyStep client kept (downloader, accepted) (downloader.addTarget header parent, accepted)
  | removeTarget {downloader : BodyDownloader Hash Transaction} {accepted : Finset Hash} (hashes : List Hash)
      (spared : kept ∉ hashes) :
      BodyStep client kept (downloader, accepted) (downloader.removeTarget hashes, accepted)
  | createRequest {downloader : BodyDownloader Hash Transaction} {accepted : Finset Hash} :
      BodyStep client kept (downloader, accepted) (downloader.createRequest.2, accepted)
  | resetDownloading {downloader : BodyDownloader Hash Transaction} {accepted : Finset Hash} (hashes : List Hash) :
      BodyStep client kept (downloader, accepted) (downloader.resetDownloading hashes, accepted)
  | bodyResponse {ε : Type} {downloader downloader' : BodyDownloader Hash Transaction} {accepted : Finset Hash}
      (hashes : List Hash) (bodies : List (List Transaction)) {handed : List Hash}
      (responded : (onBodyResponse client downloader hashes bodies : Except (Fault ε) _) = .ok (downloader', handed)) :
      BodyStep client kept (downloader, accepted) (downloader', accepted ∪ handed.toFinset)

variable {client : BodyClient Hash Transaction} {kept : Hash}

/-- When no import fails, each operation keeps `kept` a target or handed to
the client. -/
theorem BodyStep.remembers (accepts : ∀ hash transactions, client.importBlock hash transactions ≠ .failed)
    {state state' : BodyDownloader Hash Transaction × Finset Hash} (step : BodyStep client kept state state')
    (remembered : kept ∈ state.1.targetHashes ∨ kept ∈ state.2) :
    kept ∈ state'.1.targetHashes ∨ kept ∈ state'.2 := by
  cases step with
  | addTarget header parent =>
      rw [BodyDownloader.targetHashes_addTarget]
      exact remembered.imp_left fun member => List.mem_append_left _ member
  | removeTarget hashes spared => exact remembered.imp_left fun member => BodyDownloader.mem_removeTarget member spared
  | createRequest =>
      rwa [BodyDownloader.targetHashes, BodyDownloader.targets_createRequest]
  | resetDownloading hashes => exact remembered
  | bodyResponse hashes bodies responded =>
      rcases remembered with member | handedBefore
      · exact (mem_onBodyResponse accepts responded member).imp_right fun handed =>
          Finset.mem_union_right _ (List.mem_toFinset.mpr handed)
      · exact .inr (Finset.mem_union_left _ handedBefore)

/-- When no import fails, a target that is never removed on purpose stays, on
every run, a target or handed to the client. -/
theorem remembers_of_run (accepts : ∀ hash transactions, client.importBlock hash transactions ≠ .failed)
    {start finish : BodyDownloader Hash Transaction × Finset Hash}
    (run : Relation.ReflTransGen (BodyStep client kept) start finish)
    (remembered : kept ∈ start.1.targetHashes ∨ kept ∈ start.2) :
    kept ∈ finish.1.targetHashes ∨ kept ∈ finish.2 := by
  induction run with
  | refl => exact remembered
  | tail _ step holds => exact step.remembers accepts holds

/-- A client that has every header and fails every import. -/
def rejectingClient : BodyClient ℕ ℕ :=
  ⟨fun _ => true, fun _ _ => .failed⟩

/-- Block `1` becomes a target, its body is requested and comes, and the
client's import of it fails: block `1` is then no target, though it was never
removed, and the client never took it. -/
theorem onBodyResponse_forgets_target :
    ∃ added : BodyDownloader ℕ ℕ, 1 ∈ added.targetHashes ∧
      Relation.ReflTransGen (BodyStep rejectingClient 1) (BodyDownloader.empty, ∅) (added, ∅) ∧
      ∃ later accepted, Relation.ReflTransGen (BodyStep rejectingClient 1) (added, ∅) (later, accepted) ∧
        1 ∉ later.targetHashes ∧ 1 ∉ accepted := by
  let added := (BodyDownloader.empty : BodyDownloader ℕ ℕ).addTarget ⟨1, 5⟩ ⟨0, 4⟩
  have responded : (onBodyResponse rejectingClient added.createRequest.2 [1] [[7]] : Except (Fault Unit) _) =
      .ok (⟨[], ∅, ∅⟩, []) := rfl
  exact ⟨added, by decide, .single (.addTarget _ _), ⟨[], ∅, ∅⟩, ∅ ∪ ([] : List ℕ).toFinset,
    .tail (.single .createRequest) (.bodyResponse [1] [[7]] responded), by decide, by decide⟩

end Downloader

end Sync

end CodeChain
