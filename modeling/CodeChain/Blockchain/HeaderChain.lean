import CodeChain.Lib.Fault

/-!
# The header chain and its index of canonical hashes

`HeaderChain` (`blockchain/headerchain.rs`) stores the headers of every block
the node imported, with the details of each (number, total score, parent), and
indexes the canonical chain by number: `block_hash(n)` is meant to be the
height-`n` block of the chain that ends at the best header.  The index is
updated incrementally when a header is inserted, from the `TreeRoute` between
the old best header and the parent of the new one (`blockchain/route.rs`),
and when Tendermint commits a block (`update_best_as_committed`).

Each call is followed by `commit`, so the pending maps of the source are
applied at once.  The engine is given by the two methods the header chain
asks it: the best block of a best proposal (the header itself by default, its
parent under Tendermint) and whether a header may change the canonical chain.
The loops of `tree_route` walk back one header at a time; the sum of the two
numbers they start from is fuel enough for them in a tree whose every header
is one above its parent.

When a new best proposal enacts more than one block without retracting any,
`new_hash_entries` indexes the best block alone, and the heights between are
never indexed.
-/

namespace CodeChain

namespace Blockchain

/-- A header, with what the header chain reads of it. -/
structure Header (Hash : Type) where
  hash : Hash
  parentHash : Hash
  number : ℕ
  score : ℕ
  deriving DecidableEq, Repr

/-- `BlockDetails`. -/
structure BlockDetails (Hash : Type) where
  number : ℕ
  totalScore : ℕ
  parent : Hash
  deriving DecidableEq, Repr

/-- `TreeRoute`: the common ancestor, the blocks enacted from it up to the new
end, and the blocks retracted from the old end down to it. -/
structure TreeRoute (Hash : Type) where
  ancestor : Hash
  enacted : List Hash
  retracted : List Hash
  deriving DecidableEq, Repr

/-- `BestHeaderChanged`. -/
inductive BestHeaderChanged (Hash : Type) where
  | none
  | canonChainAppended (bestHeader : Header Hash)
  | branchBecomingCanonChain (treeRoute : TreeRoute Hash) (bestHeader : Header Hash)
  deriving DecidableEq, Repr

/-- `BestHeaderChanged::new_best_hash`. -/
def BestHeaderChanged.newBestHash {Hash : Type} : BestHeaderChanged Hash → Option Hash
  | .none => Option.none
  | .canonChainAppended bestHeader => some bestHeader.hash
  | .branchBecomingCanonChain _ bestHeader => some bestHeader.hash

/-- What the header chain asks of the consensus engine. -/
structure Engine (Hash : Type) where
  getBestBlockFromBestProposalHeader : Header Hash → Hash
  canChangeCanonChain : Header Hash → Bool

namespace Engine

variable {Hash : Type}

/-- The default methods of `CodeChainEngine`. -/
def solo : Engine Hash :=
  ⟨Header.hash, fun _ => true⟩

/-- Tendermint's methods: the best block is the parent of the best proposal,
and a header changes the canonical chain from the height the worker allows. -/
def tendermint (allowedHeight : ℕ) : Engine Hash :=
  ⟨Header.parentHash, fun header => decide (allowedHeight ≤ header.number)⟩

end Engine

/-- `HeaderChain`, with its database and caches merged. -/
structure HeaderChain (Hash : Type) [DecidableEq Hash] where
  bestHeaderHash : Hash
  bestProposalHeaderHash : Hash
  headers : AList fun _ : Hash => Header Hash
  details : AList fun _ : Hash => BlockDetails Hash
  hashes : AList fun _ : ℕ => Hash

abbrev ChainResult (α : Type) := Except (Fault Empty) α

namespace HeaderChain

variable {Hash : Type} [DecidableEq Hash]

/-- `HeaderChain::new` over an empty database. -/
def new (genesis : Header Hash) : HeaderChain Hash where
  bestHeaderHash := genesis.hash
  bestProposalHeaderHash := genesis.hash
  headers := (∅ : AList fun _ : Hash => Header Hash).insert genesis.hash genesis
  details := (∅ : AList fun _ : Hash => BlockDetails Hash).insert genesis.hash
    ⟨genesis.number, genesis.score, genesis.parentHash⟩
  hashes := (∅ : AList fun _ : ℕ => Hash).insert genesis.number genesis.hash

def blockHeader (chain : HeaderChain Hash) (hash : Hash) : Option (Header Hash) :=
  chain.headers.lookup hash

def blockDetails (chain : HeaderChain Hash) (hash : Hash) : Option (BlockDetails Hash) :=
  chain.details.lookup hash

def bestHeader (chain : HeaderChain Hash) : ChainResult (Header Hash) :=
  Fault.expect (chain.blockHeader chain.bestHeaderHash) "Best header always exists"

/-- `HeaderProvider::block_hash`: nothing above the best header. -/
def blockHash (chain : HeaderChain Hash) (index : ℕ) : ChainResult (Option Hash) := do
  if (← chain.bestHeader).number < index then
    return none
  pure (chain.hashes.lookup index)

/-- The first loop of `tree_route`: walk the higher end back until both ends
have the same number. -/
def levelRoute (chain : HeaderChain Hash) :
    ℕ → Header Hash → Header Hash → List Hash → List Hash →
      Option (Header Hash × Header Hash × List Hash × List Hash)
  | 0, _, _, _, _ => none
  | fuel + 1, retract, enact, retracted, enacted =>
      if retract.number = enact.number then some (retract, enact, retracted, enacted)
      else if retract.number > enact.number then do
        let parent ← chain.blockHeader retract.parentHash
        levelRoute chain fuel parent enact (retracted ++ [retract.hash]) enacted
      else do
        let parent ← chain.blockHeader enact.parentHash
        levelRoute chain fuel retract parent retracted (enacted ++ [enact.hash])

/-- The second loop of `tree_route`: walk both ends back until they meet. -/
def meetRoute (chain : HeaderChain Hash) :
    ℕ → Header Hash → Header Hash → List Hash → List Hash → Option (Hash × List Hash × List Hash)
  | 0, _, _, _, _ => none
  | fuel + 1, retract, enact, retracted, enacted =>
      if retract.hash = enact.hash then some (retract.hash, retracted, enacted)
      else do
        let retractParent ← chain.blockHeader retract.parentHash
        let enactParent ← chain.blockHeader enact.parentHash
        meetRoute chain fuel retractParent enactParent (retracted ++ [retract.hash]) (enacted ++ [enact.hash])

/-- `tree_route`: `None` when a header on the way is missing. -/
def treeRoute (chain : HeaderChain Hash) (source target : Hash) : Option (TreeRoute Hash) := do
  let retract ← chain.blockHeader source
  let enact ← chain.blockHeader target
  let fuel := retract.number + enact.number + 1
  let (retract, enact, retracted, enacted) ← chain.levelRoute fuel retract enact [] []
  let (ancestor, retracted, enacted) ← chain.meetRoute fuel retract enact retracted enacted
  pure ⟨ancestor, enacted.reverse, retracted⟩

/-- `best_header_changed`: a header whose total score passes the best
proposal's, and that the engine lets change the canonical chain, makes its
best block the best header. -/
def bestHeaderChanged (chain : HeaderChain Hash) (engine : Engine Hash) (newHeader : Header Hash) :
    ChainResult (BestHeaderChanged Hash) := do
  let parentDetails ← Fault.expect (chain.blockDetails newHeader.parentHash) "Invalid parent hash"
  let bestProposalDetails ← Fault.expect (chain.blockDetails chain.bestProposalHeaderHash)
    "Best Proposal header always exists"
  if parentDetails.totalScore + newHeader.score > bestProposalDetails.totalScore ∧
      engine.canChangeCanonChain newHeader then
    let route ← Fault.expect (chain.treeRoute chain.bestHeaderHash newHeader.parentHash)
      "blocks being imported always within recent history; qed"
    let newBestBlockHash := engine.getBestBlockFromBestProposalHeader newHeader
    let newBestHeader ← if newBestBlockHash ≠ newHeader.hash then
        Fault.expect (chain.blockHeader newBestBlockHash) "Best block is already imported as a branch"
      else pure newHeader
    match route.retracted with
    | [] => pure (.canonChainAppended newBestHeader)
    | _ => pure (.branchBecomingCanonChain route newBestHeader)
  else
    pure .none

/-- `new_hash_entries`: the heights the change indexes, in the order they are
inserted. -/
def newHashEntries (chain : HeaderChain Hash) : BestHeaderChanged Hash → ChainResult (List (ℕ × Hash))
  | .none => pure []
  | .canonChainAppended bestHeader => pure [(bestHeader.number, bestHeader.hash)]
  | .branchBecomingCanonChain treeRoute bestHeader => do
      let ancestorNumber ← Fault.expect ((chain.blockDetails treeRoute.ancestor).map (·.number))
        "Ancestor always exist in DB"
      let startNumber := ancestorNumber + 1
      pure ((treeRoute.enacted.zipIdx.map fun entry => (startNumber + entry.2, entry.1)) ++
        [(bestHeader.number, bestHeader.hash)])

/-- The index with the given entries written in order. -/
def writeHashes (hashes : AList fun _ : ℕ => Hash) (entries : List (ℕ × Hash)) : AList fun _ : ℕ => Hash :=
  entries.foldl (fun hashes entry => hashes.insert entry.1 entry.2) hashes

/-- `insert_header` followed by `commit`.  A known header changes nothing. -/
def insertHeader (chain : HeaderChain Hash) (engine : Engine Hash) (header : Header Hash) :
    ChainResult (HeaderChain Hash) := do
  if header.hash ∈ chain.details then
    return chain
  let changed ← chain.bestHeaderChanged engine header
  let newHashes ← chain.newHashEntries changed
  let parentDetails ← Fault.expect (chain.blockDetails header.parentHash) "Invalid parent hash"
  let details : BlockDetails Hash :=
    ⟨header.number, parentDetails.totalScore + header.score, header.parentHash⟩
  let chain := { chain with headers := chain.headers.insert header.hash header }
  let chain := match changed.newBestHash with
    | some bestBlockHash => { chain with bestHeaderHash := bestBlockHash, bestProposalHeaderHash := header.hash }
    | none => chain
  pure { chain with
    details := chain.details.insert header.hash details
    hashes := writeHashes chain.hashes newHashes }

/-- A new best proposal that appends to the canonical chain moves the best
header to its best block and indexes that block alone. -/
theorem insertHeader_of_appended {chain chain' : HeaderChain Hash} {engine : Engine Hash}
    {header best : Header Hash} (inserted : chain.insertHeader engine header = .ok chain')
    (fresh : header.hash ∉ chain.details)
    (appended : chain.bestHeaderChanged engine header = .ok (.canonChainAppended best)) :
    chain'.hashes = chain.hashes.insert best.number best.hash ∧ chain'.bestHeaderHash = best.hash ∧
      chain'.headers = chain.headers.insert header.hash header := by
  simp only [insertHeader, fresh, if_false, appended, Fault.ok_bind, newHashEntries,
    BestHeaderChanged.newBestHash] at inserted
  simp only [Fault.bind_eq_ok, Fault.expect_eq_ok, Fault.pure_eq_ok] at inserted
  obtain ⟨entries, written, _, -, settled⟩ := inserted
  subst written settled
  exact ⟨rfl, rfl, rfl⟩

/-- `update_best_as_committed` followed by `commit`. -/
def updateBestAsCommitted (chain : HeaderChain Hash) (blockHash : Hash) : ChainResult (HeaderChain Hash) := do
  let prevBestHeaderNumber := (← chain.bestHeader).number
  let committedHeaderNumber :=
    (← Fault.expect (chain.blockHeader blockHash) "The given hash should exist").number
  if prevBestHeaderNumber > committedHeaderNumber then
    return chain
  let blockDetail ← Fault.expect (chain.blockDetails blockHash) "The given hash should exist"
  pure { chain with
    bestHeaderHash := blockHash
    bestProposalHeaderHash := blockHash
    hashes := chain.hashes.insert blockDetail.number blockHash }

/-- Part (a) of the consistency of the indexes: every height up to the best
header's is indexed, the best header at its own height, and the block indexed
at each height above genesis is the child of the block indexed below it. -/
def IndexesBestChain (chain : HeaderChain Hash) : Prop :=
  ∃ best, chain.blockHeader chain.bestHeaderHash = some best ∧
    chain.hashes.lookup best.number = some best.hash ∧
    ∀ height < best.number, ∃ parent child, chain.hashes.lookup height = some parent ∧
      chain.hashes.lookup (height + 1) = some child ∧
      (chain.blockHeader child).map Header.parentHash = some parent

/-- A best proposal that enacts blocks without retracting any indexes its best
block alone: a height below it that was not indexed stays so, and the index no
longer covers the best chain. -/
theorem canonChainAppended_leaves_height_unindexed {chain chain' : HeaderChain Hash} {engine : Engine Hash}
    {header best : Header Hash} {height : ℕ} (inserted : chain.insertHeader engine header = .ok chain')
    (fresh : header.hash ∉ chain.details)
    (appended : chain.bestHeaderChanged engine header = .ok (.canonChainAppended best))
    (stored : chain'.blockHeader best.hash = some best)
    (unindexed : chain.hashes.lookup height = none) (below : height < best.number) :
    ¬ IndexesBestChain chain' := by
  obtain ⟨hashes, bestHash, -⟩ := insertHeader_of_appended inserted fresh appended
  rintro ⟨top, found, -, linked⟩
  rw [bestHash, stored] at found
  cases found
  -- the height below the best block has no entry
  obtain ⟨parent, -, indexed, -, -⟩ := linked height below
  rw [hashes, AList.lookup_insert_ne below.ne, unindexed] at indexed
  cases indexed

/-- The genesis of the chains below. -/
def genesis : Header ℕ :=
  ⟨0, 0, 0, 0⟩

/-- The block of number `n` above genesis, of score `1`, whose hash is `n`. -/
def numbered (n : ℕ) : Header ℕ :=
  ⟨n, n - 1, n, 1⟩

/-- Under Tendermint with height `3` allowed, blocks `1` and `2` are stored
without changing the best header. -/
def twoWaiting : ChainResult (HeaderChain ℕ) := do
  let chain ← (new genesis).insertHeader (.tendermint 3) (numbered 1)
  chain.insertHeader (.tendermint 3) (numbered 2)

/-- Block `3` then makes block `2` the best header, and height `1` is never
indexed. -/
theorem tendermint_leaves_height_one_unindexed :
    ∃ chain chain', twoWaiting = .ok chain ∧ chain.insertHeader (.tendermint 3) (numbered 3) = .ok chain' ∧
      ¬ IndexesBestChain chain' := by
  have ran : (twoWaiting.toOption.map fun chain =>
      ((decide ((numbered 3).hash ∉ chain.details), (chain.bestHeaderChanged (.tendermint 3) (numbered 3)).toOption),
        (chain.hashes.lookup 1,
          (chain.insertHeader (.tendermint 3) (numbered 3)).toOption.map fun chain' => chain'.blockHeader 2))) =
      some ((true, some (.canonChainAppended (numbered 2))), (none, some (some (numbered 2)))) := by
    decide +kernel
  cases waited : twoWaiting with
  | error e =>
      rw [waited] at ran
      cases ran
  | ok chain =>
      cases third : chain.insertHeader (.tendermint 3) (numbered 3) with
      | error e =>
          rw [waited] at ran
          simp only [Except.toOption, Option.map_some, third, Option.some.injEq, Prod.mk.injEq] at ran
          cases ran.2.2
      | ok chain' =>
          rw [waited] at ran
          simp only [Except.toOption, Option.map_some, third, Option.some.injEq, Prod.mk.injEq,
            decide_eq_true_eq] at ran
          obtain ⟨⟨fresh, changed⟩, unindexed, stored⟩ := ran
          have appended : chain.bestHeaderChanged (.tendermint 3) (numbered 3) = .ok (.canonChainAppended (numbered 2)) := by
            revert changed
            cases chain.bestHeaderChanged (.tendermint 3) (numbered 3) <;> simp
          exact ⟨chain, chain', rfl, third,
            canonChainAppended_leaves_height_unindexed third fresh appended stored unindexed (by decide)⟩

end HeaderChain

end Blockchain

end CodeChain
