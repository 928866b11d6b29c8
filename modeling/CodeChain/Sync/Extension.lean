import CodeChain.Lib.Fault
import CodeChain.Sync.Message

/-!
# The block-sync extension under any peer

`Extension` (`sync/src/block/extension.rs`) keeps, for every connected peer,
the requests sent to it and, once the peer has sent a status with our genesis
hash, a `HeaderDownloader`.  A message from a peer is decoded and handed to
`on_peer_status`, `on_peer_request` or `on_peer_response`.

`on_peer_request` answers any request from a peer with a header downloader
that `is_valid_request` accepts.  For a state-chunk request `is_valid_request`
itself reaches `unimplemented!()`; a state-head request for a block whose
number is a multiple of `SNAPSHOT_PERIOD`, the genesis block among them,
passes it and reaches the `unimplemented!()` of `create_state_head_response`.
So one status and one request from any peer panic the node.

The handlers never return an error, so a `Fault Empty` is a panic.  Timer and
client events, the timer tokens of a peer and the body downloader are not
modelled; neither is `on_peer_response`, which is a parameter.  Heights wrap
as `u64` additions do in a release build.
-/

namespace CodeChain

namespace Sync

open Rlp Fault

/-- `SNAPSHOT_PERIOD`. -/
def snapshotPeriod : UInt64 := (1 : UInt64) <<< 14

/-- `BlockId`, by hash or by number. -/
inductive BlockId where
  | hash (hash : H256)
  | number (number : UInt64)

/-- What the extension reads of the client: the chain info, the numbers of
blocks, and the headers and bodies of stored blocks. -/
structure Client (Header Transaction : Type) where
  genesisHash : H256
  bestProposalScore : ℕ
  bestProposalHash : H256
  bestProposalNumber : UInt64
  blockNumber : H256 → Option UInt64
  blockHeader : BlockId → Option Header
  blockBody : H256 → Option (List Transaction)

/-- What the extension keeps of a `HeaderDownloader`: the peer's score and
best hash.  The pivot and the downloaded headers are not modelled. -/
structure HeaderDownloader where
  totalScore : ℕ
  bestHash : H256

/-- `HeaderDownloader::update`: take a higher score; whether the score is not
lower than before. -/
def HeaderDownloader.update (peer : HeaderDownloader) (totalScore : ℕ) (bestHash : H256) :
    Bool × HeaderDownloader :=
  if peer.totalScore = totalScore then (true, peer)
  else if peer.totalScore < totalScore then (true, ⟨totalScore, bestHash⟩)
  else (false, peer)

/-- The extension's record of its peers. -/
structure Extension (NodeId : Type) where
  connectedNodes : Finset NodeId
  requests : AList fun _ : NodeId => List (UInt64 × RequestMessage)
  headerDownloaders : AList fun _ : NodeId => HeaderDownloader

/-- The messages a handler sends, with their peers. -/
abbrev Sent (NodeId Header Transaction : Type) :=
  List (NodeId × Message (ResponseMessage Header Transaction))

/-- A handler's outcome: the new record and the messages sent, or a panic. -/
abbrev Handled (NodeId Header Transaction : Type) :=
  Except (Fault Empty) (Extension NodeId × Sent NodeId Header Transaction)

/-- What the extension runs against: the client, and the parts of message
handling that are not modelled. -/
structure Environment (NodeId Header Transaction : Type) where
  client : Client Header Transaction
  decodeResponse : UInt8 → Item → Option (ResponseMessage Header Transaction)
  onPeerResponse : NodeId → UInt64 → ResponseMessage Header Transaction → Extension NodeId →
    Handled NodeId Header Transaction

variable {NodeId Header Transaction : Type} [DecidableEq NodeId]
  (client : Client Header Transaction)

/-- No peer yet. -/
def Extension.empty : Extension NodeId :=
  ⟨∅, ∅, ∅⟩

/-! ### The handlers -/

/-- The status the extension sends to its peers. -/
def statusMessage : Message (ResponseMessage Header Transaction) :=
  .status client.bestProposalScore client.bestProposalHash client.genesisHash

/-- `on_node_added`: send our status and start the peer's request list. -/
def Extension.onNodeAdded (id : NodeId) (extension : Extension NodeId) :
    Extension NodeId × Sent NodeId Header Transaction :=
  ({ extension with
      connectedNodes := insert id extension.connectedNodes
      requests := extension.requests.insert id [] },
    [(id, statusMessage client)])

/-- `on_node_removed`: forget a connected peer. -/
def Extension.onNodeRemoved (id : NodeId) (extension : Extension NodeId) : Extension NodeId :=
  if id ∈ extension.connectedNodes then
    { connectedNodes := extension.connectedNodes.erase id
      requests := extension.requests.erase id
      headerDownloaders := extension.headerDownloaders.erase id }
  else extension

/-- `on_peer_status`: a peer with our genesis gets a header downloader, or
updates the one it has. -/
def Extension.onPeerStatus (id : NodeId) (totalScore : ℕ) (bestHash genesisHash : H256)
    (extension : Extension NodeId) : Extension NodeId :=
  if genesisHash ≠ client.genesisHash then extension
  else
    match extension.headerDownloaders.lookup id with
    | some peer =>
        { extension with
          headerDownloaders := extension.headerDownloaders.insert id (peer.update totalScore bestHash).2 }
    | none =>
        { extension with
          headerDownloaders := extension.headerDownloaders.insert id ⟨totalScore, bestHash⟩ }

/-- `is_valid_request`.  For a state chunk it works out whether the block is a
checkpoint, drops the answer, and reaches `unimplemented!()`. -/
def isValidRequest : RequestMessage → Except (Fault Empty) Bool
  | .headers _ _ => pure true
  | .bodies hashes => pure !hashes.isEmpty
  | .stateHead hash =>
      pure (match client.blockNumber hash with
        | some number => number % snapshotPeriod == 0
        | none => false)
  | .stateChunk _ _ => .error (.panic "not implemented")

/-- The headers of `create_headers_response`: from `height` on, at most
`remaining` of them, while the client has the block.  The best proposal is
looked up by its hash. -/
def collectHeaders (height : UInt64) : ℕ → List Header
  | 0 => []
  | remaining + 1 =>
      let blockId := if client.bestProposalNumber = height then .hash client.bestProposalHash
        else .number height
      match client.blockHeader blockId with
      | some header => header :: collectHeaders (height + 1) remaining
      | none => []

/-- `create_headers_response`. -/
def createHeadersResponse (startNumber maxCount : UInt64) : ResponseMessage Header Transaction :=
  .headers (collectHeaders client startNumber maxCount.toNat)

/-- `create_bodies_response`: an empty body for a block the client lacks. -/
def createBodiesResponse (hashes : List H256) : ResponseMessage Header Transaction :=
  .bodies (hashes.map fun hash => (client.blockBody hash).getD [])

/-- `create_state_head_response`. -/
def createStateHeadResponse (_hash : H256) : Except (Fault Empty) (ResponseMessage Header Transaction) :=
  .error (.panic "not implemented")

/-- `create_state_chunk_response`. -/
def createStateChunkResponse (_hash _treeRoot : H256) :
    Except (Fault Empty) (ResponseMessage Header Transaction) :=
  .error (.panic "not implemented")

/-- `on_peer_request`: answer a valid request from a peer with a header
downloader. -/
def Extension.onPeerRequest (id : NodeId) (requestId : UInt64) (request : RequestMessage)
    (extension : Extension NodeId) : Except (Fault Empty) (Sent NodeId Header Transaction) :=
  if id ∉ extension.headerDownloaders then pure []
  else do
    if !(← isValidRequest client request) then return []
    let response ← match request with
      | .headers startNumber maxCount => pure (createHeadersResponse client startNumber maxCount)
      | .bodies hashes => pure (createBodiesResponse client hashes)
      | .stateHead hash => createStateHeadResponse hash
      | .stateChunk blockHash treeRoot => createStateChunkResponse blockHash treeRoot
    pure [(id, .response requestId response)]

/-- `on_message`: ignore a peer that is not connected and bytes that do not
decode, and dispatch the rest. -/
def Extension.onMessage (environment : Environment NodeId Header Transaction) (id : NodeId)
    (data : Item) (extension : Extension NodeId) : Handled NodeId Header Transaction :=
  if id ∉ extension.requests then .ok (extension, [])
  else
    match Message.decode environment.decodeResponse data with
    | some (.status totalScore bestHash genesisHash) =>
        .ok (extension.onPeerStatus environment.client id totalScore bestHash genesisHash, [])
    | some (.request requestId request) =>
        (extension.onPeerRequest environment.client id requestId request).map (extension, ·)
    | some (.response requestId response) =>
        environment.onPeerResponse id requestId response extension
    | none => .ok (extension, [])

/-- What the network layer hands to the extension. -/
inductive Event (NodeId : Type) where
  | nodeAdded (id : NodeId)
  | nodeRemoved (id : NodeId)
  | message (id : NodeId) (data : Item)

/-- One event. -/
def Extension.handle (environment : Environment NodeId Header Transaction) :
    Event NodeId → Extension NodeId → Handled NodeId Header Transaction
  | .nodeAdded id, extension => .ok (extension.onNodeAdded environment.client id)
  | .nodeRemoved id, extension => .ok (extension.onNodeRemoved id, [])
  | .message id data, extension => extension.onMessage environment id data

/-- Events one after the other, until one panics. -/
def Extension.run (environment : Environment NodeId Header Transaction) (events : List (Event NodeId))
    (extension : Extension NodeId) : Except (Fault Empty) (Extension NodeId) :=
  events.foldlM (fun extension event => Prod.fst <$> extension.handle environment event) extension

/-! ### Which messages panic -/

/-- The requests that reach `unimplemented!()`: every state-chunk request, and
a state-head request for a block whose number is a multiple of
`SNAPSHOT_PERIOD`. -/
def Unimplemented : RequestMessage → Prop
  | .stateChunk _ _ => True
  | .stateHead hash => ∃ number, client.blockNumber hash = some number ∧ number % snapshotPeriod = 0
  | .headers _ _ => False
  | .bodies _ => False

/-- `on_peer_request` panics exactly on the unimplemented requests of a peer
with a header downloader. -/
theorem onPeerRequest_panics_iff (id : NodeId) (requestId : UInt64) (request : RequestMessage)
    (extension : Extension NodeId) :
    Panics (extension.onPeerRequest client id requestId request :
        Except (Fault Empty) (Sent NodeId Header Transaction)) ↔
      id ∈ extension.headerDownloaders ∧ Unimplemented client request := by
  unfold Extension.onPeerRequest
  by_cases known : id ∈ extension.headerDownloaders
  case neg =>
    rw [if_pos known]
    simp only [known, false_and, iff_false]
    exact ok_not_panics
  rw [if_neg (not_not.2 known)]
  cases request with
  | headers startNumber maxCount =>
    simp [isValidRequest, Unimplemented, Panics, pure, Except.pure, bind, Except.bind]
  | bodies hashes =>
    cases hashes <;> simp [isValidRequest, Unimplemented, Panics, pure, Except.pure, bind, Except.bind]
  | stateHead hash =>
    -- the request is valid exactly for a numbered checkpoint, and then it panics
    cases numbered : client.blockNumber hash with
    | none => simp [isValidRequest, Unimplemented, Panics, numbered, pure, Except.pure, bind, Except.bind]
    | some number =>
      by_cases checkpoint : number % snapshotPeriod = 0 <;>
        simp [isValidRequest, Unimplemented, Panics, numbered, checkpoint, createStateHeadResponse,
          known, pure, Except.pure, bind, Except.bind]
  | stateChunk blockHash treeRoot =>
    simp [isValidRequest, Unimplemented, Panics, known, bind, Except.bind]

/-- `on_message` panics exactly on an unimplemented request from a peer with a
header downloader, or where `on_peer_response` does. -/
theorem onMessage_panics_iff (environment : Environment NodeId Header Transaction) (id : NodeId)
    (data : Item) (extension : Extension NodeId) :
    Panics (extension.onMessage environment id data) ↔ id ∈ extension.requests ∧
      ((∃ requestId request,
          Message.decode environment.decodeResponse data = some (.request requestId request) ∧
            id ∈ extension.headerDownloaders ∧ Unimplemented environment.client request) ∨
        ∃ requestId response,
          Message.decode environment.decodeResponse data = some (.response requestId response) ∧
            Panics (environment.onPeerResponse id requestId response extension)) := by
  unfold Extension.onMessage
  by_cases connected : id ∈ extension.requests
  case neg =>
    rw [if_pos connected]
    simp [connected, ok_not_panics]
  rw [if_neg (not_not.2 connected)]
  cases decoded : Message.decode environment.decodeResponse data with
  | none => simp [ok_not_panics]
  | some message =>
    cases message with
    | status totalScore bestHash genesisHash => simp [ok_not_panics]
    | request requestId request =>
      simp [connected, onPeerRequest_panics_iff]
    | response requestId response => simp [connected]

/-! ### A peer that panics the node -/

theorem mem_requests_onNodeAdded (id : NodeId) (extension : Extension NodeId) :
    id ∈ (extension.onNodeAdded client id).1.requests :=
  (AList.mem_insert _).2 (Or.inl rfl)

/-- A status with our genesis hash gives the peer a header downloader, and
leaves the request lists alone. -/
theorem onPeerStatus_genesis (id : NodeId) (totalScore : ℕ) (bestHash : H256)
    (extension : Extension NodeId) :
    (extension.onPeerStatus client id totalScore bestHash client.genesisHash).requests =
        extension.requests ∧
      id ∈ (extension.onPeerStatus client id totalScore bestHash client.genesisHash).headerDownloaders := by
  unfold Extension.onPeerStatus
  rw [if_neg (not_not.2 rfl)]
  split <;> exact ⟨rfl, (AList.mem_insert _).2 (Or.inl rfl)⟩

theorem run_cons_of_eq_ok (environment : Environment NodeId Header Transaction)
    {event : Event NodeId} {extension next : Extension NodeId} {sent : Sent NodeId Header Transaction}
    (handled : extension.handle environment event = .ok (next, sent)) (events : List (Event NodeId)) :
    extension.run environment (event :: events) = next.run environment events := by
  simp [Extension.run, List.foldlM_cons, handled, Functor.map, Except.map, bind, Except.bind]

theorem run_cons_panics (environment : Environment NodeId Header Transaction)
    {event : Event NodeId} {extension : Extension NodeId}
    (panics : Panics (extension.handle environment event)) (events : List (Event NodeId)) :
    Panics (extension.run environment (event :: events)) := by
  obtain ⟨message, panicked⟩ := panics
  exact ⟨message, by simp [Extension.run, List.foldlM_cons, panicked, Functor.map, Except.map, bind,
    Except.bind]⟩

/-- Whatever the extension has seen before, a peer that connects, sends a
status with our genesis hash and then asks for a state chunk panics it. -/
theorem stateChunk_request_panics (environment : Environment NodeId Header Transaction)
    (extension : Extension NodeId) (peer : NodeId) (bestHash blockHash treeRoot : H256) :
    Panics (extension.run environment
      [.nodeAdded peer,
        .message peer (.list [.data [messageIdStatus],
          .list [.data [], .data bestHash.1, .data environment.client.genesisHash.1]]),
        .message peer (.list [.data [messageIdGetStateChunk], .data [],
          .list [.data blockHash.1, .data treeRoot.1]])]) := by
  let added := (extension.onNodeAdded environment.client peer).1
  let known := added.onPeerStatus environment.client peer 0 bestHash environment.client.genesisHash
  have addedStep : extension.handle environment (.nodeAdded peer) =
      .ok (added, [(peer, statusMessage environment.client)]) := rfl
  have addedConnected : peer ∈ added.requests := mem_requests_onNodeAdded environment.client peer extension
  have statusKept := onPeerStatus_genesis environment.client peer 0 bestHash added
  have connected : peer ∈ known.requests := statusKept.1 ▸ addedConnected
  -- the status is read and gives the peer its header downloader
  have statusRead : added.handle environment (.message peer (.list [.data [messageIdStatus],
      .list [.data [], .data bestHash.1, .data environment.client.genesisHash.1]])) =
        .ok (known, []) := by
    have scoreRead : decodeU256 [] = some 0 := rfl
    simp only [Extension.handle, Extension.onMessage, decode_status environment.decodeResponse scoreRead]
    rw [if_neg (not_not.2 addedConnected)]
  have requestRead := decode_request environment.decodeResponse
    (Or.inr (Or.inr (Or.inr rfl))) (show decodeU64 [] = some 0 from rfl)
    (.list [.data blockHash.1, .data treeRoot.1])
  rw [decode_stateChunk] at requestRead
  rw [run_cons_of_eq_ok environment addedStep, run_cons_of_eq_ok environment statusRead]
  have chunkPanics : Panics (known.handle environment (.message peer (.list [.data [messageIdGetStateChunk],
      .data [], .list [.data blockHash.1, .data treeRoot.1]]))) :=
    (onMessage_panics_iff environment peer _ known).2
      ⟨connected, Or.inl ⟨0, _, requestRead, statusKept.2, trivial⟩⟩
  exact run_cons_panics environment chunkPanics []

end Sync

end CodeChain
