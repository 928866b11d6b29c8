import CodeChain.Lib.AListMap

/-!
# Transaction propagation and its histories

The transaction-propagation extension (`sync/src/transaction/extension.rs`)
remembers which transactions it has seen, once for the node and once for every
peer, in a `KnownTxs`: a set of hashes to answer `contains`, and a queue meant
to keep only the last `MAX_HISTORY_SIZE` of them.  `on_message` keeps the
transactions of a peer's message whose hashes the node's history lacks, pushes
those hashes, queues the transactions to the client and pushes them into the
peer's history; `random_broadcast` sends every peer the ready transactions its
history lacks and pushes their hashes.

`push` drops the oldest hash from the queue once it passes `MAX_HISTORY_SIZE`,
but never from the set.  So the queue stays the last `MAX_HISTORY_SIZE` hashes
pushed, and the set keeps every hash ever pushed: it grows with every new
transaction a peer sends, and `contains` never forgets one.

The client and the network are the model's inputs and outputs: a message is
what it decodes to, and the ready transactions of a broadcast are given.  The
`debug_assert!` of `push` is not checked, as in a release build; the extension
only ever pushes hashes the history lacks (`Bounded`).  Logs and the timer are
not modelled.
-/

namespace CodeChain

namespace Sync

namespace Transactions

open AListMap

/-- `MAX_HISTORY_SIZE`. -/
def maxHistorySize : ℕ := 100000

/-- `KnownTxs`: the hashes seen, as a set and in the order they were pushed. -/
structure KnownTxs (Hash : Type) where
  historySet : Finset Hash
  historyQueue : List Hash
  deriving DecidableEq

variable {Hash : Type}

instance : Inhabited (KnownTxs Hash) :=
  ⟨⟨∅, []⟩⟩

/-- The last `MAX_HISTORY_SIZE` hashes of a list. -/
def lastHashes (hashes : List Hash) : List Hash :=
  hashes.drop (hashes.length - maxHistorySize)

theorem length_lastHashes_le (hashes : List Hash) : (lastHashes hashes).length ≤ maxHistorySize := by
  simp only [lastHashes, List.length_drop]
  omega

/-- Keeping the last hashes, then more, keeps the last of them all. -/
theorem lastHashes_lastHashes_append (hashes more : List Hash) :
    lastHashes (lastHashes hashes ++ more) = lastHashes (hashes ++ more) := by
  unfold lastHashes
  rw [List.drop_append_of_le_length (Nat.sub_le _ _) |>.symm, List.drop_drop]
  have skipped : hashes.length - maxHistorySize +
      ((List.drop (hashes.length - maxHistorySize) (hashes ++ more)).length - maxHistorySize) =
      (hashes ++ more).length - maxHistorySize := by
    simp only [List.length_drop, List.length_append]
    omega
  rw [skipped]

namespace KnownTxs

/-- What the extension keeps of a history: the queue is no longer than
`MAX_HISTORY_SIZE`, holds each hash once, and holds only hashes of the set. -/
structure Bounded (known : KnownTxs Hash) : Prop where
  short : known.historyQueue.length ≤ maxHistorySize
  distinct : known.historyQueue.Nodup
  subset : ∀ hash ∈ known.historyQueue, hash ∈ known.historySet

theorem bounded_default : (default : KnownTxs Hash).Bounded :=
  ⟨by simp [default], List.nodup_nil, fun _ member => by simp [default] at member⟩

variable [DecidableEq Hash]

/-- `KnownTxs::push`: the hash joins the set and the back of the queue, and the
front of the queue goes once the queue is too long. -/
def push (known : KnownTxs Hash) (hash : Hash) : KnownTxs Hash :=
  let historySet := insert hash known.historySet
  let historyQueue := known.historyQueue ++ [hash]
  if maxHistorySize < historyQueue.length then ⟨historySet, historyQueue.tail⟩
  else ⟨historySet, historyQueue⟩

/-- `KnownTxs::contains`. -/
def contains (known : KnownTxs Hash) (hash : Hash) : Bool :=
  hash ∈ known.historySet

@[simp]
theorem historySet_push (known : KnownTxs Hash) (hash : Hash) :
    (known.push hash).historySet = insert hash known.historySet := by
  unfold push
  dsimp only
  split <;> rfl

@[simp]
theorem contains_iff (known : KnownTxs Hash) (hash : Hash) : known.contains hash = true ↔ hash ∈ known.historySet := by
  simp [contains]

/-- While the queue is short enough, a push keeps the last `MAX_HISTORY_SIZE`
hashes. -/
theorem historyQueue_push {known : KnownTxs Hash} (bounded : known.historyQueue.length ≤ maxHistorySize)
    (hash : Hash) : (known.push hash).historyQueue = lastHashes (known.historyQueue ++ [hash]) := by
  unfold push lastHashes
  dsimp only
  split
  · -- the queue was full: one hash goes from the front
    rename_i overflow
    have one : (known.historyQueue ++ [hash]).length - maxHistorySize = 1 := by
      simp only [List.length_append, List.length_singleton] at overflow ⊢
      omega
    rw [one, List.drop_one]
  · rename_i fits
    have none : (known.historyQueue ++ [hash]).length - maxHistorySize = 0 := by omega
    rw [none, List.drop_zero]

theorem historySet_foldl_push (known : KnownTxs Hash) (hashes : List Hash) :
    (hashes.foldl push known).historySet = known.historySet ∪ hashes.toFinset := by
  induction hashes generalizing known with
  | nil => simp
  | cons hash hashes ih =>
    rw [List.foldl_cons, ih, historySet_push, List.toFinset_cons]
    ext member
    simp only [Finset.mem_union, Finset.mem_insert]
    tauto

/-- After a run of pushes the queue is the last `MAX_HISTORY_SIZE` hashes of the
queue before and the hashes pushed. -/
theorem historyQueue_foldl_push {known : KnownTxs Hash} (bounded : known.historyQueue.length ≤ maxHistorySize)
    (hashes : List Hash) : (hashes.foldl push known).historyQueue = lastHashes (known.historyQueue ++ hashes) := by
  induction hashes generalizing known with
  | nil =>
    have none : known.historyQueue.length - maxHistorySize = 0 := by omega
    rw [List.foldl_nil, List.append_nil, lastHashes, none, List.drop_zero]
  | cons hash hashes ih =>
    have pushed := historyQueue_push bounded hash
    rw [List.foldl_cons, ih (pushed ▸ length_lastHashes_le _), pushed, lastHashes_lastHashes_append,
      List.append_assoc, List.singleton_append]

/-- A push of a hash the history lacks keeps it bounded. -/
theorem Bounded.push {known : KnownTxs Hash} (bounded : known.Bounded) {hash : Hash}
    (fresh : hash ∉ known.historySet) : (known.push hash).Bounded := by
  have queued := historyQueue_push bounded.short hash
  refine ⟨queued ▸ length_lastHashes_le _, ?_, ?_⟩
  · rw [queued, lastHashes]
    refine (List.nodup_append.mpr ⟨bounded.distinct, List.nodup_singleton hash, ?_⟩).sublist (List.drop_sublist _ _)
    intro old oldQueued new newQueued same
    rw [List.mem_singleton] at newQueued
    subst newQueued
    exact fresh (same ▸ bounded.subset old oldQueued)
  · intro member memberQueued
    rw [queued, lastHashes] at memberQueued
    rw [historySet_push, Finset.mem_insert]
    rcases List.mem_append.mp ((List.drop_sublist _ _).subset memberQueued) with old | new
    · exact .inr (bounded.subset member old)
    · exact .inl (List.mem_singleton.mp new)

/-- Pushes of distinct hashes the history lacks keep it bounded. -/
theorem Bounded.foldl_push {known : KnownTxs Hash} (bounded : known.Bounded) {hashes : List Hash}
    (distinct : hashes.Nodup) (fresh : ∀ hash ∈ hashes, hash ∉ known.historySet) :
    (hashes.foldl KnownTxs.push known).Bounded := by
  induction hashes generalizing known with
  | nil => exact bounded
  | cons hash hashes ih =>
    rw [List.nodup_cons] at distinct
    refine ih (bounded.push (fresh hash List.mem_cons_self)) distinct.2 fun other member => ?_
    rw [historySet_push, Finset.mem_insert, not_or]
    exact ⟨fun same => distinct.1 (same ▸ member), fresh other (List.mem_cons_of_mem hash member)⟩

end KnownTxs

variable [DecidableEq Hash]

/-- Pushing distinct hashes into an empty history: once more than
`MAX_HISTORY_SIZE` of them have been pushed, the queue keeps only the last
`MAX_HISTORY_SIZE`, while the set keeps them all and `contains` holds for every
one, so the set is no longer the queue's hashes and grows with every push. -/
theorem pushAll_keeps_evicted {hashes : List Hash} (distinct : hashes.Nodup)
    (overflow : maxHistorySize < hashes.length) :
    let known := hashes.foldl KnownTxs.push default
    known.historyQueue = lastHashes hashes ∧ known.historyQueue.length = maxHistorySize ∧
      known.historySet.card = hashes.length ∧ (∀ hash ∈ hashes, known.contains hash = true) ∧
      ∃ hash ∈ known.historySet, hash ∉ known.historyQueue := by
  intro known
  have empty : (default : KnownTxs Hash).historyQueue.length ≤ maxHistorySize := by simp [default]
  have queued : known.historyQueue = lastHashes hashes := by
    rw [KnownTxs.historyQueue_foldl_push empty]
    rfl
  have remembered : known.historySet = hashes.toFinset := by
    rw [KnownTxs.historySet_foldl_push]
    exact Finset.empty_union _
  -- the first hash pushed was dropped from the queue and stays in the set
  obtain ⟨first, rest, rfl⟩ := List.exists_cons_of_length_pos (Nat.zero_lt_of_lt overflow)
  have dropped : first ∉ lastHashes (first :: rest) := by
    have past : (first :: rest).length - maxHistorySize = (first :: rest).length - maxHistorySize - 1 + 1 := by
      omega
    rw [lastHashes, past, List.drop_succ_cons]
    exact fun member => (List.nodup_cons.mp distinct).1 ((List.drop_sublist _ _).subset member)
  refine ⟨queued, ?_, ?_, fun hash member => ?_, first, ?_, ?_⟩
  · rw [queued, lastHashes, List.length_drop]
    omega
  · rw [remembered, List.toFinset_card_of_nodup distinct]
  · rw [KnownTxs.contains_iff, remembered, List.mem_toFinset]
    exact member
  · rw [remembered, List.mem_toFinset]
    exact List.mem_cons_self
  · rw [queued]
    exact dropped

theorem pushAll_keeps_evicted_range :
    let known := (List.range (maxHistorySize + 1)).foldl KnownTxs.push default
    known.historyQueue = lastHashes (List.range (maxHistorySize + 1)) ∧
      known.historyQueue.length = maxHistorySize ∧
      known.historySet.card = (List.range (maxHistorySize + 1)).length ∧
      (∀ hash ∈ List.range (maxHistorySize + 1), known.contains hash = true) ∧
      ∃ hash ∈ known.historySet, hash ∉ known.historyQueue :=
  pushAll_keeps_evicted List.nodup_range (by simp)

/-! ### The extension -/

/-- `Extension`: the node's history, and the history of every connected peer. -/
structure Extension (NodeId Hash : Type) [DecidableEq NodeId] where
  knownTxs : KnownTxs Hash
  peers : AList fun _ : NodeId => KnownTxs Hash

/-- The events the extension handles: a peer connects or leaves, a message from
a peer decodes to transactions or does not decode, or the broadcast timer fires
while the client has these ready transactions. -/
inductive Event (NodeId Tx : Type) where
  | nodeAdded (token : NodeId)
  | nodeRemoved (token : NodeId)
  | message (token : NodeId) (transactions : Option (List Tx))
  | broadcastTimer (ready : List Tx)

variable {NodeId Tx : Type} [DecidableEq NodeId] (hash : Tx → Hash)

/-- The filter of `on_message`: a transaction whose hash the node's history
lacks is kept, and its hash pushed. -/
def keepUnknown (state : KnownTxs Hash × List Tx) (tx : Tx) : KnownTxs Hash × List Tx :=
  if state.1.contains (hash tx) then state else (state.1.push (hash tx), state.2 ++ [tx])

/-- The ready transactions a peer's history lacks. -/
def unsent (ready : List Tx) (peer : KnownTxs Hash) : List Tx :=
  ready.filter fun tx => !peer.contains (hash tx)

namespace Extension

/-- `Extension::new`. -/
def new : Extension NodeId Hash :=
  ⟨default, ∅⟩

/-- `on_node_added`: a fresh history for the peer, in place of any it had. -/
def onNodeAdded (extension : Extension NodeId Hash) (token : NodeId) : Extension NodeId Hash :=
  ⟨extension.knownTxs, extension.peers.insert token default⟩

/-- `on_node_removed`. -/
def onNodeRemoved (extension : Extension NodeId Hash) (token : NodeId) : Extension NodeId Hash :=
  ⟨extension.knownTxs, extension.peers.erase token⟩

/-- `on_message`: the transactions the node's history lacks are kept and their
hashes pushed, before any is verified; those of them the peer's history lacks are
pushed into it.  Also the transactions queued to the client. -/
def onMessage (extension : Extension NodeId Hash) (token : NodeId) (message : Option (List Tx)) :
    Extension NodeId Hash × List Tx :=
  match message with
  | none => (extension, [])
  | some transactions =>
    let (knownTxs, kept) := transactions.foldl (keepUnknown hash) (extension.knownTxs, [])
    let peers := match extension.peers.lookup token with
      | some peer =>
        extension.peers.insert token (((kept.map hash).filter fun tx => !peer.contains tx).foldl KnownTxs.push peer)
      | none => extension.peers
    (⟨knownTxs, peers⟩, kept)

/-- `random_broadcast`: every peer is sent the ready transactions its history
lacks, and their hashes are pushed into it.  Also what each peer is sent. -/
def randomBroadcast (extension : Extension NodeId Hash) (ready : List Tx) :
    Extension NodeId Hash × List (NodeId × List Tx) :=
  if ready.isEmpty then (extension, [])
  else
    (⟨extension.knownTxs,
        mapValues (fun peer => ((unsent hash ready peer).map hash).foldl KnownTxs.push peer) extension.peers⟩,
      extension.peers.entries.filterMap fun entry =>
        if (unsent hash ready entry.2).isEmpty then none else some (entry.1, unsent hash ready entry.2))

/-- One event. -/
def handle (extension : Extension NodeId Hash) : Event NodeId Tx → Extension NodeId Hash
  | .nodeAdded token => extension.onNodeAdded token
  | .nodeRemoved token => extension.onNodeRemoved token
  | .message token transactions => (extension.onMessage hash token transactions).1
  | .broadcastTimer ready => (extension.randomBroadcast hash ready).1

/-- Every history the extension keeps is bounded. -/
def Bounded (extension : Extension NodeId Hash) : Prop :=
  extension.knownTxs.Bounded ∧ ∀ token peer, extension.peers.lookup token = some peer → peer.Bounded

end Extension

/-- What the client guarantees of a broadcast: its ready transactions have
distinct hashes, as the pool holds one transaction per hash. -/
def Event.ReadyDistinct : Event NodeId Tx → Prop
  | .broadcastTimer ready => (ready.map hash).Nodup
  | _ => True

/-! ### What each handler keeps -/

/-- What the filter of `on_message` keeps: the history bounded, and the kept
transactions of distinct hashes, all in the history. -/
structure Kept (state : KnownTxs Hash × List Tx) : Prop where
  bounded : state.1.Bounded
  distinct : (state.2.map hash).Nodup
  recorded : ∀ tx ∈ state.2, hash tx ∈ state.1.historySet

theorem Kept.step {state : KnownTxs Hash × List Tx} (kept : Kept hash state) (tx : Tx) :
    Kept hash (keepUnknown hash state tx) := by
  obtain ⟨bounded, distinct, recorded⟩ := kept
  unfold Transactions.keepUnknown
  split
  · exact ⟨bounded, distinct, recorded⟩
  · rename_i unknown
    rw [KnownTxs.contains_iff] at unknown
    refine ⟨bounded.push unknown, ?_, fun kept member => ?_⟩
    · rw [List.map_append, List.map_singleton]
      refine List.nodup_append.mpr ⟨distinct, List.nodup_singleton _, fun old oldMember new newMember same => ?_⟩
      rw [List.mem_singleton] at newMember
      obtain ⟨earlier, earlierKept, rfl⟩ := List.mem_map.mp oldMember
      exact unknown (newMember ▸ same ▸ recorded earlier earlierKept)
    · rw [KnownTxs.historySet_push, Finset.mem_insert]
      rcases List.mem_append.mp member with old | new
      · exact .inr (recorded kept old)
      · exact .inl (congrArg hash (List.mem_singleton.mp new))

theorem Kept.foldl {state : KnownTxs Hash × List Tx} (kept : Kept hash state)
    (transactions : List Tx) : Kept hash (transactions.foldl (keepUnknown hash) state) := by
  induction transactions generalizing state with
  | nil => exact kept
  | cons tx transactions ih => exact ih (kept.step hash tx)

/-- The filter of `on_message` leaves every hash of the message in the node's
history, whether it was there or was pushed. -/
theorem historySet_foldl_keepUnknown (state : KnownTxs Hash × List Tx) (transactions : List Tx) :
    (transactions.foldl (keepUnknown hash) state).1.historySet = state.1.historySet ∪ (transactions.map hash).toFinset := by
  induction transactions generalizing state with
  | nil => simp
  | cons tx transactions ih =>
    rw [List.foldl_cons, ih, List.map_cons, List.toFinset_cons]
    have step : (keepUnknown hash state tx).1.historySet = insert (hash tx) state.1.historySet := by
      unfold keepUnknown
      split
      · rename_i known
        rw [KnownTxs.contains_iff] at known
        exact (Finset.insert_eq_of_mem known).symm
      · exact KnownTxs.historySet_push _ _
    rw [step]
    ext member
    simp only [Finset.mem_union, Finset.mem_insert]
    tauto

namespace Extension

omit [DecidableEq Hash] in
theorem bounded_new : (new : Extension NodeId Hash).Bounded :=
  ⟨KnownTxs.bounded_default, fun _ _ found => by simp [new] at found⟩

variable {hash}

omit [DecidableEq Hash] in
/-- Writing a bounded history for one peer keeps the history of every peer
bounded. -/
theorem peers_bounded_insert {peers : AList fun _ : NodeId => KnownTxs Hash}
    (bounded : ∀ token peer, peers.lookup token = some peer → peer.Bounded) (token : NodeId)
    {known : KnownTxs Hash} (knownBounded : known.Bounded) :
    ∀ other peer, (peers.insert token known).lookup other = some peer → peer.Bounded := by
  intro other peer found
  by_cases same : other = token
  · rw [same, AList.lookup_insert, Option.some_inj] at found
    exact found ▸ knownBounded
  · rw [AList.lookup_insert_ne same] at found
    exact bounded other peer found

omit [DecidableEq Hash] in
theorem Bounded.onNodeAdded {extension : Extension NodeId Hash} (bounded : extension.Bounded) (token : NodeId) :
    (extension.onNodeAdded token).Bounded :=
  ⟨bounded.1, peers_bounded_insert bounded.2 token KnownTxs.bounded_default⟩

omit [DecidableEq Hash] in
theorem Bounded.onNodeRemoved {extension : Extension NodeId Hash} (bounded : extension.Bounded) (token : NodeId) :
    (extension.onNodeRemoved token).Bounded := by
  refine ⟨bounded.1, fun other peer found => ?_⟩
  rw [Extension.onNodeRemoved] at found
  by_cases same : other = token
  · rw [same, AList.lookup_erase] at found
    cases found
  · rw [AList.lookup_erase_ne same] at found
    exact bounded.2 other peer found

/-- Pushing into a peer's history the hashes it lacks, of a list without
repeats, keeps it bounded. -/
theorem bounded_foldl_push_fresh {peer : KnownTxs Hash} (bounded : peer.Bounded) {hashes : List Hash}
    (distinct : hashes.Nodup) :
    ((hashes.filter fun tx => !peer.contains tx).foldl KnownTxs.push peer).Bounded := by
  refine bounded.foldl_push (distinct.filter _) fun fresh member => ?_
  have lacks := (List.mem_filter.mp member).2
  simpa [KnownTxs.contains] using lacks

theorem Bounded.onMessage {extension : Extension NodeId Hash} (bounded : extension.Bounded) (token : NodeId)
    (message : Option (List Tx)) : (extension.onMessage hash token message).1.Bounded := by
  cases message with
  | none => exact bounded
  | some transactions =>
    have kept := (show Kept hash (extension.knownTxs, []) from
      ⟨bounded.1, List.nodup_nil, fun _ member => absurd member List.not_mem_nil⟩).foldl hash transactions
    obtain ⟨knownBounded, keptDistinct, _⟩ := kept
    refine ⟨knownBounded, ?_⟩
    simp only [Extension.onMessage]
    split
    · -- the sender's history gets the hashes it lacked
      rename_i previous lookup
      exact peers_bounded_insert bounded.2 token (bounded_foldl_push_fresh (bounded.2 token previous lookup) keptDistinct)
    · exact bounded.2

theorem Bounded.randomBroadcast {extension : Extension NodeId Hash} (bounded : extension.Bounded)
    {ready : List Tx} (distinct : (ready.map hash).Nodup) : (extension.randomBroadcast hash ready).1.Bounded := by
  unfold Extension.randomBroadcast
  split
  · exact bounded
  · refine ⟨bounded.1, fun token peer found => ?_⟩
    rw [lookup_mapValues, Option.map_eq_some_iff] at found
    obtain ⟨previous, lookup, rfl⟩ := found
    -- the hashes sent are those of the ready transactions the peer lacks
    have sent : (unsent hash ready previous).map hash = (ready.map hash).filter fun tx => !previous.contains tx := by
      rw [unsent, List.filter_map]
      rfl
    rw [sent]
    exact bounded_foldl_push_fresh (bounded.2 token previous lookup) distinct

/-- Every event the client's guarantee allows keeps the histories bounded. -/
theorem Bounded.handle {extension : Extension NodeId Hash} (bounded : extension.Bounded) {event : Event NodeId Tx}
    (sound : event.ReadyDistinct hash) : (extension.handle hash event).Bounded := by
  cases event with
  | nodeAdded token => exact bounded.onNodeAdded token
  | nodeRemoved token => exact bounded.onNodeRemoved token
  | message token transactions => exact bounded.onMessage token transactions
  | broadcastTimer ready => exact bounded.randomBroadcast sound

/-- From `new`, along every run of events the client's guarantee allows, every
history's queue holds at most `MAX_HISTORY_SIZE` distinct hashes of its set. -/
theorem bounded_run {events : List (Event NodeId Tx)} (sound : ∀ event ∈ events, event.ReadyDistinct hash) :
    (events.foldl (handle hash) new).Bounded := by
  suffices general : ∀ extension : Extension NodeId Hash, extension.Bounded →
      (events.foldl (handle hash) extension).Bounded from general new bounded_new
  induction events with
  | nil => exact fun _ bounded => bounded
  | cons event events ih =>
    intro extension bounded
    exact ih (fun later member => sound later (List.mem_cons_of_mem event member)) _
      (bounded.handle (sound event List.mem_cons_self))

/-- `on_message` leaves the hash of every transaction of a decoded message in the
node's history, verified or not. -/
theorem historySet_onMessage (extension : Extension NodeId Hash) (token : NodeId) (transactions : List Tx) :
    (extension.onMessage hash token (some transactions)).1.knownTxs.historySet =
      extension.knownTxs.historySet ∪ (transactions.map hash).toFinset :=
  historySet_foldl_keepUnknown hash _ transactions

end Extension

end Transactions

end Sync

end CodeChain
