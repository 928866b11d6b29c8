import CodeChain.Lib.Bytes

/-!
# The messages of block sync

A peer of the block-sync extension (`sync/src/block`) sends a `Message`: its
status, a request, or a response to one of our requests.  The extension decodes
the bytes with `UntrustedRlp::new(data).as_val()`, through the `Decodable`
impls of `message/mod.rs` and `message/request.rs`, which read the RLP item
with `item_count`, `at` and `val_at` and the scalar decoders of `util/rlp`.

The byte layer of RLP (headers, lengths, the lazy offsets of `UntrustedRlp`)
is not modelled: a message is decoded from the item tree its bytes encode.
The extension only asks whether decoding succeeded and never reads a
`DecoderError`, so the decoders return an `Option`.  `ResponseMessage::decode`,
which reads encoded headers and snappy-compressed transactions, is a parameter.
-/

namespace CodeChain

namespace Rlp

open Bytes

/-- An RLP item as `UntrustedRlp` presents it: a byte string or a list of
items. -/
inductive Item where
  | data (bytes : List UInt8)
  | list (items : List Item)
  deriving Repr

namespace Item

/-- `item_count`: the length of a list. -/
def itemCount : Item → Option ℕ
  | list items => some items.length
  | data _ => none

/-- `at` (a keyword in Lean): the item at an index of a list. -/
def nth (index : ℕ) : Item → Option Item
  | list items => items[index]?
  | data _ => none

/-- `decode_value`: the bytes of a string. -/
def value : Item → Option (List UInt8)
  | data bytes => some bytes
  | list _ => none

/-- `val_at` for a scalar decoder. -/
def valAt {α : Type} (decode : List UInt8 → Option α) (item : Item) (index : ℕ) : Option α := do
  decode (← (← item.nth index).value)

/-- `as_list` for a scalar decoder: the iterator of a string ends at once, so
a string reads as the empty list. -/
def asList {α : Type} (decode : List UInt8 → Option α) : Item → Option (List α)
  | list items => items.mapM fun item => item.value >>= decode
  | data _ => some []

end Item

/-- `Decodable for u8`: no bytes for zero, and one byte otherwise. -/
def decodeU8 : List UInt8 → Option UInt8
  | [] => some 0
  | [byte] => if byte ≠ 0 then some byte else none
  | _ => none

/-- `impl_decodable_for_u!(u64)`: at most eight bytes, without a leading zero;
up to one byte it is the `u8` decoder. -/
def decodeU64 (bytes : List UInt8) : Option UInt64 :=
  if bytes.length ≤ 1 then (decodeU8 bytes).map UInt8.toUInt64
  else if bytes.length ≤ 8 then
    if bytes.head? = some 0 then none else some (UInt64.ofNat (bigEndian bytes))
  else none

/-- `impl_decodable_for_uint!(U256, 32)`: at most 32 bytes, without a leading
zero. -/
def decodeU256 (bytes : List UInt8) : Option ℕ :=
  if bytes.head? = some 0 then none
  else if bytes.length ≤ 32 then some (bigEndian bytes)
  else none

end Rlp

namespace Sync

open Rlp

/-- A 32-byte hash. -/
abbrev H256 := { bytes : List UInt8 // bytes.length = 32 }

/-- `impl_decodable_for_hash!(H256, 32)`: exactly 32 bytes. -/
def decodeH256 (bytes : List UInt8) : Option H256 :=
  if fits : bytes.length = 32 then some ⟨bytes, fits⟩ else none

/-- `RequestMessage`. -/
inductive RequestMessage where
  | headers (startNumber maxCount : UInt64)
  | bodies (hashes : List H256)
  | stateHead (blockHash : H256)
  | stateChunk (blockHash treeRoot : H256)
  deriving DecidableEq

/-- `ResponseMessage`. -/
inductive ResponseMessage (Header Transaction : Type) where
  | headers (headers : List Header)
  | bodies (bodies : List (List Transaction))
  | stateHead (bytes : List UInt8)
  | stateChunk (bytes : List UInt8)

/-- `Message`, with the response type a parameter. -/
inductive Message (Response : Type) where
  | status (totalScore : ℕ) (bestHash genesisHash : H256)
  | request (id : UInt64) (request : RequestMessage)
  | response (id : UInt64) (response : Response)

/-- The message ids of `message/mod.rs`. -/
def messageIdStatus : UInt8 := 0x01
def messageIdGetHeaders : UInt8 := 0x02
def messageIdHeaders : UInt8 := 0x03
def messageIdGetBodies : UInt8 := 0x04
def messageIdBodies : UInt8 := 0x05
def messageIdGetStateHead : UInt8 := 0x06
def messageIdStateHead : UInt8 := 0x07
def messageIdGetStateChunk : UInt8 := 0x08
def messageIdStateChunk : UInt8 := 0x09

/-- `RequestMessage::decode`: the payload of a request with its message id. -/
def RequestMessage.decode (id : UInt8) (rlp : Item) : Option RequestMessage :=
  if id = messageIdGetHeaders then do
    let itemCount ← rlp.itemCount
    if itemCount ≠ 2 then none
    pure (.headers (← rlp.valAt decodeU64 0) (← rlp.valAt decodeU64 1))
  else if id = messageIdGetBodies then
    .bodies <$> rlp.asList decodeH256
  else if id = messageIdGetStateHead then do
    let itemCount ← rlp.itemCount
    if itemCount ≠ 1 then none
    pure (.stateHead (← rlp.valAt decodeH256 0))
  else if id = messageIdGetStateChunk then do
    let itemCount ← rlp.itemCount
    if itemCount ≠ 2 then none
    pure (.stateChunk (← rlp.valAt decodeH256 0) (← rlp.valAt decodeH256 1))
  else none

/-- `Decodable for Message`: the id first; a status is a pair of the id and
three fields, a request or a response a triple of the id, the request id and
the payload. -/
def Message.decode {Response : Type} (decodeResponse : UInt8 → Item → Option Response)
    (rlp : Item) : Option (Message Response) := do
  let id ← rlp.valAt decodeU8 0
  if id = messageIdStatus then
    let itemCount ← rlp.itemCount
    if itemCount ≠ 2 then none
    let message ← rlp.nth 1
    let messageItemCount ← message.itemCount
    if messageItemCount ≠ 3 then none
    pure (.status (← message.valAt decodeU256 0) (← message.valAt decodeH256 1)
      (← message.valAt decodeH256 2))
  else
    let itemCount ← rlp.itemCount
    if itemCount ≠ 3 then none
    let requestId ← rlp.valAt decodeU64 1
    let message ← rlp.nth 2
    if id = messageIdGetHeaders ∨ id = messageIdGetBodies ∨ id = messageIdGetStateHead ∨
        id = messageIdGetStateChunk then
      .request requestId <$> RequestMessage.decode id message
    else if id = messageIdHeaders ∨ id = messageIdBodies ∨ id = messageIdStateHead ∨
        id = messageIdStateChunk then
      .response requestId <$> decodeResponse id message
    else none

/-! ### The items of the messages a peer sends -/

section Decode

variable {Response : Type} (decodeResponse : UInt8 → Item → Option Response)

theorem decodeH256_val (hash : H256) : decodeH256 hash.1 = some hash := by
  simp [decodeH256, hash.2]

/-- A status message: its id, then its score and two hashes. -/
theorem decode_status {scoreBytes : List UInt8} {totalScore : ℕ}
    (decodesScore : decodeU256 scoreBytes = some totalScore) (bestHash genesisHash : H256) :
    Message.decode decodeResponse
        (.list [.data [messageIdStatus], .list [.data scoreBytes, .data bestHash.1, .data genesisHash.1]]) =
      some (.status totalScore bestHash genesisHash) := by
  simp [Message.decode, Item.valAt, Item.nth, Item.value, Item.itemCount, decodeU8, messageIdStatus,
    decodesScore, decodeH256_val]

/-- A request: its id, the request id and the payload, which the request's own
decoder reads. -/
theorem decode_request {id : UInt8}
    (isRequest : id = messageIdGetHeaders ∨ id = messageIdGetBodies ∨ id = messageIdGetStateHead ∨
      id = messageIdGetStateChunk)
    {idBytes : List UInt8} {requestId : UInt64} (decodesId : decodeU64 idBytes = some requestId)
    (payload : Item) :
    Message.decode decodeResponse (.list [.data [id], .data idBytes, payload]) =
      .request requestId <$> RequestMessage.decode id payload := by
  have nonzero : id ≠ 0 := by
    rcases isRequest with rfl | rfl | rfl | rfl <;> decide
  have notStatus : id ≠ messageIdStatus := by
    rcases isRequest with rfl | rfl | rfl | rfl <;> decide
  simp [Message.decode, Item.valAt, Item.nth, Item.value, Item.itemCount, decodeU8, nonzero,
    notStatus, decodesId, isRequest]

theorem decode_stateHead (blockHash : H256) :
    RequestMessage.decode messageIdGetStateHead (.list [.data blockHash.1]) =
      some (.stateHead blockHash) := by
  simp [RequestMessage.decode, Item.valAt, Item.nth, Item.value, Item.itemCount, decodeH256_val,
    messageIdGetStateHead, messageIdGetHeaders, messageIdGetBodies]

theorem decode_stateChunk (blockHash treeRoot : H256) :
    RequestMessage.decode messageIdGetStateChunk (.list [.data blockHash.1, .data treeRoot.1]) =
      some (.stateChunk blockHash treeRoot) := by
  simp [RequestMessage.decode, Item.valAt, Item.nth, Item.value, Item.itemCount, decodeH256_val,
    messageIdGetStateChunk, messageIdGetHeaders, messageIdGetBodies, messageIdGetStateHead]

end Decode

end Sync

end CodeChain
