import CodeChain.Types.CommonParams

/-!
# The wire codec of stake actions

A stake transaction carries its `Action` (`consensus/stake/actions.rs`) as an
RLP list whose first item is a tag.  `ChangeParams` is written as its tag, the
metadata sequence, the whole `CommonParams` and then each signature, so that
its list has `3 + signatures.len()` items; the decoder asks for at least four.

The signatures and the consensus messages of `ReportDoubleVote` have codecs of
their own, passed in with the fact that their decoders read back what their
encoders write.  Decoding an encoded action gives it back, except that a
`ChangeParams` needs a signature to decode at all and its parameters come back
as `CommonParams` decodes them: with the stake parameters reset when there
are 23 items.
-/

namespace CodeChain

namespace Rlp

/-- The RLP codec of a type whose decoder reads back what its encoder writes. -/
structure Codec (α : Type) where
  encode : α → Item
  decode : Item → Option α
  decode_encode : ∀ value, decode (encode value) = some value

/-- `Encodable for Vec<u8>`: the bytes as a string. -/
def Codec.bytes : Codec (List UInt8) :=
  ⟨.data, Item.value, fun _ => rfl⟩

/-- `Encodable for u8`: no bytes for zero, one byte otherwise. -/
def encodeU8 (value : UInt8) : List UInt8 :=
  if value ≠ 0 then [value] else []

@[simp]
theorem decodeU8_encodeU8 (value : UInt8) : decodeU8 (encodeU8 value) = some value := by
  by_cases zero : value = 0 <;> simp [encodeU8, decodeU8, zero]

/-- `impl_decodable_for_hash!(H160, 20)`: exactly 20 bytes. -/
def decodeH160 (bytes : List UInt8) : Option Key.H160 :=
  if fits : bytes.length = 20 then some ⟨bytes, fits⟩ else none

@[simp]
theorem decodeH160_val (address : Key.H160) : decodeH160 address.1 = some address := by
  simp [decodeH160, address.2]

end Rlp

namespace Stake

namespace Codec

open Rlp Key

/-- `ACTION_TAG_TRANSFER_CCS`. -/
def actionTagTransferCcs : UInt8 := 1
/-- `ACTION_TAG_DELEGATE_CCS`. -/
def actionTagDelegateCcs : UInt8 := 2
/-- `ACTION_TAG_REVOKE`. -/
def actionTagRevoke : UInt8 := 3
/-- `ACTION_TAG_SELF_NOMINATE`. -/
def actionTagSelfNominate : UInt8 := 4
/-- `ACTION_TAG_REPORT_DOUBLE_VOTE`. -/
def actionTagReportDoubleVote : UInt8 := 5
/-- `ACTION_TAG_CHANGE_PARAMS`. -/
def actionTagChangeParams : UInt8 := 0xFF

/-- The stake `Action` as it is encoded: with the whole `CommonParams` of the
types crate. -/
inductive Action (Signature Message : Type) where
  | transferCcs (address : H160) (quantity : UInt64)
  | delegateCcs (address : H160) (quantity : UInt64)
  | revoke (address : H160) (quantity : UInt64)
  | selfNominate (deposit : UInt64) (metadata : List UInt8)
  | changeParams (metadataSeq : UInt64) (params : Types.CommonParams) (signatures : List Signature)
  | reportDoubleVote (message1 message2 : Message)
  deriving DecidableEq, Repr

variable {Signature Message : Type} (signature : Codec Signature) (message : Codec Message)

/-- `Encodable for Action`. -/
def encode : Action Signature Message → Except (Fault Empty) Item
  | .transferCcs address quantity =>
      pure (.list [.data (encodeU8 actionTagTransferCcs), .data address.1, .data (encodeU64 quantity)])
  | .delegateCcs address quantity =>
      pure (.list [.data (encodeU8 actionTagDelegateCcs), .data address.1, .data (encodeU64 quantity)])
  | .revoke address quantity =>
      pure (.list [.data (encodeU8 actionTagRevoke), .data address.1, .data (encodeU64 quantity)])
  | .selfNominate deposit metadata =>
      pure (.list [.data (encodeU8 actionTagSelfNominate), .data (encodeU64 deposit), .data metadata])
  | .changeParams metadataSeq params signatures => do
      let params ← Types.CommonParams.encode params
      pure (.list ([.data (encodeU8 actionTagChangeParams), .data (encodeU64 metadataSeq), params] ++
        signatures.map signature.encode))
  | .reportDoubleVote message1 message2 =>
      pure (.list [.data (encodeU8 actionTagReportDoubleVote), message.encode message1,
        message.encode message2])

/-- The branches of `TransferCCS`, `DelegateCCS` and `Revoke`: three items,
the tag, an address and a quantity. -/
def decodeAddressQuantity (rlp : Item) : Option (H160 × UInt64) := do
  let itemCount ← rlp.itemCount
  unless itemCount = 3 do
    none
  pure (← rlp.valAt decodeH160 1, ← rlp.valAt decodeU64 2)

/-- `Decodable for Action`: the tag says which variant follows. -/
def decode (rlp : Item) : Option (Action Signature Message) := do
  let tag ← rlp.valAt decodeU8 0
  if tag = actionTagTransferCcs then
    let (address, quantity) ← decodeAddressQuantity rlp
    pure (.transferCcs address quantity)
  else if tag = actionTagDelegateCcs then
    let (address, quantity) ← decodeAddressQuantity rlp
    pure (.delegateCcs address quantity)
  else if tag = actionTagRevoke then
    let (address, quantity) ← decodeAddressQuantity rlp
    pure (.revoke address quantity)
  else if tag = actionTagSelfNominate then
    let itemCount ← rlp.itemCount
    unless itemCount = 3 do
      none
    pure (.selfNominate (← rlp.valAt decodeU64 1) (← rlp.valAt some 2))
  else if tag = actionTagChangeParams then
    let itemCount ← rlp.itemCount
    unless 4 ≤ itemCount do
      none
    let metadataSeq ← rlp.valAt decodeU64 1
    let params ← Types.CommonParams.decode (← rlp.nth 2)
    let signatures ← (List.range' 3 (itemCount - 3)).mapM fun index => rlp.nth index >>= signature.decode
    pure (.changeParams metadataSeq params signatures)
  else if tag = actionTagReportDoubleVote then
    let itemCount ← rlp.itemCount
    unless itemCount = 3 do
      none
    let message1 ← rlp.nth 1 >>= message.decode
    let message2 ← rlp.nth 2 >>= message.decode
    pure (.reportDoubleVote message1 message2)
  else none

/-- Every action other than `ChangeParams` decodes to itself. -/
theorem decode_encode_of_ne_changeParams {action : Action Signature Message} {item : Item}
    (notChangeParams : ∀ metadataSeq params signatures, action ≠ .changeParams metadataSeq params signatures)
    (encoded : encode signature message action = .ok item) : decode signature message item = some action := by
  cases action with
  | changeParams metadataSeq params signatures => exact absurd rfl (notChangeParams metadataSeq params signatures)
  | reportDoubleVote message1 message2 =>
      simp only [encode, Fault.pure_eq_ok] at encoded
      subst encoded
      simp [decode, Item.valAt, Item.nth, Item.itemCount, Item.value, actionTagReportDoubleVote,
        actionTagTransferCcs, actionTagDelegateCcs, actionTagRevoke, actionTagSelfNominate,
        actionTagChangeParams, message.decode_encode]
  | transferCcs address quantity | delegateCcs address quantity | revoke address quantity
  | selfNominate deposit metadata =>
      simp only [encode, Fault.pure_eq_ok] at encoded
      subst encoded
      simp [decode, decodeAddressQuantity, Item.valAt, Item.nth, Item.itemCount, Item.value,
        actionTagTransferCcs, actionTagDelegateCcs, actionTagRevoke, actionTagSelfNominate]

/-- A self-nomination with a deposit of 10 and three bytes of metadata. -/
theorem decode_encode_selfNominate :
    (∀ metadataSeq params signatures,
      (Action.selfNominate 10 [1, 2, 3] : Action (List UInt8) (List UInt8)) ≠
        .changeParams metadataSeq params signatures) ∧
      ∃ item, encode Codec.bytes Codec.bytes (.selfNominate 10 [1, 2, 3]) = .ok item ∧
        decode Codec.bytes Codec.bytes item = some (.selfNominate 10 [1, 2, 3]) :=
  have notChangeParams : ∀ metadataSeq params signatures,
      (Action.selfNominate 10 [1, 2, 3] : Action (List UInt8) (List UInt8)) ≠
        .changeParams metadataSeq params signatures := fun _ _ _ => by simp
  ⟨notChangeParams, _, rfl, decode_encode_of_ne_changeParams Codec.bytes Codec.bytes notChangeParams rfl⟩

end Codec

end Stake

end CodeChain
