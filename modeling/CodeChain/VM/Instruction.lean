import Mathlib

/-!
# The instructions of the asset-script VM

A lock script and an unlock script are byte strings that `decode`
(`vm/src/decoder.rs`) turns into `Instruction`s (`vm/src/instruction.rs`): one
opcode byte each, followed for some opcodes by a one-byte immediate, and for
`PUSHB` by a length byte and that many bytes of data.  An unlock script may
only push, and may hold at most five signature checks.
-/

namespace CodeChain

namespace VM

/-- `Instruction`. -/
inductive Instruction where
  | nop
  | burn
  | success
  | fail
  | not
  | eq
  | jmp (offset : UInt8)
  | jnz (offset : UInt8)
  | jz (offset : UInt8)
  | push (value : UInt8)
  | pop
  | pushB (blob : List UInt8)
  | dup
  | swap
  | copy (index : UInt8)
  | drop (index : UInt8)
  | chkSig
  | chkMultiSig
  | blake256
  | sha256
  | ripemd160
  | keccak256
  | blake160
  | chkTimelock (timelockType : UInt8)
  deriving DecidableEq, Repr

/-! The opcodes of `vm/src/opcode.rs`. -/

def opNop : UInt8 := 0x00
def opBurn : UInt8 := 0x01
def opSuccess : UInt8 := 0x02
def opFail : UInt8 := 0x03
def opNot : UInt8 := 0x10
def opEq : UInt8 := 0x11
def opJmp : UInt8 := 0x20
def opJnz : UInt8 := 0x21
def opJz : UInt8 := 0x22
def opPush : UInt8 := 0x30
def opPop : UInt8 := 0x31
def opPushB : UInt8 := 0x32
def opDup : UInt8 := 0x33
def opSwap : UInt8 := 0x34
def opCopy : UInt8 := 0x35
def opDrop : UInt8 := 0x36
def opChkSig : UInt8 := 0x80
def opChkMultiSig : UInt8 := 0x81
def opBlake256 : UInt8 := 0x90
def opSha256 : UInt8 := 0x91
def opRipemd160 : UInt8 := 0x92
def opKeccak256 : UInt8 := 0x93
def opBlake160 : UInt8 := 0x94
def opChkTimelock : UInt8 := 0xb0

/-- The errors of `decode`. -/
inductive DecoderError where
  | scriptTooShort
  | invalidOpCode (code : UInt8)
  | invalidImmediateValue (value : UInt8)
  deriving DecidableEq, Repr

/-- The opcodes without an immediate, as the arms of the `match` in `decode`. -/
def plainInstruction (code : UInt8) : Option Instruction :=
  if code = opNop then some .nop
  else if code = opBurn then some .burn
  else if code = opSuccess then some .success
  else if code = opFail then some .fail
  else if code = opNot then some .not
  else if code = opEq then some .eq
  else if code = opPop then some .pop
  else if code = opDup then some .dup
  else if code = opSwap then some .swap
  else if code = opChkSig then some .chkSig
  else if code = opChkMultiSig then some .chkMultiSig
  else if code = opBlake256 then some .blake256
  else if code = opSha256 then some .sha256
  else if code = opRipemd160 then some .ripemd160
  else if code = opKeccak256 then some .keccak256
  else if code = opBlake160 then some .blake160
  else none

/-- The opcodes followed by a one-byte immediate, other than `CHKTIMELOCK`. -/
def immediateInstruction (code : UInt8) : Option (UInt8 → Instruction) :=
  if code = opJmp then some .jmp
  else if code = opJnz then some .jnz
  else if code = opJz then some .jz
  else if code = opPush then some .push
  else if code = opCopy then some .copy
  else if code = opDrop then some .drop
  else none

/-- An instruction with a one-byte immediate. -/
def decodeImmediate (make : UInt8 → Instruction) :
    List UInt8 → Except DecoderError (Instruction × List UInt8)
  | [] => .error .scriptTooShort
  | value :: rest => .ok (make value, rest)

/-- One iteration of the loop of `decode`: the instruction of an opcode and
the bytes after it.  The opcodes are distinct, so taking the arms of the
source's `match` in groups does not change which one applies. -/
def decodeOne (code : UInt8) (rest : List UInt8) : Except DecoderError (Instruction × List UInt8) :=
  match plainInstruction code, immediateInstruction code with
  | some instruction, _ => .ok (instruction, rest)
  | none, some make => decodeImmediate make rest
  | none, none =>
    if code = opPushB then
      match rest with
      | [] => .error .scriptTooShort
      | len :: rest =>
          if len.toNat ≤ rest.length then .ok (.pushB (rest.take len.toNat), rest.drop len.toNat)
          else .error .scriptTooShort
    else if code = opChkTimelock then
      match rest with
      | [] => .error .scriptTooShort
      | value :: rest =>
          if value < 1 ∨ value > 4 then .error (.invalidImmediateValue value)
          else .ok (.chkTimelock value, rest)
    else .error (.invalidOpCode code)

theorem decodeImmediate_length {make : UInt8 → Instruction} {rest remaining : List UInt8}
    {instruction : Instruction} (decoded : decodeImmediate make rest = .ok (instruction, remaining)) :
    remaining.length < rest.length + 1 := by
  cases rest with
  | nil => cases decoded
  | cons value rest =>
    cases decoded
    simp

/-- An instruction takes at least its opcode. -/
theorem decodeOne_length {code : UInt8} {rest remaining : List UInt8} {instruction : Instruction}
    (decoded : decodeOne code rest = .ok (instruction, remaining)) :
    remaining.length < rest.length + 1 := by
  unfold decodeOne at decoded
  split at decoded
  case h_1 =>
    cases decoded
    omega
  case h_2 => exact decodeImmediate_length decoded
  case h_3 =>
    -- `PUSHB` and `CHKTIMELOCK` read their bytes after the opcode
    split_ifs at decoded
    all_goals
      split at decoded
      · cases decoded
      · split_ifs at decoded
        cases decoded
        simp only [List.length_drop, List.length_cons]
        omega

-- the match hypothesis is read only by the termination proof
set_option linter.unusedVariables false in
/-- `decode`: instructions one after the other until the bytes run out. -/
def decode (bytes : List UInt8) : Except DecoderError (List Instruction) :=
  match bytes with
  | [] => .ok []
  | code :: rest =>
    match decoded : decodeOne code rest with
    | .ok (instruction, remaining) => (instruction :: ·) <$> decode remaining
    | .error error => .error error
termination_by bytes.length
decreasing_by
  have shorter := decodeOne_length decoded
  simp only [List.length_cons]
  omega

/-- `is_valid_unlock_script`: only pushes. -/
def isValidUnlockScript (instructions : List Instruction) : Bool :=
  instructions.all fun
    | .push _ => true
    | .pushB _ => true
    | _ => false

/-- `has_expensive_opcodes`: six signature checks or more. -/
def hasExpensiveOpcodes (instructions : List Instruction) : Bool :=
  (instructions.filter fun instruction =>
    instruction == .chkSig || instruction == .chkMultiSig).length ≥ 6

/-! ### Decoding the scripts of a `PUSHB` and a `CHKSIG` -/

@[simp]
theorem decode_nil : decode [] = .ok [] := by
  rw [decode]

theorem decode_cons_of_decodeOne {code : UInt8} {rest remaining : List UInt8}
    {instruction : Instruction} (decoded : decodeOne code rest = .ok (instruction, remaining)) :
    decode (code :: rest) = (instruction :: ·) <$> decode remaining := by
  rw [decode]
  split
  · rename_i decodedAgain
    rw [decoded] at decodedAgain
    cases decodedAgain
    rfl
  · rename_i decodedAgain
    rw [decoded] at decodedAgain
    cases decodedAgain

theorem decodeOne_pushB (blob rest : List UInt8) (short : blob.length < 256) :
    decodeOne opPushB (UInt8.ofNat blob.length :: (blob ++ rest)) = .ok (.pushB blob, rest) := by
  have length : (UInt8.ofNat blob.length).toNat = blob.length := by
    rw [UInt8.toNat_ofNat']
    omega
  have plain : plainInstruction opPushB = none := by decide
  have immediate : immediateInstruction opPushB = none := by decide
  simp [decodeOne, plain, immediate, length]

theorem decodeOne_chkSig (rest : List UInt8) : decodeOne opChkSig rest = .ok (.chkSig, rest) := by
  have plain : plainInstruction opChkSig = some .chkSig := by decide
  simp [decodeOne, plain]

end VM

end CodeChain
