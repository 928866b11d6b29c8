import Mathlib

/-!
# Bech32

The bech32 string format of BIP 173: a human-readable part, the separator `1`,
and a data part of 5-bit words written in a 32-character alphabet, the last six
of which are a checksum over both parts.  The checksum is the remainder of a
BCH code over GF(32), computed word by word by `polymod`.

This is the format as the BIP specifies it, not a translation of one crate: a
decoder accepts a string exactly when the checks of the BIP pass, and which
check a rejected string fails first is left open.  Strings are lists of
characters, and a length is the number of bytes of their UTF-8 encoding, as
Rust's `str::len` counts it.
-/

namespace CodeChain

/-- A bech32 value: the human-readable part and the data words, without the
checksum. -/
structure Bech32 where
  hrp : List Char
  data : List UInt8
  deriving DecidableEq, Repr

namespace Bech32

/-- The characters of the data part, in the order of the values they write. -/
def charset : List Char :=
  ['q', 'p', 'z', 'r', 'y', '9', 'x', '8', 'g', 'f', '2', 't', 'v', 'd', 'w', '0',
   's', '3', 'j', 'n', '5', '4', 'k', 'h', 'c', 'e', '6', 'm', 'u', 'a', '7', 'l']

/-- The generator of the checksum code, one word for each bit that a step
shifts out of the 30-bit remainder. -/
def generator : List ℕ :=
  [0x3b6a57b2, 0x26508e6d, 0x1ea119fa, 0x3d4233dd, 0x2a1462b3]

/-- One step of `polymod`: shift a word into the remainder and reduce by the
generator for each of the five bits shifted out. -/
def polymodStep (residue word : ℕ) : ℕ :=
  let top := residue >>> 25
  generator.zipIdx.foldl (fun acc entry => if top.testBit entry.2 then acc ^^^ entry.1 else acc)
    (((residue &&& 0x1ffffff) <<< 5) ^^^ word)

/-- The remainder of a word sequence. -/
def polymod (words : List ℕ) : ℕ :=
  words.foldl polymodStep 1

/-- The human-readable part as the checksum sees it: the high bits of each
character, a zero, then the low five bits of each character. -/
def hrpExpand (hrp : List Char) : List ℕ :=
  hrp.map (·.toNat >>> 5) ++ 0 :: hrp.map (·.toNat &&& 31)

/-- A data part with its checksum is valid when the remainder is one. -/
def verifyChecksum (hrp : List Char) (data : List UInt8) : Bool :=
  polymod (hrpExpand hrp ++ data.map UInt8.toNat) == 1

/-- The six checksum words of a data part. -/
def createChecksum (hrp : List Char) (data : List UInt8) : List UInt8 :=
  let residue := polymod (hrpExpand hrp ++ data.map UInt8.toNat ++ List.replicate 6 0) ^^^ 1
  (List.range 6).map fun index => UInt8.ofNat ((residue >>> (5 * (5 - index))) &&& 31)

/-- Why a string or a value is not bech32. -/
inductive Error where
  | missingSeparator
  | invalidChecksum
  | invalidLength
  | invalidChar (c : Char)
  | invalidData (word : UInt8)
  | mixedCase
  deriving DecidableEq, Repr

/-- The number of bytes of the UTF-8 encoding of a string. -/
def byteLength (s : List Char) : ℕ :=
  (s.map Char.utf8Size).sum

/-- The characters a bech32 string may hold: printable ASCII. -/
def isPrintable (c : Char) : Bool :=
  33 ≤ c.toNat && c.toNat ≤ 126

/-- The character that writes a data word. -/
def charOf (word : UInt8) : Char :=
  charset.getD word.toNat 'q'

/-- The parts of a string around its last `1`. -/
def splitLast (s : List Char) : Option (List Char × List Char) :=
  match s.reverse.span (· ≠ '1') with
  | (dataReversed, _ :: hrpReversed) => some (hrpReversed.reverse, dataReversed.reverse)
  | (_, []) => none

/-- Encoding: the human-readable part must have 1 to 83 printable characters
and every data word five bits. -/
def encode (value : Bech32) : Except Error (List Char) :=
  if value.hrp = [] ∨ 83 < value.hrp.length then .error .invalidLength
  else match value.hrp.find? (!isPrintable ·) with
    | some c => .error (.invalidChar c)
    | none =>
        match value.data.find? (32 ≤ ·) with
        | some word => .error (.invalidData word)
        | none => .ok (value.hrp ++ '1' :: (value.data ++ createChecksum value.hrp value.data).map charOf)

/-- Decoding: 8 to 90 printable characters, not of mixed case, split at the
last `1` into a non-empty human-readable part and at least six data
characters of the alphabet, whose checksum is valid.  The human-readable part
is returned in lower case. -/
def decode (s : List Char) : Except Error Bech32 := do
  if byteLength s < 8 ∨ 90 < byteLength s then throw .invalidLength
  if let some c := s.find? (!isPrintable ·) then throw (.invalidChar c)
  if s.any Char.isLower && s.any Char.isUpper then throw .mixedCase
  let (hrp, dataPart) ← match splitLast (s.map Char.toLower) with
    | some parts => pure parts
    | none => throw .missingSeparator
  if hrp = [] ∨ dataPart.length < 6 then throw .invalidLength
  let words ← dataPart.mapM fun c =>
    match charset.idxOf? c with
    | some value => pure (UInt8.ofNat value)
    | none => throw (.invalidChar c)
  if !verifyChecksum hrp words then throw .invalidChecksum
  pure ⟨hrp, words.take (words.length - 6)⟩

end Bech32

end CodeChain
