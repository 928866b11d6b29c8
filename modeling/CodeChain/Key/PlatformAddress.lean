import CodeChain.Lib.Bech32
import CodeChain.Lib.Fault

/-!
# Platform addresses

A `PlatformAddress` (`key/src/platform_address.rs`) is written as a bech32
string whose human-readable part is the network id followed by `c`, and whose
data is the version byte and the 20 bytes of the account, regrouped from 8-bit
bytes into 5-bit words by `rearrange_bits`.  `Display` drops the separator,
which always stands at byte 3, and `from_str` puts it back before decoding.

`check_network_id` compares with a process-wide network id that the first call
sets; the model passes it in and returns it.  A string is its list of
characters, and byte offsets into it are offsets into its UTF-8 encoding, as
in Rust.
-/

namespace CodeChain

namespace Key

/-- `NetworkId([u8; 2])`. -/
structure NetworkId where
  first : UInt8
  second : UInt8
  deriving DecidableEq, Repr

/-- A 20-byte account hash, `H160`. -/
abbrev H160 := { bytes : List UInt8 // bytes.length = 20 }

/-- `PlatformAddress`. -/
structure PlatformAddress where
  networkId : NetworkId
  version : UInt8
  address : H160
  deriving DecidableEq, Repr

/-- The variants of the key crate's `Error` that `from_str` returns. -/
inductive Error where
  | bech32InvalidLength
  | bech32UnknownHRP
  | invalidNetworkId (networkId : NetworkId)
  | invalidPlatformAddressVersion (version : UInt8)
  | bech32 (error : Bech32.Error)
  deriving DecidableEq, Repr

/-- `check_network_id`: the saved network id, set by the first call, must be
the given one. -/
def checkNetworkId (saved : Option NetworkId) (networkId : NetworkId) : Bool × Option NetworkId :=
  let saved := saved.getD networkId
  (saved == networkId, some saved)

/-- `NetworkId::from_str`: exactly two bytes. -/
def NetworkId.fromStr (s : List Char) : Except String NetworkId :=
  match s.flatMap String.utf8EncodeChar with
  | [first, second] => .ok ⟨first, second⟩
  | _ => .error "Invalid network_id length"

/-- `str::from_utf8` of the two bytes, which `Display for NetworkId` expects to
succeed: two ASCII characters or one of two bytes. -/
def NetworkId.toChars (networkId : NetworkId) : Option (List Char) :=
  let first := networkId.first.toNat
  let second := networkId.second.toNat
  if first < 0x80 ∧ second < 0x80 then some [Char.ofNat first, Char.ofNat second]
  else if 0xC2 ≤ first ∧ first ≤ 0xDF ∧ 0x80 ≤ second ∧ second ≤ 0xBF then
    some [Char.ofNat ((first % 32) * 64 + second % 64)]
  else none

/-- The string around a byte offset, when the offset is a character boundary:
the test of `String::insert` and of slicing. -/
def splitAtByte : List Char → ℕ → Option (List Char × List Char)
  | s, 0 => some ([], s)
  | [], _ + 1 => none
  | c :: rest, index + 1 =>
      if c.utf8Size ≤ index + 1 then
        (splitAtByte rest (index + 1 - c.utf8Size)).map fun (before, after) => (c :: before, after)
      else none

/-- `String::remove`: take out the character at a byte offset. -/
def removeAt (s : List Char) (index : ℕ) : Except (Fault Empty) (List Char) :=
  match splitAtByte s index with
  | some (before, _ :: after) => .ok (before ++ after)
  | some (_, []) => .error (.panic "cannot remove a char from the end of a string")
  | none => .error (.panic "byte index is not a char boundary")

/-! ### `rearrange_bits` -/

/-- The state of `rearrange_bits`: the groups pushed so far, the index of the
group being filled and the bits it still requires. -/
structure Regrouping where
  groups : List UInt8
  groupIndex : ℕ
  groupRequired : ℕ
  deriving DecidableEq, Repr

/-- The `while` loop of `rearrange_bits` over the `ungrouped` low bits of one
value, for at most `fuel` iterations.  Each iteration places at least one bit,
so `ungrouped` iterations finish the loop, and more change nothing
(`placeBitsFor_succ`).  A group requires no bit only when `into` is zero, which
no caller passes; the loop then stops. -/
def placeBitsFor (into : ℕ) (value : UInt8) : ℕ → ℕ → Regrouping → Regrouping
  | 0, _, state => state
  | fuel + 1, ungrouped, state =>
      let min := Nat.min state.groupRequired ungrouped
      if 0 < min then
        let minMask : UInt8 := (1 <<< min.toUInt8) - 1
        let groups := if state.groupRequired = into then state.groups ++ [0] else state.groups
        let bits :=
          if ungrouped ≥ state.groupRequired then
            (value >>> (ungrouped - state.groupRequired).toUInt8) &&& minMask
          else (value &&& minMask) <<< (state.groupRequired - ungrouped).toUInt8
        let groups := groups.modify state.groupIndex (· ||| bits)
        let required := state.groupRequired - min
        placeBitsFor into value fuel (ungrouped - min)
          (if required = 0 then ⟨groups, state.groupIndex + 1, into⟩ else ⟨groups, state.groupIndex, required⟩)
      else state

/-- The `while` loop of `rearrange_bits` for one value. -/
def placeBits (into : ℕ) (value : UInt8) (ungrouped : ℕ) (state : Regrouping) : Regrouping :=
  placeBitsFor into value ungrouped ungrouped state

/-- With at least as many iterations as bits to place, one more iteration
changes nothing: the loop has ended. -/
theorem placeBitsFor_succ (into : ℕ) (value : UInt8) {fuel ungrouped : ℕ} (enough : ungrouped ≤ fuel)
    (state : Regrouping) :
    placeBitsFor into value (fuel + 1) ungrouped state = placeBitsFor into value fuel ungrouped state := by
  induction fuel generalizing ungrouped state with
  | zero =>
      have none : ungrouped = 0 := Nat.le_zero.mp enough
      subst none
      simp [placeBitsFor]
  | succ fuel ih =>
      conv_lhs => rw [placeBitsFor.eq_2]
      conv_rhs => rw [placeBitsFor.eq_2]
      by_cases positive : 0 < Nat.min state.groupRequired ungrouped
      · -- an iteration places `min ≥ 1` bits, so the rest fits in one iteration less
        rw [if_pos positive, if_pos positive]
        have bound : Nat.min state.groupRequired ungrouped ≤ ungrouped := Nat.min_le_right _ _
        exact ih (by omega) _
      · rw [if_neg positive, if_neg positive]

/-- `rearrange_bits`: regroup the low `fromBits` bits of each value into
groups of `into` bits, the last one padded with zeros. -/
def rearrangeBits (data : List UInt8) (fromBits into : ℕ) : List UInt8 :=
  (data.foldl (fun state value => placeBits into value fromBits state) ⟨[], 0, into⟩).groups

/-! ### Display and `from_str` -/

/-- `Display for PlatformAddress`: the bech32 string of the network id with
`c`, and the version and account bytes, without its separator. -/
def toString (saved : Option NetworkId) (address : PlatformAddress) :
    Except (Fault Empty) (List Char) × Option NetworkId :=
  let (valid, saved) := checkNetworkId saved address.networkId
  if !valid then (.error (.panic "assertion failed: check_network_id(self.network_id)"), saved)
  else
    match address.networkId.toChars with
    | none => (.error (.panic "network_id a valid utf8 string"), saved)
    | some networkId =>
        match Bech32.encode ⟨networkId ++ ['c'], rearrangeBits (address.version :: address.address.val) 8 5⟩ with
        | .error _ => (.error (.panic "called `Result::unwrap()` on an `Err` value"), saved)
        | .ok encoded => (removeAt encoded 3, saved)

/-- The version byte and the account of the regrouped data: `data[0]` and
`data[1..=20]`, which panic on shorter data. -/
def addressOf (networkId : NetworkId) (data : List UInt8) : Except (Fault Error) PlatformAddress :=
  match data with
  | [] => .error (.panic "index out of bounds: the len is 0 but the index is 0")
  | version :: rest =>
      if version ≠ 1 then Fault.fail (.invalidPlatformAddressVersion version)
      else if long : 20 ≤ rest.length then .ok ⟨networkId, version, ⟨rest.take 20, by simp [long]⟩⟩
      else .error (.panic "range end index 21 out of range for slice")

/-- `FromStr for PlatformAddress`: put the separator back at byte 3, decode,
read the network id and the `c` of the human-readable part, and regroup the
data into bytes. -/
def fromStr (saved : Option NetworkId) (s : List Char) :
    Except (Fault Error) PlatformAddress × Option NetworkId :=
  if Bech32.byteLength s < 7 then (Fault.fail .bech32InvalidLength, saved)
  else
    match splitAtByte s 3 with
    | none => (.error (.panic "assertion failed: self.is_char_boundary(idx)"), saved)
    | some (before, after) =>
        match Bech32.decode (before ++ '1' :: after) with
        | .error e => (Fault.fail (.bech32 e), saved)
        | .ok decoded =>
            -- `get(0..2)`: the decoded human-readable part is ASCII, one byte a character
            if decoded.hrp.length < 2 then (.error (.panic "decoded.hrp.len() == 3"), saved)
            else
              match NetworkId.fromStr (decoded.hrp.take 2) with
              | .error _ => (Fault.fail .bech32UnknownHRP, saved)
              | .ok networkId =>
                  let (valid, saved) := checkNetworkId saved networkId
                  if !valid then (Fault.fail (.invalidNetworkId networkId), saved)
                  else if decoded.hrp[2]? ≠ some 'c' then (Fault.fail .bech32UnknownHRP, saved)
                  else (addressOf networkId (rearrangeBits decoded.data 5 8), saved)

/-! ### Where `from_str` panics -/

@[simp]
theorem byteLength_nil : Bech32.byteLength [] = 0 :=
  rfl

@[simp]
theorem byteLength_cons (c : Char) (s : List Char) :
    Bech32.byteLength (c :: s) = c.utf8Size + Bech32.byteLength s :=
  rfl

/-- A byte offset strictly inside a character is no boundary. -/
theorem splitAtByte_eq_none_of_inside {before : List Char} {c : Char} {after : List Char} {index : ℕ}
    (past : Bech32.byteLength before < index) (inside : index < Bech32.byteLength before + c.utf8Size) :
    splitAtByte (before ++ c :: after) index = none := by
  induction before generalizing index with
  | nil =>
      obtain ⟨index, rfl⟩ : ∃ smaller, index = smaller + 1 := ⟨index - 1, by simp at past; omega⟩
      simp only [byteLength_nil, Nat.zero_add] at inside
      rw [List.nil_append, splitAtByte, if_neg (by omega)]
  | cons first before ih =>
      -- the offset lies past the first character: the search goes on after it
      have sized := first.utf8Size_pos
      simp only [byteLength_cons] at past inside
      obtain ⟨index, rfl⟩ : ∃ smaller, index = smaller + 1 := ⟨index - 1, by omega⟩
      rw [List.cons_append, splitAtByte, if_pos (by omega), ih (by omega) (by omega), Option.map_none]

/-- `from_str` panics on every string of at least seven bytes whose byte 3
falls inside a character: `String::insert` asserts a character boundary before
anything is decoded. -/
theorem fromStr_panics_inside_char (saved : Option NetworkId) {before : List Char} {c : Char}
    {after : List Char} (long : 7 ≤ Bech32.byteLength (before ++ c :: after))
    (past : Bech32.byteLength before < 3) (inside : 3 < Bech32.byteLength before + c.utf8Size) :
    Fault.Panics (fromStr saved (before ++ c :: after)).1 := by
  rw [fromStr, if_neg (Nat.not_lt.mpr long), splitAtByte_eq_none_of_inside past inside]
  exact ⟨_, rfl⟩

theorem fromStr_panics_on_euro_sign :
    7 ≤ Bech32.byteLength (['a'] ++ '€' :: ['x', 'x', 'x', 'x', 'x']) ∧ Bech32.byteLength ['a'] < 3 ∧
      3 < Bech32.byteLength ['a'] + '€'.utf8Size ∧
      Fault.Panics (fromStr none (['a'] ++ '€' :: ['x', 'x', 'x', 'x', 'x'])).1 :=
  have long : 7 ≤ Bech32.byteLength (['a'] ++ '€' :: ['x', 'x', 'x', 'x', 'x']) := by decide
  have past : Bech32.byteLength ['a'] < 3 := by decide
  have inside : 3 < Bech32.byteLength ['a'] + '€'.utf8Size := by decide
  ⟨long, past, inside, fromStr_panics_inside_char none long past inside⟩

/-! ### What `from_str` reads of the data -/

/-- Once the string decodes, to a network id the process accepts and with the
`c` after it, `from_str` is the slice of the regrouped data. -/
theorem fromStr_of_decode {s before after : List Char} {decoded : Bech32} {networkId : NetworkId}
    (long : 7 ≤ Bech32.byteLength s) (split : splitAtByte s 3 = some (before, after))
    (decodes : Bech32.decode (before ++ '1' :: after) = .ok decoded)
    (network : NetworkId.fromStr (decoded.hrp.take 2) = .ok networkId) (separator : decoded.hrp[2]? = some 'c') :
    (fromStr none s).1 = addressOf networkId (rearrangeBits decoded.data 5 8) := by
  have named : 2 ≤ decoded.hrp.length := by
    by_contra short
    rw [List.getElem?_eq_none (by omega)] at separator
    cases separator
  rw [fromStr, if_neg (Nat.not_lt.mpr long), split]
  simp [decodes, network, checkNetworkId, separator, show ¬ decoded.hrp.length ≤ 1 by omega]

/-- The slice of the version and the account bytes panics exactly on empty
data, and on data of version 1 shorter than 21 bytes. -/
theorem addressOf_panics_iff (networkId : NetworkId) (data : List UInt8) :
    Fault.Panics (addressOf networkId data) ↔ data = [] ∨ data.head? = some 1 ∧ data.length < 21 := by
  cases data with
  | nil => exact ⟨fun _ => .inl rfl, fun _ => ⟨_, rfl⟩⟩
  | cons version rest =>
    by_cases one : version = 1
    · subst one
      by_cases long : 20 ≤ rest.length
      · simp [addressOf, long, Fault.Panics]
      · simp only [addressOf, ne_eq, not_true_eq_false, ↓reduceIte, long, ↓reduceDIte, List.head?_cons,
          List.length_cons, reduceCtorEq, false_or, true_and]
        exact ⟨fun _ => by omega, fun _ => ⟨_, rfl⟩⟩
    · simp [addressOf, one, Fault.fail, Fault.Panics]

/-- A string that decodes, on the network it names, makes `from_str` panic
exactly when its regrouped data is empty or of version 1 and shorter than 21
bytes: the checksum and the version pass, and the slice of the account fails. -/
theorem fromStr_panics_iff_of_decode {s before after : List Char} {decoded : Bech32} {networkId : NetworkId}
    (long : 7 ≤ Bech32.byteLength s) (split : splitAtByte s 3 = some (before, after))
    (decodes : Bech32.decode (before ++ '1' :: after) = .ok decoded)
    (network : NetworkId.fromStr (decoded.hrp.take 2) = .ok networkId) (separator : decoded.hrp[2]? = some 'c') :
    Fault.Panics (fromStr none s).1 ↔
      rearrangeBits decoded.data 5 8 = [] ∨
        (rearrangeBits decoded.data 5 8).head? = some 1 ∧ (rearrangeBits decoded.data 5 8).length < 21 := by
  rw [fromStr_of_decode long split decodes network separator]
  exact addressOf_panics_iff networkId _

/-- `tccqyjn5xey` carries a valid checksum over the single data byte 1: the
version is right, and the slice of the 20 account bytes panics. -/
example : Fault.Panics (fromStr none ['t', 'c', 'c', 'q', 'y', 'j', 'n', '5', 'x', 'e', 'y']).1 := by
  decide +kernel

/-- Bytes past the 21st are never read: a longer encoding names the same
address. -/
theorem addressOf_append_of_long (networkId : NetworkId) {data : List UInt8} (long : 21 ≤ data.length)
    (extra : List UInt8) :
    addressOf networkId (data ++ extra) = addressOf networkId data := by
  obtain ⟨version, rest, rfl⟩ : ∃ version rest, data = version :: rest :=
    List.exists_cons_of_ne_nil (List.ne_nil_of_length_pos (by omega))
  have enough : 20 ≤ rest.length := by simpa using long
  have longer : 20 ≤ (rest ++ extra).length := by simp; omega
  simp only [List.cons_append, addressOf, enough, longer, ↓reduceDIte, List.take_append_of_le_length enough]

/-- The string of the version byte 1, twenty zero bytes and one more byte
`0xff` on the network `tc`, and the string `Display` writes for the address
`from_str` reads from it. -/
example :
    ∃ address, (fromStr none ['t', 'c', 'c', 'q', 'y', 'q', 'q', 'q', 'q', 'q', 'q', 'q', 'q', 'q', 'q', 'q',
        'q', 'q', 'q', 'q', 'q', 'q', 'q', 'q', 'q', 'q', 'q', 'q', 'q', 'q', 'q', 'q', 'q', 'q', 'q', 'q', 'r',
        'l', 's', 'h', 'y', 'w', 'l', 'f', 'u']).1 = .ok address ∧
      (toString (some ⟨116, 99⟩) address).1 =
        .ok ['t', 'c', 'c', 'q', 'y', 'q', 'q', 'q', 'q', 'q', 'q', 'q', 'q', 'q', 'q', 'q', 'q', 'q', 'q', 'q',
          'q', 'q', 'q', 'q', 'q', 'q', 'q', 'q', 'q', 'q', 'q', 'q', 'q', 'q', 'q', 'q', 'q', 'h', 'h', 'n',
          '9', 'p', '3'] :=
  ⟨⟨⟨116, 99⟩, 1, ⟨List.replicate 20 0, rfl⟩⟩, by decide +kernel, by decide +kernel⟩

end Key

end CodeChain
