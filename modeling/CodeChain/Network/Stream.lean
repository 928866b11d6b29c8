import CodeChain.Lib.Fault

/-!
# The network frame reader

A peer's messages arrive on a non-blocking socket as top-level RLP lists.
`TryStream::read_bytes` reads one list: a one-byte header, the bytes of a long
length when the header says so (`read_len`, `read_len_of_len`), and then the
payload (`while remain_length != 0`).  A read that would block saves what was
read so far (`ReadRetry`), and the next call resumes from it.

`try_read` returns `Ok(None)` when it would block and `Ok(Some(0))` at the end
of the stream.  The header reads treat `Some(0)` as nothing read and return;
the payload loop adds the zero bytes read and tries again, so a peer that
closes its side in the middle of a payload keeps the loop running forever.
-/

namespace CodeChain

namespace Network

/-- What `TryStream` uses of its socket, whose state is a `σ` and whose I/O
errors are `ε`.  `tryRead state length` reads into a buffer of `length` bytes:
`none` when it would block, the empty list at the end of the stream, and
otherwise the bytes written at the front of the buffer. -/
structure Socket (σ ε : Type) where
  tryRead : σ → ℕ → Except ε (Option (List UInt8)) × σ
  peerAddr : σ → Except ε Unit
  shutdown : σ → Except ε Unit × σ

/-- The read that a call left unfinished, to be resumed by the next call. -/
inductive ReadRetry where
  | readBytes (result : List UInt8)
  | readLenOfLen (bytes : List UInt8) (readSize : ℕ)
  deriving DecidableEq, Repr

/-- A socket with the read it left unfinished. -/
structure TryStream (σ : Type) where
  stream : σ
  read : Option ReadRetry

variable {σ ε : Type} (socket : Socket σ ε)

/-! ### Lengths -/

/-- `parse_len_of_len`: the number of length bytes after a header of `0xf8`
or more.  The buffer always holds its header byte. -/
def parseLenOfLen (bytes : List UInt8) : ℕ :=
  (bytes.headD 0 - 0xf7).toNat

/-- `parse_short_len`: a header below `0xf8` holds the payload length. -/
def parseShortLen (bytes : List UInt8) : ℕ × ℕ :=
  ((bytes.headD 0).toNat - 0xc0, 1)

/-- `parse_long_len`: the big-endian length in the bytes after the header.
There are at most eight of them, so the `usize` shifts lose no bit. -/
def parseLongLen (bytes : List UInt8) (lenOfLen : ℕ) : ℕ × ℕ :=
  (((bytes.drop 1).take lenOfLen).foldl (fun total byte => total * 256 + byte.toNat) 0,
    1 + lenOfLen)

/-- `parse_len`: the payload length and the header length of a list. -/
def parseLen (bytes : List UInt8) : Except (Fault ε) (ℕ × ℕ) :=
  if 0xf8 ≤ bytes.headD 0 then .ok (parseLongLen bytes (bytes.headD 0 - 0xf7).toNat)
  else if 0xc0 ≤ bytes.headD 0 then .ok (parseShortLen bytes)
  else .error (.panic "internal error: entered unreachable code")

/-! ### The reads -/

/-- `read_len_of_len`: read more of the length bytes into `bytes`, of which
`readSize` are already read.  The call ends with the header and its length
bytes, or saves them for the next call. -/
def readLenOfLen (bytes : List UInt8) (readSize : ℕ) (stream : TryStream σ) :
    Except (Fault ε) (Option (List UInt8)) × TryStream σ :=
  let lenOfLen := parseLenOfLen bytes
  if readSize < lenOfLen then
    match socket.tryRead stream.stream (lenOfLen - readSize) with
    | (.error e, state) => (.error (.error e), { stream with stream := state })
    | (.ok read, state) =>
        -- the bytes read overwrite the buffer `bytes[1 + read_size..]`
        let (bytes, readSize) := match read with
          | some read =>
              (bytes.take (1 + readSize) ++ read ++ bytes.drop (1 + readSize + read.length),
                readSize + read.length)
          | none => (bytes, readSize)
        if lenOfLen = readSize then (.ok (some bytes), { stream with stream := state })
        else (.ok none, { stream := state, read := some (.readLenOfLen bytes readSize) })
  else
    (.error (.panic s!"{readSize} should be less than {lenOfLen}"), stream)

/-- `read_len`: read the header byte.  A list header is kept, with its length
bytes when it has them; any other byte shuts the connection down. -/
def readLen (stream : TryStream σ) : Except (Fault ε) (Option (List UInt8)) × TryStream σ :=
  match socket.tryRead stream.stream 1 with
  | (.error e, state) => (.error (.error e), { stream with stream := state })
  | (.ok none, state) => (.ok none, { stream with stream := state })
  | (.ok (some read), state) =>
      let stream := { stream with stream := state }
      if read.length = 0 then (.ok none, stream)
      else
        let header := read.headD 0
        if 0xf8 ≤ header then
          readLenOfLen socket (header :: List.replicate (header - 0xf7).toNat 0) 0 stream
        else if 0xc0 ≤ header then (.ok (some [header]), stream)
        else
          match socket.peerAddr stream.stream with
          | .error e => (.error (.error e), stream)
          | .ok () =>
              match socket.shutdown stream.stream with
              | (.error e, state) => (.error (.error e), { stream with stream := state })
              | (.ok (), state) => (.ok none, { stream with stream := state })

/-- The payload loop `while remain_length != 0` of `read_bytes`, run for at
most `fuel` iterations: `none` when the fuel runs out.  Each iteration makes
one `try_read` of at most 1024 bytes. -/
def readBody : ℕ → ℕ → List UInt8 → TryStream σ →
    Option (Except (Fault ε) (Option (List UInt8)) × TryStream σ)
  | 0, _, _, _ => none
  | fuel + 1, remain, result, stream =>
      if remain = 0 then some (.ok (some result), stream)
      else
        match socket.tryRead stream.stream (min remain 1024) with
        | (.error e, state) => some (.error (.error e), { stream with stream := state })
        | (.ok (some read), state) =>
            readBody fuel (remain - read.length) (result ++ read) { stream with stream := state }
        | (.ok none, state) =>
            some (.ok none, { stream := state, read := some (.readBytes result) })

/-- `read_bytes`, with at most `fuel` iterations of its payload loop: resume
the saved read or read a new header, then read the payload.  An empty list is
skipped. -/
def readBytes (fuel : ℕ) (stream : TryStream σ) :
    Option (Except (Fault ε) (Option (List UInt8)) × TryStream σ) :=
  match socket.peerAddr stream.stream with
  | .error e => some (.error (.error e), stream)
  | .ok () =>
      -- the saved read is taken out of the stream, whatever happens next
      let (started, stream) := match stream.read with
        | none => readLen socket { stream with read := none }
        | some (.readBytes result) => (.ok (some result), { stream with read := none })
        | some (.readLenOfLen bytes readSize) =>
            readLenOfLen socket bytes readSize { stream with read := none }
      match started with
      | .error fault => some (.error fault, stream)
      | .ok none => some (.ok none, stream)
      | .ok (some result) =>
          match parseLen result with
          | .error fault => some (.error fault, stream)
          | .ok (totalLength, lenOfLen) =>
              if totalLength = 0 then some (.ok none, stream)
              else readBody socket fuel (totalLength + lenOfLen - result.length) result stream

/-! ### The payload loop -/

/-- When every read brings at least one byte, blocks or fails, the payload
loop ends within one iteration per byte it still needs. -/
theorem readBody_isSome_of_progress
    (progress : ∀ state length, 0 < length → ∀ read state',
      socket.tryRead state length = (.ok (some read), state') → 0 < read.length)
    (fuel remain : ℕ) (enough : remain < fuel) (result : List UInt8) (stream : TryStream σ) :
    (readBody socket fuel remain result stream).isSome := by
  induction fuel generalizing remain result stream with
  | zero => omega
  | succ fuel ih =>
      rw [readBody]
      split
      · rfl
      · rename_i unfinished
        split
        · rfl
        · -- a read that brings bytes leaves fewer to read
          rename_i read state reading
          have brought := progress stream.stream (min remain 1024) (by omega) read state reading
          exact ih (remain - read.length) (by omega) _ _
        · rfl

/-- A peer that always has more to send: every read fills the buffer. -/
def endlessPeer : Socket Unit Empty where
  tryRead _ length := (.ok (some (List.replicate length 0)), ())
  peerAddr _ := .ok ()
  shutdown _ := (.ok (), ())

/-- With that peer, a payload of three missing bytes is read within four
iterations. -/
theorem readBody_isSome_of_progress_endlessPeer :
    (∀ state length, 0 < length → ∀ read state',
      endlessPeer.tryRead state length = (.ok (some read), state') → 0 < read.length) ∧
      3 < 4 ∧ (readBody endlessPeer 4 3 [] ⟨(), none⟩ : Option (Except (Fault Empty) _ × _)).isSome :=
  have progress : ∀ state length, 0 < length → ∀ read state',
      endlessPeer.tryRead state length = (.ok (some read), state') → 0 < read.length := by
    intro _ length positive read _ reading
    simp only [endlessPeer, Prod.mk.injEq, Except.ok.injEq, Option.some.injEq] at reading
    rw [← reading.1, List.length_replicate]
    exact positive
  ⟨progress, by decide, readBody_isSome_of_progress endlessPeer progress 4 3 (by decide) [] ⟨(), none⟩⟩

/-- Once the peer has closed the connection, every read returns `Some(0)`,
which the payload loop adds and tries again: a loop that still needs a byte
never ends. -/
theorem readBody_eq_none_of_closed {state : σ}
    (closed : ∀ length, socket.tryRead state length = (.ok (some []), state))
    (fuel remain : ℕ) (unfinished : remain ≠ 0) (result : List UInt8) (read : Option ReadRetry) :
    readBody socket fuel remain result ⟨state, read⟩ = none := by
  induction fuel with
  | zero => rfl
  | succ fuel ih =>
      simp only [readBody, if_neg unfinished, closed, List.length_nil, Nat.sub_zero, List.append_nil]
      exact ih

/-! ### A new list with a short header -/

/-- A short list header, `0xc0` to `0xf7`, is read alone. -/
theorem readLen_of_short_header {stream state : σ} {read : Option ReadRetry} {header : UInt8}
    (reading : socket.tryRead stream 1 = (.ok (some [header]), state))
    (list : 0xc0 ≤ header) (short : header < 0xf8) :
    readLen socket ⟨stream, read⟩ = (.ok (some [header]), ⟨state, read⟩) := by
  have notLong : ¬ 0xf8 ≤ header := UInt8.not_le.mpr short
  unfold readLen
  rw [reading]
  dsimp only
  rw [List.length_singleton, if_neg one_ne_zero, List.headD_cons, if_neg notLong, if_pos list]

/-- A new read of a nonempty short list: the header tells how many payload
bytes the payload loop reads. -/
theorem readBytes_of_short_header {fuel : ℕ} {stream state : σ} {header : UInt8}
    (addressed : socket.peerAddr stream = .ok ())
    (reading : socket.tryRead stream 1 = (.ok (some [header]), state))
    (list : 0xc0 < header) (short : header < 0xf8) :
    readBytes socket fuel ⟨stream, none⟩ =
      readBody socket fuel (header.toNat - 0xc0) [header] ⟨state, none⟩ := by
  have notLong : ¬ 0xf8 ≤ header := UInt8.not_le.mpr short
  have parsed : (parseLen [header] : Except (Fault ε) (ℕ × ℕ)) = .ok (header.toNat - 0xc0, 1) := by
    unfold parseLen
    rw [List.headD_cons, if_neg notLong, if_pos (UInt8.le_of_lt list)]
    rfl
  have nonempty : header.toNat - 0xc0 ≠ 0 := by
    have above := UInt8.lt_iff_toNat_lt.mp list
    simp only [UInt8.toNat_ofNat] at above
    omega
  have started : readLen socket ⟨stream, none⟩ = (.ok (some [header]), ⟨state, none⟩) :=
    readLen_of_short_header socket reading (UInt8.le_of_lt list) short
  simp only [readBytes, addressed, started, parsed, nonempty, if_false, List.length_singleton,
    Nat.add_sub_cancel]

/-! ### A peer that stops in the middle of a payload -/

/-- A peer that has sent `waiting` and then closed its side of the connection.
Each read gets as many of the waiting bytes as fit in the buffer; once they
are all read, `Some(0)`. -/
def closingPeer : Socket (List UInt8) Empty where
  tryRead waiting length := (.ok (some (waiting.take length)), waiting.drop length)
  peerAddr _ := .ok ()
  shutdown waiting := (.ok (), waiting)

/-- The peer sends the header `0xc2` of a list of two bytes, one byte `0x01`
of its payload, and closes the connection.  `read_bytes` reads the header and
the one byte, and then loops on `Some(0)`: no number of iterations of its
payload loop ends the call. -/
theorem readBytes_loops_on_truncated_payload (fuel : ℕ) :
    readBytes closingPeer fuel ⟨[0xc2, 0x01], none⟩ = none := by
  have addressed : closingPeer.peerAddr [0xc2, 0x01] = .ok () := rfl
  have reading : closingPeer.tryRead [0xc2, 0x01] 1 = (.ok (some [0xc2]), [0x01]) := rfl
  have list : (0xc0 : UInt8) < 0xc2 := by decide
  have short : (0xc2 : UInt8) < 0xf8 := by decide
  rw [readBytes_of_short_header closingPeer addressed reading list short]
  cases fuel with
  | zero => rfl
  | succ fuel =>
      -- the one payload byte arrives, and one is still missing
      have announced : (0xc2 : UInt8).toNat - 0xc0 = 2 := by decide
      have delivered : readBody closingPeer (fuel + 1) 2 [0xc2] ⟨[0x01], none⟩ =
          readBody closingPeer fuel 1 [0xc2, 0x01] ⟨[], none⟩ := by
        simp [readBody, closingPeer]
      rw [announced, delivered]
      exact readBody_eq_none_of_closed closingPeer (fun length => by simp [closingPeer]) fuel 1
        one_ne_zero _ none

end Network

end CodeChain
