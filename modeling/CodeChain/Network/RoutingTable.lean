import Mathlib

/-!
# The routing table's key exchange

`RoutingTable` keeps one entry per socket address: how far the key exchange
with that peer has come.  An initiator goes `Candidate → Establishing1 →
Established`, or, once the peer's public key was registered in advance,
`Registered → Establishing2 → Established`; a recipient goes from `Candidate`
or `Registered` to `Established` at once.  `ban` overwrites any entry with
`Banned`, which only `unban` leaves, and `remove` deletes any entry but a
banned one.  Every operation first creates the entry it targets, as a
`Candidate` with a fresh key pair (`entry(target).or_default()`), and an
operation that fails writes nothing more.

The key pairs, the ECDH `exchange` and the nonce cipher are the parameters of
a `Crypto`.  What `Random.generate` and `rng.gen` draw is an argument of the
operation that draws it, and the public keys and encrypted nonces a peer sends
are arbitrary arguments.

Every change an operation makes to an entry is a move of `Edge`, which records
the check the code makes on it (`step_moves`).  From that one fact: every
entry holds the exchange of its own keys as its shared secret
(`TableSecured`), a banned entry stays banned until it is unbanned
(`banned_until_unban`), and the remote key of a registered entry stays until
it is registered again or the entry starts over as a `Candidate`
(`pinned_run`).  `register_remote_public` accepts a `Registered` entry as well
as a `Candidate`, so registering again replaces the key a handshake is then
made with.
-/

namespace CodeChain

namespace Network

namespace RoutingTable

/-- `primitives::Bytes`. -/
abbrev Bytes := List UInt8

/-- What the routing table takes from `ckey` and `ccrypto`: the public key of a
key pair, `exchange(remote, local_key_pair.private())`, which fails on a key
that is no point of the curve, and the cipher of `encrypt_nonce` and
`decrypt_nonce`, which fail on a secret or a ciphertext of a wrong length. -/
structure Crypto (KeyPair Public Secret Nonce : Type) where
  publicOf : KeyPair → Public
  exchange : Public → KeyPair → Option Secret
  encryptNonce : Nonce → Secret → Option Bytes
  decryptNonce : Bytes → Secret → Option Nonce

/-- `SecretOrigin`: the remote key came in the handshake, or was registered
before it. -/
inductive SecretOrigin where
  | shared
  | preimported
  deriving DecidableEq, Repr

/-- `State`: the key exchange with one peer. -/
inductive State (KeyPair Public Secret Nonce : Type) where
  | candidate (localKeyPair : KeyPair)
  | registered (localKeyPair : KeyPair) (remotePublic : Public) (secretOrigin : SecretOrigin)
  | establishing1 (localKeyPair : KeyPair)
  | establishing2 (localKeyPair : KeyPair) (remotePublic : Public) (sharedSecret : Secret)
      (secretOrigin : SecretOrigin)
  | established (localKeyPair : KeyPair) (remotePublic : Public) (sharedSecret : Secret)
      (secretOrigin : SecretOrigin) (nonce : Nonce)
  | banned
  deriving DecidableEq, Repr

/-- `Session::new(shared_secret, nonce)`. -/
structure Session (Secret Nonce : Type) where
  secret : Secret
  nonce : Nonce
  deriving DecidableEq, Repr

/-- The state names the errors print. -/
inductive Kind where
  | candidate
  | registered
  | establishing1
  | establishing2
  | established
  | banned
  deriving DecidableEq, Repr

/-- The errors of the handshake, each with the values its text formats. -/
inductive Failure (Public : Type) where
  /-- Cannot exchange key. -/
  | cannotExchangeKey
  /-- Cannot try establish. current state: the state's name. -/
  | cannotTryEstablish (current : Kind)
  /-- Unexpected remote public received. expected: the registered key, got: the key received. -/
  | unexpectedRemotePublic (expected got : Public)
  /-- Unexpected local public received. expected: the entry's key, got: the key received. -/
  | unexpectedLocalPublic (expected got : Public)
  /-- Cannot establish a connection for Recipient. -/
  | cannotEstablishForRecipient
  /-- Cannot encrypt nonce. -/
  | cannotEncryptNonce
  /-- Ack with an unexepected remote key. expected: the reserved key, got: the key received. -/
  | ackWithUnexpectedRemoteKey (expected got : Public)
  /-- Cannot decrypt nonce. -/
  | cannotDecryptNonce
  /-- Initiator is not Establishing1. -/
  | initiatorNotEstablishing1
  deriving DecidableEq, Repr

variable {KeyPair Public Secret Nonce : Type}

namespace State

variable (crypto : Crypto KeyPair Public Secret Nonce)

/-- `State::local_public`. -/
def localPublic : State KeyPair Public Secret Nonce → Option Public
  | candidate localKeyPair => some (crypto.publicOf localKeyPair)
  | registered localKeyPair .. => some (crypto.publicOf localKeyPair)
  | establishing1 localKeyPair => some (crypto.publicOf localKeyPair)
  | establishing2 localKeyPair .. => some (crypto.publicOf localKeyPair)
  | established localKeyPair .. => some (crypto.publicOf localKeyPair)
  | banned => none

/-- `State::remote_public`. -/
def remotePublic : State KeyPair Public Secret Nonce → Option Public
  | registered _ remotePublic _ => some remotePublic
  | establishing2 _ remotePublic .. => some remotePublic
  | established _ remotePublic .. => some remotePublic
  | _ => none

/-- `State::session`. -/
def session : State KeyPair Public Secret Nonce → Option (Session Secret Nonce)
  | established _ _ sharedSecret _ nonce => some ⟨sharedSecret, nonce⟩
  | _ => none

/-- The `match entry` of `register_remote_public`: the new state, and the local
public key of the `Registered` state it writes. -/
def registerRemotePublic (remote : Public) :
    State KeyPair Public Secret Nonce → State KeyPair Public Secret Nonce × Option Public
  | candidate localKeyPair | registered localKeyPair .. =>
    let next := registered localKeyPair remote .preimported
    (next, next.localPublic crypto)
  | state => (state, none)

/-- The `match entry` of `reset_local_key`, with the key pair `generated` drawn
for it (`State::default()` in a `Candidate`). -/
def resetLocalKey (generated : KeyPair) :
    State KeyPair Public Secret Nonce → State KeyPair Public Secret Nonce × Bool
  | candidate _ => (candidate generated, true)
  | registered _ remotePublic secretOrigin => (registered generated remotePublic secretOrigin, true)
  | state => (state, false)

/-- The `match entry` of `try_establish`: the state it writes and the remote
key of that state. -/
def tryEstablish :
    State KeyPair Public Secret Nonce →
      Except (Failure Public) (State KeyPair Public Secret Nonce × Option Public)
  | candidate localKeyPair =>
    let next := establishing1 localKeyPair
    .ok (next, next.remotePublic)
  | registered localKeyPair remotePublic secretOrigin =>
    match crypto.exchange remotePublic localKeyPair with
    | none => .error .cannotExchangeKey
    | some sharedSecret =>
      let next := establishing2 localKeyPair remotePublic sharedSecret secretOrigin
      .ok (next, next.remotePublic)
  | established .. => .error (.cannotTryEstablish .established)
  | establishing1 _ => .error (.cannotTryEstablish .establishing1)
  | establishing2 .. => .error (.cannotTryEstablish .establishing2)
  | banned => .error (.cannotTryEstablish .banned)

/-- The end both recipients share: the nonce is encrypted under the new secret
before the entry becomes `Established`, and the answer carries the session of
that state. -/
def acceptRecipient (localKeyPair : KeyPair) (remotePublic : Public) (sharedSecret : Secret)
    (secretOrigin : SecretOrigin) (nonce : Nonce) :
    Except (Failure Public) (State KeyPair Public Secret Nonce × Option (Bytes × Public × Session Secret Nonce)) :=
  match crypto.encryptNonce nonce sharedSecret with
  | none => .error .cannotEncryptNonce
  | some encryptedNonce =>
    .ok (established localKeyPair remotePublic sharedSecret secretOrigin nonce,
      some (encryptedNonce, crypto.publicOf localKeyPair, ⟨sharedSecret, nonce⟩))

variable [DecidableEq Public]

/-- The `match entry` of `set_recipient_establish1`, with the `nonce` drawn
from the table's generator. -/
def setRecipientEstablish1 (receivedRemotePublic : Public) (nonce : Nonce) :
    State KeyPair Public Secret Nonce →
      Except (Failure Public) (State KeyPair Public Secret Nonce × Option (Bytes × Public × Session Secret Nonce))
  | candidate localKeyPair =>
    match crypto.exchange receivedRemotePublic localKeyPair with
    | none => .error .cannotExchangeKey
    | some sharedSecret => acceptRecipient crypto localKeyPair receivedRemotePublic sharedSecret .shared nonce
  | registered localKeyPair remotePublic secretOrigin =>
    if remotePublic ≠ receivedRemotePublic then
      .error (.unexpectedRemotePublic remotePublic receivedRemotePublic)
    else
      match crypto.exchange remotePublic localKeyPair with
      | none => .error .cannotExchangeKey
      | some sharedSecret => acceptRecipient crypto localKeyPair remotePublic sharedSecret secretOrigin nonce
  | state@(establishing1 _) => .ok (state, none)
  | state@(establishing2 _ remotePublic ..) =>
    if remotePublic ≠ receivedRemotePublic then
      .error (.unexpectedRemotePublic remotePublic receivedRemotePublic)
    else .ok (state, none)
  | _ => .error .cannotEstablishForRecipient

/-- The `match entry` of `set_recipient_establish2`: as the first, and the local
key the peer names must be the entry's. -/
def setRecipientEstablish2 (receivedLocalPublic receivedRemotePublic : Public) (nonce : Nonce) :
    State KeyPair Public Secret Nonce →
      Except (Failure Public) (State KeyPair Public Secret Nonce × Option (Bytes × Public × Session Secret Nonce))
  | candidate localKeyPair =>
    if receivedLocalPublic ≠ crypto.publicOf localKeyPair then
      .error (.unexpectedLocalPublic (crypto.publicOf localKeyPair) receivedLocalPublic)
    else
      match crypto.exchange receivedRemotePublic localKeyPair with
      | none => .error .cannotExchangeKey
      | some sharedSecret => acceptRecipient crypto localKeyPair receivedRemotePublic sharedSecret .shared nonce
  | registered localKeyPair remotePublic secretOrigin =>
    if receivedLocalPublic ≠ crypto.publicOf localKeyPair then
      .error (.unexpectedLocalPublic (crypto.publicOf localKeyPair) receivedLocalPublic)
    else if remotePublic ≠ receivedRemotePublic then
      .error (.unexpectedRemotePublic remotePublic receivedRemotePublic)
    else
      match crypto.exchange remotePublic localKeyPair with
      | none => .error .cannotExchangeKey
      | some sharedSecret => acceptRecipient crypto localKeyPair remotePublic sharedSecret secretOrigin nonce
  | state@(establishing1 localKeyPair) =>
    if receivedLocalPublic ≠ crypto.publicOf localKeyPair then
      .error (.unexpectedLocalPublic (crypto.publicOf localKeyPair) receivedLocalPublic)
    else .ok (state, none)
  | state@(establishing2 localKeyPair remotePublic ..) =>
    if receivedLocalPublic ≠ crypto.publicOf localKeyPair then
      .error (.unexpectedLocalPublic (crypto.publicOf localKeyPair) receivedLocalPublic)
    else if remotePublic ≠ receivedRemotePublic then
      .error (.unexpectedRemotePublic remotePublic receivedRemotePublic)
    else .ok (state, none)
  | _ => .error .cannotEstablishForRecipient

/-- The `match entry` of `set_initiator_establish`: the answer is the session of
the `Established` state it writes.  The `debug_assert_eq!` on the secret of an
`Establishing2` entry is not part of a release build. -/
def setInitiatorEstablish (remotePublic : Public) (encryptedNonce : Bytes) :
    State KeyPair Public Secret Nonce →
      Except (Failure Public) (State KeyPair Public Secret Nonce × Session Secret Nonce)
  | establishing1 localKeyPair =>
    match crypto.exchange remotePublic localKeyPair with
    | none => .error .cannotExchangeKey
    | some sharedSecret =>
      match crypto.decryptNonce encryptedNonce sharedSecret with
      | none => .error .cannotDecryptNonce
      | some nonce => .ok (established localKeyPair remotePublic sharedSecret .shared nonce, ⟨sharedSecret, nonce⟩)
  | establishing2 localKeyPair reservedRemotePublic sharedSecret secretOrigin =>
    if remotePublic ≠ reservedRemotePublic then
      .error (.ackWithUnexpectedRemoteKey reservedRemotePublic remotePublic)
    else
      match crypto.decryptNonce encryptedNonce sharedSecret with
      | none => .error .cannotDecryptNonce
      | some nonce => .ok (established localKeyPair remotePublic sharedSecret secretOrigin nonce, ⟨sharedSecret, nonce⟩)
  | _ => .error .initiatorNotEstablishing1

end State

namespace State

/-- The `match entry` of `reset_initiator_establish`. -/
def resetInitiatorEstablish :
    State KeyPair Public Secret Nonce → Except (Failure Public) (State KeyPair Public Secret Nonce × Unit)
  | establishing1 localKeyPair => .ok (candidate localKeyPair, ())
  | establishing2 localKeyPair remotePublic _ secretOrigin => .ok (registered localKeyPair remotePublic secretOrigin, ())
  | candidate _ => .error (.cannotTryEstablish .candidate)
  | registered .. => .error (.cannotTryEstablish .registered)
  | established .. => .error (.cannotTryEstablish .established)
  | banned => .error (.cannotTryEstablish .banned)

/-- `ban`: the entry is swapped for `Banned`, and the answer says whether it
was `Established`. -/
def ban : State KeyPair Public Secret Nonce → State KeyPair Public Secret Nonce × Bool
  | established .. => (banned, true)
  | _ => (banned, false)

/-- `unban`, with the key pair `generated` of the `State::default()` it writes. -/
def unban (generated : KeyPair) : State KeyPair Public Secret Nonce → State KeyPair Public Secret Nonce × Bool
  | banned => (candidate generated, true)
  | state => (state, false)

end State

/-- Run an entry change that may fail: a failure writes nothing back. -/
def attempt {ε α : Type} (change : State KeyPair Public Secret Nonce → Except ε (State KeyPair Public Secret Nonce × α))
    (state : State KeyPair Public Secret Nonce) : State KeyPair Public Secret Nonce × Except ε α :=
  match change state with
  | .ok (next, answer) => (next, .ok answer)
  | .error failure => (state, .error failure)

/-- The entries of the table, by socket address. -/
abbrev Entries (Addr KeyPair Public Secret Nonce : Type) := AList fun _ : Addr => State KeyPair Public Secret Nonce

variable {Addr : Type} [DecidableEq Addr]

/-- `entries.entry(target).or_default()`: the entry of `target`, or a
`Candidate` with the fresh key pair of `State::default()`. -/
def orDefault (entries : Entries Addr KeyPair Public Secret Nonce) (target : Addr) (fresh : KeyPair) :
    State KeyPair Public Secret Nonce :=
  (entries.lookup target).getD (.candidate fresh)

/-- An operation under the write lock on the entry of `target`: the entry is
created if it is missing, and `change` gives what is written back and what
the operation answers. -/
def withEntry {α : Type} (entries : Entries Addr KeyPair Public Secret Nonce) (target : Addr) (fresh : KeyPair)
    (change : State KeyPair Public Secret Nonce → State KeyPair Public Secret Nonce × α) :
    Entries Addr KeyPair Public Secret Nonce × α :=
  let changed := change (orDefault entries target fresh)
  (entries.insert target changed.1, changed.2)

section Operations

variable (crypto : Crypto KeyPair Public Secret Nonce) (entries : Entries Addr KeyPair Public Secret Nonce)
  (target : Addr) (fresh : KeyPair)

/-- `RoutingTable::touch`. -/
def touch : Entries Addr KeyPair Public Secret Nonce × Option Public :=
  withEntry entries target fresh fun state => (state, state.localPublic crypto)

/-- `RoutingTable::register_remote_public`. -/
def registerRemotePublic (remote : Public) : Entries Addr KeyPair Public Secret Nonce × Option Public :=
  withEntry entries target fresh (State.registerRemotePublic crypto remote)

/-- `RoutingTable::reset_local_key`. -/
def resetLocalKey (generated : KeyPair) : Entries Addr KeyPair Public Secret Nonce × Bool :=
  withEntry entries target fresh (State.resetLocalKey generated)

/-- `RoutingTable::try_establish`. -/
def tryEstablish : Entries Addr KeyPair Public Secret Nonce × Except (Failure Public) (Option Public) :=
  withEntry entries target fresh (attempt (State.tryEstablish crypto))

variable [DecidableEq Public]

/-- `RoutingTable::set_recipient_establish1`. -/
def setRecipientEstablish1 (receivedRemotePublic : Public) (nonce : Nonce) :
    Entries Addr KeyPair Public Secret Nonce × Except (Failure Public) (Option (Bytes × Public × Session Secret Nonce)) :=
  withEntry entries target fresh (attempt (State.setRecipientEstablish1 crypto receivedRemotePublic nonce))

/-- `RoutingTable::set_recipient_establish2`. -/
def setRecipientEstablish2 (receivedLocalPublic receivedRemotePublic : Public) (nonce : Nonce) :
    Entries Addr KeyPair Public Secret Nonce × Except (Failure Public) (Option (Bytes × Public × Session Secret Nonce)) :=
  withEntry entries target fresh
    (attempt (State.setRecipientEstablish2 crypto receivedLocalPublic receivedRemotePublic nonce))

/-- `RoutingTable::set_initiator_establish`. -/
def setInitiatorEstablish (remotePublic : Public) (encryptedNonce : Bytes) :
    Entries Addr KeyPair Public Secret Nonce × Except (Failure Public) (Session Secret Nonce) :=
  withEntry entries target fresh (attempt (State.setInitiatorEstablish crypto remotePublic encryptedNonce))

/-- `RoutingTable::reset_initiator_establish`. -/
def resetInitiatorEstablish : Entries Addr KeyPair Public Secret Nonce × Except (Failure Public) Unit :=
  withEntry entries target fresh (attempt State.resetInitiatorEstablish)

/-- `RoutingTable::ban`. -/
def ban : Entries Addr KeyPair Public Secret Nonce × Bool :=
  withEntry entries target fresh State.ban

/-- `RoutingTable::unban`. -/
def unban (generated : KeyPair) : Entries Addr KeyPair Public Secret Nonce × Bool :=
  withEntry entries target fresh (State.unban generated)

/-- `RoutingTable::local_public`, the same as `touch`. -/
def localPublic : Entries Addr KeyPair Public Secret Nonce × Option Public :=
  withEntry entries target fresh fun state => (state, state.localPublic crypto)

end Operations

/-- `RoutingTable::remove`: a banned entry is kept. -/
def remove (entries : Entries Addr KeyPair Public Secret Nonce) (target : Addr) :
    Entries Addr KeyPair Public Secret Nonce × Bool :=
  match entries.lookup target with
  | some .banned => (entries, false)
  | _ => (entries.erase target, true)

/-- `RoutingTable::is_banned`. -/
def isBanned (entries : Entries Addr KeyPair Public Secret Nonce) (target : Addr) : Bool :=
  match entries.lookup target with
  | some .banned => true
  | _ => false

/-- `RoutingTable::is_established`. -/
def isEstablished (entries : Entries Addr KeyPair Public Secret Nonce) (target : Addr) : Bool :=
  match entries.lookup target with
  | some (.established ..) => true
  | _ => false

/-- The operations of the table that change it, each with what it draws at
random and what the peer sent.  `touch_addresses` is `touch` on each target
in turn, and the queries change nothing. -/
inductive Op (Addr KeyPair Public Nonce : Type) where
  | touch (target : Addr) (fresh : KeyPair)
  | registerRemotePublic (target : Addr) (remote : Public) (fresh : KeyPair)
  | resetLocalKey (target : Addr) (fresh generated : KeyPair)
  | tryEstablish (target : Addr) (fresh : KeyPair)
  | setRecipientEstablish1 (target : Addr) (receivedRemotePublic : Public) (nonce : Nonce) (fresh : KeyPair)
  | setRecipientEstablish2 (target : Addr) (receivedLocalPublic receivedRemotePublic : Public) (nonce : Nonce)
      (fresh : KeyPair)
  | setInitiatorEstablish (target : Addr) (remotePublic : Public) (encryptedNonce : Bytes) (fresh : KeyPair)
  | resetInitiatorEstablish (target : Addr) (fresh : KeyPair)
  | ban (target : Addr) (fresh : KeyPair)
  | unban (target : Addr) (fresh generated : KeyPair)
  | remove (target : Addr)
  | localPublic (target : Addr) (fresh : KeyPair)
  deriving DecidableEq, Repr

variable [DecidableEq Public] (crypto : Crypto KeyPair Public Secret Nonce)

/-- The table after an operation. -/
def step (entries : Entries Addr KeyPair Public Secret Nonce) :
    Op Addr KeyPair Public Nonce → Entries Addr KeyPair Public Secret Nonce
  | .touch target fresh => (touch crypto entries target fresh).1
  | .registerRemotePublic target remote fresh => (registerRemotePublic crypto entries target fresh remote).1
  | .resetLocalKey target fresh generated => (resetLocalKey entries target fresh generated).1
  | .tryEstablish target fresh => (tryEstablish crypto entries target fresh).1
  | .setRecipientEstablish1 target received nonce fresh =>
    (setRecipientEstablish1 crypto entries target fresh received nonce).1
  | .setRecipientEstablish2 target receivedLocal receivedRemote nonce fresh =>
    (setRecipientEstablish2 crypto entries target fresh receivedLocal receivedRemote nonce).1
  | .setInitiatorEstablish target remote encrypted fresh =>
    (setInitiatorEstablish crypto entries target fresh remote encrypted).1
  | .resetInitiatorEstablish target fresh => (resetInitiatorEstablish entries target fresh).1
  | .ban target fresh => (ban entries target fresh).1
  | .unban target fresh generated => (unban entries target fresh generated).1
  | .remove target => (remove entries target).1
  | .localPublic target fresh => (localPublic crypto entries target fresh).1

/-- The table after a sequence of operations. -/
def run (entries : Entries Addr KeyPair Public Secret Nonce) (ops : List (Op Addr KeyPair Public Nonce)) :
    Entries Addr KeyPair Public Secret Nonce :=
  ops.foldl (step crypto) entries

/-! ### What one operation does to one entry -/

/-- The entry `withEntry` leaves, from the entry it found. -/
def entryAfter {α : Type} (fresh : KeyPair) (change : State KeyPair Public Secret Nonce → State KeyPair Public Secret Nonce × α)
    (entry : Option (State KeyPair Public Secret Nonce)) : Option (State KeyPair Public Secret Nonce) :=
  some (change (entry.getD (.candidate fresh))).1

/-- The entry `remove` leaves: none, unless it was banned. -/
def removed : Option (State KeyPair Public Secret Nonce) → Option (State KeyPair Public Secret Nonce)
  | some .banned => some .banned
  | _ => none

/-- The address an operation writes. -/
def Op.target : Op Addr KeyPair Public Nonce → Addr
  | .touch target _ => target
  | .registerRemotePublic target .. => target
  | .resetLocalKey target .. => target
  | .tryEstablish target _ => target
  | .setRecipientEstablish1 target .. => target
  | .setRecipientEstablish2 target .. => target
  | .setInitiatorEstablish target .. => target
  | .resetInitiatorEstablish target _ => target
  | .ban target _ => target
  | .unban target .. => target
  | .remove target => target
  | .localPublic target _ => target

/-- What an operation does to the entry of its target. -/
def Op.effect : Op Addr KeyPair Public Nonce → Option (State KeyPair Public Secret Nonce) →
    Option (State KeyPair Public Secret Nonce)
  | .touch _ fresh => entryAfter fresh fun state => (state, state.localPublic crypto)
  | .registerRemotePublic _ remote fresh => entryAfter fresh (State.registerRemotePublic crypto remote)
  | .resetLocalKey _ fresh generated => entryAfter fresh (State.resetLocalKey generated)
  | .tryEstablish _ fresh => entryAfter fresh (attempt (State.tryEstablish crypto))
  | .setRecipientEstablish1 _ received nonce fresh =>
    entryAfter fresh (attempt (State.setRecipientEstablish1 crypto received nonce))
  | .setRecipientEstablish2 _ receivedLocal receivedRemote nonce fresh =>
    entryAfter fresh (attempt (State.setRecipientEstablish2 crypto receivedLocal receivedRemote nonce))
  | .setInitiatorEstablish _ remote encrypted fresh =>
    entryAfter fresh (attempt (State.setInitiatorEstablish crypto remote encrypted))
  | .resetInitiatorEstablish _ fresh => entryAfter fresh (attempt State.resetInitiatorEstablish)
  | .ban _ fresh => entryAfter fresh State.ban
  | .unban _ fresh generated => entryAfter fresh (State.unban generated)
  | .remove _ => removed
  | .localPublic _ fresh => entryAfter fresh fun state => (state, state.localPublic crypto)

omit [DecidableEq Public] in
theorem lookup_withEntry {α : Type} (entries : Entries Addr KeyPair Public Secret Nonce) (target : Addr)
    (fresh : KeyPair) (change : State KeyPair Public Secret Nonce → State KeyPair Public Secret Nonce × α)
    (addr : Addr) :
    (withEntry entries target fresh change).1.lookup addr =
      if addr = target then entryAfter fresh change (entries.lookup addr) else entries.lookup addr := by
  unfold withEntry entryAfter orDefault
  split
  · rename_i same
    subst same
    exact AList.lookup_insert _
  · rename_i other
    exact AList.lookup_insert_ne other

omit [DecidableEq Public] in
theorem lookup_remove (entries : Entries Addr KeyPair Public Secret Nonce) (target addr : Addr) :
    (remove entries target).1.lookup addr =
      if addr = target then removed (entries.lookup addr) else entries.lookup addr := by
  unfold remove
  by_cases same : addr = target
  · subst same
    rw [if_pos rfl]
    split
    · rename_i found
      rw [found]
      rfl
    · rename_i kept
      rw [AList.lookup_erase]
      unfold removed
      split
      · rename_i found
        exact absurd found kept
      · rfl
  · rw [if_neg same]
    split
    · rfl
    · exact AList.lookup_erase_ne same

/-- An operation changes the entry of its target, as `Op.effect` says, and no
other. -/
theorem lookup_step (entries : Entries Addr KeyPair Public Secret Nonce) (op : Op Addr KeyPair Public Nonce)
    (addr : Addr) :
    (step crypto entries op).lookup addr =
      if addr = op.target then op.effect crypto (entries.lookup addr) else entries.lookup addr := by
  cases op with
  | remove target => exact lookup_remove entries target addr
  | _ => exact lookup_withEntry _ _ _ _ addr

/-! ### The moves of an entry -/

/-- The moves an entry makes, each with the check the code makes before it.
The handshake's own edges are those of the comment above `State`; the code
adds a second registration of a `Registered` entry, a new local key for a
`Candidate` or a `Registered` one, the resets of a handshake, and `unban`. -/
inductive Edge : State KeyPair Public Secret Nonce → State KeyPair Public Secret Nonce → Prop
  | registerCandidate {localKeyPair : KeyPair} {remote : Public} :
      Edge (.candidate localKeyPair) (.registered localKeyPair remote .preimported)
  | registerAgain {localKeyPair : KeyPair} {remotePublic remote : Public} {secretOrigin : SecretOrigin} :
      Edge (.registered localKeyPair remotePublic secretOrigin) (.registered localKeyPair remote .preimported)
  | resetCandidate {localKeyPair generated : KeyPair} : Edge (.candidate localKeyPair) (.candidate generated)
  | resetRegistered {localKeyPair generated : KeyPair} {remotePublic : Public} {secretOrigin : SecretOrigin} :
      Edge (.registered localKeyPair remotePublic secretOrigin) (.registered generated remotePublic secretOrigin)
  | tryCandidate {localKeyPair : KeyPair} : Edge (.candidate localKeyPair) (.establishing1 localKeyPair)
  | tryRegistered {localKeyPair : KeyPair} {remotePublic : Public} {sharedSecret : Secret}
      {secretOrigin : SecretOrigin} : crypto.exchange remotePublic localKeyPair = some sharedSecret →
      Edge (.registered localKeyPair remotePublic secretOrigin)
        (.establishing2 localKeyPair remotePublic sharedSecret secretOrigin)
  | recipientCandidate {localKeyPair : KeyPair} {remotePublic : Public} {sharedSecret : Secret} {nonce : Nonce} :
      crypto.exchange remotePublic localKeyPair = some sharedSecret →
      Edge (.candidate localKeyPair) (.established localKeyPair remotePublic sharedSecret .shared nonce)
  | recipientRegistered {localKeyPair : KeyPair} {remotePublic : Public} {sharedSecret : Secret}
      {secretOrigin : SecretOrigin} {nonce : Nonce} : crypto.exchange remotePublic localKeyPair = some sharedSecret →
      Edge (.registered localKeyPair remotePublic secretOrigin)
        (.established localKeyPair remotePublic sharedSecret secretOrigin nonce)
  | initiatorEstablishing1 {localKeyPair : KeyPair} {remotePublic : Public} {sharedSecret : Secret}
      {nonce : Nonce} : crypto.exchange remotePublic localKeyPair = some sharedSecret →
      Edge (.establishing1 localKeyPair) (.established localKeyPair remotePublic sharedSecret .shared nonce)
  | initiatorEstablishing2 {localKeyPair : KeyPair} {remotePublic : Public} {sharedSecret : Secret}
      {secretOrigin : SecretOrigin} {nonce : Nonce} :
      Edge (.establishing2 localKeyPair remotePublic sharedSecret secretOrigin)
        (.established localKeyPair remotePublic sharedSecret secretOrigin nonce)
  | resetEstablishing1 {localKeyPair : KeyPair} : Edge (.establishing1 localKeyPair) (.candidate localKeyPair)
  | resetEstablishing2 {localKeyPair : KeyPair} {remotePublic : Public} {sharedSecret : Secret}
      {secretOrigin : SecretOrigin} :
      Edge (.establishing2 localKeyPair remotePublic sharedSecret secretOrigin)
        (.registered localKeyPair remotePublic secretOrigin)
  | ban {state : State KeyPair Public Secret Nonce} : Edge state .banned
  | unban {generated : KeyPair} : Edge .banned (.candidate generated)

/-- How the entry of one address changes in one operation: not at all, by an
edge, created as a `Candidate` that may make one edge at once, or deleted when
it is not banned. -/
inductive Moves : Option (State KeyPair Public Secret Nonce) → Option (State KeyPair Public Secret Nonce) → Prop
  | stay (entry : Option (State KeyPair Public Secret Nonce)) : Moves entry entry
  | edge {state next : State KeyPair Public Secret Nonce} : Edge crypto state next → Moves (some state) (some next)
  | create (fresh : KeyPair) : Moves none (some (.candidate fresh))
  | createEdge {fresh : KeyPair} {next : State KeyPair Public Secret Nonce} :
      Edge crypto (.candidate fresh) next → Moves none (some next)
  | delete {state : State KeyPair Public Secret Nonce} : state ≠ .banned → Moves (some state) none

/-- An entry change that keeps the state or moves it along an edge. -/
def Changes {α : Type} (change : State KeyPair Public Secret Nonce → State KeyPair Public Secret Nonce × α) : Prop :=
  ∀ state, (change state).1 = state ∨ Edge crypto state (change state).1

omit [DecidableEq Addr] [DecidableEq Public] in
theorem moves_entryAfter {α : Type} {change : State KeyPair Public Secret Nonce → State KeyPair Public Secret Nonce × α}
    (changes : Changes crypto change) (fresh : KeyPair) (entry : Option (State KeyPair Public Secret Nonce)) :
    Moves crypto entry (entryAfter fresh change entry) := by
  cases entry with
  | none =>
    -- the entry is created as a `Candidate` and then changed
    rcases changes (.candidate fresh) with same | edge
    · rw [entryAfter, Option.getD_none, same]
      exact .create fresh
    · exact .createEdge edge
  | some state =>
    rcases changes state with same | edge
    · rw [entryAfter, Option.getD_some, same]
      exact .stay _
    · exact .edge edge

omit [DecidableEq Addr] [DecidableEq Public] in
theorem moves_removed (entry : Option (State KeyPair Public Secret Nonce)) : Moves crypto entry (removed entry) := by
  unfold removed
  split
  · exact .stay _
  · rename_i notBanned
    cases entry with
    | none => exact .stay _
    | some state => exact .delete fun banned => notBanned (banned ▸ rfl)

omit [DecidableEq Addr] [DecidableEq Public] in
theorem changes_keep {α : Type} (answer : State KeyPair Public Secret Nonce → α) :
    Changes crypto fun state => (state, answer state) :=
  fun _ => .inl rfl

omit [DecidableEq Addr] [DecidableEq Public] in
/-- A change that may fail moves along an edge where it succeeds. -/
theorem changes_attempt {ε α : Type}
    {change : State KeyPair Public Secret Nonce → Except ε (State KeyPair Public Secret Nonce × α)}
    (moves : ∀ state next answer, change state = .ok (next, answer) → next = state ∨ Edge crypto state next) :
    Changes crypto (attempt change) := by
  intro state
  unfold attempt
  split
  · rename_i next answer changed
    exact moves state next answer changed
  · exact .inl rfl

omit [DecidableEq Addr] [DecidableEq Public] in
theorem changes_registerRemotePublic (remote : Public) :
    Changes crypto (State.registerRemotePublic crypto remote) := by
  intro state
  cases state with
  | candidate => exact .inr .registerCandidate
  | registered => exact .inr .registerAgain
  | _ => exact .inl rfl

omit [DecidableEq Addr] [DecidableEq Public] in
theorem changes_resetLocalKey (generated : KeyPair) :
    Changes crypto (State.resetLocalKey generated) := by
  intro state
  cases state with
  | candidate => exact .inr .resetCandidate
  | registered => exact .inr .resetRegistered
  | _ => exact .inl rfl

omit [DecidableEq Addr] in
/-- A key check of the handshake that lets an operation through: the keys
agree, and the rest of the operation got through. -/
theorem eq_ok_of_check {ε β : Type} {expected got : Public} {failure : ε} {rest : Except ε β} {value : β}
    (checked : (if expected ≠ got then .error failure else rest) = .ok value) : expected = got ∧ rest = .ok value := by
  by_cases same : expected = got
  · rw [if_neg (not_not.mpr same)] at checked
    exact ⟨same, checked⟩
  · rw [if_pos same] at checked
    cases checked

omit [DecidableEq Addr] [DecidableEq Public] in
/-- A key exchange that lets an operation through succeeded. -/
theorem exchange_of_eq_ok {ε β : Type} {remote : Public} {localKeyPair : KeyPair} {failure : ε}
    {rest : Secret → Except ε β} {value : β}
    (exchanged : (match crypto.exchange remote localKeyPair with
      | none => Except.error failure
      | some sharedSecret => rest sharedSecret) = .ok value) :
    ∃ sharedSecret, crypto.exchange remote localKeyPair = some sharedSecret ∧ rest sharedSecret = .ok value := by
  split at exchanged
  · cases exchanged
  · rename_i sharedSecret found
    exact ⟨sharedSecret, found, exchanged⟩

omit [DecidableEq Addr] [DecidableEq Public] in
theorem tryEstablish_moves {state next : State KeyPair Public Secret Nonce} {answer : Option Public}
    (tried : State.tryEstablish crypto state = .ok (next, answer)) : next = state ∨ Edge crypto state next := by
  cases state with
  | candidate =>
    cases tried
    exact .inr .tryCandidate
  | registered localKeyPair remotePublic =>
    obtain ⟨sharedSecret, exchanged, tried⟩ := exchange_of_eq_ok crypto tried
    cases tried
    exact .inr (.tryRegistered exchanged)
  | _ => cases tried

omit [DecidableEq Addr] [DecidableEq Public] in
/-- A recipient that gets through writes the `Established` state. -/
theorem acceptRecipient_eq_ok {localKeyPair : KeyPair} {remotePublic : Public} {sharedSecret : Secret}
    {secretOrigin : SecretOrigin} {nonce : Nonce} {next : State KeyPair Public Secret Nonce}
    {answer : Option (Bytes × Public × Session Secret Nonce)}
    (accepted : State.acceptRecipient crypto localKeyPair remotePublic sharedSecret secretOrigin nonce = .ok (next, answer)) :
    next = .established localKeyPair remotePublic sharedSecret secretOrigin nonce := by
  unfold State.acceptRecipient at accepted
  split at accepted
  · cases accepted
  · cases accepted
    rfl

omit [DecidableEq Addr] in
theorem setRecipientEstablish1_moves {received : Public} {nonce : Nonce} {state next : State KeyPair Public Secret Nonce}
    {answer : Option (Bytes × Public × Session Secret Nonce)}
    (set : State.setRecipientEstablish1 crypto received nonce state = .ok (next, answer)) :
    next = state ∨ Edge crypto state next := by
  cases state with
  | candidate localKeyPair =>
    obtain ⟨sharedSecret, exchanged, accepted⟩ := exchange_of_eq_ok crypto set
    rw [acceptRecipient_eq_ok crypto accepted]
    exact .inr (.recipientCandidate exchanged)
  | registered localKeyPair remotePublic =>
    obtain ⟨-, set⟩ := eq_ok_of_check set
    obtain ⟨sharedSecret, exchanged, accepted⟩ := exchange_of_eq_ok crypto set
    rw [acceptRecipient_eq_ok crypto accepted]
    exact .inr (.recipientRegistered exchanged)
  | establishing1 =>
    cases set
    exact .inl rfl
  | establishing2 localKeyPair remotePublic =>
    -- an acknowledged key changes nothing
    obtain ⟨-, set⟩ := eq_ok_of_check set
    cases set
    exact .inl rfl
  | _ => cases set

omit [DecidableEq Addr] in
theorem setRecipientEstablish2_moves {receivedLocal receivedRemote : Public} {nonce : Nonce}
    {state next : State KeyPair Public Secret Nonce} {answer : Option (Bytes × Public × Session Secret Nonce)}
    (set : State.setRecipientEstablish2 crypto receivedLocal receivedRemote nonce state = .ok (next, answer)) :
    next = state ∨ Edge crypto state next := by
  cases state with
  | candidate localKeyPair =>
    obtain ⟨-, set⟩ := eq_ok_of_check set
    obtain ⟨sharedSecret, exchanged, accepted⟩ := exchange_of_eq_ok crypto set
    rw [acceptRecipient_eq_ok crypto accepted]
    exact .inr (.recipientCandidate exchanged)
  | registered localKeyPair remotePublic =>
    obtain ⟨-, set⟩ := eq_ok_of_check set
    obtain ⟨-, set⟩ := eq_ok_of_check set
    obtain ⟨sharedSecret, exchanged, accepted⟩ := exchange_of_eq_ok crypto set
    rw [acceptRecipient_eq_ok crypto accepted]
    exact .inr (.recipientRegistered exchanged)
  | establishing1 localKeyPair =>
    obtain ⟨-, set⟩ := eq_ok_of_check set
    cases set
    exact .inl rfl
  | establishing2 localKeyPair remotePublic =>
    obtain ⟨-, set⟩ := eq_ok_of_check set
    obtain ⟨-, set⟩ := eq_ok_of_check set
    cases set
    exact .inl rfl
  | _ => cases set

omit [DecidableEq Addr] in
theorem setInitiatorEstablish_moves {remote : Public} {encrypted : Bytes} {state next : State KeyPair Public Secret Nonce}
    {answer : Session Secret Nonce}
    (set : State.setInitiatorEstablish crypto remote encrypted state = .ok (next, answer)) :
    next = state ∨ Edge crypto state next := by
  cases state with
  | establishing1 localKeyPair =>
    obtain ⟨sharedSecret, exchanged, decrypted⟩ := exchange_of_eq_ok crypto set
    split at decrypted
    · cases decrypted
    · cases decrypted
      exact .inr (.initiatorEstablishing1 exchanged)
  | establishing2 localKeyPair reserved =>
    -- the ack names the reserved key, which the new state keeps
    obtain ⟨rfl, decrypted⟩ := eq_ok_of_check set
    split at decrypted
    · cases decrypted
    · cases decrypted
      exact .inr .initiatorEstablishing2
  | _ => cases set

omit [DecidableEq Addr] [DecidableEq Public] in
theorem resetInitiatorEstablish_moves {state next : State KeyPair Public Secret Nonce}
    (reset : State.resetInitiatorEstablish state = .ok (next, ())) : next = state ∨ Edge crypto state next := by
  cases state with
  | establishing1 =>
    cases reset
    exact .inr .resetEstablishing1
  | establishing2 =>
    cases reset
    exact .inr .resetEstablishing2
  | _ => cases reset

omit [DecidableEq Addr] [DecidableEq Public] in
theorem changes_ban : Changes crypto (@State.ban KeyPair Public Secret Nonce) := by
  intro state
  cases state <;> exact .inr .ban

omit [DecidableEq Addr] [DecidableEq Public] in
theorem changes_unban (generated : KeyPair) : Changes crypto (State.unban generated) := by
  intro state
  cases state with
  | banned => exact .inr .unban
  | _ => exact .inl rfl

omit [DecidableEq Addr] in
/-- Every operation moves the entry of its target as `Moves` says. -/
theorem Op.moves (op : Op Addr KeyPair Public Nonce) (entry : Option (State KeyPair Public Secret Nonce)) :
    Moves crypto entry (op.effect crypto entry) := by
  cases op with
  | touch _ fresh => exact moves_entryAfter crypto (changes_keep crypto _) fresh entry
  | registerRemotePublic _ remote fresh =>
    exact moves_entryAfter crypto (changes_registerRemotePublic crypto remote) fresh entry
  | resetLocalKey _ fresh generated => exact moves_entryAfter crypto (changes_resetLocalKey crypto generated) fresh entry
  | tryEstablish _ fresh =>
    exact moves_entryAfter crypto (changes_attempt crypto fun _ _ _ => tryEstablish_moves crypto) fresh entry
  | setRecipientEstablish1 _ _ _ fresh =>
    exact moves_entryAfter crypto (changes_attempt crypto fun _ _ _ => setRecipientEstablish1_moves crypto) fresh entry
  | setRecipientEstablish2 _ _ _ _ fresh =>
    exact moves_entryAfter crypto (changes_attempt crypto fun _ _ _ => setRecipientEstablish2_moves crypto) fresh entry
  | setInitiatorEstablish _ _ _ fresh =>
    exact moves_entryAfter crypto (changes_attempt crypto fun _ _ _ => setInitiatorEstablish_moves crypto) fresh entry
  | resetInitiatorEstablish _ fresh =>
    exact moves_entryAfter crypto (changes_attempt crypto fun _ _ _ => resetInitiatorEstablish_moves crypto) fresh entry
  | ban _ fresh => exact moves_entryAfter crypto (changes_ban crypto) fresh entry
  | unban _ fresh generated => exact moves_entryAfter crypto (changes_unban crypto generated) fresh entry
  | remove => exact moves_removed crypto entry
  | localPublic _ fresh => exact moves_entryAfter crypto (changes_keep crypto _) fresh entry

/-- One operation moves the entry of every address as `Moves` says. -/
theorem step_moves (entries : Entries Addr KeyPair Public Secret Nonce) (op : Op Addr KeyPair Public Nonce) (addr : Addr) :
    Moves crypto (entries.lookup addr) ((step crypto entries op).lookup addr) := by
  rw [lookup_step]
  split
  · exact op.moves crypto _
  · exact .stay _

theorem run_cons (entries : Entries Addr KeyPair Public Secret Nonce) (op : Op Addr KeyPair Public Nonce)
    (ops : List (Op Addr KeyPair Public Nonce)) : run crypto entries (op :: ops) = run crypto (step crypto entries op) ops :=
  rfl

/-! ### Secrets -/

/-- An entry whose shared secret is the exchange of its remote public key with
its local key pair. -/
def Secured : State KeyPair Public Secret Nonce → Prop
  | .establishing2 localKeyPair remotePublic sharedSecret _ => crypto.exchange remotePublic localKeyPair = some sharedSecret
  | .established localKeyPair remotePublic sharedSecret .. => crypto.exchange remotePublic localKeyPair = some sharedSecret
  | _ => True

omit [DecidableEq Public] in
theorem Edge.secured {state next : State KeyPair Public Secret Nonce} (edge : Edge crypto state next)
    (secured : Secured crypto state) : Secured crypto next := by
  cases edge with
  | tryRegistered exchanged => exact exchanged
  | recipientCandidate exchanged => exact exchanged
  | recipientRegistered exchanged => exact exchanged
  | initiatorEstablishing1 exchanged => exact exchanged
  | initiatorEstablishing2 => exact secured
  | _ => trivial

/-- Every entry of the table is `Secured`. -/
def TableSecured (entries : Entries Addr KeyPair Public Secret Nonce) : Prop :=
  ∀ addr state, entries.lookup addr = some state → Secured crypto state

omit [DecidableEq Public] in
theorem Moves.secured {entry next : Option (State KeyPair Public Secret Nonce)} (moves : Moves crypto entry next)
    (secured : ∀ state, entry = some state → Secured crypto state) :
    ∀ state, next = some state → Secured crypto state := by
  intro state found
  cases moves with
  | stay => exact secured state found
  | edge edge =>
    cases found
    exact edge.secured crypto (secured _ rfl)
  | create => cases found; trivial
  | createEdge edge =>
    cases found
    exact edge.secured crypto trivial
  | delete => cases found

theorem TableSecured.step {entries : Entries Addr KeyPair Public Secret Nonce} (secured : TableSecured crypto entries)
    (op : Op Addr KeyPair Public Nonce) : TableSecured crypto (step crypto entries op) :=
  fun addr => (step_moves crypto entries op addr).secured crypto (secured addr)

theorem TableSecured.run {entries : Entries Addr KeyPair Public Secret Nonce} (secured : TableSecured crypto entries)
    (ops : List (Op Addr KeyPair Public Nonce)) : TableSecured crypto (run crypto entries ops) := by
  induction ops generalizing entries with
  | nil => exact secured
  | cons op ops ih => exact ih (secured.step crypto op)

omit [DecidableEq Public] in
theorem tableSecured_empty : TableSecured crypto (∅ : Entries Addr KeyPair Public Secret Nonce) :=
  fun _ _ found => by simp at found

omit [DecidableEq Public] in
/-- A secured entry has a session exactly when it is `Established`, and the
session's secret is then the exchange of the entry's keys. -/
theorem session_eq_some_iff {state : State KeyPair Public Secret Nonce} (secured : Secured crypto state)
    (session : Session Secret Nonce) :
    state.session = some session ↔
      ∃ localKeyPair remotePublic secretOrigin,
        state = .established localKeyPair remotePublic session.secret secretOrigin session.nonce ∧
          crypto.exchange remotePublic localKeyPair = some session.secret := by
  constructor
  · intro opened
    cases state with
    | established localKeyPair remotePublic sharedSecret secretOrigin nonce =>
      cases opened
      exact ⟨localKeyPair, remotePublic, secretOrigin, rfl, secured⟩
    | _ => cases opened
  · rintro ⟨localKeyPair, remotePublic, secretOrigin, rfl, _⟩
    rfl

/-! ### Bans -/

omit [DecidableEq Addr] in
/-- A banned entry is left banned by every operation but `unban`. -/
theorem effect_banned (op : Op Addr KeyPair Public Nonce)
    (kept : ∀ fresh generated, op ≠ .unban op.target fresh generated) :
    op.effect crypto (some .banned) = some .banned := by
  cases op with
  | unban target fresh generated => exact absurd rfl (kept fresh generated)
  | _ => rfl

/-- A banned entry stays banned through every run without an `unban` of it. -/
theorem banned_until_unban {entries : Entries Addr KeyPair Public Secret Nonce} {addr : Addr}
    (banned : entries.lookup addr = some .banned) {ops : List (Op Addr KeyPair Public Nonce)}
    (kept : ∀ fresh generated, Op.unban addr fresh generated ∉ ops) :
    (run crypto entries ops).lookup addr = some .banned := by
  induction ops generalizing entries with
  | nil => exact banned
  | cons op ops ih =>
    refine ih ?_ fun fresh generated member => kept fresh generated (List.mem_cons_of_mem _ member)
    rw [lookup_step]
    split
    · rename_i same
      rw [banned]
      refine effect_banned crypto op fun fresh generated unbanned => kept fresh generated ?_
      rw [same, ← unbanned]
      exact List.mem_cons_self
    · exact banned

/-! ### Remote keys -/

/-- An entry that keeps the remote key `remote` it was registered with, and
the secret of that key: registered with it, establishing or established with
it, or banned. -/
def Pinned (remote : Public) : State KeyPair Public Secret Nonce → Prop
  | .registered _ remotePublic _ => remotePublic = remote
  | .establishing2 localKeyPair remotePublic sharedSecret _ =>
    remotePublic = remote ∧ crypto.exchange remotePublic localKeyPair = some sharedSecret
  | .established localKeyPair remotePublic sharedSecret .. =>
    remotePublic = remote ∧ crypto.exchange remotePublic localKeyPair = some sharedSecret
  | .banned => True
  | _ => False

/-- Where an entry may be while its registration with `remote` lasts: it is
there, it is no `Candidate`, and it is registered with no other key. -/
def Stays (remote : Public) : Option (State KeyPair Public Secret Nonce) → Prop
  | some (.candidate _) => False
  | some (.registered _ remotePublic _) => remotePublic = remote
  | some _ => True
  | none => False

omit [DecidableEq Public] in
theorem Edge.pinned {remote : Public} {state next : State KeyPair Public Secret Nonce} (edge : Edge crypto state next)
    (pinned : Pinned crypto remote state) (stays : Stays remote (some next)) : Pinned crypto remote next := by
  cases edge with
  | registerAgain => exact stays
  | resetRegistered => exact pinned
  | tryRegistered exchanged => exact ⟨pinned, exchanged⟩
  | recipientRegistered exchanged => exact ⟨pinned, exchanged⟩
  | initiatorEstablishing2 => exact pinned
  | resetEstablishing2 => exact pinned.1
  | ban => trivial
  | unban => exact stays.elim
  | registerCandidate | resetCandidate | tryCandidate | recipientCandidate _ | initiatorEstablishing1 _
    | resetEstablishing1 => exact pinned.elim

omit [DecidableEq Public] in
theorem Moves.pinned {remote : Public} {state : State KeyPair Public Secret Nonce}
    {next : Option (State KeyPair Public Secret Nonce)} (moves : Moves crypto (some state) next)
    (pinned : Pinned crypto remote state) (stays : Stays remote next) :
    ∃ state', next = some state' ∧ Pinned crypto remote state' := by
  cases moves with
  | stay => exact ⟨state, rfl, pinned⟩
  | edge edge => exact ⟨_, rfl, edge.pinned crypto pinned stays⟩
  | delete => exact stays.elim

/-- An entry pinned to `remote` stays pinned through a run in which, after
every operation, it stays. -/
theorem pinned_run {entries : Entries Addr KeyPair Public Secret Nonce} {addr : Addr} {remote : Public}
    {state : State KeyPair Public Secret Nonce} (found : entries.lookup addr = some state)
    (pinned : Pinned crypto remote state) {ops : List (Op Addr KeyPair Public Nonce)}
    (stays : ∀ i ≤ ops.length, Stays remote ((run crypto entries (ops.take i)).lookup addr)) :
    ∃ state', (run crypto entries ops).lookup addr = some state' ∧ Pinned crypto remote state' := by
  induction ops generalizing entries state with
  | nil => exact ⟨state, found, pinned⟩
  | cons op ops ih =>
    -- the first operation keeps the pin; the rest of the run starts from there
    have moved := step_moves crypto entries op addr
    rw [found] at moved
    obtain ⟨next, stepped, nextPinned⟩ := moved.pinned crypto pinned (stays 1 (by simp))
    refine ih stepped nextPinned fun i within => ?_
    have later := stays (i + 1) (by simpa using within)
    rwa [List.take_succ_cons, run_cons] at later

/-! ### The handshake over every run -/

/-- The routing table over any run of its operations, with any keys and
nonces a peer sends: one operation moves each entry as `Moves` says; a banned
entry becomes `Established` only after an `unban` of it; an entry registered
with `remote` that stays so registered is established only with `remote` and
the exchange of it; and in every table a run from the empty one reaches,
`session` is some exactly on an `Established` entry, whose secret is the
exchange of its keys. -/
theorem handshake_edges_bans_and_pins :
    (∀ (entries : Entries Addr KeyPair Public Secret Nonce) (op : Op Addr KeyPair Public Nonce) (addr : Addr),
      Moves crypto (entries.lookup addr) ((step crypto entries op).lookup addr)) ∧
    (∀ (entries : Entries Addr KeyPair Public Secret Nonce) (ops : List (Op Addr KeyPair Public Nonce)) (addr : Addr)
        (localKeyPair : KeyPair) (remotePublic : Public) (sharedSecret : Secret) (secretOrigin : SecretOrigin)
        (nonce : Nonce),
      entries.lookup addr = some .banned →
      (run crypto entries ops).lookup addr =
        some (.established localKeyPair remotePublic sharedSecret secretOrigin nonce) →
      ∃ fresh generated, Op.unban addr fresh generated ∈ ops) ∧
    (∀ (entries : Entries Addr KeyPair Public Secret Nonce) (ops : List (Op Addr KeyPair Public Nonce)) (addr : Addr)
        (localKeyPair : KeyPair) (remote : Public) (secretOrigin : SecretOrigin),
      entries.lookup addr = some (.registered localKeyPair remote secretOrigin) →
      (∀ i ≤ ops.length, Stays remote ((run crypto entries (ops.take i)).lookup addr)) →
      ∀ (established : KeyPair) (remotePublic : Public) (sharedSecret : Secret) (origin : SecretOrigin)
        (nonce : Nonce),
        (run crypto entries ops).lookup addr = some (.established established remotePublic sharedSecret origin nonce) →
        remotePublic = remote ∧ crypto.exchange remote established = some sharedSecret) ∧
    (∀ (ops : List (Op Addr KeyPair Public Nonce)) (addr : Addr) (state : State KeyPair Public Secret Nonce),
      (run crypto ∅ ops).lookup addr = some state →
      ∀ session : Session Secret Nonce, state.session = some session ↔
        ∃ localKeyPair remotePublic secretOrigin,
          state = .established localKeyPair remotePublic session.secret secretOrigin session.nonce ∧
            crypto.exchange remotePublic localKeyPair = some session.secret) := by
  refine ⟨step_moves crypto, ?banned, ?pinned, ?sessions⟩
  case banned =>
    intro entries ops addr _ _ _ _ _ banned established
    -- without an `unban` the entry would still be banned
    by_contra never
    have kept : ∀ fresh generated, Op.unban addr fresh generated ∉ ops :=
      fun fresh generated member => never ⟨fresh, generated, member⟩
    rw [banned_until_unban crypto banned kept] at established
    cases established
  case pinned =>
    intro entries ops addr _ remote _ found stays _ _ _ _ _ established
    obtain ⟨state, final, pinned⟩ := pinned_run crypto found rfl stays
    rw [established, Option.some_inj] at final
    subst final
    obtain ⟨same, exchanged⟩ := pinned
    exact ⟨same, same ▸ exchanged⟩
  case sessions =>
    intro ops addr state found
    exact session_eq_some_iff crypto ((tableSecured_empty crypto).run crypto ops addr state found)

/-- A `Crypto` to run the model on: keys are numbers, a key pair is its own
public key, the exchange adds the two keys, and the cipher writes the nonce as
one byte. -/
def additiveCrypto : Crypto ℕ ℕ ℕ ℕ where
  publicOf localKeyPair := localKeyPair
  exchange remotePublic localKeyPair := some (remotePublic + localKeyPair)
  encryptNonce nonce _ := some [UInt8.ofNat nonce]
  decryptNonce encrypted _ := encrypted.head?.map UInt8.toNat

theorem handshake_edges_bans_and_pins_additive :
    (∃ fresh generated, Op.unban 0 fresh generated ∈
      ([.unban 0 1 2, .setRecipientEstablish1 0 5 7 3] : List (Op ℕ ℕ ℕ ℕ))) ∧
    (2 = 2 ∧ additiveCrypto.exchange 2 1 = some 3) ∧
    ((State.established 3 5 8 .shared 7 : State ℕ ℕ ℕ ℕ).session = some ⟨8, 7⟩ ↔
      ∃ localKeyPair remotePublic secretOrigin,
        (State.established 3 5 8 .shared 7 : State ℕ ℕ ℕ ℕ) = .established localKeyPair remotePublic 8 secretOrigin 7 ∧
          additiveCrypto.exchange remotePublic localKeyPair = some 8) :=
  ⟨(handshake_edges_bans_and_pins additiveCrypto).2.1 ((∅ : Entries ℕ ℕ ℕ ℕ ℕ).insert 0 .banned)
      [.unban 0 1 2, .setRecipientEstablish1 0 5 7 3] 0 2 5 7 .shared 7 rfl rfl,
    (handshake_edges_bans_and_pins additiveCrypto).2.2.1 ((∅ : Entries ℕ ℕ ℕ ℕ ℕ).insert 0 (.registered 1 2 .preimported))
      [.tryEstablish 0 9, .setInitiatorEstablish 0 2 [4] 9] 0 1 2 .preimported rfl
      (fun i within => by
        have bound : i ≤ 2 := within
        interval_cases i <;> first | rfl | trivial) 1 2 3 .preimported 4 rfl,
    (handshake_edges_bans_and_pins additiveCrypto).2.2.2 [.setRecipientEstablish1 0 5 7 3] 0 _ rfl ⟨8, 7⟩⟩

/-- `register_remote_public` on a `Registered` entry: the entry is registered
with another key, never passes through `Candidate`, and the handshake that
follows is made with the second key. -/
theorem registered_again_establishes_other_key :
    let entries := (∅ : Entries ℕ ℕ ℕ ℕ ℕ).insert 0 (.registered 1 2 .preimported)
    let ops : List (Op ℕ ℕ ℕ ℕ) := [.registerRemotePublic 0 5 9, .tryEstablish 0 9, .setInitiatorEstablish 0 5 [7] 9]
    entries.lookup 0 = some (.registered 1 2 .preimported) ∧
      (run additiveCrypto entries (ops.take 1)).lookup 0 = some (.registered 1 5 .preimported) ∧
      (∀ i ≤ ops.length, ∃ state, (run additiveCrypto entries (ops.take i)).lookup 0 = some state ∧
        ∀ localKeyPair, state ≠ .candidate localKeyPair) ∧
      (run additiveCrypto entries ops).lookup 0 = some (.established 1 5 6 .preimported 7) := by
  intro entries ops
  refine ⟨rfl, rfl, fun i within => ?_, rfl⟩
  have bound : i ≤ 3 := within
  interval_cases i
  · exact ⟨.registered 1 2 .preimported, rfl, fun _ => by simp⟩
  · exact ⟨.registered 1 5 .preimported, rfl, fun _ => by simp⟩
  · exact ⟨.establishing2 1 5 6 .preimported, rfl, fun _ => by simp⟩
  · exact ⟨.established 1 5 6 .preimported 7, rfl, fun _ => by simp⟩

end RoutingTable

end Network

end CodeChain
