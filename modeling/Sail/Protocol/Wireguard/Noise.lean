/-
The handshake.

The functions below compute messages and keys and write into a peer's handshake;
indices and the lookup of peers are the device's.
-/

import Sail.Protocol.Wireguard.Messages

namespace Sail.Protocol.Wireguard

open Bytes

abbrev Instant := Nat

def seconds (count : Nat) : Nat := count * 1000000000

def initiationsPerSecond : Nat := 50

def construction : Bytes :=
  "Noise_IKpsk2_25519_ChaChaPoly_BLAKE2s".toUTF8.toList

def identifier : Bytes :=
  "WireGuard v1 zx2c4 Jason@zx2c4.com".toUTF8.toList

def initialChainingKey (crypto : Crypto) : Bytes :=
  crypto.hash [construction]

def initialHash (crypto : Crypto) (responderPublic : Bytes) : Bytes :=
  crypto.hash [crypto.hash [initialChainingKey crypto, identifier], responderPublic]

inductive HandshakeState where
  | zeroed
  | createdInitiation
  | consumedInitiation
  | createdResponse
  | consumedResponse
deriving DecidableEq

structure Handshake where
  state : HandshakeState
  localIndex : Option Nat
  remoteIndex : Nat
  ephemeralPrivate : Bytes
  remoteEphemeral : Bytes
  hash : Bytes
  chainingKey : Bytes
  latestTimestamp : Bytes
  lastInitiationConsumption : Option Instant
deriving DecidableEq

namespace Handshake

def new : Handshake :=
  { state := .zeroed
    localIndex := none
    remoteIndex := 0
    ephemeralPrivate := zeroKey
    remoteEphemeral := zeroKey
    hash := zeroKey
    chainingKey := zeroKey
    latestTimestamp := List.replicate tai64nLen 0
    lastInitiationConsumption := none }

def zero (handshake : Handshake) : Handshake :=
  { handshake with
    state := .zeroed
    localIndex := none
    remoteIndex := 0
    ephemeralPrivate := zeroKey
    remoteEphemeral := zeroKey
    hash := zeroKey
    chainingKey := zeroKey }

end Handshake

structure PeerKeys where
  localPrivate : Bytes
  localPublic : Bytes
  remotePublic : Bytes
  staticStatic : Bytes
  presharedKey : Bytes

structure SessionKeys where
  send : Bytes
  recv : Bytes
  initiator : Bool
  localIndex : Nat
  remoteIndex : Nat

def createInitiation (crypto : Crypto) (handshake : Handshake) (keys : PeerKeys)
    (localIndex : Nat) (timestamp ephemeral : Bytes) : Option (Initiation × Handshake) :=
  if keys.staticStatic = zeroKey then none
  else
    let ephemeralPublic := crypto.publicKey ephemeral
    let ck := crypto.kdf1 (initialChainingKey crypto) ephemeralPublic
    let h := crypto.hash [initialHash crypto keys.remotePublic, ephemeralPublic]
    match crypto.dh ephemeral keys.remotePublic with
    | none => none
    | some es =>
      let (ck, k) := crypto.kdf2 ck es
      let encryptedStatic := crypto.aeadSeal k 0 keys.localPublic h
      let h := crypto.hash [h, encryptedStatic]
      let (ck, k) := crypto.kdf2 ck keys.staticStatic
      let encryptedTimestamp := crypto.aeadSeal k 0 timestamp h
      let h := crypto.hash [h, encryptedTimestamp]
      some
        ({ sender := localIndex
           ephemeral := ephemeralPublic
           encryptedStatic
           encryptedTimestamp
           mac1 := List.replicate macLen 0
           mac2 := List.replicate macLen 0 },
          { handshake.zero with
            ephemeralPrivate := ephemeral
            chainingKey := ck
            hash := h
            localIndex := some localIndex
            state := .createdInitiation })

structure InitiationFirstHalf where
  remoteStatic : Bytes
  ck : Bytes
  h : Bytes
  remoteEphemeral : Bytes

/-- The half of an initiation that needs only our own key: who sent it. -/
def consumeInitiationStatic (crypto : Crypto) (message : Initiation)
    (localPrivate localPublic : Bytes) : Option InitiationFirstHalf :=
  let ck := crypto.kdf1 (initialChainingKey crypto) message.ephemeral
  let h := crypto.hash [initialHash crypto localPublic, message.ephemeral]
  match crypto.dh localPrivate message.ephemeral with
  | none => none
  | some es =>
    let (ck, k) := crypto.kdf2 ck es
    match crypto.aeadOpen k 0 message.encryptedStatic h with
    | none => none
    | some remoteStatic =>
      some
        { remoteStatic
          ck
          h := crypto.hash [h, message.encryptedStatic]
          remoteEphemeral := message.ephemeral }

def initiationTimestamp (crypto : Crypto) (first : InitiationFirstHalf) (message : Initiation)
    (staticStatic : Bytes) : Option Bytes :=
  if staticStatic = zeroKey then none
  else
    crypto.aeadOpen (crypto.kdf2 first.ck staticStatic).2 0 message.encryptedTimestamp first.h

/-- An initiation that comes too soon behind the last one. -/
def Handshake.floods (handshake : Handshake) (now : Instant) : Bool :=
  handshake.lastInitiationConsumption.any
    (fun last => now - last < seconds 1 / initiationsPerSecond)

def consumeInitiationPeer (crypto : Crypto) (first : InitiationFirstHalf) (message : Initiation)
    (handshake : Handshake) (staticStatic : Bytes) (now : Instant) : Option Handshake :=
  match initiationTimestamp crypto first message staticStatic with
  | none => none
  | some timestamp =>
    if bigEndian timestamp ≤ bigEndian handshake.latestTimestamp ∨ handshake.floods now then none
    else
      some
        { handshake.zero with
          localIndex := handshake.localIndex
          remoteEphemeral := first.remoteEphemeral
          chainingKey := (crypto.kdf2 first.ck staticStatic).1
          hash := crypto.hash [first.h, message.encryptedTimestamp]
          remoteIndex := message.sender
          latestTimestamp := timestamp
          lastInitiationConsumption := some now
          state := .consumedInitiation }

def createResponse (crypto : Crypto) (handshake : Handshake) (keys : PeerKeys)
    (localIndex : Nat) (ephemeral : Bytes) : Option (Response × Handshake) :=
  if handshake.state ≠ .consumedInitiation then none
  else
    let ephemeralPublic := crypto.publicKey ephemeral
    let ck := crypto.kdf1 handshake.chainingKey ephemeralPublic
    let h := crypto.hash [handshake.hash, ephemeralPublic]
    match crypto.dh ephemeral handshake.remoteEphemeral, crypto.dh ephemeral keys.remotePublic with
    | some ee, some se =>
      let ck := crypto.kdf1 (crypto.kdf1 ck ee) se
      let (ck, t, k) := crypto.kdf3 ck keys.presharedKey
      let h := crypto.hash [h, t]
      let encryptedNothing := crypto.aeadSeal k 0 [] h
      some
        ({ sender := localIndex
           receiver := handshake.remoteIndex
           ephemeral := ephemeralPublic
           encryptedNothing
           mac1 := List.replicate macLen 0
           mac2 := List.replicate macLen 0 },
          { handshake with
            ephemeralPrivate := ephemeral
            chainingKey := ck
            hash := crypto.hash [h, encryptedNothing]
            localIndex := some localIndex
            state := .createdResponse })
    | _, _ => none

def consumeResponse (crypto : Crypto) (handshake : Handshake) (message : Response)
    (keys : PeerKeys) : Option Handshake :=
  if handshake.state ≠ .createdInitiation then none
  else
    let ck := crypto.kdf1 handshake.chainingKey message.ephemeral
    let h := crypto.hash [handshake.hash, message.ephemeral]
    match crypto.dh handshake.ephemeralPrivate message.ephemeral with
    | none => none
    | some ee =>
      match crypto.dh keys.localPrivate message.ephemeral with
      | none => none
      | some se =>
        let ck := crypto.kdf1 (crypto.kdf1 ck ee) se
        let (ck, t, k) := crypto.kdf3 ck keys.presharedKey
        let h := crypto.hash [h, t]
        match crypto.aeadOpen k 0 message.encryptedNothing h with
        | none => none
        | some _ =>
          some
            { handshake with
              chainingKey := ck
              hash := crypto.hash [h, message.encryptedNothing]
              remoteIndex := message.sender
              state := .consumedResponse }

def beginSession (crypto : Crypto) (handshake : Handshake) : Option (SessionKeys × Handshake) :=
  let initiator : Option Bool :=
    match handshake.state with
    | .consumedResponse => some true
    | .createdResponse => some false
    | _ => none
  match initiator, handshake.localIndex with
  | some initiator, some localIndex =>
    let (a, b) := crypto.kdf2 handshake.chainingKey []
    some
      ({ send := if initiator then a else b
         recv := if initiator then b else a
         initiator
         localIndex
         remoteIndex := handshake.remoteIndex },
        handshake.zero)
  | _, _ => none

end Sail.Protocol.Wireguard
