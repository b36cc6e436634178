/-
What both directions of Shadowsocks 2022 share, after `protocol/shadowsocks/sip022/mod.rs`.

The AEADs, the AES block and the key derivations are parameters of the model: functions
of the key, the nonce and what is sealed. Wall-clock time is in whole seconds.
-/

import Sail.Lib.Bytes
import Sail.Lib.Freshness
import Sail.Lib.MachineWord

namespace Sail.Protocol.Shadowsocks.Sip022

open Bytes

def headerTypeClient : UInt8 := 0

def headerTypeServer : UInt8 := 1

def maxPadding : Nat := 900

def maxTimeDiff : Nat := 30

def tagLen : Nat := 16

def eihLen : Nat := 16

inductive Method where
  | aes128Gcm
  | aes256Gcm
  | chaCha20Poly1305
deriving DecidableEq

namespace Method

def keyLen : Method → Nat
  | .aes128Gcm => 16
  | .aes256Gcm => 32
  | .chaCha20Poly1305 => 32

end Method

structure Crypto where
  sessionSubkey : (psk salt : Bytes) → Bytes
  identitySubkey : (psk salt : Bytes) → Bytes
  pskHash : (psk : Bytes) → Bytes
  aeadSeal : (key nonce plaintext : Bytes) → Bytes
  aeadOpen : (key nonce ciphertext : Bytes) → Option Bytes
  xchachaOpen : (key nonce ciphertext : Bytes) → Option Bytes
  encryptBlock : (key block : Bytes) → Bytes
  decryptBlock : (key block : Bytes) → Bytes

def cryptoErr : String := "crypto error"

def checkTimestamp (now timestamp : Nat) : Except String Unit :=
  if maxTimeDiff < absDiff now timestamp then
    .error s!"bad timestamp {timestamp}, off by more than {maxTimeDiff}s"
  else .ok ()

/-! ### The AEAD of one TCP direction -/

/-- Nonces count up from zero, little endian, one per chunk. -/
structure ChunkAead where
  key : Bytes
  counter : Nat
deriving DecidableEq

namespace ChunkAead

def new (key : Bytes) : ChunkAead :=
  { key, counter := 0 }

def nonce (counter : Nat) : Bytes :=
  (u64Bytes counter).reverse ++ List.replicate 4 0

/-- The nonce of the next chunk; refused rather than used twice. -/
def nextNonce (aead : ChunkAead) : Except String (Bytes × ChunkAead) :=
  if aead.counter < u64Max then
    .ok (nonce aead.counter, { aead with counter := aead.counter + 1 })
  else .error cryptoErr

variable (crypto : Crypto)

def sealNext (aead : ChunkAead) (plaintext : Bytes) : Except String (Bytes × ChunkAead) := do
  let (nonce, aead) ← aead.nextNonce
  return (crypto.aeadSeal aead.key nonce plaintext, aead)

def openNext (aead : ChunkAead) (ciphertext : Bytes) : Except String (Bytes × ChunkAead) := do
  let (nonce, aead) ← aead.nextNonce
  if ciphertext.length < tagLen then throw cryptoErr
  match crypto.aeadOpen aead.key nonce ciphertext with
  | none => throw cryptoErr
  | some plaintext => return (plaintext, aead)

end ChunkAead

/-! ### Users -/

structure User where
  name : Option String
  psk : Bytes
deriving DecidableEq

/-- The users of a multi-user server, no two of them with one hash. -/
abbrev Users := List User

def Users.find (crypto : Crypto) (users : Users) (hash : Bytes) : Option User :=
  List.find? (fun user => crypto.pskHash user.psk = hash) users

end Sail.Protocol.Shadowsocks.Sip022
