/-
Sessions, and a peer's three places for them.

The current session sends. The previous one is still accepted; the next one, on
the responder's side, waits for the initiator's first packet before it may send.
-/

import Sail.Protocol.Wireguard.Noise
import Sail.Protocol.Wireguard.Replay

namespace Sail.Protocol.Wireguard

def rekeyAfterMessages : Nat := 1152921504606846976

def rekeyAfterTime : Nat := seconds 120

def rejectAfterTime : Nat := seconds 180

def rekeyAttemptTime : Nat := seconds 90

def rekeyTimeout : Nat := seconds 5

def keepaliveTimeout : Nat := seconds 10

def maxTimerHandshakes : Nat := rekeyAttemptTime / rekeyTimeout

def maxStagedPackets : Nat := 128

structure Keypair where
  send : Bytes
  recv : Bytes
  sendCounter : Nat
  sendValid : Bool
  recvValid : Bool
  replay : ReplayWindow
  localIndex : Nat
  remoteIndex : Nat
  birth : Instant
  initiator : Bool
deriving DecidableEq

namespace Keypair

def new (keys : SessionKeys) (now : Instant) : Keypair :=
  { send := keys.send
    recv := keys.recv
    sendCounter := 0
    sendValid := true
    recvValid := true
    replay := .new
    localIndex := keys.localIndex
    remoteIndex := keys.remoteIndex
    birth := now
    initiator := keys.initiator }

def canSend (keypair : Keypair) (now : Instant) : Bool × Keypair :=
  let valid := keypair.sendValid && now - keypair.birth < rejectAfterTime
  (valid, { keypair with sendValid := valid })

def Expired (keypair : Keypair) (now : Instant) : Prop :=
  rejectAfterTime ≤ now - keypair.birth ∨ rejectAfterMessages ≤ keypair.replay.next

instance (keypair : Keypair) (now : Instant) : Decidable (keypair.Expired now) :=
  inferInstanceAs (Decidable (_ ∨ _))

def canReceive (keypair : Keypair) (now : Instant) : Bool × Keypair :=
  let valid := keypair.recvValid && !decide (keypair.Expired now)
  (valid, { keypair with recvValid := valid })

def nextCounter (keypair : Keypair) : Option Nat × Keypair :=
  if rejectAfterMessages ≤ keypair.sendCounter then (none, { keypair with sendValid := false })
  else (some keypair.sendCounter, { keypair with sendCounter := keypair.sendCounter + 1 })

def «open» (crypto : Crypto) (keypair : Keypair) (counter : Nat) (buf : Bytes) : Option Bytes :=
  crypto.aeadOpen keypair.recv counter buf []

end Keypair

inductive Slot where
  | previous
  | current
  | next
deriving DecidableEq

structure Keypairs where
  previous : Option Keypair
  current : Option Keypair
  next : Option Keypair
deriving DecidableEq

namespace Keypairs

def new : Keypairs :=
  { previous := none, current := none, next := none }

def slot (keypairs : Keypairs) : Slot → Option Keypair
  | .previous => keypairs.previous
  | .current => keypairs.current
  | .next => keypairs.next

def setSlot (keypairs : Keypairs) (keypair : Keypair) : Slot → Keypairs
  | .previous => { keypairs with previous := some keypair }
  | .current => { keypairs with current := some keypair }
  | .next => { keypairs with next := some keypair }

def add (keypairs : Keypairs) (new : Keypair) : List Nat × Keypairs :=
  let index := fun (dropped : Option Keypair) => (dropped.map Keypair.localIndex).toList
  if new.initiator then
    match keypairs.next with
    | some next =>
      (index keypairs.previous ++ index keypairs.current,
        { previous := some next, current := some new, next := none })
    | none =>
      (index keypairs.previous,
        { previous := keypairs.current, current := some new, next := none })
  else
    (index keypairs.next ++ index keypairs.previous,
      { previous := none, current := keypairs.current, next := some new })

/-- A packet came in under the session in a slot. The next one is then confirmed
and becomes current. -/
def receivedWith (keypairs : Keypairs) (slot : Slot) : Bool × Option Nat × Keypairs :=
  if slot ≠ .next then (false, none, keypairs)
  else
    (true, keypairs.previous.map Keypair.localIndex,
      { previous := keypairs.current, current := keypairs.next, next := none })

def find (keypairs : Keypairs) (index : Nat) : Option (Slot × Keypair) :=
  match keypairs.current.filter (fun keypair => keypair.localIndex = index) with
  | some keypair => some (.current, keypair)
  | none =>
    match keypairs.previous.filter (fun keypair => keypair.localIndex = index) with
    | some keypair => some (.previous, keypair)
    | none =>
      match keypairs.next.filter (fun keypair => keypair.localIndex = index) with
      | some keypair => some (.next, keypair)
      | none => none

def indices (keypairs : Keypairs) : List Nat :=
  ([keypairs.previous, keypairs.current, keypairs.next].filterMap id).map Keypair.localIndex

def clear (keypairs : Keypairs) : List Nat × Keypairs :=
  (keypairs.indices, new)

end Keypairs

end Sail.Protocol.Wireguard
