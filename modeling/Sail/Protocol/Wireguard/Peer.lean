/-
A peer of the device: its handshake, sessions, timers and staged packets.

The functions work on the peer together with what the peers share and the
datagrams sent so far. The journal records what was done under each session; the
code has no such field.
-/

import Sail.Protocol.Wireguard.Cookie
import Sail.Protocol.Wireguard.Keypair

namespace Sail.Protocol.Wireguard

open Netstack

abbrev PeerId := Nat

abbrev Timer := Option Instant

def Timer.due (timer : Timer) (now : Instant) : Bool :=
  timer.any (fun deadline => deadline ≤ now)

structure PeerTimers where
  retransmitHandshake : Timer
  sendKeepalive : Timer
  newHandshake : Timer
  zeroKeyMaterial : Timer
  persistentKeepalive : Timer
  handshakeAttempts : Nat
  needAnotherKeepalive : Bool
  sentLastminuteHandshake : Bool
deriving DecidableEq

namespace PeerTimers

def new : PeerTimers :=
  { retransmitHandshake := none
    sendKeepalive := none
    newHandshake := none
    zeroKeyMaterial := none
    persistentKeepalive := none
    handshakeAttempts := 0
    needAnotherKeepalive := false
    sentLastminuteHandshake := false }

def earliest (timers : PeerTimers) : Option Instant :=
  ([timers.retransmitHandshake, timers.sendKeepalive, timers.newHandshake,
    timers.zeroKeyMaterial, timers.persistentKeepalive].filterMap id).min?

end PeerTimers

structure Peer where
  id : PeerId
  publicKey : Bytes
  presharedKey : Bytes
  staticStatic : Bytes
  endpoint : Option SocketAddr
  reserved : Bytes
  persistentKeepalive : Option Nat
  handshake : Handshake
  keypairs : Keypairs
  cookie : CookieGenerator
  timers : PeerTimers
  staged : List Bytes
  lastSentHandshake : Option Instant
  lastHandshake : Option Instant
  rxBytes : Nat
  txBytes : Nat
deriving DecidableEq

structure Transmit where
  peer : Option PeerId
  dst : SocketAddr
  payload : Bytes
deriving DecidableEq

/-- What is done under a session, named by its local index: a datagram sent, with
the time, the session's birth and side; a packet that authenticated and was fresh;
a packet delivered. -/
inductive Event where
  | sent (session counter : Nat) (now birth : Instant) (initiator : Bool)
  | received (session counter : Nat)
  | delivered (session counter : Nat)
deriving DecidableEq

/-- What the peers share. Allocations of indices and other random values are
counted. -/
structure Shared where
  privateKey : Bytes
  publicKey : Bytes
  mtu : Nat
  indices : KeyedMap Nat PeerId
  anchor : Instant × Nat
  allocated : Nat
  draws : Nat
  journal : List Event

namespace Shared

def allocIndex (crypto : Crypto) (s : Shared) (peer : PeerId) : Nat × Shared :=
  let index := crypto.index s.allocated
  (index, { s with indices := s.indices.insert index peer, allocated := s.allocated + 1 })

def release (s : Shared) (index : Nat) : Shared :=
  { s with indices := s.indices.erase index }

def timestamp (s : Shared) (now : Instant) : Bytes :=
  tai64n (if s.anchor.1 ≤ now then s.anchor.2 + (now - s.anchor.1)
    else s.anchor.2 - (s.anchor.1 - now))

def record (s : Shared) (event : Event) : Shared :=
  { s with journal := s.journal ++ [event] }

end Shared

def expired (birth : Option Instant) (after : Nat) (now : Instant) : Bool :=
  birth.all (fun birth => after ≤ now - birth)

structure Work where
  s : Shared
  peer : Peer
  out : List Transmit

namespace Work

variable (crypto : Crypto)

def setPeer (work : Work) (peer : Peer) : Work :=
  { work with peer }

def setTimers (work : Work) (timers : PeerTimers) : Work :=
  { work with peer := { work.peer with timers } }

def peerKeys (work : Work) : PeerKeys :=
  { localPrivate := work.s.privateKey
    localPublic := work.s.publicKey
    remotePublic := work.peer.publicKey
    staticStatic := work.peer.staticStatic
    presharedKey := work.peer.presharedKey }

/-! ### Timer events -/

def timersAnyAuthenticatedPacketTraversal (now : Instant) (work : Work) : Work :=
  match work.peer.persistentKeepalive with
  | none => work
  | some interval =>
    work.setTimers { work.peer.timers with persistentKeepalive := some (now + interval) }

def timersAnyAuthenticatedPacketSent (work : Work) : Work :=
  work.setTimers { work.peer.timers with sendKeepalive := none }

def timersAnyAuthenticatedPacketReceived (work : Work) : Work :=
  work.setTimers { work.peer.timers with newHandshake := none }

def jitter (work : Work) : Nat × Work :=
  (crypto.jitter work.s.draws, { work with s := { work.s with draws := work.s.draws + 1 } })

def timersHandshakeInitiated (now : Instant) (work : Work) : Work :=
  let (delay, work) := work.jitter crypto
  work.setTimers
    { work.peer.timers with retransmitHandshake := some (now + rekeyTimeout + delay) }

def timersHandshakeComplete (now : Instant) (work : Work) : Work :=
  work.setPeer
    { work.peer with
      timers :=
        { work.peer.timers with
          retransmitHandshake := none
          handshakeAttempts := 0
          sentLastminuteHandshake := false }
      lastHandshake := some now }

def timersSessionDerived (now : Instant) (work : Work) : Work :=
  work.setTimers { work.peer.timers with zeroKeyMaterial := some (now + rejectAfterTime * 3) }

def timersDataSent (now : Instant) (work : Work) : Work :=
  if work.peer.timers.newHandshake.isSome then work
  else
    let (delay, work) := work.jitter crypto
    work.setTimers
      { work.peer.timers with
        newHandshake := some (now + keepaliveTimeout + rekeyTimeout + delay) }

def timersDataReceived (now : Instant) (work : Work) : Work :=
  if work.peer.timers.sendKeepalive.isSome then
    work.setTimers { work.peer.timers with needAnotherKeepalive := true }
  else work.setTimers { work.peer.timers with sendKeepalive := some (now + keepaliveTimeout) }

/-! ### Handshakes -/

def releaseHandshakeIndex (work : Work) : Work :=
  match work.peer.handshake.localIndex with
  | none => work
  | some index =>
    { work with
      s := work.s.release index
      peer := { work.peer with handshake := { work.peer.handshake with localIndex := none } } }

def sealMessage (now : Instant) (message : Bytes) (work : Work) : Bytes × Work :=
  let (bytes, cookie) := work.peer.cookie.addMacs crypto message now
  (Bytes.overwrite bytes 1 work.peer.reserved, work.setPeer { work.peer with cookie })

def startHandshake (now : Instant) (dst : SocketAddr) (work : Work) : Work :=
  let work := work.releaseHandshakeIndex
  let (index, s) := work.s.allocIndex crypto work.peer.id
  let ephemeral := crypto.privateKey s.draws
  let work := { work with s := { s with draws := s.draws + 1 } }
  match createInitiation crypto work.peer.handshake work.peerKeys index (s.timestamp now)
      ephemeral with
  | none =>
    { work with
      s := work.s.release index
      peer := { work.peer with handshake := { work.peer.handshake with localIndex := none } } }
  | some (initiation, handshake) =>
    let work := work.setPeer { work.peer with handshake }
    let (bytes, work) := work.sealMessage crypto now initiation.toBytes
    let work := (work.timersAnyAuthenticatedPacketTraversal now).timersAnyAuthenticatedPacketSent
    let work :=
      { work with
        peer :=
          { work.peer with
            lastSentHandshake := some now
            txBytes := work.peer.txBytes + bytes.length }
        out := work.out ++ [Transmit.mk (some work.peer.id) dst bytes] }
    work.timersHandshakeInitiated crypto now

def sendInitiation (now : Instant) (isRetry : Bool) (work : Work) : Work :=
  let work :=
    if isRetry then work else work.setTimers { work.peer.timers with handshakeAttempts := 0 }
  if !expired work.peer.lastSentHandshake rekeyTimeout now then work
  else
    match work.peer.endpoint with
    | none => work
    | some dst => work.startHandshake crypto now dst

/-! ### Packets -/

def stage (packet : Bytes) (work : Work) : Work :=
  work.setPeer
    { work.peer with
      staged :=
        (if maxStagedPackets ≤ work.peer.staged.length then work.peer.staged.tail
          else work.peer.staged) ++ [packet] }

def encrypt (keypair : Keypair) (counter : Nat) (packet reserved : Bytes) (mtu : Nat) : Bytes :=
  DataHeader.toBytes { receiver := keypair.remoteIndex, counter } reserved ++
    crypto.aeadSeal keypair.send counter
      (packet ++ List.replicate (padding packet.length mtu) 0) []

def sendPacket (now : Instant) (dst : SocketAddr) (keypair : Keypair) (counter : Nat)
    (packet : Bytes) (work : Work) : Work :=
  let datagram := encrypt crypto keypair counter packet work.peer.reserved work.s.mtu
  { s := work.s.record (.sent keypair.localIndex counter now keypair.birth keypair.initiator)
    peer :=
      { work.peer with
        keypairs := { work.peer.keypairs with current := some keypair }
        txBytes := work.peer.txBytes + datagram.length }
    out := work.out ++ [Transmit.mk (some work.peer.id) dst datagram] }

structure Sending where
  work : Work
  sentAny : Bool
  sentData : Bool

def sendPackets (now : Instant) (dst : SocketAddr) : List Bytes → Sending → Sending
  | [], sending =>
    { sending with work := sending.work.setPeer { sending.work.peer with staged := [] } }
  | packet :: rest, sending =>
    match sending.work.peer.keypairs.current with
    | none => sending
    | some keypair =>
      match keypair.nextCounter with
      | (none, keypair) =>
        { sending with
          work :=
            (sending.work.setPeer
              { sending.work.peer with
                keypairs := { sending.work.peer.keypairs with current := some keypair }
                staged := packet :: rest }).sendInitiation crypto now false }
      | (some counter, keypair) =>
        sendPackets now dst rest
          { work := sending.work.sendPacket crypto now dst keypair counter packet
            sentAny := true
            sentData := sending.sentData || !packet.isEmpty }

/-- A new handshake behind many messages or, as the initiator, much time. -/
def keepKeyFreshSend (now : Instant) (work : Work) : Work :=
  if work.peer.keypairs.current.any (fun keypair =>
      keypair.sendValid && (rekeyAfterMessages < keypair.sendCounter ||
        (keypair.initiator && expired (some keypair.birth) rekeyAfterTime now))) then
    work.sendInitiation crypto now false
  else work

def afterSending (now : Instant) (sending : Sending) : Work :=
  if sending.sentAny then
    let work :=
      (sending.work.timersAnyAuthenticatedPacketTraversal now).timersAnyAuthenticatedPacketSent
    if sending.sentData then work.timersDataSent crypto now else work
  else sending.work

def currentCanSend (now : Instant) (work : Work) : Bool × Work :=
  match work.peer.keypairs.current with
  | none => (false, work)
  | some keypair =>
    let (valid, keypair) := keypair.canSend now
    (valid, work.setPeer
      { work.peer with keypairs := { work.peer.keypairs with current := some keypair } })

def sendStaged (now : Instant) (work : Work) : Work :=
  if work.peer.staged.isEmpty then work
  else
    let (usable, work) := work.currentCanSend now
    if !usable then work.sendInitiation crypto now false
    else
      match work.peer.endpoint with
      | none => work
      | some dst =>
        let sending := sendPackets crypto now dst work.peer.staged
          { work, sentAny := false, sentData := false }
        (afterSending crypto now sending).keepKeyFreshSend crypto now

def sendKeepalive (now : Instant) (work : Work) : Work :=
  let work :=
    if work.peer.staged.isEmpty then work.setPeer { work.peer with staged := [[]] } else work
  work.sendStaged crypto now

/-- As the initiator, a new handshake once the session nears its end, also when
only receiving. -/
def keepKeyFreshReceive (now : Instant) (work : Work) : Work :=
  if work.peer.timers.sentLastminuteHandshake then work
  else if work.peer.keypairs.current.any (fun keypair =>
      keypair.sendValid && keypair.initiator &&
        expired (some keypair.birth) (rejectAfterTime - keepaliveTimeout - rekeyTimeout) now) then
    (work.setTimers { work.peer.timers with sentLastminuteHandshake := true }).sendInitiation
      crypto now false
  else work

def install (keypair : Keypair) (work : Work) : Work :=
  let (dropped, keypairs) := work.peer.keypairs.add keypair
  { work with
    s := dropped.foldl Shared.release work.s
    peer := { work.peer with keypairs } }

def clearKeypairs (work : Work) : Work :=
  let (dropped, keypairs) := work.peer.keypairs.clear
  { work with
    s := dropped.foldl Shared.release work.s
    peer := { work.peer with keypairs } }

def zeroKeyMaterial (work : Work) : Work :=
  let work := work.clearKeypairs.releaseHandshakeIndex
  work.setPeer { work.peer with handshake := work.peer.handshake.zero }

/-! ### Timers -/

def tickRetransmit (now : Instant) (work : Work) : Work :=
  if work.peer.timers.retransmitHandshake.due now then
    let work := work.setTimers { work.peer.timers with retransmitHandshake := none }
    if maxTimerHandshakes < work.peer.timers.handshakeAttempts then
      work.setPeer
        { work.peer with
          timers :=
            { work.peer.timers with
              sendKeepalive := none
              zeroKeyMaterial := work.peer.timers.zeroKeyMaterial.or
                (some (now + rejectAfterTime * 3)) }
          staged := [] }
    else
      (work.setTimers { work.peer.timers with
        handshakeAttempts := work.peer.timers.handshakeAttempts + 1 }).sendInitiation crypto now true
  else work

def tickKeepalive (now : Instant) (work : Work) : Work :=
  if work.peer.timers.sendKeepalive.due now then
    let work := (work.setTimers { work.peer.timers with sendKeepalive := none }).sendKeepalive
      crypto now
    if work.peer.timers.needAnotherKeepalive then
      work.setTimers
        { work.peer.timers with
          needAnotherKeepalive := false
          sendKeepalive := some (now + keepaliveTimeout) }
    else work
  else work

def tickNewHandshake (now : Instant) (work : Work) : Work :=
  if work.peer.timers.newHandshake.due now then
    (work.setTimers { work.peer.timers with newHandshake := none }).sendInitiation crypto now false
  else work

def tickZeroKeyMaterial (now : Instant) (work : Work) : Work :=
  if work.peer.timers.zeroKeyMaterial.due now then
    (work.setTimers { work.peer.timers with zeroKeyMaterial := none }).zeroKeyMaterial
  else work

def tickPersistentKeepalive (now : Instant) (work : Work) : Work :=
  if work.peer.timers.persistentKeepalive.due now then
    let work := work.setTimers { work.peer.timers with persistentKeepalive := none }
    if work.peer.persistentKeepalive.isSome then work.sendKeepalive crypto now else work
  else work

def tick (now : Instant) (work : Work) : Work :=
  ((((work.tickRetransmit crypto now).tickKeepalive crypto now).tickNewHandshake crypto
    now).tickZeroKeyMaterial now).tickPersistentKeepalive crypto now

end Work

end Sail.Protocol.Wireguard
