/-
The device: peers, routing, and what a datagram does.

Handshake messages pass the checks and limits first, which have a state of their
own. What they let through, and every other datagram, works on the peers.
-/

import Sail.Protocol.Wireguard.AllowedIps
import Sail.Protocol.Wireguard.Peer

namespace Sail.Protocol.Wireguard

open Netstack Bytes

structure DeviceConfig where
  privateKey : Bytes
  mtu : Nat
  underLoadThreshold : Nat

structure PeerConfig where
  publicKey : Bytes
  presharedKey : Option Bytes
  endpoint : Option SocketAddr
  allowedIps : List (IpAddr × Nat)
  persistentKeepalive : Option Nat
  reserved : Bytes

inductive Incoming where
  | writeBack (transmit : Transmit)
  | deliver (peer : PeerId) (packet : Bytes)
  | nothing
deriving DecidableEq

inductive DeviceError where
  | notIp
  | noRoute (ip : IpAddr)
  | unknownPeer
  | duplicatePeer
  | ownKey
  | invalidPrefix (ip : IpAddr) (len : Nat)
deriving DecidableEq

structure Gate where
  cookieChecker : CookieChecker
  rateLimiter : RateLimiter
  underLoadThreshold : Nat
  handshakeWindow : Option Instant × Nat
  lastUnderLoad : Option Instant

structure Device where
  s : Shared
  peers : List (Option Peer)
  byKey : KeyedMap Bytes PeerId
  routes : AllowedIps PeerId
  gate : Gate
  pending : List Transmit
  deadlineHint : Option Instant
  deadlineMoved : Bool

def underLoadSticky : Nat := seconds 1

/-! ### Addresses in packets -/

def ipDestination (packet : Bytes) : Option IpAddr :=
  match packet.head? with
  | none => none
  | some first =>
    if first.toNat / 16 = 4 ∧ 20 ≤ packet.length then some (ipv4Address packet 16)
    else if first.toNat / 16 = 6 ∧ 40 ≤ packet.length then some (ipv6Address packet 24)
    else none

def ipSourceAndLen (packet : Bytes) : Option (IpAddr × Nat) :=
  match packet.head? with
  | none => none
  | some first =>
    if first.toNat / 16 = 4 ∧ 20 ≤ packet.length then
      let len := u16At packet 2
      if len < 20 ∨ packet.length < len then none else some (ipv4Address packet 12, len)
    else if first.toNat / 16 = 6 ∧ 40 ≤ packet.length then
      let len := 40 + u16At packet 4
      if packet.length < len then none else some (ipv6Address packet 8, len)
    else none

/-! ### The checks and limits -/

inductive Verdict where
  | drop
  | cookieReply (payload : Bytes)
  | pass
deriving DecidableEq

namespace Gate

variable (crypto : Crypto)

def underLoad (gate : Gate) (now : Instant) : Bool × Gate :=
  let window :=
    if expired gate.handshakeWindow.1 (seconds 1) now then (some now, 0) else gate.handshakeWindow
  let loaded : Bool := gate.underLoadThreshold ≤ window.2
  let gate := { gate with handshakeWindow := (window.1, min (window.2 + 1) 4294967295) }
  if loaded then (true, { gate with lastUnderLoad := some now })
  else (!expired gate.lastUnderLoad underLoadSticky now, gate)

def check (gate : Gate) (now : Instant) (src : SocketAddr) (datagram : Bytes) : Verdict × Gate :=
  let (underLoad, gate) := gate.underLoad now
  let (state, cookieChecker, rateLimiter) :=
    gate.cookieChecker.validate crypto gate.rateLimiter datagram src underLoad now
  let gate := { gate with cookieChecker, rateLimiter }
  match underLoad, state with
  | true, .validMacWithCookie => (.pass, gate)
  | false, .validMacButNoCookie => (.pass, gate)
  | true, .validMacButNoCookie =>
    let (reply, cookieChecker) :=
      gate.cookieChecker.createReply crypto datagram (u32LeAt datagram 4) src now
    (.cookieReply reply.toBytes, { gate with cookieChecker })
  | _, _ => (.drop, gate)

end Gate

namespace Device

variable (crypto : Crypto)

def new (config : DeviceConfig) (now : Instant) (wallTime : Nat) : Device :=
  let publicKey := crypto.publicKey config.privateKey
  { s :=
      { privateKey := config.privateKey
        publicKey
        mtu := config.mtu
        indices := ∅
        anchor := (now, wallTime)
        allocated := 0
        draws := 0
        journal := [] }
    peers := []
    byKey := ∅
    routes := .new
    gate :=
      { cookieChecker := .new crypto publicKey
        rateLimiter := .new
        underLoadThreshold := config.underLoadThreshold
        handshakeWindow := (none, 0)
        lastUnderLoad := none }
    pending := []
    deadlineHint := none
    deadlineMoved := false }

def peer (device : Device) (id : PeerId) : Option Peer :=
  (device.peers[id]?).join

def note (id : PeerId) (device : Device) : Device :=
  match (device.peer id).bind (fun peer => peer.timers.earliest) with
  | none => device
  | some deadline =>
    if device.deadlineHint.all (fun hint => deadline < hint) then
      { device with deadlineHint := some deadline, deadlineMoved := true }
    else device

def work (device : Device) (peer : Peer) : Work :=
  { s := device.s, peer, out := [] }

def finish (device : Device) (id : PeerId) (work : Work) : Device :=
  { device with s := work.s, peers := device.peers.set id (some work.peer) }

/-! ### Calls -/

def newPeer (device : Device) (id : PeerId) (config : PeerConfig) : Peer :=
  { id
    publicKey := config.publicKey
    presharedKey := config.presharedKey.getD zeroKey
    staticStatic := (crypto.dh device.s.privateKey config.publicKey).getD zeroKey
    endpoint := config.endpoint
    reserved := config.reserved
    persistentKeepalive := config.persistentKeepalive.filter (fun interval => interval ≠ 0)
    handshake := .new
    keypairs := .new
    cookie := .new crypto config.publicKey
    timers :=
      { PeerTimers.new with
        persistentKeepalive := config.persistentKeepalive.map (fun _ => device.s.anchor.1) }
    staged := []
    lastSentHandshake := none
    lastHandshake := none
    rxBytes := 0
    txBytes := 0 }

def freeSlot (device : Device) : PeerId :=
  device.peers.findIdx Option.isNone

def openSlots (device : Device) : List (Option Peer) :=
  if device.freeSlot < device.peers.length then device.peers else device.peers ++ [none]

def addPeer (config : PeerConfig) (device : Device) : Except DeviceError PeerId × Device :=
  if config.publicKey = device.s.publicKey then (.error .ownKey, device)
  else if (device.byKey.lookup config.publicKey).isSome then (.error .duplicatePeer, device)
  else
    match config.allowedIps.find? (fun entry => (split entry.1).2 < entry.2) with
    | some (ip, len) => (.error (.invalidPrefix ip len), device)
    | none =>
      let id := device.freeSlot
      let device :=
        { device with
          peers := device.openSlots.set id (some (device.newPeer crypto id config))
          routes := config.allowedIps.foldl
            (fun routes (entry : IpAddr × Nat) => routes.insert entry.1 entry.2 id) device.routes
          byKey := device.byKey.insert config.publicKey id }
      (.ok id, device.note id)

def removePeer (id : PeerId) (device : Device) : Except DeviceError Unit × Device :=
  match device.peer id with
  | none => (.error .unknownPeer, device)
  | some peer =>
    let work := (device.work peer).zeroKeyMaterial
    (.ok (),
      { device with
        s := work.s
        peers := device.peers.set id none
        routes := device.routes.remove id
        byKey := device.byKey.erase peer.publicKey
        pending := device.pending.filter (fun transmit => transmit.peer ≠ some id) })

def setEndpoint (id : PeerId) (endpoint : SocketAddr) (device : Device) :
    Except DeviceError Unit × Device :=
  match device.peer id with
  | none => (.error .unknownPeer, device)
  | some peer =>
    (.ok (), { device with
      peers := device.peers.set id (some { peer with endpoint := some endpoint }) })

def pollTransmit (device : Device) : Option Transmit × Device :=
  (device.pending.head?, { device with pending := device.pending.tail })

def tickPeers (now : Instant) : List (Option Peer) → Shared → List Transmit →
    List (Option Peer) × Shared × List Transmit
  | [], s, out => ([], s, out)
  | none :: rest, s, out =>
    let (peers, s, out) := tickPeers now rest s out
    (none :: peers, s, out)
  | some peer :: rest, s, out =>
    let work := ({ s, peer, out } : Work).tick crypto now
    let (peers, s, out) := tickPeers now rest work.s work.out
    (some work.peer :: peers, s, out)

def tick (now : Instant) (device : Device) : List Transmit × Device :=
  let (peers, s, out) := tickPeers crypto now device.peers device.s []
  (out, { device with s, peers })

def sendToPeer (now : Instant) (id : PeerId) (packet : Bytes) (device : Device) :
    Except DeviceError (List Transmit) × Device :=
  match device.peer id with
  | none => (.error .unknownPeer, device)
  | some peer =>
    let work := ((device.work peer).stage packet).sendStaged crypto now
    (.ok work.out, (device.finish id work).note id)

def encapsulate (now : Instant) (packet : Bytes) (device : Device) :
    Except DeviceError (List Transmit) × Device :=
  match ipDestination packet with
  | none => (.error .notIp, device)
  | some dst =>
    match device.routes.lookup dst with
    | none => (.error (.noRoute dst), device)
    | some id => device.sendToPeer crypto now id packet

def initiate (now : Instant) (id : PeerId) (device : Device) :
    Except DeviceError (List Transmit) × Device :=
  match device.peer id with
  | none => (.error .unknownPeer, device)
  | some peer =>
    let work := (device.work peer).sendInitiation crypto now false
    (.ok work.out, (device.finish id work).note id)

/-! ### Datagrams -/

def startSession (now : Instant) (work : Work) : Option Work :=
  match beginSession crypto work.peer.handshake with
  | none => none
  | some (keys, handshake) =>
    some (((work.setPeer { work.peer with handshake }).install
      (.new keys now)).timersSessionDerived now)

def completeResponse (now : Instant) (src : SocketAddr) (bytes : Bytes) (work : Work) :
    Work × Option Transmit :=
  match startSession crypto now work with
  | none => (work, none)
  | some work =>
    let work :=
      (work.timersAnyAuthenticatedPacketTraversal now).timersAnyAuthenticatedPacketSent
    (work.setPeer { work.peer with txBytes := work.peer.txBytes + bytes.length },
      some { peer := some work.peer.id, dst := src, payload := bytes })

def respond (now : Instant) (src : SocketAddr) (work : Work) : Work × Option Transmit :=
  let work := work.releaseHandshakeIndex
  let (index, s) := work.s.allocIndex crypto work.peer.id
  let ephemeral := crypto.privateKey s.draws
  let work := { work with s := { s with draws := s.draws + 1 } }
  match createResponse crypto work.peer.handshake work.peerKeys index ephemeral with
  | none =>
    ({ work with
      s := work.s.release index
      peer := { work.peer with handshake := work.peer.handshake.zero } }, none)
  | some (response, handshake) =>
    let work := work.setPeer { work.peer with handshake }
    let (bytes, work) := work.sealMessage crypto now response.toBytes
    completeResponse crypto now src bytes work

def acceptInitiation (now : Instant) (datagram : Bytes) (device : Device) :
    Option (PeerId × Peer × Handshake) :=
  match Initiation.parse datagram with
  | none => none
  | some message =>
    match consumeInitiationStatic crypto message device.s.privateKey device.s.publicKey with
    | none => none
    | some first =>
      match device.byKey.lookup first.remoteStatic with
      | none => none
      | some id =>
        match device.peer id with
        | none => none
        | some peer =>
          match consumeInitiationPeer crypto first message peer.handshake peer.staticStatic now with
          | none => none
          | some handshake => some (id, peer, handshake)

def handleInitiation (now : Instant) (src : SocketAddr) (datagram : Bytes) (device : Device) :
    Option (PeerId × Incoming) × Device :=
  match device.acceptInitiation crypto now datagram with
  | none => (none, device)
  | some (id, peer, handshake) =>
    let work := device.work
      { peer with
        handshake
        endpoint := some src
        rxBytes := peer.rxBytes + datagram.length
        lastSentHandshake := some now }
    match respond crypto now src work with
    | (work, none) => (none, device.finish id work)
    | (work, some transmit) => (some (id, .writeBack transmit), device.finish id work)

def acceptResponse (datagram : Bytes) (device : Device) : Option (PeerId × Peer × Handshake) :=
  match Response.parse datagram with
  | none => none
  | some message =>
    match device.s.indices.lookup message.receiver with
    | none => none
    | some id =>
      match device.peer id with
      | none => none
      | some peer =>
        if peer.handshake.localIndex ≠ some message.receiver ∨
            peer.handshake.state ≠ .createdInitiation then none
        else
          match consumeResponse crypto peer.handshake message
              (device.work peer).peerKeys with
          | none => none
          | some handshake => some (id, peer, handshake)

def handleResponse (now : Instant) (src : SocketAddr) (datagram : Bytes) (device : Device) :
    Option (PeerId × Incoming) × Device :=
  match device.acceptResponse crypto datagram with
  | none => (none, device)
  | some (id, peer, handshake) =>
    let work := device.work
      { peer with
        handshake
        endpoint := some src
        rxBytes := peer.rxBytes + datagram.length }
    match startSession crypto now work with
    | none => (none, device.finish id work)
    | some work =>
      let work := (work.timersHandshakeComplete now).sendKeepalive crypto now
      (some (id, .nothing),
        { device.finish id work with pending := device.pending ++ work.out })

def handleMessage (now : Instant) (src : SocketAddr) (datagram : Bytes) (device : Device) :
    Option (PeerId × Incoming) × Device :=
  if byteAt datagram 0 = typeInitiation then device.handleInitiation crypto now src datagram
  else device.handleResponse crypto now src datagram

def processHandshake (now : Instant) (src : SocketAddr) (datagram : Bytes) (verdict : Verdict)
    (device : Device) : Incoming × Device :=
  match verdict with
  | .drop => (.nothing, device)
  | .cookieReply payload => (.writeBack { peer := none, dst := src, payload }, device)
  | .pass =>
    let (result, device) := device.handleMessage crypto now src datagram
    match result with
    | none => (.nothing, device)
    | some (id, result) =>
      match device.peer id with
      | none => (result, device.note id)
      | some peer =>
        let work := (device.work peer).timersAnyAuthenticatedPacketReceived
          |>.timersAnyAuthenticatedPacketTraversal now
        (result, (device.finish id work).note id)

def handleHandshake (now : Instant) (src : SocketAddr) (datagram : Bytes) (device : Device) :
    Incoming × Device :=
  let (verdict, gate) := device.gate.check crypto now src datagram
  { device with gate }.processHandshake crypto now src datagram verdict

def handleCookieReply (now : Instant) (datagram : Bytes) (device : Device) : Device :=
  match CookieReply.parse datagram with
  | none => device
  | some message =>
    match device.s.indices.lookup message.receiver with
    | none => device
    | some id =>
      match device.peer id with
      | none => device
      | some peer =>
        match peer.cookie.consumeReply crypto message now with
        | none => device
        | some cookie =>
          { device with
            peers := device.peers.set id (some { peer with cookie }) }

def findSession (header : DataHeader) (device : Device) : Option (PeerId × Peer × Slot × Keypair) :=
  match device.s.indices.lookup header.receiver with
  | none => none
  | some id =>
    match device.peer id with
    | none => none
    | some peer =>
      match peer.keypairs.find header.receiver with
      | none => none
      | some (slot, keypair) => some (id, peer, slot, keypair)

/-- A packet came in under the session in a slot; whether that confirmed it. -/
def receivedWith (slot : Slot) (keypair : Keypair) (counter : Nat) (work : Work) : Bool × Work :=
  let (confirmed, dropped, keypairs) :=
    (work.peer.keypairs.setSlot keypair slot).receivedWith slot
  let s := work.s.record (.received keypair.localIndex counter)
  (confirmed,
    { work with
      s := dropped.elim s s.release
      peer := { work.peer with keypairs } })

def confirm (now : Instant) (confirmed : Bool) (work : Work) : Work :=
  if confirmed then (work.timersHandshakeComplete now).sendStaged crypto now else work

def received (now : Instant) (src : SocketAddr) (length : Nat) (slot : Slot) (keypair : Keypair)
    (counter : Nat) (work : Work) : Work :=
  let (confirmed, work) := receivedWith slot keypair counter work
  let work := confirm crypto now confirmed work
  let work :=
    work.setPeer
      { work.peer with endpoint := some src, rxBytes := work.peer.rxBytes + length }
  ((work.keepKeyFreshReceive crypto now).timersAnyAuthenticatedPacketReceived
    ).timersAnyAuthenticatedPacketTraversal now

def deliverContent (id : PeerId) (session counter : Nat) (buf : Bytes) (device : Device) :
    Incoming × Device :=
  match ipSourceAndLen buf with
  | none => (.nothing, device)
  | some (source, len) =>
    if device.routes.lookup source ≠ some id then (.nothing, device)
    else
      (.deliver id (buf.take len),
        { device with s := device.s.record (.delivered session counter) })

def acceptData (now : Instant) (src : SocketAddr) (length : Nat) (id : PeerId) (peer : Peer)
    (slot : Slot) (keypair : Keypair) (counter : Nat) (buf : Bytes) (device : Device) :
    Incoming × Device :=
  let work := received crypto now src length slot keypair counter (device.work peer)
  let pending := device.pending ++ work.out
  if buf.isEmpty then
    (.nothing, ({ device.finish id work with pending }).note id)
  else
    let work := work.timersDataReceived now
    (({ device.finish id work with pending }).note id).deliverContent id
      keypair.localIndex counter buf

def handleData (now : Instant) (src : SocketAddr) (datagram : Bytes) (device : Device) :
    Incoming × Device :=
  match DataHeader.parse datagram with
  | none => (.nothing, device)
  | some header =>
    match device.findSession header with
    | none => (.nothing, device)
    | some (id, peer, slot, keypair) =>
      let (valid, keypair) := keypair.canReceive now
      if !valid then
        (.nothing, device.finish id (device.work
          { peer with keypairs := peer.keypairs.setSlot keypair slot }))
      else
        match keypair.open crypto header.counter (datagram.drop dataHeaderLen) with
        | none => (.nothing, device)
        | some buf =>
          let (fresh, replay) := keypair.replay.checkAndUpdate header.counter
          let keypair := { keypair with replay }
          if !fresh then
            (.nothing, device.finish id (device.work
              { peer with keypairs := peer.keypairs.setSlot keypair slot }))
          else
            device.acceptData crypto now src datagram.length id peer slot keypair header.counter buf

def withoutReserved (datagram : Bytes) : Bytes :=
  if 4 ≤ datagram.length then overwrite datagram 1 noReserved else datagram

def handleIncoming (now : Instant) (src : SocketAddr) (datagram : Bytes) (device : Device) :
    Incoming × Device :=
  let datagram := withoutReserved datagram
  match datagram.head? with
  | none => (.nothing, device)
  | some type =>
    if type = typeInitiation ∧ datagram.length = initiationLen then
      device.handleHandshake crypto now src datagram
    else if type = typeResponse ∧ datagram.length = responseLen then
      device.handleHandshake crypto now src datagram
    else if type = typeCookieReply then (.nothing, device.handleCookieReply crypto now datagram)
    else if type = typeData then device.handleData crypto now src datagram
    else (.nothing, device)

/-! ### Runs -/

inductive Call where
  | addPeer (config : PeerConfig)
  | removePeer (id : PeerId)
  | setEndpoint (id : PeerId) (endpoint : SocketAddr)
  | encapsulate (now : Instant) (packet : Bytes)
  | sendToPeer (now : Instant) (id : PeerId) (packet : Bytes)
  | initiate (now : Instant) (id : PeerId)
  | tick (now : Instant)
  | handleIncoming (now : Instant) (src : SocketAddr) (datagram : Bytes)
  | pollTransmit

def call (device : Device) : Call → Device
  | .addPeer config => (device.addPeer crypto config).2
  | .removePeer id => (device.removePeer id).2
  | .setEndpoint id endpoint => (device.setEndpoint id endpoint).2
  | .encapsulate now packet => (device.encapsulate crypto now packet).2
  | .sendToPeer now id packet => (device.sendToPeer crypto now id packet).2
  | .initiate now id => (device.initiate crypto now id).2
  | .tick now => (device.tick crypto now).2
  | .handleIncoming now src datagram => (device.handleIncoming crypto now src datagram).2
  | .pollTransmit => device.pollTransmit.2

def run (calls : List Call) (device : Device) : Device :=
  calls.foldl (call crypto) device

end Device

end Sail.Protocol.Wireguard
