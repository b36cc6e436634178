/-
Devices that differ in the marks of expired sessions, call by call.

What the gate in front of handshakes says is taken as given: behind it, alike
devices answer every call alike and stay alike.
-/

import Sail.Protocol.Wireguard.Marks

namespace Sail.Protocol.Wireguard

open Netstack Bytes

/-! ### Answers -/

inductive Answer where
  | added (result : Except DeviceError PeerId)
  | done (result : Except DeviceError Unit)
  | sent (result : Except DeviceError (List Transmit))
  | ticked (transmits : List Transmit)
  | came (incoming : Incoming)
  | polled (transmit : Option Transmit)

namespace Device

variable (crypto : Crypto)

def answer (device : Device) : Call → Answer
  | .addPeer config => .added (device.addPeer crypto config).1
  | .removePeer id => .done (device.removePeer id).1
  | .setEndpoint id endpoint => .done (device.setEndpoint id endpoint).1
  | .encapsulate now packet => .sent (device.encapsulate crypto now packet).1
  | .sendToPeer now id packet => .sent (device.sendToPeer crypto now id packet).1
  | .initiate now id => .sent (device.initiate crypto now id).1
  | .tick now => .ticked (device.tick crypto now).1
  | .handleIncoming now src datagram => .came (device.handleIncoming crypto now src datagram).1
  | .pollTransmit => .polled device.pollTransmit.1

def answers : List Call → Device → List Answer
  | [], _ => []
  | call :: rest, device => device.answer crypto call :: answers rest (device.call crypto call)

def isHandshake (datagram : Bytes) : Bool :=
  (datagram.head? = some typeInitiation ∧ datagram.length = initiationLen) ∨
    (datagram.head? = some typeResponse ∧ datagram.length = responseLen)

def Call.Since (since : Instant) : Call → Prop
  | .encapsulate now _ => since ≤ now
  | .sendToPeer now _ _ => since ≤ now
  | .initiate now _ => since ≤ now
  | .tick now => since ≤ now
  | .handleIncoming now _ _ => since ≤ now
  | _ => True

end Device

namespace Gate

variable (crypto : Crypto)

def ask (gate : Gate) : Device.Call → Option Verdict × Gate
  | .handleIncoming now src datagram =>
    if Device.isHandshake (Device.withoutReserved datagram) then
      let (verdict, gate) := gate.check crypto now src (Device.withoutReserved datagram)
      (some verdict, gate)
    else (none, gate)
  | _ => (none, gate)

def verdicts : List Device.Call → Gate → List (Option Verdict)
  | [], _ => []
  | call :: rest, gate => (gate.ask crypto call).1 :: verdicts rest (gate.ask crypto call).2

end Gate

/-! ### Alike devices -/

/-- The same device, up to the marks of sessions that have expired by a time, and
up to the gate. -/
structure Device.Alike (since : Instant) (first second : Device) : Prop where
  s : second.s = first.s
  peers : List.Forall₂ (Option.Rel (Peer.Alike since)) first.peers second.peers
  byKey : second.byKey = first.byKey
  routes : second.routes = first.routes
  pending : second.pending = first.pending
  deadlineHint : second.deadlineHint = first.deadlineHint
  deadlineMoved : second.deadlineMoved = first.deadlineMoved

namespace Device

variable {crypto : Crypto} {since : Instant} {first second : Device}

variable {α : Type} {one other : Work} {now : Instant} {datagram : Bytes} {src : SocketAddr}

section

variable {right : List α} {left : List α} {R : α → α → Prop} (related : List.Forall₂ R left right)

include related

theorem forall₂_set {one other : α} (same : R one other) (index : Nat) :
    List.Forall₂ R (left.set index one) (right.set index other) := by
  induction related generalizing index with
  | nil => exact .nil
  | cons first rest ih =>
    cases index with
    | zero => exact .cons same rest
    | succ index => exact .cons first (ih index)

theorem forall₂_getElem? (index : Nat) : Option.Rel R left[index]? right[index]? := by
  induction related generalizing index with
  | nil => exact .none
  | cons first rest ih =>
    cases index with
    | zero => exact .some first
    | succ index => exact ih index

end

theorem Alike.peer (alike : first.Alike since second) (id : PeerId) :
    Option.Rel (Peer.Alike since) (first.peer id) (second.peer id) := by
  have related := forall₂_getElem? alike.peers id
  unfold Device.peer
  generalize first.peers[id]? = place, second.peers[id]? = placeOther at related ⊢
  cases related with
  | none => exact .none
  | some inner => exact inner

/-- Something is found on both sides, or on neither. -/
@[elab_as_elim]
theorem rel_cases {S : α → α → Prop} {left right : Option α} {P : Option α → Option α → Prop}
    (related : Option.Rel S left right) (none : P none none)
    (some : ∀ one other, S one other → P (some one) (some other)) : P left right := by
  cases related with
  | none => exact none
  | some same => exact some _ _ same

theorem Alike.work (alike : first.Alike since second) {one other : Peer}
    (same : one.Alike since other) : (first.work one).Alike since (second.work other) := by
  obtain ⟨keypairs, rfl, related⟩ := same
  refine ⟨keypairs, ?_, related⟩
  unfold Device.work
  rw [alike.s]
  rfl

section

variable (alike : first.Alike since second)

include alike

theorem Alike.finish (same : one.Alike since other) (id : PeerId) :
    (first.finish id one).Alike since (second.finish id other) := by
  obtain ⟨keypairs, rfl, related⟩ := same
  exact { alike with s := rfl, peers := forall₂_set alike.peers (.some ⟨keypairs, rfl, related⟩) id }

theorem Alike.note (id : PeerId) : (first.note id).Alike since (second.note id) := by
  have earliest : (second.peer id).bind (fun peer => peer.timers.earliest) =
      (first.peer id).bind (fun peer => peer.timers.earliest) := by
    have related := alike.peer id
    generalize first.peer id = left, second.peer id = right at related
    cases related with
    | none => rfl
    | some same =>
      obtain ⟨keypairs, rfl, _⟩ := same
      rfl
  unfold Device.note
  rw [earliest, alike.deadlineHint]
  split
  · exact alike
  · split_ifs
    · exact { alike with deadlineHint := rfl, deadlineMoved := rfl }
    · exact alike

theorem Alike.setPeer {one other : Peer} (same : one.Alike since other) (id : PeerId) :
    ({ first with peers := first.peers.set id (some one) } : Device).Alike since
      { second with peers := second.peers.set id (some other) } :=
  { alike with peers := forall₂_set alike.peers (.some same) id }

theorem Alike.queue (transmits : List Transmit) :
    ({ first with pending := first.pending ++ transmits } : Device).Alike since
      { second with pending := second.pending ++ transmits } :=
  { alike with pending := by rw [alike.pending] }

/-! ### Calls -/

def Agree {α : Type} (since : Instant) (first second : α × Device) : Prop :=
  second.1 = first.1 ∧ first.2.Alike since second.2

theorem Alike.freeSlot : second.freeSlot = first.freeSlot := by
  have related := alike.peers
  unfold Device.freeSlot
  generalize first.peers = left, second.peers = right at related ⊢
  induction related with
  | nil => rfl
  | cons same rest ih =>
    rw [List.findIdx_cons, List.findIdx_cons, ih]
    cases same <;> rfl

theorem Alike.openSlots :
    List.Forall₂ (Option.Rel (Peer.Alike since)) first.openSlots second.openSlots := by
  unfold Device.openSlots
  rw [alike.freeSlot, alike.peers.length_eq]
  split_ifs
  · exact alike.peers
  · exact List.rel_append alike.peers (.cons .none .nil)

theorem Alike.addPeer (config : PeerConfig) :
    Agree since (first.addPeer crypto config) (second.addPeer crypto config) := by
  unfold Device.addPeer
  rw [alike.s, alike.byKey, alike.freeSlot, alike.routes]
  split_ifs
  · exact ⟨rfl, alike⟩
  · exact ⟨rfl, alike⟩
  · split
    · exact ⟨rfl, alike⟩
    · refine ⟨rfl, Alike.note ?_ _⟩
      have newPeer : second.newPeer crypto first.freeSlot config =
          first.newPeer crypto first.freeSlot config := by
        unfold Device.newPeer
        rw [alike.s]
      rw [newPeer]
      exact
        { alike with
          s := rfl, byKey := rfl, routes := rfl
          peers := forall₂_set alike.openSlots (.some ⟨_, rfl, .refl _⟩) _ }

theorem Alike.removePeer (id : PeerId) :
    Agree since (first.removePeer id) (second.removePeer id) := by
  unfold Device.removePeer
  refine rel_cases (alike.peer id) ⟨rfl, alike⟩ ?_
  intro one other same
  have zeroed := (alike.work same).zeroKeyMaterial
  obtain ⟨keypairs, rfl, _⟩ := same
  obtain ⟨_, worked, _⟩ := zeroed
  dsimp only
  rw [worked, alike.byKey, alike.routes, alike.pending]
  have set := forall₂_set alike.peers .none id
  exact ⟨rfl, { alike with s := rfl, peers := set, byKey := rfl, routes := rfl, pending := rfl }⟩

theorem Alike.setEndpoint (id : PeerId) (endpoint : SocketAddr) :
    Agree since (first.setEndpoint id endpoint) (second.setEndpoint id endpoint) := by
  unfold Device.setEndpoint
  refine rel_cases (alike.peer id) ⟨rfl, alike⟩ ?_
  rintro one _ ⟨keypairs, rfl, related⟩
  refine ⟨rfl, alike.setPeer ?_ id⟩
  exact ⟨keypairs, rfl, related⟩

/-- Work on one peer, whose datagrams are handed out. -/
theorem Alike.finished (same : one.Alike since other) (id : PeerId) :
    Agree since ((.ok one.out : Except DeviceError (List Transmit)), (first.finish id one).note id)
      (.ok other.out, (second.finish id other).note id) := by
  refine ⟨?_, (alike.finish same id).note id⟩
  obtain ⟨keypairs, rfl, _⟩ := same
  rfl

theorem Alike.sendToPeer (now : Instant) (id : PeerId) (packet : Bytes) :
    Agree since (first.sendToPeer crypto now id packet)
      (second.sendToPeer crypto now id packet) := by
  have staged : Work.Blind (Work.stage packet) := fun _ _ => ⟨rfl, rfl⟩
  unfold Device.sendToPeer
  refine rel_cases (alike.peer id) ⟨rfl, alike⟩ ?_
  intro one other same
  exact alike.finished ((staged.alike (alike.work same)).sendStaged now) id

theorem Alike.encapsulate (now : Instant) (packet : Bytes) :
    Agree since (first.encapsulate crypto now packet) (second.encapsulate crypto now packet) := by
  unfold Device.encapsulate
  rw [alike.routes]
  split
  · exact ⟨rfl, alike⟩
  · split
    · exact ⟨rfl, alike⟩
    · exact alike.sendToPeer now _ packet

theorem Alike.initiate (now : Instant) (id : PeerId) :
    Agree since (first.initiate crypto now id) (second.initiate crypto now id) := by
  unfold Device.initiate
  refine rel_cases (alike.peer id) ⟨rfl, alike⟩ ?_
  intro one other same
  exact alike.finished ((Work.blind_sendInitiation now false).alike (alike.work same)) id

end

theorem tickPeers_alike (now : Instant) {left right : List (Option Peer)}
    (related : List.Forall₂ (Option.Rel (Peer.Alike since)) left right) (s : Shared)
    (out : List Transmit) :
    List.Forall₂ (Option.Rel (Peer.Alike since)) (tickPeers crypto now left s out).1
        (tickPeers crypto now right s out).1 ∧
      (tickPeers crypto now right s out).2 = (tickPeers crypto now left s out).2 := by
  induction related generalizing s out with
  | nil => exact ⟨.nil, rfl⟩
  | cons same rest ih =>
    cases same with
    | none =>
      obtain ⟨peers, others⟩ := ih s out
      exact ⟨.cons .none peers, others⟩
    | @some one other same =>
      obtain ⟨keypairs, rfl, related⟩ := same
      have ticked : (Work.tick crypto now ⟨s, one, out⟩).Alike since
          (Work.tick crypto now ⟨s, one.withKeypairs keypairs, out⟩) :=
        Work.respects_tick now _ _ ⟨keypairs, rfl, related⟩
      obtain ⟨after, worked, relatedAfter⟩ := ticked
      obtain ⟨peers, others⟩ := ih (Work.tick crypto now ⟨s, one, out⟩).s
        (Work.tick crypto now ⟨s, one, out⟩).out
      unfold tickPeers
      rw [worked]
      exact ⟨.cons (.some ⟨after, rfl, relatedAfter⟩) peers, others⟩

theorem Alike.tick (alike : first.Alike since second) (now : Instant) :
    Agree since (first.tick crypto now) (second.tick crypto now) := by
  obtain ⟨peers, others⟩ := @tickPeers_alike crypto since now _ _ alike.peers first.s []
  unfold Device.tick
  rw [alike.s]
  exact ⟨congrArg Prod.snd others, { alike with s := congrArg Prod.fst others, peers }⟩

theorem Alike.pollTransmit (alike : first.Alike since second) :
    Agree since first.pollTransmit second.pollTransmit := by
  unfold Device.pollTransmit
  rw [alike.pending]
  exact ⟨rfl, { alike with pending := rfl }⟩

/-! ### Handshakes -/

theorem startSession_alike {one other : Work} (same : one.Alike since other) (now : Instant) :
    Option.Rel (Work.Alike since) (startSession crypto now one) (startSession crypto now other) := by
  have handshake : other.peer.handshake = one.peer.handshake := by
    obtain ⟨keypairs, rfl, _⟩ := same
    rfl
  unfold startSession
  rw [handshake]
  split
  · exact .none
  · rename_i keys after _
    have taken : Work.Blind (fun work =>
        work.setPeer { work.peer with handshake := after }) := fun _ _ => ⟨rfl, rfl⟩
    have derived : Work.Blind (Work.timersSessionDerived now) := fun _ _ => ⟨rfl, rfl⟩
    exact .some (derived.alike ((taken.alike same).install _))

theorem completeResponse_alike (same : one.Alike since other) (now : Instant) (src : SocketAddr)
    (bytes : Bytes) :
    (completeResponse crypto now src bytes other).2 =
        (completeResponse crypto now src bytes one).2 ∧
      (completeResponse crypto now src bytes one).1.Alike since
        (completeResponse crypto now src bytes other).1 := by
  have sent : Work.Blind (fun work =>
      (work.timersAnyAuthenticatedPacketTraversal now).timersAnyAuthenticatedPacketSent) :=
    Work.Blind.comp (fun _ _ => ⟨rfl, rfl⟩) (Work.blind_traversal now)
  unfold completeResponse
  have sessions := @startSession_alike crypto since _ _ same now
  generalize startSession crypto now one = left, startSession crypto now other = right at sessions ⊢
  cases sessions with
  | none => exact ⟨rfl, same⟩
  | some started =>
    obtain ⟨keypairs, worked, related⟩ := sent.alike started
    dsimp only at worked ⊢
    rw [worked]
    exact ⟨rfl, keypairs, rfl, related⟩

theorem respond_alike {one other : Work} (same : one.Alike since other) (now : Instant)
    (src : SocketAddr) :
    (respond crypto now src other).2 = (respond crypto now src one).2 ∧
      (respond crypto now src one).1.Alike since (respond crypto now src other).1 := by
  have released := Work.blind_releaseHandshakeIndex.alike same
  unfold respond
  generalize one.releaseHandshakeIndex = one, other.releaseHandshakeIndex = other at released ⊢
  obtain ⟨keypairs, rfl, related⟩ := released
  dsimp only [Work.withKeypairs, Peer.withKeypairs, Work.peerKeys, Shared.allocIndex]
  split
  · exact ⟨rfl, keypairs, rfl, related⟩
  · refine completeResponse_alike ?_ now src _
    exact ⟨keypairs, rfl, related⟩

def Taken (since : Instant) : PeerId × Peer × Handshake → PeerId × Peer × Handshake → Prop
  | (id, one, handshake), (idOther, other, handshakeOther) =>
    idOther = id ∧ handshakeOther = handshake ∧ one.Alike since other

section

variable (alike : first.Alike since second)

include alike

theorem Alike.acceptInitiation (now : Instant) (datagram : Bytes) :
    Option.Rel (Taken since) (first.acceptInitiation crypto now datagram)
      (second.acceptInitiation crypto now datagram) := by
  unfold Device.acceptInitiation
  rw [alike.s, alike.byKey]
  split
  · exact .none
  · split
    · exact .none
    · split
      · exact .none
      · rename_i id _
        refine rel_cases (alike.peer id) .none ?_
        rintro one _ ⟨keypairs, rfl, related⟩
        dsimp only [Peer.withKeypairs]
        split
        · exact .none
        · exact .some ⟨rfl, rfl, keypairs, rfl, related⟩

theorem Alike.handleInitiation (now : Instant) (src : SocketAddr) (datagram : Bytes) :
    Agree since (first.handleInitiation crypto now src datagram)
      (second.handleInitiation crypto now src datagram) := by
  unfold Device.handleInitiation
  refine rel_cases (alike.acceptInitiation now datagram) ⟨rfl, alike⟩ ?_
  rintro ⟨_, one, _⟩ ⟨id, _, handshake⟩ ⟨rfl, rfl, keypairs, rfl, related⟩
  obtain ⟨answered, responded⟩ := @respond_alike crypto since _ _
    (alike.work (⟨keypairs, rfl, related⟩ : Peer.Alike since
      { one with handshake, endpoint := some src
                 rxBytes := one.rxBytes + datagram.length, lastSentHandshake := some now } _))
    now src
  dsimp only [Peer.withKeypairs] at answered responded ⊢
  generalize respond crypto now src (first.work _) = outcome,
    respond crypto now src (second.work _) = outcomeOther at answered responded ⊢
  obtain ⟨left, transmit⟩ := outcome
  obtain ⟨right, transmitOther⟩ := outcomeOther
  cases answered
  cases transmit with
  | none | some _ => exact ⟨rfl, alike.finish responded id⟩

theorem Alike.acceptResponse (datagram : Bytes) :
    Option.Rel (Taken since) (first.acceptResponse crypto datagram)
      (second.acceptResponse crypto datagram) := by
  unfold Device.acceptResponse
  rw [alike.s]
  split
  · exact .none
  · split
    · exact .none
    · rename_i id _
      refine rel_cases (alike.peer id) .none ?_
      rintro one _ ⟨keypairs, rfl, related⟩
      dsimp only [Peer.withKeypairs, Work.peerKeys, Device.work]
      rw [alike.s]
      split_ifs
      · exact .none
      · split
        · exact .none
        · exact .some ⟨rfl, rfl, keypairs, rfl, related⟩

theorem Alike.handleResponse (now : Instant) (src : SocketAddr) (datagram : Bytes) :
    Agree since (first.handleResponse crypto now src datagram)
      (second.handleResponse crypto now src datagram) := by
  unfold Device.handleResponse
  refine rel_cases (alike.acceptResponse datagram) ⟨rfl, alike⟩ ?_
  rintro ⟨_, one, _⟩ ⟨id, _, handshake⟩ ⟨rfl, rfl, keypairs, rfl, related⟩
  dsimp only
  have taken := alike.work (⟨keypairs, rfl, related⟩ : Peer.Alike since
    { one with handshake, endpoint := some src
               rxBytes := one.rxBytes + datagram.length } _)
  refine rel_cases (startSession_alike taken now) ⟨rfl, alike.finish taken id⟩ ?_
  intro left right started
  have complete : Work.Blind (Work.timersHandshakeComplete now) := fun _ _ => ⟨rfl, rfl⟩
  have sent := @Work.Alike.sendKeepalive crypto since _ _ (complete.alike started) now
  dsimp only
  rw [sent.out]
  exact ⟨rfl, (alike.finish sent id).queue _⟩

end

theorem Alike.handleMessage (alike : first.Alike since second) (now : Instant)
    (src : SocketAddr) (datagram : Bytes) :
    Agree since (first.handleMessage crypto now src datagram)
      (second.handleMessage crypto now src datagram) := by
  unfold Device.handleMessage
  split_ifs
  · exact alike.handleInitiation now src datagram
  · exact alike.handleResponse now src datagram

theorem Alike.processHandshake (alike : first.Alike since second) (now : Instant)
    (src : SocketAddr) (datagram : Bytes) (verdict : Verdict) :
    Agree since (first.processHandshake crypto now src datagram verdict)
      (second.processHandshake crypto now src datagram verdict) := by
  unfold Device.processHandshake
  cases verdict with
  | drop | cookieReply _ => exact ⟨rfl, alike⟩
  | pass =>
    obtain ⟨answered, taken⟩ := @Alike.handleMessage crypto since _ _ alike now src datagram
    generalize first.handleMessage crypto now src datagram = outcome,
      second.handleMessage crypto now src datagram = outcomeOther at answered taken ⊢
    obtain ⟨result, left⟩ := outcome
    obtain ⟨resultOther, right⟩ := outcomeOther
    cases answered
    cases result with
    | none => exact ⟨rfl, taken⟩
    | some answer =>
      obtain ⟨id, result⟩ := answer
      dsimp only at taken ⊢
      refine rel_cases (taken.peer id) ⟨rfl, taken.note id⟩ ?_
      intro one other same
      have received : Work.Blind Work.timersAnyAuthenticatedPacketReceived :=
        fun _ _ => ⟨rfl, rfl⟩
      have settled := (Work.blind_traversal now).alike (received.alike (taken.work same))
      exact ⟨rfl, (taken.finish settled id).note id⟩

theorem Alike.handleCookieReply (alike : first.Alike since second) (now : Instant)
    (datagram : Bytes) :
    (first.handleCookieReply crypto now datagram).Alike since
      (second.handleCookieReply crypto now datagram) := by
  unfold Device.handleCookieReply
  rw [alike.s]
  split
  · exact alike
  · split
    · exact alike
    · rename_i id _
      refine rel_cases (alike.peer id) alike ?_
      rintro one _ ⟨keypairs, rfl, related⟩
      dsimp only [Peer.withKeypairs]
      split
      · exact alike
      · refine { alike with s := rfl, peers := forall₂_set alike.peers (.some ?_) id }
        exact ⟨keypairs, rfl, related⟩

/-! ### Data -/

def Found (since : Instant) : PeerId × Peer × Slot × Keypair → PeerId × Peer × Slot × Keypair → Prop
  | (id, one, slot, keypair), (idOther, other, slotOther, keypairOther) =>
    idOther = id ∧ slotOther = slot ∧ one.Alike since other ∧ keypair.Alike since keypairOther

theorem Alike.findSession (alike : first.Alike since second) (header : DataHeader) :
    Option.Rel (Found since) (first.findSession header) (second.findSession header) := by
  unfold Device.findSession
  rw [alike.s]
  split
  · exact .none
  · rename_i id _
    refine rel_cases (alike.peer id) .none ?_
    rintro one _ ⟨keypairs, rfl, related⟩
    dsimp only [Peer.withKeypairs]
    rcases related.find header.receiver with ⟨noFirst, noSecond⟩ |
      ⟨slot, keypair, keypairOther, hasFirst, hasSecond, alikeSession⟩
    · rw [noFirst, noSecond]
      exact .none
    · rw [hasFirst, hasSecond]
      exact .some ⟨rfl, rfl, ⟨keypairs, rfl, related⟩, alikeSession⟩

theorem receivedWith_alike (same : one.Alike since other) (slot : Slot) (keypair : Keypair)
    (counter : Nat) :
    (receivedWith slot keypair counter other).1 = (receivedWith slot keypair counter one).1 ∧
      (receivedWith slot keypair counter one).2.Alike since
        (receivedWith slot keypair counter other).2 := by
  obtain ⟨keypairs, rfl, related⟩ := same
  obtain ⟨confirmed, dropped, after⟩ :=
    (related.setSlot (.refl keypair) slot).receivedWith slot
  unfold receivedWith
  dsimp only [Work.withKeypairs, Peer.withKeypairs]
  refine ⟨confirmed, _, ?_, after⟩
  rw [dropped]
  rfl

theorem received_alike {one other : Work} (same : one.Alike since other) (now : Instant)
    (src : SocketAddr) (length : Nat) (slot : Slot) (keypair : Keypair) (counter : Nat) :
    (received crypto now src length slot keypair counter one).Alike since
      (received crypto now src length slot keypair counter other) := by
  obtain ⟨sameConfirmed, taken⟩ := receivedWith_alike same slot keypair counter
  have complete : Work.Blind (Work.timersHandshakeComplete now) := fun _ _ => ⟨rfl, rfl⟩
  have moved : Work.Blind (fun work => work.setPeer
      { work.peer with endpoint := some src, rxBytes := work.peer.rxBytes + length }) :=
    fun _ _ => ⟨rfl, rfl⟩
  have heard : Work.Blind Work.timersAnyAuthenticatedPacketReceived := fun _ _ => ⟨rfl, rfl⟩
  unfold received
  dsimp only
  generalize receivedWith slot keypair counter one = outcome,
    receivedWith slot keypair counter other = outcomeOther at sameConfirmed taken ⊢
  rw [sameConfirmed]
  have confirms : (confirm crypto now outcome.1 outcome.2).Alike since
      (confirm crypto now outcome.1 outcomeOther.2) := by
    unfold confirm
    split_ifs
    · exact (complete.alike taken).sendStaged now
    · exact taken
  exact (Work.blind_traversal now).alike
    (heard.alike ((moved.alike confirms).keepKeyFreshReceive now))

section

variable (alike : first.Alike since second)

include alike

theorem Alike.deliverContent (id : PeerId) (session counter : Nat) (buf : Bytes) :
    Agree since (first.deliverContent id session counter buf)
      (second.deliverContent id session counter buf) := by
  unfold Device.deliverContent
  rw [alike.routes]
  split
  · exact ⟨rfl, alike⟩
  · split_ifs
    · exact ⟨rfl, alike⟩
    · exact ⟨rfl, { alike with s := by rw [alike.s], routes := rfl }⟩

theorem Alike.setKeypair {one other : Peer} (same : one.Alike since other)
    {keypair keypairOther : Keypair} (alikeSession : keypair.Alike since keypairOther)
    (slot : Slot) (id : PeerId) :
    (first.finish id (first.work { one with
        keypairs := one.keypairs.setSlot keypair slot })).Alike since
      (second.finish id (second.work { other with
        keypairs := other.keypairs.setSlot keypairOther slot })) := by
  obtain ⟨keypairs, rfl, related⟩ := same
  exact alike.finish (alike.work ⟨_, rfl, related.setSlot alikeSession slot⟩) id

theorem Alike.acceptData {one other : Peer} (same : one.Alike since other) (now : Instant)
    (src : SocketAddr) (length : Nat) (id : PeerId) (slot : Slot) (keypair : Keypair)
    (counter : Nat) (buf : Bytes) :
    Agree since (first.acceptData crypto now src length id one slot keypair counter buf)
      (second.acceptData crypto now src length id other slot keypair counter buf) := by
  have worked := @received_alike crypto since _ _ (alike.work same) now src length slot keypair
    counter
  unfold Device.acceptData
  dsimp only
  generalize received crypto now src length slot keypair counter (first.work one) = left,
    received crypto now src length slot keypair counter (second.work other) = right at worked ⊢
  rw [worked.out]
  split_ifs
  · exact ⟨rfl, ((alike.finish worked id).queue left.out).note id⟩
  · have heard := (Work.blind_dataReceived now).alike worked
    exact (((alike.finish heard id).queue left.out).note id).deliverContent id _ counter buf

theorem Alike.handleData (later : since ≤ now) (src : SocketAddr) (datagram : Bytes) :
    Agree since (first.handleData crypto now src datagram)
      (second.handleData crypto now src datagram) := by
  unfold Device.handleData
  split
  · exact ⟨rfl, alike⟩
  · rename_i header _
    refine rel_cases (alike.findSession header) ⟨rfl, alike⟩ ?_
    rintro ⟨_, one, _, keypair⟩ ⟨id, other, slot, keypairOther⟩ ⟨rfl, rfl, same, alikeSession⟩
    obtain ⟨able, marked, equal⟩ := alikeSession.canReceive later
    dsimp only
    rw [able]
    by_cases valid : (keypair.canReceive now).1 = true
    · rw [if_neg (by simp [valid]), if_neg (by simp [valid])]
      cases equal valid
      split
      · exact ⟨rfl, alike⟩
      · rename_i buf _
        split_ifs with stale
        · exact ⟨rfl, alike.setKeypair same (.refl _) slot id⟩
        · exact alike.acceptData same now src datagram.length id slot _ header.counter buf
    · rw [if_pos (by simpa using valid), if_pos (by simpa using valid)]
      exact ⟨rfl, alike.setKeypair same marked slot id⟩

/-! ### The gate -/

theorem Alike.handleHandshake
    (verdict : (second.gate.check crypto now src datagram).1 =
      (first.gate.check crypto now src datagram).1) :
    Agree since (first.handleHandshake crypto now src datagram)
      (second.handleHandshake crypto now src datagram) := by
  have counted : ({ first with gate := (first.gate.check crypto now src datagram).2 } :
      Device).Alike since { second with gate := (second.gate.check crypto now src datagram).2 } :=
    { alike with }
  unfold Device.handleHandshake
  dsimp only
  rw [verdict]
  exact counted.processHandshake now src datagram _

end

theorem isHandshake_iff {type : UInt8} (first : datagram.head? = some type) :
    isHandshake datagram = true ↔
      (type = typeInitiation ∧ datagram.length = initiationLen) ∨
        (type = typeResponse ∧ datagram.length = responseLen) := by
  unfold isHandshake
  rw [first, decide_eq_true_iff, Option.some_inj, Option.some_inj]

/-- What the gate is asked, if anything. -/
theorem ask_of_handshake (gate : Gate) (handshake : isHandshake (withoutReserved datagram) = true) :
    gate.ask crypto (.handleIncoming now src datagram) =
      (some (gate.check crypto now src (withoutReserved datagram)).1,
        (gate.check crypto now src (withoutReserved datagram)).2) := by
  unfold Gate.ask
  dsimp only
  rw [if_pos handshake]

theorem ask_of_other (gate : Gate) (other : ¬ isHandshake (withoutReserved datagram) = true) :
    gate.ask crypto (.handleIncoming now src datagram) = (none, gate) := by
  unfold Gate.ask
  dsimp only
  rw [if_neg other]

theorem Alike.handleIncoming (alike : first.Alike since second) (later : since ≤ now)
    (src : SocketAddr) (datagram : Bytes)
    (agree : (second.gate.ask crypto (.handleIncoming now src datagram)).1 =
      (first.gate.ask crypto (.handleIncoming now src datagram)).1) :
    Agree since (first.handleIncoming crypto now src datagram)
      (second.handleIncoming crypto now src datagram) := by
  have verdict : isHandshake (withoutReserved datagram) = true →
      (second.gate.check crypto now src (withoutReserved datagram)).1 =
        (first.gate.check crypto now src (withoutReserved datagram)).1 := by
    intro handshake
    rw [ask_of_handshake _ handshake, ask_of_handshake _ handshake] at agree
    exact Option.some_inj.mp agree
  unfold Device.handleIncoming
  dsimp only
  cases found : (withoutReserved datagram).head? with
  | none => exact ⟨rfl, alike⟩
  | some type =>
    have handshake := isHandshake_iff found
    dsimp only
    split_ifs with initiation response reply data
    · exact alike.handleHandshake (verdict (handshake.mpr (.inl initiation)))
    · exact alike.handleHandshake (verdict (handshake.mpr (.inr response)))
    · exact ⟨rfl, alike.handleCookieReply now _⟩
    · exact alike.handleData later src _
    · exact ⟨rfl, alike⟩

/-! ### The gate behind a call -/

section

variable (device : Device)

theorem gate_note (id : PeerId) : (device.note id).gate = device.gate := by
  unfold note
  split
  · rfl
  · split_ifs <;> rfl

theorem gate_addPeer (config : PeerConfig) :
    (device.addPeer crypto config).2.gate = device.gate := by
  unfold addPeer
  split_ifs
  · rfl
  · rfl
  · split
    · rfl
    · exact gate_note _ _

theorem gate_removePeer (id : PeerId) : (device.removePeer id).2.gate = device.gate := by
  unfold removePeer
  split <;> rfl

theorem gate_setEndpoint (id : PeerId) (endpoint : SocketAddr) :
    (device.setEndpoint id endpoint).2.gate = device.gate := by
  unfold setEndpoint
  split <;> rfl

variable (now : Instant)

theorem gate_sendToPeer (id : PeerId) (packet : Bytes) :
    (device.sendToPeer crypto now id packet).2.gate = device.gate := by
  unfold sendToPeer
  split
  · rfl
  · exact gate_note _ _

theorem gate_encapsulate (packet : Bytes) :
    (device.encapsulate crypto now packet).2.gate = device.gate := by
  unfold encapsulate
  split
  · rfl
  · split
    · rfl
    · exact gate_sendToPeer device now _ packet

theorem gate_initiate (id : PeerId) : (device.initiate crypto now id).2.gate = device.gate := by
  unfold initiate
  split
  · rfl
  · exact gate_note _ _

theorem gate_handleMessage (now : Instant) (src : SocketAddr) (datagram : Bytes) :
    (device.handleMessage crypto now src datagram).2.gate = device.gate := by
  unfold handleMessage handleInitiation handleResponse
  split_ifs
  · split
    · rfl
    · dsimp only
      split <;> rfl
  · split
    · rfl
    · dsimp only
      split <;> rfl

variable (src : SocketAddr) (datagram : Bytes)

theorem gate_processHandshake (verdict : Verdict) :
    (device.processHandshake crypto now src datagram verdict).2.gate = device.gate := by
  unfold processHandshake
  cases verdict with
  | drop | cookieReply _ => rfl
  | pass =>
    have kept := @gate_handleMessage crypto device now src datagram
    generalize device.handleMessage crypto now src datagram = outcome at kept ⊢
    dsimp only
    split
    · exact kept
    · split
      · exact (gate_note _ _).trans kept
      · exact (gate_note _ _).trans kept

theorem gate_handleCookieReply :
    (device.handleCookieReply crypto now datagram).gate = device.gate := by
  unfold handleCookieReply
  split
  · rfl
  · split
    · rfl
    · split
      · rfl
      · split <;> rfl

theorem gate_acceptData (length : Nat) (id : PeerId) (peer : Peer) (slot : Slot) (keypair : Keypair)
    (counter : Nat) (buf : Bytes) :
    (device.acceptData crypto now src length id peer slot keypair counter buf).2.gate =
      device.gate := by
  have delivered : ∀ (after : Device) (session : Nat),
      (after.deliverContent id session counter buf).2.gate = after.gate := by
    intro after session
    unfold deliverContent
    split
    · rfl
    · split_ifs <;> rfl
  unfold acceptData
  split_ifs
  · exact gate_note _ _
  · exact (delivered _ _).trans (gate_note _ _)

theorem gate_handleData : (device.handleData crypto now src datagram).2.gate = device.gate := by
  unfold handleData
  split
  · rfl
  · split
    · rfl
    · dsimp only
      split_ifs
      · rfl
      · split <;> rfl
      · split
        · rfl
        · exact gate_acceptData device _ _ _ _ _ _ _ _ _

theorem gate_handleIncoming :
    (device.handleIncoming crypto now src datagram).2.gate =
      (device.gate.ask crypto (.handleIncoming now src datagram)).2 := by
  unfold handleIncoming
  dsimp only
  cases found : (withoutReserved datagram).head? with
  | none =>
    have other : ¬ isHandshake (withoutReserved datagram) = true := by
      unfold isHandshake
      simp [found]
    rw [ask_of_other _ other]
  | some type =>
    have handshake := isHandshake_iff found
    dsimp only
    split_ifs with initiation response reply data
    · rw [ask_of_handshake _ (handshake.mpr (.inl initiation))]
      exact gate_processHandshake _ _ _ _ _
    · rw [ask_of_handshake _ (handshake.mpr (.inr response))]
      exact gate_processHandshake _ _ _ _ _
    all_goals rw [ask_of_other _ (fun is => (handshake.mp is).elim initiation response)]
    · exact gate_handleCookieReply device now _
    · exact gate_handleData device now src _

/-- The gate goes its own way. -/
theorem gate_call (call : Call) :
    (device.call crypto call).gate = (device.gate.ask crypto call).2 := by
  cases call with
  | addPeer config => exact gate_addPeer device config
  | removePeer id => exact gate_removePeer device id
  | setEndpoint id endpoint => exact gate_setEndpoint device id endpoint
  | encapsulate now packet => exact gate_encapsulate device now packet
  | sendToPeer now id packet => exact gate_sendToPeer device now id packet
  | initiate now id => exact gate_initiate device now id
  | tick _ | pollTransmit => rfl
  | handleIncoming now src datagram => exact gate_handleIncoming device now src datagram

end

/-! ### Runs -/

theorem Alike.call (alike : first.Alike since second) (call : Call) (later : call.Since since)
    (agree : (second.gate.ask crypto call).1 = (first.gate.ask crypto call).1) :
    second.answer crypto call = first.answer crypto call ∧
      (first.call crypto call).Alike since (second.call crypto call) := by
  have both : ∀ {α : Type} {left right : α × Device} (wrap : α → Answer), Agree since left right →
      wrap right.1 = wrap left.1 ∧ left.2.Alike since right.2 :=
    fun wrap agreed => ⟨congrArg wrap agreed.1, agreed.2⟩
  cases call with
  | addPeer config => exact both .added (alike.addPeer config)
  | removePeer id => exact both .done (alike.removePeer id)
  | setEndpoint id endpoint => exact both .done (alike.setEndpoint id endpoint)
  | encapsulate now packet => exact both .sent (alike.encapsulate now packet)
  | sendToPeer now id packet => exact both .sent (alike.sendToPeer now id packet)
  | initiate now id => exact both .sent (alike.initiate now id)
  | tick now => exact both .ticked (alike.tick now)
  | handleIncoming now src datagram =>
    exact both .came (alike.handleIncoming later src datagram agree)
  | pollTransmit => exact both .polled alike.pollTransmit

/-- Alike devices whose gates say the same give the same answers ever after. -/
theorem Alike.answers (alike : first.Alike since second) (calls : List Call)
    (later : ∀ call ∈ calls, call.Since since)
    (agree : second.gate.verdicts crypto calls = first.gate.verdicts crypto calls) :
    answers crypto calls second = answers crypto calls first := by
  induction calls generalizing first second with
  | nil => rfl
  | cons call rest ih =>
    obtain ⟨now, onward⟩ := List.cons_eq_cons.mp agree
    obtain ⟨same, after⟩ := alike.call call (later call List.mem_cons_self) now
    unfold Device.answers
    congr 1
    refine ih after (List.forall_mem_cons.mp later).2 ?_
    rw [gate_call, gate_call]
    exact onward

end Device

end Sail.Protocol.Wireguard
