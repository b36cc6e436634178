/-
What the device's calls do to the sessions of all peers.

Every call is a sequence of steps of single peers, of peers that come and go, and of
deliveries right behind the packet received.
-/

import Sail.Protocol.Wireguard.SessionSteps

namespace Sail.Protocol.Wireguard

open Netstack

variable (now : Instant) {peer : Peer} {keypair : Keypair} (src : SocketAddr) (datagram : Bytes)
variable {handshake : Handshake}

structure World where
  holders : List Holder
  journal : List Event
  allocated : Nat

inductive World.Step (crypto : Crypto) : World → World → Prop
  | work {front back : List Holder} {before after : View} (step : View.Step crypto before after) :
      Step crypto ⟨front ++ before.holder :: back, before.journal, before.allocated⟩
        ⟨front ++ after.holder :: back, after.journal, after.allocated⟩
  | remove {front back : List Holder} {holder : Holder} {journal : List Event} {allocated : Nat} :
      Step crypto ⟨front ++ holder :: back, journal, allocated⟩ ⟨front ++ back, journal, allocated⟩
  | insert {front back : List Holder} {journal : List Event} {allocated : Nat} :
      Step crypto ⟨front ++ back, journal, allocated⟩
        ⟨front ++ ⟨.new, none⟩ :: back, journal, allocated⟩
  | deliver {front back : List Holder} {before received after : View} {slot : Slot}
      {keypair : Keypair} {counter : Nat} (found : before.holder.keypairs.slot slot = some keypair)
      (fresh : (keypair.replay.checkAndUpdate counter).1 = true)
      (receives : View.Step crypto before received)
      (journal : received.journal = before.journal ++ [.received keypair.localIndex counter])
      (onward : View.Steps crypto received after) :
      Step crypto ⟨front ++ before.holder :: back, before.journal, before.allocated⟩
        ⟨front ++ after.holder :: back, after.journal ++ [.delivered keypair.localIndex counter],
          after.allocated⟩

def World.Steps (crypto : Crypto) : World → World → Prop :=
  Relation.ReflTransGen (World.Step crypto)

theorem World.Steps.work {crypto : Crypto} {front back : List Holder} {before after : View}
    (steps : View.Steps crypto before after) :
    World.Steps crypto ⟨front ++ before.holder :: back, before.journal, before.allocated⟩
      ⟨front ++ after.holder :: back, after.journal, after.allocated⟩ := by
  induction steps with
  | refl => exact .refl
  | tail _ step ih => exact ih.tail (.work step)

namespace Device

variable {crypto : Crypto} {device : Device}

def holders (device : Device) : List Holder :=
  (device.peers.filterMap id).map Peer.holder

def world (device : Device) : World :=
  { holders := device.holders, journal := device.s.journal, allocated := device.s.allocated }

theorem holders_of_split {front back : List (Option Peer)} {place : Option Peer}
    (split : device.peers = front ++ place :: back) :
    device.holders = (front.filterMap id).map Peer.holder ++
      ((place.map Peer.holder).toList ++ (back.filterMap id).map Peer.holder) := by
  unfold holders
  rw [split, List.filterMap_append, List.map_append]
  cases place <;> rfl

theorem place_split {id : PeerId} {place : Option Peer} (found : device.peers[id]? = some place) :
    ∃ front back, device.peers = front ++ place :: back ∧
      ∀ other, device.peers.set id other = front ++ other :: back := by
  obtain ⟨below, same⟩ := List.getElem?_eq_some_iff.mp found
  have sets : ∀ other, device.peers.set id other =
      device.peers.take id ++ other :: device.peers.drop (id + 1) := by
    intro other
    rw [List.set_eq_take_append_cons_drop, if_pos below]
  refine ⟨device.peers.take id, device.peers.drop (id + 1), ?_, sets⟩
  rw [← sets, ← same, List.set_getElem_self]

theorem peer_split {id : PeerId} (found : device.peer id = some peer) :
    ∃ front back, device.peers = front ++ some peer :: back ∧
      ∀ other, device.peers.set id other = front ++ other :: back :=
  place_split (Option.join_eq_some_iff.mp found)

theorem world_of_split {front back : List (Option Peer)} {place : Option Peer}
    (split : device.peers = front ++ place :: back) :
    device.world = ⟨(front.filterMap id).map Peer.holder ++
      ((place.map Peer.holder).toList ++ (back.filterMap id).map Peer.holder),
      device.s.journal, device.s.allocated⟩ := by
  unfold world
  rw [holders_of_split split]

/-- One peer's work. -/
theorem steps_finish {id : PeerId} (found : device.peer id = some peer) {work : Work}
    (steps : View.Steps crypto (device.work peer).view work.view) :
    World.Steps crypto device.world (device.finish id work).world := by
  obtain ⟨front, back, split, sets⟩ := peer_split found
  have after : (device.finish id work).peers = front ++ some work.peer :: back := sets _
  rw [world_of_split split, world_of_split after]
  exact .work steps

/-- Only the peers, the journal and the count of indices matter. -/
theorem world_eq {after : Device} (samePeers : after.peers = device.peers)
    (sameJournal : after.s.journal = device.s.journal)
    (sameAllocated : after.s.allocated = device.s.allocated) : after.world = device.world := by
  unfold world holders
  rw [samePeers, sameJournal, sameAllocated]

theorem note_eq (id : PeerId) (device : Device) :
    (device.note id).peers = device.peers ∧ (device.note id).s = device.s ∧
      (device.note id).routes = device.routes := by
  unfold note
  split
  · exact ⟨rfl, rfl, rfl⟩
  · split_ifs <;> exact ⟨rfl, rfl, rfl⟩

theorem world_note (id : PeerId) (device : Device) : (device.note id).world = device.world := by
  obtain ⟨peers, s, _⟩ := note_eq id device
  exact world_eq peers (by rw [s]) (by rw [s])

/-! ### Calls -/

theorem openSlots_free (device : Device) : device.openSlots[device.freeSlot]? = some none := by
  unfold openSlots freeSlot
  split_ifs with free
  · have isNone : device.peers[device.peers.findIdx Option.isNone].isNone = true :=
      List.findIdx_getElem
    rw [List.getElem?_eq_getElem free, Option.isNone_iff_eq_none.mp isNone]
  · have last : device.peers.findIdx Option.isNone = device.peers.length :=
      Nat.le_antisymm List.findIdx_le_length (Nat.le_of_not_lt free)
    rw [last, List.getElem?_concat_length]

theorem openSlots_peers (device : Device) :
    device.openSlots.filterMap id = device.peers.filterMap id := by
  unfold openSlots
  split_ifs
  · rfl
  · rw [List.filterMap_append]
    exact List.append_nil _

theorem steps_addPeer (config : PeerConfig) :
    World.Steps crypto device.world (device.addPeer crypto config).2.world := by
  unfold addPeer
  split_ifs with own taken
  · exact .refl
  · exact .refl
  · split
    · exact .refl
    · rw [world_note]
      have free : { device with peers := device.openSlots }.peers[device.freeSlot]? = some none :=
        openSlots_free device
      obtain ⟨front, back, split, sets⟩ := place_split free
      have opened : device.world = ({ device with peers := device.openSlots } : Device).world := by
        unfold world holders
        rw [openSlots_peers]
      rw [opened, world_of_split split, world_of_split (sets _)]
      exact .single .insert

theorem steps_removePeer (id : PeerId) :
    World.Steps crypto device.world (device.removePeer id).2.world := by
  unfold removePeer
  cases found : device.peer id with
  | none => exact .refl
  | some peer =>
    obtain ⟨front, back, split, sets⟩ := peer_split found
    have zeroed : World.Steps crypto device.world _ :=
      steps_finish found (Work.steps_zeroKeyMaterial (device.work peer))
    rw [world_of_split (show (device.finish id (device.work peer).zeroKeyMaterial).peers = _
      from sets _)] at zeroed
    have removed := fun (after : Device) (same : after.peers = device.peers.set id none) =>
      world_of_split (same.trans (sets none))
    refine zeroed.trans ?_
    rw [removed _ rfl]
    exact .single .remove

theorem steps_setEndpoint (id : PeerId) (endpoint : SocketAddr) :
    World.Steps crypto device.world (device.setEndpoint id endpoint).2.world := by
  unfold setEndpoint
  cases found : device.peer id with
  | none => exact .refl
  | some peer =>
    exact steps_finish found (Work.steps_refl (device.work { peer with endpoint := some endpoint }))

theorem steps_sendToPeer (id : PeerId) (packet : Bytes) :
    World.Steps crypto device.world (device.sendToPeer crypto now id packet).2.world := by
  unfold sendToPeer
  cases found : device.peer id with
  | none => exact .refl
  | some peer =>
    rw [world_note]
    exact steps_finish found
      (Work.steps_from (Work.steps_sendStaged now ((device.work peer).stage packet)) rfl)

theorem steps_encapsulate (packet : Bytes) :
    World.Steps crypto device.world (device.encapsulate crypto now packet).2.world := by
  unfold encapsulate
  split
  · exact .refl
  · split
    · exact .refl
    · exact steps_sendToPeer now _ packet

theorem steps_initiate (id : PeerId) :
    World.Steps crypto device.world (device.initiate crypto now id).2.world := by
  unfold initiate
  cases found : device.peer id with
  | none => exact .refl
  | some peer =>
    rw [world_note]
    exact steps_finish found (Work.steps_sendInitiation now false _)

/-- The timers of one peer after the other. -/
theorem steps_tickPeers (peers : List (Option Peer)) (front : List Holder) (s : Shared)
    (out : List Transmit) :
    World.Steps crypto
      ⟨front ++ (peers.filterMap id).map Peer.holder, s.journal, s.allocated⟩
      ⟨front ++ ((tickPeers crypto now peers s out).1.filterMap id).map Peer.holder,
        (tickPeers crypto now peers s out).2.1.journal,
        (tickPeers crypto now peers s out).2.1.allocated⟩ := by
  induction peers generalizing front s out with
  | nil => exact .refl
  | cons place rest ih =>
    cases place with
    | none => exact ih front s out
    | some peer =>
      have ticked := @World.Steps.work crypto front ((rest.filterMap id).map Peer.holder) _ _
        (Work.steps_tick now ⟨s, peer, out⟩)
      have onward := ih (front ++ [(Work.tick crypto now ⟨s, peer, out⟩).peer.holder])
        (Work.tick crypto now ⟨s, peer, out⟩).s (Work.tick crypto now ⟨s, peer, out⟩).out
      rw [List.append_assoc, List.append_assoc] at onward
      exact ticked.trans onward

theorem steps_callTick : World.Steps crypto device.world (device.tick crypto now).2.world :=
  steps_tickPeers now device.peers [] device.s []

theorem steps_pollTransmit : World.Steps crypto device.world device.pollTransmit.2.world :=
  .refl

/-! ### Handshakes -/

theorem consumeInitiationPeer_localIndex {first : InitiationFirstHalf} {message : Initiation}
    {after : Handshake} {staticStatic : Bytes} {now : Instant}
    (consumed : consumeInitiationPeer crypto first message handshake staticStatic now = some after) :
    after.localIndex = handshake.localIndex := by
  unfold consumeInitiationPeer at consumed
  split at consumed
  · cases consumed
  · split_ifs at consumed
    cases consumed
    rfl

theorem consumeResponse_localIndex {after : Handshake} {message : Response} {keys : PeerKeys}
    (consumed : consumeResponse crypto handshake message keys = some after) :
    after.localIndex = handshake.localIndex := by
  unfold consumeResponse at consumed
  split_ifs at consumed
  dsimp only at consumed
  split at consumed
  · cases consumed
  · split at consumed
    · cases consumed
    · split at consumed
      · cases consumed
      · cases consumed
        rfl

theorem acceptInitiation_spec {now : Instant} {datagram : Bytes} {id : PeerId}
    (accepted : device.acceptInitiation crypto now datagram = some (id, peer, handshake)) :
    device.peer id = some peer ∧ handshake.localIndex = peer.handshake.localIndex := by
  unfold acceptInitiation at accepted
  split at accepted
  · cases accepted
  · split at accepted
    · cases accepted
    · split at accepted
      · cases accepted
      · split at accepted
        · cases accepted
        · rename_i found
          split at accepted
          · cases accepted
          · rename_i consumed
            cases accepted
            exact ⟨found, consumeInitiationPeer_localIndex consumed⟩

theorem acceptResponse_spec {datagram : Bytes} {id : PeerId}
    (accepted : device.acceptResponse crypto datagram = some (id, peer, handshake)) :
    device.peer id = some peer ∧ handshake.localIndex = peer.handshake.localIndex := by
  unfold acceptResponse at accepted
  split at accepted
  · cases accepted
  · split at accepted
    · cases accepted
    · split at accepted
      · cases accepted
      · rename_i found
        split_ifs at accepted
        split at accepted
        · cases accepted
        · rename_i consumed
          cases accepted
          exact ⟨found, consumeResponse_localIndex consumed⟩

/-- A handshake that keeps its index changes nothing about the sessions. -/
theorem view_of_localIndex (device : Device) (peer after : Peer)
    (keypairs : after.keypairs = peer.keypairs)
    (index : after.handshake.localIndex = peer.handshake.localIndex) :
    (device.work after).view = (device.work peer).view := by
  unfold Work.view Peer.holder work
  rw [keypairs, index]

theorem steps_handleInitiation :
    World.Steps crypto device.world (device.handleInitiation crypto now src datagram).2.world := by
  unfold handleInitiation
  cases accepted : device.acceptInitiation crypto now datagram with
  | none => exact .refl
  | some outcome =>
    obtain ⟨id, peer, handshake⟩ := outcome
    obtain ⟨found, index⟩ := acceptInitiation_spec accepted
    dsimp only
    generalize ready : device.work _ = work
    have same : work.view = (device.work peer).view := by
      rw [← ready]
      exact view_of_localIndex device peer _ rfl index
    have steps : View.Steps crypto work.view _ := steps_respond now src work
    rw [same] at steps
    have finished := steps_finish found steps
    split
    · rename_i responded
      rw [responded] at finished
      exact finished
    · rename_i responded
      rw [responded] at finished
      exact finished

theorem steps_handleResponse :
    World.Steps crypto device.world (device.handleResponse crypto now src datagram).2.world := by
  unfold handleResponse
  cases accepted : device.acceptResponse crypto datagram with
  | none => exact .refl
  | some outcome =>
    obtain ⟨id, peer, handshake⟩ := outcome
    obtain ⟨found, index⟩ := acceptResponse_spec accepted
    dsimp only
    generalize ready : device.work _ = work
    have same : work.view = (device.work peer).view := by
      rw [← ready]
      exact view_of_localIndex device peer _ rfl index
    split
    · exact steps_finish found (Work.steps_from (Work.steps_refl work) same)
    · rename_i session started
      have steps := steps_startSession started
      rw [Work.Reaches, same] at steps
      exact steps_finish found (steps.trans
        (Work.steps_from (Work.steps_sendKeepalive now (session.timersHandshakeComplete now)) rfl))

theorem steps_handleMessage (now : Instant) (src : SocketAddr) (datagram : Bytes) :
    World.Steps crypto device.world (device.handleMessage crypto now src datagram).2.world := by
  unfold handleMessage
  split_ifs
  · exact steps_handleInitiation now src datagram
  · exact steps_handleResponse now src datagram

theorem steps_processHandshake (now : Instant) (src : SocketAddr) (datagram : Bytes)
    (verdict : Verdict) :
    World.Steps crypto device.world
      (device.processHandshake crypto now src datagram verdict).2.world := by
  unfold processHandshake
  cases verdict with
  | drop | cookieReply _ => exact .refl
  | pass =>
    have taken := @steps_handleMessage crypto device now src datagram
    generalize device.handleMessage crypto now src datagram = outcome at taken ⊢
    obtain ⟨result, after⟩ := outcome
    cases result with
    | none => exact taken
    | some answer =>
      obtain ⟨id, result⟩ := answer
      dsimp only
      cases found : after.peer id with
      | none =>
        rw [world_note]
        exact taken
      | some peer =>
        have same := Work.view_traversal now
          (after.work peer).timersAnyAuthenticatedPacketReceived
        rw [world_note]
        exact taken.trans (steps_finish found (Work.steps_from (Work.steps_refl _) same))

theorem steps_handleHandshake :
    World.Steps crypto device.world (device.handleHandshake crypto now src datagram).2.world :=
  @steps_processHandshake crypto { device with gate := (device.gate.check crypto now src datagram).2 }
    now src datagram _

theorem steps_handleCookieReply :
    World.Steps crypto device.world (device.handleCookieReply crypto now datagram).world := by
  unfold handleCookieReply
  split
  · exact .refl
  · split
    · exact .refl
    · split
      · exact .refl
      · rename_i peer found
        split
        · exact .refl
        · rename_i cookie _
          exact steps_finish found (Work.steps_refl (device.work { peer with cookie }))

/-! ### Data -/

theorem find_spec {keypairs : Keypairs} {index : Nat} {slot : Slot}
    (found : keypairs.find index = some (slot, keypair)) :
    keypairs.slot slot = some keypair ∧ keypair.localIndex = index := by
  have inside : ∀ {place : Option Keypair} {other : Keypair},
      place.filter (fun keypair => keypair.localIndex = index) = some other →
        place = some other ∧ other.localIndex = index := by
    intro place other kept
    obtain ⟨same, fits⟩ := Option.filter_eq_some_iff.mp kept
    exact ⟨same, of_decide_eq_true fits⟩
  unfold Keypairs.find at found
  split at found
  · rename_i kept
    cases found
    exact inside kept
  · split at found
    · rename_i kept
      cases found
      exact inside kept
    · split at found
      · rename_i kept
        cases found
        exact inside kept
      · cases found

theorem findSession_spec {header : DataHeader} {id : PeerId} {slot : Slot}
    (found : device.findSession header = some (id, peer, slot, keypair)) :
    device.peer id = some peer ∧ peer.keypairs.slot slot = some keypair ∧
      keypair.localIndex = header.receiver := by
  unfold findSession at found
  split at found
  · cases found
  · split at found
    · cases found
    · rename_i inPlace
      split at found
      · cases found
      · rename_i isFound
        cases found
        exact ⟨inPlace, find_spec isFound⟩

theorem canReceive_same (keypair : Keypair) (now : Instant) :
    (keypair.canReceive now).2.SameSession keypair :=
  ⟨rfl, rfl, rfl, rfl, rfl⟩

theorem canReceive_of_valid {now : Instant} (valid : (keypair.canReceive now).1 = true) :
    (keypair.canReceive now).2 = keypair := by
  have unmarked : keypair.recvValid = true := (Bool.and_eq_true_iff.mp valid).1
  have same : (keypair.canReceive now).2 =
      { keypair with recvValid := (keypair.canReceive now).1 } := rfl
  rw [same, valid, ← unmarked]

/-- Datagrams wait to be sent. -/
theorem world_queued (pending : List Transmit) (id : PeerId) :
    (({ device with pending } : Device).note id).world = device.world := by
  rw [world_note]
  rfl

/-- A fresh packet that is delivered, or has no place to go. -/
theorem steps_deliver {id : PeerId} (found : device.peer id = some peer) {slot : Slot}
    {counter : Nat} (held : peer.keypairs.slot slot = some keypair)
    (fresh : (keypair.replay.checkAndUpdate counter).1 = true) (now : Instant) (src : SocketAddr)
    (length : Nat) {work : Work}
    (worked : work.view = (received crypto now src length slot
      { keypair with replay := (keypair.replay.checkAndUpdate counter).2 } counter
      (device.work peer)).view)
    {after : Device} (sameWorld : after.world = (device.finish id work).world) (buf : Bytes) :
    World.Steps crypto device.world
      (after.deliverContent id keypair.localIndex counter buf).2.world := by
  have taken : World.Steps crypto device.world after.world := by
    rw [sameWorld]
    refine steps_finish found ?_
    rw [worked]
    exact steps_received held fresh now src length
  have delivers : World.Steps crypto device.world
      ⟨after.world.holders, after.world.journal ++ [.delivered keypair.localIndex counter],
        after.world.allocated⟩ := by
    obtain ⟨front, back, split, sets⟩ := peer_split found
    have placed : (device.finish id work).peers = front ++ some work.peer :: back := sets _
    rw [sameWorld, world_of_split split, world_of_split placed]
    refine .single (@World.Step.deliver crypto _ _ (device.work peer).view _ work.view slot keypair
      counter held fresh (.receive held fresh) rfl ?_)
    rw [worked, ← view_receivedWith slot _ counter (device.work peer)]
    exact steps_afterReceived slot _ counter (device.work peer) now src length
  unfold deliverContent
  split
  · exact taken
  · split_ifs
    · exact taken
    · exact delivers

theorem steps_acceptData {id : PeerId} (found : device.peer id = some peer) {slot : Slot}
    {counter : Nat} (held : peer.keypairs.slot slot = some keypair)
    (fresh : (keypair.replay.checkAndUpdate counter).1 = true) (now : Instant) (src : SocketAddr)
    (length : Nat) (buf : Bytes) :
    World.Steps crypto device.world
      (device.acceptData crypto now src length id peer slot
        { keypair with replay := (keypair.replay.checkAndUpdate counter).2 } counter buf).2.world := by
  unfold acceptData
  split_ifs with empty
  · rw [world_queued]
    exact steps_finish found (steps_received held fresh now src length)
  · exact steps_deliver found held fresh now src length (Work.view_dataReceived now _)
      (world_queued _ id) buf

theorem steps_handleData :
    World.Steps crypto device.world (device.handleData crypto now src datagram).2.world := by
  unfold handleData
  split
  · exact .refl
  · rename_i header _
    split
    · exact .refl
    · rename_i id peer slot keypair isFound
      obtain ⟨found, held, index⟩ := findSession_spec isFound
      dsimp only
      by_cases valid : (keypair.canReceive now).1 = true
      · rw [if_neg (by simp [valid]), canReceive_of_valid valid]
        split
        · exact .refl
        · rename_i buf _
          by_cases fresh : (keypair.replay.checkAndUpdate header.counter).1 = true
          · rw [if_neg (by simp [fresh])]
            exact steps_acceptData found held fresh now src datagram.length buf
          · rw [if_pos (by simpa using fresh)]
            exact steps_finish found (.single (.refuse held (Bool.eq_false_iff.mpr fresh)))
      · rw [if_pos (by simpa using valid)]
        exact steps_finish found (.single (.mark held (canReceive_same keypair now)))

/-! ### Runs -/

theorem steps_handleIncoming :
    World.Steps crypto device.world (device.handleIncoming crypto now src datagram).2.world := by
  unfold handleIncoming
  dsimp only
  split
  · exact .refl
  · split_ifs
    · exact steps_handleHandshake now src _
    · exact steps_handleHandshake now src _
    · exact steps_handleCookieReply now _
    · exact steps_handleData now src _
    · exact .refl

/-- Every call is a sequence of steps. -/
theorem steps_call (call : Call) :
    World.Steps crypto device.world (device.call crypto call).world := by
  cases call with
  | addPeer config => exact steps_addPeer config
  | removePeer id => exact steps_removePeer id
  | setEndpoint id endpoint => exact steps_setEndpoint id endpoint
  | encapsulate now packet => exact steps_encapsulate now packet
  | sendToPeer now id packet => exact steps_sendToPeer now id packet
  | initiate now id => exact steps_initiate now id
  | tick now => exact steps_callTick now
  | handleIncoming now src datagram => exact steps_handleIncoming now src datagram
  | pollTransmit => exact steps_pollTransmit

theorem steps_run (calls : List Call) :
    World.Steps crypto device.world (device.run crypto calls).world := by
  induction calls generalizing device with
  | nil => exact .refl
  | cons first rest ih => exact (steps_call first).trans ih

end Device

end Sail.Protocol.Wireguard
