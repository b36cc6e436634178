/-
Sessions of a device over its whole life.

Every step keeps the sessions safe, so every run does. What a call of the device
returns is tied to the journal.
-/

import Sail.Protocol.Wireguard.DeviceSteps
import Sail.Protocol.Wireguard.SessionSafety

namespace Sail.Protocol.Wireguard

open Netstack

def World.Safe (crypto : Crypto) (world : World) : Prop :=
  Wireguard.Safe crypto world.holders world.journal world.allocated

/-- What is delivered was received just before. -/
theorem World.Safe.deliver {crypto : Crypto} (distinct : Function.Injective crypto.index)
    {front back : List Holder} {before received after : View} {slot : Slot} {keypair : Keypair}
    {counter : Nat} (found : before.holder.keypairs.slot slot = some keypair)
    (fresh : (keypair.replay.checkAndUpdate counter).1 = true)
    (receives : View.Step crypto before received)
    (journal : received.journal = before.journal ++ [.received keypair.localIndex counter])
    (onward : View.Steps crypto received after)
    (safe : Wireguard.Safe crypto (front ++ before.holder :: back) before.journal before.allocated) :
    Wireguard.Safe crypto (front ++ after.holder :: back)
      (after.journal ++ [.delivered keypair.localIndex counter]) after.allocated := by
  have steps : View.Steps crypto before after := .head receives onward
  refine (safe.steps distinct steps).deliver (onward.journal_prefix.subset ?_) ?_
  · rw [journal]
    exact List.mem_append_right _ (List.mem_singleton_self _)
  · intro delivered
    have recorded := (safe.sound before.holder (by simp)).recorded slot keypair found
    exact recorded.not_received fresh
      (safe.ordered.received_of_delivered (steps.delivered_mem delivered))

theorem World.Safe.step {crypto : Crypto} (distinct : Function.Injective crypto.index)
    {before after : World} (step : World.Step crypto before after) (safe : before.Safe crypto) :
    after.Safe crypto := by
  cases step with
  | work step => exact Wireguard.Safe.step distinct step safe
  | remove => exact Wireguard.Safe.remove safe
  | insert => exact Wireguard.Safe.insert safe
  | deliver found fresh receives journal onward =>
    exact World.Safe.deliver distinct found fresh receives journal onward safe

theorem World.Safe.steps {crypto : Crypto} (distinct : Function.Injective crypto.index)
    {before after : World} (steps : World.Steps crypto before after) (safe : before.Safe crypto) :
    after.Safe crypto := by
  induction steps with
  | refl => exact safe
  | tail _ step ih => exact ih.step distinct step

namespace Device

variable {crypto : Crypto} {device : Device}

theorem safe_new (config : DeviceConfig) (now : Instant) (wallTime : Nat) :
    (new crypto config now wallTime).world.Safe crypto where
  ordered := .nil
  sound _ member := absurd member List.not_mem_nil
  apart := .nil
  drawn _ member := absurd member List.not_mem_nil
  known _ member := absurd member List.not_mem_nil

/-! ### What a delivery rests on -/

/-- A packet is delivered: the session it came under, of the peer it is handed
over for, and the address it came from. -/
structure Delivers (crypto : Crypto) (device : Device) (datagram : Bytes) (id : PeerId)
    (packet : Bytes) (header : DataHeader) : Prop where
  parsed : DataHeader.parse datagram = some header
  authenticated : ∃ peer slot keypair buf,
    device.findSession header = some (id, peer, slot, keypair) ∧
    keypair.open crypto header.counter (datagram.drop dataHeaderLen) = some buf ∧
    ∃ source len, ipSourceAndLen buf = some (source, len) ∧ packet = buf.take len ∧
      device.routes.lookup source = some id

variable {id other : PeerId} {packet datagram : Bytes} {now : Instant} {src : SocketAddr}

theorem deliverContent_spec {session counter : Nat} {buf : Bytes}
    (delivered : (device.deliverContent id session counter buf).1 = .deliver other packet) :
    other = id ∧
      (∃ source len, ipSourceAndLen buf = some (source, len) ∧ packet = buf.take len ∧
        device.routes.lookup source = some id) ∧
      (device.deliverContent id session counter buf).2.s.journal =
        device.s.journal ++ [.delivered session counter] := by
  unfold deliverContent at delivered ⊢
  cases found : ipSourceAndLen buf with
  | none =>
    rw [found] at delivered
    cases delivered
  | some content =>
    obtain ⟨source, len⟩ := content
    rw [found] at delivered
    dsimp only at delivered ⊢
    split_ifs at delivered ⊢ with elsewhere
    cases delivered
    exact ⟨rfl, ⟨source, len, rfl, rfl, not_ne_iff.mp elsewhere⟩, rfl⟩

theorem handleMessage_delivers
    (delivered : (device.handleMessage crypto now src datagram).1 =
      some (id, .deliver other packet)) : False := by
  unfold handleMessage handleInitiation handleResponse at delivered
  split_ifs at delivered
  all_goals
    split at delivered
    · cases delivered
    · dsimp only at delivered
      split at delivered <;> cases delivered

theorem handleHandshake_delivers
    (delivered : (device.handleHandshake crypto now src datagram).1 = .deliver id packet) :
    False := by
  unfold handleHandshake processHandshake at delivered
  dsimp only at delivered
  split at delivered
  · cases delivered
  · cases delivered
  · split at delivered
    · cases delivered
    · rename_i answered
      split at delivered
      · cases delivered
        exact handleMessage_delivers answered
      · cases delivered
        exact handleMessage_delivers answered

theorem acceptData_delivers {length : Nat} {peer : Peer} {slot : Slot} {keypair : Keypair}
    {counter : Nat} {buf : Bytes}
    (delivered : (device.acceptData crypto now src length id peer slot keypair counter buf).1 =
      .deliver other packet) :
    other = id ∧
      (∃ source len, ipSourceAndLen buf = some (source, len) ∧ packet = buf.take len ∧
        device.routes.lookup source = some id) ∧
      ∃ earlier, (device.acceptData crypto now src length id peer slot keypair counter buf
          ).2.s.journal = earlier ++ [.delivered keypair.localIndex counter] := by
  unfold acceptData at delivered ⊢
  split_ifs at delivered ⊢
  generalize received crypto now src length slot keypair counter (device.work peer) = work
    at delivered ⊢
  obtain ⟨same, ⟨source, len, read, content, routed⟩, journal⟩ := deliverContent_spec delivered
  obtain ⟨_, _, routes⟩ := note_eq id
    { device.finish id (work.timersDataReceived now) with pending := device.pending ++ work.out }
  rw [routes] at routed
  exact ⟨same, ⟨source, len, read, content, routed⟩, _, journal⟩

theorem handleData_delivers
    (delivered : (device.handleData crypto now src datagram).1 = .deliver id packet) :
    ∃ header earlier, device.Delivers crypto datagram id packet header ∧
      (device.handleData crypto now src datagram).2.s.journal =
        earlier ++ [.delivered header.receiver header.counter] := by
  unfold handleData at delivered ⊢
  cases parsed : DataHeader.parse datagram with
  | none =>
    rw [parsed] at delivered
    cases delivered
  | some header =>
    rw [parsed] at delivered
    dsimp only at delivered ⊢
    cases isFound : device.findSession header with
    | none =>
      rw [isFound] at delivered
      cases delivered
    | some session =>
      obtain ⟨other, peer, slot, keypair⟩ := session
      rw [isFound] at delivered
      dsimp only at delivered ⊢
      by_cases valid : (keypair.canReceive now).1 = true
      · rw [if_neg (by simp [valid]), canReceive_of_valid valid] at delivered ⊢
        cases opened : keypair.open crypto header.counter (datagram.drop dataHeaderLen) with
        | none =>
          rw [opened] at delivered
          cases delivered
        | some buf =>
          rw [opened] at delivered
          split_ifs at delivered ⊢
          obtain ⟨rfl, content, earlier, journal⟩ := acceptData_delivers delivered
          have index := (findSession_spec isFound).2.2
          exact ⟨header, earlier, ⟨parsed, peer, slot, keypair, buf, isFound, opened,
            content⟩, journal.trans (by rw [← index])⟩
      · rw [if_pos (by simpa using valid)] at delivered
        cases delivered

theorem handleIncoming_delivers
    (delivered : (device.handleIncoming crypto now src datagram).1 = .deliver id packet) :
    ∃ header earlier, device.Delivers crypto (withoutReserved datagram) id packet header ∧
      (device.handleIncoming crypto now src datagram).2.s.journal =
        earlier ++ [.delivered header.receiver header.counter] := by
  unfold handleIncoming at delivered ⊢
  dsimp only at delivered ⊢
  cases first : (withoutReserved datagram).head? with
  | none =>
    rw [first] at delivered
    cases delivered
  | some type =>
    rw [first] at delivered
    dsimp only at delivered ⊢
    split_ifs at delivered ⊢
    · exact (handleHandshake_delivers delivered).elim
    · exact (handleHandshake_delivers delivered).elim
    · exact handleData_delivers delivered

end Device

/-- A delivery is told once. -/
theorem Ordered.delivered_once {journal : List Event} (ordered : Ordered journal)
    (session counter : Nat) : journal.count (.delivered session counter) ≤ 1 := by
  induction journal using List.reverseRecOn with
  | nil => exact Nat.zero_le 1
  | append_singleton journal event ih =>
    have fits := ordered journal event [] rfl
    rw [List.count_append, List.count_singleton]
    split_ifs with same
    · rw [beq_iff_eq] at same
      subst same
      rw [List.count_eq_zero_of_not_mem fits.2]
    · exact ih ordered.init

def plainCrypto : Crypto :=
  { hash := fun _ => []
    mac := fun _ _ => List.replicate macLen 0
    kdf1 := fun _ _ => []
    kdf2 := fun _ _ => ([], [])
    kdf3 := fun _ _ => ([], [], [])
    publicKey := id
    dh := fun _ _ => some []
    aeadSeal := fun _ _ plaintext _ => plaintext
    aeadOpen := fun _ _ ciphertext _ => some ciphertext
    xaeadSeal := fun _ _ plaintext _ => plaintext
    xaeadOpen := fun _ _ ciphertext _ => some ciphertext
    index := fun number => number + 1
    privateKey := fun _ => []
    jitter := fun _ => 0
    cookieSecret := fun _ => []
    cookieNonce := fun _ => [] }

def plainAddress : SocketAddr := { ip := .v4 167772161, port := 51820 }

def plainConfig : DeviceConfig :=
  { privateKey := [1], mtu := 1420, underLoadThreshold := 100 }

def plainPeer : PeerConfig :=
  { publicKey := [2]
    presharedKey := none
    endpoint := some plainAddress
    allowedIps := [(.v4 0, 0)]
    persistentKeepalive := none
    reserved := noReserved }

def plainResponse : Bytes :=
  Response.toBytes
    { sender := 7
      receiver := 1
      ephemeral := List.replicate keyLen 0
      encryptedNothing := List.replicate tagLen 0
      mac1 := List.replicate macLen 0
      mac2 := List.replicate macLen 0 }

def plainData : Bytes :=
  DataHeader.toBytes { receiver := 1, counter := 0 } noReserved ++
    [69, 0, 0, 20] ++ List.replicate 16 0

def plainCalls : List Device.Call :=
  [.addPeer plainPeer, .initiate 0 0, .handleIncoming 1 plainAddress plainResponse,
    .handleIncoming 2 plainAddress plainData]

end Sail.Protocol.Wireguard
