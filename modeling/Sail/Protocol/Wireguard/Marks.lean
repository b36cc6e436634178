/-
The mark of an expired session does not matter.

A session that can receive nothing any more may be marked so, or not yet. Two
devices that differ in such marks only give the same answers ever after.
-/

import Mathlib.Data.Option.Basic
import Sail.Protocol.Wireguard.DeviceSteps

namespace Sail.Protocol.Wireguard

open Netstack

variable {f : Work → Work} {g : Work → Work}

/-- The same session, marked or not, if it has expired by a time. -/
def Keypair.Alike (since : Instant) (first second : Keypair) : Prop :=
  ∃ valid, second = { first with recvValid := valid } ∧
    (valid = first.recvValid ∨ first.Expired since)

structure Keypairs.Alike (since : Instant) (first second : Keypairs) : Prop where
  previous : Option.Rel (Keypair.Alike since) first.previous second.previous
  current : Option.Rel (Keypair.Alike since) first.current second.current
  next : Option.Rel (Keypair.Alike since) first.next second.next

def Peer.withKeypairs (peer : Peer) (keypairs : Keypairs) : Peer :=
  { peer with keypairs }

def Work.withKeypairs (work : Work) (keypairs : Keypairs) : Work :=
  { work with peer := work.peer.withKeypairs keypairs }

def Peer.Alike (since : Instant) (first second : Peer) : Prop :=
  ∃ keypairs, second = first.withKeypairs keypairs ∧ first.keypairs.Alike since keypairs

def Work.Alike (since : Instant) (first second : Work) : Prop :=
  ∃ keypairs, second = first.withKeypairs keypairs ∧ first.peer.keypairs.Alike since keypairs

namespace Keypair

variable {since : Instant} {first second : Keypair}

theorem Alike.refl (keypair : Keypair) : keypair.Alike since keypair :=
  ⟨keypair.recvValid, rfl, .inl rfl⟩

theorem Alike.localIndex (alike : first.Alike since second) :
    second.localIndex = first.localIndex := by
  obtain ⟨valid, rfl, _⟩ := alike
  rfl

theorem Alike.nextCounter (alike : first.Alike since second) :
    second.nextCounter.1 = first.nextCounter.1 ∧
      first.nextCounter.2.Alike since second.nextCounter.2 := by
  obtain ⟨valid, rfl, marked⟩ := alike
  unfold Keypair.nextCounter
  split_ifs <;> exact ⟨rfl, valid, rfl, marked⟩

theorem Alike.canSend (alike : first.Alike since second) (now : Instant) :
    (second.canSend now).1 = (first.canSend now).1 ∧
      (first.canSend now).2.Alike since (second.canSend now).2 := by
  obtain ⟨valid, rfl, marked⟩ := alike
  exact ⟨rfl, valid, rfl, marked⟩

/-- An expired session stays so. -/
theorem Expired.later {keypair : Keypair} {now : Instant} (expired : keypair.Expired since)
    (later : since ≤ now) : keypair.Expired now := by
  rcases expired with old | spent
  · exact .inl (Nat.le_trans old (Nat.sub_le_sub_right later _))
  · exact .inr spent

/-- Whether alike sessions may receive is the same, and then they are the same. -/
theorem Alike.canReceive (alike : first.Alike since second) {now : Instant} (later : since ≤ now) :
    (second.canReceive now).1 = (first.canReceive now).1 ∧
      (first.canReceive now).2.Alike since (second.canReceive now).2 ∧
      ((first.canReceive now).1 = true → second = first) := by
  obtain ⟨valid, rfl, rfl | expired⟩ := alike
  · exact ⟨rfl, .refl _, fun _ => rfl⟩
  · have gone : decide (first.Expired now) = true := decide_eq_true (expired.later later)
    have unable : (first.canReceive now).1 = false := by
      unfold Keypair.canReceive
      simp [gone]
    have unableOther : ({ first with recvValid := valid }.canReceive now).1 = false := by
      unfold Keypair.canReceive
      simp [show decide (Expired { first with recvValid := valid } now) = true from gone]
    refine ⟨by rw [unable, unableOther], ⟨_, rfl, .inr expired⟩, ?_⟩
    intro able
    rw [unable] at able
    cases able

end Keypair

namespace Keypairs

variable {since : Instant} {first second : Keypairs}

theorem Alike.refl (keypairs : Keypairs) : keypairs.Alike since keypairs := by
  have same : ∀ place : Option Keypair, Option.Rel (Keypair.Alike since) place place := by
    intro place
    cases place with
    | none => exact .none
    | some keypair => exact .some (.refl keypair)
  exact ⟨same _, same _, same _⟩

theorem Alike.setSlot (alike : first.Alike since second) {one other : Keypair}
    (same : one.Alike since other) (slot : Slot) :
    (first.setSlot one slot).Alike since (second.setSlot other slot) := by
  cases slot with
  | previous => exact ⟨.some same, alike.current, alike.next⟩
  | current => exact ⟨alike.previous, .some same, alike.next⟩
  | next => exact ⟨alike.previous, alike.current, .some same⟩

/-- The indices of a place are the same. -/
theorem localIndex_of_rel {one other : Option Keypair}
    (related : Option.Rel (Keypair.Alike since) one other) :
    other.map Keypair.localIndex = one.map Keypair.localIndex := by
  cases related with
  | none => rfl
  | some alike => exact congrArg some alike.localIndex

section

variable (alike : first.Alike since second)

include alike

/-- What is found under an index is alike. -/
theorem Alike.find (index : Nat) :
    (first.find index = none ∧ second.find index = none) ∨
      ∃ slot one other, first.find index = some (slot, one) ∧
        second.find index = some (slot, other) ∧ one.Alike since other := by
  have kept : ∀ {one other : Option Keypair}, Option.Rel (Keypair.Alike since) one other →
      Option.Rel (Keypair.Alike since) (one.filter (fun keypair => keypair.localIndex = index))
        (other.filter (fun keypair => keypair.localIndex = index)) := by
    intro one other related
    cases related with
    | none => exact .none
    | some same =>
      rw [Option.filter_some, Option.filter_some, same.localIndex]
      split_ifs
      · exact .some same
      · exact .none
  have current := kept alike.current
  have previous := kept alike.previous
  have next := kept alike.next
  unfold Keypairs.find
  generalize first.current.filter _ = one, second.current.filter _ = other at current ⊢
  cases current with
  | some same => exact .inr ⟨_, _, _, rfl, rfl, same⟩
  | none =>
    generalize first.previous.filter _ = one, second.previous.filter _ = other at previous ⊢
    cases previous with
    | some same => exact .inr ⟨_, _, _, rfl, rfl, same⟩
    | none =>
      generalize first.next.filter _ = one, second.next.filter _ = other at next ⊢
      cases next with
      | some same => exact .inr ⟨_, _, _, rfl, rfl, same⟩
      | none => exact .inl ⟨rfl, rfl⟩

theorem Alike.receivedWith (slot : Slot) :
    (second.receivedWith slot).1 = (first.receivedWith slot).1 ∧
      (second.receivedWith slot).2.1 = (first.receivedWith slot).2.1 ∧
      (first.receivedWith slot).2.2.Alike since (second.receivedWith slot).2.2 := by
  unfold Keypairs.receivedWith
  split_ifs
  · exact ⟨rfl, rfl, alike⟩
  · exact ⟨rfl, localIndex_of_rel alike.previous, alike.current, alike.next, .none⟩

theorem Alike.add (new : Keypair) :
    (second.add new).1 = (first.add new).1 ∧ (first.add new).2.Alike since (second.add new).2 := by
  have previous := localIndex_of_rel alike.previous
  have current := localIndex_of_rel alike.current
  have next := localIndex_of_rel alike.next
  unfold Keypairs.add
  dsimp only
  split_ifs
  · have rotates := alike.next
    cases inFirst : first.next <;> cases inSecond : second.next <;>
      rw [inFirst, inSecond] at rotates
    · exact ⟨by rw [previous], alike.current, .some (.refl new), .none⟩
    · cases rotates
    · cases rotates
    · exact ⟨by rw [previous, current], rotates, .some (.refl new), .none⟩
  · exact ⟨by rw [previous, next], .none, alike.current, .some (.refl new)⟩

theorem Alike.indices : second.indices = first.indices := by
  have places : ∀ keypairs : Keypairs, keypairs.indices =
      (keypairs.previous.map Keypair.localIndex).toList ++
        ((keypairs.current.map Keypair.localIndex).toList ++
          (keypairs.next.map Keypair.localIndex).toList) := by
    intro keypairs
    unfold Keypairs.indices
    cases keypairs.previous <;> cases keypairs.current <;> cases keypairs.next <;> rfl
  rw [places, places, localIndex_of_rel alike.previous, localIndex_of_rel alike.current,
    localIndex_of_rel alike.next]

end

end Keypairs

namespace Work

variable {crypto : Crypto} {since : Instant} {first second : Work}

/-- A function that does not look at the sessions. -/
def Blind (f : Work → Work) : Prop :=
  ∀ work keypairs, f (work.withKeypairs keypairs) = (f work).withKeypairs keypairs ∧
    (f work).peer.keypairs = work.peer.keypairs

theorem Blind.alike (blind : Blind f) (alike : first.Alike since second) :
    (f first).Alike since (f second) := by
  obtain ⟨keypairs, rfl, same⟩ := alike
  obtain ⟨commutes, kept⟩ := blind first keypairs
  exact ⟨keypairs, commutes, kept ▸ same⟩

theorem Blind.comp (outer : Blind g) (inner : Blind f) : Blind (fun work => g (f work)) := by
  intro work keypairs
  obtain ⟨commutes, kept⟩ := inner work keypairs
  obtain ⟨outerCommutes, outerKept⟩ := outer (f work) keypairs
  exact ⟨(congrArg g commutes).trans outerCommutes, outerKept.trans kept⟩

theorem blind_id : Blind id :=
  fun _ _ => ⟨rfl, rfl⟩

theorem Blind.ite {test : Work → Bool}
    (same : ∀ work keypairs, test (work.withKeypairs keypairs) = test work) (isTrue : Blind f)
    (isFalse : Blind g) : Blind (fun work => if test work then f work else g work) := by
  intro work keypairs
  dsimp only
  rw [same]
  split_ifs
  · exact isTrue work keypairs
  · exact isFalse work keypairs

theorem blind_traversal (now : Instant) : Blind (timersAnyAuthenticatedPacketTraversal now) := by
  intro work keypairs
  have same : (work.withKeypairs keypairs).peer.persistentKeepalive =
      work.peer.persistentKeepalive := rfl
  unfold timersAnyAuthenticatedPacketTraversal
  rw [same]
  split <;> exact ⟨rfl, rfl⟩

theorem blind_dataSent (now : Instant) : Blind (timersDataSent crypto now) :=
  .ite (fun _ _ => rfl) blind_id (fun _ _ => ⟨rfl, rfl⟩)

theorem blind_dataReceived (now : Instant) : Blind (timersDataReceived now) :=
  .ite (fun _ _ => rfl) (fun _ _ => ⟨rfl, rfl⟩) (fun _ _ => ⟨rfl, rfl⟩)

theorem blind_releaseHandshakeIndex : Blind releaseHandshakeIndex := by
  intro work keypairs
  have same : (work.withKeypairs keypairs).peer.handshake.localIndex =
      work.peer.handshake.localIndex := rfl
  unfold releaseHandshakeIndex
  rw [same]
  split <;> exact ⟨rfl, rfl⟩

theorem blind_startHandshake (now : Instant) (dst : SocketAddr) :
    Blind (startHandshake crypto now dst) := by
  intro work keypairs
  obtain ⟨commutes, kept⟩ := blind_releaseHandshakeIndex work keypairs
  unfold startHandshake
  rw [commutes, ← kept]
  generalize work.releaseHandshakeIndex = work
  simp only [withKeypairs, Peer.withKeypairs, peerKeys, Shared.allocIndex]
  split
  · exact ⟨rfl, rfl⟩
  · dsimp only [sealMessage, setPeer, timersAnyAuthenticatedPacketTraversal]
    split <;> exact ⟨rfl, rfl⟩

theorem blind_sendInitiation (now : Instant) (isRetry : Bool) :
    Blind (sendInitiation crypto now isRetry) := by
  have reset : Blind (fun work => if isRetry then work
      else work.setTimers { work.peer.timers with handshakeAttempts := 0 }) :=
    .ite (fun _ _ => rfl) blind_id (fun _ _ => ⟨rfl, rfl⟩)
  have retry : Blind (sendInitiation crypto now true) := by
    refine .ite (fun _ _ => rfl) blind_id ?_
    intro work keypairs
    have same : (work.withKeypairs keypairs).peer.endpoint = work.peer.endpoint := rfl
    simp only [if_true]
    rw [same]
    split
    · exact ⟨rfl, rfl⟩
    · exact blind_startHandshake now _ work keypairs
  exact retry.comp reset

/-! ### Packets -/

section

variable (alike : first.Alike since second)

include alike

theorem Alike.current :
    Option.Rel (Keypair.Alike since) first.peer.keypairs.current second.peer.keypairs.current := by
  obtain ⟨keypairs, rfl, same⟩ := alike
  exact same.current

theorem Alike.current_cases :
    (first.peer.keypairs.current = none ∧ second.peer.keypairs.current = none) ∨
      ∃ one other, first.peer.keypairs.current = some one ∧
        second.peer.keypairs.current = some other ∧ one.Alike since other := by
  have related := alike.current
  generalize first.peer.keypairs.current = one, second.peer.keypairs.current = other at related ⊢
  cases related with
  | none => exact .inl ⟨rfl, rfl⟩
  | some same => exact .inr ⟨_, _, rfl, rfl, same⟩

/-- What a test of the current session finds, if it does not look at the mark. -/
theorem Alike.current_any {test : Keypair → Bool}
    (blind : ∀ keypair valid, test { keypair with recvValid := valid } = test keypair) :
    second.peer.keypairs.current.any test = first.peer.keypairs.current.any test := by
  rcases alike.current_cases with ⟨inFirst, inSecond⟩ | ⟨one, other, inFirst, inSecond, same⟩
  · rw [inFirst, inSecond]
  · obtain ⟨valid, rfl, _⟩ := same
    rw [inFirst, inSecond]
    exact blind one valid

theorem Alike.keepKeyFreshSend (now : Instant) :
    (first.keepKeyFreshSend crypto now).Alike since (second.keepKeyFreshSend crypto now) := by
  unfold Work.keepKeyFreshSend
  rw [alike.current_any (fun _ _ => rfl)]
  split_ifs
  · exact (blind_sendInitiation now false).alike alike
  · exact alike

theorem Alike.keepKeyFreshReceive (now : Instant) :
    (first.keepKeyFreshReceive crypto now).Alike since (second.keepKeyFreshReceive crypto now) := by
  have lastMinute : second.peer.timers.sentLastminuteHandshake =
      first.peer.timers.sentLastminuteHandshake := by
    obtain ⟨keypairs, rfl, _⟩ := alike
    rfl
  unfold Work.keepKeyFreshReceive
  rw [alike.current_any (fun _ _ => rfl), lastMinute]
  split_ifs
  · exact alike
  · have marked : (first.setTimers { first.peer.timers with
        sentLastminuteHandshake := true }).Alike since (second.setTimers { second.peer.timers with
        sentLastminuteHandshake := true }) := by
      obtain ⟨keypairs, rfl, same⟩ := alike
      exact ⟨keypairs, rfl, same⟩
    exact (blind_sendInitiation now false).alike marked
  · exact alike

/-- The sessions of both are replaced by alike ones. -/
theorem Alike.withKeypairs {one other : Keypairs} (same : one.Alike since other) :
    (first.withKeypairs one).Alike since (second.withKeypairs other) := by
  obtain ⟨keypairs, rfl, _⟩ := alike
  exact ⟨other, rfl, same⟩

theorem Alike.keypairs : first.peer.keypairs.Alike since second.peer.keypairs := by
  obtain ⟨keypairs, rfl, same⟩ := alike
  exact same

theorem Alike.withCurrent {one other : Keypair} (same : one.Alike since other) :
    (first.withKeypairs { first.peer.keypairs with current := some one }).Alike since
      (second.withKeypairs { second.peer.keypairs with current := some other }) :=
  alike.withKeypairs (alike.keypairs.setSlot same .current)

theorem Alike.sendPacket {one other : Keypair} (same : one.Alike since other) (now : Instant)
    (dst : SocketAddr) (counter : Nat) (packet : Bytes) :
    (first.sendPacket crypto now dst one counter packet).Alike since
      (second.sendPacket crypto now dst other counter packet) := by
  obtain ⟨keypairs, rfl, related⟩ := alike
  obtain ⟨valid, rfl, marked⟩ := same
  exact ⟨_, rfl, related.previous, .some ⟨valid, rfl, marked⟩, related.next⟩

end

structure Sending.Alike (since : Instant) (first second : Sending) : Prop where
  work : first.work.Alike since second.work
  sentAny : second.sentAny = first.sentAny
  sentData : second.sentData = first.sentData

theorem Alike.sendPackets (now : Instant) (dst : SocketAddr) (packets : List Bytes)
    {first second : Sending} (alike : first.Alike since second) :
    (sendPackets crypto now dst packets first).Alike since
      (sendPackets crypto now dst packets second) := by
  induction packets generalizing first second with
  | nil =>
    obtain ⟨⟨keypairs, worked, same⟩, sentAny, sentData⟩ := alike
    refine ⟨⟨keypairs, ?_, same⟩, sentAny, sentData⟩
    unfold Work.sendPackets
    rw [worked]
    rfl
  | cons packet rest ih =>
    unfold Work.sendPackets
    rcases alike.work.current_cases with ⟨inFirst, inSecond⟩ |
      ⟨keypair, other, inFirst, inSecond, same⟩
    · rw [inFirst, inSecond]
      exact alike
    · obtain ⟨sameCounter, after⟩ := same.nextCounter
      rw [inFirst, inSecond]
      dsimp only
      generalize keypair.nextCounter = taken, other.nextCounter = takenOther at sameCounter after ⊢
      obtain ⟨counter, left⟩ := taken
      obtain ⟨counterOther, right⟩ := takenOther
      cases sameCounter
      cases counter with
      | none =>
        obtain ⟨⟨keypairs, worked, related⟩, sentAny, sentData⟩ := alike
        have staged : (first.work.setPeer { first.work.peer with
            keypairs := { first.work.peer.keypairs with current := some left }
            staged := packet :: rest }).Alike since (second.work.setPeer { second.work.peer with
            keypairs := { second.work.peer.keypairs with current := some right }
            staged := packet :: rest }) := by
          rw [worked]
          exact ⟨_, rfl, related.setSlot after .current⟩
        exact ⟨(blind_sendInitiation now false).alike staged, sentAny, sentData⟩
      | some number =>
        exact ih ⟨alike.work.sendPacket after now dst number packet, rfl,
          by rw [alike.sentData]⟩

theorem Sending.Alike.afterSending {first second : Sending} (alike : first.Alike since second)
    (now : Instant) : (afterSending crypto now first).Alike since (afterSending crypto now second) := by
  have sent : Blind (fun work =>
      (work.timersAnyAuthenticatedPacketTraversal now).timersAnyAuthenticatedPacketSent) :=
    Blind.comp (fun _ _ => ⟨rfl, rfl⟩) (blind_traversal now)
  unfold Work.afterSending
  rw [alike.sentAny, alike.sentData]
  split_ifs
  · exact (blind_dataSent now).alike (sent.alike alike.work)
  · exact sent.alike alike.work
  · exact alike.work

section

variable (alike : first.Alike since second)

include alike

theorem Alike.currentCanSend (now : Instant) :
    (second.currentCanSend now).1 = (first.currentCanSend now).1 ∧
      (first.currentCanSend now).2.Alike since (second.currentCanSend now).2 := by
  unfold Work.currentCanSend
  rcases alike.current_cases with ⟨inFirst, inSecond⟩ | ⟨keypair, other, inFirst, inSecond, same⟩
  · rw [inFirst, inSecond]
    exact ⟨rfl, alike⟩
  · rw [inFirst, inSecond]
    obtain ⟨usable, after⟩ := same.canSend now
    exact ⟨usable, alike.withCurrent after⟩

theorem Alike.out : second.out = first.out := by
  obtain ⟨keypairs, rfl, _⟩ := alike
  rfl

theorem Alike.staged : second.peer.staged = first.peer.staged := by
  obtain ⟨keypairs, rfl, _⟩ := alike
  rfl

theorem Alike.sendStaged (now : Instant) :
    (first.sendStaged crypto now).Alike since (second.sendStaged crypto now) := by
  unfold Work.sendStaged
  obtain ⟨usable, after⟩ := alike.currentCanSend now
  rw [alike.staged]
  dsimp only
  rw [usable]
  generalize first.currentCanSend now = taken, second.currentCanSend now = takenOther at after ⊢
  split_ifs
  · exact alike
  · exact (blind_sendInitiation now false).alike after
  · obtain ⟨keypairs, worked, related⟩ := after
    have endpoint : takenOther.2.peer.endpoint = taken.2.peer.endpoint := by
      rw [worked]
      rfl
    have staged : takenOther.2.peer.staged = taken.2.peer.staged := by
      rw [worked]
      rfl
    rw [endpoint]
    split
    · exact ⟨keypairs, worked, related⟩
    · rename_i dst _
      rw [staged]
      have sent := @Alike.sendPackets crypto since now dst taken.2.peer.staged _ _
        (show Sending.Alike since ⟨taken.2, false, false⟩ ⟨takenOther.2, false, false⟩ from
          ⟨⟨keypairs, worked, related⟩, rfl, rfl⟩)
      exact (sent.afterSending now).keepKeyFreshSend now

end

theorem Alike.sendKeepalive (alike : first.Alike since second) (now : Instant) :
    (first.sendKeepalive crypto now).Alike since (second.sendKeepalive crypto now) := by
  have filled : Blind (fun work =>
      if work.peer.staged.isEmpty then work.setPeer { work.peer with staged := [[]] } else work) :=
    .ite (fun _ _ => rfl) (fun _ _ => ⟨rfl, rfl⟩) blind_id
  exact (filled.alike alike).sendStaged now

/-! ### Sessions that come and go -/

theorem Alike.install (alike : first.Alike since second) (keypair : Keypair) :
    (first.install keypair).Alike since (second.install keypair) := by
  obtain ⟨keypairs, rfl, related⟩ := alike
  obtain ⟨dropped, after⟩ := related.add keypair
  refine ⟨(keypairs.add keypair).2, ?_, after⟩
  unfold Work.install Work.withKeypairs Peer.withKeypairs
  dsimp only
  rw [dropped]

theorem Alike.clearKeypairs (alike : first.Alike since second) :
    first.clearKeypairs.Alike since second.clearKeypairs := by
  obtain ⟨keypairs, rfl, related⟩ := alike
  refine ⟨.new, ?_, .refl _⟩
  unfold Work.clearKeypairs Keypairs.clear Work.withKeypairs Peer.withKeypairs
  rw [related.indices]

theorem Alike.zeroKeyMaterial (alike : first.Alike since second) :
    first.zeroKeyMaterial.Alike since second.zeroKeyMaterial := by
  have zeroes : Blind (fun work =>
      work.setPeer { work.peer with handshake := work.peer.handshake.zero }) :=
    fun _ _ => ⟨rfl, rfl⟩
  exact zeroes.alike (blind_releaseHandshakeIndex.alike alike.clearKeypairs)

/-! ### Timers -/

/-- A function that takes alike peers to alike peers. -/
def Respects (since : Instant) (f : Work → Work) : Prop :=
  ∀ first second, first.Alike since second → (f first).Alike since (f second)

theorem Blind.respects (blind : Blind f) : Respects since f :=
  fun _ _ alike => blind.alike alike

theorem Respects.comp (outer : Respects since g) (inner : Respects since f) :
    Respects since (fun work => g (f work)) :=
  fun first second alike => outer _ _ (inner first second alike)

theorem Respects.ite {test : Work → Prop} [DecidablePred test]
    (same : ∀ work keypairs, test (work.withKeypairs keypairs) ↔ test work)
    (isTrue : Respects since f) (isFalse : Respects since g) :
    Respects since (fun work => if test work then f work else g work) := by
  intro first second alike
  have unread : test second ↔ test first := by
    obtain ⟨keypairs, rfl, _⟩ := alike
    exact same first keypairs
  dsimp only
  by_cases holds : test first
  · rw [if_pos holds, if_pos (unread.mpr holds)]
    exact isTrue first second alike
  · rw [if_neg holds, if_neg (fun other => holds (unread.mp other))]
    exact isFalse first second alike

theorem respects_id : Respects since id :=
  fun _ _ alike => alike

theorem respects_setTimers (change : PeerTimers → PeerTimers) :
    Respects since (fun work => work.setTimers (change work.peer.timers)) :=
  Blind.respects (fun _ _ => ⟨rfl, rfl⟩)

section

variable (now : Instant)

include now

theorem respects_sendInitiation (isRetry : Bool) :
    Respects since (sendInitiation crypto now isRetry) :=
  (blind_sendInitiation now isRetry).respects

theorem respects_sendKeepalive : Respects since (sendKeepalive crypto now) :=
  fun _ _ alike => alike.sendKeepalive now

theorem respects_tickRetransmit : Respects since (tickRetransmit crypto now) := by
  have retries : Respects since (fun work =>
      (work.setTimers { work.peer.timers with
        handshakeAttempts := work.peer.timers.handshakeAttempts + 1 }).sendInitiation crypto now
          true) :=
    (respects_sendInitiation now true).comp (respects_setTimers (fun timers =>
      { timers with handshakeAttempts := timers.handshakeAttempts + 1 }))
  have counted : Respects since (fun work =>
      if maxTimerHandshakes < work.peer.timers.handshakeAttempts then
        work.setPeer
          { work.peer with
            timers :=
              { work.peer.timers with
                sendKeepalive := none
                zeroKeyMaterial := work.peer.timers.zeroKeyMaterial.or
                  (some (now + rejectAfterTime * 3)) }
            staged := [] }
      else
        (work.setTimers { work.peer.timers with
          handshakeAttempts := work.peer.timers.handshakeAttempts + 1 }).sendInitiation crypto now
            true) :=
    .ite (fun _ _ => Iff.rfl) (Blind.respects (fun _ _ => ⟨rfl, rfl⟩)) retries
  exact .ite (fun _ _ => Iff.rfl) (counted.comp (respects_setTimers (fun timers =>
    { timers with retransmitHandshake := none }))) respects_id

theorem respects_tickKeepalive : Respects since (tickKeepalive crypto now) := by
  have again : Respects since (fun work =>
      if work.peer.timers.needAnotherKeepalive then
        work.setTimers
          { work.peer.timers with
            needAnotherKeepalive := false
            sendKeepalive := some (now + keepaliveTimeout) }
      else work) :=
    .ite (fun _ _ => Iff.rfl) (Blind.respects (fun _ _ => ⟨rfl, rfl⟩)) respects_id
  exact .ite (fun _ _ => Iff.rfl) (again.comp ((respects_sendKeepalive now).comp
    (respects_setTimers (fun timers => { timers with sendKeepalive := none })))) respects_id

theorem respects_tickNewHandshake : Respects since (tickNewHandshake crypto now) :=
  .ite (fun _ _ => Iff.rfl) ((respects_sendInitiation now false).comp
    (respects_setTimers (fun timers => { timers with newHandshake := none }))) respects_id

theorem respects_tickZeroKeyMaterial : Respects since (tickZeroKeyMaterial now) := by
  have zeroes : Respects since zeroKeyMaterial := fun _ _ alike => alike.zeroKeyMaterial
  exact .ite (fun _ _ => Iff.rfl) (zeroes.comp
    (respects_setTimers (fun timers => { timers with zeroKeyMaterial := none }))) respects_id

theorem respects_tickPersistentKeepalive : Respects since (tickPersistentKeepalive crypto now) := by
  have sends : Respects since (fun work =>
      if work.peer.persistentKeepalive.isSome then work.sendKeepalive crypto now else work) :=
    .ite (fun _ _ => Iff.rfl) (respects_sendKeepalive now) respects_id
  exact .ite (fun _ _ => Iff.rfl) (sends.comp
    (respects_setTimers (fun timers => { timers with persistentKeepalive := none }))) respects_id

theorem respects_tick : Respects since (tick crypto now) :=
  (respects_tickPersistentKeepalive now).comp ((respects_tickZeroKeyMaterial now).comp
    ((respects_tickNewHandshake now).comp ((respects_tickKeepalive now).comp
      (respects_tickRetransmit now))))

end

end Work

end Sail.Protocol.Wireguard
