/-
What a peer's functions do to its sessions.

Of a peer only its sessions and the index of its handshake matter here, and of the
shared state the journal and the count of indices. Every function is a sequence of
a few steps on these.
-/

import Mathlib.Logic.Relation
import Sail.Protocol.Wireguard.Device

namespace Sail.Protocol.Wireguard

open Netstack

structure Holder where
  keypairs : Keypairs
  pending : Option Nat

structure View where
  holder : Holder
  journal : List Event
  allocated : Nat

def Peer.holder (peer : Peer) : Holder :=
  { keypairs := peer.keypairs, pending := peer.handshake.localIndex }

def Work.view (work : Work) : View :=
  { holder := work.peer.holder, journal := work.s.journal, allocated := work.s.allocated }

/-- The same session, up to the marks of its end. -/
structure Keypair.SameSession (first second : Keypair) : Prop where
  sendCounter : first.sendCounter = second.sendCounter
  replay : first.replay = second.replay
  localIndex : first.localIndex = second.localIndex
  birth : first.birth = second.birth
  initiator : first.initiator = second.initiator

structure Keypair.Fresh (keypair : Keypair) (index : Nat) : Prop where
  localIndex : keypair.localIndex = index
  sendCounter : keypair.sendCounter = 0
  replay : keypair.replay = .new

inductive View.Step (crypto : Crypto) : View → View → Prop
  | mark {keypairs : Keypairs} {pending : Option Nat} {journal : List Event} {allocated : Nat}
      {slot : Slot} {keypair marked : Keypair} (found : keypairs.slot slot = some keypair)
      (same : marked.SameSession keypair) :
      Step crypto ⟨⟨keypairs, pending⟩, journal, allocated⟩
        ⟨⟨keypairs.setSlot marked slot, pending⟩, journal, allocated⟩
  | send {keypairs : Keypairs} {pending : Option Nat} {journal : List Event} {allocated : Nat}
      {keypair : Keypair} {now : Instant} (found : keypairs.current = some keypair)
      (young : now - keypair.birth < rejectAfterTime)
      (below : keypair.sendCounter < rejectAfterMessages) :
      Step crypto ⟨⟨keypairs, pending⟩, journal, allocated⟩
        ⟨⟨keypairs.setSlot { keypair with sendCounter := keypair.sendCounter + 1 } .current,
            pending⟩,
          journal ++ [.sent keypair.localIndex keypair.sendCounter now keypair.birth
            keypair.initiator],
          allocated⟩
  | receive {keypairs : Keypairs} {pending : Option Nat} {journal : List Event} {allocated : Nat}
      {slot : Slot} {keypair : Keypair} {counter : Nat} (found : keypairs.slot slot = some keypair)
      (fresh : (keypair.replay.checkAndUpdate counter).1 = true) :
      Step crypto ⟨⟨keypairs, pending⟩, journal, allocated⟩ ⟨⟨((keypairs.setSlot
              { keypair with replay := (keypair.replay.checkAndUpdate counter).2 }
              slot).receivedWith slot).2.2,
            pending⟩,
          journal ++ [.received keypair.localIndex counter], allocated⟩
  | refuse {keypairs : Keypairs} {pending : Option Nat} {journal : List Event} {allocated : Nat}
      {slot : Slot} {keypair : Keypair} {counter : Nat} (found : keypairs.slot slot = some keypair)
      (stale : (keypair.replay.checkAndUpdate counter).1 = false) :
      Step crypto ⟨⟨keypairs, pending⟩, journal, allocated⟩
        ⟨⟨keypairs.setSlot { keypair with replay := (keypair.replay.checkAndUpdate counter).2 }
            slot, pending⟩, journal, allocated⟩
  | allocate {keypairs : Keypairs} {pending : Option Nat} {journal : List Event}
      {allocated : Nat} :
      Step crypto ⟨⟨keypairs, pending⟩, journal, allocated⟩
        ⟨⟨keypairs, some (crypto.index allocated)⟩, journal, allocated + 1⟩
  | forget {keypairs : Keypairs} {pending : Option Nat} {journal : List Event}
      {allocated : Nat} :
      Step crypto ⟨⟨keypairs, pending⟩, journal, allocated⟩ ⟨⟨keypairs, none⟩, journal, allocated⟩
  | begin {keypairs : Keypairs} {journal : List Event} {allocated index : Nat} {keypair : Keypair}
      (fresh : keypair.Fresh index) :
      Step crypto ⟨⟨keypairs, some index⟩, journal, allocated⟩
        ⟨⟨(keypairs.add keypair).2, none⟩, journal, allocated⟩
  | clear {keypairs : Keypairs} {pending : Option Nat} {journal : List Event} {allocated : Nat} :
      Step crypto ⟨⟨keypairs, pending⟩, journal, allocated⟩ ⟨⟨.new, pending⟩, journal, allocated⟩

def View.Steps (crypto : Crypto) : View → View → Prop :=
  Relation.ReflTransGen (View.Step crypto)

namespace Work

variable {crypto : Crypto} (now : Instant) (work : Work)

/-- One state of the work leads to another in steps. -/
abbrev Reaches (crypto : Crypto) (work after : Work) : Prop :=
  View.Steps crypto work.view after.view

theorem steps_refl : work.Reaches crypto work :=
  Relation.ReflTransGen.refl

/-- Steps from a state that looks the same. -/
theorem steps_from {work ready after : Work}
    (steps : ready.Reaches crypto after) (same : ready.view = work.view) :
    work.Reaches crypto after :=
  Eq.subst (motive := (View.Steps crypto · after.view)) same steps

/-! ### Functions that leave the sessions alone -/

theorem view_traversal : (work.timersAnyAuthenticatedPacketTraversal now).view = work.view := by
  unfold timersAnyAuthenticatedPacketTraversal
  split <;> rfl

theorem view_dataSent : (work.timersDataSent crypto now).view = work.view := by
  unfold timersDataSent
  split_ifs <;> rfl

theorem view_dataReceived : (work.timersDataReceived now).view = work.view := by
  unfold timersDataReceived
  split_ifs <;> rfl

theorem view_afterSending (sending : Sending) :
    (afterSending crypto now sending).view = sending.work.view := by
  unfold afterSending
  split_ifs
  · rw [view_dataSent]
    exact view_traversal now sending.work
  · exact view_traversal now sending.work
  · rfl

/-! ### Handshakes -/

theorem steps_releaseHandshakeIndex : work.Reaches crypto work.releaseHandshakeIndex := by
  unfold releaseHandshakeIndex
  split
  · exact steps_refl work
  · exact .single .forget

theorem createInitiation_localIndex {handshake after : Handshake} {keys : PeerKeys} {index : Nat}
    {timestamp ephemeral : Bytes} {message : Initiation}
    (created : createInitiation crypto handshake keys index timestamp ephemeral =
      some (message, after)) : after.localIndex = some index := by
  unfold createInitiation at created
  split_ifs at created
  split at created
  · cases created
  · cases created
    rfl

theorem createResponse_localIndex {handshake after : Handshake} {keys : PeerKeys} {index : Nat}
    {ephemeral : Bytes} {message : Response}
    (created : createResponse crypto handshake keys index ephemeral = some (message, after)) :
    after.localIndex = some index := by
  unfold createResponse at created
  split_ifs at created
  split at created
  · cases created
    rfl
  · cases created

theorem steps_startHandshake (dst : SocketAddr) (work : Work) :
    work.Reaches crypto (work.startHandshake crypto now dst) := by
  refine (steps_releaseHandshakeIndex work).trans ?_
  unfold startHandshake
  generalize work.releaseHandshakeIndex = work
  dsimp only
  have allocates : View.Step crypto work.view
      ⟨⟨work.peer.keypairs, some (crypto.index work.s.allocated)⟩, work.s.journal,
        work.s.allocated + 1⟩ := .allocate
  split
  · exact .tail (.single allocates) .forget
  · rename_i created
    have index := createInitiation_localIndex created
    refine Relation.ReflTransGen.single ?_
    refine cast (congrArg (View.Step crypto work.view) ?_) allocates
    refine Eq.trans ?_ (view_traversal now _).symm
    exact congrArg (fun pending => View.mk ⟨work.peer.keypairs, pending⟩ work.s.journal
      (work.s.allocated + 1)) index.symm

theorem steps_sendInitiation (isRetry : Bool) (work : Work) :
    work.Reaches crypto (work.sendInitiation crypto now isRetry) := by
  unfold sendInitiation
  have timers : (if isRetry then work
      else work.setTimers { work.peer.timers with handshakeAttempts := 0 }).view = work.view := by
    split_ifs <;> rfl
  generalize (if isRetry then work
    else work.setTimers { work.peer.timers with handshakeAttempts := 0 }) = ready at timers
  rw [Reaches, ← timers]
  dsimp only
  split_ifs
  · exact steps_refl ready
  · split
    · exact steps_refl ready
    · exact steps_startHandshake now _ ready

/-! ### Packets -/

theorem nextCounter_none {keypair after : Keypair} (taken : keypair.nextCounter = (none, after)) :
    after.SameSession keypair := by
  unfold Keypair.nextCounter at taken
  split_ifs at taken
  · rw [← (Prod.mk.inj taken).2]
    exact ⟨rfl, rfl, rfl, rfl, rfl⟩
  · cases (Prod.mk.inj taken).1

theorem nextCounter_some {keypair after : Keypair} {counter : Nat}
    (taken : keypair.nextCounter = (some counter, after)) :
    counter = keypair.sendCounter ∧ keypair.sendCounter < rejectAfterMessages ∧
      after = { keypair with sendCounter := keypair.sendCounter + 1 } := by
  unfold Keypair.nextCounter at taken
  split_ifs at taken with limit
  · cases (Prod.mk.inj taken).1
  · obtain ⟨first, second⟩ := Prod.mk.inj taken
    exact ⟨(Option.some.inj first).symm, Nat.lt_of_not_le limit, second.symm⟩

theorem steps_sendPackets (dst : SocketAddr) (packets : List Bytes)
    (sending : Sending) (young : ∀ keypair, sending.work.peer.keypairs.current = some keypair →
      now - keypair.birth < rejectAfterTime) :
    View.Steps crypto sending.work.view (sendPackets crypto now dst packets sending).work.view := by
  induction packets generalizing sending with
  | nil => exact steps_refl sending.work
  | cons packet rest ih =>
    unfold sendPackets
    cases current : sending.work.peer.keypairs.current with
    | none => exact steps_refl sending.work
    | some keypair =>
      dsimp only
      split
      · rename_i marked taken
        refine Relation.ReflTransGen.trans (.single ?_) (steps_sendInitiation now false _)
        exact .mark (show Keypairs.slot _ .current = some keypair from current)
          (nextCounter_none taken)
      · rename_i counter next taken
        obtain ⟨rfl, below, rfl⟩ := nextCounter_some taken
        refine Relation.ReflTransGen.head ?_ (ih _ ?_)
        · exact .send current (young keypair current) below
        · intro other found
          cases found
          exact young keypair current

theorem steps_keepKeyFreshSend : work.Reaches crypto (work.keepKeyFreshSend crypto now) := by
  unfold keepKeyFreshSend
  split_ifs
  · exact steps_sendInitiation now false work
  · exact steps_refl work

theorem steps_keepKeyFreshReceive : work.Reaches crypto (work.keepKeyFreshReceive crypto now) := by
  unfold keepKeyFreshReceive
  split_ifs
  · exact steps_refl work
  · exact steps_from (steps_sendInitiation now false _) rfl
  · exact steps_refl work

theorem steps_currentCanSend : View.Steps crypto work.view (work.currentCanSend now).2.view := by
  unfold currentCanSend
  cases current : work.peer.keypairs.current with
  | none => exact steps_refl work
  | some keypair =>
    exact .single (.mark (show Keypairs.slot _ .current = some keypair from current)
      ⟨rfl, rfl, rfl, rfl, rfl⟩)

/-- A session that can send is young. -/
theorem young_of_canSend {now : Instant} {work : Work}
    (usable : (work.currentCanSend now).1 = true) (keypair : Keypair)
    (found : (work.currentCanSend now).2.peer.keypairs.current = some keypair) :
    now - keypair.birth < rejectAfterTime := by
  unfold currentCanSend at usable found
  cases current : work.peer.keypairs.current with
  | none =>
    rw [current] at usable
    cases usable
  | some old =>
    rw [current] at usable found
    cases found
    have both := (Bool.and_eq_true _ _).mp usable
    exact of_decide_eq_true both.2

theorem steps_sendStaged : work.Reaches crypto (work.sendStaged crypto now) := by
  unfold sendStaged
  split_ifs
  · exact steps_refl work
  · refine (steps_currentCanSend now work).trans ?_
    have young := @young_of_canSend now work
    generalize work.currentCanSend now = tested at young ⊢
    obtain ⟨usable, ready⟩ := tested
    dsimp only at young ⊢
    cases usable with
    | false => exact steps_sendInitiation now false ready
    | true =>
      rw [if_neg (by decide)]
      split
      · exact steps_refl ready
      · rename_i dst _
        have sends := @steps_sendPackets crypto now dst ready.peer.staged ⟨ready, false, false⟩
          (young rfl)
        exact sends.trans (steps_from (steps_keepKeyFreshSend now _) (view_afterSending now _))

theorem steps_sendKeepalive : work.Reaches crypto (work.sendKeepalive crypto now) := by
  unfold sendKeepalive
  split_ifs
  · exact steps_from (steps_sendStaged now _) rfl
  · exact steps_sendStaged now work

/-! ### Sessions and timers -/

theorem foldl_release (dropped : List Nat) (s : Shared) :
    (dropped.foldl Shared.release s).journal = s.journal ∧
      (dropped.foldl Shared.release s).allocated = s.allocated := by
  induction dropped generalizing s with
  | nil => exact ⟨rfl, rfl⟩
  | cons index dropped ih => exact ih (s.release index)

theorem view_install (keypair : Keypair) (work : Work) :
    (work.install keypair).view =
      ⟨⟨(work.peer.keypairs.add keypair).2, work.peer.handshake.localIndex⟩, work.s.journal,
        work.s.allocated⟩ := by
  obtain ⟨journal, allocated⟩ := foldl_release (work.peer.keypairs.add keypair).1 work.s
  unfold install view
  rw [journal, allocated]
  rfl

theorem steps_clearKeypairs : work.Reaches crypto work.clearKeypairs := by
  obtain ⟨journal, allocated⟩ := foldl_release work.peer.keypairs.clear.1 work.s
  have cleared : work.clearKeypairs.view =
      ⟨⟨.new, work.peer.handshake.localIndex⟩, work.s.journal, work.s.allocated⟩ := by
    rw [← journal, ← allocated]
    rfl
  rw [Reaches, cleared]
  exact .single .clear

theorem steps_zeroKeyMaterial : work.Reaches crypto work.zeroKeyMaterial := by
  refine (steps_clearKeypairs work).trans ((steps_releaseHandshakeIndex _).trans ?_)
  exact .single .forget

theorem steps_tickRetransmit : work.Reaches crypto (work.tickRetransmit crypto now) := by
  unfold tickRetransmit
  dsimp only
  split_ifs
  · exact steps_refl work
  · exact steps_from (steps_sendInitiation now true _) rfl
  · exact steps_refl work

theorem steps_tickKeepalive : work.Reaches crypto (work.tickKeepalive crypto now) := by
  unfold tickKeepalive
  dsimp only
  split_ifs
  · exact steps_from (steps_sendKeepalive now _) rfl
  · exact steps_from (steps_sendKeepalive now _) rfl
  · exact steps_refl work

theorem steps_tickNewHandshake : work.Reaches crypto (work.tickNewHandshake crypto now) := by
  unfold tickNewHandshake
  split_ifs
  · exact steps_from (steps_sendInitiation now false _) rfl
  · exact steps_refl work

theorem steps_tickZeroKeyMaterial : work.Reaches crypto (work.tickZeroKeyMaterial now) := by
  unfold tickZeroKeyMaterial
  split_ifs
  · exact steps_from (steps_zeroKeyMaterial _) rfl
  · exact steps_refl work

theorem steps_tickPersistentKeepalive :
    work.Reaches crypto (work.tickPersistentKeepalive crypto now) := by
  unfold tickPersistentKeepalive
  dsimp only
  split_ifs
  · exact steps_from (steps_sendKeepalive now _) rfl
  · exact steps_refl work
  · exact steps_refl work

theorem steps_tick : work.Reaches crypto (work.tick crypto now) :=
  (steps_tickRetransmit now work).trans ((steps_tickKeepalive now _).trans
    ((steps_tickNewHandshake now _).trans ((steps_tickZeroKeyMaterial now _).trans
      (steps_tickPersistentKeepalive now _))))

end Work

/-! ### Datagrams -/

namespace Device

variable {crypto : Crypto}

open Work

theorem beginSession_spec {handshake after : Handshake} {keys : SessionKeys}
    (begun : beginSession crypto handshake = some (keys, after)) :
    handshake.localIndex = some keys.localIndex ∧ after.localIndex = none := by
  unfold beginSession at begun
  dsimp only at begun
  split at begun
  · rename_i index
    cases begun
    exact ⟨index, rfl⟩
  · cases begun

theorem steps_startSession {now : Instant} {work after : Work}
    (started : startSession crypto now work = some after) :
    work.Reaches crypto after := by
  unfold startSession at started
  split at started
  · cases started
  · rename_i keys handshake begun
    cases started
    obtain ⟨index, gone⟩ := beginSession_spec begun
    have fresh : (Keypair.new keys now).Fresh keys.localIndex := ⟨rfl, rfl, rfl⟩
    have before : work.view =
        ⟨⟨work.peer.keypairs, some keys.localIndex⟩, work.s.journal, work.s.allocated⟩ := by
      rw [← index]
      rfl
    have after : ((work.setPeer { work.peer with handshake }).install
        (.new keys now)).view = ⟨⟨(work.peer.keypairs.add (.new keys now)).2, none⟩, work.s.journal,
            work.s.allocated⟩ := by
      rw [view_install, ← gone]
      rfl
    change View.Steps crypto work.view ((work.setPeer
      { work.peer with handshake }).install (.new keys now)).view
    rw [before, after]
    exact .single (.begin fresh)

theorem steps_completeResponse (now : Instant) (src : SocketAddr) (bytes : Bytes) (work : Work) :
    work.Reaches crypto (completeResponse crypto now src bytes work).1 := by
  unfold completeResponse
  split
  · exact steps_refl work
  · rename_i session started
    exact (steps_startSession started).trans
      (steps_from (steps_refl _) (view_traversal now session))

theorem steps_respond (now : Instant) (src : SocketAddr) (work : Work) :
    work.Reaches crypto (respond crypto now src work).1 := by
  unfold respond
  refine (steps_releaseHandshakeIndex work).trans ?_
  generalize work.releaseHandshakeIndex = work
  dsimp only
  have allocates : View.Step crypto work.view
      ⟨⟨work.peer.keypairs, some (crypto.index work.s.allocated)⟩, work.s.journal,
        work.s.allocated + 1⟩ := .allocate
  split
  · exact .tail (.single allocates) .forget
  · rename_i response handshake created
    have index := createResponse_localIndex created
    have readies : View.Steps crypto work.view
        ⟨⟨work.peer.keypairs, handshake.localIndex⟩, work.s.journal, work.s.allocated + 1⟩ := by
      rw [index]
      exact .single allocates
    generalize ready : sealMessage crypto now response.toBytes _ = outcome
    have seals : View.Steps crypto work.view outcome.2.view := by
      rw [← ready]
      exact readies
    exact seals.trans (steps_completeResponse now src outcome.1 outcome.2)

theorem view_receivedWith (slot : Slot) (keypair : Keypair) (counter : Nat) (work : Work) :
    (receivedWith slot keypair counter work).2.view =
      ⟨⟨((work.peer.keypairs.setSlot keypair slot).receivedWith slot).2.2,
          work.peer.handshake.localIndex⟩,
        work.s.journal ++ [.received keypair.localIndex counter], work.s.allocated⟩ := by
  unfold receivedWith
  dsimp only
  cases ((work.peer.keypairs.setSlot keypair slot).receivedWith slot).2.1 with
  | none | some _ => rfl

theorem steps_confirm (now : Instant) (confirmed : Bool) (work : Work) :
    work.Reaches crypto (confirm crypto now confirmed work) := by
  unfold confirm
  split_ifs
  · exact steps_from (steps_sendStaged now _) rfl
  · exact steps_refl work

/-- What follows once a packet came in. -/
theorem steps_afterReceived (slot : Slot) (keypair : Keypair) (counter : Nat) (work : Work)
    (now : Instant) (src : SocketAddr) (length : Nat) :
    View.Steps crypto (receivedWith slot keypair counter work).2.view
      (received crypto now src length slot keypair counter work).view := by
  unfold received
  dsimp only
  generalize receivedWith slot keypair counter work = outcome
  obtain ⟨confirmed, accepted⟩ := outcome
  refine (steps_confirm now confirmed accepted).trans ?_
  generalize confirm crypto now confirmed accepted = settled
  rw [view_traversal]
  exact steps_from (steps_keepKeyFreshReceive now _) rfl

/-- A packet comes in under a session. -/
theorem steps_received {slot : Slot} {keypair : Keypair} {counter : Nat} {work : Work}
    (found : work.peer.keypairs.slot slot = some keypair)
    (fresh : (keypair.replay.checkAndUpdate counter).1 = true) (now : Instant) (src : SocketAddr)
    (length : Nat) :
    View.Steps crypto work.view
      (received crypto now src length slot
        { keypair with replay := (keypair.replay.checkAndUpdate counter).2 } counter work).view := by
  refine Relation.ReflTransGen.head ?_ (steps_afterReceived slot _ counter work now src length)
  rw [view_receivedWith]
  exact .receive found fresh

end Device

/-! ### The journal along steps -/

theorem View.Step.journal_prefix {crypto : Crypto} {before after : View}
    (step : View.Step crypto before after) : before.journal <+: after.journal := by
  cases step with
  | send | receive => exact List.prefix_append _ _
  | _ => exact List.prefix_rfl

theorem View.Steps.journal_prefix {crypto : Crypto} {before after : View}
    (steps : View.Steps crypto before after) : before.journal <+: after.journal := by
  induction steps with
  | refl => exact List.prefix_rfl
  | tail _ step ih => exact ih.trans step.journal_prefix

/-- No step of a peer delivers. -/
theorem View.Steps.delivered_mem {crypto : Crypto} {before after : View}
    (steps : View.Steps crypto before after) {session counter : Nat}
    (member : .delivered session counter ∈ after.journal) :
    .delivered session counter ∈ before.journal := by
  induction steps with
  | refl => exact member
  | tail _ step ih =>
    refine ih ?_
    cases step with
    | send | receive => simpa using member
    | _ => exact member

end Sail.Protocol.Wireguard
