/-
Datagrams that do not authenticate.

They change no peer but for the mark of a session that has expired, are answered
with nothing but a cookie, and are forgotten: no later answer tells whether they
came, unless the gate in front of handshakes does.
-/

import Sail.Protocol.Wireguard.DeviceSafety
import Sail.Protocol.Wireguard.Noninterference

namespace Sail.Protocol.Wireguard

open Netstack Bytes

variable {crypto : Crypto}

/-! ### Windows in a run -/

/-- Every session's window knows what it has accepted. -/
def Holder.Windowed (holder : Holder) : Prop :=
  ∀ slot keypair, holder.keypairs.slot slot = some keypair →
    ∃ accepted, keypair.replay.Knows accepted

theorem Holder.Windowed.setSlot {keypairs : Keypairs} {pending : Option Nat}
    (windowed : Holder.Windowed ⟨keypairs, pending⟩) {slot : Slot} {keypair : Keypair}
    {window : ReplayWindow} (known : ∃ accepted, window.Knows accepted)
    (same : keypair.replay = window) :
    Holder.Windowed ⟨keypairs.setSlot keypair slot, pending⟩ := by
  intro other one held
  rw [slot_setSlot] at held
  split_ifs at held
  · cases held
    rw [same]
    exact known
  · exact windowed other one held

theorem Holder.Windowed.step {before after : View} (step : View.Step crypto before after)
    (windowed : before.holder.Windowed) : after.holder.Windowed := by
  have updated : ∀ {slot keypair} (counter : Nat), before.holder.keypairs.slot slot = some keypair →
      ∃ accepted, (keypair.replay.checkAndUpdate counter).2.Knows accepted := by
    intro slot keypair counter found
    obtain ⟨accepted, knows⟩ := windowed slot keypair found
    exact ⟨_, knows.checkAndUpdate counter⟩
  cases step with
  | mark found same => exact windowed.setSlot (windowed _ _ found) same.replay
  | send found young below =>
    exact windowed.setSlot (windowed .current _ found) rfl
  | @receive keypairs pending _ _ slot keypair counter found fresh =>
    have placed : Holder.Windowed ⟨keypairs.setSlot
        { keypair with replay := (keypair.replay.checkAndUpdate counter).2 } slot, pending⟩ :=
      windowed.setSlot (updated counter found) rfl
    intro other one held
    obtain ⟨place, inPlace⟩ := slot_receivedWith held
    exact placed place one inPlace
  | refuse found stale => exact windowed.setSlot (updated _ found) rfl
  | allocate | forget => exact windowed
  | begin fresh =>
    intro slot keypair held
    rcases slot_add held with rfl | ⟨old, inOld⟩
    · exact ⟨[], fresh.replay ▸ ReplayWindow.new_knows⟩
    · exact windowed old keypair inOld
  | clear =>
    intro slot keypair held
    cases slot <;> cases held

theorem Holder.Windowed.steps {before after : View} (steps : View.Steps crypto before after)
    (windowed : before.holder.Windowed) : after.holder.Windowed := by
  induction steps with
  | refl => exact windowed
  | tail _ step ih => exact ih.step step

def World.Windowed (world : World) : Prop :=
  ∀ holder ∈ world.holders, holder.Windowed

theorem windowed_split {front back : List Holder} {holder : Holder} :
    (∀ other ∈ front ++ holder :: back, other.Windowed) ↔
      (∀ other ∈ front, other.Windowed) ∧ holder.Windowed ∧ ∀ other ∈ back, other.Windowed := by
  rw [List.forall_mem_append, List.forall_mem_cons]

theorem World.Windowed.step {before after : World} (step : World.Step crypto before after)
    (windowed : before.Windowed) : after.Windowed := by
  cases step with
  | work step =>
    obtain ⟨inFront, here, inBack⟩ := windowed_split.mp windowed
    exact windowed_split.mpr ⟨inFront, here.step step, inBack⟩
  | remove =>
    obtain ⟨inFront, _, inBack⟩ := windowed_split.mp windowed
    exact List.forall_mem_append.mpr ⟨inFront, inBack⟩
  | insert =>
    obtain ⟨inFront, inBack⟩ := List.forall_mem_append.mp windowed
    refine windowed_split.mpr ⟨inFront, ?_, inBack⟩
    intro slot keypair held
    cases slot <;> cases held
  | deliver found fresh receives journal onward =>
    obtain ⟨inFront, here, inBack⟩ := windowed_split.mp windowed
    exact windowed_split.mpr ⟨inFront, (here.step receives).steps onward, inBack⟩

theorem World.Windowed.steps {before after : World} (steps : World.Steps crypto before after)
    (windowed : before.Windowed) : after.Windowed := by
  induction steps with
  | refl => exact windowed
  | tail _ step ih => exact ih.step step

namespace Device

variable {crypto : Crypto} {device : Device}

theorem windowed_run (config : DeviceConfig) (start : Instant) (wallTime : Nat)
    (calls : List Call) : ((new crypto config start wallTime).run crypto calls).world.Windowed := by
  have fresh : (new crypto config start wallTime).world.Windowed := by
    intro holder impossible
    cases impossible
  exact fresh.steps (steps_run calls)

variable {id : PeerId} {keypair : Keypair} {peer : Peer} {slot : Slot} {datagram : Bytes}
  {header : DataHeader} {now : Instant} {src : SocketAddr}

theorem knows_of_windowed (windowed : device.world.Windowed) (found : device.peer id = some peer)
    (held : peer.keypairs.slot slot = some keypair) :
    ∃ accepted, keypair.replay.Knows accepted := by
  obtain ⟨front, back, split, _⟩ := peer_split found
  have inside : peer.holder ∈ device.world.holders := by
    rw [world_of_split split]
    simp
  exact windowed peer.holder inside slot keypair held

/-! ### Datagrams that do not authenticate -/

def isMessage (datagram : Bytes) : Bool :=
  isHandshake datagram || (CookieReply.parse datagram).isSome || (DataHeader.parse datagram).isSome

inductive Unauthenticated (crypto : Crypto) (device : Device) (now : Instant) (datagram : Bytes) :
    Prop
  | malformed (shape : isMessage datagram = false)
  | noMac (handshake : isHandshake datagram = true)
      (invalid : device.gate.cookieChecker.mac1Valid crypto datagram = false)
  | initiation {message : Initiation} (parsed : Initiation.parse datagram = some message)
      (fails : consumeInitiationStatic crypto message device.s.privateKey device.s.publicKey = none)
  | stranger {message : Initiation} {first : InitiationFirstHalf}
      (parsed : Initiation.parse datagram = some message)
      (static : consumeInitiationStatic crypto message device.s.privateKey device.s.publicKey =
        some first)
      (unknown : device.byKey.lookup first.remoteStatic = none)
  | timestamp {message : Initiation} {first : InitiationFirstHalf} {id : PeerId} {peer : Peer}
      (parsed : Initiation.parse datagram = some message)
      (static : consumeInitiationStatic crypto message device.s.privateKey device.s.publicKey =
        some first)
      (known : device.byKey.lookup first.remoteStatic = some id) (found : device.peer id = some peer)
      (fails : initiationTimestamp crypto first message peer.staticStatic = none)
  | older {message : Initiation} {first : InitiationFirstHalf} {id : PeerId} {peer : Peer}
      {timestamp : Bytes} (parsed : Initiation.parse datagram = some message)
      (static : consumeInitiationStatic crypto message device.s.privateKey device.s.publicKey =
        some first)
      (known : device.byKey.lookup first.remoteStatic = some id) (found : device.peer id = some peer)
      (decrypted : initiationTimestamp crypto first message peer.staticStatic = some timestamp)
      (notNewer : bigEndian timestamp ≤ bigEndian peer.handshake.latestTimestamp)
  | unexpected {message : Response} (parsed : Response.parse datagram = some message)
      (nothing : ∀ id peer, device.s.indices.lookup message.receiver = some id →
        device.peer id = some peer → peer.handshake.localIndex ≠ some message.receiver ∨
          peer.handshake.state ≠ .createdInitiation)
  | response {message : Response} (parsed : Response.parse datagram = some message)
      (fails : ∀ id peer, device.s.indices.lookup message.receiver = some id →
        device.peer id = some peer →
          consumeResponse crypto peer.handshake message (device.work peer).peerKeys = none)
  | cookie {message : CookieReply} (parsed : CookieReply.parse datagram = some message)
      (fails : ∀ id peer, device.s.indices.lookup message.receiver = some id →
        device.peer id = some peer → peer.cookie.consumeReply crypto message now = none)
  | noSession {header : DataHeader} (parsed : DataHeader.parse datagram = some header)
      (unknown : device.findSession header = none)
  | data {header : DataHeader} {id : PeerId} {peer : Peer} {slot : Slot} {keypair : Keypair}
      (parsed : DataHeader.parse datagram = some header)
      (session : device.findSession header = some (id, peer, slot, keypair))
      (fails : keypair.open crypto header.counter (datagram.drop dataHeaderLen) = none)
  | replayed {header : DataHeader} {id : PeerId} {peer : Peer} {slot : Slot} {keypair : Keypair}
      (parsed : DataHeader.parse datagram = some header)
      (session : device.findSession header = some (id, peer, slot, keypair))
      (stale : (keypair.replay.checkAndUpdate header.counter).1 = false)

theorem Unauthenticated.of_stale (parsed : DataHeader.parse datagram = some header)
    (stale : (device.findSession header).any (fun session =>
      !(session.2.2.2.replay.checkAndUpdate header.counter).1) = true) :
    device.Unauthenticated crypto now datagram := by
  obtain ⟨⟨id, peer, slot, keypair⟩, session, refused⟩ := (Option.any_eq_true _ _).mp stale
  exact .replayed parsed session (by simpa using refused)

/-! ### What they do -/

theorem Alike.refl (device : Device) {since : Instant} : device.Alike since device := by
  refine ⟨rfl, ?_, rfl, rfl, rfl, rfl, rfl⟩
  induction device.peers with
  | nil => exact .nil
  | cons place rest ih =>
    cases place with
    | none => exact .cons .none ih
    | some peer => exact .cons (.some ⟨peer.keypairs, rfl, .refl _⟩) ih

/-- Nothing changes but marks of expired sessions and the gate, and at most a cookie
is sent back. -/
def Untouched (now : Instant) (src : SocketAddr) (device : Device)
    (outcome : Incoming × Device) : Prop :=
  device.Alike now outcome.2 ∧ (outcome.1 = .nothing ∨ ∃ reply : CookieReply,
    outcome.1 = .writeBack { peer := none, dst := src, payload := reply.toBytes })

theorem check_cookieReply {gate : Gate} {payload : Bytes}
    (answered : (gate.check crypto now src datagram).1 = .cookieReply payload) :
    ∃ reply : CookieReply, payload = reply.toBytes := by
  unfold Gate.check at answered
  dsimp only at answered
  split at answered
  · cases answered
  · cases answered
  · cases answered
    exact ⟨_, rfl⟩
  · cases answered

theorem check_of_noMac {gate : Gate}
    (invalid : gate.cookieChecker.mac1Valid crypto datagram = false) :
    (gate.check crypto now src datagram).1 = .drop := by
  have checker : (gate.underLoad now).2.cookieChecker = gate.cookieChecker := by
    unfold Gate.underLoad
    dsimp only
    split_ifs <;> rfl
  have refused : ((gate.underLoad now).2.cookieChecker.validate crypto
      (gate.underLoad now).2.rateLimiter datagram src (gate.underLoad now).1 now).1 =
        .invalidMac := by
    rw [checker]
    unfold CookieChecker.validate
    rw [invalid]
    rfl
  unfold Gate.check
  dsimp only
  split <;> first | rfl | simp_all

/-- A handshake message that nothing behind the gate takes. -/
theorem untouched_handshake
    (refused : (device.gate.check crypto now src datagram).1 = .pass →
      ∀ gate, ({ device with gate } : Device).handleMessage crypto now src datagram =
        (none, { device with gate })) :
    device.Untouched now src (device.handleHandshake crypto now src datagram) := by
  have gated : ∀ gate, device.Alike now { device with gate } := by
    intro gate
    have same : device.Alike now device := .refl device
    exact ⟨rfl, same.peers, rfl, rfl, rfl, rfl, rfl⟩
  unfold handleHandshake processHandshake
  dsimp only
  cases verdict : (device.gate.check crypto now src datagram).1 with
  | drop => exact ⟨gated _, .inl rfl⟩
  | cookieReply payload =>
    obtain ⟨reply, rfl⟩ := check_cookieReply verdict
    exact ⟨gated _, .inr ⟨reply, rfl⟩⟩
  | pass =>
    rw [refused verdict]
    exact ⟨gated _, .inl rfl⟩

theorem head?_of_byteAt {type : UInt8} (long : 0 < datagram.length)
    (first : byteAt datagram 0 = type) : datagram.head? = some type := by
  cases datagram with
  | nil => cases long
  | cons byte rest =>
    rw [← first]
    rfl

/-- What a message of a fixed length and type was read from. -/
theorem shape_of_parsed {α : Type} {message : α} {read : Option α} {length : Nat} {type : UInt8}
    (parsed : (if datagram.length ≠ length ∨ byteAt datagram 0 ≠ type then none else read) =
      some message) : byteAt datagram 0 = type ∧ datagram.length = length := by
  split_ifs at parsed with shape
  obtain ⟨length, type⟩ := not_or.mp shape
  exact ⟨not_ne_iff.mp type, not_ne_iff.mp length⟩

theorem initiation_shape {message : Initiation}
    (parsed : Initiation.parse datagram = some message) :
    byteAt datagram 0 = typeInitiation ∧ datagram.length = initiationLen :=
  shape_of_parsed parsed

theorem response_shape {message : Response} (parsed : Response.parse datagram = some message) :
    byteAt datagram 0 = typeResponse ∧ datagram.length = responseLen :=
  shape_of_parsed parsed

theorem cookieReply_shape {message : CookieReply}
    (parsed : CookieReply.parse datagram = some message) :
    byteAt datagram 0 = typeCookieReply ∧ datagram.length = cookieReplyLen :=
  shape_of_parsed parsed

theorem data_shape (parsed : DataHeader.parse datagram = some header) :
    byteAt datagram 0 = typeData ∧ dataMinLen ≤ datagram.length := by
  unfold DataHeader.parse at parsed
  split_ifs at parsed with shape
  obtain ⟨length, type⟩ := not_or.mp shape
  exact ⟨not_ne_iff.mp type, Nat.not_lt.mp length⟩

/-- An initiation that is not taken. -/
theorem untouched_initiation {message : Initiation}
    (parsed : Initiation.parse datagram = some message)
    (refused : device.acceptInitiation crypto now datagram = none) :
    device.Untouched now src (device.handleHandshake crypto now src datagram) := by
  refine untouched_handshake (fun _ gate => ?_)
  have unseen : ({ device with gate } : Device).acceptInitiation crypto now datagram =
      none := refused
  unfold handleMessage handleInitiation
  rw [if_pos (initiation_shape parsed).1, unseen]

theorem untouched_response {message : Response} (parsed : Response.parse datagram = some message)
    (refused : device.acceptResponse crypto datagram = none) :
    device.Untouched now src (device.handleHandshake crypto now src datagram) := by
  refine untouched_handshake (fun _ gate => ?_)
  have unseen : ({ device with gate } : Device).acceptResponse crypto datagram =
      none := refused
  have other : byteAt datagram 0 ≠ typeInitiation := by
    rw [(response_shape parsed).1]
    decide
  unfold handleMessage handleResponse
  rw [if_neg other, unseen]

/-- A session that may not receive is marked so. -/
theorem alike_canReceive (unable : (keypair.canReceive now).1 = false) :
    keypair.Alike now (keypair.canReceive now).2 := by
  refine ⟨(keypair.canReceive now).1, rfl, ?_⟩
  rcases Bool.and_eq_false_iff.mp unable with marked | expired
  · exact .inl (unable.trans marked.symm)
  · refine .inr ?_
    simpa using expired

/-- A peer is put back with alike sessions. -/
theorem alike_put {since : Instant} (found : device.peer id = some peer) {marked : Keypair}
    (held : peer.keypairs.slot slot = some keypair) (alike : keypair.Alike since marked) :
    device.Alike since (device.finish id
      (device.work { peer with keypairs := peer.keypairs.setSlot marked slot })) := by
  have sessions : peer.keypairs.Alike since (peer.keypairs.setSlot marked slot) := by
    have kept := (Keypairs.Alike.refl peer.keypairs).setSlot alike slot
    have same : peer.keypairs.setSlot keypair slot = peer.keypairs := by
      cases slot <;> simp only [Keypairs.setSlot] <;> rw [← held] <;> rfl
    rw [same] at kept
    exact kept
  have put : Option.Rel (Peer.Alike since) (some peer)
      (some { peer with keypairs := peer.keypairs.setSlot marked slot }) :=
    .some ⟨_, rfl, sessions⟩
  have same : device.Alike since device := .refl device
  have related := forall₂_set same.peers put id
  obtain ⟨below, inPlace⟩ := List.getElem?_eq_some_iff.mp (Option.join_eq_some_iff.mp found)
  rw [← inPlace, List.set_getElem_self] at related
  exact ⟨rfl, related, rfl, rfl, rfl, rfl, rfl⟩

theorem untouched_data (windowed : device.world.Windowed)
    (parsed : DataHeader.parse datagram = some header)
    (session : device.findSession header = some (id, peer, slot, keypair))
    (refused : keypair.open crypto header.counter (datagram.drop dataHeaderLen) = none ∨
      (keypair.replay.checkAndUpdate header.counter).1 = false) :
    device.Untouched now src (device.handleData crypto now src datagram) := by
  obtain ⟨found, held, index⟩ := findSession_spec session
  obtain ⟨accepted, knows⟩ := knows_of_windowed windowed found held
  unfold handleData
  rw [parsed]
  dsimp only
  rw [session]
  dsimp only
  by_cases valid : (keypair.canReceive now).1 = true
  · rw [if_neg (by simp [valid]), canReceive_of_valid valid]
    split
    · exact ⟨.refl device, .inl rfl⟩
    · rename_i buf opened
      have stale := refused.resolve_left (by rw [opened]; exact Option.some_ne_none buf)
      rw [if_pos (by simp [stale]), knows.refused stale]
      exact ⟨alike_put found held (.refl _), .inl rfl⟩
  · rw [if_pos (by simpa using valid)]
    exact ⟨alike_put found held (alike_canReceive (Bool.eq_false_iff.mpr valid)), .inl rfl⟩

/-! ### All of them -/

theorem handleIncoming_of_handshake (handshake : isHandshake (withoutReserved datagram) = true) :
    device.handleIncoming crypto now src datagram =
      device.handleHandshake crypto now src (withoutReserved datagram) := by
  unfold handleIncoming
  dsimp only
  cases found : (withoutReserved datagram).head? with
  | none =>
    unfold isHandshake at handshake
    simp [found] at handshake
  | some type =>
    dsimp only
    rcases (isHandshake_iff found).mp handshake with initiation | response
    · rw [if_pos initiation]
    · have other : ¬ (type = typeInitiation ∧
          (withoutReserved datagram).length = initiationLen) := by
        rintro ⟨rfl, _⟩
        exact absurd response.1 (by decide)
      rw [if_neg other, if_pos response]

theorem handleIncoming_of_cookieReply
    (type : (withoutReserved datagram).head? = some typeCookieReply) :
    device.handleIncoming crypto now src datagram =
      (.nothing, device.handleCookieReply crypto now (withoutReserved datagram)) := by
  unfold handleIncoming
  dsimp only
  rw [type]
  dsimp only
  rw [if_neg (fun both => absurd both.1 (by decide)),
    if_neg (fun both => absurd both.1 (by decide)), if_pos rfl]

theorem handleIncoming_of_data (type : (withoutReserved datagram).head? = some typeData) :
    device.handleIncoming crypto now src datagram =
      device.handleData crypto now src (withoutReserved datagram) := by
  unfold handleIncoming
  dsimp only
  rw [type]
  dsimp only
  rw [if_neg (fun both => absurd both.1 (by decide)),
    if_neg (fun both => absurd both.1 (by decide)), if_neg (by decide), if_pos rfl]

/-- What is no message is dropped. -/
theorem handleIncoming_of_malformed (shape : isMessage (withoutReserved datagram) = false) :
    device.handleIncoming crypto now src datagram = (.nothing, device) := by
  obtain ⟨shape, noData⟩ := Bool.or_eq_false_iff.mp shape
  obtain ⟨noHandshake, noCookie⟩ := Bool.or_eq_false_iff.mp shape
  have cookieReply : CookieReply.parse (withoutReserved datagram) = none := by simpa using noCookie
  have data : DataHeader.parse (withoutReserved datagram) = none := by simpa using noData
  unfold handleIncoming
  dsimp only
  split
  · rfl
  · rename_i type found
    have handshake := isHandshake_iff found
    rw [noHandshake] at handshake
    split_ifs with initiation response
    · exact absurd (handshake.mpr (.inl initiation)) Bool.false_ne_true
    · exact absurd (handshake.mpr (.inr response)) Bool.false_ne_true
    · unfold handleCookieReply
      rw [cookieReply]
    · unfold handleData
      rw [data]
    · rfl

/-- A datagram that does not authenticate touches nothing. -/
theorem Unauthenticated.untouched (windowed : device.world.Windowed)
    (unauthenticated : device.Unauthenticated crypto now (withoutReserved datagram)) :
    device.Untouched now src (device.handleIncoming crypto now src datagram) := by
  have ofInitiation : ∀ {message}, Initiation.parse (withoutReserved datagram) = some message →
      device.acceptInitiation crypto now (withoutReserved datagram) = none →
        device.Untouched now src (device.handleIncoming crypto now src datagram) := by
    intro message parsed refused
    obtain ⟨type, length⟩ := initiation_shape parsed
    have found := head?_of_byteAt (by rw [length]; decide) type
    rw [handleIncoming_of_handshake ((isHandshake_iff found).mpr (.inl ⟨rfl, length⟩))]
    exact untouched_initiation parsed refused
  have ofResponse : ∀ {message}, Response.parse (withoutReserved datagram) = some message →
      device.acceptResponse crypto (withoutReserved datagram) = none →
        device.Untouched now src (device.handleIncoming crypto now src datagram) := by
    intro message parsed refused
    obtain ⟨type, length⟩ := response_shape parsed
    have found := head?_of_byteAt (by rw [length]; decide) type
    rw [handleIncoming_of_handshake ((isHandshake_iff found).mpr (.inr ⟨rfl, length⟩))]
    exact untouched_response parsed refused
  have ofData : ∀ {header}, DataHeader.parse (withoutReserved datagram) = some header →
      device.handleIncoming crypto now src datagram =
        device.handleData crypto now src (withoutReserved datagram) := by
    intro header parsed
    obtain ⟨type, length⟩ := data_shape parsed
    exact handleIncoming_of_data
      (head?_of_byteAt (Nat.lt_of_lt_of_le (by decide) length) type)
  cases unauthenticated with
  | malformed shape =>
    rw [handleIncoming_of_malformed shape]
    exact ⟨.refl device, .inl rfl⟩
  | noMac handshake invalid =>
    rw [handleIncoming_of_handshake handshake]
    refine untouched_handshake (fun passed => ?_)
    rw [check_of_noMac invalid] at passed
    cases passed
  | initiation parsed fails =>
    refine ofInitiation parsed ?_
    simp only [acceptInitiation, parsed, fails]
  | stranger parsed static unknown =>
    refine ofInitiation parsed ?_
    simp only [acceptInitiation, parsed, static, unknown]
  | timestamp parsed static known found fails =>
    refine ofInitiation parsed ?_
    simp only [acceptInitiation, consumeInitiationPeer, parsed, static, known, found, fails]
  | older parsed static known found decrypted notNewer =>
    refine ofInitiation parsed ?_
    simp only [acceptInitiation, consumeInitiationPeer, parsed, static, known, found, decrypted,
      notNewer, true_or, if_true]
  | unexpected parsed nothing =>
    refine ofResponse parsed ?_
    unfold acceptResponse
    rw [parsed]
    dsimp only
    split
    · rfl
    · rename_i id known
      split
      · rfl
      · rename_i peer found
        rw [if_pos (nothing id peer known found)]
  | response parsed fails =>
    refine ofResponse parsed ?_
    unfold acceptResponse
    rw [parsed]
    dsimp only
    split
    · rfl
    · rename_i id known
      split
      · rfl
      · rename_i peer found
        split_ifs
        · rfl
        · rw [fails id peer known found]
  | cookie parsed fails =>
    obtain ⟨type, length⟩ := cookieReply_shape parsed
    rw [handleIncoming_of_cookieReply (head?_of_byteAt (by rw [length]; decide) type)]
    have kept : device.handleCookieReply crypto now (withoutReserved datagram) = device := by
      unfold handleCookieReply
      rw [parsed]
      dsimp only
      split
      · rfl
      · rename_i id known
        split
        · rfl
        · rename_i peer found
          rw [fails id peer known found]
    rw [kept]
    exact ⟨.refl device, .inl rfl⟩
  | noSession parsed unknown =>
    rw [ofData parsed]
    unfold handleData
    rw [parsed]
    dsimp only
    rw [unknown]
    exact ⟨.refl device, .inl rfl⟩
  | data parsed session fails =>
    rw [ofData parsed]
    exact untouched_data windowed parsed session (.inl fails)
  | replayed parsed session stale =>
    rw [ofData parsed]
    exact untouched_data windowed parsed session (.inr stale)

end Device

/-- Datagrams that do not authenticate change no peer. -/
theorem unauthenticated_changes_no_peer (crypto : Crypto) (config : DeviceConfig) (start : Instant)
    (wallTime : Nat) (calls : List Device.Call) (device : Device)
    (ran : device = (Device.new crypto config start wallTime).run crypto calls) (now : Instant)
    (src : SocketAddr) (datagram : Bytes)
    (unauthenticated : device.Unauthenticated crypto now (Device.withoutReserved datagram)) :
    device.Alike now (device.handleIncoming crypto now src datagram).2 ∧
      ((device.handleIncoming crypto now src datagram).1 = .nothing ∨
        ∃ reply : CookieReply, (device.handleIncoming crypto now src datagram).1 =
          .writeBack { peer := none, dst := src, payload := reply.toBytes }) ∧
      ∀ later, (∀ call ∈ later, Device.Call.Since now call) →
        (device.handleIncoming crypto now src datagram).2.gate.verdicts crypto later =
            device.gate.verdicts crypto later →
          Device.answers crypto later (device.handleIncoming crypto now src datagram).2 =
            Device.answers crypto later device := by
  have windowed : device.world.Windowed := by
    rw [ran]
    exact Device.windowed_run config start wallTime calls
  obtain ⟨alike, answer⟩ := unauthenticated.untouched windowed
  refine ⟨alike, answer, ?_⟩
  intro later since agree
  exact alike.answers later since agree

def plainDevice : Device :=
  (Device.new plainCrypto plainConfig 0 0).run plainCrypto plainCalls

theorem plainData_replayed (now : Instant) :
    plainDevice.Unauthenticated plainCrypto now (Device.withoutReserved plainData) :=
  .of_stale
    (show DataHeader.parse (Device.withoutReserved plainData) = some { receiver := 1, counter := 0 }
      from rfl)
    (by decide +kernel)

/-- A packet is replayed while its session lasts. -/
theorem unauthenticated_plain :
    plainDevice.Alike 3 (plainDevice.handleIncoming plainCrypto 3 plainAddress plainData).2 :=
  (unauthenticated_changes_no_peer plainCrypto plainConfig 0 0 plainCalls plainDevice rfl 3
    plainAddress plainData (plainData_replayed 3)).1

/-- A packet is replayed when its session has expired: the session is marked. -/
theorem expired_session_marked : plainDevice.Unauthenticated plainCrypto (rejectAfterTime + 1)
        (Device.withoutReserved plainData) ∧
      (plainDevice.handleIncoming plainCrypto (rejectAfterTime + 1) plainAddress plainData).2.peers ≠
        plainDevice.peers :=
  ⟨plainData_replayed _, by decide +kernel⟩

end Sail.Protocol.Wireguard
