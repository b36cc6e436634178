/-
A Shadowsocks 2022 packet is taken once, after `protocol/shadowsocks/sip022/udp.rs`.

What a server has seen of a client's packets is kept in the session at the client's
address, and forgotten with it. Packets are taken once as long as those of a live session
come from its address, and no live session is replaced or evicted.
-/

import Mathlib
import Sail.Protocol.Shadowsocks.Sip022.SaltSafety
import Sail.Protocol.Shadowsocks.Sip022.Udp

namespace Sail.Protocol.Shadowsocks.Sip022

open Bytes Session

def goodFor : Nat := (2 * maxTimeDiff + 1) * second

structure Watched where
  sessions : Sessions
  latest : Nat

namespace Watched

def new : Watched :=
  { sessions := ∅, latest := 0 }

end Watched

/-- Calls hold the table one after the other, and their clocks never go back. -/
structure InTurn (calls : List Datagram) : Prop where
  entered : ∀ call ∈ calls, call.entered ≤ call.read
  recorded : ∀ call ∈ calls, call.read ≤ call.recorded
  inTurn : calls.Pairwise (fun call next => call.recorded ≤ next.entered)

section Runs

variable (crypto : Crypto) (method : Method) (psk : Bytes) (epoch : Nat)

def serve : Recorder Watched Datagram Received :=
  fun watched call =>
    let (sessions, answer) :=
      decode crypto method psk (wholeSeconds epoch call.read) watched.sessions call
    ({ sessions, latest := call.recorded }, answer.toOption)

def Datagram.FindsLive (call : Datagram) (session : ServerSession) : Prop :=
  call.read < session.lastSeen + goodFor

instance (call : Datagram) (session : ServerSession) : Decidable (call.FindsLive session) :=
  inferInstanceAs (Decidable (_ < _))

structure Spares (sessions : Sessions) (call : Datagram) (opened : Opened) : Prop where
  atHome : ∀ entry ∈ sessions.toList, call.FindsLive entry.2 →
    entry.2.clientId = opened.packet.clientId → entry.2.key psk = opened.packet.key →
      entry.1 = call.source
  notReplaced : ∀ session ∈ sessions.lookup call.source, call.FindsLive session →
    session.isOf opened.packet.clientId opened.user = true
  notEvicted : ∀ entry ∈ victim call.pinned call.recorded (expireSource sessions call),
    ¬call.FindsLive entry.2

instance (sessions : Sessions) (call : Datagram) (opened : Opened) :
    Decidable (Spares psk sessions call opened) :=
  decidable_of_iff (_ ∧ _ ∧ _) ⟨fun ⟨home, replaced, evicted⟩ => ⟨home, replaced, evicted⟩,
      fun spares => ⟨spares.atHome, spares.notReplaced, spares.notEvicted⟩⟩

def SparesLive (watched : Watched) (call : Datagram) : Prop :=
  ∀ opened, openPacket crypto method psk (expireSource watched.sessions call) call = .ok opened →
    Spares psk watched.sessions call opened

instance (watched : Watched) (call : Datagram) :
    Decidable (SparesLive crypto method psk watched call) :=
  match opens : openPacket crypto method psk (expireSource watched.sessions call) call with
  | .error _ => .isTrue (fun _ is => by rw [opens] at is; cases is)
  | .ok opened =>
    decidable_of_iff (Spares psk watched.sessions call opened)
      ⟨fun spares _ is => by rw [opens] at is; cases is; exact spares,
        fun spares => spares opened opens⟩

variable {crypto method psk epoch} {watched : Watched} {call : Datagram} {received : Received}
  {rest : List Datagram}

theorem serve_taken (taken : (serve crypto method psk epoch watched call).2 = some received) :
    (decode crypto method psk (wholeSeconds epoch call.read) watched.sessions call).2 =
      .ok received := by
  unfold serve at taken
  dsimp only at taken
  cases answered :
      (decode crypto method psk (wholeSeconds epoch call.read) watched.sessions call).2 with
  | error message =>
    rw [answered] at taken
    cases taken
  | ok answer =>
    rw [answered] at taken
    cases taken
    rfl

/-! ### What a table knows -/

/-- A packet was seen by a session of the table, at `time` or before the session was last
seen. -/
def Sees (psk : Bytes) (sessions : Sessions) (packet : PacketName) (time : Nat) : Prop :=
  ∃ source session, sessions.lookup source = some session ∧ session.key psk = packet.key ∧
    session.clientId = packet.clientId ∧ session.window.Holds packet.packetId ∧
    time ≤ session.lastSeen

structure Serves (crypto : Crypto) (method : Method) (psk : Bytes) (epoch : Nat)
    (watched : Watched) (calls : List Datagram) : Prop where
  plain : Plain method watched.sessions
  past : ∀ source session, watched.sessions.lookup source = some session →
    session.lastSeen ≤ watched.latest
  ahead : ∀ call ∈ calls, watched.latest ≤ call.entered
  inTurn : InTurn calls
  permitted : (serve crypto method psk epoch).Permits (SparesLive crypto method psk) calls watched

theorem InTurn.tail (inTurn : InTurn (call :: rest)) : InTurn rest :=
  ⟨(List.forall_mem_cons.mp inTurn.entered).2,
    (List.forall_mem_cons.mp inTurn.recorded).2,
    (List.pairwise_cons.mp inTurn.inTurn).2⟩

/-- A session behind a call was there before it, or is the one that was given the packet. -/
theorem lookup_serve {source : SocketAddr} {session : ServerSession}
    (found : (serve crypto method psk epoch watched call).1.sessions.lookup source = some session) :
    watched.sessions.lookup source = some session ∨ ∃ received opened given,
        Accepts crypto method psk (wholeSeconds epoch call.read) watched.sessions call received
          opened given ∧ source = call.source ∧
        session = given.record opened.packet.packetId call.recorded := by
  change (decode crypto method psk (wholeSeconds epoch call.read) watched.sessions
    call).1.lookup source = some session at found
  cases answered :
      (decode crypto method psk (wholeSeconds epoch call.read) watched.sessions call).2 with
  | error message =>
    rcases decode_error answered with same | ⟨opened, _, same⟩
    · rw [same] at found
      exact .inl (within_expireSource source session found)
    · rw [same] at found
      exact .inl (within_expireSource source session (within_sessionFor source session found))
  | ok received =>
    obtain ⟨opened, given, accepts⟩ := decode_ok answered
    rw [accepts.sessions, KeyedMap.lookup_insert_ite] at found
    split at found
    · rename_i here
      exact .inr ⟨received, opened, given, accepts, here, (Option.some.inj found).symm⟩
    · exact .inl (within_expireSource source session (within_sessionFor source session found))

/-- The key and the client session of an accepted packet are those of the session it was
given to. -/
theorem Accepts.given {opened : Opened} {given : ServerSession}
    (accepts : Accepts crypto method psk (wholeSeconds epoch call.read) watched.sessions call
      received opened given) (plain : Plain method watched.sessions) :
    given.key psk = opened.packet.key ∧ given.clientId = opened.packet.clientId ∧
      (method = .chaCha20Poly1305 → given.clientAead = none) := by
  have plainLeft : Plain method (expireSource watched.sessions call) :=
    fun source session found => plain source session (within_expireSource source session found)
  rcases sessionFor_ok accepts.goesTo with ⟨found, isOf⟩ | ⟨unknown, sameId, sameAead⟩
  · have same : given.clientId = opened.packet.clientId ∧ given.user = opened.user :=
      of_decide_eq_true isOf
    exact ⟨(openPacket_known plainLeft accepts.opens found isOf).2, same.1,
      plainLeft call.source given found⟩
  · obtain ⟨isKey, isPlain⟩ := openPacket_fresh accepts.opens unknown
    unfold ServerSession.key
    rw [sameAead]
    exact ⟨isKey, sameId, isPlain⟩

theorem Serves.onward (serves : Serves crypto method psk epoch watched (call :: rest)) :
    Serves crypto method psk epoch (serve crypto method psk epoch watched call).1 rest := by
  have entered := serves.inTurn.entered call List.mem_cons_self
  have recorded := serves.inTurn.recorded call List.mem_cons_self
  have ahead := serves.ahead call List.mem_cons_self
  refine ⟨?_, ?_, ?_, serves.inTurn.tail, serves.permitted.2⟩
  · intro source session found
    rcases lookup_serve found with before | ⟨received, opened, given, accepts, _, is⟩
    · exact serves.plain source session before
    · rw [is]
      exact (accepts.given serves.plain).2.2
  · intro source session found
    change session.lastSeen ≤ call.recorded
    rcases lookup_serve found with before | ⟨received, opened, given, accepts, _, is⟩
    · have past := serves.past source session before
      omega
    · rw [is]
      exact Nat.le_refl call.recorded
  · intro later member
    exact List.rel_of_pairwise_cons serves.inTurn.inTurn member

/-- A live session stays where it is, and knows what it knew. -/
theorem Serves.keeps {source : SocketAddr} {session : ServerSession}
    (serves : Serves crypto method psk epoch watched (call :: rest))
    (found : watched.sessions.lookup source = some session)
    (live : call.recorded < session.lastSeen + goodFor) :
    ∃ later, (serve crypto method psk epoch watched call).1.sessions.lookup source = some later ∧
      later.clientAead = session.clientAead ∧ later.clientId = session.clientId ∧
      (∀ id, session.window.Holds id → later.window.Holds id) ∧
      session.lastSeen ≤ later.lastSeen := by
  have entered := serves.inTurn.entered call List.mem_cons_self
  have recorded := serves.inTurn.recorded call List.mem_cons_self
  have ahead := serves.ahead call List.mem_cons_self
  have past := serves.past source session found
  have short : goodFor ≤ serverSessionTtl := by decide
  have findsLive : call.FindsLive session := by
    unfold Datagram.FindsLive
    omega
  have left : (expireSource watched.sessions call).lookup source = some session :=
    lookup_expireSource found (by omega)
  have same : ∀ table : Sessions, table.lookup source = some session →
      ∃ later, table.lookup source = some later ∧ later.clientAead = session.clientAead ∧
        later.clientId = session.clientId ∧ (∀ id, session.window.Holds id → later.window.Holds id) ∧
        session.lastSeen ≤ later.lastSeen :=
    fun table there => ⟨session, there, rfl, rfl, fun _ holds => holds, Nat.le_refl _⟩
  have spared : ∀ opened,
      openPacket crypto method psk (expireSource watched.sessions call) call = .ok opened →
        (sessionFor crypto method psk (expireSource watched.sessions call) call
          opened).1.lookup source = some session := by
    intro opened opens
    refine lookup_sessionFor left (by omega) ?_
    intro isVictim
    exact (serves.permitted.1 opened opens).notEvicted _ isVictim findsLive
  change ∃ later, (decode crypto method psk (wholeSeconds epoch call.read) watched.sessions
    call).1.lookup source = some later ∧ _
  cases answered :
      (decode crypto method psk (wholeSeconds epoch call.read) watched.sessions call).2 with
  | error message =>
    rcases decode_error answered with unchanged | ⟨opened, opens, unchanged⟩
    · rw [unchanged]
      exact same _ left
    · rw [unchanged]
      exact same _ (spared opened opens)
  | ok received =>
    obtain ⟨opened, given, accepts⟩ := decode_ok answered
    rw [accepts.sessions]
    by_cases here : source = call.source
    · subst here
      have isOf := (serves.permitted.1 opened accepts.opens).notReplaced session found findsLive
      have known := known_of_isOf left isOf
      rcases sessionFor_ok accepts.goesTo with ⟨there, _⟩ | ⟨unknown, _⟩
      · rw [left] at there
        cases there
        refine ⟨_, AList.lookup_insert _, rfl, rfl, fun id holds => holds.add _, ?_⟩
        change session.lastSeen ≤ call.recorded
        omega
      · rw [known] at unknown
        cases unknown
    · rw [KeyedMap.lookup_insert_ite, if_neg here]
      exact same _ (spared opened accepts.opens)

theorem serve_remembers :
    (serve crypto method psk epoch).Remembers
      (fun entry : Datagram × Received => entry.2.packet) (fun entry => entry.1.recorded)
      Datagram.read goodFor (Serves crypto method psk epoch)
      (fun watched packet time =>
        time + goodFor ≤ watched.latest ∨ Sees psk watched.sessions packet time) where
  onward := Serves.onward
  ordered := by
    intro watched call rest serves later member
    have turn := List.rel_of_pairwise_cons serves.inTurn.inTurn member
    have recorded := serves.inTurn.recorded call List.mem_cons_self
    have entered := serves.inTurn.entered later (List.mem_cons_of_mem _ member)
    omega
  learns := by
    intro watched call rest received serves taken
    obtain ⟨opened, given, accepts⟩ := decode_ok (serve_taken taken)
    obtain ⟨isKey, sameId, _⟩ := accepts.given serves.plain
    refine .inr ⟨call.source, given.record opened.packet.packetId call.recorded, ?_, ?_, ?_, ?_, ?_⟩
    · change (decode crypto method psk (wholeSeconds epoch call.read) watched.sessions
        call).1.lookup call.source = _
      rw [accepts.sessions]
      exact AList.lookup_insert _
    · rw [accepts.packet]
      exact isKey
    · rw [accepts.packet]
      exact sameId
    · rw [accepts.packet]
      exact ReplayWindow.holds_add _ _
    · exact Nat.le_refl _
  keeps := by
    intro watched call rest packet time serves known early
    rcases Nat.lt_or_ge call.recorded (time + goodFor) with live | late
    · rcases known with past | ⟨source, session, found, isKey, sameId, holds, since⟩
      · have ahead := serves.ahead call List.mem_cons_self
        have entered := serves.inTurn.entered call List.mem_cons_self
        omega
      · obtain ⟨later, there, sameAead, laterId, carried, onward⟩ :=
          serves.keeps found (Nat.lt_of_lt_of_le live (Nat.add_le_add_right since _))
        refine .inr ⟨source, later, there, ?_, laterId.trans sameId, carried _ holds,
          Nat.le_trans since onward⟩
        rw [← isKey, ServerSession.key, ServerSession.key, sameAead]
    · exact .inl late
  refuses := by
    intro watched call rest packet time received serves known early taken same
    have entered := serves.inTurn.entered call List.mem_cons_self
    obtain ⟨opened, given, accepts⟩ := decode_ok (serve_taken taken)
    rw [accepts.packet] at same
    subst same
    rcases known with past | ⟨source, session, found, isKey, sameId, holds, since⟩
    · have ahead := serves.ahead call List.mem_cons_self
      omega
    · have live : call.FindsLive session := Nat.lt_of_lt_of_le early (Nat.add_le_add_right since _)
      have spares := serves.permitted.1 opened accepts.opens
      have home : source = call.source :=
        spares.atHome (source, session) (KeyedMap.mem_toList.mpr found) live sameId isKey
      subst home
      have isOf := spares.notReplaced session found live
      have short : goodFor ≤ serverSessionTtl := by decide
      have past := serves.past call.source session found
      have ahead := serves.ahead call List.mem_cons_self
      have left : (expireSource watched.sessions call).lookup call.source = some session := by
        exact lookup_expireSource found (by omega)
      have plainLeft : Plain method (expireSource watched.sessions call) :=
        fun source session there =>
          serves.plain source session (within_expireSource source session there)
      have new := (openPacket_known plainLeft accepts.opens left isOf).1
      rw [ReplayWindow.check_of_holds holds] at new
      cases new

/-- A packet is taken once while its timestamp is good. -/
theorem packet_taken_once {calls : List Datagram} (inTurn : InTurn calls)
    (permitted : (serve crypto method psk epoch).Permits (SparesLive crypto method psk) calls
      Watched.new) :
    ((serve crypto method psk epoch).accepted calls Watched.new).Pairwise
      (fun first last => first.2.packet = last.2.packet →
        first.2.timestamp ≠ last.2.timestamp) := by
  have nothing : ∀ source session, Watched.new.sessions.lookup source ≠ some session := by
    intro source session found
    cases found
  have serves : Serves crypto method psk epoch Watched.new calls :=
    ⟨fun source session found => absurd found (nothing source session),
      fun source session found => absurd found (nothing source session),
      fun call _ => Nat.zero_le _, inTurn, permitted⟩
  refine (serve_remembers.accepted_apart serves).imp_of_mem ?_
  intro first last firstMember lastMember apart same sameStamp
  have firstCalled := (serve crypto method psk epoch).mem_of_accepted firstMember
  obtain ⟨_, firstTaken⟩ := (serve crypto method psk epoch).taken_of_accepted firstMember
  obtain ⟨_, lastTaken⟩ := (serve crypto method psk epoch).taken_of_accepted lastMember
  obtain ⟨_, _, firstAccepts⟩ := decode_ok (serve_taken firstTaken)
  obtain ⟨_, _, lastAccepts⟩ := decode_ok (serve_taken lastTaken)
  have firstNear := firstAccepts.near
  have lastNear := lastAccepts.near
  have within : wholeSeconds epoch last.1.read + 0 ≤
      wholeSeconds epoch first.1.read + 2 * maxTimeDiff := by
    unfold absDiff at firstNear lastNear
    omega
  have readings := reading_lt within
  have remembered := apart same.symm
  have recorded := inTurn.recorded first.1 firstCalled
  unfold goodFor at remembered
  omega

end Runs

/-! ### A packet sent again from elsewhere -/

namespace ReplayExample

open SaltExample

def peer (last : UInt8) : SocketAddr :=
  .v4 ⟨[192, 0, 2, last], rfl⟩ 4000

theorem serverBytes_length : ([192, 0, 2, 1] : Bytes).length = 4 :=
  rfl

/-- The first packet of a client session, stamped for second 0, for port 53 of a server. -/
def firstPacket : Bytes :=
  u64Bytes 9 ++ u64Bytes 0 ++
    plainCrypto.aeadSeal [] [] (headerTypeClient :: (u64Bytes 0 ++ u16Bytes 0 ++
      (SocksAddr.ip (.v4 ⟨[192, 0, 2, 1], serverBytes_length⟩ 53)).writeBuf .portLast))

/-- The packet comes from an address, some seconds into the run. -/
def sentFrom (source : SocketAddr) (seconds : Nat) : Datagram :=
  { source, packet := firstPacket, users := none, shutOut := fun _ => false
    pinned := fun _ _ => false, entered := seconds * second, read := seconds * second
    recorded := seconds * second }

def server : Recorder Watched Datagram Received :=
  serve plainCrypto .aes128Gcm plainConfig.psk 0

theorem sent_inTurn (first last : SocketAddr) : InTurn [sentFrom first 0, sentFrom last 1] := by
  refine ⟨?_, ?_, ?_⟩
  · intro call member
    simp only [List.mem_cons, List.not_mem_nil, or_false] at member
    rcases member with rfl | rfl <;> exact Nat.le_refl _
  · intro call member
    simp only [List.mem_cons, List.not_mem_nil, or_false] at member
    rcases member with rfl | rfl <;> exact Nat.le_refl _
  · rw [List.pairwise_pair]
    exact Nat.mul_le_mul_right second (Nat.zero_le 1)

end ReplayExample

open ReplayExample SaltExample

theorem packet_taken_again : InTurn [sentFrom (peer 10) 0, sentFrom (peer 11) 1] ∧
      (server.accepted [sentFrom (peer 10) 0, sentFrom (peer 11) 1] Watched.new).map
        (fun entry => (entry.2.packet, entry.2.timestamp)) =
          [({ key := plainConfig.psk, clientId := 9, packetId := 0 }, 0),
            ({ key := plainConfig.psk, clientId := 9, packetId := 0 }, 0)] :=
  ⟨sent_inTurn _ _, by decide +kernel⟩

theorem packet_taken_once_from_home :
    (server.accepted [sentFrom (peer 10) 0, sentFrom (peer 10) 1] Watched.new).map
        (fun entry => (entry.2.packet, entry.2.timestamp)) =
          [({ key := plainConfig.psk, clientId := 9, packetId := 0 }, 0)] ∧
      (server.accepted [sentFrom (peer 10) 0, sentFrom (peer 10) 1] Watched.new).Pairwise
        (fun first last => first.2.packet = last.2.packet →
          first.2.timestamp ≠ last.2.timestamp) :=
  ⟨by decide +kernel, packet_taken_once (sent_inTurn _ _) (by decide +kernel)⟩

end Sail.Protocol.Shadowsocks.Sip022
