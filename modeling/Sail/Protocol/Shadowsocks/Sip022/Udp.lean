/-
The server side of Shadowsocks 2022 UDP, after `protocol/shadowsocks/sip022/udp.rs`.

A server keeps one session per source address, with the replay window of its packets.
Which sessions are pinned by leases is given with each call, once for each look at it.
-/

import Sail.Lib.KeyedMap
import Sail.Protocol.Shadowsocks.Sip022.ReplayWindow
import Sail.Protocol.Shadowsocks.Sip022.Request

namespace Sail.Protocol.Shadowsocks.Sip022

open Bytes Session

def nonceLen : Nat := 24

def separateHeaderLen : Nat := 16

def maxServerSessions : Nat := 16 * 1024

def serverSessionTtl : Nat := 300 * second

structure ServerSession where
  clientId : Nat
  user : Option Bytes
  name : Option String
  /-- Opens the client's packets (AES methods). -/
  clientAead : Option Bytes
  window : ReplayWindow
  lastSeen : Nat
deriving DecidableEq

abbrev Sessions := KeyedMap SocketAddr ServerSession

structure PacketName where
  key : Bytes
  clientId : Nat
  packetId : Nat
deriving DecidableEq

structure Opened where
  packet : PacketName
  user : Option Bytes
  newAead : Option Bytes
  body : Bytes
deriving DecidableEq

structure Received where
  packet : PacketName
  timestamp : Nat
  destination : SocksAddr
  payload : Bytes
  user : Option String
deriving DecidableEq

inductive Glance where
  | expiring
  | replacing
  | retaining
  | evicting
deriving DecidableEq

/-- A call of the server's decoder. The clock is read for the idle time, for the timestamp
and for the session, in that order. -/
structure Datagram where
  source : SocketAddr
  packet : Bytes
  users : Option Users
  shutOut : Option String → Bool
  pinned : Glance → SocketAddr → Bool
  entered : Nat
  read : Nat
  recorded : Nat

def Datagram.eihLen (call : Datagram) : Nat :=
  if call.users.isSome then Sip022.eihLen else 0

def parseTail (body : Bytes) : Except String (SocksAddr × Nat) := do
  if body.length < 2 then throw "short packet"
  let padding := u16At body 0
  let start := 2 + padding
  if maxPadding < padding ∨ body.length < start then throw "bad padding"
  let addr ← SocksAddr.tryFromBytes (body.drop start) .portLast
  return (addr, start + addr.size)

def readBody (body : Bytes) (now : Nat) : Except String (Nat × SocksAddr × Bytes) := do
  if body.length < 1 + 8 then throw "short packet"
  if byteAt body 0 ≠ headerTypeClient then throw "bad header type"
  let timestamp := u64At body 1
  checkTimestamp now timestamp
  let (destination, offset) ← parseTail (body.drop 9)
  return (timestamp, destination, body.drop (9 + offset))

def oldest (pinned : SocketAddr → Bool) :
    List (SocketAddr × ServerSession) → Option (SocketAddr × ServerSession)
  | [] => none
  | entry :: rest =>
    if pinned entry.1 then oldest pinned rest
    else
      match oldest pinned rest with
      | none => some entry
      | some other => if other.2.lastSeen < entry.2.lastSeen then some other else some entry

def dropIdle (pinned : Glance → SocketAddr → Bool) (now : Nat) (sessions : Sessions) : Sessions :=
  KeyedMap.retain (fun source session =>
    pinned .retaining source || decide (now - session.lastSeen < serverSessionTtl)) sessions

/-- Makes room for one more session: drops idle ones, and if the table is still full, the
least recently used one that is not pinned. -/
def makeRoom (pinned : Glance → SocketAddr → Bool) (now : Nat) (sessions : Sessions) :
    Sessions × Except String Unit :=
  if sessions.size < maxServerSessions then (sessions, .ok ())
  else
    let sessions := dropIdle pinned now sessions
    if maxServerSessions ≤ sessions.size then
      match oldest (pinned .evicting) sessions.toList with
      | none => (sessions, .error "udp session table in use")
      | some entry => (sessions.erase entry.1, .ok ())
    else (sessions, .ok ())

section Decode

variable (crypto : Crypto) (method : Method) (psk : Bytes)

def userPsk (users : Option Users) (shutOut : Option String → Bool) (user : Option Bytes) :
    Except String Bytes :=
  match user, users with
  | none, _ => .ok psk
  | some hash, some users =>
    match (users.find crypto hash).filter (fun user => !shutOut user.name) with
    | none => .error cryptoErr
    | some user => .ok user.psk
  | some _, none => .error cryptoErr

def ServerSession.isOf (session : ServerSession) (clientId : Nat) (user : Option Bytes) : Bool :=
  session.clientId = clientId ∧ session.user = user

def openXChaCha (sessions : Sessions) (call : Datagram) : Except String Opened := do
  if call.packet.length < nonceLen + separateHeaderLen + tagLen then throw "short packet"
  match crypto.xchachaOpen psk (call.packet.take nonceLen) (call.packet.drop nonceLen) with
  | none => throw cryptoErr
  | some plain =>
    let id := u64At plain 0
    let packetId := u64At plain 8
    let known := (sessions.lookup call.source).filter (fun session => session.clientId = id)
    if known.any (fun session => !session.window.check packetId) then throw "repeated packet"
    return { packet := { key := psk, clientId := id, packetId }, user := none
             newAead := none, body := plain.drop separateHeaderLen }

/-- The AES methods: the separate header is one block under the PSK, and the body is sealed
under the session's subkey. -/
def openAes (sessions : Sessions) (call : Datagram) : Except String Opened := do
  if call.packet.length < separateHeaderLen + call.eihLen + tagLen then throw "short packet"
  let header := crypto.decryptBlock psk (call.packet.take separateHeaderLen)
  let id := u64At header 0
  let packetId := u64At header 8
  let user := call.users.map (fun _ =>
    List.zipWith (· ^^^ ·)
      (crypto.decryptBlock psk (slice call.packet separateHeaderLen (separateHeaderLen + eihLen)))
      header)
  let nonce := slice header 4 separateHeaderLen
  let rest := call.packet.drop (separateHeaderLen + call.eihLen)
  match (sessions.lookup call.source).filter (fun session => session.isOf id user) with
  | some session =>
    if !session.window.check packetId then throw "repeated packet"
    match session.clientAead with
    | none => throw cryptoErr
    | some key =>
      match crypto.aeadOpen key nonce rest with
      | none => throw cryptoErr
      | some body =>
        return { packet := { key, clientId := id, packetId }
                 user, newAead := none, body }
  | none =>
    let psk ← userPsk crypto psk call.users call.shutOut user
    let key := crypto.sessionSubkey psk (u64Bytes id)
    match crypto.aeadOpen key nonce rest with
    | none => throw cryptoErr
    | some body =>
      return { packet := { key, clientId := id, packetId }
               user, newAead := some key, body }

def openPacket (sessions : Sessions) (call : Datagram) : Except String Opened :=
  if method = .chaCha20Poly1305 then openXChaCha crypto psk sessions call
  else openAes crypto psk sessions call

def newSession (call : Datagram) (opened : Opened) : Except String ServerSession := do
  if method ≠ .chaCha20Poly1305 then
    let _ ← userPsk crypto psk call.users call.shutOut opened.user
  return { clientId := opened.packet.clientId, user := opened.user
           name := (opened.user.bind (fun hash => call.users.bind (·.find crypto hash))).bind
             User.name
           clientAead := opened.newAead, window := ReplayWindow.new, lastSeen := call.recorded }

/-- The session a packet goes to, started if it is the first of a new one from its source. -/
def sessionFor (sessions : Sessions) (call : Datagram) (opened : Opened) :
    Sessions × Except String ServerSession :=
  match (sessions.lookup call.source).filter
      (fun session => session.isOf opened.packet.clientId opened.user) with
  | some session => (sessions, .ok session)
  | none =>
    if (sessions.lookup call.source).isSome ∧ call.pinned .replacing call.source then
      (sessions, .error "previous udp session still in use")
    else
      match newSession crypto method psk call opened with
      | .error message => (sessions, .error message)
      | .ok session =>
        if (sessions.lookup call.source).isSome then (sessions, .ok session)
        else
          let (sessions, made) := makeRoom call.pinned call.recorded sessions
          (sessions, made.map (fun _ => session))

def expireSource (sessions : Sessions) (call : Datagram) : Sessions :=
  match sessions.lookup call.source with
  | none => sessions
  | some session =>
    if !call.pinned .expiring call.source ∧ serverSessionTtl ≤ call.entered - session.lastSeen then
      sessions.erase call.source
    else sessions

def ServerSession.record (session : ServerSession) (packetId now : Nat) : ServerSession :=
  { session with window := session.window.add packetId, lastSeen := now }

def decode (now : Nat) (sessions : Sessions) (call : Datagram) :
    Sessions × Except String Received :=
  let sessions := expireSource sessions call
  match openPacket crypto method psk sessions call with
  | .error message => (sessions, .error message)
  | .ok opened =>
    match readBody opened.body now with
    | .error message => (sessions, .error message)
    | .ok (timestamp, destination, payload) =>
      match sessionFor crypto method psk sessions call opened with
      | (sessions, .error message) => (sessions, .error message)
      | (sessions, .ok session) =>
        (sessions.insert call.source (session.record opened.packet.packetId call.recorded),
          .ok { packet := opened.packet, timestamp, destination
                payload, user := session.name })

end Decode

/-! ### Which sessions a call forgets -/

def victim (pinned : Glance → SocketAddr → Bool) (now : Nat) (sessions : Sessions) :
    Option (SocketAddr × ServerSession) :=
  if maxServerSessions ≤ sessions.size ∧ maxServerSessions ≤ (dropIdle pinned now sessions).size then
    oldest (pinned .evicting) (dropIdle pinned now sessions).toList
  else none

def Within (after before : Sessions) : Prop :=
  ∀ source session, after.lookup source = some session → before.lookup source = some session

variable {pinned : Glance → SocketAddr → Bool} {now : Nat} {sessions : Sessions}
  {source : SocketAddr} {session : ServerSession} {call : Datagram}

theorem within_erase (sessions : Sessions) (source : SocketAddr) :
    Within (sessions.erase source) sessions :=
  fun _ _ found => KeyedMap.lookup_of_erase found

theorem within_dropIdle : Within (dropIdle pinned now sessions) sessions :=
  fun _ _ found => (KeyedMap.lookup_retain.mp found).1

theorem oldest_mem {pinned : SocketAddr → Bool} {entries : List (SocketAddr × ServerSession)}
    {entry : SocketAddr × ServerSession} (chosen : oldest pinned entries = some entry) :
    entry ∈ entries := by
  induction entries with
  | nil => cases chosen
  | cons head rest ih =>
    unfold oldest at chosen
    split at chosen
    · exact List.mem_cons_of_mem _ (ih chosen)
    · cases others : oldest pinned rest with
      | none =>
        rw [others] at chosen
        cases chosen
        exact List.mem_cons_self
      | some other =>
        rw [others] at chosen ih
        dsimp only at chosen
        split at chosen
        · exact List.mem_cons_of_mem _ (ih chosen)
        · cases chosen
          exact List.mem_cons_self

theorem within_makeRoom : Within (makeRoom pinned now sessions).1 sessions := by
  intro source session found
  unfold makeRoom at found
  dsimp only at found
  split at found
  · exact found
  · split at found
    · split at found
      · exact within_dropIdle source session found
      · exact within_dropIdle source session (within_erase _ _ source session found)
    · exact within_dropIdle source session found

/-- A session that is neither idle nor the one evicted stays. -/
theorem lookup_makeRoom (found : sessions.lookup source = some session)
    (busy : now - session.lastSeen < serverSessionTtl)
    (spared : victim pinned now sessions ≠ some (source, session)) :
    (makeRoom pinned now sessions).1.lookup source = some session := by
  have kept : (dropIdle pinned now sessions).lookup source = some session :=
    KeyedMap.lookup_retain.mpr ⟨found, by rw [decide_eq_true busy, Bool.or_true]⟩
  unfold makeRoom
  dsimp only
  split
  · exact found
  · rename_i full
    split
    · rename_i stillFull
      unfold victim at spared
      rw [if_pos ⟨Nat.le_of_not_lt full, stillFull⟩] at spared
      split
      · exact kept
      · rename_i entry chosen
        rw [chosen] at spared
        rw [KeyedMap.lookup_erase_ite, if_neg ?_]
        · exact kept
        · intro same
          have there := KeyedMap.mem_toList.mp (oldest_mem chosen)
          rw [← same, kept] at there
          apply spared
          rw [Option.some.inj there, same]
    · exact kept

theorem within_expireSource : Within (expireSource sessions call) sessions := by
  intro source session found
  unfold expireSource at found
  split at found
  · exact found
  · split at found
    · exact within_erase _ _ source session found
    · exact found

theorem lookup_expireSource (found : sessions.lookup source = some session)
    (busy : call.entered - session.lastSeen < serverSessionTtl) :
    (expireSource sessions call).lookup source = some session := by
  unfold expireSource
  split
  · exact found
  · rename_i other there
    split
    · rename_i expired
      rw [KeyedMap.lookup_erase_ite, if_neg ?_]
      · exact found
      · intro same
        rw [← same, found] at there
        cases there
        exact absurd expired.2 (Nat.not_le.mpr busy)
    · exact found

/-! ### What an accepted packet was -/

section Accepted

variable {crypto : Crypto} {method : Method} {psk : Bytes} {opened : Opened} {received : Received}

def ServerSession.key (psk : Bytes) (session : ServerSession) : Bytes :=
  session.clientAead.getD psk

def Plain (method : Method) (sessions : Sessions) : Prop :=
  ∀ source session, sessions.lookup source = some session →
    method = .chaCha20Poly1305 → session.clientAead = none

theorem known_of_isOf {clientId : Nat} {user : Option Bytes}
    (found : sessions.lookup source = some session) (isOf : session.isOf clientId user = true) :
    (sessions.lookup source).filter (fun session => session.isOf clientId user) = some session :=
  Option.filter_eq_some_iff.mpr ⟨found, isOf⟩

theorem openXChaCha_ok (succeeded : openXChaCha crypto psk sessions call = .ok opened) :
    opened.packet.key = psk ∧ opened.newAead = none ∧
      ∀ session, sessions.lookup call.source = some session →
        session.clientId = opened.packet.clientId →
          session.window.check opened.packet.packetId = true := by
  unfold openXChaCha at succeeded
  obtain ⟨_, succeeded⟩ := check_eq_ok.mp succeeded
  split at succeeded
  · cases succeeded
  · obtain ⟨new, succeeded⟩ := check_eq_ok.mp succeeded
    cases succeeded
    refine ⟨rfl, rfl, ?_⟩
    intro session found same
    simpa [found, Option.filter, same] using new

theorem openAes_ok (succeeded : openAes crypto psk sessions call = .ok opened) :
    (∃ session, sessions.lookup call.source = some session ∧
        session.isOf opened.packet.clientId opened.user = true ∧
        session.window.check opened.packet.packetId = true ∧
        session.clientAead = some opened.packet.key ∧ opened.newAead = none) ∨
      ((sessions.lookup call.source).filter
          (fun session => session.isOf opened.packet.clientId opened.user) = none ∧
        opened.newAead = some opened.packet.key) := by
  unfold openAes at succeeded
  obtain ⟨_, succeeded⟩ := check_eq_ok.mp succeeded
  dsimp only at succeeded
  split at succeeded
  · rename_i session known
    obtain ⟨found, isOf⟩ := Option.filter_eq_some_iff.mp known
    obtain ⟨new, succeeded⟩ := check_eq_ok.mp succeeded
    split at succeeded
    · cases succeeded
    · rename_i key isKey
      split at succeeded
      · cases succeeded
      · cases succeeded
        exact .inl ⟨session, found, isOf, by simpa using new, isKey, rfl⟩
  · rename_i unknown
    obtain ⟨psk, _, succeeded⟩ := bind_eq_ok.mp succeeded
    split at succeeded
    · cases succeeded
    · cases succeeded
      exact .inr ⟨unknown, rfl⟩

/-- A packet of the session at its source is new to that session's window, and sealed under
that session's key. -/
theorem openPacket_known (plain : Plain method sessions)
    (succeeded : openPacket crypto method psk sessions call = .ok opened)
    (found : sessions.lookup call.source = some session)
    (isOf : session.isOf opened.packet.clientId opened.user = true) :
    session.window.check opened.packet.packetId = true ∧ session.key psk = opened.packet.key := by
  unfold openPacket at succeeded
  split at succeeded
  · rename_i isPlain
    obtain ⟨isKey, _, new⟩ := openXChaCha_ok succeeded
    refine ⟨new session found (of_decide_eq_true isOf).1, ?_⟩
    unfold ServerSession.key
    rw [plain _ _ found isPlain, isKey]
    rfl
  · rcases openAes_ok succeeded with ⟨other, there, _, new, isKey, _⟩ | ⟨unknown, _⟩
    · rw [found] at there
      cases there
      unfold ServerSession.key
      rw [isKey]
      exact ⟨new, rfl⟩
    · rw [known_of_isOf found isOf] at unknown
      cases unknown

/-- What a packet of a new session was sealed under is kept with it. -/
theorem openPacket_fresh (succeeded : openPacket crypto method psk sessions call = .ok opened)
    (unknown : (sessions.lookup call.source).filter
      (fun session => session.isOf opened.packet.clientId opened.user) = none) :
    opened.newAead.getD psk = opened.packet.key ∧
      (method = .chaCha20Poly1305 → opened.newAead = none) := by
  unfold openPacket at succeeded
  split at succeeded
  · obtain ⟨isKey, none, _⟩ := openXChaCha_ok succeeded
    rw [none, isKey]
    exact ⟨rfl, fun _ => rfl⟩
  · rename_i aes
    rcases openAes_ok succeeded with ⟨session, found, isOf, _⟩ | ⟨_, isKey⟩
    · rw [known_of_isOf found isOf] at unknown
      cases unknown
    · rw [isKey]
      exact ⟨rfl, fun plain => absurd plain aes⟩

theorem newSession_ok (succeeded : newSession crypto method psk call opened = .ok session) :
    session.clientId = opened.packet.clientId ∧ session.clientAead = opened.newAead ∧
      session.lastSeen = call.recorded := by
  unfold newSession at succeeded
  split at succeeded
  · obtain ⟨_, _, succeeded⟩ := bind_eq_ok.mp succeeded
    cases succeeded
    exact ⟨rfl, rfl, rfl⟩
  · cases succeeded
    exact ⟨rfl, rfl, rfl⟩

theorem within_sessionFor :
    Within (sessionFor crypto method psk sessions call opened).1 sessions := by
  intro source session found
  unfold sessionFor at found
  split at found
  · exact found
  · split at found
    · exact found
    · split at found
      · exact found
      · split at found
        · exact found
        · exact within_makeRoom source session found

theorem lookup_sessionFor (found : sessions.lookup source = some session)
    (busy : call.recorded - session.lastSeen < serverSessionTtl)
    (spared : victim call.pinned call.recorded sessions ≠ some (source, session)) :
    (sessionFor crypto method psk sessions call opened).1.lookup source = some session := by
  unfold sessionFor
  split
  · exact found
  · split
    · exact found
    · split
      · exact found
      · split
        · exact found
        · exact lookup_makeRoom found busy spared

/-- The session a packet goes to is the one at its source, or a new one. -/
theorem sessionFor_ok
    (succeeded : (sessionFor crypto method psk sessions call opened).2 = .ok session) :
    (sessions.lookup call.source = some session ∧
        session.isOf opened.packet.clientId opened.user = true) ∨
      ((sessions.lookup call.source).filter
          (fun session => session.isOf opened.packet.clientId opened.user) = none ∧
        session.clientId = opened.packet.clientId ∧ session.clientAead = opened.newAead) := by
  unfold sessionFor at succeeded
  split at succeeded
  · rename_i known isKnown
    cases succeeded
    exact .inl (Option.filter_eq_some_iff.mp isKnown)
  · rename_i unknown
    split at succeeded
    · cases succeeded
    · split at succeeded
      · cases succeeded
      · rename_i made isNew
        obtain ⟨sameId, sameAead, _⟩ := newSession_ok isNew
        split at succeeded
        · cases succeeded
          exact .inr ⟨unknown, sameId, sameAead⟩
        · dsimp only at succeeded
          cases room : (makeRoom call.pinned call.recorded sessions).2 with
          | error message =>
            rw [room] at succeeded
            cases succeeded
          | ok made =>
            rw [room] at succeeded
            cases succeeded
            exact .inr ⟨unknown, sameId, sameAead⟩

theorem readBody_ok {body payload : Bytes} {timestamp : Nat} {destination : SocksAddr}
    (succeeded : readBody body now = .ok (timestamp, destination, payload)) :
    absDiff now timestamp ≤ maxTimeDiff := by
  unfold readBody at succeeded
  obtain ⟨_, succeeded⟩ := check_eq_ok.mp succeeded
  obtain ⟨_, succeeded⟩ := check_eq_ok.mp succeeded
  obtain ⟨_, checked, succeeded⟩ := bind_eq_ok.mp succeeded
  obtain ⟨tail, _, succeeded⟩ := bind_eq_ok.mp succeeded
  cases succeeded
  unfold checkTimestamp at checked
  split at checked
  · cases checked
  · rename_i near
    exact Nat.le_of_not_lt near

structure Accepts (crypto : Crypto) (method : Method) (psk : Bytes) (now : Nat)
    (sessions : Sessions) (call : Datagram) (received : Received) (opened : Opened)
    (session : ServerSession) : Prop where
  opens : openPacket crypto method psk (expireSource sessions call) call = .ok opened
  goesTo : (sessionFor crypto method psk (expireSource sessions call) call opened).2 = .ok session
  near : absDiff now received.timestamp ≤ maxTimeDiff
  packet : received.packet = opened.packet
  sessions : (decode crypto method psk now sessions call).1 =
    (sessionFor crypto method psk (expireSource sessions call) call opened).1.insert call.source
      (session.record opened.packet.packetId call.recorded)

theorem decode_ok (succeeded : (decode crypto method psk now sessions call).2 = .ok received) :
    ∃ opened session, Accepts crypto method psk now sessions call received opened session := by
  have after : (decode crypto method psk now sessions call).1 =
      (decode crypto method psk now sessions call).1 := rfl
  unfold decode at succeeded
  conv at after =>
    rhs
    unfold decode
  dsimp only at succeeded after
  cases isOpened : openPacket crypto method psk (expireSource sessions call) call with
  | error message =>
    rw [isOpened] at succeeded
    cases succeeded
  | ok opened =>
    rw [isOpened] at succeeded after
    dsimp only at succeeded after
    cases isRead : readBody opened.body now with
    | error message =>
      rw [isRead] at succeeded
      cases succeeded
    | ok parts =>
      obtain ⟨timestamp, destination, payload⟩ := parts
      rw [isRead] at succeeded after
      cases isFor : sessionFor crypto method psk (expireSource sessions call) call opened with
      | mk left answer =>
        rw [isFor] at succeeded after
        cases answer with
        | error message => cases succeeded
        | ok session =>
          cases succeeded
          exact ⟨opened, session, isOpened, by rw [isFor], readBody_ok isRead, rfl,
            by rw [after, isFor]⟩

/-- A call that accepts nothing only forgets sessions. -/
theorem decode_error {message : String}
    (failed : (decode crypto method psk now sessions call).2 = .error message) :
    (decode crypto method psk now sessions call).1 = expireSource sessions call ∨
      ∃ opened, openPacket crypto method psk (expireSource sessions call) call = .ok opened ∧
        (decode crypto method psk now sessions call).1 =
          (sessionFor crypto method psk (expireSource sessions call) call opened).1 := by
  unfold decode at failed ⊢
  dsimp only at failed ⊢
  cases isOpened : openPacket crypto method psk (expireSource sessions call) call with
  | error message => exact .inl rfl
  | ok opened =>
    rw [isOpened] at failed
    dsimp only at failed ⊢
    cases isRead : readBody opened.body now with
    | error message => exact .inl rfl
    | ok parts =>
      obtain ⟨timestamp, destination, payload⟩ := parts
      rw [isRead] at failed
      refine .inr ⟨opened, rfl, ?_⟩
      cases isFor : sessionFor crypto method psk (expireSource sessions call) call opened with
      | mk left answer =>
        rw [isFor] at failed
        cases answer with
        | error message => rfl
        | ok session => cases failed

end Accepted

end Sail.Protocol.Shadowsocks.Sip022
