/-
The request a server reads, after `protocol/shadowsocks/sip022/stream.rs`.

A request is: salt, an identity header when the server has users, the sealed fixed-length
header and the sealed variable-length header. The salt is recorded once the fixed-length
header has been opened and its timestamp checked.
-/

import Sail.Lib.Fallible
import Sail.Protocol.Shadowsocks.Sip022.SaltPool
import Sail.Session.SocksAddr

namespace Sail.Protocol.Shadowsocks.Sip022

open Bytes Session

def requestFixedLen : Nat := 1 + 8 + 2

structure ServerConfig where
  method : Method
  psk : Bytes
  users : Option Users
  shutOut : Option String → Bool

namespace ServerConfig

def eihLen (config : ServerConfig) : Nat :=
  if config.users.isSome then Sip022.eihLen else 0

def headLen (config : ServerConfig) : Nat :=
  config.method.keyLen + config.eihLen + (requestFixedLen + tagLen)

end ServerConfig

structure Head where
  psk : Bytes
  user : Option String
  salt : Bytes
  dec : ChunkAead
  timestamp : Nat
  variableLen : Nat
deriving DecidableEq

structure Request where
  psk : Bytes
  salt : Bytes
  dec : ChunkAead
  destination : SocksAddr
  user : Option String
  payload : Bytes
deriving DecidableEq

section Read

variable (crypto : Crypto) (config : ServerConfig)

def requestKey (salt eih : Bytes) : Except String (Bytes × Option String) :=
  match config.users with
  | none => .ok (config.psk, none)
  | some users =>
    let hash := crypto.decryptBlock (crypto.identitySubkey config.psk salt) eih
    match (users.find crypto hash).filter (fun user => !config.shutOut user.name) with
    | none => .error "unknown user"
    | some user => .ok (user.psk, user.name)

/-- Opens the fixed-length header at the end of `bytes`, which are `headLen` long. -/
def readHead (bytes : Bytes) : Except String Head := do
  let keyLen := config.method.keyLen
  let salt := bytes.take keyLen
  let (psk, user) ← requestKey crypto config salt (slice bytes keyLen (keyLen + config.eihLen))
  let dec := ChunkAead.new (crypto.sessionSubkey psk salt)
  let (fixed, dec) ← dec.openNext crypto (bytes.drop (keyLen + config.eihLen))
  if byteAt fixed 0 ≠ headerTypeClient then throw "bad header type"
  return { psk, user, salt, dec, timestamp := u64At fixed 1
           variableLen := u16At fixed 9 }

/-- Opens the fixed-length header, checks its timestamp and records the salt. The wall clock
shows `now`, and the salt is checked with the instant `instant`. -/
def checkHead (pool : SaltPool) (bytes : Bytes) (now instant : Nat) :
    SaltPool × Except String Head :=
  match readHead crypto config bytes with
  | .error message => (pool, .error message)
  | .ok head =>
    match checkTimestamp now head.timestamp with
    | .error message => (pool, .error message)
    | .ok () =>
      let (pool, checked) := pool.checkAndInsertAt head.salt instant saltPoolCap
      (pool, checked.map (fun _ => head))

def readVariable (head : Head) (bytes : Bytes) : Except String Request := do
  let (variable_, dec) ← head.dec.openNext crypto bytes
  let destination ← SocksAddr.tryFromBytes variable_ .portLast
  let rest := variable_.drop destination.size
  if rest.length < 2 then throw "short request header"
  let padding := u16At rest 0
  let rest := rest.drop 2
  if maxPadding < padding ∨ rest.length < padding then throw "bad padding"
  let payload := rest.drop padding
  if padding = 0 ∧ payload.isEmpty then throw "request without padding or payload"
  return { psk := head.psk, salt := head.salt, dec, destination
           user := head.user, payload }

end Read

/-! ### What a check of the salt comes to -/

section Check

variable {crypto : Crypto} {config : ServerConfig} {pool : SaltPool} {bytes : Bytes}
  {now instant : Nat} {head : Head}

theorem checkTimestamp_ok {timestamp : Nat} (good : checkTimestamp now timestamp = .ok ()) :
    absDiff now timestamp ≤ maxTimeDiff := by
  unfold checkTimestamp at good
  split at good
  · cases good
  · rename_i near
    exact Nat.le_of_not_lt near

/-- A salt that passes was opened, came in time and was new. -/
theorem checkHead_ok (passed : (checkHead crypto config pool bytes now instant).2 = .ok head) :
    readHead crypto config bytes = .ok head ∧ absDiff now head.timestamp ≤ maxTimeDiff ∧
      (pool.checkAndInsertAt head.salt instant saltPoolCap).2 = .ok () ∧
      (checkHead crypto config pool bytes now instant).1 =
        (pool.checkAndInsertAt head.salt instant saltPoolCap).1 := by
  unfold checkHead at passed ⊢
  cases read : readHead crypto config bytes with
  | error message =>
    rw [read] at passed
    cases passed
  | ok opened =>
    rw [read] at passed
    dsimp only at passed ⊢
    cases stamped : checkTimestamp now opened.timestamp with
    | error message =>
      rw [stamped] at passed
      cases passed
    | ok _ =>
      rw [stamped] at passed
      dsimp only at passed ⊢
      cases outcome : (pool.checkAndInsertAt opened.salt instant saltPoolCap).2 with
      | error message =>
        rw [outcome] at passed
        cases passed
      | ok _ =>
        rw [outcome] at passed
        cases passed
        exact ⟨rfl, checkTimestamp_ok stamped, outcome, rfl⟩

/-- Whatever becomes of a request, the pool is as it was, or its salt was checked. -/
theorem checkHead_pool (crypto : Crypto) (config : ServerConfig) (pool : SaltPool) (bytes : Bytes)
    (now instant : Nat) :
    (checkHead crypto config pool bytes now instant).1 = pool ∨
      ∃ salt, (checkHead crypto config pool bytes now instant).1 =
        (pool.checkAndInsertAt salt instant saltPoolCap).1 := by
  unfold checkHead
  cases readHead crypto config bytes with
  | error message => exact .inl rfl
  | ok opened =>
    dsimp only
    cases checkTimestamp now opened.timestamp with
    | error message => exact .inl rfl
    | ok _ => exact .inr ⟨opened.salt, rfl⟩

end Check

end Sail.Protocol.Shadowsocks.Sip022
