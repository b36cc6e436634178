/-
What is kept of a user while it runs, and what is done to it.

A call is a row of steps: each lock section and each atomic operation is one, and
between them other threads may take theirs. Whether a connection or a carrier was
told to close is kept with it. Rates, events and the registry are left out.
-/

import Mathlib
import Sail.Lib.Interleaving

namespace Sail.User

def maxU64 : Nat := 2 ^ 64 - 1

structure Limits where
  maxConnections : Option Nat
  maxTcpConnections : Option Nat
  quotaBytes : Option Nat
  expireAt : Option Nat
deriving DecidableEq

def Limits.default : Limits :=
  { maxConnections := none, maxTcpConnections := none, quotaBytes := none, expireAt := none }

structure Status where
  exhausted : Bool
  expired : Bool
deriving DecidableEq

namespace Status

def none : Status :=
  { exhausted := false, expired := false }

def exhaustedBit : Status :=
  { exhausted := true, expired := false }

def expiredBit : Status :=
  { exhausted := false, expired := true }

def set (status bits : Status) : Status :=
  { exhausted := status.exhausted || bits.exhausted, expired := status.expired || bits.expired }

def clear (status bits : Status) : Status :=
  { exhausted := status.exhausted && !bits.exhausted, expired := status.expired && !bits.expired }

end Status

structure Live where
  inboundTag : String
  tcp : Bool
  told : Bool
deriving DecidableEq

structure Carrier where
  inboundTag : String
  told : Bool
deriving DecidableEq

structure UserState where
  up : Nat
  down : Nat
  limits : Limits
  quotaAt : Nat
  quotaBase : Nat
  status : Status
  live : KeyedMap Nat Live
  carriers : KeyedMap Nat Carrier
  nextCarrier : Nat
  removed : Finset String

namespace UserState

def new (up down : Nat) : UserState :=
  { up
    down
    limits := .default
    quotaAt := maxU64
    quotaBase := 0
    status := .none
    live := ∅
    carriers := ∅
    nextCarrier := 0
    removed := ∅ }

def active (user : UserState) : Bool :=
  user.status = .none

def tcpLive (user : UserState) : Nat :=
  (user.live.toList.filter (fun entry => entry.2.tcp)).length

def hasRoom (user : UserState) (limits : Limits) (tcp : Bool) : Bool :=
  user.active && !limits.maxConnections.any (fun max => max ≤ user.live.size) &&
    !(tcp && limits.maxTcpConnections.any (fun max => max ≤ user.tcpLive))

def admitLive (user : UserState) (id : Nat) (tag : String) (tcp : Bool) (limits : Limits) :
    UserState :=
  if user.hasRoom limits tcp then
    { user with live := user.live.insert id { inboundTag := tag, tcp, told := false } }
  else user

def disconnectLive (user : UserState) (inbound : Option String) : UserState :=
  { user with
    live := KeyedMap.mapValues
      (fun live =>
        if inbound.all (fun tag => live.inboundTag = tag) then { live with told := true } else live)
      user.live }

def disconnectCarriers (user : UserState) (inbound : Option String) : UserState :=
  { user with
    carriers := KeyedMap.mapValues
      (fun carrier =>
        if inbound.all (fun tag => carrier.inboundTag = tag) then { carrier with told := true }
        else carrier)
      user.carriers }

def threshold (quotaBytes : Option Nat) (base : Nat) : Nat :=
  match quotaBytes with
  | some quota => min (base + quota) maxU64
  | none => maxU64

end UserState

inductive Pc where
  | admitRemoved (id : Nat) (tag : String) (tcp : Bool)
  | admitLimits (id : Nat) (tag : String) (tcp : Bool)
  | admitLive (id : Nat) (tag : String) (tcp : Bool) (limits : Limits)
  | leave (id : Nat)
  | carryId (tag : String)
  | carryLive (tag : String) (id : Nat)
  | dropCarrier (id : Nat)
  | shut (bits : Status)
  | disconnectLive (inbound : Option String)
  | disconnectCarriers (inbound : Option String)
  | addUp (count : Nat)
  | addDown (count : Nat)
  | checkAt
  | checkUp (quotaAt : Nat)
  | checkDown (quotaAt up : Nat)
  | checkStatus
  | applyBase (limits : Limits) (now : Nat)
  | applyLimits (limits : Limits) (now base : Nat)
  | applyAt (quotaAt : Nat) (expired : Bool)
  | applyUp (quotaAt : Nat) (expired : Bool)
  | applyDown (quotaAt : Nat) (expired : Bool) (up : Nat)
  | clear (bits setting : Status)
  | resetUp (now : Nat)
  | resetDown (now up : Nat)
  | resetBase (now total : Nat)
  | resetLimits (now : Nat)
  | expireIfDue (now : Nat)
  | removeFrom (tag : String)
  | restoreTo (tag : String)

namespace Pc

def step : Pc → UserState → UserState × Option Pc
  | .admitRemoved id tag tcp, user =>
    (user, if tag ∈ user.removed then none else some (.admitLimits id tag tcp))
  | .admitLimits id tag tcp, user => (user, some (.admitLive id tag tcp user.limits))
  | .admitLive id tag tcp limits, user =>
    (user.admitLive id tag tcp limits, none)
  | .leave id, user => ({ user with live := user.live.erase id }, none)
  | .carryId tag, user =>
    ({ user with nextCarrier := user.nextCarrier + 1 }, some (.carryLive tag user.nextCarrier))
  | .carryLive tag id, user =>
    ({ user with
        carriers := user.carriers.insert id { inboundTag := tag, told := !user.active } }, none)
  | .dropCarrier id, user => ({ user with carriers := user.carriers.erase id }, none)
  | .shut bits, user =>
    ({ user with status := user.status.set bits },
      if user.status = .none ∧ bits ≠ .none then some (.disconnectLive none) else none)
  | .disconnectLive inbound, user =>
    (user.disconnectLive inbound, some (.disconnectCarriers inbound))
  | .disconnectCarriers inbound, user => (user.disconnectCarriers inbound, none)
  | .addUp count, user => ({ user with up := (user.up + count) % 2 ^ 64 }, some .checkAt)
  | .addDown count, user => ({ user with down := (user.down + count) % 2 ^ 64 }, some .checkAt)
  | .checkAt, user =>
    (user, if user.quotaAt ≠ maxU64 then some (.checkUp user.quotaAt) else none)
  | .checkUp quotaAt, user => (user, some (.checkDown quotaAt user.up))
  | .checkDown quotaAt up, user =>
    (user, if quotaAt ≤ (up + user.down) % 2 ^ 64 then some .checkStatus else none)
  | .checkStatus, user =>
    (user, if user.status.exhausted then none else some (.shut .exhaustedBit))
  | .applyBase limits now, user => (user, some (.applyLimits limits now user.quotaBase))
  | .applyLimits limits now base, user =>
    ({ user with limits }, some (.applyAt (UserState.threshold limits.quotaBytes base)
        (limits.expireAt.any (fun due => due ≤ now))))
  | .applyAt quotaAt expired, user =>
    ({ user with quotaAt }, some (.applyUp quotaAt expired))
  | .applyUp quotaAt expired, user => (user, some (.applyDown quotaAt expired user.up))
  | .applyDown quotaAt expired up, user =>
    let exhausted := decide (quotaAt ≤ (up + user.down) % 2 ^ 64)
    (user, some (.clear { exhausted := !exhausted, expired := !expired }
      { exhausted, expired }))
  | .clear bits setting, user =>
    ({ user with status := user.status.clear bits }, some (.shut setting))
  | .resetUp now, user => (user, some (.resetDown now user.up))
  | .resetDown now up, user => (user, some (.resetBase now ((up + user.down) % 2 ^ 64)))
  | .resetBase now total, user => ({ user with quotaBase := total }, some (.resetLimits now))
  | .resetLimits now, user => (user, some (.applyBase user.limits now))
  | .expireIfDue now, user =>
    (user, if user.limits.expireAt.any (fun due => due ≤ now) then some (.shut .expiredBit)
      else none)
  | .removeFrom tag, user =>
    ({ user with removed := insert tag user.removed }, some (.disconnectLive (some tag)))
  | .restoreTo tag, user => ({ user with removed := user.removed.erase tag }, none)

end Pc

inductive Call where
  | admitConnection (id : Nat) (tag : String) (tcp : Bool)
  | leave (id : Nat)
  | carry (tag : String)
  | dropCarrier (id : Nat)
  | sent (count : Nat)
  | recvd (count : Nat)
  | checkQuota
  | apply (limits : Limits) (now : Nat)
  | resetQuota (now : Nat)
  | expireIfDue (now : Nat)
  | removeFrom (tag : String)
  | restoreTo (tag : String)

def Call.entry : Call → Pc
  | .admitConnection id tag tcp => .admitRemoved id tag tcp
  | .leave id => .leave id
  | .carry tag => .carryId tag
  | .dropCarrier id => .dropCarrier id
  | .sent count => .addUp count
  | .recvd count => .addDown count
  | .checkQuota => .checkAt
  | .apply limits now => .applyBase limits now
  | .resetQuota now => .resetUp now
  | .expireIfDue now => .expireIfDue now
  | .removeFrom tag => .removeFrom tag
  | .restoreTo tag => .restoreTo tag

def program : Program UserState Pc Call where
  entry := Call.entry
  step := Pc.step

end Sail.User
