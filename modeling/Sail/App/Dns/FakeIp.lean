/-
Fake IPs: an address of the ranges for each domain asked for, taken in turn, and
the domain back for an address.

Each family hands out its addresses round a ring that leaves out the first four and the
last, and keeps a bounded number of domains. What is handed out goes to the cache file.
-/

import Sail.Runtime.CacheFile

namespace Sail.App.Dns

open Netstack Sail.Runtime

def reserved : Nat := 4

def capacity : Nat := 65536

def isIpv6 : IpAddr → Bool
  | .v4 _ => false
  | .v6 _ => true

def number : IpAddr → Nat
  | .v4 address => address.toNat
  | .v6 address => address.toNat

def addrWidth (v6 : Bool) : Nat :=
  if v6 then 128 else 32

structure IpInet where
  address : IpAddr
  length : Nat
  length_le : length ≤ addrWidth (isIpv6 address)

def IpInet.lastNumber (inet : IpInet) : Nat :=
  let size := 2 ^ (addrWidth (isIpv6 inet.address) - inet.length)
  number inet.address / size * size + (size - 1)

/-- The addresses of one family, and those handed out. An entry of the order counts
only while its domain still has its address. -/
structure Pool where
  first : Nat
  last : Nat
  current : Nat
  domains : KeyedMap String Nat
  order : List (Nat × String)
  v6 : Bool

def familyAddr (v6 : Bool) (n : Nat) : IpAddr :=
  if v6 then .v6 (BitVec.ofNat 128 n) else .v4 (BitVec.ofNat 32 n)

namespace Pool

def new (inet : IpInet) : Pool :=
  { first := number inet.address
    last := inet.lastNumber
    current := number inet.address + reserved - 1
    domains := ∅
    order := []
    v6 := isIpv6 inet.address }

def contains (pool : Pool) (n : Nat) : Bool :=
  pool.first + reserved ≤ n && n ≤ pool.last

def addr (pool : Pool) (n : Nat) : IpAddr :=
  familyAddr pool.v6 n

def next (pool : Pool) : Nat :=
  if pool.last ≤ pool.current + 1 then pool.first + reserved else pool.current + 1

def withoutOld (pool : Pool) (byAddress : KeyedMap IpAddr String) (addr : IpAddr) :
    KeyedMap String Nat :=
  match byAddress.lookup addr with
  | some old => pool.domains.erase old
  | none => pool.domains

def withoutAddress (pool : Pool) (byAddress : KeyedMap IpAddr String) (domain : String) :
    KeyedMap IpAddr String :=
  match pool.domains.lookup domain with
  | some old => byAddress.erase (pool.addr old)
  | none => byAddress

def clear (pool : Pool) : Pool :=
  { pool with domains := ∅, order := [], current := pool.first + reserved - 1 }

end Pool

structure Binding where
  serial : Nat
  id : String
deriving DecidableEq

structure Inner where
  v4 : Option Pool
  v6 : Option Pool
  byAddress : KeyedMap IpAddr String
  handedOut : Nat
  writtenTo : Option Binding

inductive FakeIp where
  | notFake
  | domain (name : String)
  | unknown
deriving DecidableEq

/-! ### Making room -/

structure Room where
  domains : KeyedMap String Nat
  order : List (Nat × String)
  byAddress : KeyedMap IpAddr String
  ops : List FakeIpOp

def makeRoom (v6 : Bool) : List (Nat × String) → KeyedMap String Nat → KeyedMap IpAddr String → Room
  | [], domains, byAddress =>
    { domains, order := [], byAddress, ops := [] }
  | (oldest, old) :: order, domains, byAddress =>
    if capacity ≤ domains.size ∨ 2 * capacity ≤ order.length + 1 then
      if domains.lookup old = some oldest then
        let room := makeRoom v6 order (domains.erase old) (byAddress.erase (familyAddr v6 oldest))
        { room with ops := .remove (familyAddr v6 oldest) :: room.ops }
      else makeRoom v6 order domains byAddress
    else
      { domains, order := (oldest, old) :: order, byAddress, ops := [] }

namespace Inner

def pool (inner : Inner) (v6 : Bool) : Option Pool :=
  if v6 then inner.v6 else inner.v4

def setPool (inner : Inner) (v6 : Bool) (pool : Pool) : Inner :=
  if v6 then { inner with v6 := some pool } else { inner with v4 := some pool }

/-! ### The cache file -/

def restoreEntry (inner : Inner) (entry : Nat × IpAddr × String) : Inner :=
  let (order, address, domain) := entry
  let n := number address
  match inner.pool (isIpv6 address) with
  | none => inner
  | some pool =>
    if !pool.contains n then inner
    else
      let taken :=
        { pool with
          domains := pool.domains.insert domain n
          order := pool.order ++ [(n, domain)] }
      { inner.setPool (isIpv6 address) taken with
        byAddress := (pool.withoutAddress inner.byAddress domain).insert address domain
        handedOut := max inner.handedOut (order + 1) }

def restoreCursor (inner : Inner) (v6 : Bool) (cursor : Option Nat) : Inner :=
  match inner.pool v6, cursor with
  | some pool, some cursor =>
    if pool.first + reserved - 1 ≤ cursor ∧ cursor < pool.last then
      inner.setPool v6 { pool with current := cursor }
    else inner
  | _, _ => inner

def restore (inner : Inner) (kept : FakeIps) : Inner :=
  ((kept.entries.foldl restoreEntry inner).restoreCursor false kept.cursor4).restoreCursor true
    kept.cursor6

end Inner

namespace Pool

def live (pool : Pool) : List (Nat × String) :=
  pool.order.filter (fun entry => decide (pool.domains.lookup entry.2 = some entry.1))

def puts (pool : Pool) (order : Nat) : List FakeIpOp :=
  (pool.live.zipIdx order).map (fun entry => .put (pool.addr entry.1.1) entry.1.2 entry.2)

def snapshot (pool : Option Pool) (order : Nat) : List FakeIpOp :=
  match pool with
  | none => []
  | some pool => pool.puts order ++ [.cursor pool.v6 pool.current]

def liveCount (pool : Option Pool) : Nat :=
  (pool.map (fun pool => pool.live.length)).getD 0

end Pool

namespace Inner

def snapshot (inner : Inner) (ranges : String) : List FakeIpOp × Inner :=
  let count := Pool.liveCount inner.v4
  (.clear ranges :: (Pool.snapshot inner.v4 0 ++ Pool.snapshot inner.v6 count),
    { inner with handedOut := max inner.handedOut (count + Pool.liveCount inner.v6) })

def clear (inner : Inner) : Inner :=
  { inner with
    v4 := inner.v4.map Pool.clear
    v6 := inner.v6.map Pool.clear
    byAddress := ∅
    handedOut := 0 }

/-! ### Handing out -/

def handOut (inner : Inner) (v6 : Bool) (pool : Pool) (domain : String) :
    IpAddr × Inner × List FakeIpOp :=
  let next := pool.next
  let addr := pool.addr next
  let room := makeRoom pool.v6 pool.order (pool.withoutOld inner.byAddress addr)
    (inner.byAddress.erase addr)
  let taken :=
    { pool with
      current := next
      domains := room.domains.insert domain next
      order := room.order ++ [(next, domain)] }
  (addr,
    { inner.setPool v6 taken with
      byAddress := room.byAddress.insert addr domain
      handedOut := inner.handedOut + 1 },
    room.ops ++ [.put addr domain inner.handedOut, .cursor v6 next])

def lookup (inner : Inner) (ip : IpAddr) : FakeIp :=
  let ip :=
    match ip with
    | .v4 address => .v4 address
    | .v6 address =>
      if address.toNat / 2 ^ 32 = 0xffff then .v4 (BitVec.ofNat 32 address.toNat)
      else .v6 address
  if !(inner.pool (isIpv6 ip)).any (fun pool => pool.contains (number ip)) then .notFake
  else
    match inner.byAddress.lookup ip with
    | some domain => .domain domain
    | none => .unknown

def addressOf (inner : Inner) (domain : String) (v6 : Bool) : Option IpAddr :=
  (inner.pool v6).bind (fun pool => (pool.domains.lookup domain).map pool.addr)

end Inner

/-! ### The store -/

structure FakeIpStore where
  ranges : Option String × Option String
  inner : Inner

namespace FakeIpStore

def checkPool (parse : String → Except String IpInet) (range : Option String) (v6 : Bool)
    (field : String) : Except String (Option Pool) :=
  match range with
  | none => .ok none
  | some range =>
    match parse range with
    | .error error => .error s!"{field}: invalid range \"{range}\": {error}"
    | .ok cidr =>
      if isIpv6 cidr.address ≠ v6 then
        .error s!"{field}: \"{range}\" is of the other family"
      else if (Pool.new cidr).last - (Pool.new cidr).first < reserved + 1 then
        .error s!"{field}: \"{range}\" is too small"
      else .ok (some (Pool.new cidr))

def new (parse : String → Except String IpInet) (inet4Range inet6Range : Option String) :
    Except String FakeIpStore :=
  match checkPool parse inet4Range false "inet4_range" with
  | .error error => .error error
  | .ok v4 =>
    match checkPool parse inet6Range true "inet6_range" with
    | .error error => .error error
    | .ok v6 =>
      if v4.isNone && v6.isNone then .error "set inet4_range, inet6_range, or both"
      else
        .ok
          { ranges := (inet4Range, inet6Range)
            inner :=
              { v4, v6, byAddress := ∅, handedOut := 0, writtenTo := none } }

def rangesKey (store : FakeIpStore) : String :=
  store.ranges.1.getD "-" ++ " " ++ store.ranges.2.getD "-"

end FakeIpStore

abbrev Place : Type :=
  String × String

structure World where
  files : Place → CacheFile
  slot : Option Binding
  store : FakeIpStore

namespace World

def place (paths : Nat → String) (binding : Binding) : Place :=
  (paths binding.serial, binding.id)

def setFile (world : World) (place : Place) (file : CacheFile) : World :=
  { world with files := fun other => if other = place then file else world.files other }

def setInner (world : World) (inner : Inner) : World :=
  { world with store := { world.store with inner } }

variable (paths : Nat → String)

def restore (world : World) : World :=
  match world.slot with
  | none => world
  | some binding =>
    let place := place paths binding
    let (kept, file) := (world.files place).loadFakeIps world.store.rangesKey
    let inner :=
      match kept with
      | none => world.store.inner
      | some kept => world.store.inner.restore kept
    (world.setFile place file).setInner { inner with writtenTo := some binding }

/-- Write to the cache file in place: after all there is, to one it was not written
to. -/
def persist (world : World) (ops : List FakeIpOp) : World :=
  match world.slot with
  | none => world.setInner { world.store.inner with writtenTo := none }
  | some binding =>
    let place := place paths binding
    if world.store.inner.writtenTo = some binding then
      if ops.isEmpty then world
      else world.setFile place ((world.files place).writeFakeIps ops)
    else
      let (all, inner) := world.store.inner.snapshot world.store.rangesKey
      (world.setFile place ((world.files place).writeFakeIps all)).setInner
        { inner with writtenTo := some binding }

def clear (world : World) : World :=
  (world.setInner world.store.inner.clear).persist paths [.clear world.store.rangesKey]

def sync (world : World) : World :=
  world.persist paths []

def create (world : World) (domain : String) (v6 : Bool) : Except String IpAddr × World :=
  match world.store.inner.pool v6 with
  | none => (.error (if v6 then "no inet6 range" else "no inet4 range"), world)
  | some pool =>
    match pool.domains.lookup domain with
    | some n => (.ok (pool.addr n), world)
    | none =>
      let (addr, inner, ops) := world.store.inner.handOut v6 pool domain
      (.ok addr, (world.setInner inner).persist paths ops)

/-- What happens to the store and its files. A reload puts another cache file in
place; the writer writes when it may. -/
inductive Call where
  | create (domain : String) (v6 : Bool)
  | clear
  | sync
  | reload (slot : Option Binding)
  | commit (place : Place) (count : Nat)
  | restart (slot : Option Binding)
  | crash (slot : Option Binding)

def start (fresh : FakeIpStore) (files : Place → CacheFile) (slot : Option Binding) : World :=
  restore paths { files, slot, store := fresh }

def call (fresh : FakeIpStore) (world : World) : Call → World
  | .create domain v6 => (world.create paths domain v6).2
  | .clear => world.clear paths
  | .sync => world.sync paths
  | .reload slot => { world with slot }
  | .commit place count => world.setFile place ((world.files place).commit count)
  | .restart slot => start paths fresh (fun place => (world.files place).close) slot
  | .crash slot => start paths fresh (fun place => (world.files place).lose) slot

def run (fresh : FakeIpStore) (calls : List Call) (world : World) : World :=
  calls.foldl (call paths fresh) world

end World

end Sail.App.Dns
