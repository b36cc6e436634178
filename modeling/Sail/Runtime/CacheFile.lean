/-
The fake IPs in an instance's cache file.

What a store did is queued and written by a thread of the file's own, each batch as
a whole and in turn. Closing the file writes what is queued; a process that is
killed loses it.
-/

import Sail.Lib.KeyedMap
import Sail.Netstack.Ip.Wire

namespace Sail.Runtime

open Netstack

inductive FakeIpOp where
  | put (address : IpAddr) (domain : String) (order : Nat)
  | remove (address : IpAddr)
  | cursor (v6 : Bool) (current : Nat)
  | clear (ranges : String)
deriving DecidableEq

structure FakeIps where
  entries : List (Nat × IpAddr × String)
  cursor4 : Option Nat
  cursor6 : Option Nat

structure FakeIpTables where
  ranges : Option String
  fakeip : KeyedMap IpAddr (String × Nat)
  cursor : KeyedMap Nat Nat

namespace FakeIpTables

def clearFakeIps (ranges : String) : FakeIpTables :=
  { ranges := some ranges, fakeip := ∅, cursor := ∅ }

def commitOp (tables : FakeIpTables) : FakeIpOp → FakeIpTables
  | .put address domain order =>
    { tables with fakeip := tables.fakeip.insert address (domain, order) }
  | .remove address => { tables with fakeip := tables.fakeip.erase address }
  | .cursor v6 current =>
    { tables with cursor := tables.cursor.insert (if v6 then 6 else 4) current }
  | .clear ranges => clearFakeIps ranges

def commitFakeIps (tables : FakeIpTables) (ops : List FakeIpOp) : FakeIpTables :=
  ops.foldl commitOp tables

def kept (tables : FakeIpTables) : FakeIps :=
  let entries := tables.fakeip.toList.map (fun entry => (entry.2.2, entry.1, entry.2.1))
  { entries := entries.mergeSort (fun first second => decide (first.1 ≤ second.1))
    cursor4 := tables.cursor.lookup 4
    cursor6 := tables.cursor.lookup 6 }

end FakeIpTables

structure CacheFile where
  tables : FakeIpTables
  queued : List (List FakeIpOp)

namespace CacheFile

def written (file : CacheFile) : FakeIpTables :=
  file.queued.foldl FakeIpTables.commitFakeIps file.tables

/-- The fake IPs kept for some ranges; none, and the file is cleared of them, when
they were kept for others. -/
def loadFakeIps (file : CacheFile) (ranges : String) : Option FakeIps × CacheFile :=
  if file.tables.ranges ≠ some ranges then
    (none, { file with tables := .clearFakeIps ranges })
  else (some file.tables.kept, file)

def writeFakeIps (file : CacheFile) (ops : List FakeIpOp) : CacheFile :=
  { file with queued := file.queued ++ [ops] }

def commit (file : CacheFile) (count : Nat) : CacheFile :=
  { tables := (file.queued.take count).foldl FakeIpTables.commitFakeIps file.tables
    queued := file.queued.drop count }

def close (file : CacheFile) : CacheFile :=
  { tables := file.written, queued := [] }

def lose (file : CacheFile) : CacheFile :=
  { file with queued := [] }

end CacheFile

end Sail.Runtime
