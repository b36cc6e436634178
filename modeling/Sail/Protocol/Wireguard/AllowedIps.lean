/-
Routing by prefixes: which peer an address belongs to.

One map per prefix length, looked up from the longest length down. The bits of an
inserted address behind its prefix are masked off.
-/

import Sail.Lib.KeyedMap
import Sail.Netstack.Ip.Wire

namespace Sail.Protocol.Wireguard

open Netstack

/-- A map for each prefix length, longest first. -/
structure Table (T : Type) where
  byLen : List (Nat × KeyedMap Nat T)

def mask (bits len width : Nat) : Nat :=
  bits / 2 ^ (width - len) * 2 ^ (width - len)

def split : IpAddr → Nat × Nat
  | .v4 address => (address.toNat, 32)
  | .v6 address => (address.toNat, 128)

namespace Table

variable {T : Type} [DecidableEq T]

def empty : Table T :=
  { byLen := [] }

def insertLen (len key : Nat) (value : T) :
    List (Nat × KeyedMap Nat T) → List (Nat × KeyedMap Nat T)
  | [] => [(len, (∅ : KeyedMap Nat T).insert key value)]
  | (other, map) :: rest =>
    if other = len then (other, map.insert key value) :: rest
    else if other < len then (len, (∅ : KeyedMap Nat T).insert key value) :: (other, map) :: rest
    else (other, map) :: insertLen len key value rest

def insert (table : Table T) (bits len width : Nat) (value : T) : Table T :=
  { byLen := insertLen len (mask bits len width) value table.byLen }

def lookup (table : Table T) (bits width : Nat) : Option T :=
  table.byLen.findSome? (fun entry => entry.2.lookup (mask bits entry.1 width))

def removeValue (table : Table T) (value : T) : Table T :=
  { byLen :=
      (table.byLen.map (fun entry =>
        (entry.1, (entry.2.toList.filter (fun item => item.2 = value)).foldl
          (fun map item => map.erase item.1) entry.2))).filter
        (fun entry => !entry.2.toList.isEmpty) }

end Table

structure AllowedIps (T : Type) where
  v4 : Table T
  v6 : Table T

namespace AllowedIps

variable {T : Type} [DecidableEq T]

def new : AllowedIps T :=
  { v4 := .empty, v6 := .empty }

def insert (routes : AllowedIps T) (ip : IpAddr) (len : Nat) (value : T) : AllowedIps T :=
  let (bits, width) := split ip
  if width < len then routes
  else
    match ip with
    | .v4 _ => { routes with v4 := routes.v4.insert bits len width value }
    | .v6 _ => { routes with v6 := routes.v6.insert bits len width value }

def lookup (routes : AllowedIps T) (ip : IpAddr) : Option T :=
  let (bits, width) := split ip
  match ip with
  | .v4 _ => routes.v4.lookup bits width
  | .v6 _ => routes.v6.lookup bits width

def remove (routes : AllowedIps T) (value : T) : AllowedIps T :=
  { v4 := routes.v4.removeValue value, v6 := routes.v6.removeValue value }

end AllowedIps

end Sail.Protocol.Wireguard
