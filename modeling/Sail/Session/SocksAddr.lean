/-
Destinations and their forms on the wire, after `session.rs`.

A destination is a socket address or a domain with a port. On the wire the port stands
last, as in SOCKS, or first, as Xray's multiplexers write it. Parsing text as an IP
address is a parameter of the model.
-/

import Sail.Lib.Bytes
import Mathlib.Tactic.Cases

namespace Sail.Session

open Bytes

abbrev Octets (count : Nat) := { bytes : Bytes // bytes.length = count }

inductive IpAddr where
  | v4 (octets : Octets 4)
  | v6 (octets : Octets 16)
deriving DecidableEq

inductive SocketAddr where
  | v4 (ip : Octets 4) (port : UInt16)
  | v6 (ip : Octets 16) (port : UInt16) (flowinfo scopeId : UInt32)
deriving DecidableEq

inductive SocksAddr where
  | ip (addr : SocketAddr)
  | domain (name : String) (port : UInt16)
deriving DecidableEq

inductive SocksAddrWireType where
  | portFirst
  | portLast

/-! ### Text as bytes -/

def textBytes (text : String) : Bytes :=
  text.toByteArray.data.toList

def fromUtf8 (bytes : Bytes) : Option String :=
  String.fromUTF8? ⟨bytes.toArray⟩

def portBytes (port : UInt16) : Bytes :=
  u16Bytes port.toNat

def portAt (bytes : Bytes) (index : Nat) : UInt16 :=
  UInt16.ofNat (u16At bytes index)

def octetsAt (bytes : Bytes) (start count : Nat) (fits : start + count ≤ bytes.length) :
    Octets count :=
  ⟨slice bytes start (start + count), by rw [length_slice fits]; omega⟩

namespace SocksAddr

def ofIp (literal : IpAddr) (port : UInt16) : SocksAddr :=
  match literal with
  | .v4 octets => .ip (.v4 octets port)
  | .v6 octets => .ip (.v6 octets port 0 0)

def size : SocksAddr → Nat
  | .ip (.v4 _ _) => 1 + 4 + 2
  | .ip (.v6 _ _ _ _) => 1 + 16 + 2
  | .domain name _ => 1 + 1 + (textBytes name).length + 2

def port : SocksAddr → UInt16
  | .ip (.v4 _ port) => port
  | .ip (.v6 _ port _ _) => port
  | .domain _ port => port

def writeBuf (addr : SocksAddr) : SocksAddrWireType → Bytes
  | .portLast =>
    match addr with
    | .ip (.v4 octets port) => 1 :: (octets.1 ++ portBytes port)
    | .ip (.v6 octets port _ _) => 4 :: (octets.1 ++ portBytes port)
    | .domain name port =>
      3 :: UInt8.ofNat (textBytes name).length :: (textBytes name ++ portBytes port)
  | .portFirst =>
    match addr with
    | .ip (.v4 octets port) => portBytes port ++ 1 :: octets.1
    | .ip (.v6 octets port _ _) => portBytes port ++ 3 :: octets.1
    | .domain name port =>
      portBytes port ++ 2 :: UInt8.ofNat (textBytes name).length :: textBytes name

def tryFromText (parseIp : String → Option IpAddr) (name : String) (port : UInt16) :
    Except String SocksAddr :=
  match parseIp name with
  | some literal => .ok (ofIp literal port)
  | none =>
    if 255 < (textBytes name).length then .error "domain too long"
    else .ok (.domain name port)

def insuffBytes : String := "insufficient bytes"

def domainOf (bytes : Bytes) (port : UInt16) : Except String SocksAddr :=
  match fromUtf8 bytes with
  | none => .error "invalid domain"
  | some name => .ok (.domain name port)

def tryFromBytes (buf : Bytes) : SocksAddrWireType → Except String SocksAddr
  | .portLast =>
    if buf.isEmpty then .error insuffBytes
    else if byteAt buf 0 = 1 then
      if fits : 1 + 4 + 2 ≤ buf.length then
        .ok (.ip (.v4 (octetsAt buf 1 4 (by omega)) (portAt buf 5)))
      else .error insuffBytes
    else if byteAt buf 0 = 4 then
      if fits : 1 + 16 + 2 ≤ buf.length then
        .ok (.ip (.v6 (octetsAt buf 1 16 (by omega)) (portAt buf 17) 0 0))
      else .error insuffBytes
    else if byteAt buf 0 = 3 then
      if buf.length < 2 then .error insuffBytes
      else
        let domainLen := (byteAt buf 1).toNat
        if buf.length < 2 + domainLen + 2 then .error insuffBytes
        else domainOf (slice buf 2 (domainLen + 2)) (portAt buf (domainLen + 2))
    else .error "invalid address type"
  | .portFirst =>
    if buf.length < 3 then .error insuffBytes
    else
      let port := portAt buf 0
      let addr := buf.drop 3
      if byteAt buf 2 = 1 then
        if fits : 0 + 4 ≤ addr.length then .ok (.ip (.v4 (octetsAt addr 0 4 fits) port))
        else .error insuffBytes
      else if byteAt buf 2 = 3 then
        if fits : 0 + 16 ≤ addr.length then
          .ok (.ip (.v6 (octetsAt addr 0 16 fits) port 0 0))
        else .error insuffBytes
      else if byteAt buf 2 = 2 then
        if addr.isEmpty then .error insuffBytes
        else
          let domainLen := (byteAt addr 0).toNat
          if addr.length < 1 + domainLen then .error insuffBytes
          else domainOf (slice addr 1 (1 + domainLen)) port
      else .error "invalid address type"

end SocksAddr

end Sail.Session
