/-
Source fragmentation of IP packets.

A payload is cut into chunks of a multiple of eight bytes, and each chunk gets
a header of its own: for IPv4 with the copied options only behind the first
fragment, for IPv6 with a Fragment header behind the headers that every hop
reads.
-/

import Sail.Netstack.Ip.Wire

namespace Sail.Netstack

open Bytes

/-! ### Cutting a payload -/

structure Cut where
  offset : Nat
  amount : Nat
deriving DecidableEq

/-- The cuts from an offset on, the first chunk having a capacity of its own.
No chunk is empty, so as many rounds as there are bytes are enough. -/
def cutsFrom (firstCapacity laterCapacity total : Nat) : Nat → Nat → List Cut
  | 0, _ => []
  | rounds + 1, offset =>
    if total ≤ offset then []
    else
      let capacity := if offset = 0 then firstCapacity else laterCapacity
      let amount := min (total - offset) capacity
      { offset, amount } ::
        cutsFrom firstCapacity laterCapacity total rounds (offset + amount)

def cuts (firstCapacity laterCapacity total : Nat) : List Cut :=
  cutsFrom firstCapacity laterCapacity total total 0

def alignedChunk (mtu headerLen : Nat) : Except WireError Nat :=
  if mtu < headerLen then .error (.malformed "MTU smaller than IP header")
  else if (mtu - headerLen) / 8 * 8 = 0 then
    .error (.malformed "MTU cannot carry an IP fragment")
  else .ok ((mtu - headerLen) / 8 * 8)

/-! ### IPv4 -/

def copiedOptionsFrom : Nat → Bytes → Except WireError Bytes
  | _, [] => .ok []
  | 0, _ => .ok []
  | rounds + 1, kind :: rest =>
    if kind = 0 then .ok []
    else if kind = 1 then copiedOptionsFrom rounds rest
    else
      match rest with
      | [] => .error (.malformed "truncated IPv4 option")
      | lengthByte :: _ =>
        let length := lengthByte.toNat
        if length < 2 ∨ rest.length + 1 < length then
          .error (.malformed "invalid IPv4 option length")
        else
          match copiedOptionsFrom rounds ((kind :: rest).drop length) with
          | .error error => .error error
          | .ok later =>
            if kind.toNat / 128 = 1 then .ok ((kind :: rest).take length ++ later)
            else .ok later

def padToWord (options : Bytes) : Bytes :=
  options ++ List.replicate ((4 - options.length % 4) % 4) 0

def copiedIpv4Options (options : Bytes) : Except WireError Bytes :=
  match copiedOptionsFrom options.length options with
  | .error error => .error error
  | .ok copied =>
    if 40 < (padToWord copied).length then
      .error (.malformed "copied IPv4 options exceed header")
    else .ok (padToWord copied)

def laterIpv4Header (packet copied : Bytes) : Bytes :=
  overwrite (packet.take 20 ++ copied) 0 [0x40 ||| UInt8.ofNat ((20 + copied.length) / 4)]

def fragmentBase (packet copied : Bytes) (cut : Cut) : Bytes :=
  if cut.offset = 0 then packet.take (ipv4HeaderLen packet) else laterIpv4Header packet copied

def ipv4FragmentBody (packet copied payload : Bytes) (identification : Nat) (cut : Cut) :
    Bytes :=
  let fragment := fragmentBase packet copied cut ++ slice payload cut.offset (cut.offset + cut.amount)
  let identified := putU16 fragment 4 (identification % 65536)
  let sized := putU16 identified 2 fragment.length
  let bits :=
    if cut.offset + cut.amount < payload.length then cut.offset / 8 ||| 8192
    else cut.offset / 8
  putU16 (putU16 sized 6 bits) 10 0

def ipv4Fragment (packet copied payload : Bytes) (identification : Nat) (cut : Cut) :
    Except WireError Bytes :=
  let currentHeaderLen :=
    if cut.offset = 0 then ipv4HeaderLen packet else 20 + copied.length
  let body := ipv4FragmentBody packet copied payload identification cut
  if 65535 < body.length then .error (.malformed "IPv4 fragment too large")
  else if 65535 < cut.offset / 8 then .error (.malformed "IPv4 fragment offset overflow")
  else .ok (putU16 body 10 (finalizeChecksum (checksumSum (body.take currentHeaderLen) 0)))

def fragmentIpv4 (packet : Bytes) (mtu identification : Nat) : Except WireError (List Bytes) := do
  let headerLen := ipv4HeaderLen packet
  let copied ← copiedIpv4Options (slice packet 20 headerLen)
  let firstChunkLen ← alignedChunk mtu headerLen
  let laterChunkLen ← alignedChunk mtu (20 + copied.length)
  let payload := packet.drop headerLen
  (cuts firstChunkLen laterChunkLen payload.length).mapM
    (ipv4Fragment packet copied payload identification)

/-! ### IPv6 -/

structure ExtensionRecord where
  kind : UInt8
  offset : Nat
  length : Nat
deriving DecidableEq

def isExtension (nextHeader : UInt8) : Bool :=
  nextHeader = 0 || nextHeader = 43 || nextHeader = 44 || nextHeader = 51 || nextHeader = 60

def extensionRecordsFrom (packet : Bytes) (totalLen : Nat) :
    Nat → UInt8 → Nat → Except WireError (List ExtensionRecord × UInt8)
  | 0, nextHeader, _ => .ok ([], nextHeader)
  | rounds + 1, nextHeader, offset =>
    let record := fun (length : Nat) =>
      if totalLen < offset + 2 then .error .truncated
      else if totalLen < offset + length then .error .truncated
      else
        match extensionRecordsFrom packet totalLen rounds (byteAt packet offset)
            (offset + length) with
        | .error error => .error error
        | .ok (records, last) =>
          .ok ({ kind := nextHeader, offset, length } :: records, last)
    if nextHeader = 0 ∨ nextHeader = 43 ∨ nextHeader = 60 then
      record (extensionLen packet offset)
    else if nextHeader = 51 then record (authenticationLen packet offset)
    else if nextHeader = 44 then .error (.unsupported "already-fragmented IPv6 packet")
    else .ok ([], nextHeader)

def extensionRecords (packet : Bytes) : Except WireError (List ExtensionRecord) :=
  match extensionRecordsFrom packet (40 + u16At packet 4) 8 (byteAt packet 6) 40 with
  | .error error => .error error
  | .ok (records, last) =>
    if isExtension last then .error (.unsupported "IPv6 extension chain exceeds limit")
    else .ok records

/-- How many of the records stay in front of the Fragment header: up to the last
Routing header, or else the leading Hop-by-Hop headers. -/
def includedRecords (records : List ExtensionRecord) : Nat :=
  match records.reverse.findIdx? (fun record => record.kind = 43) with
  | some fromEnd => records.length - fromEnd
  | none => (records.takeWhile (fun record => record.kind = 0)).length

def insertionPoint (records : List ExtensionRecord) : Nat × Nat :=
  match (records.take (includedRecords records)).getLast? with
  | none => (40, 6)
  | some record => (record.offset + record.length, record.offset)

def ipv6Fragment (packet payload : Bytes) (insertion previousNextHeader identification : Nat)
    (cut : Cut) : Except WireError Bytes :=
  let chunk := slice payload cut.offset (cut.offset + cut.amount)
  let named := overwrite (packet.take insertion) previousNextHeader [44]
  let payloadLen := insertion - 40 + 8 + chunk.length
  if 65535 < payloadLen then .error (.malformed "IPv6 fragment too large")
  else if 65535 < cut.offset then .error (.malformed "IPv6 fragment offset overflow")
  else
    let bits :=
      if cut.offset + chunk.length < payload.length then cut.offset ||| 1 else cut.offset
    .ok (putU16 named 4 payloadLen ++
      ([byteAt packet previousNextHeader, 0] ++
        (u16Bytes bits ++ (u32Bytes identification ++ chunk))))

def fragmentIpv6 (packet : Bytes) (mtu identification : Nat) : Except WireError (List Bytes) := do
  let records ← extensionRecords packet
  let point := insertionPoint records
  let chunkLen ← alignedChunk mtu (point.1 + 8)
  let payload := packet.drop point.1
  (cuts chunkLen chunkLen payload.length).mapM
    (ipv6Fragment packet payload point.1 point.2 identification)

/-! ### Both versions -/

def fragmentOutboundIpPacket (packet : Bytes) (mtu identification : Nat) :
    Except WireError (List Bytes) :=
  match parseIpPacket packet true with
  | .error error => .error error
  | .ok ip =>
    let whole := packet.take (packetLen packet ip.version)
    if packetLen packet ip.version ≤ mtu then .ok [whole]
    else if ip.fragment.any (fun fragment => !fragment.isAtomic) then
      .error (.unsupported "source fragmentation cannot refragment an IP fragment")
    else
      match ip.version with
      | .v4 => fragmentIpv4 whole mtu identification
      | .v6 => fragmentIpv6 whole mtu identification

end Sail.Netstack
