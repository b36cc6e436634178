/-
The transport headers: TCP segments and UDP datagrams.

Both parsers work on a parsed IP packet. They fail closed on malformed headers
and options, and they refuse a fragment: its payload is no segment yet.
-/

import Sail.Netstack.Ip.Wire
import Sail.Netstack.Tcp.Tcb

namespace Sail.Netstack

open Bytes

def tcpProtocol : UInt8 := 6
def udpProtocol : UInt8 := 17

structure SocketAddr where
  ip : IpAddr
  port : Nat
deriving DecidableEq

/-! ### The pseudo-header checksum -/

def IpAddr.octets : IpAddr → Bytes
  | .v4 address =>
    (List.range 4).map (fun index => UInt8.ofNat (address.toNat >>> (8 * (3 - index))))
  | .v6 address =>
    (List.range 16).map (fun index => UInt8.ofNat (address.toNat >>> (8 * (15 - index))))

def transportChecksumSum (source destination : IpAddr) (protocol : UInt8) (payload : Bytes) :
    Nat :=
  let addresses :=
    checksumAccumulate .little destination.octets
      (checksumAccumulate .little source.octets 0)
  match source, destination with
  | .v4 _, .v4 _ =>
    checksumSum payload (addresses + protocol.toNat + min payload.length 4294967295)
  | .v6 _, .v6 _ =>
    checksumSum payload (addresses + min payload.length 4294967295 + protocol.toNat)
  | _, _ => 0

def isFragmented (ip : ParsedIpPacket) : Bool :=
  ip.fragment.any (fun fragment => !fragment.isAtomic)

/-! ### TCP -/

structure SackBlock where
  left : SeqNumber
  right : SeqNumber
deriving DecidableEq

structure TcpOptions where
  maximumSegmentSize : Option Nat := none
  windowScale : Option Nat := none
  windowScaleClamped : Bool := false
  sackPermitted : Bool := false
  sackBlocks : List SackBlock := []
  timestamps : Option (Nat × Nat) := none
deriving DecidableEq

structure ParsedTcpSegment where
  source : SocketAddr
  destination : SocketAddr
  segmentMeta : TcpSegmentMeta
  options : TcpOptions
  payload : Bytes
deriving DecidableEq

def TcpFlags.fromBits (bits : UInt8) : TcpFlags :=
  { fin := bits.toNat.testBit 0
    syn := bits.toNat.testBit 1
    rst := bits.toNat.testBit 2
    psh := bits.toNat.testBit 3
    ack := bits.toNat.testBit 4 }

def parseSackBlocks : Nat → Bytes → List SackBlock → Except WireError (List SackBlock)
  | 0, _, blocks => .ok blocks
  | count + 1, data, blocks =>
    if blocks.length = 4 then .error (.malformed "too many TCP SACK blocks")
    else
      let left : SeqNumber := BitVec.ofNat 32 (u32At data 0)
      let right : SeqNumber := BitVec.ofNat 32 (u32At data 4)
      if SerialNumber.after right left then
        parseSackBlocks count (data.drop 8) (blocks ++ [⟨left, right⟩])
      else .error (.malformed "invalid TCP SACK block")

def parseOption (options : TcpOptions) (kind : UInt8) (length : Nat) (data : Bytes) :
    Except WireError TcpOptions :=
  if kind = 2 ∧ length = 4 then
    if options.maximumSegmentSize.isSome then .error (.malformed "duplicate TCP MSS option")
    else .ok { options with maximumSegmentSize := some (u16At data 0) }
  else if kind = 3 ∧ length = 3 then
    if options.windowScale.isSome then .error (.malformed "duplicate TCP window scale")
    else
      .ok
        { options with
          windowScaleClamped := 14 < (byteAt data 0).toNat
          windowScale := some (min (byteAt data 0).toNat 14) }
  else if kind = 4 ∧ length = 2 then .ok { options with sackPermitted := true }
  else if kind = 5 ∧ 10 ≤ length ∧ (length - 2) % 8 = 0 then
    match parseSackBlocks ((length - 2) / 8) data options.sackBlocks with
    | .error error => .error error
    | .ok blocks => .ok { options with sackBlocks := blocks }
  else if kind = 8 ∧ length = 10 then
    if options.timestamps.isSome then .error (.malformed "duplicate TCP timestamp option")
    else .ok { options with timestamps := some (u32At data 0, u32At data 4) }
  else if kind = 2 ∨ kind = 3 ∨ kind = 4 ∨ kind = 5 ∨ kind = 8 then
    .error (.malformed "invalid known TCP option length")
  else .ok options

/-- Read options from the first unread one on. Every round reads at least one
byte, so as many rounds as there are bytes are enough. -/
def parseOptionsFrom : Nat → Bytes → TcpOptions → Except WireError TcpOptions
  | _, [], options => .ok options
  | 0, _, options => .ok options
  | rounds + 1, kind :: bytes, options =>
    if kind = 0 then
      if bytes.any (fun byte => byte ≠ 0) then
        .error (.malformed "nonzero TCP option padding")
      else .ok options
    else if kind = 1 then parseOptionsFrom rounds bytes options
    else
      match bytes with
      | [] => .error .truncated
      | lengthByte :: remainder =>
        let length := lengthByte.toNat
        if length < 2 ∨ bytes.length < length - 1 then
          .error (.malformed "TCP option length")
        else
          match parseOption options kind length (remainder.take (length - 2)) with
          | .error error => .error error
          | .ok next => parseOptionsFrom rounds (bytes.drop (length - 1)) next

def parseOptions (bytes : Bytes) : Except WireError TcpOptions :=
  parseOptionsFrom bytes.length bytes {}

def parseTcpSegment (ip : ParsedIpPacket) (verifyChecksum : Bool) :
    Except WireError ParsedTcpSegment :=
  if ip.nextHeader ≠ tcpProtocol then .error (.unsupported "not TCP")
  else if isFragmented ip then .error (.unsupported "TCP requires IP reassembly")
  else if ip.payload.length < 20 then .error .truncated
  else
    let headerLen := (byteAt ip.payload 12).toNat / 16 * 4
    if headerLen < 20 ∨ 60 < headerLen ∨ ip.payload.length < headerLen then
      .error (.malformed "TCP data offset")
    else if verifyChecksum = true ∧
        transportChecksumSum ip.source ip.destination tcpProtocol ip.payload ≠ 65535 then
      .error .checksum
    else
      let flags := TcpFlags.fromBits (byteAt ip.payload 13)
      match parseOptions (slice ip.payload 20 headerLen) with
      | .error error => .error error
      | .ok options =>
        .ok
          { source := ⟨ip.source, u16At ip.payload 0⟩
            destination := ⟨ip.destination, u16At ip.payload 2⟩
            segmentMeta :=
              { sequence := BitVec.ofNat 32 (u32At ip.payload 4)
                acknowledgment :=
                  if flags.ack then some (BitVec.ofNat 32 (u32At ip.payload 8)) else none
                flags
                window := u16At ip.payload 14
                payloadLen := (ip.payload.drop headerLen).length }
            options
            payload := ip.payload.drop headerLen }

/-! ### UDP -/

structure ParsedUdpDatagram where
  source : SocketAddr
  destination : SocketAddr
  payload : Bytes
deriving DecidableEq

def parseUdpDatagram (ip : ParsedIpPacket) (verifyChecksum : Bool) :
    Except WireError ParsedUdpDatagram :=
  if ip.nextHeader ≠ udpProtocol then .error (.unsupported "not UDP")
  else if isFragmented ip then .error (.unsupported "UDP requires IP reassembly")
  else if ip.payload.length < 8 then .error .truncated
  else
    let udpLen := u16At ip.payload 4
    if udpLen < 8 ∨ ip.payload.length < udpLen then .error .truncated
    else
      let udp := ip.payload.take udpLen
      let wireChecksum := u16At udp 6
      if verifyChecksum = true ∧ ip.version = .v6 ∧ wireChecksum = 0 then .error .checksum
      else if verifyChecksum = true ∧ wireChecksum ≠ 0 ∧
          transportChecksumSum ip.source ip.destination udpProtocol udp ≠ 65535 then
        .error .checksum
      else
        .ok
          { source := ⟨ip.source, u16At udp 0⟩
            destination := ⟨ip.destination, u16At udp 2⟩
            payload := udp.drop 8 }

end Sail.Netstack
