/-
The IP wire boundary: checksums and the packet parser.

Packets are byte strings. Lengths, offsets and identifications are natural
numbers, read from their big-endian fields. The parser fails closed: whatever
it cannot check is an error, and trailing padding after the packet is ignored.
-/

import Sail.Lib.MachineWord
import Sail.Lib.OnesComplement

namespace Sail.Netstack

open Bytes

inductive IpVersion where
  | v4
  | v6
deriving DecidableEq

inductive IpAddr where
  | v4 (address : BitVec 32)
  | v6 (address : BitVec 128)
deriving DecidableEq

structure FragmentInfo where
  identification : Nat
  offsetBytes : Nat
  moreFragments : Bool
deriving DecidableEq

def FragmentInfo.isAtomic (info : FragmentInfo) : Bool :=
  info.offsetBytes = 0 && !info.moreFragments

/-- A parsed packet. `fragmentPayload` is what fragment offsets cover, with the
extension headers after the Fragment header; `payload` is the upper layer's. -/
structure ParsedIpPacket where
  version : IpVersion
  source : IpAddr
  destination : IpAddr
  nextHeader : UInt8
  hopLimit : UInt8
  fragment : Option FragmentInfo
  fragmentPayload : Option Bytes
  payload : Bytes
deriving DecidableEq

inductive WireError where
  | truncated
  | malformed (message : String)
  | unsupported (message : String)
  | ipv6OptionDiscard (pointer : Nat) (sendIcmp : Bool)
  | ipv6RoutingDiscard (pointer : Nat)
  | ipv6NextHeaderDiscard (pointer : Nat)
  | checksum
deriving DecidableEq

/-! ### Checksums -/

inductive Endian where
  | little
  | big
deriving DecidableEq

def nativeWord (endian : Endian) (a b c d : UInt8) : Nat :=
  match endian with
  | .little => a.toNat + b.toNat * 256 + c.toNat * 65536 + d.toNat * 16777216
  | .big => a.toNat * 16777216 + b.toNat * 65536 + c.toNat * 256 + d.toNat

def wideSum (endian : Endian) : Bytes → Nat
  | a :: b :: c :: d :: rest => nativeWord endian a b c d + wideSum endian rest
  | _ => 0

def afterWords : Bytes → Bytes
  | _ :: _ :: _ :: _ :: rest => afterWords rest
  | rest => rest

def swapBytes (word : Nat) : Nat :=
  word % 256 * 256 + word / 256

def checksumAccumulate (endian : Endian) (bytes : Bytes) (sum : Nat) : Nat :=
  let folded := OnesComplement.fold (wideSum endian bytes)
  let ordered := match endian with
    | .little => swapBytes folded
    | .big => folded
  OnesComplement.fold sum + ordered + OnesComplement.wordSum (afterWords bytes)

def checksumSum (bytes : Bytes) (initial : Nat) : Nat :=
  OnesComplement.fold (checksumAccumulate .little bytes initial)

def finalizeChecksum (sum : Nat) : Nat :=
  65535 - sum

/-! ### IPv4 -/

/-- Check an option list from its first unread option on. Every round reads at
least one byte, so as many rounds as there are bytes are enough. -/
def validateIpv4OptionsFrom : Nat → Bytes → Except WireError Unit
  | _, [] => .ok ()
  | 0, _ => .ok ()
  | rounds + 1, kind :: rest =>
    if kind = 0 then
      if rest.any (fun byte => byte ≠ 0) then
        .error (.malformed "nonzero IPv4 option padding")
      else .ok ()
    else if kind = 1 then validateIpv4OptionsFrom rounds rest
    else
      match rest with
      | [] => .error (.malformed "truncated IPv4 option")
      | lengthByte :: _ =>
        let length := lengthByte.toNat
        if length < 2 then .error (.malformed "invalid IPv4 option length")
        else if length ≤ rest.length + 1 then
          validateIpv4OptionsFrom rounds ((kind :: rest).drop length)
        else .error (.malformed "truncated IPv4 option")

def validateIpv4Options (options : Bytes) : Except WireError Unit :=
  validateIpv4OptionsFrom options.length options

def ipv4HeaderLen (packet : Bytes) : Nat :=
  (byteAt packet 0).toNat % 16 * 4

def ipv4Address (packet : Bytes) (offset : Nat) : IpAddr :=
  .v4 (BitVec.ofNat 32 (bigEndian (slice packet offset (offset + 4))))

def ipv4Parsed (packet : Bytes) : ParsedIpPacket :=
  let bits := u16At packet 6
  let offset := bits % 8192 * 8
  let moreFragments : Bool := bits / 8192 % 2 = 1
  let isFragment : Bool := offset ≠ 0 || moreFragments
  let payload := slice packet (ipv4HeaderLen packet) (u16At packet 2)
  { version := .v4
    source := ipv4Address packet 12
    destination := ipv4Address packet 16
    nextHeader := byteAt packet 9
    hopLimit := byteAt packet 8
    fragment :=
      if isFragment then
        some
          { identification := u16At packet 4
            offsetBytes := offset
            moreFragments }
      else none
    fragmentPayload := if isFragment then some payload else none
    payload }

def parseIpv4 (packet : Bytes) (verifyChecksum : Bool) : Except WireError ParsedIpPacket :=
  if packet.length < 20 then .error .truncated
  else
    let headerLen := ipv4HeaderLen packet
    if headerLen < 20 ∨ packet.length < headerLen then
      .error (.malformed "IPv4 header length")
    else
      let totalLen := u16At packet 2
      if totalLen < headerLen ∨ packet.length < totalLen then .error .truncated
      else
        match validateIpv4Options (slice packet 20 headerLen) with
        | .error error => .error error
        | .ok () =>
          if verifyChecksum = true ∧ checksumSum (packet.take headerLen) 0 ≠ 65535 then
            .error .checksum
          else
            let bits := u16At packet 6
            if bits / 32768 % 2 = 1 then
              .error (.malformed "IPv4 reserved fragment flag")
            else if bits / 16384 % 2 = 1 ∧ (bits % 8192 * 8 ≠ 0 ∨ bits / 8192 % 2 = 1) then
              .error (.malformed "IPv4 DF set on a fragment")
            else .ok (ipv4Parsed packet)

/-! ### IPv6 -/

def require (packet : Bytes) (offset len totalLen : Nat) : Except WireError Unit :=
  if totalLen < offset + len ∨ packet.length < offset + len then .error .truncated
  else .ok ()

def ipv6WirePointer (offset : Nat) : Except WireError Nat :=
  if offset ≤ 4294967295 then .ok offset else .error (.malformed "IPv6 wire pointer")

/-- Check the options of an extension header from the first unread one on, at
`offset` in the packet. -/
def validateIpv6OptionsFrom (multicast enforceActions : Bool) :
    Nat → Nat → Bytes → Except WireError Unit
  | _, _, [] => .ok ()
  | 0, _, _ => .ok ()
  | rounds + 1, offset, kind :: rest =>
    if kind = 0 then validateIpv6OptionsFrom multicast enforceActions rounds (offset + 1) rest
    else
      match rest with
      | [] => .error (.malformed "truncated IPv6 option")
      | lengthByte :: data =>
        let length := lengthByte.toNat
        if data.length < length then .error (.malformed "truncated IPv6 option")
        else
          let next := validateIpv6OptionsFrom multicast enforceActions rounds
            (offset + 2 + length) (data.drop length)
          if kind = 1 then
            if (data.take length).any (fun byte => byte ≠ 0) then
              .error (.malformed "nonzero IPv6 PadN data")
            else next
          else if enforceActions = true ∧ kind.toNat / 64 ≠ 0 then
            if offset ≤ 4294967295 then
              .error (.ipv6OptionDiscard offset
                (if kind.toNat / 64 = 1 then false
                  else if kind.toNat / 64 = 2 then true
                  else !multicast))
            else .error (.malformed "IPv6 option pointer overflow")
          else next

def validateIpv6Options (options : Bytes) (absoluteOffset : Nat)
    (multicast enforceActions : Bool) : Except WireError Unit :=
  validateIpv6OptionsFrom multicast enforceActions options.length absoluteOffset options

structure ChainCursor where
  nextHeader : UInt8
  nextHeaderPointer : Nat
  offset : Nat
  fragment : Option FragmentInfo
  fragmentPayload : Option Bytes
deriving DecidableEq

def ipv6Address (packet : Bytes) (offset : Nat) : IpAddr :=
  .v6 (BitVec.ofNat 128 (bigEndian (slice packet offset (offset + 16))))

def parsedIpv6 (packet : Bytes) (cursor : ChainCursor) (nextHeader : UInt8)
    (payload : Bytes) : ParsedIpPacket :=
  { version := .v6
    source := ipv6Address packet 8
    destination := ipv6Address packet 24
    nextHeader
    hopLimit := byteAt packet 7
    fragment := cursor.fragment
    fragmentPayload := cursor.fragmentPayload
    payload }

def hasOptions (nextHeader : UInt8) : Bool :=
  nextHeader = 0 || nextHeader = 60

def extensionLen (packet : Bytes) (offset : Nat) : Nat :=
  ((byteAt packet (offset + 1)).toNat + 1) * 8

def authenticationLen (packet : Bytes) (offset : Nat) : Nat :=
  ((byteAt packet (offset + 1)).toNat + 2) * 4

def checkExtension (packet : Bytes) (totalLen : Nat) (enforceActions : Bool)
    (nextHeader : UInt8) (offset : Nat) : Except WireError Nat := do
  require packet offset 2 totalLen
  let len := extensionLen packet offset
  require packet offset len totalLen
  if nextHeader = 43 ∧ enforceActions = true ∧ byteAt packet (offset + 3) ≠ 0 then
    let pointer ← ipv6WirePointer (offset + 2)
    .error (.ipv6RoutingDiscard pointer)
  else if hasOptions nextHeader then
    validateIpv6Options (slice packet (offset + 2) (offset + len)) (offset + 2)
      (byteAt packet 24 = 255) enforceActions
    pure len
  else pure len

def checkAuthentication (packet : Bytes) (totalLen offset : Nat) : Except WireError Nat := do
  require packet offset 2 totalLen
  let len := authenticationLen packet offset
  require packet offset len totalLen
  pure len

def fragmentInfoAt (packet : Bytes) (offset : Nat) : FragmentInfo :=
  { identification := u32At packet (offset + 4)
    offsetBytes := u16At packet (offset + 2) / 8 % 8192 * 8
    moreFragments := u16At packet (offset + 2) % 2 = 1 }

def checkFragment (packet : Bytes) (totalLen : Nat) (cursor : ChainCursor) :
    Except WireError Unit := do
  require packet cursor.offset 8 totalLen
  if cursor.fragment.isSome = true ∨ byteAt packet cursor.offset = 44 then
    .error (.malformed "multiple IPv6 fragment headers")
  else pure ()

def ChainCursor.past (packet : Bytes) (cursor : ChainCursor) (len : Nat) : ChainCursor :=
  { cursor with
    nextHeader := byteAt packet cursor.offset
    nextHeaderPointer := cursor.offset
    offset := cursor.offset + len }

def chainRound (packet : Bytes) (totalLen : Nat) (enforceActions : Bool)
    (cursor : ChainCursor) : Except WireError (ParsedIpPacket ⊕ ChainCursor) :=
  if cursor.nextHeader = 0 ∧ cursor.offset ≠ 40 ∧ enforceActions = true then do
    let pointer ← ipv6WirePointer cursor.nextHeaderPointer
    .error (.ipv6NextHeaderDiscard pointer)
  else if cursor.nextHeader = 0 ∨ cursor.nextHeader = 43 ∨ cursor.nextHeader = 60 then do
    let len ← checkExtension packet totalLen enforceActions cursor.nextHeader cursor.offset
    pure (.inr (cursor.past packet len))
  else if cursor.nextHeader = 51 then do
    let len ← checkAuthentication packet totalLen cursor.offset
    pure (.inr (cursor.past packet len))
  else if cursor.nextHeader = 44 then do
    checkFragment packet totalLen cursor
    let info := fragmentInfoAt packet cursor.offset
    let payload := slice packet (cursor.offset + 8) totalLen
    let found : ChainCursor :=
      { cursor with fragment := some info, fragmentPayload := some payload }
    if info.offsetBytes ≠ 0 then
      pure (.inl (parsedIpv6 packet found (byteAt packet cursor.offset) payload))
    else pure (.inr (found.past packet 8))
  else
    pure (.inl (parsedIpv6 packet cursor cursor.nextHeader
      (slice packet cursor.offset totalLen)))

def walkChain (packet : Bytes) (totalLen : Nat) (enforceActions : Bool) :
    Nat → ChainCursor → Except WireError ParsedIpPacket
  | 0, _ => .error (.unsupported "IPv6 extension chain exceeds limit")
  | rounds + 1, cursor =>
    match chainRound packet totalLen enforceActions cursor with
    | .error error => .error error
    | .ok (.inl parsed) => .ok parsed
    | .ok (.inr next) => walkChain packet totalLen enforceActions rounds next

def chainStart (packet : Bytes) : ChainCursor :=
  { nextHeader := byteAt packet 6
    nextHeaderPointer := 6
    offset := 40
    fragment := none
    fragmentPayload := none }

def parseIpv6 (packet : Bytes) (enforceActions : Bool) : Except WireError ParsedIpPacket :=
  if packet.length < 40 then .error .truncated
  else
    let totalLen := 40 + u16At packet 4
    if packet.length < totalLen then .error .truncated
    else walkChain packet totalLen enforceActions 8 (chainStart packet)

def parseIpPacket (packet : Bytes) (verifyIpv4Checksum : Bool) : Except WireError ParsedIpPacket :=
  if packet.length = 0 then .error .truncated
  else if (byteAt packet 0).toNat / 16 = 4 then parseIpv4 packet verifyIpv4Checksum
  else if (byteAt packet 0).toNat / 16 = 6 then parseIpv6 packet true
  else .error (.unsupported "IP version")

def packetLen (packet : Bytes) (version : IpVersion) : Nat :=
  match version with
  | .v4 => u16At packet 2
  | .v6 => 40 + u16At packet 4

end Sail.Netstack
