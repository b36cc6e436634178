/-
The fragment reassembler.

Fragments are kept by key until they cover their datagram. Each function returns its
result beside the state, also in front of an error. What the ledger answers to each
attempt to acquire credit is an argument.
-/

import Mathlib.Data.Prod.Lex
import Sail.Netstack.Buffer.Budget
import Sail.Lib.OrderedMap
import Sail.Netstack.Ip.Wire
import Sail.Netstack.TimerWheel

namespace Sail.Netstack

open Bytes

def maxReassembledBytes : Nat := 65535
def fragmentTimerMinTickMs : Nat := 10
def timerWheelSafeDeltaTicks : Nat := 4294967294
def u16Max : Nat := 65535
def u32Max : Nat := 4294967295

/-- What the ledger answers to each attempt of one call, by its number: nothing
when it grants all of the credit, or why it refuses. -/
abbrev LedgerAnswers := Nat → Option BudgetError

structure FragmentKey where
  version : IpVersion
  source : IpAddr
  destination : IpAddr
  protocol : UInt8
  identification : Nat
deriving DecidableEq

abbrev EvictionKey := Nat ×ₗ Nat

structure Assembly where
  header : Option Bytes
  ipv6PreviousNextHeader : Option Nat
  protocol : UInt8
  pieces : OrderedMap Nat Bytes
  totalPayloadLen : Option Nat
  createdAtMs : Nat
  expiryTimer : TimerId
  evictionKey : EvictionKey

structure FragmentStats where
  activeDatagrams : Nat
  bufferedFragments : Nat
  completedDatagrams : Nat
  expiredDatagrams : Nat
  evictedDatagrams : Nat
  overlapDrops : Nat
deriving DecidableEq

structure FragmentExpirations where
  expiredDatagrams : Nat
  invokingPackets : List Bytes
deriving DecidableEq

inductive FragmentError where
  | wire (error : WireError)
  | budget (error : BudgetError)
  | clockWentBackwards
  | timer (error : TimerError)
  | malformed (message : String)
  | overlap
deriving DecidableEq

def FragmentError.ofTimer : TimerError → FragmentError
  | .clockWentBackwards _ _ => .clockWentBackwards
  | .deadlineOutOfRange => .timer .deadlineOutOfRange

structure FragmentReassembler where
  timeoutMs : Nat
  nowMs : Nat
  timeoutDivisor : Nat
  expiryTickMs : Nat
  expiryTickPositive : 0 < expiryTickMs
  expiry : TimerWheel FragmentKey
  assemblies : KeyedMap FragmentKey Assembly
  evictionIndex : OrderedMap EvictionKey FragmentKey
  nextEvictionSerial : Nat
  stats : FragmentStats

/-! ### What a packet says about itself -/

def fragmentEnd (fragment : FragmentInfo) (payloadLen : Nat) : Except FragmentError Nat :=
  if payloadLen = 0 then .error (.malformed "empty non-atomic fragment")
  else if fragment.moreFragments = true ∧ payloadLen % 8 ≠ 0 then
    .error (.malformed "non-final fragment payload is not a multiple of eight")
  else if u32Max < payloadLen then
    .error (.malformed "fragment payload length exceeds u32")
  else if u32Max < fragment.offsetBytes + payloadLen then
    .error (.malformed "fragment range overflow")
  else if maxReassembledBytes < fragment.offsetBytes + payloadLen then
    .error (.malformed "reassembled datagram is too large")
  else .ok (fragment.offsetBytes + payloadLen)

/-- Follow the extension chain to the Fragment header: the bytes in front of
it, where the header before it names it, and the protocol behind it. -/
def ipv6FragmentHeaderFrom (packet : Bytes) :
    Nat → UInt8 → Nat → Nat → Except FragmentError (Bytes × Option Nat × UInt8)
  | 0, _, _, _ => .error (.malformed "IPv6 extension chain exceeds limit")
  | rounds + 1, nextHeader, previousNextHeader, offset =>
    if nextHeader = 44 then
      if packet.length < offset + 8 then
        .error (.malformed "truncated IPv6 fragment header")
      else .ok (packet.take offset, some previousNextHeader, byteAt packet offset)
    else if nextHeader = 0 ∨ nextHeader = 43 ∨ nextHeader = 60 then
      if packet.length < offset + extensionLen packet offset then
        .error (.malformed "truncated IPv6 extension header")
      else
        ipv6FragmentHeaderFrom packet rounds (byteAt packet offset) offset
          (offset + extensionLen packet offset)
    else if nextHeader = 51 then
      if packet.length < offset + authenticationLen packet offset then
        .error (.malformed "truncated IPv6 extension header")
      else
        ipv6FragmentHeaderFrom packet rounds (byteAt packet offset) offset
          (offset + authenticationLen packet offset)
    else .error (.malformed "IPv6 fragment header not found")

def ipv6FragmentHeader (packet : Bytes) : Except FragmentError (Bytes × Option Nat × UInt8) :=
  ipv6FragmentHeaderFrom packet 8 (byteAt packet 6) 6 40

def fragmentHeader (packet : Bytes) (version : IpVersion) :
    Except FragmentError (Bytes × Option Nat × UInt8) :=
  match version with
  | .v4 => .ok (packet.take (ipv4HeaderLen packet), none, byteAt packet 9)
  | .v6 => ipv6FragmentHeader packet

def reassembledSizeExceeds (version : IpVersion) (headerLen payloadLen : Nat) : Bool :=
  match version with
  | .v4 => u16Max < headerLen + payloadLen
  | .v6 => headerLen < 40 || u16Max < headerLen - 40 + payloadLen

structure Fragment where
  key : FragmentKey
  protocol : UInt8
  info : FragmentInfo
  stop : Nat
  header : Bytes
  previousNextHeader : Option Nat
  payload : Bytes
deriving DecidableEq

def Fragment.read (ip : ParsedIpPacket) (info : FragmentInfo) (stop : Nat) (header : Bytes)
    (previousNextHeader : Option Nat) (protocol : UInt8) : Fragment :=
  { key :=
      { version := ip.version
        source := ip.source
        destination := ip.destination
        protocol := if ip.version = .v4 then protocol else 0
        identification := info.identification }
    protocol
    info
    stop
    header
    previousNextHeader
    payload := ip.fragmentPayload.getD ip.payload }

def inspect (packet : Bytes) : Except FragmentError (Option Fragment) :=
  match parseIpPacket packet true with
  | .error error => .error (.wire error)
  | .ok ip =>
    match ip.fragment with
    | none => .ok none
    | some info =>
      if info.isAtomic then .ok none
      else
        let payload := ip.fragmentPayload.getD ip.payload
        match fragmentEnd info payload.length with
        | .error error => .error error
        | .ok stop =>
          match fragmentHeader packet ip.version with
          | .error error => .error error
          | .ok (header, previousNextHeader, protocol) =>
            if reassembledSizeExceeds ip.version header.length stop then
              .error (.malformed "reassembled IP datagram is too large")
            else
              .ok (some (.read ip info stop header previousNextHeader protocol))

/-! ### Completion -/

def pieceEnd (offset : Nat) (bytes : Bytes) : Nat :=
  min (offset + min bytes.length u32Max) u32Max

/-- Walk the pieces in order of offset; nothing when one is out of place. -/
def coveredFrom : Nat → List (Nat × Bytes) → Option Nat
  | expected, [] => some expected
  | expected, piece :: rest =>
    if piece.1 ≠ expected then none else coveredFrom (pieceEnd expected piece.2) rest

def isComplete (assembly : Assembly) : Bool :=
  match assembly.totalPayloadLen, assembly.header with
  | some total, some _ => coveredFrom 0 assembly.pieces.entries = some total
  | _, _ => false

def pairSum : Bytes → Nat
  | first :: second :: rest => first.toNat * 256 + second.toNat + pairSum rest
  | _ => 0

def ipv4Checksum (header : Bytes) : Nat :=
  65535 - OnesComplement.fold (pairSum header)

def rebuild (assembly : Assembly) (version : IpVersion) : Except FragmentError Bytes :=
  match assembly.header with
  | none => .error (.malformed "missing first fragment")
  | some header =>
    let packet := header ++ assembly.pieces.entries.flatMap Prod.snd
    match version with
    | .v4 =>
      if u16Max < packet.length then .error (.malformed "IPv4 datagram too large")
      else
        let sized := putU16 packet 2 packet.length
        let whole := putU16 sized 6 0
        let cleared := putU16 whole 10 0
        .ok (putU16 cleared 10 (ipv4Checksum (cleared.take (ipv4HeaderLen cleared))))
    | .v6 =>
      match assembly.ipv6PreviousNextHeader with
      | none => .error (.malformed "missing IPv6 fragment predecessor")
      | some previous =>
        let named := overwrite packet previous [assembly.protocol]
        if u16Max < named.length - 40 then
          .error (.malformed "IPv6 datagram too large")
        else .ok (putU16 named 4 (named.length - 40))

def initialFragmentPacket (assembly : Assembly) (key : FragmentKey) : Option Bytes :=
  match assembly.pieces.lookup 0, assembly.header with
  | some first, some header =>
    match key.version with
    | .v4 => some (header ++ first)
    | .v6 =>
      if header.length < 40 ∨ u16Max < header.length - 40 + 8 + first.length then none
      else
        let sized := putU16 header 4 (header.length - 40 + 8 + first.length)
        some (sized ++ ([assembly.protocol, 0] ++
          (u16Bytes 1 ++ (u32Bytes key.identification ++ first))))
  | _, _ => none

def Assembly.empty (protocol : UInt8) (createdAtMs : Nat) (expiryTimer : TimerId)
    (evictionKey : EvictionKey) : Assembly :=
  { header := none
    ipv6PreviousNextHeader := none
    protocol
    pieces := OrderedMap.empty
    totalPayloadLen := none
    createdAtMs
    expiryTimer
    evictionKey }

def Assembly.withHeader (assembly : Assembly) (fragment : Fragment) : Assembly :=
  if fragment.info.offsetBytes = 0 then
    { assembly with
      header := some fragment.header
      ipv6PreviousNextHeader := fragment.previousNextHeader }
  else assembly

def Assembly.withPiece (assembly : Assembly) (fragment : Fragment) : Assembly :=
  { assembly with
    totalPayloadLen :=
      if fragment.info.moreFragments then assembly.totalPayloadLen
      else some fragment.stop
    pieces := assembly.pieces.insert fragment.info.offsetBytes fragment.payload }

namespace FragmentReassembler

def new (timeoutMs : Nat) : FragmentReassembler :=
  let expiryTickMs :=
    max (divCeil timeoutMs timerWheelSafeDeltaTicks) fragmentTimerMinTickMs
  have tickPositive : 0 < expiryTickMs :=
    Nat.lt_of_lt_of_le (by decide) (Nat.le_max_right _ fragmentTimerMinTickMs)
  { timeoutMs
    nowMs := 0
    timeoutDivisor := 1
    expiryTickMs
    expiryTickPositive := tickPositive
    expiry := TimerWheel.new expiryTickMs 0 tickPositive
    assemblies := ∅
    evictionIndex := OrderedMap.empty
    nextEvictionSerial := 0
    stats :=
      { activeDatagrams := 0
        bufferedFragments := 0
        completedDatagrams := 0
        expiredDatagrams := 0
        evictedDatagrams := 0
        overlapDrops := 0 } }

/-! ### Dropping assemblies -/

def takeAssembly (state : FragmentReassembler) (key : FragmentKey) :
    Option Assembly × FragmentReassembler :=
  match state.assemblies.lookup key with
  | none => (none, state)
  | some assembly =>
    let assemblies := state.assemblies.erase key
    (some assembly,
      { state with
        assemblies
        evictionIndex := state.evictionIndex.erase assembly.evictionKey
        stats :=
          { state.stats with
            activeDatagrams := assemblies.entries.length
            bufferedFragments := state.stats.bufferedFragments - assembly.pieces.size } })

def removeAssembly (state : FragmentReassembler) (key : FragmentKey) :
    Option Assembly × FragmentReassembler :=
  match state.takeAssembly key with
  | (none, unchanged) => (none, unchanged)
  | (some assembly, taken) =>
    (some assembly,
      { taken with expiry := (taken.expiry.cancel assembly.expiryTimer).2 })

def expireOne (maxQuotes : Nat) (progress : FragmentExpirations × FragmentReassembler)
    (key : FragmentKey) : FragmentExpirations × FragmentReassembler :=
  match progress.2.takeAssembly key with
  | (none, unchanged) => (progress.1, unchanged)
  | (some assembly, taken) =>
    let quotes :=
      if progress.1.invokingPackets.length < maxQuotes then
        (initialFragmentPacket assembly key).toList
      else []
    ({ expiredDatagrams := satAdd progress.1.expiredDatagrams 1
       invokingPackets := progress.1.invokingPackets ++ quotes },
      taken)

def expireDue (state : FragmentReassembler) (due : List FragmentKey) (maxQuotes : Nat) :
    FragmentExpirations × FragmentReassembler :=
  due.foldl (expireOne maxQuotes) ({ expiredDatagrams := 0, invokingPackets := [] }, state)

def countExpired (state : FragmentReassembler) (expired : Nat) : FragmentReassembler :=
  { state with
    stats :=
      { state.stats with expiredDatagrams := satAdd state.stats.expiredDatagrams expired } }

/-! ### The clock -/

def effectiveTimeout (state : FragmentReassembler) (timeoutDivisor : Nat) : Nat :=
  max (state.timeoutMs / max timeoutDivisor 1) 1

def advanceCurrent (state : FragmentReassembler) (nowMs : Nat) :
    Except FragmentError Nat × FragmentReassembler :=
  if nowMs < state.nowMs then (.error .clockWentBackwards, state)
  else
    let advanced := state.expiry.advanceTo nowMs
    let moved := { state with nowMs, expiry := advanced.2 }
    match advanced.1 with
    | .error error => (.error (.ofTimer error), moved)
    | .ok due =>
      let expired := moved.expireDue due 0
      (.ok expired.1.expiredDatagrams, expired.2.countExpired expired.1.expiredDatagrams)

def rescheduleAll (nowMs effectiveTimeout : Nat) :
    List (FragmentKey × Assembly) → List FragmentKey → FragmentReassembler →
      Except FragmentError (List FragmentKey) × FragmentReassembler
  | [], expired, state => (.ok expired, state)
  | (key, assembly) :: rest, expired, state =>
    if effectiveTimeout ≤ nowMs - assembly.createdAtMs then
      rescheduleAll nowMs effectiveTimeout rest (expired ++ [key]) state
    else
      let scheduled :=
        state.expiry.schedule (satAdd assembly.createdAtMs effectiveTimeout) key
      match scheduled.1 with
      | .error error => (.error (.ofTimer error), { state with expiry := scheduled.2 })
      | .ok timer =>
        rescheduleAll nowMs effectiveTimeout rest expired
          { state with
            expiry := scheduled.2
            assemblies := state.assemblies.modify key
              (fun assembly => { assembly with expiryTimer := timer }) }

def rebuildExpiry (state : FragmentReassembler) (nowMs timeoutDivisor : Nat) :
    Except FragmentError (List FragmentKey) × FragmentReassembler :=
  let restarted :=
    { state with
      expiry := TimerWheel.new state.expiryTickMs nowMs state.expiryTickPositive }
  let rescheduled := rescheduleAll nowMs (state.effectiveTimeout timeoutDivisor)
    state.assemblies.toList [] restarted
  match rescheduled.1 with
  | .error error => (.error error, rescheduled.2)
  | .ok expired => (.ok expired, { rescheduled.2 with timeoutDivisor })

def advanceTimeUnderPressureWithQuotes (state : FragmentReassembler)
    (nowMs timeoutDivisor maxQuotes : Nat) :
    Except FragmentError FragmentExpirations × FragmentReassembler :=
  if nowMs < state.nowMs then (.error .clockWentBackwards, state)
  else
    let moved := { state with nowMs }
    let divisor := max timeoutDivisor 1
    let due : Except FragmentError (List FragmentKey) × FragmentReassembler :=
      if divisor = moved.timeoutDivisor then
        let advanced := moved.expiry.advanceTo nowMs
        match advanced.1 with
        | .error error => (.error (.ofTimer error), { moved with expiry := advanced.2 })
        | .ok due => (.ok due, { moved with expiry := advanced.2 })
      else moved.rebuildExpiry nowMs divisor
    match due.1 with
    | .error error => (.error error, due.2)
    | .ok keys =>
      let expired := due.2.expireDue keys maxQuotes
      (.ok expired.1, expired.2.countExpired expired.1.expiredDatagrams)

def clear (state : FragmentReassembler) : FragmentReassembler :=
  { state with
    assemblies := ∅
    evictionIndex := OrderedMap.empty
    expiry := TimerWheel.new state.expiryTickMs state.nowMs state.expiryTickPositive
    stats := { state.stats with activeDatagrams := 0, bufferedFragments := 0 } }

/-! ### Taking a fragment -/

def overlaps (state : FragmentReassembler) (key : FragmentKey) (start stop : Nat) : Bool :=
  match state.assemblies.lookup key with
  | none => false
  | some assembly =>
    assembly.pieces.entries.any (fun piece =>
      start < pieceEnd piece.1 piece.2 && piece.1 < stop)

def conflicts (state : FragmentReassembler) (fragment : Fragment) : Bool :=
  match state.assemblies.lookup fragment.key with
  | none => false
  | some assembly =>
    if assembly.protocol ≠ fragment.protocol ∨
        assembly.totalPayloadLen.any (fun total => total < fragment.stop) then true
    else if fragment.info.moreFragments = false ∧ assembly.pieces.entries.any (fun piece =>
          fragment.stop < pieceEnd piece.1 piece.2) then true
    else
      let total :=
        if fragment.info.moreFragments then assembly.totalPayloadLen
        else some fragment.stop
      let finalHeaderLen :=
        if fragment.info.offsetBytes = 0 then some fragment.header.length
        else assembly.header.map List.length
      match total, finalHeaderLen with
      | some total, some headerLen =>
        reassembledSizeExceeds fragment.key.version headerLen total
      | _, _ => false

def evictOldestAssembly (state : FragmentReassembler) : Bool × FragmentReassembler :=
  match state.evictionIndex.firstEntry with
  | none => (false, state)
  | some entry =>
    let removed := state.removeAssembly entry.2
    (removed.1.isSome, removed.2)

/-- Ask for credit until it is granted or nothing is left to evict. Every round
but the last evicts an assembly, so the number of assemblies bounds the rounds.
The result tells whether the credit covers a new assembly. -/
def acquireFragmentCredit (answers : LedgerAnswers) (key : FragmentKey) :
    Nat → Nat → FragmentReassembler → Except BudgetError Bool × FragmentReassembler
  | rounds, attempt, state =>
    match answers attempt with
    | none => (.ok (state.assemblies.lookup key).isNone, state)
    | some error =>
      match rounds with
      | 0 => (.error error, state)
      | rounds + 1 =>
        match state.evictOldestAssembly with
        | (false, unchanged) => (.error error, unchanged)
        | (true, evicted) =>
          acquireFragmentCredit answers key rounds (attempt + 1)
            { evicted with
              stats :=
                { evicted.stats with
                  evictedDatagrams := satAdd evicted.stats.evictedDatagrams 1 } }

/-- Look for an eviction serial not in use. The index has finitely many keys, so
one round more than it has entries finds one. -/
def nextEvictionKey (createdAtMs : Nat) :
    Nat → FragmentReassembler → EvictionKey × FragmentReassembler
  | rounds, state =>
    let key : EvictionKey := toLex (createdAtMs, state.nextEvictionSerial)
    let next := { state with nextEvictionSerial := (state.nextEvictionSerial + 1) % 2 ^ 64 }
    match rounds with
    | 0 => (key, next)
    | rounds + 1 =>
      if state.evictionIndex.contains key then nextEvictionKey createdAtMs rounds next
      else (key, next)

def openAssembly (state : FragmentReassembler) (fragment : Fragment) (nowMs : Nat)
    (coversAssembly : Bool) : Except FragmentError Unit × FragmentReassembler :=
  if (state.assemblies.lookup fragment.key).isSome then (.ok (), state)
  else if coversAssembly = false then
    (.error (.malformed "new assembly lacked metadata credit"), state)
  else
    let deadline := satAdd nowMs (state.effectiveTimeout state.timeoutDivisor)
    let scheduled := state.expiry.schedule deadline fragment.key
    let timed := { state with expiry := scheduled.2 }
    match scheduled.1 with
    | .error error => (.error (.ofTimer error), timed)
    | .ok timer =>
      let keyed := nextEvictionKey nowMs state.evictionIndex.size timed
      let assemblies := keyed.2.assemblies.insert fragment.key
        (.empty fragment.protocol nowMs timer keyed.1)
      (.ok (),
        { keyed.2 with
          assemblies
          evictionIndex := keyed.2.evictionIndex.insert keyed.1 fragment.key
          stats :=
            { keyed.2.stats with activeDatagrams := assemblies.entries.length } })

def storeFragment (state : FragmentReassembler) (fragment : Fragment) :
    Except FragmentError (Option Bytes) × FragmentReassembler :=
  match state.assemblies.lookup fragment.key with
  | none => (.error (.malformed "fragment assembly disappeared"), state)
  | some assembly =>
    let headed := assembly.withHeader fragment
    let put := fun (changed : Assembly) =>
      { state with assemblies := state.assemblies.insert fragment.key changed }
    if fragment.info.moreFragments = false ∧
        headed.totalPayloadLen.any (fun total => total ≠ fragment.stop) then
      (.error (.malformed "conflicting final fragment lengths"),
        ((put headed).removeAssembly fragment.key).2)
    else
      let filled := headed.withPiece fragment
      let stored :=
        { put filled with
          stats :=
            { state.stats with
              bufferedFragments := satAdd state.stats.bufferedFragments 1 } }
      if isComplete filled = false then (.ok none, stored)
      else
        match stored.removeAssembly fragment.key with
        | (none, unchanged) =>
          (.error (.malformed "complete assembly disappeared"), unchanged)
        | (some complete, removed) =>
          match rebuild complete fragment.key.version with
          | .error error => (.error error, removed)
          | .ok packet =>
            (.ok (some packet),
              { removed with
                stats :=
                  { removed.stats with
                    completedDatagrams := satAdd removed.stats.completedDatagrams 1 } })

def ingestFragment (state : FragmentReassembler) (fragment : Fragment) (nowMs : Nat)
    (answers : LedgerAnswers) : Except FragmentError (Option Bytes) × FragmentReassembler :=
  if state.overlaps fragment.key fragment.info.offsetBytes fragment.stop then
    let removed := (state.removeAssembly fragment.key).2
    (.error .overlap,
      { removed with
        stats := { removed.stats with overlapDrops := satAdd removed.stats.overlapDrops 1 } })
  else if state.conflicts fragment then
    (.error (.malformed "fragment conflicts with established datagram bounds"),
      (state.removeAssembly fragment.key).2)
  else
    let credit := acquireFragmentCredit answers fragment.key state.assemblies.entries.length 0 state
    match credit.1 with
    | .error error => (.error (.budget error), credit.2)
    | .ok coversAssembly =>
      let opened := credit.2.openAssembly fragment nowMs coversAssembly
      match opened.1 with
      | .error error => (.error error, opened.2)
      | .ok () => opened.2.storeFragment fragment

/-- Buffer one fragment and return the datagram it completes. Other packets pass
through unchanged. -/
def ingest (state : FragmentReassembler) (packet : Bytes) (nowMs : Nat)
    (answers : LedgerAnswers) : Except FragmentError (Option Bytes) × FragmentReassembler :=
  let advanced := state.advanceCurrent nowMs
  match advanced.1 with
  | .error error => (.error error, advanced.2)
  | .ok _ =>
    match inspect packet with
    | .error error => (.error error, advanced.2)
    | .ok none => (.ok (some packet), advanced.2)
    | .ok (some fragment) => advanced.2.ingestFragment fragment nowMs answers

end FragmentReassembler

end Sail.Netstack
