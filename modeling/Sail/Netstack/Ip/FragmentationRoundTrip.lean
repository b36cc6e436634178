/-
Fragmentation and reassembly undo each other.

A packet longer than the MTU leaves as fragments, and an empty reassembler given them
in any order hands out the packet again: an IPv6 packet byte for byte, an IPv4 packet
up to the identification, the flags and the checksum.
-/

import Sail.Netstack.Ip.FragmentationIpv4
import Sail.Netstack.Ip.FragmentationIpv6

namespace Sail.Netstack

open Bytes

variable {packet : Bytes}

/-! ### The IPv6 packet put together -/

section Rebuilt

variable {packet : Bytes} {front back : List ExtensionRecord} {middle last : UInt8}
  {insertion stop : Nat}

section

variable (split : SplitIpv6 packet front back middle last insertion stop)

include split

theorem take_ipv6CutBytes (payload : Bytes) (identification : Nat) (cut : Cut) :
    (ipv6CutBytes packet payload insertion (lastPointer 6 front) identification cut).take
        insertion =
      namedHeader packet insertion (lastPointer 6 front) (insertion - 40 + 8 + cut.amount) := by
  have length := length_namedHeader split (insertion - 40 + 8 + cut.amount)
  unfold ipv6CutBytes ipv6Framed
  rw [List.take_append_of_le_length (Nat.le_of_eq length.symm), List.take_of_length_le
    (Nat.le_of_eq length)]

theorem wholeIpv6Header_eq (payloadLen : Nat) :
    wholeIpv6Header (namedHeader packet insertion (lastPointer 6 front) payloadLen)
        (lastPointer 6 front) (byteAt packet (lastPointer 6 front)) (packet.length - 40) =
      packet.take insertion := by
  obtain ⟨lower, middleLe, upper⟩ := split.insertion_le
  have exactLength := split.exact
  have pointerInside := split.pointer_lt
  have headerLength := length_namedHeader split payloadLen
  have headerBytes := @byteAt_namedHeader packet front back middle last insertion stop split
    payloadLen
  generalize namedHeader packet insertion (lastPointer 6 front) payloadLen = header at *
  generalize lastPointer 6 front = pointer at *
  have fits : pointer + ([byteAt packet pointer] : Bytes).length ≤ header.length := by
    rw [List.length_singleton]
    omega
  have renamedLength := length_overwrite fits
  have renamedBytes := fun position => byteAt_overwrite fits position
  rw [List.length_singleton] at renamedBytes
  unfold wholeIpv6Header
  generalize overwrite header pointer [byteAt packet pointer] = renamed at *
  have taken : (packet.take insertion).length = insertion := by
    rw [List.length_take]
    omega
  have field := u16At_putU16 (show 4 + 2 ≤ renamed.length by omega)
    (show packet.length - 40 < 65536 by
      have range := u16At_lt packet 4
      omega)
  have original : u16At (packet.take insertion) 4 = packet.length - 40 := by
    rw [u16At_take (by omega)]
    omega
  obtain ⟨high, low⟩ := byteAt_of_u16At (field.trans original.symm)
  apply ext_byteAt
  · rw [length_putU16 _ (by omega)]
    omega
  intro index below
  rw [length_putU16 _ (by omega)] at below
  by_cases isHigh : index = 4
  · rw [isHigh]
    exact high
  by_cases isLow : index = 5
  · rw [isLow]
    exact low
  rw [byteAt_putU16_of_ne _ _ (by omega) (by omega), renamedBytes, byteAt_take (by omega)]
  by_cases here : index = pointer
  · rw [if_pos (by omega), here, Nat.sub_self]
    rfl
  · rw [if_neg (by omega), headerBytes (by omega) ⟨isHigh, isLow⟩, if_neg here]

theorem rebuilt_ipv6 (identification : Nat) (cut : Cut) :
    rebuiltHeader (ipv6CutTile packet insertion (lastPointer 6 front) identification cut)
        (packet.drop insertion).length ++ packet.drop insertion = packet := by
  obtain ⟨lower, middleLe, upper⟩ := split.insertion_le
  have headerLength := length_namedHeader split (insertion - 40 + 8 + cut.amount)
  have total : insertion - 40 + (packet.drop insertion).length = packet.length - 40 := by
    rw [List.length_drop]
    omega
  unfold ipv6CutTile ipv6Tile rebuiltHeader
  dsimp only [Option.getD_some]
  rw [take_ipv6CutBytes split, headerLength, total, wholeIpv6Header_eq split]
  exact List.take_append_drop insertion packet

end

end Rebuilt

/-! ### What fragmentation delivers -/

def Restored (version : IpVersion) (packet datagram : Bytes) : Prop :=
  match version with
  | .v4 => Ipv4Restored packet datagram
  | .v6 => datagram = packet

/-- The extension chain of an IPv6 packet leaves room for a Fragment header, and
the first fragment holds all of it. -/
def ChainFits (packet : Bytes) (mtu : Nat) : Prop :=
  ∀ records, extensionRecords packet = .ok records → records.length ≤ 6 ∧
      chainEnd 40 records ≤ (insertionPoint records).1 +
        (mtu - ((insertionPoint records).1 + 8)) / 8 * 8

theorem alignedChunk_eq {mtu headerLen chunk : Nat}
    (aligned : alignedChunk mtu headerLen = .ok chunk) : chunk = (mtu - headerLen) / 8 * 8 := by
  unfold alignedChunk at aligned
  split_ifs at aligned
  exact (Except.ok.inj aligned).symm

variable {ip : ParsedIpPacket}

theorem wholeIpv4_of_parsed (parsed : parseIpPacket packet true = .ok ip)
    (version : ip.version = .v4) (exactLength : u16At packet 2 = packet.length) :
    WholeIpv4 packet ∧ ip = ipv4Parsed packet := by
  unfold parseIpPacket at parsed
  split_ifs at parsed with empty four six
  · obtain ⟨valid, parsedEq⟩ := parseIpv4_ok_iff.mp parsed
    exact ⟨⟨valid, exactLength, four⟩, parsedEq⟩
  · unfold parseIpv6 at parsed
    dsimp only at parsed
    split_ifs at parsed
    rw [walkChain_version parsed] at version
    cases version

theorem walkChain_of_parsed (parsed : parseIpPacket packet true = .ok ip)
    (version : ip.version = .v6) (exactLength : 40 + u16At packet 4 = packet.length) :
    (byteAt packet 0).toNat / 16 = 6 ∧
      walkChain packet packet.length true 8 (chainStart packet) = .ok ip := by
  unfold parseIpPacket at parsed
  split_ifs at parsed with empty four six
  · obtain ⟨valid, parsedEq⟩ := parseIpv4_ok_iff.mp parsed
    rw [parsedEq] at version
    cases version
  · unfold parseIpv6 at parsed
    dsimp only at parsed
    rw [exactLength] at parsed
    split_ifs at parsed
    exact ⟨six, parsed⟩

theorem unfragmented_ipv4
    (notFragment : (ipv4Parsed packet).fragment.any (fun info => !info.isAtomic) = false) :
    u16At packet 6 % 8192 = 0 := by
  unfold ipv4Parsed at notFragment
  dsimp only at notFragment
  split_ifs at notFragment with isFragment
  · simp only [Option.any_some, FragmentInfo.isAtomic, Bool.not_eq_false'] at notFragment
    simp only [Bool.and_eq_true, decide_eq_true_eq] at notFragment
    omega
  · simp only [Bool.or_eq_true, decide_eq_true_eq, not_or, not_not] at isFragment
    omega

/-- A packet longer than the MTU leaves as the fragments of one datagram, which
is the packet again. -/
theorem fragments_delivered {mtu identification : Nat} {fragments : List Bytes}
    (parsed : parseIpPacket packet true = .ok ip)
    (exactLength : packetLen packet ip.version = packet.length)
    (notFragment : ip.fragment.any (fun info => !info.isAtomic) = false)
    (identificationRange : identification < 4294967296) (large : mtu < packet.length)
    (chainFits : ip.version = .v6 → ChainFits packet mtu)
    (done : (match ip.version with
      | .v4 => fragmentIpv4 packet mtu identification
      | .v6 => fragmentIpv6 packet mtu identification) = .ok fragments) :
    ∃ key protocol payload first tiles, Delivers mtu key protocol payload first fragments tiles ∧
        Restored ip.version packet (rebuiltHeader first payload.length ++ payload) := by
  cases version : ip.version with
  | v4 =>
    rw [version] at done exactLength
    obtain ⟨whole, parsedEq⟩ := wholeIpv4_of_parsed parsed version exactLength
    rw [parsedEq] at notFragment
    obtain ⟨copied, capacity, tiles, delivers, larger⟩ := fragmentIpv4_delivers whole large done
    exact ⟨_, _, _, _, tiles, delivers,
      ipv4Restored_rebuilt whole (unfragmented_ipv4 notFragment) (Nat.le_of_lt larger)⟩
  | v6 =>
    rw [version] at done exactLength
    have stated : packet.length = 40 + u16At packet 4 := exactLength.symm
    obtain ⟨isIpv6, walked⟩ := walkChain_of_parsed parsed version exactLength
    obtain ⟨records, listed, done⟩ := bind_ok done
    obtain ⟨chunkLen, chunkEq, done⟩ := bind_ok done
    obtain ⟨short, fits⟩ := chainFits version records listed
    obtain ⟨middle, last, split⟩ := splitIpv6_of_parsed stated isIpv6 walked listed short
    obtain ⟨positive, aligned, chunkFits⟩ := alignedChunk_ok chunkEq
    rw [← alignedChunk_eq chunkEq] at fits
    have pointer : (insertionPoint records).2 =
        lastPointer 6 (records.take (includedRecords records)) := by
      rw [insertionPoint_eq]
    rw [pointer] at done
    obtain ⟨tiles, delivers⟩ := fragmentIpv6_delivers split identificationRange chunkFits large
      fits positive aligned done
    exact ⟨_, _, _, _, tiles, delivers, rebuilt_ipv6 split _ _⟩

/-! ### Any order of arrival -/

def FragmentReassembler.firstDeadline (state : FragmentReassembler) : List Arrival → Nat
  | [] => 0
  | arrival :: _ => satAdd arrival.nowMs (state.effectiveTimeout state.timeoutDivisor)

theorem Vacant.ingest_whole {state : FragmentReassembler} (vacant : Vacant state)
    {arrival : Arrival} (passes : inspect arrival.packet = .ok none)
    (forward : state.nowMs ≤ arrival.nowMs) (inRange : arrival.nowMs < u64Max) :
    state.ingestAll [arrival] = [.ok (some arrival.packet)] := by
  obtain ⟨list, clocked, empty, _⟩ := vacant.clocked
  obtain ⟨expiry, stats, advanced, _⟩ := clocked.advanceCurrent forward inRange
    (fun pending member => absurd (empty ▸ member) List.not_mem_nil)
  unfold FragmentReassembler.ingestAll FragmentReassembler.ingest
  rw [advanced, passes]
  rfl

theorem inspect_unfragmented (parsed : parseIpPacket packet true = .ok ip)
    (notFragment : ip.fragment.any (fun info => !info.isAtomic) = false) :
    inspect packet = .ok none := by
  unfold inspect
  rw [parsed]
  dsimp only
  cases found : ip.fragment with
  | none => rfl
  | some info =>
    rw [found, Option.any_some, Bool.not_eq_false'] at notFragment
    dsimp only
    rw [if_pos notFragment]

theorem restored_self (parsed : parseIpPacket packet true = .ok ip) :
    Restored ip.version packet packet := by
  rcases parseIpPacket_ok parsed with ⟨valid, parsedEq⟩ | version
  · rw [parsedEq]
    exact ⟨rfl, fun _ _ => rfl, rfl, valid.checksum⟩
  · rw [version]
    rfl

theorem exists_order {fragments : List Bytes} {tiles : List Fragment} {arrivals : List Arrival}
    (reads : List.Forall₂ (fun fragment tile => inspect fragment = .ok (some tile)) fragments tiles)
    (perm : (arrivals.map Arrival.packet).Perm fragments) :
    ∃ order, order.Perm tiles ∧
      List.Forall₂ (fun (arrival : Arrival) tile => inspect arrival.packet = .ok (some tile))
        arrivals order := by
  obtain ⟨order, inOrder, orderPerm⟩ := List.perm_comp_forall₂ perm reads
  exact ⟨order, orderPerm, List.forall₂_map_left_iff.mp inOrder⟩

theorem packetLen_take (parsed : parseIpPacket packet true = .ok ip) :
    packetLen (packet.take (packetLen packet ip.version)) ip.version =
      (packet.take (packetLen packet ip.version)).length := by
  obtain ⟨inside, _⟩ := parseIpPacket_take parsed
  rw [List.length_take, Nat.min_eq_left inside]
  cases version : ip.version with
  | v4 =>
    rcases parseIpPacket_ok parsed with ⟨valid, _⟩ | isIpv6
    · have lower := valid.headerLower
      have upper := valid.headerUpper
      exact u16At_take (show 2 + 1 < u16At packet 2 by omega)
    · rw [version] at isIpv6
      cases isIpv6
  | v6 => exact congrArg (40 + ·) (u16At_take (show 4 + 1 < 40 + u16At packet 4 by omega))

/-- A packet that is no fragment itself comes back from its fragments, in
whatever order they arrive in time at an empty reassembler. -/
theorem fragments_reassemble_to_packet {packet : Bytes} {mtu : Nat} (identification : UInt32)
    {ip : ParsedIpPacket} {fragments : List Bytes}
    (parsed : parseIpPacket packet true = .ok ip)
    (notFragment : ip.fragment.any (fun info => !info.isAtomic) = false)
    (chainFits : ip.version = .v6 → mtu < packetLen packet ip.version →
      ChainFits (packet.take (packetLen packet ip.version)) mtu)
    (accepted : fragmentOutboundIpPacket packet mtu identification.toNat = .ok fragments) :
    (∀ fragment ∈ fragments, fragment.length ≤ mtu) ∧
      (∀ fragment ∈ fragments.dropLast, ∃ tile, inspect fragment = .ok (some tile) ∧
        tile.payload.length % 8 = 0) ∧
      ∀ state, Vacant state → ∀ arrivals : List Arrival,
        (arrivals.map Arrival.packet).Perm fragments →
        InTime (state.firstDeadline arrivals) state.nowMs arrivals →
        ∃ datagram, state.ingestAll arrivals =
            List.replicate (fragments.length - 1) (.ok none) ++ [.ok (some datagram)] ∧
          Restored ip.version (packet.take (packetLen packet ip.version)) datagram := by
  obtain ⟨inside, trimmed⟩ := parseIpPacket_take parsed
  have length : (packet.take (packetLen packet ip.version)).length =
      packetLen packet ip.version := by
    rw [List.length_take]
    omega
  have exactLength := packetLen_take parsed
  unfold fragmentOutboundIpPacket at accepted
  rw [parsed] at accepted
  dsimp only at accepted
  generalize packet.take (packetLen packet ip.version) = whole at *
  by_cases short : packetLen packet ip.version ≤ mtu
  · rw [if_pos short] at accepted
    cases accepted
    refine ⟨?_, ?_, ?_⟩
    · intro fragment member
      rw [List.mem_singleton.mp member]
      omega
    · intro fragment member
      cases member
    · intro state vacant arrivals perm inTime
      obtain ⟨arrival, rfl, packetEq⟩ := List.map_eq_singleton_iff.mp perm.eq_singleton
      obtain ⟨forward, before, _, _⟩ := inTime
      have deadlineLe : state.firstDeadline [arrival] ≤ u64Max := Nat.min_le_right _ _
      have passes : inspect arrival.packet = .ok none := by
        rw [packetEq]
        exact inspect_unfragmented trimmed notFragment
      refine ⟨whole, ?_, restored_self trimmed⟩
      rw [vacant.ingest_whole passes forward (by omega), packetEq]
      rfl
  · rw [if_neg short, notFragment, if_neg Bool.false_ne_true] at accepted
    obtain ⟨key, protocol, payload, first, tiles, delivers, restored⟩ :=
      fragments_delivered trimmed exactLength notFragment identification.toNat_lt
        (by omega) (fun version => chainFits version (by omega)) accepted
    refine ⟨delivers.bounded, delivers.aligned, ?_⟩
    intro state vacant arrivals perm inTime
    obtain ⟨order, orderPerm, reads⟩ := exists_order delivers.reads perm
    have count := delivers.reads.length_eq
    have several := delivers.several
    have arrived := perm.length_eq
    rw [List.length_map] at arrived
    cases arrivals with
    | nil =>
      rw [List.length_nil] at arrived
      omega
    | cons arrival later =>
      refine ⟨_, ?_, restored⟩
      rw [vacant.ingestAll delivers.deliverable orderPerm several reads inTime,
        delivers.joined, count]

/-- An IPv4 packet of nine payload bytes, whose fragments the samples of the
reassembler are. -/
def samplePacket : Bytes :=
  [69, 0, 0, 29, 0, 0, 64, 0, 64, 17, 38, 206, 10, 0, 0, 1, 10, 0, 0, 2, 1, 2, 3, 4, 5, 6, 7, 8, 9]

theorem fragments_reassemble_to_packet_last_first :
    fragmentOutboundIpPacket samplePacket 28 7 = .ok [sampleFirstFragment, sampleLastFragment] ∧
      ∃ datagram,
        (FragmentReassembler.new 1000).ingestAll
            [⟨sampleLastFragment, 5, fun _ => none⟩, ⟨sampleFirstFragment, 6, fun _ => none⟩] =
          [.ok none, .ok (some datagram)] ∧
        Restored .v4 samplePacket datagram := by
  have accepted : fragmentOutboundIpPacket samplePacket 28 (7 : UInt32).toNat =
      .ok [sampleFirstFragment, sampleLastFragment] := by
    decide +kernel
  have parsed : parseIpPacket samplePacket true = .ok (ipv4Parsed samplePacket) := by
    decide +kernel
  have notFragment : (ipv4Parsed samplePacket).fragment.any (fun info => !info.isAtomic) =
      false := by
    decide +kernel
  refine ⟨accepted, ?_⟩
  exact (fragments_reassemble_to_packet 7 parsed notFragment (fun version => nomatch version)
    accepted).2.2 (FragmentReassembler.new 1000) (vacant_new 1000)
    [⟨sampleLastFragment, 5, fun _ => none⟩, ⟨sampleFirstFragment, 6, fun _ => none⟩]
    (List.Perm.swap _ _ _)
    ⟨Nat.zero_le 5, by decide +kernel, rfl, by decide, by decide +kernel, rfl, trivial⟩

/-- An exact duplicate counts as an overlap and drops the assembly, so the
datagram never comes. -/
theorem duplicate_fragment_drops_datagram :
    fragmentOutboundIpPacket samplePacket 28 7 = .ok [sampleFirstFragment, sampleLastFragment] ∧
      (FragmentReassembler.new 1000).ingestAll
          [⟨sampleFirstFragment, 5, fun _ => none⟩, ⟨sampleFirstFragment, 6, fun _ => none⟩,
            ⟨sampleLastFragment, 7, fun _ => none⟩] =
        [.ok none, .error .overlap, .ok none] := by
  decide +kernel

end Sail.Netstack
