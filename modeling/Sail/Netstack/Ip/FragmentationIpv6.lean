/-
IPv6 fragments as the reassembler reads them.

The extension chain of a packet is split where the Fragment header goes. Every
fragment repeats the front of the chain, with its last next-header field naming
the Fragment header; the first fragment carries the rest of the chain as well.
-/

import Sail.Netstack.Ip.ExtensionChain

namespace Sail.Netstack

open Bytes

/-! ### The packet and where it is split -/

/-- An IPv6 packet without trailing bytes, with its extension chain split at the
place of the Fragment header. -/
structure SplitIpv6 (packet : Bytes) (front back : List ExtensionRecord) (middle last : UInt8)
    (insertion stop : Nat) : Prop where
  exact : packet.length = 40 + u16At packet 4
  version : (byteAt packet 0).toNat / 16 = 6
  frontChain : Chain packet packet.length (byteAt packet 6) 40 front middle insertion
  backChain : Chain packet packet.length middle insertion back last stop
  noHopByHop : ∀ record ∈ back, record.kind ≠ 0
  upperLayer : isExtension last = false
  short : front.length + back.length ≤ 6

theorem includedRecords_hopByHop {records : List ExtensionRecord}
    (nothing : includedRecords records = 0) {first : ExtensionRecord} {rest : List ExtensionRecord}
    (listed : records = first :: rest) : first.kind ≠ 0 := by
  intro hopByHop
  unfold includedRecords at nothing
  cases routing : records.reverse.findIdx? (fun record => record.kind = 43) with
  | none =>
    rw [routing, listed, List.takeWhile_cons, hopByHop] at nothing
    cases nothing
  | some fromEnd =>
    rw [routing] at nothing
    have below := List.findIdx?_eq_some_iff_findIdx_eq.mp routing
    rw [List.length_reverse] at below
    dsimp only at nothing
    omega

namespace Chain

variable {packet : Bytes} {limit : Nat} {kind last : UInt8} {stop : Nat}
  {records : List ExtensionRecord}

/-- Only headers other than Hop-by-Hop stand behind the Fragment header. -/
theorem dropped_kind_ne_zero (chain : Chain packet limit kind 40 records last stop) :
    ∀ record ∈ records.drop (includedRecords records), record.kind ≠ 0 := by
  cases chain with
  | stop =>
    intro record member
    cases member
  | next passes rest =>
    rename_i later
    have positive := eight_le_chainLen packet kind 40
    have behind := rest.kind_ne_zero (by omega)
    intro record member
    cases included : includedRecords
        ({ kind, offset := 40, length := chainLen packet kind 40 } :: later) with
    | zero =>
      rw [included, List.drop_zero] at member
      cases member with
      | head => exact includedRecords_hopByHop included rfl
      | tail _ inRest => exact behind record inRest
    | succ count =>
      rw [included, List.drop_succ_cons] at member
      exact behind record (List.mem_of_mem_drop member)

end Chain

theorem isExtension_eq_false_iff {kind : UInt8} : isExtension kind = false ↔
      kind ≠ 0 ∧ kind ≠ 43 ∧ kind ≠ 44 ∧ kind ≠ 51 ∧ kind ≠ 60 := by
  unfold isExtension
  simp only [Bool.or_eq_false_iff, decide_eq_false_iff_not]
  constructor
  · rintro ⟨⟨⟨⟨hopByHop, routing⟩, fragment⟩, authentication⟩, destination⟩
    exact ⟨hopByHop, routing, fragment, authentication, destination⟩
  · rintro ⟨hopByHop, routing, fragment, authentication, destination⟩
    exact ⟨⟨⟨⟨hopByHop, routing⟩, fragment⟩, authentication⟩, destination⟩

theorem chainRound_upperLayer {packet : Bytes} {limit : Nat} {cursor : ChainCursor}
    (upperLayer : isExtension cursor.nextHeader = false) :
    chainRound packet limit true cursor = .ok (.inl (parsedIpv6 packet cursor cursor.nextHeader
        (slice packet cursor.offset limit))) := by
  obtain ⟨hopByHop, routing, fragment, authentication, destination⟩ :=
    isExtension_eq_false_iff.mp upperLayer
  unfold chainRound
  rw [if_neg (fun wrong => hopByHop wrong.1), if_neg (by
    rintro (same | same | same)
    · exact hopByHop same
    · exact routing same
    · exact destination same), if_neg authentication, if_neg fragment]
  rfl

namespace SplitIpv6

variable {packet : Bytes} {front back : List ExtensionRecord} {middle last : UInt8}
  {insertion stop : Nat}

section

variable (split : SplitIpv6 packet front back middle last insertion stop)

include split

theorem insertion_le : 40 ≤ insertion ∧ insertion ≤ stop ∧ stop ≤ packet.length := by
  have exactLength := split.exact
  have inside := split.frontChain.stop_le (show 40 ≤ packet.length by omega)
  exact ⟨split.frontChain.le_stop, split.backChain.le_stop, split.backChain.stop_le inside⟩

theorem middle_eq : middle = byteAt packet (lastPointer 6 front) :=
  split.frontChain.last_eq rfl

theorem pointer_cases : lastPointer 6 front = 6 ∨
      (40 ≤ lastPointer 6 front ∧ lastPointer 6 front < insertion) := by
  rcases split.frontChain.lastPointer_cases 6 with ⟨_, same⟩ | range
  · exact Or.inl same
  · exact Or.inr range

theorem pointer_lt : lastPointer 6 front < insertion := by
  have lower := split.insertion_le.1
  have pointerCases := split.pointer_cases
  omega

theorem middle_ne_fragment : middle ≠ 44 := by
  cases back with
  | nil =>
    cases split.backChain with
    | stop => exact (isExtension_eq_false_iff.mp split.upperLayer).2.2.1
  | cons record rest =>
    cases split.backChain with
    | next passes chain =>
      rcases passes.kinds with kind | kind | kind | kind <;> rw [kind] <;> decide

end

end SplitIpv6

/-! ### One fragment -/

def namedHeader (packet : Bytes) (insertion pointer payloadLen : Nat) : Bytes :=
  putU16 (overwrite (packet.take insertion) pointer [44]) 4 payloadLen

def ipv6Framed (header : Bytes) (following : UInt8) (bits identification : Nat)
    (chunk : Bytes) : Bytes :=
  header ++ ([following, 0] ++ (u16Bytes bits ++ (u32Bytes identification ++ chunk)))

section Named

variable {packet : Bytes} {front back : List ExtensionRecord} {middle last : UInt8}
  {insertion stop payloadLen : Nat}
  (split : SplitIpv6 packet front back middle last insertion stop)

include split

theorem SplitIpv6.named_fits :
    lastPointer 6 front + ([44] : Bytes).length ≤ (packet.take insertion).length := by
  obtain ⟨lower, middleLe, upper⟩ := split.insertion_le
  have pointerInside := split.pointer_lt
  rw [List.length_take, List.length_singleton]
  omega

theorem SplitIpv6.length_named :
    (overwrite (packet.take insertion) (lastPointer 6 front) [44]).length = insertion := by
  obtain ⟨lower, middleLe, upper⟩ := split.insertion_le
  rw [length_overwrite split.named_fits, List.length_take]
  omega

theorem length_namedHeader (payloadLen : Nat) :
    (namedHeader packet insertion (lastPointer 6 front) payloadLen).length = insertion := by
  have lower := split.insertion_le.1
  have named := split.length_named
  unfold namedHeader
  rw [length_putU16 _ (by omega), named]

theorem byteAt_namedHeader (payloadLen : Nat) {index : Nat} (below : index < insertion)
    (notLen : index ≠ 4 ∧ index ≠ 5) :
    byteAt (namedHeader packet insertion (lastPointer 6 front) payloadLen) index =
      if index = lastPointer 6 front then 44 else byteAt packet index := by
  have lower := split.insertion_le.1
  have named := split.length_named
  unfold namedHeader
  rw [byteAt_putU16_of_ne _ _ (by omega) (by omega), byteAt_overwrite split.named_fits,
    List.length_singleton]
  by_cases here : index = lastPointer 6 front
  · rw [if_pos (by omega), if_pos here, here, Nat.sub_self]
    rfl
  · rw [if_neg (by omega), if_neg here, byteAt_take below]

theorem u16At_namedHeader (small : payloadLen < 65536) :
    u16At (namedHeader packet insertion (lastPointer 6 front) payloadLen) 4 = payloadLen := by
  have lower := split.insertion_le.1
  have named := split.length_named
  exact u16At_putU16 (by omega) small

end Named

section Framed

variable (header : Bytes) (following : UInt8) (bits identification : Nat) (chunk : Bytes)

theorem length_ipv6Framed : (ipv6Framed header following bits identification chunk).length =
    header.length + 8 + chunk.length := by
  unfold ipv6Framed
  simp only [List.length_append, length_u16Bytes, length_u32Bytes, List.length_cons,
    List.length_nil]
  omega

theorem byteAt_framed_at (index : Nat) :
    byteAt (ipv6Framed header following bits identification chunk) (header.length + index) =
      byteAt ([following, 0] ++ (u16Bytes bits ++ (u32Bytes identification ++ chunk))) index := by
  unfold ipv6Framed
  rw [byteAt_append_right _ _ (by omega), Nat.add_sub_cancel_left]

theorem byteAt_framed_behind (index : Nat) :
    byteAt (ipv6Framed header following bits identification chunk) (header.length + 8 + index) =
      byteAt chunk index := by
  rw [Nat.add_assoc, byteAt_framed_at, Nat.add_comm]
  rfl

theorem byteAt_framed_following :
    byteAt (ipv6Framed header following bits identification chunk) header.length =
      following :=
  byteAt_framed_at header following bits identification chunk 0

variable {header following identification chunk}

/-- The Fragment header as it is read back. -/
theorem fragmentInfoAt_framed {offset : Nat} {more : Bool}
    (aligned : offset % 8 = 0) (small : offset < 65536)
    (identificationRange : identification < 4294967296) :
    fragmentInfoAt
        (ipv6Framed header following (if more then offset + 1 else offset) identification chunk)
        header.length =
      { identification, offsetBytes := offset, moreFragments := more } := by
  have field : ∀ value index, value < 65536 →
      byteAt ([following, 0] ++ (u16Bytes (if more then offset + 1 else offset) ++
        (u32Bytes identification ++ chunk))) index = UInt8.ofNat (value / 256) →
      byteAt ([following, 0] ++ (u16Bytes (if more then offset + 1 else offset) ++
        (u32Bytes identification ++ chunk))) (index + 1) = UInt8.ofNat value →
      u16At (ipv6Framed header following (if more then offset + 1 else offset) identification
        chunk) (header.length + index) = value := by
    intro value index range high low
    unfold u16At
    rw [Nat.add_assoc, byteAt_framed_at, byteAt_framed_at, high, low, UInt8.toNat_ofNat',
      UInt8.toNat_ofNat']
    omega
  have bitsRange : (if more then offset + 1 else offset) < 65536 := by
    split_ifs <;> omega
  have bitsField := field _ 2 bitsRange rfl rfl
  have highField := field (identification / 65536) 4 (by omega) rfl rfl
  have lowField : u16At (ipv6Framed header following (if more then offset + 1 else offset)
      identification chunk) (header.length + 6) = identification % 65536 := by
    refine field (identification % 65536) 6 (by omega) ?_ ?_
    · change UInt8.ofNat (identification / 256) = _
      apply UInt8.toNat_inj.mp
      rw [UInt8.toNat_ofNat', UInt8.toNat_ofNat']
      omega
    · change UInt8.ofNat identification = _
      apply UInt8.toNat_inj.mp
      rw [UInt8.toNat_ofNat', UInt8.toNat_ofNat']
      omega
  unfold fragmentInfoAt u32At
  rw [bitsField, highField, Nat.add_assoc, lowField, FragmentInfo.mk.injEq]
  refine ⟨?_, ?_, ?_⟩
  · omega
  · split_ifs <;> omega
  · cases more with
    | true =>
      rw [if_pos rfl]
      apply decide_eq_true
      omega
    | false =>
      rw [if_neg Bool.false_ne_true]
      apply decide_eq_false
      omega

end Framed

/-! ### Reading a fragment -/

structure Ipv6Fragmented (packet : Bytes) (insertion pointer : Nat) (info : FragmentInfo)
    (chunk fragment : Bytes) : Prop where
  length_eq : fragment.length = insertion + 8 + chunk.length
  payloadLen : 40 + u16At fragment 4 = fragment.length
  named : byteAt fragment pointer = 44
  kept : ∀ index, index < insertion → index ≠ pointer → index ≠ 4 → index ≠ 5 →
    byteAt fragment index = byteAt packet index
  following : byteAt fragment insertion = byteAt packet pointer
  info_eq : fragmentInfoAt fragment insertion = info
  behind : ∀ index, byteAt fragment (insertion + 8 + index) = byteAt chunk index

/-- The chunk that a fragment carries lies inside the packet, is aligned unless
it is the last, and holds the rest of the chain if it is the first. -/
structure Ipv6Chunk (packet : Bytes) (insertion stop : Nat) (info : FragmentInfo)
    (chunk : Bytes) : Prop where
  nonempty : 0 < chunk.length
  inside : insertion + info.offsetBytes + chunk.length ≤ packet.length
  bytes : ∀ index, index < chunk.length →
    byteAt chunk index = byteAt packet (insertion + info.offsetBytes + index)
  aligned : info.offsetBytes % 8 = 0
  full : info.moreFragments = true → chunk.length % 8 = 0
  notWhole : info.offsetBytes = 0 → info.moreFragments = true
  chainFits : info.offsetBytes = 0 → stop ≤ insertion + chunk.length
  sized : insertion - 40 + 8 + chunk.length < 65536

structure ParsedFragment (packet : Bytes) (info : FragmentInfo) (chunk : Bytes)
    (ip : ParsedIpPacket) : Prop where
  version : ip.version = .v6
  source : ip.source = ipv6Address packet 8
  destination : ip.destination = ipv6Address packet 24
  fragment : ip.fragment = some info
  payload : ip.fragmentPayload = some chunk

section Reading

variable {packet chunk fragment : Bytes} {front back : List ExtensionRecord}
  {middle last : UInt8} {insertion stop : Nat} {info : FragmentInfo}
  (split : SplitIpv6 packet front back middle last insertion stop)
  (fragmented : Ipv6Fragmented packet insertion (lastPointer 6 front) info chunk fragment)
  (ofPacket : Ipv6Chunk packet insertion stop info chunk)
include split fragmented

theorem address_fragmented {start : Nat} (behind : 8 ≤ start) (inside : start + 16 ≤ 40) :
    ipv6Address fragment start = ipv6Address packet start := by
  obtain ⟨lower, middleLe, upper⟩ := split.insertion_le
  have pointerCases := split.pointer_cases
  have length := fragmented.length_eq
  unfold ipv6Address
  rw [slice_congr (by omega) (by omega) (fun index above below =>
    fragmented.kept index (by omega) (by omega) (by omega) (by omega))]

/-- The front of the chain leads to the Fragment header. -/
theorem frontChain_fragmented :
    Chain fragment fragment.length (byteAt fragment 6) 40 front 44 insertion := by
  have lower := split.insertion_le.1
  have pointerCases := split.pointer_cases
  have length := fragmented.length_eq
  refine split.frontChain.rename rfl (by omega) ?_ fragmented.named
    (fragmented.kept 24 (by omega) (by omega) (by omega) (by omega)) (by omega)
    (Nat.le_refl _)
  intro index range apart
  exact fragmented.kept index (by omega) apart (by omega) (by omega)

omit split in
theorem slice_fragmented : slice fragment (insertion + 8) fragment.length = chunk := by
  have length := fragmented.length_eq
  have sliced : (slice fragment (insertion + 8) fragment.length).length = chunk.length := by
    rw [length_slice (Nat.le_refl _)]
    omega
  apply ext_byteAt sliced
  intro index below
  rw [byteAt_slice (by omega)]
  exact fragmented.behind index

/-- One round at the Fragment header. -/
theorem chainRound_fragmented (pointer : Nat) : chainRound fragment fragment.length true
        { chainStart fragment with
          nextHeader := 44
          nextHeaderPointer := pointer
          offset := insertion } =
      if info.offsetBytes ≠ 0 then
        .ok (.inl (parsedIpv6 fragment
          { nextHeader := 44
            nextHeaderPointer := pointer
            offset := insertion
            fragment := some info
            fragmentPayload := some chunk } middle chunk))
      else
        .ok (.inr
          { nextHeader := middle
            nextHeaderPointer := insertion
            offset := insertion + 8
            fragment := some info
            fragmentPayload := some chunk }) := by
  have length := fragmented.length_eq
  have follows : byteAt fragment insertion = middle := by
    rw [fragmented.following, split.middle_eq]
  have carried := slice_fragmented fragmented
  have checked : ∀ cursor : ChainCursor, cursor.offset = insertion → cursor.fragment = none →
      checkFragment fragment fragment.length cursor = .ok () := by
    intro cursor atOffset unfragmented
    unfold checkFragment
    rw [atOffset, require_ok (by omega) (Nat.le_refl _), unfragmented, follows]
    rw [if_neg]
    · rfl
    · rintro (present | again)
      · cases present
      · exact split.middle_ne_fragment again
  unfold chainRound
  rw [if_neg (fun wrong => absurd wrong.1 (by decide : (44 : UInt8) ≠ 0)),
    if_neg (by decide : ¬((44 : UInt8) = 0 ∨ (44 : UInt8) = 43 ∨ (44 : UInt8) = 60)),
    if_neg (by decide : ¬(44 : UInt8) = 51), if_pos rfl, checked _ rfl rfl]
  rw [fragmented.info_eq, carried, follows]
  unfold ChainCursor.past
  dsimp only
  rw [follows]
  rfl

theorem parsedFragment_fragmented {cursor : ChainCursor} (nextHeader : UInt8) (payload : Bytes)
    (found : cursor.fragment = some info) (carried : cursor.fragmentPayload = some chunk) :
    ParsedFragment packet info chunk (parsedIpv6 fragment cursor nextHeader payload) :=
  ⟨rfl, address_fragmented split fragmented (by omega) (by omega),
    address_fragmented split fragmented (by omega) (by omega), found, carried⟩

theorem version_fragmented : (byteAt fragment 0).toNat / 16 = 6 := by
  have lower := split.insertion_le.1
  have pointerCases := split.pointer_cases
  rw [fragmented.kept 0 (by omega) (by omega) (by omega) (by omega)]
  exact split.version

theorem fragmentHeader_fragmented : ipv6FragmentHeader fragment =
      .ok (fragment.take insertion, some (lastPointer 6 front),
        byteAt packet (lastPointer 6 front)) := by
  have length := fragmented.length_eq
  have short := split.short
  have followed := (frontChain_fragmented split fragmented).ipv6FragmentHeaderFrom_eq
    (7 - front.length + 1) 6
  have roundsEq : front.length + (7 - front.length + 1) = 8 := by omega
  rw [roundsEq] at followed
  unfold ipv6FragmentHeader
  rw [followed, ipv6FragmentHeaderFrom, if_pos rfl, if_neg (by omega), fragmented.following]

include ofPacket

/-- The chain behind the Fragment header of a first fragment. -/
theorem backChain_fragmented (start : info.offsetBytes = 0) :
    Chain fragment fragment.length middle (insertion + 8) (back.map Chain.shifted) last
      (stop + 8) := by
  have lower := split.insertion_le.1
  have pointerCases := split.pointer_cases
  have length := fragmented.length_eq
  have chainFits := ofPacket.chainFits start
  refine split.backChain.shift ?_ split.noHopByHop
    (fragmented.kept 24 (by omega) (by omega) (by omega) (by omega)) (by omega)
    (Nat.le_refl _)
  intro index above below
  have carried := fragmented.behind (index - insertion)
  have original := ofPacket.bytes (index - insertion) (by omega)
  rw [start, Nat.add_zero, Nat.add_sub_cancel' above] at original
  rw [Nat.add_right_comm, Nat.add_sub_cancel' above] at carried
  rw [carried, original]

theorem walkChain_fragmented :
    ∃ ip, walkChain fragment fragment.length true 8 (chainStart fragment) = .ok ip ∧
      ParsedFragment packet info chunk ip := by
  have short := split.short
  obtain ⟨rounds, roundsEq⟩ : ∃ rounds, 8 = front.length + (rounds + 1) :=
    ⟨7 - front.length, by omega⟩
  obtain ⟨pointer, walked⟩ :=
    (frontChain_fragmented split fragmented).walkChain_eq (rounds + 1)
      (show (chainStart fragment).nextHeader = byteAt fragment 6 from rfl)
      (show (chainStart fragment).offset = 40 from rfl)
  rw [roundsEq, walked, walkChain, chainRound_fragmented split fragmented]
  by_cases start : info.offsetBytes = 0
  · rw [if_neg (fun later => later start)]
    obtain ⟨spare, spareEq⟩ : ∃ spare, rounds = (back.map Chain.shifted).length + (spare + 1) := by
      refine ⟨rounds - back.length - 1, ?_⟩
      rw [List.length_map]
      omega
    obtain ⟨behindPointer, behind⟩ :=
      (backChain_fragmented split fragmented ofPacket start).walkChain_eq (spare + 1)
        (show ChainCursor.nextHeader
          { nextHeader := middle
            nextHeaderPointer := insertion
            offset := insertion + 8
            fragment := some info
            fragmentPayload := some chunk } = middle from rfl) rfl
    dsimp only
    rw [spareEq, behind, walkChain, chainRound_upperLayer split.upperLayer]
    exact ⟨_, rfl, parsedFragment_fragmented split fragmented _ _ rfl rfl⟩
  · rw [if_pos start]
    exact ⟨_, rfl, parsedFragment_fragmented split fragmented _ _ rfl rfl⟩

theorem parseIpPacket_fragmented :
    ∃ ip, parseIpPacket fragment true = .ok ip ∧ ParsedFragment packet info chunk ip := by
  have lower := split.insertion_le.1
  have length := fragmented.length_eq
  have version := version_fragmented split fragmented
  unfold parseIpPacket parseIpv6
  rw [if_neg (by omega), if_neg (by omega), if_pos version, if_neg (by omega),
    fragmented.payloadLen, if_neg (Nat.lt_irrefl _)]
  exact walkChain_fragmented split fragmented ofPacket

def ipv6Tile (packet header : Bytes) (pointer : Nat) (info : FragmentInfo) (chunk : Bytes) :
    Fragment :=
  { key :=
      { version := .v6
        source := ipv6Address packet 8
        destination := ipv6Address packet 24
        protocol := 0
        identification := info.identification }
    protocol := byteAt packet pointer
    info
    stop := info.offsetBytes + chunk.length
    header
    previousNextHeader := some pointer
    payload := chunk }

theorem inspect_fragmented : inspect fragment =
      .ok (some (ipv6Tile packet (fragment.take insertion) (lastPointer 6 front) info chunk)) := by
  have lower := split.insertion_le.1
  obtain ⟨ip, parsed, isFragment⟩ := parseIpPacket_fragmented split fragmented ofPacket
  have length := fragmented.length_eq
  have exactLength := split.exact
  have fieldRange := u16At_lt packet 4
  have inside := ofPacket.inside
  have taken : (fragment.take insertion).length = insertion := by
    rw [List.length_take]
    omega
  have payload : ip.fragmentPayload.getD ip.payload = chunk := by
    rw [isFragment.payload]
    rfl
  have ended : fragmentEnd info (ip.fragmentPayload.getD ip.payload).length =
      .ok (info.offsetBytes + chunk.length) := by
    rw [payload]
    exact fragmentEnd_eq ofPacket.nonempty ofPacket.full (by omega)
  have headed : fragmentHeader fragment ip.version =
      .ok (fragment.take insertion, some (lastPointer 6 front),
        byteAt packet (lastPointer 6 front)) := by
    rw [isFragment.version]
    exact fragmentHeader_fragmented split fragmented
  have fits : reassembledSizeExceeds ip.version (fragment.take insertion).length
      (info.offsetBytes + chunk.length) = false := by
    rw [isFragment.version]
    unfold reassembledSizeExceeds u16Max
    dsimp only
    rw [taken, decide_eq_false (by omega), decide_eq_false (by omega)]
    rfl
  refine Inspected.inspect_eq ⟨parsed, isFragment.fragment,
    isAtomic_eq_false ofPacket.notWhole, ended, headed, fits, ?_⟩
  unfold Fragment.read
  rw [isFragment.version, isFragment.source, isFragment.destination, payload]
  rfl

end Reading

/-! ### The fragments of a packet -/

theorem splitIpv6_of_parsed {packet : Bytes} {records : List ExtensionRecord}
    {parsed : ParsedIpPacket} (exactLength : packet.length = 40 + u16At packet 4)
    (version : (byteAt packet 0).toNat / 16 = 6)
    (walked : walkChain packet packet.length true 8 (chainStart packet) = .ok parsed)
    (listed : extensionRecords packet = .ok records) (short : records.length ≤ 6) :
    ∃ middle last, SplitIpv6 packet (records.take (includedRecords records))
      (records.drop (includedRecords records)) middle last (insertionPoint records).1
      (chainEnd 40 records) := by
  unfold extensionRecords at listed
  rw [← exactLength] at listed
  cases found : extensionRecordsFrom packet packet.length 8 (byteAt packet 6) 40 with
  | error error =>
    rw [found] at listed
    cases listed
  | ok result =>
    rw [found] at listed
    dsimp only at listed
    split_ifs at listed
    cases listed
    have fromStart : extensionRecordsFrom packet packet.length 8
        (chainStart packet).nextHeader (chainStart packet).offset =
          .ok (result.1, result.2) := found
    obtain ⟨upperLayer, chain⟩ := chain_of_records (Nat.le_refl _) walked fromStart
    have noHopByHop := Chain.dropped_kind_ne_zero chain
    rw [← List.take_append_drop (includedRecords result.1) result.1] at chain
    obtain ⟨middle, point, front, back⟩ := chain.split
    rw [List.take_append_drop] at back
    have pointEq : (insertionPoint result.1).1 = point := by
      rw [insertionPoint_eq]
      exact front.stop_eq.symm
    rw [pointEq]
    refine ⟨middle, result.2, exactLength, version, front, back, noHopByHop, upperLayer, ?_⟩
    rw [List.length_take, List.length_drop]
    omega

def ipv6CutInfo (payload : Bytes) (identification : Nat) (cut : Cut) : FragmentInfo :=
  { identification
    offsetBytes := cut.offset
    moreFragments := decide (cut.offset + cut.amount < payload.length) }

def ipv6CutBytes (packet payload : Bytes) (insertion pointer identification : Nat)
    (cut : Cut) : Bytes :=
  ipv6Framed (namedHeader packet insertion pointer (insertion - 40 + 8 + cut.amount))
    (byteAt packet pointer)
    (if decide (cut.offset + cut.amount < payload.length) then cut.offset + 1 else cut.offset)
    identification (slice payload cut.offset (cut.offset + cut.amount))

section Cutting

variable {packet : Bytes} {front back : List ExtensionRecord} {middle last : UInt8}
  {insertion stop : Nat} {cut : Cut}
  (split : SplitIpv6 packet front back middle last insertion stop)
include split

theorem length_ipv6Payload : 40 ≤ insertion ∧
      insertion + (packet.drop insertion).length = packet.length ∧ packet.length < 65576 := by
  obtain ⟨lower, middleLe, upper⟩ := split.insertion_le
  have exactLength := split.exact
  have fieldRange := u16At_lt packet 4
  rw [List.length_drop]
  omega

theorem ipv6Fragment_eq (identification : Nat)
    (inside : cut.offset + cut.amount ≤ (packet.drop insertion).length)
    (aligned : cut.offset % 8 = 0) (sized : insertion - 40 + 8 + cut.amount < 65536) :
    ipv6Fragment packet (packet.drop insertion) insertion (lastPointer 6 front) identification cut =
      .ok (ipv6CutBytes packet (packet.drop insertion) insertion (lastPointer 6 front)
        identification cut) := by
  obtain ⟨lower, lengths, short⟩ := length_ipv6Payload split
  have chunkLength := length_slice_add inside
  have odd : cut.offset ||| 1 = cut.offset + 1 := by
    have joined : 2 ^ 1 * (cut.offset / 2) + 1 = 2 ^ 1 * (cut.offset / 2) ||| 1 :=
      Nat.two_pow_add_eq_or_of_lt (by omega) _
    have half : 2 ^ 1 * (cut.offset / 2) = cut.offset := by omega
    rw [half] at joined
    exact joined.symm
  unfold ipv6Fragment ipv6CutBytes ipv6Framed namedHeader
  dsimp only
  rw [chunkLength, if_neg (by omega), if_neg (by omega), odd]
  simp only [decide_eq_true_eq]

theorem fragmented_of_cut {identification : Nat}
    (identificationRange : identification < 4294967296)
    (inside : cut.offset + cut.amount ≤ (packet.drop insertion).length)
    (aligned : cut.offset % 8 = 0) (sized : insertion - 40 + 8 + cut.amount < 65536) :
    Ipv6Fragmented packet insertion (lastPointer 6 front)
      (ipv6CutInfo (packet.drop insertion) identification cut)
      (slice (packet.drop insertion) cut.offset (cut.offset + cut.amount))
      (ipv6CutBytes packet (packet.drop insertion) insertion (lastPointer 6 front)
        identification cut) := by
  obtain ⟨lower, lengths, short⟩ := length_ipv6Payload split
  have pointerCases := split.pointer_cases
  have pointerInside := split.pointer_lt
  have chunkLength := length_slice_add inside
  have headerLength := length_namedHeader split (insertion - 40 + 8 + cut.amount)
  have headerField := u16At_namedHeader split sized
  have headerBytes := @byteAt_namedHeader packet front back middle last insertion stop split
    (insertion - 40 + 8 + cut.amount)
  unfold ipv6CutBytes
  generalize namedHeader packet insertion (lastPointer 6 front)
    (insertion - 40 + 8 + cut.amount) = header at headerLength headerField headerBytes ⊢
  have infoField : fragmentInfoAt
      (ipv6Framed header (byteAt packet (lastPointer 6 front))
        (if decide (cut.offset + cut.amount < (packet.drop insertion).length) then
          cut.offset + 1 else cut.offset) identification
        (slice (packet.drop insertion) cut.offset (cut.offset + cut.amount))) header.length =
      ipv6CutInfo (packet.drop insertion) identification cut :=
    fragmentInfoAt_framed aligned (show cut.offset < 65536 by omega) identificationRange
  have length := length_ipv6Framed header (byteAt packet (lastPointer 6 front))
    (if decide (cut.offset + cut.amount < (packet.drop insertion).length) then cut.offset + 1
      else cut.offset) identification
    (slice (packet.drop insertion) cut.offset (cut.offset + cut.amount))
  rw [headerLength] at length infoField
  refine ⟨length, ?_, ?_, ?_, ?_, infoField, ?_⟩
  · rw [length, ipv6Framed, u16At_append_left _ (by omega), headerField]
    omega
  · rw [ipv6Framed, byteAt_append_left _ (by omega), headerBytes pointerInside (by omega),
      if_pos rfl]
  · intro index below notPointer notHigh notLow
    rw [ipv6Framed, byteAt_append_left _ (by omega), headerBytes below ⟨notHigh, notLow⟩,
      if_neg notPointer]
  · rw [← headerLength]
    exact byteAt_framed_following _ _ _ _ _
  · intro index
    rw [← headerLength]
    exact byteAt_framed_behind _ _ _ _ _ index

end Cutting

/-! ### Delivery -/

def ipv6Key (packet : Bytes) (identification : Nat) : FragmentKey :=
  { version := .v6
    source := ipv6Address packet 8
    destination := ipv6Address packet 24
    protocol := 0
    identification }

def ipv6CutTile (packet : Bytes) (insertion pointer identification : Nat) (cut : Cut) :
    Fragment :=
  ipv6Tile packet
    ((ipv6CutBytes packet (packet.drop insertion) insertion pointer identification cut).take
      insertion)
    pointer (ipv6CutInfo (packet.drop insertion) identification cut)
    (slice (packet.drop insertion) cut.offset (cut.offset + cut.amount))

section Delivery

variable {packet : Bytes} {front back : List ExtensionRecord} {middle last : UInt8}
  {insertion stop chunkLen mtu identification : Nat}
  (split : SplitIpv6 packet front back middle last insertion stop)
  (identificationRange : identification < 4294967296)
  (chunkFits : insertion + 8 + chunkLen ≤ mtu) (large : mtu < packet.length)
  (chainFits : stop ≤ insertion + chunkLen)
include split identificationRange chunkFits large chainFits

theorem ipv6Cut_delivered (cut : Cut)
    (cutFits : CutFits chunkLen chunkLen (packet.drop insertion).length cut) :
    inspect (ipv6CutBytes packet (packet.drop insertion) insertion (lastPointer 6 front)
        identification cut) =
        .ok (some (ipv6CutTile packet insertion (lastPointer 6 front) identification cut)) ∧
      Carries (ipv6Key packet identification) middle (packet.drop insertion) cut
        (ipv6CutTile packet insertion (lastPointer 6 front) identification cut) ∧
      (ipv6CutBytes packet (packet.drop insertion) insertion (lastPointer 6 front)
        identification cut).length ≤ mtu := by
  obtain ⟨lower, lengths, short⟩ := length_ipv6Payload split
  have inside := cutFits.inside
  have positive := cutFits.positive
  have amountLe : cut.amount ≤ chunkLen := by
    by_cases start : cut.offset = 0
    · have amountEq := cutFits.first start
      omega
    · exact cutFits.later start
  have sized : insertion - 40 + 8 + cut.amount < 65536 := by omega
  have chunkLength := length_slice_add inside
  have fragmented := fragmented_of_cut split identificationRange inside cutFits.aligned sized
  have ofPacket : Ipv6Chunk packet insertion stop
      (ipv6CutInfo (packet.drop insertion) identification cut)
      (slice (packet.drop insertion) cut.offset (cut.offset + cut.amount)) := by
    unfold ipv6CutInfo
    refine ⟨by omega, ?_, ?_, cutFits.aligned, ?_, ?_, ?_, by omega⟩
    · dsimp only
      omega
    · intro index below
      rw [byteAt_slice (by omega), byteAt_drop, Nat.add_assoc]
    · intro more
      rw [chunkLength]
      exact cutFits.full (of_decide_eq_true more)
    · intro start
      dsimp only at start ⊢
      apply decide_eq_true
      omega
    · intro start
      have amountEq := cutFits.first start
      omega
  have read := inspect_fragmented split fragmented ofPacket
  refine ⟨read, ⟨rfl, split.middle_eq.symm, rfl, rfl, rfl, inspect_wellRead read⟩, ?_⟩
  have length := fragmented.length_eq
  omega

/-- Fragmenting an IPv6 packet longer than the MTU delivers its payload. -/
theorem fragmentIpv6_delivers (positive : 0 < chunkLen) (aligned : chunkLen % 8 = 0)
    {fragments : List Bytes}
    (done : (cuts chunkLen chunkLen (packet.drop insertion).length).mapM
      (ipv6Fragment packet (packet.drop insertion) insertion (lastPointer 6 front)
        identification) = .ok fragments) :
    ∃ tiles, Delivers mtu (ipv6Key packet identification) middle (packet.drop insertion)
      (ipv6CutTile packet insertion (lastPointer 6 front) identification
        { offset := 0, amount := chunkLen }) fragments tiles := by
  obtain ⟨lower, lengths, short⟩ := length_ipv6Payload split
  have cutFits : ∀ cut ∈ cuts chunkLen chunkLen (packet.drop insertion).length,
      CutFits chunkLen chunkLen (packet.drop insertion).length cut :=
    cuts_fit positive positive aligned aligned
  have sized : ∀ cut ∈ cuts chunkLen chunkLen (packet.drop insertion).length,
      insertion - 40 + 8 + cut.amount < 65536 := by
    intro cut member
    by_cases start : cut.offset = 0
    · have amountEq := (cutFits cut member).first start
      omega
    · have amountLe := (cutFits cut member).later start
      omega
  have made := mapM_eq_map (fun cut member => ipv6Fragment_eq split identification
    (cutFits cut member).inside (cutFits cut member).aligned (sized cut member))
  rw [made] at done
  cases done
  refine ⟨_, delivers_of_cuts positive positive aligned aligned (by omega)
    (fun cut => ipv6Cut_delivered split identificationRange chunkFits large chainFits cut) ?_⟩
  have firstLength : (ipv6CutTile packet insertion (lastPointer 6 front) identification
      { offset := 0, amount := chunkLen }).header.length = insertion := by
    have headerLength := length_namedHeader split (insertion - 40 + 8 + chunkLen)
    unfold ipv6CutTile ipv6Tile ipv6CutBytes
    rw [List.length_take, length_ipv6Framed, headerLength]
    omega
  rw [firstLength]
  change (decide (insertion < 40) || decide (u16Max < insertion - 40 +
    (packet.drop insertion).length)) = false
  rw [decide_eq_false (by omega), decide_eq_false (by unfold u16Max; omega)]
  rfl

end Delivery

end Sail.Netstack
