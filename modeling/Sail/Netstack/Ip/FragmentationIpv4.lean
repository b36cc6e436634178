/-
IPv4 fragments as the reassembler reads them.

A fragment is its header, with the fragment's own fields and checksum, in front
of its chunk. The options repeated in later fragments are a valid option list.
-/

import Sail.Netstack.Ip.FragmentationFacts

namespace Sail.Netstack

open Bytes OnesComplement

/-! ### Copied options -/

theorem validateIpv4OptionsFrom_zeros (count rounds : Nat) :
    validateIpv4OptionsFrom rounds (List.replicate count 0) = .ok () := by
  cases count with
  | zero =>
    unfold validateIpv4OptionsFrom
    rfl
  | succ count =>
    rw [List.replicate_succ]
    cases rounds with
    | zero => rfl
    | succ rounds =>
      unfold validateIpv4OptionsFrom
      rw [if_pos rfl, if_neg]
      intro nonzero
      obtain ⟨byte, member, different⟩ := List.any_eq_true.mp nonzero
      have zero := List.eq_of_mem_replicate member
      rw [zero] at different
      simp at different

/-- One well-formed option in front of a valid list. -/
theorem validateIpv4OptionsFrom_option {kind lengthByte : UInt8} {data later : Bytes}
    {rounds : Nat} (notEnd : kind ≠ 0) (notNoOp : kind ≠ 1)
    (length : lengthByte.toNat = data.length + 2)
    (valid : validateIpv4OptionsFrom rounds later = .ok ()) :
    validateIpv4OptionsFrom (rounds + 1) (kind :: lengthByte :: (data ++ later)) = .ok () := by
  unfold validateIpv4OptionsFrom
  rw [if_neg notEnd, if_neg notNoOp]
  dsimp only
  rw [if_neg (by omega), if_pos (by simp only [List.length_cons, List.length_append]; omega),
    length]
  change validateIpv4OptionsFrom rounds ((data ++ later).drop data.length) = .ok ()
  rw [List.drop_left]
  exact valid

/-- An option is its kind, its length and as much data as the length says. -/
theorem take_option (kind : UInt8) {lengthByte : UInt8} (rest : Bytes) (long : 2 ≤ lengthByte.toNat)
    (inside : lengthByte.toNat ≤ rest.length + 2) :
    (kind :: lengthByte :: rest).take lengthByte.toNat =
        kind :: lengthByte :: rest.take (lengthByte.toNat - 2) ∧
      (rest.take (lengthByte.toNat - 2)).length + 2 = lengthByte.toNat := by
  constructor
  · obtain ⟨extra, lengthEq⟩ := Nat.exists_eq_add_of_le' long
    rw [lengthEq, Nat.add_sub_cancel]
    rfl
  · rw [List.length_take]
    omega

theorem copiedOptionsFrom_spec {rounds : Nat} {options copied : Bytes}
    (done : copiedOptionsFrom rounds options = .ok copied) :
    copied.length ≤ options.length ∧ ∀ padding more, copied.length ≤ more →
        validateIpv4OptionsFrom more (copied ++ List.replicate padding 0) = .ok () := by
  induction rounds generalizing options copied with
  | zero =>
    have nothing : copied = [] := by
      cases options with
      | nil | cons _ _ => exact (Except.ok.inj done).symm
    rw [nothing]
    exact ⟨Nat.zero_le _, fun padding more _ => validateIpv4OptionsFrom_zeros padding more⟩
  | succ rounds ih =>
    cases options with
    | nil =>
      cases done
      exact ⟨Nat.zero_le _, fun padding more _ => validateIpv4OptionsFrom_zeros padding more⟩
    | cons kind rest =>
      unfold copiedOptionsFrom at done
      by_cases isEnd : kind = 0
      · rw [if_pos isEnd] at done
        cases done
        exact ⟨Nat.zero_le _, fun padding more _ => validateIpv4OptionsFrom_zeros padding more⟩
      by_cases isNoOp : kind = 1
      · rw [if_neg isEnd, if_pos isNoOp] at done
        obtain ⟨shorter, valid⟩ := ih done
        exact ⟨by simp only [List.length_cons]; omega, valid⟩
      rw [if_neg isEnd, if_neg isNoOp] at done
      cases rest with
      | nil => cases done
      | cons lengthByte data =>
        dsimp only at done
        by_cases malformed :
            lengthByte.toNat < 2 ∨ (lengthByte :: data).length + 1 < lengthByte.toNat
        · rw [if_pos malformed] at done
          cases done
        rw [if_neg malformed] at done
        simp only [List.length_cons] at malformed
        have dropLength :
            ((kind :: lengthByte :: data).drop lengthByte.toNat).length =
              data.length + 2 - lengthByte.toNat := by
          rw [List.length_drop]
          rfl
        cases recursive : copiedOptionsFrom rounds
            ((kind :: lengthByte :: data).drop lengthByte.toNat) with
        | error error =>
          rw [recursive] at done
          cases done
        | ok later =>
          rw [recursive] at done
          obtain ⟨shorter, valid⟩ := ih recursive
          have atLeast : 2 ≤ lengthByte.toNat := by omega
          obtain ⟨taken, takenLength⟩ := take_option kind data atLeast (by omega)
          split_ifs at done with isCopied
          · cases done
            rw [taken]
            constructor
            · simp only [List.length_append, List.length_cons]
              omega
            · intro padding more enough
              simp only [List.length_append, List.length_cons] at enough
              obtain ⟨fewer, moreEq⟩ : ∃ fewer, more = fewer + 1 :=
                ⟨more - 1, by omega⟩
              rw [moreEq, List.append_assoc]
              exact validateIpv4OptionsFrom_option isEnd isNoOp (by omega)
                (valid padding fewer (by omega))
          · cases done
            exact ⟨by simp only [List.length_cons]; omega, valid⟩

/-- The options that later fragments repeat are valid and no longer. -/
theorem copiedIpv4Options_spec {options copied : Bytes} (wordAligned : options.length % 4 = 0)
    (done : copiedIpv4Options options = .ok copied) :
    copied.length % 4 = 0 ∧ copied.length ≤ options.length ∧ copied.length ≤ 40 ∧
      validateIpv4Options copied = .ok () := by
  unfold copiedIpv4Options at done
  cases raw : copiedOptionsFrom options.length options with
  | error error =>
    rw [raw] at done
    cases done
  | ok list =>
    rw [raw] at done
    dsimp only at done
    split_ifs at done with long
    cases done
    obtain ⟨shorter, valid⟩ := copiedOptionsFrom_spec raw
    have padded : (padToWord list).length = list.length + (4 - list.length % 4) % 4 := by
      rw [padToWord, List.length_append, List.length_replicate]
    refine ⟨by omega, by omega, by omega, ?_⟩
    exact valid _ _ (by omega)

/-! ### A header with its own fields and checksum -/

/-- A header with a fragment's identification, length and fragment bits, and the
checksum over them. -/
def sealedHeader (base : Bytes) (identification len bits : Nat) : Bytes :=
  let cleared := putU16 (putU16 (putU16 (putU16 base 4 identification) 2 len) 6 bits) 10 0
  putU16 cleared 10 (finalizeChecksum (checksumSum cleared 0))

structure Sealed (base : Bytes) (identification len bits : Nat) (header : Bytes) : Prop where
  length_eq : header.length = base.length
  lenField : u16At header 2 = len
  identificationField : u16At header 4 = identification
  bitsField : u16At header 6 = bits
  checksum : checksumSum header 0 = 65535
  kept : ∀ index, index < 2 ∨ (8 ≤ index ∧ index < 10) ∨ 12 ≤ index →
    byteAt header index = byteAt base index

theorem checksumSum_finalized {cleared : Bytes} (short : cleared.length < 2 ^ 31)
    (fits : 12 ≤ cleared.length) (isCleared : putU16 cleared 10 0 = cleared) :
    checksumSum (putU16 cleared 10 (finalizeChecksum (checksumSum cleared 0))) 0 = 65535 := by
  have filled := checksumSum_filled short fits
  rw [isCleared] at filled
  rw [checksumSum_eq short]
  exact filled

theorem sealedHeader_sealed {base : Bytes} {identification len bits : Nat}
    (long : 20 ≤ base.length) (short : base.length < 2 ^ 31)
    (identificationRange : identification < 65536) (lenRange : len < 65536)
    (bitsRange : bits < 65536) :
    Sealed base identification len bits (sealedHeader base identification len bits) := by
  unfold sealedHeader
  have firstLength := length_putU16 identification (show 4 + 2 ≤ base.length by omega)
  have firstField := u16At_putU16 (show 4 + 2 ≤ base.length by omega) identificationRange
  have firstKept := fun position => byteAt_putU16_of_ne identification position
    (show 4 + 2 ≤ base.length by omega)
  generalize putU16 base 4 identification = first at *
  have secondFits : 2 + 2 ≤ first.length := by omega
  have secondLength := length_putU16 len secondFits
  have secondField := u16At_putU16 secondFits lenRange
  have secondKept := fun position => byteAt_putU16_of_ne len position secondFits
  generalize putU16 first 2 len = second at *
  have thirdFits : 6 + 2 ≤ second.length := by omega
  have thirdLength := length_putU16 bits thirdFits
  have thirdField := u16At_putU16 thirdFits bitsRange
  have thirdKept := fun position => byteAt_putU16_of_ne bits position thirdFits
  generalize putU16 second 6 bits = third at *
  have clearedFits : 10 + 2 ≤ third.length := by omega
  have clearedLength := length_putU16 0 clearedFits
  have clearedKept := fun position => byteAt_putU16_of_ne 0 position clearedFits
  have clearedTwice := putU16_putU16 0 0 clearedFits
  generalize putU16 third 10 0 = cleared at *
  have lastFits : 10 + 2 ≤ cleared.length := by omega
  have checksum := checksumSum_finalized (by omega) lastFits clearedTwice
  have lastLength := length_putU16 (finalizeChecksum (checksumSum cleared 0)) lastFits
  have lastKept := fun position => byteAt_putU16_of_ne
    (finalizeChecksum (checksumSum cleared 0)) position lastFits
  generalize putU16 cleared 10 (finalizeChecksum (checksumSum cleared 0)) = last at *
  have kept : ∀ position, position < 10 ∨ 12 ≤ position →
      byteAt last position = byteAt third position := fun position outside =>
    (lastKept position (by omega)).trans (clearedKept position (by omega))
  refine ⟨by omega, ?_, ?_, ?_, checksum, ?_⟩
  · rw [← secondField]
    apply u16At_congr
    · rw [kept 2 (by omega), thirdKept 2 (by omega)]
    · rw [kept 3 (by omega), thirdKept 3 (by omega)]
  · rw [← firstField]
    apply u16At_congr
    · rw [kept 4 (by omega), thirdKept 4 (by omega), secondKept 4 (by omega)]
    · rw [kept 5 (by omega), thirdKept 5 (by omega), secondKept 5 (by omega)]
  · rw [← thirdField]
    apply u16At_congr
    · exact kept 6 (by omega)
    · exact kept 7 (by omega)
  · intro index outside
    rw [kept index (by omega), thirdKept index (by omega), secondKept index (by omega),
      firstKept index (by omega)]

/-! ### Reading a sealed fragment -/

structure BaseHeader (base : Bytes) : Prop where
  lower : 20 ≤ base.length
  upper : base.length ≤ 60
  version : (byteAt base 0).toNat / 16 = 4
  stated : ipv4HeaderLen base = base.length
  options : validateIpv4Options (base.drop 20) = .ok ()

/-- The chunk that a fragment carries lies inside the datagram, and is aligned
unless it is the last. -/
structure ChunkFits (base : Bytes) (offset : Nat) (more : Bool) (chunk : Bytes) : Prop where
  nonempty : 0 < chunk.length
  inside : base.length + (offset + chunk.length) ≤ 65535
  aligned : offset % 8 = 0
  full : more = true → chunk.length % 8 = 0
  notWhole : offset = 0 → more = true

def fragmentBits (offset : Nat) (more : Bool) : Nat :=
  if more then offset / 8 + 8192 else offset / 8

def ipv4Tile (base : Bytes) (identification offset : Nat) (more : Bool) (chunk : Bytes) :
    Fragment :=
  { key :=
      { version := .v4
        source := ipv4Address base 12
        destination := ipv4Address base 16
        protocol := byteAt base 9
        identification }
    protocol := byteAt base 9
    info :=
      { identification
        offsetBytes := offset
        moreFragments := more }
    stop := offset + chunk.length
    header := sealedHeader base identification (base.length + chunk.length)
      (fragmentBits offset more)
    previousNextHeader := none
    payload := chunk }

theorem fragmentBits_fields {offset : Nat} (more : Bool) (aligned : offset % 8 = 0)
    (small : offset < 65536) :
    fragmentBits offset more < 65536 ∧ fragmentBits offset more % 8192 * 8 = offset ∧
      decide (fragmentBits offset more / 8192 % 2 = 1) = more ∧
      fragmentBits offset more / 16384 % 4 = 0 := by
  cases more with
  | true =>
    change offset / 8 + 8192 < 65536 ∧ (offset / 8 + 8192) % 8192 * 8 = offset ∧
      decide ((offset / 8 + 8192) / 8192 % 2 = 1) = true ∧
      (offset / 8 + 8192) / 16384 % 4 = 0
    rw [decide_eq_true_iff]
    omega
  | false =>
    change offset / 8 < 65536 ∧ offset / 8 % 8192 * 8 = offset ∧
      decide (offset / 8 / 8192 % 2 = 1) = false ∧ offset / 8 / 16384 % 4 = 0
    rw [decide_eq_false_iff_not]
    omega

section SealedFragment

variable {base header chunk : Bytes} {identification offset : Nat} {more : Bool}

section

variable (baseHeader : BaseHeader base)

include baseHeader

theorem ipv4HeaderLen_sealed {len bits : Nat}
    (isSealed : Sealed base identification len bits header) (payload : Bytes) :
    ipv4HeaderLen (header ++ payload) = header.length := by
  have lower := baseHeader.lower
  have length := isSealed.length_eq
  rw [ipv4HeaderLen, byteAt_append_left payload (by omega), isSealed.kept 0 (by omega),
    ← ipv4HeaderLen, baseHeader.stated, length]

section

variable (chunkFits : ChunkFits base offset more chunk)
  (isSealed : Sealed base identification (base.length + chunk.length)
    (fragmentBits offset more) header)

include chunkFits isSealed

theorem validIpv4_sealed : ValidIpv4 (header ++ chunk) := by
  have lower := baseHeader.lower
  have length := isSealed.length_eq
  have headerLen := ipv4HeaderLen_sealed baseHeader isSealed chunk
  have inside := chunkFits.inside
  obtain ⟨_, offsetField, _, flags⟩ :=
    fragmentBits_fields more chunkFits.aligned (show offset < 65536 by omega)
  have total : u16At (header ++ chunk) 2 = header.length + chunk.length := by
    rw [u16At_append_left chunk (by omega), isSealed.lenField, length]
  have bits : u16At (header ++ chunk) 6 = fragmentBits offset more := by
    rw [u16At_append_left chunk (by omega), isSealed.bitsField]
  constructor
  · omega
  · omega
  · rw [total, List.length_append]
  · rw [headerLen, slice_append_left chunk 20 (Nat.le_refl _)]
    have sameOptions : slice header 20 header.length = slice base 20 base.length := by
      rw [length]
      exact slice_congr (by omega) (Nat.le_refl _)
        (fun index above _ => isSealed.kept index (by omega))
    rw [sameOptions, slice, List.take_length]
    exact baseHeader.options
  · rw [headerLen, List.take_left]
    exact isSealed.checksum
  · omega
  · omega

/-- What the parser reads from a sealed fragment. -/
theorem parseIpPacket_sealed : parseIpPacket (header ++ chunk) true = .ok
        { version := .v4
          source := ipv4Address base 12
          destination := ipv4Address base 16
          nextHeader := byteAt base 9
          hopLimit := byteAt base 8
          fragment := some
            { identification
              offsetBytes := offset
              moreFragments := more }
          fragmentPayload := some chunk
          payload := chunk } := by
  have lower := baseHeader.lower
  have inside := chunkFits.inside
  have length := isSealed.length_eq
  have headerLen := ipv4HeaderLen_sealed baseHeader isSealed chunk
  obtain ⟨_, offsetField, moreField, _⟩ :=
    fragmentBits_fields more chunkFits.aligned (show offset < 65536 by omega)
  have byteKept : ∀ index, index < 2 ∨ (8 ≤ index ∧ index < 10) ∨ 12 ≤ index →
      index < base.length → byteAt (header ++ chunk) index = byteAt base index := by
    intro index outside small
    rw [byteAt_append_left chunk (by omega), isSealed.kept index outside]
  have addressKept : ∀ start, 12 ≤ start → start + 4 ≤ 20 →
      ipv4Address (header ++ chunk) start = ipv4Address base start := by
    intro start atLeast atMost
    unfold ipv4Address
    rw [slice_append_left chunk start (by omega), slice_congr (by omega) (by omega)
      (fun index above _ => isSealed.kept index (by omega))]
  have total : u16At (header ++ chunk) 2 = header.length + chunk.length := by
    rw [u16At_append_left chunk (by omega), isSealed.lenField, length]
  have bits : u16At (header ++ chunk) 6 = fragmentBits offset more := by
    rw [u16At_append_left chunk (by omega), isSealed.bitsField]
  have identificationKept : u16At (header ++ chunk) 4 = identification := by
    rw [u16At_append_left chunk (by omega), isSealed.identificationField]
  have isFragment : (decide (offset ≠ 0) || more) = true := by
    by_cases start : offset = 0
    · rw [chunkFits.notWhole start, Bool.or_true]
    · rw [decide_eq_true start, Bool.true_or]
  have notEmpty : (header ++ chunk).length ≠ 0 := by
    rw [List.length_append]
    omega
  have isFour : (byteAt (header ++ chunk) 0).toNat / 16 = 4 := by
    rw [byteKept 0 (by omega) (by omega)]
    exact baseHeader.version
  unfold parseIpPacket
  rw [if_neg notEmpty, if_pos isFour]
  apply parseIpv4_ok_iff.mpr
  refine ⟨validIpv4_sealed baseHeader chunkFits isSealed, ?_⟩
  unfold ipv4Parsed
  dsimp only
  rw [bits, offsetField, moreField, headerLen, total, slice_append_right,
    addressKept 12 (by omega) (by omega), addressKept 16 (by omega) (by omega),
    byteKept 9 (by omega) (by omega), byteKept 8 (by omega) (by omega), identificationKept,
    if_pos isFragment, if_pos isFragment]

end

/-- A sealed fragment is read back as the chunk it carries. -/
theorem inspect_sealed (chunkFits : ChunkFits base offset more chunk)
    (identificationRange : identification < 65536) :
    inspect (sealedHeader base identification (base.length + chunk.length)
        (fragmentBits offset more) ++ chunk) =
      .ok (some (ipv4Tile base identification offset more chunk)) := by
  have lower := baseHeader.lower
  have inside := chunkFits.inside
  obtain ⟨bitsRange, _, _, _⟩ :=
    fragmentBits_fields more chunkFits.aligned (show offset < 65536 by omega)
  have isSealed := sealedHeader_sealed lower (by omega) identificationRange
    (show base.length + chunk.length < 65536 by omega) bitsRange
  unfold ipv4Tile
  generalize sealedHeader base identification (base.length + chunk.length)
    (fragmentBits offset more) = header at isSealed ⊢
  have length := isSealed.length_eq
  have headerLen := ipv4HeaderLen_sealed baseHeader isSealed chunk
  have ended : fragmentEnd
      { identification, offsetBytes := offset, moreFragments := more }
      chunk.length = .ok (offset + chunk.length) :=
    fragmentEnd_eq chunkFits.nonempty chunkFits.full
      (show offset + chunk.length ≤ 65535 by omega)
  have headed : fragmentHeader (header ++ chunk) .v4 = .ok (header, none, byteAt base 9) := by
    unfold fragmentHeader
    rw [headerLen, List.take_left, byteAt_append_left chunk (by omega), isSealed.kept 9 (by omega)]
  have fits : reassembledSizeExceeds .v4 header.length (offset + chunk.length) = false := by
    apply decide_eq_false
    unfold u16Max
    omega
  exact Inspected.inspect_eq ⟨parseIpPacket_sealed baseHeader chunkFits isSealed, rfl,
    isAtomic_eq_false chunkFits.notWhole, ended, headed, fits, rfl⟩

end

end SealedFragment

/-! ### The fragments of a packet -/

theorem toNat_versionByte {words : Nat} (small : words < 16) :
    (0x40 ||| UInt8.ofNat words).toNat = 64 + words := by
  interval_cases words <;> rfl

theorem or_moreFragments {units : Nat} (small : units < 8192) : units ||| 8192 = units + 8192 := by
  have joined : 8192 + units = 8192 ||| units :=
    Nat.two_pow_add_eq_or_of_lt (show units < 2 ^ 13 from small) 1
  rw [Nat.or_comm, ← joined, Nat.add_comm]

/-- What a packet carries behind its header. -/
abbrev ipv4Payload (packet : Bytes) : Bytes :=
  packet.drop (ipv4HeaderLen packet)

structure WholeIpv4 (packet : Bytes) : Prop where
  valid : ValidIpv4 packet
  exact : u16At packet 2 = packet.length
  version : (byteAt packet 0).toNat / 16 = 4

section Packet

variable {packet copied : Bytes}

theorem WholeIpv4.headerLen_le (whole : WholeIpv4 packet) :
    ipv4HeaderLen packet ≤ packet.length := by
  have upper := whole.valid.headerUpper
  have total := whole.valid.total
  omega

theorem length_ipv4Payload (whole : WholeIpv4 packet) :
    ipv4HeaderLen packet + (ipv4Payload packet).length = packet.length ∧
      packet.length < 65536 := by
  have headerLe := whole.headerLen_le
  have range := u16At_lt packet 2
  rw [whole.exact] at range
  rw [List.length_drop]
  omega

theorem length_firstHeader (whole : WholeIpv4 packet) :
    (packet.take (ipv4HeaderLen packet)).length = ipv4HeaderLen packet := by
  have bound := whole.headerLen_le
  rw [List.length_take]
  omega

theorem baseHeader_first (whole : WholeIpv4 packet) :
    BaseHeader (packet.take (ipv4HeaderLen packet)) := by
  have length := length_firstHeader whole
  have lower := whole.valid.headerLower
  have nibble : ipv4HeaderLen packet ≤ 60 := by
    unfold ipv4HeaderLen
    omega
  have byteZero : byteAt (packet.take (ipv4HeaderLen packet)) 0 = byteAt packet 0 :=
    byteAt_take (by omega)
  refine ⟨by omega, by omega, ?_, ?_, whole.valid.options⟩
  · rw [byteZero]
    exact whole.version
  · rw [length, ipv4HeaderLen, byteZero]
    rfl

theorem laterIpv4Header_eq (long : 20 ≤ packet.length) : laterIpv4Header packet copied =
      overwrite (packet.take 20) 0 [0x40 ||| UInt8.ofNat ((20 + copied.length) / 4)] ++
        copied := by
  apply overwrite_append
  rw [List.length_take, List.length_singleton]
  omega

theorem length_laterFixed (long : 20 ≤ packet.length) (byte : UInt8) :
    (overwrite (packet.take 20) 0 [byte]).length = 20 := by
  have fits : 0 + [byte].length ≤ (packet.take 20).length := by
    rw [List.length_take, List.length_singleton]
    omega
  rw [length_overwrite fits, List.length_take]
  omega

theorem byteAt_laterIpv4Header (long : 20 ≤ packet.length) {index : Nat} (positive : 0 < index)
    (small : index < 20) :
    byteAt (laterIpv4Header packet copied) index = byteAt packet index := by
  have fits : ∀ byte : UInt8, 0 + [byte].length ≤ (packet.take 20).length := by
    intro byte
    rw [List.length_take, List.length_singleton]
    omega
  rw [laterIpv4Header_eq long, byteAt_append_left copied (by
    rw [length_laterFixed long]
    exact small), byteAt_overwrite (fits _), if_neg (by
      rw [List.length_singleton]
      omega), byteAt_take small]

theorem baseHeader_later (whole : WholeIpv4 packet) (wordAligned : copied.length % 4 = 0)
    (short : copied.length ≤ 40) (valid : validateIpv4Options copied = .ok ()) :
    BaseHeader (laterIpv4Header packet copied) ∧
      (laterIpv4Header packet copied).length = 20 + copied.length := by
  have long : 20 ≤ packet.length := by
    have lower := whole.valid.headerLower
    have bound := whole.headerLen_le
    omega
  have fixed := length_laterFixed long (0x40 ||| UInt8.ofNat ((20 + copied.length) / 4))
  have length : (laterIpv4Header packet copied).length = 20 + copied.length := by
    rw [laterIpv4Header_eq long, List.length_append, fixed]
  have byteZero : (byteAt (laterIpv4Header packet copied) 0).toNat =
      64 + (20 + copied.length) / 4 :=
    toNat_versionByte (by omega)
  refine ⟨⟨by omega, by omega, by omega, ?_, ?_⟩, length⟩
  · rw [ipv4HeaderLen, byteZero, length]
    omega
  · rw [laterIpv4Header_eq long, List.drop_left' fixed]
    exact valid

end Packet

structure CopiedOptions (packet copied : Bytes) : Prop where
  wordAligned : copied.length % 4 = 0
  shorter : 20 + copied.length ≤ ipv4HeaderLen packet
  short : copied.length ≤ 40
  valid : validateIpv4Options copied = .ok ()

def ipv4CutTile (packet copied : Bytes) (identification : Nat) (cut : Cut) : Fragment :=
  ipv4Tile (fragmentBase packet copied cut) (identification % 65536) cut.offset
    (decide (cut.offset + cut.amount < (ipv4Payload packet).length))
    (slice (ipv4Payload packet) cut.offset (cut.offset + cut.amount))

def ipv4CutBytes (packet copied : Bytes) (identification : Nat) (cut : Cut) : Bytes :=
  (ipv4CutTile packet copied identification cut).header ++
    (ipv4CutTile packet copied identification cut).payload

section Fragments

variable {packet copied : Bytes} {cut : Cut}

section

variable (whole : WholeIpv4 packet)

include whole

theorem copiedOptions_of_ok
    (done : copiedIpv4Options (slice packet 20 (ipv4HeaderLen packet)) = .ok copied) :
    CopiedOptions packet copied := by
  have lower := whole.valid.headerLower
  have length : (slice packet 20 (ipv4HeaderLen packet)).length = ipv4HeaderLen packet - 20 :=
    length_slice whole.headerLen_le
  have words : ipv4HeaderLen packet % 4 = 0 := by
    unfold ipv4HeaderLen
    omega
  obtain ⟨wordAligned, shorter, short, valid⟩ :=
    copiedIpv4Options_spec (by omega) done
  exact ⟨wordAligned, by omega, short, valid⟩

theorem fragmentBase_baseHeader (options : CopiedOptions packet copied) :
    BaseHeader (fragmentBase packet copied cut) := by
  unfold fragmentBase
  split_ifs with first
  · exact baseHeader_first whole
  · exact (baseHeader_later whole options.wordAligned options.short options.valid).1

theorem length_fragmentBase (options : CopiedOptions packet copied) :
    (fragmentBase packet copied cut).length =
      if cut.offset = 0 then ipv4HeaderLen packet else 20 + copied.length := by
  unfold fragmentBase
  split_ifs with first
  · exact length_firstHeader whole
  · exact (baseHeader_later whole options.wordAligned options.short options.valid).2

theorem length_fragmentBase_le (options : CopiedOptions packet copied) :
    (fragmentBase packet copied cut).length ≤ ipv4HeaderLen packet := by
  have shorter := options.shorter
  rw [length_fragmentBase whole options]
  split_ifs <;> omega

theorem byteAt_fragmentBase {index : Nat} (positive : 0 < index) (small : index < 20) :
    byteAt (fragmentBase packet copied cut) index = byteAt packet index := by
  have lower := whole.valid.headerLower
  have bound := whole.headerLen_le
  unfold fragmentBase
  split_ifs with first
  · exact byteAt_take (by omega)
  · exact byteAt_laterIpv4Header (by omega) positive small

theorem ipv4Fragment_eq (options : CopiedOptions packet copied) (identification : Nat)
    (inside : cut.offset + cut.amount ≤ (ipv4Payload packet).length)
    (aligned : cut.offset % 8 = 0) :
    ipv4Fragment packet copied (ipv4Payload packet) identification cut =
      .ok (ipv4CutBytes packet copied identification cut) := by
  obtain ⟨lengths, packetLt⟩ := length_ipv4Payload whole
  have lower := (@fragmentBase_baseHeader packet copied cut whole options).lower
  have baseLe := @length_fragmentBase_le packet copied cut whole options
  have baseLength := @length_fragmentBase packet copied cut whole options
  unfold ipv4CutBytes ipv4CutTile ipv4Tile
  generalize ipv4Payload packet = payload at *
  have chunkLength := length_slice_add inside
  have bits : (if cut.offset + cut.amount < payload.length then cut.offset / 8 ||| 8192
      else cut.offset / 8) =
        fragmentBits cut.offset (decide (cut.offset + cut.amount < payload.length)) := by
    unfold fragmentBits
    by_cases more : cut.offset + cut.amount < payload.length
    · rw [if_pos more, decide_eq_true more, if_pos rfl, or_moreFragments (by omega)]
    · rw [if_neg more, decide_eq_false more, if_neg Bool.false_ne_true]
  unfold ipv4Fragment ipv4FragmentBody
  dsimp only
  rw [bits, ← baseLength, List.length_append]
  unfold sealedHeader
  generalize fragmentBase packet copied cut = base at *
  generalize slice payload cut.offset (cut.offset + cut.amount) = chunk at *
  generalize fragmentBits cut.offset (decide (cut.offset + cut.amount < payload.length)) = bits
  have first := length_putU16 (identification % 65536) (show 4 + 2 ≤ base.length by omega)
  have second := length_putU16 (base.length + chunk.length)
    (show 2 + 2 ≤ (putU16 base 4 (identification % 65536)).length by omega)
  have third := length_putU16 bits (show 6 + 2 ≤ (putU16 (putU16 base 4
    (identification % 65536)) 2 (base.length + chunk.length)).length by omega)
  rw [putU16_append _ _ (by omega), putU16_append _ _ (by omega), putU16_append _ _ (by omega),
    putU16_append _ _ (by omega)]
  have fourth := length_putU16 0 (show 10 + 2 ≤ (putU16 (putU16 (putU16 base 4
    (identification % 65536)) 2 (base.length + chunk.length)) 6 bits).length by omega)
  generalize putU16 (putU16 (putU16 (putU16 base 4 (identification % 65536)) 2
    (base.length + chunk.length)) 6 bits) 10 0 = cleared at *
  have clearedLength : cleared.length = base.length := by omega
  rw [if_neg (by rw [List.length_append]; omega), if_neg (by omega), ← clearedLength,
    List.take_left, putU16_append _ _ (by omega)]

theorem ipv4CutTile_sealed (identification : Nat)
    (lower : 20 ≤ (fragmentBase packet copied cut).length)
    (upper : (fragmentBase packet copied cut).length ≤ ipv4HeaderLen packet)
    (inside : cut.offset + cut.amount ≤ (ipv4Payload packet).length)
    (aligned : cut.offset % 8 = 0) :
    Sealed (fragmentBase packet copied cut) (identification % 65536)
      ((fragmentBase packet copied cut).length +
        (slice (ipv4Payload packet) cut.offset (cut.offset + cut.amount)).length)
      (fragmentBits cut.offset (decide (cut.offset + cut.amount < (ipv4Payload packet).length)))
      (ipv4CutTile packet copied identification cut).header := by
  obtain ⟨lengths, packetLt⟩ := length_ipv4Payload whole
  have chunkLength := length_slice_add inside
  exact sealedHeader_sealed lower (by omega) (Nat.mod_lt _ (by omega)) (by omega)
    (fragmentBits_fields _ aligned (by omega)).1

end

end Fragments

/-! ### Delivery -/

def ipv4Key (packet : Bytes) (identification : Nat) : FragmentKey :=
  { version := .v4
    source := ipv4Address packet 12
    destination := ipv4Address packet 16
    protocol := byteAt packet 9
    identification := identification % 65536 }

section Delivery

variable {packet copied : Bytes} {mtu identification : Nat}

/-- The fragment of every cut is read back as carrying it, and fits the MTU. -/
theorem ipv4Cut_delivered {firstCapacity laterCapacity : Nat} (identification : Nat)
    (whole : WholeIpv4 packet)
    (options : CopiedOptions packet copied)
    (firstFits : ipv4HeaderLen packet + firstCapacity ≤ mtu)
    (laterFits : 20 + copied.length + laterCapacity ≤ mtu)
    (larger : firstCapacity < (ipv4Payload packet).length) (cut : Cut)
    (cutFits : CutFits firstCapacity laterCapacity
      (ipv4Payload packet).length cut) :
    inspect (ipv4CutBytes packet copied identification cut) =
        .ok (some (ipv4CutTile packet copied identification cut)) ∧
      Carries (ipv4Key packet identification) (byteAt packet 9)
        (ipv4Payload packet) cut
        (ipv4CutTile packet copied identification cut) ∧
      (ipv4CutBytes packet copied identification cut).length ≤ mtu := by
  obtain ⟨lengths, packetLt⟩ := length_ipv4Payload whole
  have baseHeader : BaseHeader (fragmentBase packet copied cut) :=
    fragmentBase_baseHeader whole options
  have baseLe : (fragmentBase packet copied cut).length ≤ ipv4HeaderLen packet :=
    length_fragmentBase_le whole options
  have baseLength : (fragmentBase packet copied cut).length =
      if cut.offset = 0 then ipv4HeaderLen packet else 20 + copied.length :=
    length_fragmentBase whole options
  have kept : ∀ index, 0 < index → index < 20 →
      byteAt (fragmentBase packet copied cut) index = byteAt packet index :=
    fun index positive small => byteAt_fragmentBase whole positive small
  have lower := baseHeader.lower
  have addresses : ∀ start, 12 ≤ start → start + 4 ≤ 20 →
      ipv4Address (fragmentBase packet copied cut) start = ipv4Address packet start := by
    intro start atLeast atMost
    unfold ipv4Address
    rw [slice_congr (by omega) (by omega)
      (fun index above below => kept index (by omega) (by omega))]
  have inside := cutFits.inside
  have positive := cutFits.positive
  have chunkLength := length_slice_add inside
  have chunkFits : ChunkFits (fragmentBase packet copied cut) cut.offset
      (decide (cut.offset + cut.amount < (ipv4Payload packet).length))
      (slice (ipv4Payload packet) cut.offset (cut.offset + cut.amount)) := by
    refine ⟨by omega, by omega, cutFits.aligned, ?_, ?_⟩
    · intro more
      rw [chunkLength]
      exact cutFits.full (of_decide_eq_true more)
    · intro start
      have amountLe := cutFits.first start
      apply decide_eq_true
      omega
  have read := inspect_sealed baseHeader chunkFits
    (Nat.mod_lt identification (show 0 < 65536 by omega))
  refine ⟨read, ⟨?_, kept 9 (by omega) (by omega), rfl, rfl, rfl, inspect_wellRead read⟩, ?_⟩
  · change FragmentKey.mk .v4 _ _ _ _ = ipv4Key packet identification
    rw [addresses 12 (by omega) (by omega), addresses 16 (by omega) (by omega),
      kept 9 (by omega) (by omega)]
    rfl
  · have sealedLength :=
      (ipv4CutTile_sealed whole identification lower baseLe inside cutFits.aligned).length_eq
    unfold ipv4CutBytes
    rw [List.length_append, sealedLength, baseLength]
    change _ + (slice _ _ _).length ≤ mtu
    rw [chunkLength]
    by_cases start : cut.offset = 0
    · have amountLe := cutFits.first start
      omega
    · have amountLe := cutFits.later start
      rw [if_neg start]
      omega

/-- Fragmenting an IPv4 packet longer than the MTU delivers its payload. -/
theorem fragmentIpv4_delivers (whole : WholeIpv4 packet) (large : mtu < packet.length)
    {fragments : List Bytes} (done : fragmentIpv4 packet mtu identification = .ok fragments) :
    ∃ copied firstCapacity tiles, Delivers mtu (ipv4Key packet identification) (byteAt packet 9)
        (ipv4Payload packet)
        (ipv4CutTile packet copied identification { offset := 0, amount := firstCapacity })
        fragments tiles ∧
      firstCapacity < (ipv4Payload packet).length := by
  obtain ⟨lengths, packetLt⟩ := length_ipv4Payload whole
  obtain ⟨copied, copiedEq, done⟩ := bind_ok done
  obtain ⟨firstCapacity, firstEq, done⟩ := bind_ok done
  obtain ⟨laterCapacity, laterEq, done⟩ := bind_ok done
  have options := copiedOptions_of_ok whole copiedEq
  obtain ⟨firstPositive, firstAligned, firstFits⟩ := alignedChunk_ok firstEq
  obtain ⟨laterPositive, laterAligned, laterFits⟩ := alignedChunk_ok laterEq
  have larger : firstCapacity < (ipv4Payload packet).length := by omega
  have each := fun (cut : Cut) cutFits =>
    ipv4Cut_delivered identification whole options firstFits laterFits larger cut cutFits
  have cutFits : ∀ cut ∈ cuts firstCapacity laterCapacity
      (ipv4Payload packet).length,
      CutFits firstCapacity laterCapacity (ipv4Payload packet).length cut :=
    cuts_fit firstPositive laterPositive firstAligned laterAligned
  have made := mapM_eq_map (fun cut member => ipv4Fragment_eq whole options identification
    (cutFits cut member).inside (cutFits cut member).aligned)
  rw [made] at done
  cases done
  refine ⟨copied, firstCapacity, _, delivers_of_cuts firstPositive laterPositive firstAligned
    laterAligned larger each ?_, larger⟩
  have firstLength : (ipv4CutTile packet copied identification
      { offset := 0, amount := firstCapacity }).header.length = ipv4HeaderLen packet := by
    have lower := whole.valid.headerLower
    have length : (fragmentBase packet copied { offset := 0, amount := firstCapacity }).length =
        ipv4HeaderLen packet := length_firstHeader whole
    exact (ipv4CutTile_sealed whole identification (by omega) (by omega) (by dsimp only; omega)
      (Nat.zero_mod 8)).length_eq.trans length
  apply decide_eq_false
  unfold u16Max
  omega

end Delivery

/-! ### The datagram put together -/

/-- A datagram that differs from an IPv4 packet at most in the identification,
the flags and the header checksum, which is right. -/
structure Ipv4Restored (packet datagram : Bytes) : Prop where
  length_eq : datagram.length = packet.length
  kept : ∀ index, index ∉ [4, 5, 6, 10, 11] → byteAt datagram index = byteAt packet index
  offsetBits : (byteAt datagram 6).toNat % 32 = (byteAt packet 6).toNat % 32
  checksum : checksumSum (datagram.take (ipv4HeaderLen datagram)) 0 = 65535

theorem wholeIpv4Header_eq {header : Bytes} {totalLen : Nat} (long : 20 ≤ header.length)
    (short : header.length < 2 ^ 31) (even : header.length % 2 = 0) :
    wholeIpv4Header header totalLen = sealedHeader header (u16At header 4) totalLen 0 := by
  have unchanged : putU16 header 4 (u16At header 4) = header :=
    putU16_u16At (by omega)
  have clearedLength := length_cleared totalLen 0 long
  unfold wholeIpv4Header sealedHeader
  rw [unchanged]
  dsimp only
  generalize putU16 (putU16 (putU16 header 2 totalLen) 6 0) 10 0 = cleared at clearedLength ⊢
  rw [ipv4Checksum, pairSum_eq (by omega), checksumSum_eq (by omega)]
  rfl

theorem ipv4Restored_rebuilt {packet copied : Bytes} {identification firstCapacity : Nat}
    (whole : WholeIpv4 packet) (unfragmented : u16At packet 6 % 8192 = 0)
    (inside : firstCapacity ≤ (ipv4Payload packet).length) :
    Ipv4Restored packet
      (rebuiltHeader
          (ipv4CutTile packet copied identification { offset := 0, amount := firstCapacity })
          (ipv4Payload packet).length ++
        ipv4Payload packet) := by
  obtain ⟨lengths, packetLt⟩ := length_ipv4Payload whole
  have headerLength := length_firstHeader whole
  have lower := whole.valid.headerLower
  have baseLength : (fragmentBase packet copied { offset := 0, amount := firstCapacity }).length =
      ipv4HeaderLen packet := headerLength
  have firstSealed := @ipv4CutTile_sealed packet copied { offset := 0, amount := firstCapacity }
    whole identification (by omega) (by omega) (by dsimp only; omega) (Nat.zero_mod 8)
  change Ipv4Restored packet (wholeIpv4Header _ _ ++ _)
  generalize (ipv4CutTile packet copied identification
    { offset := 0, amount := firstCapacity }).header = header at firstSealed ⊢
  have firstLength := firstSealed.length_eq
  have multiple : ipv4HeaderLen packet % 4 = 0 := Nat.mul_mod_left _ 4
  rw [wholeIpv4Header_eq (by omega) (by omega) (by omega)]
  have wholeSealed := sealedHeader_sealed (show 20 ≤ header.length by omega) (by omega)
    (u16At_lt header 4)
    (show header.length + (ipv4Payload packet).length < 65536 by omega)
    (show 0 < 65536 by omega)
  generalize sealedHeader header (u16At header 4)
    (header.length + (ipv4Payload packet).length) 0 = restored at wholeSealed ⊢
  have restoredLength := wholeSealed.length_eq
  have original : ∀ index, index < ipv4HeaderLen packet →
      byteAt (fragmentBase packet copied { offset := 0, amount := firstCapacity }) index =
        byteAt packet index :=
    fun index below => byteAt_take below
  have keptHeader : ∀ index, index < 2 ∨ (8 ≤ index ∧ index < 10) ∨ 12 ≤ index →
      index < ipv4HeaderLen packet → byteAt restored index = byteAt packet index := by
    intro index outside below
    rw [wholeSealed.kept index outside, firstSealed.kept index outside, original index below]
  have lenBytes := byteAt_of_u16At (show u16At restored 2 = u16At packet 2 by
    rw [wholeSealed.lenField, whole.exact]
    omega)
  have flagField : (byteAt restored 6).toNat * 256 + (byteAt restored 7).toNat = 0 :=
    wholeSealed.bitsField
  have packetFlags : ((byteAt packet 6).toNat * 256 + (byteAt packet 7).toNat) % 8192 = 0 :=
    unfragmented
  have flagLow := (byteAt packet 7).toNat_lt
  refine ⟨?_, ?_, ?_, ?_⟩
  · rw [List.length_append]
    omega
  · intro index outside
    simp only [List.mem_cons, List.not_mem_nil, or_false, not_or] at outside
    by_cases below : index < ipv4HeaderLen packet
    · rw [byteAt_append_left _ (by omega)]
      by_cases len : index = 2
      · rw [len]
        exact lenBytes.1
      · by_cases lenLow : index = 3
        · rw [lenLow]
          exact lenBytes.2
        · by_cases offsetLow : index = 7
          · rw [offsetLow]
            apply UInt8.toNat_inj.mp
            omega
          · exact keptHeader index (by omega) below
    · rw [byteAt_append_right _ _ (by omega), byteAt_drop]
      congr 1
      omega
  · rw [byteAt_append_left _ (by omega)]
    omega
  · have stated : ipv4HeaderLen (restored ++ ipv4Payload packet) =
        restored.length := by
      rw [ipv4HeaderLen, byteAt_append_left _ (by omega), keptHeader 0 (by omega) (by omega),
        ← ipv4HeaderLen]
      omega
    rw [stated, List.take_left]
    exact wholeSealed.checksum

end Sail.Netstack
