/-
What the packet parser accepts.

An accepted IPv4 packet meets every check of the parser and is read by its
fields. The walk along an IPv6 extension chain always yields an IPv6 packet.
-/

import Sail.Netstack.Ip.Wire

namespace Sail.Netstack

open Bytes

variable {cursor : ChainCursor} {packet : Bytes}

structure ValidIpv4 (packet : Bytes) : Prop where
  headerLower : 20 ≤ ipv4HeaderLen packet
  headerUpper : ipv4HeaderLen packet ≤ u16At packet 2
  total : u16At packet 2 ≤ packet.length
  options : validateIpv4Options (slice packet 20 (ipv4HeaderLen packet)) = .ok ()
  checksum : checksumSum (packet.take (ipv4HeaderLen packet)) 0 = 65535
  notReserved : u16At packet 6 / 32768 % 2 ≠ 1
  wholeIfDf : ¬(u16At packet 6 / 16384 % 2 = 1 ∧
    (u16At packet 6 % 8192 * 8 ≠ 0 ∨ u16At packet 6 / 8192 % 2 = 1))

variable {parsed : ParsedIpPacket}

theorem parseIpv4_ok_iff :
    parseIpv4 packet true = .ok parsed ↔ ValidIpv4 packet ∧ parsed = ipv4Parsed packet := by
  unfold parseIpv4
  dsimp only
  constructor
  · intro done
    cases options : validateIpv4Options (slice packet 20 (ipv4HeaderLen packet)) with
    | error error =>
      rw [options] at done
      split_ifs at done
    | ok checked =>
      rw [options] at done
      split_ifs at done with short badHeader badTotal sum reserved fragmentDf
      refine ⟨⟨by omega, by omega, by omega, options, ?_, reserved, fragmentDf⟩,
        (Except.ok.inj done).symm⟩
      by_contra wrong
      exact sum ⟨rfl, wrong⟩
  · rintro ⟨valid, rfl⟩
    have lower := valid.headerLower
    have upper := valid.headerUpper
    have total := valid.total
    rw [if_neg (by omega), if_neg (by omega), if_neg (by omega), valid.options]
    rw [if_neg (fun wrong => wrong.2 valid.checksum), if_neg valid.notReserved,
      if_neg valid.wholeIfDf]

theorem chainRound_version {totalLen : Nat} {enforceActions : Bool}
    (done : chainRound packet totalLen enforceActions cursor = .ok (.inl parsed)) :
    parsed.version = .v6 := by
  unfold chainRound at done
  split_ifs at done with hopByHop extension authentication fragment
  · cases pointer : ipv6WirePointer cursor.nextHeaderPointer with
    | error _ | ok _ => simp [pointer, bind, Except.bind] at done
  · cases checked : checkExtension packet totalLen enforceActions cursor.nextHeader
        cursor.offset with
    | error error => simp [checked, bind, Except.bind] at done
    | ok len => simp [checked, bind, Except.bind, pure, Except.pure] at done
  · cases checked : checkAuthentication packet totalLen cursor.offset with
    | error error => simp [checked, bind, Except.bind] at done
    | ok len => simp [checked, bind, Except.bind, pure, Except.pure] at done
  · cases checked : checkFragment packet totalLen cursor with
    | error error => simp [checked, bind, Except.bind] at done
    | ok checkedUnit =>
      simp only [checked, bind, Except.bind, pure, Except.pure] at done
      split_ifs at done with later
      · cases done
        rfl
      · cases done
  · cases done
    rfl

theorem walkChain_version {totalLen : Nat} {enforceActions : Bool} {rounds : Nat}
    (done : walkChain packet totalLen enforceActions rounds cursor = .ok parsed) :
    parsed.version = .v6 := by
  induction rounds generalizing cursor with
  | zero => cases done
  | succ rounds ih =>
    unfold walkChain at done
    cases round : chainRound packet totalLen enforceActions cursor with
    | error error =>
      rw [round] at done
      cases done
    | ok result =>
      rw [round] at done
      cases result with
      | inl last =>
        cases done
        exact chainRound_version round
      | inr next => exact ih done

theorem parseIpPacket_ok (done : parseIpPacket packet true = .ok parsed) :
    (ValidIpv4 packet ∧ parsed = ipv4Parsed packet) ∨ parsed.version = .v6 := by
  unfold parseIpPacket at done
  split_ifs at done with empty four six
  · exact Or.inl (parseIpv4_ok_iff.mp done)
  · unfold parseIpv6 at done
    dsimp only at done
    split_ifs at done with short truncated
    exact Or.inr (walkChain_version done)

/-! ### Trailing bytes -/

section Trimmed

variable {packet : Bytes} {totalLen : Nat}

theorem require_take (inside : totalLen ≤ packet.length) (offset len : Nat) :
    require (packet.take totalLen) offset len totalLen = require packet offset len totalLen := by
  have length : (packet.take totalLen).length = totalLen := by
    rw [List.length_take]
    omega
  unfold require
  by_cases beyond : totalLen < offset + len
  · rw [if_pos (Or.inl beyond), if_pos (Or.inl beyond)]
  · rw [if_neg (by omega), if_neg (by omega)]

theorem require_cases (packet : Bytes) (offset len totalLen : Nat) :
    (require packet offset len totalLen = .ok () ∧ offset + len ≤ totalLen) ∨
      require packet offset len totalLen = .error .truncated := by
  unfold require
  by_cases beyond : totalLen < offset + len ∨ packet.length < offset + len
  · rw [if_pos beyond]
    exact Or.inr rfl
  · rw [if_neg beyond]
    exact Or.inl ⟨rfl, by omega⟩

theorem slice_take {start stop : Nat} (below : stop ≤ totalLen) :
    slice (packet.take totalLen) start stop = slice packet start stop := by
  rw [slice, List.take_take, Nat.min_eq_left below, slice]

theorem u16At_take {index : Nat} (below : index + 1 < totalLen) :
    u16At (packet.take totalLen) index = u16At packet index :=
  u16At_congr (byteAt_take (by omega)) (byteAt_take below)

theorem checkExtension_take (inside : totalLen ≤ packet.length) (long : 40 ≤ totalLen)
    (enforceActions : Bool) (nextHeader : UInt8) (offset : Nat) :
    checkExtension (packet.take totalLen) totalLen enforceActions nextHeader offset =
      checkExtension packet totalLen enforceActions nextHeader offset := by
  unfold checkExtension
  rw [require_take inside]
  rcases require_cases packet offset 2 totalLen with ⟨passed, prefixFits⟩ | failed
  · have sameLen : extensionLen (packet.take totalLen) offset = extensionLen packet offset := by
      unfold extensionLen
      rw [byteAt_take (by omega)]
    have positive : 8 ≤ extensionLen packet offset := by
      unfold extensionLen
      omega
    simp only [bind, Except.bind, sameLen, require_take inside]
    rcases require_cases packet offset (extensionLen packet offset) totalLen with
      ⟨whole, fits⟩ | failed
    · rw [whole, byteAt_take (by omega), byteAt_take (by omega), slice_take fits]
    · rw [failed]
  · rw [failed]
    rfl

theorem checkAuthentication_take (inside : totalLen ≤ packet.length) (offset : Nat) :
    checkAuthentication (packet.take totalLen) totalLen offset =
      checkAuthentication packet totalLen offset := by
  unfold checkAuthentication
  rw [require_take inside]
  rcases require_cases packet offset 2 totalLen with ⟨passed, prefixFits⟩ | failed
  · have sameLen : authenticationLen (packet.take totalLen) offset =
        authenticationLen packet offset := by
      unfold authenticationLen
      rw [byteAt_take (by omega)]
    simp only [bind, Except.bind, sameLen, require_take inside]
  · rw [failed]
    rfl

theorem checkFragment_take (inside : totalLen ≤ packet.length) (cursor : ChainCursor) :
    checkFragment (packet.take totalLen) totalLen cursor =
      checkFragment packet totalLen cursor := by
  unfold checkFragment
  rw [require_take inside]
  rcases require_cases packet cursor.offset 8 totalLen with ⟨passed, fits⟩ | failed
  · rw [passed, byteAt_take (by omega)]
  · rw [failed]
    rfl

theorem checkExtension_offset {enforceActions : Bool} {nextHeader : UInt8} {offset len : Nat}
    (done : checkExtension packet totalLen enforceActions nextHeader offset = .ok len) :
    offset < totalLen := by
  unfold checkExtension at done
  rcases require_cases packet offset 2 totalLen with ⟨passed, fits⟩ | failed
  · omega
  · rw [failed] at done
    cases done

theorem checkAuthentication_offset {offset len : Nat}
    (done : checkAuthentication packet totalLen offset = .ok len) : offset < totalLen := by
  unfold checkAuthentication at done
  rcases require_cases packet offset 2 totalLen with ⟨passed, fits⟩ | failed
  · omega
  · rw [failed] at done
    cases done

theorem checkFragment_offset {checked : Unit}
    (done : checkFragment packet totalLen cursor = .ok checked) : cursor.offset + 8 ≤ totalLen := by
  unfold checkFragment at done
  rcases require_cases packet cursor.offset 8 totalLen with ⟨passed, fits⟩ | failed
  · exact fits
  · rw [failed] at done
    cases done

theorem past_take (below : cursor.offset < totalLen) (len : Nat) :
    cursor.past (packet.take totalLen) len = cursor.past packet len := by
  unfold ChainCursor.past
  rw [byteAt_take below]

theorem parsedIpv6_take (long : 40 ≤ totalLen) (cursor : ChainCursor) (nextHeader : UInt8)
    (payload : Bytes) :
    parsedIpv6 (packet.take totalLen) cursor nextHeader payload =
      parsedIpv6 packet cursor nextHeader payload := by
  unfold parsedIpv6 ipv6Address
  rw [slice_take (by omega), slice_take (by omega), byteAt_take (by omega)]

theorem chainRound_take (inside : totalLen ≤ packet.length) (long : 40 ≤ totalLen)
    (enforceActions : Bool) (cursor : ChainCursor) :
    chainRound (packet.take totalLen) totalLen enforceActions cursor =
      chainRound packet totalLen enforceActions cursor := by
  unfold chainRound
  rw [checkExtension_take inside long, checkAuthentication_take inside,
    checkFragment_take inside, slice_take (Nat.le_refl totalLen),
    slice_take (Nat.le_refl totalLen)]
  split_ifs with hopByHop extension authentication fragment
  · rfl
  · cases checked : checkExtension packet totalLen enforceActions cursor.nextHeader
        cursor.offset with
    | error error => rfl
    | ok len =>
      have below : cursor.offset < totalLen := checkExtension_offset checked
      change Except.ok (Sum.inr (cursor.past (packet.take totalLen) len)) =
        Except.ok (Sum.inr (cursor.past packet len))
      rw [past_take below]
  · cases checked : checkAuthentication packet totalLen cursor.offset with
    | error error => rfl
    | ok len =>
      have below : cursor.offset < totalLen := checkAuthentication_offset checked
      change Except.ok (Sum.inr (cursor.past (packet.take totalLen) len)) =
        Except.ok (Sum.inr (cursor.past packet len))
      rw [past_take below]
  · cases checked : checkFragment packet totalLen cursor with
    | error error => simp only [bind, Except.bind]
    | ok checkedUnit =>
      have fits := checkFragment_offset checked
      have sameInfo : fragmentInfoAt (packet.take totalLen) cursor.offset =
          fragmentInfoAt packet cursor.offset := by
        unfold fragmentInfoAt u32At
        rw [u16At_take (by omega), u16At_take (by omega), u16At_take (by omega)]
      have samePast : ∀ found : ChainCursor, found.offset = cursor.offset →
          found.past (packet.take totalLen) 8 = found.past packet 8 := by
        intro found sameOffset
        exact past_take (by omega) 8
      simp only [bind, Except.bind, sameInfo, parsedIpv6_take long]
      rw [byteAt_take (by omega)]
      by_cases later : (fragmentInfoAt packet cursor.offset).offsetBytes ≠ 0
      · rw [if_pos later, if_pos later]
      · rw [if_neg later, if_neg later, samePast
          { cursor with
            fragment := some (fragmentInfoAt packet cursor.offset)
            fragmentPayload := some (slice packet (cursor.offset + 8) totalLen) } rfl]
  · rw [parsedIpv6_take long]

theorem walkChain_take (inside : totalLen ≤ packet.length) (long : 40 ≤ totalLen)
    (enforceActions : Bool) (rounds : Nat) (cursor : ChainCursor) :
    walkChain (packet.take totalLen) totalLen enforceActions rounds cursor =
      walkChain packet totalLen enforceActions rounds cursor := by
  induction rounds generalizing cursor with
  | zero => rfl
  | succ rounds ih =>
    unfold walkChain
    rw [chainRound_take inside long]
    cases round : chainRound packet totalLen enforceActions cursor with
    | error error => rfl
    | ok result =>
      cases result with
      | inl parsed => rfl
      | inr next => exact ih next

end Trimmed

/-- What the parser reads does not depend on the bytes behind the packet. -/
theorem parseIpPacket_take (done : parseIpPacket packet true = .ok parsed) :
    packetLen packet parsed.version ≤ packet.length ∧
      parseIpPacket (packet.take (packetLen packet parsed.version)) true = .ok parsed := by
  unfold parseIpPacket at done
  split_ifs at done with empty four six
  · obtain ⟨valid, parsedEq⟩ := parseIpv4_ok_iff.mp done
    have lower := valid.headerLower
    have upper := valid.headerUpper
    have total := valid.total
    have version : parsed.version = .v4 := by
      rw [parsedEq]
      rfl
    rw [version]
    change u16At packet 2 ≤ packet.length ∧
      parseIpPacket (packet.take (u16At packet 2)) true = .ok parsed
    generalize totalEq : u16At packet 2 = totalLen at *
    have length : (packet.take totalLen).length = totalLen := by
      rw [List.length_take]
      omega
    have sameLen : ipv4HeaderLen (packet.take totalLen) = ipv4HeaderLen packet := by
      unfold ipv4HeaderLen
      rw [byteAt_take (by omega)]
    have sameTotal : u16At (packet.take totalLen) 2 = totalLen := by
      rw [u16At_take (by omega), totalEq]
    have sameBits : u16At (packet.take totalLen) 6 = u16At packet 6 := u16At_take (by omega)
    have trimmed : ValidIpv4 (packet.take totalLen) := by
      refine ⟨by omega, by omega, by omega, ?_, ?_, ?_, ?_⟩
      · rw [sameLen, slice_take upper]
        exact valid.options
      · rw [sameLen, List.take_take, Nat.min_eq_left upper]
        exact valid.checksum
      · rw [sameBits]
        exact valid.notReserved
      · rw [sameBits]
        exact valid.wholeIfDf
    refine ⟨total, ?_⟩
    unfold parseIpPacket
    rw [if_neg (by omega), byteAt_take (by omega), if_pos four]
    refine parseIpv4_ok_iff.mpr ⟨trimmed, ?_⟩
    rw [parsedEq]
    unfold ipv4Parsed ipv4Address
    rw [sameLen, sameTotal, sameBits, slice_take (show 12 + 4 ≤ totalLen by omega),
      slice_take (show 16 + 4 ≤ totalLen by omega), slice_take (Nat.le_refl totalLen),
      byteAt_take (show 9 < totalLen by omega), byteAt_take (show 8 < totalLen by omega),
      u16At_take (show 4 + 1 < totalLen by omega), totalEq]
  · unfold parseIpv6 at done
    dsimp only at done
    split_ifs at done with short truncated
    rw [walkChain_version done]
    change 40 + u16At packet 4 ≤ packet.length ∧
      parseIpPacket (packet.take (40 + u16At packet 4)) true = .ok parsed
    refine ⟨by omega, ?_⟩
    have walked := walkChain_take (show 40 + u16At packet 4 ≤ packet.length by omega)
      (show 40 ≤ 40 + u16At packet 4 by omega) true 8 (chainStart packet)
    have sameField : u16At (packet.take (40 + u16At packet 4)) 4 = u16At packet 4 :=
      u16At_take (by omega)
    have sameStart : chainStart (packet.take (40 + u16At packet 4)) = chainStart packet := by
      unfold chainStart
      rw [byteAt_take (by omega)]
    have length : (packet.take (40 + u16At packet 4)).length = 40 + u16At packet 4 := by
      rw [List.length_take]
      omega
    unfold parseIpPacket parseIpv6
    rw [sameField, if_neg (by omega), byteAt_take (by omega), if_neg four, if_pos six,
      if_neg (by omega), if_neg (by omega), sameStart, walked]
    exact done

end Sail.Netstack
