/-
Tilings of a datagram by fragments, and the datagram rebuilt from one.
-/

import Mathlib.Data.List.Perm.Basic
import Sail.Netstack.Ip.ReassemblySafety

namespace Sail.Netstack

open Bytes

/-! ### Contiguous fragments -/

def Contiguous : Nat → List Fragment → Nat → Prop
  | start, [], stop => start = stop
  | start, tile :: rest, stop =>
    tile.info.offsetBytes = start ∧ Contiguous (start + tile.payload.length) rest stop

def Fragment.piece (fragment : Fragment) : Nat × Bytes :=
  (fragment.info.offsetBytes, fragment.payload)

def joinedPayload (tiles : List Fragment) : Bytes :=
  tiles.flatMap Fragment.payload

namespace Contiguous

variable {start stop : Nat} {tiles : List Fragment}

section

variable (contiguous : Contiguous start tiles stop)

include contiguous

theorem le_offset : ∀ tile ∈ tiles, start ≤ tile.info.offsetBytes := by
  induction tiles generalizing start with
  | nil =>
    intro tile member
    cases member
  | cons first rest ih =>
    intro tile member
    rcases List.mem_cons.mp member with same | inRest
    · rw [same, contiguous.1]
    · have behind := ih contiguous.2 tile inRest
      omega

theorem disjoint : tiles.Pairwise (fun earlier later =>
      earlier.info.offsetBytes + earlier.payload.length ≤ later.info.offsetBytes) := by
  induction tiles generalizing start with
  | nil => exact List.Pairwise.nil
  | cons first rest ih =>
    apply List.Pairwise.cons _ (ih contiguous.2)
    intro later member
    rw [contiguous.1]
    exact le_offset contiguous.2 later member

theorem length_joinedPayload : start + (joinedPayload tiles).length = stop := by
  induction tiles generalizing start with
  | nil => exact contiguous
  | cons first rest ih =>
    have restLength := ih contiguous.2
    rw [joinedPayload, List.flatMap_cons, List.length_append]
    rw [joinedPayload] at restLength
    omega

theorem end_le : ∀ tile ∈ tiles, tile.info.offsetBytes + tile.payload.length ≤ stop := by
  induction tiles generalizing start with
  | nil =>
    intro tile member
    cases member
  | cons first rest ih =>
    intro tile member
    rcases List.mem_cons.mp member with same | inRest
    · have restLength := length_joinedPayload contiguous.2
      rw [same, contiguous.1]
      omega
    · exact ih contiguous.2 tile inRest

/-- Every byte of the joined payload is that of the fragment covering it. -/
theorem getElem?_joinedPayload {tile : Fragment} (member : tile ∈ tiles) {index : Nat}
    (inside : index < tile.payload.length) :
    (joinedPayload tiles)[tile.info.offsetBytes - start + index]? = tile.payload[index]? := by
  induction tiles generalizing start with
  | nil => cases member
  | cons first rest ih =>
    rw [joinedPayload, List.flatMap_cons]
    rcases List.mem_cons.mp member with same | inRest
    · subst same
      rw [contiguous.1, Nat.sub_self, Nat.zero_add, List.getElem?_append_left inside]
    · have behind := le_offset contiguous.2 tile inRest
      rw [List.getElem?_append_right (by omega), ← ih contiguous.2 inRest]
      congr 1
      omega

/-- The fragment at the start is the first one. -/
theorem head_of_offset (nonempty : ∀ tile ∈ tiles, 0 < tile.payload.length) {tile : Fragment}
    (member : tile ∈ tiles) (atStart : tile.info.offsetBytes = start) :
    tiles.head? = some tile := by
  cases tiles with
  | nil => cases member
  | cons first rest =>
    rcases List.mem_cons.mp member with same | inRest
    · rw [same]
      rfl
    · have behind := le_offset contiguous.2 tile inRest
      have positive := nonempty first List.mem_cons_self
      omega

end

end Contiguous

theorem pieceEnd_eq {offset : Nat} {bytes : Bytes}
    (inRange : offset + bytes.length ≤ maxReassembledBytes) :
    pieceEnd offset bytes = offset + bytes.length := by
  unfold pieceEnd u32Max
  unfold maxReassembledBytes at inRange
  omega

theorem contiguous_of_coveredFrom {tiles : List Fragment} {start total : Nat}
    (wellRead : ∀ tile ∈ tiles, tile.WellRead)
    (covered : coveredFrom start (tiles.map Fragment.piece) = some total) :
    Contiguous start tiles total := by
  induction tiles generalizing start with
  | nil => exact Option.some.inj covered
  | cons first rest ih =>
    rw [List.map_cons, coveredFrom] at covered
    split_ifs at covered with misplaced
    have here : first.info.offsetBytes = start := not_not.mp misplaced
    have read := wellRead first List.mem_cons_self
    have inRange : start + first.payload.length ≤ maxReassembledBytes := by
      have stopEq := read.stop_eq
      have stopLe := read.stop_le
      omega
    change coveredFrom (pieceEnd start first.payload) (rest.map Fragment.piece) =
      some total at covered
    rw [pieceEnd_eq inRange] at covered
    exact ⟨here, ih (List.forall_mem_cons.mp wellRead).2 covered⟩

variable {entries : List (Nat × Bytes)} {received : List Fragment} {header datagram : Bytes}
  {first : Fragment} {assembly : Assembly}

/-- Pieces that are a rearrangement of received fragments belong to the
fragments in that arrangement. -/
theorem exists_tiles (perm : entries.Perm (received.map Fragment.piece)) :
    ∃ tiles : List Fragment, tiles.Perm received ∧ tiles.map Fragment.piece = entries := by
  have related : List.Forall₂ (fun piece (fragment : Fragment) => piece = fragment.piece)
      (received.map Fragment.piece) received := by
    rw [List.forall₂_map_left_iff]
    exact List.forall₂_same.mpr (fun _ _ => rfl)
  obtain ⟨tiles, pieces, tilesPerm⟩ := List.perm_comp_forall₂ perm related
  refine ⟨tiles, tilesPerm, ?_⟩
  have mapped : List.Forall₂ (· = ·) entries (tiles.map Fragment.piece) :=
    List.forall₂_map_right_iff.mpr pieces
  exact (List.forall₂_eq_eq_eq ▸ mapped : entries = _).symm

section

variable (pieces : entries.Perm (received.map Fragment.piece))
  (wellRead : ∀ fragment ∈ received, fragment.WellRead)

include pieces wellRead

/-- A piece is that of a received fragment, and ends where it does. -/
theorem piece_of_mem {piece : Nat × Bytes} (member : piece ∈ entries) :
    ∃ fragment ∈ received, piece.1 = fragment.info.offsetBytes ∧
      pieceEnd piece.1 piece.2 = fragment.stop := by
  obtain ⟨fragment, received, pieceEq⟩ := List.mem_map.mp (pieces.mem_iff.mp member)
  have read := wellRead fragment received
  have stopEq := read.stop_eq
  have stopLe := read.stop_le
  have inRange : fragment.info.offsetBytes + fragment.payload.length ≤ maxReassembledBytes := by
    omega
  refine ⟨fragment, received, ?_, ?_⟩
  · rw [← pieceEq]
    rfl
  · rw [← pieceEq, stopEq]
    exact pieceEnd_eq inRange

/-- A fragment apart from every piece starts where none of them does. -/
theorem fresh_of_apart {fragment : Fragment} (read : fragment.WellRead)
    (apart : ∀ piece ∈ entries,
      ¬(fragment.info.offsetBytes < pieceEnd piece.1 piece.2 ∧ piece.1 < fragment.stop)) :
    ∀ piece ∈ entries, piece.1 ≠ fragment.info.offsetBytes := by
  intro piece member same
  obtain ⟨old, oldReceived, oldStart, oldEnd⟩ := piece_of_mem pieces wellRead member
  have oldNonempty := (wellRead old oldReceived).nonempty
  have oldStop := (wellRead old oldReceived).stop_eq
  have stop := read.stop_eq
  have nonempty := read.nonempty
  apply apart piece member
  omega

end

/-! ### The rebuilt datagram -/

/-- An IPv4 header with another total length, whole, and its checksum made right. -/
def wholeIpv4Header (header : Bytes) (totalLen : Nat) : Bytes :=
  let cleared := putU16 (putU16 (putU16 header 2 totalLen) 6 0) 10 0
  putU16 cleared 10 (ipv4Checksum cleared)

def wholeIpv6Header (header : Bytes) (previous : Nat) (protocol : UInt8)
    (payloadLen : Nat) : Bytes :=
  putU16 (overwrite header previous [protocol]) 4 payloadLen

def rebuiltHeader (first : Fragment) (total : Nat) : Bytes :=
  match first.key.version with
  | .v4 => wholeIpv4Header first.header (first.header.length + total)
  | .v6 =>
    wholeIpv6Header first.header (first.previousNextHeader.getD 0) first.protocol
      (first.header.length - 40 + total)

theorem length_cleared (totalLen bits : Nat) (long : 20 ≤ header.length) :
    (putU16 (putU16 (putU16 header 2 totalLen) 6 bits) 10 0).length = header.length := by
  have sized : (putU16 header 2 totalLen).length = header.length :=
    length_putU16 totalLen (by omega)
  have whole : (putU16 (putU16 header 2 totalLen) 6 bits).length = header.length := by
    rw [length_putU16 bits (by omega), sized]
  rw [length_putU16 0 (by omega), whole]

theorem length_wholeIpv4Header (totalLen : Nat) (long : 20 ≤ header.length) :
    (wholeIpv4Header header totalLen).length = header.length := by
  have cleared := length_cleared totalLen 0 long
  unfold wholeIpv4Header
  rw [length_putU16 _ (by omega), cleared]

theorem length_wholeIpv6Header {previous : Nat} (protocol : UInt8) (payloadLen : Nat)
    (long : 40 ≤ header.length) (inside : previous < header.length) :
    (wholeIpv6Header header previous protocol payloadLen).length = header.length := by
  have named : (overwrite header previous [protocol]).length = header.length :=
    length_overwrite inside
  unfold wholeIpv6Header
  rw [length_putU16 _ (by omega), named]

theorem length_rebuiltHeader (total : Nat)
    (readable : HeaderReadable first.key.version first.header first.previousNextHeader) :
    (rebuiltHeader first total).length = first.header.length := by
  unfold rebuiltHeader
  cases version : first.key.version with
  | v4 =>
    rw [version] at readable
    exact length_wholeIpv4Header _ readable.1
  | v6 =>
    rw [version] at readable
    obtain ⟨long, index, named, inside⟩ := readable
    rw [named]
    exact length_wholeIpv6Header _ _ long inside

theorem ipv4HeaderLen_cleared (totalLen bits : Nat) (long : 20 ≤ header.length) :
    ipv4HeaderLen (putU16 (putU16 (putU16 header 2 totalLen) 6 bits) 10 0) =
      ipv4HeaderLen header := by
  have sized : (putU16 header 2 totalLen).length = header.length :=
    length_putU16 totalLen (by omega)
  have whole : (putU16 (putU16 header 2 totalLen) 6 bits).length = header.length := by
    rw [length_putU16 bits (by omega), sized]
  unfold ipv4HeaderLen
  rw [byteAt_putU16_of_ne 0 _ (by omega) (by omega),
    byteAt_putU16_of_ne bits _ (by omega) (by omega),
    byteAt_putU16_of_ne totalLen _ (by omega) (by omega)]

theorem rebuild_v4 (headed : assembly.header = some header) (long : 20 ≤ header.length)
    (stated : ipv4HeaderLen header = header.length) (built : rebuild assembly .v4 = .ok datagram) :
    datagram = wholeIpv4Header header
          (header.length + (assembly.pieces.entries.flatMap Prod.snd).length) ++
        assembly.pieces.entries.flatMap Prod.snd := by
  unfold rebuild at built
  rw [headed] at built
  dsimp only at built
  split_ifs at built with large
  rw [← Except.ok.inj built, List.length_append]
  generalize assembly.pieces.entries.flatMap Prod.snd = payload
  have clearedLength := length_cleared (header.length + payload.length) 0 long
  have cleared :
      putU16 (putU16 (putU16 (header ++ payload) 2 (header.length + payload.length)) 6 0) 10 0 =
        putU16 (putU16 (putU16 header 2 (header.length + payload.length)) 6 0) 10 0 ++
          payload := by
    have sized := length_putU16 (header.length + payload.length)
      (show 2 + 2 ≤ header.length by omega)
    have whole := length_putU16 0
      (show 6 + 2 ≤ (putU16 header 2 (header.length + payload.length)).length by omega)
    rw [putU16_append _ _ (by omega), putU16_append _ _ (by omega), putU16_append _ _ (by omega)]
  have headerLen := ipv4HeaderLen_cleared (header.length + payload.length) 0 long
  rw [cleared]
  unfold wholeIpv4Header
  generalize putU16 (putU16 (putU16 header 2 (header.length + payload.length)) 6 0) 10 0 =
    rewritten at clearedLength headerLen ⊢
  have sameLen : ipv4HeaderLen (rewritten ++ payload) = rewritten.length := by
    rw [ipv4HeaderLen, byteAt_append_left payload (by omega), ← ipv4HeaderLen, headerLen,
      stated, clearedLength]
  rw [sameLen, List.take_left, putU16_append _ _ (by omega)]

theorem rebuild_v6 {previous : Nat} (headed : assembly.header = some header)
    (named : assembly.ipv6PreviousNextHeader = some previous) (long : 40 ≤ header.length)
    (inside : previous < header.length) (built : rebuild assembly .v6 = .ok datagram) :
    datagram = wholeIpv6Header header previous assembly.protocol
          (header.length - 40 + (assembly.pieces.entries.flatMap Prod.snd).length) ++
        assembly.pieces.entries.flatMap Prod.snd := by
  unfold rebuild at built
  rw [headed] at built
  simp only [named] at built
  split_ifs at built with large
  rw [← Except.ok.inj built]
  generalize assembly.pieces.entries.flatMap Prod.snd = payload
  have renamedLength : (overwrite header previous [assembly.protocol]).length = header.length :=
    length_overwrite inside
  rw [overwrite_append payload inside, List.length_append, renamedLength,
    putU16_append _ _ (by omega)]
  congr 2
  omega

section

variable (headed : assembly.header = some first.header)
  (named : first.previousNextHeader = assembly.ipv6PreviousNextHeader)

include headed named

/-- Rebuilding puts the first fragment's header in front of the pieces. -/
theorem rebuild_eq (sameProtocol : first.protocol = assembly.protocol)
    (readable : HeaderReadable first.key.version first.header first.previousNextHeader)
    (built : rebuild assembly first.key.version = .ok datagram) :
    datagram = rebuiltHeader first (assembly.pieces.entries.flatMap Prod.snd).length ++
        assembly.pieces.entries.flatMap Prod.snd := by
  unfold rebuiltHeader
  cases version : first.key.version with
  | v4 =>
    rw [version] at built readable
    exact rebuild_v4 headed readable.1 readable.2 built
  | v6 =>
    rw [version] at built readable
    obtain ⟨long, index, firstNamed, inside⟩ := readable
    rw [rebuild_v6 headed (named ▸ firstNamed) long inside built, firstNamed, sameProtocol]
    rfl

/-- Rebuilding fails only for a datagram that is too large. -/
theorem rebuild_ok
    (readable : HeaderReadable first.key.version first.header first.previousNextHeader)
    (fits : reassembledSizeExceeds first.key.version first.header.length
      (assembly.pieces.entries.flatMap Prod.snd).length = false) :
    ∃ datagram, rebuild assembly first.key.version = .ok datagram := by
  unfold rebuild
  rw [headed]
  cases version : first.key.version with
  | v4 =>
    rw [version] at fits
    have small := of_decide_eq_false fits
    dsimp only
    rw [List.length_append, if_neg small]
    exact ⟨_, rfl⟩
  | v6 =>
    rw [version] at fits readable
    obtain ⟨long, index, firstNamed, inside⟩ := readable
    have small := of_decide_eq_false ((Bool.or_eq_false_iff.mp fits).2)
    have namedLength : ∀ payload : Bytes,
        (overwrite (first.header ++ payload) index [assembly.protocol]).length =
          first.header.length + payload.length := by
      intro payload
      rw [overwrite_append payload inside, List.length_append, length_overwrite inside]
    rw [← named, firstNamed]
    dsimp only
    rw [namedLength, if_neg (by omega)]
    exact ⟨_, rfl⟩

end

end Sail.Netstack
