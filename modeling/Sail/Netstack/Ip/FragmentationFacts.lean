/-
What source fragmentation produces.

The cuts of a payload follow each other from its start to its end, each but the
last filling its capacity. Every fragment is read back by the reassembler as
the chunk it carries.
-/

import Sail.Netstack.Ip.Checksum
import Sail.Netstack.Ip.Fragmentation
import Sail.Netstack.Ip.ReassemblyCompletion

namespace Sail.Netstack

open Bytes

/-! ### Cuts -/

def CutsBetween : Nat → List Cut → Nat → Prop
  | start, [], stop => start = stop
  | start, cut :: rest, stop =>
    cut.offset = start ∧ CutsBetween (start + cut.amount) rest stop

structure CutFits (firstCapacity laterCapacity total : Nat) (cut : Cut) : Prop where
  positive : 0 < cut.amount
  inside : cut.offset + cut.amount ≤ total
  first : cut.offset = 0 → cut.amount = min total firstCapacity
  later : cut.offset ≠ 0 → cut.amount ≤ laterCapacity
  aligned : cut.offset % 8 = 0
  full : cut.offset + cut.amount < total → cut.amount % 8 = 0

section Cuts

variable {firstCapacity laterCapacity total : Nat}
  (firstPositive : 0 < firstCapacity) (laterPositive : 0 < laterCapacity)
include firstPositive laterPositive

theorem cutsFrom_between (rounds offset : Nat) (enough : total ≤ offset + rounds)
    (inside : offset ≤ total) :
    CutsBetween offset (cutsFrom firstCapacity laterCapacity total rounds offset) total := by
  induction rounds generalizing offset with
  | zero =>
    change offset = total
    omega
  | succ rounds ih =>
    unfold cutsFrom
    split_ifs with done start
    · change offset = total
      omega
    · exact ⟨rfl, ih (offset + min (total - offset) firstCapacity) (by omega) (by omega)⟩
    · exact ⟨rfl, ih (offset + min (total - offset) laterCapacity) (by omega) (by omega)⟩

theorem cutsFrom_fits (firstAligned : firstCapacity % 8 = 0)
    (laterAligned : laterCapacity % 8 = 0) (rounds offset : Nat) (aligned : offset % 8 = 0) :
    ∀ cut ∈ cutsFrom firstCapacity laterCapacity total rounds offset,
      CutFits firstCapacity laterCapacity total cut := by
  induction rounds generalizing offset with
  | zero =>
    intro cut member
    cases member
  | succ rounds ih =>
    intro cut member
    unfold cutsFrom at member
    by_cases done : total ≤ offset
    · rw [if_pos done] at member
      cases member
    rw [if_neg done] at member
    generalize capacityEq : (if offset = 0 then firstCapacity else laterCapacity) =
      capacity at member
    have capacityPositive : 0 < capacity := by
      split_ifs at capacityEq <;> omega
    have capacityAligned : capacity % 8 = 0 := by
      split_ifs at capacityEq <;> omega
    rcases List.mem_cons.mp member with same | inRest
    · rw [same]
      refine ⟨?_, ?_, ?_, ?_, aligned, ?_⟩
      · change 0 < min (total - offset) capacity
        omega
      · change offset + min (total - offset) capacity ≤ total
        omega
      · intro start
        change offset = 0 at start
        rw [if_pos start] at capacityEq
        rw [capacityEq, start, Nat.sub_zero]
      · intro behind
        rw [if_neg behind] at capacityEq
        change min (total - offset) capacity ≤ laterCapacity
        omega
      · intro more
        change offset + min (total - offset) capacity < total at more
        have filled : min (total - offset) capacity = capacity := by omega
        rw [filled]
        exact capacityAligned
    · by_cases filled : capacity ≤ total - offset
      · apply ih (offset + min (total - offset) capacity) _ cut inRest
        omega
      · have ended : total ≤ offset + min (total - offset) capacity := by omega
        cases rounds with
        | zero => cases inRest
        | succ rounds =>
          unfold cutsFrom at inRest
          rw [if_pos ended] at inRest
          cases inRest

theorem cuts_between : CutsBetween 0 (cuts firstCapacity laterCapacity total) total :=
  cutsFrom_between firstPositive laterPositive total 0 (by omega) (Nat.zero_le _)

theorem cuts_fit (firstAligned : firstCapacity % 8 = 0) (laterAligned : laterCapacity % 8 = 0) :
    ∀ cut ∈ cuts firstCapacity laterCapacity total, CutFits firstCapacity laterCapacity total cut :=
  cutsFrom_fits firstPositive laterPositive firstAligned laterAligned total 0 rfl

end Cuts

theorem alignedChunk_ok {mtu headerLen chunk : Nat}
    (aligned : alignedChunk mtu headerLen = .ok chunk) :
    0 < chunk ∧ chunk % 8 = 0 ∧ headerLen + chunk ≤ mtu := by
  unfold alignedChunk at aligned
  split_ifs at aligned with small none
  cases aligned
  omega

theorem CutsBetween.le {list : List Cut} {start stop : Nat} (between : CutsBetween start list stop) :
    start ≤ stop := by
  induction list generalizing start with
  | nil => exact Nat.le_of_eq between
  | cons cut rest ih =>
    have later := ih between.2
    omega

theorem CutsBetween.lt_of_mem_dropLast {list : List Cut} {start stop : Nat}
    (between : CutsBetween start list stop) (positive : ∀ cut ∈ list, 0 < cut.amount) :
    ∀ cut ∈ list.dropLast, cut.offset + cut.amount < stop := by
  induction list generalizing start with
  | nil =>
    intro cut member
    cases member
  | cons first rest ih =>
    intro cut member
    cases rest with
    | nil => cases member
    | cons next others =>
      have nextPositive := positive next (List.mem_cons_of_mem _ List.mem_cons_self)
      have behind := between.2.2.le
      rcases List.mem_cons.mp member with same | inRest
      · rw [same, between.1]
        omega
      · exact ih between.2
          (List.forall_mem_cons.mp positive).2
          cut inRest

theorem bind_ok {α β ε : Type} {first : Except ε α} {next : α → Except ε β} {result : β}
    (done : (first >>= next) = .ok result) :
    ∃ value, first = .ok value ∧ next value = .ok result := by
  cases first with
  | error error => cases done
  | ok value => exact ⟨value, rfl, done⟩

theorem exists_of_mem_right {α β : Type} {relation : α → β → Prop} {left : List α}
    {right : List β} (related : List.Forall₂ relation left right) {item : β}
    (member : item ∈ right) : ∃ other ∈ left, relation other item := by
  induction related with
  | nil => cases member
  | cons head _ ih =>
    rcases List.mem_cons.mp member with rfl | inRest
    · exact ⟨_, List.mem_cons_self, head⟩
    · obtain ⟨other, inLeft, holds⟩ := ih inRest
      exact ⟨other, List.mem_cons_of_mem _ inLeft, holds⟩

theorem mapM_eq_map {α β ε : Type} {read : α → Except ε β} {result : α → β}
    {values : List α} (each : ∀ value ∈ values, read value = .ok (result value)) :
    values.mapM read = .ok (values.map result) := by
  induction values with
  | nil => rfl
  | cons value rest ih =>
    rw [List.mapM_cons, each value List.mem_cons_self,
      ih (List.forall_mem_cons.mp each).2]
    rfl

/-! ### What a fragment says about its chunk -/

theorem isAtomic_eq_false {info : FragmentInfo}
    (notWhole : info.offsetBytes = 0 → info.moreFragments = true) : info.isAtomic = false := by
  unfold FragmentInfo.isAtomic
  by_cases start : info.offsetBytes = 0
  · rw [notWhole start]
    exact Bool.and_false _
  · rw [decide_eq_false start, Bool.false_and]

theorem fragmentEnd_eq {info : FragmentInfo} {payloadLen : Nat} (nonempty : 0 < payloadLen)
    (full : info.moreFragments = true → payloadLen % 8 = 0)
    (inside : info.offsetBytes + payloadLen ≤ 65535) :
    fragmentEnd info payloadLen = .ok (info.offsetBytes + payloadLen) := by
  unfold fragmentEnd u32Max maxReassembledBytes
  have aligned : ¬(info.moreFragments = true ∧ payloadLen % 8 ≠ 0) :=
    fun ⟨more, unaligned⟩ => unaligned (full more)
  rw [if_neg (by omega), if_neg aligned, if_neg (by omega), if_neg (by omega), if_neg (by omega)]

/-! ### The fragments of a payload -/

/-- A fragment as it is read back carries the cut it was made for. -/
structure Carries (key : FragmentKey) (protocol : UInt8) (payload : Bytes) (cut : Cut)
    (tile : Fragment) : Prop where
  key_eq : tile.key = key
  protocol_eq : tile.protocol = protocol
  offset : tile.info.offsetBytes = cut.offset
  more : tile.info.moreFragments = decide (cut.offset + cut.amount < payload.length)
  payload_eq : tile.payload = slice payload cut.offset (cut.offset + cut.amount)
  wellRead : tile.WellRead

section Delivered

variable {key : FragmentKey} {protocol : UInt8} {payload : Bytes} {list : List Cut}
  {tiles : List Fragment}

theorem Carries.length_eq {cut : Cut} {tile : Fragment}
    (carries : Carries key protocol payload cut tile)
    (inside : cut.offset + cut.amount ≤ payload.length) :
    tile.payload.length = cut.amount := by
  rw [carries.payload_eq, length_slice_add inside]

theorem contiguous_of_carries {start stop : Nat} (between : CutsBetween start list stop)
    (inside : ∀ cut ∈ list, cut.offset + cut.amount ≤ payload.length)
    (carried : List.Forall₂ (Carries key protocol payload) list tiles) :
    Contiguous start tiles stop := by
  induction carried generalizing start with
  | nil => exact between
  | @cons cut tile cuts tiles carries rest ih =>
    refine ⟨carries.offset.trans between.1, ?_⟩
    rw [carries.length_eq (inside cut List.mem_cons_self)]
    exact ih between.2 (List.forall_mem_cons.mp inside).2

theorem joinedPayload_of_carries {start stop : Nat} (between : CutsBetween start list stop)
    (carried : List.Forall₂ (Carries key protocol payload) list tiles) :
    joinedPayload tiles = slice payload start stop := by
  induction carried generalizing start with
  | nil =>
    have same : start = stop := between
    rw [same, slice]
    exact (List.drop_eq_nil_of_le (List.length_take_le _ _)).symm
  | @cons cut tile cuts tiles carries rest ih =>
    have later := between.2.le
    rw [joinedPayload, List.flatMap_cons, carries.payload_eq, between.1]
    have restEq := ih between.2
    rw [joinedPayload] at restEq
    rw [restEq]
    exact slice_append_slice payload (Nat.le_add_right _ _) later

/-- Fragments that carry the cuts of a payload are those of one datagram. -/
theorem deliverable_of_carries {first : Fragment}
    (between : CutsBetween 0 list payload.length)
    (inside : ∀ cut ∈ list, cut.offset + cut.amount ≤ payload.length)
    (carried : List.Forall₂ (Carries key protocol payload) list tiles)
    (head : tiles.head? = some first)
    (fits : reassembledSizeExceeds key.version first.header.length payload.length = false) :
    Deliverable key protocol payload.length first tiles := by
  refine ⟨?_, ?_, ?_, contiguous_of_carries between inside carried, head, ?_, fits⟩
  · intro tile member
    obtain ⟨cut, _, carries⟩ := exists_of_mem_right carried member
    exact carries.key_eq
  · intro tile member
    obtain ⟨cut, _, carries⟩ := exists_of_mem_right carried member
    exact carries.protocol_eq
  · intro tile member
    obtain ⟨cut, _, carries⟩ := exists_of_mem_right carried member
    exact carries.wellRead
  · intro tile member
    obtain ⟨cut, cutMember, carries⟩ := exists_of_mem_right carried member
    have cutInside := inside cut cutMember
    rw [carries.more, carries.wellRead.stop_eq, carries.offset, carries.length_eq cutInside,
      decide_eq_false_iff_not]
    omega

/-- What fragmentation delivers: packets that are read back as the fragments of
one datagram, none longer than the MTU and each but the last aligned. -/
structure Delivers (mtu : Nat) (key : FragmentKey) (protocol : UInt8) (payload : Bytes)
    (first : Fragment) (fragments : List Bytes) (tiles : List Fragment) : Prop where
  reads : List.Forall₂ (fun fragment tile => inspect fragment = .ok (some tile)) fragments tiles
  deliverable : Deliverable key protocol payload.length first tiles
  joined : joinedPayload tiles = payload
  several : 2 ≤ tiles.length
  bounded : ∀ fragment ∈ fragments, fragment.length ≤ mtu
  aligned : ∀ fragment ∈ fragments.dropLast, ∃ tile, inspect fragment = .ok (some tile) ∧
    tile.payload.length % 8 = 0

theorem delivers_of_cuts {mtu firstCapacity laterCapacity : Nat}
    (firstPositive : 0 < firstCapacity) (laterPositive : 0 < laterCapacity)
    (firstAligned : firstCapacity % 8 = 0) (laterAligned : laterCapacity % 8 = 0)
    (larger : firstCapacity < payload.length)
    {bytesOf : Cut → Bytes} {tileOf : Cut → Fragment}
    (each : ∀ cut, CutFits firstCapacity laterCapacity payload.length cut →
      inspect (bytesOf cut) = .ok (some (tileOf cut)) ∧
        Carries key protocol payload cut (tileOf cut) ∧ (bytesOf cut).length ≤ mtu)
    (fits : reassembledSizeExceeds key.version
      (tileOf { offset := 0, amount := firstCapacity }).header.length payload.length = false) :
    Delivers mtu key protocol payload (tileOf { offset := 0, amount := firstCapacity })
      ((cuts firstCapacity laterCapacity payload.length).map bytesOf)
      ((cuts firstCapacity laterCapacity payload.length).map tileOf) := by
  have between : CutsBetween 0 (cuts firstCapacity laterCapacity payload.length)
      payload.length := cuts_between firstPositive laterPositive
  have cutFits : ∀ cut ∈ cuts firstCapacity laterCapacity payload.length,
      CutFits firstCapacity laterCapacity payload.length cut :=
    cuts_fit firstPositive laterPositive firstAligned laterAligned
  have headCut : ∃ rest, cuts firstCapacity laterCapacity payload.length =
      { offset := 0, amount := firstCapacity } :: rest := by
    unfold cuts
    obtain ⟨rounds, roundsEq⟩ : ∃ rounds, payload.length = rounds + 1 :=
      ⟨payload.length - 1, by omega⟩
    rw [roundsEq]
    unfold cutsFrom
    dsimp only
    rw [if_pos rfl, Nat.sub_zero, Nat.min_eq_right (by omega)]
    exact ⟨_, rfl⟩
  have several : 2 ≤ (cuts firstCapacity laterCapacity payload.length).length := by
    obtain ⟨rest, listEq⟩ := headCut
    rw [listEq] at between ⊢
    cases rest with
    | nil =>
      have whole : 0 + firstCapacity = payload.length := between.2
      omega
    | cons next others =>
      simp only [List.length_cons]
      omega
  generalize cuts firstCapacity laterCapacity payload.length = list at *
  have carried : List.Forall₂ (Carries key protocol payload) list (list.map tileOf) := by
    rw [List.forall₂_map_right_iff]
    exact List.forall₂_same.mpr (fun cut member => (each cut (cutFits cut member)).2.1)
  have head : (list.map tileOf).head? = some (tileOf { offset := 0, amount := firstCapacity }) := by
    obtain ⟨rest, listEq⟩ := headCut
    rw [listEq]
    rfl
  constructor
  · rw [List.forall₂_map_left_iff, List.forall₂_map_right_iff]
    exact List.forall₂_same.mpr (fun cut member => (each cut (cutFits cut member)).1)
  · exact deliverable_of_carries between (fun cut member => (cutFits cut member).inside)
      carried head fits
  · rw [joinedPayload_of_carries between carried, slice, List.drop_zero, List.take_length]
  · rw [List.length_map]
    exact several
  · intro fragment member
    obtain ⟨cut, cutMember, same⟩ := List.mem_map.mp member
    rw [← same]
    exact (each cut (cutFits cut cutMember)).2.2
  · intro fragment member
    rw [← List.map_dropLast] at member
    obtain ⟨cut, cutMember, same⟩ := List.mem_map.mp member
    have fitsCut := cutFits cut (List.mem_of_mem_dropLast cutMember)
    have notLast := between.lt_of_mem_dropLast (fun other inList => (cutFits other inList).positive)
      cut cutMember
    obtain ⟨read, carries, _⟩ := each cut fitsCut
    refine ⟨tileOf cut, same ▸ read, ?_⟩
    rw [carries.length_eq fitsCut.inside]
    exact fitsCut.full notLast

end Delivered

end Sail.Netstack
