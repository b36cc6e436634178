/-
The fragments of one datagram and the shard they go to.

Every fragment of an IPv4 packet gets the same routing key. So does every fragment of an
IPv6 packet whose fragmentable part begins with the upper layer; when it begins with an
extension header, the first fragment gets a key of its own.
-/

import Sail.Netstack.Engine.Shard
import Sail.Netstack.Ip.ExtensionChain

namespace Sail.Netstack

open Bytes

variable {packet : Bytes} {answer : FlowKey × PacketClass} {generation : NetworkGeneration}
variable {cut : Nat × Nat}

/-! ### Splits -/

/-- Consecutive nonempty ranges, all but the last ending on eight bytes. -/
inductive Cuts : Nat → Nat → List (Nat × Nat) → Prop where
  | last {start stop : Nat} (nonempty : start < stop) : Cuts start stop [(start, stop)]
  | next {start middle stop : Nat} {rest : List (Nat × Nat)} (nonempty : start < middle)
      (aligned : middle % 8 = 0) (others : Cuts middle stop rest) :
      Cuts start stop ((start, middle) :: rest)

def ipv4PayloadLen (packet : Bytes) : Nat :=
  u16At packet 2 - ipv4HeaderLen packet

/-- A fragment of an IPv4 packet: it keeps identification, protocol and
addresses and carries one range of the payload. The other fields are free; a
fragment of a fragment counts from the offset of the latter. -/
structure IsIpv4Fragment (packet : Bytes) (cut : Nat × Nat) (fragment : Bytes) : Prop where
  version : (byteAt fragment 0).toNat / 16 = 4
  length : u16At fragment 2 = ipv4HeaderLen fragment + (cut.2 - cut.1)
  identification : u16At fragment 4 = u16At packet 4
  offset : u16At fragment 6 % 8192 = u16At packet 6 % 8192 + cut.1 / 8
  more : u16At fragment 6 / 8192 % 2 = 1 ↔
    u16At packet 6 / 8192 % 2 = 1 ∨ cut.2 < ipv4PayloadLen packet
  protocol : byteAt fragment 9 = byteAt packet 9
  addresses : slice fragment 12 20 = slice packet 12 20
  payload : slice fragment (ipv4HeaderLen fragment) (u16At fragment 2) =
    slice packet (ipv4HeaderLen packet + cut.1) (ipv4HeaderLen packet + cut.2)

/-- The extension headers from one next-header field to another: what the first
field names starts at `offset`, what the last one names starts at `stop`. -/
inductive Leads (packet : Bytes) : UInt8 → Nat → Nat → UInt8 → Nat → Nat → Prop where
  | stop (kind : UInt8) (pointer offset : Nat) :
      Leads packet kind pointer offset kind pointer offset
  | next {kind : UInt8} {pointer offset : Nat} {last : UInt8} {lastPointer stop : Nat}
      (extension : kind = 0 ∨ kind = 43 ∨ kind = 60)
      (rest : Leads packet (byteAt packet offset) offset (offset + extensionLen packet offset)
        last lastPointer stop) :
      Leads packet kind pointer offset last lastPointer stop

/-- A fragment of an IPv6 packet: the headers up to a boundary are repeated but
for the next-header field in front of it, which names the Fragment header. -/
structure IsIpv6Fragment (packet : Bytes) (boundary pointer : Nat) (nextHeader : UInt8)
    (identification : Nat) (cut : Nat × Nat) (fragment : Bytes) : Prop where
  version : (byteAt fragment 0).toNat / 16 = 6
  length : u16At fragment 4 = boundary - 40 + 8 + (cut.2 - cut.1)
  addresses : slice fragment 8 40 = slice packet 8 40
  pointed : byteAt fragment pointer = 44
  leading : pointer ≠ 6 → byteAt fragment 6 = byteAt packet 6
  repeated : ∀ position, 40 ≤ position → position < boundary → position ≠ pointer →
    byteAt fragment position = byteAt packet position
  named : byteAt fragment boundary = nextHeader
  info : fragmentInfoAt fragment boundary =
    { identification := identification
      offsetBytes := cut.1
      moreFragments := cut.2 < 40 + u16At packet 4 - boundary }
  payload : slice fragment (boundary + 8) (40 + u16At fragment 4) =
    slice packet (boundary + cut.1) (boundary + cut.2)

/-- A split of a packet into several fragments, and the first header of what is
split: the protocol of an IPv4 packet, the header after the repeated ones of an
IPv6 packet. -/
inductive SplitInto (packet : Bytes) : IpVersion → UInt8 → List Bytes → Prop where
  | ipv4 {cuts : List (Nat × Nat)} {fragments : List Bytes}
      (tiled : Cuts 0 (ipv4PayloadLen packet) cuts) (several : 2 ≤ cuts.length)
      (each : List.Forall₂ (IsIpv4Fragment packet) cuts fragments) :
      SplitInto packet .v4 (byteAt packet 9) fragments
  | ipv6 {boundary pointer : Nat} {nextHeader : UInt8} {identification : Nat}
      {cuts : List (Nat × Nat)} {fragments : List Bytes}
      (leads : Leads packet (byteAt packet 6) 6 40 nextHeader pointer boundary)
      (tiled : Cuts 0 (40 + u16At packet 4 - boundary) cuts) (several : 2 ≤ cuts.length)
      (each : List.Forall₂
        (IsIpv6Fragment packet boundary pointer nextHeader identification) cuts fragments) :
      SplitInto packet .v6 nextHeader fragments

/-! ### Cuts -/

namespace Cuts

variable {start stop : Nat} {cuts : List (Nat × Nat)}

theorem start_lt (tiled : Cuts start stop cuts) : start < stop := by
  induction tiled with
  | last nonempty => exact nonempty
  | next nonempty _ _ ih => exact nonempty.trans ih

/-- Every cut but the first begins later. -/
theorem later (tiled : Cuts start stop cuts) :
    ∃ first rest, cuts = first :: rest ∧ first.1 = start ∧ ∀ cut ∈ rest, start < cut.1 := by
  induction tiled with
  | last nonempty => exact ⟨_, [], rfl, rfl, nofun⟩
  | next nonempty aligned others ih =>
    obtain ⟨first, rest, same, begins, later⟩ := ih
    refine ⟨_, _, rfl, rfl, ?_⟩
    intro cut member
    rw [same] at member
    rcases List.mem_cons.mp member with rfl | inRest
    · rw [begins]
      exact nonempty
    · exact nonempty.trans (later cut inRest)

/-- A cut begins and ends inside, on eight bytes where it is not the end. -/
theorem inside (tiled : Cuts start stop cuts) (aligned : start % 8 = 0) (member : cut ∈ cuts) :
    cut.1 % 8 = 0 ∧ cut.2 ≤ stop := by
  induction tiled with
  | last nonempty =>
    rw [List.mem_singleton.mp member]
    exact ⟨aligned, Nat.le_refl _⟩
  | next nonempty middleAligned others ih =>
    rcases List.mem_cons.mp member with rfl | inRest
    · exact ⟨aligned, Nat.le_of_lt others.start_lt⟩
    · exact ih middleAligned inRest

/-- Of several cuts none is the whole. -/
theorem not_whole (tiled : Cuts 0 stop cuts) (several : 2 ≤ cuts.length) (member : cut ∈ cuts) :
    cut.1 ≠ 0 ∨ cut.2 < stop := by
  cases tiled with
  | last nonempty =>
    rw [List.length_singleton] at several
    omega
  | next nonempty aligned others =>
    rcases List.mem_cons.mp member with rfl | inRest
    · exact Or.inr others.start_lt
    · obtain ⟨first, rest, same, begins, later⟩ := others.later
      rw [same] at inRest
      left
      rcases List.mem_cons.mp inRest with rfl | behind
      · omega
      · have := later cut behind
        omega

end Cuts

/-! ### IPv4 fragments -/

section

variable {stop : Nat} {start : Nat} {right : Bytes} {left : Bytes}
  (same : slice left start stop = slice right start stop)

include same

theorem slice_of_slice {middle : Nat} (inside : middle ≤ stop) :
    slice left start middle = slice right start middle := by
  have shorter (bytes : Bytes) : slice bytes start middle =
      (slice bytes start stop).take (middle - start) := by
    unfold slice
    rw [List.drop_take, List.drop_take, List.take_take]
    congr 1
    omega
  rw [shorter, shorter, same]

theorem slice_behind_slice {middle : Nat} (inside : start ≤ middle) :
    slice left middle stop = slice right middle stop := by
  have later (bytes : Bytes) : slice bytes middle stop =
      (slice bytes start stop).drop (middle - start) := by
    unfold slice
    rw [List.drop_drop, Nat.add_sub_cancel' inside]
  rw [later, later, same]

end

/-- What the classifier answers for a fragment, from how it is parsed. -/
theorem classify_fragment {ip : ParsedIpPacket} {info : FragmentInfo}
    (generation : NetworkGeneration) (parsed : parseIpPacket packet true = .ok ip)
    (isFragment : ip.fragment = some info) (notAtomic : info.isAtomic = false) :
    classifyPacketWithClass packet generation =
      .ok (fragmentKey ip.source ip.destination info.identification ip.nextHeader generation,
        .data) := by
  unfold classifyPacketWithClass
  rw [parsed]
  dsimp only
  rw [isFragment, Option.filter_some, notAtomic]
  rfl

theorem parsed_of_classified (classified : classifyPacketWithClass packet generation = .ok answer) :
    ∃ ip, parseIpPacket packet true = .ok ip := by
  unfold classifyPacketWithClass at classified
  cases parsed : parseIpPacket packet true with
  | error error =>
    rw [parsed] at classified
    cases classified
  | ok ip => exact ⟨ip, rfl⟩

theorem IsIpv4Fragment.classified {fragment : Bytes}
    (isFragment : IsIpv4Fragment packet cut fragment) (aligned : cut.1 % 8 = 0)
    (notWhole : cut.1 ≠ 0 ∨ cut.2 < ipv4PayloadLen packet)
    (accepted : classifyPacketWithClass fragment generation = .ok answer) :
    answer = (fragmentKey (ipv4Address packet 12) (ipv4Address packet 16) (u16At packet 4)
      (byteAt packet 9) generation, .data) := by
  obtain ⟨ip, parsed⟩ := parsed_of_classified accepted
  have parsedEq : ip = ipv4Parsed fragment := by
    unfold parseIpPacket at parsed
    rw [if_pos isFragment.version] at parsed
    split_ifs at parsed
    exact (parseIpv4_ok_iff.mp parsed).2
  have offset := isFragment.offset
  have more := isFragment.more
  have flagged : (decide (u16At fragment 6 % 8192 * 8 ≠ 0) ||
      decide (u16At fragment 6 / 8192 % 2 = 1)) = true := by
    rw [Bool.or_eq_true, decide_eq_true_eq, decide_eq_true_eq]
    rcases notWhole with later | before
    · left
      omega
    · exact Or.inr (more.mpr (Or.inr before))
  have info : ip.fragment = some
      { identification := u16At packet 4
        offsetBytes := u16At fragment 6 % 8192 * 8
        moreFragments := u16At fragment 6 / 8192 % 2 = 1 } := by
    rw [parsedEq, ipv4Parsed]
    rw [if_pos flagged, isFragment.identification]
  have notAtomic : FragmentInfo.isAtomic
      { identification := u16At packet 4
        offsetBytes := u16At fragment 6 % 8192 * 8
        moreFragments := u16At fragment 6 / 8192 % 2 = 1 } = false := by
    refine isAtomic_eq_false ?_
    intro first
    rw [Bool.or_eq_true, decide_eq_true_eq] at flagged
    exact flagged.resolve_left (fun later => later first)
  have key := classify_fragment generation parsed info notAtomic
  rw [accepted] at key
  rw [Except.ok.inj key, parsedEq]
  unfold ipv4Parsed ipv4Address
  rw [isFragment.protocol, slice_of_slice isFragment.addresses (show 12 + 4 ≤ 20 by decide),
    slice_behind_slice isFragment.addresses (show 12 ≤ 16 by decide)]

/-! ### IPv6 fragments -/

namespace Leads

variable {packet fragment : Bytes} {kind last : UInt8} {pointer offset lastPointer stop : Nat}

section

variable (leads : Leads packet kind pointer offset last lastPointer stop)

include leads

theorem le_stop : offset ≤ stop := by
  induction leads with
  | stop => exact Nat.le_refl _
  | next _ _ ih => omega

/-- The last next-header field is the first one or one of a header behind it. -/
theorem pointer_cases : lastPointer = pointer ∨ offset ≤ lastPointer := by
  induction leads with
  | stop => exact Or.inl rfl
  | next _ _ ih =>
    right
    omega

/-- The headers of a packet, read in a fragment that repeats them and renames
what follows the last one. -/
theorem repoint (behind : pointer < offset) (named : byteAt fragment lastPointer = 44)
    (repeated : ∀ position, offset ≤ position → position < stop → position ≠ lastPointer →
      byteAt fragment position = byteAt packet position) :
    Leads fragment (if pointer = lastPointer then 44 else kind) pointer offset 44 lastPointer
      stop := by
  induction leads with
  | stop kind pointer offset =>
    rw [if_pos rfl]
    exact Leads.stop 44 pointer offset
  | next extension rest ih =>
    rename_i kind pointer offset last lastPointer stop
    have size : 8 ≤ extensionLen packet offset := by
      unfold extensionLen
      omega
    have stops := rest.le_stop
    have cases := rest.pointer_cases
    have apart : pointer ≠ lastPointer := by omega
    have sameLen : extensionLen fragment offset = extensionLen packet offset := by
      unfold extensionLen
      rw [repeated (offset + 1) (by omega) (by omega) (by omega)]
    have onward := ih (by omega) named
      (fun position from_ before other => repeated position (by omega) before other)
    have here : byteAt fragment offset =
        if offset = lastPointer then 44 else byteAt packet offset := by
      split_ifs with same
      · rw [same]
        exact named
      · exact repeated offset (Nat.le_refl _) (by omega) same
    rw [if_neg apart]
    refine Leads.next extension ?_
    rw [here, sameLen]
    exact onward

/-- A packet that the parser accepts is read up to the end of its headers. -/
theorem walk {limit : Nat} (limited : limit ≤ packet.length) {rounds : Nat} {cursor : ChainCursor}
    {ip : ParsedIpPacket} (atKind : cursor.nextHeader = kind) (atOffset : cursor.offset = offset)
    (walked : walkChain packet limit true rounds cursor = .ok ip) :
    ∃ later reached, walkChain packet limit true later reached = .ok ip ∧
      reached.nextHeader = last ∧ reached.offset = stop ∧ reached.fragment = cursor.fragment := by
  induction leads generalizing rounds cursor with
  | stop kind pointer offset => exact ⟨rounds, cursor, walked, atKind, atOffset, rfl⟩
  | next extension rest ih =>
    rename_i kind pointer offset last lastPointer stop
    cases rounds with
    | zero => cases walked
    | succ rounds =>
      rw [walkChain] at walked
      cases round : chainRound packet limit true cursor with
      | error error =>
        rw [round] at walked
        cases walked
      | ok result =>
        have kinds : cursor.nextHeader = 0 ∨ cursor.nextHeader = 43 ∨
            cursor.nextHeader = 60 ∨ cursor.nextHeader = 51 := by
          rw [atKind]
          rcases extension with same | same | same
          · exact Or.inl same
          · exact Or.inr (Or.inl same)
          · exact Or.inr (Or.inr (Or.inl same))
        have notAuthentication : cursor.nextHeader ≠ 51 := by
          rw [atKind]
          rcases extension with same | same | same <;> rw [same] <;> decide
        have passes := passes_of_chainRound limited kinds round
        rw [passes.chainRound_eq] at walked
        have pastOffset : (cursor.past packet
            (chainLen packet cursor.nextHeader cursor.offset)).offset =
            offset + extensionLen packet offset := by
          rw [ChainCursor.past, chainLen_extension notAuthentication, atOffset]
        have pastKind : (cursor.past packet
            (chainLen packet cursor.nextHeader cursor.offset)).nextHeader =
            byteAt packet offset := by
          rw [ChainCursor.past, atOffset]
        have onward := ih pastKind pastOffset walked
        exact onward

end

end Leads

/-- Behind the Fragment header of a first fragment the parser keeps what it has
read and stops at the upper layer. -/
theorem walkChain_behind_fragment {limit rounds : Nat} {cursor : ChainCursor} {ip : ParsedIpPacket}
    {info : FragmentInfo} (found : cursor.fragment = some info)
    (walked : walkChain packet limit true rounds cursor = .ok ip) :
    ip.source = ipv6Address packet 8 ∧ ip.destination = ipv6Address packet 24 ∧
      ip.fragment = some info ∧ isExtension ip.nextHeader = false ∧
      (isExtension cursor.nextHeader = false → ip.nextHeader = cursor.nextHeader) := by
  induction rounds generalizing cursor with
  | zero => cases walked
  | succ rounds ih =>
    rw [walkChain] at walked
    cases round : chainRound packet limit true cursor with
    | error error =>
      rw [round] at walked
      cases walked
    | ok result =>
      rw [round] at walked
      unfold chainRound at round
      split_ifs at round with misplaced extension authentication fragment
      · obtain ⟨_, _, round⟩ := bind_ok round
        cases round
      · obtain ⟨len, _, round⟩ := bind_ok round
        cases round
        obtain ⟨source, destination, kept, notExtension, _⟩ :=
          @ih (cursor.past packet len) found walked
        refine ⟨source, destination, kept, notExtension, ?_⟩
        intro upper
        rcases extension with same | same | same <;> rw [same] at upper <;> cases upper
      · obtain ⟨len, _, round⟩ := bind_ok round
        cases round
        obtain ⟨source, destination, kept, notExtension, _⟩ :=
          @ih (cursor.past packet len) found walked
        refine ⟨source, destination, kept, notExtension, ?_⟩
        intro upper
        rw [authentication] at upper
        cases upper
      · obtain ⟨_, checked, _⟩ := bind_ok round
        obtain ⟨_, _, checked⟩ := bind_ok checked
        rw [found, Option.isSome_some, if_pos (Or.inl rfl)] at checked
        cases checked
      · cases round
        cases walked
        refine ⟨rfl, rfl, found, ?_, fun _ => rfl⟩
        unfold isExtension
        simp only [parsedIpv6]
        simp [not_or] at extension
        simp [extension, fragment, authentication]

section Ipv6

variable {packet fragment : Bytes} {boundary pointer identification : Nat} {nextHeader : UInt8}
  {cut : Nat × Nat} {ip : ParsedIpPacket}

section

variable
  (isFragment : IsIpv6Fragment packet boundary pointer nextHeader identification cut fragment)
  (leads : Leads packet (byteAt packet 6) 6 40 nextHeader pointer boundary)

include isFragment leads

/-- How the parser reads a fragment of an IPv6 packet. -/
theorem IsIpv6Fragment.parsed (accepted : parseIpPacket fragment true = .ok ip) :
    ip.source = ipv6Address packet 8 ∧ ip.destination = ipv6Address packet 24 ∧ ip.fragment = some
        { identification
          offsetBytes := cut.1
          moreFragments := cut.2 < 40 + u16At packet 4 - boundary } ∧
      (cut.1 ≠ 0 ∨ isExtension nextHeader = false → ip.nextHeader = nextHeader) ∧
      (cut.1 = 0 → isExtension ip.nextHeader = false) := by
  have sameSource : ipv6Address fragment 8 = ipv6Address packet 8 := by
    unfold ipv6Address
    rw [slice_of_slice isFragment.addresses (show 8 + 16 ≤ 40 by decide)]
  have sameDestination : ipv6Address fragment 24 = ipv6Address packet 24 := by
    unfold ipv6Address
    rw [slice_behind_slice isFragment.addresses (show 8 ≤ 24 by decide)]
  have leading : byteAt fragment 6 = if 6 = pointer then 44 else byteAt packet 6 := by
    split_ifs with same
    · rw [same]
      exact isFragment.pointed
    · exact isFragment.leading (fun equal => same equal.symm)
  have led := leads.repoint (by decide) isFragment.pointed isFragment.repeated
  rw [← leading] at led
  unfold parseIpPacket at accepted
  rw [if_neg (show ¬(byteAt fragment 0).toNat / 16 = 4 by rw [isFragment.version]; decide),
    if_pos isFragment.version] at accepted
  split_ifs at accepted
  unfold parseIpv6 at accepted
  dsimp only at accepted
  split_ifs at accepted with short truncated
  obtain ⟨rounds, cursor, walked, atFragment, atBoundary, _⟩ :=
    led.walk (Nat.le_of_not_lt truncated) (show (chainStart fragment).nextHeader = _ from rfl)
      (show (chainStart fragment).offset = 40 from rfl) accepted
  cases rounds with
  | zero => cases walked
  | succ rounds =>
    rw [walkChain] at walked
    cases round : chainRound fragment (40 + u16At fragment 4) true cursor with
    | error error =>
      rw [round] at walked
      cases walked
    | ok result =>
      rw [round] at walked
      unfold chainRound at round
      rw [atFragment, if_neg (fun misplaced => absurd misplaced.1 (by decide)),
        if_neg (by decide), if_neg (by decide), if_pos rfl] at round
      obtain ⟨_, _, round⟩ := bind_ok round
      rw [atBoundary, isFragment.info] at round
      by_cases first : cut.1 = 0
      · rw [if_neg (not_not.mpr first)] at round
        cases round
        obtain ⟨source, destination, found, upper, stays⟩ :=
          walkChain_behind_fragment rfl walked
        refine ⟨source.trans sameSource, destination.trans sameDestination, found, ?_,
          fun _ => upper⟩
        rintro (later | notExtension)
        · exact absurd first later
        · have named := isFragment.named
          change isExtension (byteAt fragment boundary) = false →
            ip.nextHeader = byteAt fragment boundary at stays
          rw [named] at stays
          exact stays notExtension
      · rw [if_pos first] at round
        cases round
        cases walked
        exact ⟨sameSource, sameDestination, rfl, fun _ => isFragment.named,
          fun start => absurd start first⟩

/-- The key of a fragment carries the next header that the parser stopped at. -/
theorem IsIpv6Fragment.classified (notWhole : cut.1 ≠ 0 ∨ cut.2 < 40 + u16At packet 4 - boundary)
    (accepted : classifyPacketWithClass fragment generation = .ok answer) :
    ∃ upper, answer = (fragmentKey (ipv6Address packet 8) (ipv6Address packet 24)
        identification upper generation, .data) ∧
      (cut.1 ≠ 0 ∨ isExtension nextHeader = false → upper = nextHeader) ∧
      (cut.1 = 0 → isExtension upper = false) := by
  obtain ⟨ip, parsed⟩ := parsed_of_classified accepted
  obtain ⟨source, destination, found, stays, stops⟩ := isFragment.parsed leads parsed
  have notAtomic : FragmentInfo.isAtomic
      { identification
        offsetBytes := cut.1
        moreFragments := cut.2 < 40 + u16At packet 4 - boundary } = false := by
    refine isAtomic_eq_false ?_
    intro first
    exact decide_eq_true (notWhole.resolve_left (fun later => later first))
  have key := classify_fragment generation parsed found notAtomic
  rw [accepted] at key
  refine ⟨ip.nextHeader, ?_, stays, stops⟩
  rw [Except.ok.inj key, source, destination]

end

end Ipv6

/-! ### One shard -/

/-- Two keys go to the same shard from any two states of one router, whatever
was routed before, on whatever input shards. -/
def SameShard (left right : FlowKey) : Prop :=
  ∀ (shardCount maxDirectoryEntries : Nat) (hasher : FlowKey → Nat) (start : ShardRouter),
    ShardRouter.new shardCount maxDirectoryEntries hasher = .ok start →
    ∀ (earlier later : List RouterCall) (leftInput rightInput : ShardId)
      (grants : Bool × Bool × Bool × Bool),
      leftInput < shardCount → rightInput < shardCount →
      ∃ leftRoute rightRoute,
        ((earlier.foldl ShardRouter.call start).route leftInput left grants.1 grants.2.1).1 =
          .ok leftRoute ∧
        ((later.foldl ShardRouter.call start).route rightInput right grants.2.2.1
          grants.2.2.2).1 = .ok rightRoute ∧
        leftRoute.target = rightRoute.target

theorem SameShard.refl (key : FlowKey) : SameShard key key := by
  intro shardCount maxDirectoryEntries hasher start built earlier later leftInput rightInput
    grants leftValid rightValid
  obtain ⟨consistent, sameCount, sameHasher⟩ := ShardRouter.new_consistent built
  obtain ⟨left, leftCount, leftHasher⟩ := consistent.calls earlier
  obtain ⟨right, rightCount, rightHasher⟩ := consistent.calls later
  rw [← sameCount] at leftValid rightValid
  obtain ⟨leftRoute, leftRouted, leftTarget⟩ :=
    left.route_target (leftValid.trans_eq leftCount.symm)
  obtain ⟨rightRoute, rightRouted, rightTarget⟩ :=
    right.route_target (rightValid.trans_eq rightCount.symm)
  refine ⟨leftRoute, rightRoute, leftRouted, rightRouted, ?_⟩
  rw [leftTarget, rightTarget, ShardRouter.owner, ShardRouter.owner, leftCount, rightCount,
    leftHasher, rightHasher]

/-- The first fragment and another one, with their cuts. -/
theorem Cuts.exists_first_later {relation : Nat × Nat → Bytes → Prop} {stop : Nat}
    {cuts : List (Nat × Nat)} {fragments : List Bytes} (tiled : Cuts 0 stop cuts)
    (several : 2 ≤ cuts.length) (each : List.Forall₂ relation cuts fragments) :
    ∃ first ∈ fragments, ∃ later ∈ fragments, ∃ firstCut ∈ cuts, ∃ laterCut ∈ cuts,
      relation firstCut first ∧ relation laterCut later ∧ firstCut.1 = 0 ∧ laterCut.1 ≠ 0 := by
  obtain ⟨firstCut, rest, same, begins, behind⟩ := tiled.later
  subst same
  cases each with
  | cons firstHolds others =>
    cases others with
    | nil =>
      rw [List.length_singleton] at several
      omega
    | cons laterHolds _ =>
      refine ⟨_, List.mem_cons_self, _, List.mem_cons_of_mem _ List.mem_cons_self, _,
        List.mem_cons_self, _, List.mem_cons_of_mem _ List.mem_cons_self, firstHolds,
        laterHolds, begins, ?_⟩
      have positive := behind _ List.mem_cons_self
      omega

section

variable {fragments : List Bytes} {first : UInt8} {version : IpVersion}
  (split : SplitInto packet version first fragments)

include split

/-- The key that the fragments of a split share, where they share one. -/
theorem SplitInto.exists_key (plain : version = .v4 ∨ isExtension first = false)
    (generation : NetworkGeneration) :
    ∃ key, ∀ fragment ∈ fragments, ∀ answer,
      classifyPacketWithClass fragment generation = .ok answer → answer = (key, .data) := by
  cases split with
  | ipv4 tiled several each =>
    refine ⟨fragmentKey (ipv4Address packet 12) (ipv4Address packet 16) (u16At packet 4)
      (byteAt packet 9) generation, ?_⟩
    intro fragment member answer accepted
    obtain ⟨cut, inCuts, isFragment⟩ := exists_of_mem_right each member
    exact isFragment.classified (tiled.inside (by decide) inCuts).1
      (tiled.not_whole several inCuts) accepted
  | ipv6 leads tiled several each =>
    rename_i boundary pointer identification cuts
    refine ⟨fragmentKey (ipv6Address packet 8) (ipv6Address packet 24) identification first
      generation, ?_⟩
    intro fragment member answer accepted
    obtain ⟨cut, inCuts, isFragment⟩ := exists_of_mem_right each member
    obtain ⟨upper, key, stays, _⟩ :=
      isFragment.classified leads (tiled.not_whole several inCuts) accepted
    rw [key, stays (Or.inr (plain.resolve_left (by decide)))]

/-- Where the fragmentable part begins with an extension header, the first
fragment's key differs from every later one's. -/
theorem SplitInto.plain_of_shared (generation : NetworkGeneration)
    (accepted : ∀ fragment ∈ fragments, ∃ answer,
      classifyPacketWithClass fragment generation = .ok answer)
    (shared : ∀ left ∈ fragments, ∀ right ∈ fragments,
      classifyPacketWithClass left generation = classifyPacketWithClass right generation) :
    version = .v4 ∨ isExtension first = false := by
  cases split with
  | ipv4 tiled several each => exact Or.inl rfl
  | ipv6 leads tiled several each =>
    right
    obtain ⟨front, frontMem, later, laterMem, frontCut, frontIn, laterCut, laterIn, frontIs,
      laterIs, frontStart, laterStart⟩ := tiled.exists_first_later several each
    obtain ⟨frontAnswer, frontAccepted⟩ := accepted front frontMem
    obtain ⟨laterAnswer, laterAccepted⟩ := accepted later laterMem
    obtain ⟨frontUpper, frontKey, _, frontStops⟩ :=
      frontIs.classified leads (tiled.not_whole several frontIn) frontAccepted
    obtain ⟨laterUpper, laterKey, laterStays, _⟩ :=
      laterIs.classified leads (tiled.not_whole several laterIn) laterAccepted
    have same := shared front frontMem later laterMem
    rw [frontAccepted, laterAccepted, frontKey, laterKey, laterStays (Or.inl laterStart)] at same
    have upper : frontUpper = first := by
      simp only [Except.ok.injEq, Prod.mk.injEq, fragmentKey, FlowKey.mk.injEq,
        IpEndpoint.mk.injEq, TransportProtocol.fragment.injEq] at same
      exact same.1.1.2.2
    rw [← upper]
    exact frontStops frontStart

end

/-- Fragments that are accepted get one key and go to one shard when the packet
is an IPv4 packet or what is split begins with no extension header; when all
are accepted, only then. -/
theorem fragments_share_routing_key {packet : Bytes} {version : IpVersion} {first : UInt8}
    {fragments : List Bytes} (split : SplitInto packet version first fragments)
    (generation : NetworkGeneration) :
    (version = .v4 ∨ isExtension first = false →
      ∀ left ∈ fragments, ∀ right ∈ fragments, ∀ leftAnswer rightAnswer,
        classifyPacketWithClass left generation = .ok leftAnswer →
        classifyPacketWithClass right generation = .ok rightAnswer →
        leftAnswer = rightAnswer ∧ SameShard leftAnswer.1 rightAnswer.1) ∧
      ((∀ fragment ∈ fragments, ∃ answer,
          classifyPacketWithClass fragment generation = .ok answer) →
        ((∀ left ∈ fragments, ∀ right ∈ fragments, classifyPacketWithClass left generation =
              classifyPacketWithClass right generation) ↔
          version = .v4 ∨ isExtension first = false)) := by
  refine ⟨?_, ?_⟩
  · intro plain left leftMem right rightMem leftAnswer rightAnswer leftAccepted rightAccepted
    obtain ⟨key, shared⟩ := split.exists_key plain generation
    rw [shared left leftMem leftAnswer leftAccepted,
      shared right rightMem rightAnswer rightAccepted]
    exact ⟨rfl, SameShard.refl key⟩
  · intro accepted
    refine ⟨split.plain_of_shared generation accepted, ?_⟩
    intro plain left leftMem right rightMem
    obtain ⟨key, shared⟩ := split.exists_key plain generation
    obtain ⟨leftAnswer, leftAccepted⟩ := accepted left leftMem
    obtain ⟨rightAnswer, rightAccepted⟩ := accepted right rightMem
    rw [leftAccepted, rightAccepted, shared left leftMem leftAnswer leftAccepted,
      shared right rightMem rightAnswer rightAccepted]

/-! ### Two splits -/

def plainIpv6 (nextHeader : UInt8) (payload : Bytes) : Bytes :=
  [0x60, 0, 0, 0, 0, UInt8.ofNat payload.length, nextHeader, 64] ++
    List.replicate 16 1 ++ List.replicate 16 2 ++ payload

def optionsAndUdp : Bytes :=
  [17, 0, 1, 4, 0, 0, 0, 0, 16, 0, 32, 0, 0, 16, 0, 0]

def udpData : Bytes :=
  [1, 2, 3, 4, 5, 6, 7, 8]

def frontFragment (nextHeader : UInt8) : Bytes :=
  plainIpv6 44 ([nextHeader, 0, 0, 1, 0, 0, 0, 7] ++ optionsAndUdp)

def backFragment (nextHeader : UInt8) : Bytes :=
  plainIpv6 44 ([nextHeader, 0, 0, 16, 0, 0, 0, 7] ++ udpData)

/-- A fragment behind the fixed header alone, by its fields. -/
theorem isIpv6Fragment_of_fields {fragment : Bytes} {nextHeader : UInt8} {identification : Nat}
    (fields : (byteAt fragment 0).toNat / 16 = 6 ∧ u16At fragment 4 = 8 + (cut.2 - cut.1) ∧
      slice fragment 8 40 = slice packet 8 40 ∧ byteAt fragment 6 = 44 ∧
      byteAt fragment 40 = nextHeader ∧
      fragmentInfoAt fragment 40 = ⟨identification, cut.1, cut.2 < u16At packet 4⟩ ∧
      slice fragment 48 (40 + u16At fragment 4) = slice packet (40 + cut.1) (40 + cut.2)) :
    IsIpv6Fragment packet 40 6 nextHeader identification cut fragment := by
  obtain ⟨version, length, addresses, pointed, named, info, payload⟩ := fields
  refine ⟨version, ?_, addresses, pointed, fun wrong => absurd rfl wrong, ?_, named, ?_, payload⟩
  · rw [length, Nat.sub_self, Nat.zero_add]
  · intro position reached before
    exact absurd before (Nat.not_lt.mpr reached)
  · rw [info, Nat.add_sub_cancel_left]

theorem splitInto_two_fragments {nextHeader : UInt8}
    (sample : nextHeader = 17 ∨ nextHeader = 60) :
    SplitInto (plainIpv6 nextHeader (optionsAndUdp ++ udpData)) .v6 nextHeader
      [frontFragment nextHeader, backFragment nextHeader] := by
  have total : u16At (plainIpv6 nextHeader (optionsAndUdp ++ udpData)) 4 = 24 := by
    rcases sample with rfl | rfl <;> decide +kernel
  have front : IsIpv6Fragment (plainIpv6 nextHeader (optionsAndUdp ++ udpData)) 40 6 nextHeader
      7 (0, 16) (frontFragment nextHeader) := by
    refine isIpv6Fragment_of_fields ?_
    rcases sample with rfl | rfl <;> decide +kernel
  have back : IsIpv6Fragment (plainIpv6 nextHeader (optionsAndUdp ++ udpData)) 40 6 nextHeader
      7 (16, 24) (backFragment nextHeader) := by
    refine isIpv6Fragment_of_fields ?_
    rcases sample with rfl | rfl <;> decide +kernel
  refine SplitInto.ipv6 (Leads.stop _ 6 40) ?_ (by decide)
    (List.Forall₂.cons front (List.Forall₂.cons back List.Forall₂.nil))
  rw [total]
  exact Cuts.next (by decide) (by decide) (Cuts.last (by decide))

/-- The same bytes sent as plain UDP. -/
theorem fragments_share_routing_key_udp :
    (classifyPacketWithClass (frontFragment 17) 0).toOption.isSome = true ∧
      (classifyPacketWithClass (backFragment 17) 0).toOption.isSome = true ∧
      ∀ leftAnswer rightAnswer, classifyPacketWithClass (frontFragment 17) 0 = .ok leftAnswer →
        classifyPacketWithClass (backFragment 17) 0 = .ok rightAnswer →
        leftAnswer = rightAnswer ∧ SameShard leftAnswer.1 rightAnswer.1 :=
  ⟨by decide +kernel, by decide +kernel,
    (fragments_share_routing_key (splitInto_two_fragments (Or.inl rfl)) 0).1 (Or.inr rfl)
      (frontFragment 17) (by simp) (backFragment 17) (by simp)⟩

/-- With destination options in the fragmentable part the first fragment is
keyed by UDP, the second by the options header. -/
theorem first_fragment_keyed_apart : SplitInto (plainIpv6 60 (optionsAndUdp ++ udpData)) .v6 60
        [frontFragment 60, backFragment 60] ∧
      (classifyPacketWithClass (frontFragment 60) 0).toOption.map
          (fun answer => answer.1.endpoint.protocol) = some (.fragment 17) ∧
      (classifyPacketWithClass (backFragment 60) 0).toOption.map
          (fun answer => answer.1.endpoint.protocol) = some (.fragment 60) :=
  ⟨splitInto_two_fragments (Or.inr rfl), by decide +kernel, by decide +kernel⟩

end Sail.Netstack
