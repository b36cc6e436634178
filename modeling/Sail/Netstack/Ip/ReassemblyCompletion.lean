/-
Reassembly completes.

An empty reassembler that is given the fragments of one datagram, in any order
and before the deadline of the first arrival, keeps each of them until the last
one, and then hands out the datagram.
-/

import Sail.Netstack.Ip.ReassemblyRuns
import Sail.Netstack.TimerWheelRuns

namespace Sail.Netstack

open Bytes DeadlineQueue

variable {state : FragmentReassembler}

/-! ### The clock of the reassembler -/

/-- The expiry wheel stands for a list of deadlines and is not ahead of the clock. -/
structure Clocked (state : FragmentReassembler) (list : DeadlineList FragmentKey) : Prop where
  refines : Refines state.expiry list
  tickMs : list.tickMs = state.expiryTickMs
  reached : list.currentTick * list.tickMs ≤ state.nowMs

section

variable {pending : List (Timer FragmentKey)} {bound : Nat}
  (notDue : ∀ timer ∈ pending, bound < timer.deadline)

include notDue

theorem due_eq_nil : due bound pending = [] := by
  apply List.eq_nil_iff_forall_not_mem.mpr
  intro timer member
  have inDue := mem_due.mp member
  have later := notDue timer inDue.1
  omega

theorem remaining_eq_self : remaining bound pending = pending := by
  apply List.filter_eq_self.mpr
  intro timer member
  exact decide_eq_true (notDue timer member)

end

def FragmentReassembler.clockedAt (state : FragmentReassembler) (nowMs : Nat)
    (expiry : TimerWheel FragmentKey) (stats : FragmentStats) : FragmentReassembler :=
  { state with nowMs, expiry, stats }

/-- Advancing to a time at which nothing is due changes the clock only. -/
theorem Clocked.advanceCurrent {list : DeadlineList FragmentKey} (clocked : Clocked state list)
    {nowMs : Nat} (forward : state.nowMs ≤ nowMs) (inRange : nowMs < u64Max)
    (notDue : ∀ timer ∈ list.pending, nowMs / list.tickMs < timer.deadline) :
    ∃ expiry stats, state.advanceCurrent nowMs = (.ok 0, state.clockedAt nowMs expiry stats) ∧
      Clocked (state.clockedAt nowMs expiry stats)
        { list with currentTick := nowMs / list.tickMs } := by
  obtain ⟨answer, refines⟩ := clocked.refines.advanceTo inRange
  have reached := clocked.reached
  have listCall : list.call (.advanceTo nowMs) =
      (.advanced (.ok []), { list with currentTick := nowMs / list.tickMs }) := by
    simp only [DeadlineList.call]
    rw [if_neg (by omega), due_eq_nil notDue, remaining_eq_self notDue]
    rfl
  rw [listCall] at answer refines
  have wheelAnswer : (state.expiry.advanceTo nowMs).1 = .ok [] := TimerAnswer.advanced.inj answer
  have wheelRefines : Refines (state.expiry.advanceTo nowMs).2
      { list with currentTick := nowMs / list.tickMs } := refines
  refine ⟨(state.expiry.advanceTo nowMs).2,
    { state.stats with expiredDatagrams := satAdd state.stats.expiredDatagrams 0 }, ?_,
    wheelRefines, clocked.tickMs, Nat.div_mul_le_self _ _⟩
  unfold FragmentReassembler.advanceCurrent
  rw [if_neg (by omega)]
  dsimp only
  rw [wheelAnswer]
  rfl

/-- A deadline within the timeout can be scheduled, and is not due before it. -/
theorem Clocked.schedule {list : DeadlineList FragmentKey} (clocked : Clocked state list)
    (empty : list.pending = []) (unwrapped : list.serial < 2 ^ 64)
    (current : list.currentTick = state.nowMs / list.tickMs) {timeout : Nat}
    (inRange : timeout ≤ state.expiryTickMs * timerWheelSafeDeltaTicks) (key : FragmentKey) :
    ∃ timer expiry scheduled,
      state.expiry.schedule (satAdd state.nowMs timeout) key = (.ok timer, expiry) ∧
      Refines expiry scheduled ∧ scheduled.tickMs = list.tickMs ∧
      scheduled.currentTick = list.currentTick ∧
      ∀ pending ∈ scheduled.pending, ∀ earlier, earlier < satAdd state.nowMs timeout →
        earlier / list.tickMs < pending.deadline := by
  obtain ⟨answer, refines⟩ := clocked.refines.schedule unwrapped (satAdd state.nowMs timeout) key
  have tickPositive : 0 < list.tickMs := by
    rw [clocked.tickMs]
    exact state.expiryTickPositive
  rw [← clocked.tickMs] at inRange
  have deadlineLe : satAdd state.nowMs timeout ≤ state.nowMs + timeout := min_le_left _ _
  have near : ¬list.currentTick + 2 ^ 32 ≤ list.deadlineTick (satAdd state.nowMs timeout) := by
    have ceil : divCeil (satAdd state.nowMs timeout) list.tickMs <
        list.currentTick + 4294967296 := by
      unfold divCeil
      rw [Nat.div_lt_iff_lt_mul tickPositive, current, Nat.add_mul]
      have lower := Nat.div_add_mod state.nowMs list.tickMs
      have remainder := Nat.mod_lt state.nowMs tickPositive
      rw [Nat.mul_comm] at lower
      unfold timerWheelSafeDeltaTicks at inRange
      omega
    unfold DeadlineList.deadlineTick
    omega
  have listCall : list.call (.schedule (satAdd state.nowMs timeout) key) =
      (.scheduled (.ok list.serial),
        { list with
          serial := list.serial + 1
          pending := list.pending ++
            [⟨list.deadlineTick (satAdd state.nowMs timeout), list.serial, key⟩] }) := by
    simp only [DeadlineList.call]
    rw [if_neg near]
  rw [listCall] at answer refines
  refine ⟨list.serial, (state.expiry.schedule (satAdd state.nowMs timeout) key).2, _, ?_,
    refines, rfl, rfl, ?_⟩
  · exact Prod.ext (TimerAnswer.scheduled.inj answer) rfl
  · intro pending member earlier before
    rw [empty, List.nil_append, List.mem_singleton] at member
    rw [member]
    apply Nat.lt_of_lt_of_le _ (le_max_left _ _)
    unfold divCeil
    rw [Nat.div_lt_iff_lt_mul tickPositive]
    have quotient := Nat.div_add_mod (satAdd state.nowMs timeout + list.tickMs - 1) list.tickMs
    have remainder := Nat.mod_lt (satAdd state.nowMs timeout + list.tickMs - 1) tickPositive
    rw [Nat.mul_comm] at quotient
    omega

/-! ### The fragments of one datagram -/

structure Deliverable (key : FragmentKey) (protocol : UInt8) (total : Nat) (first : Fragment)
    (tiles : List Fragment) : Prop where
  keyed : ∀ tile ∈ tiles, tile.key = key
  protocols : ∀ tile ∈ tiles, tile.protocol = protocol
  wellRead : ∀ tile ∈ tiles, tile.WellRead
  contiguous : Contiguous 0 tiles total
  head : tiles.head? = some first
  final : ∀ tile ∈ tiles, (tile.info.moreFragments = false ↔ tile.stop = total)
  fits : reassembledSizeExceeds key.version first.header.length total = false

structure Held (protocol : UInt8) (total : Nat) (first : Fragment) (received : List Fragment)
    (assembly : Assembly) : Prop where
  pieces : assembly.pieces.entries.Perm (received.map Fragment.piece)
  protocol_eq : assembly.protocol = protocol
  header : ∀ header, assembly.header = some header →
    header = first.header ∧ assembly.ipv6PreviousNextHeader = first.previousNextHeader
  headed : first ∈ received → assembly.header = some first.header
  total_eq : ∀ stop, assembly.totalPayloadLen = some stop → stop = total
  ended : (∃ fragment ∈ received, fragment.info.moreFragments = false) →
    assembly.totalPayloadLen = some total

theorem Held.empty (protocol : UInt8) (total : Nat) (first : Fragment) (createdAtMs : Nat)
    (timer : TimerId) (evictionKey : EvictionKey) :
    Held protocol total first [] (.empty protocol createdAtMs timer evictionKey) where
  pieces := List.Perm.refl _
  protocol_eq := rfl
  header := fun _ headed => nomatch headed
  headed := fun member => absurd member List.not_mem_nil
  total_eq := fun _ ended => nomatch ended
  ended := fun ⟨_, member, _⟩ => absurd member List.not_mem_nil

section Delivery

variable {key : FragmentKey} {protocol : UInt8} {total : Nat} {first : Fragment}
  {tiles received rest : List Fragment} {fragment : Fragment} {assembly : Assembly}

namespace Deliverable

section

variable (deliverable : Deliverable key protocol total first tiles)

include deliverable

theorem first_mem :
    first ∈ tiles :=
  List.mem_of_head? deliverable.head

theorem first_offset : first.info.offsetBytes = 0 := by
  have head := deliverable.head
  have contiguous := deliverable.contiguous
  cases tiles with
  | nil => cases head
  | cons tile others =>
    cases head
    exact contiguous.1

theorem eq_first (member : fragment ∈ tiles) (atZero : fragment.info.offsetBytes = 0) :
    fragment = first := by
  have head := deliverable.contiguous.head_of_offset
    (fun tile inTiles => (deliverable.wellRead tile inTiles).nonempty) member atZero
  rw [deliverable.head] at head
  exact (Option.some.inj head).symm

theorem stop_le (member : fragment ∈ tiles) : fragment.stop ≤ total := by
  rw [(deliverable.wellRead fragment member).stop_eq]
  exact deliverable.contiguous.end_le fragment member

/-- Two different fragments of the datagram lie apart. -/
theorem apart (split : (received ++ fragment :: rest).Perm tiles) :
    ∀ other ∈ received, other.stop ≤ fragment.info.offsetBytes ∨
      fragment.stop ≤ other.info.offsetBytes := by
  have pairwise : tiles.Pairwise (fun left right =>
      left.info.offsetBytes + left.payload.length ≤ right.info.offsetBytes ∨
        right.info.offsetBytes + right.payload.length ≤ left.info.offsetBytes) :=
    deliverable.contiguous.disjoint.imp Or.inl
  have symmetric := (split.pairwise_iff (fun {left right} either => either.symm)).mpr pairwise
  intro other member
  have otherRead := deliverable.wellRead other (split.subset (by simp [member]))
  have read := deliverable.wellRead fragment (split.subset (by simp))
  rw [otherRead.stop_eq, read.stop_eq]
  exact (List.pairwise_append.mp symmetric).2.2 other member fragment List.mem_cons_self

end

end Deliverable

namespace Held

theorem wellRead (deliverable : Deliverable key protocol total first tiles)
    (split : (received ++ fragment :: rest).Perm tiles) :
    ∀ other ∈ received, other.WellRead := fun other member =>
  deliverable.wellRead other (split.subset (by simp [member]))

section

variable (held : Held protocol total first received assembly)
  (deliverable : Deliverable key protocol total first tiles)
  (split : (received ++ fragment :: rest).Perm tiles)

include held deliverable split

theorem apart : ∀ piece ∈ assembly.pieces.entries,
      ¬(fragment.info.offsetBytes < pieceEnd piece.1 piece.2 ∧ piece.1 < fragment.stop) := by
  intro piece member touching
  obtain ⟨other, otherReceived, start, stop⟩ :=
    piece_of_mem held.pieces (wellRead deliverable split) member
  have separate := deliverable.apart split other otherReceived
  omega

theorem fill : Held protocol total first (received ++ [fragment])
      (FragmentReassembler.filled assembly fragment) := by
  have member : fragment ∈ tiles := split.subset (by simp)
  have read := deliverable.wellRead fragment member
  constructor
  · exact FragmentReassembler.perm_filled_pieces fragment held.pieces
      (fresh_of_apart held.pieces (wellRead deliverable split) read
        (held.apart deliverable split))
  · rw [FragmentReassembler.filled_protocol]
    exact held.protocol_eq
  · intro header headed
    rw [FragmentReassembler.filled_header] at headed
    rw [FragmentReassembler.filled_previous]
    split_ifs at headed ⊢ with atZero
    · rw [← deliverable.eq_first member atZero]
      exact ⟨(Option.some.inj headed).symm, rfl⟩
    · exact held.header header headed
  · intro firstReceived
    rw [FragmentReassembler.filled_header]
    split_ifs with atZero
    · rw [deliverable.eq_first member atZero]
    · rcases List.mem_append.mp firstReceived with old | added
      · exact held.headed old
      · have same := List.mem_singleton.mp added
        exact absurd (same ▸ deliverable.first_offset) atZero
  · intro stop ended
    rw [FragmentReassembler.filled_total] at ended
    split_ifs at ended with more
    · exact held.total_eq stop ended
    · rw [← Option.some.inj ended]
      exact (deliverable.final fragment member).mp (Bool.eq_false_iff.mpr more)
  · rintro ⟨last, lastReceived, final⟩
    rw [FragmentReassembler.filled_total]
    split_ifs with more
    · rcases List.mem_append.mp lastReceived with old | added
      · exact held.ended ⟨last, old, final⟩
      · rw [List.mem_singleton.mp added, more] at final
        cases final
    · rw [(deliverable.final fragment member).mp (Bool.eq_false_iff.mpr more)]

end

end Held

/-- While a fragment is missing the assembly is not complete. -/
theorem Held.not_complete (held : Held protocol total first received assembly)
    (deliverable : Deliverable key protocol total first tiles)
    (split : (received ++ rest).Perm tiles) (missing : rest ≠ []) :
    isComplete assembly = false := by
  rw [Bool.eq_false_iff]
  intro complete
  unfold isComplete at complete
  split at complete
  · rename_i stop header ended headed
    have covered : coveredFrom 0 assembly.pieces.entries = some stop :=
      of_decide_eq_true complete
    have stopEq := held.total_eq stop ended
    obtain ⟨arranged, perm, pieces⟩ := exists_tiles held.pieces
    have arrangedRead : ∀ tile ∈ arranged, tile.WellRead := fun tile member =>
      deliverable.wellRead tile (split.subset (by simp [perm.mem_iff.mp member]))
    rw [← pieces] at covered
    have arrangedLength :=
      (contiguous_of_coveredFrom arrangedRead covered).length_joinedPayload
    have wholeLength := deliverable.contiguous.length_joinedPayload
    have sameReceived : (joinedPayload arranged).length = (joinedPayload received).length :=
      (perm.flatMap_right Fragment.payload).length_eq
    have sameWhole : (joinedPayload (received ++ rest)).length = (joinedPayload tiles).length :=
      (split.flatMap_right Fragment.payload).length_eq
    rw [joinedPayload, List.flatMap_append, List.length_append] at sameWhole
    have restPositive : 0 < (rest.flatMap Fragment.payload).length := by
      cases rest with
      | nil => exact absurd rfl missing
      | cons tile others =>
        have nonempty := (deliverable.wellRead tile (split.subset (by simp))).nonempty
        rw [List.flatMap_cons, List.length_append]
        omega
    unfold joinedPayload at *
    omega
  · cases complete

theorem Deliverable.ascending (deliverable : Deliverable key protocol total first tiles) :
    (tiles.map Fragment.piece).Pairwise (fun left right => left.1 < right.1) := by
  rw [List.pairwise_map]
  apply List.Pairwise.imp_of_mem _ deliverable.contiguous.disjoint
  intro left right leftMember _ separate
  have nonempty := (deliverable.wellRead left leftMember).nonempty
  change left.info.offsetBytes < right.info.offsetBytes
  omega

theorem Held.entries_eq (held : Held protocol total first received assembly)
    (deliverable : Deliverable key protocol total first tiles)
    (all : received.Perm tiles) :
    assembly.pieces.entries = tiles.map Fragment.piece := by
  have perm := held.pieces.trans (all.map Fragment.piece)
  apply perm.eq_of_pairwise _ assembly.pieces.ascending deliverable.ascending
  intro left right _ _ forward backward
  omega

theorem coveredFrom_of_contiguous {start : Nat} (contiguous : Contiguous start tiles total)
    (inRange : total ≤ maxReassembledBytes) :
    coveredFrom start (tiles.map Fragment.piece) = some total := by
  induction tiles generalizing start with
  | nil => exact congrArg some contiguous
  | cons tile others ih =>
    have tileEnd := contiguous.end_le tile List.mem_cons_self
    change (if tile.info.offsetBytes ≠ start then none else
      coveredFrom (pieceEnd start tile.payload) (others.map Fragment.piece)) = some total
    rw [if_neg (not_not.mpr contiguous.1), pieceEnd_eq (by have start := contiguous.1; omega)]
    exact ih contiguous.2

/-- The last fragment in order sets the end of the datagram. -/
theorem Deliverable.exists_final (deliverable : Deliverable key protocol total first tiles) :
    ∃ tile ∈ tiles, tile.info.moreFragments = false := by
  have ends : ∀ (start : Nat) (others : List Fragment), others ≠ [] →
      Contiguous start others total →
      ∃ tile ∈ others, tile.info.offsetBytes + tile.payload.length = total := by
    intro start others
    induction others generalizing start with
    | nil =>
      intro nonempty
      exact absurd rfl nonempty
    | cons tile more ih =>
      intro _ contiguous
      cases more with
      | nil => exact ⟨tile, List.mem_cons_self, contiguous.1 ▸ contiguous.2⟩
      | cons next later =>
        obtain ⟨last, member, stop⟩ := ih _ (List.cons_ne_nil _ _) contiguous.2
        exact ⟨last, List.mem_cons_of_mem _ member, stop⟩
  have nonempty : tiles ≠ [] := List.ne_nil_of_mem deliverable.first_mem
  obtain ⟨last, member, stop⟩ := ends 0 tiles nonempty deliverable.contiguous
  refine ⟨last, member, (deliverable.final last member).mpr ?_⟩
  rw [(deliverable.wellRead last member).stop_eq, stop]

theorem Deliverable.total_le (deliverable : Deliverable key protocol total first tiles) :
    total ≤ maxReassembledBytes := by
  obtain ⟨last, member, final⟩ := deliverable.exists_final
  rw [← (deliverable.final last member).mp final]
  exact (deliverable.wellRead last member).stop_le

theorem acquireFragmentCredit_granted {answers : LedgerAnswers} (granted : answers 0 = none)
    (rounds : Nat) (state : FragmentReassembler) :
    FragmentReassembler.acquireFragmentCredit answers key rounds 0 state =
      (.ok (state.assemblies.lookup key).isNone, state) := by
  unfold FragmentReassembler.acquireFragmentCredit
  rw [granted]

section

variable (held : Held protocol total first received assembly)
  (deliverable : Deliverable key protocol total first tiles)

include held deliverable

/-- When every fragment has arrived the assembly is complete, and rebuilding it
gives the datagram. -/
theorem Held.complete (all : received.Perm tiles) : isComplete assembly = true ∧
      rebuild assembly key.version = .ok (rebuiltHeader first total ++ joinedPayload tiles) := by
  have entries := held.entries_eq deliverable all
  have headed := held.headed (all.mem_iff.mpr deliverable.first_mem)
  obtain ⟨last, lastMember, final⟩ := deliverable.exists_final
  have ended := held.ended ⟨last, all.mem_iff.mpr lastMember, final⟩
  have payload : assembly.pieces.entries.flatMap Prod.snd = joinedPayload tiles := by
    rw [entries, flatMap_pieces]
  have payloadLength : (joinedPayload tiles).length = total := by
    have length := deliverable.contiguous.length_joinedPayload
    omega
  have firstKey := deliverable.keyed first deliverable.first_mem
  have readable := (deliverable.wellRead first deliverable.first_mem).header
  have named := (held.header first.header headed).2.symm
  constructor
  · unfold isComplete
    rw [ended, headed]
    exact decide_eq_true (by
      rw [entries]
      exact coveredFrom_of_contiguous deliverable.contiguous deliverable.total_le)
  · obtain ⟨datagram, built⟩ := rebuild_ok headed named readable (by
      rw [payload, payloadLength, firstKey]
      exact deliverable.fits)
    have whole := rebuild_eq headed named
      ((deliverable.protocols first deliverable.first_mem).trans held.protocol_eq.symm)
      readable built
    rw [payload, payloadLength] at whole
    rw [← firstKey, built, whole]

/-! ### Taking one fragment of the datagram -/

theorem Held.not_ended_elsewhere (member : fragment ∈ tiles) :
    ¬(fragment.info.moreFragments = false ∧
      (assembly.withHeader fragment).totalPayloadLen.any
        (fun stop => stop ≠ fragment.stop) = true) := by
  rintro ⟨final, different⟩
  have sameTotal :
      (assembly.withHeader fragment).totalPayloadLen = assembly.totalPayloadLen := by
    unfold Assembly.withHeader
    split_ifs <;> rfl
  rw [sameTotal] at different
  obtain ⟨stop, ended, unequal⟩ := (Option.any_eq_true _ _).mp different
  apply of_decide_eq_true unequal
  rw [held.total_eq stop ended, (deliverable.final fragment member).mp final]

/-- Storing the last missing fragment hands out the datagram. -/
theorem Held.storeFragment_last (split : (received ++ [fragment]).Perm tiles)
    (present : state.assemblies.lookup fragment.key = some assembly) :
    (state.storeFragment fragment).1 =
      .ok (some (rebuiltHeader first total ++ joinedPayload tiles)) := by
  have member : fragment ∈ tiles := split.subset (by simp)
  obtain ⟨complete, built⟩ := (held.fill deliverable split).complete deliverable split
  have notIncomplete : ¬isComplete ((assembly.withHeader fragment).withPiece fragment) = false := by
    intro incomplete
    rw [FragmentReassembler.filled, incomplete] at complete
    cases complete
  unfold FragmentReassembler.storeFragment
  rw [present]
  dsimp only
  rw [if_neg (held.not_ended_elsewhere deliverable member), if_neg notIncomplete]
  generalize storedEq : FragmentReassembler.mk _ _ _ _ _ _
    (state.assemblies.insert fragment.key _) _ _ _ = stored
  have storedLookup : stored.assemblies.lookup fragment.key =
      some (FragmentReassembler.filled assembly fragment) := by
    rw [← storedEq]
    exact AList.lookup_insert state.assemblies
  have removed := FragmentReassembler.removeAssembly_fst stored fragment.key
  rw [storedLookup] at removed
  cases outcome : stored.removeAssembly fragment.key with
  | mk found after =>
    rw [outcome] at removed
    subst removed
    dsimp only
    rw [deliverable.keyed fragment member, built]

section

variable (split : (received ++ fragment :: rest).Perm tiles)
  (present : state.assemblies.lookup fragment.key = some assembly)

include split present

theorem Held.overlaps_eq_false :
    state.overlaps fragment.key fragment.info.offsetBytes fragment.stop = false := by
  unfold FragmentReassembler.overlaps
  rw [present]
  apply List.any_eq_false.mpr
  intro piece member touching
  apply held.apart deliverable split piece member
  simpa using touching

theorem Held.conflicts_eq_false : state.conflicts fragment = false := by
  have member : fragment ∈ tiles := split.subset (by simp)
  have stopLe := deliverable.stop_le member
  unfold FragmentReassembler.conflicts
  rw [present]
  dsimp only
  rw [if_neg, if_neg]
  · split
    · rename_i stop headerLen stopEq headerEq
      have stopTotal : stop = total := by
        split_ifs at stopEq with more
        · exact held.total_eq stop stopEq
        · rw [← Option.some.inj stopEq]
          exact (deliverable.final fragment member).mp (Bool.eq_false_iff.mpr more)
      have headerFirst : headerLen = first.header.length := by
        split_ifs at headerEq with atZero
        · rw [← Option.some.inj headerEq, deliverable.eq_first member atZero]
        · obtain ⟨header, headed, length⟩ := Option.map_eq_some_iff.mp headerEq
          rw [← length, (held.header header headed).1]
      rw [stopTotal, headerFirst, deliverable.keyed fragment member]
      exact deliverable.fits
    · rfl
  · rintro ⟨final, beyond⟩
    obtain ⟨piece, pieceMember, behind⟩ := List.any_eq_true.mp beyond
    obtain ⟨other, otherReceived, _, otherStop⟩ :=
      piece_of_mem held.pieces (Held.wellRead deliverable split) pieceMember
    have otherLe := deliverable.stop_le (split.subset (List.mem_append_left _ otherReceived))
    have fragmentStop := (deliverable.final fragment member).mp final
    have behind' := of_decide_eq_true behind
    omega
  · rintro (different | beyond)
    · exact different (held.protocol_eq.trans (deliverable.protocols fragment member).symm)
    · obtain ⟨stop, ended, before⟩ := (Option.any_eq_true _ _).mp beyond
      have stopTotal := held.total_eq stop ended
      have before' := of_decide_eq_true before
      omega

/-- A fragment whose assembly is in place is stored in it. -/
theorem Held.ingestFragment_eq {answers : LedgerAnswers} (granted : answers 0 = none) (nowMs : Nat) :
    state.ingestFragment fragment nowMs answers = state.storeFragment fragment := by
  unfold FragmentReassembler.ingestFragment
  rw [held.overlaps_eq_false deliverable split present,
    held.conflicts_eq_false deliverable split present, if_neg Bool.false_ne_true,
    if_neg Bool.false_ne_true, acquireFragmentCredit_granted granted]
  dsimp only
  unfold FragmentReassembler.openAssembly
  rw [present]
  rfl

/-- Storing a fragment while others are missing keeps it. -/
theorem Held.storeFragment_missing (missing : rest ≠ []) : ∃ stats, state.storeFragment fragment =
      (.ok none,
        { state with
          assemblies := state.assemblies.insert fragment.key
            (FragmentReassembler.filled assembly fragment)
          stats }) := by
  have member : fragment ∈ tiles := split.subset (by simp)
  have resplit : ((received ++ [fragment]) ++ rest).Perm tiles := by
    rw [List.append_assoc]
    exact split
  have incomplete : isComplete ((assembly.withHeader fragment).withPiece fragment) = false :=
    (held.fill deliverable split).not_complete deliverable resplit missing
  unfold FragmentReassembler.storeFragment
  rw [present]
  dsimp only
  rw [if_neg (held.not_ended_elsewhere deliverable member), if_pos incomplete]
  exact ⟨_, rfl⟩

end

end

end Delivery

/-! ### Taking all of them -/

structure Arrival where
  packet : Bytes
  nowMs : Nat
  answers : LedgerAnswers

abbrev FragmentReassembler.take (state : FragmentReassembler) (arrival : Arrival) :=
  state.ingest arrival.packet arrival.nowMs arrival.answers

def FragmentReassembler.ingestAll (state : FragmentReassembler) :
    List Arrival → List (Except FragmentError (Option Bytes))
  | [] => []
  | arrival :: later =>
    let step := state.ingest arrival.packet arrival.nowMs arrival.answers
    step.1 :: step.2.ingestAll later

/-- The clock never goes back, every arrival is before the deadline, and the
ledger has enough for each. -/
def InTime (deadline : Nat) : Nat → List Arrival → Prop
  | _, [] => True
  | clock, arrival :: later =>
    clock ≤ arrival.nowMs ∧ arrival.nowMs < deadline ∧ arrival.answers 0 = none ∧
      InTime deadline arrival.nowMs later

/-- A reassembler without assemblies, whose expiry wheel can take any deadline
within its timeout. -/
structure Vacant (state : FragmentReassembler) : Prop where
  assemblies : state.assemblies = ∅
  clocked : ∃ list, Clocked state list ∧ list.pending = [] ∧ list.serial < 2 ^ 64
  timeout : state.timeoutMs ≤ state.expiryTickMs * timerWheelSafeDeltaTicks

theorem vacant_new (timeoutMs : Nat) : Vacant (FragmentReassembler.new timeoutMs) := by
  refine ⟨rfl, ⟨DeadlineList.new _ 0, ⟨?_, rfl, ?_⟩, rfl, Nat.two_pow_pos 64⟩, ?_⟩
  · exact Refines.initial _ 0 _ (by decide)
  · change 0 / _ * _ ≤ 0
    rw [Nat.zero_div, Nat.zero_mul]
  · change timeoutMs ≤ max (divCeil timeoutMs timerWheelSafeDeltaTicks) fragmentTimerMinTickMs *
        timerWheelSafeDeltaTicks
    apply Nat.le_trans _ (Nat.mul_le_mul_right _ (Nat.le_max_left _ _))
    unfold divCeil timerWheelSafeDeltaTicks
    omega

theorem Vacant.effectiveTimeout_le (vacant : Vacant state) (divisor : Nat) :
    state.effectiveTimeout divisor ≤ state.expiryTickMs * timerWheelSafeDeltaTicks := by
  have timeout := vacant.timeout
  have positive := state.expiryTickPositive
  have shrunk := Nat.div_le_self state.timeoutMs (max divisor 1)
  have room : 1 ≤ state.expiryTickMs * timerWheelSafeDeltaTicks :=
    Nat.mul_pos positive (by decide)
  unfold FragmentReassembler.effectiveTimeout
  omega

section Run

variable {key : FragmentKey} {protocol : UInt8} {total : Nat} {first : Fragment}
  {tiles received rest : List Fragment} {fragment : Fragment} {state : FragmentReassembler}

/-- Some of the fragments have arrived, and their assembly does not expire
before the deadline. -/
structure Collecting (key : FragmentKey) (protocol : UInt8) (total : Nat) (first : Fragment)
    (deadline : Nat) (received : List Fragment) (state : FragmentReassembler) : Prop where
  assembly : ∃ assembly, state.assemblies.lookup key = some assembly ∧
    Held protocol total first received assembly
  clock : ∃ list, Clocked state list ∧ ∀ pending ∈ list.pending, ∀ earlier, earlier < deadline →
      earlier / list.tickMs < pending.deadline

/-- The next fragment is stored, and completes the datagram if it is the last. -/
theorem Collecting.ingest {deadline : Nat}
    (collecting : Collecting key protocol total first deadline received state)
    (deliverable : Deliverable key protocol total first tiles)
    (split : (received ++ fragment :: rest).Perm tiles) {arrival : Arrival}
    (read : inspect arrival.packet = .ok (some fragment))
    (forward : state.nowMs ≤ arrival.nowMs) (before : arrival.nowMs < deadline)
    (inRange : arrival.nowMs < u64Max) (granted : arrival.answers 0 = none) :
    (rest = [] → (state.take arrival).1 =
        .ok (some (rebuiltHeader first total ++ joinedPayload tiles))) ∧
      (rest ≠ [] → (state.take arrival).1 = .ok none ∧
        (state.take arrival).2.nowMs = arrival.nowMs ∧
        Collecting key protocol total first deadline (received ++ [fragment])
          (state.take arrival).2) := by
  obtain ⟨assembly, present, held⟩ := collecting.assembly
  obtain ⟨list, clocked, notDue⟩ := collecting.clock
  obtain ⟨expiry, stats, advanced, clockedNow⟩ := clocked.advanceCurrent forward inRange
    (fun pending member => notDue pending member _ before)
  have member : fragment ∈ tiles := split.subset (by simp)
  have sameKey := deliverable.keyed fragment member
  have presentNow : (state.clockedAt arrival.nowMs expiry stats).assemblies.lookup
      fragment.key = some assembly := sameKey ▸ present
  have ingested : state.take arrival =
      (state.clockedAt arrival.nowMs expiry stats).storeFragment fragment := by
    unfold FragmentReassembler.take FragmentReassembler.ingest
    rw [advanced, read]
    exact held.ingestFragment_eq deliverable split presentNow granted arrival.nowMs
  rw [ingested]
  constructor
  · intro last
    subst last
    exact held.storeFragment_last deliverable split presentNow
  · intro missing
    obtain ⟨storedStats, stored⟩ :=
      held.storeFragment_missing deliverable split presentNow missing
    rw [stored]
    refine ⟨rfl, rfl, ⟨⟨_, ?_, held.fill deliverable split⟩, ?_⟩⟩
    · rw [← sameKey]
      exact AList.lookup_insert state.assemblies
    · exact ⟨_, ⟨clockedNow.refines, clockedNow.tickMs, clockedNow.reached⟩, notDue⟩

/-- Once the first fragment is in, the others follow in any order. -/
theorem Collecting.ingestAll {deadline : Nat} (inRange : deadline ≤ u64Max)
    (deliverable : Deliverable key protocol total first tiles) {arrivals : List Arrival}
    (collecting : Collecting key protocol total first deadline received state)
    (split : (received ++ rest).Perm tiles) (missing : rest ≠ [])
    (reads : List.Forall₂
      (fun (arrival : Arrival) fragment => inspect arrival.packet = .ok (some fragment))
      arrivals rest)
    (inTime : InTime deadline state.nowMs arrivals) :
    state.ingestAll arrivals = List.replicate (rest.length - 1) (.ok none) ++
        [.ok (some (rebuiltHeader first total ++ joinedPayload tiles))] := by
  induction reads generalizing received state with
  | nil => exact absurd rfl missing
  | @cons arrival fragment arrivals rest read reads ih =>
    obtain ⟨forward, before, granted, later⟩ := inTime
    obtain ⟨last, more⟩ := collecting.ingest deliverable split read forward before
      (by omega) granted
    unfold FragmentReassembler.ingestAll
    dsimp only
    cases reads with
    | nil =>
      rw [last rfl]
      rfl
    | @cons nextArrival next arrivals rest nextRead reads =>
      obtain ⟨kept, clock, collectingMore⟩ := more (List.cons_ne_nil _ _)
      rw [← clock] at later
      rw [kept, ih collectingMore (by rw [List.append_assoc]; exact split)
        (List.cons_ne_nil _ _) later]
      rfl

theorem nextEvictionKey_frame (createdAtMs rounds : Nat) :
    ∃ serial, (FragmentReassembler.nextEvictionKey createdAtMs rounds state).2 =
      { state with nextEvictionSerial := serial } := by
  induction rounds generalizing state with
  | zero => exact ⟨_, rfl⟩
  | succ rounds ih =>
    unfold FragmentReassembler.nextEvictionKey
    dsimp only
    split_ifs with used
    · exact ih
    · exact ⟨_, rfl⟩

/-- A new assembly is opened with the timer that was scheduled for it. -/
theorem openAssembly_scheduled {nowMs : Nat} {timer : TimerId} {expiry : TimerWheel FragmentKey}
    (absent : state.assemblies.lookup fragment.key = none)
    (scheduled : state.expiry.schedule
      (satAdd nowMs (state.effectiveTimeout state.timeoutDivisor)) fragment.key =
        (.ok timer, expiry)) :
    ∃ opened evictionKey, state.openAssembly fragment nowMs true = (.ok (), opened) ∧
      opened.expiry = expiry ∧ opened.nowMs = state.nowMs ∧
      opened.expiryTickMs = state.expiryTickMs ∧
      opened.assemblies.lookup fragment.key =
        some (.empty fragment.protocol nowMs timer evictionKey) := by
  unfold FragmentReassembler.openAssembly
  rw [absent, if_neg (by simp), if_neg (by simp)]
  dsimp only
  rw [scheduled]
  generalize keyedEq : FragmentReassembler.nextEvictionKey nowMs state.evictionIndex.size _ = keyed
  have keyedFrame : ∃ serial, keyed.2 =
      { state with expiry, nextEvictionSerial := serial } := by
    rw [← keyedEq]
    exact nextEvictionKey_frame nowMs state.evictionIndex.size
  obtain ⟨serial, frame⟩ := keyedFrame
  refine ⟨_, keyed.1, rfl, ?_, ?_, ?_, AList.lookup_insert _⟩
  · rw [frame]
  · rw [frame]
  · rw [frame]

/-- The first fragment to arrive opens the assembly. -/
theorem Vacant.ingest (vacant : Vacant state)
    (deliverable : Deliverable key protocol total first tiles)
    (split : (fragment :: rest).Perm tiles) (missing : rest ≠ []) {arrival : Arrival}
    (read : inspect arrival.packet = .ok (some fragment))
    (forward : state.nowMs ≤ arrival.nowMs) (inRange : arrival.nowMs < u64Max)
    (granted : arrival.answers 0 = none) :
    (state.take arrival).1 = .ok none ∧
      (state.take arrival).2.nowMs = arrival.nowMs ∧
      Collecting key protocol total first
        (satAdd arrival.nowMs (state.effectiveTimeout state.timeoutDivisor)) [fragment]
        (state.take arrival).2 := by
  obtain ⟨list, clocked, empty, unwrapped⟩ := vacant.clocked
  obtain ⟨expiry, stats, advanced, clockedNow⟩ := clocked.advanceCurrent forward inRange
    (fun pending member => absurd (empty ▸ member) List.not_mem_nil)
  obtain ⟨timer, laterExpiry, laterList, scheduled, refines, sameTick, sameCurrent, notDue⟩ :=
    clockedNow.schedule empty unwrapped rfl
      (vacant.effectiveTimeout_le state.timeoutDivisor) fragment.key
  have member : fragment ∈ tiles := split.mem_iff.mp List.mem_cons_self
  have sameKey := deliverable.keyed fragment member
  have absent : (state.clockedAt arrival.nowMs expiry stats).assemblies.lookup
      fragment.key = none := by
    change state.assemblies.lookup fragment.key = none
    rw [vacant.assemblies]
    rfl
  obtain ⟨opened, evictionKey, opens, openedExpiry, openedNow, openedTick, present⟩ :=
    openAssembly_scheduled absent scheduled
  have opensNow : (state.clockedAt arrival.nowMs expiry stats).openAssembly fragment
      arrival.nowMs true = (.ok (), opened) := opens
  have ingested : state.take arrival =
      opened.storeFragment fragment := by
    unfold FragmentReassembler.take FragmentReassembler.ingest
    rw [advanced, read]
    dsimp only
    unfold FragmentReassembler.ingestFragment FragmentReassembler.overlaps
      FragmentReassembler.conflicts
    rw [absent]
    rw [if_neg Bool.false_ne_true, if_neg Bool.false_ne_true,
      acquireFragmentCredit_granted granted, absent]
    dsimp only [Option.isNone_none]
    rw [opensNow]
  have held := Held.empty protocol total first arrival.nowMs timer evictionKey
  have sameProtocol := deliverable.protocols fragment member
  rw [sameProtocol] at present
  obtain ⟨storedStats, stored⟩ :=
    held.storeFragment_missing deliverable split present missing
  rw [ingested, stored]
  refine ⟨rfl, openedNow, ⟨⟨_, ?_, held.fill deliverable split⟩, ?_⟩⟩
  · rw [← sameKey]
    exact AList.lookup_insert opened.assemblies
  · refine ⟨laterList, ⟨?_, ?_, ?_⟩, ?_⟩
    · rw [openedExpiry]
      exact refines
    · rw [openedTick, sameTick]
      exact clockedNow.tickMs
    · rw [openedNow, sameTick, sameCurrent]
      exact clockedNow.reached
    · intro pending pendingMember earlier before
      rw [sameTick]
      exact notDue pending pendingMember earlier before

/-- An empty reassembler given the fragments of a datagram in any order keeps
all but the last arrival and then hands out the datagram. -/
theorem Vacant.ingestAll (vacant : Vacant state)
    (deliverable : Deliverable key protocol total first tiles) {order : List Fragment}
    (perm : order.Perm tiles) (several : 2 ≤ tiles.length) {arrival : Arrival}
    {arrivals : List Arrival}
    (reads : List.Forall₂
      (fun (arrival : Arrival) fragment => inspect arrival.packet = .ok (some fragment))
      (arrival :: arrivals) order)
    (inTime : InTime (satAdd arrival.nowMs (state.effectiveTimeout state.timeoutDivisor))
      state.nowMs (arrival :: arrivals)) :
    state.ingestAll (arrival :: arrivals) = List.replicate (tiles.length - 1) (.ok none) ++
        [.ok (some (rebuiltHeader first total ++ joinedPayload tiles))] := by
  have length := perm.length_eq
  obtain ⟨forward, before, granted, later⟩ := inTime
  have deadlineLe : satAdd arrival.nowMs (state.effectiveTimeout state.timeoutDivisor) ≤ u64Max :=
    Nat.min_le_right _ _
  cases reads with
  | @cons _ fragment _ rest read reads =>
    have missing : rest ≠ [] := by
      intro none
      rw [none] at length
      simp only [List.length_cons, List.length_nil] at length
      omega
    obtain ⟨kept, clock, collecting⟩ := vacant.ingest deliverable perm missing read forward
      (by omega) granted
    have laterNow : InTime (satAdd arrival.nowMs (state.effectiveTimeout state.timeoutDivisor))
          (state.take arrival).2.nowMs arrivals := by
      rw [clock]
      exact later
    unfold FragmentReassembler.ingestAll
    dsimp only
    rw [kept, collecting.ingestAll deadlineLe deliverable perm missing reads laterNow]
    have count : tiles.length - 1 = rest.length - 1 + 1 := by
      simp only [List.length_cons] at length
      omega
    rw [count, List.replicate_succ]
    rfl

end Run

end Sail.Netstack
