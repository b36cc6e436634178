/-
The replay window of a session.

A ring of bits remembers which of the last counters were accepted. A counter is
kept one higher than it came, so that zero stands for no counter at all.
-/

import Sail.Lib.BitRing
import Sail.Lib.MachineWord

namespace Sail.Protocol.Wireguard

def rejectAfterMessages : Nat := u64Max - 8192

def bitsPerWord : Nat := 64

def bitsTotal : Nat := 8192

def ringWords : Nat := bitsTotal / bitsPerWord

def windowSize : Nat := bitsTotal - bitsPerWord

instance : NeZero ringWords := ⟨by decide⟩

structure ReplayWindow where
  next : Nat
  bitmap : BitRing bitsPerWord ringWords
deriving DecidableEq

namespace ReplayWindow

def new : ReplayWindow :=
  { next := 0, bitmap := Vector.replicate ringWords 0 }

def slide (counter : Nat) (window : ReplayWindow) : ReplayWindow :=
  if window.next < counter then
    { next := counter
      bitmap := window.bitmap.clearAfter (window.next / bitsPerWord)
        (min (counter / bitsPerWord - window.next / bitsPerWord) ringWords) }
  else window

def record (counter : Nat) (window : ReplayWindow) : Bool × ReplayWindow :=
  let word := window.bitmap.word (counter / bitsPerWord)
  (word &&& BitVec.twoPow bitsPerWord (counter % bitsPerWord) = 0,
    { window with bitmap := window.bitmap.mark counter })

def checkAndUpdate (window : ReplayWindow) (counter : Nat) : Bool × ReplayWindow :=
  if rejectAfterMessages < window.next ∨ rejectAfterMessages ≤ counter then (false, window)
  else if wrappingAdd windowSize (wrappingAdd counter 1) < window.next then (false, window)
  else (window.slide (wrappingAdd counter 1)).record (wrappingAdd counter 1)

/-! ### What a window knows -/

structure Knows (window : ReplayWindow) (accepted : List Nat) : Prop where
  bounded : window.next ≤ rejectAfterMessages
  below : ∀ counter ∈ accepted, counter < window.next
  highest : window.next = 0 ∨ window.next - 1 ∈ accepted
  bits : window.bitmap.Tracks window.next
    (fun position => ∃ counter ∈ accepted, position = counter + 1)

theorem new_knows : new.Knows [] := by
  refine ⟨Nat.zero_le _, nofun, .inl rfl, ?_⟩
  intro position inSpan near
  rw [show new.bitmap.bit position = true ↔ False from BitRing.Tracks.empty 0 position inSpan near]
  simp

variable {window : ReplayWindow} {accepted : List Nat}

theorem record_fresh_iff (counter : Nat) :
    (window.record counter).1 = true ↔ window.bitmap.bit counter = false := by
  have inside : counter % bitsPerWord < bitsPerWord := Nat.mod_lt _ (by decide)
  have single : BitVec.twoPow bitsPerWord (counter % bitsPerWord) ≠ 0 := by
    intro zero
    have selected := congrArg (BitVec.getLsbD · (counter % bitsPerWord)) zero
    simp [inside] at selected
  unfold record BitRing.bit
  rw [decide_eq_true_iff, BitVec.and_twoPow]
  cases (window.bitmap.word (counter / bitsPerWord)).getLsbD (counter % bitsPerWord) with
  | true => exact ⟨fun zero => absurd zero single, nofun⟩
  | false => exact ⟨fun _ => rfl, fun _ => rfl⟩

variable {counter : Nat}

/-- A counter that was there is recorded for nothing. -/
theorem record_of_stale (stale : (window.record counter).1 = false) :
    (window.record counter).2 = window := by
  have present : window.bitmap.bit counter = true := by
    cases known : window.bitmap.bit counter with
    | true => rfl
    | false =>
      rw [(record_fresh_iff counter).mpr known] at stale
      cases stale
  unfold record
  rw [BitRing.mark_of_bit present]

theorem Knows.slide (knows : window.Knows accepted) (counter : Nat) :
    (window.slide counter).bitmap.Tracks (max window.next counter)
      (fun position => ∃ counter ∈ accepted, position = counter + 1) := by
  unfold ReplayWindow.slide
  split_ifs with above
  · rw [Nat.max_eq_right (Nat.le_of_lt above)]
    refine knows.bits.slide ?_ (Nat.le_of_lt above)
    rintro position ⟨other, member, rfl⟩
    exact knows.below other member
  · rw [Nat.max_eq_left (Nat.le_of_not_lt above)]
    exact knows.bits

theorem slide_next (counter : Nat) : (window.slide counter).next = max window.next counter := by
  unfold ReplayWindow.slide
  split_ifs with above
  · exact (Nat.max_eq_right (Nat.le_of_lt above)).symm
  · exact (Nat.max_eq_left (Nat.le_of_not_lt above)).symm

/-- A counter not too far below the highest lies in the span of the ring. -/
theorem near_of_window {next : Nat} (near : next ≤ windowSize + counter) :
    max next counter / bitsPerWord < counter / bitsPerWord + ringWords := by
  have bits : bitsPerWord = 64 := rfl
  have words : ringWords = 128 := rfl
  have size : windowSize = 8128 := rfl
  rw [bits, words]
  omega

/-- A counter is fresh exactly if it was not accepted. -/
theorem Knows.record_fresh (knows : window.Knows accepted)
    (near : window.next ≤ windowSize + (counter + 1)) :
    ((window.slide (counter + 1)).record (counter + 1)).1 = true ↔ counter ∉ accepted := by
  have tracked := knows.slide (counter + 1) (counter + 1)
    (Nat.div_le_div_right (Nat.le_max_right _ _)) (near_of_window near)
  rw [record_fresh_iff, Bool.eq_false_iff, Ne, tracked, not_iff_not]
  constructor
  · rintro ⟨other, member, same⟩
    rwa [Nat.succ.inj same]
  · intro member
    exact ⟨counter, member, rfl⟩

theorem Knows.record (knows : window.Knows accepted) (small : counter < rejectAfterMessages)
    (near : window.next ≤ windowSize + (counter + 1)) :
    ((window.slide (counter + 1)).record (counter + 1)).2.Knows (counter :: accepted) := by
  have next : ((window.slide (counter + 1)).record (counter + 1)).2.next =
      max window.next (counter + 1) := slide_next (counter + 1)
  refine ⟨?_, ?_, ?_, ?_⟩
  · rw [next]
    exact Nat.max_le.mpr ⟨knows.bounded, small⟩
  · intro other member
    rw [next]
    rcases List.mem_cons.mp member with rfl | old
    · exact Nat.lt_of_lt_of_le (Nat.lt_succ_self _) (Nat.le_max_right _ _)
    · exact Nat.lt_of_lt_of_le (knows.below other old) (Nat.le_max_left _ _)
  · rw [next]
    refine .inr ?_
    rcases Nat.lt_or_ge window.next (counter + 1) with above | within
    · rw [Nat.max_eq_right (Nat.le_of_lt above), Nat.add_sub_cancel]
      exact List.mem_cons_self
    · rw [Nat.max_eq_left within]
      rcases knows.highest with none | highest
      · omega
      · exact List.mem_cons_of_mem _ highest
  · rw [next]
    have marked := (knows.slide (counter + 1)).mark (by decide)
      (Nat.div_le_div_right (Nat.le_max_right _ _)) (near_of_window near)
    intro position inSpan within
    rw [show ((window.slide (counter + 1)).record (counter + 1)).2.bitmap.bit position = true ↔ _
      from marked position inSpan within]
    simp

/-! ### One counter -/

def Acceptable (accepted : List Nat) (counter : Nat) : Prop :=
  counter < rejectAfterMessages ∧ counter ∉ accepted ∧
    ∀ other ∈ accepted, other ≤ counter + windowSize

theorem Knows.next_le_iff (knows : window.Knows accepted) (counter : Nat) :
    window.next ≤ windowSize + (counter + 1) ↔ ∀ other ∈ accepted, other ≤ counter + windowSize := by
  constructor
  · intro near other member
    have below := knows.below other member
    omega
  · intro near
    rcases knows.highest with none | highest
    · omega
    · have close := near _ highest
      omega

theorem checkAndUpdate_of_large (large : rejectAfterMessages ≤ counter) :
    window.checkAndUpdate counter = (false, window) :=
  if_pos (.inr large)

section

variable (knows : window.Knows accepted)

include knows

theorem Knows.checkAndUpdate_eq (small : counter < rejectAfterMessages) :
    window.checkAndUpdate counter =
      if window.next ≤ windowSize + (counter + 1) then
        (window.slide (counter + 1)).record (counter + 1)
      else (false, window) := by
  have limit : rejectAfterMessages = 18446744073709543423 := rfl
  have size : windowSize = 8128 := rfl
  have largest : usizeMax = 18446744073709551615 := rfl
  have bounded := knows.bounded
  have later : wrappingAdd counter 1 = counter + 1 := wrappingAdd_eq (by omega)
  have sum : wrappingAdd windowSize (counter + 1) = windowSize + (counter + 1) :=
    wrappingAdd_eq (by omega)
  unfold checkAndUpdate
  rw [if_neg (by omega), later, sum]
  split_ifs <;> first | rfl | omega

theorem Knows.accepts_iff (counter : Nat) :
    (window.checkAndUpdate counter).1 = true ↔ Acceptable accepted counter := by
  unfold Acceptable
  rcases Nat.lt_or_ge counter rejectAfterMessages with small | large
  · rw [knows.checkAndUpdate_eq small, ← knows.next_le_iff, and_iff_right small]
    by_cases near : window.next ≤ windowSize + (counter + 1)
    · rw [if_pos near, knows.record_fresh near, and_iff_left near]
    · rw [if_neg near]
      exact ⟨nofun, fun both => absurd both.2 near⟩
  · rw [checkAndUpdate_of_large large]
    exact ⟨nofun, fun all => absurd all.1 (Nat.not_lt.mpr large)⟩

/-- A refused counter changes nothing. -/
theorem Knows.refused (refused : (window.checkAndUpdate counter).1 = false) :
    (window.checkAndUpdate counter).2 = window := by
  rcases Nat.lt_or_ge counter rejectAfterMessages with small | large
  · rw [knows.checkAndUpdate_eq small] at refused ⊢
    by_cases near : window.next ≤ windowSize + (counter + 1)
    · rw [if_pos near] at refused ⊢
      rw [record_of_stale refused]
      have known : counter ∈ accepted := by
        by_contra absent
        rw [(knows.record_fresh near).mpr absent] at refused
        cases refused
      exact if_neg (Nat.not_lt.mpr (knows.below counter known))
    · rw [if_neg near]
  · rw [checkAndUpdate_of_large large]

theorem Knows.checkAndUpdate (counter : Nat) :
    (window.checkAndUpdate counter).2.Knows
      (if (window.checkAndUpdate counter).1 then counter :: accepted else accepted) := by
  by_cases accepts : (window.checkAndUpdate counter).1 = true
  · have acceptable := (knows.accepts_iff counter).mp accepts
    have near := (knows.next_le_iff counter).mpr acceptable.2.2
    rw [if_pos accepts, knows.checkAndUpdate_eq acceptable.1, if_pos near]
    exact knows.record acceptable.1 near
  · rw [if_neg accepts, knows.refused (Bool.eq_false_iff.mpr accepts)]
    exact knows

end

/-! ### Runs -/

def feed (state : ReplayWindow × List Nat) (counter : Nat) : ReplayWindow × List Nat :=
  ((state.1.checkAndUpdate counter).2,
    if (state.1.checkAndUpdate counter).1 then counter :: state.2 else state.2)

def run (counters : List Nat) : ReplayWindow × List Nat :=
  counters.foldl feed (new, [])

theorem run_knows (counters : List Nat) : (run counters).1.Knows (run counters).2 := by
  have keeps : ∀ (counters : List Nat) (state : ReplayWindow × List Nat), state.1.Knows state.2 →
        (counters.foldl feed state).1.Knows (counters.foldl feed state).2 := by
    intro counters
    induction counters with
    | nil => exact fun _ knows => knows
    | cons counter counters ih => exact fun state knows => ih _ (knows.checkAndUpdate counter)
  exact keeps counters _ new_knows

/-- Behind every sequence of counters, a counter is accepted exactly if it is
below the limit, was not accepted and is not too far below the highest; a refused
one changes nothing. -/
theorem replay_window_exact (counters : List Nat) (counter : Nat) :
    (((run counters).1.checkAndUpdate counter).1 = true ↔
      counter < rejectAfterMessages ∧ counter ∉ (run counters).2 ∧
        ∀ other ∈ (run counters).2, other ≤ counter + windowSize) ∧
      (((run counters).1.checkAndUpdate counter).1 = false →
        ((run counters).1.checkAndUpdate counter).2 = (run counters).1) :=
  ⟨(run_knows counters).accepts_iff counter, (run_knows counters).refused⟩

end ReplayWindow

end Sail.Protocol.Wireguard
