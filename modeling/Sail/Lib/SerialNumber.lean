/-
Serial number arithmetic.

Serial numbers are bit vectors compared by the sign of their difference, which agrees
with the order of two positions on a line less than half the number space apart.
-/

import Mathlib.Data.BitVec

namespace Sail.SerialNumber

variable {width : Nat}

def before (left right : BitVec width) : Bool :=
  (left - right).msb

def after (left right : BitVec width) : Bool :=
  before right left

def distanceFrom (later earlier : BitVec width) : Nat :=
  (later - earlier).toNat

def advance (start : BitVec width) (amount : Nat) : BitVec width :=
  start + BitVec.ofNat width amount

/-! ### Advancing -/

@[simp] theorem advance_zero (start : BitVec width) : advance start 0 = start := by
  simp [advance]

theorem advance_advance (start : BitVec width) (first second : Nat) :
    advance (advance start first) second = advance start (first + second) := by
  simp [advance, BitVec.ofNat_add, BitVec.add_assoc]

theorem advance_wrap (start : BitVec width) (amount : Nat) :
    advance start (amount + 2 ^ width) = advance start amount := by
  have zero : BitVec.ofNat width (2 ^ width) = BitVec.ofNat width 0 := by
    apply BitVec.eq_of_toNat_eq
    rw [BitVec.toNat_ofNat, BitVec.toNat_ofNat, Nat.mod_self, Nat.zero_mod]
  rw [← advance_advance]
  unfold advance
  rw [zero, BitVec.add_zero]

@[simp] theorem distanceFrom_self (start : BitVec width) : distanceFrom start start = 0 := by
  simp [distanceFrom]

theorem distanceFrom_lt (later earlier : BitVec width) : distanceFrom later earlier < 2 ^ width :=
  BitVec.isLt _

theorem advance_distanceFrom (later earlier : BitVec width) :
    advance earlier (distanceFrom later earlier) = later := by
  rw [advance, distanceFrom, BitVec.ofNat_toNat, BitVec.setWidth_eq, BitVec.add_comm,
    BitVec.sub_add_cancel]

theorem distanceFrom_advance (start : BitVec width) {amount : Nat}
    (bounded : amount < 2 ^ width) :
    distanceFrom (advance start amount) start = amount := by
  rw [distanceFrom, advance, BitVec.add_comm, BitVec.add_sub_cancel, BitVec.toNat_ofNat,
    Nat.mod_eq_of_lt bounded]

theorem distanceFrom_advance_advance (start : BitVec width) {near far : Nat}
    (ordered : near ≤ far) (bounded : far < near + 2 ^ width) :
    distanceFrom (advance start far) (advance start near) = far - near := by
  have split : advance start far = advance (advance start near) (far - near) := by
    rw [advance_advance, Nat.add_sub_cancel' ordered]
  rw [split, distanceFrom_advance _ (by omega)]

/-- Moving the near end of a stretch shortens it. -/
theorem distanceFrom_advance_left {later earlier : BitVec width} {amount : Nat}
    (within : amount ≤ distanceFrom later earlier) :
    distanceFrom later (advance earlier amount) = distanceFrom later earlier - amount := by
  have bounded := distanceFrom_lt later earlier
  have moved := distanceFrom_advance_advance earlier within (by omega)
  rwa [advance_distanceFrom] at moved

theorem distanceFrom_eq_zero {later earlier : BitVec width} :
    distanceFrom later earlier = 0 ↔ later = earlier := by
  constructor
  · intro zero
    rw [← advance_distanceFrom later earlier, zero, advance_zero]
  · intro same
    rw [same, distanceFrom_self]

/-! ### Comparing -/

theorem before_iff (left right : BitVec width) :
    before left right = true ↔ 2 ^ (width - 1) ≤ distanceFrom left right := by
  rw [before, BitVec.msb_eq_decide, decide_eq_true_iff]
  rfl

section Comparison

variable (positive : 0 < width)
include positive

theorem two_half : 2 ^ (width - 1) + 2 ^ (width - 1) = 2 ^ width := by
  rw [← Nat.two_mul, ← Nat.pow_succ', Nat.succ_eq_add_one, Nat.sub_add_cancel positive]

/-- Positions closer than half the number space compare as natural numbers. -/
theorem before_advance_iff (start : BitVec width) {left right : Nat}
    (close : right < left + 2 ^ (width - 1)) (close' : left < right + 2 ^ (width - 1)) :
    before (advance start left) (advance start right) = true ↔ left < right := by
  have halves := two_half positive
  rw [before_iff]
  by_cases ordered : right ≤ left
  · rw [distanceFrom_advance_advance start ordered (by omega)]
    omega
  · rw [← advance_wrap start left, distanceFrom_advance_advance start (by omega) (by omega)]
    omega

theorem not_before_advance (start : BitVec width) {amount : Nat}
    (close : amount < 2 ^ (width - 1)) :
    before (advance start amount) start = false := by
  have compared : before (advance start amount) (advance start 0) = true ↔ amount < 0 :=
    before_advance_iff positive start (by omega) (by omega)
  rw [advance_zero] at compared
  rw [← Bool.not_eq_true, compared]
  omega

/-- An acknowledgment past the oldest outstanding position and not past the next
one lies between the two. -/
theorem between_of_after {oldest next position : BitVec width}
    (short : distanceFrom next oldest < 2 ^ (width - 1))
    (past : after position oldest = true) (notPast : after position next = false) :
    0 < distanceFrom position oldest ∧ distanceFrom position oldest ≤ distanceFrom next oldest ∧
      distanceFrom next position = distanceFrom next oldest - distanceFrom position oldest := by
  have halves := two_half positive
  have positionBound := distanceFrom_lt position oldest
  generalize step : distanceFrom position oldest = steps at *
  generalize gap : distanceFrom next oldest = length at *
  have positionEq : position = advance oldest steps := by
    rw [← step, advance_distanceFrom]
  have nextEq : next = advance oldest length := by
    rw [← gap, advance_distanceFrom]
  subst positionEq nextEq
  rw [after, before_iff] at past
  rw [after, ← Bool.not_eq_true, before_iff, Nat.not_le] at notPast
  have nonzero : 0 < steps := by
    rcases Nat.eq_zero_or_pos steps with zero | nonzero
    · rw [zero, advance_zero, distanceFrom_self] at past
      omega
    · exact nonzero
  have within : steps ≤ length := by
    by_contra beyond
    have far : distanceFrom (advance oldest 0) (advance oldest steps) = 0 + 2 ^ width - steps := by
      rw [← advance_wrap oldest 0, distanceFrom_advance_advance oldest (by omega) (by omega)]
    rw [advance_zero] at far
    rw [far] at past
    rw [← advance_wrap oldest length,
      distanceFrom_advance_advance oldest (by omega) (by omega)] at notPast
    omega
  exact ⟨nonzero, within, distanceFrom_advance_advance oldest within (by omega)⟩

end Comparison

end Sail.SerialNumber
