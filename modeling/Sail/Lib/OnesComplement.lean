/-
One's-complement sums of sixteen-bit words.

A sum is folded by adding its carries back until it fits sixteen bits. Folding
keeps the sum modulo 65535 and keeps zero apart from the other multiples of
65535, and these two facts determine the folded value.
-/

import Mathlib.Data.Nat.ModEq
import Sail.Lib.Bytes

namespace Sail.OnesComplement

/-- The sum of the big-endian words of a byte string, an odd last byte being
the high half of a word. -/
def wordSum : Bytes → Nat
  | first :: second :: rest => first.toNat * 256 + second.toNat + wordSum rest
  | [last] => last.toNat * 256
  | [] => 0

/-- Add the carries back, for at most the given number of rounds. -/
def foldCarries : Nat → Nat → Nat
  | 0, sum => sum
  | rounds + 1, sum =>
    if sum / 65536 ≠ 0 then foldCarries rounds (sum % 65536 + sum / 65536) else sum

def fold (sum : Nat) : Nat :=
  foldCarries 5 sum

/-! ### What folding keeps -/

theorem foldCarries_modEq (rounds sum : Nat) : foldCarries rounds sum ≡ sum [MOD 65535] := by
  induction rounds generalizing sum with
  | zero =>
    exact Nat.ModEq.refl _
  | succ rounds ih =>
    unfold foldCarries
    split_ifs with carries
    · apply (ih _).trans
      unfold Nat.ModEq
      omega
    · exact Nat.ModEq.refl _

theorem foldCarries_eq_zero_iff (rounds sum : Nat) : foldCarries rounds sum = 0 ↔ sum = 0 := by
  induction rounds generalizing sum with
  | zero =>
    exact Iff.rfl
  | succ rounds ih =>
    unfold foldCarries
    split_ifs with carries
    · rw [ih]
      omega
    · exact Iff.rfl

theorem foldCarries_lt_of_next {rounds sum : Nat}
    (next : foldCarries rounds (sum % 65536 + sum / 65536) < 65536) :
    foldCarries (rounds + 1) sum < 65536 := by
  unfold foldCarries
  split_ifs with carries
  · exact next
  · omega

theorem fold_lt {sum : Nat} (inRange : sum < 2 ^ 64) : fold sum < 65536 := by
  have step : ∀ bound value : Nat, value ≤ bound →
      value % 65536 + value / 65536 ≤ 65535 + bound / 65536 := by
    intro bound value below
    omega
  have first := step (2 ^ 64 - 1) sum (by omega)
  have second := step _ _ first
  have third := step _ _ second
  apply foldCarries_lt_of_next
  apply foldCarries_lt_of_next
  apply foldCarries_lt_of_next
  generalize (((sum % 65536 + sum / 65536) % 65536 + (sum % 65536 + sum / 65536) / 65536) %
      65536 + ((sum % 65536 + sum / 65536) % 65536 + (sum % 65536 + sum / 65536) / 65536) /
      65536) = last at third ⊢
  apply foldCarries_lt_of_next
  apply foldCarries_lt_of_next
  change (last % 65536 + last / 65536) % 65536 + (last % 65536 + last / 65536) / 65536 < 65536
  omega

/-- Equal modulo 65535, and zero together: such sums fold to the same word. -/
def SameSum (left right : Nat) : Prop :=
  left ≡ right [MOD 65535] ∧ (left = 0 ↔ right = 0)

namespace SameSum

variable {left right : Nat}

theorem refl (sum : Nat) : SameSum sum sum :=
  ⟨.refl _, Iff.rfl⟩

theorem trans {next : Nat} (same : SameSum left right) (onward : SameSum right next) :
    SameSum left next :=
  ⟨same.1.trans onward.1, same.2.trans onward.2⟩

theorem add {left' right' : Nat} (same : SameSum left right) (same' : SameSum left' right') :
    SameSum (left + left') (right + right') := by
  refine ⟨same.1.add same'.1, ?_⟩
  rw [Nat.add_eq_zero_iff, Nat.add_eq_zero_iff, same.2, same'.2]

end SameSum

theorem fold_sameSum (sum : Nat) : SameSum (fold sum) sum :=
  ⟨foldCarries_modEq 5 sum, foldCarries_eq_zero_iff 5 sum⟩

theorem fold_eq_of_sameSum {left right : Nat} (leftRange : left < 2 ^ 64)
    (rightRange : right < 2 ^ 64) (same : SameSum left right) : fold left = fold right := by
  have leftSmall := fold_lt leftRange
  have rightSmall := fold_lt rightRange
  obtain ⟨congruent, zeroIff⟩ := (fold_sameSum left).trans
    (same.trans ⟨(fold_sameSum right).1.symm, (fold_sameSum right).2.symm⟩)
  unfold Nat.ModEq at congruent
  omega

theorem wordSum_append {first : Bytes} (second : Bytes) (even : first.length % 2 = 0) :
    wordSum (first ++ second) = wordSum first + wordSum second := by
  induction first using wordSum.induct with
  | case1 high low rest ih =>
    have restEven : rest.length % 2 = 0 := by
      simp only [List.length_cons] at even
      omega
    simp only [List.cons_append, wordSum, ih restEven]
    omega
  | case2 last =>
    simp at even
  | case3 =>
    simp only [List.nil_append, wordSum, Nat.zero_add]

end Sail.OnesComplement
