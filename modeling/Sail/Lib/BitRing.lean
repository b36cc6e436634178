/-
Bitmaps on a ring of words.

A ring of words holds the bits of a span of positions as long as the ring. As the
top of the span moves up, the words it enters are cleared; the bits of the span
then stand for the same set of positions as before.
-/

import Mathlib.Data.Nat.ModEq

namespace Sail

variable {position : Nat}

abbrev BitRing (width words : Nat) := Vector (BitVec width) words

namespace BitRing

variable {width words : Nat} [NeZero words]

def word (ring : BitRing width words) (index : Nat) : BitVec width :=
  ring.get (Fin.ofNat words index)

def setWord (index : Nat) (value : BitVec width) (ring : BitRing width words) :
    BitRing width words :=
  ring.set (Fin.ofNat words index) value

def clearAfter (current : Nat) : Nat → BitRing width words → BitRing width words
  | 0, ring => ring
  | count + 1, ring => (clearAfter current count ring).setWord (count + 1 + current) 0

def bit (ring : BitRing width words) (position : Nat) : Bool :=
  (ring.word (position / width)).getLsbD (position % width)

def mark (position : Nat) (ring : BitRing width words) : BitRing width words :=
  ring.setWord (position / width)
    (ring.word (position / width) ||| BitVec.twoPow width (position % width))

def unmark (position : Nat) (ring : BitRing width words) : BitRing width words :=
  ring.setWord (position / width)
    (ring.word (position / width) &&& ~~~BitVec.twoPow width (position % width))

def clearFrom (start : Nat) : Nat → BitRing width words → BitRing width words
  | 0, ring => ring
  | count + 1, ring => (clearFrom start count ring).unmark (start + count)

/-! ### One word -/

variable (ring : BitRing width words)

theorem word_setWord (index other : Nat) (value : BitVec width) :
    (ring.setWord index value).word other =
      if index % words = other % words then value else ring.word other := by
  exact Vector.getElem_set (Fin.ofNat words index).isLt (Fin.ofNat words other).isLt

theorem word_clearAfter_of_mem {current count index : Nat}
    (entered : ∃ step, 1 ≤ step ∧ step ≤ count ∧ (step + current) % words = index % words) :
    (clearAfter current count ring).word index = 0 := by
  induction count with
  | zero =>
    obtain ⟨step, positive, bounded, _⟩ := entered
    omega
  | succ count ih =>
    rw [clearAfter, word_setWord]
    by_cases here : (count + 1 + current) % words = index % words
    · rw [if_pos here]
    · rw [if_neg here]
      obtain ⟨step, positive, bounded, same⟩ := entered
      have before : step ≠ count + 1 := fun last => here (last ▸ same)
      exact ih ⟨step, positive, by omega, same⟩

theorem word_clearAfter_of_notMem {current count index : Nat}
    (apart : ∀ step, 1 ≤ step → step ≤ count → (step + current) % words ≠ index % words) :
    (clearAfter current count ring).word index = ring.word index := by
  induction count with
  | zero => rfl
  | succ count ih =>
    rw [clearAfter, word_setWord, if_neg (apart (count + 1) (by omega) (Nat.le_refl _))]
    exact ih (fun step positive bounded => apart step positive (by omega))

/-! ### The set a ring stands for -/

/-- Within the span that ends in the word of the top position, the bits are those
of the members. -/
def Tracks (ring : BitRing width words) (top : Nat) (member : Nat → Prop) : Prop :=
  ∀ position, position / width ≤ top / width → top / width < position / width + words →
    (ring.bit position = true ↔ member position)

variable {ring : BitRing width words} {member : Nat → Prop}

theorem Tracks.empty (top : Nat) :
    Tracks (Vector.replicate words 0 : BitRing width words) top (fun _ => False) := by
  intro position _ _
  have zero : word (Vector.replicate words 0 : BitRing width words) (position / width) = 0 :=
    Vector.getElem_replicate (Fin.ofNat words (position / width)).isLt
  rw [bit, zero]
  simp

omit [NeZero words] in
/-- Two words of one span are apart on the ring. -/
theorem apart_of_span {low high : Nat} (below : low < high) (near : high < low + words) :
    high % words ≠ low % words := by
  intro same
  have multiple : words ∣ high - low :=
    (Nat.modEq_iff_dvd' (Nat.le_of_lt below)).mp (Eq.symm same)
  have atLeast := Nat.le_of_dvd (by omega) multiple
  omega

/-- Every word behind the current one is cleared, also when the top moves by more
than the ring. -/
theorem entered_of_lt {current index last : Nat} (behind : current < index) (upto : index ≤ last) :
    ∃ step, 1 ≤ step ∧ step ≤ min (last - current) words ∧
      (step + current) % words = index % words := by
  have positive : 0 < words := Nat.pos_of_ne_zero (NeZero.ne words)
  have small := Nat.mod_lt (index - current - 1) positive
  have split := Nat.mod_add_div (index - current - 1) words
  refine ⟨(index - current - 1) % words + 1, by omega, by omega, ?_⟩
  have whole : index =
      (index - current - 1) % words + 1 + current + words * ((index - current - 1) / words) := by
    omega
  conv_rhs => rw [whole]
  rw [Nat.add_mul_mod_self_left]

/-- The top moves up and the words it enters are cleared. -/
theorem Tracks.slide {top next : Nat} (tracks : ring.Tracks top member)
    (below : ∀ position, member position → position ≤ top) (later : top ≤ next) :
    (clearAfter (top / width) (min (next / width - top / width) words) ring).Tracks next member := by
  intro position inSpan near
  have order : top / width ≤ next / width := Nat.div_le_div_right later
  unfold bit
  by_cases old : position / width ≤ top / width
  · rw [word_clearAfter_of_notMem, ← tracks position old (by omega)]
    · rfl
    · intro step positive bounded
      exact apart_of_span (by omega) (by omega)
  · rw [word_clearAfter_of_mem ring (entered_of_lt (by omega) inSpan)]
    have absent : ¬member position := by
      intro isMember
      exact old (Nat.div_le_div_right (below position isMember))
    simp [absent]

/-! ### Single bits

Positions share a bit of the ring when they differ by a multiple of its bits. -/

omit [NeZero words] in
theorem same_bit_iff {other : Nat} : position % (width * words) = other % (width * words) ↔
      position % width = other % width ∧ position / width % words = other / width % words := by
  rw [Nat.mod_mul, Nat.mod_mul]
  constructor
  · intro same
    rcases Nat.eq_zero_or_pos width with zero | positive
    · subst zero
      simpa using same
    · have remainders := congrArg (· % width) same
      simp only [Nat.add_mul_mod_self_left, Nat.mod_mod] at remainders
      refine ⟨remainders, Nat.eq_of_mul_eq_mul_left positive ?_⟩
      omega
  · rintro ⟨low, high⟩
    rw [low, high]

theorem word_congr {other : Nat} (here : position / width % words = other / width % words) :
    ring.word (position / width) = ring.word (other / width) := by
  unfold word
  congr 1
  exact Fin.ext here

theorem bit_mark_iff (positive : 0 < width) (position other : Nat) :
    (ring.mark position).bit other = true ↔
      position % (width * words) = other % (width * words) ∨ ring.bit other = true := by
  unfold bit mark
  rw [word_setWord, same_bit_iff]
  by_cases here : position / width % words = other / width % words
  · rw [if_pos here, BitVec.getLsbD_or, BitVec.getLsbD_twoPow, word_congr here,
      decide_eq_true (Nat.mod_lt position positive), Bool.true_and, Bool.or_eq_true,
      decide_eq_true_iff, or_comm]
    simp only [here, and_true]
  · rw [if_neg here]
    simp only [here, and_false, false_or]

theorem bit_unmark_iff (positive : 0 < width) (position other : Nat) :
    (ring.unmark position).bit other = true ↔
      position % (width * words) ≠ other % (width * words) ∧ ring.bit other = true := by
  unfold bit unmark
  rw [word_setWord, Ne, same_bit_iff]
  by_cases here : position / width % words = other / width % words
  · have inside := Nat.mod_lt other positive
    rw [if_pos here, BitVec.getLsbD_and, BitVec.getLsbD_not, BitVec.getLsbD_twoPow, word_congr here,
      decide_eq_true (Nat.mod_lt position positive), decide_eq_true inside, Bool.true_and,
      Bool.true_and, Bool.and_eq_true, Bool.not_eq_true', decide_eq_false_iff_not, and_comm]
    simp only [here, and_true]
  · rw [if_neg here]
    simp only [here, and_false, not_false_eq_true, true_and]

theorem bit_clearFrom_iff (positive : 0 < width) (start count other : Nat) :
    (clearFrom start count ring).bit other = true ↔
      (∀ step < count, (start + step) % (width * words) ≠ other % (width * words)) ∧
        ring.bit other = true := by
  induction count with
  | zero => simp [clearFrom]
  | succ count ih =>
    rw [clearFrom, bit_unmark_iff positive, ih, ← and_assoc]
    refine and_congr_left' ?_
    constructor
    · rintro ⟨last, before⟩ step below
      rcases Nat.lt_succ_iff_lt_or_eq.mp below with earlier | rfl
      · exact before step earlier
      · exact last
    · intro all
      exact ⟨all count (Nat.lt_succ_self count), fun step below => all step (by omega)⟩

/-- A bit that is set is marked for nothing. -/
theorem mark_of_bit (present : ring.bit position = true) : ring.mark position = ring := by
  have same : ring.word (position / width) ||| BitVec.twoPow width (position % width) =
      ring.word (position / width) := by
    refine BitVec.eq_of_getLsbD_eq (fun index inside => ?_)
    rw [BitVec.getLsbD_or, BitVec.getLsbD_twoPow]
    by_cases here : position % width = index
    · rw [← here, show (ring.word (position / width)).getLsbD (position % width) = true from present,
        Bool.true_or]
    · rw [decide_eq_false here, Bool.and_false, Bool.or_false]
  unfold mark
  rw [same]
  exact Vector.set_getElem_self _

theorem Tracks.mark {top : Nat} (positive : 0 < width) (tracks : ring.Tracks top member)
    (inSpan : position / width ≤ top / width) (near : top / width < position / width + words) :
    (ring.mark position).Tracks top (fun other => other = position ∨ member other) := by
  intro other otherIn otherNear
  rw [bit_mark_iff positive, same_bit_iff, tracks other otherIn otherNear]
  refine or_congr_left ?_
  constructor
  · rintro ⟨low, high⟩
    have same : position / width = other / width := by
      rcases Nat.lt_trichotomy (position / width) (other / width) with less | equal | more
      · exact absurd high.symm (apart_of_span less (by omega))
      · exact equal
      · exact absurd high (apart_of_span more (by omega))
    rw [← Nat.div_add_mod other width, ← Nat.div_add_mod position width, same, low]
  · rintro rfl
    exact ⟨rfl, rfl⟩

end BitRing

end Sail
