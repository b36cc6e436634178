/-
The checksum of the wire boundary is the one's-complement sum of its words.

The sum over four-byte words in the machine's order, folded and swapped, is
congruent to the sum of the big-endian words modulo 65535. From this a header
with its checksum filled in verifies.
-/

import Sail.Netstack.Ip.Reassembly

namespace Sail.Netstack

open Bytes OnesComplement

theorem swapBytes_modEq (word : Nat) : swapBytes word ≡ 256 * word [MOD 65535] := by
  unfold swapBytes Nat.ModEq
  omega

theorem nativeWord_little_modEq (a b c d : UInt8) : 256 * nativeWord .little a b c d ≡
      (a.toNat * 256 + b.toNat) + (c.toNat * 256 + d.toNat) [MOD 65535] := by
  unfold nativeWord Nat.ModEq
  dsimp only
  omega

theorem nativeWord_big_modEq (a b c d : UInt8) : nativeWord .big a b c d ≡
      (a.toNat * 256 + b.toNat) + (c.toNat * 256 + d.toNat) [MOD 65535] := by
  unfold nativeWord Nat.ModEq
  dsimp only
  omega

/-- What the wide sum has to be multiplied by to read its bytes in network order. -/
def orderFactor : Endian → Nat
  | .little => 256
  | .big => 1

variable (endian : Endian) (bytes : Bytes)

theorem nativeWord_modEq (a b c d : UInt8) :
    orderFactor endian * nativeWord endian a b c d ≡
      (a.toNat * 256 + b.toNat) + (c.toNat * 256 + d.toNat) [MOD 65535] := by
  cases endian with
  | little => exact nativeWord_little_modEq a b c d
  | big =>
    change 1 * _ ≡ _ [MOD 65535]
    rw [Nat.one_mul]
    exact nativeWord_big_modEq a b c d

section Short

variable {rest : Bytes}
  (short : ∀ (a b c d : UInt8) (more : List UInt8), rest = a :: b :: c :: d :: more → False)
include short

theorem wideSum_short (endian : Endian) : wideSum endian rest = 0 := by
  unfold wideSum
  split
  · rename_i a b c d more
    exact absurd rfl (short a b c d more)
  · rfl

theorem afterWords_short : afterWords rest = rest := by
  unfold afterWords
  split
  · rename_i a b c d more
    exact absurd rfl (short a b c d more)
  · rfl

end Short

theorem wideSum_modEq :
    orderFactor endian * wideSum endian bytes + wordSum (afterWords bytes) ≡
      wordSum bytes [MOD 65535] := by
  induction bytes using afterWords.induct with
  | case1 a b c d rest ih =>
    simp only [wideSum, afterWords, wordSum, Nat.mul_add]
    have word := nativeWord_modEq endian a b c d
    have both := word.add ih
    unfold Nat.ModEq at both ⊢
    omega
  | case2 rest short =>
    rw [wideSum_short short endian, afterWords_short short, Nat.mul_zero, Nat.zero_add]

theorem wideSum_eq_zero_iff :
    wideSum endian bytes = 0 ∧ wordSum (afterWords bytes) = 0 ↔ wordSum bytes = 0 := by
  induction bytes using afterWords.induct with
  | case1 a b c d rest ih =>
    have word : nativeWord endian a b c d = 0 ↔
        a.toNat * 256 + b.toNat + (c.toNat * 256 + d.toNat) = 0 := by
      cases endian <;> unfold nativeWord <;> dsimp only <;> omega
    simp only [wideSum, afterWords, wordSum]
    generalize nativeWord endian a b c d = native at word
    generalize wideSum endian rest = wide at ih
    generalize wordSum (afterWords rest) = last at ih
    generalize wordSum rest = sum at ih
    omega
  | case2 rest short =>
    rw [wideSum_short short endian, afterWords_short short]
    exact ⟨fun both => both.2, fun zero => ⟨rfl, zero⟩⟩

theorem nativeWord_lt (a b c d : UInt8) : nativeWord endian a b c d < 2 ^ 32 := by
  have aBound := a.toNat_lt
  have bBound := b.toNat_lt
  have cBound := c.toNat_lt
  have dBound := d.toNat_lt
  cases endian <;> unfold nativeWord <;> dsimp only <;> omega

theorem wideSum_le : wideSum endian bytes ≤ (2 ^ 32 - 1) * (bytes.length / 4) := by
  induction bytes using afterWords.induct with
  | case1 a b c d rest ih =>
    have word := nativeWord_lt endian a b c d
    simp only [wideSum, List.length_cons]
    omega
  | case2 rest short =>
    rw [wideSum_short short endian]
    exact Nat.zero_le _

theorem wordSum_le : wordSum bytes ≤ 65536 * bytes.length := by
  induction bytes using wordSum.induct with
  | case1 high low rest ih =>
    have highBound := high.toNat_lt
    have lowBound := low.toNat_lt
    simp only [wordSum, List.length_cons]
    omega
  | case2 last =>
    have bound := last.toNat_lt
    simp only [wordSum, List.length_cons, List.length_nil]
    omega
  | case3 => exact Nat.zero_le _

theorem length_afterWords_le : (afterWords bytes).length ≤ bytes.length := by
  induction bytes using afterWords.induct with
  | case1 a b c d rest ih =>
    simp only [afterWords, List.length_cons]
    omega
  | case2 rest short => rw [afterWords_short short]

theorem checksumAccumulate_sameSum (initial : Nat) :
    SameSum (checksumAccumulate endian bytes initial) (initial + wordSum bytes) := by
  have ordered : SameSum (checksumAccumulate endian bytes initial)
      (initial + (orderFactor endian * wideSum endian bytes + wordSum (afterWords bytes))) := by
    have folded := fold_sameSum (wideSum endian bytes)
    unfold checksumAccumulate
    rw [Nat.add_assoc]
    refine (fold_sameSum initial).add (.add ?_ (.refl _))
    cases endian with
    | little =>
      refine ⟨(swapBytes_modEq _).trans (folded.1.mul_left 256), ?_⟩
      have zeroIff := folded.2
      simp only [swapBytes, orderFactor]
      omega
    | big => simpa only [orderFactor, Nat.one_mul] using folded
  refine ordered.trans (.add (.refl _) ⟨wideSum_modEq endian bytes, ?_⟩)
  rw [← wideSum_eq_zero_iff endian bytes]
  cases endian <;> simp only [orderFactor] <;> omega

variable {endian bytes} {initial : Nat}

theorem checksumAccumulate_lt (wide : wideSum endian bytes < 2 ^ 64) (inRange : initial < 2 ^ 64) :
    checksumAccumulate endian bytes initial < 2 ^ 18 + 65536 * bytes.length := by
  have wordBound := wordSum_le (afterWords bytes)
  have lastLength := length_afterWords_le bytes
  have initialBound := fold_lt inRange
  have foldedBound := fold_lt wide
  unfold checksumAccumulate swapBytes
  cases endian <;> dsimp only <;> omega

theorem fold_checksumAccumulate (short : bytes.length < 2 ^ 34 + 8) (inRange : initial < 2 ^ 63) :
    fold (checksumAccumulate endian bytes initial) = fold (initial + wordSum bytes) := by
  have wide := wideSum_le endian bytes
  have bound := @checksumAccumulate_lt endian bytes initial (by omega) (by omega)
  have wordBound := wordSum_le bytes
  exact fold_eq_of_sameSum (by omega) (by omega) (checksumAccumulate_sameSum endian bytes initial)

/-- The wide checksum of a header is the folded sum of its words. -/
theorem checksumSum_eq (short : bytes.length < 2 ^ 31) :
    checksumSum bytes 0 = fold (wordSum bytes) := by
  rw [checksumSum, fold_checksumAccumulate (by omega) (by omega), Nat.zero_add]

/-! ### The sum in 64 bits -/

/-- The wide sum is kept in 64 bits, which wrap around behind 16 GiB. -/
def checksumAccumulate64 (endian : Endian) (bytes : Bytes) (sum : Nat) : Nat :=
  let folded := fold (wideSum endian bytes % 2 ^ 64)
  let ordered := match endian with
    | .little => swapBytes folded
    | .big => folded
  fold sum + ordered + wordSum (afterWords bytes)

def checksumSum64 (endian : Endian) (bytes : Bytes) (initial : Nat) : Nat :=
  fold (checksumAccumulate64 endian bytes initial)

theorem checksumAccumulate64_eq (short : bytes.length < 2 ^ 34 + 8) :
    checksumAccumulate64 endian bytes initial = checksumAccumulate endian bytes initial := by
  have wide := wideSum_le endian bytes
  have kept : wideSum endian bytes % 2 ^ 64 = wideSum endian bytes := Nat.mod_eq_of_lt (by omega)
  cases endian <;> simp only [checksumAccumulate64, checksumAccumulate, kept]

/-- Up to 2^32 + 1 wide words the checksum is the one's-complement sum of the
big-endian words, also when it is summed in two pieces cut at an even offset. -/
theorem wide_checksum (endian : Endian) (front back : Bytes) (initial : BitVec 32)
    (short : (front ++ back).length < 2 ^ 34 + 8) :
    checksumSum64 endian (front ++ back) initial.toNat =
        fold (initial.toNat + wordSum (front ++ back)) ∧
      (front.length % 2 = 0 →
        checksumSum64 endian back (checksumAccumulate64 endian front initial.toNat) =
          checksumSum64 endian (front ++ back) initial.toNat) := by
  have inRange := initial.isLt
  have whole : checksumSum64 endian (front ++ back) initial.toNat =
      fold (initial.toNat + wordSum (front ++ back)) := by
    rw [checksumSum64, checksumAccumulate64_eq short, fold_checksumAccumulate short (by omega)]
  refine ⟨whole, fun even => ?_⟩
  have wide := wideSum_le endian front
  have wordBound := wordSum_le back
  have frontBound := wordSum_le front
  rw [List.length_append] at short
  have bound := @checksumAccumulate_lt endian front initial.toNat (by omega) (by omega)
  rw [whole, wordSum_append back even, ← Nat.add_assoc, checksumSum64,
    checksumAccumulate64_eq (by omega), checksumAccumulate64_eq (by omega),
    fold_checksumAccumulate (by omega) (by omega)]
  exact fold_eq_of_sameSum (by omega) (by omega)
    ((checksumAccumulate_sameSum endian front initial.toNat).add (.refl _))

theorem wide_checksum_ones : checksumSum64 .little [255, 255, 255, 255, 255] 1 = 65281 :=
  (wide_checksum .little [] [255, 255, 255, 255, 255] 1 (by decide)).1.trans (by decide)

theorem wideSum_ones (count : Nat) :
    wideSum .little (List.replicate (4 * count) 255) = (2 ^ 32 - 1) * count ∧
      afterWords (List.replicate (4 * count) 255) = [] ∧
      wordSum (List.replicate (4 * count) 255) = 131070 * count := by
  induction count with
  | zero => exact ⟨rfl, rfl, rfl⟩
  | succ count ih =>
    obtain ⟨wide, last, words⟩ := ih
    rw [Nat.mul_succ]
    simp only [List.replicate_succ, wideSum, afterWords, wordSum, wide, last, words, nativeWord,
      UInt8.reduceToNat, true_and]
    omega

theorem checksumSum64_ones {count : Nat} (more : count = 2 ^ 32 + 2) :
    checksumSum64 .little (List.replicate (4 * count) 255) 0 ≠
      fold (0 + wordSum (List.replicate (4 * count) 255)) := by
  obtain ⟨wide, last, words⟩ := wideSum_ones count
  unfold checksumSum64 checksumAccumulate64
  rw [wide, last, words, more]
  decide

/-- One wide word more, all of them ones, and the carry is lost. -/
theorem wide_checksum_wraps :
    checksumSum64 .little (List.replicate (4 * (2 ^ 32 + 2)) 255) 0 ≠
      fold (0 + wordSum (List.replicate (4 * (2 ^ 32 + 2)) 255)) :=
  checksumSum64_ones rfl

/-! ### Filling in a header checksum -/

theorem pairSum_eq {bytes : Bytes} (even : bytes.length % 2 = 0) :
    pairSum bytes = wordSum bytes := by
  induction bytes using wordSum.induct with
  | case1 high low rest ih =>
    have restEven : rest.length % 2 = 0 := by
      simp only [List.length_cons] at even
      omega
    simp only [pairSum, wordSum, ih restEven]
  | case2 last => simp at even
  | case3 => rfl

theorem wordSum_u16Bytes {value : Nat} (inRange : value < 65536) :
    wordSum (u16Bytes value) = value := by
  rw [u16Bytes, wordSum, wordSum, UInt8.toNat_ofNat', UInt8.toNat_ofNat']
  omega

theorem wordSum_putU16 {bytes : Bytes} {index value : Nat} (inRange : value < 65536)
    (even : index % 2 = 0) (fits : index + 2 ≤ bytes.length) :
    wordSum (putU16 bytes index value) = wordSum (putU16 bytes index 0) + value := by
  have frontEven : (bytes.take index).length % 2 = 0 := by
    rw [List.length_take]
    omega
  unfold putU16 overwrite
  have fieldEven : ∀ field : Nat, (u16Bytes field).length % 2 = 0 := by
    intro field
    rw [length_u16Bytes]
  rw [wordSum_append _ frontEven, wordSum_append _ frontEven,
    wordSum_append _ (fieldEven value), wordSum_append _ (fieldEven 0), wordSum_u16Bytes inRange,
    wordSum_u16Bytes (by omega),
    length_u16Bytes, length_u16Bytes]
  omega

/-- A checksum that completes the sum of a header to all ones verifies. -/
theorem checksumSum_filled {header : Bytes} (short : header.length < 2 ^ 31)
    (fits : 12 ≤ header.length) :
    checksumSum (putU16 header 10 (65535 - fold (wordSum (putU16 header 10 0)))) 0 = 65535 := by
  have clearedLength : (putU16 header 10 0).length = header.length := length_putU16 0 fits
  have wordBound := wordSum_le (putU16 header 10 0)
  have filledLength :
      (putU16 header 10 (65535 - fold (wordSum (putU16 header 10 0)))).length =
        header.length := length_putU16 _ fits
  rw [checksumSum_eq (by omega), wordSum_putU16 (by omega) rfl fits]
  generalize wordSum (putU16 header 10 0) = sum at wordBound
  have bound : fold sum < 65536 := fold_lt (by omega)
  have wholeBound : fold (sum + (65535 - fold sum)) < 65536 := fold_lt (by omega)
  obtain ⟨congruent, zeroIff⟩ := fold_sameSum sum
  obtain ⟨wholeCongruent, wholeZero⟩ := fold_sameSum (sum + (65535 - fold sum))
  unfold Nat.ModEq at congruent wholeCongruent
  omega

end Sail.Netstack
