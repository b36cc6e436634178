/-
Byte strings and their big-endian fields.

A packet is a list of bytes. Reading outside the list gives zero; every reader
below checks its bounds first, as the code it stands for does.
-/

import Mathlib.Data.List.Basic
import Mathlib.Data.Nat.Notation

namespace Sail

abbrev Bytes := List UInt8

namespace Bytes

def byteAt (bytes : Bytes) (index : Nat) : UInt8 :=
  bytes.getD index 0

@[simp] theorem byteAt_cons_zero (byte : UInt8) (rest : Bytes) : byteAt (byte :: rest) 0 = byte :=
  rfl

def slice (bytes : Bytes) (start stop : Nat) : Bytes :=
  (bytes.take stop).drop start

def bigEndian (bytes : Bytes) : Nat :=
  bytes.foldl (fun number byte => number * 256 + byte.toNat) 0

def u16At (bytes : Bytes) (index : Nat) : Nat :=
  (byteAt bytes index).toNat * 256 + (byteAt bytes (index + 1)).toNat

def u32At (bytes : Bytes) (index : Nat) : Nat :=
  u16At bytes index * 65536 + u16At bytes (index + 2)

def u16Bytes (value : Nat) : Bytes :=
  [UInt8.ofNat (value / 256), UInt8.ofNat value]

def u32Bytes (value : Nat) : Bytes :=
  u16Bytes (value / 65536) ++ u16Bytes value

def u64At (bytes : Bytes) (index : Nat) : Nat :=
  u32At bytes index * 4294967296 + u32At bytes (index + 4)

def u64Bytes (value : Nat) : Bytes :=
  u32Bytes (value / 4294967296) ++ u32Bytes value

def littleEndian (bytes : Bytes) : Nat :=
  bigEndian bytes.reverse

def overwrite (bytes : Bytes) (index : Nat) (field : Bytes) : Bytes :=
  bytes.take index ++ (field ++ bytes.drop (index + field.length))

def putU16 (bytes : Bytes) (index value : Nat) : Bytes :=
  overwrite bytes index (u16Bytes value)

/-! ### Reading back a rewritten field -/

variable {bytes field header left right : Bytes} {index start stop : Nat}

theorem length_overwrite (fits : index + field.length ≤ bytes.length) :
    (overwrite bytes index field).length = bytes.length := by
  rw [overwrite, List.length_append, List.length_append, List.length_take, List.length_drop]
  omega

theorem byteAt_overwrite (fits : index + field.length ≤ bytes.length) (position : Nat) :
    byteAt (overwrite bytes index field) position =
      if index ≤ position ∧ position < index + field.length then
        byteAt field (position - index)
      else byteAt bytes position := by
  have prefixLength : (bytes.take index).length = index := by
    rw [List.length_take]
    omega
  unfold byteAt overwrite
  rw [List.getD_eq_getElem?_getD, List.getD_eq_getElem?_getD, List.getD_eq_getElem?_getD]
  by_cases before : position < index
  · rw [List.getElem?_append_left (by omega), List.getElem?_take_of_lt before, if_neg (by omega)]
  · rw [List.getElem?_append_right (by omega), prefixLength]
    by_cases inside : position < index + field.length
    · rw [List.getElem?_append_left (by omega), if_pos (by omega)]
    · rw [List.getElem?_append_right (by omega), List.getElem?_drop, if_neg (by omega)]
      congr 2
      omega

variable (value : Nat) (payload : Bytes)

theorem overwrite_append (fits : index + field.length ≤ header.length) :
    overwrite (header ++ payload) index field = overwrite header index field ++ payload := by
  unfold overwrite
  rw [List.take_append_of_le_length (by omega), List.drop_append_of_le_length (by omega)]
  simp only [List.append_assoc]

theorem length_u16Bytes : (u16Bytes value).length = 2 := rfl

theorem length_u32Bytes : (u32Bytes value).length = 4 := rfl

theorem u16At_u16Bytes {value : Nat} (inRange : value < 65536) :
    u16At (u16Bytes value) 0 = value := by
  change (UInt8.ofNat (value / 256)).toNat * 256 + (UInt8.ofNat value).toNat = value
  rw [UInt8.toNat_ofNat', UInt8.toNat_ofNat']
  omega

theorem length_u64Bytes : (u64Bytes value).length = 8 := rfl

/-- Reading a written word, whatever stands around it. -/
theorem u32At_u32Bytes (front back : Bytes) (value : Nat) :
    u32At (front ++ (u32Bytes value ++ back)) front.length = value % 4294967296 := by
  have byte : ∀ offset, byteAt (front ++ (u32Bytes value ++ back)) (front.length + offset) =
      byteAt (u32Bytes value ++ back) offset := by
    intro offset
    unfold byteAt
    rw [List.getD_eq_getElem?_getD, List.getD_eq_getElem?_getD,
      List.getElem?_append_right (Nat.le_add_right _ _), Nat.add_sub_cancel_left]
  have first := byte 0
  have second := byte 1
  have third := byte 2
  have fourth := byte 3
  unfold u32At u16At
  rw [Nat.add_zero] at first
  rw [first, second, third, fourth]
  change ((UInt8.ofNat (value / 65536 / 256)).toNat * 256 + (UInt8.ofNat (value / 65536)).toNat) *
      65536 + ((UInt8.ofNat (value / 256)).toNat * 256 + (UInt8.ofNat value).toNat) = _
  rw [UInt8.toNat_ofNat', UInt8.toNat_ofNat', UInt8.toNat_ofNat', UInt8.toNat_ofNat']
  omega

theorem u64At_u64Bytes (front back : Bytes) (value : Nat) :
    u64At (front ++ (u64Bytes value ++ back)) front.length = value % 18446744073709551616 := by
  have high := u32At_u32Bytes front (u32Bytes value ++ back) (value / 4294967296)
  have low := u32At_u32Bytes (front ++ u32Bytes (value / 4294967296)) back value
  rw [List.append_assoc, List.length_append, length_u32Bytes] at low
  unfold u64At u64Bytes
  rw [List.append_assoc, high, low]
  omega

theorem length_putU16 (fits : index + 2 ≤ bytes.length) :
    (putU16 bytes index value).length = bytes.length :=
  length_overwrite fits

theorem putU16_append (fits : index + 2 ≤ header.length) :
    putU16 (header ++ payload) index value = putU16 header index value ++ payload :=
  overwrite_append payload fits

/-- A sixteen-bit field changes no byte outside it. -/
theorem byteAt_putU16_of_ne (position : Nat) (fits : index + 2 ≤ bytes.length)
    (outside : position < index ∨ index + 2 ≤ position) :
    byteAt (putU16 bytes index value) position = byteAt bytes position := by
  unfold putU16
  rw [byteAt_overwrite fits, length_u16Bytes, if_neg (by omega)]

theorem byteAt_putU16_of_mem {position : Nat} (fits : index + 2 ≤ bytes.length)
    (inside : index ≤ position ∧ position < index + 2) :
    byteAt (putU16 bytes index value) position = byteAt (u16Bytes value) (position - index) := by
  unfold putU16
  rw [byteAt_overwrite fits, length_u16Bytes, if_pos inside]

theorem u16At_putU16 {value : Nat} (fits : index + 2 ≤ bytes.length) (inRange : value < 65536) :
    u16At (putU16 bytes index value) index = value := by
  unfold u16At putU16
  rw [byteAt_overwrite fits, byteAt_overwrite fits, length_u16Bytes, if_pos (by omega),
    if_pos (by omega), Nat.sub_self, Nat.add_sub_cancel_left]
  exact u16At_u16Bytes inRange

theorem byteAt_append_left (inside : index < header.length) :
    byteAt (header ++ payload) index = byteAt header index := by
  unfold byteAt
  rw [List.getD_eq_getElem?_getD, List.getD_eq_getElem?_getD, List.getElem?_append_left inside]

theorem byteAt_take {count : Nat} (inside : index < count) :
    byteAt (bytes.take count) index = byteAt bytes index := by
  unfold byteAt
  rw [List.getD_eq_getElem?_getD, List.getD_eq_getElem?_getD, List.getElem?_take_of_lt inside]

theorem byteAt_drop (bytes : Bytes) (count index : Nat) :
    byteAt (bytes.drop count) index = byteAt bytes (count + index) := by
  unfold byteAt
  rw [List.getD_eq_getElem?_getD, List.getD_eq_getElem?_getD, List.getElem?_drop]

/-- Two byte strings of one length with the same bytes are equal. -/
theorem ext_byteAt (sameLength : left.length = right.length)
    (sameBytes : ∀ index, index < left.length → byteAt left index = byteAt right index) :
    left = right := by
  apply List.ext_getElem sameLength
  intro index inLeft inRight
  have same := sameBytes index inLeft
  unfold byteAt at same
  rw [List.getD_eq_getElem?_getD, List.getD_eq_getElem?_getD,
    List.getElem?_eq_getElem inLeft, List.getElem?_eq_getElem inRight] at same
  exact same

theorem length_slice (inside : stop ≤ bytes.length) :
    (slice bytes start stop).length = stop - start := by
  rw [slice, List.length_drop, List.length_take]
  omega

theorem length_slice_add {amount : Nat} (inside : start + amount ≤ bytes.length) :
    (slice bytes start (start + amount)).length = amount := by
  rw [length_slice inside, Nat.add_sub_cancel_left]

/-- Overwriting a field twice leaves the second value. -/
theorem putU16_putU16 (first second : Nat) (fits : index + 2 ≤ bytes.length) :
    putU16 (putU16 bytes index first) index second = putU16 bytes index second := by
  have length : (putU16 bytes index first).length = bytes.length := length_putU16 first fits
  have fitsAgain : index + 2 ≤ (putU16 bytes index first).length := by omega
  apply ext_byteAt
  · rw [length_putU16 second fitsAgain, length_putU16 second fits, length]
  · intro position _
    by_cases inside : index ≤ position ∧ position < index + 2
    · rw [byteAt_putU16_of_mem second fitsAgain inside, byteAt_putU16_of_mem second fits inside]
    · rw [byteAt_putU16_of_ne second _ fitsAgain (by omega),
        byteAt_putU16_of_ne first _ fits (by omega), byteAt_putU16_of_ne second _ fits (by omega)]

theorem u16At_congr (first : byteAt left index = byteAt right index)
    (second : byteAt left (index + 1) = byteAt right (index + 1)) :
    u16At left index = u16At right index := by
  unfold u16At
  rw [first, second]

/-- A sixteen-bit field determines its two bytes. -/
theorem byteAt_of_u16At (same : u16At left index = u16At right index) :
    byteAt left index = byteAt right index ∧
      byteAt left (index + 1) = byteAt right (index + 1) := by
  unfold u16At at same
  have leftLow := (byteAt left (index + 1)).toNat_lt
  have rightLow := (byteAt right (index + 1)).toNat_lt
  constructor
  · apply UInt8.toNat_inj.mp
    omega
  · apply UInt8.toNat_inj.mp
    omega

theorem u16At_lt (bytes : Bytes) (index : Nat) : u16At bytes index < 65536 := by
  have high := (byteAt bytes index).toNat_lt
  have low := (byteAt bytes (index + 1)).toNat_lt
  unfold u16At
  omega

theorem putU16_u16At (fits : index + 2 ≤ bytes.length) :
    putU16 bytes index (u16At bytes index) = bytes := by
  have field := u16At_putU16 fits (u16At_lt bytes index)
  obtain ⟨high, low⟩ := byteAt_of_u16At field
  apply ext_byteAt (length_putU16 _ fits)
  intro position below
  by_cases here : position = index
  · rw [here]
    exact high
  · by_cases next : position = index + 1
    · rw [next]
      exact low
    · exact byteAt_putU16_of_ne _ position fits (by omega)

theorem u16At_append_left (inside : index + 1 < header.length) :
    u16At (header ++ payload) index = u16At header index :=
  u16At_congr (byteAt_append_left payload (by omega)) (byteAt_append_left payload inside)

theorem byteAt_append_right (header payload : Bytes) (outside : header.length ≤ index) :
    byteAt (header ++ payload) index = byteAt payload (index - header.length) := by
  have dropped := byteAt_drop (header ++ payload) header.length (index - header.length)
  rw [List.drop_left, Nat.add_sub_cancel' outside] at dropped
  exact dropped.symm

/-! ### Slices -/

theorem byteAt_slice (inside : start + index < stop) :
    byteAt (slice bytes start stop) index = byteAt bytes (start + index) := by
  rw [slice, byteAt_drop, byteAt_take inside]

theorem slice_congr (inLeft : stop ≤ left.length) (inRight : stop ≤ right.length)
    (same : ∀ index, start ≤ index → index < stop → byteAt left index = byteAt right index) :
    slice left start stop = slice right start stop := by
  have leftLength : (slice left start stop).length = stop - start := length_slice inLeft
  have rightLength : (slice right start stop).length = stop - start := length_slice inRight
  apply ext_byteAt (by omega)
  intro index inside
  rw [byteAt_slice (by omega), byteAt_slice (by omega)]
  exact same (start + index) (by omega) (by omega)

theorem slice_append_left (start : Nat) (inside : stop ≤ header.length) :
    slice (header ++ payload) start stop = slice header start stop := by
  rw [slice, List.take_append_of_le_length inside, slice]

theorem slice_append_right (header payload : Bytes) :
    slice (header ++ payload) header.length (header.length + payload.length) = payload := by
  rw [slice, ← List.length_append, List.take_length, List.drop_left]

/-- Neighbouring slices join. -/
theorem slice_append_slice (bytes : Bytes) {middle : Nat} (lower : start ≤ middle)
    (upper : middle ≤ stop) :
    slice bytes start middle ++ slice bytes middle stop = slice bytes start stop := by
  unfold slice
  have taken : bytes.take middle = (bytes.take stop).take middle := by
    rw [List.take_take, Nat.min_eq_left upper]
  rw [taken]
  generalize bytes.take stop = front
  have dropped : front.drop middle = (front.drop start).drop (middle - start) := by
    rw [List.drop_drop]
    congr 1
    omega
  have kept : (front.take middle).drop start = (front.drop start).take (middle - start) := by
    rw [List.drop_take]
  rw [dropped, kept, List.take_append_drop]

end Bytes

end Sail
