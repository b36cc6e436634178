/-
Frames of the multipath stream.

A data frame carries its packet number and the length of its payload, a closing
frame the last packet number. The reader takes the first whole frame of what has
arrived on a path; a byte of an unknown type is skipped.
-/

import Sail.Lib.Bytes
import Sail.Lib.Framing

namespace Sail.Protocol.Mptp

open Bytes

def mtypData : UInt8 := 1

def mtypPing : UInt8 := 2

def mtypPong : UInt8 := 3

def mtypFin : UInt8 := 4

def mtypRst : UInt8 := 5

def dataHeaderLen : Nat := 13

def finLen : Nat := 9

inductive Frame where
  | data (pn : Nat) (payload : Bytes)
  | ping
  | pong
  | fin (lastPn : Nat)
  | rst
  | unknown (mtyp : UInt8) (content : Bytes)
deriving DecidableEq

/-- The length field is the payload's length cut to thirty-two bits. -/
def Frame.encode : Frame → Bytes
  | .data pn payload => mtypData :: (u64Bytes pn ++ (u32Bytes payload.length ++ payload))
  | .ping => [mtypPing]
  | .pong => [mtypPong]
  | .fin lastPn => mtypFin :: u64Bytes lastPn
  | .rst => [mtypRst]
  | .unknown mtyp content => mtyp :: content

/-! ### Reading -/

def needed (buf : Bytes) : Nat :=
  if byteAt buf 0 = mtypData then
    if buf.length < dataHeaderLen then 0 else dataHeaderLen + u32At buf 9
  else if byteAt buf 0 = mtypFin then finLen
  else 1

def frameAt (buf : Bytes) : Frame :=
  if byteAt buf 0 = mtypData then
    .data (u64At buf 1) ((buf.drop dataHeaderLen).take (needed buf - dataHeaderLen))
  else if byteAt buf 0 = mtypFin then .fin (u64At buf 1)
  else if byteAt buf 0 = mtypRst then .rst
  else if byteAt buf 0 = mtypPing then .ping
  else if byteAt buf 0 = mtypPong then .pong
  else .unknown (byteAt buf 0) []

def nextFrame (buf : Bytes) : Option (Frame × Bytes) :=
  if buf.isEmpty ∨ needed buf = 0 ∨ buf.length < needed buf then none
  else some (frameAt buf, buf.drop (needed buf))

/-! ### Reading what was written -/

/-- A frame the writer can send and the reader can tell: numbers and lengths
within their fields. -/
def Frame.Valid : Frame → Prop
  | .data pn payload => pn < 18446744073709551616 ∧ payload.length < 4294967296
  | .fin lastPn => lastPn < 18446744073709551616
  | .unknown _ _ => False
  | _ => True

theorem data_type (pn : Nat) (payload rest : Bytes) :
    byteAt ((Frame.data pn payload).encode ++ rest) 0 = mtypData :=
  rfl

theorem needed_data (pn : Nat) (payload rest : Bytes) :
    needed ((Frame.data pn payload).encode ++ rest) =
      dataHeaderLen + payload.length % 4294967296 := by
  have size : ¬((Frame.data pn payload).encode ++ rest).length < dataHeaderLen := by
    simp only [Frame.encode, List.cons_append, List.append_assoc, List.length_cons,
      List.length_append, length_u64Bytes, length_u32Bytes, dataHeaderLen]
    omega
  have field := u32At_u32Bytes (mtypData :: u64Bytes pn) (payload ++ rest) payload.length
  unfold needed
  refine congrArg (dataHeaderLen + ·) (Eq.trans ?_ field)
  simp [Frame.encode, length_u64Bytes]

theorem nextFrame_data {pn : Nat} {payload : Bytes}
    (valid : (Frame.data pn payload).Valid) (rest : Bytes) :
    nextFrame ((Frame.data pn payload).encode ++ rest) = some (.data pn payload, rest) := by
  obtain ⟨numbered, short⟩ := valid
  have size := needed_data pn payload rest
  rw [Nat.mod_eq_of_lt short] at size
  have length : ((Frame.data pn payload).encode ++ rest).length =
      dataHeaderLen + payload.length + rest.length := by
    simp only [Frame.encode, List.cons_append, List.append_assoc, List.length_cons,
      List.length_append, length_u64Bytes, length_u32Bytes, dataHeaderLen]
    omega
  have number : u64At ((Frame.data pn payload).encode ++ rest) 1 = pn := by
    have field := u64At_u64Bytes [mtypData] (u32Bytes payload.length ++ (payload ++ rest)) pn
    rw [Nat.mod_eq_of_lt numbered] at field
    refine Eq.trans ?_ field
    simp [Frame.encode]
  have behind : ((Frame.data pn payload).encode ++ rest).drop dataHeaderLen = payload ++ rest := by
    have header : (Frame.data pn payload).encode ++ rest =
        (mtypData :: (u64Bytes pn ++ u32Bytes payload.length)) ++ (payload ++ rest) := by
      simp [Frame.encode]
    have size : (mtypData :: (u64Bytes pn ++ u32Bytes payload.length)).length = dataHeaderLen :=
      rfl
    rw [header, ← size, List.drop_left]
  unfold nextFrame
  rw [if_neg, frameAt, if_pos (data_type pn payload rest), size, number, behind,
    Nat.add_sub_cancel_left, List.take_left,
    ← List.drop_drop, behind, List.drop_left]
  rw [size, length]
  simp only [Frame.encode, List.cons_append, List.isEmpty_cons, Bool.false_eq_true, false_or,
    not_or, dataHeaderLen]
  omega

theorem nextFrame_fin {lastPn : Nat} (valid : (Frame.fin lastPn).Valid) (rest : Bytes) :
    nextFrame ((Frame.fin lastPn).encode ++ rest) = some (.fin lastPn, rest) := by
  have number : u64At ((Frame.fin lastPn).encode ++ rest) 1 = lastPn := by
    have field := u64At_u64Bytes [mtypFin] rest lastPn
    rw [Nat.mod_eq_of_lt valid] at field
    exact field
  have size : needed ((Frame.fin lastPn).encode ++ rest) = finLen := rfl
  have length : ((Frame.fin lastPn).encode ++ rest).length = finLen + rest.length := by
    simp only [Frame.encode, List.cons_append, List.length_cons, List.length_append,
      length_u64Bytes, finLen]
    omega
  have first : frameAt ((Frame.fin lastPn).encode ++ rest) =
      .fin (u64At ((Frame.fin lastPn).encode ++ rest) 1) := rfl
  have behind : ((Frame.fin lastPn).encode ++ rest).drop finLen = rest := by
    have size : (Frame.fin lastPn).encode.length = finLen := rfl
    rw [← size, List.drop_left]
  unfold nextFrame
  rw [if_neg, first, number, size, behind]
  rw [size, length]
  simp only [Frame.encode, List.cons_append, List.isEmpty_cons, Bool.false_eq_true, false_or,
    not_or, finLen]
  omega

theorem nextFrame_encode (frame : Frame) (rest : Bytes) (valid : frame.Valid) :
    nextFrame (frame.encode ++ rest) = some (frame, rest) := by
  cases frame with
  | data pn payload => exact nextFrame_data valid rest
  | fin lastPn => exact nextFrame_fin valid rest
  | unknown mtyp content => exact valid.elim
  | ping => simp [nextFrame, Frame.encode, needed, frameAt, byteAt, mtypPing, mtypData, mtypFin,
      mtypRst]
  | pong => simp [nextFrame, Frame.encode, needed, frameAt, byteAt, mtypPing, mtypPong, mtypData,
      mtypFin, mtypRst]
  | rst => simp [nextFrame, Frame.encode, needed, frameAt, byteAt, mtypRst, mtypData, mtypFin]

theorem encode_length_data (pn : Nat) (payload : Bytes) :
    (Frame.data pn payload).encode.length = dataHeaderLen + payload.length := by
  simp only [Frame.encode, List.length_cons, List.length_append, length_u64Bytes, length_u32Bytes,
    dataHeaderLen]
  omega

/-- A part of a data frame is not taken for a whole one. -/
theorem nextFrame_part_data {pn : Nat} {payload : Bytes} (valid : (Frame.data pn payload).Valid)
    {count : Nat} (part : count < (Frame.data pn payload).encode.length) :
    nextFrame ((Frame.data pn payload).encode.take count) = none := by
  have length : ((Frame.data pn payload).encode.take count).length = count := by
    rw [List.length_take]
    omega
  unfold nextFrame
  rw [if_pos]
  by_cases empty : count = 0
  · exact .inl (by rw [empty]; rfl)
  · have type : byteAt ((Frame.data pn payload).encode.take count) 0 = mtypData := by
      rw [byteAt_take (Nat.pos_of_ne_zero empty)]
      rfl
    by_cases short : count < dataHeaderLen
    · refine .inr (.inl ?_)
      rw [needed, if_pos type, length, if_pos short]
    · refine .inr (.inr ?_)
      have whole := needed_data pn payload []
      rw [List.append_nil, needed, if_pos (show byteAt (Frame.data pn payload).encode 0 = mtypData
        from rfl), if_neg (by rw [encode_length_data]; omega), Nat.mod_eq_of_lt valid.2,
        Nat.add_left_cancel_iff] at whole
      have same : u32At ((Frame.data pn payload).encode.take count) 9 =
          u32At (Frame.data pn payload).encode 9 := by
        unfold dataHeaderLen at short
        unfold u32At u16At
        rw [byteAt_take (by omega), byteAt_take (by omega), byteAt_take (by omega),
          byteAt_take (by omega)]
      rw [needed, if_pos type, length, if_neg short, same, whole, ← encode_length_data pn payload]
      exact part

theorem nextFrame_part_fin {lastPn count : Nat} (part : count < (Frame.fin lastPn).encode.length) :
    nextFrame ((Frame.fin lastPn).encode.take count) = none := by
  have length : ((Frame.fin lastPn).encode.take count).length = count := by
    rw [List.length_take]
    omega
  unfold nextFrame
  rw [if_pos]
  by_cases empty : count = 0
  · exact .inl (by rw [empty]; rfl)
  · have type : byteAt ((Frame.fin lastPn).encode.take count) 0 = mtypFin := by
      rw [byteAt_take (Nat.pos_of_ne_zero empty)]
      rfl
    refine .inr (.inr ?_)
    rw [needed, type, if_neg (by decide), if_pos rfl, length]
    exact part

theorem nextFrame_part (frame : Frame) (bytes : Bytes) (valid : frame.Valid)
    (part : bytes <+: frame.encode) (proper : bytes ≠ frame.encode) : nextFrame bytes = none := by
  have taken := List.prefix_iff_eq_take.mp part
  have shorter : bytes.length < frame.encode.length := by
    refine Nat.lt_of_le_of_ne part.length_le (fun equal => proper ?_)
    exact part.eq_of_length equal
  cases frame with
  | data pn payload =>
    rw [taken]
    exact nextFrame_part_data valid shorter
  | fin lastPn =>
    rw [taken]
    exact nextFrame_part_fin shorter
  | unknown mtyp content => exact valid.elim
  | _ =>
    rw [List.length_eq_zero_iff.mp (Nat.lt_one_iff.mp shorter)]
    rfl

def frames : Framing.Codec Frame UInt8 where
  encode := Frame.encode
  next := nextFrame
  Valid := Frame.Valid
  next_nil := rfl
  next_encode := nextFrame_encode
  next_part := nextFrame_part

end Sail.Protocol.Mptp
