/-
Frames written one behind the other as bytes.

A codec writes a frame as bytes and reads the first whole frame of a byte string
back. Whatever part of a sequence of frames has arrived, reading it frame by
frame gives those frames in order, and stops in front of the one that is not
whole yet.
-/

import Mathlib.Data.List.Basic

namespace Sail.Framing

variable {Frame Byte : Type*}

/-- A codec reads back the frames it is meant for, and never a part of one. -/
structure Codec (Frame Byte : Type*) where
  encode : Frame → List Byte
  next : List Byte → Option (Frame × List Byte)
  Valid : Frame → Prop
  next_nil : next [] = none
  next_encode : ∀ frame rest, Valid frame → next (encode frame ++ rest) = some (frame, rest)
  next_part : ∀ frame bytes, Valid frame → bytes <+: encode frame → bytes ≠ encode frame →
    next bytes = none

namespace Codec

variable (codec : Codec Frame Byte)

def encodeAll (frames : List Frame) : List Byte :=
  frames.flatMap codec.encode

@[simp] theorem encodeAll_nil : codec.encodeAll [] = [] :=
  rfl

@[simp] theorem encodeAll_cons (frame : Frame) (frames : List Frame) :
    codec.encodeAll (frame :: frames) = codec.encode frame ++ codec.encodeAll frames :=
  rfl

@[simp] theorem encodeAll_append (first second : List Frame) :
    codec.encodeAll (first ++ second) = codec.encodeAll first ++ codec.encodeAll second :=
  List.flatMap_append

/-- Of the part of a sequence that has arrived, the first frame is read, or it is
not whole. -/
theorem next_of_prefix {frames : List Frame} (valid : ∀ frame ∈ frames, codec.Valid frame)
    {bytes : List Byte} (arrived : bytes <+: codec.encodeAll frames) :
    codec.next bytes = none ∨
      ∃ frame later rest, frames = frame :: later ∧ codec.next bytes = some (frame, rest) ∧
        bytes = codec.encode frame ++ rest ∧ rest <+: codec.encodeAll later := by
  cases frames with
  | nil =>
    rw [encodeAll_nil] at arrived
    rw [List.prefix_nil.mp arrived]
    exact .inl codec.next_nil
  | cons frame later =>
    have isValid := valid frame List.mem_cons_self
    rw [encodeAll_cons] at arrived
    rcases List.prefix_or_prefix_of_prefix arrived (List.prefix_append _ _) with part | whole
    · by_cases all : bytes = codec.encode frame
      · refine .inr ⟨frame, later, [], rfl, ?_, by rw [all, List.append_nil], List.nil_prefix⟩
        have read := codec.next_encode frame [] isValid
        rw [List.append_nil] at read
        rw [all, read]
      · exact .inl (codec.next_part frame bytes isValid part all)
    · obtain ⟨rest, rfl⟩ := whole
      refine .inr ⟨frame, later, rest, rfl, codec.next_encode frame rest isValid, rfl, ?_⟩
      exact (List.prefix_append_right_inj _).mp arrived

/-- A string that begins with a whole frame is not read as incomplete. -/
theorem next_ne_none {frames : List Frame} (valid : ∀ frame ∈ frames, codec.Valid frame)
    (several : frames ≠ []) {bytes : List Byte} (whole : codec.encodeAll frames <+: bytes) :
    codec.next bytes ≠ none := by
  cases frames with
  | nil => exact absurd rfl several
  | cons frame later =>
    obtain ⟨rest, rfl⟩ := whole
    rw [encodeAll_cons, List.append_assoc,
      codec.next_encode frame _ (valid frame List.mem_cons_self)]
    exact Option.some_ne_none _

end Codec

end Sail.Framing
