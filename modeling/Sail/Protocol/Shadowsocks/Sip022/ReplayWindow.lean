/-
The packet IDs seen in one UDP session, after `protocol/shadowsocks/sip022/mod.rs`.

A ring of bits remembers the IDs up to its width behind the highest one seen. An ID is
checked before its packet is authenticated and recorded only after.
-/

import Sail.Lib.BitRing

namespace Sail.Protocol.Shadowsocks.Sip022

def windowBits : Nat := 2048

def windowWords : Nat := windowBits / 64

instance : NeZero windowWords := ⟨by decide⟩

structure ReplayWindow where
  last : Option Nat
  bits : BitRing 64 windowWords
deriving DecidableEq

namespace ReplayWindow

def new : ReplayWindow :=
  { last := none, bits := Vector.replicate windowWords 0 }

def check (window : ReplayWindow) (id : Nat) : Bool :=
  match window.last with
  | none => true
  | some last =>
    if last < id then true
    else if windowBits ≤ last - id then false
    else !window.bits.bit id

def advance (window : ReplayWindow) (id : Nat) : ReplayWindow :=
  match window.last with
  | none => { last := some id, bits := Vector.replicate windowWords 0 }
  | some last =>
    if id ≤ last then window
    else if id - last < windowBits then
      { last := some id, bits := window.bits.clearFrom (last + 1) (id - last) }
    else { last := some id, bits := Vector.replicate windowWords 0 }

def add (window : ReplayWindow) (id : Nat) : ReplayWindow :=
  let window := window.advance id
  { window with bits := window.bits.mark id }

/-! ### What a window knows -/

/-- A window holds an ID if the ID has left it behind, or its bit is set. -/
def Holds (window : ReplayWindow) (id : Nat) : Prop :=
  ∃ last, window.last = some last ∧ id ≤ last ∧
    (last - id < windowBits → window.bits.bit id = true)

variable {window : ReplayWindow} {id other : Nat}

theorem check_of_holds (holds : window.Holds id) : window.check id = false := by
  obtain ⟨last, isLast, below, bit⟩ := holds
  unfold check
  rw [isLast]
  dsimp only
  rw [if_neg (Nat.not_lt.mpr below)]
  split
  · rfl
  · rename_i near
    rw [bit (Nat.lt_of_not_le near)]
    rfl

theorem holds_add (window : ReplayWindow) (id : Nat) : (window.add id).Holds id := by
  have marked : ∀ bits : BitRing 64 windowWords, (bits.mark id).bit id = true :=
    fun bits => (BitRing.bit_mark_iff (by decide) id id).mpr (.inl rfl)
  unfold add advance
  cases isLast : window.last with
  | none => exact ⟨id, rfl, Nat.le_refl id, fun _ => marked _⟩
  | some last =>
    dsimp only
    split
    · rename_i below
      exact ⟨last, isLast, below, fun _ => marked _⟩
    · split
      · exact ⟨id, rfl, Nat.le_refl id, fun _ => marked _⟩
      · exact ⟨id, rfl, Nat.le_refl id, fun _ => marked _⟩

/-- What a window holds it holds behind every new ID. -/
theorem Holds.add (holds : window.Holds id) (other : Nat) : (window.add other).Holds id := by
  obtain ⟨last, isLast, below, bit⟩ := holds
  have size : 64 * windowWords = windowBits := by decide
  unfold ReplayWindow.add ReplayWindow.advance
  rw [isLast]
  dsimp only
  split
  · refine ⟨last, isLast, below, fun near => ?_⟩
    exact (BitRing.bit_mark_iff (by decide) other id).mpr (.inr (bit near))
  · rename_i above
    split
    · rename_i close
      refine ⟨other, rfl, by omega, fun near => ?_⟩
      apply (BitRing.bit_mark_iff (by decide) other id).mpr
      refine .inr ((BitRing.bit_clearFrom_iff (by decide) _ _ _).mpr ⟨?_, bit (by omega)⟩)
      intro step inside
      rw [size]
      exact BitRing.apart_of_span (by omega) (by omega)
    · exact ⟨other, rfl, by omega, fun near => by omega⟩

end ReplayWindow

end Sail.Protocol.Shadowsocks.Sip022
