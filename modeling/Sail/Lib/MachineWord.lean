/-
Machine words as natural numbers.

Sixty-four-bit words are natural numbers up to their largest value. The
saturating operations stop there.
-/

import Mathlib.Data.Nat.Notation

namespace Sail

def u64Max : Nat := 18446744073709551615

def usizeMax : Nat := u64Max

def satAdd (left right : Nat) : Nat :=
  min (left + right) usizeMax

def satMul (left right : Nat) : Nat :=
  min (left * right) usizeMax

def divCeil (value divisor : Nat) : Nat :=
  (value + divisor - 1) / divisor

def wrappingAdd (left right : Nat) : Nat :=
  if left + right ≤ usizeMax then left + right else left + right - (usizeMax + 1)

def wrappingSub (value amount : Nat) : Nat :=
  if amount ≤ value then value - amount else value + (usizeMax + 1) - amount

theorem wrappingAdd_eq {left right : Nat} (inRange : left + right ≤ usizeMax) :
    wrappingAdd left right = left + right :=
  if_pos inRange

theorem wrappingSub_eq {value amount : Nat} (enough : amount ≤ value) :
    wrappingSub value amount = value - amount :=
  if_pos enough

end Sail
