/-
Counters shared between threads.

A memory holds one sixty-four-bit counter in each cell. A thread works on it by
single atomic operations; a weak compare-and-exchange may fail although the
value is the expected one.
-/

import Mathlib.Logic.Function.Basic
import Mathlib.Tactic.SplitIfs
import Sail.Lib.MachineWord

namespace Sail.SharedCounters

variable {Cell : Type*} [DecidableEq Cell]

abbrev Memory (Cell : Type*) : Type _ :=
  Cell → Nat

inductive Atomic (Cell : Type*) where
  | load (cell : Cell)
  | compareExchangeWeak (cell : Cell) (current next : Nat)
  | fetchSub (cell : Cell) (amount : Nat)
  | fetchMax (cell : Cell) (value : Nat)

def Atomic.cell : Atomic Cell → Cell
  | .load cell => cell
  | .compareExchangeWeak cell _ _ => cell
  | .fetchSub cell _ => cell
  | .fetchMax cell _ => cell

inductive Observed where
  | value (value : Nat)
  | exchanged
  | conflict (value : Nat)

def perform (memory : Memory Cell) (spurious : Bool) : Atomic Cell → Observed × Memory Cell
  | .load cell => (.value (memory cell), memory)
  | .compareExchangeWeak cell current next =>
    if memory cell = current ∧ spurious = false then
      (.exchanged, Function.update memory cell next)
    else (.conflict (memory cell), memory)
  | .fetchSub cell amount =>
    (.value (memory cell), Function.update memory cell (wrappingSub (memory cell) amount))
  | .fetchMax cell value =>
    (.value (memory cell), Function.update memory cell (max (memory cell) value))

theorem perform_compareExchangeWeak (memory : Memory Cell) (spurious : Bool) (cell : Cell)
    (current next : Nat) :
    perform memory spurious (.compareExchangeWeak cell current next) =
      if memory cell = current ∧ spurious = false then
        (.exchanged, Function.update memory cell next)
      else (.conflict (memory cell), memory) :=
  rfl

theorem perform_of_ne (memory : Memory Cell) (spurious : Bool) {atomic : Atomic Cell}
    {other : Cell} (apart : other ≠ atomic.cell) :
    (perform memory spurious atomic).2 other = memory other := by
  cases atomic with
  | load cell => rfl
  | compareExchangeWeak cell current next =>
    rw [perform_compareExchangeWeak]
    split_ifs
    · exact Function.update_of_ne apart _ _
    · rfl
  | fetchSub _ _ | fetchMax _ _ => exact Function.update_of_ne apart _ _

end Sail.SharedCounters
