/-
Runs of a machine that takes one event after the other.

The rules say what holds behind a run when every step keeps it, and when every step that
is permitted where it is taken keeps it.
-/

import Mathlib.Data.List.Basic

namespace Sail

variable {S E : Type*}

abbrev Machine (S E : Type*) := S → E → S

namespace Machine

variable (machine : Machine S E)

def run (events : List E) (state : S) : S :=
  events.foldl machine state

def Permits (permitted : S → E → Prop) : List E → S → Prop
  | [], _ => True
  | event :: rest, state => permitted state event ∧ Permits permitted rest (machine state event)

instance decidablePermits {permitted : S → E → Prop}
    [∀ state event, Decidable (permitted state event)] :
    ∀ (events : List E) (state : S), Decidable (machine.Permits permitted events state)
  | [], _ => .isTrue trivial
  | event :: rest, state =>
    have : Decidable (machine.Permits permitted rest (machine state event)) :=
      decidablePermits rest (machine state event)
    inferInstanceAs (Decidable (_ ∧ _))

variable {machine} {permitted : S → E → Prop} {state : S}

theorem run_append (before after : List E) (state : S) :
    machine.run (before ++ after) state = machine.run after (machine.run before state) :=
  List.foldl_append

/-- What permitted steps keep holds behind a permitted run. -/
theorem Permits.invariant {invariant : S → Prop} {events : List E}
    (permits : machine.Permits permitted events state)
    (kept : ∀ state event, permitted state event → invariant state →
      invariant (machine state event))
    (holds : invariant state) : invariant (machine.run events state) := by
  induction events generalizing state with
  | nil => exact holds
  | cons event rest ih => exact ih permits.2 (kept state event permits.1 holds)

/-- A permitted run is permitted up to any of its events, and there. -/
theorem Permits.split {before after : List E} {event : E}
    (permits : machine.Permits permitted (before ++ event :: after) state) :
    machine.Permits permitted before state ∧ permitted (machine.run before state) event := by
  induction before generalizing state with
  | nil => exact ⟨trivial, permits.1⟩
  | cons first rest ih =>
    obtain ⟨onward, there⟩ := ih permits.2
    exact ⟨⟨permits.1, onward⟩, there⟩

theorem Permits.and {also : S → E → Prop} {events : List E}
    (permits : machine.Permits permitted events state) (others : machine.Permits also events state) :
    machine.Permits (fun state event => permitted state event ∧ also state event) events state := by
  induction events generalizing state with
  | nil => trivial
  | cons event rest ih => exact ⟨⟨permits.1, others.1⟩, ih permits.2 others.2⟩

end Machine

end Sail
