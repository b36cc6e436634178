/-
Computations that may fail.

A sequence of fallible steps succeeds when every step does. The lemmas take such a
sequence apart, one step at a time.
-/

import Mathlib.Data.List.Basic

namespace Sail

universe u

variable {E : Type*} {A B : Type u}

theorem bind_eq_ok {first : Except E A} {next : A → Except E B} {outcome : B} :
    (first >>= next) = .ok outcome ↔ ∃ value, first = .ok value ∧ next value = .ok outcome := by
  cases first with
  | error message =>
    constructor
    · intro failed
      cases failed
    · rintro ⟨value, failed, _⟩
      cases failed
  | ok value =>
    constructor
    · intro succeeded
      exact ⟨value, rfl, succeeded⟩
    · rintro ⟨_, same, succeeded⟩
      cases same
      exact succeeded

/-- A step that only checks, with what comes behind it. -/
theorem check_eq_ok {condition : Prop} [Decidable condition] {message : E}
    {next : PUnit → Except E B} {outcome : B} :
    (if condition then throw message >>= next else next PUnit.unit) = .ok outcome ↔
      ¬condition ∧ next PUnit.unit = .ok outcome := by
  by_cases holds : condition
  · rw [if_pos holds]
    constructor
    · intro failed
      cases failed
    · rintro ⟨absent, _⟩
      exact absurd holds absent
  · rw [if_neg holds]
    constructor
    · intro succeeded
      exact ⟨holds, succeeded⟩
    · rintro ⟨_, succeeded⟩
      exact succeeded

end Sail
