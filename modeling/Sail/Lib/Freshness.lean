/-
What was accepted once is not accepted again.

A recorder remembers a key for a while behind the moment it was stamped with. Two
acceptances under one key are then at least that while apart, and a timestamp that is
good for less than that is good only once.
-/

import Mathlib.Data.List.Pairwise

namespace Sail

/-! ### Clocks

Instants count nanoseconds. The wall clock runs with them and is read in whole seconds. -/

def second : Nat := 1000000000

/-- What the wall clock shows at an instant, `epoch` being what it showed at the first. -/
def wholeSeconds (epoch instant : Nat) : Nat :=
  (epoch + instant) / second

def absDiff (left right : Nat) : Nat :=
  (left - right) + (right - left)

/-- Readings that are at most `behind` apart in whole seconds, less `slack`, are less than
a second more apart. -/
theorem reading_lt {epoch first last slack behind : Nat}
    (within : wholeSeconds epoch last + slack ≤ wholeSeconds epoch first + behind) :
    last + slack * second < first + (behind + 1) * second := by
  have below : wholeSeconds epoch last + slack < wholeSeconds epoch first + (behind + 1) := by
    omega
  have positive : 0 < second := by decide
  unfold wholeSeconds at below
  rw [← Nat.add_mul_div_right _ _ positive, ← Nat.add_mul_div_right _ _ positive] at below
  have early := Nat.lt_of_div_lt_div below
  omega

/-! ### Recorders -/

variable {S C A K : Type*}

/-- A call leaves a state behind, and what it was accepted as if it was. -/
abbrev Recorder (S C A : Type*) := S → C → S × Option A

namespace Recorder

variable (recorder : Recorder S C A)

def accepted : List C → S → List (C × A)
  | [], _ => []
  | call :: rest, state =>
    match (recorder state call).2 with
    | none => accepted rest (recorder state call).1
    | some outcome => (call, outcome) :: accepted rest (recorder state call).1

def run (calls : List C) (state : S) : S :=
  calls.foldl (fun state call => (recorder state call).1) state

def Permits (permitted : S → C → Prop) : List C → S → Prop
  | [], _ => True
  | call :: rest, state =>
    permitted state call ∧ Permits permitted rest (recorder state call).1

instance decidablePermits {permitted : S → C → Prop}
    [∀ state call, Decidable (permitted state call)] :
    ∀ (calls : List C) (state : S), Decidable (recorder.Permits permitted calls state)
  | [], _ => .isTrue trivial
  | call :: rest, state =>
    have : Decidable (recorder.Permits permitted rest (recorder state call).1) :=
      decidablePermits rest (recorder state call).1
    inferInstanceAs (Decidable (_ ∧ _))

theorem accepted_cons (call : C) (rest : List C) (state : S) :
    recorder.accepted (call :: rest) state =
      ((recorder state call).2.map (call, ·)).toList ++
        recorder.accepted rest (recorder state call).1 := by
  rw [accepted]
  cases (recorder state call).2 with
  | none => rfl
  | some outcome => rfl

variable {entry : C × A} {state : S}

theorem mem_accepted_cons {call : C} {rest : List C} :
    entry ∈ recorder.accepted (call :: rest) state ↔
      (∃ outcome, (recorder state call).2 = some outcome ∧ (call, outcome) = entry) ∨
        entry ∈ recorder.accepted rest (recorder state call).1 := by
  rw [accepted_cons, List.mem_append, Option.mem_toList, Option.map_eq_some_iff]

theorem mem_of_accepted {calls : List C} (member : entry ∈ recorder.accepted calls state) :
    entry.1 ∈ calls := by
  induction calls generalizing state with
  | nil => cases member
  | cons call rest ih =>
    rcases recorder.mem_accepted_cons.mp member with ⟨outcome, _, rfl⟩ | later
    · exact List.mem_cons_self
    · exact List.mem_cons_of_mem _ (ih later)

/-- What was accepted was accepted by a call in some state. -/
theorem taken_of_accepted {calls : List C} (member : entry ∈ recorder.accepted calls state) :
    ∃ state, (recorder state entry.1).2 = some entry.2 := by
  induction calls generalizing state with
  | nil => cases member
  | cons call rest ih =>
    rcases recorder.mem_accepted_cons.mp member with ⟨outcome, taken, rfl⟩ | later
    · exact ⟨state, taken⟩
    · exact ih later

/-- A recorder remembers a key until its clock is `ttl` past the key's stamp. `Fit` is
what is known of a state and the calls still to come. -/
structure Remembers (key : C × A → K) (stamp : C × A → Nat) (clock : C → Nat) (ttl : Nat)
    (Fit : S → List C → Prop) (Knows : S → K → Nat → Prop) : Prop where
  onward : ∀ {state call rest}, Fit state (call :: rest) → Fit (recorder state call).1 rest
  ordered : ∀ {state call rest}, Fit state (call :: rest) → ∀ later ∈ rest, clock call ≤ clock later
  learns : ∀ {state call rest outcome}, Fit state (call :: rest) →
    (recorder state call).2 = some outcome →
    Knows (recorder state call).1 (key (call, outcome)) (stamp (call, outcome))
  keeps : ∀ {state call rest name time}, Fit state (call :: rest) → Knows state name time →
    clock call < time + ttl → Knows (recorder state call).1 name time
  refuses : ∀ {state call rest name time outcome}, Fit state (call :: rest) →
    Knows state name time → clock call < time + ttl → (recorder state call).2 = some outcome →
    key (call, outcome) ≠ name

namespace Remembers

variable {recorder} {key : C × A → K} {stamp : C × A → Nat} {clock : C → Nat} {ttl : Nat}
  {Fit : S → List C → Prop} {Knows : S → K → Nat → Prop}

variable {calls : List C} {state : S}

section

variable (remembers : recorder.Remembers key stamp clock ttl Fit Knows) (fit : Fit state calls)

include remembers fit

/-- While a key is known, no call is accepted under it. -/
theorem accepted_late {name : K} {time : Nat} (known : Knows state name time) :
    ∀ entry ∈ recorder.accepted calls state, key entry = name → time + ttl ≤ clock entry.1 := by
  induction calls generalizing state with
  | nil =>
    intro entry member
    cases member
  | cons call rest ih =>
    intro entry member same
    by_cases early : clock call < time + ttl
    · rcases recorder.mem_accepted_cons.mp member with ⟨outcome, taken, rfl⟩ | later
      · exact absurd same (remembers.refuses fit known early taken)
      · exact ih (remembers.onward fit) (remembers.keeps fit known early) entry later same
    · have called := recorder.mem_of_accepted member
      rcases List.mem_cons.mp called with here | later
      · rw [here]
        exact Nat.le_of_not_lt early
      · exact Nat.le_trans (Nat.le_of_not_lt early) (remembers.ordered fit _ later)

/-- Two calls accepted under one key are at least the remembered time apart. -/
theorem accepted_apart :
    (recorder.accepted calls state).Pairwise (fun first last =>
      key last = key first → stamp first + ttl ≤ clock last.1) := by
  induction calls generalizing state with
  | nil => exact .nil
  | cons call rest ih =>
    have onward := ih (remembers.onward fit)
    cases taken : (recorder state call).2 with
    | none =>
      rw [accepted_cons, taken]
      exact onward
    | some outcome =>
      rw [accepted_cons, taken]
      refine .cons ?_ onward
      intro entry member
      exact remembers.accepted_late (remembers.onward fit) (remembers.learns fit taken) entry member

theorem fit_run : Fit (recorder.run calls state) [] := by
  induction calls generalizing state with
  | nil => exact fit
  | cons call rest ih => exact ih (remembers.onward fit)

theorem knows_run {name : K} {time : Nat} (known : Knows state name time)
    (early : ∀ call ∈ calls, clock call < time + ttl) :
    Knows (recorder.run calls state) name time := by
  induction calls generalizing state with
  | nil => exact known
  | cons call rest ih =>
    exact ih (remembers.onward fit)
      (remembers.keeps fit known (early call List.mem_cons_self))
      (List.forall_mem_cons.mp early).2

/-- What a run accepted is known behind it, unless its time has passed. -/
theorem knows_accepted :
    ∀ entry ∈ recorder.accepted calls state, (∀ call ∈ calls, clock call < stamp entry + ttl) →
      Knows (recorder.run calls state) (key entry) (stamp entry) := by
  induction calls generalizing state with
  | nil =>
    intro entry member
    cases member
  | cons call rest ih =>
    intro entry member early
    have onward := remembers.onward fit
    have later := fun after inRest => early after (List.mem_cons_of_mem call inRest)
    rcases recorder.mem_accepted_cons.mp member with ⟨outcome, taken, rfl⟩ | after
    · exact remembers.knows_run onward (remembers.learns fit taken) later
    · exact ih onward entry after later

end

end Remembers

end Recorder

end Sail
