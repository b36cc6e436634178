/-
Pending entries with deadlines.

Each entry carries a deadline and the serial number it was added under.
Advancing to a bound hands out the entries due by it, ordered by deadline and
then by serial number, and keeps the rest.
-/

import Mathlib.Data.List.Sort

namespace Sail.DeadlineQueue

variable {α : Type*}

structure Timer (α : Type*) where
  deadline : Nat
  serial : Nat
  value : α
deriving DecidableEq

def Timer.Le (left right : Timer α) : Prop :=
  left.deadline < right.deadline ∨
    (left.deadline = right.deadline ∧ left.serial ≤ right.serial)

instance : DecidableRel (@Timer.Le α) :=
  fun _left _right => inferInstanceAs (Decidable (_ ∨ _))

instance : Std.Total (@Timer.Le α) where
  total left right := by
    unfold Timer.Le
    omega

instance : IsTrans (Timer α) Timer.Le where
  trans first second third := by
    unfold Timer.Le
    omega

/-- Serial numbers are never shared. -/
def Distinct (pending : List (Timer α)) : Prop :=
  (pending.map Timer.serial).Nodup

def due (bound : Nat) (pending : List (Timer α)) : List (Timer α) :=
  (pending.filter (fun timer => timer.deadline ≤ bound)).insertionSort Timer.Le

def remaining (bound : Nat) (pending : List (Timer α)) : List (Timer α) :=
  pending.filter (fun timer => bound < timer.deadline)

variable {pending : List (Timer α)}

theorem Distinct.eq_of_serial_eq (distinct : Distinct pending) {left right : Timer α}
    (leftMem : left ∈ pending) (rightMem : right ∈ pending) (same : left.serial = right.serial) :
    left = right :=
  List.inj_on_of_nodup_map distinct leftMem rightMem same

theorem Distinct.nodup (distinct : Distinct pending) : pending.Nodup :=
  List.Nodup.of_map _ distinct

theorem Distinct.filter (distinct : Distinct pending) (keep : Timer α → Bool) :
    Distinct (pending.filter keep) :=
  distinct.sublist (List.filter_sublist.map Timer.serial)

@[simp] theorem mem_due {bound : Nat} {pending : List (Timer α)} {timer : Timer α} :
    timer ∈ due bound pending ↔ timer ∈ pending ∧ timer.deadline ≤ bound := by
  simp [due]

@[simp] theorem mem_remaining {bound : Nat} {pending : List (Timer α)} {timer : Timer α} :
    timer ∈ remaining bound pending ↔ timer ∈ pending ∧ bound < timer.deadline := by
  simp [remaining]

theorem pairwise_due (bound : Nat) (pending : List (Timer α)) :
    (due bound pending).Pairwise Timer.Le :=
  List.pairwise_insertionSort Timer.Le _

theorem due_perm (bound : Nat) (pending : List (Timer α)) :
    (due bound pending).Perm (pending.filter (fun timer => timer.deadline ≤ bound)) :=
  List.perm_insertionSort Timer.Le _

theorem Distinct.due_nodup (distinct : Distinct pending) (bound : Nat) :
    (due bound pending).Nodup :=
  (due_perm bound pending).nodup_iff.mpr (distinct.filter _).nodup

/-- With distinct serial numbers the due list is the only ordered list without
repetition that holds exactly the due entries. -/
theorem Distinct.eq_due (distinct : Distinct pending) {bound : Nat} {listed : List (Timer α)}
    (members : ∀ timer, timer ∈ listed ↔ timer ∈ pending ∧ timer.deadline ≤ bound)
    (nodup : listed.Nodup) (ordered : listed.Pairwise Timer.Le) :
    listed = due bound pending := by
  have perm : listed.Perm (due bound pending) := by
    rw [List.perm_ext_iff_of_nodup nodup (distinct.due_nodup bound)]
    intro timer
    rw [members, mem_due]
  refine perm.eq_of_pairwise ?_ ordered (pairwise_due bound pending)
  intro left right leftMem rightMem forward backward
  have leftPending := ((members left).mp leftMem).1
  have rightPending := (mem_due.mp rightMem).1
  refine distinct.eq_of_serial_eq leftPending rightPending ?_
  unfold Timer.Le at forward backward
  omega

/-- Advancing in two steps hands out the same entries in the same order as
advancing at once. -/
theorem Distinct.due_split (distinct : Distinct pending) {first second : Nat}
    (forward : first ≤ second) :
    due first pending ++ due second (remaining first pending) = due second pending := by
  refine distinct.eq_due ?_ ?_ ?_
  · intro timer
    simp only [List.mem_append, mem_due, mem_remaining]
    constructor
    · rintro (⟨member, early⟩ | ⟨⟨member, _late⟩, early⟩)
      · exact ⟨member, early.trans forward⟩
      · exact ⟨member, early⟩
    · rintro ⟨member, early⟩
      by_cases now : timer.deadline ≤ first
      · exact Or.inl ⟨member, now⟩
      · exact Or.inr ⟨⟨member, by omega⟩, early⟩
  · refine List.Nodup.append (distinct.due_nodup first)
      ((distinct.filter _).due_nodup second) ?_
    intro timer early late
    have dueFirst := (mem_due.mp early).2
    have keptFirst := (mem_remaining.mp (mem_due.mp late).1).2
    omega
  · refine List.pairwise_append.mpr ⟨pairwise_due _ _, pairwise_due _ _, ?_⟩
    intro left leftMem right rightMem
    have leftDue := (mem_due.mp leftMem).2
    have rightKept := (mem_remaining.mp (mem_due.mp rightMem).1).2
    exact Or.inl (by omega)

theorem remaining_remaining {first second : Nat} (forward : first ≤ second) :
    remaining second (remaining first pending) = remaining second pending := by
  simp only [remaining, List.filter_filter]
  refine List.filter_congr ?_
  intro timer _member
  rw [← Bool.decide_and, decide_eq_decide]
  omega

end Sail.DeadlineQueue
