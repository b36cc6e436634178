/-
Sums of weights over a list.

A tally adds up what each item of a list weighs. The lemmas say how replacing,
removing or adding one item changes it.
-/

import Mathlib

namespace Sail

variable {α β : Type*}

def tally (weight : α → Nat) (items : List α) : Nat :=
  (items.map weight).sum

variable (weight : α → Nat)

@[simp] theorem tally_nil : tally weight [] = 0 :=
  rfl

@[simp] theorem tally_cons (item : α) (items : List α) :
    tally weight (item :: items) = weight item + tally weight items := by
  rw [tally, List.map_cons, List.sum_cons, tally]

@[simp] theorem tally_append (front back : List α) :
    tally weight (front ++ back) = tally weight front + tally weight back := by
  rw [tally, List.map_append, List.sum_append, tally, tally]

theorem tally_add (first second : α → Nat) (items : List α) :
    tally (fun item => first item + second item) items = tally first items + tally second items :=
  List.sum_map_add

theorem tally_one (items : List α) : tally (fun _ => 1) items = items.length := by
  induction items with
  | nil => rfl
  | cons head rest ih => rw [tally_cons, ih, List.length_cons, Nat.add_comm]

variable {items : List α}

theorem tally_split {index : Nat} (inside : index < items.length) :
    tally weight items = tally weight (items.take index) + weight items[index] +
      tally weight (items.drop (index + 1)) := by
  conv_lhs => rw [← List.take_append_drop index items, List.drop_eq_getElem_cons inside]
  rw [tally_append, tally_cons, Nat.add_assoc]

/-- Replacing an item changes the tally by the difference of the weights. -/
theorem tally_set {index : Nat} {old : α} (present : items[index]? = some old) (new : α) :
    tally weight (items.set index new) + weight old = tally weight items + weight new := by
  obtain ⟨inside, rfl⟩ := List.getElem?_eq_some_iff.mp present
  have parts := tally_split weight inside
  rw [List.set_eq_take_append_cons_drop, if_pos inside, tally_append, tally_cons]
  omega

theorem tally_eraseIdx {index : Nat} {old : α} (present : items[index]? = some old) :
    tally weight (items.eraseIdx index) + weight old = tally weight items := by
  obtain ⟨inside, rfl⟩ := List.getElem?_eq_some_iff.mp present
  have parts := tally_split weight inside
  rw [List.eraseIdx_eq_take_drop_succ, tally_append]
  omega

theorem le_tally {item : α} (member : item ∈ items) :
    weight item ≤ tally weight items :=
  List.le_sum_of_mem (List.mem_map_of_mem member)

variable {weight : α → Nat}

theorem tally_le_tally {other : α → Nat} (bounded : ∀ item ∈ items, weight item ≤ other item) :
    tally weight items ≤ tally other items :=
  List.sum_le_sum bounded

theorem tally_eq_zero (nothing : ∀ item ∈ items, weight item = 0) : tally weight items = 0 := by
  induction items with
  | nil => rfl
  | cons head rest ih =>
    rw [tally_cons, nothing head List.mem_cons_self,
      ih (List.forall_mem_cons.mp nothing).2]

theorem tally_filter (keep : α → Bool) (items : List α) :
    tally weight (items.filter keep) =
      tally (fun item => if keep item then weight item else 0) items := by
  induction items with
  | nil => rfl
  | cons head rest ih =>
    rw [List.filter_cons, tally_cons]
    split_ifs
    · rw [tally_cons, ih]
    · rw [ih, Nat.zero_add]

/-- Adding up several tallies is tallying the added weights. -/
theorem tally_tally (weight : β → α → Nat) (keys : List β) (items : List α) :
    tally (fun key => tally (weight key) items) keys =
      tally (fun item => tally (fun key => weight key item) keys) items := by
  induction items with
  | nil => exact tally_eq_zero (fun _ _ => rfl)
  | cons head rest ih =>
    rw [tally_cons, ← ih]
    simp only [tally_cons]
    exact tally_add _ _ keys

theorem tally_congr {other : α → Nat} (same : ∀ item ∈ items, weight item = other item) :
    tally weight items = tally other items := by
  rw [tally, tally, List.map_congr_left same]

theorem tally_map (weight : β → Nat) (change : α → β) (items : List α) :
    tally weight (items.map change) = tally (fun item => weight (change item)) items := by
  rw [tally, tally, List.map_map]
  rfl

/-- Two lists without repetition that both hold everything of nonzero weight
weigh the same. -/
theorem tally_eq_of_support [DecidableEq α] {first second : List α} (firstNodup : first.Nodup)
    (secondNodup : second.Nodup) (inFirst : ∀ item, weight item ≠ 0 → item ∈ first)
    (inSecond : ∀ item, weight item ≠ 0 → item ∈ second) :
    tally weight first = tally weight second := by
  have heavy : ∀ items : List α,
      tally weight items = tally weight (items.filter (fun item => weight item ≠ 0)) := by
    intro items
    rw [tally_filter]
    refine tally_congr (fun item _ => ?_)
    by_cases zero : weight item = 0
    · simp [zero]
    · simp [zero]
  have same : (first.filter (fun item => weight item ≠ 0)).Perm
      (second.filter (fun item => weight item ≠ 0)) := by
    refine (List.perm_ext_iff_of_nodup (firstNodup.filter _) (secondNodup.filter _)).mpr ?_
    intro item
    rw [List.mem_filter, List.mem_filter, decide_eq_true_eq]
    exact ⟨fun kept => ⟨inSecond item kept.2, kept.2⟩, fun kept => ⟨inFirst item kept.2, kept.2⟩⟩
  rw [heavy first, heavy second]
  exact (same.map weight).sum_eq

end Sail
