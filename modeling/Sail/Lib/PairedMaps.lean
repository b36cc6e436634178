/-
Two maps inverse to each other.

One map takes a name to a number, the other an address to a name. A numbering says
which addresses are meant, and numbers them one to one.
-/

import Sail.Lib.KeyedMap

namespace Sail

variable {A N D : Type*} [DecidableEq A] [DecidableEq D]

structure Numbering (A N : Type*) where
  mine : A → Prop
  number : A → N
  injective : ∀ {first second}, mine first → mine second → number first = number second →
    first = second

structure Paired (numbering : Numbering A N) (forward : KeyedMap D N) (back : KeyedMap A D) :
    Prop where
  inverse : ∀ name address, numbering.mine address →
    (forward.lookup name = some (numbering.number address) ↔ back.lookup address = some name)
  numbered : ∀ name number, forward.lookup name = some number →
    ∃ address, numbering.mine address ∧ numbering.number address = number

namespace Paired

variable {numbering : Numbering A N} {forward : KeyedMap D N} {back : KeyedMap A D}

theorem empty (unnamed : ∀ address, numbering.mine address → back.lookup address = none) :
    Paired numbering (∅ : KeyedMap D N) back := by
  refine ⟨fun name address own => ?_, nofun⟩
  rw [unnamed address own]
  exact ⟨nofun, nofun⟩

/-- No two names have one number. -/
theorem unique (paired : Paired numbering forward back) {first second : D} {number : N}
    (left : forward.lookup first = some number) (right : forward.lookup second = some number) :
    first = second := by
  obtain ⟨address, own, rfl⟩ := paired.numbered first number left
  rw [paired.inverse _ _ own] at left right
  rw [left] at right
  exact Option.some.inj right

/-- A name and its address go together. -/
theorem forget (paired : Paired numbering forward back) {name : D} {address : A}
    (own : numbering.mine address) (has : forward.lookup name = some (numbering.number address)) :
    Paired numbering (forward.erase name) (back.erase address) := by
  refine ⟨fun other place here => ?_, fun other number lookup => ?_⟩
  · rw [KeyedMap.lookup_erase_ite, KeyedMap.lookup_erase_ite]
    by_cases sameName : other = name
    · subst sameName
      rw [if_pos rfl]
      refine ⟨nofun, fun lookup => ?_⟩
      split_ifs at lookup with same
      have both := (paired.inverse other place here).mpr lookup
      rw [has] at both
      exact absurd (numbering.injective own here (Option.some.inj both)).symm same
    · rw [if_neg sameName]
      by_cases same : place = address
      · subst same
        rw [if_pos rfl]
        refine ⟨fun lookup => absurd (paired.unique lookup has) sameName, ?_⟩
        exact nofun
      · rw [if_neg same]
        exact paired.inverse other place here
  · exact paired.numbered other number (KeyedMap.lookup_of_erase lookup)

/-- A new name gets an address that has none. -/
theorem insert (paired : Paired numbering forward back) {name : D} {address : A}
    (own : numbering.mine address) (unnamed : back.lookup address = none)
    (fresh : forward.lookup name = none) :
    Paired numbering (forward.insert name (numbering.number address))
      (back.insert address name) := by
  refine ⟨fun other place here => ?_, fun other number lookup => ?_⟩
  · rw [KeyedMap.lookup_insert_ite, KeyedMap.lookup_insert_ite]
    by_cases same : place = address
    · subst same
      rw [if_pos rfl]
      by_cases sameName : other = name
      · rw [if_pos sameName, sameName]
        exact ⟨fun _ => rfl, fun _ => rfl⟩
      · rw [if_neg sameName, paired.inverse other place here, unnamed]
        exact ⟨nofun,
          fun equal => absurd (Option.some.inj equal).symm sameName⟩
    · rw [if_neg same]
      by_cases sameName : other = name
      · rw [if_pos sameName, ← paired.inverse other place here, sameName, fresh]
        refine ⟨fun equal => ?_, nofun⟩
        exact absurd (numbering.injective own here (Option.some.inj equal)).symm same
      · rw [if_neg sameName]
        exact paired.inverse other place here
  · rw [KeyedMap.lookup_insert_ite] at lookup
    split_ifs at lookup
    · cases lookup
      exact ⟨address, own, rfl⟩
    · exact paired.numbered other number lookup

/-- Only what is looked up matters, and addresses of another kind do not. -/
theorem congr (paired : Paired numbering forward back) {forward' : KeyedMap D N}
    {back' : KeyedMap A D} (sameForward : ∀ name, forward'.lookup name = forward.lookup name)
    (sameBack : ∀ address, numbering.mine address → back'.lookup address = back.lookup address) :
    Paired numbering forward' back' := by
  refine ⟨fun name address own => ?_, fun name number lookup => ?_⟩
  · rw [sameForward, sameBack address own]
    exact paired.inverse name address own
  · rw [sameForward] at lookup
    exact paired.numbered name number lookup

/-- There are no more addresses with a name than names. -/
theorem addresses_le [DecidablePred numbering.mine] (paired : Paired numbering forward back) :
    (back.toList.filter (fun entry => decide (numbering.mine entry.1))).length ≤ forward.size := by
  let swap : A × D → D × N := fun entry => (entry.2, numbering.number entry.1)
  have named : ∀ entry ∈ back.toList.filter (fun entry => decide (numbering.mine entry.1)),
      numbering.mine entry.1 ∧ back.lookup entry.1 = some entry.2 := by
    intro entry member
    obtain ⟨member, own⟩ := List.mem_filter.mp member
    exact ⟨of_decide_eq_true own, KeyedMap.mem_toList.mp member⟩
  have distinct : ((back.toList.filter (fun entry => decide (numbering.mine entry.1))).map
      swap).Nodup := by
    refine List.Nodup.map_on ?_ ((List.Nodup.of_map _ back.nodup_keys_toList).filter _)
    intro first left second right same
    obtain ⟨firstName, firstNumber⟩ := Prod.mk.inj same
    exact Prod.ext (numbering.injective (named first left).1 (named second right).1 firstNumber)
      firstName
  have within : (back.toList.filter (fun entry => decide (numbering.mine entry.1))).map swap ⊆
      forward.toList := by
    intro pair member
    obtain ⟨entry, inside, rfl⟩ := List.mem_map.mp member
    exact KeyedMap.mem_toList.mpr
      ((paired.inverse _ _ (named entry inside).1).mpr (named entry inside).2)
  have size : forward.toList.length = forward.size := List.length_map _
  rw [← size, ← List.length_map swap]
  exact (List.subperm_of_subset distinct within).length_le

end Paired

end Sail
