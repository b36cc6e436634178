/-
Finite maps from keys to values.

A keyed map is an association list without repeated keys. The lemmas below say
what each operation does to a lookup, which is all that later proofs use.
-/

import Mathlib.Data.List.AList

namespace Sail

variable {K V : Type*} [DecidableEq K]

abbrev KeyedMap (K V : Type*) : Type _ :=
  AList (fun _ : K => V)

namespace KeyedMap

def modify (key : K) (change : V → V) (map : KeyedMap K V) : KeyedMap K V :=
  match map.lookup key with
  | none => map
  | some value => map.insert key (change value)

def mapValues (change : V → V) (map : KeyedMap K V) : KeyedMap K V :=
  ⟨map.entries.map (.map id (fun _ => change)), map.nodupKeys.map₂ _⟩

def retain (keep : K → V → Bool) (map : KeyedMap K V) : KeyedMap K V :=
  ⟨map.entries.filter (fun entry => keep entry.1 entry.2),
    map.nodupKeys.sublist List.filter_sublist⟩

def toList (map : KeyedMap K V) : List (K × V) :=
  map.entries.map (fun entry => (entry.1, entry.2))

variable (map : KeyedMap K V) (key other : K)

theorem lookup_insert_ite (value : V) :
    (map.insert key value).lookup other =
      if other = key then some value else map.lookup other := by
  by_cases same : other = key
  · subst same
    rw [if_pos rfl, AList.lookup_insert]
  · rw [if_neg same, AList.lookup_insert_ne same]

theorem lookup_erase_ite :
    (map.erase key).lookup other =
      if other = key then none else map.lookup other := by
  by_cases same : other = key
  · subst same
    rw [if_pos rfl, AList.lookup_erase]
  · rw [if_neg same, AList.lookup_erase_ne same]

theorem lookup_modify_ite (change : V → V) :
    (modify key change map).lookup other =
      if other = key then (map.lookup key).map change else map.lookup other := by
  unfold modify
  cases present : map.lookup key with
  | none =>
    by_cases same : other = key
    · subst same
      simp [present]
    · simp [same]
  | some value =>
    rw [lookup_insert_ite]
    rfl

theorem lookup_mapValues (change : V → V) (key : K) :
    (mapValues change map).lookup key = (map.lookup key).map change :=
  List.dlookup_map₂ key

section Every

variable {map} {key other} {value found : V} {holds : K → V → Prop}

theorem lookup_of_erase (present : (map.erase key).lookup other = some found) :
    map.lookup other = some found := by
  rw [lookup_erase_ite] at present
  split_ifs at present
  exact present

theorem every_insert (every : ∀ key value, map.lookup key = some value → holds key value)
    (new : holds key value) :
    ∀ other found, (map.insert key value).lookup other = some found → holds other found := by
  intro other found present
  rw [lookup_insert_ite] at present
  split_ifs at present with same
  · cases present
    rw [same]
    exact new
  · exact every other found present

theorem every_mapValues {change : V → V}
    (changed : ∀ key value, map.lookup key = some value → holds key (change value)) :
    ∀ key value, (mapValues change map).lookup key = some value → holds key value := by
  intro key value present
  rw [lookup_mapValues, Option.map_eq_some_iff] at present
  obtain ⟨before, present, rfl⟩ := present
  exact changed key before present

end Every

theorem mem_toList {map : KeyedMap K V} {key : K} {value : V} :
    (key, value) ∈ map.toList ↔ map.lookup key = some value := by
  rw [← Option.mem_def, AList.mem_lookup_iff, toList, List.mem_map]
  constructor
  · rintro ⟨⟨_, _⟩, member, same⟩
    cases same
    exact member
  · intro member
    exact ⟨⟨key, value⟩, member, rfl⟩

theorem lookup_retain {map : KeyedMap K V} {keep : K → V → Bool} {key : K} {value : V} :
    (map.retain keep).lookup key = some value ↔ map.lookup key = some value ∧ keep key value := by
  rw [← Option.mem_def, ← Option.mem_def, AList.mem_lookup_iff, AList.mem_lookup_iff]
  exact List.mem_filter

omit [DecidableEq K] in
theorem nodup_keys_toList : (map.toList.map Prod.fst).Nodup := by
  have keys := map.keys_nodup
  rw [AList.keys, List.keys] at keys
  rw [toList, List.map_map]
  exact keys

/-! ### How many entries a map has -/

def size (map : KeyedMap K V) : Nat :=
  map.entries.length

theorem size_insert_le (value : V) : size (map.insert key value) ≤ map.size + 1 := by
  have shorter : (List.kerase key map.entries).length ≤ map.entries.length :=
    (List.kerase_sublist key map.entries).length_le
  unfold size
  rw [AList.entries_insert, List.length_cons]
  exact Nat.succ_le_succ shorter

/-- A map whose entries another map has too is no larger. -/
theorem size_le_of_subset {map other : KeyedMap K V}
    (subset : ∀ key value, map.lookup key = some value → other.lookup key = some value) :
    map.size ≤ other.size := by
  have within : map.toList ⊆ other.toList := by
    rintro ⟨key, value⟩ member
    exact mem_toList.mpr (subset key value (mem_toList.mp member))
  have length : ∀ map : KeyedMap K V, map.toList.length = map.size :=
    fun map => List.length_map _
  rw [← length map, ← length other]
  exact (List.subperm_of_subset (List.Nodup.of_map _ map.nodup_keys_toList) within).length_le

end KeyedMap

end Sail
