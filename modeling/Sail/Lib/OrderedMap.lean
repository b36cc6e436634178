/-
Finite maps kept in ascending order of their keys.

The entries are a list whose keys ascend strictly, so that walking the map
visits the keys in order and the first entry has the least key.
-/

import Mathlib

namespace Sail

variable {K V : Type*} [LinearOrder K]

structure OrderedMap (K V : Type*) [LinearOrder K] where
  entries : List (K × V)
  ascending : entries.Pairwise (fun left right => left.1 < right.1)

variable {entries : List (K × V)}

namespace OrderedMap

def empty : OrderedMap K V :=
  { entries := [], ascending := List.Pairwise.nil }

def insertEntry (key : K) (value : V) : List (K × V) → List (K × V)
  | [] => [(key, value)]
  | entry :: rest =>
    if key < entry.1 then (key, value) :: entry :: rest
    else if entry.1 < key then entry :: insertEntry key value rest
    else (key, value) :: rest

theorem mem_insertEntry {key : K} {value : V} {entry : K × V}
    (member : entry ∈ insertEntry key value entries) : entry = (key, value) ∨ entry ∈ entries := by
  induction entries with
  | nil =>
    exact Or.inl (List.mem_singleton.mp member)
  | cons head rest ih =>
    unfold insertEntry at member
    split_ifs at member with below above
    · exact List.mem_cons.mp member
    · rcases List.mem_cons.mp member with same | inRest
      · exact Or.inr (same ▸ List.mem_cons_self)
      · rcases ih inRest with added | old
        · exact Or.inl added
        · exact Or.inr (List.mem_cons_of_mem _ old)
    · rcases List.mem_cons.mp member with added | old
      · exact Or.inl added
      · exact Or.inr (List.mem_cons_of_mem _ old)

theorem ascending_insertEntry (key : K) (value : V)
    (ascending : entries.Pairwise (fun left right => left.1 < right.1)) :
    (insertEntry key value entries).Pairwise (fun left right => left.1 < right.1) := by
  induction entries with
  | nil =>
    exact List.pairwise_singleton _ _
  | cons head rest ih =>
    have headBelow := (List.pairwise_cons.mp ascending).1
    have restAscending := (List.pairwise_cons.mp ascending).2
    unfold insertEntry
    split_ifs with below above
    · apply List.Pairwise.cons _ ascending
      intro entry member
      rcases List.mem_cons.mp member with same | inRest
      · exact same ▸ below
      · exact lt_trans below (headBelow entry inRest)
    · apply List.Pairwise.cons _ (ih restAscending)
      intro entry member
      rcases mem_insertEntry member with added | old
      · exact added ▸ above
      · exact headBelow entry old
    · have same : head.1 = key := le_antisymm (not_lt.mp below) (not_lt.mp above)
      apply List.Pairwise.cons _ restAscending
      intro entry member
      exact same ▸ headBelow entry member

def insert (map : OrderedMap K V) (key : K) (value : V) : OrderedMap K V :=
  { entries := insertEntry key value map.entries
    ascending := ascending_insertEntry key value map.ascending }

def erase (map : OrderedMap K V) (key : K) : OrderedMap K V :=
  { entries := map.entries.filter (fun entry => entry.1 ≠ key)
    ascending := map.ascending.filter _ }

def lookup (map : OrderedMap K V) (key : K) : Option V :=
  (map.entries.find? (fun entry => entry.1 = key)).map Prod.snd

def contains (map : OrderedMap K V) (key : K) : Bool :=
  (map.lookup key).isSome

def size (map : OrderedMap K V) : Nat :=
  map.entries.length

def firstEntry (map : OrderedMap K V) : Option (K × V) :=
  map.entries.head?

/-- A new key adds one entry and keeps the others. -/
theorem perm_insertEntry {key : K} (value : V) (fresh : ∀ entry ∈ entries, entry.1 ≠ key) :
    (insertEntry key value entries).Perm ((key, value) :: entries) := by
  induction entries with
  | nil =>
    exact List.Perm.refl _
  | cons head rest ih =>
    have headFresh := fresh head List.mem_cons_self
    unfold insertEntry
    split_ifs with below above
    · exact List.Perm.refl _
    · have restPerm :=
        ih (List.forall_mem_cons.mp fresh).2
      exact (restPerm.cons head).trans (List.Perm.swap _ _ _)
    · exact absurd (le_antisymm (not_lt.mp below) (not_lt.mp above)) headFresh

end OrderedMap

end Sail
