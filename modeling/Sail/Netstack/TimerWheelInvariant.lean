/-
Where the wheel keeps its timers.

An entry of a level sits at most one revolution of that level ahead of the clock.
While a tick is cascading, this is restored from the top level down, and the
identifiers taken out of a bucket are loose until they are placed again.
-/

import Mathlib.Tactic.IntervalCases
import Sail.Netstack.TimerWheel

namespace Sail.Netstack

variable {T : Type}

/-- The bucket of a deadline, seen from the current tick. Entries of a level at
or above `strictFrom`, or of a level whose block the clock is inside of, lie in
a later block than the clock. -/
structure Placed (currentTick strictFrom deadlineTick level slot : Nat) : Prop where
  levelInRange : level < 4
  slotMatches : slot = slotFor deadlineTick level
  withinRevolution : deadlineTick / 256 ^ level ≤ currentTick / 256 ^ level + 256
  aligned : currentTick % 256 ^ level = 0 →
    deadlineTick / 256 ^ level ≤ currentTick / 256 ^ level + 255
  ahead : strictFrom ≤ level ∨ currentTick % 256 ^ level ≠ 0 →
    currentTick / 256 ^ level < deadlineTick / 256 ^ level

theorem slotFor_eq (tick level : Nat) : slotFor tick level = tick / 256 ^ level % 256 := by
  unfold slotFor timerSlots
  rw [Nat.shiftRight_eq_div_pow, Nat.pow_mul]

variable {currentTick deadlineTick strictFrom level slot : Nat}

/-- Looking up the bucket of a deadline in range always yields a valid place. -/
theorem bucketFor_placed (notPast : currentTick ≤ deadlineTick)
    (inHorizon : deadlineTick < currentTick + 2 ^ 32)
    (strict : 1 ≤ strictFrom ∨ currentTick < deadlineTick) :
    Placed currentTick strictFrom deadlineTick
      (bucketFor currentTick deadlineTick).1 (bucketFor currentTick deadlineTick).2 := by
  have levelCases :
      (levelFor (deadlineTick - currentTick) = 0 ∧ deadlineTick < currentTick + 256) ∨
      (levelFor (deadlineTick - currentTick) = 1 ∧
        currentTick + 256 ≤ deadlineTick ∧ deadlineTick < currentTick + 65536) ∨
      (levelFor (deadlineTick - currentTick) = 2 ∧
        currentTick + 65536 ≤ deadlineTick ∧ deadlineTick < currentTick + 16777216) ∨
      (levelFor (deadlineTick - currentTick) = 3 ∧ currentTick + 16777216 ≤ deadlineTick) := by
    unfold levelFor
    split_ifs <;> omega
  unfold bucketFor
  rcases levelCases with
    ⟨level, bounds⟩ | ⟨level, bounds⟩ | ⟨level, bounds⟩ | ⟨level, bounds⟩ <;>
  · simp only [level]
    constructor <;> omega

/-- Moving the clock by one tick keeps every place valid, but entries whose
block the clock has just entered are no longer strictly ahead. -/
theorem Placed.tick (placed : Placed currentTick 0 deadlineTick level slot) :
    Placed (currentTick + 1) 4 deadlineTick level slot := by
  obtain ⟨levelInRange, slotMatches, withinRevolution, _aligned, ahead⟩ := placed
  refine ⟨levelInRange, slotMatches, ?_, ?_, ?_⟩ <;>
  · interval_cases level <;> omega

/-- Clearing the clock's own bucket of a level whose block just began leaves
only entries that are strictly ahead. -/
theorem Placed.strengthen (placed : Placed currentTick (strictFrom + 1) deadlineTick level slot)
    (notPast : currentTick ≤ deadlineTick)
    (elsewhere : level = strictFrom → currentTick % 256 ^ strictFrom = 0 →
      slot ≠ slotFor currentTick strictFrom) :
    Placed currentTick strictFrom deadlineTick level slot := by
  refine { placed with ahead := ?_ }
  rintro (atLeast | inside)
  · by_cases same : level = strictFrom
    · subst same
      by_cases boundary : currentTick % 256 ^ level = 0
      · have slots := elsewhere rfl boundary
        have order : currentTick / 256 ^ level ≤ deadlineTick / 256 ^ level :=
          Nat.div_le_div_right notPast
        rw [placed.slotMatches, slotFor_eq, slotFor_eq] at slots
        omega
      · exact placed.ahead (Or.inr boundary)
    · exact placed.ahead (Or.inl (by omega))
  · exact placed.ahead (Or.inr inside)

/-- In the clock's own bucket of level zero everything is due now. -/
theorem Placed.due_of_slot (placed : Placed currentTick strictFrom deadlineTick 0 slot)
    (notPast : currentTick ≤ deadlineTick) (here : slot = slotFor currentTick 0) :
    deadlineTick = currentTick := by
  have reach := placed.aligned (by simp [Nat.mod_one])
  rw [placed.slotMatches, slotFor_eq, slotFor_eq] at here
  omega

/-- After cascading, everything due now is in the clock's bucket of level
zero. -/
theorem Placed.slot_of_due (placed : Placed currentTick 1 currentTick level slot) :
    level = 0 ∧ slot = slotFor currentTick 0 := by
  by_cases bottom : level = 0
  · subst bottom
    exact ⟨rfl, placed.slotMatches⟩
  · have ahead := placed.ahead (Or.inl (by omega))
    omega

variable {entry : Entry T}

namespace TimerWheel

def frame (wheel : TimerWheel T) : Nat × Nat × Nat :=
  (wheel.tickMs, wheel.currentTick, wheel.nextId)

def content (wheel : TimerWheel T) (id : TimerId) : Option (Nat × T) :=
  (wheel.entries.lookup id).map (fun entry => (entry.deadlineTick, entry.value))

structure Coherent (strictFrom : Nat) (loose : List TimerId) (wheel : TimerWheel T) : Prop where
  stored : ∀ level slot id, id ∈ wheel.buckets level slot ↔
    id ∉ loose ∧ ∃ entry, wheel.entries.lookup id = some entry ∧
      entry.level = level ∧ entry.slot = slot
  placed : ∀ id entry, wheel.entries.lookup id = some entry → id ∉ loose →
    Placed wheel.currentTick strictFrom entry.deadlineTick entry.level entry.slot
  notPast : ∀ id entry, wheel.entries.lookup id = some entry →
    wheel.currentTick ≤ entry.deadlineTick
  inHorizon : ∀ id entry, wheel.entries.lookup id = some entry →
    entry.deadlineTick < wheel.currentTick + 2 ^ 32

variable {wheel : TimerWheel T} {strictFrom : Nat}

/-- Between ticks every deadline is still to come. -/
theorem Coherent.deadline_later (coherent : Coherent 0 [] wheel) {id : TimerId}
    (present : wheel.entries.lookup id = some entry) : wheel.currentTick < entry.deadlineTick :=
  Nat.lt_of_div_lt_div
    ((coherent.placed id entry present List.not_mem_nil).ahead (Or.inl (Nat.zero_le _)))

theorem Coherent.level_lt (coherent : Coherent 0 [] wheel) {id : TimerId}
    (present : wheel.entries.lookup id = some entry) : entry.level < 4 :=
  (coherent.placed id entry present List.not_mem_nil).levelInRange

theorem new_coherent (tickMs nowMs : Nat) (tickPositive : 0 < tickMs) :
    Coherent 0 [] (new tickMs nowMs tickPositive : TimerWheel T) := by
  constructor <;> simp [new]

theorem mem_setBucket (wheel : TimerWheel T) (level slot level' slot' : Nat)
    (ids : Finset TimerId) (id : TimerId) :
    id ∈ wheel.setBucket level slot ids level' slot' ↔
      if level' = level ∧ slot' = slot then id ∈ ids
      else id ∈ wheel.buckets level' slot' := by
  unfold setBucket
  split_ifs <;> rfl

/-! ### Placing a timer -/

theorem place_lookup (wheel : TimerWheel T) (id other : TimerId) (deadline : Nat) :
    (wheel.place id deadline).entries.lookup other =
      if other = id then
        (wheel.entries.lookup id).map (fun entry =>
          { entry with
            level := (bucketFor wheel.currentTick deadline).1
            slot := (bucketFor wheel.currentTick deadline).2 })
      else wheel.entries.lookup other :=
  KeyedMap.lookup_modify_ite _ _ _ _

theorem place_content (wheel : TimerWheel T) (id other : TimerId) (deadline : Nat) :
    (wheel.place id deadline).content other = wheel.content other := by
  unfold content
  rw [place_lookup]
  by_cases same : other = id
  · subst same
    rw [if_pos rfl, Option.map_map]
    rfl
  · rw [if_neg same]

theorem place_coherent {id : TimerId} {loose : List TimerId}
    (coherent : Coherent strictFrom (id :: loose) wheel)
    (strict : 1 ≤ strictFrom ∨ wheel.currentTick < entry.deadlineTick) (fresh : id ∉ loose)
    (present : wheel.entries.lookup id = some entry) :
    Coherent strictFrom loose (wheel.place id entry.deadlineTick) := by
  refine ⟨?_, ?_, ?_, ?_⟩
  · intro level slot other
    change other ∈ setBucket _ _ _ _ _ _ ↔ _
    rw [mem_setBucket, place_lookup]
    by_cases same : other = id
    · subst same
      rw [if_pos rfl, present]
      have absent := coherent.stored level slot other
      simp only [List.mem_cons, true_or, not_true_eq_false, false_and, iff_false] at absent
      split_ifs with here
      · simp [fresh, here]
      · simp only [Option.map_some, Option.some.injEq, exists_eq_left']
        constructor
        · intro member
          exact absurd member absent
        · rintro ⟨_, levelEq, slotEq⟩
          exact absurd ⟨levelEq.symm, slotEq.symm⟩ here
    · have stored := coherent.stored level slot other
      simp only [List.mem_cons, same, false_or] at stored
      rw [if_neg same, ← stored]
      split_ifs with here
      · rw [here.1, here.2]
        simp [same]
      · rfl
  · intro other found lookup notLoose
    rw [place_lookup] at lookup
    by_cases same : other = id
    · subst same
      rw [if_pos rfl, present, Option.map_some, Option.some.injEq] at lookup
      subst lookup
      exact bucketFor_placed (coherent.notPast other entry present)
        (coherent.inHorizon other entry present) strict
    · rw [if_neg same] at lookup
      exact coherent.placed other found lookup (by simp [same, notLoose])
  all_goals
    intro other found lookup
    rw [place_lookup] at lookup
    by_cases same : other = id
    · subst same
      rw [if_pos rfl, present, Option.map_some, Option.some.injEq] at lookup
      subst lookup
      first
      | exact coherent.notPast other entry present
      | exact coherent.inHorizon other entry present
    · rw [if_neg same] at lookup
      first
      | exact coherent.notPast other found lookup
      | exact coherent.inHorizon other found lookup

/-! ### Cascading -/

theorem takeSlot_ids (wheel : TimerWheel T) (level slot : Nat) (id : TimerId) :
    id ∈ (wheel.takeSlot level slot).1 ↔ id ∈ wheel.buckets level slot := by
  simp [takeSlot]

theorem Coherent.placed_of_taken {loose : List TimerId} {level slot : Nat} {id : TimerId}
    (coherent : Coherent strictFrom loose wheel) (member : id ∈ (wheel.takeSlot level slot).1)
    (present : wheel.entries.lookup id = some entry) :
    Placed wheel.currentTick strictFrom entry.deadlineTick level slot := by
  rw [takeSlot_ids, coherent.stored] at member
  obtain ⟨notLoose, stored, found, rfl, rfl⟩ := member
  cases Option.some.inj (found.symm.trans present)
  exact coherent.placed id entry present notLoose

theorem takeSlot_nodup (wheel : TimerWheel T) (level slot : Nat) :
    (wheel.takeSlot level slot).1.Nodup :=
  Finset.sort_nodup _ _

/-- Taking out the clock's bucket of one level makes that level strict for all
entries but the loose ones. -/
theorem takeSlot_coherent {level : Nat} (coherent : Coherent (level + 1) [] wheel) :
    Coherent level (wheel.takeSlot level (slotFor wheel.currentTick level)).1
      (wheel.takeSlot level (slotFor wheel.currentTick level)).2 := by
  refine ⟨?_, ?_, coherent.notPast, coherent.inHorizon⟩
  · intro level' slot' id
    rw [takeSlot_ids]
    change id ∈ setBucket _ _ _ _ _ _ ↔ _ ∧ ∃ entry, wheel.entries.lookup id = some entry ∧ _
    rw [mem_setBucket]
    have here := coherent.stored level (slotFor wheel.currentTick level) id
    have there := coherent.stored level' slot' id
    simp only [List.not_mem_nil, not_false_eq_true, true_and] at here there
    split_ifs with same
    · simp only [Finset.notMem_empty, false_iff, not_and, not_exists]
      intro absent entry present levelEq slotEq
      rw [same.1] at levelEq
      rw [same.2] at slotEq
      exact absent (here.mpr ⟨entry, present, levelEq, slotEq⟩)
    · rw [there, here]
      constructor
      · rintro ⟨entry, present, levelEq, slotEq⟩
        refine ⟨?_, entry, present, levelEq, slotEq⟩
        rintro ⟨other, alsoPresent, levelEq', slotEq'⟩
        rw [present, Option.some.injEq] at alsoPresent
        subst alsoPresent
        exact same ⟨levelEq.symm.trans levelEq', slotEq.symm.trans slotEq'⟩
      · exact And.right
  · intro id entry present kept
    refine (coherent.placed id entry present (List.not_mem_nil)).strengthen
      (coherent.notPast id entry present) ?_
    intro levelEq _boundary slotEq
    refine kept ((takeSlot_ids _ _ _ _).mpr ?_)
    exact (coherent.stored _ _ _).mpr ⟨List.not_mem_nil, entry, present, levelEq, slotEq⟩

theorem replace_content (wheel : TimerWheel T) (id other : TimerId) :
    (wheel.replace id).content other = wheel.content other := by
  unfold replace
  cases wheel.entries.lookup id with
  | none => rfl
  | some entry => exact place_content _ _ _ _

theorem replace_frame (wheel : TimerWheel T) (id : TimerId) :
    (wheel.replace id).frame = wheel.frame := by
  unfold replace
  cases wheel.entries.lookup id <;> rfl

/-- Either level zero is not required to be strict yet, or every deadline is
still to come. -/
def Placeable (strictFrom : Nat) (wheel : TimerWheel T) : Prop :=
  1 ≤ strictFrom ∨ ∀ id timer, wheel.content id = some timer → wheel.currentTick < timer.1

theorem Placeable.replace (placeable : Placeable strictFrom wheel) (id : TimerId) :
    Placeable strictFrom (wheel.replace id) := by
  refine placeable.imp_right (fun future => ?_)
  intro other timer present
  rw [replace_content] at present
  have sameTick : (wheel.replace id).currentTick = wheel.currentTick :=
    congrArg (fun frame => frame.2.1) (replace_frame wheel id)
  rw [sameTick]
  exact future other timer present

/-- Placing the loose identifiers one after the other makes the wheel coherent
again. -/
theorem foldl_replace_coherent (loose : List TimerId) (wheel : TimerWheel T)
    (placeable : Placeable strictFrom wheel) (coherent : Coherent strictFrom loose wheel)
    (nodup : loose.Nodup) :
    Coherent strictFrom [] (loose.foldl replace wheel) := by
  induction loose generalizing wheel with
  | nil => exact coherent
  | cons id loose ih =>
    rw [List.nodup_cons] at nodup
    refine ih (wheel.replace id) (placeable.replace id) ?_ nodup.2
    unfold replace
    cases present : wheel.entries.lookup id with
    | none =>
      refine ⟨?_, ?_, coherent.notPast, coherent.inHorizon⟩
      · intro level slot other
        rw [coherent.stored]
        by_cases same : other = id
        · subst same
          simp [present]
        · simp [same]
      · intro other entry found notLoose
        refine coherent.placed other entry found ?_
        rw [List.mem_cons]
        rintro (same | member)
        · subst same
          rw [present] at found
          cases found
        · exact notLoose member
    | some entry =>
      refine place_coherent coherent ?_ nodup.1 present
      refine placeable.imp_right (fun future => ?_)
      exact future id (entry.deadlineTick, entry.value) (by simp [content, present])

theorem foldl_replace_content (ids : List TimerId) (wheel : TimerWheel T) (id : TimerId) :
    (ids.foldl replace wheel).content id = wheel.content id := by
  induction ids generalizing wheel with
  | nil => rfl
  | cons head tail ih =>
    rw [List.foldl_cons, ih, replace_content]

theorem foldl_replace_frame (ids : List TimerId) (wheel : TimerWheel T) :
    (ids.foldl replace wheel).frame = wheel.frame := by
  induction ids generalizing wheel with
  | nil => rfl
  | cons head tail ih =>
    rw [List.foldl_cons, ih, replace_frame]

theorem cascadeLevel_coherent {level : Nat} (positive : 1 ≤ level)
    (coherent : Coherent (level + 1) [] wheel) :
    Coherent level [] (wheel.cascadeLevel level) := by
  unfold cascadeLevel
  split_ifs with inside
  · rw [Nat.pow_mul] at inside
    refine ⟨coherent.stored, ?_, coherent.notPast, coherent.inHorizon⟩
    intro id entry present notLoose
    exact (coherent.placed id entry present notLoose).strengthen
      (coherent.notPast id entry present) (fun _same boundary => absurd boundary inside)
  · exact foldl_replace_coherent _ _ (Or.inl positive) (takeSlot_coherent coherent)
      (takeSlot_nodup _ _ _)

theorem cascadeLevel_content (wheel : TimerWheel T) (level : Nat) (id : TimerId) :
    (wheel.cascadeLevel level).content id = wheel.content id := by
  unfold cascadeLevel
  split_ifs
  · rfl
  · exact foldl_replace_content _ _ _

theorem cascadeLevel_frame (wheel : TimerWheel T) (level : Nat) :
    (wheel.cascadeLevel level).frame = wheel.frame := by
  unfold cascadeLevel
  split_ifs
  · rfl
  · exact foldl_replace_frame _ _

theorem cascadeBoundaries_coherent (coherent : Coherent 4 [] wheel) :
    Coherent 1 [] wheel.cascadeBoundaries :=
  cascadeLevel_coherent (by omega)
    (cascadeLevel_coherent (by omega) (cascadeLevel_coherent (by omega) coherent))

theorem cascadeBoundaries_content (wheel : TimerWheel T) (id : TimerId) :
    wheel.cascadeBoundaries.content id = wheel.content id := by
  simp only [cascadeBoundaries, List.foldl_cons, List.foldl_nil, cascadeLevel_content]

theorem cascadeBoundaries_frame (wheel : TimerWheel T) :
    wheel.cascadeBoundaries.frame = wheel.frame := by
  simp only [cascadeBoundaries, List.foldl_cons, List.foldl_nil, cascadeLevel_frame]

end TimerWheel

end Sail.Netstack
