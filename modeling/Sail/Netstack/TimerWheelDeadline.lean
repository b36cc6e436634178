/-
The next deadline of the timer wheel.

The answer is never after a timer's tick and always after the clock. As long as
no timer waits in the clock's own slot of its level, one revolution ahead, the
answer is the start of a bucket that holds a timer.
-/

import Sail.Netstack.TimerWheelOccupancy
import Sail.Netstack.TimerWheelRuns

namespace Sail.Netstack

open DeadlineQueue

variable {T : Type} {level : Nat}

def Entry.blockStart (entry : Entry T) : Nat :=
  entry.deadlineTick / 256 ^ entry.level * 256 ^ entry.level

theorem Entry.blockStart_le (entry : Entry T) : entry.blockStart ≤ entry.deadlineTick :=
  Nat.div_mul_le_self _ _

namespace TimerWheel

def Direct (wheel : TimerWheel T) : Prop :=
  ∀ id entry, wheel.entries.lookup id = some entry →
    entry.deadlineTick / 256 ^ entry.level ≤ wheel.currentTick / 256 ^ entry.level + 255

/-! ### What one level says -/

section Level

variable {wheel : TimerWheel T} {id : TimerId} {entry : Entry T}

/-- How many buckets ahead of the clock's a timer waits. -/
theorem Coherent.ahead_bounds (coherent : Coherent 0 [] wheel)
    (present : wheel.entries.lookup id = some entry) :
    wheel.currentTick / 256 ^ entry.level < entry.deadlineTick / 256 ^ entry.level ∧
      entry.deadlineTick / 256 ^ entry.level ≤ wheel.currentTick / 256 ^ entry.level + 256 := by
  have placed := coherent.placed id entry present List.not_mem_nil
  exact ⟨placed.ahead (Or.inl (Nat.zero_le _)), placed.withinRevolution⟩

theorem Coherent.mem_bucket (coherent : Coherent 0 [] wheel)
    (present : wheel.entries.lookup id = some entry) :
    id ∈ wheel.buckets entry.level (slotFor entry.deadlineTick entry.level) := by
  have placed := coherent.placed id entry present List.not_mem_nil
  refine (coherent.stored _ _ id).mpr ⟨List.not_mem_nil, entry, present, rfl, ?_⟩
  exact placed.slotMatches

/-- The slot of a timer is the clock's, moved by its distance. -/
theorem slotFor_ahead {currentTick deadlineTick : Nat}
    (later : currentTick / 256 ^ level ≤ deadlineTick / 256 ^ level) :
    slotFor deadlineTick level =
      (slotFor currentTick level +
        (deadlineTick / 256 ^ level - currentTick / 256 ^ level) % 256) % 256 := by
  rw [slotFor_eq, slotFor_eq]
  omega

theorem slotFor_lt (tick level : Nat) : slotFor tick level < 256 := by
  rw [slotFor_eq]
  exact Nat.mod_lt _ (by omega)

section

variable (coherent : Coherent 0 [] wheel) (isMarked : Marked wheel)

include coherent isMarked

/-- The bucket a timer waits in is marked. -/
theorem marked_ahead (present : wheel.entries.lookup id = some entry) (here : entry.level = level) :
    marked (wheel.occupied level) ((slotFor wheel.currentTick level +
      (entry.deadlineTick / 256 ^ level - wheel.currentTick / 256 ^ level) % 256) % 256) = true := by
  obtain ⟨later, _⟩ := coherent.ahead_bounds present
  have member := coherent.mem_bucket present
  rw [here] at later member
  rw [slotFor_ahead (Nat.le_of_lt later)] at member
  exact (isMarked level _).mpr (Finset.ne_empty_of_mem member)

/-- A level without a hit has no timer. -/
theorem level_empty
    (scanned : firstOccupied (wheel.occupied level) (slotFor wheel.currentTick level) = none)
    (present : wheel.entries.lookup id = some entry) : entry.level ≠ level := by
  intro here
  have spec := firstOccupied_spec (wheel.occupied level) (slotFor_lt wheel.currentTick level)
  rw [scanned] at spec
  have occupied := marked_ahead coherent isMarked present here
  rw [spec _ (Nat.mod_lt _ (by omega))] at occupied
  cases occupied

variable {ahead : Nat}
  (scanned : firstOccupied (wheel.occupied level) (slotFor wheel.currentTick level) = some ahead)

include scanned

/-- No timer of a level is nearer than its hit. -/
theorem ahead_le (present : wheel.entries.lookup id = some entry) (here : entry.level = level) :
    ahead ≤ (entry.deadlineTick / 256 ^ level - wheel.currentTick / 256 ^ level) % 256 := by
  have spec := firstOccupied_spec (wheel.occupied level) (slotFor_lt wheel.currentTick level)
  rw [scanned] at spec
  have occupied := marked_ahead coherent isMarked present here
  by_contra nearer
  rw [spec.2.2 _ (Nat.lt_of_not_le nearer)] at occupied
  cases occupied

/-- The hit is the bucket of some timer. -/
theorem exists_ahead :
    ∃ id entry, wheel.entries.lookup id = some entry ∧ entry.level = level ∧
      ahead = (entry.deadlineTick / 256 ^ level - wheel.currentTick / 256 ^ level) % 256 := by
  have spec := firstOccupied_spec (wheel.occupied level) (slotFor_lt wheel.currentTick level)
  rw [scanned] at spec
  obtain ⟨inside, occupied, _⟩ := spec
  obtain ⟨id, member⟩ := Finset.nonempty_iff_ne_empty.mpr ((isMarked level _).mp occupied)
  obtain ⟨_, entry, present, sameLevel, sameSlot⟩ := (coherent.stored _ _ id).mp member
  refine ⟨id, entry, present, sameLevel, ?_⟩
  obtain ⟨later, _⟩ := coherent.ahead_bounds present
  have placed := coherent.placed id entry present List.not_mem_nil
  rw [placed.slotMatches, sameLevel] at sameSlot
  rw [sameLevel] at later
  rw [slotFor_ahead (Nat.le_of_lt later)] at sameSlot
  omega

end

end Level

/-! ### The soonest tick -/

def SoonestSpec (wheel : TimerWheel T) (bound : Nat) : Option Nat → Prop
  | none => ∀ id entry, wheel.entries.lookup id = some entry → bound ≤ entry.level
  | some tick =>
    wheel.currentTick < tick ∧
      (∀ id entry, wheel.entries.lookup id = some entry → entry.level < bound →
        tick ≤ entry.deadlineTick) ∧
      (wheel.Direct →
        (∃ id entry, wheel.entries.lookup id = some entry ∧ tick = entry.blockStart) ∧
          ∀ id entry, wheel.entries.lookup id = some entry → entry.level < bound →
            tick ≤ entry.blockStart)

/-- A tick for the timers of some levels. -/
structure Soonest (wheel : TimerWheel T) (covers : Nat → Prop) (tick : Nat) : Prop where
  later : wheel.currentTick < tick
  bounded : ∀ id entry, wheel.entries.lookup id = some entry → covers entry.level →
    tick ≤ entry.deadlineTick
  exact : wheel.Direct →
    (∃ id entry, wheel.entries.lookup id = some entry ∧ tick = entry.blockStart) ∧
      ∀ id entry, wheel.entries.lookup id = some entry → covers entry.level →
        tick ≤ entry.blockStart

section Covers

variable {wheel : TimerWheel T} {covers wider : Nat → Prop} {tick other bound : Nat}

theorem soonestSpec_some_iff :
    SoonestSpec wheel bound (some tick) ↔ Soonest wheel (· < bound) tick :=
  ⟨fun spec => ⟨spec.1, spec.2.1, spec.2.2⟩, fun soonest => ⟨soonest.1, soonest.2, soonest.3⟩⟩

theorem Soonest.mono (soonest : Soonest wheel covers tick)
    (within : ∀ id entry, wheel.entries.lookup id = some entry → wider entry.level →
      covers entry.level) : Soonest wheel wider tick where
  later := soonest.later
  bounded := fun id entry present wide =>
    soonest.bounded id entry present (within id entry present wide)
  exact := fun direct => ⟨(soonest.exact direct).1, fun id entry present wide =>
    (soonest.exact direct).2 id entry present (within id entry present wide)⟩

theorem Soonest.min (soonest : Soonest wheel covers tick) (also : Soonest wheel wider other) :
    Soonest wheel (fun level => covers level ∨ wider level) (min tick other) where
  later := lt_min soonest.later also.later
  bounded := by
    rintro id entry present (covered | covered)
    · exact (Nat.min_le_left _ _).trans (soonest.bounded id entry present covered)
    · exact (Nat.min_le_right _ _).trans (also.bounded id entry present covered)
  exact := by
    intro direct
    refine ⟨?_, ?_⟩
    · rcases Nat.le_total tick other with first | first
      · rw [Nat.min_eq_left first]
        exact (soonest.exact direct).1
      · rw [Nat.min_eq_right first]
        exact (also.exact direct).1
    · rintro id entry present (covered | covered)
      · exact (Nat.min_le_left _ _).trans ((soonest.exact direct).2 id entry present covered)
      · exact (Nat.min_le_right _ _).trans ((also.exact direct).2 id entry present covered)

end Covers

theorem windowStart_le (window level : Nat) : windowStart window level ≤ window * 256 ^ level := by
  unfold windowStart
  rw [Nat.shiftLeft_eq, Nat.pow_mul]
  exact Nat.mod_le _ _

theorem windowStart_eq {window : Nat} (inRange : window * 256 ^ level ≤ u64Max) :
    windowStart window level = window * 256 ^ level := by
  unfold windowStart
  rw [Nat.shiftLeft_eq, Nat.pow_mul]
  exact Nat.mod_eq_of_lt (Nat.lt_of_le_of_lt inRange (by decide))

theorem satAdd_le (left right : Nat) : satAdd left right ≤ left + right :=
  Nat.min_le_left _ _

section Soonest

variable {wheel : TimerWheel T} {level : Nat}

section

variable (coherent : Coherent 0 [] wheel)

include coherent

/-- Timers of this level and the ones above start after this level's next bucket. -/
theorem next_window_le {id : TimerId} {entry : Entry T}
    (present : wheel.entries.lookup id = some entry) (above : level ≤ entry.level) :
    (wheel.currentTick / 256 ^ level + 1) * 256 ^ level ≤ entry.blockStart := by
  obtain ⟨later, _⟩ := coherent.ahead_bounds present
  obtain ⟨rise, levels⟩ := Nat.exists_eq_add_of_le above
  unfold Entry.blockStart
  rw [levels, Nat.pow_add, ← Nat.div_div_eq_div_mul] at later ⊢
  rw [← Nat.div_div_eq_div_mul] at later
  have step : wheel.currentTick / 256 ^ level + 1 ≤
      entry.deadlineTick / 256 ^ level / 256 ^ rise * 256 ^ rise := by
    have positive : 0 < 256 ^ rise := Nat.pow_pos (by omega)
    have bound := (Nat.div_lt_iff_lt_mul positive).mp later
    exact bound
  calc (wheel.currentTick / 256 ^ level + 1) * 256 ^ level
      ≤ entry.deadlineTick / 256 ^ level / 256 ^ rise * 256 ^ rise * 256 ^ level :=
        Nat.mul_le_mul_right _ step
    _ = entry.deadlineTick / 256 ^ level / 256 ^ rise * (256 ^ level * 256 ^ rise) := by
        rw [Nat.mul_assoc, Nat.mul_comm (256 ^ rise)]

/-- Stopping early misses nothing. -/
theorem SoonestSpec.stop {tick : Nat} (spec : SoonestSpec wheel level (some tick))
    (early : tick ≤ windowStart (satAdd (wheel.currentTick >>> (8 * level)) 1) level) :
    SoonestSpec wheel 4 (some tick) := by
  obtain ⟨later, bounded, exact⟩ := spec
  have window : wheel.currentTick >>> (8 * level) = wheel.currentTick / 256 ^ level := by
    rw [Nat.shiftRight_eq_div_pow, Nat.pow_mul]
  have start : tick ≤ (wheel.currentTick / 256 ^ level + 1) * 256 ^ level := by
    rw [window] at early
    exact (early.trans (windowStart_le _ _)).trans
      (Nat.mul_le_mul_right _ (satAdd_le _ _))
  refine ⟨later, ?_, ?_⟩
  · intro id entry present _
    by_cases below : entry.level < level
    · exact bounded id entry present below
    · exact (start.trans (next_window_le coherent present (by omega))).trans entry.blockStart_le
  · intro direct
    refine ⟨(exact direct).1, ?_⟩
    intro id entry present _
    by_cases below : entry.level < level
    · exact (exact direct).2 id entry present below
    · exact start.trans (next_window_le coherent present (by omega))

theorem SoonestSpec.skip {soonest : Option Nat} (isMarked : Marked wheel)
    (spec : SoonestSpec wheel level soonest)
    (scanned : firstOccupied (wheel.occupied level) (slotFor wheel.currentTick level) = none) :
    SoonestSpec wheel (level + 1) soonest := by
  have lower : ∀ id entry, wheel.entries.lookup id = some entry → entry.level < level + 1 →
      entry.level < level := by
    intro id entry present below
    have elsewhere := level_empty coherent isMarked scanned present
    omega
  cases soonest with
  | none =>
    intro id entry present
    have atLeast := spec id entry present
    have elsewhere := level_empty coherent isMarked scanned present
    omega
  | some tick =>
    rw [soonestSpec_some_iff] at spec ⊢
    exact spec.mono lower

/-- The tick of one level's hit. -/
theorem hit_spec {ahead : Nat} (isMarked : Marked wheel) (clock : wheel.currentTick < u64Max)
    (deadlines : ∀ id entry, wheel.entries.lookup id = some entry → entry.deadlineTick ≤ u64Max)
    (scanned : firstOccupied (wheel.occupied level) (slotFor wheel.currentTick level) =
      some ahead) :
    Soonest wheel (· = level)
      (max (windowStart (satAdd (wheel.currentTick >>> (8 * level)) ahead) level)
        ((wheel.currentTick + 1) % 2 ^ 64)) := by
  have window : wheel.currentTick >>> (8 * level) = wheel.currentTick / 256 ^ level := by
    rw [Nat.shiftRight_eq_div_pow, Nat.pow_mul]
  have next : (wheel.currentTick + 1) % 2 ^ 64 = wheel.currentTick + 1 :=
    Nat.mod_eq_of_lt (by unfold u64Max at clock; omega)
  rw [window, next]
  refine ⟨Nat.lt_of_lt_of_le (Nat.lt_succ_self _) (Nat.le_max_right _ _), ?_, ?_⟩
  · intro id entry present here
    obtain ⟨later, _⟩ := coherent.ahead_bounds present
    have nearest := ahead_le coherent isMarked scanned present here
    rw [here] at later
    have start : (wheel.currentTick / 256 ^ level + ahead) * 256 ^ level ≤ entry.deadlineTick :=
      (Nat.mul_le_mul_right _ (by omega)).trans (Nat.div_mul_le_self entry.deadlineTick _)
    have tickLe := ((windowStart_le (satAdd (wheel.currentTick / 256 ^ level) ahead) level).trans
      (Nat.mul_le_mul_right _ (satAdd_le _ _))).trans start
    exact Nat.max_le.mpr ⟨tickLe, coherent.deadline_later present⟩
  · intro direct
    have exactAhead : ∀ id entry, wheel.entries.lookup id = some entry → entry.level = level →
        (entry.deadlineTick / 256 ^ level - wheel.currentTick / 256 ^ level) % 256 =
          entry.deadlineTick / 256 ^ level - wheel.currentTick / 256 ^ level := by
      intro id entry present here
      have near := direct id entry present
      rw [here] at near
      exact Nat.mod_eq_of_lt (by omega)
    obtain ⟨id, entry, present, here, aheadEq⟩ := exists_ahead coherent isMarked scanned
    obtain ⟨later, _⟩ := coherent.ahead_bounds present
    rw [exactAhead id entry present here] at aheadEq
    rw [here] at later
    have blockEq : entry.blockStart = entry.deadlineTick / 256 ^ level * 256 ^ level := by
      rw [Entry.blockStart, here]
    have inRange : entry.blockStart ≤ u64Max :=
      entry.blockStart_le.trans (deadlines id entry present)
    have sumInRange : entry.deadlineTick / 256 ^ level ≤ u64Max :=
      (Nat.div_le_self _ _).trans (deadlines id entry present)
    have saturated : satAdd (wheel.currentTick / 256 ^ level) ahead =
        entry.deadlineTick / 256 ^ level := by
      unfold satAdd usizeMax
      omega
    have strictly : wheel.currentTick + 1 ≤ entry.blockStart := by
      rw [blockEq]
      have positive : 0 < 256 ^ level := Nat.pow_pos (by omega)
      exact (Nat.div_lt_iff_lt_mul positive).mp later
    have tickEq : max (windowStart (satAdd (wheel.currentTick / 256 ^ level) ahead) level)
        (wheel.currentTick + 1) = entry.blockStart := by
      rw [saturated, windowStart_eq (by rw [← blockEq]; exact inRange), ← blockEq]
      exact Nat.max_eq_left strictly
    rw [tickEq]
    refine ⟨⟨id, entry, present, rfl⟩, ?_⟩
    intro other otherEntry otherPresent otherHere
    have nearest := ahead_le coherent isMarked scanned otherPresent otherHere
    obtain ⟨otherLater, _⟩ := coherent.ahead_bounds otherPresent
    rw [blockEq, Entry.blockStart, otherHere]
    exact Nat.mul_le_mul_right _ (by omega)

theorem soonestFrom_spec (isMarked : Marked wheel) (clock : wheel.currentTick < u64Max)
    (deadlines : ∀ id entry, wheel.entries.lookup id = some entry → entry.deadlineTick ≤ u64Max)
    (count : Nat) {soonest : Option Nat} (total : level + count = 4)
    (spec : SoonestSpec wheel level soonest) :
    SoonestSpec wheel 4 (wheel.soonestFrom (List.range' level count) soonest) := by
  induction count generalizing level soonest with
  | zero =>
    have reached : level = 4 := total
    rw [reached] at spec
    exact spec
  | succ count ih =>
    rw [List.range'_succ]
    unfold soonestFrom
    by_cases early : soonest.any (fun tick => tick ≤
        windowStart (satAdd (wheel.currentTick >>> (8 * level)) 1) level) = true
    · rw [if_pos early]
      obtain ⟨tick, found, inTime⟩ := (Option.any_eq_true _ _).mp early
      rw [found] at spec ⊢
      exact spec.stop coherent (of_decide_eq_true inTime)
    · rw [if_neg early]
      cases scanned : firstOccupied (wheel.occupied level)
          (slotFor wheel.currentTick level) with
      | none => exact ih (by omega) (spec.skip coherent isMarked scanned)
      | some ahead =>
        apply ih (by omega)
        have hit := hit_spec coherent isMarked clock deadlines scanned
        rw [soonestSpec_some_iff]
        cases soonest with
        | none =>
          refine hit.mono fun id entry present below => ?_
          have atLeast := spec id entry present
          omega
        | some other =>
          rw [soonestSpec_some_iff] at spec
          exact (spec.min hit).mono fun id entry _ below => by omega

end

end Soonest

end TimerWheel

end Sail.Netstack
