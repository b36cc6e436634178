/-
Sleeping from deadline to deadline.

A caller asks the wheel for its next deadline, sleeps until then and advances to it,
over and over. When no timer waits in the clock's own slot of its level at the start,
every timer fires on its tick.
-/

import Mathlib.Algebra.Order.BigOperators.Group.List
import Sail.Netstack.TimerWheelDeadline

namespace Sail.Netstack

open DeadlineQueue

variable {T : Type}

/-! ### Levels only sink -/

theorem levelFor_le {delta level : Nat} (inRange : level < 4)
    (near : delta < 256 ^ (level + 1)) : levelFor delta ≤ level := by
  unfold levelFor
  interval_cases level <;> split_ifs <;> omega

theorem lt_pow_levelFor {delta : Nat} (inRange : delta < 2 ^ 32) :
    delta < 256 ^ (levelFor delta + 1) := by
  unfold levelFor
  split_ifs <;> omega

/-- From this clock reading on a deadline is at most 255 buckets of its level away. -/
def Near (currentTick deadlineTick : Nat) : Prop :=
  deadlineTick / 256 ^ levelFor (deadlineTick - currentTick) ≤
    currentTick / 256 ^ levelFor (deadlineTick - currentTick) + 255

theorem near_of_aligned {currentTick deadlineTick : Nat}
    (inHorizon : deadlineTick < currentTick + 2 ^ 32)
    (aligned : currentTick % 256 ^ levelFor (deadlineTick - currentTick) = 0) :
    Near currentTick deadlineTick := by
  have bound : deadlineTick - currentTick < 256 ^ (levelFor (deadlineTick - currentTick) + 1) :=
    lt_pow_levelFor (by omega)
  unfold Near
  generalize levelFor (deadlineTick - currentTick) = level at bound aligned
  have positive : 0 < 256 ^ level := Nat.pow_pos (by omega)
  have start : currentTick / 256 ^ level * 256 ^ level = currentTick :=
    Nat.div_mul_cancel (Nat.dvd_of_mod_eq_zero aligned)
  have upper : deadlineTick < (currentTick / 256 ^ level + 256) * 256 ^ level := by
    rw [Nat.add_mul, start]
    omega
  have quotient := (Nat.div_lt_iff_lt_mul positive).mpr upper
  omega

/-- At most 255 buckets away is less than a revolution. -/
theorem lt_revolution {currentTick deadlineTick level later : Nat}
    (direct : deadlineTick / 256 ^ level ≤ currentTick / 256 ^ level + 255)
    (forward : currentTick ≤ later) :
    deadlineTick - later < 256 ^ (level + 1) := by
  have positive : 0 < 256 ^ level := Nat.pow_pos (by omega)
  have below : deadlineTick < (currentTick / 256 ^ level + 256) * 256 ^ level :=
    (Nat.div_lt_iff_lt_mul positive).mp (by omega)
  have start := Nat.div_mul_le_self currentTick (256 ^ level)
  rw [Nat.add_mul] at below
  omega

variable {pending : List (Timer T)}

namespace TimerWheel

/-- Every timer was there at the origin, on the same level or a higher one, and
none waits a full revolution ahead. -/
structure Sinks (origin wheel : TimerWheel T) : Prop where
  direct : wheel.Direct
  descends : ∀ id entry, wheel.entries.lookup id = some entry →
    ∃ source, origin.entries.lookup id = some source ∧
      source.deadlineTick = entry.deadlineTick ∧ entry.level ≤ source.level
  levels : ∀ id entry, wheel.entries.lookup id = some entry → entry.level < 4

namespace Sinks

variable {origin wheel : TimerWheel T}

theorem refl (coherent : Coherent 0 [] wheel) (direct : wheel.Direct) : Sinks wheel wheel := by
  exact ⟨direct, fun id entry present => ⟨entry, present, rfl, Nat.le_refl _⟩,
    fun _ _ present => coherent.level_lt present⟩

/-- Fewer timers and a later clock. -/
theorem mono {after : TimerWheel T} (sinks : Sinks origin wheel)
    (forward : wheel.currentTick ≤ after.currentTick)
    (kept : ∀ id entry, after.entries.lookup id = some entry →
      wheel.entries.lookup id = some entry) : Sinks origin after := by
  refine ⟨?_, ?_, ?_⟩
  · intro id entry present
    have bound := sinks.direct id entry (kept id entry present)
    have monotone := Nat.div_le_div_right (c := 256 ^ entry.level) forward
    omega
  · intro id entry present
    exact sinks.descends id entry (kept id entry present)
  · intro id entry present
    exact sinks.levels id entry (kept id entry present)

theorem place {id : TimerId} {entry : Entry T} (sinks : Sinks origin wheel)
    (present : wheel.entries.lookup id = some entry)
    (near : Near wheel.currentTick entry.deadlineTick) :
    Sinks origin (wheel.place id entry.deadlineTick) := by
  have inRange := sinks.levels id entry present
  have lower : levelFor (entry.deadlineTick - wheel.currentTick) ≤ entry.level :=
    levelFor_le inRange (lt_revolution (sinks.direct id entry present) (Nat.le_refl _))
  have found : ∀ other stored,
      (wheel.place id entry.deadlineTick).entries.lookup other = some stored →
        (other = id ∧ stored =
          { entry with
            level := (bucketFor wheel.currentTick entry.deadlineTick).1
            slot := (bucketFor wheel.currentTick entry.deadlineTick).2 }) ∨
          wheel.entries.lookup other = some stored := by
    intro other stored lookup
    rw [place_lookup] at lookup
    by_cases same : other = id
    · rw [if_pos same, present] at lookup
      exact Or.inl ⟨same, (Option.some.inj lookup).symm⟩
    · rw [if_neg same] at lookup
      exact Or.inr lookup
  refine ⟨?_, ?_, ?_⟩
  · intro other stored lookup
    rcases found other stored lookup with ⟨_, rfl⟩ | old
    · exact near
    · exact sinks.direct other stored old
  · intro other stored lookup
    rcases found other stored lookup with ⟨rfl, rfl⟩ | old
    · obtain ⟨source, sourcePresent, sameDeadline, level⟩ := sinks.descends other entry present
      exact ⟨source, sourcePresent, sameDeadline, lower.trans level⟩
    · exact sinks.descends other stored old
  · intro other stored lookup
    rcases found other stored lookup with ⟨_, rfl⟩ | old
    · exact Nat.lt_of_le_of_lt lower inRange
    · exact sinks.levels other stored old

theorem foldl_replace (ids : List TimerId) (sinks : Sinks origin wheel)
    (near : ∀ id ∈ ids, ∀ timer, wheel.content id = some timer → Near wheel.currentTick timer.1) :
    Sinks origin (ids.foldl replace wheel) := by
  induction ids generalizing wheel with
  | nil => exact sinks
  | cons id ids ih =>
    have replaced : Sinks origin (wheel.replace id) := by
      unfold replace
      cases present : wheel.entries.lookup id with
      | none => exact sinks
      | some entry =>
        refine sinks.place present (near id List.mem_cons_self
          (entry.deadlineTick, entry.value) ?_)
        rw [content, present]
        rfl
    apply ih replaced
    intro other member timer found
    rw [replace_content] at found
    rw [currentTick_eq_of_frame (replace_frame wheel id)]
    exact near other (List.mem_cons_of_mem _ member) timer found

/-- A bucket reached by the clock moves strictly down. -/
theorem cascadeLevel {level : Nat} (sinks : Sinks origin wheel) (positive : 1 ≤ level)
    (inRange : level < 4) (coherent : Coherent (level + 1) [] wheel) :
    Sinks origin (wheel.cascadeLevel level) := by
  unfold TimerWheel.cascadeLevel
  by_cases inside : wheel.currentTick % 2 ^ (8 * level) ≠ 0
  · rw [if_pos inside]
    exact sinks
  · rw [if_neg inside]
    rw [Nat.pow_mul] at inside
    have aligned : wheel.currentTick % 256 ^ level = 0 := Classical.not_not.mp inside
    have taken : Sinks origin
        (wheel.takeSlot level (slotFor wheel.currentTick level)).2 :=
      sinks.mono (Nat.le_refl _) (fun _ _ present => present)
    apply taken.foldl_replace
    intro id member timer found
    obtain ⟨entry, present, rfl⟩ := Option.map_eq_some_iff.mp found
    have placed := coherent.placed_of_taken member present
    have notPast := coherent.notPast id entry present
    have inHorizon := coherent.inHorizon id entry present
    have bound := placed.aligned aligned
    have sameSlot := placed.slotMatches
    rw [slotFor_eq, slotFor_eq] at sameSlot
    have monotone := Nat.div_le_div_right (c := 256 ^ level) notPast
    have sameBlock : entry.deadlineTick / 256 ^ level = wheel.currentTick / 256 ^ level := by
      omega
    have blockPositive : 0 < 256 ^ level := Nat.pow_pos (by omega)
    have below : entry.deadlineTick < wheel.currentTick + 256 ^ level := by
      have start : wheel.currentTick / 256 ^ level * 256 ^ level = wheel.currentTick :=
        Nat.div_mul_cancel (Nat.dvd_of_mod_eq_zero aligned)
      have upper := Nat.lt_div_mul_add blockPositive (a := entry.deadlineTick)
      rw [sameBlock, start] at upper
      exact upper
    have strictly : levelFor (entry.deadlineTick - wheel.currentTick) ≤ level - 1 := by
      apply levelFor_le (by omega)
      rw [Nat.sub_add_cancel positive]
      omega
    apply near_of_aligned inHorizon
    exact Nat.mod_eq_zero_of_dvd ((Nat.pow_dvd_pow 256 (by omega)).trans
      (Nat.dvd_of_mod_eq_zero aligned))

end Sinks

theorem foldl_expire_lookup (ids : List TimerId) (values : List T) (wheel : TimerWheel T)
    (allDue : ∀ id ∈ ids, ∀ entry, wheel.entries.lookup id = some entry →
      entry.deadlineTick ≤ wheel.currentTick) :
    (ids.foldl expire (values, wheel)).2.currentTick = wheel.currentTick ∧
      ∀ id entry, (ids.foldl expire (values, wheel)).2.entries.lookup id = some entry →
        wheel.entries.lookup id = some entry := by
  induction ids generalizing values wheel with
  | nil => exact ⟨rfl, fun _ _ present => present⟩
  | cons id ids ih =>
    rw [List.foldl_cons]
    cases present : wheel.entries.lookup id with
    | none =>
      have skipped : expire (values, wheel) id = (values, wheel) := by
        simp only [expire, present]
      rw [skipped]
      exact ih values wheel (List.forall_mem_cons.mp allDue).2
    | some entry =>
      rw [expire_due values present (allDue id List.mem_cons_self entry present)]
      have kept : ∀ other stored, (wheel.entries.erase id).lookup other = some stored →
          wheel.entries.lookup other = some stored :=
        fun _ _ found => KeyedMap.lookup_of_erase found
      obtain ⟨sameTick, lookups⟩ := ih (values ++ [entry.value])
        { wheel with entries := wheel.entries.erase id }
        (fun other member stored found =>
          allDue other (List.mem_cons_of_mem _ member) stored (kept other stored found))
      exact ⟨sameTick, fun other stored found =>
        kept other stored (lookups other stored found)⟩

namespace Sinks

variable {origin wheel : TimerWheel T}

theorem tick (values : List T) (sinks : Sinks origin wheel) (coherent : Coherent 0 [] wheel) :
    Sinks origin (TimerWheel.tick (values, wheel)).2 := by
  let moved : TimerWheel T := { wheel with currentTick := wheel.currentTick + 1 }
  have movedCoherent : Coherent 4 [] moved := advanceClock_coherent coherent
  have movedSinks : Sinks origin moved :=
    sinks.mono (Nat.le_succ _) (fun _ _ present => present)
  have third := movedSinks.cascadeLevel (by omega) (by omega) movedCoherent
  have thirdCoherent := cascadeLevel_coherent (by omega) movedCoherent
  have second := third.cascadeLevel (by omega) (by omega) thirdCoherent
  have secondCoherent := cascadeLevel_coherent (by omega) thirdCoherent
  have first := second.cascadeLevel (by omega) (by omega) secondCoherent
  have settled : Coherent 1 [] moved.cascadeBoundaries := cascadeBoundaries_coherent movedCoherent
  have cascaded : Sinks origin moved.cascadeBoundaries := first
  have allDue : ∀ id ∈ (moved.cascadeBoundaries.takeSlot 0
      (slotFor moved.cascadeBoundaries.currentTick 0)).1, ∀ entry,
      moved.cascadeBoundaries.entries.lookup id = some entry →
        entry.deadlineTick ≤ moved.cascadeBoundaries.currentTick := by
    intro id member entry present
    have placed := settled.placed_of_taken member present
    exact (placed.due_of_slot (settled.notPast id entry present) rfl).le
  obtain ⟨sameTick, lookups⟩ := foldl_expire_lookup _ values
    (moved.cascadeBoundaries.takeSlot 0 (slotFor moved.cascadeBoundaries.currentTick 0)).2 allDue
  exact cascaded.mono (Nat.le_of_eq sameTick.symm) lookups

theorem ticks (rounds : Nat) (sinks : Sinks origin wheel) (coherent : Coherent 0 [] wheel)
    (represents : wheel.Represents pending) (distinct : Distinct pending) :
    Sinks origin (TimerWheel.tick^[rounds] ([], wheel)).2 := by
  induction rounds with
  | zero => exact sinks
  | succ rounds ih =>
    obtain ⟨after, run, afterCoherent, _, _⟩ := ticks_spec rounds coherent represents distinct
    rw [run] at ih
    rw [Function.iterate_succ_apply', run]
    exact ih.tick _ afterCoherent

theorem largeAdvance {targetTick : Nat} (sinks : Sinks origin wheel)
    (coherent : Coherent 0 [] wheel) (forward : wheel.currentTick ≤ targetTick)
    (aligned : targetTick % 256 ^ 2 = 0) :
    Sinks origin (wheel.largeAdvance targetTick).2 := by
  obtain ⟨entries, collected, lookups⟩ :=
    foldl_collect (wheel.dueKeys targetTick) [] wheel.entries (wheel.dueKeys_nodup targetTick)
  let cleared : TimerWheel T :=
    { wheel with
      currentTick := targetTick
      buckets := fun _ _ => ∅
      occupied := fun _ _ => 0
      entries }
  have kept : ∀ id entry, entries.lookup id = some entry →
      wheel.entries.lookup id = some entry := by
    intro id entry found
    rw [lookups] at found
    split_ifs at found
    exact found
  have clearedSinks : Sinks origin cleared := sinks.mono forward kept
  have result : (wheel.largeAdvance targetTick).2 =
      (cleared.entries.toList.map (fun entry => (entry.1, entry.2.deadlineTick))).foldl
        (fun wheel entry => wheel.place entry.1 entry.2) cleared := by
    unfold TimerWheel.largeAdvance
    dsimp only
    have keys : (wheel.entries.toList.filterMap (fun entry =>
        if entry.2.deadlineTick ≤ targetTick then some (entry.2.deadlineTick, entry.1)
        else none)).insertionSort dueBefore = wheel.dueKeys targetTick := rfl
    rw [keys, collected]
  rw [result, foldl_place_eq_replace]
  · apply clearedSinks.foldl_replace
    intro id _ timer found
    obtain ⟨entry, present, rfl⟩ := Option.map_eq_some_iff.mp found
    have inHorizon := coherent.inHorizon id entry (kept id entry present)
    by_cases top : levelFor (entry.deadlineTick - targetTick) ≤ 2
    · apply near_of_aligned (show entry.deadlineTick < targetTick + 2 ^ 32 by omega)
      exact Nat.mod_eq_zero_of_dvd ((Nat.pow_dvd_pow 256 top).trans
        (Nat.dvd_of_mod_eq_zero aligned))
    · have level := sinks.levels id entry (kept id entry present)
      have direct := sinks.direct id entry (kept id entry present)
      have lower : levelFor (entry.deadlineTick - targetTick) ≤ entry.level :=
        levelFor_le level (lt_revolution direct forward)
      have same : levelFor (entry.deadlineTick - targetTick) = entry.level := by omega
      change entry.deadlineTick / 256 ^ levelFor (entry.deadlineTick - targetTick) ≤
        targetTick / 256 ^ levelFor (entry.deadlineTick - targetTick) + 255
      rw [same]
      have monotone := Nat.div_le_div_right (c := 256 ^ entry.level) forward
      omega
  · intro timer member
    obtain ⟨⟨id, entry⟩, listed, rfl⟩ := List.mem_map.mp member
    refine ⟨entry.value, ?_⟩
    rw [content, KeyedMap.mem_toList.mp listed]
    rfl

end Sinks

end TimerWheel

/-! ### One wake-up -/

/-- A wheel without a timer a full revolution ahead, and the timers it holds. -/
structure Sleeping (wheel : TimerWheel T) (pending : List (Timer T)) : Prop where
  coherent : wheel.Coherent 0 []
  represents : wheel.Represents pending
  distinct : Distinct pending
  isMarked : wheel.Marked
  deadlines : ∀ timer ∈ pending, timer.deadline ≤ divCeil u64Max wheel.tickMs
  clock : pending ≠ [] → wheel.currentTick * wheel.tickMs < u64Max

theorem divCeil_le {value divisor bound : Nat} (positive : 0 < divisor)
    (covered : value ≤ bound * divisor) : divCeil value divisor ≤ bound := by
  apply Nat.le_of_lt_succ
  apply (Nat.div_lt_iff_lt_mul positive).mpr
  rw [Nat.succ_mul]
  omega

variable {tick : Nat}

namespace Sleeping

open TimerWheel

variable {wheel : TimerWheel T} {pending : List (Timer T)}

section

variable (sleeping : Sleeping wheel pending)

include sleeping

theorem exists_entry {timer : Timer T} (member : timer ∈ pending) :
    ∃ entry, wheel.entries.lookup timer.serial = some entry ∧
      entry.deadlineTick = timer.deadline := by
  have found := (sleeping.represents timer.deadline timer.serial timer.value).mp member
  obtain ⟨entry, present, same⟩ := Option.map_eq_some_iff.mp found
  exact ⟨entry, present, congrArg Prod.fst same⟩

theorem exists_timer {id : TimerId} {entry : Entry T}
    (present : wheel.entries.lookup id = some entry) :
    ∃ timer ∈ pending, timer.serial = id ∧ timer.deadline = entry.deadlineTick := by
  refine ⟨⟨entry.deadlineTick, id, entry.value⟩, ?_, rfl, rfl⟩
  apply (sleeping.represents _ _ _).mpr
  rw [content, present]
  rfl

theorem nextDeadlineMs_none (empty : pending = []) : wheel.nextDeadlineMs = none := by
  have none : wheel.entries.toList = [] := by
    apply List.eq_nil_iff_forall_not_mem.mpr
    rintro ⟨id, entry⟩ listed
    obtain ⟨timer, member, _⟩ := sleeping.exists_timer (KeyedMap.mem_toList.mp listed)
    rw [empty] at member
    cases member
  unfold nextDeadlineMs
  rw [none]
  rfl

theorem nextDeadlineMs_some (several : pending ≠ []) :
    ∃ tick, wheel.nextDeadlineMs = some (satMul tick wheel.tickMs) ∧
      SoonestSpec wheel 4 (some tick) := by
  obtain ⟨timer, member⟩ := List.exists_mem_of_ne_nil pending several
  obtain ⟨entry, present, _⟩ := sleeping.exists_entry member
  have positive := wheel.tickPositive
  have clock := sleeping.clock several
  have clockTick : wheel.currentTick < u64Max :=
    (Nat.le_mul_of_pos_right _ positive).trans_lt clock
  have inRange : ∀ id entry, wheel.entries.lookup id = some entry →
      entry.deadlineTick ≤ u64Max := by
    intro id entry present
    obtain ⟨timer, member, _, same⟩ := sleeping.exists_timer present
    rw [← same]
    exact (sleeping.deadlines timer member).trans
      (divCeil_le positive (Nat.le_mul_of_pos_right _ positive))
  have spec := soonestFrom_spec sleeping.coherent sleeping.isMarked clockTick inRange 4
    (show 0 + 4 = 4 from rfl) (show SoonestSpec wheel 0 none from fun _ _ _ => Nat.zero_le _)
  have nonempty : wheel.entries.toList.isEmpty = false := by
    apply List.isEmpty_eq_false_iff.mpr
    exact List.ne_nil_of_mem (KeyedMap.mem_toList.mpr present)
  unfold nextDeadlineMs
  rw [nonempty, if_neg Bool.false_ne_true]
  change ∃ tick, Option.map _ (wheel.soonestFrom (List.range' 0 4) none) = _ ∧ _
  cases found : wheel.soonestFrom (List.range' 0 4) none with
  | none =>
    rw [found] at spec
    have level := spec timer.serial entry present
    have inLevels := sleeping.coherent.level_lt present
    omega
  | some tick =>
    rw [found] at spec
    exact ⟨tick, rfl, spec⟩

/-- Advancing to the soonest tick reaches exactly it. -/
theorem advanceTo_next (direct : wheel.Direct) (several : pending ≠ [])
    (spec : SoonestSpec wheel 4 (some tick)) :
    ∃ after : TimerWheel T, wheel.advanceTo (satMul tick wheel.tickMs) =
        (.ok ((due tick pending).map Timer.value), after) ∧
      Sleeping after (remaining tick pending) ∧ Sinks wheel after ∧
      after.currentTick = tick ∧ after.tickMs = wheel.tickMs := by
  obtain ⟨later, bounded, exact⟩ := spec
  obtain ⟨⟨id, entry, present, tickEq⟩, _⟩ := exact direct
  have positive := wheel.tickPositive
  have clock := sleeping.clock several
  have tickLe : tick ≤ divCeil u64Max wheel.tickMs := by
    obtain ⟨timer, member, _, same⟩ := sleeping.exists_timer present
    have level := sleeping.coherent.level_lt present
    have early := bounded id entry present level
    have inRange := sleeping.deadlines timer member
    omega
  have target : (if satMul tick wheel.tickMs = u64Max then
      divCeil (satMul tick wheel.tickMs) wheel.tickMs
      else satMul tick wheel.tickMs / wheel.tickMs) = tick := by
    unfold satMul usizeMax
    by_cases reached : u64Max ≤ tick * wheel.tickMs
    · rw [Nat.min_eq_right reached, if_pos rfl]
      exact Nat.le_antisymm (divCeil_le positive reached) tickLe
    · rw [Nat.min_eq_left (by omega), if_neg (by omega), Nat.mul_div_cancel _ positive]
  have forward : ¬ satMul tick wheel.tickMs < wheel.nowMs := by
    unfold satMul usizeMax TimerWheel.nowMs
    have ordered := Nat.mul_le_mul_right wheel.tickMs (Nat.le_of_lt later)
    omega
  have start : Sinks wheel wheel := Sinks.refl sleeping.coherent direct
  have keepsMarks := sleeping.isMarked.advanceTo (satMul tick wheel.tickMs)
  have finish : ∀ after : TimerWheel T, wheel.advanceTo (satMul tick wheel.tickMs) =
      (.ok ((due tick pending).map Timer.value), after) → Coherent 0 [] after →
      after.Represents (remaining tick pending) →
      after.frame = (wheel.tickMs, tick, wheel.nextId) →
      Sleeping after (remaining tick pending) ∧ after.currentTick = tick ∧
        after.tickMs = wheel.tickMs := by
    intro after run coherent represents frame
    have sameTick : after.currentTick = tick := congrArg (fun frame => frame.2.1) frame
    have sameMs : after.tickMs = wheel.tickMs := congrArg (fun frame => frame.1) frame
    rw [run] at keepsMarks
    refine ⟨⟨coherent, represents, sleeping.distinct.filter _, keepsMarks, ?_, ?_⟩,
      sameTick, sameMs⟩
    · intro timer member
      rw [sameMs]
      exact sleeping.deadlines timer (mem_remaining.mp member).1
    · intro left
      obtain ⟨timer, member⟩ := List.exists_mem_of_ne_nil _ left
      obtain ⟨old, still⟩ := mem_remaining.mp member
      have inRange := sleeping.deadlines timer old
      rw [sameTick, sameMs]
      by_contra reached
      have ceiling := divCeil_le positive (Nat.le_of_not_lt reached)
      omega
  have advanced : wheel.advanceTo (satMul tick wheel.tickMs) =
      if largeAdvanceTicks < tick - wheel.currentTick then
        (.ok (wheel.largeAdvance tick).1, (wheel.largeAdvance tick).2)
      else
        (.ok (TimerWheel.tick^[tick - wheel.currentTick] ([], wheel)).1,
          (TimerWheel.tick^[tick - wheel.currentTick] ([], wheel)).2) := by
    unfold advanceTo
    rw [if_neg forward]
    rw [target]
  by_cases far : largeAdvanceTicks < tick - wheel.currentTick
  · rw [if_pos far] at advanced
    have aligned : tick % 256 ^ 2 = 0 := by
      have inLevels := sleeping.coherent.level_lt present
      have near := direct id entry present
      unfold Entry.blockStart at tickEq
      unfold largeAdvanceTicks at far
      generalize entry.level = level at *
      interval_cases level <;> omega
    obtain ⟨after, run, coherent, represents, frame⟩ :=
      largeAdvance_spec (Nat.le_of_lt later) sleeping.coherent sleeping.represents sleeping.distinct
    have sinks := start.largeAdvance sleeping.coherent (Nat.le_of_lt later) aligned
    rw [run] at advanced sinks
    obtain ⟨next, sameTick, sameMs⟩ := finish after advanced coherent represents frame
    exact ⟨after, advanced, next, sinks, sameTick, sameMs⟩
  · rw [if_neg far] at advanced
    obtain ⟨after, run, coherent, represents, frame⟩ :=
      ticks_spec (tick - wheel.currentTick) sleeping.coherent sleeping.represents sleeping.distinct
    have sinks := start.ticks (tick - wheel.currentTick) sleeping.coherent sleeping.represents
      sleeping.distinct
    rw [run] at advanced sinks
    rw [Nat.add_sub_cancel' (Nat.le_of_lt later)] at advanced represents frame
    obtain ⟨next, sameTick, sameMs⟩ := finish after advanced coherent represents frame
    exact ⟨after, advanced, next, sinks, sameTick, sameMs⟩

end

end Sleeping

/-! ### Counting levels -/

def TimerWheel.levelOf (wheel : TimerWheel T) (id : TimerId) : Nat :=
  (wheel.entries.lookup id).elim 0 Entry.level

def levelsLeft (wheel : TimerWheel T) (pending : List (Timer T)) : Nat :=
  (pending.map (fun timer => wheel.levelOf timer.serial)).sum

def firedAt (tick : Nat) (pending : List (Timer T)) : List (Timer T) :=
  due tick (pending.filter (fun timer => timer.deadline = tick))

theorem due_eq_firedAt (early : ∀ timer ∈ pending, tick ≤ timer.deadline) :
    due tick pending = firedAt tick pending := by
  unfold firedAt due
  rw [List.filter_filter]
  congr 1
  refine List.filter_congr ?_
  intro timer member
  have bound := early timer member
  rw [← Bool.decide_and, decide_eq_decide]
  omega

theorem firedAt_remaining {later : Nat} (pending : List (Timer T)) (after : tick < later) :
    firedAt later (remaining tick pending) = firedAt later pending := by
  unfold firedAt remaining
  rw [List.filter_filter]
  congr 1
  refine List.filter_congr ?_
  intro timer _
  rw [← Bool.decide_and, decide_eq_decide]
  omega

theorem remaining_of_due_nil (nothing : due tick pending = []) :
    remaining tick pending = pending := by
  refine List.filter_eq_self.mpr ?_
  intro timer member
  rw [decide_eq_true_eq]
  by_contra early
  have fires : timer ∈ due tick pending := mem_due.mpr ⟨member, Nat.le_of_not_lt early⟩
  rw [nothing] at fires
  cases fires

theorem remaining_length_lt (some : due tick pending ≠ []) :
    (remaining tick pending).length < pending.length := by
  obtain ⟨timer, fires⟩ := List.exists_mem_of_ne_nil _ some
  obtain ⟨member, early⟩ := mem_due.mp fires
  refine List.length_filter_lt_length_iff_exists.mpr ⟨timer, member, ?_⟩
  rw [decide_eq_true_eq]
  omega

namespace Sleeping

open TimerWheel

variable {wheel after : TimerWheel T} {pending : List (Timer T)}

theorem levelOf_eq {id : TimerId} {entry : Entry T}
    (present : wheel.entries.lookup id = some entry) : wheel.levelOf id = entry.level := by
  rw [levelOf, present]
  rfl

/-- A timer that stays sinks from the level it waited on. -/
theorem levelOf_le (next : Sleeping after (remaining tick pending)) (sinks : Sinks wheel after)
    {timer : Timer T} (member : timer ∈ remaining tick pending) :
    after.levelOf timer.serial ≤ wheel.levelOf timer.serial := by
  obtain ⟨entry, present, _⟩ := next.exists_entry member
  obtain ⟨source, origin, _, lower⟩ := sinks.descends timer.serial entry present
  rw [levelOf_eq present, levelOf_eq origin]
  exact lower

theorem levelsLeft_le (next : Sleeping after (remaining tick pending)) (sinks : Sinks wheel after) :
    levelsLeft after (remaining tick pending) ≤ levelsLeft wheel pending := by
  calc levelsLeft after (remaining tick pending) ≤ levelsLeft wheel (remaining tick pending) :=
      List.sum_le_sum (fun timer member => levelOf_le next sinks member)
    _ ≤ levelsLeft wheel pending :=
      (List.filter_sublist.map _).sum_le_sum (fun _ _ => Nat.zero_le _)

/-- A wake-up that fires nothing empties a bucket of a higher level. -/
theorem levelsLeft_lt (sleeping : Sleeping wheel pending) (direct : wheel.Direct)
    (spec : SoonestSpec wheel 4 (some tick)) (next : Sleeping after (remaining tick pending))
    (sinks : Sinks wheel after) (clock : after.currentTick = tick)
    (nothing : due tick pending = []) :
    levelsLeft after (remaining tick pending) < levelsLeft wheel pending := by
  have stays := remaining_of_due_nil nothing
  obtain ⟨⟨id, source, origin, tickEq⟩, _⟩ := spec.2.2 direct
  obtain ⟨timer, member, same, deadline⟩ := sleeping.exists_timer origin
  have kept : timer ∈ remaining tick pending := by
    rw [stays]
    exact member
  obtain ⟨entry, present, entryDeadline⟩ := next.exists_entry kept
  have ahead :=
    (next.coherent.placed timer.serial entry present List.not_mem_nil).ahead
      (Or.inl (Nat.zero_le _))
  have lower := levelOf_le next sinks kept
  have strict : after.levelOf timer.serial < wheel.levelOf timer.serial := by
    rw [levelOf_eq present, same, levelOf_eq origin] at lower ⊢
    refine Nat.lt_of_le_of_ne lower ?_
    intro sameLevel
    rw [clock, tickEq, entryDeadline, deadline, Entry.blockStart, sameLevel,
      Nat.mul_div_cancel _ (Nat.pow_pos (by decide))] at ahead
    exact Nat.lt_irrefl _ ahead
  rw [stays] at kept ⊢
  refine List.sum_lt_sum _ _ ?_ ⟨timer, kept, strict⟩
  intro other otherMember
  rw [← stays] at otherMember
  exact levelOf_le next sinks otherMember

end Sleeping

/-! ### The sleeping caller -/

def TimerWheel.sleepLoop : Nat → TimerWheel T → List (Nat × Except TimerError (List T))
  | 0, _ => []
  | rounds + 1, wheel =>
    match wheel.nextDeadlineMs with
    | none => []
    | some deadlineMs =>
      let step := wheel.advanceTo deadlineMs
      (deadlineMs, step.1) :: TimerWheel.sleepLoop rounds step.2

def wakeUp (tickMs : Nat) (pending : List (Timer T)) (tick : Nat) :
    Nat × Except TimerError (List T) :=
  (satMul tick tickMs, .ok ((firedAt tick pending).map Timer.value))

structure WakeUps (wheel : TimerWheel T) (pending : List (Timer T)) (rounds : Nat)
    (ticks : List Nat) : Prop where
  records : wheel.sleepLoop rounds = ticks.map (wakeUp wheel.tickMs pending)
  later : ∀ tick ∈ ticks, wheel.currentTick < tick
  increasing : ticks.Pairwise (· < ·)
  empty : (ticks.filter (fun tick => (firedAt tick pending).isEmpty)).length ≤
    levelsLeft wheel pending
  complete : levelsLeft wheel pending + pending.length ≤ rounds →
    ∀ timer ∈ pending, timer.deadline ∈ ticks

namespace Sleeping

open TimerWheel

variable {wheel : TimerWheel T} {pending : List (Timer T)}

theorem wakeUps (rounds : Nat) (sleeping : Sleeping wheel pending) (direct : wheel.Direct) :
    ∃ ticks, WakeUps wheel pending rounds ticks := by
  induction rounds generalizing wheel pending with
  | zero =>
    refine ⟨[], rfl, ?_, List.Pairwise.nil, Nat.zero_le _, ?_⟩
    · intro tick member
      cases member
    · intro enough timer member
      have positive := List.length_pos_of_mem member
      omega
  | succ rounds ih =>
    by_cases several : pending = []
    · refine ⟨[], ?_, ?_, List.Pairwise.nil, Nat.zero_le _, ?_⟩
      · rw [sleepLoop, sleeping.nextDeadlineMs_none several]
        rfl
      · intro tick member
        cases member
      · intro _ timer member
        rw [several] at member
        cases member
    · obtain ⟨tick, answer, spec⟩ := sleeping.nextDeadlineMs_some several
      obtain ⟨after, run, next, sinks, clock, sameMs⟩ :=
        sleeping.advanceTo_next direct several spec
      obtain ⟨ticks, wakes⟩ := ih next sinks.direct
      have early : ∀ timer ∈ pending, tick ≤ timer.deadline := by
        intro timer member
        obtain ⟨entry, present, same⟩ := sleeping.exists_entry member
        rw [← same]
        exact spec.2.1 timer.serial entry present (sleeping.coherent.level_lt present)
      have fired := due_eq_firedAt early
      have unchanged : ∀ other ∈ ticks,
          firedAt other (remaining tick pending) = firedAt other pending := by
        intro other member
        refine firedAt_remaining pending ?_
        rw [← clock]
        exact wakes.later other member
      refine ⟨tick :: ticks, ?_, ?_, ?_, ?_, ?_⟩
      · rw [sleepLoop, answer]
        dsimp only
        rw [run, List.map_cons, wakeUp, fired, wakes.records, sameMs]
        congr 1
        refine List.map_congr_left ?_
        intro other member
        rw [wakeUp, wakeUp, unchanged other member]
      · intro other member
        rcases List.mem_cons.mp member with rfl | rest
        · exact spec.1
        · have afterwards := wakes.later other rest
          rw [clock] at afterwards
          exact spec.1.trans afterwards
      · refine List.pairwise_cons.mpr ⟨?_, wakes.increasing⟩
        intro other member
        rw [← clock]
        exact wakes.later other member
      · have rest : (ticks.filter (fun tick => (firedAt tick pending).isEmpty)).length ≤
            levelsLeft after (remaining tick pending) := by
          have same : ticks.filter (fun tick => (firedAt tick pending).isEmpty) =
              ticks.filter (fun other =>
                (firedAt other (remaining tick pending)).isEmpty) :=
            List.filter_congr (fun other member => by rw [unchanged other member])
          rw [same]
          exact wakes.empty
        rw [List.filter_cons]
        by_cases nothing : due tick pending = []
        · have drop := sleeping.levelsLeft_lt direct spec next sinks clock nothing
          rw [← fired, nothing, List.isEmpty_nil, if_pos rfl, List.length_cons]
          omega
        · have bound := levelsLeft_le next sinks
          rw [← fired, List.isEmpty_eq_false_iff.mpr nothing, if_neg Bool.false_ne_true]
          omega
      · intro enough timer member
        by_cases now : timer.deadline = tick
        · rw [now]
          exact List.mem_cons_self
        · have later := early timer member
          refine List.mem_cons_of_mem _ (wakes.complete ?_ timer
            (mem_remaining.mpr ⟨member, by omega⟩))
          by_cases nothing : due tick pending = []
          · have drop := sleeping.levelsLeft_lt direct spec next sinks clock nothing
            rw [remaining_of_due_nil nothing] at drop ⊢
            omega
          · have bound := levelsLeft_le next sinks
            have fewer := remaining_length_lt nothing
            omega

end Sleeping

/-! ### Whole runs -/

def TimerCall.DeadlineInRange : TimerCall T → Prop
  | .schedule deadlineMs _ => deadlineMs ≤ u64Max
  | _ => True

theorem divCeil_mono {left right divisor : Nat} (ordered : left ≤ right) :
    divCeil left divisor ≤ divCeil right divisor :=
  Nat.div_le_div_right (by omega)

variable {wheel : TimerWheel T}

theorem TimerWheel.Marked.call (isMarked : wheel.Marked) (call : TimerCall T) :
    (wheel.call call).2.Marked := by
  cases call with
  | schedule deadlineMs value => exact isMarked.schedule deadlineMs value
  | cancel id => exact isMarked.cancel id
  | advanceTo nowMs => exact isMarked.advanceTo nowMs

theorem TimerWheel.Marked.calls (isMarked : wheel.Marked) (calls : List (TimerCall T)) :
    (wheel.calls calls).2.Marked := by
  induction calls generalizing wheel with
  | nil => exact isMarked
  | cons call rest ih => exact ih (isMarked.call call)

variable {list : DeadlineList T}

namespace DeadlineList

def Reachable (list : DeadlineList T) : Prop :=
  ∀ timer ∈ list.pending, timer.deadline ≤ divCeil u64Max list.tickMs

theorem deadlineTick_le {deadlineMs : Nat} (positive : 0 < list.tickMs)
    (clock : list.currentTick * list.tickMs < u64Max) (inRange : deadlineMs ≤ u64Max) :
    list.deadlineTick deadlineMs ≤ divCeil u64Max list.tickMs := by
  refine Nat.max_le.mpr ⟨divCeil_mono inRange, ?_⟩
  unfold divCeil
  rw [Nat.le_div_iff_mul_le positive, Nat.succ_mul]
  omega

theorem Reachable.call (reachable : list.Reachable) (positive : 0 < list.tickMs)
    (clock : list.currentTick * list.tickMs < u64Max) {call : TimerCall T}
    (inRange : call.DeadlineInRange) : (list.call call).2.Reachable := by
  cases call with
  | schedule deadlineMs value =>
    simp only [DeadlineList.call]
    split_ifs
    · exact reachable
    · intro timer member
      rcases List.mem_append.mp member with old | new
      · exact reachable timer old
      · rw [List.mem_singleton.mp new]
        exact deadlineTick_le positive clock inRange
  | cancel id =>
    intro timer member
    exact reachable timer (List.mem_filter.mp member).1
  | advanceTo nowMs =>
    simp only [DeadlineList.call]
    split_ifs
    · exact reachable
    · intro timer member
      exact reachable timer (mem_remaining.mp member).1

end DeadlineList

/-- Along a run the reference stays reachable. -/
theorem Refines.reachable (refines : Refines wheel list) (reachable : list.Reachable)
    (calls : List (TimerCall T)) (readings : ∀ call ∈ calls, call.ReadingInRange)
    (deadlines : ∀ call ∈ calls, call.DeadlineInRange)
    (unwrapped : list.serial + scheduleCount calls ≤ 2 ^ 64) : (list.calls calls).2.Reachable := by
  induction calls generalizing wheel list with
  | nil => exact reachable
  | cons first rest ih =>
    rw [scheduleCount, List.map_cons, List.sum_cons] at unwrapped
    have positive : 0 < list.tickMs := by
      rw [← refines.tickMs_eq]
      exact wheel.tickPositive
    obtain ⟨_, next⟩ := refines.call first (readings first List.mem_cons_self) (by omega)
    have kept := reachable.call positive refines.clock (deadlines first List.mem_cons_self)
    have serials := DeadlineList.call_serial_le list first
    refine ih next kept (List.forall_mem_cons.mp readings).2
      (List.forall_mem_cons.mp deadlines).2 ?_
    unfold scheduleCount
    omega

theorem Refines.sleeping (refines : Refines wheel list) (reachable : list.Reachable)
    (isMarked : wheel.Marked) : Sleeping wheel list.pending := by
  refine ⟨refines.coherent, refines.represents, refines.distinct, isMarked, ?_, ?_⟩
  · rw [refines.tickMs_eq]
    exact reachable
  · intro _
    rw [refines.tickMs_eq, refines.currentTick_eq]
    exact refines.clock

/-- The wheel's next deadline lies after the clock and is never late. -/
theorem Sleeping.nextDeadlineMs_bounds (sleeping : Sleeping wheel pending) (several : pending ≠ []) :
    ∃ deadlineMs, wheel.nextDeadlineMs = some deadlineMs ∧ wheel.nowMs < deadlineMs ∧
      ∀ timer ∈ pending, deadlineMs ≤ satMul timer.deadline wheel.tickMs := by
  obtain ⟨tick, answer, later, bounded, _⟩ := sleeping.nextDeadlineMs_some several
  refine ⟨_, answer, ?_, ?_⟩
  · have clock := sleeping.clock several
    have strict := Nat.mul_lt_mul_of_pos_right later wheel.tickPositive
    unfold TimerWheel.nowMs satMul usizeMax
    omega
  · intro timer member
    obtain ⟨entry, present, same⟩ := sleeping.exists_entry member
    have early := bounded timer.serial entry present
      (sleeping.coherent.level_lt present)
    rw [same] at early
    have ordered := Nat.mul_le_mul_right wheel.tickMs early
    unfold satMul
    omega

/-- After every run of calls the next deadline lies after the clock and is
never late. When no timer waits a full revolution ahead, a caller that sleeps
from deadline to deadline sees every timer fire on its tick, and its wake-ups
that fire nothing are at most as many as the levels the timers pass through. -/
theorem sleeping_caller_wakes_once_per_level (tickMs startMs : Nat) (tickPositive : 0 < tickMs)
    (startInRange : startMs < u64Max) (calls : List (TimerCall T))
    (readings : ∀ call ∈ calls, call.ReadingInRange)
    (deadlines : ∀ call ∈ calls, call.DeadlineInRange)
    (unwrapped : scheduleCount calls ≤ 2 ^ 64) :
    let wheel := ((TimerWheel.new tickMs startMs tickPositive : TimerWheel T).calls calls).2
    let pending := ((DeadlineList.new tickMs startMs).calls calls).2.pending
    wheel.Represents pending ∧
      (pending ≠ [] → ∃ deadlineMs, wheel.nextDeadlineMs = some deadlineMs ∧
        wheel.nowMs < deadlineMs ∧
        ∀ timer ∈ pending, deadlineMs ≤ satMul timer.deadline wheel.tickMs) ∧
      (wheel.Direct → ∀ rounds, ∃ ticks, WakeUps wheel pending rounds ticks) := by
  have start : Refines (TimerWheel.new tickMs startMs tickPositive : TimerWheel T)
      (DeadlineList.new tickMs startMs) :=
    Refines.initial tickMs startMs tickPositive startInRange
  have room : (DeadlineList.new tickMs startMs : DeadlineList T).serial +
      scheduleCount calls ≤ 2 ^ 64 := by
    simpa [DeadlineList.new] using unwrapped
  have initially : (DeadlineList.new tickMs startMs : DeadlineList T).Reachable := by
    intro timer member
    cases member
  obtain ⟨_, refines⟩ := start.calls calls readings room
  have sleeping := refines.sleeping
    (start.reachable initially calls readings deadlines room)
    ((TimerWheel.new_marked tickMs startMs tickPositive).calls calls)
  exact ⟨refines.represents, sleeping.nextDeadlineMs_bounds,
    fun direct rounds => sleeping.wakeUps rounds direct⟩

theorem sleeping_caller_two_levels :
    let wheel := ((TimerWheel.new 10 0 (Nat.succ_pos 9) : TimerWheel Bool).calls
      [.schedule 3000 true]).2
    wheel.Direct ∧ ∃ ticks, WakeUps wheel [⟨300, 0, true⟩] 2 ticks := by
  have direct : ((TimerWheel.new 10 0 (Nat.succ_pos 9) : TimerWheel Bool).calls
      [.schedule 3000 true]).2.Direct := by
    intro id entry present
    have listed : (id, entry) ∈ ((TimerWheel.new 10 0 (Nat.succ_pos 9) : TimerWheel Bool).calls
        [.schedule 3000 true]).2.entries.toList := KeyedMap.mem_toList.mpr present
    exact (by decide +kernel : ∀ pair ∈ ((TimerWheel.new 10 0 (Nat.succ_pos 9) :
      TimerWheel Bool).calls [.schedule 3000 true]).2.entries.toList,
      pair.2.deadlineTick / 256 ^ pair.2.level ≤ 0 / 256 ^ pair.2.level + 255) _ listed
  exact ⟨direct, (sleeping_caller_wakes_once_per_level 10 0 (Nat.succ_pos 9) (by decide)
    [.schedule 3000 true] (by simp [TimerCall.ReadingInRange])
    (by simp [TimerCall.DeadlineInRange, u64Max]) (by decide)).2.2 direct 2⟩

/-- A timer one revolution of its level ahead shares the clock's own slot, and
the caller is woken on every tick. -/
theorem revolution_ahead_wakes_every_tick :
    let wheel := ((TimerWheel.new 1 1 (by decide) : TimerWheel Bool).calls [.schedule 65536 true]).2
    let pending := ((DeadlineList.new 1 1).calls [.schedule 65536 true]).2.pending
    levelsLeft wheel pending = 1 ∧ pending.length = 1 ∧
      wheel.sleepLoop 3 = [(2, .ok []), (3, .ok []), (4, .ok [])] := by
  decide +kernel

end Sail.Netstack
