/-
The timer wheel refines a list of deadlines.

The reference keeps every pending timer in one list. The wheel and the
reference give the same answers to every sequence of calls, as long as the
wheel's sixty-four-bit identifiers have not run out.
-/

import Sail.Lib.DeadlineQueue
import Sail.Netstack.TimerWheelInvariant

namespace Sail.Netstack

open DeadlineQueue

variable {T : Type}

namespace TimerWheel

def Represents (wheel : TimerWheel T) (pending : List (Timer T)) : Prop :=
  ∀ deadline id value,
    (⟨deadline, id, value⟩ : Timer T) ∈ pending ↔ wheel.content id = some (deadline, value)

theorem currentTick_eq_of_frame {left right : TimerWheel T}
    (same : left.frame = right.frame) :
    left.currentTick = right.currentTick :=
  congrArg (fun frame => frame.2.1) same

def timersOf (wheel : TimerWheel T) (ids : List TimerId) : List (Timer T) :=
  ids.filterMap (fun id => (wheel.content id).map (fun timer => ⟨timer.1, id, timer.2⟩))

variable {pending : List (Timer T)} {wheel : TimerWheel T} {id : TimerId}

/-- Identifiers listed by deadline and then by number, that are exactly the ones
due, name the reference's due list. -/
theorem timersOf_eq_due (represents : wheel.Represents pending) (distinct : Distinct pending)
    {bound : Nat} {ids : List TimerId} (nodup : ids.Nodup)
    (members : ∀ id, id ∈ ids ↔ ∃ timer, wheel.content id = some timer ∧ timer.1 ≤ bound)
    (ordered : ids.Pairwise (fun left right => ∀ first second,
      wheel.content left = some first → wheel.content right = some second →
      dueBefore (first.1, left) (second.1, right))) :
    timersOf wheel ids = due bound pending := by
  refine distinct.eq_due ?_ ?_ ?_
  · rintro ⟨deadline, serial, value⟩
    rw [represents, timersOf, List.mem_filterMap]
    constructor
    · rintro ⟨id, member, found⟩
      obtain ⟨timer, present, early⟩ := (members id).mp member
      rw [present, Option.map_some, Option.some.injEq] at found
      cases found
      exact ⟨present, early⟩
    · rintro ⟨present, early⟩
      refine ⟨serial, (members serial).mpr ⟨_, present, early⟩, ?_⟩
      rw [present, Option.map_some]
  · rw [List.Nodup, timersOf, List.pairwise_filterMap]
    refine nodup.imp ?_
    intro left right different first firstFound second secondFound same
    obtain ⟨_, _, rfl⟩ := Option.map_eq_some_iff.mp firstFound
    obtain ⟨_, _, rfl⟩ := Option.map_eq_some_iff.mp secondFound
    exact different (congrArg Timer.serial same)
  · rw [timersOf, List.pairwise_filterMap]
    refine ordered.imp ?_
    intro left right order first firstFound second secondFound
    obtain ⟨firstTimer, firstPresent, rfl⟩ := Option.map_eq_some_iff.mp firstFound
    obtain ⟨secondTimer, secondPresent, rfl⟩ := Option.map_eq_some_iff.mp secondFound
    exact order firstTimer secondTimer firstPresent secondPresent

theorem Represents.remaining {after : TimerWheel T} (represents : wheel.Represents pending)
    {bound : Nat}
    (kept : ∀ id, after.content id =
      (wheel.content id).filter (fun timer => bound < timer.1)) :
    after.Represents (remaining bound pending) := by
  intro deadline id value
  rw [mem_remaining, represents, kept, Option.filter_eq_some_iff, decide_eq_true_iff]

/-! ### One tick -/

theorem expire_due {entry : Entry T} (values : List T)
    (present : wheel.entries.lookup id = some entry)
    (early : entry.deadlineTick ≤ wheel.currentTick) :
    expire (values, wheel) id =
      (values ++ [entry.value], { wheel with entries := wheel.entries.erase id }) := by
  simp only [expire, present, if_pos early]

theorem erase_content (wheel : TimerWheel T) (id other : TimerId) :
    ({ wheel with entries := wheel.entries.erase id } : TimerWheel T).content other =
      if other = id then none else wheel.content other := by
  change ((wheel.entries.erase id).lookup other).map _ = _
  rw [KeyedMap.lookup_erase_ite]
  split_ifs <;> rfl

theorem erase_coherent {strictFrom : Nat} {loose : List TimerId}
    (coherent : Coherent strictFrom (id :: loose) wheel) :
    Coherent strictFrom loose { wheel with entries := wheel.entries.erase id } := by
  have lookups (other : TimerId) (entry : Entry T)
      (found : (wheel.entries.erase id).lookup other = some entry) :
      other ≠ id ∧ wheel.entries.lookup other = some entry := by
    rw [KeyedMap.lookup_erase_ite] at found
    split_ifs at found with same
    exact ⟨same, found⟩
  refine ⟨?_, ?_, ?_, ?_⟩
  · intro level slot other
    rw [coherent.stored, KeyedMap.lookup_erase_ite]
    by_cases same : other = id
    · simp [same]
    · simp [same]
  · intro other entry found notLoose
    obtain ⟨different, present⟩ := lookups other entry found
    exact coherent.placed other entry present (by simp [different, notLoose])
  · intro other entry found
    exact coherent.notPast other entry (lookups other entry found).2
  · intro other entry found
    exact coherent.inHorizon other entry (lookups other entry found).2

/-- Expiring loose identifiers that are all due hands out their values in
order and removes nothing else. -/
theorem foldl_expire (ids : List TimerId) (values : List T) (wheel : TimerWheel T)
    (coherent : Coherent 0 ids wheel) (nodup : ids.Nodup)
    (allDue : ∀ id ∈ ids, ∃ timer, wheel.content id = some timer ∧ timer.1 ≤ wheel.currentTick) :
    ∃ after : TimerWheel T, ids.foldl expire (values, wheel) =
        (values ++ (timersOf wheel ids).map Timer.value, after) ∧
      Coherent 0 [] after ∧ after.frame = wheel.frame ∧
      ∀ id, after.content id = if id ∈ ids then none else wheel.content id := by
  induction ids generalizing values wheel with
  | nil =>
    exact ⟨wheel, by simp [timersOf], coherent, rfl, fun id => by simp⟩
  | cons id ids ih =>
    rw [List.nodup_cons] at nodup
    obtain ⟨timer, present, early⟩ := allDue id List.mem_cons_self
    obtain ⟨entry, found, rfl⟩ := Option.map_eq_some_iff.mp present
    have others (other : TimerId) (member : other ∈ ids) : other ≠ id := by
      rintro rfl
      exact nodup.1 member
    obtain ⟨after, run, afterCoherent, frame, contents⟩ :=
      ih (values ++ [entry.value]) { wheel with entries := wheel.entries.erase id }
        (erase_coherent coherent) nodup.2
        (fun other member => by
          rw [erase_content, if_neg (others other member)]
          exact allDue other (List.mem_cons_of_mem _ member))
    refine ⟨after, ?_, afterCoherent, frame, ?_⟩
    · rw [List.foldl_cons, expire_due values found early, run]
      have sameTimers : timersOf { wheel with entries := wheel.entries.erase id } ids =
            timersOf wheel ids := by
        refine List.filterMap_congr ?_
        intro other member
        rw [erase_content, if_neg (others other member)]
      rw [sameTimers]
      simp [timersOf, present]
    · intro other
      rw [contents, erase_content]
      by_cases same : other = id
      · simp [same]
      · simp [same]

theorem advanceClock_coherent (coherent : Coherent 0 [] wheel) :
    Coherent 4 [] { wheel with currentTick := wheel.currentTick + 1 } := by
  refine ⟨coherent.stored, ?_, ?_, ?_⟩
  · intro id entry present notLoose
    exact (coherent.placed id entry present notLoose).tick
  · intro id entry present
    exact coherent.deadline_later present
  · intro id entry present
    have bound := coherent.inHorizon id entry present
    change entry.deadlineTick < wheel.currentTick + 1 + 2 ^ 32
    omega

/-- Taking out the timers due by a tick leaves those behind it. -/
theorem content_unlisted {found : Option (Nat × T)} {listed : Prop} [Decidable listed] {tick : Nat}
    (member : listed ↔ ∃ timer, found = some timer ∧ timer.1 ≤ tick) :
    (if listed then none else found) = found.filter (fun timer => tick < timer.1) := by
  cases found with
  | none => simp
  | some timer =>
    simp only [Option.some.injEq, exists_eq_left'] at member
    by_cases early : timer.1 ≤ tick <;> simp [Option.filter_some, member, early]

/-- One round of the loop hands out exactly the reference's timers due by the
next tick. -/
theorem tick_spec (values : List T) (coherent : Coherent 0 [] wheel)
    (represents : wheel.Represents pending) (distinct : Distinct pending) :
    ∃ after : TimerWheel T, tick (values, wheel) =
        (values ++ (due (wheel.currentTick + 1) pending).map Timer.value, after) ∧
      Coherent 0 [] after ∧
      after.Represents (remaining (wheel.currentTick + 1) pending) ∧
      after.frame = (wheel.tickMs, wheel.currentTick + 1, wheel.nextId) := by
  let moved : TimerWheel T := { wheel with currentTick := wheel.currentTick + 1 }
  let cascaded := moved.cascadeBoundaries
  have frame : cascaded.frame = moved.frame := cascadeBoundaries_frame moved
  have sameTick : cascaded.currentTick = wheel.currentTick + 1 :=
    currentTick_eq_of_frame frame
  have contents (id : TimerId) : cascaded.content id = wheel.content id :=
    cascadeBoundaries_content moved id
  have settled : Coherent 1 [] cascaded :=
    cascadeBoundaries_coherent (advanceClock_coherent coherent)
  let taken := cascaded.takeSlot 0 (slotFor cascaded.currentTick 0)
  have members (id : TimerId) : id ∈ taken.1 ↔
      ∃ timer, cascaded.content id = some timer ∧ timer.1 ≤ wheel.currentTick + 1 := by
    rw [takeSlot_ids, settled.stored, ← sameTick]
    constructor
    · rintro ⟨notLoose, entry, present, levelEq, slotEq⟩
      refine ⟨(entry.deadlineTick, entry.value), by simp [content, present], ?_⟩
      have placed := settled.placed id entry present notLoose
      rw [levelEq] at placed
      exact (placed.due_of_slot (settled.notPast id entry present) slotEq).le
    · rintro ⟨timer, found, early⟩
      obtain ⟨entry, present, rfl⟩ := Option.map_eq_some_iff.mp found
      have placed := settled.placed id entry present List.not_mem_nil
      have dueNow : entry.deadlineTick = cascaded.currentTick :=
        Nat.le_antisymm early (settled.notPast id entry present)
      rw [dueNow] at placed
      exact ⟨List.not_mem_nil, entry, present, placed.slot_of_due⟩
  obtain ⟨after, run, afterCoherent, afterFrame, afterContent⟩ :=
    foldl_expire taken.1 values taken.2 (takeSlot_coherent settled)
      (takeSlot_nodup _ _ _)
      (fun id member => by
        change ∃ timer, cascaded.content id = some timer ∧ timer.1 ≤ cascaded.currentTick
        rw [sameTick]
        exact (members id).mp member)
  have sorted : timersOf taken.2 taken.1 = due (wheel.currentTick + 1) pending := by
    change timersOf cascaded taken.1 = _
    refine timersOf_eq_due (fun deadline id value => by rw [contents, represents])
      distinct (takeSlot_nodup _ _ _) members ?_
    refine (List.Pairwise.and_mem.mp (Finset.pairwise_sort _ (· ≤ ·))).imp ?_
    rintro left right ⟨leftMem, rightMem, order⟩ first second leftFound rightFound
    obtain ⟨_, leftPresent, leftDue⟩ := (members left).mp leftMem
    obtain ⟨_, rightPresent, rightDue⟩ := (members right).mp rightMem
    rw [leftFound] at leftPresent
    rw [rightFound] at rightPresent
    cases leftPresent
    cases rightPresent
    obtain ⟨leftEntry, leftLookup, rfl⟩ := Option.map_eq_some_iff.mp leftFound
    obtain ⟨rightEntry, rightLookup, rfl⟩ := Option.map_eq_some_iff.mp rightFound
    have leftLate := settled.notPast left leftEntry leftLookup
    have rightLate := settled.notPast right rightEntry rightLookup
    refine Or.inr ⟨?_, order⟩
    omega
  refine ⟨after, ?_, afterCoherent, ?_, afterFrame.trans frame⟩
  · change taken.1.foldl expire (values, taken.2) = _
    rw [run, sorted]
  · refine represents.remaining (fun id => ?_)
    rw [afterContent, ← contents]
    exact content_unlisted (members id)

/-- The tick loop hands out exactly the reference's timers due by the last tick
it reaches. -/
theorem ticks_spec (rounds : Nat) (coherent : Coherent 0 [] wheel)
    (represents : wheel.Represents pending) (distinct : Distinct pending) :
    ∃ after : TimerWheel T, tick^[rounds] ([], wheel) =
        ((due (wheel.currentTick + rounds) pending).map Timer.value, after) ∧
      Coherent 0 [] after ∧
      after.Represents (remaining (wheel.currentTick + rounds) pending) ∧
      after.frame = (wheel.tickMs, wheel.currentTick + rounds, wheel.nextId) := by
  induction rounds with
  | zero =>
    have future (timer : Timer T) (member : timer ∈ pending) :
        wheel.currentTick < timer.deadline := by
      obtain ⟨entry, present, same⟩ := Option.map_eq_some_iff.mp
        ((represents timer.deadline timer.serial timer.value).mp member)
      have sameDeadline : entry.deadlineTick = timer.deadline := congrArg Prod.fst same
      rw [← sameDeadline]
      exact coherent.deadline_later present
    refine ⟨wheel, ?_, coherent, ?_, rfl⟩
    · have noneDue : pending.filter
          (fun timer => timer.deadline ≤ wheel.currentTick + 0) = [] := by
        refine List.filter_eq_nil_iff.mpr ?_
        intro timer member
        have later := future timer member
        simpa using later
      rw [due, noneDue]
      rfl
    · have allKept : remaining (wheel.currentTick + 0) pending = pending := by
        refine List.filter_eq_self.mpr ?_
        intro timer member
        simpa using future timer member
      rw [allKept]
      exact represents
  | succ rounds ih =>
    obtain ⟨middle, run, middleCoherent, middleRepresents, middleFrame⟩ := ih
    have middleTick : middle.currentTick = wheel.currentTick + rounds :=
      congrArg (fun frame => frame.2.1) middleFrame
    obtain ⟨after, step, afterCoherent, afterRepresents, afterFrame⟩ :=
      tick_spec ((due (wheel.currentTick + rounds) pending).map Timer.value)
        middleCoherent middleRepresents (distinct.filter _)
    rw [middleTick, Nat.add_assoc] at step afterRepresents
    refine ⟨after, ?_, afterCoherent, ?_, ?_⟩
    · rw [Function.iterate_succ_apply', run, step, ← List.map_append, distinct.due_split (by omega)]
    · rw [remaining_remaining (by omega)] at afterRepresents
      exact afterRepresents
    · rw [afterFrame, middleTick, Nat.add_assoc,
        show middle.tickMs = wheel.tickMs from congrArg Prod.fst middleFrame,
        show middle.nextId = wheel.nextId from
          congrArg (fun frame => frame.2.2) middleFrame]

/-! ### One large advance -/

instance : Std.Total dueBefore where
  total left right := by
    unfold dueBefore
    omega

instance : IsTrans (Nat × Nat) dueBefore where
  trans first second third := by
    unfold dueBefore
    omega

def dueKeys (wheel : TimerWheel T) (targetTick : Nat) : List (Nat × TimerId) :=
  (wheel.entries.toList.filterMap (fun entry =>
    if entry.2.deadlineTick ≤ targetTick then some (entry.2.deadlineTick, entry.1)
    else none)).insertionSort dueBefore

theorem mem_dueKeys {targetTick deadline : Nat} :
    (deadline, id) ∈ wheel.dueKeys targetTick ↔
      deadline ≤ targetTick ∧ ∃ value, wheel.content id = some (deadline, value) := by
  simp only [dueKeys, List.mem_insertionSort, List.mem_filterMap, Option.ite_none_right_eq_some,
    Option.some.injEq, Prod.mk.injEq, Prod.exists, KeyedMap.mem_toList, content,
    Option.map_eq_some_iff]
  constructor
  · rintro ⟨_, entry, present, early, rfl, rfl⟩
    exact ⟨early, entry.value, entry, present, rfl, rfl⟩
  · rintro ⟨early, _, entry, present, rfl, rfl⟩
    exact ⟨id, entry, present, early, rfl, rfl⟩

theorem dueKeys_nodup (wheel : TimerWheel T) (targetTick : Nat) :
    ((wheel.dueKeys targetTick).map Prod.snd).Nodup := by
  have perm := (List.perm_insertionSort dueBefore (wheel.entries.toList.filterMap (fun entry =>
    if entry.2.deadlineTick ≤ targetTick then some (entry.2.deadlineTick, entry.1)
    else none))).map Prod.snd
  refine perm.nodup_iff.mpr ?_
  have keys := KeyedMap.nodup_keys_toList wheel.entries
  rw [List.Nodup, List.pairwise_map] at keys ⊢
  rw [List.pairwise_filterMap]
  refine keys.imp ?_
  intro left right different first firstFound second secondFound
  rw [Option.ite_none_right_eq_some, Option.some.injEq] at firstFound secondFound
  rw [← firstFound.2, ← secondFound.2]
  exact different

/-- Collecting identifiers hands out their values in order and removes nothing
else. -/
theorem foldl_collect (keys : List (Nat × TimerId)) (values : List T)
    (entries : KeyedMap TimerId (Entry T)) (nodup : (keys.map Prod.snd).Nodup) :
    ∃ after : KeyedMap TimerId (Entry T), keys.foldl collect (values, entries) =
        (values ++ keys.filterMap (fun key => (entries.lookup key.2).map Entry.value), after) ∧
      ∀ id, after.lookup id =
        if id ∈ keys.map Prod.snd then none else entries.lookup id := by
  induction keys generalizing values entries with
  | nil => exact ⟨entries, by simp, fun id => by simp⟩
  | cons key keys ih =>
    rw [List.map_cons, List.nodup_cons] at nodup
    cases present : entries.lookup key.2 with
    | none =>
      obtain ⟨after, run, lookups⟩ := ih values entries nodup.2
      refine ⟨after, ?_, ?_⟩
      · simp only [List.foldl_cons, collect, present, run, List.filterMap_cons, Option.map_none]
      · intro id
        rw [lookups]
        by_cases same : id = key.2
        · rw [same, present, ite_self, ite_self]
        · simp only [List.map_cons, List.mem_cons, same, false_or]
    | some entry =>
      obtain ⟨after, run, lookups⟩ :=
        ih (values ++ [entry.value]) (entries.erase key.2) nodup.2
      have others (other : Nat × TimerId) (member : other ∈ keys) : other.2 ≠ key.2 := by
        intro same
        exact nodup.1 (same ▸ List.mem_map_of_mem member)
      refine ⟨after, ?_, ?_⟩
      · have sameValues : keys.filterMap (fun other =>
              ((entries.erase key.2).lookup other.2).map Entry.value) =
            keys.filterMap (fun other => (entries.lookup other.2).map Entry.value) := by
          refine List.filterMap_congr ?_
          intro other member
          rw [KeyedMap.lookup_erase_ite, if_neg (others other member)]
        simp only [List.foldl_cons, collect, present, run, sameValues,
          List.filterMap_cons, Option.map_some, List.append_assoc, List.singleton_append]
      · intro id
        rw [lookups, KeyedMap.lookup_erase_ite]
        by_cases same : id = key.2
        · simp [same]
        · simp only [List.map_cons, List.mem_cons, same, false_or, if_false]

theorem foldl_place_eq_replace (timers : List (TimerId × Nat)) (wheel : TimerWheel T)
    (matching : ∀ timer ∈ timers, ∃ value, wheel.content timer.1 = some (timer.2, value)) :
    timers.foldl (fun wheel timer => wheel.place timer.1 timer.2) wheel =
      (timers.map Prod.fst).foldl replace wheel := by
  induction timers generalizing wheel with
  | nil => rfl
  | cons timer timers ih =>
    obtain ⟨value, found⟩ := matching timer List.mem_cons_self
    obtain ⟨entry, present, same⟩ := Option.map_eq_some_iff.mp found
    have sameDeadline : entry.deadlineTick = timer.2 := congrArg Prod.fst same
    have placed : wheel.replace timer.1 = wheel.place timer.1 timer.2 := by
      simp only [replace, present, sameDeadline]
    rw [List.foldl_cons, List.map_cons, List.foldl_cons, placed]
    refine ih _ ?_
    intro other member
    rw [place_content]
    exact matching other (List.mem_cons_of_mem _ member)

/-- A large advance hands out exactly the reference's timers due by the target
tick. -/
theorem largeAdvance_spec {targetTick : Nat} (forward : wheel.currentTick ≤ targetTick)
    (coherent : Coherent 0 [] wheel) (represents : wheel.Represents pending)
    (distinct : Distinct pending) :
    ∃ after : TimerWheel T,
      wheel.largeAdvance targetTick = ((due targetTick pending).map Timer.value, after) ∧
      Coherent 0 [] after ∧
      after.Represents (remaining targetTick pending) ∧
      after.frame = (wheel.tickMs, targetTick, wheel.nextId) := by
  obtain ⟨entries, collected, lookups⟩ :=
    foldl_collect (wheel.dueKeys targetTick) [] wheel.entries (wheel.dueKeys_nodup targetTick)
  let ids := (wheel.dueKeys targetTick).map Prod.snd
  have members (id : TimerId) : id ∈ ids ↔
      ∃ timer, wheel.content id = some timer ∧ timer.1 ≤ targetTick := by
    rw [List.mem_map]
    constructor
    · rintro ⟨⟨deadline, _⟩, member, rfl⟩
      obtain ⟨early, value, found⟩ := mem_dueKeys.mp member
      exact ⟨(deadline, value), found, early⟩
    · rintro ⟨⟨deadline, value⟩, found, early⟩
      exact ⟨(deadline, id), mem_dueKeys.mpr ⟨early, value, found⟩, rfl⟩
  have sorted : timersOf wheel ids = due targetTick pending := by
    refine timersOf_eq_due represents distinct (wheel.dueKeys_nodup targetTick) members ?_
    refine List.pairwise_map.mpr ((List.Pairwise.and_mem.mp
      (List.pairwise_insertionSort dueBefore _)).imp ?_)
    rintro ⟨_, left⟩ ⟨_, right⟩ ⟨leftMem, rightMem, order⟩ first second leftFound rightFound
    obtain ⟨_, _, leftPresent⟩ := mem_dueKeys.mp leftMem
    obtain ⟨_, _, rightPresent⟩ := mem_dueKeys.mp rightMem
    rw [leftFound, Option.some.injEq] at leftPresent
    rw [rightFound, Option.some.injEq] at rightPresent
    rw [leftPresent, rightPresent]
    exact order
  have values : (wheel.dueKeys targetTick).filterMap
      (fun key => (wheel.entries.lookup key.2).map Entry.value) =
        (due targetTick pending).map Timer.value := by
    rw [← sorted, timersOf, List.map_filterMap, List.filterMap_map]
    refine List.filterMap_congr ?_
    intro key _member
    simp only [content, Function.comp_apply, Option.map_map]
    rfl
  let cleared : TimerWheel T :=
    { wheel with
      currentTick := targetTick
      buckets := fun _ _ => ∅
      occupied := fun _ _ => 0
      entries }
  have kept (id : TimerId) : cleared.content id =
      (wheel.content id).filter (fun timer => targetTick < timer.1) := by
    change (entries.lookup id).map _ = _
    rw [lookups, apply_ite (Option.map _)]
    exact content_unlisted (members id)
  have future (id : TimerId) (timer : Nat × T) (found : cleared.content id = some timer) :
      wheel.content id = some timer ∧ targetTick < timer.1 := by
    rw [kept, Option.filter_eq_some_iff] at found
    exact ⟨found.1, by simpa using found.2⟩
  let timers := cleared.entries.toList.map (fun entry => (entry.1, entry.2.deadlineTick))
  have loose : timers.map Prod.fst = cleared.entries.toList.map Prod.fst := by
    rw [List.map_map]
    rfl
  have listed (id : TimerId) (entry : Entry T) (present : entries.lookup id = some entry) :
      id ∈ timers.map Prod.fst := by
    rw [loose]
    exact List.mem_map_of_mem (KeyedMap.mem_toList.mpr present)
  have clearedCoherent : Coherent 0 (timers.map Prod.fst) cleared := by
    refine ⟨?_, ?_, ?_, ?_⟩
    · intro level slot id
      simp only [cleared, Finset.notMem_empty, false_iff, not_and, not_exists]
      intro notLoose entry present
      exact absurd (listed id entry present) notLoose
    · intro id entry present notLoose
      exact absurd (listed id entry present) notLoose
    all_goals
      intro id entry present
      have found : cleared.content id = some (entry.deadlineTick, entry.value) := by
        change (entries.lookup id).map _ = _
        rw [present]
        rfl
      obtain ⟨original, later⟩ := future id _ found
      obtain ⟨old, oldPresent, same⟩ := Option.map_eq_some_iff.mp original
    · exact later.le
    · have bound := coherent.inHorizon id old oldPresent
      have sameDeadline : old.deadlineTick = entry.deadlineTick := congrArg Prod.fst same
      change entry.deadlineTick < targetTick + 2 ^ 32
      omega
  have matching : ∀ timer ∈ timers, ∃ value,
      cleared.content timer.1 = some (timer.2, value) := by
    intro timer member
    obtain ⟨⟨id, entry⟩, stored, rfl⟩ := List.mem_map.mp member
    refine ⟨entry.value, ?_⟩
    change (entries.lookup id).map _ = _
    rw [show entries.lookup id = some entry from KeyedMap.mem_toList.mp stored]
    rfl
  refine ⟨(timers.map Prod.fst).foldl replace cleared, ?_, ?_, ?_, ?_⟩
  · rw [← values, ← foldl_place_eq_replace timers cleared matching]
    change (((wheel.dueKeys targetTick).foldl collect ([], wheel.entries)).1, _) = _
    simp only [← dueKeys.eq_def, collected, List.nil_append]
    rfl
  · refine foldl_replace_coherent _ _ (Or.inr (fun id timer found => (future id timer found).2))
      clearedCoherent ?_
    rw [loose]
    exact KeyedMap.nodup_keys_toList _
  · refine represents.remaining (fun id => ?_)
    rw [foldl_replace_content, kept]
  · rw [foldl_replace_frame]
    rfl

/-- Both ways of advancing the clock agree with the reference. -/
theorem advanceTo_spec {nowMs : Nat} (inRange : nowMs < u64Max) (forward : wheel.nowMs ≤ nowMs)
    (coherent : Coherent 0 [] wheel) (represents : wheel.Represents pending)
    (distinct : Distinct pending) :
    ∃ after : TimerWheel T, wheel.advanceTo nowMs =
        (.ok ((due (nowMs / wheel.tickMs) pending).map Timer.value), after) ∧
      Coherent 0 [] after ∧
      after.Represents (remaining (nowMs / wheel.tickMs) pending) ∧
      after.frame = (wheel.tickMs, nowMs / wheel.tickMs, wheel.nextId) := by
  have reached : wheel.currentTick ≤ nowMs / wheel.tickMs := by
    rw [Nat.le_div_iff_mul_le wheel.tickPositive]
    unfold TimerWheel.nowMs at forward
    omega
  have notLast : nowMs ≠ u64Max := Nat.ne_of_lt inRange
  unfold advanceTo
  rw [if_neg (Nat.not_lt.mpr forward)]
  simp only [if_neg notLast]
  split_ifs with large
  · obtain ⟨after, run, rest⟩ := largeAdvance_spec reached coherent represents distinct
    exact ⟨after, by rw [run], rest⟩
  · obtain ⟨after, run, rest⟩ :=
      ticks_spec (nowMs / wheel.tickMs - wheel.currentTick) coherent represents distinct
    rw [Nat.add_sub_cancel' reached] at run rest
    exact ⟨after, by rw [run], rest⟩

/-! ### Scheduling and cancelling -/

/-- Storing a timer under an unused identifier adds exactly that timer. -/
theorem store_spec {deadlineTick : Nat} (value : T) (nextId : Nat)
    (coherent : Coherent 0 [] wheel) (unused : wheel.content id = none)
    (later : wheel.currentTick < deadlineTick)
    (inHorizon : deadlineTick < wheel.currentTick + 2 ^ 32) (after : TimerWheel T)
    (stored : after =
      ({ wheel with
        nextId
        entries := wheel.entries.insert id
          { deadlineTick
            level := (bucketFor wheel.currentTick deadlineTick).1
            slot := (bucketFor wheel.currentTick deadlineTick).2
            value } } : TimerWheel T).insertInto
        (bucketFor wheel.currentTick deadlineTick).1
        (bucketFor wheel.currentTick deadlineTick).2 id) :
    Coherent 0 [] after ∧ ∀ other, after.content other =
        if other = id then some (deadlineTick, value) else wheel.content other := by
  have absent : wheel.entries.lookup id = none := Option.map_eq_none_iff.mp unused
  have lookups (other : TimerId) : after.entries.lookup other =
      if other = id then
        some
          { deadlineTick
            level := (bucketFor wheel.currentTick deadlineTick).1
            slot := (bucketFor wheel.currentTick deadlineTick).2
            value }
      else wheel.entries.lookup other := by
    rw [stored]
    exact KeyedMap.lookup_insert_ite _ _ _ _
  have sameTick : after.currentTick = wheel.currentTick := by
    rw [stored]
    rfl
  refine ⟨⟨?_, ?_, ?_, ?_⟩, ?_⟩
  · intro level slot other
    have before := coherent.stored level slot other
    simp only [List.not_mem_nil, not_false_eq_true, true_and] at before ⊢
    rw [lookups, stored]
    change other ∈ setBucket _ _ _ _ _ _ ↔ _
    rw [mem_setBucket]
    by_cases same : other = id
    · subst same
      rw [absent] at before
      simp only [reduceCtorEq, false_and, exists_false, iff_false] at before
      rw [if_pos rfl]
      split_ifs with here
      · simp [here]
      · simp only [Option.some.injEq, exists_eq_left']
        constructor
        · intro member
          exact absurd member before
        · rintro ⟨levelEq, slotEq⟩
          exact absurd ⟨levelEq.symm, slotEq.symm⟩ here
    · rw [if_neg same, ← before]
      split_ifs with here
      · rw [here.1, here.2]
        simp [same]
      · rfl
  · intro other entry found notLoose
    rw [lookups] at found
    rw [sameTick]
    split_ifs at found with same
    · cases found
      exact bucketFor_placed later.le inHorizon (Or.inr later)
    · exact coherent.placed other entry found notLoose
  · intro other entry found
    rw [lookups] at found
    rw [sameTick]
    split_ifs at found with same
    · cases found
      exact later.le
    · exact coherent.notPast other entry found
  · intro other entry found
    rw [lookups] at found
    rw [sameTick]
    split_ifs at found with same
    · cases found
      exact inHorizon
    · exact coherent.inHorizon other entry found
  · intro other
    unfold content
    rw [lookups]
    split_ifs <;> rfl

/-- Cancelling removes exactly the named timer, or nothing. -/
theorem cancel_spec (id : TimerId) (coherent : Coherent 0 [] wheel) :
    (wheel.cancel id).1 = (wheel.content id).map Prod.snd ∧ Coherent 0 [] (wheel.cancel id).2 ∧
      (wheel.cancel id).2.frame = wheel.frame ∧
      ∀ other, (wheel.cancel id).2.content other =
        if other = id then none else wheel.content other := by
  unfold cancel
  cases present : wheel.entries.lookup id with
  | none =>
    refine ⟨by simp [content, present], coherent, rfl, ?_⟩
    intro other
    split_ifs with same
    · rw [same, content, present]
      rfl
    · rfl
  | some entry =>
    refine ⟨by simp [content, present], ⟨?_, ?_, ?_, ?_⟩, rfl, ?_⟩
    · intro level slot other
      have before := coherent.stored level slot other
      simp only [List.not_mem_nil, not_false_eq_true, true_and] at before ⊢
      change other ∈ setBucket _ _ _ _ _ _ ↔
        ∃ found, (wheel.entries.erase id).lookup other = some found ∧ _
      rw [mem_setBucket, KeyedMap.lookup_erase_ite]
      by_cases same : other = id
      · subst same
        rw [if_pos rfl]
        rw [present] at before
        simp only [Option.some.injEq, exists_eq_left'] at before
        split_ifs with here
        · simp
        · simp only [false_and, exists_false, iff_false, before]
          rintro ⟨levelEq, slotEq⟩
          exact here ⟨levelEq.symm, slotEq.symm⟩
      · rw [if_neg same, ← before]
        split_ifs with here
        · rw [here.1, here.2]
          simp [same]
        · rfl
    · intro other found lookup notLoose
      exact coherent.placed other found (KeyedMap.lookup_of_erase lookup) notLoose
    · intro other found lookup
      exact coherent.notPast other found (KeyedMap.lookup_of_erase lookup)
    · intro other found lookup
      exact coherent.inHorizon other found (KeyedMap.lookup_of_erase lookup)
    · intro other
      exact erase_content wheel id other

end TimerWheel

end Sail.Netstack
