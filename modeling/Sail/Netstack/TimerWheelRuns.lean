/-
Runs of the timer wheel.

The reference model is one list of pending timers with a clock and a serial
number. Every sequence of calls gets the same answers from the wheel as from
the reference, up to the point where identifiers repeat.
-/

import Sail.Netstack.TimerWheelRefinement

namespace Sail.Netstack

open DeadlineQueue

variable {T : Type}

inductive TimerCall (T : Type) where
  | schedule (deadlineMs : Nat) (value : T)
  | cancel (id : TimerId)
  | advanceTo (nowMs : Nat)
deriving DecidableEq

inductive TimerAnswer (T : Type) where
  | scheduled (result : Except TimerError TimerId)
  | cancelled (result : Option T)
  | advanced (result : Except TimerError (List T))

def TimerCall.ReadingInRange : TimerCall T → Prop
  | .advanceTo nowMs => nowMs < u64Max
  | _ => True

def TimerCall.schedules : TimerCall T → Nat
  | .schedule _ _ => 1
  | _ => 0

def scheduleCount (calls : List (TimerCall T)) : Nat :=
  (calls.map TimerCall.schedules).sum

def TimerWheel.call (wheel : TimerWheel T) : TimerCall T → TimerAnswer T × TimerWheel T
  | .schedule deadlineMs value =>
    let result := wheel.schedule deadlineMs value
    (.scheduled result.1, result.2)
  | .cancel id =>
    let result := wheel.cancel id
    (.cancelled result.1, result.2)
  | .advanceTo nowMs =>
    let result := wheel.advanceTo nowMs
    (.advanced result.1, result.2)

def TimerWheel.calls (wheel : TimerWheel T) :
    List (TimerCall T) → List (TimerAnswer T) × TimerWheel T
  | [] => ([], wheel)
  | call :: rest =>
    let step := wheel.call call
    let run := TimerWheel.calls step.2 rest
    (step.1 :: run.1, run.2)

/-! ### The reference -/

structure DeadlineList (T : Type) where
  tickMs : Nat
  currentTick : Nat
  serial : Nat
  pending : List (Timer T)

namespace DeadlineList

def new (tickMs nowMs : Nat) : DeadlineList T :=
  { tickMs
    currentTick := nowMs / tickMs
    serial := 0
    pending := [] }

def deadlineTick (list : DeadlineList T) (deadlineMs : Nat) : Nat :=
  max (divCeil deadlineMs list.tickMs) (list.currentTick + 1)

def call (list : DeadlineList T) : TimerCall T → TimerAnswer T × DeadlineList T
  | .schedule deadlineMs value =>
    if list.currentTick + 2 ^ 32 ≤ list.deadlineTick deadlineMs then
      (.scheduled (.error .deadlineOutOfRange), list)
    else
      (.scheduled (.ok list.serial),
        { list with
          serial := list.serial + 1
          pending := list.pending ++ [⟨list.deadlineTick deadlineMs, list.serial, value⟩] })
  | .cancel id =>
    (.cancelled ((list.pending.find? (fun timer => timer.serial = id)).map Timer.value),
      { list with
        pending := list.pending.filter (fun timer => timer.serial ≠ id) })
  | .advanceTo nowMs =>
    if nowMs < list.currentTick * list.tickMs then
      (.advanced (.error (.clockWentBackwards (list.currentTick * list.tickMs) nowMs)), list)
    else
      (.advanced (.ok ((due (nowMs / list.tickMs) list.pending).map Timer.value)),
        { list with
          currentTick := nowMs / list.tickMs
          pending := remaining (nowMs / list.tickMs) list.pending })

def calls (list : DeadlineList T) : List (TimerCall T) → List (TimerAnswer T) × DeadlineList T
  | [] => ([], list)
  | call :: rest =>
    let step := list.call call
    let run := DeadlineList.calls step.2 rest
    (step.1 :: run.1, run.2)

theorem call_serial_le (list : DeadlineList T) (call : TimerCall T) :
    (list.call call).2.serial ≤ list.serial + call.schedules := by
  cases call with
  | schedule deadlineMs value =>
    simp only [DeadlineList.call, TimerCall.schedules]
    split_ifs
    · exact Nat.le_succ _
    · exact le_rfl
  | cancel id => exact le_rfl
  | advanceTo nowMs =>
    simp only [DeadlineList.call]
    split_ifs <;> exact le_rfl

end DeadlineList

/-! ### Refinement of one call -/

structure Refines (wheel : TimerWheel T) (list : DeadlineList T) : Prop where
  coherent : wheel.Coherent 0 []
  represents : wheel.Represents list.pending
  distinct : Distinct list.pending
  earlier : ∀ timer ∈ list.pending, timer.serial < list.serial
  frame : wheel.frame = (list.tickMs, list.currentTick, list.serial % 2 ^ 64)
  clock : list.currentTick * list.tickMs < u64Max

namespace Refines

variable {wheel : TimerWheel T} {list : DeadlineList T}

theorem tickMs_eq (refines : Refines wheel list) : wheel.tickMs = list.tickMs :=
  congrArg Prod.fst refines.frame

theorem currentTick_eq (refines : Refines wheel list) : wheel.currentTick = list.currentTick :=
  congrArg (fun frame => frame.2.1) refines.frame

theorem nextId_eq (refines : Refines wheel list) : wheel.nextId = list.serial % 2 ^ 64 :=
  congrArg (fun frame => frame.2.2) refines.frame

theorem nowMs_eq (refines : Refines wheel list) : wheel.nowMs = list.currentTick * list.tickMs := by
  unfold TimerWheel.nowMs
  rw [refines.currentTick_eq, refines.tickMs_eq, Nat.min_eq_left refines.clock.le]

theorem initial (tickMs startMs : Nat) (tickPositive : 0 < tickMs)
    (startInRange : startMs < u64Max) :
    Refines (TimerWheel.new tickMs startMs tickPositive : TimerWheel T)
      (DeadlineList.new tickMs startMs) := by
  refine ⟨TimerWheel.new_coherent _ _ _, ?_, List.nodup_nil, ?_, rfl, ?_⟩
  · intro deadline id value
    simp [DeadlineList.new, TimerWheel.content, TimerWheel.new]
  · intro timer member
    cases member
  · exact (Nat.div_mul_le_self startMs tickMs).trans_lt startInRange

section

variable (refines : Refines wheel list)

include refines

theorem advanceTo {nowMs : Nat} (inRange : nowMs < u64Max) :
    (wheel.call (.advanceTo nowMs)).1 = (list.call (.advanceTo nowMs)).1 ∧
      Refines (wheel.call (.advanceTo nowMs)).2 (list.call (.advanceTo nowMs)).2 := by
  by_cases backwards : nowMs < list.currentTick * list.tickMs
  · have wheelBackwards : nowMs < wheel.nowMs := by
      rw [refines.nowMs_eq]
      exact backwards
    simp only [TimerWheel.call, TimerWheel.advanceTo, DeadlineList.call, if_pos backwards,
      if_pos wheelBackwards]
    exact ⟨by rw [refines.nowMs_eq], refines⟩
  · have forward : wheel.nowMs ≤ nowMs := by
      rw [refines.nowMs_eq]
      omega
    obtain ⟨after, run, coherent, represents, frame⟩ :=
      TimerWheel.advanceTo_spec inRange forward refines.coherent refines.represents refines.distinct
    rw [refines.tickMs_eq] at run represents frame
    simp only [TimerWheel.call, DeadlineList.call, if_neg backwards, run]
    refine ⟨trivial, coherent, represents, refines.distinct.filter _, ?_, ?_, ?_⟩
    · intro timer member
      exact refines.earlier timer (mem_remaining.mp member).1
    · rw [frame, refines.nextId_eq]
    · exact (Nat.div_mul_le_self _ _).trans_lt inRange

theorem schedule (unwrapped : list.serial < 2 ^ 64) (deadlineMs : Nat) (value : T) :
    (wheel.call (.schedule deadlineMs value)).1 =
        (list.call (.schedule deadlineMs value)).1 ∧
      Refines (wheel.call (.schedule deadlineMs value)).2
        (list.call (.schedule deadlineMs value)).2 := by
  have nextId : wheel.nextId = list.serial := by
    rw [refines.nextId_eq, Nat.mod_eq_of_lt unwrapped]
  have tickInRange : list.currentTick + 1 ≤ u64Max := by
    have positive := wheel.tickPositive
    rw [refines.tickMs_eq] at positive
    exact Nat.succ_le_of_lt ((Nat.le_mul_of_pos_right _ positive).trans_lt refines.clock)
  have sameDeadline : max (divCeil deadlineMs wheel.tickMs) (min (wheel.currentTick + 1) u64Max) =
        list.deadlineTick deadlineMs := by
    rw [refines.tickMs_eq, refines.currentTick_eq, Nat.min_eq_left tickInRange]
    rfl
  have later : list.currentTick < list.deadlineTick deadlineMs :=
    Nat.lt_of_succ_le (le_max_right _ _)
  simp only [TimerWheel.call, TimerWheel.schedule, DeadlineList.call, sameDeadline, nextId]
  by_cases far : list.currentTick + 2 ^ 32 ≤ list.deadlineTick deadlineMs
  · have wheelFar : 2 ^ 32 ≤ list.deadlineTick deadlineMs - wheel.currentTick := by
      rw [refines.currentTick_eq]
      omega
    rw [if_pos far, if_pos wheelFar]
    exact ⟨rfl, refines⟩
  · have wheelNear : ¬ 2 ^ 32 ≤ list.deadlineTick deadlineMs - wheel.currentTick := by
      rw [refines.currentTick_eq]
      omega
    rw [if_neg far, if_neg wheelNear]
    have unused : wheel.content list.serial = none := by
      refine Option.eq_none_iff_forall_ne_some.mpr ?_
      rintro ⟨deadline, stored⟩ found
      exact absurd (refines.earlier _ ((refines.represents _ _ _).mpr found)) (lt_irrefl _)
    obtain ⟨coherent, contents⟩ :=
      TimerWheel.store_spec value ((list.serial + 1) % 2 ^ 64) refines.coherent unused
        (by rw [refines.currentTick_eq]; exact later)
        (by rw [refines.currentTick_eq]; omega) _ rfl
    refine ⟨rfl, coherent, ?_, ?_, ?_, ?_, refines.clock⟩
    · intro deadline id stored
      rw [contents, List.mem_append, refines.represents, List.mem_singleton, Timer.mk.injEq]
      by_cases same : id = list.serial
      · subst same
        rw [unused]
        simp [eq_comm]
      · simp [same]
    · rw [Distinct, List.map_append, List.map_singleton]
      refine refines.distinct.append (List.nodup_singleton _) ?_
      rw [List.disjoint_singleton]
      intro member
      obtain ⟨timer, pending, same⟩ := List.mem_map.mp member
      exact absurd (refines.earlier timer pending) (by rw [same]; exact lt_irrefl _)
    · intro timer member
      rw [List.mem_append, List.mem_singleton] at member
      rcases member with old | rfl
      · exact (refines.earlier timer old).trans (Nat.lt_succ_self _)
      · exact Nat.lt_succ_self _
    · change (wheel.tickMs, wheel.currentTick, (list.serial + 1) % 2 ^ 64) = _
      rw [refines.tickMs_eq, refines.currentTick_eq]

theorem cancel (id : TimerId) :
    (wheel.call (.cancel id)).1 = (list.call (.cancel id)).1 ∧
      Refines (wheel.call (.cancel id)).2 (list.call (.cancel id)).2 := by
  obtain ⟨answer, coherent, frame, contents⟩ :=
    TimerWheel.cancel_spec id refines.coherent
  refine ⟨?_, coherent, ?_, refines.distinct.filter _, ?_, frame.trans refines.frame, refines.clock⟩
  · simp only [TimerWheel.call, DeadlineList.call, answer]
    cases found : list.pending.find? (fun timer => timer.serial = id) with
    | none =>
      have absent : wheel.content id = none := by
        refine Option.eq_none_iff_forall_ne_some.mpr ?_
        rintro ⟨deadline, value⟩ present
        have missing := List.find?_eq_none.mp found _
          ((refines.represents _ _ _).mpr present)
        simp at missing
      rw [absent]
      rfl
    | some timer =>
      have same : timer.serial = id := by simpa using List.find?_some found
      have present : wheel.content id = some (timer.deadline, timer.value) := by
        rw [← refines.represents, ← same]
        exact List.mem_of_find?_eq_some found
      rw [present]
      rfl
  · intro deadline other value
    change _ ∈ list.pending.filter _ ↔ (wheel.cancel id).2.content other = _
    rw [contents, List.mem_filter, refines.represents]
    by_cases same : other = id
    · simp [same]
    · simp [same]
  · intro timer member
    exact refines.earlier timer (List.mem_filter.mp member).1

/-- One call gets the same answer from both, and the refinement goes on. -/
theorem call (call : TimerCall T) (inRange : call.ReadingInRange)
    (unwrapped : list.serial + call.schedules ≤ 2 ^ 64) :
    (wheel.call call).1 = (list.call call).1 ∧ Refines (wheel.call call).2 (list.call call).2 := by
  cases call with
  | schedule deadlineMs value => exact refines.schedule unwrapped deadlineMs value
  | cancel id => exact refines.cancel id
  | advanceTo nowMs => exact refines.advanceTo inRange

/-- Both give the same answers to a whole sequence of calls. -/
theorem calls (calls : List (TimerCall T)) (inRange : ∀ call ∈ calls, call.ReadingInRange)
    (unwrapped : list.serial + scheduleCount calls ≤ 2 ^ 64) :
    (wheel.calls calls).1 = (list.calls calls).1 ∧
      Refines (wheel.calls calls).2 (list.calls calls).2 := by
  induction calls generalizing wheel list with
  | nil => exact ⟨rfl, refines⟩
  | cons first rest ih =>
    rw [scheduleCount, List.map_cons, List.sum_cons] at unwrapped
    obtain ⟨answer, next⟩ := refines.call first (inRange first List.mem_cons_self) (by omega)
    have serials := DeadlineList.call_serial_le list first
    obtain ⟨answers, last⟩ := ih next
      (List.forall_mem_cons.mp inRange).2
      (by rw [scheduleCount]; omega)
    exact ⟨by rw [TimerWheel.calls, DeadlineList.calls, answer, answers], last⟩

/-- From a state that refines the reference, advancing through any clock
readings in order returns piecewise what advancing to the last one returns. -/
theorem advance_split (times : List Nat) (now : Nat)
    (started : ∀ time ∈ times ++ [now], wheel.nowMs ≤ time)
    (ordered : (times ++ [now]).Pairwise (· ≤ ·)) (inRange : now < u64Max) :
    ∃ parts : List (List T),
      (wheel.calls ((times ++ [now]).map .advanceTo)).1 =
        parts.map (fun part => .advanced (.ok part)) ∧
      parts.flatten = (due (now / list.tickMs) list.pending).map Timer.value := by
  induction times generalizing wheel list with
  | nil =>
    have forward := started now List.mem_cons_self
    have answer := (refines.advanceTo inRange).1
    rw [refines.nowMs_eq] at forward
    rw [DeadlineList.call, if_neg (Nat.not_lt.mpr forward)] at answer
    refine ⟨[(due (now / list.tickMs) list.pending).map Timer.value], ?_, by simp⟩
    simp only [List.nil_append, List.map_singleton, TimerWheel.calls, answer]
  | cons time times ih =>
    rw [List.cons_append, List.pairwise_cons] at ordered
    have upTo : time ≤ now := ordered.1 now (by simp)
    have forward := started time List.mem_cons_self
    obtain ⟨answer, next⟩ := refines.advanceTo (upTo.trans_lt inRange)
    rw [refines.nowMs_eq] at forward
    rw [DeadlineList.call, if_neg (Nat.not_lt.mpr forward)] at answer next
    obtain ⟨parts, run, values⟩ := ih next
      (fun later member => by
        rw [next.nowMs_eq]
        exact (Nat.div_mul_le_self _ _).trans (ordered.1 later member))
      ordered.2
    refine ⟨(due (time / list.tickMs) list.pending).map Timer.value :: parts, ?_, ?_⟩
    · simp only [List.cons_append, List.map_cons, TimerWheel.calls, answer, run]
    · rw [List.flatten_cons, values, ← List.map_append,
        refines.distinct.due_split (Nat.div_le_div_right upTo)]

end

end Refines

/-! ### Whole runs -/

/-- As long as at most `2 ^ 64` timers are scheduled, the wheel answers every
sequence of calls as the deadline list does, and from the state it reaches any
way of splitting an advance returns the same values in the same order. -/
theorem timerWheel_refines_deadlineList (tickMs startMs : Nat) (tickPositive : 0 < tickMs)
    (startInRange : startMs < u64Max) (calls : List (TimerCall T))
    (inRange : ∀ call ∈ calls, call.ReadingInRange)
    (unwrapped : scheduleCount calls ≤ 2 ^ 64) :
    let run := (TimerWheel.new tickMs startMs tickPositive : TimerWheel T).calls calls
    run.1 = ((DeadlineList.new tickMs startMs).calls calls).1 ∧
      ∀ (times : List Nat) (now : Nat), now < u64Max →
        (∀ time ∈ times ++ [now], run.2.nowMs ≤ time) →
        (times ++ [now]).Pairwise (· ≤ ·) →
        ∃ (values : List T) (parts : List (List T)),
          (run.2.call (.advanceTo now)).1 = .advanced (.ok values) ∧
          (run.2.calls ((times ++ [now]).map .advanceTo)).1 =
            parts.map (fun part => .advanced (.ok part)) ∧
          parts.flatten = values := by
  have start : Refines (TimerWheel.new tickMs startMs tickPositive : TimerWheel T)
      (DeadlineList.new tickMs startMs) :=
    Refines.initial tickMs startMs tickPositive startInRange
  obtain ⟨answers, refines⟩ := start.calls calls inRange (by
    simpa [DeadlineList.new] using unwrapped)
  refine ⟨answers, ?_⟩
  intro times now nowInRange started ordered
  obtain ⟨parts, partsRun, partsValues⟩ :=
    refines.advance_split times now started ordered nowInRange
  refine ⟨_, parts, ?_, partsRun, partsValues⟩
  have forward := started now (by simp)
  rw [refines.nowMs_eq] at forward
  rw [(refines.advanceTo nowInRange).1, DeadlineList.call, if_neg (Nat.not_lt.mpr forward)]

theorem timerWheel_refines_deadlineList_one_timer :
    (1 : Nat) < u64Max ∧
      ((TimerWheel.new 10 1 (by decide) : TimerWheel Bool).calls
          [.schedule 25 true, .advanceTo 30]).1 =
        ((DeadlineList.new 10 1).calls [.schedule 25 true, .advanceTo 30]).1 :=
  ⟨by decide,
    (timerWheel_refines_deadlineList 10 1 (by decide) (by decide) [.schedule 25 true, .advanceTo 30]
      (by simp [TimerCall.ReadingInRange, u64Max]) (by decide)).1⟩

/-! ### Identifiers repeat after `2 ^ 64` timers -/

def AllValues (holds : T → Prop) (progress : List T × TimerWheel T) : Prop :=
  (∀ value ∈ progress.1, holds value) ∧
    ∀ id timer, progress.2.content id = some timer → holds timer.2

variable {progress : List T × TimerWheel T} {holds : T → Prop}

theorem AllValues.expire (all : AllValues holds progress) (id : TimerId) :
    AllValues holds (TimerWheel.expire progress id) := by
  unfold TimerWheel.expire
  cases present : progress.2.entries.lookup id with
  | none => exact all
  | some entry =>
    have holdsEntry : holds entry.value :=
      all.2 id (entry.deadlineTick, entry.value) (by simp [TimerWheel.content, present])
    simp only
    split_ifs
    · refine ⟨?_, ?_⟩
      · intro value member
        rw [List.mem_append, List.mem_singleton] at member
        rcases member with old | rfl
        · exact all.1 value old
        · exact holdsEntry
      · intro other timer found
        rw [TimerWheel.erase_content] at found
        split_ifs at found
        exact all.2 other timer found
    · refine ⟨all.1, ?_⟩
      intro other timer found
      rw [TimerWheel.place_content] at found
      exact all.2 other timer found

theorem AllValues.tick (all : AllValues holds progress) :
    AllValues holds (TimerWheel.tick progress) := by
  have folded (ids : List TimerId) (progress : List T × TimerWheel T)
      (all : AllValues holds progress) :
      AllValues holds (ids.foldl TimerWheel.expire progress) := by
    induction ids generalizing progress with
    | nil => exact all
    | cons id ids ih => exact ih _ (all.expire id)
  refine folded _ _ ⟨all.1, ?_⟩
  intro id timer found
  let moved : TimerWheel T :=
    { progress.2 with currentTick := progress.2.currentTick + 1 }
  change moved.cascadeBoundaries.content id = some timer at found
  rw [TimerWheel.cascadeBoundaries_content] at found
  exact all.2 id timer found

theorem AllValues.ticks (rounds : Nat) (all : AllValues holds progress) :
    AllValues holds (TimerWheel.tick^[rounds] progress) := by
  induction rounds with
  | zero => exact all
  | succ rounds ih =>
    rw [Function.iterate_succ_apply']
    exact ih.tick

/-- Advancing by few ticks hands out only values that were pending. -/
theorem AllValues.advanceTo {wheel : TimerWheel T} (all : AllValues holds ([], wheel)) {nowMs : Nat}
    (inRange : nowMs < u64Max) (near : nowMs / wheel.tickMs ≤ wheel.currentTick + largeAdvanceTicks)
    {values : List T} (answer : (wheel.advanceTo nowMs).1 = .ok values) :
    ∀ value ∈ values, holds value := by
  unfold TimerWheel.advanceTo at answer
  split_ifs at answer with backwards last
  · omega
  · rw [if_neg (by omega)] at answer
    cases answer
    exact (all.ticks _).1

theorem TimerWheel.schedule_content (wheel : TimerWheel T) (deadlineMs : Nat) (value : T)
    (near : max (divCeil deadlineMs wheel.tickMs) (min (wheel.currentTick + 1) u64Max) <
      wheel.currentTick + 2 ^ 32) (other : TimerId) :
    (wheel.schedule deadlineMs value).2.content other =
      if other = wheel.nextId then
        some (max (divCeil deadlineMs wheel.tickMs) (min (wheel.currentTick + 1) u64Max), value)
      else wheel.content other := by
  have inHorizon : ¬ 2 ^ 32 ≤
      max (divCeil deadlineMs wheel.tickMs) (min (wheel.currentTick + 1) u64Max) -
        wheel.currentTick := by
    omega
  unfold TimerWheel.schedule
  rw [if_neg inHorizon]
  change ((wheel.entries.insert wheel.nextId _).lookup other).map _ = _
  rw [KeyedMap.lookup_insert_ite]
  split_ifs <;> rfl

theorem TimerWheel.calls_append (wheel : TimerWheel T) (first second : List (TimerCall T)) :
    wheel.calls (first ++ second) =
      ((wheel.calls first).1 ++ ((wheel.calls first).2.calls second).1,
        ((wheel.calls first).2.calls second).2) := by
  induction first generalizing wheel with
  | nil => rfl
  | cons call rest ih => simp only [List.cons_append, TimerWheel.calls, ih]

theorem DeadlineList.calls_append (list : DeadlineList T)
    (first second : List (TimerCall T)) :
    list.calls (first ++ second) =
      ((list.calls first).1 ++ ((list.calls first).2.calls second).1,
        ((list.calls first).2.calls second).2) := by
  induction first generalizing list with
  | nil => rfl
  | cons call rest ih => simp only [List.cons_append, DeadlineList.calls, ih]

/-- One timer that stays, then timers that are cancelled at once. -/
def crowdingCalls (count : Nat) : List (TimerCall Bool) :=
  .schedule 100 false ::
    (List.range count).flatMap (fun index => [.schedule 200 true, .cancel (index + 1)])

theorem crowdingCalls_succ (count : Nat) : crowdingCalls (count + 1) =
      crowdingCalls count ++ [.schedule 200 true, .cancel (count + 1)] := by
  simp [crowdingCalls, List.range_succ]

theorem scheduleCount_crowdingCalls (count : Nat) :
    scheduleCount (crowdingCalls count) = count + 1 := by
  induction count with
  | zero => rfl
  | succ count ih =>
    rw [crowdingCalls_succ, scheduleCount, List.map_append, List.sum_append, ← scheduleCount, ih]
    rfl

theorem crowdingCalls_inRange (count : Nat) :
    ∀ call ∈ crowdingCalls count, call.ReadingInRange := by
  induction count with
  | zero =>
    simp [crowdingCalls, TimerCall.ReadingInRange]
  | succ count ih =>
    rw [crowdingCalls_succ]
    intro call member
    rw [List.mem_append] at member
    rcases member with old | new
    · exact ih call old
    · simp only [List.mem_cons, List.not_mem_nil, or_false] at new
      rcases new with rfl | rfl <;> exact trivial

theorem reference_crowded (count : Nat) :
    ((DeadlineList.new 1 0).calls (crowdingCalls count)).2 =
      { tickMs := 1, currentTick := 0, serial := count + 1, pending := [⟨100, 0, false⟩] } := by
  induction count with
  | zero => rfl
  | succ count ih =>
    rw [crowdingCalls_succ, DeadlineList.calls_append, ih]
    simp [DeadlineList.calls, DeadlineList.call, DeadlineList.deadlineTick, divCeil]

/-- A timer stored under the identifier of one that is still pending takes its
place, and the older one is never handed out. -/
theorem overwritten_after_wrap {wheel : TimerWheel Bool} {serial : Nat}
    (wrapped : serial % 2 ^ 64 = 0)
    (refines : Refines wheel
      { tickMs := 1, currentTick := 0, serial, pending := [⟨100, 0, false⟩] }) :
    ((wheel.schedule 300 true).2.advanceTo 100).1 ≠ .ok [false] := by
  have tickMs : wheel.tickMs = 1 := refines.tickMs_eq
  have currentTick : wheel.currentTick = 0 := refines.currentTick_eq
  have nextId : wheel.nextId = 0 := refines.nextId_eq.trans wrapped
  have near : max (divCeil 300 wheel.tickMs) (min (wheel.currentTick + 1) u64Max) <
      wheel.currentTick + 2 ^ 32 := by
    rw [tickMs, currentTick]
    decide
  have storedOnly : AllValues (fun value => value = true) ([], (wheel.schedule 300 true).2) := by
    refine ⟨fun value member => absurd member List.not_mem_nil, ?_⟩
    rintro id ⟨deadline, value⟩ found
    rw [wheel.schedule_content 300 true near, nextId] at found
    split_ifs at found with overwritten
    · exact (congrArg Prod.snd (Option.some.inj found)).symm
    · have member := (refines.represents deadline id value).mpr found
      simp only [List.mem_singleton, Timer.mk.injEq] at member
      exact absurd member.2.1 overwritten
  have frame : (wheel.schedule 300 true).2.tickMs = 1 ∧
      (wheel.schedule 300 true).2.currentTick = 0 := by
    unfold TimerWheel.schedule
    rw [if_neg (by omega)]
    exact ⟨tickMs, currentTick⟩
  intro handedOut
  have expired := storedOnly.advanceTo (by decide)
    (by rw [frame.1, frame.2]; decide) handedOut false List.mem_cons_self
  exact absurd expired (by decide)

theorem crowdedCalls_differ {count : Nat} (full : count + 1 = 2 ^ 64) :
    ((TimerWheel.new 1 0 Nat.one_pos : TimerWheel Bool).calls
        (crowdingCalls count ++ [.schedule 300 true, .advanceTo 100])).1 ≠
      ((DeadlineList.new 1 0).calls
        (crowdingCalls count ++ [.schedule 300 true, .advanceTo 100])).1 := by
  have start : Refines (TimerWheel.new 1 0 Nat.one_pos : TimerWheel Bool)
      (DeadlineList.new 1 0) :=
    Refines.initial 1 0 Nat.one_pos (by decide)
  obtain ⟨answers, refines⟩ := start.calls (crowdingCalls count)
    (crowdingCalls_inRange count) (by
      rw [scheduleCount_crowdingCalls, full]
      exact (Nat.zero_add _).le)
  rw [reference_crowded] at refines
  rw [TimerWheel.calls_append, DeadlineList.calls_append, answers, reference_crowded]
  intro same
  have tails := List.append_cancel_left same
  simp only [TimerWheel.calls, DeadlineList.calls, List.cons.injEq] at tails
  refine overwritten_after_wrap (by rw [full, Nat.mod_self]) refines ?_
  simpa [TimerWheel.call, DeadlineList.call, DeadlineList.deadlineTick, divCeil, due]
    using tails.2.1

/-- After `2 ^ 64` timers the next one takes the identifier of the first, and
the answers stop agreeing with the deadline list. -/
theorem timerWheel_identifier_reused :
    ∃ calls : List (TimerCall Bool), (∀ call ∈ calls, call.ReadingInRange) ∧
      ((TimerWheel.new 1 0 Nat.one_pos : TimerWheel Bool).calls calls).1 ≠
        ((DeadlineList.new 1 0).calls calls).1 := by
  have full : 2 ^ 64 - 1 + 1 = 2 ^ 64 := Nat.sub_add_cancel (by decide)
  refine ⟨_, ?_, crowdedCalls_differ full⟩
  intro call member
  rw [List.mem_append] at member
  rcases member with old | new
  · exact crowdingCalls_inRange _ call old
  · simp only [List.mem_cons, List.not_mem_nil, or_false] at new
    rcases new with rfl | rfl
    · exact trivial
    · exact (by decide : 100 < u64Max)

end Sail.Netstack
