/-
Runs of the scheduler.

A round keeps the totals and the ring, an accepted packet joins the end of its
lane, and a refused one changes nothing. So after every sequence of calls each
lane's accepted packets are those processed, in order, and then those queued.
-/

import Mathlib.Data.List.Induction
import Sail.Netstack.Engine.SchedulerLanes

namespace Sail.Netstack

open Lanes

variable {T : Type}

/-! ### Rounds -/

variable {scheduler : Scheduler T}

namespace Round

variable {origin : Scheduler T} {limits : RoundLimits} {round : Round T}

theorem Sound.closeVisit {flow : FlowId} {visit : Visit T}
    (sound : visit.round.Sound origin limits (visit.left flow))
    (absent : visit.round.scheduler.flows.lookup flow = none) :
    (closeVisit flow visit).Sound origin limits (closeVisit flow visit).scheduler.lane := by
  rw [closeVisit_lane absent]
  unfold Round.closeVisit
  split_ifs
  · exact sound
  · exact sound.of_same rfl rfl rfl ⟨rfl, rfl⟩ rfl

/-- A visit to the first flow of the ring: it is taken out, served, and put back
if it is still backlogged. -/
theorem visitFirst_eq {flow : FlowId} {others : List FlowId} {queue : FlowQueue T}
    (first : round.scheduler.active = flow :: others)
    (found : round.scheduler.flows.lookup flow = some queue) :
    round.visitFirst limits = closeVisit flow
      (Visit.serve limits flow queue.items (round.openVisit flow others queue)) := by
  unfold visitFirst
  rw [first]
  simp only [found]

theorem first_found (ring : scheduler.Ring) {flow : FlowId} {others : List FlowId}
    (first : scheduler.active = flow :: others) :
    ∃ queue, scheduler.flows.lookup flow = some queue := by
  refine Option.isSome_iff_exists.mp ((ring.present flow).mp ?_)
  rw [first]
  exact List.mem_cons_self

theorem visitFirst_ring (ring : round.scheduler.Ring) :
    (round.visitFirst limits).scheduler.Ring := by
  cases first : round.scheduler.active with
  | nil =>
    rw [visitFirst, first]
    exact ring
  | cons flow others =>
    obtain ⟨queue, found⟩ := first_found ring first
    have only := Visit.serve_sendsOnly limits flow queue.items (round.openVisit flow others queue)
    rw [visitFirst_eq first found]
    refine closeVisit_ring ((openVisit_ring ring first).of_same only.sameFlows only.sameActive) ?_
    rw [only.sameFlows]
    exact openVisit_absent

theorem visitFirst_sound (coherent : origin.Coherent) (ring : round.scheduler.Ring)
    (sound : round.Sound origin limits round.scheduler.lane) :
    (round.visitFirst limits).Sound origin limits (round.visitFirst limits).scheduler.lane := by
  cases first : round.scheduler.active with
  | nil =>
    rw [visitFirst, first]
    exact sound
  | cons flow others =>
    obtain ⟨queue, found⟩ := first_found ring first
    have opened : (round.openVisit flow others queue).round.Sound origin limits
        ((round.openVisit flow others queue).left flow) := by
      rw [openVisit_left found]
      exact sound.of_same rfl rfl rfl ⟨rfl, rfl⟩ rfl
    have only := Visit.serve_sendsOnly limits flow queue.items (round.openVisit flow others queue)
    rw [visitFirst_eq first found]
    refine (Visit.serve_sound coherent queue.items rfl opened).closeVisit ?_
    rw [only.sameFlows]
    exact openVisit_absent

theorem lookBefore_scheduler (round : Round T) : round.lookBefore.scheduler = round.scheduler := by
  unfold lookBefore
  split_ifs <;> rfl

theorem visitFlows_ring (visits : Nat) (ring : round.scheduler.Ring) :
    (visitFlows limits visits round).scheduler.Ring := by
  induction visits generalizing round with
  | zero => exact ring
  | succ visits ih =>
    unfold visitFlows
    split_ifs
    · have visited : (round.lookBefore.visitFirst limits).scheduler.Ring := by
        refine visitFirst_ring ?_
        rw [lookBefore_scheduler]
        exact ring
      dsimp only
      split_ifs
      · exact visited
      · exact ih visited
    · unfold finish
      split_ifs
      · exact ring
      · exact ring

theorem visitFlows_sound (coherent : origin.Coherent) (visits : Nat) (ring : round.scheduler.Ring)
    (sound : round.Sound origin limits round.scheduler.lane) :
    (visitFlows limits visits round).Sound origin limits
      (visitFlows limits visits round).scheduler.lane := by
  induction visits generalizing round with
  | zero => exact sound
  | succ visits ih =>
    unfold visitFlows
    split_ifs
    · have looked : round.lookBefore.Sound origin limits round.lookBefore.scheduler.lane := by
        unfold lookBefore
        split_ifs
        · exact sound.of_same rfl rfl rfl ⟨rfl, rfl⟩ rfl
        · exact sound
      have before : round.lookBefore.scheduler.Ring := by
        rw [lookBefore_scheduler]
        exact ring
      have visited := visitFirst_sound coherent before looked
      dsimp only
      split_ifs
      · exact visited
      · exact ih (visitFirst_ring before) visited
    · unfold finish
      split_ifs
      · exact sound
      · exact sound.of_same rfl rfl rfl ⟨rfl, rfl⟩ rfl

end Round

namespace Scheduler

variable {scheduler : Scheduler T}

theorem afterControl_sendsOnly (scheduler : Scheduler T) (limits : RoundLimits) :
    Round.SendsOnly limits none { scheduler, stats := {}, looks := 0, sent := [] }
      (scheduler.afterControl limits) :=
  Round.sendControl_sendsOnly limits _ _

theorem afterControl_ring (ring : scheduler.Ring) (limits : RoundLimits) :
    (scheduler.afterControl limits).scheduler.Ring :=
  ring.of_same (scheduler.afterControl_sendsOnly limits).sameFlows
    (scheduler.afterControl_sendsOnly limits).sameActive

theorem afterControl_sound (coherent : scheduler.Coherent) (limits : RoundLimits) :
    (scheduler.afterControl limits).Sound scheduler limits
      (scheduler.afterControl limits).scheduler.lane := by
  have start : Round.Sound scheduler limits scheduler.lane
      { scheduler, stats := {}, looks := 0, sent := [] } :=
    ⟨Splits.refl _, rfl, rfl, rfl, rfl, rfl, Nat.zero_le _, Nat.zero_le _⟩
  exact @Round.sendControl_sound T scheduler limits coherent scheduler.config.maxControlPackets
    { scheduler, stats := {}, looks := 0, sent := [] } start

theorem runRoundLimited_ring (ring : scheduler.Ring) (maxPackets maxBytes : Nat)
    (expired : Nat → Bool) :
    (scheduler.runRoundLimited maxPackets maxBytes expired).scheduler.Ring := by
  have after := afterControl_ring ring (scheduler.limits maxPackets maxBytes expired)
  unfold runRoundLimited
  dsimp only
  split_ifs
  · exact after
  · exact Round.visitFlows_ring _ after

theorem runRoundLimited_sound (coherent : scheduler.Coherent) (maxPackets maxBytes : Nat)
    (expired : Nat → Bool) :
    (scheduler.runRoundLimited maxPackets maxBytes expired).Sound scheduler
      (scheduler.limits maxPackets maxBytes expired)
      (scheduler.runRoundLimited maxPackets maxBytes expired).scheduler.lane := by
  have sound := afterControl_sound coherent (scheduler.limits maxPackets maxBytes expired)
  have ring := afterControl_ring coherent.ring (scheduler.limits maxPackets maxBytes expired)
  unfold runRoundLimited
  dsimp only
  split_ifs
  · exact sound
  · exact Round.visitFlows_sound coherent _ ring sound

/-! ### Totals -/

/-- Every list of lanes that names all backlogged ones gives the total. -/
theorem Ring.total_eq (ring : scheduler.Ring) (weight : Item T → Nat)
    {names : List (Option FlowId)} (nodup : names.Nodup)
    (covers : ∀ name, scheduler.lane name ≠ [] → name ∈ names) :
    tally (fun name => tally weight (scheduler.lane name)) names = scheduler.total weight := by
  have heavy : ∀ name, tally weight (scheduler.lane name) ≠ 0 → scheduler.lane name ≠ [] := by
    intro name weighs empty
    rw [empty] at weighs
    exact weighs rfl
  exact tally_eq_of_support nodup ring.lanes_nodup (fun name weighs => covers name (heavy name weighs))
    (fun name weighs => ring.mem_lanes (heavy name weighs))

/-- The total, read off the queues themselves. -/
theorem Ring.total_toList (ring : scheduler.Ring) (weight : Item T → Nat) :
    scheduler.total weight = tally weight scheduler.control +
      tally (fun entry => tally weight entry.2.items) scheduler.flows.toList := by
  have listed : ∀ flow, scheduler.lane (some flow) ≠ [] →
      flow ∈ scheduler.flows.toList.map Prod.fst := by
    intro flow waiting
    cases found : scheduler.flows.lookup flow with
    | none =>
      rw [lane, found] at waiting
      exact absurd rfl waiting
    | some queue =>
      exact List.mem_map.mpr ⟨(flow, queue), KeyedMap.mem_toList.mpr found, rfl⟩
  have names : (none :: (scheduler.flows.toList.map Prod.fst).map some).Nodup := by
    refine List.nodup_cons.mpr ⟨?_, (KeyedMap.nodup_keys_toList _).map
      (fun _ _ => Option.some.inj)⟩
    intro member
    obtain ⟨_, _, impossible⟩ := List.mem_map.mp member
    cases impossible
  rw [← ring.total_eq weight names, tally_cons, tally_map, tally_map]
  · refine congrArg (tally weight scheduler.control + ·) (tally_congr ?_)
    rintro ⟨flow, queue⟩ member
    exact congrArg (tally weight) (Ring.lane_some (KeyedMap.mem_toList.mp member))
  · intro name waiting
    cases name with
    | none => exact List.mem_cons_self
    | some flow =>
      exact List.mem_cons_of_mem _ (List.mem_map_of_mem (listed flow waiting))

/-- A round leaves the totals in order. -/
theorem Coherent.of_sound {limits : RoundLimits} {round : Round T} (coherent : scheduler.Coherent)
    (sound : round.Sound scheduler limits round.scheduler.lane) (ring : round.scheduler.Ring) :
    round.scheduler.Coherent := by
  have sums : ∀ weight : Item T → Nat, scheduler.total weight =
      tally (fun entry => weight entry.2) round.sent + round.scheduler.total weight := by
    intro weight
    have split := sound.splits.tally_eq weight coherent.ring.lanes_nodup
      (fun _ waiting => coherent.ring.mem_lanes waiting)
    rw [ring.total_eq weight coherent.ring.lanes_nodup, Round.log, tally_map] at split
    · exact split
    · intro name waiting
      refine coherent.ring.mem_lanes ?_
      rw [sound.splits name]
      exact List.append_ne_nil_of_right_ne_nil _ waiting
  have packets := sums (fun _ => 1)
  have bytes := sums Item.bytes
  rw [tally_one] at packets
  change _ = round.sentBytes + _ at bytes
  have sumPackets := sound.packets
  have sumBytes := sound.bytes
  have packetsBefore := coherent.packets
  have bytesBefore := coherent.bytes
  have packetsInRange := coherent.packetsInRange
  have bytesInRange := coherent.bytesInRange
  exact ⟨ring, by omega, by omega, by omega, by omega⟩

/-! ### Taking packets in -/

structure Joins (scheduler : Scheduler T) (name : Option FlowId) (item : Item T)
    (after : Scheduler T) : Prop where
  lane : ∀ other, after.lane other = scheduler.lane other ++ if name = other then [item] else []
  ring : after.Ring
  sameConfig : after.config = scheduler.config
  samePackets : after.queuedPackets = scheduler.queuedPackets
  sameBytes : after.queuedBytes = scheduler.queuedBytes

theorem pushControl_joins (ring : scheduler.Ring) (item : Item T) :
    scheduler.Joins none item (scheduler.pushControl item) := by
  refine ⟨?_, ring.of_same rfl rfl, rfl, rfl, rfl⟩
  intro other
  cases other with
  | none => rfl
  | some flow =>
    rw [if_neg (by simp), List.append_nil]
    rfl

variable {after : Scheduler T} {flow : FlowId} {item : Item T}

/-- A changed or new queue for one flow whose items grow by the packet. -/
theorem lane_insert {queue : FlowQueue T} (sameControl : after.control = scheduler.control)
    (stored : after.flows = scheduler.flows.insert flow queue)
    (grown : queue.items = scheduler.lane (some flow) ++ [item]) (other : Option FlowId) :
    after.lane other = scheduler.lane other ++ if some flow = other then [item] else [] := by
  cases other with
  | none =>
    rw [if_neg (by simp), List.append_nil]
    exact sameControl
  | some other =>
    rw [lane, stored, KeyedMap.lookup_insert_ite]
    by_cases same : other = flow
    · rw [if_pos same, same, if_pos rfl]
      exact grown
    · rw [if_neg same, if_neg (fun equal => same (Option.some.inj equal).symm), List.append_nil]
      rfl

theorem pushItem_joins (ring : scheduler.Ring) {queue : FlowQueue T}
    (found : scheduler.flows.lookup flow = some queue) (item : Item T) :
    scheduler.Joins (some flow) item (scheduler.pushItem flow queue item) := by
  have present : flow ∈ scheduler.active := by
    rw [ring.present, found]
    rfl
  refine ⟨lane_insert rfl rfl (by rw [Ring.lane_some found]), ring.store rfl ring.nodup ?_
    (List.append_ne_nil_of_right_ne_nil _ (List.cons_ne_nil _ _)), rfl, rfl, rfl⟩
  intro other
  refine ⟨Or.inr, ?_⟩
  rintro (rfl | kept)
  · exact present
  · exact kept

theorem activate_joins (ring : scheduler.Ring) (absent : scheduler.flows.lookup flow = none)
    (weight : Nat) (item : Item T) :
    scheduler.Joins (some flow) item (scheduler.activate flow weight item) := by
  have empty : scheduler.lane (some flow) = [] := by
    rw [lane, absent]
    rfl
  exact ⟨lane_insert rfl rfl (by rw [empty]; rfl), ring.storeLast rfl rfl absent
    (List.cons_ne_nil _ _), rfl, rfl, rfl⟩

theorem Joins.total_eq {name : Option FlowId} (ring : scheduler.Ring)
    (joins : scheduler.Joins name item after) (weight : Item T → Nat) :
    after.total weight = scheduler.total weight + weight item := by
  have grown : ∀ other, tally weight (after.lane other) =
      tally weight (scheduler.lane other) + if name = other then weight item else 0 := by
    intro other
    rw [joins.lane other, tally_append]
    split_ifs <;> simp
  have covers : ∀ other, scheduler.lane other ≠ [] → other ∈ after.lanes := by
    intro other waiting
    refine joins.ring.mem_lanes ?_
    rw [joins.lane other]
    exact List.append_ne_nil_of_left_ne_nil waiting _
  have named : name ∈ after.lanes := by
    refine joins.ring.mem_lanes ?_
    rw [joins.lane name, if_pos rfl]
    exact List.append_ne_nil_of_right_ne_nil _ (List.cons_ne_nil _ _)
  unfold total
  simp only [grown]
  rw [tally_add, tally_indicator joins.ring.lanes_nodup named,
    ring.total_eq weight joins.ring.lanes_nodup covers]
  rfl

theorem Coherent.of_joins {name : Option FlowId} (coherent : scheduler.Coherent)
    (joins : scheduler.Joins name item after)
    (packetsFit : scheduler.queuedPackets + 1 ≤ usizeMax)
    (bytesFit : scheduler.queuedBytes + item.bytes ≤ usizeMax) :
    (after.accountEnqueue item.bytes).Coherent := by
  have packets : (after.accountEnqueue item.bytes).queuedPackets = scheduler.queuedPackets + 1 := by
    rw [← wrappingAdd_eq packetsFit, ← joins.samePackets]
    rfl
  have bytes : (after.accountEnqueue item.bytes).queuedBytes =
      scheduler.queuedBytes + item.bytes := by
    rw [← wrappingAdd_eq bytesFit, ← joins.sameBytes]
    rfl
  have totals : ∀ weight : Item T → Nat, (after.accountEnqueue item.bytes).total weight =
      scheduler.total weight + weight item :=
    fun weight => joins.total_eq coherent.ring weight
  refine ⟨joins.ring.of_same rfl rfl, ?_, ?_, by omega, by omega⟩
  · rw [packets, totals, coherent.packets]
  · rw [bytes, totals, coherent.bytes]

/-- The byte total stays within its word if the packet is accepted. -/
def Countable (scheduler : Scheduler T) (bytes : Nat) : Prop :=
  scheduler.config.maxQueuedBytes < usizeMax ∨ scheduler.queuedBytes + bytes ≤ usizeMax

theorem Countable.inRange {bytes : Nat} (countable : scheduler.Countable bytes)
    (room : ¬scheduler.config.maxQueuedBytes < satAdd scheduler.queuedBytes bytes) :
    scheduler.queuedBytes + bytes ≤ usizeMax := by
  rcases countable with bounded | fits
  · unfold satAdd at room
    omega
  · exact fits

inductive Taken (scheduler : Scheduler T) (item : Item T) : WorkClass → Scheduler T → Prop
  | control : Taken scheduler item .control (scheduler.pushControl item)
  | queued {flow : FlowId} {weight : Nat} {queue : FlowQueue T}
      (found : scheduler.flows.lookup flow = some queue) :
      Taken scheduler item (.data flow weight) (scheduler.pushItem flow queue item)
  | activated {flow : FlowId} {weight : Nat} (absent : scheduler.flows.lookup flow = none) :
      Taken scheduler item (.data flow weight) (scheduler.activate flow weight item)

theorem enqueueData_cases (scheduler : Scheduler T) (flow : FlowId) (weight bytes : Nat)
    (value : T) :
    (∃ error, scheduler.enqueueData flow weight bytes value = (.error error, scheduler)) ∨
      ∃ after, scheduler.enqueueData flow weight bytes value =
          (.ok (), after.accountEnqueue bytes) ∧
        scheduler.Taken (Item.mk bytes value) (.data flow weight) after := by
  unfold enqueueData
  by_cases invalid : weight = 0
  · exact .inl ⟨_, by rw [if_pos invalid]⟩
  cases found : scheduler.flows.lookup flow with
  | none =>
    split_ifs
    · exact .inl ⟨_, rfl⟩
    · exact .inr ⟨_, rfl, .activated found⟩
  | some queue =>
    dsimp only
    split_ifs
    · exact .inl ⟨_, rfl⟩
    · exact .inr ⟨_, rfl, .queued found⟩

/-- A packet is refused and nothing changes, or there is room for it and it is
put in its queue and counted. -/
theorem enqueue_cases (scheduler : Scheduler T) (workClass : WorkClass) (bytes : Nat) (value : T) :
    (∃ error, scheduler.enqueue workClass bytes value = (.error error, scheduler)) ∨
      ∃ after, scheduler.enqueue workClass bytes value = (.ok (), after.accountEnqueue bytes) ∧
        scheduler.Taken (Item.mk bytes value) workClass after ∧
        scheduler.queuedPackets ≠ scheduler.config.maxQueuedPackets ∧
        satAdd scheduler.queuedBytes bytes ≤ scheduler.config.maxQueuedBytes := by
  unfold enqueue
  by_cases large : scheduler.config.maxPacketBytes < bytes
  · exact .inl ⟨_, by rw [if_pos large]⟩
  by_cases full : scheduler.queuedPackets = scheduler.config.maxQueuedPackets ∨
      scheduler.config.maxQueuedBytes < satAdd scheduler.queuedBytes bytes
  · exact .inl ⟨_, by rw [if_neg large, if_pos full]⟩
  rw [if_neg large, if_neg full]
  obtain ⟨below, room⟩ := not_or.mp full
  cases workClass with
  | control => exact .inr ⟨_, rfl, .control, below, Nat.le_of_not_lt room⟩
  | data flow weight =>
    rcases scheduler.enqueueData_cases flow weight bytes value with
      refused | ⟨after, accepted, taken⟩
    · exact .inl refused
    · exact .inr ⟨after, accepted, taken, below, Nat.le_of_not_lt room⟩

theorem enqueue_refused {workClass : WorkClass} {bytes : Nat} {value : T} {error : EnqueueError T}
    (refused : (scheduler.enqueue workClass bytes value).1 = .error error) :
    (scheduler.enqueue workClass bytes value).2 = scheduler := by
  rcases scheduler.enqueue_cases workClass bytes value with ⟨_, same⟩ | ⟨_, accepted, _⟩
  · rw [same]
  · rw [accepted] at refused
    cases refused

theorem Taken.joins {workClass : WorkClass} (taken : scheduler.Taken item workClass after)
    (ring : scheduler.Ring) :
    scheduler.Joins workClass.lane item after := by
  cases taken with
  | control => exact pushControl_joins ring item
  | queued found => exact pushItem_joins ring found item
  | activated absent => exact activate_joins ring absent _ item

end Scheduler

/-! ### Runs -/

inductive SchedulerCall (T : Type) where
  | enqueue (workClass : WorkClass) (bytes : Nat) (value : T)
  | round (maxPackets maxBytes : Nat) (expired : Nat → Bool)

structure SchedulerTrace (T : Type) where
  scheduler : Scheduler T
  accepted : List (WorkClass × Item T)
  processed : List (WorkClass × Item T)

namespace SchedulerTrace

def call (trace : SchedulerTrace T) : SchedulerCall T → SchedulerTrace T
  | .enqueue workClass bytes value =>
    match trace.scheduler.enqueue workClass bytes value with
    | (.ok (), scheduler) =>
      { trace with
        scheduler
        accepted := trace.accepted ++ [(workClass, Item.mk bytes value)] }
    | (.error _, scheduler) => { trace with scheduler }
  | .round maxPackets maxBytes expired =>
    let round := trace.scheduler.runRoundLimited maxPackets maxBytes expired
    { trace with
      scheduler := round.scheduler
      processed := trace.processed ++ round.sent }

def start (scheduler : Scheduler T) : SchedulerTrace T :=
  { scheduler, accepted := [], processed := [] }

def run (calls : List (SchedulerCall T)) (trace : SchedulerTrace T) : SchedulerTrace T :=
  calls.foldl call trace

structure Kept (config : SchedulerConfig) (trace : SchedulerTrace T) : Prop where
  splits : Splits (ofLane · (trace.accepted.map laneEntry)) (trace.processed.map laneEntry)
    trace.scheduler.lane
  coherent : trace.scheduler.Coherent
  sameConfig : trace.scheduler.config = config
  bounded : trace.scheduler.queuedPackets ≤ config.maxQueuedPackets

variable {config : SchedulerConfig} {trace : SchedulerTrace T}

theorem Kept.enqueue (kept : trace.Kept config) (packetRange : config.maxQueuedPackets ≤ usizeMax)
    (workClass : WorkClass) {bytes : Nat} (value : T)
    (countable : trace.scheduler.Countable bytes) :
    (trace.call (.enqueue workClass bytes value)).Kept config := by
  rcases trace.scheduler.enqueue_cases workClass bytes value with
    ⟨_, refused⟩ | ⟨after, accepted, taken, below, room⟩
  · rw [call, refused]
    exact kept
  · have fits := countable.inRange (Nat.not_lt_of_le room)
    have joins := taken.joins kept.coherent.ring
    have bounded := kept.bounded
    rw [kept.sameConfig] at below
    have packetsFit : trace.scheduler.queuedPackets + 1 ≤ usizeMax := by omega
    have counted : (after.accountEnqueue bytes).queuedPackets =
        trace.scheduler.queuedPackets + 1 := by
      rw [← wrappingAdd_eq packetsFit, ← joins.samePackets]
      rfl
    rw [call, accepted]
    refine ⟨?_, kept.coherent.of_joins joins packetsFit fits,
      joins.sameConfig.trans kept.sameConfig, ?_⟩
    · rw [List.map_append]
      exact kept.splits.join joins.lane
    · change (after.accountEnqueue bytes).queuedPackets ≤ _
      omega

theorem Kept.round (kept : trace.Kept config) (maxPackets maxBytes : Nat)
    (expired : Nat → Bool) : (trace.call (.round maxPackets maxBytes expired)).Kept config := by
  have sound := Scheduler.runRoundLimited_sound kept.coherent maxPackets maxBytes expired
  have ring := Scheduler.runRoundLimited_ring kept.coherent.ring maxPackets maxBytes expired
  have packets := sound.packets
  have bounded := kept.bounded
  rw [call]
  refine ⟨?_, kept.coherent.of_sound sound ring, sound.config.trans kept.sameConfig, ?_⟩
  · rw [List.map_append]
    exact kept.splits.trans sound.splits
  · dsimp only
    omega

theorem ring_call (ring : trace.scheduler.Ring) (call : SchedulerCall T) :
    (trace.call call).scheduler.Ring := by
  cases call with
  | enqueue workClass bytes value =>
    rcases trace.scheduler.enqueue_cases workClass bytes value with
      ⟨_, refused⟩ | ⟨after, accepted, taken, _⟩
    · rw [SchedulerTrace.call, refused]
      exact ring
    · rw [SchedulerTrace.call, accepted]
      exact (taken.joins ring).ring.of_same rfl rfl
  | round maxPackets maxBytes expired =>
    exact Scheduler.runRoundLimited_ring ring maxPackets maxBytes expired

theorem new_eq (opened : Scheduler.new config = .ok scheduler) :
    scheduler = Scheduler.mk config [] ∅ [] 0 0 := by
  unfold Scheduler.new at opened
  cases accepted : config.validate with
  | error refusal =>
    rw [accepted] at opened
    cases opened
  | ok validated =>
    rw [accepted, SchedulerConfig.validate_eq accepted] at opened
    cases opened
    rfl

theorem new_ring (opened : Scheduler.new config = .ok scheduler) : scheduler.Ring := by
  rw [new_eq opened]
  have nothing : ∀ flow, (∅ : KeyedMap FlowId (FlowQueue T)).lookup flow = none := fun _ => rfl
  refine ⟨List.nodup_nil, ?_, ?_⟩
  · intro flow
    simp [nothing]
  · intro flow queue found
    cases found

/-- The ring is in order in every run, whatever the totals do. -/
theorem ring_run {scheduler : Scheduler T} (opened : Scheduler.new config = .ok scheduler)
    (calls : List (SchedulerCall T)) : (run calls (start scheduler)).scheduler.Ring := by
  have onward : ∀ trace : SchedulerTrace T, trace.scheduler.Ring →
      (run calls trace).scheduler.Ring := by
    induction calls with
    | nil => exact fun _ ring => ring
    | cons call rest ih => exact fun trace ring => ih (trace.call call) (ring_call ring call)
  exact onward (start scheduler) (new_ring opened)

theorem Kept.start (opened : Scheduler.new config = .ok scheduler) :
    (start scheduler).Kept config := by
  have ring := new_ring opened
  rw [new_eq opened] at ring ⊢
  refine ⟨?_, ⟨ring, rfl, rfl, Nat.zero_le _, Nat.zero_le _⟩, rfl, Nat.zero_le _⟩
  intro name
  cases name with
  | none => rfl
  | some flow => rfl

/-- Every accepted packet is counted within the word of the byte total. -/
def Countable (config : SchedulerConfig) (scheduler : Scheduler T)
    (calls : List (SchedulerCall T)) : Prop :=
  config.maxQueuedBytes < usizeMax ∨ ∀ before workClass bytes value later,
      calls = before ++ .enqueue workClass bytes value :: later →
        (run before (start scheduler)).scheduler.queuedBytes + bytes ≤ usizeMax

theorem Countable.init {calls : List (SchedulerCall T)} {last : SchedulerCall T}
    (countable : Countable config scheduler (calls ++ [last])) :
    Countable config scheduler calls := by
  refine countable.imp_right (fun fits => ?_)
  intro before workClass bytes value later split
  exact fits before workClass bytes value (later ++ [last]) (by simp [split])

theorem Kept.run (opened : Scheduler.new config = .ok scheduler)
    (packetRange : config.maxQueuedPackets ≤ usizeMax) (calls : List (SchedulerCall T))
    (countable : Countable config scheduler calls) :
    (run calls (SchedulerTrace.start scheduler)).Kept config := by
  induction calls using List.reverseRecOn with
  | nil => exact Kept.start opened
  | append_singleton calls last ih =>
    have before := ih countable.init
    rw [SchedulerTrace.run, List.foldl_append]
    cases last with
    | enqueue workClass bytes value =>
      refine before.enqueue packetRange workClass value (countable.imp ?_ ?_)
      · intro small
        rw [before.sameConfig]
        exact small
      · intro fits
        exact fits calls workClass bytes value [] rfl
    | round maxPackets maxBytes expired => exact before.round maxPackets maxBytes expired

end SchedulerTrace

open SchedulerTrace in
/-- In every run each lane's accepted packets are those processed, in order, and
then those queued; the totals are the sums over the queues; a refused packet
changes nothing; and the next round keeps its limits. -/
theorem scheduler_runs_conserve {config : SchedulerConfig} {scheduler : Scheduler T}
    (opened : Scheduler.new config = .ok scheduler)
    (packetRange : config.maxQueuedPackets ≤ usizeMax) (calls : List (SchedulerCall T))
    (countable : Countable config scheduler calls) :
    let trace := run calls (start scheduler)
    let queues := trace.scheduler.flows.toList.map Prod.snd
    (∀ name, ofLane name (trace.accepted.map laneEntry) =
        ofLane name (trace.processed.map laneEntry) ++ trace.scheduler.lane name) ∧
      trace.scheduler.queuedPackets = trace.scheduler.control.length +
        tally (fun queue => queue.items.length) queues ∧
      trace.scheduler.queuedBytes = tally Item.bytes trace.scheduler.control +
        tally (fun queue => tally Item.bytes queue.items) queues ∧
      (∀ workClass bytes value error,
        (trace.scheduler.enqueue workClass bytes value).1 = .error error →
          (trace.scheduler.enqueue workClass bytes value).2 = trace.scheduler) ∧
      (∀ maxPackets maxBytes expired,
        let round := trace.scheduler.runRoundLimited maxPackets maxBytes expired
        round.sent.length ≤ min maxPackets config.maxPacketsPerRound ∧
          tally (fun entry => entry.2.bytes) round.sent ≤ min maxBytes config.maxBytesPerRound ∧
          round.stats.packets = round.sent.length ∧
          round.stats.bytes = tally (fun entry => entry.2.bytes) round.sent) := by
  intro trace queues
  have kept : trace.Kept config := Kept.run opened packetRange calls countable
  have totals := kept.coherent.ring.total_toList
  refine ⟨kept.splits, ?_, ?_, fun _ _ _ _ refused => Scheduler.enqueue_refused refused, ?_⟩
  · rw [kept.coherent.packets, totals, tally_one, tally_map]
    simp only [tally_one]
  · rw [kept.coherent.bytes, totals, tally_map]
  · intro maxPackets maxBytes expired round
    have sound := Scheduler.runRoundLimited_sound kept.coherent maxPackets maxBytes expired
    have packets := sound.packetsWithin
    have bytes := sound.bytesWithin
    rw [Scheduler.limits, kept.sameConfig] at packets bytes
    exact ⟨packets, bytes, sound.statPackets, sound.statBytes⟩

/-- Two flows and a control packet, with one round cut after two packets. -/
def cutRoundCalls : List (SchedulerCall Nat) :=
  [.enqueue .control 60 0, .enqueue (.data 7 1) 1500 1, .enqueue (.data 9 2) 1500 2,
    .enqueue (.data 7 1) 1500 3, .enqueue (.data 9 0) 40 4, .round 2 4000 (fun _ => false)]

open SchedulerTrace in
theorem scheduler_runs_conserve_cut_round :
    ∃ scheduler : Scheduler Nat, Scheduler.new .standard = .ok scheduler ∧
      (run cutRoundCalls (start scheduler)).accepted.length = 4 ∧
      (run cutRoundCalls (start scheduler)).processed =
        [(.control, Item.mk 60 0), (.data 7 1, Item.mk 1500 1)] ∧
      ∀ name, ofLane name ((run cutRoundCalls (start scheduler)).accepted.map laneEntry) =
        ofLane name ((run cutRoundCalls (start scheduler)).processed.map laneEntry) ++
          (run cutRoundCalls (start scheduler)).scheduler.lane name :=
  ⟨_, rfl, by decide +kernel, by decide +kernel,
    (@scheduler_runs_conserve Nat .standard _ rfl (by decide +kernel) cutRoundCalls
      (.inl (by decide +kernel))).1⟩

def unboundedBytes : SchedulerConfig :=
  { SchedulerConfig.standard with
    maxBytesPerRound := usizeMax
    maxContiguousFlowBytes := usizeMax
    maxQueuedBytes := usizeMax
    maxPacketBytes := usizeMax }

open SchedulerTrace in
/-- The check on the byte total saturates where the total itself wraps. -/
theorem byte_total_wraps_at_word_limit :
    ∃ scheduler : Scheduler Nat, Scheduler.new unboundedBytes = .ok scheduler ∧
      let calls := [.enqueue .control (2 ^ 63) 0, .enqueue .control (2 ^ 63) 1]
      let trace := run calls (start scheduler)
      trace.accepted.length = 2 ∧ trace.scheduler.queuedBytes = 0 ∧
        tally Item.bytes trace.scheduler.control = 2 ^ 64 :=
  ⟨_, rfl, by decide +kernel⟩

open SchedulerTrace in
/-- In every run the flows in turn are those with packets queued, each once. -/
theorem active_iff_backlogged {config : SchedulerConfig} {scheduler : Scheduler T}
    (opened : Scheduler.new config = .ok scheduler) (calls : List (SchedulerCall T)) :
    let reached := (run calls (start scheduler)).scheduler
    reached.active.Nodup ∧ ∀ flow, flow ∈ reached.active ↔ reached.lane (some flow) ≠ [] := by
  intro reached
  have ring : reached.Ring := ring_run opened calls
  refine ⟨ring.nodup, ?_⟩
  intro flow
  rw [ring.present]
  cases found : reached.flows.lookup flow with
  | none => simp [Scheduler.lane, found]
  | some queue =>
    rw [Scheduler.Ring.lane_some found]
    exact iff_of_true rfl (ring.backlogged flow queue found)

open SchedulerTrace in
theorem active_iff_backlogged_cut_round :
    ∃ scheduler : Scheduler Nat, Scheduler.new .standard = .ok scheduler ∧
      (run cutRoundCalls (start scheduler)).scheduler.active.Nodup :=
  ⟨_, rfl, (@active_iff_backlogged Nat .standard _ rfl cutRoundCalls).1⟩

end Sail.Netstack
