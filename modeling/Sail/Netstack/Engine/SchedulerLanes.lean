/-
The scheduler as first-in-first-out lanes.

Control packets form one lane and the packets of each flow another. In every run
each lane's accepted packets are those sent, in order, and then those queued; the
recorded totals are the sums over the lanes.
-/

import Sail.Lib.Lanes
import Sail.Netstack.Engine.Scheduler

namespace Sail.Netstack

open Lanes

variable {T : Type}

def WorkClass.lane : WorkClass → Option FlowId
  | .control => none
  | .data flow _ => some flow

def laneEntry (entry : WorkClass × Item T) : Option FlowId × Item T :=
  (entry.1.lane, entry.2)

namespace Scheduler

def lane (scheduler : Scheduler T) : Option FlowId → List (Item T)
  | none => scheduler.control
  | some flow => (scheduler.flows.lookup flow).elim [] FlowQueue.items

def lanes (scheduler : Scheduler T) : List (Option FlowId) :=
  none :: scheduler.active.map some

def total (scheduler : Scheduler T) (weight : Item T → Nat) : Nat :=
  tally (fun lane => tally weight (scheduler.lane lane)) scheduler.lanes

structure Ring (scheduler : Scheduler T) : Prop where
  nodup : scheduler.active.Nodup
  present : ∀ flow, flow ∈ scheduler.active ↔ (scheduler.flows.lookup flow).isSome = true
  backlogged : ∀ flow queue, scheduler.flows.lookup flow = some queue → queue.items ≠ []

structure Coherent (scheduler : Scheduler T) : Prop where
  ring : scheduler.Ring
  packets : scheduler.queuedPackets = scheduler.total (fun _ => 1)
  bytes : scheduler.queuedBytes = scheduler.total Item.bytes
  packetsInRange : scheduler.queuedPackets ≤ usizeMax
  bytesInRange : scheduler.queuedBytes ≤ usizeMax

namespace Ring

variable {scheduler : Scheduler T}

theorem lane_some {flow : FlowId} {queue : FlowQueue T}
    (found : scheduler.flows.lookup flow = some queue) :
    scheduler.lane (some flow) = queue.items := by
  rw [lane, found]
  rfl

theorem lanes_nodup (ring : scheduler.Ring) : scheduler.lanes.Nodup := by
  refine List.nodup_cons.mpr ⟨?_, ring.nodup.map (fun _ _ => Option.some.inj)⟩
  intro member
  obtain ⟨flow, _, impossible⟩ := List.mem_map.mp member
  cases impossible

theorem mem_lanes (ring : scheduler.Ring) {name : Option FlowId}
    (waiting : scheduler.lane name ≠ []) : name ∈ scheduler.lanes := by
  cases name with
  | none => exact List.mem_cons_self
  | some flow =>
    refine List.mem_cons_of_mem _ (List.mem_map_of_mem ((ring.present flow).mpr ?_))
    cases found : scheduler.flows.lookup flow with
    | none =>
      rw [lane, found] at waiting
      exact absurd rfl waiting
    | some queue => rfl

end Ring

end Scheduler

/-! ### A round under way -/

variable {front : Item T} {rest : List (Item T)}

namespace Round

def log (round : Round T) : List (Option FlowId × Item T) :=
  round.sent.map laneEntry

def sentBytes (round : Round T) : Nat :=
  tally (fun entry => entry.2.bytes) round.sent

/-- A round under way from a scheduler: the lanes are split into what was sent
and the given rest, the counters have gone down by what was sent, and the limits
are kept. -/
structure Sound (origin : Scheduler T) (limits : RoundLimits)
    (left : Option FlowId → List (Item T)) (round : Round T) : Prop where
  splits : Splits origin.lane round.log left
  config : round.scheduler.config = origin.config
  packets : round.scheduler.queuedPackets + round.sent.length = origin.queuedPackets
  bytes : round.scheduler.queuedBytes + round.sentBytes = origin.queuedBytes
  statPackets : round.stats.packets = round.sent.length
  statBytes : round.stats.bytes = round.sentBytes
  packetsWithin : round.sent.length ≤ limits.maxPackets
  bytesWithin : round.sentBytes ≤ limits.maxBytes

section

variable (round : Round T) (workClass : WorkClass) (item : Item T)

include round workClass item

theorem sentBytes_accountDequeue :
    (round.accountDequeue workClass item).sentBytes = round.sentBytes + item.bytes := by
  unfold sentBytes
  change tally _ (round.sent ++ [(workClass, item)]) = _
  rw [tally_append, tally_cons, tally_nil, Nat.add_zero]

/-- Counting a packet leaves the queues and the configuration alone. -/
theorem scheduler_accountDequeue :
    (round.accountDequeue workClass item).scheduler.config = round.scheduler.config ∧
      (round.accountDequeue workClass item).scheduler.control = round.scheduler.control ∧
      (round.accountDequeue workClass item).scheduler.flows = round.scheduler.flows ∧
      (round.accountDequeue workClass item).scheduler.active = round.scheduler.active := by
  simp only [accountDequeue, and_self]

theorem log_accountDequeue :
    (round.accountDequeue workClass item).log = round.log ++ [(workClass.lane, item)] := by
  change (round.sent ++ [(workClass, item)]).map laneEntry = _
  rw [List.map_append]
  rfl

end

namespace Sound

variable {origin : Scheduler T} {limits : RoundLimits} {left : Option FlowId → List (Item T)}
  {round : Round T}

/-- What is at the front of a lane is part of what the counters still hold. -/
theorem front_counted (sound : Sound origin limits left round) (coherent : origin.Coherent)
    {name : Option FlowId} (waiting : left name = front :: rest) (weight : Item T → Nat) :
    tally (fun entry => weight entry.2) round.sent + weight front ≤ origin.total weight := by
  have listed : name ∈ origin.lanes := by
    refine coherent.ring.mem_lanes ?_
    rw [sound.splits name, waiting]
    exact List.append_ne_nil_of_right_ne_nil _ (List.cons_ne_nil _ _)
  have sums := sound.splits.tally_eq weight coherent.ring.lanes_nodup
    (fun _ waits => coherent.ring.mem_lanes waits)
  have sentSum : tally (fun entry : Option FlowId × Item T => weight entry.2) round.log =
      tally (fun entry => weight entry.2) round.sent := by
    unfold tally log
    rw [List.map_map]
    rfl
  have lane := le_tally (fun name => tally weight (left name)) listed
  rw [waiting, tally_cons] at lane
  unfold Scheduler.total
  omega

/-- One packet leaves the front of its lane. -/
theorem dequeue (sound : Sound origin limits left round) (coherent : origin.Coherent)
    {workClass : WorkClass} (waiting : left workClass.lane = front :: rest)
    (fits : fitsRound round.stats front.bytes limits.maxPackets limits.maxBytes = true) :
    Sound origin limits (Function.update left workClass.lane rest)
      (round.accountDequeue workClass front) := by
  have packets := sound.front_counted coherent waiting (fun _ => 1)
  have bytes := sound.front_counted coherent waiting Item.bytes
  rw [← coherent.packets, ← sound.packets] at packets
  rw [← coherent.bytes, ← sound.bytes] at bytes
  rw [tally_one] at packets
  change round.sentBytes + front.bytes ≤ _ at bytes
  have sumPackets := sound.packets
  have sumBytes := sound.bytes
  have bytesInRange := coherent.bytesInRange
  unfold fitsRound at fits
  rw [Bool.and_eq_true, decide_eq_true_eq, decide_eq_true_eq] at fits
  obtain ⟨fewer, smaller⟩ := fits
  have noOverflow : round.sentBytes + front.bytes ≤ usizeMax := by omega
  have sizeSent : (round.accountDequeue workClass front).sent.length = round.sent.length + 1 := by
    change (round.sent ++ [(workClass, front)]).length = _
    rw [List.length_append, List.length_singleton]
  have packetsLeft : (round.accountDequeue workClass front).scheduler.queuedPackets =
      round.scheduler.queuedPackets - 1 := wrappingSub_eq (by omega)
  have bytesLeft : (round.accountDequeue workClass front).scheduler.queuedBytes =
      round.scheduler.queuedBytes - front.bytes := wrappingSub_eq (by omega)
  have statPackets : (round.accountDequeue workClass front).stats.packets =
      round.stats.packets + 1 := rfl
  have statBytes : (round.accountDequeue workClass front).stats.bytes =
      round.sentBytes + front.bytes := by
    rw [← wrappingAdd_eq noOverflow, ← sound.statBytes]
    rfl
  have byteSum := sentBytes_accountDequeue round workClass front
  have sameConfig := (scheduler_accountDequeue round workClass front).1
  rw [sound.statPackets] at fewer
  rw [sound.statBytes, satAdd, Nat.min_eq_left noOverflow] at smaller
  have logged := log_accountDequeue round workClass front
  generalize round.accountDequeue workClass front = after at *
  exact
    { splits := by
        rw [logged]
        exact sound.splits.send waiting
      config := sameConfig.trans sound.config
      packets := by omega
      bytes := by omega
      statPackets := by rw [statPackets, sizeSent, sound.statPackets]
      statBytes := by rw [statBytes, byteSum]
      packetsWithin := by omega
      bytesWithin := by omega }

/-- A change that leaves the counters, the log and the configuration alone. -/
theorem of_same {other : Round T} (sound : Sound origin limits left round)
    (sameConfig : other.scheduler.config = round.scheduler.config)
    (samePackets : other.scheduler.queuedPackets = round.scheduler.queuedPackets)
    (sameBytes : other.scheduler.queuedBytes = round.scheduler.queuedBytes)
    (sameStats : other.stats.packets = round.stats.packets ∧ other.stats.bytes = round.stats.bytes)
    (sameSent : other.sent = round.sent) : Sound origin limits left other := by
  have sameLog : other.log = round.log := congrArg (List.map laneEntry) sameSent
  have sameSum : other.sentBytes = round.sentBytes := by
    unfold sentBytes
    rw [sameSent]
  refine ⟨?_, sameConfig.trans sound.config, ?_, ?_, ?_, ?_, ?_, ?_⟩
  · rw [sameLog]
    exact sound.splits
  · rw [samePackets, sameSent]
    exact sound.packets
  · rw [sameBytes, sameSum]
    exact sound.bytes
  · rw [sameStats.1, sameSent]
    exact sound.statPackets
  · rw [sameStats.2, sameSum]
    exact sound.statBytes
  · rw [sameSent]
    exact sound.packetsWithin
  · rw [sameSum]
    exact sound.bytesWithin

end Sound

end Round

/-! ### Control packets -/

namespace Scheduler

theorem lane_congr {left right : Scheduler T} (sameControl : left.control = right.control)
    (sameFlows : left.flows = right.flows) : left.lane = right.lane := by
  funext name
  cases name with
  | none => exact sameControl
  | some flow => rw [lane, lane, sameFlows]

theorem lane_control (scheduler : Scheduler T) (rest : List (Item T)) :
    ({ scheduler with control := rest } : Scheduler T).lane =
      Function.update scheduler.lane none rest := by
  funext name
  cases name with
  | none => rw [Function.update_self, lane]
  | some flow => rw [Function.update_of_ne (by simp), lane, lane]

theorem Ring.of_same {left right : Scheduler T} (ring : left.Ring)
    (sameFlows : right.flows = left.flows) (sameActive : right.active = left.active) :
    right.Ring := by
  refine ⟨?_, ?_, ?_⟩
  · rw [sameActive]
    exact ring.nodup
  · intro flow
    rw [sameActive, sameFlows]
    exact ring.present flow
  · intro flow queue found
    rw [sameFlows] at found
    exact ring.backlogged flow queue found

/-- A flow's queue is stored, with the flow in the ring. -/
theorem Ring.store {scheduler after : Scheduler T} (ring : scheduler.Ring) {flow : FlowId}
    {queue : FlowQueue T} (stored : after.flows = scheduler.flows.insert flow queue)
    (nodup : after.active.Nodup)
    (members : ∀ other, other ∈ after.active ↔ other = flow ∨ other ∈ scheduler.active)
    (waiting : queue.items ≠ []) : after.Ring := by
  refine ⟨nodup, ?_, ?_⟩
  · intro other
    rw [stored, KeyedMap.lookup_insert_ite, members, ring.present]
    split_ifs with same
    · simp [same]
    · simp [same]
  · rw [stored]
    exact KeyedMap.every_insert ring.backlogged waiting

/-- A flow without a queue joins the end of the ring. -/
theorem Ring.storeLast {scheduler after : Scheduler T} (ring : scheduler.Ring) {flow : FlowId}
    {queue : FlowQueue T} (stored : after.flows = scheduler.flows.insert flow queue)
    (last : after.active = scheduler.active ++ [flow])
    (absent : scheduler.flows.lookup flow = none)
    (waiting : queue.items ≠ []) : after.Ring := by
  have away : flow ∉ scheduler.active := by
    rw [ring.present, absent]
    exact Bool.false_ne_true
  refine ring.store stored ?_ ?_ waiting
  · rw [last, ← List.concat_eq_append]
    exact ring.nodup.concat away
  · intro other
    rw [last, List.mem_append, List.mem_singleton, Or.comm]

end Scheduler

namespace Round

structure SendsOnly (limits : RoundLimits) (name : Option FlowId) (round after : Round T) :
    Prop where
  sameConfig : after.scheduler.config = round.scheduler.config
  sameFlows : after.scheduler.flows = round.scheduler.flows
  sameActive : after.scheduler.active = round.scheduler.active
  sameControl : name ≠ none → after.scheduler.control = round.scheduler.control
  sent : ∃ more, after.sent = round.sent ++ more ∧ ∀ entry ∈ more, entry.1.lane = name
  packets : round.stats.packets ≤ limits.maxPackets → after.stats.packets ≤ limits.maxPackets

namespace SendsOnly

variable {limits : RoundLimits} {name : Option FlowId}

/-- Nothing was sent; the clock or the statistics may differ. -/
theorem of_same {round after : Round T} (sameScheduler : after.scheduler = round.scheduler)
    (sameSent : after.sent = round.sent) (samePackets : after.stats.packets = round.stats.packets) :
    SendsOnly limits name round after := by
  refine ⟨by rw [sameScheduler], by rw [sameScheduler], by rw [sameScheduler],
    fun _ => by rw [sameScheduler], ⟨[], by rw [sameSent, List.append_nil], ?_⟩, ?_⟩
  · intro entry member
    cases member
  · intro within
    rw [samePackets]
    exact within

theorem look (round : Round T) : SendsOnly limits name round round.look :=
  of_same rfl rfl rfl

theorem trans {first second third : Round T} (early : SendsOnly limits name first second)
    (late : SendsOnly limits name second third) : SendsOnly limits name first third := by
  obtain ⟨firstMore, firstSent, firstLane⟩ := early.sent
  obtain ⟨secondMore, secondSent, secondLane⟩ := late.sent
  refine ⟨late.sameConfig.trans early.sameConfig, late.sameFlows.trans early.sameFlows,
    late.sameActive.trans early.sameActive,
    fun data => (late.sameControl data).trans (early.sameControl data),
    ⟨firstMore ++ secondMore, by rw [secondSent, firstSent, List.append_assoc], ?_⟩,
    fun within => late.packets (early.packets within)⟩
  intro entry member
  rcases List.mem_append.mp member with inFirst | inSecond
  · exact firstLane entry inFirst
  · exact secondLane entry inSecond

end SendsOnly

theorem fitsRound_packets {stats : RoundStats} {bytes maxPackets maxBytes : Nat}
    (fits : fitsRound stats bytes maxPackets maxBytes = true) : stats.packets + 1 ≤ maxPackets := by
  unfold fitsRound at fits
  rw [Bool.and_eq_true, decide_eq_true_eq] at fits
  exact fits.1

theorem popControl_sendsOnly {limits : RoundLimits} {round : Round T} (rest : List (Item T))
    (fits : fitsRound round.stats front.bytes limits.maxPackets limits.maxBytes = true) :
    SendsOnly limits none round (round.popControl front rest) := by
  refine ⟨rfl, rfl, rfl, fun data => absurd rfl data, ⟨[(.control, front)], rfl, ?_⟩,
    fun _ => fitsRound_packets fits⟩
  intro entry member
  rw [List.mem_singleton.mp member]
  rfl

theorem Sound.popControl {origin : Scheduler T} {limits : RoundLimits} {round : Round T}
    (sound : Sound origin limits round.scheduler.lane round) (coherent : origin.Coherent)
    (waiting : round.scheduler.control = front :: rest)
    (fits : fitsRound round.stats front.bytes limits.maxPackets limits.maxBytes = true) :
    Sound origin limits (round.popControl front rest).scheduler.lane
      (round.popControl front rest) := by
  have sent := sound.dequeue coherent (show round.scheduler.lane WorkClass.control.lane =
    front :: rest from waiting) fits
  have lanes : (round.popControl front rest).scheduler.lane =
      Function.update round.scheduler.lane none rest := by
    rw [← Scheduler.lane_control round.scheduler rest]
    exact Scheduler.lane_congr rfl rfl
  rw [lanes]
  exact sent.of_same rfl rfl rfl ⟨rfl, rfl⟩ rfl

theorem sendControl_sendsOnly (limits : RoundLimits) (remaining : Nat) (round : Round T) :
    SendsOnly limits none round (sendControl limits remaining round) := by
  induction remaining generalizing round with
  | zero => exact .of_same rfl rfl rfl
  | succ remaining ih =>
    unfold sendControl
    cases waiting : round.scheduler.control with
    | nil => exact .of_same rfl rfl rfl
    | cons front rest =>
      dsimp only
      by_cases fits : fitsRound round.stats front.bytes limits.maxPackets limits.maxBytes = true
      · have popped := popControl_sendsOnly rest fits
        split_ifs
        · exact popped.trans (.of_same rfl rfl rfl)
        · have onward := ih (round.popControl front rest).look
          exact popped.trans ((SendsOnly.look _).trans onward)
      · rw [if_neg fits]
        exact .of_same rfl rfl rfl

theorem sendControl_sound {origin : Scheduler T} {limits : RoundLimits}
    (coherent : origin.Coherent) (remaining : Nat) {round : Round T}
    (sound : Sound origin limits round.scheduler.lane round) :
    Sound origin limits (sendControl limits remaining round).scheduler.lane
      (sendControl limits remaining round) := by
  induction remaining generalizing round with
  | zero => exact sound
  | succ remaining ih =>
    unfold sendControl
    cases waiting : round.scheduler.control with
    | nil => exact sound
    | cons front rest =>
      dsimp only
      by_cases fits : fitsRound round.stats front.bytes limits.maxPackets limits.maxBytes = true
      · have sent := sound.popControl coherent waiting fits
        generalize round.popControl front rest = after at *
        have looked : Sound origin limits after.look.scheduler.lane after.look :=
          sent.of_same rfl rfl rfl ⟨rfl, rfl⟩ rfl
        split_ifs
        · exact looked.of_same rfl rfl rfl ⟨rfl, rfl⟩ rfl
        · exact ih looked
      · rw [if_neg fits]
        exact sound

end Round

/-! ### Visits -/

namespace Visit

def left (flow : FlowId) (visit : Visit T) : Option FlowId → List (Item T) :=
  Function.update visit.round.scheduler.lane (some flow) visit.queue.items

variable {origin : Scheduler T} {limits : RoundLimits} {flow : FlowId} {visit : Visit T}

theorem mayGo_fits (may : visit.mayGo limits front = true) :
    Round.fitsRound visit.round.stats front.bytes limits.maxPackets limits.maxBytes = true := by
  unfold mayGo at may
  rw [Bool.and_eq_true] at may
  exact may.2

theorem pop_sendsOnly (flow : FlowId) (rest : List (Item T))
    (may : visit.mayGo limits front = true) :
    Round.SendsOnly limits (some flow) visit.round (visit.pop flow front rest).round := by
  obtain ⟨config, control, flows, active⟩ :=
    Round.scheduler_accountDequeue visit.round (.data flow visit.queue.weight) front
  refine ⟨config, flows, active, fun _ => control,
    ⟨[(.data flow visit.queue.weight, front)], rfl, ?_⟩,
    fun _ => Round.fitsRound_packets (mayGo_fits may)⟩
  intro entry member
  rw [List.mem_singleton.mp member]
  rfl

theorem pop_sound (sound : visit.round.Sound origin limits (visit.left flow))
    (coherent : origin.Coherent) (waiting : visit.queue.items = front :: rest)
    (may : visit.mayGo limits front = true) :
    (visit.pop flow front rest).round.Sound origin limits
      ((visit.pop flow front rest).left flow) := by
  have atFront : visit.left flow (WorkClass.data flow visit.queue.weight).lane =
      front :: rest := by
    rw [left, WorkClass.lane, Function.update_self, waiting]
  have sent := sound.dequeue coherent atFront (mayGo_fits may)
  have only := pop_sendsOnly flow rest may
  have lanes : (visit.pop flow front rest).left flow =
      Function.update (visit.left flow) (some flow) rest := by
    rw [left, left, Function.update_idem,
      Scheduler.lane_congr (only.sameControl (by simp)) only.sameFlows]
    rfl
  rw [lanes]
  exact sent

theorem serve_sendsOnly (limits : RoundLimits) (flow : FlowId) (items : List (Item T))
    (visit : Visit T) :
    Round.SendsOnly limits (some flow) visit.round (serve limits flow items visit).round := by
  induction items generalizing visit with
  | nil => exact .of_same rfl rfl rfl
  | cons front rest ih =>
    unfold serve
    by_cases may : visit.mayGo limits front = true
    · have popped := pop_sendsOnly flow rest may
      dsimp only
      split_ifs
      · exact popped.trans (.of_same rfl rfl rfl)
      · have onward := ih { visit.pop flow front rest with
          round := (visit.pop flow front rest).round.look }
        exact popped.trans ((Round.SendsOnly.look _).trans onward)
    · rw [if_neg may]
      exact .of_same rfl rfl rfl

/-- Serving a flow keeps the round sound. -/
theorem serve_sound (coherent : origin.Coherent) (items : List (Item T)) {visit : Visit T}
    (same : visit.queue.items = items)
    (sound : visit.round.Sound origin limits (visit.left flow)) :
    (serve limits flow items visit).round.Sound origin limits
      ((serve limits flow items visit).left flow) := by
  induction items generalizing visit with
  | nil => exact sound
  | cons front rest ih =>
    unfold serve
    by_cases may : visit.mayGo limits front = true
    · have popped := pop_sound sound coherent same may
      have items : (visit.pop flow front rest).queue.items = rest := rfl
      dsimp only
      generalize visit.pop flow front rest = after at *
      have looked : Round.Sound origin limits
          (left flow { after with round := after.round.look }) after.round.look :=
        popped.of_same rfl rfl rfl ⟨rfl, rfl⟩ rfl
      split_ifs
      · exact looked.of_same rfl rfl rfl ⟨rfl, rfl⟩ rfl
      · exact @ih { after with round := after.round.look } items looked
    · rw [if_neg may]
      exact sound

end Visit

/-! ### Taking a flow out and putting it back -/

namespace Round

variable {round : Round T} {flow : FlowId} {others : List FlowId} {queue : FlowQueue T}

theorem openVisit_left (found : round.scheduler.flows.lookup flow = some queue) :
    (round.openVisit flow others queue).left flow = round.scheduler.lane := by
  funext name
  by_cases same : name = some flow
  · rw [same, Visit.left, Function.update_self, Scheduler.Ring.lane_some found]
    rfl
  · rw [Visit.left, Function.update_of_ne same]
    cases name with
    | none => rfl
    | some other =>
      have apart : other ≠ flow := fun equal => same (congrArg some equal)
      change ((round.scheduler.flows.erase flow).lookup other).elim [] _ = _
      rw [KeyedMap.lookup_erase_ite, if_neg apart]
      rfl

theorem openVisit_absent :
    (round.openVisit flow others queue).round.scheduler.flows.lookup flow = none := by
  change (round.scheduler.flows.erase flow).lookup flow = none
  rw [KeyedMap.lookup_erase_ite, if_pos rfl]

theorem openVisit_ring (ring : round.scheduler.Ring)
    (first : round.scheduler.active = flow :: others) :
    (round.openVisit flow others queue).round.scheduler.Ring := by
  have nodup := ring.nodup
  rw [first, List.nodup_cons] at nodup
  have erased : ∀ other, (round.openVisit flow others queue).round.scheduler.flows.lookup other =
      if other = flow then none else round.scheduler.flows.lookup other :=
    fun other => KeyedMap.lookup_erase_ite _ _ _
  have ofErased : ∀ other found,
      (round.openVisit flow others queue).round.scheduler.flows.lookup other = some found →
        round.scheduler.flows.lookup other = some found := by
    intro other found kept
    rw [erased] at kept
    split_ifs at kept
    exact kept
  refine ⟨nodup.2, ?_, fun other found kept => ring.backlogged other found (ofErased _ _ kept)⟩
  intro other
  change other ∈ others ↔ _
  rw [erased]
  by_cases same : other = flow
  · rw [if_pos same, same]
    simp [nodup.1]
  · rw [if_neg same, ← ring.present other, first, List.mem_cons, or_iff_right same]

variable {visit : Visit T}

theorem closeVisit_lane (absent : visit.round.scheduler.flows.lookup flow = none) :
    (closeVisit flow visit).scheduler.lane = visit.left flow := by
  funext name
  unfold closeVisit
  by_cases same : name = some flow
  · rw [same, Visit.left, Function.update_self]
    split_ifs with done
    · rw [Scheduler.lane, absent, List.isEmpty_iff.mp done]
      rfl
    · rw [Scheduler.lane, KeyedMap.lookup_insert_ite, if_pos rfl]
      rfl
  · rw [Visit.left, Function.update_of_ne same]
    split_ifs
    · rfl
    · cases name with
      | none => rfl
      | some other =>
        have apart : other ≠ flow := fun equal => same (congrArg some equal)
        rw [Scheduler.lane, KeyedMap.lookup_insert_ite, if_neg apart]
        rfl

theorem closeVisit_ring (ring : visit.round.scheduler.Ring)
    (absent : visit.round.scheduler.flows.lookup flow = none) :
    (closeVisit flow visit).scheduler.Ring := by
  unfold closeVisit
  split_ifs with done
  · exact ring
  · exact ring.storeLast rfl rfl absent (fun empty => done (List.isEmpty_iff.mpr empty))

end Round

end Sail.Netstack
