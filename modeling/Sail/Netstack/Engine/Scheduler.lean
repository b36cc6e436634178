/-
The egress scheduler.

Control packets go first; data packets wait in one queue for each flow, served in turn
by deficit round robin. When the time of a round runs out is an argument: the answer to
each look at the clock. Counters are native words and wrap.
-/

import Sail.Lib.KeyedMap
import Sail.Lib.MachineWord

namespace Sail.Netstack

variable {T : Type}

structure SchedulerConfig where
  quantumBytes : Nat
  maxPacketsPerRound : Nat
  maxBytesPerRound : Nat
  maxTimePerRound : Nat
  maxContiguousFlowBytes : Nat
  maxQueuedPackets : Nat
  maxQueuedBytes : Nat
  maxActiveFlows : Nat
  maxPacketsPerFlow : Nat
  maxControlPackets : Nat
  maxPacketBytes : Nat
deriving DecidableEq

inductive SchedulerConfigError where
  | zeroLimit
  | packetExceedsBudget
  | controlExceedsRound
deriving DecidableEq

namespace SchedulerConfig

def validate (config : SchedulerConfig) : Except SchedulerConfigError SchedulerConfig :=
  if config.quantumBytes = 0 ∨ config.maxPacketsPerRound = 0 ∨ config.maxBytesPerRound = 0 ∨
      config.maxTimePerRound = 0 ∨ config.maxContiguousFlowBytes = 0 ∨
      config.maxQueuedPackets = 0 ∨ config.maxQueuedBytes = 0 ∨ config.maxActiveFlows = 0 ∨
      config.maxPacketsPerFlow = 0 ∨ config.maxControlPackets = 0 ∨
      config.maxPacketBytes = 0 then
    .error .zeroLimit
  else if config.maxBytesPerRound < config.maxPacketBytes ∨
      config.maxQueuedBytes < config.maxPacketBytes ∨
      config.maxContiguousFlowBytes < config.maxPacketBytes then
    .error .packetExceedsBudget
  else if config.maxPacketsPerRound < config.maxControlPackets then .error .controlExceedsRound
  else .ok config

def standard : SchedulerConfig :=
  { quantumBytes := 16 * 1024
    maxPacketsPerRound := 256
    maxBytesPerRound := 1024 * 1024
    maxTimePerRound := 2000000
    maxContiguousFlowBytes := 64 * 1024
    maxQueuedPackets := 4096
    maxQueuedBytes := 8 * 1024 * 1024
    maxActiveFlows := 2048
    maxPacketsPerFlow := 128
    maxControlPackets := 32
    maxPacketBytes := 65535 }

theorem validate_standard : standard.validate = .ok standard :=
  rfl

theorem validate_eq {config validated : SchedulerConfig}
    (accepted : config.validate = .ok validated) : validated = config := by
  unfold validate at accepted
  split_ifs at accepted
  cases accepted
  rfl

end SchedulerConfig

abbrev FlowId := Nat

inductive WorkClass where
  | control
  | data (flow : FlowId) (weight : Nat)
deriving DecidableEq

structure Item (T : Type) where
  bytes : Nat
  value : T
deriving DecidableEq

structure FlowQueue (T : Type) where
  weight : Nat
  deficit : Nat
  bytes : Nat
  items : List (Item T)
deriving DecidableEq

inductive EnqueueError (T : Type) where
  | packetTooLarge (value : T)
  | queueFull (value : T)
  | flowQueueFull (value : T)
  | tooManyFlows (value : T)
  | invalidWeight (value : T)
deriving DecidableEq

structure RoundStats where
  packets : Nat := 0
  bytes : Nat := 0
  controlPackets : Nat := 0
  activeFlowsVisited : Nat := 0
  timeBudgetExhausted : Bool := false
deriving DecidableEq

structure Scheduler (T : Type) where
  config : SchedulerConfig
  control : List (Item T)
  flows : KeyedMap FlowId (FlowQueue T)
  active : List FlowId
  queuedPackets : Nat
  queuedBytes : Nat

namespace Scheduler

def new (config : SchedulerConfig) : Except SchedulerConfigError (Scheduler T) :=
  config.validate.map (fun config =>
    { config
      control := []
      flows := ∅
      active := []
      queuedPackets := 0
      queuedBytes := 0 })

/-! ### Enqueueing -/

def accountEnqueue (scheduler : Scheduler T) (bytes : Nat) : Scheduler T :=
  { scheduler with
    queuedPackets := wrappingAdd scheduler.queuedPackets 1
    queuedBytes := wrappingAdd scheduler.queuedBytes bytes }

def pushControl (scheduler : Scheduler T) (item : Item T) : Scheduler T :=
  { scheduler with control := scheduler.control ++ [item] }

def pushItem (scheduler : Scheduler T) (flow : FlowId) (queue : FlowQueue T) (item : Item T) :
    Scheduler T :=
  { scheduler with
    flows := scheduler.flows.insert flow
      { queue with
        bytes := wrappingAdd queue.bytes item.bytes
        items := queue.items ++ [item] } }

def activate (scheduler : Scheduler T) (flow : FlowId) (weight : Nat) (item : Item T) :
    Scheduler T :=
  { scheduler with
    flows := scheduler.flows.insert flow
      { weight, deficit := 0, bytes := item.bytes, items := [item] }
    active := scheduler.active ++ [flow] }

def enqueueData (scheduler : Scheduler T) (flow : FlowId) (weight bytes : Nat) (value : T) :
    Except (EnqueueError T) Unit × Scheduler T :=
  if weight = 0 then (.error (.invalidWeight value), scheduler)
  else
    match scheduler.flows.lookup flow with
    | some queue =>
      if queue.items.length = scheduler.config.maxPacketsPerFlow then
        (.error (.flowQueueFull value), scheduler)
      else (.ok (), (scheduler.pushItem flow queue (Item.mk bytes value)).accountEnqueue bytes)
    | none =>
      if scheduler.flows.toList.length = scheduler.config.maxActiveFlows then
        (.error (.tooManyFlows value), scheduler)
      else
        (.ok (), (scheduler.activate flow weight (Item.mk bytes value)).accountEnqueue bytes)

def enqueue (scheduler : Scheduler T) (workClass : WorkClass) (bytes : Nat) (value : T) :
    Except (EnqueueError T) Unit × Scheduler T :=
  if scheduler.config.maxPacketBytes < bytes then (.error (.packetTooLarge value), scheduler)
  else if scheduler.queuedPackets = scheduler.config.maxQueuedPackets ∨
      scheduler.config.maxQueuedBytes < satAdd scheduler.queuedBytes bytes then
    (.error (.queueFull value), scheduler)
  else
    match workClass with
    | .control =>
      (.ok (), (scheduler.pushControl (Item.mk bytes value)).accountEnqueue bytes)
    | .data flow weight => scheduler.enqueueData flow weight bytes value

end Scheduler

/-! ### One round -/

structure RoundLimits where
  maxPackets : Nat
  maxBytes : Nat
  expired : Nat → Bool

/-- A round under way: the looks at the clock so far and the packets handed to
the caller, in order. -/
structure Round (T : Type) where
  scheduler : Scheduler T
  stats : RoundStats
  looks : Nat
  sent : List (WorkClass × Item T)

namespace Round

def fitsRound (stats : RoundStats) (bytes maxPackets maxBytes : Nat) : Bool :=
  stats.packets < maxPackets && satAdd stats.bytes bytes ≤ maxBytes

def accountDequeue (round : Round T) (workClass : WorkClass) (item : Item T) : Round T :=
  { round with
    scheduler :=
      { round.scheduler with
        queuedPackets := wrappingSub round.scheduler.queuedPackets 1
        queuedBytes := wrappingSub round.scheduler.queuedBytes item.bytes }
    stats :=
      { round.stats with
        packets := round.stats.packets + 1
        bytes := wrappingAdd round.stats.bytes item.bytes }
    sent := round.sent ++ [(workClass, item)] }

def look (round : Round T) : Round T :=
  { round with looks := round.looks + 1 }

def exhaust (round : Round T) : Round T :=
  { round with stats := { round.stats with timeBudgetExhausted := true } }

def popControl (round : Round T) (front : Item T) (rest : List (Item T)) : Round T :=
  let popped : Round T := { round with scheduler := { round.scheduler with control := rest } }
  let sent := popped.accountDequeue .control front
  { sent with stats := { sent.stats with controlPackets := sent.stats.controlPackets + 1 } }

def sendControl (limits : RoundLimits) : Nat → Round T → Round T
  | 0, round => round
  | remaining + 1, round =>
    match round.scheduler.control with
    | [] => round
    | front :: rest =>
      if fitsRound round.stats front.bytes limits.maxPackets limits.maxBytes then
        let sent := round.popControl front rest
        if limits.expired sent.looks then sent.look.exhaust
        else sendControl limits remaining sent.look
      else round

end Round

structure Visit (T : Type) where
  queue : FlowQueue T
  contiguous : Nat
  round : Round T

namespace Visit

/-- A flow's packet may go: its deficit, the contiguous cap and the round
allow it. -/
def mayGo (limits : RoundLimits) (visit : Visit T) (front : Item T) : Bool :=
  front.bytes ≤ visit.queue.deficit && satAdd visit.contiguous front.bytes ≤
      visit.round.scheduler.config.maxContiguousFlowBytes &&
    Round.fitsRound visit.round.stats front.bytes limits.maxPackets limits.maxBytes

def pop (visit : Visit T) (flow : FlowId) (front : Item T) (rest : List (Item T)) : Visit T :=
  { queue :=
      { visit.queue with
        deficit := visit.queue.deficit - front.bytes
        bytes := wrappingSub visit.queue.bytes front.bytes
        items := rest }
    contiguous := wrappingAdd visit.contiguous front.bytes
    round := visit.round.accountDequeue (.data flow visit.queue.weight) front }

def serve (limits : RoundLimits) (flow : FlowId) : List (Item T) → Visit T → Visit T
  | [], visit => visit
  | front :: rest, visit =>
    if visit.mayGo limits front then
      let popped := visit.pop flow front rest
      let looked : Visit T := { popped with round := popped.round.look }
      if limits.expired popped.round.looks then
        { looked with round := looked.round.exhaust }
      else serve limits flow rest looked
    else visit

end Visit

namespace Round

def openVisit (round : Round T) (flow : FlowId) (others : List FlowId) (queue : FlowQueue T) :
    Visit T :=
  { queue :=
      { queue with
        deficit := satAdd queue.deficit
          (satMul round.scheduler.config.quantumBytes queue.weight) }
    contiguous := 0
    round :=
      { round with
        scheduler :=
          { round.scheduler with
            active := others
            flows := round.scheduler.flows.erase flow }
        stats :=
          { round.stats with
            activeFlowsVisited := round.stats.activeFlowsVisited + 1 } } }

def closeVisit (flow : FlowId) (visit : Visit T) : Round T :=
  if visit.queue.items.isEmpty then visit.round
  else
    { visit.round with
      scheduler :=
        { visit.round.scheduler with
          flows := visit.round.scheduler.flows.insert flow visit.queue
          active := visit.round.scheduler.active ++ [flow] } }

/-- Visit the first flow of the ring. The code asserts that there is one and
that it has a queue. -/
def visitFirst (limits : RoundLimits) (round : Round T) : Round T :=
  match round.scheduler.active with
  | [] => round
  | flow :: others =>
    match round.scheduler.flows.lookup flow with
    | none => round
    | some queue =>
      closeVisit flow (Visit.serve limits flow queue.items
        (round.openVisit flow others queue))

def lookBefore (round : Round T) : Round T :=
  if 0 < round.stats.packets then round.look else round

def goesOn (limits : RoundLimits) (round : Round T) : Bool :=
  round.stats.packets ≠ limits.maxPackets &&
    !(0 < round.stats.packets && limits.expired round.looks)

def finish (limits : RoundLimits) (round : Round T) : Round T :=
  if round.stats.packets = limits.maxPackets then round
  else round.look.exhaust

def visitFlows (limits : RoundLimits) : Nat → Round T → Round T
  | 0, round => round
  | visits + 1, round =>
    if round.goesOn limits then
      let visited := round.lookBefore.visitFirst limits
      if visited.stats.timeBudgetExhausted then visited
      else visitFlows limits visits visited
    else round.finish limits

end Round

namespace Scheduler

def limits (scheduler : Scheduler T) (maxPackets maxBytes : Nat) (expired : Nat → Bool) :
    RoundLimits :=
  { maxPackets := min maxPackets scheduler.config.maxPacketsPerRound
    maxBytes := min maxBytes scheduler.config.maxBytesPerRound
    expired }

def afterControl (scheduler : Scheduler T) (limits : RoundLimits) : Round T :=
  Round.sendControl limits scheduler.config.maxControlPackets
    { scheduler, stats := {}, looks := 0, sent := [] }

def runRoundLimited (scheduler : Scheduler T) (maxPackets maxBytes : Nat)
    (expired : Nat → Bool) : Round T :=
  let limits := scheduler.limits maxPackets maxBytes expired
  let round := scheduler.afterControl limits
  if round.stats.timeBudgetExhausted then round
  else Round.visitFlows limits round.scheduler.active.length round

def runRound (scheduler : Scheduler T) (expired : Nat → Bool) : Round T :=
  scheduler.runRoundLimited scheduler.config.maxPacketsPerRound
    scheduler.config.maxBytesPerRound expired

end Scheduler

end Sail.Netstack
