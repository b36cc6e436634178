/-
Turns in a cut round.

The flows keep their turns exactly if no visit finds the byte limit too small for a
first packet after another backlogged flow was sent from.
-/

import Sail.Netstack.Engine.SchedulerRuns

namespace Sail

/-- Members of one kind all stand ahead of the members of another kind. -/
theorem forall_idxOf_lt_iff {A : Type*} [DecidableEq A] {items : List A} (nodup : items.Nodup)
    {ahead behind : A → Prop} (apart : ∀ item, ahead item → ¬behind item) :
    (∀ first ∈ items, ∀ second ∈ items, ahead first → behind second →
        items.idxOf first < items.idxOf second) ↔
      items.Pairwise (fun left right => ¬(behind left ∧ ahead right)) := by
  rw [List.pairwise_iff_getElem]
  constructor
  · intro ordered left right leftLt rightLt before
    rintro ⟨isBehind, isAhead⟩
    have position := ordered items[right] (List.getElem_mem _) items[left] (List.getElem_mem _)
      isAhead isBehind
    rw [nodup.idxOf_getElem, nodup.idxOf_getElem] at position
    omega
  · intro ordered first firstMember second secondMember isAhead isBehind
    have firstLt := List.idxOf_lt_length_of_mem firstMember
    have secondLt := List.idxOf_lt_length_of_mem secondMember
    by_contra wrong
    have different : items.idxOf second ≠ items.idxOf first := by
      intro equal
      have same := (List.idxOf_inj secondMember).mp equal
      exact apart first isAhead (same ▸ isBehind)
    have clash := ordered _ _ secondLt firstLt (by omega)
    rw [List.getElem_idxOf secondLt, List.getElem_idxOf firstLt] at clash
    exact clash ⟨isBehind, isAhead⟩

end Sail

variable {flow : FlowId}

namespace Sail.Netstack

variable {T : Type}

def Round.SentFrom (round : Round T) (flow : FlowId) : Prop :=
  ∃ entry ∈ round.sent, entry.1.lane = some flow

instance (round : Round T) (flow : FlowId) : Decidable (round.SentFrom flow) :=
  inferInstanceAs (Decidable (∃ entry ∈ round.sent, entry.1.lane = some flow))

namespace Scheduler

def firstBytes (scheduler : Scheduler T) (flow : FlowId) : Nat :=
  ((scheduler.lane (some flow)).head?).elim 0 Item.bytes

/-- On a visit the flow's deficit, with its fresh quantum, and the contiguous
cap let its first packet go. -/
def Eligible (scheduler : Scheduler T) (flow : FlowId) : Prop :=
  ∃ queue ∈ scheduler.flows.lookup flow, scheduler.firstBytes flow ≤
        satAdd queue.deficit (satMul scheduler.config.quantumBytes queue.weight) ∧
      satAdd 0 (scheduler.firstBytes flow) ≤ scheduler.config.maxContiguousFlowBytes

instance (scheduler : Scheduler T) (flow : FlowId) : Decidable (scheduler.Eligible flow) := by
  unfold Eligible
  infer_instance

/-- Backlogged flows that only the limits of the round kept waiting stand ahead
of the backlogged flows that were sent from. -/
def KeepsTurns (scheduler : Scheduler T) (after : Round T) : Prop :=
  ∀ waiting ∈ after.scheduler.active, ∀ served ∈ after.scheduler.active,
    ¬after.SentFrom waiting ∧ scheduler.Eligible waiting → after.SentFrom served →
      after.scheduler.active.idxOf waiting < after.scheduler.active.idxOf served

instance (scheduler : Scheduler T) (after : Round T) : Decidable (scheduler.KeepsTurns after) := by
  unfold KeepsTurns
  infer_instance

end Scheduler

namespace Round

/-- In front of a visit: if a backlogged flow was sent from already and the flow
to visit is eligible, the byte limit has room for its first packet. -/
def HeadFits (limits : RoundLimits) (round : Round T) : Prop :=
  ∀ flow ∈ round.scheduler.active.head?, round.scheduler.Eligible flow →
    (∃ served ∈ round.scheduler.active, round.SentFrom served) →
      satAdd round.stats.bytes (round.scheduler.firstBytes flow) ≤ limits.maxBytes

instance (limits : RoundLimits) (round : Round T) : Decidable (round.HeadFits limits) := by
  unfold HeadFits
  infer_instance

def visitStates (limits : RoundLimits) : Nat → Round T → List (Round T)
  | 0, _ => []
  | visits + 1, round =>
    if round.goesOn limits then
      let visited := round.lookBefore.visitFirst limits
      round.lookBefore ::
        (if visited.stats.timeBudgetExhausted then [] else visitStates limits visits visited)
    else []

end Round

def Scheduler.visitStates (scheduler : Scheduler T) (maxPackets maxBytes : Nat)
    (expired : Nat → Bool) : List (Round T) :=
  let limits := scheduler.limits maxPackets maxBytes expired
  let round := scheduler.afterControl limits
  if round.stats.timeBudgetExhausted then []
  else Round.visitStates limits round.scheduler.active.length round

/-! ### One visit -/

variable {after : Round T}

namespace Round

variable {limits : RoundLimits} {origin : Scheduler T} {round : Round T}

theorem SendsOnly.sentFrom_iff {name : Option FlowId} (only : SendsOnly limits name round after)
    (other : name ≠ some flow) : after.SentFrom flow ↔ round.SentFrom flow := by
  obtain ⟨more, sent, lanes⟩ := only.sent
  unfold SentFrom
  rw [sent]
  constructor
  · rintro ⟨entry, member, lane⟩
    rcases List.mem_append.mp member with early | late
    · exact ⟨entry, early, lane⟩
    · exact absurd ((lanes entry late).symm.trans lane) other
  · rintro ⟨entry, member, lane⟩
    exact ⟨entry, List.mem_append_left _ member, lane⟩

theorem SendsOnly.sentFrom {name : Option FlowId} (only : SendsOnly limits name round after)
    (before : round.SentFrom flow) : after.SentFrom flow := by
  obtain ⟨more, sent, _⟩ := only.sent
  obtain ⟨entry, member, lane⟩ := before
  exact ⟨entry, by rw [sent]; exact List.mem_append_left _ member, lane⟩

theorem sentFrom_congr (same : after.sent = round.sent) (flow : FlowId) :
    after.SentFrom flow ↔ round.SentFrom flow := by
  unfold SentFrom
  rw [same]

/-- A flow whose first packet may go is sent from. -/
theorem serve_sentFrom {front : Item T} {rest : List (Item T)} {visit : Visit T}
    (may : visit.mayGo limits front = true) :
    (Visit.serve limits flow (front :: rest) visit).round.SentFrom flow := by
  have popped : (visit.pop flow front rest).round.SentFrom flow :=
    ⟨(.data flow visit.queue.weight, front), List.mem_append_right _ List.mem_cons_self, rfl⟩
  unfold Visit.serve
  dsimp only
  split_ifs
  · exact popped
  · exact (Visit.serve_sendsOnly limits flow rest _).sentFrom popped

theorem closeVisit_sent (flow : FlowId) (visit : Visit T) :
    (closeVisit flow visit).sent = visit.round.sent ∧
      (closeVisit flow visit).stats = visit.round.stats ∧
      (closeVisit flow visit).scheduler.config = visit.round.scheduler.config := by
  unfold closeVisit
  split_ifs <;> exact ⟨rfl, rfl, rfl⟩

theorem closeVisit_active (flow : FlowId) (visit : Visit T) :
    (closeVisit flow visit).scheduler.active = visit.round.scheduler.active ++
      if visit.queue.items = [] then [] else [flow] := by
  unfold closeVisit
  by_cases empty : visit.queue.items = []
  · rw [if_pos (List.isEmpty_iff.mpr empty), if_pos empty, List.append_nil]
  · rw [if_neg (fun isEmpty => empty (List.isEmpty_iff.mp isEmpty)), if_neg empty]

theorem closeVisit_lookup {other : FlowId} (apart : other ≠ flow) (visit : Visit T) :
    (closeVisit flow visit).scheduler.flows.lookup other =
      visit.round.scheduler.flows.lookup other := by
  unfold closeVisit
  split_ifs
  · rfl
  · rw [KeyedMap.lookup_insert_ite, if_neg apart]

theorem firstBytes_eq {scheduler : Scheduler T} {queue : FlowQueue T} {front : Item T}
    {rest : List (Item T)} (found : scheduler.flows.lookup flow = some queue)
    (waiting : queue.items = front :: rest) : scheduler.firstBytes flow = front.bytes := by
  rw [Scheduler.firstBytes, Scheduler.Ring.lane_some found, waiting]
  rfl

theorem eligible_congr {scheduler : Scheduler T} (sameConfig : scheduler.config = origin.config)
    (sameQueue : scheduler.flows.lookup flow = origin.flows.lookup flow) :
    scheduler.Eligible flow ↔ origin.Eligible flow := by
  have sameBytes : scheduler.firstBytes flow = origin.firstBytes flow := by
    rw [Scheduler.firstBytes, Scheduler.firstBytes, Scheduler.lane, Scheduler.lane, sameQueue]
  unfold Scheduler.Eligible
  rw [sameConfig, sameQueue, sameBytes]

/-- On a visit before the packet limit is used up, the first packet goes if the
flow is eligible and the byte limit has room. -/
theorem openVisit_mayGo {flow : FlowId} (others : List FlowId) {queue : FlowQueue T}
    {front : Item T} {rest : List (Item T)}
    (found : round.scheduler.flows.lookup flow = some queue) (waiting : queue.items = front :: rest)
    (room : round.stats.packets < limits.maxPackets) :
    (round.openVisit flow others queue).mayGo limits front = true ↔ round.scheduler.Eligible flow ∧
        satAdd round.stats.bytes (round.scheduler.firstBytes flow) ≤ limits.maxBytes := by
  have eligible : round.scheduler.Eligible flow ↔ front.bytes ≤ satAdd queue.deficit
          (satMul round.scheduler.config.quantumBytes queue.weight) ∧
        satAdd 0 front.bytes ≤ round.scheduler.config.maxContiguousFlowBytes := by
    unfold Scheduler.Eligible
    rw [firstBytes_eq found waiting, found]
    simp
  have fits : fitsRound round.stats front.bytes limits.maxPackets limits.maxBytes = true ↔
      satAdd round.stats.bytes front.bytes ≤ limits.maxBytes := by
    unfold fitsRound
    simp [room]
  rw [eligible, firstBytes_eq found waiting, ← fits]
  change (decide _ && decide _ && fitsRound round.stats front.bytes limits.maxPackets
    limits.maxBytes) = true ↔ _
  rw [Bool.and_eq_true, Bool.and_eq_true, decide_eq_true_eq, decide_eq_true_eq]
  rfl

/-- A round among its visits: the flows still to be visited are as at its start,
and nothing was sent from them. -/
structure Cycle (origin : Scheduler T) (limits : RoundLimits) (pending done : List FlowId)
    (round : Round T) : Prop where
  split : round.scheduler.active = pending ++ done
  ring : round.scheduler.Ring
  sameConfig : round.scheduler.config = origin.config
  untouched : ∀ flow ∈ pending, round.scheduler.flows.lookup flow = origin.flows.lookup flow
  unsent : ∀ flow ∈ pending, ¬round.SentFrom flow
  packets : round.stats.packets ≤ limits.maxPackets

/-- No flow of the list was sent from ahead of one that only the limits kept
waiting. -/
def InTurn (origin : Scheduler T) (round : Round T) (flows : List FlowId) : Prop :=
  flows.Pairwise (fun served waiting =>
    ¬(round.SentFrom served ∧ ¬round.SentFrom waiting ∧ origin.Eligible waiting))

theorem InTurn.congr {after : Round T} {flows : List FlowId}
    (same : ∀ flow ∈ flows, after.SentFrom flow ↔ round.SentFrom flow) :
    InTurn origin after flows ↔ InTurn origin round flows := by
  refine List.Pairwise.iff_of_mem (fun {served waiting} servedIn waitingIn => ?_)
  rw [same served servedIn, same waiting waitingIn]

/-- The flows that were not visited are in turn. -/
theorem Cycle.inTurn_iff {pending done : List FlowId} (cycle : Cycle origin limits pending done round) :
    InTurn origin round round.scheduler.active ↔ InTurn origin round done := by
  unfold InTurn
  rw [cycle.split, List.pairwise_append]
  constructor
  · exact fun parts => parts.2.1
  · intro ordered
    refine ⟨?_, ordered, ?_⟩
    · exact List.Pairwise.imp_of_mem (R := fun _ _ => True)
        (fun {served _} member _ _ sent => cycle.unsent served member sent.1)
        (List.pairwise_of_forall (fun _ _ => trivial))
    · intro served member _ _ sent
      exact cycle.unsent served member sent.1

def firstVisit (limits : RoundLimits) (round : Round T) (flow : FlowId) (others : List FlowId)
    (queue : FlowQueue T) : Visit T :=
  Visit.serve limits flow queue.items (round.openVisit flow others queue)

theorem firstVisit_sendsOnly (limits : RoundLimits) (round : Round T) (flow : FlowId)
    (others : List FlowId) (queue : FlowQueue T) :
    SendsOnly limits (some flow) (round.openVisit flow others queue).round
      (round.firstVisit limits flow others queue).round :=
  Visit.serve_sendsOnly limits flow queue.items _

variable {flow : FlowId} {pending done : List FlowId} {queue : FlowQueue T}

theorem Cycle.first (cycle : Cycle origin limits (flow :: pending) done round) :
    round.scheduler.active = flow :: (pending ++ done) :=
  cycle.split

theorem Cycle.apart (cycle : Cycle origin limits (flow :: pending) done round) {other : FlowId}
    (member : other ∈ pending ++ done) : other ≠ flow := by
  have nodup := cycle.ring.nodup
  rw [cycle.first, List.nodup_cons] at nodup
  rintro rfl
  exact nodup.1 member

/-- A visit leaves what was sent from the other flows. -/
theorem visit_sentFrom_iff {others : List FlowId} {other : FlowId} (apart : other ≠ flow) :
    (closeVisit flow (round.firstVisit limits flow others queue)).SentFrom other ↔
      round.SentFrom other := by
  rw [sentFrom_congr (closeVisit_sent flow _).1,
    (round.firstVisit_sendsOnly limits flow others queue).sentFrom_iff
      (fun equal => apart (Option.some.inj equal).symm)]
  exact sentFrom_congr rfl other

section

variable (cycle : Cycle origin limits (flow :: pending) done round)

include cycle

/-- One visit of the cycle. -/
theorem Cycle.visit (found : round.scheduler.flows.lookup flow = some queue) :
    Cycle origin limits pending
      (done ++ if (round.firstVisit limits flow (pending ++ done) queue).queue.items = [] then []
        else [flow])
      (closeVisit flow (round.firstVisit limits flow (pending ++ done) queue)) := by
  have only := round.firstVisit_sendsOnly limits flow (pending ++ done) queue
  have visited := @visitFirst_eq T limits round flow (pending ++ done) queue cycle.first found
  obtain ⟨_, stats, config⟩ :=
    closeVisit_sent flow (round.firstVisit limits flow (pending ++ done) queue)
  refine ⟨?_, ?_, ?_, ?_, ?_, ?_⟩
  · rw [closeVisit_active, only.sameActive, ← List.append_assoc]
    rfl
  · rw [firstVisit, ← visited]
    exact visitFirst_ring cycle.ring
  · rw [config, only.sameConfig]
    exact cycle.sameConfig
  · intro other member
    have apart := cycle.apart (List.mem_append_left done member)
    rw [closeVisit_lookup apart, only.sameFlows, ← cycle.untouched other
      (List.mem_cons_of_mem _ member)]
    change (round.scheduler.flows.erase flow).lookup other = _
    rw [KeyedMap.lookup_erase_ite, if_neg apart]
  · intro other member
    rw [visit_sentFrom_iff (cycle.apart (List.mem_append_left done member))]
    exact cycle.unsent other (List.mem_cons_of_mem _ member)
  · rw [stats]
    exact only.packets cycle.packets

/-- In front of the visit, only flows visited before can have been sent from. -/
theorem Cycle.headFits_iff :
    round.HeadFits limits ↔ (origin.Eligible flow → (∃ served ∈ done, round.SentFrom served) →
      satAdd round.stats.bytes (round.scheduler.firstBytes flow) ≤ limits.maxBytes) := by
  have eligible := eligible_congr cycle.sameConfig (cycle.untouched flow List.mem_cons_self)
  have served : (∃ served ∈ round.scheduler.active, round.SentFrom served) ↔
      ∃ served ∈ done, round.SentFrom served := by
    rw [cycle.split]
    constructor
    · rintro ⟨served, member, sent⟩
      rcases List.mem_append.mp member with unvisited | visited
      · exact absurd sent (cycle.unsent served unvisited)
      · exact ⟨served, visited, sent⟩
    · rintro ⟨served, member, sent⟩
      exact ⟨served, List.mem_append_right _ member, sent⟩
  unfold HeadFits
  rw [served, cycle.first, List.head?_cons]
  simp only [Option.mem_some_iff, forall_eq', eligible]

/-- A visit keeps the turns if the byte limit has room for the first packet, as
far as it matters. -/
theorem Cycle.visit_inTurn (found : round.scheduler.flows.lookup flow = some queue)
    (room : round.stats.packets ≠ limits.maxPackets) :
    InTurn origin (closeVisit flow (round.firstVisit limits flow (pending ++ done) queue))
        (done ++ if (round.firstVisit limits flow (pending ++ done) queue).queue.items = [] then []
          else [flow]) ↔
      InTurn origin round done ∧ round.HeadFits limits := by
  have others : ∀ other ∈ done,
      (closeVisit flow (round.firstVisit limits flow (pending ++ done) queue)).SentFrom other ↔
        round.SentFrom other :=
    fun other member => visit_sentFrom_iff (cycle.apart (List.mem_append_right _ member))
  have earlier := @InTurn.congr T origin _ _ _ others
  have eligible := eligible_congr cycle.sameConfig (cycle.untouched flow List.mem_cons_self)
  obtain ⟨front, rest, waiting⟩ := List.exists_cons_of_ne_nil (cycle.ring.backlogged flow queue found)
  have goes := @openVisit_mayGo T limits round flow (pending ++ done) queue front rest found
    waiting (Nat.lt_of_le_of_ne cycle.packets room)
  rw [cycle.headFits_iff]
  by_cases may : (round.openVisit flow (pending ++ done) queue).mayGo limits front = true
  · have fits := (goes.mp may).2
    have sent : (closeVisit flow
        (round.firstVisit limits flow (pending ++ done) queue)).SentFrom flow := by
      rw [sentFrom_congr (closeVisit_sent flow _).1, firstVisit, waiting]
      exact serve_sentFrom may
    rw [and_iff_left (fun _ _ => fits), ← earlier]
    split_ifs
    · rw [List.append_nil]
    · unfold InTurn
      rw [List.pairwise_append]
      refine ⟨fun parts => parts.1, fun ordered => ⟨ordered, List.pairwise_singleton _ _, ?_⟩⟩
      intro served _ last member
      rw [List.mem_singleton.mp member]
      exact fun clash => clash.2.1 sent
  · have unserved : round.firstVisit limits flow (pending ++ done) queue =
        round.openVisit flow (pending ++ done) queue := by
      rw [firstVisit, waiting, Visit.serve, if_neg may]
    have unsent : ¬(closeVisit flow
        (round.firstVisit limits flow (pending ++ done) queue)).SentFrom flow := by
      rw [sentFrom_congr (closeVisit_sent flow _).1, unserved]
      exact cycle.unsent flow List.mem_cons_self
    have left : (round.firstVisit limits flow (pending ++ done) queue).queue.items ≠ [] := by
      rw [unserved]
      exact cycle.ring.backlogged flow queue found
    rw [if_neg left, ← earlier]
    unfold InTurn
    rw [List.pairwise_append]
    rw [goes, eligible] at may
    constructor
    · rintro ⟨ordered, _, last⟩
      refine ⟨ordered, ?_⟩
      rintro wanted ⟨served, member, sent⟩
      have clash := last served member flow List.mem_cons_self
      exact absurd ⟨(others served member).mpr sent, unsent, wanted⟩ clash
    · rintro ⟨ordered, fits⟩
      refine ⟨ordered, List.pairwise_singleton _ _, ?_⟩
      intro served member last lastMember
      rw [List.mem_singleton.mp lastMember]
      rintro ⟨sent, _, wanted⟩
      exact may ⟨wanted, fits wanted ⟨served, member, (others served member).mp sent⟩⟩

end

/-! ### The round -/

theorem Cycle.of_same {after : Round T} (cycle : Cycle origin limits pending done round)
    (sameScheduler : after.scheduler = round.scheduler) (sameSent : after.sent = round.sent)
    (samePackets : after.stats.packets = round.stats.packets) :
    Cycle origin limits pending done after := by
  refine ⟨by rw [sameScheduler, cycle.split], by rw [sameScheduler]; exact cycle.ring,
    by rw [sameScheduler, cycle.sameConfig], ?_, ?_, by rw [samePackets]; exact cycle.packets⟩
  · intro flow member
    rw [sameScheduler, cycle.untouched flow member]
  · intro flow member
    rw [sentFrom_congr sameSent]
    exact cycle.unsent flow member

theorem lookBefore_same (round : Round T) : round.lookBefore.scheduler = round.scheduler ∧
    round.lookBefore.sent = round.sent ∧ round.lookBefore.stats = round.stats := by
  unfold lookBefore
  split_ifs <;> exact ⟨rfl, rfl, rfl⟩

theorem finish_same (limits : RoundLimits) (round : Round T) :
    (round.finish limits).scheduler = round.scheduler ∧ (round.finish limits).sent = round.sent ∧
      (round.finish limits).stats.packets = round.stats.packets := by
  unfold finish
  split_ifs <;> exact ⟨rfl, rfl, rfl⟩

theorem goesOn_packets (goes : round.goesOn limits = true) :
    round.stats.packets ≠ limits.maxPackets := by
  unfold goesOn at goes
  rw [Bool.and_eq_true] at goes
  exact of_decide_eq_true goes.1

/-- The rest of a round keeps the turns exactly if each of its visits does. -/
theorem Cycle.visitFlows_inTurn (cycle : Cycle origin limits pending done round) :
    InTurn origin (visitFlows limits pending.length round)
        (visitFlows limits pending.length round).scheduler.active ↔
      InTurn origin round done ∧
        ∀ state ∈ visitStates limits pending.length round, state.HeadFits limits := by
  induction pending generalizing round done with
  | nil =>
    rw [List.length_nil, visitFlows, visitStates, cycle.inTurn_iff]
    simp
  | cons flow pending ih =>
    rw [List.length_cons, visitFlows, visitStates]
    by_cases goes : round.goesOn limits = true
    · obtain ⟨sameScheduler, sameSent, sameStats⟩ := lookBefore_same round
      have looked := cycle.of_same sameScheduler sameSent (by rw [sameStats])
      have room : round.lookBefore.stats.packets ≠ limits.maxPackets := by
        rw [sameStats]
        exact goesOn_packets goes
      have lookedTurn : InTurn origin round.lookBefore done ↔ InTurn origin round done :=
        InTurn.congr (fun flow _ => sentFrom_congr sameSent flow)
      obtain ⟨queue, found⟩ := first_found looked.ring looked.first
      have visited := looked.visit found
      have turn := looked.visit_inTurn found room
      have atFirst : round.lookBefore.visitFirst limits =
          closeVisit flow (round.lookBefore.firstVisit limits flow (pending ++ done) queue) :=
        visitFirst_eq looked.first found
      rw [← atFirst] at visited turn
      rw [if_pos goes, if_pos goes]
      dsimp only
      rw [lookedTurn] at turn
      generalize round.lookBefore.visitFirst limits = after at *
      by_cases exhausted : after.stats.timeBudgetExhausted = true
      · rw [if_pos exhausted, if_pos exhausted, visited.inTurn_iff, turn]
        simp
      · rw [if_neg exhausted, if_neg exhausted, ih visited, turn, List.forall_mem_cons, and_assoc]
    · obtain ⟨sameScheduler, sameSent, samePackets⟩ := finish_same limits round
      have finished := cycle.of_same sameScheduler sameSent samePackets
      rw [if_neg goes, if_neg goes, finished.inTurn_iff,
        InTurn.congr (fun flow _ => sentFrom_congr sameSent flow)]
      simp

end Round

namespace Scheduler

variable {scheduler : Scheduler T}

theorem afterControl_cycle (ring : scheduler.Ring) (limits : RoundLimits) :
    Round.Cycle scheduler limits scheduler.active [] (scheduler.afterControl limits) := by
  have only := scheduler.afterControl_sendsOnly limits
  refine ⟨by rw [only.sameActive, List.append_nil], afterControl_ring ring limits,
    only.sameConfig, fun flow _ => by rw [only.sameFlows], ?_, only.packets (Nat.zero_le _)⟩
  intro flow _
  rw [only.sentFrom_iff (by simp)]
  rintro ⟨entry, member, _⟩
  cases member

theorem keepsTurns_iff (ring : after.scheduler.Ring) :
    scheduler.KeepsTurns after ↔ Round.InTurn scheduler after after.scheduler.active := by
  exact forall_idxOf_lt_iff ring.nodup (fun _ waiting => waiting.1)

end Scheduler

/-- A round keeps the turns of the backlogged flows exactly if, at every visit
that comes after another backlogged flow was sent from, the byte limit has room
for the first packet of an eligible flow. -/
theorem round_keeps_turns_iff {scheduler : Scheduler T} (ring : scheduler.Ring)
    (maxPackets maxBytes : Nat) (expired : Nat → Bool) :
    scheduler.KeepsTurns (scheduler.runRoundLimited maxPackets maxBytes expired) ↔
      ∀ state ∈ scheduler.visitStates maxPackets maxBytes expired,
        state.HeadFits (scheduler.limits maxPackets maxBytes expired) := by
  have cycle := Scheduler.afterControl_cycle ring (scheduler.limits maxPackets maxBytes expired)
  have sameActive := (scheduler.afterControl_sendsOnly
    (scheduler.limits maxPackets maxBytes expired)).sameActive
  rw [Scheduler.keepsTurns_iff (Scheduler.runRoundLimited_ring ring maxPackets maxBytes expired)]
  unfold Scheduler.runRoundLimited Scheduler.visitStates
  dsimp only
  split_ifs
  · rw [cycle.inTurn_iff]
    simp [Round.InTurn]
  · rw [sameActive, cycle.visitFlows_inTurn]
    simp [Round.InTurn]

/-- Two flows with packets of one size; the first has more of them. -/
def turnCalls : List (SchedulerCall Nat) :=
  [.enqueue (.data 1 1) 600 0, .enqueue (.data 2 1) 600 1, .enqueue (.data 1 1) 600 2,
    .enqueue (.data 1 1) 600 3]

open SchedulerTrace in
theorem round_keeps_turns_cut_by_packets :
    ∃ scheduler : Scheduler Nat, Scheduler.new .standard = .ok scheduler ∧
      let state := (run turnCalls (start scheduler)).scheduler
      let round := state.runRoundLimited 1 2000 (fun _ => false)
      round.sent = [(.data 1 1, Item.mk 600 0)] ∧ round.scheduler.active = [2, 1] ∧
        state.KeepsTurns round :=
  ⟨_, rfl, by decide +kernel, by decide +kernel,
    (round_keeps_turns_iff (@ring_run Nat .standard _ rfl turnCalls) 1 2000 _).mpr
      (by decide +kernel)⟩

open SchedulerTrace in
/-- With room for one packet in bytes, round after round sends from the first
flow and leaves the second behind it. -/
theorem small_byte_limit_serves_first_flow_again :
    ∃ scheduler : Scheduler Nat, Scheduler.new .standard = .ok scheduler ∧
      let state := (run turnCalls (start scheduler)).scheduler
      let round := state.runRoundLimited 256 1000 (fun _ => false)
      let next := round.scheduler.runRoundLimited 256 1000 (fun _ => false)
      ¬state.KeepsTurns round ∧ round.sent = [(.data 1 1, Item.mk 600 0)] ∧
        round.scheduler.active = [1, 2] ∧ next.sent = [(.data 1 1, Item.mk 600 2)] ∧
        next.scheduler.active = [1, 2] ∧ next.scheduler.lane (some 2) = [Item.mk 600 1] :=
  ⟨_, rfl, by decide +kernel⟩

end Sail.Netstack
