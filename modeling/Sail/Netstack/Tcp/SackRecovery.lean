/-
Loss recovery by selective acknowledgments.

A segment's blocks are marked in the send queue after the control block has taken its
acknowledgment and before the chunks it acknowledges are released. A chunk that has
just been acknowledged can therefore still count as lost.
-/

import Sail.Netstack.Tcp.TcbRuns
import Sail.Netstack.Transport

namespace Sail.Netstack

open SerialNumber

structure SendChunk where
  sequence : SeqNumber
  len : Nat
  sacked : Bool
deriving DecidableEq

structure SackRecovery where
  recoveryPoint : SeqNumber
  rescueAfter : SeqNumber
deriving DecidableEq

structure SendFlow where
  tcb : TcpTcb
  send : List SendChunk
  sackPermitted : Bool
  sackRecovery : Option SackRecovery
  maxSendSegmentBytes : Nat
deriving DecidableEq

/-- A segment as the table took it and as the control block sees it, with its
blocks, and whether the ledger has room for the chunks they split. -/
structure Arriving where
  segment : TcpSegmentMeta
  stateSegment : TcpSegmentMeta
  sackBlocks : List SackBlock
  granted : Bool

namespace SendFlow

/-! ### The scoreboard -/

def validBlocks (flow : SendFlow) (blocks : List SackBlock) : List SackBlock :=
  blocks.filter (fun block =>
    !before block.left flow.tcb.sendUnacked && !after block.right flow.tcb.sendNext)

def cuts (blocks : List SackBlock) (chunk : SendChunk) : List Nat :=
  (((blocks.flatMap (fun block => [block.left, block.right])).filter (fun point =>
    after point chunk.sequence && before point (advance chunk.sequence chunk.len))).map
      (fun point => distanceFrom point chunk.sequence)).insertionSort (· ≤ ·) |>.dedup

def splitSackChunk (blocks : List SackBlock) (chunk : SendChunk) : Nat → List Nat → List SendChunk
  | _, [] => []
  | start, stop :: ends =>
    let sequence := advance chunk.sequence start
    { sequence
      len := stop - start
      sacked := chunk.sacked || blocks.any (fun block => !before sequence block.left &&
        !after (advance sequence (stop - start)) block.right) } ::
      splitSackChunk blocks chunk stop ends

def applySackSplit (flow : SendFlow) (blocks : List SackBlock) : SendFlow :=
  { flow with
    send := flow.send.flatMap (fun chunk =>
      splitSackChunk blocks chunk 0 (cuts blocks chunk ++ [chunk.len])) }

/-- From the end of the queue: what is selectively acknowledged above a chunk. -/
def lostAmong (threeSegments : Nat) : List SendChunk → Nat → Nat → Nat
  | [], _, _ => 0
  | chunk :: front, sacked, bytes =>
    if 3 ≤ sacked ∨ threeSegments ≤ bytes then front.length + 1
    else if chunk.sacked then
      lostAmong threeSegments front (sacked + 1) (satAdd bytes chunk.len)
    else lostAmong threeSegments front sacked bytes

def lostPrefix (chunks : List SendChunk) (maxSegment : Nat) : Nat :=
  lostAmong (satMul maxSegment 3) chunks.reverse 0 0

def lost (flow : SendFlow) : List SendChunk :=
  (flow.send.take (lostPrefix flow.send flow.maxSendSegmentBytes)).filter
    (fun chunk => !chunk.sacked)

def sackLossDetected (flow : SendFlow) : Bool :=
  !flow.lost.isEmpty

/-! ### Segments -/

def retransmits (actions : List TcpAction) : Bool :=
  actions.any (fun action =>
    match action with
    | .retransmitPayload _ => true
    | _ => false)

def startRecovery (flow : SendFlow) : SendFlow :=
  { flow with
    sackRecovery :=
      some { recoveryPoint := flow.tcb.sendNext, rescueAfter := flow.tcb.sendUnacked } }

def onSackLoss (flow : SendFlow) : List TcpAction × SendFlow :=
  let recovery := flow.tcb.onSackLoss
  let flow : SendFlow := { flow with tcb := recovery.2 }
  (recovery.1, if retransmits recovery.1 then flow.startRecovery else flow)

def applySenderSack (flow : SendFlow) (plan : Option (List SackBlock)) :
    List TcpAction × SendFlow :=
  if !flow.sackPermitted then
    ([], flow)
  else
    let flow := plan.elim flow flow.applySackSplit
    if flow.sackLossDetected then flow.onSackLoss else ([], flow)

def updateSenderSack (flow : SendFlow) (admissible : Bool) (plan : Option (List SackBlock))
    (actions : List TcpAction) : List TcpAction × SendFlow :=
  let applied := if admissible then flow.applySenderSack plan else ([], flow)
  let actions := actions ++ applied.1
  let flow :=
    if admissible ∧ applied.2.sackPermitted ∧ applied.2.sackRecovery = none ∧ plan.isSome ∧
        retransmits actions then
      applied.2.startRecovery
    else
      applied.2
  (actions,
    if flow.sackRecovery.any (fun recovery =>
        !before flow.tcb.sendUnacked recovery.recoveryPoint) then
      { flow with sackRecovery := none }
    else
      flow)

def releaseChunks (acknowledged : SeqNumber) : List SendChunk → List SendChunk
  | [] => []
  | chunk :: rest =>
    let offset := distanceFrom acknowledged chunk.sequence
    if offset = 0 then
      chunk :: rest
    else if chunk.len ≤ offset then
      releaseChunks acknowledged rest
    else
      { chunk with sequence := acknowledged, len := chunk.len - offset } :: rest

def releaseAcknowledgedSend (flow : SendFlow) : SendFlow :=
  { flow with send := releaseChunks flow.tcb.sendUnacked flow.send }

def sackSplitPlan (flow : SendFlow) (arriving : Arriving) : Option (List SackBlock) :=
  if flow.tcb.acceptsSenderFeedback arriving.segment && flow.sackPermitted &&
      arriving.granted && !(flow.validBlocks arriving.sackBlocks).isEmpty then
    some (flow.validBlocks arriving.sackBlocks)
  else
    none

def ingestExisting (flow : SendFlow) (arriving : Arriving) :
    Except TcpError (List TcpAction) × SendFlow :=
  let taken := flow.tcb.onSegment arriving.stateSegment
  let next : SendFlow := { flow with tcb := taken.2 }
  match taken.1 with
  | .error error => (.error error, next)
  | .ok actions =>
    let updated := next.updateSenderSack (flow.tcb.acceptsSenderFeedback arriving.segment)
      (flow.sackSplitPlan arriving) actions
    (.ok updated.1, updated.2.releaseAcknowledgedSend)

inductive Event where
  | send (amount : Nat)
  | arrive (arriving : Arriving)
  | timer (event : TimerEvent)

def step (flow : SendFlow) : Event → SendFlow
  | .send amount =>
    let sent := flow.tcb.onAppEvent (.send amount)
    match sent.1 with
    | .error _ => { flow with tcb := sent.2 }
    | .ok _ =>
      { flow with
        tcb := sent.2
        send := flow.send ++ [{ sequence := flow.tcb.sendNext, len := amount, sacked := false }] }
  | .arrive arriving => (flow.ingestExisting arriving).2
  | .timer event =>
    let cleared : SendFlow :=
      if event = .retransmission then
        { flow with
          send := flow.send.map (fun chunk => { chunk with sacked := false })
          sackRecovery := none }
      else
        flow
    { cleared with tcb := (flow.tcb.onTimer event).2 }

/-! ### Recovery is for what is outstanding -/

/-- The flow when the scoreboard is read for a segment. -/
def scored (flow : SendFlow) (arriving : Arriving) : SendFlow :=
  let next : SendFlow := { flow with tcb := (flow.tcb.onSegment arriving.stateSegment).2 }
  (flow.sackSplitPlan arriving).elim next next.applySackSplit

/-- The segment makes the congestion controller enter loss recovery. -/
def EntersRecovery (flow : SendFlow) (arriving : Arriving) : Prop :=
  (flow.ingestExisting arriving).2.tcb.congestion ≠
    (flow.tcb.onSegment arriving.stateSegment).2.congestion

/-- The acknowledgment of the segment reaches the end of the chunk. -/
def Covers (arriving : Arriving) (chunk : SendChunk) : Prop :=
  arriving.segment.acknowledgment.any (fun acknowledgment =>
    !after (advance chunk.sequence chunk.len) acknowledgment) = true

instance (flow : SendFlow) (arriving : Arriving) : Decidable (flow.EntersRecovery arriving) :=
  inferInstanceAs (Decidable (_ ≠ _))

instance (arriving : Arriving) (chunk : SendChunk) : Decidable (Covers arriving chunk) :=
  inferInstanceAs (Decidable (_ = true))

theorem updateSenderSack_tcb (flow : SendFlow) (admissible : Bool)
    (plan : Option (List SackBlock)) (actions : List TcpAction) :
    (flow.updateSenderSack admissible plan actions).2.tcb =
      if admissible then (flow.applySenderSack plan).2.tcb else flow.tcb := by
  unfold updateSenderSack
  cases admissible <;> dsimp only <;> split_ifs <;> rfl

theorem scored_tcb (flow : SendFlow) (arriving : Arriving) :
    (flow.scored arriving).tcb = (flow.tcb.onSegment arriving.stateSegment).2 := by
  unfold scored
  cases flow.sackSplitPlan arriving <;> rfl

/-- Recovery is entered by the control block, for a loss the scoreboard shows. -/
theorem EntersRecovery.detected {flow : SendFlow} {arriving : Arriving}
    (enters : flow.EntersRecovery arriving) :
    (flow.scored arriving).lost ≠ [] ∧
      (flow.tcb.onSegment arriving.stateSegment).2.onSackLoss.2.congestion ≠
        (flow.tcb.onSegment arriving.stateSegment).2.congestion := by
  unfold EntersRecovery ingestExisting at enters
  cases taken : (flow.tcb.onSegment arriving.stateSegment).1 with
  | error error => simp [taken] at enters
  | ok actions =>
    simp only [taken, releaseAcknowledgedSend, updateSenderSack_tcb] at enters
    split_ifs at enters with admissible
    · unfold applySenderSack at enters
      split_ifs at enters with refused
      · exact absurd rfl enters
      · change (if (flow.scored arriving).sackLossDetected then
          (flow.scored arriving).onSackLoss else ([], flow.scored arriving)).2.tcb.congestion ≠ _
          at enters
        split_ifs at enters with detected
        · refine ⟨by simpa [sackLossDetected] using detected, ?_⟩
          simp only [onSackLoss, scored_tcb] at enters
          split_ifs at enters <;> exact enters
        · exact absurd (congrArg _ (flow.scored_tcb arriving)) enters
    · exact absurd rfl enters

theorem onSackLoss_enters {tcb : TcpTcb}
    (enters : tcb.onSackLoss.2.congestion ≠ tcb.congestion) :
    tcb.sendUnacked ≠ tcb.sendNext ∧ tcb.congestion.recover = none := by
  unfold TcpTcb.onSackLoss at enters
  dsimp only at enters
  split_ifs at enters with refused retransmits
  · exact absurd rfl enters
  all_goals
    simp only [Bool.or_eq_true, decide_eq_true_eq, not_or] at refused
    refine ⟨refused.1.2, ?_⟩
    cases recover : tcb.congestion.recover with
    | none => rfl
    | some point => simp [NewReno.onSackLoss, recover] at enters

end SendFlow

namespace SackExample

def acknowledge (acknowledgment : SeqNumber) (blocks : List SackBlock) : Arriving :=
  let segment : TcpSegmentMeta :=
    { TcbRun.sampleFinalAck 65535 with acknowledgment := some acknowledgment }
  { segment, stateSegment := segment, sackBlocks := blocks, granted := true }

/-- A connection that was accepted, with segments of 500 bytes. -/
def accepted (opened : TcpTcb × List TcpAction) : SendFlow :=
  { tcb := opened.1
    send := []
    sackPermitted := true
    sackRecovery := none
    maxSendSegmentBytes := 500 }

/-- Five segments; the second and the third overtake the first. -/
def reordered (opened : TcpTcb × List TcpAction) : SendFlow :=
  [.arrive (acknowledge 1 []), .send 500, .send 500, .send 500, .send 500,
    .arrive (acknowledge 1 [⟨501, 1501⟩]), .send 500].foldl SendFlow.step (accepted opened)

end SackExample

end Sail.Netstack
