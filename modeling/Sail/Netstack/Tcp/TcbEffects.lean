/-
What each step of the control block changes.

One equation per step names the fields it may change and how; everything else
stays as it was. Only four kinds of action say something about the byte stream:
data or a FIN of the peer handed up, and data or a FIN of ours sent.
-/

import Sail.Netstack.Tcp.Tcb

namespace Sail.Netstack

open SerialNumber

/-- Actions that move data or a FIN in either direction. -/
def TcpAction.essential : TcpAction → Bool
  | .sendPayload _ => true
  | .deliverPayload _ => true
  | .peerHalfClosed => true
  | .send control => control.flags.fin
  | _ => false

def essentials (actions : List TcpAction) : List TcpAction :=
  actions.filter TcpAction.essential

@[simp] theorem essentials_nil : essentials [] = [] := rfl

@[simp] theorem essentials_append (first second : List TcpAction) :
    essentials (first ++ second) = essentials first ++ essentials second :=
  List.filter_append _ _

@[simp] theorem essentials_cons (action : TcpAction) (actions : List TcpAction) :
    essentials (action :: actions) =
      if action.essential then action :: essentials actions else essentials actions :=
  List.filter_cons

def performed (result : Except TcpError (List TcpAction)) : List TcpAction :=
  match result with
  | .ok actions => actions
  | .error _ => []

@[simp] theorem performed_ok (actions : List TcpAction) : performed (.ok actions) = actions := rfl

@[simp] theorem performed_error (error : TcpError) : performed (.error error) = [] := rfl

namespace TcpTcb

section

variable (tcb : TcpTcb)

include tcb

theorem cancelDelayedAck_tcb :
    tcb.cancelDelayedAck.2 = { tcb with delayedAckPending := false } := by
  unfold cancelDelayedAck
  cases pending : tcb.delayedAckPending with
  | true => rfl
  | false =>
    cases tcb
    cases pending
    rfl

theorem cancelDelayedAck_essentials : essentials tcb.cancelDelayedAck.1 = [] := by
  unfold cancelDelayedAck
  cases tcb.delayedAckPending <;> rfl

theorem answer_tcb (kind : SendControl → TcpAction) :
    (tcb.answer kind).2 = { tcb with delayedAckPending := false } :=
  tcb.cancelDelayedAck_tcb

theorem forceAck_essentials : essentials tcb.forceAck.1 = [] := by
  simp only [forceAck, answer, essentials_append, cancelDelayedAck_essentials]
  rfl

theorem rejectUnacceptableSegment_essentials : essentials tcb.rejectUnacceptableSegment.1 = [] := by
  simp only [rejectUnacceptableSegment, answer, essentials_append, cancelDelayedAck_essentials]
  rfl

def finState (tcb : TcpTcb) : TcpState :=
  match tcb.state with
  | .established => .closeWait
  | .finWait1 => if tcb.sendUnacked = tcb.sendNext then .timeWait else .closing
  | .finWait2 => .timeWait
  | state => state

theorem acceptFin_tcb : tcb.acceptFin.2 =
      { tcb with
        recvNext := advance tcb.recvNext 1
        state := tcb.finState
        delayedAckPending := false } := by
  rw [acceptFin, answer_tcb, onPeerFin, finState]
  cases state : tcb.state with
  | finWait1 =>
    simp only
    split_ifs <;> rfl
  | _ =>
    cases tcb
    cases state
    rfl

theorem acceptFin_essentials : essentials tcb.acceptFin.1 = [.peerHalfClosed] := by
  have answered (closed : TcpTcb) : essentials (closed.answer .send).1 = [] :=
    closed.forceAck_essentials
  simp only [acceptFin, essentials_append, answered, List.append_nil, onPeerFin]
  cases tcb.state with
  | finWait1 =>
    simp only
    split_ifs <;> rfl
  | _ => rfl

/-! ### Acknowledgments -/

variable (segment : TcpSegmentMeta) (acknowledgment : SeqNumber)

theorem updateSendWindow_tcb : ∃ window lastSeq lastAck,
      tcb.updateSendWindow segment =
        { tcb with
          peerWindow := window
          sendWindowLastSeq := lastSeq
          sendWindowLastAck := lastAck } ∧
      (window = tcb.peerWindow ∨ window = segment.window) := by
  unfold updateSendWindow
  cases segment.acknowledgment with
  | none => exact ⟨_, _, _, rfl, Or.inl rfl⟩
  | some acknowledgment =>
    simp only
    split_ifs
    any_goals exact ⟨_, _, _, rfl, Or.inl rfl⟩
    · exact ⟨_, _, _, rfl, Or.inr rfl⟩

/-- The oldest unacknowledged sequence number after an acknowledgment: that of
something outstanding moves it, anything else leaves it. -/
def unackedAfter (tcb : TcpTcb) (acknowledgment : SeqNumber) : SeqNumber :=
  if after acknowledgment tcb.sendUnacked && !after acknowledgment tcb.sendNext then
    acknowledgment
  else
    tcb.sendUnacked

theorem takeAck_tcb (unchangedWindow carriedData : Bool) :
    ∃ congestion,
      (tcb.takeAck acknowledgment unchangedWindow carriedData).2 =
        { tcb with
          sendUnacked := tcb.unackedAfter acknowledgment
          congestion } := by
  unfold takeAck unackedAfter
  split_ifs with newer duplicate
  · exact ⟨_, rfl⟩
  · refine ⟨(tcb.congestion.onDuplicateAck tcb.flightSize tcb.sendNext).2, ?_⟩
    dsimp only
    split_ifs <;> rfl
  · exact ⟨tcb.congestion, rfl⟩

theorem takeAck_essentials (unchangedWindow carriedData : Bool) :
    essentials (tcb.takeAck acknowledgment unchangedWindow carriedData).1 = [] := by
  unfold takeAck
  split_ifs
  · simp only [essentials_append]
    split_ifs <;> rfl
  · dsimp only
    split_ifs <;> rfl
  · rfl

def ackedState : TcpState → TcpState
  | .finWait1 => .finWait2
  | .closing => .timeWait
  | .lastAck => .closed
  | state => state

theorem finishAck_tcb :
    (tcb.finishAck acknowledgment).2 =
      { tcb with
        state :=
          if acknowledgment = tcb.sendNext then ackedState tcb.state else tcb.state } := by
  unfold finishAck
  split_ifs with everything
  · cases state : tcb.state <;>
    · cases tcb
      cases state
      rfl
  · rfl

theorem finishAck_essentials : essentials (tcb.finishAck acknowledgment).1 = [] := by
  unfold finishAck
  split_ifs
  · cases tcb.state <;> rfl
  · rfl

theorem processAck_tcb (oldPeerWindow : Nat) (carriedData : Bool) (acknowledgment : SeqNumber)
    (carried : segment.acknowledgment = some acknowledgment) :
    ∃ congestion,
      (tcb.processAck segment oldPeerWindow carriedData).2 =
        { tcb with
          sendUnacked := tcb.unackedAfter acknowledgment
          congestion
          state :=
            if acknowledgment = tcb.sendNext then ackedState tcb.state else tcb.state } := by
  obtain ⟨congestion, taken⟩ := tcb.takeAck_tcb acknowledgment
    (segment.window = oldPeerWindow) carriedData
  refine ⟨congestion, ?_⟩
  simp only [processAck, carried, finishAck_tcb, taken]

theorem processAck_essentials (oldPeerWindow : Nat) (carriedData : Bool) :
    essentials (tcb.processAck segment oldPeerWindow carriedData).1 = [] := by
  unfold processAck
  cases segment.acknowledgment with
  | none => rfl
  | some acknowledgment =>
    simp only [essentials_append, takeAck_essentials, finishAck_essentials, List.append_nil]

end

/-! ### Data in order -/

def handedUp (taken : Nat × Bool) : List TcpAction :=
  (if 0 < taken.1 then [.deliverPayload taken.1] else []) ++
    (if taken.2 then [.peerHalfClosed] else [])

@[simp] theorem handedUp_none : handedUp (0, false) = [] := rfl

def received (tcb : TcpTcb) (taken : Nat × Bool) (delayed : Bool) : TcpTcb :=
  { tcb with
    recvBuffered := tcb.recvBuffered + taken.1
    recvNext := advance tcb.recvNext (taken.1 + taken.2.toNat)
    state := if taken.2 then tcb.finState else tcb.state
    delayedAckPending := delayed }

theorem received_none (tcb : TcpTcb) (delayed : Bool) :
    tcb.received (0, false) delayed = { tcb with delayedAckPending := delayed } := by
  simp [received]

theorem takeInOrder_spec {tcb : TcpTcb} {segment : TcpSegmentMeta}
    (fits : segment.payloadLen ≤ tcb.receiveAvailable) :
    ∃ delayed actions, tcb.takeInOrder segment =
        (.ok actions, tcb.received (segment.payloadLen, segment.flags.fin) delayed) ∧
      essentials actions = handedUp (segment.payloadLen, segment.flags.fin) := by
  unfold takeInOrder received handedUp
  rw [if_neg (Nat.not_lt.mpr fits)]
  cases fin : segment.flags.fin with
  | true =>
    by_cases data : 0 < segment.payloadLen
    · simp only [if_pos data, if_true]
      refine ⟨false, _, Prod.ext rfl ?_, ?_⟩
      · simp only [acceptFin_tcb, advance_advance]
        rfl
      · rw [essentials_append, acceptFin_essentials]
        rfl
    · have empty : segment.payloadLen = 0 := by omega
      simp only [if_true, empty]
      refine ⟨false, _, Prod.ext rfl ?_, ?_⟩
      · exact tcb.acceptFin_tcb
      · rw [essentials_append, acceptFin_essentials]
        rfl
  | false =>
    by_cases data : 0 < segment.payloadLen
    · simp only [if_pos data]
      cases tcb.delayedAckPending with
      | true | false => exact ⟨_, _, rfl, rfl⟩
    · have empty : segment.payloadLen = 0 := by omega
      simp only [empty]
      refine ⟨tcb.delayedAckPending, _, Prod.ext rfl ?_, rfl⟩
      simp

end TcpTcb

end Sail.Netstack
