/-
The invariant of the control block.

The state name says how much may be in flight. The advertised right edge is never
behind what was received and never promises more than the buffer can take.
-/

import Sail.Netstack.Tcp.TcbEffects

namespace Sail.Netstack

open SerialNumber

variable (tcb : TcpTcb)

/-- The largest window a sixteen-bit field and a shift of fourteen can
express. -/
def maxWindow : Nat := 1073725440

theorem advertisableReceiveCapacity_le (available windowScale : Nat) :
    advertisableReceiveCapacity available windowScale ≤ available :=
  (Nat.div_mul_le_self _ _).trans (min_le_left _ _)

theorem advertisableReceiveCapacity_le_maxWindow (available windowScale : Nat) :
    advertisableReceiveCapacity available windowScale ≤ maxWindow := by
  have scale : 2 ^ min windowScale 14 ≤ 2 ^ 14 :=
    Nat.pow_le_pow_right (by decide) (min_le_right _ _)
  refine ((Nat.div_mul_le_self _ _).trans (min_le_right _ _)).trans ?_
  unfold maxWindow
  omega

namespace TcpState

def sentFin : TcpState → Bool
  | .finWait1 | .finWait2 | .closing | .lastAck | .timeWait => true
  | _ => false

def peerFin : TcpState → Bool
  | .closeWait | .closing | .lastAck | .timeWait => true
  | _ => false

def ackedFin : TcpState → Bool
  | .finWait2 | .timeWait => true
  | _ => false

def FlightAllowed : TcpState → Nat → Prop
  | .synSent, flight | .synReceived, flight => flight = 1
  | .established, flight | .closeWait, flight => flight ≤ maxWindow
  | .finWait1, flight | .closing, flight | .lastAck, flight =>
    1 ≤ flight ∧ flight ≤ maxWindow + 1
  | .finWait2, flight | .timeWait, flight => flight = 0
  | .closed, flight => flight ≤ maxWindow + 1

theorem FlightAllowed.le {state : TcpState} {flight : Nat}
    (allowed : state.FlightAllowed flight) :
    flight ≤ maxWindow + 1 := by
  cases state <;> simp only [FlightAllowed, maxWindow] at * <;> omega

end TcpState

namespace TcpTcb

structure Sound (tcb : TcpTcb) : Prop where
  window : tcb.peerWindow ≤ maxWindow
  flight : tcb.state.FlightAllowed tcb.flightSize
  edge : tcb.receiveWindow ≤ maxWindow
  credit : tcb.receiveWindow + tcb.recvBuffered ≤ tcb.recvCapacity
  pendingFits : tcb.state = .synReceived → tcb.pendingInitialLen ≤ tcb.receiveWindow
  noPending : tcb.state ≠ .synReceived → tcb.state ≠ .closed →
    tcb.pendingInitialPayloadLen = 0 ∧ tcb.pendingInitialFin = false
  fresh : tcb.state = .synSent → tcb.recvBuffered = 0

variable {tcb : TcpTcb} {segment : TcpSegmentMeta} {state : TcpState}

theorem Sound.shortFlight (sound : tcb.Sound) : tcb.flightSize < 2 ^ 31 :=
  sound.flight.le.trans_lt (by decide)

theorem Sound.shortWindow (sound : tcb.Sound) : tcb.receiveWindow < 2 ^ 31 :=
  sound.edge.trans_lt (by decide)

/-! ### Opening -/

theorem fromSynWithOptions_sound {initialSendSequence : SeqNumber}
    {reservedReceiveCapacity maximumSegmentSize receiveWindowScale : Nat}
    {opened : TcpTcb × List TcpAction} (windowInRange : segment.window ≤ maxWindow)
    (payloadInRange : segment.payloadLen ≤ maxWindow)
    (accepted : fromSynWithOptions segment initialSendSequence reservedReceiveCapacity
      maximumSegmentSize receiveWindowScale = .ok opened) :
    opened.1.Sound ∧ opened.1.state = .synReceived ∧ essentials opened.2 = [] := by
  unfold fromSynWithOptions at accepted
  split_ifs at accepted with _ fits
  cases accepted
  have advertised := advertisableReceiveCapacity_le reservedReceiveCapacity
    (min receiveWindowScale 14)
  have bounded := advertisableReceiveCapacity_le_maxWindow reservedReceiveCapacity
    (min receiveWindowScale 14)
  have edge : max (advertisableReceiveCapacity reservedReceiveCapacity
      (min receiveWindowScale 14)) segment.payloadLen ≤ maxWindow :=
    max_le bounded payloadInRange
  have window : ∀ start : SeqNumber, distanceFrom (advance start
      (max (advertisableReceiveCapacity reservedReceiveCapacity (min receiveWindowScale 14))
        segment.payloadLen)) start =
      max (advertisableReceiveCapacity reservedReceiveCapacity (min receiveWindowScale 14))
        segment.payloadLen :=
    fun start => distanceFrom_advance start (edge.trans_lt (by decide))
  refine ⟨⟨windowInRange, ?_, ?_, ?_, ?_, ?_, fun _ => rfl⟩, rfl, rfl⟩
  · exact distanceFrom_advance _ (by decide)
  · exact (window _).le.trans edge
  · change distanceFrom _ _ + 0 ≤ reservedReceiveCapacity
    rw [window]
    omega
  · intro _
    change segment.payloadLen + Bool.toNat _ ≤ distanceFrom _ _
    rw [window]
    cases segment.flags.fin with
    | false => simp
    | true =>
      by_cases inside : segment.payloadLen <
          max (advertisableReceiveCapacity reservedReceiveCapacity (min receiveWindowScale 14))
            segment.payloadLen
      · simp only [Bool.true_and, inside, decide_true, Bool.toNat_true]
        omega
      · simp only [Bool.true_and, inside, decide_false, Bool.toNat_false]
        omega
  · intro other
    exact absurd rfl other

theorem connect_sound (initialSendSequence : SeqNumber)
    (reservedReceiveCapacity maximumSegmentSize receiveWindowScale : Nat) :
    (connect initialSendSequence reservedReceiveCapacity maximumSegmentSize
        receiveWindowScale).1.Sound ∧
      essentials (connect initialSendSequence reservedReceiveCapacity maximumSegmentSize
        receiveWindowScale).2 = [] := by
  have bounded := advertisableReceiveCapacity_le_maxWindow reservedReceiveCapacity
    (min receiveWindowScale 14)
  have window : distanceFrom (advance (0 : SeqNumber)
      (advertisableReceiveCapacity reservedReceiveCapacity (min receiveWindowScale 14))) 0 =
      advertisableReceiveCapacity reservedReceiveCapacity (min receiveWindowScale 14) :=
    distanceFrom_advance 0 (bounded.trans_lt (by decide))
  refine ⟨⟨Nat.zero_le _, ?_, ?_, ?_, ?_, ?_, fun _ => rfl⟩, rfl⟩
  · exact distanceFrom_advance _ (by decide)
  · exact window.le.trans bounded
  · exact window.le.trans (advertisableReceiveCapacity_le _ _)
  · exact nofun
  · intro _ _
    exact ⟨rfl, rfl⟩

/-! ### Acknowledgments -/

/-- The oldest unacknowledged sequence number moves forward within the flight,
to the next one exactly when the acknowledgment names it. -/
theorem unackedAfter_spec (short : tcb.flightSize < 2 ^ 31) (acknowledgment : SeqNumber) :
    ∃ acknowledged ≤ tcb.flightSize,
      tcb.unackedAfter acknowledgment = advance tcb.sendUnacked acknowledged ∧
      distanceFrom tcb.sendNext (tcb.unackedAfter acknowledgment) = tcb.flightSize - acknowledged ∧
      (acknowledgment = tcb.sendNext → acknowledged = tcb.flightSize) ∧
      (acknowledgment ≠ tcb.sendNext → 0 < tcb.flightSize → acknowledged < tcb.flightSize) := by
  unfold unackedAfter
  split_ifs with newer
  · simp only [Bool.and_eq_true, Bool.not_eq_eq_eq_not, Bool.not_true] at newer
    obtain ⟨_positive, within, rest⟩ := between_of_after (by decide) short newer.1 newer.2
    refine ⟨distanceFrom acknowledgment tcb.sendUnacked, within,
      (advance_distanceFrom _ _).symm, rest, ?_, ?_⟩
    · rintro rfl
      rfl
    · intro different _
      refine lt_of_le_of_ne within (fun same => different ?_)
      rw [← advance_distanceFrom acknowledgment tcb.sendUnacked, same]
      exact advance_distanceFrom _ _
  · refine ⟨0, Nat.zero_le _, (advance_zero _).symm, rfl, ?_, fun _ positive => positive⟩
    rintro rfl
    by_contra outstanding
    refine newer ?_
    have next : advance tcb.sendUnacked tcb.flightSize = tcb.sendNext :=
      advance_distanceFrom _ _
    have later : before (advance tcb.sendUnacked 0) (advance tcb.sendUnacked tcb.flightSize) =
        true ↔ 0 < tcb.flightSize :=
      before_advance_iff (by decide) tcb.sendUnacked (by omega) (by omega)
    rw [advance_zero, next] at later
    have irreflexive : before tcb.sendNext tcb.sendNext = false :=
      Bool.eq_false_iff.mpr (fun self => by
        rw [before_iff, distanceFrom_self] at self
        exact absurd self (by decide))
    rw [after, after, later.mpr (by omega), irreflexive]
    rfl

theorem ackedState_flight {flight acknowledged : Nat} (allowed : state.FlightAllowed flight)
    (within : acknowledged ≤ flight) (opening : state ≠ .synSent)
    (opening' : state ≠ .synReceived) {everything : Prop} [Decidable everything]
    (all : everything → acknowledged = flight)
    (some : ¬ everything → 0 < flight → acknowledged < flight) :
    (if everything then ackedState state else state).FlightAllowed (flight - acknowledged) := by
  cases state with
  | synSent => exact absurd rfl opening
  | synReceived => exact absurd rfl opening'
  | _ =>
    split_ifs with complete
    · have done := all complete
      simp only [ackedState, TcpState.FlightAllowed] at *
      omega
    · have rest := some complete
      simp only [TcpState.FlightAllowed] at *
      omega

/-! ### Data of a synchronised connection -/

def inOrder (tcb : TcpTcb) (segment : TcpSegmentMeta) : Nat × Bool :=
  if tcb.peerReceiveClosed || segment.sequence ≠ tcb.recvNext then
    (0, false)
  else
    (min segment.payloadLen tcb.receiveWindow,
      segment.flags.fin && segment.payloadLen < tcb.receiveWindow)

theorem inOrder_le (segment : TcpSegmentMeta) :
    (tcb.inOrder segment).1 + (tcb.inOrder segment).2.toNat ≤ tcb.receiveWindow := by
  unfold inOrder
  split_ifs
  · exact Nat.zero_le _
  · cases segment.flags.fin with
    | false => simp
    | true =>
      by_cases inside : segment.payloadLen < tcb.receiveWindow
      · simp only [Bool.true_and, inside, decide_true, Bool.toNat_true]
        omega
      · simp only [Bool.true_and, inside, decide_false, Bool.toNat_false]
        omega

theorem trimmed_sequence (segment : TcpSegmentMeta) :
    (tcb.trimInOrderSegmentToReceiveWindow segment).sequence = segment.sequence := by
  unfold trimInOrderSegmentToReceiveWindow
  split_ifs <;> rfl

theorem trimmed_acknowledgment (segment : TcpSegmentMeta) :
    (tcb.trimInOrderSegmentToReceiveWindow segment).acknowledgment = segment.acknowledgment := by
  unfold trimInOrderSegmentToReceiveWindow
  split_ifs <;> rfl

theorem trimmed_window (segment : TcpSegmentMeta) :
    (tcb.trimInOrderSegmentToReceiveWindow segment).window = segment.window := by
  unfold trimInOrderSegmentToReceiveWindow
  split_ifs <;> rfl

theorem windowedSegment_inOrder (sound : tcb.Sound) (stillOpen : tcb.peerReceiveClosed = false)
    (next : segment.sequence = tcb.recvNext) :
    (tcb.windowedSegment segment).payloadLen = (tcb.inOrder segment).1 ∧
      (tcb.windowedSegment segment).flags.fin = (tcb.inOrder segment).2 ∧
      (tcb.windowedSegment segment).payloadLen ≤ tcb.receiveAvailable := by
  have credit := sound.credit
  have lenEq : (tcb.windowedSegment segment).payloadLen =
      min segment.payloadLen tcb.receiveWindow := by
    simp [windowedSegment, trimInOrderSegmentToReceiveWindow, next]
  have taken : tcb.inOrder segment =
      (min segment.payloadLen tcb.receiveWindow,
        segment.flags.fin && segment.payloadLen < tcb.receiveWindow) := by
    simp [inOrder, stillOpen, next]
  refine ⟨by rw [lenEq, taken], ?_, ?_⟩
  · rw [taken, windowedSegment, trimInOrderSegmentToReceiveWindow, if_neg (not_not.mpr next)]
    dsimp only
    split_ifs with dropped
    · rw [decide_eq_false (by omega), Bool.and_false]
    · by_cases inside : segment.payloadLen < tcb.receiveWindow
      · rw [decide_eq_true inside, Bool.and_true]
      · rw [decide_eq_false inside, Bool.and_false]
        exact Bool.eq_false_iff.mpr (fun fin => dropped ⟨fin, by omega⟩)
  · rw [lenEq, receiveAvailable]
    omega

theorem beyondReceiveWindow_of_next (sound : tcb.Sound) (next : segment.sequence = tcb.recvNext)
    (beyond : tcb.beyondReceiveWindow segment = true) :
    tcb.receiveWindow = 0 := by
  have short := sound.shortWindow
  by_contra wide
  have edge : advance tcb.recvNext tcb.receiveWindow = tcb.advertisedRightEdge :=
    advance_distanceFrom _ _
  have inside : before (advance tcb.recvNext 0) (advance tcb.recvNext tcb.receiveWindow) =
      true ↔ 0 < tcb.receiveWindow :=
    before_advance_iff (by decide) tcb.recvNext (by omega) (by omega)
  rw [advance_zero, edge] at inside
  rw [beyondReceiveWindow, next, inside.mpr (by omega)] at beyond
  simp at beyond

/-- Taking what is in order, whatever the acknowledgment did before. -/
theorem takePayload_spec {acked : TcpTcb} (sound : tcb.Sound)
    (sameReceive : acked.recvNext = tcb.recvNext ∧ acked.receiveAvailable = tcb.receiveAvailable)
    (sameClosed : acked.state ≠ .closed → acked.peerReceiveClosed = tcb.peerReceiveClosed)
    (closing : acked.state = .closed → tcb.peerReceiveClosed = true) :
    ∃ delayed actions,
      acked.takePayload (tcb.windowedSegment segment) (tcb.beyondReceiveWindow segment) =
        (.ok actions, acked.received (tcb.inOrder segment) delayed) ∧
      essentials actions = handedUp (tcb.inOrder segment) := by
  have sequence : (tcb.windowedSegment segment).sequence = segment.sequence :=
    tcb.trimmed_sequence segment
  have rejected (none : tcb.inOrder segment = (0, false)) : ∃ delayed actions,
        ((.ok acked.rejectUnacceptableSegment.1, acked.rejectUnacceptableSegment.2) :
            Except TcpError (List TcpAction) × TcpTcb) =
          (.ok actions, acked.received (tcb.inOrder segment) delayed) ∧
        essentials actions = handedUp (tcb.inOrder segment) := by
    refine ⟨false, acked.rejectUnacceptableSegment.1, Prod.ext rfl ?_, ?_⟩
    · rw [none, received_none]
      exact answer_tcb _ .defensiveAck
    · rw [rejectUnacceptableSegment_essentials, none, handedUp_none]
  have ignored (none : tcb.inOrder segment = (0, false)) : ∃ delayed actions,
        ((.ok [], acked) : Except TcpError (List TcpAction) × TcpTcb) =
          (.ok actions, acked.received (tcb.inOrder segment) delayed) ∧
        essentials actions = handedUp (tcb.inOrder segment) := by
    refine ⟨acked.delayedAckPending, [], ?_, ?_⟩
    · rw [none, received_none]
    · rw [none, handedUp_none, essentials_nil]
  unfold takePayload
  split_ifs with closed beyond carries refused
  · exact ignored (by simp [inOrder, closing closed])
  · refine rejected ?_
    by_cases next : segment.sequence = tcb.recvNext
    · simp [inOrder, beyondReceiveWindow_of_next sound next beyond]
    · simp [inOrder, next]
  · refine rejected ?_
    rw [sameClosed closed, sequence, sameReceive.1] at refused
    rw [inOrder, if_pos refused]
  · rw [sameClosed closed, sequence, sameReceive.1] at refused
    have allowed : tcb.peerReceiveClosed = false ∧ segment.sequence = tcb.recvNext := by
      simpa using refused
    obtain ⟨lenEq, finEq, fits⟩ := windowedSegment_inOrder sound allowed.1 allowed.2
    rw [← sameReceive.2] at fits
    obtain ⟨delayed, actions, taken, handed⟩ := takeInOrder_spec fits
    rw [lenEq, finEq] at taken handed
    exact ⟨delayed, actions, taken, handed⟩
  · refine ignored ?_
    by_cases stopped : (tcb.peerReceiveClosed || segment.sequence ≠ tcb.recvNext) = true
    · rw [inOrder, if_pos stopped]
    · have allowed : tcb.peerReceiveClosed = false ∧ segment.sequence = tcb.recvNext := by
        simpa using stopped
      obtain ⟨lenEq, finEq, _fits⟩ := windowedSegment_inOrder sound allowed.1 allowed.2
      rw [lenEq, finEq] at carries
      have none : (tcb.inOrder segment).1 = 0 ∧ (tcb.inOrder segment).2 = false := by
        simpa using carries
      exact Prod.ext none.1 none.2

def ackedBy (tcb : TcpTcb) : Option SeqNumber → SeqNumber × TcpState
  | none => (tcb.sendUnacked, tcb.state)
  | some acknowledgment =>
    (tcb.unackedAfter acknowledgment,
      if acknowledgment = tcb.sendNext then ackedState tcb.state else tcb.state)

theorem peerReceiveClosed_eq : tcb.peerReceiveClosed = tcb.state.peerFin := by
  unfold peerReceiveClosed
  cases tcb.state <;> rfl

theorem ackedState_peerFin (stillOpen : ackedState state ≠ .closed) :
    (ackedState state).peerFin = state.peerFin := by
  cases state <;> first | rfl | exact absurd rfl stillOpen

theorem ackedState_closed (opened : state ≠ .closed) (closed : ackedState state = .closed) :
    state = .lastAck := by
  cases state <;> first | rfl | exact absurd rfl opened | cases closed

theorem ackedBy_state (acknowledgment : Option SeqNumber) :
    (tcb.ackedBy acknowledgment).2 = tcb.state ∨
      (tcb.ackedBy acknowledgment).2 = ackedState tcb.state := by
  cases acknowledgment with
  | none => exact .inl rfl
  | some acknowledgment => exact (ite_eq_or_eq ..).symm

theorem ackedBy_peerFin {acknowledgment : Option SeqNumber}
    (stillOpen : (tcb.ackedBy acknowledgment).2 ≠ .closed) :
    (tcb.ackedBy acknowledgment).2.peerFin = tcb.state.peerFin := by
  rcases ackedBy_state acknowledgment with same | acked
  · rw [same]
  · rw [acked] at stillOpen ⊢
    exact ackedState_peerFin stillOpen

theorem ackedBy_closed {acknowledgment : Option SeqNumber} (opened : tcb.state ≠ .closed)
    (closed : (tcb.ackedBy acknowledgment).2 = .closed) :
    tcb.state = .lastAck := by
  rcases ackedBy_state acknowledgment with same | acked
  · exact absurd (same.symm.trans closed) opened
  · exact ackedState_closed opened (acked.symm.trans closed)

def afterAck (tcb : TcpTcb) (acknowledgment : Option SeqNumber) (window : Nat)
    (lastSeq lastAck : SeqNumber) (congestion : NewReno) : TcpTcb :=
  { tcb with
    peerWindow := window
    sendWindowLastSeq := lastSeq
    sendWindowLastAck := lastAck
    congestion
    sendUnacked := (tcb.ackedBy acknowledgment).1
    state := (tcb.ackedBy acknowledgment).2 }

theorem takeSegmentAck_tcb (segment : TcpSegmentMeta) :
    ∃ window lastSeq lastAck congestion,
      (tcb.takeSegmentAck segment).2 =
        tcb.afterAck segment.acknowledgment window lastSeq lastAck congestion ∧
      (window = tcb.peerWindow ∨ window = segment.window) := by
  obtain ⟨window, lastSeq, lastAck, windowed, origin⟩ :=
    tcb.updateSendWindow_tcb (tcb.trimInOrderSegmentToReceiveWindow segment)
  rw [trimmed_window] at origin
  have sameAck : (tcb.windowedSegment segment).acknowledgment = segment.acknowledgment :=
    tcb.trimmed_acknowledgment segment
  rw [takeSegmentAck, windowed]
  cases carried : segment.acknowledgment with
  | none =>
    refine ⟨window, lastSeq, lastAck, tcb.congestion, ?_, origin⟩
    rw [processAck, sameAck, carried]
    rfl
  | some acknowledgment =>
    obtain ⟨congestion, processed⟩ := processAck_tcb
      { tcb with
        peerWindow := window
        sendWindowLastSeq := lastSeq
        sendWindowLastAck := lastAck }
      (tcb.windowedSegment segment) tcb.peerWindow (0 < segment.payloadLen) acknowledgment
      (sameAck.trans carried)
    exact ⟨window, lastSeq, lastAck, congestion, processed, origin⟩

/-- A segment of a synchronised connection moves the acknowledged edge, takes
the window, and hands up what is next in order. -/
theorem receiveSegment_spec (sound : tcb.Sound) (opened : tcb.state ≠ .closed)
    (segment : TcpSegmentMeta) :
    ∃ window lastSeq lastAck congestion delayed actions, tcb.receiveSegment segment =
        (.ok actions,
          (tcb.afterAck segment.acknowledgment window lastSeq lastAck congestion).received
            (tcb.inOrder segment) delayed) ∧
      (window = tcb.peerWindow ∨ window = segment.window) ∧
      essentials actions = handedUp (tcb.inOrder segment) := by
  obtain ⟨window, lastSeq, lastAck, congestion, acked, origin⟩ := tcb.takeSegmentAck_tcb segment
  have sameReceive : (tcb.takeSegmentAck segment).2.recvNext = tcb.recvNext ∧
      (tcb.takeSegmentAck segment).2.receiveAvailable = tcb.receiveAvailable := by
    rw [acked]
    exact ⟨rfl, rfl⟩
  have sameState : (tcb.takeSegmentAck segment).2.state =
      (tcb.ackedBy segment.acknowledgment).2 := by
    rw [acked]
    rfl
  obtain ⟨delayed, actions, taken, handed⟩ := takePayload_spec sound sameReceive
    (fun stillOpen => by
      rw [peerReceiveClosed_eq, peerReceiveClosed_eq, sameState]
      exact ackedBy_peerFin (by rwa [sameState] at stillOpen))
    (fun closed => by
      rw [sameState] at closed
      rw [peerReceiveClosed_eq, ackedBy_closed opened closed]
      rfl)
  refine ⟨window, lastSeq, lastAck, congestion, delayed,
    (tcb.takeSegmentAck segment).1 ++ actions, ?_, origin, ?_⟩
  · rw [receiveSegment, taken, acked]
    rfl
  · rw [essentials_append, takeSegmentAck, processAck_essentials, handed, List.nil_append]

/-! ### The invariant is kept -/

theorem ackedBy_spec (sound : tcb.Sound) (opening : tcb.state ≠ .synSent)
    (opening' : tcb.state ≠ .synReceived) (acknowledgment : Option SeqNumber) :
    ∃ acknowledged ≤ tcb.flightSize,
      (tcb.ackedBy acknowledgment).1 = advance tcb.sendUnacked acknowledged ∧
      (tcb.ackedBy acknowledgment).2.FlightAllowed
        (distanceFrom tcb.sendNext (tcb.ackedBy acknowledgment).1) := by
  cases acknowledgment with
  | none => exact ⟨0, Nat.zero_le _, (advance_zero _).symm, sound.flight⟩
  | some acknowledgment =>
    obtain ⟨acknowledged, within, moved, rest, all, some⟩ :=
      unackedAfter_spec sound.shortFlight acknowledgment
    refine ⟨acknowledged, within, moved, ?_⟩
    change (if _ then _ else _ : TcpState).FlightAllowed (distanceFrom _ (tcb.unackedAfter _))
    rw [rest]
    exact ackedState_flight sound.flight within opening opening' all some

theorem ackedBy_state_ne_synReceived (opening' : tcb.state ≠ .synReceived)
    (acknowledgment : Option SeqNumber) :
    (tcb.ackedBy acknowledgment).2 ≠ .synReceived := by
  rcases ackedBy_state acknowledgment with same | acked
  · rw [same]
    exact opening'
  · rw [acked]
    cases state : tcb.state with
    | synReceived => exact absurd state opening'
    | _ => simp [ackedState]

theorem ackedBy_ne_synSent (opening : tcb.state ≠ .synSent) (acknowledgment : Option SeqNumber) :
    (tcb.ackedBy acknowledgment).2 ≠ .synSent := by
  rcases ackedBy_state acknowledgment with same | acked
  · rw [same]
    exact opening
  · rw [acked]
    cases state : tcb.state with
    | synSent => exact absurd state opening
    | _ => simp [ackedState]

theorem afterAck_sound (sound : tcb.Sound) (opening : tcb.state ≠ .synSent)
    (opening' : tcb.state ≠ .synReceived) (opened : tcb.state ≠ .closed)
    (acknowledgment : Option SeqNumber) {window : Nat} (windowInRange : window ≤ maxWindow)
    (lastSeq lastAck : SeqNumber) (congestion : NewReno) :
    (tcb.afterAck acknowledgment window lastSeq lastAck congestion).Sound := by
  obtain ⟨_, _, _, flight⟩ := ackedBy_spec sound opening opening' acknowledgment
  refine ⟨windowInRange, flight, sound.edge, sound.credit, ?_, ?_, ?_⟩
  · intro reopened
    exact absurd reopened (ackedBy_state_ne_synReceived opening' acknowledgment)
  · intro _ _
    exact sound.noPending opening' opened
  · intro reopened
    exact absurd reopened (ackedBy_ne_synSent opening acknowledgment)

/-- What is taken moves the received edge towards the advertised one. -/
theorem receiveWindow_received {taken : Nat × Bool} (delayed : Bool)
    (fits : taken.1 + taken.2.toNat ≤ tcb.receiveWindow) :
    (tcb.received taken delayed).receiveWindow = tcb.receiveWindow - (taken.1 + taken.2.toNat) :=
  distanceFrom_advance_left fits

theorem received_sound (sound : tcb.Sound) {taken : Nat × Bool} (delayed : Bool)
    (fits : taken.1 + taken.2.toNat ≤ tcb.receiveWindow) (opening : tcb.state ≠ .synSent)
    (opening' : tcb.state ≠ .synReceived)
    (finAllowed : taken.2 = true →
      tcb.state = .established ∨ tcb.state = .finWait1 ∨ tcb.state = .finWait2) :
    (tcb.received taken delayed).Sound := by
  have window := tcb.receiveWindow_received delayed fits
  have credit := sound.credit
  have edge := sound.edge
  have finStates : taken.2 = true → (tcb.finState).FlightAllowed tcb.flightSize ∧
      tcb.finState ≠ .synReceived ∧ tcb.finState ≠ .synSent := by
    intro fin
    have flight := sound.flight
    rcases finAllowed fin with state | state | state
    · rw [state] at flight
      rw [finState, state]
      exact ⟨flight, TcpState.noConfusion, TcpState.noConfusion⟩
    · rw [state] at flight
      have outstanding : tcb.sendUnacked ≠ tcb.sendNext := by
        intro same
        have zero : tcb.flightSize = 0 := distanceFrom_eq_zero.mpr same.symm
        rw [zero] at flight
        exact absurd flight.1 (by decide)
      rw [finState, state]
      simp only [if_neg outstanding]
      exact ⟨flight, by decide, by decide⟩
    · rw [state] at flight
      rw [finState, state]
      exact ⟨flight, TcpState.noConfusion, TcpState.noConfusion⟩
  refine ⟨sound.window, ?_, ?_, ?_, ?_, ?_, ?_⟩
  · change (if taken.2 then tcb.finState else tcb.state).FlightAllowed tcb.flightSize
    split_ifs with fin
    · exact (finStates fin).1
    · exact sound.flight
  · omega
  · change _ + (tcb.recvBuffered + taken.1) ≤ tcb.recvCapacity
    omega
  · intro reopened
    change (if taken.2 then tcb.finState else tcb.state) = _ at reopened
    split_ifs at reopened with fin
    · exact absurd reopened (finStates fin).2.1
    · exact absurd reopened opening'
  · intro _ stillOpen
    refine sound.noPending opening' (fun closed => stillOpen ?_)
    change (if taken.2 then tcb.finState else tcb.state) = _
    split_ifs with fin
    · rw [finState, closed]
    · exact closed
  · intro reopened
    change (if taken.2 then tcb.finState else tcb.state) = _ at reopened
    split_ifs at reopened with fin
    · exact absurd reopened (finStates fin).2.2
    · exact absurd reopened opening

/-! ### The handshake -/

def opened (tcb : TcpTcb) : TcpTcb :=
  { tcb with
    sendUnacked := tcb.sendNext
    state := .established
    pendingInitialPayloadLen := 0
    pendingInitialFin := false }

/-- What came with the SYN and waits for the handshake. -/
abbrev pendingInitial (tcb : TcpTcb) : Nat × Bool :=
  (tcb.pendingInitialPayloadLen, tcb.pendingInitialFin)

abbrev established (tcb : TcpTcb) (delayed : Bool) : TcpTcb :=
  tcb.opened.received tcb.pendingInitial delayed

theorem enterEstablished_spec : ∃ delayed actions, tcb.enterEstablished =
        (actions, tcb.established delayed) ∧
      essentials actions = handedUp tcb.pendingInitial := by
  have opening : essentials [if tcb.activeOpen then TcpAction.connected else TcpAction.accepted,
      TcpAction.disarmRetransmission] = [] := by
    cases tcb.activeOpen <;> rfl
  unfold enterEstablished established received handedUp pendingInitial
  by_cases data : 0 < tcb.pendingInitialPayloadLen
  · cases fin : tcb.pendingInitialFin with
    | true =>
      simp only [if_pos data, if_true]
      refine ⟨false, _, Prod.ext rfl ?_, ?_⟩
      · simp only [acceptFin_tcb, advance_advance]
        rfl
      · rw [essentials_append, essentials_append, acceptFin_essentials, opening]
        rfl
    | false =>
      simp only [if_pos data, Bool.false_eq_true, if_false]
      refine ⟨true, _, Prod.ext rfl ?_, ?_⟩
      · simp only [opened, Bool.toNat_false, Nat.add_zero]
      · rw [essentials_append, opening]
        rfl
  · have empty : tcb.pendingInitialPayloadLen = 0 := by omega
    cases fin : tcb.pendingInitialFin with
    | true =>
      simp only [if_neg data, if_true]
      refine ⟨false, _, Prod.ext rfl ?_, ?_⟩
      · simp only [acceptFin_tcb, opened, empty, Nat.add_zero, Nat.zero_add]
        rfl
      · rw [essentials_append, acceptFin_essentials, opening]
    | false =>
      simp only [if_neg data, Bool.false_eq_true, if_false]
      refine ⟨tcb.delayedAckPending, _, Prod.ext rfl ?_, ?_⟩
      · simp [opened, empty]
      · rw [opening]
        rfl

theorem opened_sound (sound : tcb.Sound) : tcb.opened.Sound := by
  refine ⟨sound.window, ?_, sound.edge, sound.credit, ?_, ?_, ?_⟩
  · change distanceFrom tcb.sendNext tcb.sendNext ≤ maxWindow
    rw [distanceFrom_self]
    exact Nat.zero_le _
  · exact nofun
  · intro _ _
    exact ⟨rfl, rfl⟩
  · exact nofun

theorem established_sound (sound : tcb.Sound) (opening : tcb.state = .synReceived)
    (delayed : Bool) :
    (tcb.established delayed).Sound :=
  received_sound (opened_sound sound) delayed (sound.pendingFits opening) TcpState.noConfusion
    TcpState.noConfusion (fun _ => Or.inl rfl)

/-! ### Segments -/

/-- A segment of a synchronised connection is refused, at most cancelling a
delayed acknowledgment, or received. -/
theorem onSynchronizedSegment_cases (segment : TcpSegmentMeta) (before : List TcpAction) :
    (∃ delayed actions, tcb.onSynchronizedSegment segment before =
        (.ok actions, { tcb with delayedAckPending := delayed }) ∧
      (essentials actions = essentials before ∨
        (essentials actions = [] ∧ (segment.flags.syn = true ∨ segment.flags.ack = false)))) ∨
    (segment.flags.syn = false ∧ segment.flags.ack = true ∧ tcb.segmentAcceptable segment = true ∧
      segment.acknowledgment.any (fun acknowledgment => after acknowledgment tcb.sendNext) = false ∧
      tcb.onSynchronizedSegment segment before =
        ((tcb.receiveSegment segment).1.map (before ++ ·), (tcb.receiveSegment segment).2)) := by
  unfold onSynchronizedSegment
  split_ifs with refused syn noAck future
  · refine Or.inl ⟨false, _, Prod.ext rfl (answer_tcb _ .defensiveAck), Or.inl ?_⟩
    rw [essentials_append, rejectUnacceptableSegment_essentials, List.append_nil]
  · exact Or.inl ⟨tcb.delayedAckPending, _, rfl, Or.inr ⟨rfl, Or.inl syn⟩⟩
  · exact Or.inl ⟨tcb.delayedAckPending, _, rfl, Or.inr ⟨rfl, Or.inr (by simpa using noAck)⟩⟩
  · refine Or.inl ⟨tcb.delayedAckPending, _, rfl, Or.inl ?_⟩
    rw [essentials_append]
    exact List.append_nil _
  · exact Or.inr ⟨by simpa using syn, by simpa using noAck, by simpa using refused,
      by simpa using future, rfl⟩

end TcpTcb

end Sail.Netstack
