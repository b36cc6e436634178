/-
What one event can do to the control block.

A segment is ignored, resets the connection, or is taken, perhaps after
completing the handshake. Together with application events and timers this
yields one description of an event's effect, from which every property of whole
runs follows.
-/

import Sail.Netstack.Tcp.TcbInvariant

namespace Sail.Netstack

open SerialNumber

namespace TcpTcb

/-! ### What a segment can do -/

def Idle (tcb : TcpTcb) (done : List TcpAction)
    (result : Except TcpError (List TcpAction) × TcpTcb) : Prop :=
  ∃ delayed actions, result = (.ok actions, { tcb with delayedAckPending := delayed }) ∧
    essentials actions = done

def Received (tcb : TcpTcb) (segment : TcpSegmentMeta) (done : List TcpAction)
    (result : Except TcpError (List TcpAction) × TcpTcb) : Prop :=
  ∃ window lastSeq lastAck congestion delayed actions, result = (.ok actions,
      (tcb.afterAck segment.acknowledgment window lastSeq lastAck congestion).received
        (tcb.inOrder segment) delayed) ∧
    (window = tcb.peerWindow ∨ window = segment.window) ∧
    essentials actions = done ++ handedUp (tcb.inOrder segment)

inductive SegmentOutcome (tcb : TcpTcb) (segment : TcpSegmentMeta)
    (result : Except TcpError (List TcpAction) × TcpTcb) : Prop where
  | idle (unchanged : tcb.Idle [] result)
  | reset (closed : result = (.ok [.closed], { tcb with state := .closed }))
  | received (synchronised : tcb.state ≠ .synReceived)
      (taken : tcb.Received segment [] result)
  | completed (opening : tcb.state = .synReceived)
      (final : tcb.acceptsFinalAck (tcb.effectiveSegment segment) = true) (delayed : Bool)
      (next : (tcb.opened.received (tcb.pendingInitialPayloadLen, tcb.pendingInitialFin)
          delayed).Idle
            (handedUp (tcb.pendingInitialPayloadLen, tcb.pendingInitialFin)) result ∨
        (tcb.opened.received (tcb.pendingInitialPayloadLen, tcb.pendingInitialFin)
          delayed).Received (tcb.effectiveSegment segment)
            (handedUp (tcb.pendingInitialPayloadLen, tcb.pendingInitialFin)) result)

theorem receiveSegment_received {tcb : TcpTcb} (sound : tcb.Sound)
    (opened : tcb.state ≠ .closed) (segment : TcpSegmentMeta) (done : List TcpAction) :
    tcb.Received segment (essentials done)
      ((tcb.receiveSegment segment).1.map (done ++ ·), (tcb.receiveSegment segment).2) := by
  obtain ⟨window, lastSeq, lastAck, congestion, delayed, actions, result, origin, handed⟩ :=
    receiveSegment_spec sound opened segment
  refine ⟨window, lastSeq, lastAck, congestion, delayed, done ++ actions, ?_, origin, ?_⟩
  · rw [result]
    rfl
  · rw [essentials_append, handed]

theorem completePassiveHandshake_cases (tcb : TcpTcb) (segment : TcpSegmentMeta) :
    (tcb.state ≠ .synReceived ∧ tcb.completePassiveHandshake segment = (true, [], tcb)) ∨
    (tcb.state = .synReceived ∧ tcb.acceptsFinalAck segment = true ∧
      tcb.completePassiveHandshake segment = (true, tcb.enterEstablished)) ∨
    (tcb.state = .synReceived ∧ tcb.acceptsFinalAck segment = false ∧
      ∃ actions, tcb.completePassiveHandshake segment = (false, actions, tcb) ∧
        essentials actions = []) := by
  unfold completePassiveHandshake
  by_cases opening : tcb.state = .synReceived
  · rw [if_neg (not_not.mpr opening)]
    cases final : tcb.acceptsFinalAck segment with
    | true => exact Or.inr (Or.inl ⟨opening, rfl, rfl⟩)
    | false =>
      refine Or.inr (Or.inr ⟨opening, rfl, ?_⟩)
      cases segment.acknowledgment with
      | none => exact ⟨_, rfl, rfl⟩
      | some acknowledgment =>
        simp only [Bool.false_eq_true, if_false]
        split_ifs <;> exact ⟨_, rfl, rfl⟩
  · exact Or.inl ⟨opening, if_pos opening⟩

theorem established_state_ne {tcb : TcpTcb} {delayed : Bool} {state : TcpState}
    (other : ∀ fin : Bool, (if fin then .closeWait else .established) ≠ state) :
    (tcb.established delayed).state ≠ state :=
  other tcb.pendingInitialFin

theorem onSegment_outcome {tcb : TcpTcb} (sound : tcb.Sound) (opened : tcb.state ≠ .closed)
    (opening : tcb.state ≠ .synSent) (segment : TcpSegmentMeta) :
    SegmentOutcome tcb segment (tcb.onSegment segment) := by
  unfold onSegment
  rw [if_neg opened, if_neg opening]
  by_cases rst : (tcb.effectiveSegment segment).flags.rst = true
  · rw [if_pos rst]
    unfold onReset
    split_ifs
    · exact .reset rfl
    · exact .idle ⟨tcb.delayedAckPending, _, rfl, rfl⟩
    · exact .idle ⟨tcb.delayedAckPending, _, rfl, rfl⟩
  · rw [if_neg rst]
    rcases tcb.completePassiveHandshake_cases (tcb.effectiveSegment segment) with
      ⟨synchronised, result⟩ | ⟨handshake, final, result⟩ | ⟨handshake, _, actions, result, none⟩
    · have same : tcb.effectiveSegment segment = segment := by
        rw [effectiveSegment, if_neg (fun both => synchronised both.2)]
      rw [result, same]
      rcases tcb.onSynchronizedSegment_cases segment [] with
        ⟨delayed, actions, refused, none⟩ | ⟨_, _, _, _, taken⟩
      · refine .idle ⟨delayed, actions, refused, ?_⟩
        rcases none with none | ⟨none, _⟩ <;> exact none
      · refine .received synchronised ?_
        rw [if_pos rfl, taken]
        exact receiveSegment_received sound opened segment []
    · obtain ⟨delayed, actions, established, handed⟩ := tcb.enterEstablished_spec
      rw [result, established, if_pos rfl]
      refine .completed handshake final delayed ?_
      rcases (tcb.established delayed).onSynchronizedSegment_cases
          (tcb.effectiveSegment segment) actions with
        ⟨delayed', actions', refused, none⟩ | ⟨_, _, _, _, taken⟩
      · refine Or.inl ⟨delayed', actions', refused, ?_⟩
        rcases none with same | ⟨_, flags⟩
        · rw [same, handed]
        · simp only [acceptsFinalAck, Bool.and_eq_true, Bool.not_eq_eq_eq_not,
            Bool.not_true] at final
          rcases flags with syn | noAck
          · rw [syn] at final
            simp at final
          · rw [noAck] at final
            simp at final
      · refine Or.inr ?_
        rw [taken, ← handed]
        exact receiveSegment_received (established_sound sound handshake delayed)
          (established_state_ne (by decide)) _ _
    · rw [result]
      exact .idle ⟨tcb.delayedAckPending, actions, rfl, none⟩

/-! ### One event -/

inductive Event where
  | segment (segment : TcpSegmentMeta)
  | app (event : AppEvent)
  | timer (event : TimerEvent)
deriving DecidableEq

/-- A window that a sixteen-bit field and a shift can express. -/
def Event.WindowInRange : Event → Prop
  | .segment arrived => arrived.window ≤ maxWindow
  | _ => True

def onEvent (tcb : TcpTcb) : Event → Except TcpError (List TcpAction) × TcpTcb
  | .segment segment => tcb.onSegment segment
  | .app event => tcb.onAppEvent event
  | .timer event => tcb.onTimer event

end TcpTcb

namespace TcpAction

def isFin : TcpAction → Bool
  | .send control => control.flags.fin
  | _ => false

def isSendPayload : TcpAction → Bool
  | .sendPayload _ => true
  | _ => false

def isDeliverPayload : TcpAction → Bool
  | .deliverPayload _ => true
  | _ => false

/-- What may come after an action: nothing of the peer after its FIN, no data of
ours after our FIN. -/
def Precedes (earlier later : TcpAction) : Prop :=
  (earlier = .peerHalfClosed → later ≠ .peerHalfClosed ∧ later.isDeliverPayload = false) ∧
  (earlier.isFin = true → later.isSendPayload = false)

instance : DecidableRel Precedes :=
  fun _ _ => inferInstanceAs (Decidable (_ ∧ _))

theorem precedes_of_not_essential {earlier later : TcpAction}
    (plain : earlier.essential = false ∨ later.essential = false) :
    Precedes earlier later := by
  rcases plain with plain | plain
  · cases earlier <;> simp_all [Precedes, essential, isFin]
  · cases later <;> simp_all [Precedes, essential, isDeliverPayload, isSendPayload]

theorem pairwise_precedes_iff (actions : List TcpAction) :
    actions.Pairwise Precedes ↔ (essentials actions).Pairwise Precedes := by
  rw [essentials, List.pairwise_filter]
  constructor
  · exact List.Pairwise.imp (fun order _ _ => order)
  · refine List.Pairwise.imp (fun {earlier later} order => ?_)
    cases earlierEssential : earlier.essential with
    | false => exact precedes_of_not_essential (Or.inl earlierEssential)
    | true =>
      cases laterEssential : later.essential with
      | false => exact precedes_of_not_essential (Or.inr laterEssential)
      | true => exact order earlierEssential laterEssential

end TcpAction

namespace TcpTcb

open TcpAction

theorem mem_handedUp {taken : Nat × Bool} {action : TcpAction}
    (member : action ∈ handedUp taken) :
    (action.isDeliverPayload = true ∨ (action = .peerHalfClosed ∧ taken.2 = true)) ∧
      action.isFin = false ∧ action.isSendPayload = false := by
  unfold handedUp at member
  rw [List.mem_append] at member
  rcases member with data | fin
  · split_ifs at data
    · rw [List.mem_singleton.mp data]
      exact ⟨Or.inl rfl, rfl, rfl⟩
    · cases data
  · split_ifs at fin with closed
    · rw [List.mem_singleton.mp fin]
      exact ⟨Or.inr ⟨rfl, closed⟩, rfl, rfl⟩
    · cases fin

theorem handedUp_noFin (taken : Nat × Bool) :
    ¬ ∃ action ∈ handedUp taken, action.isFin = true := by
  rintro ⟨action, member, fin⟩
  rw [(mem_handedUp member).2.1] at fin
  cases fin

theorem peerHalfClosed_mem_handedUp {taken : Nat × Bool} :
    .peerHalfClosed ∈ handedUp taken ↔ taken.2 = true := by
  unfold handedUp
  cases taken.2 <;> by_cases data : 0 < taken.1 <;> simp [data]

theorem handedUp_ordered (taken : Nat × Bool) : (handedUp taken).Pairwise Precedes := by
  unfold handedUp
  cases taken.2 <;> by_cases data : 0 < taken.1 <;> simp [data, Precedes, isFin]

structure StepEffect (tcb : TcpTcb) (essential : List TcpAction) (next : TcpTcb) : Prop where
  sound : next.Sound
  unacked : ∃ acknowledged ≤ tcb.flightSize,
    next.sendUnacked = advance tcb.sendUnacked acknowledged
  received : tcb.state ≠ .synSent → ∃ taken ≤ tcb.receiveWindow,
    next.recvNext = advance tcb.recvNext taken
  ordered : essential.Pairwise Precedes
  noSend : tcb.state.sentFin = true → ∀ action ∈ essential, action.isSendPayload = false
  noDeliver : tcb.state.peerFin = true →
    ∀ action ∈ essential, action ≠ .peerHalfClosed ∧ action.isDeliverPayload = false
  fin : next.state ≠ .closed → (next.state.sentFin = true ↔
    tcb.state.sentFin = true ∨ ∃ action ∈ essential, action.isFin = true)
  peer : next.state ≠ .closed → (next.state.peerFin = true ↔
    tcb.state.peerFin = true ∨ .peerHalfClosed ∈ essential)
  closing : next.state = .closed → essential = [] ∧
    (tcb.state.FlightAllowed next.flightSize ∨
      (tcb.state = .lastAck ∧ next.flightSize = 0))

variable {next tcb : TcpTcb} {segment : TcpSegmentMeta}
  {result : Except TcpError (List TcpAction) × TcpTcb}

/-- An event that sends and takes nothing, and leaves the state alone or
closes. -/
theorem StepEffect.quiet (sound : next.Sound) (unacked : next.sendUnacked = tcb.sendUnacked)
    (received : next.recvNext = tcb.recvNext) (opened : tcb.state ≠ .closed)
    (state : next.state = tcb.state ∨
      (next.state = .closed ∧ tcb.state.FlightAllowed next.flightSize)) :
    StepEffect tcb [] next := by
  have same (stillOpen : next.state ≠ .closed) : next.state = tcb.state := by
    rcases state with same | ⟨closed, _⟩
    · exact same
    · exact absurd closed stillOpen
  refine ⟨sound, ⟨0, Nat.zero_le _, by rw [unacked, advance_zero]⟩,
    fun _ => ⟨0, Nat.zero_le _, by rw [received, advance_zero]⟩, List.Pairwise.nil,
    by simp, by simp, ?_, ?_, ?_⟩
  · intro stillOpen
    simp [same stillOpen]
  · intro stillOpen
    simp [same stillOpen]
  · intro closed
    rcases state with same | ⟨_, flight⟩
    · exact absurd (same.symm.trans closed) opened
    · exact ⟨rfl, Or.inl flight⟩

/-- An event of ours that leaves the peer's side alone and the connection open. -/
theorem StepEffect.single {action : TcpAction} (sound : next.Sound)
    (unacked : next.sendUnacked = tcb.sendUnacked) (received : next.recvNext = tcb.recvNext)
    (stillOpen : next.state ≠ .closed) (ours : action ≠ .peerHalfClosed)
    (noDeliver : action.isDeliverPayload = false)
    (noSend : tcb.state.sentFin = true → action.isSendPayload = false)
    (fin : next.state.sentFin = true ↔ tcb.state.sentFin = true ∨ action.isFin = true)
    (peer : next.state.peerFin = tcb.state.peerFin) :
    StepEffect tcb [action] next := by
  refine ⟨sound, ⟨0, Nat.zero_le _, by rw [unacked, advance_zero]⟩,
    fun _ => ⟨0, Nat.zero_le _, by rw [received, advance_zero]⟩, List.pairwise_singleton _ _,
    ?_, ?_, ?_, ?_, fun closed => absurd closed stillOpen⟩
  · intro sent other member
    rw [List.mem_singleton.mp member]
    exact noSend sent
  · intro _ other member
    rw [List.mem_singleton.mp member]
    exact ⟨ours, noDeliver⟩
  · intro _
    simp [fin]
  · intro _
    simp [peer, ours.symm]

/-- The peer's SYN has come. -/
theorem StepEffect.opening (sound : next.Sound) (sent : tcb.state = .synSent)
    (state : next.state = .established ∨ next.state = .synReceived)
    (unacked : ∃ acknowledged ≤ tcb.flightSize,
      next.sendUnacked = advance tcb.sendUnacked acknowledged) :
    StepEffect tcb [] next := by
  refine ⟨sound, unacked, fun other => absurd sent other, List.Pairwise.nil, by simp, by simp,
    ?_, ?_, ?_⟩ <;>
  · rw [sent]
    rcases state with state | state <;> simp [state, TcpState.sentFin, TcpState.peerFin]

/-- Closing without any other change. -/
theorem Sound.close (sound : tcb.Sound) {delayed : Bool} :
    ({ tcb with state := .closed, delayedAckPending := delayed } : TcpTcb).Sound := by
  refine ⟨sound.window, sound.flight.le, sound.edge, sound.credit, ?_, ?_, ?_⟩
  · exact nofun
  · intro _ stillOpen
    exact absurd rfl stillOpen
  · exact nofun

theorem Sound.delayed (sound : tcb.Sound) (delayed : Bool) :
    ({ tcb with delayedAckPending := delayed } : TcpTcb).Sound :=
  ⟨sound.window, sound.flight, sound.edge, sound.credit, sound.pendingFits, sound.noPending,
    sound.fresh⟩

theorem StepEffect.close (sound : tcb.Sound) (opened : tcb.state ≠ .closed) {delayed : Bool} :
    StepEffect tcb [] { tcb with state := .closed, delayedAckPending := delayed } :=
  .quiet sound.close rfl rfl opened (Or.inr ⟨rfl, sound.flight⟩)

theorem finState_sentFin (tcb : TcpTcb) : tcb.finState.sentFin = tcb.state.sentFin := by
  unfold finState
  cases tcb.state with
  | finWait1 =>
    split_ifs <;> rfl
  | _ => rfl

theorem ackedState_sentFin {state : TcpState} (stillOpen : ackedState state ≠ .closed) :
    (ackedState state).sentFin = state.sentFin := by
  cases state <;> first | rfl | exact absurd rfl stillOpen

theorem ackedBy_sentFin {acknowledgment : Option SeqNumber}
    (stillOpen : (tcb.ackedBy acknowledgment).2 ≠ .closed) :
    (tcb.ackedBy acknowledgment).2.sentFin = tcb.state.sentFin := by
  cases acknowledgment with
  | none => rfl
  | some acknowledgment =>
    unfold ackedBy at stillOpen ⊢
    dsimp only at stillOpen ⊢
    split_ifs at stillOpen ⊢
    · exact ackedState_sentFin stillOpen
    · rfl

/-- A FIN is only taken by a synchronised connection the peer has not closed. -/
theorem inOrder_fin (fin : (tcb.inOrder segment).2 = true) : tcb.state.peerFin = false := by
  unfold inOrder at fin
  split_ifs at fin with stopped
  have allowed : tcb.peerReceiveClosed = false ∧ segment.sequence = tcb.recvNext := by
    simpa using stopped
  exact allowed.1

theorem inOrder_of_peerFin (closed : tcb.state.peerFin = true) :
    tcb.inOrder segment = (0, false) := by
  simp [inOrder, peerReceiveClosed_eq, closed]

theorem finState_peerFin (opening : tcb.state ≠ .synSent) (opening' : tcb.state ≠ .synReceived)
    (opened : tcb.state ≠ .closed) :
    tcb.finState.peerFin = true := by
  unfold finState
  cases state : tcb.state with
  | synSent => exact absurd state opening
  | synReceived => exact absurd state opening'
  | closed => exact absurd state opened
  | finWait1 =>
    split_ifs <;> rfl
  | _ => rfl

theorem finState_ne_closed (opened : tcb.state ≠ .closed) : tcb.finState ≠ .closed := by
  unfold finState
  cases state : tcb.state with
  | closed => exact absurd state opened
  | finWait1 =>
    split_ifs <;> exact TcpState.noConfusion
  | _ => exact TcpState.noConfusion

/-- A state that takes a FIN, before and after the acknowledgment. -/
theorem ackedBy_takesFin (opening : tcb.state ≠ .synSent) (opening' : tcb.state ≠ .synReceived)
    (opened : tcb.state ≠ .closed) (acknowledgment : Option SeqNumber)
    (notClosed : tcb.state.peerFin = false) :
    (tcb.ackedBy acknowledgment).2 = .established ∨
      (tcb.ackedBy acknowledgment).2 = .finWait1 ∨
      (tcb.ackedBy acknowledgment).2 = .finWait2 := by
  have stillOpen : (tcb.ackedBy acknowledgment).2 ≠ .closed := by
    intro closed
    rw [ackedBy_closed opened closed] at notClosed
    cases notClosed
  have peer := (ackedBy_peerFin stillOpen).trans notClosed
  have synSent := ackedBy_ne_synSent opening acknowledgment
  have synReceived := ackedBy_state_ne_synReceived opening' acknowledgment
  cases state : (tcb.ackedBy acknowledgment).2 <;> simp_all [TcpState.peerFin]

theorem ackedBy_closed_flight (sound : tcb.Sound) (opened : tcb.state ≠ .closed)
    {acknowledgment : Option SeqNumber} (closed : (tcb.ackedBy acknowledgment).2 = .closed) :
    distanceFrom tcb.sendNext (tcb.ackedBy acknowledgment).1 = 0 := by
  cases acknowledgment with
  | none => exact absurd closed opened
  | some acknowledgment =>
    obtain ⟨acknowledged, _, _, rest, all, _⟩ :=
      unackedAfter_spec sound.shortFlight acknowledgment
    unfold ackedBy at closed ⊢
    dsimp only at closed ⊢
    split_ifs at closed with everything
    · rw [rest, all everything, Nat.sub_self]
    · exact absurd closed opened

/-- Only the acknowledgment of our FIN in LAST-ACK closes. -/
theorem Received.closed {done : List TcpAction} (opened : tcb.state ≠ .closed)
    (received : tcb.Received segment done result) (closed : result.2.state = .closed) :
    tcb.state = .lastAck := by
  obtain ⟨window, lastSeq, lastAck, congestion, delayed, actions, rfl, _, _⟩ := received
  have acked : (tcb.ackedBy segment.acknowledgment).2 = .closed := by
    by_contra stillOpen
    change (if _ then _ else _ : TcpState) = _ at closed
    split_ifs at closed
    · exact finState_ne_closed stillOpen closed
    · exact stillOpen closed
  exact ackedBy_closed opened acked

theorem Received.effect {done : List TcpAction} (sound : tcb.Sound)
    (opening : tcb.state ≠ .synSent) (opening' : tcb.state ≠ .synReceived)
    (opened : tcb.state ≠ .closed) (windowInRange : segment.window ≤ maxWindow)
    (received : tcb.Received segment done result) :
    StepEffect tcb (handedUp (tcb.inOrder segment)) result.2 := by
  obtain ⟨window, lastSeq, lastAck, congestion, delayed, actions, rfl, origin, _handed⟩ := received
  have windowOk : window ≤ maxWindow := by
    rcases origin with old | new
    · exact old.le.trans sound.window
    · exact new.le.trans windowInRange
  have acked := afterAck_sound sound opening opening' opened segment.acknowledgment windowOk
    lastSeq lastAck congestion
  obtain ⟨acknowledged, within, moved, flight⟩ :=
    ackedBy_spec sound opening opening' segment.acknowledgment
  have fits := tcb.inOrder_le segment
  have takesFin : (tcb.inOrder segment).2 = true →
      (tcb.ackedBy segment.acknowledgment).2 = .established ∨
      (tcb.ackedBy segment.acknowledgment).2 = .finWait1 ∨
      (tcb.ackedBy segment.acknowledgment).2 = .finWait2 :=
    fun fin => ackedBy_takesFin opening opening' opened _ (inOrder_fin fin)
  have finOpen : (tcb.inOrder segment).2 = true →
      (tcb.ackedBy segment.acknowledgment).2 ≠ .closed := by
    intro fin closed
    have states := takesFin fin
    rw [closed] at states
    simp at states
  refine ⟨?_, ⟨acknowledged, within, moved⟩, fun _ => ⟨_, fits, rfl⟩, handedUp_ordered _,
    ?_, ?_, ?_, ?_, ?_⟩
  · exact received_sound acked delayed fits (ackedBy_ne_synSent opening segment.acknowledgment)
      (ackedBy_state_ne_synReceived opening' segment.acknowledgment) takesFin
  · intro _ action member
    exact (mem_handedUp member).2.2
  · intro closed
    rw [inOrder_of_peerFin closed, handedUp_none]
    simp
  · intro stillOpen
    rw [or_iff_left (handedUp_noFin _)]
    change (if _ then _ else _ : TcpState) ≠ _ at stillOpen
    change (if _ then _ else _ : TcpState).sentFin = true ↔ _
    split_ifs at stillOpen ⊢ with fin
    · rw [finState_sentFin]
      change (tcb.ackedBy segment.acknowledgment).2.sentFin = true ↔ _
      rw [ackedBy_sentFin (finOpen fin)]
    · change (tcb.ackedBy segment.acknowledgment).2.sentFin = true ↔ _
      rw [ackedBy_sentFin stillOpen]
  · intro stillOpen
    rw [peerHalfClosed_mem_handedUp]
    change (if _ then _ else _ : TcpState) ≠ _ at stillOpen
    change (if _ then _ else _ : TcpState).peerFin = true ↔ _
    split_ifs at stillOpen ⊢ with fin
    · have peer : (tcb.afterAck segment.acknowledgment window lastSeq lastAck
          congestion).finState.peerFin = true :=
        finState_peerFin (ackedBy_ne_synSent opening segment.acknowledgment)
          (ackedBy_state_ne_synReceived opening' segment.acknowledgment) (finOpen fin)
      simp [peer, fin]
    · change (tcb.ackedBy segment.acknowledgment).2.peerFin = true ↔ _
      rw [ackedBy_peerFin stillOpen]
      simp [fin]
  · intro closed
    change (if _ then _ else _ : TcpState) = _ at closed
    split_ifs at closed with fin
    · exact absurd closed (finState_ne_closed (finOpen fin))
    · have last := ackedBy_closed opened closed
      rw [inOrder_of_peerFin (by rw [last]; rfl)]
      exact ⟨handedUp_none, Or.inr ⟨last, ackedBy_closed_flight sound opened closed⟩⟩

/-- Two effects in a row, the second of which does not close. -/
theorem StepEffect.trans {middle : TcpTcb} {first second : List TcpAction}
    (one : StepEffect tcb first middle) (two : StepEffect middle second next)
    (opening : tcb.state ≠ .synSent) (opening' : middle.state ≠ .synSent)
    (stillOpen : middle.state ≠ .closed) (notClosing : next.state ≠ .closed)
    (sent : middle.sendNext = tcb.sendNext)
    (edge : middle.advertisedRightEdge = tcb.advertisedRightEdge) :
    StepEffect tcb (first ++ second) next := by
  refine ⟨two.sound, ?_, ?_, ?_, ?_, ?_, ?_, ?_, fun closed => absurd closed notClosing⟩
  · obtain ⟨k, kLe, kEq⟩ := one.unacked
    obtain ⟨j, jLe, jEq⟩ := two.unacked
    have rest : middle.flightSize = tcb.flightSize - k := by
      change distanceFrom middle.sendNext middle.sendUnacked = _
      rw [sent, kEq]
      exact distanceFrom_advance_left kLe
    exact ⟨k + j, by omega, by rw [jEq, kEq, advance_advance]⟩
  · intro _
    obtain ⟨k, kLe, kEq⟩ := one.received opening
    obtain ⟨j, jLe, jEq⟩ := two.received opening'
    have rest : middle.receiveWindow = tcb.receiveWindow - k := by
      change distanceFrom middle.advertisedRightEdge middle.recvNext = _
      rw [edge, kEq]
      exact distanceFrom_advance_left kLe
    exact ⟨k + j, by omega, by rw [jEq, kEq, advance_advance]⟩
  · refine List.pairwise_append.mpr ⟨one.ordered, two.ordered, ?_⟩
    intro earlier earlierMem later laterMem
    refine ⟨?_, ?_⟩
    · rintro rfl
      exact two.noDeliver ((one.peer stillOpen).mpr (Or.inr earlierMem)) later laterMem
    · intro fin
      exact two.noSend ((one.fin stillOpen).mpr (Or.inr ⟨earlier, earlierMem, fin⟩)) later laterMem
  · intro sentFin action member
    rcases List.mem_append.mp member with early | late
    · exact one.noSend sentFin action early
    · exact two.noSend ((one.fin stillOpen).mpr (Or.inl sentFin)) action late
  · intro peerFin action member
    rcases List.mem_append.mp member with early | late
    · exact one.noDeliver peerFin action early
    · exact two.noDeliver ((one.peer stillOpen).mpr (Or.inl peerFin)) action late
  · intro _
    rw [two.fin notClosing, one.fin stillOpen, or_assoc]
    simp only [List.mem_append, or_and_right, exists_or]
  · intro _
    rw [two.peer notClosing, one.peer stillOpen, or_assoc, List.mem_append]

/-- Completing the handshake takes what came with the SYN. -/
theorem established_effect (sound : tcb.Sound) (opening : tcb.state = .synReceived)
    (delayed : Bool) :
    StepEffect tcb (handedUp tcb.pendingInitial) (tcb.established delayed) := by
  refine ⟨established_sound sound opening delayed, ⟨tcb.flightSize, le_rfl, ?_⟩,
    fun _ => ⟨_, sound.pendingFits opening, rfl⟩, handedUp_ordered _, ?_, ?_, ?_, ?_, ?_⟩
  · exact (advance_distanceFrom _ _).symm
  · intro _ action member
    exact (mem_handedUp member).2.2
  · intro closed
    rw [opening] at closed
    cases closed
  · intro _
    rw [or_iff_left (handedUp_noFin _), opening]
    change (if tcb.pendingInitialFin then TcpState.closeWait else .established).sentFin = true ↔ _
    split_ifs <;> rfl
  · intro _
    rw [peerHalfClosed_mem_handedUp, opening]
    change (if tcb.pendingInitialFin then TcpState.closeWait else .established).peerFin = true ↔
      _ ∨ tcb.pendingInitialFin = true
    cases tcb.pendingInitialFin <;> simp [TcpState.peerFin]
  · intro closed
    change (if tcb.pendingInitialFin then TcpState.closeWait else .established) = _ at closed
    split_ifs at closed

theorem SegmentOutcome.effect (sound : tcb.Sound) (opened : tcb.state ≠ .closed)
    (opening : tcb.state ≠ .synSent) (windowInRange : segment.window ≤ maxWindow)
    (outcome : SegmentOutcome tcb segment result) :
    StepEffect tcb (essentials (performed result.1)) result.2 := by
  cases outcome with
  | idle unchanged =>
    obtain ⟨delayed, actions, rfl, none⟩ := unchanged
    rw [performed_ok, none]
    exact .quiet (sound.delayed delayed) rfl rfl opened (Or.inl rfl)
  | reset closed =>
    subst closed
    exact .close sound opened
  | received synchronised taken =>
    have effect := taken.effect sound opening synchronised opened windowInRange
    obtain ⟨_, _, _, _, _, actions, rfl, _, handed⟩ := taken
    rw [performed_ok, handed]
    exact effect
  | completed handshake final delayed next =>
    have first := established_effect sound handshake delayed
    have effective : (tcb.effectiveSegment segment).window = segment.window := by
      unfold effectiveSegment simultaneousOpenCompletion
      split_ifs <;> rfl
    have middleOpen : (tcb.established delayed).state ≠ .closed :=
      established_state_ne (by decide)
    have middleSent : (tcb.established delayed).state ≠ .synSent :=
      established_state_ne (by decide)
    rcases next with ⟨delayed', actions, rfl, handed⟩ | taken
    · rw [performed_ok, handed, ← List.append_nil (handedUp _)]
      exact first.trans
        (.quiet (first.sound.delayed delayed') rfl rfl middleOpen (Or.inl rfl))
        opening middleSent middleOpen middleOpen rfl rfl
    · have second := taken.effect first.sound middleSent
        (established_state_ne (by decide)) middleOpen (effective.le.trans windowInRange)
      have notClosing : result.2.state ≠ .closed := by
        intro closed
        exact established_state_ne (by decide) (taken.closed middleOpen closed)
      obtain ⟨_, _, _, _, _, actions, rfl, _, handed⟩ := taken
      rw [performed_ok, handed]
      exact first.trans second opening middleSent middleOpen notClosing rfl rfl

/-! ### Answers to our SYN -/

section

variable (sound : tcb.Sound) (opening : tcb.state = .synSent)
  (windowInRange : segment.window ≤ maxWindow)

include sound opening windowInRange

theorem onSynSentSyn_effect (acknowledged : Bool) :
    StepEffect tcb (essentials (tcb.onSynSentSyn segment acknowledged).1)
      (tcb.onSynSentSyn segment acknowledged).2 := by
  have notPending := sound.noPending (by rw [opening]; exact TcpState.noConfusion)
    (by rw [opening]; exact TcpState.noConfusion)
  have fresh := sound.fresh opening
  have flight : tcb.flightSize = 1 := by
    have allowed := sound.flight
    rwa [opening] at allowed
  have bounded := advertisableReceiveCapacity_le_maxWindow tcb.recvCapacity tcb.receiveWindowScale
  have window (start : SeqNumber) : distanceFrom (advance start
      (advertisableReceiveCapacity tcb.recvCapacity tcb.receiveWindowScale)) start =
        advertisableReceiveCapacity tcb.recvCapacity tcb.receiveWindowScale :=
    distanceFrom_advance start (bounded.trans_lt (by decide))
  have credit (start : SeqNumber) : distanceFrom (advance start
      (advertisableReceiveCapacity tcb.recvCapacity tcb.receiveWindowScale)) start +
        tcb.recvBuffered ≤ tcb.recvCapacity := by
    rw [window, fresh]
    exact advertisableReceiveCapacity_le _ _
  cases acknowledged with
  | true =>
    refine .opening ⟨windowInRange, ?_, (window _).le.trans bounded, credit _, ?_,
      fun _ _ => notPending, ?_⟩ opening (Or.inl rfl)
      ⟨tcb.flightSize, le_rfl, (advance_distanceFrom _ _).symm⟩
    · change distanceFrom tcb.sendNext tcb.sendNext ≤ maxWindow
      rw [distanceFrom_self]
      exact Nat.zero_le _
    · exact nofun
    · exact nofun
  | false =>
    refine .opening ⟨windowInRange, flight, (window _).le.trans bounded, credit _, ?_, ?_, ?_⟩
      opening (Or.inr rfl) ⟨0, Nat.zero_le _, (advance_zero _).symm⟩
    · intro _
      change tcb.pendingInitialPayloadLen + tcb.pendingInitialFin.toNat ≤ _
      rw [notPending.1, notPending.2]
      exact Nat.zero_le _
    · intro other
      exact absurd rfl other
    · exact nofun

theorem onSynSentSegment_effect : StepEffect tcb (essentials (tcb.onSynSentSegment segment).1)
      (tcb.onSynSentSegment segment).2 := by
  have opened : tcb.state ≠ .closed := by
    rw [opening]
    exact TcpState.noConfusion
  have ignored : StepEffect tcb [] tcb :=
    .quiet sound rfl rfl opened (Or.inl rfl)
  have acknowledged (answered : Bool) :
      StepEffect tcb (essentials (tcb.onSynSentAcknowledged segment answered).1)
        (tcb.onSynSentAcknowledged segment answered).2 := by
    unfold onSynSentAcknowledged onSynSentReset
    split_ifs
    · exact .close sound opened
    · exact ignored
    · exact ignored
    · exact onSynSentSyn_effect sound opening windowInRange answered
  unfold onSynSentSegment
  by_cases carriesAck : segment.flags.ack = true
  · rw [if_pos carriesAck]
    cases segment.acknowledgment with
    | none => exact ignored
    | some acknowledgment =>
      dsimp only
      split_ifs
      · exact acknowledged true
      · exact ignored
      · exact ignored
  · rw [if_neg carriesAck]
    exact acknowledged false

end

/-! ### Application events -/

theorem offerWindow_tcb (tcb : TcpTcb) : ∃ edge delayed, tcb.offerWindow.2 =
        { tcb with advertisedRightEdge := edge, delayedAckPending := delayed } ∧
      (edge = tcb.advertisedRightEdge ∨
        (edge = tcb.windowCandidate ∧ after tcb.windowCandidate tcb.advertisedRightEdge = true)) ∧
      essentials tcb.offerWindow.1 = [] := by
  unfold offerWindow
  split_ifs with grown
  · exact ⟨_, _, answer_tcb _ .send, Or.inr ⟨rfl, grown.1⟩, forceAck_essentials _⟩
  · exact ⟨_, _, rfl, Or.inl rfl, rfl⟩

/-- A window that is offered is larger than the one before. -/
theorem windowCandidate_forward (sound : tcb.Sound)
    (later : after tcb.windowCandidate tcb.advertisedRightEdge = true) :
    tcb.receiveWindow < distanceFrom tcb.windowCandidate tcb.recvNext ∧
      distanceFrom tcb.windowCandidate tcb.recvNext =
        advertisableReceiveCapacity tcb.receiveAvailable tcb.receiveWindowScale := by
  have shortWindow := sound.shortWindow
  have bounded := advertisableReceiveCapacity_le_maxWindow tcb.receiveAvailable
    tcb.receiveWindowScale
  have window : distanceFrom tcb.windowCandidate tcb.recvNext =
      advertisableReceiveCapacity tcb.receiveAvailable tcb.receiveWindowScale :=
    distanceFrom_advance _ (bounded.trans_lt (by decide))
  have edge : advance tcb.recvNext tcb.receiveWindow = tcb.advertisedRightEdge :=
    advance_distanceFrom _ _
  rw [after, ← edge] at later
  refine ⟨?_, window⟩
  rw [window]
  exact (before_advance_iff (by decide) tcb.recvNext
    (by unfold maxWindow at bounded; omega) (by omega)).mp later

/-- The right edge never promises more than is free. -/
theorem offerWindow_sound (sound : tcb.Sound) : tcb.offerWindow.2.Sound := by
  obtain ⟨edge, delayed, result, origin, _⟩ := tcb.offerWindow_tcb
  rw [result]
  rcases origin with rfl | ⟨rfl, later⟩
  · exact sound.delayed delayed
  · have available := advertisableReceiveCapacity_le tcb.receiveAvailable tcb.receiveWindowScale
    have bounded := advertisableReceiveCapacity_le_maxWindow tcb.receiveAvailable
      tcb.receiveWindowScale
    obtain ⟨forward, window⟩ := windowCandidate_forward sound later
    refine ⟨sound.window, sound.flight, window.le.trans bounded, ?_, ?_, sound.noPending,
      sound.fresh⟩
    · change distanceFrom tcb.windowCandidate tcb.recvNext + tcb.recvBuffered ≤ tcb.recvCapacity
      have free : tcb.receiveAvailable = tcb.recvCapacity - tcb.recvBuffered := rfl
      omega
    · intro opening
      exact (sound.pendingFits opening).trans forward.le

theorem Sound.consume (sound : tcb.Sound) (amount : Nat) :
    ({ tcb with recvBuffered := tcb.recvBuffered - amount } : TcpTcb).Sound := by
  have credit := sound.credit
  refine ⟨sound.window, sound.flight, sound.edge, ?_, sound.pendingFits, sound.noPending, ?_⟩
  · change tcb.receiveWindow + (tcb.recvBuffered - amount) ≤ tcb.recvCapacity
    omega
  · intro opening
    rw [sound.fresh opening, Nat.zero_sub]

theorem onConsumed_effect (sound : tcb.Sound) (opened : tcb.state ≠ .closed) (amount : Nat) :
    StepEffect tcb (essentials (performed (tcb.onConsumed amount).1)) (tcb.onConsumed amount).2 := by
  unfold onConsumed
  split_ifs with beyond
  · exact .quiet sound rfl rfl opened (Or.inl rfl)
  · obtain ⟨edge, delayed, result, _, quiet⟩ :=
      offerWindow_tcb { tcb with recvBuffered := tcb.recvBuffered - amount }
    have offered := offerWindow_sound (sound.consume amount)
    rw [performed_ok, quiet]
    rw [result] at offered ⊢
    exact .quiet offered rfl rfl opened (Or.inl rfl)

theorem sendData_spec (tcb : TcpTcb) (amount : Nat) :
    (tcb.sendData amount).2 =
        { tcb with sendNext := advance tcb.sendNext amount, delayedAckPending := false } ∧
      ∃ control, essentials (tcb.sendData amount).1 = [.sendPayload control] ∧
        control.sequence = tcb.sendNext := by
  refine ⟨cancelDelayedAck_tcb _,
    (tcb.sendData amount).2.control .ackOnly tcb.sendNext, ?_, rfl⟩
  unfold sendData
  rw [essentials_append, essentials_append, cancelDelayedAck_essentials]
  split_ifs <;> rfl

/-- Sending needs an open connection and room in the peer's window. -/
theorem onSend_cases (tcb : TcpTcb) (amount : Nat) :
    (∃ result, tcb.onSend amount = (result, tcb) ∧ performed result = []) ∨
    ((tcb.state = .established ∨ tcb.state = .closeWait) ∧ 0 < amount ∧ amount ≤ tcb.sendAvailable ∧
      tcb.onSend amount = (.ok (tcb.sendData amount).1, (tcb.sendData amount).2)) := by
  unfold onSend
  split_ifs with wrongState full nothing
  · exact Or.inl ⟨_, rfl, rfl⟩
  · exact Or.inl ⟨_, rfl, rfl⟩
  · exact Or.inl ⟨_, rfl, rfl⟩
  · exact Or.inr ⟨by tauto, Nat.pos_of_ne_zero nothing, by omega, rfl⟩

theorem flightSize_sent (tcb : TcpTcb) {amount : Nat} (bounded : tcb.flightSize + amount < 2 ^ 32) :
    distanceFrom (advance tcb.sendNext amount) tcb.sendUnacked = tcb.flightSize + amount := by
  have next : tcb.sendNext = advance tcb.sendUnacked tcb.flightSize :=
    (advance_distanceFrom _ _).symm
  rw [next, advance_advance]
  exact distanceFrom_advance _ bounded

theorem sendAvailable_le (tcb : TcpTcb) : tcb.sendAvailable ≤ tcb.peerWindow - tcb.flightSize :=
  Nat.sub_le_sub_right (min_le_left _ _) _

theorem sendData_sound (sound : tcb.Sound)
    (ready : tcb.state = .established ∨ tcb.state = .closeWait) {amount : Nat}
    (positive : 0 < amount) (room : amount ≤ tcb.sendAvailable) :
    (tcb.sendData amount).2.Sound := by
  have available := tcb.sendAvailable_le
  have window := sound.window
  have bounded : tcb.flightSize + amount ≤ maxWindow := by omega
  have flight := tcb.flightSize_sent (bounded.trans_lt (by decide))
  rw [(tcb.sendData_spec amount).1]
  refine ⟨sound.window, ?_, sound.edge, sound.credit, sound.pendingFits, sound.noPending,
    sound.fresh⟩
  change tcb.state.FlightAllowed (distanceFrom (advance tcb.sendNext amount) tcb.sendUnacked)
  rw [flight]
  rcases ready with state | state <;>
  · rw [state]
    exact bounded

theorem onSend_effect (sound : tcb.Sound) (opened : tcb.state ≠ .closed) (amount : Nat) :
    StepEffect tcb (essentials (performed (tcb.onSend amount).1)) (tcb.onSend amount).2 := by
  rcases tcb.onSend_cases amount with ⟨result, refused, none⟩ | ⟨ready, positive, room, sent⟩
  · rw [refused, none]
    exact .quiet sound rfl rfl opened (Or.inl rfl)
  · obtain ⟨tcbEq, control, data, _⟩ := tcb.sendData_spec amount
    have sentSound := sendData_sound sound ready positive room
    rw [sent, performed_ok, data]
    rw [tcbEq] at sentSound ⊢
    have unsent : tcb.state.sentFin = false := by
      rcases ready with state | state <;> rw [state] <;> rfl
    refine .single sentSound rfl rfl opened TcpAction.noConfusion rfl ?_ (by simp [isFin]) rfl
    intro sentFin
    rw [unsent] at sentFin
    cases sentFin

theorem sendFin_effect (sound : tcb.Sound) {state : TcpState}
    (closing : (tcb.state = .established ∧ state = .finWait1) ∨
      (tcb.state = .closeWait ∧ state = .lastAck)) :
    StepEffect tcb (essentials (tcb.sendFin state).1) (tcb.sendFin state).2 := by
  have allowed := sound.flight
  rcases closing with ⟨before, rfl⟩ | ⟨before, rfl⟩ <;>
  · rw [before] at allowed
    refine .single ⟨sound.window, ?_, sound.edge, sound.credit, nofun,
      fun _ _ => sound.noPending ?_ ?_, nofun⟩ rfl rfl nofun nofun rfl (fun _ => rfl) ?_ ?_
    · change TcpState.FlightAllowed _ (distanceFrom (advance tcb.sendNext 1) tcb.sendUnacked)
      rw [tcb.flightSize_sent ((Nat.succ_le_succ allowed).trans_lt (by decide))]
      exact ⟨Nat.le_add_left _ _, Nat.succ_le_succ allowed⟩
    · rw [before]
      exact nofun
    · rw [before]
      exact nofun
    · simp [sendFin, TcpState.sentFin, isFin, control, TcpFlags.finAck]
    · rw [before]
      rfl

theorem startClose_effect (sound : tcb.Sound) (opened : tcb.state ≠ .closed) :
    StepEffect tcb (essentials tcb.startClose.1) tcb.startClose.2 := by
  unfold startClose
  cases state : tcb.state with
  | established => exact sendFin_effect sound (Or.inl ⟨state, rfl⟩)
  | closeWait => exact sendFin_effect sound (Or.inr ⟨state, rfl⟩)
  | _ => exact .quiet sound rfl rfl opened (Or.inl rfl)

/-- A delayed acknowledgment plays no part in an effect. -/
theorem StepEffect.of_delayed {essential : List TcpAction} {delayed : Bool}
    (effect : StepEffect { tcb with delayedAckPending := delayed } essential next) :
    StepEffect tcb essential next :=
  ⟨effect.sound, effect.unacked, effect.received, effect.ordered, effect.noSend,
    effect.noDeliver, effect.fin, effect.peer, effect.closing⟩

theorem onAppEvent_effect (sound : tcb.Sound) (opened : tcb.state ≠ .closed) (event : AppEvent) :
    StepEffect tcb (essentials (performed (tcb.onAppEvent event).1)) (tcb.onAppEvent event).2 := by
  unfold onAppEvent
  rw [if_neg opened]
  cases event with
  | consumed amount => exact onConsumed_effect sound opened amount
  | send amount => exact onSend_effect sound opened amount
  | close =>
    dsimp only
    split_ifs
    · exact .close sound opened
    · rw [performed_ok, essentials_append, cancelDelayedAck_essentials, List.nil_append,
        cancelDelayedAck_tcb]
      exact (startClose_effect (sound.delayed false) opened).of_delayed
  | abort =>
    split_ifs
    · exact .close sound opened
    · rw [performed_ok, essentials_append, cancelDelayedAck_essentials, cancelDelayedAck_tcb]
      exact .close sound opened

/-! ### Timers -/

theorem retransmission_essentials {action : TcpAction} (again : tcb.retransmission = some action) :
    essentials [action] = [] ∨
      (tcb.state.sentFin = true ∧
        ∃ control, action = .send control ∧ control.flags.fin = true) := by
  unfold retransmission at again
  cases state : tcb.state <;> simp only [state] at again
  case synSent | synReceived | established | closeWait =>
    cases again
    exact Or.inl rfl
  case finWait2 | timeWait | closed => cases again
  all_goals
    split_ifs at again
    · cases again
      exact Or.inl rfl
    · cases again
      exact Or.inr ⟨rfl, _, rfl, rfl⟩

/-- Sending our FIN again changes nothing. -/
theorem resentFin_effect (sound : next.Sound) (opened : tcb.state ≠ .closed)
    {control : SendControl} (sentFin : next.state.sentFin = true) (fin : control.flags.fin = true)
    (unchanged : next.sendUnacked = tcb.sendUnacked ∧ next.recvNext = tcb.recvNext ∧
      next.state = tcb.state) :
    StepEffect tcb (essentials [.send control]) next := by
  obtain ⟨unacked, received, state⟩ := unchanged
  have essential : essentials [.send control] = [.send control] := by
    simp [TcpAction.essential, fin]
  rw [essential]
  refine .single sound unacked received (state ▸ opened) TcpAction.noConfusion rfl
    (fun _ => rfl) ?_ (by rw [state])
  simp [isFin, fin, sentFin]

theorem onTimer_effect (sound : tcb.Sound) (opened : tcb.state ≠ .closed) (event : TimerEvent) :
    StepEffect tcb (essentials (performed (tcb.onTimer event).1)) (tcb.onTimer event).2 := by
  have ignored : StepEffect tcb [] tcb := .quiet sound rfl rfl opened (Or.inl rfl)
  unfold onTimer
  rw [if_neg opened]
  cases event with
  | retransmission =>
    dsimp only
    split_ifs
    · exact ignored
    · let slowed : TcpTcb :=
        { tcb with
          congestion := tcb.congestion.onTimeout tcb.flightSize
          rto := tcb.rto.backoff }
      have sound' : slowed.Sound :=
        ⟨sound.window, sound.flight, sound.edge, sound.credit, sound.pendingFits,
          sound.noPending, sound.fresh⟩
      cases again : slowed.retransmission with
      | none => exact .quiet sound' rfl rfl opened (Or.inl rfl)
      | some action =>
        have pair : essentials [action, .armRetransmission slowed.rto.rtoMs] =
            essentials [action] :=
          (essentials_append [action] [_]).trans (List.append_nil _)
        rw [performed_ok, pair]
        rcases retransmission_essentials again with
          quiet | ⟨sentFin, control, rfl, fin⟩
        · rw [quiet]
          exact .quiet sound' rfl rfl opened (Or.inl rfl)
        · exact resentFin_effect sound' opened sentFin fin ⟨rfl, rfl, rfl⟩
  | delayedAck =>
    dsimp only
    split_ifs
    · exact .quiet (sound.delayed false) rfl rfl opened (Or.inl rfl)
    · exact ignored
  | timeWaitExpired =>
    dsimp only
    split_ifs
    · exact .close sound opened
    · exact ignored
  | _ => exact ignored

/-- One description for all events. -/
theorem onEvent_effect (sound : tcb.Sound) (opened : tcb.state ≠ .closed) (event : Event)
    (inRange : event.WindowInRange) :
    StepEffect tcb (essentials (performed (tcb.onEvent event).1)) (tcb.onEvent event).2 := by
  cases event with
  | segment arrived =>
    by_cases opening : tcb.state = .synSent
    · have effect := onSynSentSegment_effect sound opening inRange
      simp only [onEvent, onSegment, if_neg opened, if_pos opening]
      exact effect
    · exact (onSegment_outcome sound opened opening arrived).effect sound opened opening inRange
  | app event => exact onAppEvent_effect sound opened event
  | timer event => exact onTimer_effect sound opened event

theorem onEvent_closed (closed : tcb.state = .closed) (event : Event) :
    tcb.onEvent event = (.error .closed, tcb) := by
  cases event <;> simp only [onEvent, onSegment, onAppEvent, onTimer, if_pos closed]

end TcpTcb

end Sail.Netstack
