/-
The retransmission timer of the control block.

The timer is not part of the control block: it is what its actions leave behind
when they are carried out one after the other. It runs exactly while something
sent has not been acknowledged.
-/

import Sail.Netstack.Tcp.TcbRuns

namespace Sail.Netstack

open SerialNumber

variable (tcb : TcpTcb)

/-- The retransmission timer once an action has been carried out. -/
def TcpAction.timer (armed : Bool) : TcpAction → Bool
  | .armRetransmission _ => true
  | .disarmRetransmission => false
  | _ => armed

def replay (armed : Bool) (actions : List TcpAction) : Bool :=
  actions.foldl TcpAction.timer armed

@[simp] theorem replay_nil (armed : Bool) : replay armed [] = armed := rfl

@[simp] theorem replay_cons (armed : Bool) (action : TcpAction) (actions : List TcpAction) :
    replay armed (action :: actions) = replay (action.timer armed) actions := rfl

@[simp] theorem replay_append (armed : Bool) (first second : List TcpAction) :
    replay armed (first ++ second) = replay (replay armed first) second :=
  List.foldl_append

namespace TcpTcb

def outstanding (tcb : TcpTcb) : Bool :=
  tcb.sendUnacked ≠ tcb.sendNext

/-- The timer that ran while something was outstanding runs afterwards exactly
if something is; it is of no use to a closed connection. -/
def Timely (armed : Bool) (result : Except TcpError (List TcpAction) × TcpTcb) : Prop :=
  result.2.state = .closed ∨ replay armed (performed result.1) = result.2.outstanding

variable {tcb : TcpTcb} {armed : Bool} {segment : TcpSegmentMeta}

theorem outstanding_of_flight (positive : 0 < tcb.flightSize) : tcb.outstanding = true := by
  simp only [outstanding, ne_eq, decide_not, Bool.not_eq_true', decide_eq_false_iff_not]
  intro acknowledged
  have empty := (TcbRun.unacked_eq_next_iff tcb).mp acknowledged
  omega

theorem Sound.outstanding_opening (sound : tcb.Sound)
    (opening : tcb.state = .synSent ∨ tcb.state = .synReceived) :
    tcb.outstanding = true := by
  have flight := sound.flight
  apply outstanding_of_flight
  rcases opening with state | state <;> simp_all [TcpState.FlightAllowed]

/-! ### Steps that leave the timer alone -/

@[simp] theorem replay_cancelDelayedAck : replay armed tcb.cancelDelayedAck.1 = armed := by
  unfold cancelDelayedAck
  cases tcb.delayedAckPending <;> rfl

@[simp] theorem replay_answer_send : replay armed (tcb.answer .send).1 = armed := by
  simp [answer, TcpAction.timer]

@[simp] theorem replay_rejected : replay armed tcb.rejectUnacceptableSegment.1 = armed := by
  simp [rejectUnacceptableSegment, answer, TcpAction.timer]

@[simp] theorem replay_acceptFin : replay armed tcb.acceptFin.1 = armed := by
  simp only [acceptFin, onPeerFin, replay_append, replay_answer_send]
  cases tcb.state with
  | finWait1 =>
    simp only
    split_ifs <;> rfl
  | _ => rfl

@[simp] theorem outstanding_rejected :
    tcb.rejectUnacceptableSegment.2.outstanding = tcb.outstanding := by
  rw [rejectUnacceptableSegment, answer_tcb]
  rfl

theorem replay_takeInOrder (segment : TcpSegmentMeta) :
    replay armed (performed (tcb.takeInOrder segment).1) = armed := by
  unfold takeInOrder
  split_ifs <;> simp only [performed_ok, replay_append, replay_acceptFin]
  any_goals rfl
  split_ifs <;> rfl

theorem replay_takePayload (armed : Bool) (tcb : TcpTcb) (segment : TcpSegmentMeta)
    (beyondWindow : Bool) :
    replay armed (performed (tcb.takePayload segment beyondWindow).1) = armed := by
  unfold takePayload
  split_ifs <;> simp [replay_takeInOrder]

/-! ### Acknowledgments -/

theorem replay_takeAck (acknowledgment : SeqNumber) (unchangedWindow carriedData : Bool) :
    replay tcb.outstanding (tcb.takeAck acknowledgment unchangedWindow carriedData).1 =
      (tcb.takeAck acknowledgment unchangedWindow carriedData).2.outstanding := by
  unfold takeAck
  split_ifs with newer duplicate
  · simp only [replay_append, outstanding]
    split_ifs with more <;> simp_all [TcpAction.timer]
  · dsimp only
    split_ifs <;> rfl
  · rfl

theorem replay_processAck (segment : TcpSegmentMeta) (oldPeerWindow : Nat) (carriedData : Bool) :
    replay tcb.outstanding (tcb.processAck segment oldPeerWindow carriedData).1 =
      (tcb.processAck segment oldPeerWindow carriedData).2.outstanding := by
  have finished (tcb : TcpTcb) (acknowledgment : SeqNumber) :
      replay tcb.outstanding (tcb.finishAck acknowledgment).1 =
        (tcb.finishAck acknowledgment).2.outstanding := by
    rw [finishAck_tcb, finishAck]
    split_ifs
    · cases tcb.state <;> rfl
    · rfl
  unfold processAck
  cases segment.acknowledgment with
  | none => rfl
  | some acknowledgment =>
    simp only [replay_append, replay_takeAck, finished]

theorem replay_receiveSegment (sound : tcb.Sound) (opened : tcb.state ≠ .closed)
    (segment : TcpSegmentMeta) :
    ∃ actions, (tcb.receiveSegment segment).1 = .ok actions ∧
      replay tcb.outstanding actions = (tcb.receiveSegment segment).2.outstanding := by
  obtain ⟨window, lastSeq, lastAck, congestion, delayed, actions, result, _, _⟩ :=
    receiveSegment_spec sound opened segment
  obtain ⟨_, _, _, windowed, _⟩ :=
    tcb.updateSendWindow_tcb (tcb.trimInOrderSegmentToReceiveWindow segment)
  obtain ⟨_, _, _, _, acked, _⟩ := tcb.takeSegmentAck_tcb segment
  have replayed : replay tcb.outstanding (tcb.takeSegmentAck segment).1 =
      (tcb.takeSegmentAck segment).2.outstanding := by
    have processed := (tcb.updateSendWindow
      (tcb.trimInOrderSegmentToReceiveWindow segment)).replay_processAck
        (tcb.windowedSegment segment) tcb.peerWindow (0 < segment.payloadLen)
    rw [windowed] at processed
    rw [takeSegmentAck, windowed]
    exact processed
  refine ⟨actions, by rw [result], ?_⟩
  have taken := congrArg Prod.fst result
  simp only [receiveSegment] at taken
  cases rest : ((tcb.takeSegmentAck segment).2.takePayload (tcb.windowedSegment segment)
      (tcb.beyondReceiveWindow segment)).1 with
  | error _ =>
    rw [rest] at taken
    cases taken
  | ok actions' =>
    rw [rest] at taken
    cases taken
    have quiet := replay_takePayload (tcb.takeSegmentAck segment).2.outstanding
      (tcb.takeSegmentAck segment).2 (tcb.windowedSegment segment)
      (tcb.beyondReceiveWindow segment)
    rw [rest, performed_ok] at quiet
    rw [replay_append, replayed, quiet, result, acked]
    rfl

/-! ### Segments -/

theorem replay_enterEstablished (armed : Bool) (tcb : TcpTcb) :
    replay armed tcb.enterEstablished.1 = tcb.enterEstablished.2.outstanding := by
  obtain ⟨delayed, actions, result, _⟩ := tcb.enterEstablished_spec
  have acknowledged : tcb.enterEstablished.2.outstanding = false := by
    rw [result]
    simp [outstanding, received, TcpTcb.opened]
  rw [acknowledged]
  unfold enterEstablished
  by_cases data : 0 < tcb.pendingInitialPayloadLen
  · cases fin : tcb.pendingInitialFin <;> simp [data, TcpAction.timer]
  · cases fin : tcb.pendingInitialFin <;> simp [data, TcpAction.timer]

/-- What a synchronised connection does with a segment, after a handshake it may
have completed. -/
theorem replay_onSynchronizedSegment (sound : tcb.Sound) (opened : tcb.state ≠ .closed)
    {done : List TcpAction} (before : replay armed done = tcb.outstanding)
    (kept : done = [] ∨ (segment.flags.syn = false ∧ segment.flags.ack = true)) :
    replay armed (performed (tcb.onSynchronizedSegment segment done).1) =
      (tcb.onSynchronizedSegment segment done).2.outstanding := by
  unfold onSynchronizedSegment
  split_ifs with refused syn noAck future
  · simp [before]
  · rcases kept with rfl | ⟨plain, _⟩
    · exact before
    · simp [plain] at syn
  · rcases kept with rfl | ⟨_, carries⟩
    · exact before
    · simp [carries] at noAck
  · simp [before, TcpAction.timer]
  · obtain ⟨actions, result, replayed⟩ := replay_receiveSegment sound opened segment
    simp only [result, Except.map, performed_ok, replay_append, before, replayed]

theorem onSynSentSegment_timely (sound : tcb.Sound) (opening : tcb.state = .synSent)
    (segment : TcpSegmentMeta) :
    Timely tcb.outstanding
      (.ok (tcb.onSynSentSegment segment).1, (tcb.onSynSentSegment segment).2) := by
  have sent := sound.outstanding_opening (Or.inl opening)
  have acknowledged (answered : Bool) :
      Timely tcb.outstanding (.ok (tcb.onSynSentAcknowledged segment answered).1,
        (tcb.onSynSentAcknowledged segment answered).2) := by
    unfold onSynSentAcknowledged onSynSentReset onSynSentSyn
    split_ifs
    · exact Or.inl rfl
    · exact Or.inr rfl
    · exact Or.inr rfl
    · exact Or.inr (by simp [TcpAction.timer, outstanding])
    · exact Or.inr sent.symm
  unfold onSynSentSegment
  by_cases carriesAck : segment.flags.ack = true
  · rw [if_pos carriesAck]
    cases segment.acknowledgment with
    | none => exact Or.inr rfl
    | some acknowledgment =>
      dsimp only
      split_ifs
      · exact acknowledged true
      · exact Or.inr rfl
      · exact Or.inr rfl
  · rw [if_neg carriesAck]
    exact acknowledged false

/-- A segment that does not complete the handshake is answered, with the timer
running. -/
theorem completePassiveHandshake_refused (opening : tcb.state = .synReceived)
    (refused : tcb.acceptsFinalAck segment = false) :
    ∃ actions, tcb.completePassiveHandshake segment = (false, actions, tcb) ∧
      replay true actions = true := by
  simp only [completePassiveHandshake, opening, refused, ne_eq, not_true_eq_false, if_false,
    Bool.false_eq_true]
  cases segment.acknowledgment with
  | none => exact ⟨_, rfl, rfl⟩
  | some acknowledgment =>
    dsimp only
    split_ifs <;> exact ⟨_, rfl, rfl⟩

theorem onSegment_timely (sound : tcb.Sound) (opened : tcb.state ≠ .closed)
    (segment : TcpSegmentMeta) :
    Timely tcb.outstanding (tcb.onSegment segment) := by
  unfold onSegment
  rw [if_neg opened]
  by_cases opening : tcb.state = .synSent
  · rw [if_pos opening]
    exact onSynSentSegment_timely sound opening segment
  · rw [if_neg opening]
    by_cases reset : (tcb.effectiveSegment segment).flags.rst = true
    · rw [if_pos reset, onReset]
      split_ifs
      · exact Or.inl rfl
      · exact Or.inr rfl
      · exact Or.inr rfl
    · rw [if_neg reset]
      right
      by_cases handshake : tcb.state = .synReceived
      · have sent := sound.outstanding_opening (Or.inr handshake)
        cases final : tcb.acceptsFinalAck (tcb.effectiveSegment segment) with
        | true =>
          have flags : (tcb.effectiveSegment segment).flags.syn = false ∧
              (tcb.effectiveSegment segment).flags.ack = true := by
            simp only [acceptsFinalAck, Bool.and_eq_true, Bool.not_eq_true'] at final
            exact ⟨final.1.1.2, final.1.1.1.1.2⟩
          obtain ⟨delayed, actions, established, _⟩ := tcb.enterEstablished_spec
          have replayed := tcb.replay_enterEstablished tcb.outstanding
          simp only [completePassiveHandshake, handshake, ne_eq, not_true_eq_false, if_false,
            final, if_true]
          rw [established] at replayed ⊢
          apply replay_onSynchronizedSegment (established_sound sound handshake delayed) _
            replayed (Or.inr flags)
          simp only [received, TcpTcb.opened, finState]
          split_ifs <;> exact TcpState.noConfusion
        | false =>
          obtain ⟨actions, answered, replayed⟩ :=
            completePassiveHandshake_refused handshake final
          rw [answered, sent]
          exact replayed.trans sent.symm
      · rw [completePassiveHandshake, if_pos handshake, if_pos rfl]
        exact replay_onSynchronizedSegment sound opened rfl (Or.inl rfl)

/-! ### Application and timers -/

theorem replay_onSend (sound : tcb.Sound) (amount : Nat) :
    replay tcb.outstanding (performed (tcb.onSend amount).1) =
      (tcb.onSend amount).2.outstanding := by
  rcases tcb.onSend_cases amount with ⟨result, refused, none⟩ | ⟨_, positive, room, sent⟩
  · rw [refused, none]
    rfl
  · have available := tcb.sendAvailable_le
    have window := sound.window
    have short : tcb.flightSize + amount < 2 ^ 32 := by
      unfold maxWindow at window
      omega
    have flight := tcb.flightSize_sent short
    have after : (tcb.sendData amount).2.outstanding = true := by
      apply outstanding_of_flight
      rw [(tcb.sendData_spec amount).1]
      change 0 < distanceFrom (advance tcb.sendNext amount) tcb.sendUnacked
      omega
    rw [sent, after, performed_ok, sendData]
    simp only [replay_append, replay_cancelDelayedAck]
    split_ifs with nothing
    · rfl
    · exact decide_eq_true nothing

theorem replay_startClose (sound : tcb.Sound) :
    replay tcb.outstanding tcb.startClose.1 = tcb.startClose.2.outstanding := by
  have sent (state : TcpState) : (tcb.sendFin state).2.outstanding = true := by
    have short := sound.shortFlight
    have bounded : tcb.flightSize + 1 < 2 ^ 32 := by omega
    have flight := tcb.flightSize_sent bounded
    apply outstanding_of_flight
    change 0 < distanceFrom (advance tcb.sendNext 1) tcb.sendUnacked
    omega
  unfold startClose
  cases tcb.state with
  | established | closeWait => exact (sent _).symm
  | _ => rfl

section

variable (sound : tcb.Sound) (opened : tcb.state ≠ .closed)

include sound opened

theorem onAppEvent_timely (event : AppEvent) : Timely tcb.outstanding (tcb.onAppEvent event) := by
  unfold onAppEvent
  rw [if_neg opened]
  cases event with
  | consumed amount =>
    right
    simp only [onConsumed, offerWindow]
    split_ifs <;> simp [answer_tcb] <;> rfl
  | send amount => exact Or.inr (replay_onSend sound amount)
  | close =>
    dsimp only
    split_ifs
    · exact Or.inl rfl
    · right
      have closed := replay_startClose (sound.delayed false)
      rw [performed_ok, replay_append, replay_cancelDelayedAck, cancelDelayedAck_tcb]
      exact closed
  | abort =>
    left
    split_ifs
    · rfl
    · rw [cancelDelayedAck_tcb]

def Event.expire : Event → Bool → Bool
  | .timer .retransmission, _ => false
  | _, armed => armed

theorem onTimer_timely (event : TimerEvent) :
    Timely ((Event.timer event).expire tcb.outstanding) (tcb.onTimer event) := by
  unfold onTimer
  rw [if_neg opened]
  cases event with
  | retransmission =>
    right
    dsimp only
    split_ifs with nothing
    · simp [Event.expire, outstanding, nothing]
    · have sent : tcb.outstanding = true := decide_eq_true nothing
      have flight := sound.flight
      have rest := mt (TcbRun.unacked_eq_next_iff tcb).mpr nothing
      unfold retransmission
      cases state : tcb.state <;> rw [state] at flight
      case finWait2 | timeWait => exact absurd flight rest
      case closed => exact absurd state opened
      case finWait1 | closing | lastAck =>
        split_ifs <;> exact sent.symm
      all_goals exact sent.symm
  | delayedAck =>
    right
    split_ifs <;> rfl
  | timeWaitExpired =>
    dsimp only
    split_ifs
    · exact Or.inl rfl
    · exact Or.inr rfl
  | _ => exact Or.inr rfl

theorem onEvent_timely (event : Event) :
    Timely (event.expire tcb.outstanding) (tcb.onEvent event) := by
  cases event with
  | segment arrived => exact onSegment_timely sound opened arrived
  | app event => exact onAppEvent_timely sound opened event
  | timer event => exact onTimer_timely sound opened event

end

end TcpTcb

/-! ### Runs -/

/-- A control block and the retransmission timer its actions left behind. -/
structure TimedTcb where
  tcb : TcpTcb
  armed : Bool

namespace TimedTcb

def start (opened : TcpTcb × List TcpAction) : TimedTcb :=
  { tcb := opened.1
    armed := replay false opened.2 }

def step (timed : TimedTcb) (event : TcpTcb.Event) : TimedTcb :=
  let result := timed.tcb.onEvent event
  { tcb := result.2
    armed := replay (event.expire timed.armed) (performed result.1) }

def steps (timed : TimedTcb) (events : List TcpTcb.Event) : TimedTcb :=
  events.foldl step timed

structure Faithful (timed : TimedTcb) : Prop where
  sound : timed.tcb.Sound
  timer : timed.tcb.state ≠ .closed → timed.armed = timed.tcb.outstanding

theorem start_faithful {opened : TcpTcb × List TcpAction} (opens : TcbRun.Opens opened) :
    (start opened).Faithful := by
  refine ⟨opens.coherent.sound, fun _ => ?_⟩
  cases opens with
  | passive windowInRange payloadInRange accepted =>
    obtain ⟨sound, state, _⟩ := TcpTcb.fromSynWithOptions_sound windowInRange
      (payloadInRange.trans (by decide)) accepted
    have sent := sound.outstanding_opening (Or.inr state)
    unfold TcpTcb.fromSynWithOptions at accepted
    split_ifs at accepted
    cases accepted
    exact sent.symm
  | active initialSendSequence reservedReceiveCapacity maximumSegmentSize receiveWindowScale =>
    exact ((TcpTcb.connect_sound _ _ _ _).1.outstanding_opening (Or.inl rfl)).symm

theorem Faithful.step {timed : TimedTcb} (faithful : timed.Faithful) {event : TcpTcb.Event}
    (inRange : event.WindowInRange) :
    (timed.step event).Faithful := by
  by_cases closed : timed.tcb.state = .closed
  · have unchanged := TcpTcb.onEvent_closed closed event
    refine ⟨?_, ?_⟩ <;> simp only [TimedTcb.step, unchanged]
    · exact faithful.sound
    · intro stillOpen
      exact absurd closed stillOpen
  · refine ⟨(TcpTcb.onEvent_effect faithful.sound closed event inRange).sound, ?_⟩
    intro stillOpen
    have replayed := (TcpTcb.onEvent_timely faithful.sound closed event).resolve_left stillOpen
    rw [← faithful.timer closed] at replayed
    exact replayed

/-- The retransmission timer runs exactly while something is unacknowledged. -/
theorem retransmission_armed_iff {opened : TcpTcb × List TcpAction} (opens : TcbRun.Opens opened)
    (events : List TcpTcb.Event) (inRange : ∀ event ∈ events, event.WindowInRange) :
    let timed := (start opened).steps events
    timed.tcb.state ≠ .closed →
      (timed.armed = true ↔ timed.tcb.sendUnacked ≠ timed.tcb.sendNext) := by
  have run : ∀ timed : TimedTcb, timed.Faithful → (timed.steps events).Faithful := by
    induction events with
    | nil => exact fun _ faithful => faithful
    | cons event events ih =>
      intro timed faithful
      apply ih (List.forall_mem_cons.mp inRange).2
      exact faithful.step (inRange event List.mem_cons_self)
  intro timed stillOpen
  have armed := (run _ (start_faithful opens)).timer stillOpen
  rw [armed, TcpTcb.outstanding, decide_eq_true_iff]

/-- Data sent on an accepted connection, its timer expired once, and a FIN. -/
theorem retransmission_armed_iff_closing :
    ∃ opened, TcpTcb.fromSynWithOptions TcbRun.sampleSyn 0 65535 1460 0 = .ok opened ∧
      ((start opened).steps [.segment (TcbRun.sampleFinalAck 65535), .app (.send 100),
        .timer .retransmission, .app .close]).armed = true :=
  ⟨_, rfl,
    (retransmission_armed_iff
      (.passive (by decide : TcbRun.sampleSyn.window ≤ maxWindow) (by decide) rfl)
      [.segment (TcbRun.sampleFinalAck 65535), .app (.send 100), .timer .retransmission,
        .app .close]
      (by simp [TcpTcb.Event.WindowInRange, TcbRun.sampleFinalAck, maxWindow])
      (by decide +kernel)).mpr (by decide +kernel)⟩

/-- A window of all sequence numbers but one lets a FIN bring the next sequence
number around to the oldest unacknowledged one. -/
theorem retransmission_armed_wrapped :
    ∃ opened, TcpTcb.fromSynWithOptions TcbRun.sampleSyn 0 65535 (2 ^ 31) 0 = .ok opened ∧
      let timed := (start opened).steps [.segment (TcbRun.sampleFinalAck (2 ^ 32 - 1)),
        .app (.send (2 ^ 32 - 1)), .app .close]
      timed.tcb.state = .finWait1 ∧ timed.armed = true ∧
        timed.tcb.sendUnacked = timed.tcb.sendNext :=
  ⟨_, rfl, by decide +kernel⟩

end TimedTcb

end Sail.Netstack
