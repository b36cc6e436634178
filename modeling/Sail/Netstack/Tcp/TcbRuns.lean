/-
Runs of the control block.

Segments, application events and timers are fed to a control block one after
the other. The name of its state tells exactly which FINs have been sent, taken
and acknowledged along the run, nothing is handed up after the peer's FIN and
nothing is sent after ours.
-/

import Sail.Netstack.Tcp.TcbSteps

namespace Sail.Netstack

open SerialNumber TcpAction

/-- A control block with everything it did so far. A closed one remembers the
state it was closed from. -/
structure TcbRun where
  tcb : TcpTcb
  actions : List TcpAction
  openState : TcpState

namespace TcbRun

def start (opened : TcpTcb × List TcpAction) : TcbRun :=
  { tcb := opened.1
    actions := opened.2
    openState := opened.1.state }

def step (run : TcbRun) (event : TcpTcb.Event) : TcbRun :=
  let result := run.tcb.onEvent event
  { tcb := result.2
    actions := run.actions ++ performed result.1
    openState := if result.2.state = .closed then run.openState else result.2.state }

def steps (run : TcbRun) (events : List TcpTcb.Event) : TcbRun :=
  events.foldl step run

def FinSent (run : TcbRun) : Prop :=
  ∃ action ∈ run.actions, action.isFin = true

def PeerFinTaken (run : TcbRun) : Prop :=
  .peerHalfClosed ∈ run.actions

def FinAcknowledged (run : TcbRun) : Prop :=
  run.FinSent ∧ run.tcb.sendUnacked = run.tcb.sendNext

structure Coherent (run : TcbRun) : Prop where
  sound : run.tcb.Sound
  current : run.tcb.state ≠ .closed → run.openState = run.tcb.state
  wasOpen : run.openState ≠ .closed
  fin : run.FinSent ↔ run.openState.sentFin = true
  peer : run.PeerFinTaken ↔ run.openState.peerFin = true
  ordered : run.actions.Pairwise Precedes
  flight : run.openState.FlightAllowed run.tcb.flightSize ∨
    (run.openState = .lastAck ∧ run.tcb.flightSize = 0 ∧ run.tcb.state = .closed)

theorem isFin_mem_essentials {actions : List TcpAction} :
    (∃ action ∈ actions, action.isFin = true) ↔
      ∃ action ∈ essentials actions, action.isFin = true := by
  constructor
  · rintro ⟨action, member, fin⟩
    refine ⟨action, List.mem_filter.mpr ⟨member, ?_⟩, fin⟩
    cases action <;> first | exact fin | cases fin
  · rintro ⟨action, member, fin⟩
    exact ⟨action, (List.mem_filter.mp member).1, fin⟩

theorem peerHalfClosed_mem_essentials {actions : List TcpAction} :
    .peerHalfClosed ∈ actions ↔ .peerHalfClosed ∈ essentials actions := by
  simp [essentials, TcpAction.essential]

/-- A control block right after it was created. -/
theorem start_coherent {opened : TcpTcb × List TcpAction} (sound : opened.1.Sound)
    (opening : opened.1.state = .synSent ∨ opened.1.state = .synReceived)
    (none : essentials opened.2 = []) :
    (start opened).Coherent := by
  have noFin : ¬ (start opened).FinSent := by
    intro fin
    obtain ⟨action, member, _⟩ := isFin_mem_essentials.mp fin
    change action ∈ essentials opened.2 at member
    rw [none] at member
    cases member
  have noPeer : ¬ (start opened).PeerFinTaken := by
    intro peer
    have member := peerHalfClosed_mem_essentials.mp peer
    change _ ∈ essentials opened.2 at member
    rw [none] at member
    cases member
  refine ⟨sound, fun _ => rfl, ?_, iff_of_false noFin ?_, iff_of_false noPeer ?_, ?_,
    Or.inl sound.flight⟩
  · change opened.1.state ≠ _
    rcases opening with state | state <;> rw [state] <;> exact TcpState.noConfusion
  · change ¬ opened.1.state.sentFin = true
    rcases opening with state | state <;> rw [state] <;> exact Bool.false_ne_true
  · change ¬ opened.1.state.peerFin = true
    rcases opening with state | state <;> rw [state] <;> exact Bool.false_ne_true
  · refine (pairwise_precedes_iff _).mpr ?_
    change (essentials opened.2).Pairwise _
    rw [none]
    exact List.Pairwise.nil

variable {run : TcbRun}

theorem step_closed (closed : run.tcb.state = .closed) (event : TcpTcb.Event) :
    run.step event = run := by
  unfold step
  rw [TcpTcb.onEvent_closed closed event]
  simp only [performed_error, List.append_nil, if_pos closed]

/-- One event keeps the run coherent. -/
theorem Coherent.step (coherent : run.Coherent) (event : TcpTcb.Event)
    (inRange : event.WindowInRange) :
    (run.step event).Coherent := by
  by_cases closed : run.tcb.state = .closed
  · rw [step_closed closed event]
    exact coherent
  · have effect := TcpTcb.onEvent_effect coherent.sound closed event inRange
    have current := coherent.current closed
    have finNow : (run.step event).FinSent ↔ run.openState.sentFin = true ∨
        ∃ action ∈ essentials (performed (run.tcb.onEvent event).1), action.isFin = true := by
      rw [← coherent.fin, ← isFin_mem_essentials]
      simp only [FinSent, TcbRun.step, List.mem_append, or_and_right, exists_or]
    have peerNow : (run.step event).PeerFinTaken ↔ run.openState.peerFin = true ∨
        .peerHalfClosed ∈ essentials (performed (run.tcb.onEvent event).1) := by
      rw [← coherent.peer, ← peerHalfClosed_mem_essentials]
      simp only [PeerFinTaken, TcbRun.step, List.mem_append]
    have ordered : (run.step event).actions.Pairwise Precedes := by
      refine (pairwise_precedes_iff _).mpr ?_
      change (essentials (run.actions ++ _)).Pairwise _
      rw [essentials_append]
      refine List.pairwise_append.mpr
        ⟨(pairwise_precedes_iff _).mp coherent.ordered, effect.ordered, ?_⟩
      intro earlier earlierMem later laterMem
      refine ⟨?_, ?_⟩
      · rintro rfl
        have taken := coherent.peer.mp (peerHalfClosed_mem_essentials.mpr earlierMem)
        rw [current] at taken
        exact effect.noDeliver taken later laterMem
      · intro fin
        have sent := coherent.fin.mp (isFin_mem_essentials.mpr ⟨earlier, earlierMem, fin⟩)
        rw [current] at sent
        exact effect.noSend sent later laterMem
    by_cases closing : (run.tcb.onEvent event).2.state = .closed
    · have openState : (run.step event).openState = run.openState := if_pos closing
      obtain ⟨none, flight⟩ := effect.closing closing
      rw [none] at finNow peerNow
      refine ⟨effect.sound, fun stillOpen => absurd closing stillOpen, ?_, ?_, ?_, ordered, ?_⟩
      · rw [openState]
        exact coherent.wasOpen
      · rw [finNow, openState]
        simp
      · rw [peerNow, openState]
        simp
      · rw [openState, current]
        rcases flight with allowed | ⟨last, zero⟩
        · exact Or.inl allowed
        · exact Or.inr ⟨last, zero, closing⟩
    · have openState : (run.step event).openState = (run.tcb.onEvent event).2.state :=
        if_neg closing
      rw [current] at finNow peerNow
      refine ⟨effect.sound, fun _ => openState, ?_, ?_, ?_, ordered, Or.inl ?_⟩
      · rw [openState]
        exact closing
      · rw [finNow, openState, effect.fin closing]
      · rw [peerNow, openState, effect.peer closing]
      · rw [openState]
        exact effect.sound.flight

theorem Coherent.steps (coherent : run.Coherent) (events : List TcpTcb.Event)
    (inRange : ∀ event ∈ events, event.WindowInRange) :
    (run.steps events).Coherent := by
  induction events generalizing run with
  | nil => exact coherent
  | cons event events ih =>
    exact ih (coherent.step event (inRange event List.mem_cons_self))
      (List.forall_mem_cons.mp inRange).2

/-! ### Every run -/

/-- The two ways a control block comes into being, from a SYN as it can arrive
on the wire or for a connection of our own. -/
inductive Opens : TcpTcb × List TcpAction → Prop where
  | passive {segment : TcpSegmentMeta} {initialSendSequence : SeqNumber}
      {reservedReceiveCapacity maximumSegmentSize receiveWindowScale : Nat}
      {opened : TcpTcb × List TcpAction}
      (windowInRange : segment.window ≤ maxWindow)
      (payloadInRange : segment.payloadLen ≤ 65535)
      (accepted : TcpTcb.fromSynWithOptions segment initialSendSequence
        reservedReceiveCapacity maximumSegmentSize receiveWindowScale = .ok opened) :
      Opens opened
  | active (initialSendSequence : SeqNumber)
      (reservedReceiveCapacity maximumSegmentSize receiveWindowScale : Nat) :
      Opens (TcpTcb.connect initialSendSequence reservedReceiveCapacity maximumSegmentSize
        receiveWindowScale)

theorem Opens.coherent {opened : TcpTcb × List TcpAction} (opens : Opens opened) :
    (start opened).Coherent := by
  cases opens with
  | passive windowInRange payloadInRange accepted =>
    obtain ⟨sound, state, none⟩ := TcpTcb.fromSynWithOptions_sound windowInRange
      (payloadInRange.trans (by decide)) accepted
    exact start_coherent sound (Or.inr state) none
  | active initialSendSequence reservedReceiveCapacity maximumSegmentSize receiveWindowScale =>
    obtain ⟨sound, none⟩ := TcpTcb.connect_sound initialSendSequence reservedReceiveCapacity
      maximumSegmentSize receiveWindowScale
    exact start_coherent sound (Or.inl rfl) none

theorem unacked_eq_next_iff (tcb : TcpTcb) :
    tcb.sendUnacked = tcb.sendNext ↔ tcb.flightSize = 0 := by
  rw [TcpTcb.flightSize, distanceFrom_eq_zero, eq_comm]

theorem ackedFin_iff {state : TcpState} {flight : Nat} (allowed : state.FlightAllowed flight) :
    (state.sentFin = true ∧ flight = 0) ↔ state.ackedFin = true := by
  cases state <;> simp only [TcpState.FlightAllowed, TcpState.sentFin, TcpState.ackedFin] at * <;>
    simp <;> omega

/-- An acknowledged FIN shows in the state, or in the state the connection was
closed from. -/
theorem Coherent.finAcknowledged (coherent : run.Coherent) :
    run.FinAcknowledged ↔ run.openState.ackedFin = true ∨
      (run.tcb.state = .closed ∧ run.openState = .lastAck ∧
        run.tcb.sendUnacked = run.tcb.sendNext) := by
  rw [FinAcknowledged, coherent.fin, unacked_eq_next_iff]
  rcases coherent.flight with allowed | ⟨last, zero, closed⟩
  · rw [ackedFin_iff allowed]
    refine (or_iff_left ?_).symm
    rintro ⟨_, last, zero⟩
    rw [last, zero] at allowed
    exact absurd allowed.1 (by decide)
  · simp [last, zero, closed, TcpState.sentFin]

theorem Coherent.not_before (coherent : run.Coherent) :
    before run.tcb.sendNext run.tcb.sendUnacked = false := by
  rw [← advance_distanceFrom run.tcb.sendNext run.tcb.sendUnacked]
  exact not_before_advance (by decide) _ coherent.sound.shortFlight

/-- Acknowledged and received edges only move forward. -/
theorem Coherent.forward (coherent : run.Coherent) (event : TcpTcb.Event)
    (inRange : event.WindowInRange) :
    before (run.step event).tcb.sendUnacked run.tcb.sendUnacked = false ∧
      (run.tcb.state ≠ .synSent →
        before (run.step event).tcb.recvNext run.tcb.recvNext = false) := by
  have still (edge : SeqNumber) : before edge edge = false := by
    have moved := not_before_advance (by decide : 0 < 32) edge (by decide : 0 < 2 ^ 31)
    rwa [advance_zero] at moved
  by_cases closed : run.tcb.state = .closed
  · rw [step_closed closed event]
    exact ⟨still _, fun _ => still _⟩
  · have effect := TcpTcb.onEvent_effect coherent.sound closed event inRange
    obtain ⟨acknowledged, within, moved⟩ := effect.unacked
    refine ⟨?_, fun opening => ?_⟩
    · change before (run.tcb.onEvent event).2.sendUnacked _ = _
      rw [moved]
      exact not_before_advance (by decide) _ (within.trans_lt coherent.sound.shortFlight)
    · obtain ⟨taken, fits, received⟩ := effect.received opening
      change before (run.tcb.onEvent event).2.recvNext _ = _
      rw [received]
      exact not_before_advance (by decide) _ (fits.trans_lt coherent.sound.shortWindow)

/-- The state name tells which FINs were sent, taken and acknowledged, nothing
follows a FIN in its direction, closing is final, and the edges of both
directions only move forward. -/
theorem tcb_state_coherent {opened : TcpTcb × List TcpAction} (opens : Opens opened)
    (events : List TcpTcb.Event) (inRange : ∀ event ∈ events, event.WindowInRange) :
    let run := (start opened).steps events
    (run.tcb.state ≠ .closed → run.openState = run.tcb.state) ∧
    (run.FinSent ↔ run.openState.sentFin = true) ∧
    (run.PeerFinTaken ↔ run.openState.peerFin = true) ∧
    (run.FinAcknowledged ↔ run.openState.ackedFin = true ∨
      (run.tcb.state = .closed ∧ run.openState = .lastAck ∧
        run.tcb.sendUnacked = run.tcb.sendNext)) ∧
    run.actions.Pairwise Precedes ∧
    before run.tcb.sendNext run.tcb.sendUnacked = false ∧
    (run.tcb.state = .closed → ∀ event, run.step event = run) ∧
    ∀ event : TcpTcb.Event, event.WindowInRange →
      before (run.step event).tcb.sendUnacked run.tcb.sendUnacked = false ∧
      (run.tcb.state ≠ .synSent →
        before (run.step event).tcb.recvNext run.tcb.recvNext = false) := by
  have coherent := opens.coherent.steps events inRange
  exact ⟨coherent.current, coherent.fin, coherent.peer, coherent.finAcknowledged,
    coherent.ordered, coherent.not_before, fun closed event => step_closed closed event,
    fun event windowOk => coherent.forward event windowOk⟩

def sampleSyn : TcpSegmentMeta :=
  { sequence := 0
    acknowledgment := none
    flags := .synOnly
    window := 65535
    payloadLen := 0 }

def sampleFinalAck (window : Nat) : TcpSegmentMeta :=
  { sequence := 1
    acknowledgment := some 1
    flags := .ackOnly
    window
    payloadLen := 0 }

theorem tcb_state_coherent_closing :
    ∃ opened, TcpTcb.fromSynWithOptions sampleSyn 0 65535 1460 0 = .ok opened ∧
      (((start opened).steps [.segment (sampleFinalAck 65535), .app .close]).FinSent ↔
        ((start opened).steps
          [.segment (sampleFinalAck 65535), .app .close]).openState.sentFin = true) :=
  ⟨_, rfl,
    (tcb_state_coherent (.passive (by decide : sampleSyn.window ≤ maxWindow) (by decide) rfl)
      [.segment (sampleFinalAck 65535), .app .close]
      (by simp [TcpTcb.Event.WindowInRange, sampleFinalAck, maxWindow])).2.1⟩

/-- An active open does not know the peer's sequence numbers before its SYN, and
windows past half the number space let a flight grow past it. -/
theorem tcb_edges_move_back : before
        ((start (TcpTcb.connect 0 65535 1460 0)).step
          (.segment { sampleSyn with sequence := 2415919104 })).tcb.recvNext
        (start (TcpTcb.connect 0 65535 1460 0)).tcb.recvNext = true ∧
      ∃ opened, TcpTcb.fromSynWithOptions sampleSyn 0 65535 (2 ^ 31) 0 = .ok opened ∧ before
          ((start opened).steps
            [.segment (sampleFinalAck (2 ^ 31 + 5)), .app (.send (2 ^ 31 + 5))]).tcb.sendNext
          ((start opened).steps
            [.segment (sampleFinalAck (2 ^ 31 + 5)), .app (.send (2 ^ 31 + 5))]).tcb.sendUnacked =
          true :=
  ⟨by decide +kernel, _, rfl, by decide +kernel⟩

/-- In every run new data stays inside the peer's window and the congestion window. -/
theorem sends_within_windows {opened : TcpTcb × List TcpAction} (opens : Opens opened)
    (events : List TcpTcb.Event) (inRange : ∀ event ∈ events, event.WindowInRange) (amount : Nat) :
    let tcb := ((start opened).steps events).tcb
    performed (tcb.onSend amount).1 ≠ [] →
      (tcb.onSend amount).2.flightSize = tcb.flightSize + amount ∧
        tcb.flightSize + amount ≤ min tcb.peerWindow
          (satAdd tcb.congestion.congestionWindow tcb.congestion.limitedTransmitAllowance) := by
  intro tcb sends
  have window : tcb.peerWindow ≤ maxWindow := (opens.coherent.steps events inRange).sound.window
  rcases tcb.onSend_cases amount with ⟨_, refused, none⟩ | ⟨_, _, room, sent⟩
  · rw [refused] at sends
    exact absurd none sends
  · -- A window of the peer's is far below half the number space, so the flight does not wrap.
    unfold TcpTcb.sendAvailable at room
    unfold maxWindow at window
    have flight := tcb.flightSize_sent (by omega : tcb.flightSize + amount < 2 ^ 32)
    rw [sent, (tcb.sendData_spec amount).1]
    exact ⟨flight, by omega⟩

theorem sends_within_windows_first :
    ∃ opened, TcpTcb.fromSynWithOptions sampleSyn 0 65535 1460 0 = .ok opened ∧
      (((start opened).steps [.segment (sampleFinalAck 65535)]).tcb.onSend 9).2.flightSize = 9 :=
  ⟨_, rfl, (sends_within_windows (.passive (by decide : sampleSyn.window ≤ maxWindow) (by decide) rfl)
    _ (by simp [TcpTcb.Event.WindowInRange, sampleFinalAck, maxWindow]) 9 (by decide +kernel)).1⟩

end TcbRun

end Sail.Netstack
