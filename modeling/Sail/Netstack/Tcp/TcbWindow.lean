/-
The receive window of the control block.

The advertised right edge never moves back and never promises more than the
buffer has room for, also while the buffer grows. A segment cut to the window
therefore always fits, and the data a peer was told it may send is taken.
-/

import Sail.Netstack.Tcp.TcbRuns

namespace Sail.Netstack

open SerialNumber

namespace TcpTcb

inductive Call where
  | happens (event : Event)
  | grow (additional : Nat)

def Call.WindowInRange : Call → Prop
  | .happens event => event.WindowInRange
  | .grow _ => True

def onCall (tcb : TcpTcb) : Call → TcpTcb
  | .happens event => (tcb.onEvent event).2
  | .grow additional => tcb.growReceiveCapacity additional

variable {tcb : TcpTcb} {segment : TcpSegmentMeta}

section

variable (sound : tcb.Sound)

include sound

theorem Sound.onCall {call : Call} (inRange : call.WindowInRange) : (tcb.onCall call).Sound := by
  cases call with
  | happens event =>
    by_cases closed : tcb.state = .closed
    · simpa [TcpTcb.onCall, onEvent_closed closed event] using sound
    · exact (onEvent_effect sound closed event inRange).sound
  | grow additional =>
    exact ⟨sound.window, sound.flight, sound.edge, sound.credit.trans (Nat.le_add_right _ _),
      sound.pendingFits, sound.noPending, sound.fresh⟩

theorem Sound.onCalls {calls : List Call} (inRange : ∀ call ∈ calls, call.WindowInRange) :
    (calls.foldl TcpTcb.onCall tcb).Sound := by
  induction calls generalizing tcb with
  | nil => exact sound
  | cons call calls ih =>
    apply ih (sound.onCall (inRange call List.mem_cons_self))
    exact (List.forall_mem_cons.mp inRange).2

/-! ### The right edge -/

/-- A segment is taken without an error, and moves no right edge. -/
theorem onSegment_result (opened : tcb.state ≠ .closed) (opening : tcb.state ≠ .synSent)
    (segment : TcpSegmentMeta) :
    ∃ actions next, tcb.onSegment segment = (.ok actions, next) ∧
      next.advertisedRightEdge = tcb.advertisedRightEdge := by
  cases onSegment_outcome sound opened opening segment with
  | idle unchanged =>
    obtain ⟨_, actions, result, _⟩ := unchanged
    exact ⟨actions, _, result, rfl⟩
  | reset closed => exact ⟨_, _, closed, rfl⟩
  | received _ taken =>
    obtain ⟨_, _, _, _, _, actions, result, _, _⟩ := taken
    exact ⟨actions, _, result, rfl⟩
  | completed _ _ _ next =>
    rcases next with ⟨_, actions, result, _⟩ | ⟨_, _, _, _, _, actions, result, _, _⟩ <;>
      exact ⟨actions, _, result, rfl⟩

theorem onSegment_edge (opened : tcb.state ≠ .closed) (opening : tcb.state ≠ .synSent)
    (segment : TcpSegmentMeta) :
    (tcb.onSegment segment).2.advertisedRightEdge = tcb.advertisedRightEdge := by
  obtain ⟨_, _, result, same⟩ := onSegment_result sound opened opening segment
  rw [result, same]

theorem windowCandidate_advance (later : after tcb.windowCandidate tcb.advertisedRightEdge = true) :
    ∃ grown < 2 ^ 31, tcb.windowCandidate = advance tcb.advertisedRightEdge grown := by
  obtain ⟨forward, window⟩ := windowCandidate_forward sound later
  have bounded := advertisableReceiveCapacity_le_maxWindow tcb.receiveAvailable
    tcb.receiveWindowScale
  have edge : advance tcb.recvNext tcb.receiveWindow = tcb.advertisedRightEdge :=
    advance_distanceFrom _ _
  refine ⟨distanceFrom tcb.windowCandidate tcb.recvNext - tcb.receiveWindow, ?_, ?_⟩
  · unfold maxWindow at bounded
    omega
  · rw [← edge, advance_advance, Nat.add_sub_cancel' forward.le, advance_distanceFrom]

/-- Only reading moves the right edge, and only forward. -/
theorem onEvent_edge (opening : tcb.state ≠ .synSent) (event : Event) : ∃ grown < 2 ^ 31,
      (tcb.onEvent event).2.advertisedRightEdge = advance tcb.advertisedRightEdge grown := by
  have kept {next : TcpTcb} (same : next.advertisedRightEdge = tcb.advertisedRightEdge) :
      ∃ grown < 2 ^ 31, next.advertisedRightEdge = advance tcb.advertisedRightEdge grown :=
    ⟨0, by decide, by rw [same, advance_zero]⟩
  by_cases closed : tcb.state = .closed
  · exact kept (by rw [onEvent_closed closed event])
  cases event with
  | segment arrived => exact kept (onSegment_edge sound closed opening arrived)
  | app event =>
    cases event <;> simp only [onEvent, onAppEvent, if_neg closed, if_neg opening]
    case consumed amount =>
      unfold onConsumed
      split_ifs with beyond
      · exact kept rfl
      · obtain ⟨edge, delayed, offered, origin, _⟩ :=
          offerWindow_tcb { tcb with recvBuffered := tcb.recvBuffered - amount }
        rw [offered]
        rcases origin with rfl | ⟨rfl, later⟩
        · exact kept rfl
        · exact windowCandidate_advance (sound.consume amount) later
    case send amount =>
      rcases tcb.onSend_cases amount with ⟨_, refused, _⟩ | ⟨_, _, _, sent⟩
      · exact kept (by rw [refused])
      · exact kept (by rw [sent, (tcb.sendData_spec amount).1])
    case close =>
      apply kept
      rw [cancelDelayedAck_tcb, startClose]
      cases tcb.state <;> rfl
    case abort => exact kept (by rw [cancelDelayedAck_tcb])
  | timer event =>
    apply kept
    simp only [onEvent, onTimer, if_neg closed]
    cases event <;> dsimp only <;> split_ifs <;> try rfl
    split <;> rfl

/-! ### What the peer may send -/

theorem onSegment_ok (opened : tcb.state ≠ .closed) (segment : TcpSegmentMeta) :
    ∃ actions, (tcb.onSegment segment).1 = .ok actions := by
  by_cases opening : tcb.state = .synSent
  · simp [onSegment, opening]
  · obtain ⟨actions, _, result, _⟩ := onSegment_result sound opened opening segment
    exact ⟨actions, congrArg Prod.fst result⟩

/-- Data that is next in order, inside the window, with an acknowledgment of
something sent, on a connection the peer has not closed. -/
structure Expected (tcb : TcpTcb) (segment : TcpSegmentMeta) : Prop where
  state : tcb.state = .established ∨ tcb.state = .finWait1 ∨ tcb.state = .finWait2
  flags : segment.flags.ack = true ∧ segment.flags.syn = false ∧ segment.flags.rst = false
  acknowledged : segment.acknowledgment.any (fun acknowledgment =>
    after acknowledgment tcb.sendNext) = false
  next : segment.sequence = tcb.recvNext
  data : 0 < segment.payloadLen
  inside : segment.payloadLen ≤ tcb.receiveWindow

theorem Sound.edge_not_before : before tcb.advertisedRightEdge tcb.recvNext = false := by
  have edge : advance tcb.recvNext tcb.receiveWindow = tcb.advertisedRightEdge :=
    advance_distanceFrom _ _
  rw [← edge]
  exact not_before_advance (by decide) _ sound.shortWindow

theorem Expected.acceptable (expected : tcb.Expected segment) :
    tcb.segmentAcceptable segment = true := by
  have short : tcb.receiveWindow + 1 < 2 ^ 31 :=
    Nat.succ_le_succ sound.edge |>.trans_lt (by decide)
  have data := expected.data
  have inside := expected.inside
  have fin := Bool.toNat_le segment.flags.fin
  have forward : before (advance tcb.recvNext 0)
      (advance tcb.recvNext (segment.payloadLen + segment.flags.fin.toNat)) = true :=
    (before_advance_iff (by decide) tcb.recvNext (by omega) (by omega)).mpr (by omega)
  rw [advance_zero] at forward
  simp [segmentAcceptable, after, expected.next, expected.flags.2.1, sound.edge_not_before,
    forward, data.ne']

/-- Such data is handed up, whatever was done with the segment before. -/
theorem Expected.received (expected : tcb.Expected segment) (done : List TcpAction) :
    .deliverPayload segment.payloadLen ∈ performed (tcb.onSynchronizedSegment segment done).1 := by
  have state := expected.state
  have notClosed : tcb.state ≠ .closed ∧ tcb.peerReceiveClosed = false := by
    rcases state with state | state | state <;> simp [peerReceiveClosed, state]
  obtain ⟨_, _, _, _, _, actions, result, _, handed⟩ :=
    receiveSegment_spec sound notClosed.1 segment
  have taken : (tcb.inOrder segment).1 = segment.payloadLen := by
    simp [inOrder, notClosed.2, expected.next, expected.inside]
  have member : .deliverPayload segment.payloadLen ∈ essentials actions := by
    rw [handed, handedUp, taken, if_pos expected.data]
    exact List.mem_append_left _ List.mem_cons_self
  simp only [onSynchronizedSegment, expected.acceptable sound, expected.flags.1,
    expected.flags.2.1, expected.acknowledged, result, Bool.not_true, Bool.false_eq_true, if_false]
  exact List.mem_append_right _ (List.mem_filter.mp member).1

theorem Expected.delivered (expected : tcb.Expected segment) :
    .deliverPayload segment.payloadLen ∈ performed (tcb.onSegment segment).1 := by
  have received := expected.received sound []
  obtain ⟨sent, arrived, closed⟩ :
      tcb.state ≠ .synSent ∧ tcb.state ≠ .synReceived ∧ tcb.state ≠ .closed := by
    rcases expected.state with state | state | state <;> simp [state]
  simpa [onSegment, effectiveSegment, completePassiveHandshake, sent, arrived, closed,
    expected.flags.2.2] using received

/-- So is data that comes with the acknowledgment that completes the handshake. -/
theorem delivered_of_acceptsFinalAck (final : tcb.acceptsFinalAck segment = true)
    (noFin : tcb.pendingInitialFin = false) (data : 0 < segment.payloadLen)
    (inside : tcb.pendingInitialPayloadLen + segment.payloadLen ≤ tcb.receiveWindow) :
    .deliverPayload segment.payloadLen ∈ performed (tcb.onSegment segment).1 := by
  have plain := final
  simp only [acceptsFinalAck, Bool.and_eq_true, decide_eq_true_eq, Bool.not_eq_true',
    pendingInitialLen, noFin, Bool.toNat_false, Nat.add_zero] at plain
  obtain ⟨⟨⟨⟨⟨opening, carries⟩, noRst⟩, noSyn⟩, acknowledged⟩, next⟩ := plain
  obtain ⟨delayed, actions, established, _⟩ := tcb.enterEstablished_spec
  have expected : (tcb.established delayed).Expected segment := by
    have fits : tcb.pendingInitial.1 + tcb.pendingInitial.2.toNat ≤ tcb.opened.receiveWindow :=
      sound.pendingFits opening
    have window := tcb.opened.receiveWindow_received delayed fits
    rw [pendingInitial, noFin] at window
    rw [TcpTcb.established, pendingInitial, noFin]
    refine ⟨Or.inl rfl, ⟨carries, noSyn, noRst⟩, ?_, next, data, ?_⟩
    · simp [acknowledged, after, before, received, TcpTcb.opened]
    · rw [window]
      change _ ≤ tcb.receiveWindow - tcb.pendingInitialPayloadLen
      omega
  have received := expected.received (established_sound sound opening delayed) actions
  have same : tcb.effectiveSegment segment = segment := by
    simp [effectiveSegment, simultaneousOpenCompletion, noSyn]
  simpa [onSegment, opening, same, noRst, completePassiveHandshake, final, established]
    using received

end

end TcpTcb

/-! ### Runs -/

/-- The receive window only grows and never promises more than is free; what the
peer was told it may send is taken. -/
theorem receive_window_kept {opened : TcpTcb × List TcpAction} (opens : TcbRun.Opens opened)
    (calls : List TcpTcb.Call) (inRange : ∀ call ∈ calls, call.WindowInRange) :
    let tcb := calls.foldl TcpTcb.onCall opened.1
    before tcb.advertisedRightEdge tcb.recvNext = false ∧
    distanceFrom tcb.advertisedRightEdge tcb.recvNext ≤ tcb.receiveAvailable ∧
    (tcb.state ≠ .synSent → ∀ call, call.WindowInRange →
      before (tcb.onCall call).advertisedRightEdge tcb.advertisedRightEdge = false) ∧
    (∀ segment, segment.sequence = tcb.recvNext →
      (tcb.trimInOrderSegmentToReceiveWindow segment).payloadLen ≤ tcb.receiveAvailable) ∧
    (∀ segment, (tcb.onSegment segment).1 ≠ .error .receiveCreditExceeded) ∧
    (∀ segment, tcb.Expected segment →
      .deliverPayload segment.payloadLen ∈ performed (tcb.onSegment segment).1) ∧
    (∀ segment, tcb.acceptsFinalAck segment = true → tcb.pendingInitialFin = false →
      0 < segment.payloadLen →
      tcb.pendingInitialPayloadLen + segment.payloadLen ≤ tcb.receiveWindow →
      .deliverPayload segment.payloadLen ∈ performed (tcb.onSegment segment).1) := by
  intro tcb
  have sound : tcb.Sound := opens.coherent.sound.onCalls inRange
  have credit := sound.credit
  have room : tcb.receiveWindow ≤ tcb.receiveAvailable := by
    unfold TcpTcb.receiveAvailable
    omega
  refine ⟨sound.edge_not_before, room, ?_, ?_, ?_, fun _ expected => expected.delivered sound,
    fun _ => TcpTcb.delivered_of_acceptsFinalAck sound⟩
  · intro opening call callInRange
    cases call with
    | happens event =>
      obtain ⟨grown, short, moved⟩ := TcpTcb.onEvent_edge sound opening event
      rw [TcpTcb.onCall, moved]
      exact not_before_advance (by decide) _ short
    | grow additional =>
      have moved := not_before_advance (by decide : 0 < 32) tcb.advertisedRightEdge
        (by decide : 0 < 2 ^ 31)
      rwa [advance_zero] at moved
  · intro segment next
    simp only [TcpTcb.trimInOrderSegmentToReceiveWindow, next, ne_eq, not_true_eq_false, if_false]
    exact (min_le_right _ _).trans room
  · intro segment refused
    by_cases closed : tcb.state = .closed
    · simp [TcpTcb.onSegment, closed] at refused
    · obtain ⟨actions, ok⟩ := TcpTcb.onSegment_ok sound closed segment
      rw [ok] at refused
      cases refused

/-- A byte that comes in on an accepted connection whose buffer has grown. -/
theorem receive_window_kept_accepted :
    ∃ opened, TcpTcb.fromSynWithOptions TcbRun.sampleSyn 0 65535 1460 0 = .ok opened ∧
      TcpAction.deliverPayload 1 ∈ performed
        (([.happens (.segment (TcbRun.sampleFinalAck 65535)), .grow 1000].foldl
          TcpTcb.onCall opened.1).onSegment
            { TcbRun.sampleFinalAck 65535 with payloadLen := 1 }).1 :=
  ⟨_, rfl,
    (receive_window_kept
      (.passive (by decide : TcbRun.sampleSyn.window ≤ maxWindow) (by decide) rfl)
      [.happens (.segment (TcbRun.sampleFinalAck 65535)), .grow 1000]
      (by simp [TcpTcb.Call.WindowInRange, TcpTcb.Event.WindowInRange, TcbRun.sampleFinalAck,
        maxWindow])).2.2.2.2.2.1 { TcbRun.sampleFinalAck 65535 with payloadLen := 1 }
      ⟨by decide +kernel, by decide +kernel, by decide +kernel, by decide +kernel,
        by decide +kernel, by decide +kernel⟩⟩

/-- The edge of an active open is a placeholder until the peer's SYN comes. -/
theorem receive_window_placeholder : before ((TcpTcb.connect 0 65535 1460 0).1.onCall (.happens
        (.segment { TcbRun.sampleSyn with sequence := 2415919104 }))).advertisedRightEdge
      (TcpTcb.connect 0 65535 1460 0).1.advertisedRightEdge = true := by
  decide +kernel

end Sail.Netstack
