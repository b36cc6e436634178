/-
The transmission control block of one connection.

Every function returns the changed block together with its result, also when that
result is an error. Sequence numbers are thirty-two bits wide, lengths and windows
are natural numbers.
-/

import Sail.Netstack.Tcp.CongestionControl

namespace Sail.Netstack

open SerialNumber

structure TcpFlags where
  fin : Bool := false
  syn : Bool := false
  rst : Bool := false
  psh : Bool := false
  ack : Bool := false
deriving DecidableEq

namespace TcpFlags

def finAck : TcpFlags := { fin := true, ack := true }
def synOnly : TcpFlags := { syn := true }
def synAck : TcpFlags := { syn := true, ack := true }
def rstOnly : TcpFlags := { rst := true }
def rstAck : TcpFlags := { rst := true, ack := true }
def ackOnly : TcpFlags := { ack := true }

end TcpFlags

structure TcpSegmentMeta where
  sequence : SeqNumber
  acknowledgment : Option SeqNumber
  flags : TcpFlags
  window : Nat
  payloadLen : Nat
deriving DecidableEq

inductive AppEvent where
  | consumed (amount : Nat)
  | send (amount : Nat)
  | close
  | abort
deriving DecidableEq

inductive TimerEvent where
  | retransmission
  | delayedAck
  | persist
  | keepalive
  | timeWaitExpired
  | finWait2Timeout
deriving DecidableEq

inductive TcpState where
  | synSent
  | synReceived
  | established
  | finWait1
  | finWait2
  | closing
  | closeWait
  | lastAck
  | timeWait
  | closed
deriving DecidableEq

structure SendControl where
  sequence : SeqNumber
  acknowledgment : SeqNumber
  flags : TcpFlags
  window : Nat
deriving DecidableEq

inductive TcpAction where
  | send (control : SendControl)
  | defensiveAck (control : SendControl)
  | sendPayload (control : SendControl)
  | retransmitPayload (control : SendControl)
  | deliverPayload (len : Nat)
  | accepted
  | connected
  | peerHalfClosed
  | armRetransmission (afterMs : Nat)
  | disarmRetransmission
  | armDelayedAck
  | disarmDelayedAck
  | armTimeWait
  | challengeAck
  | closed
deriving DecidableEq

inductive TcpError where
  | invalidSyn
  | receiveCreditExceeded
  | consumedBeyondBuffered
  | invalidSendState
  | sendWindowExceeded
  | sendOutstanding
  | closed
deriving DecidableEq

def advertisableReceiveCapacity (available windowScale : Nat) : Nat :=
  let quantum := 2 ^ min windowScale 14
  min available (65535 * quantum) / quantum * quantum

def windowUpdateThreshold
    (maximumSegmentSize reservedReceiveCapacity receiveWindowScale : Nat) : Nat :=
  let scaleQuantum := if receiveWindowScale < 64 then 2 ^ receiveWindowScale else usizeMax
  min (max (min (max maximumSegmentSize 1) (max (divCeil reservedReceiveCapacity 2) 1))
      scaleQuantum)
    (max reservedReceiveCapacity 1)

structure TcpTcb where
  state : TcpState
  recvNext : SeqNumber
  sendUnacked : SeqNumber
  sendNext : SeqNumber
  recvCapacity : Nat
  recvBuffered : Nat
  advertisedRightEdge : SeqNumber
  windowUpdateThreshold : Nat
  peerWindow : Nat
  sendWindowLastSeq : SeqNumber
  sendWindowLastAck : SeqNumber
  receiveWindowScale : Nat
  rto : RtoEstimator
  congestion : NewReno
  delayedAckPending : Bool
  pendingInitialPayloadLen : Nat
  pendingInitialFin : Bool
  activeOpen : Bool
deriving DecidableEq

namespace TcpTcb

/-! ### Reading the control block -/

def flightSize (tcb : TcpTcb) : Nat :=
  distanceFrom tcb.sendNext tcb.sendUnacked

/-- The right edge of the peer's window where that is behind the next sequence
number, which a segment without data must not pass. -/
def acceptableSeq (tcb : TcpTcb) : SeqNumber :=
  let edge := advance tcb.sendUnacked tcb.peerWindow
  if before edge tcb.sendNext then edge else tcb.sendNext

def sendAvailable (tcb : TcpTcb) : Nat :=
  min tcb.peerWindow
    (satAdd tcb.congestion.congestionWindow tcb.congestion.limitedTransmitAllowance) -
    tcb.flightSize

def receiveAvailable (tcb : TcpTcb) : Nat :=
  tcb.recvCapacity - tcb.recvBuffered

def receiveWindow (tcb : TcpTcb) : Nat :=
  distanceFrom tcb.advertisedRightEdge tcb.recvNext

def advertisedWindow (tcb : TcpTcb) : Nat :=
  min (tcb.receiveWindow >>> tcb.receiveWindowScale) 65535

def announceableReceiveCapacity (tcb : TcpTcb) : Nat :=
  advertisableReceiveCapacity usizeMax tcb.receiveWindowScale

def pendingInitialLen (tcb : TcpTcb) : Nat :=
  tcb.pendingInitialPayloadLen + tcb.pendingInitialFin.toNat

def receiveAdmissionLeftEdge (tcb : TcpTcb) : SeqNumber :=
  if tcb.state = .synReceived then advance tcb.recvNext tcb.pendingInitialLen
  else tcb.recvNext

/-- The window of a SYN or SYN-ACK is never scaled. -/
def control (tcb : TcpTcb) (flags : TcpFlags) (sequence : SeqNumber) : SendControl :=
  { sequence
    acknowledgment := tcb.recvNext
    flags
    window := if flags.syn then min tcb.receiveWindow 65535 else tcb.advertisedWindow }

def ack (tcb : TcpTcb) : SendControl :=
  tcb.control .ackOnly tcb.acceptableSeq

def localFinOutstanding (tcb : TcpTcb) : Bool :=
  match tcb.state with
  | .finWait1 | .closing | .lastAck => true
  | _ => false

def hasOutstandingPayload (tcb : TcpTcb) : Bool :=
  tcb.localFinOutstanding && tcb.sendUnacked ≠ tcb.sendNext - 1

def peerReceiveClosed (tcb : TcpTcb) : Bool :=
  match tcb.state with
  | .closeWait | .closing | .lastAck | .timeWait => true
  | _ => false

def acceptsFinalAck (tcb : TcpTcb) (segment : TcpSegmentMeta) : Bool :=
  tcb.state = .synReceived && segment.flags.ack && !segment.flags.rst && !segment.flags.syn &&
    segment.acknowledgment = some tcb.sendNext &&
    segment.sequence = advance tcb.recvNext tcb.pendingInitialLen

def finalAckPayloadCapacity (tcb : TcpTcb) : Option Nat :=
  if tcb.state = .synReceived ∧ tcb.pendingInitialFin = false then
    some (tcb.recvCapacity - tcb.pendingInitialPayloadLen)
  else
    none

def segmentAcceptable (tcb : TcpTcb) (segment : TcpSegmentMeta) : Bool :=
  let length := segment.payloadLen + segment.flags.syn.toNat + segment.flags.fin.toNat
  if after segment.sequence tcb.advertisedRightEdge then false
  else if length = 0 then !before segment.sequence tcb.recvNext
  else after (advance segment.sequence length) tcb.recvNext

def acceptsReceiveSequence (tcb : TcpTcb) (segment : TcpSegmentMeta) : Bool :=
  tcb.segmentAcceptable segment

def ackInRange (tcb : TcpTcb) (acknowledgment : SeqNumber) : Bool :=
  !before acknowledgment tcb.sendUnacked && !after acknowledgment tcb.sendNext

def acceptsSenderFeedback (tcb : TcpTcb) (segment : TcpSegmentMeta) : Bool :=
  tcb.segmentAcceptable segment && segment.flags.ack && !segment.flags.syn &&
    !segment.flags.rst && segment.acknowledgment.any tcb.ackInRange

def beyondReceiveWindow (tcb : TcpTcb) (segment : TcpSegmentMeta) : Bool :=
  (0 < segment.payloadLen || segment.flags.fin) && !before segment.sequence tcb.advertisedRightEdge

def sequenceInReceiveWindow (tcb : TcpTcb) (sequence : SeqNumber) : Bool :=
  !before sequence tcb.recvNext && before sequence tcb.advertisedRightEdge

def trimInOrderSegmentToReceiveWindow (tcb : TcpTcb) (segment : TcpSegmentMeta) :
    TcpSegmentMeta :=
  if segment.sequence ≠ tcb.recvNext then
    segment
  else
    let payloadLen := min segment.payloadLen tcb.receiveWindow
    { segment with
      payloadLen
      flags :=
        if segment.flags.fin ∧ tcb.receiveWindow ≤ payloadLen then
          { segment.flags with fin := false }
        else
          segment.flags }

/-! ### Opening -/

def fromSynWithOptions (segment : TcpSegmentMeta) (initialSendSequence : SeqNumber)
    (reservedReceiveCapacity maximumSegmentSize receiveWindowScale : Nat) :
    Except TcpError (TcpTcb × List TcpAction) :=
  if !segment.flags.syn || segment.flags.ack || segment.flags.rst then
    .error .invalidSyn
  else if reservedReceiveCapacity < segment.payloadLen then
    .error .receiveCreditExceeded
  else
    let recvNext := advance segment.sequence 1
    let scale := min receiveWindowScale 14
    let advertisedCapacity :=
      max (advertisableReceiveCapacity reservedReceiveCapacity scale) segment.payloadLen
    let tcb : TcpTcb :=
      { state := .synReceived
        recvNext
        sendUnacked := initialSendSequence
        sendNext := advance initialSendSequence 1
        recvCapacity := reservedReceiveCapacity
        recvBuffered := 0
        advertisedRightEdge := advance recvNext advertisedCapacity
        windowUpdateThreshold :=
          Netstack.windowUpdateThreshold maximumSegmentSize reservedReceiveCapacity scale
        peerWindow := segment.window
        sendWindowLastSeq := segment.sequence
        sendWindowLastAck := 0
        receiveWindowScale := scale
        rto := .default
        congestion := .new maximumSegmentSize
        delayedAckPending := false
        pendingInitialPayloadLen := segment.payloadLen
        pendingInitialFin := segment.flags.fin && segment.payloadLen < advertisedCapacity
        activeOpen := false }
    .ok (tcb, [.send (tcb.control .synAck initialSendSequence), .armRetransmission tcb.rto.rtoMs])

def connect (initialSendSequence : SeqNumber)
    (reservedReceiveCapacity maximumSegmentSize receiveWindowScale : Nat) :
    TcpTcb × List TcpAction :=
  let scale := min receiveWindowScale 14
  let tcb : TcpTcb :=
    { state := .synSent
      recvNext := 0
      sendUnacked := initialSendSequence
      sendNext := advance initialSendSequence 1
      recvCapacity := reservedReceiveCapacity
      recvBuffered := 0
      advertisedRightEdge :=
        advance 0 (advertisableReceiveCapacity reservedReceiveCapacity scale)
      windowUpdateThreshold :=
        Netstack.windowUpdateThreshold maximumSegmentSize reservedReceiveCapacity scale
      peerWindow := 0
      sendWindowLastSeq := 0
      sendWindowLastAck := 0
      receiveWindowScale := scale
      rto := .default
      congestion := .new maximumSegmentSize
      delayedAckPending := false
      pendingInitialPayloadLen := 0
      pendingInitialFin := false
      activeOpen := true }
  (tcb, [.send (tcb.control .synOnly initialSendSequence), .armRetransmission tcb.rto.rtoMs])

def withdrawReceiveWindowScale (tcb : TcpTcb) : TcpTcb :=
  if tcb.state ≠ .synSent then
    tcb
  else
    { tcb with
      receiveWindowScale := 0
      windowUpdateThreshold :=
        Netstack.windowUpdateThreshold tcb.congestion.maximumSegmentSize tcb.recvCapacity 0 }

/-! ### Steps shared by several events -/

def cancelDelayedAck (tcb : TcpTcb) : List TcpAction × TcpTcb :=
  if tcb.delayedAckPending then
    ([.disarmDelayedAck], { tcb with delayedAckPending := false })
  else
    ([], tcb)

def answer (tcb : TcpTcb) (kind : SendControl → TcpAction) : List TcpAction × TcpTcb :=
  let cancelled := tcb.cancelDelayedAck
  (cancelled.1 ++ [kind cancelled.2.ack], cancelled.2)

def forceAck (tcb : TcpTcb) : List TcpAction × TcpTcb :=
  tcb.answer .send

def rejectUnacceptableSegment (tcb : TcpTcb) : List TcpAction × TcpTcb :=
  tcb.answer .defensiveAck

def onPeerFin (tcb : TcpTcb) : List TcpAction × TcpTcb :=
  match tcb.state with
  | .established => ([.peerHalfClosed], { tcb with state := .closeWait })
  | .finWait1 =>
    if tcb.sendUnacked = tcb.sendNext then
      ([.peerHalfClosed, .armTimeWait], { tcb with state := .timeWait })
    else
      ([.peerHalfClosed], { tcb with state := .closing })
  | .finWait2 => ([.peerHalfClosed, .armTimeWait], { tcb with state := .timeWait })
  | .timeWait => ([.peerHalfClosed, .armTimeWait], tcb)
  | _ => ([.peerHalfClosed], tcb)

def acceptFin (tcb : TcpTcb) : List TcpAction × TcpTcb :=
  let closed := onPeerFin { tcb with recvNext := advance tcb.recvNext 1 }
  let answered := closed.2.answer .send
  (closed.1 ++ answered.1, answered.2)

def acceptQueuedPayload (tcb : TcpTcb) (amount : Nat) : Except TcpError TcpAction × TcpTcb :=
  if amount = 0 ∨ tcb.receiveAvailable < amount then
    (.error .receiveCreditExceeded, tcb)
  else
    (.ok (.deliverPayload amount),
      { tcb with
        recvBuffered := tcb.recvBuffered + amount
        recvNext := advance tcb.recvNext amount })

def acceptQueuedFin (tcb : TcpTcb) : List TcpAction × TcpTcb :=
  tcb.acceptFin

def growReceiveCapacity (tcb : TcpTcb) (additional : Nat) : TcpTcb :=
  { tcb with
    recvCapacity := tcb.recvCapacity + additional
    windowUpdateThreshold :=
      Netstack.windowUpdateThreshold tcb.congestion.maximumSegmentSize
        (tcb.recvCapacity + additional) tcb.receiveWindowScale }

def recordRttSample (tcb : TcpTcb) (sampleMs : Nat) : TcpTcb :=
  { tcb with rto := tcb.rto.recordSample sampleMs }

def onSackLoss (tcb : TcpTcb) : List TcpAction × TcpTcb :=
  let mayRetransmit : Bool :=
    match tcb.state with
    | .established | .finWait1 | .closing | .closeWait | .lastAck => true
    | _ => false
  if !mayRetransmit || tcb.sendUnacked = tcb.sendNext ||
      (tcb.localFinOutstanding && !tcb.hasOutstandingPayload) then
    ([], tcb)
  else
    let lost := tcb.congestion.onSackLoss tcb.flightSize tcb.sendNext
    let tcb : TcpTcb := { tcb with congestion := lost.2 }
    if lost.1 then
      ([.retransmitPayload (tcb.control .ackOnly tcb.sendUnacked)], tcb)
    else
      ([], tcb)

/-! ### Segments -/

def onSynSentReset (tcb : TcpTcb) (acknowledged : Bool) : List TcpAction × TcpTcb :=
  if acknowledged then
    ([.disarmRetransmission, .closed], { tcb with state := .closed })
  else
    ([], tcb)

/-- The peer's SYN answers an active open, with or without an acknowledgment of
our own. -/
def onSynSentSyn (tcb : TcpTcb) (segment : TcpSegmentMeta) (acknowledged : Bool) :
    List TcpAction × TcpTcb :=
  let recvNext := advance segment.sequence 1
  let tcb : TcpTcb :=
    { tcb with
      recvNext
      advertisedRightEdge :=
        advance recvNext
          (advertisableReceiveCapacity tcb.recvCapacity tcb.receiveWindowScale)
      peerWindow := segment.window
      sendWindowLastSeq := segment.sequence }
  if acknowledged then
    let tcb : TcpTcb :=
      { tcb with
        sendWindowLastAck := tcb.sendNext
        sendUnacked := tcb.sendNext
        state := .established }
    ([.disarmRetransmission, .connected, .send tcb.ack], tcb)
  else
    let tcb : TcpTcb := { tcb with state := .synReceived }
    ([.send (tcb.control .synAck tcb.sendUnacked), .armRetransmission tcb.rto.rtoMs], tcb)

def onSynSentAcknowledged (tcb : TcpTcb) (segment : TcpSegmentMeta) (acknowledged : Bool) :
    List TcpAction × TcpTcb :=
  if segment.flags.rst then tcb.onSynSentReset acknowledged
  else if !segment.flags.syn then ([], tcb)
  else tcb.onSynSentSyn segment acknowledged

def onSynSentSegment (tcb : TcpTcb) (segment : TcpSegmentMeta) : List TcpAction × TcpTcb :=
  if segment.flags.ack then
    match segment.acknowledgment with
    | none => ([], tcb)
    | some acknowledgment =>
      if acknowledgment = tcb.sendNext then
        tcb.onSynSentAcknowledged segment true
      else if segment.flags.rst then
        ([], tcb)
      else
        ([.send
          { sequence := acknowledgment
            acknowledgment := 0
            flags := .rstOnly
            window := 0 }], tcb)
  else
    tcb.onSynSentAcknowledged segment false

/-- A SYN-ACK that answers our side of a simultaneous open is taken as the final
acknowledgment it carries. -/
def simultaneousOpenCompletion (tcb : TcpTcb) (segment : TcpSegmentMeta) : TcpSegmentMeta :=
  if segment.flags.syn ∧ segment.flags.ack ∧ !segment.flags.rst ∧
      segment.sequence = tcb.recvNext - 1 ∧ segment.acknowledgment = some tcb.sendNext then
    { segment with
      sequence := tcb.recvNext
      flags := .ackOnly
      payloadLen := 0 }
  else
    segment

def effectiveSegment (tcb : TcpTcb) (segment : TcpSegmentMeta) : TcpSegmentMeta :=
  if tcb.activeOpen ∧ tcb.state = .synReceived then tcb.simultaneousOpenCompletion segment
  else segment

def enterEstablished (tcb : TcpTcb) : List TcpAction × TcpTcb :=
  let opened : TcpTcb :=
    { tcb with sendUnacked := tcb.sendNext, state := .established }
  let actions : List TcpAction :=
    [if tcb.activeOpen then .connected else .accepted, .disarmRetransmission]
  let delivered : List TcpAction × TcpTcb :=
    if 0 < opened.pendingInitialPayloadLen then
      let amount := opened.pendingInitialPayloadLen
      let taken : TcpTcb :=
        { opened with
          pendingInitialPayloadLen := 0
          recvBuffered := opened.recvBuffered + amount
          recvNext := advance opened.recvNext amount }
      if opened.pendingInitialFin then
        (actions ++ [.deliverPayload amount], taken)
      else
        (actions ++ [.deliverPayload amount, .armDelayedAck],
          { taken with delayedAckPending := true })
    else
      (actions, opened)
  if delivered.2.pendingInitialFin then
    let closed := acceptFin { delivered.2 with pendingInitialFin := false }
    (delivered.1 ++ closed.1, closed.2)
  else
    delivered

def completePassiveHandshake (tcb : TcpTcb) (segment : TcpSegmentMeta) :
    Bool × List TcpAction × TcpTcb :=
  if tcb.state ≠ .synReceived then
    (true, [], tcb)
  else if tcb.acceptsFinalAck segment then
    (true, tcb.enterEstablished)
  else
    match segment.acknowledgment with
    | some acknowledgment =>
      if tcb.segmentAcceptable segment ∧ segment.flags.ack ∧ acknowledgment ≠ tcb.sendNext then
        (false, [.send (tcb.control .rstOnly acknowledgment)], tcb)
      else
        (false, [.send (tcb.control .synAck tcb.sendUnacked), .armRetransmission tcb.rto.rtoMs],
          tcb)
    | none =>
      (false, [.send (tcb.control .synAck tcb.sendUnacked), .armRetransmission tcb.rto.rtoMs], tcb)

def updateSendWindow (tcb : TcpTcb) (segment : TcpSegmentMeta) : TcpTcb :=
  match segment.acknowledgment with
  | none => tcb
  | some acknowledgment =>
    if before acknowledgment tcb.sendUnacked || after acknowledgment tcb.sendNext then
      tcb
    else if !tcb.segmentAcceptable segment then
      tcb
    else if after segment.sequence tcb.sendWindowLastSeq ||
        (segment.sequence = tcb.sendWindowLastSeq &&
          (after acknowledgment tcb.sendWindowLastAck ||
            acknowledgment = tcb.sendWindowLastAck)) then
      { tcb with
        peerWindow := segment.window
        sendWindowLastSeq := segment.sequence
        sendWindowLastAck := acknowledgment }
    else
      tcb

def takeAck (tcb : TcpTcb) (acknowledgment : SeqNumber) (unchangedWindow carriedData : Bool) :
    List TcpAction × TcpTcb :=
  if after acknowledgment tcb.sendUnacked && !after acknowledgment tcb.sendNext then
    let acknowledged := distanceFrom acknowledgment tcb.sendUnacked
    let reno := tcb.congestion.onNewAck acknowledged acknowledgment
    let tcb : TcpTcb := { tcb with sendUnacked := acknowledgment, congestion := reno.2 }
    let retransmit : List TcpAction :=
      if reno.1 && tcb.sendUnacked ≠ tcb.sendNext then
        [.retransmitPayload (tcb.control .ackOnly tcb.sendUnacked)]
      else
        []
    let rearm : List TcpAction :=
      if tcb.sendUnacked ≠ tcb.sendNext then [.armRetransmission tcb.rto.rtoMs] else []
    (retransmit ++ [.disarmRetransmission] ++ rearm, tcb)
  else if acknowledgment = tcb.sendUnacked && tcb.sendUnacked ≠ tcb.sendNext && !carriedData &&
      unchangedWindow then
    let reno := tcb.congestion.onDuplicateAck tcb.flightSize tcb.sendNext
    let tcb : TcpTcb := { tcb with congestion := reno.2 }
    if reno.1 then
      ([.retransmitPayload (tcb.control .ackOnly tcb.sendUnacked)], tcb)
    else
      ([], tcb)
  else
    ([], tcb)

def finishAck (tcb : TcpTcb) (acknowledgment : SeqNumber) : List TcpAction × TcpTcb :=
  if acknowledgment = tcb.sendNext then
    match tcb.state with
    | .finWait1 => ([], { tcb with state := .finWait2 })
    | .closing => ([.armTimeWait], { tcb with state := .timeWait })
    | .lastAck => ([.closed], { tcb with state := .closed })
    | _ => ([], tcb)
  else
    ([], tcb)

def processAck (tcb : TcpTcb) (segment : TcpSegmentMeta) (oldPeerWindow : Nat)
    (carriedData : Bool) : List TcpAction × TcpTcb :=
  match segment.acknowledgment with
  | none => ([], tcb)
  | some acknowledgment =>
    let taken := tcb.takeAck acknowledgment (segment.window = oldPeerWindow) carriedData
    let finished := taken.2.finishAck acknowledgment
    (taken.1 ++ finished.1, finished.2)

def takeInOrder (tcb : TcpTcb) (segment : TcpSegmentMeta) :
    Except TcpError (List TcpAction) × TcpTcb :=
  if tcb.receiveAvailable < segment.payloadLen then
    (.error .receiveCreditExceeded, tcb)
  else
    let delivered : List TcpAction × TcpTcb :=
      if 0 < segment.payloadLen then
        ([.deliverPayload segment.payloadLen],
          { tcb with
            recvBuffered := tcb.recvBuffered + segment.payloadLen
            recvNext := advance tcb.recvNext segment.payloadLen })
      else
        ([], tcb)
    if segment.flags.fin then
      let closed := delivered.2.acceptFin
      (.ok (delivered.1 ++ closed.1), closed.2)
    else if 0 < segment.payloadLen then
      if delivered.2.delayedAckPending then
        let acked : TcpTcb := { delivered.2 with delayedAckPending := false }
        (.ok (delivered.1 ++ [.disarmDelayedAck, .send acked.ack]), acked)
      else
        (.ok (delivered.1 ++ [.armDelayedAck]), { delivered.2 with delayedAckPending := true })
    else
      (.ok delivered.1, delivered.2)

def takePayload (tcb : TcpTcb) (segment : TcpSegmentMeta) (beyondWindow : Bool) :
    Except TcpError (List TcpAction) × TcpTcb :=
  if tcb.state = .closed then
    (.ok [], tcb)
  else if beyondWindow then
    let rejected := tcb.rejectUnacceptableSegment
    (.ok rejected.1, rejected.2)
  else if 0 < segment.payloadLen || segment.flags.fin then
    if tcb.peerReceiveClosed || segment.sequence ≠ tcb.recvNext then
      let rejected := tcb.rejectUnacceptableSegment
      (.ok rejected.1, rejected.2)
    else
      tcb.takeInOrder segment
  else
    (.ok [], tcb)

def windowedSegment (tcb : TcpTcb) (segment : TcpSegmentMeta) : TcpSegmentMeta :=
  let trimmed := tcb.trimInOrderSegmentToReceiveWindow segment
  { trimmed with window := min (tcb.updateSendWindow trimmed).peerWindow 4294967295 }

def takeSegmentAck (tcb : TcpTcb) (segment : TcpSegmentMeta) : List TcpAction × TcpTcb :=
  let windowed := tcb.updateSendWindow (tcb.trimInOrderSegmentToReceiveWindow segment)
  windowed.processAck (tcb.windowedSegment segment) tcb.peerWindow (0 < segment.payloadLen)

def receiveSegment (tcb : TcpTcb) (segment : TcpSegmentMeta) :
    Except TcpError (List TcpAction) × TcpTcb :=
  let acked := tcb.takeSegmentAck segment
  let taken := acked.2.takePayload (tcb.windowedSegment segment)
    (tcb.beyondReceiveWindow segment)
  (taken.1.map (acked.1 ++ ·), taken.2)

def onSynchronizedSegment (tcb : TcpTcb) (segment : TcpSegmentMeta) (actions : List TcpAction) :
    Except TcpError (List TcpAction) × TcpTcb :=
  if !tcb.segmentAcceptable segment then
    let rejected := tcb.rejectUnacceptableSegment
    (.ok (actions ++ rejected.1), rejected.2)
  else if segment.flags.syn then
    (.ok [.challengeAck], tcb)
  else if !segment.flags.ack then
    (.ok [], tcb)
  else if segment.acknowledgment.any (fun acknowledgment => after acknowledgment tcb.sendNext) then
    (.ok (actions ++ [.defensiveAck tcb.ack]), tcb)
  else
    let received := tcb.receiveSegment segment
    (received.1.map (actions ++ ·), received.2)

def onReset (tcb : TcpTcb) (segment : TcpSegmentMeta) : List TcpAction × TcpTcb :=
  if segment.sequence = tcb.recvNext then
    ([.closed], { tcb with state := .closed })
  else if tcb.sequenceInReceiveWindow segment.sequence then
    ([.challengeAck], tcb)
  else
    ([], tcb)

def onSegment (tcb : TcpTcb) (segment : TcpSegmentMeta) :
    Except TcpError (List TcpAction) × TcpTcb :=
  if tcb.state = .closed then
    (.error .closed, tcb)
  else if tcb.state = .synSent then
    let opened := tcb.onSynSentSegment segment
    (.ok opened.1, opened.2)
  else
    let segment := tcb.effectiveSegment segment
    if segment.flags.rst then
      let reset := tcb.onReset segment
      (.ok reset.1, reset.2)
    else
      let handshake := tcb.completePassiveHandshake segment
      if handshake.1 then
        handshake.2.2.onSynchronizedSegment segment handshake.2.1
      else
        (.ok handshake.2.1, handshake.2.2)

/-! ### Application and timers -/

def sendFin (tcb : TcpTcb) (state : TcpState) : List TcpAction × TcpTcb :=
  let closed : TcpTcb :=
    { tcb with state, sendNext := advance tcb.sendNext 1 }
  ([.send (closed.control .finAck tcb.sendNext), .armRetransmission closed.rto.rtoMs], closed)

def startClose (tcb : TcpTcb) : List TcpAction × TcpTcb :=
  match tcb.state with
  | .established => tcb.sendFin .finWait1
  | .closeWait => tcb.sendFin .lastAck
  | _ => ([], tcb)

def windowCandidate (tcb : TcpTcb) : SeqNumber :=
  advance tcb.recvNext
    (advertisableReceiveCapacity tcb.receiveAvailable tcb.receiveWindowScale)

def offerWindow (tcb : TcpTcb) : List TcpAction × TcpTcb :=
  if after tcb.windowCandidate tcb.advertisedRightEdge ∧ tcb.windowUpdateThreshold ≤
        distanceFrom tcb.windowCandidate tcb.advertisedRightEdge then
    TcpTcb.answer { tcb with advertisedRightEdge := tcb.windowCandidate } .send
  else
    ([], tcb)

def onConsumed (tcb : TcpTcb) (amount : Nat) : Except TcpError (List TcpAction) × TcpTcb :=
  if tcb.recvBuffered < amount then
    (.error .consumedBeyondBuffered, tcb)
  else
    let offered := offerWindow { tcb with recvBuffered := tcb.recvBuffered - amount }
    (.ok offered.1, offered.2)

def sendData (tcb : TcpTcb) (amount : Nat) : List TcpAction × TcpTcb :=
  let sent := cancelDelayedAck { tcb with sendNext := advance tcb.sendNext amount }
  let arm : List TcpAction :=
    if tcb.sendUnacked = tcb.sendNext then [.armRetransmission sent.2.rto.rtoMs] else []
  (sent.1 ++ [.sendPayload (sent.2.control .ackOnly tcb.sendNext)] ++ arm, sent.2)

def onSend (tcb : TcpTcb) (amount : Nat) : Except TcpError (List TcpAction) × TcpTcb :=
  if tcb.state ≠ .established ∧ tcb.state ≠ .closeWait then
    (.error .invalidSendState, tcb)
  else if tcb.sendAvailable < amount then
    (.error .sendWindowExceeded, tcb)
  else if amount = 0 then
    (.ok [], tcb)
  else
    let sent := tcb.sendData amount
    (.ok sent.1, sent.2)

def onAppEvent (tcb : TcpTcb) (event : AppEvent) : Except TcpError (List TcpAction) × TcpTcb :=
  if tcb.state = .closed then
    (.error .closed, tcb)
  else
    match event with
    | .consumed amount => tcb.onConsumed amount
    | .send amount => tcb.onSend amount
    | .close =>
      if tcb.state = .synSent then
        (.ok [.disarmRetransmission, .closed], { tcb with state := .closed })
      else
        let cancelled := tcb.cancelDelayedAck
        let closed := cancelled.2.startClose
        (.ok (cancelled.1 ++ closed.1), closed.2)
    | .abort =>
      if tcb.state = .synSent then
        (.ok [.disarmRetransmission, .closed], { tcb with state := .closed })
      else
        let cancelled := cancelDelayedAck { tcb with state := .closed }
        (.ok (cancelled.1 ++
          [.send (cancelled.2.control .rstAck cancelled.2.sendNext), .closed]), cancelled.2)

def retransmission (tcb : TcpTcb) : Option TcpAction :=
  match tcb.state with
  | .synSent => some (.send (tcb.control .synOnly tcb.sendUnacked))
  | .synReceived => some (.send (tcb.control .synAck tcb.sendUnacked))
  | .established | .closeWait =>
    some (.retransmitPayload (tcb.control .ackOnly tcb.sendUnacked))
  | .finWait1 | .closing | .lastAck =>
    if tcb.hasOutstandingPayload then
      some (.retransmitPayload (tcb.control .ackOnly tcb.sendUnacked))
    else
      some (.send (tcb.control .finAck tcb.sendUnacked))
  | _ => none

def onTimer (tcb : TcpTcb) (event : TimerEvent) : Except TcpError (List TcpAction) × TcpTcb :=
  if tcb.state = .closed then
    (.error .closed, tcb)
  else
    match event with
    | .retransmission =>
      if tcb.sendUnacked = tcb.sendNext then
        (.ok [], tcb)
      else
        let tcb : TcpTcb :=
          { tcb with
            congestion := tcb.congestion.onTimeout tcb.flightSize
            rto := tcb.rto.backoff }
        match tcb.retransmission with
        | some action => (.ok [action, .armRetransmission tcb.rto.rtoMs], tcb)
        | none => (.ok [], tcb)
    | .delayedAck =>
      if tcb.delayedAckPending then
        let tcb : TcpTcb := { tcb with delayedAckPending := false }
        (.ok [.send tcb.ack], tcb)
      else
        (.ok [], tcb)
    | .timeWaitExpired =>
      if tcb.state = .timeWait then
        (.ok [.closed], { tcb with state := .closed })
      else
        (.ok [], tcb)
    | .persist | .keepalive | .finWait2Timeout => (.ok [], tcb)

end TcpTcb

end Sail.Netstack
