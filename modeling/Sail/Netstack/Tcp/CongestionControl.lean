/-
Congestion window and retransmission timeout of one connection.

NewReno keeps the congestion window, the slow start threshold and the recovery
point; the estimator keeps the smoothed round-trip time. Sizes are bytes, times
are milliseconds, and the saturating operations of the source are written out.
-/

import Sail.Lib.MachineWord
import Sail.Lib.SerialNumber

namespace Sail.Netstack

open SerialNumber

abbrev SeqNumber := BitVec 32

structure NewReno where
  maximumSegmentSize : Nat
  congestionWindow : Nat
  slowStartThreshold : Nat
  congestionAvoidanceCredit : Nat
  duplicateAcks : Nat
  recover : Option SeqNumber
deriving DecidableEq

namespace NewReno

def new (maximumSegmentSize : Nat) : NewReno :=
  { maximumSegmentSize
    congestionWindow :=
      min (satMul maximumSegmentSize 4) (max (satMul maximumSegmentSize 2) 4380)
    slowStartThreshold := usizeMax
    congestionAvoidanceCredit := 0
    duplicateAcks := 0
    recover := none }

def limitedTransmitAllowance (reno : NewReno) : Nat :=
  match reno.recover with
  | some _ => 0
  | none => satMul (min reno.duplicateAcks 2) reno.maximumSegmentSize

/-- The congestion avoidance loop; each round takes at least one byte of
credit, so the credit bounds the number of rounds. -/
def avoidCongestion : Nat → NewReno → NewReno
  | 0, reno => reno
  | rounds + 1, reno =>
    if reno.congestionWindow ≤ reno.congestionAvoidanceCredit then
      avoidCongestion rounds
        { reno with
          congestionAvoidanceCredit :=
            reno.congestionAvoidanceCredit - reno.congestionWindow
          congestionWindow := satAdd reno.congestionWindow reno.maximumSegmentSize }
    else
      reno

def onNewAck (reno : NewReno) (acknowledgedBytes : Nat) (acknowledgment : SeqNumber) :
    Bool × NewReno :=
  let reno : NewReno := { reno with duplicateAcks := 0 }
  match reno.recover with
  | some recover =>
    if before acknowledgment recover then
      (true,
        { reno with
          congestionWindow :=
            max (satAdd (reno.congestionWindow - acknowledgedBytes) reno.maximumSegmentSize)
              reno.maximumSegmentSize })
    else
      (false,
        { reno with
          recover := none
          congestionWindow := reno.slowStartThreshold
          congestionAvoidanceCredit := 0 })
  | none =>
    if reno.congestionWindow < reno.slowStartThreshold then
      (false,
        { reno with
          congestionWindow :=
            satAdd reno.congestionWindow (min acknowledgedBytes reno.maximumSegmentSize) })
    else
      let credit := satAdd reno.congestionAvoidanceCredit acknowledgedBytes
      (false, avoidCongestion credit { reno with congestionAvoidanceCredit := credit })

def enterRecovery (reno : NewReno) (flightSize : Nat) (sendNext : SeqNumber) : NewReno :=
  let threshold := max (flightSize / 2) (satMul reno.maximumSegmentSize 2)
  { reno with
    slowStartThreshold := threshold
    congestionWindow := satAdd threshold (satMul reno.maximumSegmentSize 3)
    congestionAvoidanceCredit := 0
    recover := some sendNext }

def onDuplicateAck (reno : NewReno) (flightSize : Nat) (sendNext : SeqNumber) : Bool × NewReno :=
  match reno.recover with
  | some _ =>
    (false,
      { reno with
        congestionWindow := satAdd reno.congestionWindow reno.maximumSegmentSize })
  | none =>
    let reno : NewReno := { reno with duplicateAcks := min (reno.duplicateAcks + 1) 255 }
    if reno.duplicateAcks ≠ 3 then
      (false, reno)
    else
      (true, reno.enterRecovery flightSize sendNext)

def onSackLoss (reno : NewReno) (flightSize : Nat) (sendNext : SeqNumber) : Bool × NewReno :=
  match reno.recover with
  | some _ => (false, reno)
  | none =>
    let threshold := max (flightSize / 2) (satMul reno.maximumSegmentSize 2)
    (true,
      { reno with
        slowStartThreshold := threshold
        congestionWindow := threshold
        congestionAvoidanceCredit := 0
        recover := some sendNext })

def onTimeout (reno : NewReno) (flightSize : Nat) : NewReno :=
  { reno with
    slowStartThreshold := max (flightSize / 2) (satMul reno.maximumSegmentSize 2)
    congestionWindow := reno.maximumSegmentSize
    congestionAvoidanceCredit := 0
    duplicateAcks := 0
    recover := none }

end NewReno

def minRtoMs : Nat := 1000
def maxRtoMs : Nat := 60000

structure RtoEstimator where
  smoothedRttMs : Option Nat
  rttVarianceMs : Nat
  rtoMs : Nat
deriving DecidableEq

namespace RtoEstimator

def default : RtoEstimator :=
  { smoothedRttMs := none
    rttVarianceMs := 0
    rtoMs := minRtoMs }

def clampRto (value : Nat) : Nat :=
  min (max value minRtoMs) maxRtoMs

def recordSample (rto : RtoEstimator) (sampleMs : Nat) : RtoEstimator :=
  let sample := max sampleMs 1
  let updated : Nat × Nat :=
    match rto.smoothedRttMs with
    | some smoothed =>
      let error := (smoothed - sample) + (sample - smoothed)
      (satAdd (satMul smoothed 7) sample / 8, satAdd (satMul rto.rttVarianceMs 3) error / 4)
    | none => (sample, sample / 2)
  { smoothedRttMs := some updated.1
    rttVarianceMs := updated.2
    rtoMs := clampRto (satAdd updated.1 (max (satMul updated.2 4) 1)) }

def backoff (rto : RtoEstimator) : RtoEstimator :=
  { rto with rtoMs := min (satMul rto.rtoMs 2) maxRtoMs }

end RtoEstimator

end Sail.Netstack
