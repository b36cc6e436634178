/-
The relay of two streams, after `net/relay.rs`.

Directions are taken apart at the calls they make: to the streams, to their timers and to
the clock. Each event answers one call, at its own instant. The journal of what was moved
and asked is not in the code: it is what the results are stated with.
-/

import Sail.Lib.Runs
import Sail.Net.CopyBuffer

namespace Sail.Net

open Bytes

structure RelayTimeouts where
  writeStall : Nat
  aToBIdle : Nat
  bToAIdle : Nat

inductive TransferState where
  | running (copy : CopyBuffer)
  | shuttingDown (count : Nat)
  | done
deriving DecidableEq

inductive Expired where
  | writeStall
  | idle
deriving DecidableEq

/-! ### One direction -/

structure Direction where
  state : TransferState
  count : Nat
  /-- When bytes last moved this way, or the other direction closed, whichever is later. -/
  lastProgress : Nat
  /-- Set once the other direction is done: how long this one may then stand still. -/
  idleTimeout : Option Nat
  timer : Option Nat
deriving DecidableEq

/-- What a direction asks for. `stamp` reads the clock behind a copy that moved bytes;
`timer` and `clock` are the two calls of the loop that waits for a deadline. -/
inductive Point where
  | copy (ask : CopyAsk)
  | stamp (result : CopyStep)
  | shutdown
  | timer (deadline : Nat) (expired : Expired)
  | clock (deadline : Nat) (expired : Expired)
deriving DecidableEq

inductive DirectionStep where
  | asks (point : Point)
  | pending
  | ready (result : Except RelayFault Unit)
deriving DecidableEq

namespace Direction

def new (copy : CopyBuffer) (now : Nat) : Direction :=
  { state := .running copy, count := 0, lastProgress := now, idleTimeout := none, timer := none }

def isDone (direction : Direction) : Bool :=
  direction.state = .done

def otherDone (direction : Direction) (idle now : Nat) : Direction :=
  match direction.state with
  | .running _ => { direction with lastProgress := now, idleTimeout := some idle }
  | _ => direction

def blocked (direction : Direction) : Bool :=
  match direction.state with
  | .running copy => copy.writerBlocked
  | .shuttingDown _ => true
  | .done => false

def deadline (direction : Direction) (writeStall : Nat) : Option (Nat × Expired) :=
  let stall := direction.lastProgress + writeStall
  match direction.blocked, direction.idleTimeout.map (direction.lastProgress + ·) with
  | true, some idle => if stall ≤ idle then some (stall, .writeStall) else some (idle, .idle)
  | true, none => some (stall, .writeStall)
  | false, some idle => some (idle, .idle)
  | false, none => none

def pollDeadline (direction : Direction) (writeStall : Nat) : Direction × DirectionStep :=
  match direction.deadline writeStall with
  | none => (direction, .pending)
  | some (deadline, expired) =>
    let due := direction.timer.getD deadline
    ({ direction with timer := some (if deadline < due then deadline else due) },
      .asks (.timer deadline expired))

/-- The copy is over: its buffer goes back, and the writer is to be shut down. Shutting down,
only a stalled writer is given up on. -/
def closing (pool : BufferPool) (direction : Direction) (count : Nat) :
    BufferPool × Direction × DirectionStep :=
  let closed := { direction with state := .shuttingDown count, idleTimeout := none }
  match direction.state with
  | .running copy => ((copy.giveBack pool).1, closed, .asks .shutdown)
  | _ => (pool, closed, .asks .shutdown)

def copied (pool : BufferPool) (direction : Direction) (writeStall : Nat) :
    CopyStep → BufferPool × Direction × DirectionStep
  | .asks ask => (pool, direction, .asks (.copy ask))
  | .pending => (pool, direction.pollDeadline writeStall)
  | .ready (.error fault) => (pool, direction, .ready (.error fault))
  | .ready (.ok count) => direction.closing pool count

def takeProgress (direction : Direction) (now : Nat) : Direction :=
  match direction.state with
  | .running copy =>
    { direction with state := .running { copy with progressed := false }, lastProgress := now }
  | _ => direction

/-- A copy has returned. If it moved bytes, the clock is read first; a copy that failed ends
the relay, and its time is of no use. -/
def returned (pool : BufferPool) (direction : Direction) (copy : CopyBuffer) (writeStall : Nat) :
    CopyStep → BufferPool × Direction × DirectionStep
  | .asks ask => (pool, { direction with state := .running copy }, .asks (.copy ask))
  | .ready (.error fault) =>
    (pool, { direction with state := .running copy }, .ready (.error fault))
  | result =>
    if copy.progressed then
      (pool, { direction with state := .running copy }, .asks (.stamp result))
    else { direction with state := .running copy }.copied pool writeStall result

def expire (pool : BufferPool) (direction : Direction) :
    Expired → BufferPool × Direction × DirectionStep
  | .writeStall => (pool, direction, .ready (.error .writeStalled))
  | .idle =>
    match direction.state with
    | .running copy => direction.closing pool copy.amt
    | _ => (pool, direction, .ready (.error .writeStalled))

def enter (pool : BufferPool) (direction : Direction) : BufferPool × Direction × DirectionStep :=
  match direction.state with
  | .running copy =>
    ((copy.loop pool).1, { direction with state := .running (copy.loop pool).2.1 },
      .asks (.copy (copy.loop pool).2.2))
  | .shuttingDown _ => (pool, direction, .asks .shutdown)
  | .done => (pool, direction, .ready (.ok ()))

def Answers (direction : Direction) : Point → Answer → Bool
  | .copy ask, answer =>
    match direction.state with
    | .running copy => copy.Answers ask answer
    | _ => false
  | .stamp _, .clock => true
  | .shutdown, .finished => true
  | .shutdown, .pending => true
  | .shutdown, .failed => true
  | .timer _ _, .finished => true
  | .timer _ _, .pending => true
  | .clock _ _, .clock => true
  | _, _ => false

def answered (pool : BufferPool) (direction : Direction) (writeStall now : Nat) :
    Point → Answer → BufferPool × Direction × DirectionStep
  | .copy ask, answer =>
    match direction.state with
    | .running copy =>
      let (pool, copy, result) := copy.answered pool ask answer
      direction.returned pool copy writeStall result
    | _ => (pool, direction, .asks (.copy ask))
  | .stamp result, _ => (direction.takeProgress now).copied pool writeStall result
  | .shutdown, .finished =>
    match direction.state with
    | .shuttingDown count =>
      (pool, { direction with count, state := .done }, .ready (.ok ()))
    | _ => (pool, direction, .asks .shutdown)
  | .shutdown, .pending => (pool, direction.pollDeadline writeStall)
  | .shutdown, _ => (pool, direction, .ready (.error .stream))
  | .timer deadline expired, .finished => (pool, direction, .asks (.clock deadline expired))
  | .timer _ _, _ => (pool, direction, .pending)
  | .clock deadline expired, _ =>
    if deadline ≤ now then direction.expire pool expired
    else (pool, { direction with timer := some deadline }, .asks (.timer deadline expired))

end Direction

/-! ### Journals -/

inductive Held where
  | write
  | flush
  | shutdown
deriving DecidableEq

structure Journal where
  /-- The bytes read from the reader, and those the writer took. -/
  taken : Bytes
  given : Bytes
  ended : Bool
  /-- The writer was flushed behind the last byte it took. -/
  flushed : Bool
  /-- The writer was asked to shut down. -/
  closed : Bool
  /-- The direction was closed for idleness. -/
  idle : Bool
  /-- What the writer holds up, and when it was first asked for it. -/
  held : Option (Held × Nat)
  lastByte : Nat
  otherEnd : Option Nat
  /-- The timer was set on the task in the poll that is going on, or in the last one. -/
  registered : Bool
deriving DecidableEq

namespace Journal

def new (now : Nat) : Journal :=
  { taken := [], given := [], ended := false, flushed := true, closed := false, idle := false
    held := none, lastByte := now, otherEnd := none, registered := false }

def askedSince (journal : Journal) (what : Held) (now : Nat) : Nat :=
  match journal.held with
  | some (other, since) => if other = what then since else now
  | none => now

def hold (journal : Journal) (what : Held) (now : Nat) : Journal :=
  { journal with held := some (what, journal.askedSince what now) }

def noteCopy (journal : Journal) (copy : CopyBuffer) (now : Nat) : CopyAsk → Answer → Journal
  | .read, .bytes data =>
    if data.isEmpty then { journal with ended := true }
    else { journal with taken := journal.taken ++ data, lastByte := now, held := none }
  | .write, .took count =>
    if count = 0 then journal
    else
      { journal with
        given := journal.given ++ copy.unwritten.take count
        flushed := false, lastByte := now, held := none }
  | .write, .pending => journal.hold .write now
  | .flushWaiting, .pending => journal.hold .flush now
  | .flushEnd, .pending => journal.hold .flush now
  | .flushWaiting, .finished => { journal with flushed := true, held := none }
  | .flushEnd, .finished => { journal with flushed := true, held := none }
  | _, _ => journal

def note (journal : Journal) (direction : Direction) (now : Nat) : Point → Answer → Journal
  | .copy ask, answer =>
    match direction.state with
    | .running copy => journal.noteCopy copy now ask answer
    | _ => journal
  | .shutdown, .pending => { journal.hold .shutdown now with closed := true }
  | .shutdown, .finished => { journal with closed := true, held := none }
  | .shutdown, _ => { journal with closed := true }
  | .timer _ _, .pending => { journal with registered := true }
  | .clock deadline .idle, .clock =>
    match direction.state with
    | .running _ => { journal with idle := decide (deadline ≤ now) }
    | _ => journal
  | _, _ => journal

end Journal

/-! ### Both directions -/

inductive Way where
  | aToB
  | bToA
deriving DecidableEq

def Way.other : Way → Way
  | .aToB => .bToA
  | .bToA => .aToB

/-- How long a direction may stand still once the other one is done. -/
def RelayTimeouts.idle (timeouts : RelayTimeouts) : Way → Nat
  | .aToB => timeouts.aToBIdle
  | .bToA => timeouts.bToAIdle

structure Pass where
  bGoesFirst : Bool
  aToBOpen : Bool
  bToAOpen : Bool
deriving DecidableEq

namespace Pass

def first (pass : Pass) : Way :=
  if pass.bGoesFirst then .bToA else .aToB

def isOpen (pass : Pass) : Way → Bool
  | .aToB => pass.aToBOpen
  | .bToA => pass.bToAOpen

end Pass

/-- Where the relay stands: between two polls, at a question of one of its directions, at
the end of a pass that left a direction done, or returned. -/
inductive Control where
  | waiting
  | asking (pass : Pass) (way : Way) (point : Point)
  | looping (pass : Pass) (way : Way)
  | returned (result : Except RelayFault (Nat × Nat))
deriving DecidableEq

structure Side where
  direction : Direction
  journal : Journal
deriving DecidableEq

structure Relay where
  aToB : Side
  bToA : Side
  timeouts : RelayTimeouts
  bFirst : Bool
  pool : BufferPool
  control : Control
  /-- When the last event was. -/
  latest : Nat

/-- An answer, or the beginning of a poll, with what the thread's pool then holds. -/
inductive RelayInput where
  | poll (pool : BufferPool)
  | answer (answer : Answer)

structure RelayEvent where
  now : Nat
  input : RelayInput

namespace Relay

def side (relay : Relay) : Way → Side
  | .aToB => relay.aToB
  | .bToA => relay.bToA

def setSide (relay : Relay) (side : Side) : Way → Relay
  | .aToB => { relay with aToB := side }
  | .bToA => { relay with bToA := side }

def setDirection (relay : Relay) (way : Way) (direction : Direction) : Relay :=
  relay.setSide { relay.side way with direction } way

def new (copy : CopyBuffer) (timeouts : RelayTimeouts) (now : Nat) : Relay :=
  { aToB := { direction := .new copy now, journal := .new now }
    bToA := { direction := .new copy now, journal := .new now }
    timeouts, bFirst := false
    pool := { bytes := 0, buffers := [], max := 0 }
    control := .waiting, latest := now }

def withTimeout (minSize maxSize : Nat) (timeouts : RelayTimeouts) (now : Nat) :
    Except String Relay :=
  (CopyBuffer.newAdaptive minSize maxSize).map (new · timeouts now)

def isDone (relay : Relay) (way : Way) : Bool :=
  (relay.side way).direction.isDone

def endPass (relay : Relay) (pass : Pass) : Relay :=
  if relay.isDone .aToB ∧ relay.isDone .bToA then
    { relay with
      control := .returned (.ok (relay.aToB.direction.count, relay.bToA.direction.count)) }
  else if pass.aToBOpen ∧ relay.isDone .aToB then { relay with control := .looping pass .bToA }
  else if pass.bToAOpen ∧ relay.isDone .bToA then { relay with control := .looping pass .aToB }
  else { relay with control := .waiting }

def afterSecond (relay : Relay) (pass : Pass) (way : Way) : DirectionStep → Relay
  | .asks point => { relay with control := .asking pass way point }
  | .ready (.error fault) => { relay with control := .returned (.error fault) }
  | _ => relay.endPass pass

def enterWay (relay : Relay) (way : Way) : Relay × DirectionStep :=
  let (pool, direction, step) := (relay.side way).direction.enter relay.pool
  ({ relay with pool }.setDirection way direction, step)

def second (relay : Relay) (pass : Pass) : Relay :=
  let way := pass.first.other
  if pass.isOpen way then (relay.enterWay way).1.afterSecond pass way (relay.enterWay way).2
  else relay.endPass pass

def afterStep (relay : Relay) (pass : Pass) (way : Way) : DirectionStep → Relay
  | .asks point => { relay with control := .asking pass way point }
  | .ready (.error fault) => { relay with control := .returned (.error fault) }
  | _ => if way = pass.first then relay.second pass else relay.endPass pass

def startPass (relay : Relay) (bGoesFirst : Bool) : Relay :=
  let pass : Pass :=
    { bGoesFirst, aToBOpen := !relay.isDone .aToB, bToAOpen := !relay.isDone .bToA }
  if pass.isOpen pass.first then
    (relay.enterWay pass.first).1.afterStep pass pass.first (relay.enterWay pass.first).2
  else relay.second pass

def unregister (side : Side) : Side :=
  { side with journal := { side.journal with registered := false } }

def poll (relay : Relay) (pool : BufferPool) : Relay :=
  { relay with
    pool, bFirst := !relay.bFirst
    aToB := unregister relay.aToB, bToA := unregister relay.bToA }.startPass relay.bFirst

def otherDone (relay : Relay) (way : Way) (now : Nat) : Relay :=
  let side := relay.side way
  relay.setSide
    { direction := side.direction.otherDone (relay.timeouts.idle way) now
      journal := { side.journal with otherEnd := some now } } way

def answered (relay : Relay) (way : Way) (point : Point) (answer : Answer) (now : Nat) :
    Relay × DirectionStep :=
  let side := relay.side way
  let (pool, direction, step) :=
    side.direction.answered relay.pool relay.timeouts.writeStall now point answer
  ({ relay with pool }.setSide
    { direction, journal := side.journal.note side.direction now point answer } way,
    step)

/-- One event, at its instant. An answer that cannot be given to what was asked for is not
one. -/
def step : Machine Relay RelayEvent :=
  fun relay event =>
    let relay := { relay with latest := event.now }
    match relay.control, event.input with
    | .waiting, .poll pool => relay.poll pool
    | .asking pass way point, .answer answer =>
      if (relay.side way).direction.Answers point answer then
        (relay.answered way point answer event.now).1.afterStep pass way
          (relay.answered way point answer event.now).2
      else relay
    | .looping pass way, .answer .clock => (relay.otherDone way event.now).startPass pass.bGoesFirst
    | _, _ => relay

end Relay

end Sail.Net
