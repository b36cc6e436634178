/-
The multipath stream.

A stream sends each packet down every path that has room, numbered, and puts the
packets that arrive back in order. What a path answers is an argument. The log of
what was done to the paths is not in the code.
-/

import Sail.Lib.KeyedMap
import Sail.Lib.Lanes
import Sail.Lib.MachineWord
import Sail.Protocol.Mptp.Frame

namespace Sail.Protocol.Mptp

abbrev PathId := Nat

structure SubConnection where
  stream : PathId
  readBuf : Bytes
  writeBuf : Bytes
  closed : Bool
  held : Bool
deriving DecidableEq

def SubConnection.new (stream : PathId) : SubConnection :=
  { stream, readBuf := [], writeBuf := [], closed := false, held := false }

/-- What was done to the paths: those that joined, the frames put in their write
buffers, the bytes written to them and the bytes read from them. -/
structure PathLog where
  joined : List PathId
  appended : List (PathId × Frame)
  written : List (PathId × Bytes)
  taken : List (PathId × Bytes)

structure Reordering where
  readBuffer : Bytes
  expectedReadPn : Nat
  reorderBuffer : KeyedMap Nat Bytes
  finPn : Option Nat

structure MptpStream where
  subs : List SubConnection
  newSubsRx : Bool
  inbox : Reordering
  nextPn : Nat
  finSent : Bool
  log : PathLog

inductive Poll (A : Type) where
  | ready (value : A)
  | pending
deriving DecidableEq

inductive ErrorKind where
  | connectionAborted
  | connectionReset
  | unexpectedEof
deriving DecidableEq

structure IoError where
  kind : ErrorKind
  message : String
deriving DecidableEq

/-- The paths that join when they are asked for, and whether none can follow. -/
structure Arrivals where
  streams : List PathId
  ended : Bool

inductive WriteOutcome where
  | ready (count : Nat)
  | failed
  | pending
deriving DecidableEq

inductive ReadOutcome where
  | ready (bytes : Bytes)
  | failed
  | pending
deriving DecidableEq

namespace MptpStream

def new (streams : List PathId) (receiver : Bool) : MptpStream :=
  { subs := streams.map SubConnection.new
    newSubsRx := receiver
    inbox := { readBuffer := [], expectedReadPn := 1, reorderBuffer := ∅, finPn := none }
    nextPn := 1
    finSent := false
    log := { joined := streams, appended := [], written := [], taken := [] } }

/-! ### Paths joining -/

def join (arrivals : Arrivals) (stream : MptpStream) : MptpStream :=
  if stream.newSubsRx then
    { stream with
      subs := stream.subs ++ arrivals.streams.map SubConnection.new
      newSubsRx := !arrivals.ended
      log := { stream.log with joined := stream.log.joined ++ arrivals.streams } }
  else stream

def cleanup (stream : MptpStream) : MptpStream :=
  if 16 < stream.subs.length then
    { stream with subs := stream.subs.filter (fun sub => !sub.closed) }
  else stream

def pollNewSubs (arrivals : Arrivals) (stream : MptpStream) : MptpStream :=
  (stream.join arrivals).cleanup

end MptpStream

/-! ### Writing -/

/-- Writing out under way: the path, the log, the answers that are left, and
whether the path was pending. -/
structure Written where
  sub : SubConnection
  log : PathLog
  answers : List WriteOutcome
  pending : Bool

namespace SubConnection

def close (sub : SubConnection) : SubConnection :=
  { sub with closed := true }

def advance (count : Nat) (sub : SubConnection) : SubConnection :=
  { sub with writeBuf := sub.writeBuf.drop count }

end SubConnection

def PathLog.write (stream : PathId) (bytes : Bytes) (log : PathLog) : PathLog :=
  { log with written := log.written ++ [(stream, bytes)] }

/-- Write to one path until its buffer is empty, it fails or it is pending. When
the stream is being closed, a write of nothing counts as a failure; otherwise it
is tried again. -/
def writeOut (closing : Bool) : List WriteOutcome → SubConnection → PathLog → Written
  | answers, sub, log =>
    if sub.writeBuf.isEmpty then
      { sub, log, answers, pending := false }
    else
      match answers with
      | [] => { sub, log, answers := [], pending := true }
      | .pending :: answers => { sub, log, answers, pending := true }
      | .failed :: answers =>
        { sub := sub.close, log, answers, pending := false }
      | .ready count :: answers =>
        if closing ∧ count = 0 then
          { sub := sub.close, log, answers, pending := false }
        else
          writeOut closing answers (sub.advance count)
            (log.write sub.stream (sub.writeBuf.take count))

structure WrittenSubs where
  subs : List SubConnection
  log : PathLog
  answers : List WriteOutcome
  pending : Bool

def writeSubs (closing : Bool) : List SubConnection → PathLog → List WriteOutcome → WrittenSubs
  | [], log, answers => { subs := [], log, answers, pending := false }
  | sub :: rest, log, answers =>
    if sub.closed then
      let others := writeSubs closing rest log answers
      { others with subs := sub :: others.subs }
    else
      let written := writeOut closing answers sub log
      let others := writeSubs closing rest written.log written.answers
      { others with
        subs := written.sub :: others.subs
        pending := written.pending || others.pending }

structure FlushInput where
  arrivals : Arrivals
  writes : List WriteOutcome

namespace MptpStream

def writePaths (closing : Bool) (writes : List WriteOutcome) (stream : MptpStream) : MptpStream :=
  { stream with
    subs := (writeSubs closing stream.subs stream.log writes).subs
    log := (writeSubs closing stream.subs stream.log writes).log }

def pollFlush (input : FlushInput) (stream : MptpStream) : Poll Unit × MptpStream :=
  let joined := stream.pollNewSubs input.arrivals
  let flushed := joined.writePaths false input.writes
  let active := joined.subs.any (fun sub => !sub.closed)
  let allFlushed := !(writeSubs false joined.subs joined.log input.writes).pending
  let anyFlushed := flushed.subs.any (fun sub => !sub.closed && sub.writeBuf.isEmpty)
  if allFlushed || (anyFlushed && active) then (.ready (), flushed)
  else if !active then (.ready (), flushed)
  else (.pending, flushed)

end MptpStream

def writeLimit : Nat := 64 * 1024

namespace SubConnection

def hasRoom (sub : SubConnection) : Bool :=
  sub.writeBuf.length ≤ writeLimit

def takes (sub : SubConnection) : Bool :=
  !sub.closed && sub.hasRoom

def push (frame : Frame) (sub : SubConnection) : SubConnection :=
  { sub with writeBuf := sub.writeBuf ++ frame.encode }

end SubConnection

structure WriteInput where
  arrivals : Arrivals
  retry : FlushInput
  flush : FlushInput

namespace MptpStream

def append (frame : Frame) (takes : SubConnection → Bool) (stream : MptpStream) : MptpStream :=
  { stream with
    subs := stream.subs.map (fun sub => if takes sub then sub.push frame else sub)
    log :=
      { stream.log with
        appended := stream.log.appended ++
          (stream.subs.filter takes).map (fun sub => (sub.stream, frame)) } }

def broadcast (buf : Bytes) (stream : MptpStream) : MptpStream :=
  append (.data stream.nextPn buf) SubConnection.takes
    { stream with nextPn := wrappingAdd stream.nextPn 1 }

/-- The packet gets its number. The test for a path that takes it comes after. -/
def sendPacket (flush : FlushInput) (buf : Bytes) (stream : MptpStream) :
    Poll (Except IoError Nat) × MptpStream :=
  let sent := stream.broadcast buf
  if stream.subs.any SubConnection.takes then
    (.ready (.ok buf.length), (sent.pollFlush flush).2)
  else (.pending, sent)

def allFull (stream : MptpStream) : Bool :=
  stream.subs.all (fun sub => !sub.takes)

def stillFull (stream : MptpStream) : Bool :=
  stream.subs.all (fun sub => !sub.hasRoom)

def pollWrite (input : WriteInput) (buf : Bytes) (stream : MptpStream) :
    Poll (Except IoError Nat) × MptpStream :=
  let joined := stream.pollNewSubs input.arrivals
  if joined.subs.isEmpty then (.pending, joined)
  else if joined.subs.all SubConnection.closed then
    (.ready (.error ⟨.connectionAborted, "all sub-connections failed (write)"⟩), joined)
  else if joined.allFull then
    let retried := (joined.pollFlush input.retry).2
    if retried.stillFull then (.pending, retried) else retried.sendPacket input.flush buf
  else joined.sendPacket input.flush buf

end MptpStream

structure ShutdownInput where
  arrivals : Arrivals
  writes : List WriteOutcome
  shutdownsPending : List Bool

namespace MptpStream

def queueFin (stream : MptpStream) : MptpStream :=
  if stream.finSent then stream
  else
    { append (.fin (wrappingSub stream.nextPn 1)) (fun sub => !sub.closed) stream with
      finSent := true }

def pollShutdown (input : ShutdownInput) (stream : MptpStream) :
    Poll (Except IoError Unit) × MptpStream :=
  let joined := (stream.pollNewSubs input.arrivals).queueFin
  let active := joined.subs.any (fun sub => !sub.closed)
  let pending := (writeSubs true joined.subs joined.log input.writes).pending
  let flushed := joined.writePaths true input.writes
  let opens := (flushed.subs.filter (fun sub => !sub.closed)).length
  if pending then (.pending, flushed)
  else if (input.shutdownsPending.take opens).any id then (.pending, flushed)
  else if active && flushed.subs.all SubConnection.closed then
    (.ready (.error ⟨.connectionAborted, "all sub-connections failed while closing"⟩), flushed)
  else (.ready (.ok ()), flushed)

end MptpStream

/-! ### Reading -/

def reorderLimit : Nat := 1024

namespace Reordering

def finished (inbox : Reordering) : Bool :=
  inbox.finPn.any (fun last => last < inbox.expectedReadPn)

def accept (payload : Bytes) (inbox : Reordering) : Reordering :=
  { inbox with
    readBuffer := inbox.readBuffer ++ payload
    expectedReadPn := wrappingAdd inbox.expectedReadPn 1 }

def drain : Nat → Reordering → Reordering
  | 0, inbox => inbox
  | fuel + 1, inbox =>
    match inbox.reorderBuffer.lookup inbox.expectedReadPn with
    | none => inbox
    | some payload =>
      drain fuel
        ({ inbox with
          reorderBuffer := inbox.reorderBuffer.erase inbox.expectedReadPn }.accept payload)

def keep (pn : Nat) (payload : Bytes) (inbox : Reordering) : Reordering :=
  if (inbox.reorderBuffer.lookup pn).isSome then inbox
  else { inbox with reorderBuffer := inbox.reorderBuffer.insert pn payload }

def receive (pn : Nat) (payload : Bytes) (inbox : Reordering) : Reordering :=
  if pn < inbox.expectedReadPn then inbox
  else if pn = inbox.expectedReadPn then
    (inbox.accept payload).drain inbox.reorderBuffer.toList.length
  else inbox.keep pn payload

def tooFar (pn : Nat) (inbox : Reordering) : Bool :=
  inbox.expectedReadPn < pn && reorderLimit ≤ inbox.reorderBuffer.toList.length &&
    !(inbox.reorderBuffer.lookup pn).isSome

end Reordering

structure ReadSubs where
  subs : List SubConnection
  log : PathLog
  anyProgress : Bool
  allEof : Bool

def SubConnection.receive (bytes : Bytes) (sub : SubConnection) : SubConnection :=
  { sub with readBuf := sub.readBuf ++ bytes }

def PathLog.take (stream : PathId) (bytes : Bytes) (log : PathLog) : PathLog :=
  { log with taken := log.taken ++ [(stream, bytes)] }

def readSubs : List SubConnection → PathLog → List ReadOutcome → ReadSubs
  | [], log, _ => { subs := [], log, anyProgress := false, allEof := true }
  | sub :: rest, log, answers =>
    if sub.closed then
      let others := readSubs rest log answers
      { others with subs := sub :: others.subs }
    else if sub.held then
      let others := readSubs rest log answers
      { others with subs := sub :: others.subs, allEof := false }
    else
      match answers.headD .pending with
      | .ready [] =>
        let others := readSubs rest log answers.tail
        { others with subs := sub.close :: others.subs }
      | .ready bytes =>
        let others := readSubs rest (log.take sub.stream bytes) answers.tail
        { others with
          subs := sub.receive bytes :: others.subs
          anyProgress := true
          allEof := false }
      | .failed =>
        let others := readSubs rest log answers.tail
        { others with subs := sub.close :: others.subs }
      | .pending =>
        let others := readSubs rest log answers.tail
        { others with subs := sub :: others.subs, allEof := false }

structure Processed where
  sub : SubConnection
  inbox : Reordering
  anyProgress : Bool
  reset : Bool

/-- Take the whole frames of a path in order. A packet too far ahead stays where
it is and the path is held. -/
def processFrames : Nat → SubConnection → Reordering → Bool → Processed
  | 0, sub, inbox, progress =>
    { sub, inbox, anyProgress := progress, reset := false }
  | fuel + 1, sub, inbox, progress =>
    match nextFrame sub.readBuf with
    | none => { sub, inbox, anyProgress := progress, reset := false }
    | some (.data pn payload, rest) =>
      if inbox.tooFar pn then
        { sub := { sub with held := true }, inbox, anyProgress := progress,
          reset := false }
      else
        processFrames fuel { sub with readBuf := rest } (inbox.receive pn payload)
          (progress || pn = inbox.expectedReadPn)
    | some (.fin lastPn, rest) =>
      { sub := { sub with readBuf := rest }, inbox := { inbox with finPn := some lastPn },
        anyProgress := progress, reset := false }
    | some (.rst, rest) =>
      { sub := { sub with readBuf := rest }, inbox, anyProgress := progress,
        reset := true }
    | some (_, rest) => processFrames fuel { sub with readBuf := rest } inbox progress

structure ProcessedSubs where
  subs : List SubConnection
  inbox : Reordering
  anyProgress : Bool
  reset : Bool

def processSub (sub : SubConnection) (inbox : Reordering) (progress : Bool) : Processed :=
  let processed := processFrames sub.readBuf.length { sub with held := false } inbox progress
  { processed with
    anyProgress := processed.anyProgress || (sub.held && !processed.sub.held) }

def processSubs : List SubConnection → Reordering → Bool → ProcessedSubs
  | [], inbox, progress =>
    { subs := [], inbox, anyProgress := progress, reset := false }
  | sub :: rest, inbox, progress =>
    if sub.readBuf.isEmpty then
      let others := processSubs rest inbox progress
      { others with subs := sub :: others.subs }
    else
      let processed := processSub sub inbox progress
      if processed.reset then
        { subs := processed.sub :: rest, inbox := processed.inbox,
          anyProgress := processed.anyProgress, reset := true }
      else
        let others := processSubs rest processed.inbox processed.anyProgress
        { others with subs := processed.sub :: others.subs }

structure ReadInput where
  arrivals : Arrivals
  remaining : Nat
  reads : List ReadOutcome

namespace MptpStream

def give (remaining : Nat) (stream : MptpStream) : Poll (Except IoError Bytes) × MptpStream :=
  let length := min remaining stream.inbox.readBuffer.length
  (.ready (.ok (stream.inbox.readBuffer.take length)),
    { stream with
      inbox := { stream.inbox with readBuffer := stream.inbox.readBuffer.drop length } })

def readPaths (reads : List ReadOutcome) (stream : MptpStream) : MptpStream :=
  { stream with
    subs := (readSubs stream.subs stream.log reads).subs
    log := (readSubs stream.subs stream.log reads).log }

def processPaths (progress : Bool) (stream : MptpStream) : MptpStream :=
  { stream with
    subs := (processSubs stream.subs stream.inbox progress).subs
    inbox := (processSubs stream.subs stream.inbox progress).inbox }

def abortedError : IoError :=
  ⟨.connectionAborted, "all sub-connections closed before the data was complete"⟩

def resetError : IoError :=
  ⟨.connectionReset, "peer sent RST"⟩

def eofError : IoError :=
  ⟨.unexpectedEof, "all sub-connections ended before the data was complete"⟩

/-- The end of a poll that gave nothing: an error if nothing can come any more. -/
def waitFor (progress allEof : Bool) (stream : MptpStream) :
    Poll (Except IoError Bytes) × MptpStream :=
  if !progress && !stream.newSubsRx && !stream.subs.isEmpty &&
      stream.subs.all (fun sub => sub.closed || sub.held) then
    (.ready (.error abortedError), stream)
  else if allEof && !stream.subs.isEmpty then (.ready (.error eofError), stream)
  else (.pending, stream)

/-- The end of a poll: an error after a reset, buffered bytes, or the end of the
stream if there are any. -/
def handOver (remaining : Nat) (reset progress allEof : Bool) (stream : MptpStream) :
    Poll (Except IoError Bytes) × MptpStream :=
  if reset then (.ready (.error resetError), stream)
  else if !stream.inbox.readBuffer.isEmpty then stream.give remaining
  else if stream.inbox.finished then (.ready (.ok []), stream)
  else stream.waitFor progress allEof

def exhausted (stream : MptpStream) : Bool :=
  stream.subs.all SubConnection.closed && stream.subs.all (fun sub => sub.readBuf.isEmpty) &&
    !stream.subs.isEmpty && !stream.newSubsRx

def pollRead (input : ReadInput) (stream : MptpStream) : Poll (Except IoError Bytes) × MptpStream :=
  let joined := stream.pollNewSubs input.arrivals
  if !joined.inbox.readBuffer.isEmpty then joined.give input.remaining
  else if joined.inbox.finished then (.ready (.ok []), joined)
  else
    let pass := readSubs joined.subs joined.log input.reads
    let read := joined.readPaths input.reads
    if read.exhausted then
      if read.inbox.finished then (.ready (.ok []), read) else (.ready (.error abortedError), read)
    else
      let second := processSubs read.subs read.inbox pass.anyProgress
      (read.processPaths pass.anyProgress).handOver input.remaining second.reset second.anyProgress
        pass.allEof

end MptpStream

end Sail.Protocol.Mptp
