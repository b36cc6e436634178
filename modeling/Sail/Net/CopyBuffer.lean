/-
One direction's copy buffer and the pool it comes from, after `net/relay.rs`.

A copy is taken apart at the calls it makes. Streams answer as they like, but a reader
gives no more than there is room for, and a writer takes no more than it is offered.
-/

import Sail.Lib.Bytes

namespace Sail.Net

open Bytes

inductive RelayFault where
  /-- An error of one of the streams. -/
  | stream
  /-- "new buffer failed". -/
  | newBuffer
  /-- "write zero byte into writer". -/
  | writeZero
  /-- "relay write stalled". -/
  | writeStalled
deriving DecidableEq

/-! ### The buffer pool -/

structure BufferPool where
  bytes : Nat
  buffers : List Bytes
  max : Nat
deriving DecidableEq

namespace BufferPool

def rposition (size : Nat) (buffers : List Bytes) : Option Nat :=
  (List.range buffers.length).reverse.find? (fun place => (buffers.getD place []).length = size)

def swapRemove (place : Nat) (buffers : List Bytes) : List Bytes :=
  (buffers.set place (buffers.getLastD [])).dropLast

def acquireBuffer (pool : BufferPool) (size : Nat) (allocates : Bool) :
    BufferPool × Except RelayFault Bytes :=
  match rposition size pool.buffers with
  | some place =>
    let buffer := pool.buffers.getD place []
    ({ pool with bytes := pool.bytes - buffer.length, buffers := swapRemove place pool.buffers },
      .ok buffer)
  | none => (pool, if allocates then .ok (List.replicate size 0) else .error .newBuffer)

def keep (pool : BufferPool) (buffer : Bytes) : BufferPool :=
  if pool.bytes + buffer.length ≤ pool.max then
    { pool with bytes := pool.bytes + buffer.length, buffers := pool.buffers ++ [buffer] }
  else pool

end BufferPool

/-! ### The copy -/

structure CopyBuffer where
  readDone : Bool
  needFlush : Bool
  pos : Nat
  cap : Nat
  amt : Nat
  size : Nat
  minSize : Nat
  maxSize : Nat
  buf : Option Bytes
  /-- Whether bytes were read or written since the flag was last taken. -/
  progressed : Bool
  /-- Whether the last pending answer was the writer's. -/
  writerBlocked : Bool
deriving DecidableEq

/-- What a copy asks for: a buffer, bytes of its reader, room in its writer, or a flush,
with nothing to read or at the end. -/
inductive CopyAsk where
  | buffer
  | read
  | write
  | flushWaiting
  | flushEnd
deriving DecidableEq

/-- What a call is answered. No bytes are the reader's end. -/
inductive Answer where
  | buffer (allocates : Bool)
  | bytes (data : Bytes)
  | took (count : Nat)
  | finished
  | pending
  | failed
  | clock
deriving DecidableEq

inductive CopyStep where
  | asks (ask : CopyAsk)
  | pending
  | ready (result : Except RelayFault Nat)
deriving DecidableEq

namespace CopyBuffer

def withSizes (minSize maxSize : Nat) : CopyBuffer :=
  { readDone := false, needFlush := false, pos := 0, cap := 0, amt := 0, size := minSize
    minSize, maxSize, buf := none, progressed := false
    writerBlocked := false }

def newAdaptive (minSize maxSize : Nat) : Except String CopyBuffer :=
  if minSize = 0 ∨ maxSize < minSize then
    .error s!"invalid buffer sizes: min={minSize} max={maxSize}"
  else .ok (withSizes minSize maxSize)

/-- A read that fills the buffer doubles the next one, and one that uses at most a quarter
of it halves the next one. -/
def adaptSize (copy : CopyBuffer) (count : Nat) : CopyBuffer :=
  if count = copy.size ∧ copy.size < copy.maxSize then
    { copy with size := min (copy.size * 2) copy.maxSize }
  else if count ≤ copy.size / 4 ∧ copy.minSize < copy.size then
    { copy with size := max (copy.size / 2) copy.minSize }
  else copy

def unwritten (copy : CopyBuffer) : Bytes :=
  slice (copy.buf.getD []) copy.pos copy.cap

def loop (pool : BufferPool) (copy : CopyBuffer) : BufferPool × CopyBuffer × CopyAsk :=
  if copy.pos = copy.cap ∧ copy.readDone = false then
    match copy.buf with
    | none => (pool, copy, .buffer)
    | some buffer =>
      if buffer.length ≠ copy.size then (pool.keep buffer, { copy with buf := none }, .buffer)
      else (pool, copy, .read)
  else if copy.pos < copy.cap then (pool, { copy with writerBlocked := true }, .write)
  else (pool, { copy with writerBlocked := true }, .flushEnd)

def loopOn (pool : BufferPool) (copy : CopyBuffer) : BufferPool × CopyBuffer × CopyStep :=
  ((copy.loop pool).1, (copy.loop pool).2.1, .asks (copy.loop pool).2.2)

def filled (copy : CopyBuffer) (data : Bytes) : CopyBuffer :=
  if data.isEmpty then { copy with readDone := true }
  else
    { (copy.adaptSize data.length) with
      pos := 0, cap := data.length, progressed := true
      buf := copy.buf.map (fun buffer => data ++ buffer.drop data.length) }

def wrote (copy : CopyBuffer) (count : Nat) : CopyBuffer :=
  { copy with
    pos := copy.pos + count, amt := copy.amt + count, needFlush := true, progressed := true }

def giveBack (pool : BufferPool) (copy : CopyBuffer) : BufferPool × CopyBuffer :=
  match copy.buf with
  | none => (pool, copy)
  | some buffer => (pool.keep buffer, { copy with buf := none })

def Answers (copy : CopyBuffer) : CopyAsk → Answer → Bool
  | .buffer, .buffer _ => true
  | .read, .bytes data => decide (data.length ≤ (copy.buf.getD []).length)
  | .read, .pending => true
  | .read, .failed => true
  | .write, .took count => decide (count ≤ copy.cap - copy.pos)
  | .write, .pending => true
  | .write, .failed => true
  | .flushWaiting, .finished => true
  | .flushWaiting, .pending => true
  | .flushWaiting, .failed => true
  | .flushEnd, .finished => true
  | .flushEnd, .pending => true
  | .flushEnd, .failed => true
  | _, _ => false

def answered (pool : BufferPool) (copy : CopyBuffer) :
    CopyAsk → Answer → BufferPool × CopyBuffer × CopyStep
  | .buffer, .buffer allocates =>
    match pool.acquireBuffer copy.size allocates with
    | (pool, .error fault) => (pool, copy, .ready (.error fault))
    | (pool, .ok buffer) => (pool, { copy with buf := some buffer }, .asks .read)
  | .read, .bytes data => (copy.filled data).loopOn pool
  | .read, .pending =>
    let (pool, copy) := copy.giveBack pool
    if copy.needFlush then (pool, { copy with writerBlocked := true }, .asks .flushWaiting)
    else (pool, { copy with writerBlocked := false }, .pending)
  | .write, .took count =>
    if count = 0 then (pool, copy, .ready (.error .writeZero))
    else (copy.wrote count).loopOn pool
  | .write, .pending => (pool, copy, .pending)
  | .flushWaiting, .finished =>
    (pool, { copy with needFlush := false, writerBlocked := false }, .pending)
  | .flushWaiting, .pending => (pool, copy, .pending)
  | .flushEnd, .finished => (pool, copy, .ready (.ok copy.amt))
  | .flushEnd, .pending => (pool, copy, .pending)
  | _, _ => (pool, copy, .ready (.error .stream))

end CopyBuffer

end Sail.Net
