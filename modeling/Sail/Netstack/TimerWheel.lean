/-
The hierarchical timer wheel of one shard.

Four levels of 256 buckets hold timer identifiers; the entries behind them are
kept in a map. Sixty-four-bit quantities are natural numbers, with the wrapping
and saturating operations of the source written out.
-/

import Mathlib.Data.Finset.Sort
import Mathlib.Order.Lattice.Nat
import Sail.Lib.KeyedMap
import Sail.Lib.MachineWord

namespace Sail.Netstack

variable {T : Type}

abbrev TimerId := Nat

inductive TimerError where
  | clockWentBackwards (currentMs requestedMs : Nat)
  | deadlineOutOfRange
deriving DecidableEq

def timerLevels : Nat := 4
def timerSlots : Nat := 256
def largeAdvanceTicks : Nat := 65536

structure Entry (T : Type) where
  deadlineTick : Nat
  level : Nat
  slot : Nat
  value : T
deriving DecidableEq

structure TimerWheel (T : Type) where
  tickMs : Nat
  tickPositive : 0 < tickMs
  currentTick : Nat
  nextId : Nat
  buckets : Nat → Nat → Finset TimerId
  occupied : Nat → Nat → BitVec 64
  entries : KeyedMap TimerId (Entry T)

def slotFor (tick level : Nat) : Nat :=
  (tick >>> (8 * level)) % timerSlots

def levelFor (delta : Nat) : Nat :=
  if delta ≤ 255 then 0
  else if delta ≤ 65535 then 1
  else if delta ≤ 16777215 then 2
  else 3

def bucketFor (currentTick deadlineTick : Nat) : Nat × Nat :=
  let level := levelFor (deadlineTick - currentTick)
  (level, slotFor deadlineTick level)

namespace TimerWheel

def new (tickMs nowMs : Nat) (tickPositive : 0 < tickMs) : TimerWheel T :=
  { tickMs
    tickPositive
    currentTick := nowMs / tickMs
    nextId := 0
    buckets := fun _ _ => ∅
    occupied := fun _ _ => 0
    entries := ∅ }

def nowMs (wheel : TimerWheel T) : Nat :=
  min (wheel.currentTick * wheel.tickMs) u64Max

def setBucket (wheel : TimerWheel T) (level slot : Nat) (ids : Finset TimerId) :
    Nat → Nat → Finset TimerId :=
  fun level' slot' =>
    if level' = level ∧ slot' = slot then ids else wheel.buckets level' slot'

def setOccupied (wheel : TimerWheel T) (level word : Nat) (bits : BitVec 64) :
    Nat → Nat → BitVec 64 :=
  fun level' word' =>
    if level' = level ∧ word' = word then bits else wheel.occupied level' word'

def markOccupied (wheel : TimerWheel T) (level slot : Nat) : Nat → Nat → BitVec 64 :=
  wheel.setOccupied level (slot / 64)
    (wheel.occupied level (slot / 64) ||| (1#64 <<< (slot % 64)))

def clearOccupied (wheel : TimerWheel T) (level slot : Nat) : Nat → Nat → BitVec 64 :=
  wheel.setOccupied level (slot / 64)
    (wheel.occupied level (slot / 64) &&& ~~~(1#64 <<< (slot % 64)))

def insertInto (wheel : TimerWheel T) (level slot : Nat) (id : TimerId) : TimerWheel T :=
  { wheel with
    buckets := wheel.setBucket level slot (insert id (wheel.buckets level slot))
    occupied := wheel.markOccupied level slot }

def removeFrom (wheel : TimerWheel T) (level slot : Nat) (id : TimerId) : TimerWheel T :=
  let bucket := (wheel.buckets level slot).erase id
  { wheel with
    buckets := wheel.setBucket level slot bucket
    occupied := if bucket = ∅ then wheel.clearOccupied level slot else wheel.occupied }

def takeSlot (wheel : TimerWheel T) (level slot : Nat) : List TimerId × TimerWheel T :=
  ((wheel.buckets level slot).sort (· ≤ ·),
    { wheel with
      buckets := wheel.setBucket level slot ∅
      occupied := wheel.clearOccupied level slot })

def place (wheel : TimerWheel T) (id : TimerId) (deadlineTick : Nat) : TimerWheel T :=
  let bucket := bucketFor wheel.currentTick deadlineTick
  let moved : TimerWheel T :=
    { wheel with
      entries := wheel.entries.modify id
        (fun entry => { entry with level := bucket.1, slot := bucket.2 }) }
  moved.insertInto bucket.1 bucket.2 id

def schedule (wheel : TimerWheel T) (deadlineMs : Nat) (value : T) :
    Except TimerError TimerId × TimerWheel T :=
  let deadlineTick :=
    max (divCeil deadlineMs wheel.tickMs) (min (wheel.currentTick + 1) u64Max)
  if 2 ^ 32 ≤ deadlineTick - wheel.currentTick then
    (.error .deadlineOutOfRange, wheel)
  else
    let id := wheel.nextId
    let bucket := bucketFor wheel.currentTick deadlineTick
    let stored : TimerWheel T :=
      { wheel with
        nextId := (wheel.nextId + 1) % 2 ^ 64
        entries := wheel.entries.insert id
          { deadlineTick
            level := bucket.1
            slot := bucket.2
            value } }
    (.ok id, stored.insertInto bucket.1 bucket.2 id)

def cancel (wheel : TimerWheel T) (id : TimerId) : Option T × TimerWheel T :=
  match wheel.entries.lookup id with
  | none => (none, wheel)
  | some entry =>
    let removed : TimerWheel T := { wheel with entries := wheel.entries.erase id }
    (some entry.value, removed.removeFrom entry.level entry.slot id)

/-! ### Advancing the clock -/

def replace (wheel : TimerWheel T) (id : TimerId) : TimerWheel T :=
  match wheel.entries.lookup id with
  | none => wheel
  | some entry => wheel.place id entry.deadlineTick

def cascadeLevel (wheel : TimerWheel T) (level : Nat) : TimerWheel T :=
  if wheel.currentTick % 2 ^ (8 * level) ≠ 0 then
    wheel
  else
    let taken := wheel.takeSlot level (slotFor wheel.currentTick level)
    taken.1.foldl replace taken.2

def cascadeBoundaries (wheel : TimerWheel T) : TimerWheel T :=
  [3, 2, 1].foldl cascadeLevel wheel

def expire (progress : List T × TimerWheel T) (id : TimerId) : List T × TimerWheel T :=
  match progress.2.entries.lookup id with
  | none => progress
  | some entry =>
    if entry.deadlineTick ≤ progress.2.currentTick then
      (progress.1 ++ [entry.value],
        { progress.2 with entries := progress.2.entries.erase id })
    else
      (progress.1, progress.2.place id entry.deadlineTick)

def tick (progress : List T × TimerWheel T) : List T × TimerWheel T :=
  let moved : TimerWheel T :=
    { progress.2 with currentTick := progress.2.currentTick + 1 }
  let cascaded := moved.cascadeBoundaries
  let taken := cascaded.takeSlot 0 (slotFor cascaded.currentTick 0)
  taken.1.foldl expire (progress.1, taken.2)

def dueBefore (left right : Nat × Nat) : Prop :=
  left.1 < right.1 ∨ (left.1 = right.1 ∧ left.2 ≤ right.2)

instance : DecidableRel dueBefore :=
  fun _left _right => inferInstanceAs (Decidable (_ ∨ _))

def collect (progress : List T × KeyedMap TimerId (Entry T)) (key : Nat × TimerId) :
    List T × KeyedMap TimerId (Entry T) :=
  match progress.2.lookup key.2 with
  | none => progress
  | some entry => (progress.1 ++ [entry.value], progress.2.erase key.2)

def largeAdvance (wheel : TimerWheel T) (targetTick : Nat) : List T × TimerWheel T :=
  let due := (wheel.entries.toList.filterMap (fun entry =>
    if entry.2.deadlineTick ≤ targetTick then some (entry.2.deadlineTick, entry.1)
    else none)).insertionSort dueBefore
  let collected := due.foldl collect ([], wheel.entries)
  let cleared : TimerWheel T :=
    { wheel with
      currentTick := targetTick
      buckets := fun _ _ => ∅
      occupied := fun _ _ => 0
      entries := collected.2 }
  let future := cleared.entries.toList.map (fun entry => (entry.1, entry.2.deadlineTick))
  (collected.1, future.foldl (fun wheel entry => wheel.place entry.1 entry.2) cleared)

def advanceTo (wheel : TimerWheel T) (nowMs : Nat) : Except TimerError (List T) × TimerWheel T :=
  if nowMs < wheel.nowMs then
    (.error (.clockWentBackwards wheel.nowMs nowMs), wheel)
  else
    let targetTick :=
      if nowMs = u64Max then divCeil nowMs wheel.tickMs else nowMs / wheel.tickMs
    if largeAdvanceTicks < targetTick - wheel.currentTick then
      let advanced := wheel.largeAdvance targetTick
      (.ok advanced.1, advanced.2)
    else
      let advanced := tick^[targetTick - wheel.currentTick] ([], wheel)
      (.ok advanced.1, advanced.2)

/-! ### The next deadline -/

def trailingZeros (word : BitVec 64) : Nat :=
  (List.range 64).findIdx (fun bit => word.getLsbD bit)

def firstOccupiedFrom (occupied : Nat → BitVec 64) (start : Nat) :
    Nat → Nat → BitVec 64 → Option Nat
  | 0, _, _ => none
  | count + 1, word, mask =>
    let hits := occupied (word % 4) &&& mask
    if hits ≠ 0 then
      some ((word % 4 * 64 + trailingZeros hits + timerSlots - start) % timerSlots)
    else firstOccupiedFrom occupied start count (word + 1) (BitVec.allOnes 64)

/-- How many buckets past `start` the first occupied one is. The start word is
looked at twice: from `start` up first, all of it last. -/
def firstOccupied (occupied : Nat → BitVec 64) (start : Nat) : Option Nat :=
  firstOccupiedFrom occupied start 5 (start / 64) (BitVec.allOnes 64 <<< (start % 64))

def windowStart (window level : Nat) : Nat :=
  (window <<< (8 * level)) % 2 ^ 64

def soonestFrom (wheel : TimerWheel T) : List Nat → Option Nat → Option Nat
  | [], soonest => soonest
  | level :: levels, soonest =>
    let window := wheel.currentTick >>> (8 * level)
    if soonest.any (fun tick => tick ≤ windowStart (satAdd window 1) level) then soonest
    else
      match firstOccupied (wheel.occupied level) (slotFor wheel.currentTick level) with
      | none => wheel.soonestFrom levels soonest
      | some ahead =>
        let tick := max (windowStart (satAdd window ahead) level)
          ((wheel.currentTick + 1) % 2 ^ 64)
        wheel.soonestFrom levels (some (soonest.elim tick (fun other => min other tick)))

def nextDeadlineMs (wheel : TimerWheel T) : Option Nat :=
  if wheel.entries.toList.isEmpty then none
  else (wheel.soonestFrom [0, 1, 2, 3] none).map (fun tick => satMul tick wheel.tickMs)

end TimerWheel

end Sail.Netstack
