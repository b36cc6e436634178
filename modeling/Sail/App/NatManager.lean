/-
UDP sessions and the tasks that work for them, after `app/nat_manager.rs`.

An entry is put in by the first datagram, and with it tasks start. Every section under
the map's lock is one step; what else the tasks wait for is answered from outside. The
number of an entry's insertion is not in the code: it says which entry a task is for.
-/

import Sail.Lib.KeyedMap
import Sail.Lib.Freshness
import Sail.Lib.Runs
import Sail.Session.SocksAddr

namespace Sail.App

open Session

/-- Who sent a datagram. Users are compared with the credentials they came with. -/
structure DatagramSource where
  address : SocketAddr
  streamId : Option Nat
  processName : Option String
  user : Option String
  association : Option Nat
  resourceLease : Option Nat
deriving DecidableEq

structure NatKey where
  inboundTag : String
  source : DatagramSource
deriving DecidableEq

structure UdpPacket where
  data : List UInt8
  srcAddr : SocksAddr
  dstAddr : SocksAddr
deriving DecidableEq

structure NatEntry where
  insertion : Nat
  activity : Nat
  timeout : Nat
deriving DecidableEq

inductive NatStage where
  | starting
  | refused
  | dispatching
  | timed (udpTimeout : Nat)
  | failed
  | receiving
  | delivering (port : UInt16)
  | delivered (port : UInt16)
  | leaving
  | done
deriving DecidableEq

/-- The tasks of one insertion. The uplink has its channel, with the packets read off it
while routing in front. -/
structure NatTasks where
  key : NatKey
  stage : NatStage
  sniffed : List UdpPacket
  queue : List UdpPacket
  uplinkEnded : Bool
deriving DecidableEq

def NatStage.dispatched : NatStage → Bool
  | .receiving => true
  | .delivering _ => true
  | .delivered _ => true
  | .leaving => true
  | .done => true
  | _ => false

/-- A task that has stopped before the uplink was started reads no more packets. -/
def NatTasks.stand (tasks : NatTasks) (stage : NatStage) : NatTasks :=
  { tasks with
    stage
    uplinkEnded := tasks.uplinkEnded ||
      decide (tasks.stage = .refused ∨ tasks.stage = .failed) && decide (stage = .done) }

structure NatManager where
  sessions : KeyedMap NatKey NatEntry
  tasks : KeyedMap Nat NatTasks
  next : Nat

structure NatSend where
  source : DatagramSource
  inboundTag : String
  session : Option String
  packet : UdpPacket
  restored : Bool
  associationEnded : Bool
  added : Nat
  sent : Nat

inductive NatMove where
  | admission (granted : Bool)
  | sniff
  | dispatched (udpTimeout : Option Nat)
  | dispatchFailed
  | received (port : UInt16)
  | receiveFailed
  | sentToClient (succeeded : Bool)
  | lock (now : Nat)
  | abort
deriving DecidableEq

inductive NatEvent where
  | send (call : NatSend)
  | endSource (inboundTag : String) (source : DatagramSource)
  | endAssociation (association : Nat)
  | idleCheck (now : Nat)
  | task (insertion : Nat) (move : NatMove)
  | uplink (insertion : Nat) (goesOn : Bool)

def defaultUdpTimeout : Nat := 5 * 60 * second

namespace NatManager

def new : NatManager :=
  { sessions := ∅, tasks := ∅, next := 0 }

def endSessions (ends : NatKey → Bool) (nat : NatManager) : NatManager :=
  { nat with sessions := KeyedMap.retain (fun key _ => !ends key) nat.sessions }

def idleCheck (now : Nat) (nat : NatManager) : NatManager :=
  { nat with
    sessions := KeyedMap.retain (fun _ entry => !decide (entry.timeout ≤ now - entry.activity))
      nat.sessions }

section Send

variable (udpTimeouts : String → Option Nat) (uplinkChannelSize : Nat)

/-- A packet goes into its session's channel, if that has room and is read. -/
def enqueue (tasks : NatTasks) (packet : UdpPacket) : NatTasks :=
  if tasks.queue.length < uplinkChannelSize ∧ !tasks.uplinkEnded then
    { tasks with queue := tasks.queue ++ [packet] }
  else tasks

def sendTo (key : NatKey) (packet : UdpPacket) (now : Nat) (nat : NatManager) : NatManager :=
  match nat.sessions.lookup key with
  | none => nat
  | some entry =>
    { nat with
      sessions := nat.sessions.insert key { entry with activity := now }
      tasks := KeyedMap.modify entry.insertion (enqueue uplinkChannelSize · packet) nat.tasks }

def addSession (key : NatKey) (now : Nat) (nat : NatManager) : NatManager :=
  { sessions := nat.sessions.insert key
      { insertion := nat.next, activity := now
        timeout := (udpTimeouts key.inboundTag).getD defaultUdpTimeout }
    tasks := nat.tasks.insert nat.next
      { key, stage := .starting, sniffed := [], queue := [], uplinkEnded := false }
    next := nat.next + 1 }

end Send

end NatManager

namespace NatSend

def key (call : NatSend) : NatKey :=
  { inboundTag := call.inboundTag, source := call.source }

def sessionTag (call : NatSend) : String :=
  match call.session with
  | none => call.inboundTag
  | some tag => if tag.isEmpty then call.inboundTag else tag

def addedKey (call : NatSend) : NatKey :=
  { inboundTag := call.sessionTag, source := call.source }

def adds (call : NatSend) (nat : NatManager) : Bool :=
  call.restored && (nat.sessions.lookup call.key).isNone &&
    !(call.source.association.isSome && call.associationEnded)

end NatSend

namespace NatManager

section Events

variable (udpTimeouts : String → Option Nat) (uplinkChannelSize : Nat)

def send (call : NatSend) (nat : NatManager) : NatManager :=
  if !call.restored then nat
  else if (nat.sessions.lookup call.key).isSome then
    sendTo uplinkChannelSize call.key call.packet call.sent nat
  else if call.source.association.isSome && call.associationEnded then nat
  else
    sendTo uplinkChannelSize call.key call.packet call.sent
      (addSession udpTimeouts call.addedKey call.added nat)

/-- The activity a downlink datagram leaves behind. One from port 53 is taken for a DNS
answer, and the session's activity is set back by its idle time. -/
def touched (port : UInt16) (now : Nat) (entry : NatEntry) : NatEntry :=
  if port = 53 then
    if entry.timeout ≤ entry.activity then
      { entry with activity := entry.activity - entry.timeout }
    else entry
  else { entry with activity := now }

def underLock (key : NatKey) (now : Nat) (sessions : KeyedMap NatKey NatEntry) :
    NatStage → KeyedMap NatKey NatEntry × NatStage
  | .refused => (sessions.erase key, .done)
  | .failed => (sessions.erase key, .done)
  | .timed udpTimeout =>
    (KeyedMap.modify key (fun entry => { entry with timeout := udpTimeout }) sessions, .receiving)
  | .delivered port => (KeyedMap.modify key (touched port now) sessions, .receiving)
  | .leaving => (sessions.erase key, .done)
  | stage => (sessions, stage)

/-- Where a task stands behind what happened outside the lock. `gone` says that the
insertion's entry has left the map, which is what the downlink is aborted for. -/
def outside (gone : Bool) : NatMove → NatStage → NatStage
  | .admission granted, .starting => if granted then .dispatching else .refused
  | .dispatched none, .dispatching => .receiving
  | .dispatched (some udpTimeout), .dispatching => .timed udpTimeout
  | .dispatchFailed, .dispatching => .failed
  | .received port, .receiving => .delivering port
  | .receiveFailed, .receiving => .leaving
  | .sentToClient succeeded, .delivering port => if succeeded then .delivered port else .leaving
  | .abort, .receiving => if gone then .done else .receiving
  | .abort, .delivering port => if gone then .done else .delivering port
  | .abort, .delivered port => if gone then .done else .delivered port
  | .abort, .leaving => if gone then .done else .leaving
  | _, stage => stage

def gone (insertion : Nat) (tasks : NatTasks) (nat : NatManager) : Bool :=
  !(nat.sessions.lookup tasks.key).any (fun entry => entry.insertion = insertion)

def move (insertion : Nat) (step : NatMove) (nat : NatManager) : NatManager :=
  match nat.tasks.lookup insertion with
  | none => nat
  | some tasks =>
    match step with
    | .lock now =>
      { nat with
        sessions := (underLock tasks.key now nat.sessions tasks.stage).1
        tasks := nat.tasks.insert insertion
          (tasks.stand (underLock tasks.key now nat.sessions tasks.stage).2) }
    | .sniff =>
      if tasks.stage = .dispatching then
        { nat with
          tasks := nat.tasks.insert insertion
            { tasks with sniffed := tasks.sniffed ++ tasks.queue.take 1
                         queue := tasks.queue.drop 1 } }
      else nat
    | step =>
      { nat with
        tasks := nat.tasks.insert insertion
          (tasks.stand (outside (gone insertion tasks nat) step tasks.stage)) }

def uplink (insertion : Nat) (goesOn : Bool) (nat : NatManager) : NatManager :=
  match nat.tasks.lookup insertion with
  | none => nat
  | some tasks =>
    if tasks.stage.dispatched && !tasks.uplinkEnded then
      let tasks' :=
        match tasks.sniffed, tasks.queue with
        | _ :: sniffed, _ => { tasks with sniffed, uplinkEnded := !goesOn }
        | [], _ :: queue => { tasks with queue, uplinkEnded := !goesOn }
        | [], [] => { tasks with uplinkEnded := gone insertion tasks nat }
      { nat with tasks := nat.tasks.insert insertion tasks' }
    else nat

def step : Machine NatManager NatEvent :=
  fun nat event =>
    match event with
    | .send call => send udpTimeouts uplinkChannelSize call nat
    | .endSource inboundTag source =>
      endSessions (fun key => key = { inboundTag, source }) nat
    | .endAssociation association =>
      endSessions (fun key => key.source.association = some association) nat
    | .idleCheck now => idleCheck now nat
    | .task insertion step => move insertion step nat
    | .uplink insertion goesOn => uplink insertion goesOn nat

end Events

end NatManager

end Sail.App
