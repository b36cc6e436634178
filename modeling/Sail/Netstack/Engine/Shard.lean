/-
Routing packets to shards.

The router keeps a bounded directory from flow keys to shards and falls back to the
key's hash. What the ledger answers to each attempt to charge a directory entry is an
argument, and the queues between the shards are left out.
-/

import Sail.Lib.KeyedMap
import Sail.Netstack.Transport

namespace Sail.Netstack

open Bytes

inductive TransportProtocol where
  | tcp
  | udp
  | icmp
  | fragment (nextHeader : UInt8)
  | other (protocol : UInt8)
deriving DecidableEq

structure IpEndpoint where
  source : SocketAddr
  destination : SocketAddr
  protocol : TransportProtocol
deriving DecidableEq

abbrev NetworkGeneration := Nat

structure FlowKey where
  endpoint : IpEndpoint
  generation : NetworkGeneration
deriving DecidableEq

inductive PacketClass where
  | control
  | data
deriving DecidableEq

/-! ### Classification -/

/-- The key that all fragments of a datagram are meant to share: the two halves
of the identification stand in for the ports. -/
def fragmentKey (source destination : IpAddr) (identification : Nat) (nextHeader : UInt8)
    (generation : NetworkGeneration) : FlowKey :=
  { endpoint :=
      { source := ⟨source, identification / 65536⟩
        destination := ⟨destination, identification % 65536⟩
        protocol := .fragment nextHeader }
    generation }

def classifyTransport (ip : ParsedIpPacket) : Except WireError (IpEndpoint × PacketClass) :=
  if ip.nextHeader = 6 then
    match parseTcpSegment ip false with
    | .error error => .error error
    | .ok segment =>
      .ok
        ({ source := segment.source, destination := segment.destination, protocol := .tcp },
          if segment.payload.isEmpty then .control else .data)
  else if ip.nextHeader = 17 then
    match parseUdpDatagram ip false with
    | .error error => .error error
    | .ok datagram =>
      .ok
        ({ source := datagram.source, destination := datagram.destination, protocol := .udp },
          .data)
  else if ip.nextHeader = 1 ∨ ip.nextHeader = 58 then
    .ok
      ({ source := ⟨ip.source, 0⟩, destination := ⟨ip.destination, 0⟩, protocol := .icmp },
        .control)
  else
    .ok
      ({ source := ⟨ip.source, 0⟩
         destination := ⟨ip.destination, 0⟩
         protocol := .other ip.nextHeader },
        .control)

def classifyPacketWithClass (packet : Bytes) (generation : NetworkGeneration) :
    Except WireError (FlowKey × PacketClass) :=
  match parseIpPacket packet true with
  | .error error => .error error
  | .ok ip =>
    match ip.fragment.filter (fun fragment => !fragment.isAtomic) with
    | some fragment =>
      .ok (fragmentKey ip.source ip.destination fragment.identification ip.nextHeader
        generation, .data)
    | none =>
      match classifyTransport ip with
      | .error error => .error error
      | .ok (endpoint, packetClass) => .ok (⟨endpoint, generation⟩, packetClass)

/-! ### The directory -/

abbrev ShardId := Nat

inductive Route where
  | here (shard : ShardId)
  | forward (shard : ShardId)
deriving DecidableEq

def Route.target : Route → ShardId
  | .here shard => shard
  | .forward shard => shard

inductive ShardRouterError where
  | invalidShardCount
  | invalidQueueConfig
deriving DecidableEq

structure ShardRouter where
  shardCount : Nat
  hasher : FlowKey → Nat
  directory : KeyedMap FlowKey ShardId
  directoryOrder : List FlowKey
  maxDirectoryEntries : Nat
  directoryAdmissionFailures : Nat
  localRoutes : Nat
  forwardedRoutes : Nat

namespace ShardRouter

def new (shardCount maxDirectoryEntries : Nat) (hasher : FlowKey → Nat) :
    Except ShardRouterError ShardRouter :=
  if shardCount ≤ 65535 ∧ 0 < shardCount then
    .ok
      { shardCount
        hasher
        directory := ∅
        directoryOrder := []
        maxDirectoryEntries
        directoryAdmissionFailures := 0
        localRoutes := 0
        forwardedRoutes := 0 }
  else .error .invalidShardCount

def evictFrom (directory : KeyedMap FlowKey ShardId) :
    List FlowKey → KeyedMap FlowKey ShardId × List FlowKey
  | [] => (directory, [])
  | key :: rest =>
    match directory.lookup key with
    | some _ => (directory.erase key, rest)
    | none => evictFrom directory rest

def evictOldestDirectoryEntry (router : ShardRouter) : ShardRouter :=
  let evicted := evictFrom router.directory router.directoryOrder
  { router with directory := evicted.1, directoryOrder := evicted.2 }

/-- Make room for a new entry: at most one eviction for the bound and one for
the ledger. The two flags say whether the ledger grants the charge at the first
and at the second attempt. -/
def makeRoom (router : ShardRouter) (firstGranted secondGranted : Bool) : Bool × ShardRouter :=
  let bounded :=
    if router.directory.toList.length = router.maxDirectoryEntries then
      router.evictOldestDirectoryEntry
    else router
  if firstGranted = false ∧ bounded.directory.toList.length ≠ 0 then
    (secondGranted, bounded.evictOldestDirectoryEntry)
  else (firstGranted, bounded)

def record (router : ShardRouter) (key : FlowKey) (target : ShardId)
    (firstGranted secondGranted : Bool) : ShardRouter :=
  match router.directory.lookup key with
  | some _ => router
  | none =>
    let admitted := router.makeRoom firstGranted secondGranted
    if admitted.1 then
      { admitted.2 with
        directory := admitted.2.directory.insert key target
        directoryOrder := admitted.2.directoryOrder ++ [key] }
    else
      { admitted.2 with
        directoryAdmissionFailures := min (admitted.2.directoryAdmissionFailures + 1) u64Max }

def route (router : ShardRouter) (inputShard : ShardId) (key : FlowKey)
    (firstGranted secondGranted : Bool) : Except ShardRouterError Route × ShardRouter :=
  if router.shardCount ≤ inputShard then (.error .invalidShardCount, router)
  else
    let index := router.hasher key % router.shardCount
    if 65535 < index then (.error .invalidShardCount, router)
    else
      let target := (router.directory.lookup key).getD index
      let recorded := router.record key target firstGranted secondGranted
      if target = inputShard then
        (.ok (.here target), { recorded with localRoutes := min (recorded.localRoutes + 1) u64Max })
      else
        (.ok (.forward target),
          { recorded with forwardedRoutes := min (recorded.forwardedRoutes + 1) u64Max })

def remove (router : ShardRouter) (key : FlowKey) : Bool × ShardRouter :=
  match router.directory.lookup key with
  | none => (false, router)
  | some _ =>
    (true,
      { router with
        directory := router.directory.erase key
        directoryOrder := router.directoryOrder.filter (fun queued => queued ≠ key) })

def resetNetwork (router : ShardRouter) : ShardRouter :=
  { router with directory := ∅, directoryOrder := [] }

end ShardRouter

/-! ### Runs of the router -/

inductive RouterCall where
  | route (inputShard : ShardId) (key : FlowKey) (firstGranted secondGranted : Bool)
  | remove (key : FlowKey)
  | resetNetwork
deriving DecidableEq

namespace ShardRouter

def call (router : ShardRouter) : RouterCall → ShardRouter
  | .route inputShard key firstGranted secondGranted =>
    (router.route inputShard key firstGranted secondGranted).2
  | .remove key => (router.remove key).2
  | .resetNetwork => router.resetNetwork

def owner (router : ShardRouter) (key : FlowKey) : ShardId :=
  router.hasher key % router.shardCount

structure Consistent (router : ShardRouter) : Prop where
  positive : 0 < router.shardCount
  bounded : router.shardCount ≤ 65535
  entries : ∀ key shard, router.directory.lookup key = some shard → shard = router.owner key

variable {router : ShardRouter}

theorem new_consistent {shardCount maxDirectoryEntries : Nat} {hasher : FlowKey → Nat}
    (built : new shardCount maxDirectoryEntries hasher = .ok router) :
    router.Consistent ∧ router.shardCount = shardCount ∧ router.hasher = hasher := by
  unfold new at built
  split_ifs at built with valid
  cases built
  exact ⟨⟨valid.2, valid.1, nofun⟩, rfl, rfl⟩

theorem evictFrom_lookup {directory : KeyedMap FlowKey ShardId} {order : List FlowKey}
    {key : FlowKey} {shard : ShardId}
    (found : (evictFrom directory order).1.lookup key = some shard) :
    directory.lookup key = some shard := by
  induction order with
  | nil => exact found
  | cons oldest rest ih =>
    unfold evictFrom at found
    cases present : directory.lookup oldest with
    | none =>
      rw [present] at found
      exact ih found
    | some entry =>
      rw [present] at found
      exact KeyedMap.lookup_of_erase found

def Shrinks (router after : ShardRouter) : Prop :=
  after.shardCount = router.shardCount ∧ after.hasher = router.hasher ∧
    ∀ key shard, after.directory.lookup key = some shard → router.directory.lookup key = some shard

theorem evict_shrinks (router : ShardRouter) : Shrinks router router.evictOldestDirectoryEntry :=
  ⟨rfl, rfl, fun _ _ found => evictFrom_lookup found⟩

theorem Shrinks.refl (router : ShardRouter) : Shrinks router router :=
  ⟨rfl, rfl, fun _ _ found => found⟩

theorem Shrinks.trans {first second third : ShardRouter} (left : Shrinks first second)
    (right : Shrinks second third) : Shrinks first third :=
  ⟨right.1.trans left.1, right.2.1.trans left.2.1,
    fun key shard found => left.2.2 key shard (right.2.2 key shard found)⟩

theorem makeRoom_shrinks (router : ShardRouter) (firstGranted secondGranted : Bool) :
    Shrinks router (router.makeRoom firstGranted secondGranted).2 := by
  have bounded : Shrinks router
      (if router.directory.toList.length = router.maxDirectoryEntries then
        router.evictOldestDirectoryEntry else router) := by
    split_ifs
    · exact evict_shrinks router
    · exact Shrinks.refl router
  unfold makeRoom
  dsimp only
  split_ifs at bounded ⊢
  · exact bounded.trans (evict_shrinks _)
  · exact bounded
  · exact bounded.trans (evict_shrinks _)
  · exact bounded

theorem Shrinks.consistent {after : ShardRouter} (shrinks : Shrinks router after)
    (consistent : router.Consistent) : after.Consistent := by
  obtain ⟨sameCount, sameHasher, kept⟩ := shrinks
  refine ⟨?_, ?_, ?_⟩
  · rw [sameCount]
    exact consistent.positive
  · rw [sameCount]
    exact consistent.bounded
  · intro key shard found
    rw [owner, sameHasher, sameCount]
    exact consistent.entries key shard (kept key shard found)

section

variable (consistent : router.Consistent)

include consistent

theorem Consistent.getD_eq (key : FlowKey) :
    (router.directory.lookup key).getD (router.owner key) = router.owner key := by
  cases found : router.directory.lookup key with
  | none => rfl
  | some shard => exact consistent.entries key shard found

theorem Consistent.record (key : FlowKey) (firstGranted secondGranted : Bool) :
    (router.record key (router.owner key) firstGranted secondGranted).Consistent ∧
      (router.record key (router.owner key) firstGranted secondGranted).shardCount =
        router.shardCount ∧
      (router.record key (router.owner key) firstGranted secondGranted).hasher = router.hasher := by
  unfold ShardRouter.record
  cases found : router.directory.lookup key with
  | some shard => exact ⟨consistent, rfl, rfl⟩
  | none =>
    have shrinks := makeRoom_shrinks router firstGranted secondGranted
    have room := shrinks.consistent consistent
    obtain ⟨sameCount, sameHasher, _⟩ := shrinks
    dsimp only
    split_ifs
    · refine ⟨⟨room.positive, room.bounded, ?_⟩, sameCount, sameHasher⟩
      refine KeyedMap.every_insert room.entries ?_
      rw [owner, owner, sameCount, sameHasher]
    · exact ⟨⟨room.positive, room.bounded, room.entries⟩, sameCount, sameHasher⟩

/-- A route names the shard of the key's hash, whatever the directory holds. -/
theorem Consistent.route_target {inputShard : ShardId} {key : FlowKey}
    {firstGranted secondGranted : Bool} (valid : inputShard < router.shardCount) :
    ∃ route, (router.route inputShard key firstGranted secondGranted).1 = .ok route ∧
      route.target = router.owner key := by
  have small : ¬65535 < router.hasher key % router.shardCount := by
    have inRange := Nat.mod_lt (router.hasher key) consistent.positive
    have bounded := consistent.bounded
    omega
  unfold ShardRouter.route
  rw [if_neg (Nat.not_le.mpr valid)]
  dsimp only
  have target := consistent.getD_eq key
  unfold owner at target ⊢
  rw [target]
  split_ifs
  · exact ⟨_, rfl, rfl⟩
  · exact ⟨_, rfl, rfl⟩

theorem Consistent.call (call : RouterCall) :
    (router.call call).Consistent ∧ (router.call call).shardCount = router.shardCount ∧
      (router.call call).hasher = router.hasher := by
  cases call with
  | route inputShard key firstGranted secondGranted =>
    have target := consistent.getD_eq key
    have recorded := consistent.record key firstGranted secondGranted
    unfold owner at target recorded
    unfold ShardRouter.call ShardRouter.route
    dsimp only
    rw [target]
    split_ifs
    · exact ⟨consistent, rfl, rfl⟩
    · exact ⟨consistent, rfl, rfl⟩
    · obtain ⟨kept, same⟩ := recorded
      exact ⟨⟨kept.positive, kept.bounded, kept.entries⟩, same⟩
    · obtain ⟨kept, same⟩ := recorded
      exact ⟨⟨kept.positive, kept.bounded, kept.entries⟩, same⟩
  | remove key =>
    unfold ShardRouter.call ShardRouter.remove
    dsimp only
    cases found : router.directory.lookup key with
    | none => exact ⟨consistent, rfl, rfl⟩
    | some shard =>
      refine ⟨⟨consistent.positive, consistent.bounded, ?_⟩, rfl, rfl⟩
      exact fun other target entry =>
        consistent.entries other target (KeyedMap.lookup_of_erase entry)
  | resetNetwork =>
    refine ⟨⟨consistent.positive, consistent.bounded, ?_⟩, rfl, rfl⟩
    intro other target entry
    cases entry

/-- Whatever is routed, removed or reset, the directory stays consistent. -/
theorem Consistent.calls (calls : List RouterCall) :
    (calls.foldl ShardRouter.call router).Consistent ∧
      (calls.foldl ShardRouter.call router).shardCount = router.shardCount ∧
      (calls.foldl ShardRouter.call router).hasher = router.hasher := by
  induction calls generalizing router with
  | nil => exact ⟨consistent, rfl, rfl⟩
  | cons first rest ih =>
    obtain ⟨next, sameCount, sameHasher⟩ := consistent.call first
    obtain ⟨last, lastCount, lastHasher⟩ := ih next
    exact ⟨last, lastCount.trans sameCount, lastHasher.trans sameHasher⟩

end

end ShardRouter

end Sail.Netstack
