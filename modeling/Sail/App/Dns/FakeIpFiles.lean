/-
Fake IPs through the cache file.

Each batch takes the mirror of one state of the store to the mirror of the next, so
whatever part of the queue has been written, the file holds a state the store was in.
-/

import Sail.App.Dns.FakeIpMaps

namespace Sail.App.Dns

open Netstack Sail.Runtime

/-! ### Files that mirror a store -/

/-- A file is kept for some ranges and has the domain of each address of a store. -/
structure Mirrors (key : String) (tables : FakeIpTables) (inner : Inner) : Prop where
  ranges : tables.ranges = some key
  same : ∀ address, (tables.fakeip.lookup address).map Prod.fst = inner.byAddress.lookup address

theorem Mirrors.congr {key : String} {tables : FakeIpTables} {inner other : Inner}
    (mirrors : Mirrors key tables inner)
    (same : ∀ address, other.byAddress.lookup address = inner.byAddress.lookup address) :
    Mirrors key tables other :=
  ⟨mirrors.ranges, fun address => (mirrors.same address).trans (same address).symm⟩

theorem commit_removed (removed : List FakeIpOp)
    (removes : ∀ op ∈ removed, ∃ address, op = FakeIpOp.remove address) (tables : FakeIpTables) :
    (tables.commitFakeIps removed).ranges = tables.ranges ∧
      ∀ address, (tables.commitFakeIps removed).fakeip.lookup address =
        if FakeIpOp.remove address ∈ removed then none else tables.fakeip.lookup address := by
  induction removed generalizing tables with
  | nil => exact ⟨rfl, fun _ => rfl⟩
  | cons op rest ih =>
    obtain ⟨gone, rfl⟩ := removes op List.mem_cons_self
    obtain ⟨ranges, lookups⟩ := ih (List.forall_mem_cons.mp removes).2
      (tables.commitOp (.remove gone))
    refine ⟨ranges, fun address => (lookups address).trans ?_⟩
    change (if _ then _ else (tables.fakeip.erase gone).lookup address) = _
    rw [KeyedMap.lookup_erase_ite]
    by_cases same : address = gone
    · rw [if_pos same, ite_self, same, if_pos List.mem_cons_self]
    · rw [if_neg same]
      refine if_congr ?_ rfl rfl
      rw [List.mem_cons]
      exact (or_iff_right (fun equal => same (FakeIpOp.remove.inj equal))).symm

/-- The file follows what is handed out. -/
theorem Mirrors.handOut {key : String} {tables : FakeIpTables} {inner fresh : Inner}
    (mirrors : Mirrors key tables inner) {v6 : Bool} {domain : String}
    {outcome : IpAddr × Inner × List FakeIpOp}
    (handsOut : HandsOut inner fresh v6 domain outcome) :
    Mirrors key (tables.commitFakeIps outcome.2.2) outcome.2.1 := by
  obtain ⟨removed, current, ops, removes⟩ := handsOut.ops
  obtain ⟨ranges, lookups⟩ := commit_removed removed removes tables
  have written : tables.commitFakeIps outcome.2.2 =
      ((tables.commitFakeIps removed).commitOp (.put outcome.1 domain inner.handedOut)).commitOp
        (.cursor v6 current) := by
    rw [ops]
    unfold FakeIpTables.commitFakeIps
    rw [List.foldl_append]
    rfl
  refine ⟨?_, fun address => ?_⟩
  · rw [written]
    exact ranges.trans mirrors.ranges
  · rw [handsOut.byAddress, written]
    change (((tables.commitFakeIps removed).fakeip.insert outcome.1
      (domain, inner.handedOut)).lookup address).map Prod.fst = _
    rw [KeyedMap.lookup_insert_ite, lookups]
    by_cases same : address = outcome.1
    · rw [if_pos same, if_pos same]
      rfl
    · have members : FakeIpOp.remove address ∈ outcome.2.2 ↔ FakeIpOp.remove address ∈ removed := by
        rw [ops]
        simp
      rw [if_neg same, if_neg same, if_congr members rfl rfl]
      split_ifs
      · rfl
      · exact mirrors.same address

/-! ### All there is -/

variable {byAddress : KeyedMap IpAddr String}

/-- Entries put into a file, none of which is wrong. -/
theorem commit_puts (ops : List FakeIpOp)
    (right : ∀ op ∈ ops, (∃ address domain order, op = FakeIpOp.put address domain order ∧
      byAddress.lookup address = some domain) ∨ ∃ v6 current, op = FakeIpOp.cursor v6 current)
    (tables : FakeIpTables) :
    (tables.commitFakeIps ops).ranges = tables.ranges ∧
      ∀ address, ((∃ domain order, FakeIpOp.put address domain order ∈ ops) ∨
          (tables.fakeip.lookup address).map Prod.fst = byAddress.lookup address) →
        ((tables.commitFakeIps ops).fakeip.lookup address).map Prod.fst =
          byAddress.lookup address := by
  induction ops generalizing tables with
  | nil =>
    refine ⟨rfl, fun address held => ?_⟩
    rcases held with ⟨_, _, impossible⟩ | same
    · cases impossible
    · exact same
  | cons op rest ih =>
    obtain ⟨ranges, lookups⟩ := ih (List.forall_mem_cons.mp right).2
      (tables.commitOp op)
    rcases right op List.mem_cons_self with ⟨put, name, given, rfl, named⟩ | ⟨v6, current, rfl⟩
    · refine ⟨ranges, fun address held => lookups address ?_⟩
      change _ ∨ ((tables.fakeip.insert put (name, given)).lookup address).map Prod.fst = _
      rw [KeyedMap.lookup_insert_ite]
      by_cases same : address = put
      · rw [if_pos same, same, named]
        exact .inr rfl
      · rw [if_neg same]
        refine held.imp_left (fun ⟨domain, order, member⟩ => ⟨domain, order, ?_⟩)
        rcases List.mem_cons.mp member with first | later
        · exact absurd (FakeIpOp.put.inj first).1 same
        · exact later
    · refine ⟨ranges, fun address held => lookups address ?_⟩
      refine held.imp_left (fun ⟨domain, order, member⟩ => ⟨domain, order, ?_⟩)
      rcases List.mem_cons.mp member with first | later
      · cases first
      · exact later

/-- What a family puts is right. -/
theorem mem_snapshot {v6 : Bool} {range now : Option Pool} (serves : Serves byAddress v6 range now)
    {count : Nat} {op : FakeIpOp} (member : op ∈ Pool.snapshot now count) :
    (∃ address domain order, op = FakeIpOp.put address domain order ∧
        byAddress.lookup address = some domain) ∨
      ∃ v6 current, op = FakeIpOp.cursor v6 current := by
  cases serves with
  | absent _ => cases member
  | @kept range pool accepted keeps =>
    rcases List.mem_append.mp member with puts | last
    · obtain ⟨⟨⟨n, domain⟩, order⟩, inside, rfl⟩ := List.mem_map.mp puts
      have live := List.mem_filter.mp (List.fst_mem_of_mem_zipIdx inside)
      have has : pool.domains.lookup domain = some n := of_decide_eq_true live.2
      obtain ⟨address, mine, rfl⟩ := keeps.paired.numbered domain n has
      refine .inl ⟨address, domain, order, ?_, (keeps.paired.inverse domain address mine).mp has⟩
      have same : pool.addr (number address) = address := by
        unfold Pool.addr
        rw [keeps.family, ← mine]
        exact familyAddr_number address
      exact congrArg (fun address => FakeIpOp.put address domain order) same
    · exact .inr ⟨_, _, List.mem_singleton.mp last⟩

/-- Every address of a family that has a domain is put. -/
theorem snapshot_has {address : IpAddr} {range now : Option Pool}
    (serves : Serves byAddress (isIpv6 address) range now) {domain : String}
    (named : byAddress.lookup address = some domain) (count : Nat) :
    ∃ order, FakeIpOp.put address domain order ∈ Pool.snapshot now count := by
  obtain ⟨own, pool, _, rfl, accepted, keeps, has⟩ := serves.of_named named
  have live : (number address, domain) ∈ pool.live :=
    List.mem_filter.mpr ⟨keeps.ordered domain _ has, decide_eq_true has⟩
  obtain ⟨index, less, found⟩ := List.mem_iff_getElem.mp live
  have placed : ((number address, domain), count + index) ∈ pool.live.zipIdx count := by
    rw [List.mk_add_mem_zipIdx_iff_getElem?, List.getElem?_eq_getElem less, found]
  refine ⟨count + index, List.mem_append_left _ (List.mem_map.mpr ⟨_, placed, ?_⟩)⟩
  have same : pool.addr (number address) = address := by
    unfold Pool.addr
    rw [keeps.family, accepted.family]
    exact familyAddr_number address
  exact congrArg (fun address => FakeIpOp.put address domain (count + index)) same

/-- A file that gets all there is mirrors the store. -/
theorem Inner.Keeps.snapshot {inner fresh : Inner} (keeps : inner.Keeps fresh) (key : String)
    (tables : FakeIpTables) :
    Mirrors key (tables.commitFakeIps (inner.snapshot key).1) inner := by
  have right : ∀ op ∈ Pool.snapshot inner.v4 0 ++ Pool.snapshot inner.v6 (Pool.liveCount inner.v4),
      (∃ address domain order, op = FakeIpOp.put address domain order ∧
        inner.byAddress.lookup address = some domain) ∨
      ∃ v6 current, op = FakeIpOp.cursor v6 current := by
    intro op member
    rcases List.mem_append.mp member with v4 | v6
    · exact mem_snapshot (keeps false) v4
    · exact mem_snapshot (keeps true) v6
  obtain ⟨ranges, lookups⟩ := commit_puts _ right (.clearFakeIps key)
  refine ⟨ranges, fun address => lookups address ?_⟩
  cases named : inner.byAddress.lookup address with
  | none => exact .inr rfl
  | some domain =>
    refine .inl ⟨domain, ?_⟩
    have puts := snapshot_has (keeps (isIpv6 address)) named
    cases family : isIpv6 address with
    | false =>
      rw [family] at puts
      obtain ⟨order, member⟩ := puts 0
      exact ⟨order, List.mem_append_left _ member⟩
    | true =>
      rw [family] at puts
      obtain ⟨order, member⟩ := puts (Pool.liveCount inner.v4)
      exact ⟨order, List.mem_append_right _ member⟩

end Sail.App.Dns
