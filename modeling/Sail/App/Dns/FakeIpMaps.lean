/-
The maps of a fake IP store stay inverse to each other.

Handing out an address, clearing, and taking back what a store held keep each family's
domains paired with addresses within its range, no more than the capacity.
-/

import Sail.App.Dns.FakeIp
import Sail.Lib.PairedMaps

namespace Sail.App.Dns

open Netstack Sail.Runtime

/-! ### Addresses and their numbers -/

theorem familyAddr_number (address : IpAddr) :
    familyAddr (isIpv6 address) (number address) = address := by
  cases address with
  | v4 address => exact congrArg IpAddr.v4 (BitVec.eq_of_toNat_eq (by simp [number]))
  | v6 address => exact congrArg IpAddr.v6 (BitVec.eq_of_toNat_eq (by simp [number]))

theorem isIpv6_familyAddr (v6 : Bool) (n : Nat) : isIpv6 (familyAddr v6 n) = v6 := by
  cases v6 <;> rfl

variable {v6 : Bool} {byAddress : KeyedMap IpAddr String} {pool range : Pool} {address : IpAddr}
  {domain : String} {fresh inner kept now : Inner}

theorem number_familyAddr {n : Nat} (small : n < 2 ^ addrWidth v6) :
    number (familyAddr v6 n) = n := by
  cases v6 with
  | false => exact (BitVec.toNat_ofNat n 32).trans (Nat.mod_eq_of_lt small)
  | true => exact (BitVec.toNat_ofNat n 128).trans (Nat.mod_eq_of_lt small)

def numbering (v6 : Bool) : Numbering IpAddr Nat where
  mine := fun address => isIpv6 address = v6
  number
  injective := by
    intro first second left right same
    rw [← familyAddr_number first, ← familyAddr_number second, left, right, same]

/-! ### Stores that keep to their ranges -/

structure Pool.Accepted (range : Pool) (v6 : Bool) : Prop where
  family : range.v6 = v6
  large : range.first + reserved + 1 ≤ range.last
  small : range.last < 2 ^ addrWidth v6

structure Pool.Keeps (pool range : Pool) (byAddress : KeyedMap IpAddr String) : Prop where
  first : pool.first = range.first
  last : pool.last = range.last
  family : pool.v6 = range.v6
  current : range.first + reserved - 1 ≤ pool.current ∧ pool.current < range.last
  within : ∀ domain n, pool.domains.lookup domain = some n →
    range.first + reserved ≤ n ∧ n < range.last
  paired : Paired (numbering range.v6) pool.domains byAddress
  ordered : ∀ domain n, pool.domains.lookup domain = some n → (n, domain) ∈ pool.order
  size : pool.domains.size ≤ capacity

inductive Serves (byAddress : KeyedMap IpAddr String) (v6 : Bool) :
    Option Pool → Option Pool → Prop where
  | absent (unnamed : ∀ address, isIpv6 address = v6 → byAddress.lookup address = none) :
      Serves byAddress v6 none none
  | kept {range pool : Pool} (accepted : range.Accepted v6) (keeps : pool.Keeps range byAddress) :
      Serves byAddress v6 (some range) (some pool)

def Inner.Keeps (inner fresh : Inner) : Prop :=
  ∀ v6, Serves inner.byAddress v6 (fresh.pool v6) (inner.pool v6)

theorem Serves.of_pool {range : Option Pool} (serves : Serves byAddress v6 range (some pool)) :
    ∃ own, range = some own ∧ own.Accepted v6 ∧ pool.Keeps own byAddress := by
  cases serves with
  | kept accepted keeps => exact ⟨_, rfl, accepted, keeps⟩

/-- An address with a domain is of a family that is served. -/
theorem Serves.of_named {range now : Option Pool}
    (serves : Serves byAddress (isIpv6 address) range now)
    (named : byAddress.lookup address = some domain) :
    ∃ own pool, range = some own ∧ now = some pool ∧ own.Accepted (isIpv6 address) ∧
      pool.Keeps own byAddress ∧ pool.domains.lookup domain = some (number address) := by
  cases serves with
  | absent unnamed =>
    rw [unnamed address rfl] at named
    cases named
  | @kept own pool accepted keeps =>
    refine ⟨own, pool, rfl, rfl, accepted, keeps, ?_⟩
    exact (keeps.paired.inverse domain address accepted.family.symm).mpr named

theorem Inner.pool_setPool (inner : Inner) (v6 other : Bool) (pool : Pool) :
    (inner.setPool v6 pool).pool other = if other = v6 then some pool else inner.pool other := by
  cases v6 <;> cases other <;> rfl

theorem Inner.byAddress_setPool (inner : Inner) (v6 : Bool) (pool : Pool) :
    (inner.setPool v6 pool).byAddress = inner.byAddress := by
  cases v6 <;> rfl

/-- One family changes; the other's addresses are left alone. -/
theorem Inner.Keeps.update {after : Inner} (keeps : inner.Keeps fresh)
    (served : fresh.pool v6 = some range) (accepted : range.Accepted v6)
    (pools : ∀ other, after.pool other = if other = v6 then some pool else inner.pool other)
    (changed : pool.Keeps range after.byAddress)
    (apart : ∀ address, isIpv6 address ≠ v6 →
      after.byAddress.lookup address = inner.byAddress.lookup address) :
    after.Keeps fresh := by
  intro other
  rw [pools other]
  by_cases same : other = v6
  · rw [if_pos same, same, served]
    exact .kept accepted changed
  · rw [if_neg same]
    have before := keeps other
    generalize fresh.pool other = configured at before ⊢
    generalize inner.pool other = now at before ⊢
    have others : ∀ address, isIpv6 address = other →
        after.byAddress.lookup address = inner.byAddress.lookup address :=
      fun address own => apart address (fun impossible => same (own.symm.trans impossible))
    cases before with
    | absent unnamed =>
      exact .absent (fun address own => (others address own).trans (unnamed address own))
    | kept accepted keeps =>
      refine .kept accepted ⟨keeps.first, keeps.last, keeps.family, keeps.current, keeps.within,
        ?_, keeps.ordered, keeps.size⟩
      refine keeps.paired.congr (fun _ => rfl) (fun address own => others address ?_)
      exact own.trans accepted.family

/-! ### Making room -/

structure MakesRoom (v6 : Bool) (domains : KeyedMap String Nat)
    (byAddress : KeyedMap IpAddr String) (room : Room) : Prop where
  paired : Paired (numbering v6) room.domains room.byAddress
  ordered : ∀ domain n, room.domains.lookup domain = some n → (n, domain) ∈ room.order
  subset : ∀ domain n, room.domains.lookup domain = some n → domains.lookup domain = some n
  size : room.domains.size < capacity
  ops : ∀ op ∈ room.ops, ∃ address, op = .remove address ∧ isIpv6 address = v6
  byAddress : ∀ address, room.byAddress.lookup address =
    if FakeIpOp.remove address ∈ room.ops then none else byAddress.lookup address

theorem makeRoom_makes (order : List (Nat × String)) {domains : KeyedMap String Nat}
    (paired : Paired (numbering v6) domains byAddress)
    (ordered : ∀ domain n, domains.lookup domain = some n → (n, domain) ∈ order) :
    MakesRoom v6 domains byAddress (makeRoom v6 order domains byAddress) := by
  induction order generalizing domains byAddress with
  | nil =>
    have none : domains.size ≤ KeyedMap.size (∅ : KeyedMap String Nat) :=
      KeyedMap.size_le_of_subset (fun domain n lookup => by cases ordered domain n lookup)
    refine ⟨paired, ordered, fun _ _ lookup => lookup, Nat.lt_of_le_of_lt none ?_,
      nofun, fun _ => rfl⟩
    exact Nat.succ_pos _
  | cons entry order ih =>
    obtain ⟨oldest, old⟩ := entry
    unfold makeRoom
    by_cases full : capacity ≤ domains.size ∨ 2 * capacity ≤ order.length + 1
    · rw [if_pos full]
      by_cases counts : domains.lookup old = some oldest
      · rw [if_pos counts]
        obtain ⟨address, own, rfl⟩ := paired.numbered old oldest counts
        have same : familyAddr v6 ((numbering v6).number address) = address := by
          rw [← own]
          exact familyAddr_number address
        have behind : ∀ domain n, (domains.erase old).lookup domain = some n →
            (n, domain) ∈ order := by
          intro domain n lookup
          rw [KeyedMap.lookup_erase_ite] at lookup
          split_ifs at lookup with isOld
          rcases List.mem_cons.mp (ordered domain n lookup) with first | later
          · exact absurd (Prod.mk.inj first).2 isOld
          · exact later
        have makes := ih (paired.forget own counts) behind
        rw [same]
        refine ⟨makes.paired, makes.ordered, ?_, makes.size, ?_, ?_⟩
        · intro domain n lookup
          exact KeyedMap.lookup_of_erase (makes.subset domain n lookup)
        · intro op member
          rcases List.mem_cons.mp member with rfl | later
          · exact ⟨address, rfl, own⟩
          · exact makes.ops op later
        · intro other
          rw [makes.byAddress other, KeyedMap.lookup_erase_ite]
          by_cases isRemoved : other = address
          · subst isRemoved
            rw [if_pos rfl, ite_self, if_pos List.mem_cons_self]
          · have shifts : FakeIpOp.remove other ∈
                FakeIpOp.remove address :: (makeRoom v6 order (domains.erase old)
                  (byAddress.erase address)).ops ↔
                FakeIpOp.remove other ∈ (makeRoom v6 order (domains.erase old)
                  (byAddress.erase address)).ops := by
              rw [List.mem_cons]
              exact or_iff_right (fun equal => isRemoved (FakeIpOp.remove.inj equal))
            rw [if_neg isRemoved]
            exact if_congr shifts.symm rfl rfl
      · rw [if_neg counts]
        refine ih paired (fun domain n lookup => ?_)
        rcases List.mem_cons.mp (ordered domain n lookup) with first | later
        · obtain ⟨sameNumber, sameDomain⟩ := Prod.mk.inj first
          rw [sameNumber, sameDomain] at lookup
          exact absurd lookup counts
        · exact later
    · rw [if_neg full]
      refine ⟨paired, ordered, fun _ _ lookup => lookup, ?_,
        nofun, fun _ => rfl⟩
      exact Nat.lt_of_not_le (fun large => full (.inl large))

/-! ### Handing out -/

structure HandsOut (inner fresh : Inner) (v6 : Bool) (domain : String)
    (outcome : IpAddr × Inner × List FakeIpOp) : Prop where
  keeps : outcome.2.1.Keeps fresh
  family : isIpv6 outcome.1 = v6
  ops : ∃ removed current,
    outcome.2.2 = removed ++ [.put outcome.1 domain inner.handedOut, .cursor v6 current] ∧
      ∀ op ∈ removed, ∃ address, op = FakeIpOp.remove address
  byAddress : ∀ address, outcome.2.1.byAddress.lookup address =
    if address = outcome.1 then some domain
    else if FakeIpOp.remove address ∈ outcome.2.2 then none
    else inner.byAddress.lookup address
  writtenTo : outcome.2.1.writtenTo = inner.writtenTo

theorem Pool.Keeps.next_within (keeps : pool.Keeps range byAddress) (accepted : range.Accepted v6) :
    range.first + reserved ≤ pool.next ∧ pool.next < range.last := by
  have large := accepted.large
  have current := keeps.current
  unfold Pool.next at *
  rw [keeps.first, keeps.last]
  split_ifs with wraps <;> omega

/-- The address is free once its old domain is gone. -/
theorem Pool.Keeps.withoutOld (keeps : pool.Keeps range byAddress) {addr : IpAddr}
    (mine : isIpv6 addr = range.v6) :
    Paired (numbering range.v6) (pool.withoutOld byAddress addr) (byAddress.erase addr) ∧
      ∀ name n, (pool.withoutOld byAddress addr).lookup name = some n →
        pool.domains.lookup name = some n := by
  unfold Pool.withoutOld
  cases named : byAddress.lookup addr with
  | some old =>
    have has := (keeps.paired.inverse old addr mine).mpr named
    refine ⟨keeps.paired.forget mine has, fun name n lookup => ?_⟩
    exact KeyedMap.lookup_of_erase lookup
  | none =>
    refine ⟨keeps.paired.congr (fun _ => rfl) (fun other _ => ?_), fun _ _ lookup => lookup⟩
    rw [KeyedMap.lookup_erase_ite]
    split_ifs with same
    · rw [same, named]
    · rfl

theorem Inner.Keeps.handOut (keeps : inner.Keeps fresh) (serves : inner.pool v6 = some pool)
    (unnamed : pool.domains.lookup domain = none) :
    HandsOut inner fresh v6 domain (inner.handOut v6 pool domain) := by
  obtain ⟨range, served, accepted, own⟩ := Serves.of_pool (serves ▸ keeps v6)
  have within := own.next_within accepted
  have family : pool.v6 = v6 := own.family.trans accepted.family
  have mine : isIpv6 (pool.addr pool.next) = v6 := by
    unfold Pool.addr
    rw [isIpv6_familyAddr, family]
  have numbered : number (pool.addr pool.next) = pool.next := by
    unfold Pool.addr
    rw [family]
    exact number_familyAddr (Nat.lt_trans within.2 accepted.small)
  generalize address : pool.addr pool.next = addr at mine numbered
  obtain ⟨freed, fewer⟩ := own.withoutOld (accepted.family.symm ▸ mine)
  rw [accepted.family] at freed
  have makes : MakesRoom v6 (pool.withoutOld inner.byAddress addr) (inner.byAddress.erase addr)
      (makeRoom v6 pool.order (pool.withoutOld inner.byAddress addr)
        (inner.byAddress.erase addr)) :=
    makeRoom_makes pool.order freed (fun name n lookup => own.ordered name n (fewer name n lookup))
  unfold Inner.handOut
  dsimp only
  rw [address, family]
  generalize makeRoom v6 pool.order (pool.withoutOld inner.byAddress addr)
    (inner.byAddress.erase addr) = room at makes ⊢
  have freeAddress : room.byAddress.lookup addr = none := by
    rw [makes.byAddress, KeyedMap.lookup_erase_ite, if_pos rfl, ite_self]
  have freeDomain : room.domains.lookup domain = none := by
    cases found : room.domains.lookup domain with
    | none => rfl
    | some n =>
      rw [fewer domain n (makes.subset domain n found)] at unnamed
      cases unnamed
  have byAddress : ∀ other, (room.byAddress.insert addr domain).lookup other =
      if other = addr then some domain
      else if FakeIpOp.remove other ∈
        room.ops ++ [.put addr domain inner.handedOut, .cursor v6 pool.next] then none
      else inner.byAddress.lookup other := by
    intro other
    rw [KeyedMap.lookup_insert_ite, makes.byAddress, KeyedMap.lookup_erase_ite]
    by_cases same : other = addr
    · rw [if_pos same, if_pos same]
    · rw [if_neg same, if_neg same, if_neg same]
      exact if_congr (by simp) rfl rfl
  refine ⟨?_, mine, ⟨room.ops, pool.next, rfl, ?_⟩, byAddress, ?_⟩
  · refine keeps.update served accepted (fun other => inner.pool_setPool v6 other _) ?_ ?_
    · refine ⟨own.first, own.last, accepted.family.symm, ⟨?_, within.2⟩, ?_, ?_, ?_, ?_⟩
      · exact Nat.le_trans (Nat.sub_le _ _) within.1
      · exact KeyedMap.every_insert
          (fun name n lookup => own.within name n (fewer name n (makes.subset name n lookup)))
          within
      · have inserted := makes.paired.insert mine freeAddress freeDomain
        rw [show (numbering v6).number addr = pool.next from numbered] at inserted
        rw [accepted.family]
        exact inserted
      · exact KeyedMap.every_insert
          (fun name n lookup => List.mem_append_left _ (makes.ordered name n lookup))
          (List.mem_append_right _ (List.mem_singleton_self _))
      · exact Nat.le_trans (KeyedMap.size_insert_le _ _ _) makes.size
    · intro other apart
      have differs : other ≠ addr := fun same => apart (same ▸ mine)
      have kept : FakeIpOp.remove other ∉
          room.ops ++ [.put addr domain inner.handedOut, .cursor v6 pool.next] := by
        intro member
        rcases List.mem_append.mp member with removed | last
        · obtain ⟨gone, same, isFamily⟩ := makes.ops _ removed
          cases same
          exact apart isFamily
        · simp at last
      rw [byAddress, if_neg differs, if_neg kept]
  · intro op member
    obtain ⟨gone, same, _⟩ := makes.ops op member
    exact ⟨gone, same⟩
  · cases v6 <;> rfl

/-! ### Clearing -/

theorem Inner.Keeps.clear (keeps : inner.Keeps fresh) : inner.clear.Keeps fresh := by
  intro v6
  have pools : inner.clear.pool v6 = (inner.pool v6).map Pool.clear := by
    cases v6 <;> rfl
  have before := keeps v6
  rw [pools]
  generalize fresh.pool v6 = configured at before ⊢
  generalize inner.pool v6 = now at before ⊢
  cases before with
  | absent _ => exact .absent (fun _ _ => rfl)
  | kept accepted keeps =>
    refine .kept accepted ⟨keeps.first, keeps.last, keeps.family, ?_,
      nofun, .empty (fun _ _ => rfl),
      nofun, Nat.zero_le _⟩
    have large := accepted.large
    unfold Pool.clear at *
    dsimp only
    rw [keeps.first]
    omega

/-! ### Taking back what was kept -/

structure Restores (fresh kept now : Inner) : Prop where
  keeps : now.Keeps fresh
  subset : ∀ address domain, now.byAddress.lookup address = some domain →
    kept.byAddress.lookup address = some domain

/-- What the pool has taken back, the other pool held. -/
theorem Restores.domains (restores : Restores fresh kept now) {keptPool : Pool}
    (keeps : pool.Keeps range now.byAddress) (keptKeeps : keptPool.Keeps range kept.byAddress)
    {n : Nat} (lookup : pool.domains.lookup domain = some n) :
    keptPool.domains.lookup domain = some n := by
  obtain ⟨address, own, rfl⟩ := keeps.paired.numbered domain n lookup
  refine (keptKeeps.paired.inverse domain address own).mpr (restores.subset address domain ?_)
  exact (keeps.paired.inverse domain address own).mp lookup

/-- A domain that was taken back has no other address than the one kept. -/
theorem Restores.withoutAddress (restores : Restores fresh kept now) {keptPool : Pool}
    (mine : isIpv6 address = range.v6) (keeps : pool.Keeps range now.byAddress)
    (keptKeeps : keptPool.Keeps range kept.byAddress)
    (held : keptPool.domains.lookup domain = some (number address)) {other : IpAddr}
    (apart : other ≠ address) :
    (pool.withoutAddress now.byAddress domain).lookup other = now.byAddress.lookup other := by
  unfold Pool.withoutAddress
  cases lookup : pool.domains.lookup domain with
  | none => rfl
  | some old =>
    have same := restores.domains keeps keptKeeps lookup
    rw [held] at same
    cases same
    have isAddress : pool.addr (number address) = address := by
      unfold Pool.addr
      rw [keeps.family, ← mine]
      exact familyAddr_number address
    dsimp only
    rw [isAddress, KeyedMap.lookup_erase_ite, if_neg apart]

theorem Restores.entry (restores : Restores fresh kept now) (keeps : kept.Keeps fresh)
    {order : Nat} (named : kept.byAddress.lookup address = some domain) :
    Restores fresh kept (now.restoreEntry (order, address, domain)) ∧
      ∀ other, (now.restoreEntry (order, address, domain)).byAddress.lookup other =
        if other = address then some domain else now.byAddress.lookup other := by
  obtain ⟨range, keptPool, served, _, accepted, keptKeeps, held⟩ :=
    (keeps (isIpv6 address)).of_named named
  have serves := restores.keeps (isIpv6 address)
  rw [served] at serves
  generalize here : now.pool (isIpv6 address) = current at serves
  obtain ⟨pool, rfl, own⟩ : ∃ pool, current = some pool ∧ pool.Keeps range now.byAddress := by
    cases serves with
    | kept _ own => exact ⟨_, rfl, own⟩
  have mine : isIpv6 address = range.v6 := accepted.family.symm
  have within := keptKeeps.within domain _ held
  have contains : pool.contains (number address) = true := by
    unfold Pool.contains
    rw [own.first, own.last, decide_eq_true within.1, decide_eq_true (Nat.le_of_lt within.2)]
    rfl
  have byAddress : ∀ other,
      ((pool.withoutAddress now.byAddress domain).insert address domain).lookup other =
        if other = address then some domain else now.byAddress.lookup other := by
    intro other
    rw [KeyedMap.lookup_insert_ite]
    by_cases same : other = address
    · rw [if_pos same, if_pos same]
    · rw [if_neg same, if_neg same, restores.withoutAddress mine own keptKeeps held same]
  have paired : Paired (numbering range.v6) (pool.domains.insert domain (number address))
      ((pool.withoutAddress now.byAddress domain).insert address domain) := by
    by_cases known : now.byAddress.lookup address = some domain
    · have has := (own.paired.inverse domain address mine).mpr known
      refine own.paired.congr (fun name => ?_) (fun other _ => ?_)
      · rw [KeyedMap.lookup_insert_ite]
        split_ifs with same
        · rw [same]
          exact has.symm
        · rfl
      · rw [byAddress]
        split_ifs with same
        · rw [same, known]
        · rfl
    · have freeAddress : now.byAddress.lookup address = none := by
        cases found : now.byAddress.lookup address with
        | none => rfl
        | some other =>
          have same := restores.subset address other found
          rw [named] at same
          cases same
          exact absurd found known
      have freeDomain : pool.domains.lookup domain = none := by
        cases found : pool.domains.lookup domain with
        | none => rfl
        | some n =>
          have same := restores.domains own keptKeeps found
          rw [held] at same
          cases same
          exact absurd ((own.paired.inverse domain address mine).mp found) known
      refine (own.paired.insert mine freeAddress freeDomain).congr (fun _ => rfl) (fun other _ => ?_)
      rw [byAddress, KeyedMap.lookup_insert_ite]
  have subset : ∀ name n, (pool.domains.insert domain (number address)).lookup name = some n →
      keptPool.domains.lookup name = some n :=
    KeyedMap.every_insert (fun _ _ lookup => restores.domains own keptKeeps lookup) held
  unfold Inner.restoreEntry
  dsimp only
  rw [here]
  dsimp only
  rw [contains]
  refine ⟨⟨?_, fun other name lookup => ?_⟩, byAddress⟩
  · refine restores.keeps.update served accepted
      (fun other => now.pool_setPool (isIpv6 address) other _) ?_ ?_
    · refine ⟨own.first, own.last, own.family, own.current,
        fun name n lookup => keptKeeps.within name n (subset name n lookup), paired, ?_,
        Nat.le_trans (KeyedMap.size_le_of_subset subset) keptKeeps.size⟩
      exact KeyedMap.every_insert
        (fun name n lookup => List.mem_append_left _ (own.ordered name n lookup))
        (List.mem_append_right _ (List.mem_singleton_self _))
    · intro other apart
      change ((pool.withoutAddress now.byAddress domain).insert address domain).lookup other = _
      rw [byAddress, if_neg (fun same => apart (by rw [same]))]
  · change ((pool.withoutAddress now.byAddress domain).insert address domain).lookup other =
      some name at lookup
    rw [byAddress] at lookup
    split_ifs at lookup with same
    · cases lookup
      rw [same]
      exact named
    · exact restores.subset other name lookup

theorem Restores.entries (keeps : kept.Keeps fresh) (entries : List (Nat × IpAddr × String))
    (named : ∀ entry ∈ entries, kept.byAddress.lookup entry.2.1 = some entry.2.2)
    (restores : Restores fresh kept now) :
    Restores fresh kept (entries.foldl Inner.restoreEntry now) ∧
      ∀ address domain, (now.byAddress.lookup address = some domain ∨
          ∃ order, (order, address, domain) ∈ entries) →
        (entries.foldl Inner.restoreEntry now).byAddress.lookup address = some domain := by
  induction entries generalizing now with
  | nil =>
    refine ⟨restores, fun address domain held => ?_⟩
    rcases held with known | ⟨_, impossible⟩
    · exact known
    · cases impossible
  | cons entry rest ih =>
    have isNamed := named _ List.mem_cons_self
    obtain ⟨restored, byAddress⟩ := restores.entry keeps isNamed
    obtain ⟨onward, all⟩ := ih (List.forall_mem_cons.mp named).2
      restored
    refine ⟨onward, fun other name held => all other name ?_⟩
    rcases held with known | ⟨given, member⟩
    · refine .inl ?_
      rw [byAddress]
      split_ifs with same
      · have both := restores.subset other name known
        rw [same] at both
        exact isNamed.symm.trans both
      · exact known
    · rcases List.mem_cons.mp member with same | later
      · cases same
        refine .inl ?_
        rw [byAddress, if_pos rfl]
      · exact .inr ⟨given, later⟩

theorem Inner.Keeps.restoreCursor (keeps : inner.Keeps fresh) (v6 : Bool) (cursor : Option Nat) :
    (inner.restoreCursor v6 cursor).Keeps fresh ∧
      (inner.restoreCursor v6 cursor).byAddress = inner.byAddress := by
  unfold Inner.restoreCursor
  split
  · rename_i pool cursor here
    obtain ⟨range, served, accepted, own⟩ := Serves.of_pool (here ▸ keeps v6)
    split_ifs with within
    · refine ⟨keeps.update served accepted (fun other => inner.pool_setPool v6 other _) ?_ ?_,
        inner.byAddress_setPool v6 _⟩
      · rw [inner.byAddress_setPool]
        rw [own.first, own.last] at within
        exact ⟨own.first, own.last, own.family, within, own.within, own.paired, own.ordered,
          own.size⟩
      · intro address _
        rw [inner.byAddress_setPool]
    · exact ⟨keeps, rfl⟩
  · exact ⟨keeps, rfl⟩

/-- A store that takes back all another held holds the same. -/
theorem Inner.Keeps.restore (keeps : inner.Keeps fresh)
    (isEmpty : ∀ address, inner.byAddress.lookup address = none) (keptKeeps : kept.Keeps fresh)
    {all : FakeIps}
    (entries : ∀ address domain, kept.byAddress.lookup address = some domain ↔
      ∃ order, (order, address, domain) ∈ all.entries) :
    (inner.restore all).Keeps fresh ∧ ∀ address, (inner.restore all).byAddress.lookup address =
        kept.byAddress.lookup address := by
  have starts : Restores fresh kept inner := by
    refine ⟨keeps, fun address domain lookup => ?_⟩
    rw [isEmpty address] at lookup
    cases lookup
  obtain ⟨restores, held⟩ := Restores.entries keptKeeps all.entries
    (fun entry member => (entries _ _).mpr ⟨entry.1, member⟩) starts
  obtain ⟨first, firstSame⟩ := restores.keeps.restoreCursor false all.cursor4
  obtain ⟨second, secondSame⟩ := first.restoreCursor true all.cursor6
  refine ⟨second, fun address => ?_⟩
  unfold Inner.restore
  rw [secondSame, firstSame]
  cases named : kept.byAddress.lookup address with
  | some domain => exact held address domain (.inr ((entries address domain).mp named))
  | none =>
    cases found : (all.entries.foldl Inner.restoreEntry inner).byAddress.lookup address with
    | none => rfl
    | some domain =>
      rw [restores.subset address domain found] at named
      cases named

end Sail.App.Dns
