/-
Fake IPs over whole runs.

A store hands out and clears, its cache file is put in place, written and read again
after a restart or a crash. An address that was handed out goes to its domain until
the entry is evicted or cleared.
-/

import Sail.App.Dns.FakeIpFiles

namespace Sail.App.Dns

open Netstack Sail.Runtime

/-! ### Files at every moment -/

def Kept (fresh : FakeIpStore) (tables : FakeIpTables) : Prop :=
  tables.ranges = some fresh.rangesKey →
    ∃ inner : Inner, inner.Keeps fresh.inner ∧ Mirrors fresh.rangesKey tables inner

def FileSound (fresh : FakeIpStore) (file : CacheFile) : Prop :=
  ∀ count, Kept fresh ((file.queued.take count).foldl FakeIpTables.commitFakeIps file.tables)

section Files

variable {fresh : FakeIpStore} {file : CacheFile}

theorem FileSound.tables (sound : FileSound fresh file) : Kept fresh file.tables := by
  simpa using sound 0

theorem FileSound.of_tables {tables : FakeIpTables} (kept : Kept fresh tables) :
    FileSound fresh { tables, queued := [] } := by
  intro count
  rw [List.take_nil]
  exact kept

theorem FileSound.write (sound : FileSound fresh file) {ops : List FakeIpOp}
    (kept : Kept fresh (file.written.commitFakeIps ops)) :
    FileSound fresh (file.writeFakeIps ops) := by
  intro count
  change Kept fresh (((file.queued ++ [ops]).take count).foldl _ file.tables)
  by_cases within : count ≤ file.queued.length
  · rw [List.take_append_of_le_length within]
    exact sound count
  · rw [List.take_of_length_le (by rw [List.length_append, List.length_singleton]; omega),
      List.foldl_append]
    exact kept

theorem FileSound.written (sound : FileSound fresh file) : Kept fresh file.written := by
  have all := sound file.queued.length
  rw [List.take_length] at all
  exact all

theorem FileSound.commit (sound : FileSound fresh file) (count : Nat) :
    FileSound fresh (file.commit count) := by
  intro more
  have onward := sound (count + more)
  rw [List.take_add, List.foldl_append] at onward
  exact onward

theorem written_commit (file : CacheFile) (count : Nat) :
    (file.commit count).written = file.written := by
  unfold CacheFile.commit CacheFile.written
  rw [← List.foldl_append, List.take_append_drop]

theorem written_write (file : CacheFile) (ops : List FakeIpOp) :
    (file.writeFakeIps ops).written = file.written.commitFakeIps ops := by
  unfold CacheFile.writeFakeIps CacheFile.written
  rw [List.foldl_append]
  rfl

end Files

/-- What a file kept is what is loaded from it. -/
theorem Mirrors.entries {key : String} {tables : FakeIpTables} {inner : Inner}
    (mirrors : Mirrors key tables inner) (address : IpAddr) (domain : String) :
    inner.byAddress.lookup address = some domain ↔
      ∃ order, (order, address, domain) ∈ tables.kept.entries := by
  have loaded : ∀ order, (order, address, domain) ∈ tables.kept.entries ↔
      tables.fakeip.lookup address = some (domain, order) := by
    intro order
    unfold FakeIpTables.kept
    rw [List.mem_mergeSort, List.mem_map, ← KeyedMap.mem_toList]
    constructor
    · rintro ⟨⟨place, name, given⟩, member, same⟩
      cases same
      exact member
    · intro member
      exact ⟨_, member, rfl⟩
  rw [← mirrors.same address, Option.map_eq_some_iff]
  constructor
  · rintro ⟨⟨name, order⟩, lookup, rfl⟩
    exact ⟨order, (loaded order).mpr lookup⟩
  · rintro ⟨order, member⟩
    exact ⟨_, (loaded order).mp member, rfl⟩

/-! ### The world -/

namespace World

variable {paths : Nat → String} {fresh : FakeIpStore} {world : World}

structure Sound (paths : Nat → String) (fresh : FakeIpStore) (world : World) : Prop where
  ranges : world.store.ranges = fresh.ranges
  keeps : world.store.inner.Keeps fresh.inner
  files : ∀ place, FileSound fresh (world.files place)
  mirrors : ∀ binding, world.store.inner.writtenTo = some binding →
    Mirrors fresh.rangesKey (world.files (place paths binding)).written world.store.inner

theorem Sound.rangesKey (sound : Sound paths fresh world) :
    world.store.rangesKey = fresh.rangesKey := by
  unfold FakeIpStore.rangesKey
  rw [sound.ranges]

structure Same (first second : Inner) : Prop where
  pool : ∀ v6, first.pool v6 = second.pool v6
  byAddress : first.byAddress = second.byAddress

theorem Same.keeps {first second : Inner} (same : Same first second)
    {fresh : Inner} (keeps : second.Keeps fresh) : first.Keeps fresh := by
  intro v6
  rw [same.pool, same.byAddress]
  exact keeps v6

/-- Writing changes nothing that is looked up. -/
theorem persist_same (world : World) (ops : List FakeIpOp) :
    Same (world.persist paths ops).store.inner world.store.inner := by
  unfold persist
  split
  · exact ⟨fun v6 => (by cases v6 <;> rfl), rfl⟩
  · split_ifs
    · exact ⟨fun _ => rfl, rfl⟩
    · exact ⟨fun _ => rfl, rfl⟩
    · exact ⟨fun v6 => (by cases v6 <;> rfl), rfl⟩

theorem files_setFile (world : World) (here other : Place) (file : CacheFile) :
    (world.setFile here file).files other =
      if other = here then file else world.files other :=
  rfl

theorem setFile_sound {file : CacheFile} {here : Place}
    (files : ∀ place, FileSound fresh (world.files place)) (sound : FileSound fresh file)
    (other : Place) : FileSound fresh ((world.setFile here file).files other) := by
  rw [files_setFile]
  split_ifs
  · exact sound
  · exact files other

/-- Writing to the file in place: the batch takes its mirror to the mirror of the
store, or it gets all there is. -/
theorem persist_sound (ops : List FakeIpOp) (ranges : world.store.ranges = fresh.ranges)
    (keeps : world.store.inner.Keeps fresh.inner)
    (files : ∀ place, FileSound fresh (world.files place))
    (ready : ∀ binding, world.store.inner.writtenTo = some binding →
      Mirrors fresh.rangesKey ((world.files (place paths binding)).written.commitFakeIps ops)
        world.store.inner) :
    Sound paths fresh (world.persist paths ops) := by
  have key : world.store.rangesKey = fresh.rangesKey := by
    unfold FakeIpStore.rangesKey
    rw [ranges]
  have kept : ∀ {tables}, Mirrors fresh.rangesKey tables world.store.inner → Kept fresh tables :=
    fun mirrors _ => ⟨_, keeps, mirrors⟩
  have same := @persist_same paths world ops
  refine ⟨?_, same.keeps keeps, ?_, ?_⟩
  · unfold persist
    split
    · exact ranges
    · split_ifs <;> exact ranges
  · unfold persist
    split
    · exact files
    · rename_i binding here
      split_ifs with written empty
      · exact files
      · exact setFile_sound files ((files _).write (kept (ready binding written)))
      · exact setFile_sound files ((files _).write (kept (key ▸ keeps.snapshot _ _)))
  · intro binding
    unfold persist
    split
    · exact nofun
    · rename_i inPlace here
      split_ifs with written empty
      · intro is
        have mirrors := ready binding is
        rw [List.isEmpty_iff.mp empty] at mirrors
        exact mirrors
      · intro is
        have sameBinding : binding = inPlace :=
          Option.some.inj (is.symm.trans written)
        rw [files_setFile, sameBinding, if_pos rfl, written_write]
        exact ready inPlace written
      · intro is
        cases is
        change Mirrors _ ((world.setFile _ _).files _).written _
        rw [files_setFile, if_pos rfl, written_write, key]
        exact (keeps.snapshot _ _).congr (fun _ => rfl)

theorem Sound.clear (sound : Sound paths fresh world) : Sound paths fresh (world.clear paths) := by
  refine persist_sound _ sound.ranges sound.keeps.clear sound.files (fun binding written => ?_)
  rw [sound.rangesKey]
  exact ⟨rfl, fun _ => rfl⟩

theorem Sound.sync (sound : Sound paths fresh world) : Sound paths fresh (world.sync paths) :=
  persist_sound [] sound.ranges sound.keeps sound.files sound.mirrors

theorem Sound.create (sound : Sound paths fresh world) (domain : String) (v6 : Bool) :
    Sound paths fresh (world.create paths domain v6).2 := by
  unfold World.create
  cases here : world.store.inner.pool v6 with
  | none => exact sound
  | some pool =>
    dsimp only
    cases has : pool.domains.lookup domain with
    | some n => exact sound
    | none =>
      have handsOut := sound.keeps.handOut here has
      refine persist_sound _ sound.ranges handsOut.keeps sound.files (fun binding written => ?_)
      exact (sound.mirrors binding (handsOut.writtenTo.symm.trans written)).handOut handsOut

/-! ### Starting -/

/-- A store that starts from a file that mirrors another holds the same. -/
theorem start_sound {files : Place → CacheFile} (slot : Option Binding)
    (isFresh : fresh.inner.Keeps fresh.inner) (isEmpty : fresh.inner.byAddress = ∅)
    (unwritten : fresh.inner.writtenTo = none)
    (sound : ∀ place, FileSound fresh (files place)) (closed : ∀ place, (files place).queued = []) :
    Sound paths fresh (start paths fresh files slot) ∧
      ∀ binding inner, slot = some binding → inner.Keeps fresh.inner →
        Mirrors fresh.rangesKey (files (place paths binding)).tables inner →
        ∀ address, (start paths fresh files slot).store.inner.byAddress.lookup address =
          inner.byAddress.lookup address := by
  have unnamed : ∀ address, fresh.inner.byAddress.lookup address = none := by
    rw [isEmpty]
    exact fun _ => rfl
  unfold start restore
  cases slot with
  | none =>
    refine ⟨⟨rfl, isFresh, sound, fun binding written => ?_⟩, fun _ _ impossible => ?_⟩
    · rw [unwritten] at written
      cases written
    · cases impossible
  | some binding =>
    dsimp only
    have landed : (files (place paths binding)).written = (files (place paths binding)).tables := by
      unfold CacheFile.written
      rw [closed]
      rfl
    unfold CacheFile.loadFakeIps
    by_cases other : (files (place paths binding)).tables.ranges ≠ some fresh.rangesKey
    · rw [if_pos other]
      have mirrors : Mirrors fresh.rangesKey (.clearFakeIps fresh.rangesKey) fresh.inner :=
        ⟨rfl, fun address => (unnamed address).symm⟩
      refine ⟨⟨rfl, Same.keeps ⟨fun v6 => (by cases v6 <;> rfl), rfl⟩ isFresh, ?_, ?_⟩, ?_⟩
      · refine setFile_sound sound ?_
        rw [closed]
        exact .of_tables (fun _ => ⟨_, isFresh, mirrors⟩)
      · intro bound is
        cases is
        change Mirrors _ ((World.setFile _ _ _).files _).written _
        rw [files_setFile, if_pos rfl]
        rw [closed]
        exact mirrors.congr (fun _ => rfl)
      · intro bound inner is _ mirrors
        cases is
        exact absurd mirrors.ranges other
    · rw [if_neg other]
      have ranges := not_not.mp other
      obtain ⟨held, keeps, mirrors⟩ := (sound (place paths binding)).tables ranges
      obtain ⟨restored, same⟩ := isFresh.restore unnamed keeps mirrors.entries
      refine ⟨⟨rfl, Same.keeps ⟨fun v6 => (by cases v6 <;> rfl), rfl⟩ restored, ?_, ?_⟩, ?_⟩
      · exact setFile_sound sound (sound _)
      · intro bound is
        cases is
        change Mirrors _ ((World.setFile _ _ _).files _).written _
        rw [files_setFile, if_pos rfl]
        rw [landed]
        exact mirrors.congr same
      · intro bound inner is _ others address
        cases is
        refine (same address).trans ?_
        rw [← mirrors.same, others.same]

/-! ### Accepted ranges -/

theorem lastNumber_lt (inet : IpInet) : inet.lastNumber < 2 ^ addrWidth (isIpv6 inet.address) := by
  have bound : number inet.address < 2 ^ addrWidth (isIpv6 inet.address) := by
    cases inet.address with
    | v4 address | v6 address => exact address.isLt
  have whole : 2 ^ addrWidth (isIpv6 inet.address) =
      2 ^ (addrWidth (isIpv6 inet.address) - inet.length) * 2 ^ inet.length := by
    rw [← Nat.pow_add, Nat.sub_add_cancel inet.length_le]
  have positive : 0 < 2 ^ (addrWidth (isIpv6 inet.address) - inet.length) := Nat.two_pow_pos _
  unfold IpInet.lastNumber
  dsimp only
  rw [whole] at bound ⊢
  have block := Nat.succ_le_of_lt (Nat.div_lt_of_lt_mul bound)
  have blocks := Nat.mul_le_mul_right (2 ^ (addrWidth (isIpv6 inet.address) - inet.length)) block
  rw [Nat.succ_mul, Nat.mul_comm (2 ^ inet.length)] at blocks
  omega

variable {v6 : Bool} {address : IpAddr} {domain : String}

theorem checkPool_serves {parse : String → Except String IpInet} {range : Option String}
    {field : String} {pool : Option Pool}
    (checked : FakeIpStore.checkPool parse range v6 field = .ok pool) :
    Serves ∅ v6 pool pool := by
  unfold FakeIpStore.checkPool at checked
  split at checked
  · cases checked
    exact .absent (fun _ _ => rfl)
  · split at checked
    · cases checked
    · rename_i cidr _
      split_ifs at checked with family large
      cases checked
      have isFamily : isIpv6 cidr.address = v6 := not_not.mp family
      have small := lastNumber_lt cidr
      rw [isFamily] at small
      have wide : (Pool.new cidr).first + reserved + 1 ≤ (Pool.new cidr).last := by
        omega
      refine .kept ⟨isFamily, wide, small⟩ ⟨rfl, rfl, rfl, ⟨Nat.le_refl _, ?_⟩,
        nofun, .empty (fun _ _ => rfl),
        nofun, Nat.zero_le _⟩
      have current : (Pool.new cidr).current = (Pool.new cidr).first + reserved - 1 := rfl
      omega

/-- A new store keeps to its ranges. -/
theorem new_keeps {parse : String → Except String IpInet} {inet4Range inet6Range : Option String}
    (accepted : FakeIpStore.new parse inet4Range inet6Range = .ok fresh) :
    fresh.inner.Keeps fresh.inner ∧ fresh.inner.byAddress = ∅ ∧ fresh.inner.writtenTo = none := by
  unfold FakeIpStore.new at accepted
  split at accepted
  · cases accepted
  · rename_i v4 first
    split at accepted
    · cases accepted
    · rename_i v6 second
      split_ifs at accepted
      cases accepted
      refine ⟨fun family => ?_, rfl, rfl⟩
      cases family with
      | false => exact checkPool_serves first
      | true => exact checkPool_serves second

/-! ### Runs -/

section

variable (isFresh : fresh.inner.Keeps fresh.inner) (isEmpty : fresh.inner.byAddress = ∅)
  (unwritten : fresh.inner.writtenTo = none)

include isFresh isEmpty unwritten

theorem Sound.call (sound : Sound paths fresh world) (call : Call) :
    Sound paths fresh (world.call paths fresh call) := by
  cases call with
  | create domain v6 => exact sound.create domain v6
  | clear => exact sound.clear
  | sync => exact sound.sync
  | reload slot => exact ⟨sound.ranges, sound.keeps, sound.files, sound.mirrors⟩
  | commit here count =>
    refine ⟨sound.ranges, sound.keeps, setFile_sound sound.files ((sound.files here).commit count),
      fun binding written => ?_⟩
    change Mirrors _ ((world.setFile here _).files _).written _
    rw [files_setFile]
    split_ifs with same
    · rw [written_commit, ← same]
      exact sound.mirrors binding written
    · exact sound.mirrors binding written
  | restart slot =>
    exact (start_sound slot isFresh isEmpty unwritten
      (fun place => .of_tables (sound.files place).written) (fun _ => rfl)).1
  | crash slot =>
    exact (start_sound slot isFresh isEmpty unwritten
      (fun place => .of_tables (sound.files place).tables) (fun _ => rfl)).1

theorem Sound.run (calls : List Call) (sound : Sound paths fresh world) :
    Sound paths fresh (world.run paths fresh calls) := by
  induction calls generalizing world with
  | nil => exact sound
  | cons call rest ih => exact ih (sound.call isFresh isEmpty unwritten call)

end

/-! ### What is held -/

def Holds (world : World) (domain : String) (v6 : Bool) (address : IpAddr) : Prop :=
  world.store.inner.lookup address = .domain domain ∧
    world.store.inner.addressOf domain v6 = some address

def Unmapped (fresh : FakeIpStore) : Prop :=
  ∀ pool, fresh.inner.v6 = some pool → pool.last < 0xffff * 2 ^ 32 ∨ 0x10000 * 2 ^ 32 ≤ pool.first

theorem named_of_addressOf {inner : Inner} (keeps : inner.Keeps fresh.inner)
    (has : inner.addressOf domain v6 = some address) :
    isIpv6 address = v6 ∧ inner.byAddress.lookup address = some domain := by
  obtain ⟨pool, here, found⟩ := Option.bind_eq_some_iff.mp has
  obtain ⟨n, lookup, rfl⟩ := Option.map_eq_some_iff.mp found
  obtain ⟨range, _, accepted, own⟩ := Serves.of_pool (here ▸ keeps v6)
  obtain ⟨address, mine, rfl⟩ := own.paired.numbered domain n lookup
  have same : pool.addr ((numbering range.v6).number address) = address := by
    unfold Pool.addr
    rw [own.family, ← mine]
    exact familyAddr_number address
  rw [same]
  exact ⟨mine.trans accepted.family, (own.paired.inverse domain address mine).mp lookup⟩

/-- An address is held exactly when the address map has it. -/
theorem holds_iff (sound : Sound paths fresh world) (unmapped : Unmapped fresh) :
    world.Holds domain v6 address ↔
      isIpv6 address = v6 ∧ world.store.inner.byAddress.lookup address = some domain := by
  refine ⟨fun holds => named_of_addressOf sound.keeps holds.2, ?_⟩
  rintro ⟨rfl, named⟩
  obtain ⟨range, pool, served, here, accepted, keeps, has⟩ :=
    (sound.keeps (isIpv6 address)).of_named named
  have within := keeps.within domain _ has
  constructor
  · have contains : (world.store.inner.pool (isIpv6 address)).any
        (fun pool => pool.contains (number address)) = true := by
      rw [here, Option.any_some]
      unfold Pool.contains
      rw [keeps.first, keeps.last, decide_eq_true within.1, decide_eq_true (Nat.le_of_lt within.2)]
      rfl
    unfold Inner.lookup
    cases address with
    | v4 bits =>
      dsimp only
      rw [contains, named]
      rfl
    | v6 bits =>
      have isReal : bits.toNat / 2 ^ 32 ≠ 0xffff := by
        have outside := unmapped range served
        change range.first + reserved ≤ bits.toNat ∧ bits.toNat < range.last at within
        omega
      dsimp only
      rw [if_neg isReal, contains, named]
      rfl
  · unfold Inner.addressOf
    rw [here, Option.bind_some, has, Option.map_some]
    unfold Pool.addr
    rw [keeps.family, accepted.family, familyAddr_number]

/-- What is handed out is held. -/
theorem created_holds (sound : Sound paths fresh world) (unmapped : Unmapped fresh)
    (created : (world.create paths domain v6).1 = .ok address) :
    (world.create paths domain v6).2.Holds domain v6 address := by
  refine (holds_iff (sound.create domain v6) unmapped).mpr ?_
  unfold create at created ⊢
  cases here : world.store.inner.pool v6 with
  | none =>
    rw [here] at created
    cases created
  | some pool =>
    rw [here] at created
    dsimp only at created ⊢
    cases has : pool.domains.lookup domain with
    | some n =>
      rw [has] at created
      cases created
      refine named_of_addressOf sound.keeps ?_
      unfold Inner.addressOf
      rw [here, Option.bind_some, has, Option.map_some]
    | none =>
      rw [has] at created
      have handsOut := sound.keeps.handOut here has
      generalize world.store.inner.handOut v6 pool domain = outcome at created handsOut ⊢
      obtain ⟨addr, inner, ops⟩ := outcome
      cases created
      refine ⟨handsOut.family, ?_⟩
      rw [(persist_same _ ops).byAddress]
      exact (handsOut.byAddress _).trans (if_pos rfl)

/-- Whether a call makes the store forget an address: it is taken again or evicted
when another is handed out, all are cleared, or the store is started from something
else than what it was written to. -/
def Forgets (paths : Nat → String) (world : World) (address : IpAddr) : Call → Prop
  | .create domain v6 => ∃ pool, world.store.inner.pool v6 = some pool ∧
      pool.domains.lookup domain = none ∧
      ((world.store.inner.handOut v6 pool domain).1 = address ∨
        FakeIpOp.remove address ∈ (world.store.inner.handOut v6 pool domain).2.2)
  | .clear => True
  | .sync => False
  | .reload _ => False
  | .commit _ _ => False
  | .restart slot => ∀ binding, world.store.inner.writtenTo = some binding →
      slot.map (place paths) ≠ some (place paths binding)
  | .crash _ => True

theorem Sound.kept (isFresh : fresh.inner.Keeps fresh.inner) (isEmpty : fresh.inner.byAddress = ∅)
    (unwritten : fresh.inner.writtenTo = none) (sound : Sound paths fresh world) {call : Call}
    {address : IpAddr} {domain : String}
    (named : world.store.inner.byAddress.lookup address = some domain)
    (keeps : ¬ Forgets paths world address call) :
    (world.call paths fresh call).store.inner.byAddress.lookup address = some domain := by
  cases call with
  | clear | crash _ => exact absurd trivial keeps
  | reload _ | commit _ _ => exact named
  | sync =>
    change ((world.persist paths []).store.inner).byAddress.lookup address = _
    rw [(persist_same world []).byAddress]
    exact named
  | create other v6 =>
    change (world.create paths other v6).2.store.inner.byAddress.lookup address = _
    unfold World.create
    cases here : world.store.inner.pool v6 with
    | none => exact named
    | some pool =>
      dsimp only
      cases has : pool.domains.lookup other with
      | some n => exact named
      | none =>
        have handsOut := sound.keeps.handOut here has
        rw [(persist_same _ _).byAddress]
        refine (handsOut.byAddress address).trans ?_
        have apart : address ≠ (world.store.inner.handOut v6 pool other).1 :=
          fun same => keeps ⟨pool, here, has, .inl same.symm⟩
        have stays : FakeIpOp.remove address ∉
            (world.store.inner.handOut v6 pool other).2.2 :=
          fun removed => keeps ⟨pool, here, has, .inr removed⟩
        rw [if_neg apart, if_neg stays]
        exact named
  | restart slot =>
    obtain ⟨binding, written, same⟩ : ∃ binding, world.store.inner.writtenTo = some binding ∧
          slot.map (place paths) = some (place paths binding) := by
      by_contra none
      exact keeps (fun binding written same => none ⟨binding, written, same⟩)
    obtain ⟨opened, rfl, samePlace⟩ := Option.map_eq_some_iff.mp same
    have mirrors := sound.mirrors binding written
    have restored := (@start_sound paths fresh
      (fun place => (world.files place).close) (some opened) isFresh isEmpty unwritten
      (fun place => .of_tables (sound.files place).written) (fun _ => rfl)).2 opened
      world.store.inner rfl sound.keeps (samePlace ▸ mirrors) address
    exact restored.trans named

def Unforgotten (paths : Nat → String) (fresh : FakeIpStore) (address : IpAddr) :
    List Call → World → Prop
  | [], _ => True
  | call :: rest, world =>
    ¬ Forgets paths world address call ∧
      Unforgotten paths fresh address rest (world.call paths fresh call)

theorem Sound.kept_run (isFresh : fresh.inner.Keeps fresh.inner)
    (isEmpty : fresh.inner.byAddress = ∅) (unwritten : fresh.inner.writtenTo = none)
    (calls : List Call) (sound : Sound paths fresh world)
    (named : world.store.inner.byAddress.lookup address = some domain)
    (keeps : Unforgotten paths fresh address calls world) :
    (world.run paths fresh calls).store.inner.byAddress.lookup address = some domain := by
  induction calls generalizing world with
  | nil => exact named
  | cons call rest ih =>
    exact ih (sound.call isFresh isEmpty unwritten call)
      (sound.kept isFresh isEmpty unwritten named keeps.1) keeps.2

end World

/-! ### Fake IPs and domains -/

namespace FakeIpExample

def inet : IpInet :=
  { address := .v4 0xc6120000#32, length := 29, length_le := by decide }

def fresh : FakeIpStore :=
  { ranges := (some "198.18.0.0/29", none)
    inner :=
      { v4 := some (Pool.new inet)
        v6 := none
        byAddress := ∅
        handedOut := 0
        writtenTo := none } }

def files : Place → CacheFile :=
  fun _ => { tables := { ranges := none, fakeip := ∅, cursor := ∅ }, queued := [] }

def paths : Nat → String :=
  fun _ => "cache.db"

def handedOut : World :=
  World.run paths fresh [.create "a.example" false]
    (World.start paths fresh files (some { serial := 0, id := "" }))

def later : List World.Call :=
  [.create "b.example" false, .restart (some { serial := 1, id := "" })]

theorem later_unforgotten : World.Unforgotten paths fresh (.v4 0xc6120004#32) later handedOut := by
  refine ⟨?_, ?_, trivial⟩
  · rintro ⟨pool, here, _, forgets⟩
    cases here
    revert forgets
    decide +kernel
  · intro moved
    exact moved { serial := 0, id := "" } rfl rfl

end FakeIpExample

end Sail.App.Dns
