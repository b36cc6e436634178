/-
Conservation in the resource ledger.

Every counter of use is the sum of what the leases hold and of what the threads
in the middle of an operation hold of it. A thread's share changes by exactly
what its atomic operation does to the counter, so the balance survives every
interleaving.
-/

import Sail.Lib.Tally
import Sail.Netstack.Buffer.Budget

namespace Sail.Netstack

open SharedCounters

variable (kind : ResourceKind) {thread : LedgerThread} {budget : ResourceBudget}

/-! ### Shares -/

def chargeTotal (kind : ResourceKind) (amount : Nat) : Use → Nat
  | .totalBytes => if kind.isBytes then amount else 0
  | .used _ => 0

def chargePool (kind : ResourceKind) (amount : Nat) (use : Use) : Nat :=
  if use = .used kind then amount else 0

def charge (kind : ResourceKind) (amount : Nat) (use : Use) : Nat :=
  chargeTotal kind amount use + chargePool kind amount use

theorem chargeTotal_eq {kind : ResourceKind} (bytes : kind.isBytes = true) (amount : Nat)
    (use : Use) : chargeTotal kind amount use = if use = .totalBytes then amount else 0 := by
  cases use with
  | totalBytes => rw [chargeTotal, if_pos bytes, if_pos rfl]
  | used other => rw [chargeTotal, if_neg (by simp)]

theorem chargeTotal_of_not_bytes {kind : ResourceKind} (counted : ¬ kind.isBytes = true)
    (amount : Nat) (use : Use) : chargeTotal kind amount use = 0 := by
  cases use with
  | totalBytes => rw [chargeTotal, if_neg counted]
  | used other => rfl

theorem charge_add (first second : Nat) (use : Use) :
    charge kind (first + second) use = charge kind first use + charge kind second use := by
  unfold charge chargePool
  cases use with
  | totalBytes | used _ =>
    simp only [chargeTotal]
    split_ifs <;> omega

theorem charge_zero (use : Use) : charge kind 0 use = 0 := by
  unfold charge chargePool
  cases use with
  | totalBytes | used _ => simp [chargeTotal]

def BudgetLease.share (lease : BudgetLease) (use : Use) : Nat :=
  charge lease.kind lease.amount use

def answerShare (answer : Answer) (use : Use) : Nat :=
  match answer with
  | some (.ok lease) => lease.share use
  | _ => 0

theorem tally_granted (answer : Answer) (use : Use) :
    tally (BudgetLease.share · use) (Ledger.granted answer) = answerShare answer use := by
  cases answer with
  | none => rfl
  | some result =>
    cases result with
    | error error => rfl
    | ok lease => exact Nat.add_zero _

namespace LedgerThread

def share : LedgerThread → Use → Nat
  | .loading request .pool, use => chargeTotal request.kind request.amount use
  | .exchanging request .pool _, use => chargeTotal request.kind request.amount use
  | .denying request .pool _, use => chargeTotal request.kind request.amount use
  | .counting request .pool _ _, use => chargeTotal request.kind request.amount use
  | .rollingBack request _, use => chargeTotal request.kind request.amount use
  | .readingUse request, use => charge request.kind request.amount use
  | .raisingPeak request _, use => charge request.kind request.amount use
  | .releasingPool kind amount, use => charge kind amount use
  | .releasingTotal kind amount, use => chargeTotal kind amount use
  | _, _ => 0

/-- The total is touched for byte pools only, and an exchange was checked
against the limit. -/
def Sound (budget : ResourceBudget) : LedgerThread → Prop
  | .loading request .total => request.kind.isBytes = true
  | .exchanging request stage current =>
    (stage = .total → request.kind.isBytes = true) ∧ current + request.amount ≤ usizeMax ∧
      current + request.amount ≤ reserveLimit budget request stage
  | .rollingBack request _ => request.kind.isBytes = true
  | .releasingTotal kind _ => kind.isBytes = true
  | _ => True

variable {budget : ResourceBudget} {request : Request} {stage : Stage} {error : BudgetError}

theorem reserve_share (current : Nat) (use : Use) :
    (reserve budget request stage current).share use = (loading request stage).share use := by
  unfold reserve
  dsimp only
  split
  · cases stage <;> rfl
  · split_ifs <;> cases stage <;> rfl

theorem reserve_sound (current : Nat)
    (bytes : stage = .total → request.kind.isBytes = true) :
    (reserve budget request stage current).Sound budget := by
  unfold reserve
  dsimp only
  split
  · trivial
  next sum checked =>
    unfold ResourceBudget.checkedAdd at checked
    split_ifs at checked with fits
    cases checked
    split_ifs with exceeds
    · trivial
    · exact ⟨bytes, fits, Nat.le_of_not_lt exceeds⟩

theorem refuse_share (use : Use) :
    (refuse request stage error).1.share use + answerShare (refuse request stage error).2 use =
      (denying request stage error).share use := by
  unfold refuse
  cases stage with
  | total => rfl
  | pool =>
    split_ifs with bytes
    · rfl
    · exact (chargeTotal_of_not_bytes bytes _ _).symm

theorem refuse_sound : (refuse request stage error).1.Sound budget := by
  unfold refuse
  cases stage with
  | total => trivial
  | pool =>
    split_ifs with bytes
    · exact bytes
    · trivial

theorem recordDenial_share (denied : Nat) (use : Use) :
    (recordDenial request stage error denied).1.share use +
        answerShare (recordDenial request stage error denied).2 use =
      (denying request stage error).share use := by
  unfold recordDenial
  split_ifs
  · cases stage <;> rfl
  · exact refuse_share use

theorem recordDenial_sound (denied : Nat) :
    (recordDenial request stage error denied).1.Sound budget := by
  unfold recordDenial
  split_ifs
  · trivial
  · exact refuse_sound

theorem release_share (amount : Nat) (use : Use) :
    (release kind amount).share use = charge kind amount use := by
  unfold release
  split_ifs with nothing
  · rw [nothing, charge_zero]
    rfl
  · rfl

theorem release_sound (amount : Nat) : (release kind amount).Sound budget := by
  unfold release
  split_ifs <;> trivial

end LedgerThread

/-! ### One atomic operation -/

def ResourceBudget.useLimit (budget : ResourceBudget) : Use → Nat
  | .totalBytes => budget.totalBytes
  | .used kind => budget.limit kind

def WithinLimits (budget : ResourceBudget) (memory : Memory Counter) : Prop :=
  ∀ use, memory (.use use) ≤ budget.useLimit use ∧ memory (.use use) ≤ usizeMax

def Covers (memory : Memory Counter) (thread : LedgerThread) : Prop :=
  ∀ cell amount, thread.next = some (.fetchSub cell amount) → amount ≤ memory cell

theorem LedgerThread.covers {memory : Memory Counter} (sound : thread.Sound budget)
    (enough : ∀ use, thread.share use ≤ memory (.use use)) : Covers memory thread := by
  intro cell amount next
  cases thread with
  | rollingBack _ _ | releasingTotal _ _ =>
    cases next
    have total := enough .totalBytes
    rwa [share, chargeTotal_eq sound, if_pos rfl] at total
  | releasingPool kind amount =>
    cases next
    have pool := enough (.used kind)
    rw [share, charge, chargePool, if_pos rfl] at pool
    exact (Nat.le_add_left _ _).trans pool
  | _ => cases next

/-- What an atomic operation keeps: the limits, the soundness of the thread, and
the balance between the counters and the thread's share. -/
structure Balanced (budget : ResourceBudget) (memory after : Memory Counter)
    (thread : LedgerThread) (resumed : LedgerThread × Answer) : Prop where
  limits : WithinLimits budget after
  sound : resumed.1.Sound budget
  balance : ∀ use, after (.use use) + thread.share use =
    memory (.use use) + (resumed.1.share use + answerShare resumed.2 use)

namespace Balanced

variable {budget : ResourceBudget} {memory : Memory Counter} {thread : LedgerThread}

variable {resumed : LedgerThread × Answer}

/-- An operation that leaves the counters of use alone. -/
theorem unchanged {after : Memory Counter} (same : ∀ use, after (.use use) = memory (.use use))
    (limits : WithinLimits budget memory) (sound : resumed.1.Sound budget)
    (kept : ∀ use, resumed.1.share use + answerShare resumed.2 use = thread.share use) :
    Balanced budget memory after thread resumed := by
  refine ⟨?_, sound, ?_⟩
  · intro use
    rw [same]
    exact limits use
  · intro use
    rw [same, kept]

/-- An operation that takes an amount off one counter. -/
theorem released {use : Use} {amount : Nat} (limits : WithinLimits budget memory)
    (enough : amount ≤ memory (.use use)) (sound : resumed.1.Sound budget)
    (given : ∀ other, thread.share other = resumed.1.share other +
      answerShare resumed.2 other + if other = use then amount else 0) :
    Balanced budget memory
      (Function.update memory (.use use) (wrappingSub (memory (.use use)) amount)) thread
      resumed := by
  have value : ∀ other, Function.update memory (.use use)
      (wrappingSub (memory (.use use)) amount) (.use other) +
        (if other = use then amount else 0) = memory (.use other) := by
    intro other
    by_cases same : other = use
    · rw [same, Function.update_self, wrappingSub_eq enough, if_pos rfl]
      omega
    · rw [Function.update_of_ne (fun equal => same (Counter.use.inj equal)), if_neg same]
      rfl
  refine ⟨?_, sound, ?_⟩
  · intro other
    have bounds := limits other
    have after := value other
    omega
  · intro other
    have after := value other
    have share := given other
    omega

/-- An exchange that adds an amount to one counter. -/
theorem reserved {use : Use} {amount : Nat} (limits : WithinLimits budget memory)
    (fits : memory (.use use) + amount ≤ budget.useLimit use ∧
      memory (.use use) + amount ≤ usizeMax)
    (sound : resumed.1.Sound budget)
    (taken : ∀ other, resumed.1.share other + answerShare resumed.2 other =
      thread.share other + if other = use then amount else 0) :
    Balanced budget memory
      (Function.update memory (.use use) (memory (.use use) + amount)) thread resumed := by
  have value : ∀ other, Function.update memory (.use use)
      (memory (.use use) + amount) (.use other) =
        memory (.use other) + if other = use then amount else 0 := by
    intro other
    by_cases same : other = use
    · rw [same, Function.update_self, if_pos rfl]
    · rw [Function.update_of_ne (fun equal => same (Counter.use.inj equal)), if_neg same]
      rfl
  refine ⟨?_, sound, ?_⟩
  · intro other
    rw [value]
    split_ifs with same
    · rw [same]
      exact fits
    · exact limits other
  · intro other
    rw [value, taken]
    omega

end Balanced

open LedgerThread in
/-- Every atomic operation of every thread keeps the balance. -/
theorem Balanced.perform {memory : Memory Counter} {atomic : Atomic Counter} (spurious : Bool)
    (limits : WithinLimits budget memory) (sound : thread.Sound budget)
    (covered : Covers memory thread) (next : thread.next = some atomic) :
    Balanced budget memory (SharedCounters.perform memory spurious atomic).2 thread
      (thread.resume budget (SharedCounters.perform memory spurious atomic).1) := by
  cases thread with
  | idle => cases next
  | loading request stage =>
    cases next
    refine unchanged (fun _ => rfl) limits (reserve_sound _ ?_) (fun use => reserve_share _ use)
    intro total
    rw [total] at sound
    exact sound
  | exchanging request stage current =>
    cases next
    obtain ⟨bytes, fits, within⟩ := sound
    rw [perform_compareExchangeWeak]
    split_ifs with success
    · obtain ⟨same, _⟩ := success
      subst same
      cases stage with
      | total =>
        refine reserved limits ⟨within, fits⟩ trivial ?_
        intro other
        change chargeTotal request.kind request.amount other + 0 =
          0 + if other = .totalBytes then request.amount else 0
        rw [chargeTotal_eq (bytes rfl), Nat.zero_add, Nat.add_zero]
      | pool =>
        refine reserved limits ⟨within.trans (Nat.min_le_left _ _), fits⟩ trivial ?_
        intro other
        rfl
    · refine unchanged (fun _ => rfl) limits ?_ ?_
      · cases stage <;> exact reserve_sound _ bytes
      · intro use
        cases stage <;> exact reserve_share _ use
  | denying request stage error =>
    cases next
    exact unchanged (fun _ => rfl) limits (recordDenial_sound _)
      (fun use => recordDenial_share _ use)
  | counting request stage error denied =>
    cases next
    have sameShare : ∀ use, (counting request stage error denied).share use =
        (denying request stage error).share use := by
      intro use
      cases stage <;> rfl
    refine unchanged (fun _ => perform_of_ne _ _ Counter.noConfusion) limits ?_ ?_
    · rw [perform_compareExchangeWeak]
      split_ifs
      · exact refuse_sound
      · exact recordDenial_sound _
    · intro use
      rw [perform_compareExchangeWeak, sameShare]
      split_ifs
      · exact refuse_share use
      · exact recordDenial_share _ use
  | rollingBack request error =>
    cases next
    refine released limits (covered _ _ rfl) trivial ?_
    intro other
    change chargeTotal request.kind request.amount other = 0 + 0 + _
    rw [chargeTotal_eq sound, Nat.zero_add]
  | readingUse request =>
    cases next
    exact unchanged (fun _ => rfl) limits trivial (fun _ => rfl)
  | raisingPeak request value =>
    cases next
    exact unchanged (fun _ => perform_of_ne _ _ Counter.noConfusion) limits trivial
      (fun _ => Nat.zero_add _)
  | releasingPool kind amount =>
    cases next
    change Balanced budget memory _ _ (if kind.isBytes then releasingTotal kind amount else idle,
      none)
    by_cases bytes : kind.isBytes = true
    · rw [if_pos bytes]
      exact released limits (covered _ _ rfl) bytes (fun _ => rfl)
    · rw [if_neg bytes]
      refine released limits (covered _ _ rfl) trivial ?_
      intro other
      change chargeTotal kind amount other + _ = 0 + 0 + _
      rw [chargeTotal_of_not_bytes bytes]
      rfl
  | releasingTotal kind amount =>
    cases next
    refine released limits (covered _ _ rfl) trivial ?_
    intro other
    change chargeTotal kind amount other = 0 + 0 + _
    rw [chargeTotal_eq sound, Nat.zero_add]

/-! ### Interleavings -/

/-- The counters are within their limits, and each is the sum of what the leases
and the threads hold of it. -/
structure Ledger.Conserved (ledger : Ledger) : Prop where
  limits : WithinLimits ledger.budget ledger.memory
  sound : ∀ thread ∈ ledger.threads, thread.Sound ledger.budget
  balance : ∀ use, ledger.memory (.use use) = tally (BudgetLease.share · use) ledger.leases +
      tally (LedgerThread.share · use) ledger.threads

namespace Ledger.Conserved

variable {ledger : Ledger}

section

variable (conserved : ledger.Conserved)

include conserved

theorem covers (member : thread ∈ ledger.threads) : Covers ledger.memory thread := by
  refine LedgerThread.covers (conserved.sound thread member) ?_
  intro use
  rw [conserved.balance use]
  exact (le_tally (LedgerThread.share · use) member).trans (Nat.le_add_left _ _)

variable {index lease : Nat} {held : BudgetLease} {next : Ledger}

/-- A change of one thread and of the leases that moves shares between them. -/
theorem move {old new : LedgerThread} {leases : List BudgetLease}
    (present : ledger.threads[index]? = some old) (sound : new.Sound ledger.budget)
    (moved : ∀ use, tally (BudgetLease.share · use) leases + new.share use =
      tally (BudgetLease.share · use) ledger.leases + old.share use) :
    ({ ledger with leases }.setThread index new).Conserved := by
  refine ⟨conserved.limits, ?_, ?_⟩
  · intro thread member
    rcases List.mem_or_eq_of_mem_set member with kept | rfl
    · exact conserved.sound thread kept
    · exact sound
  · intro use
    have balance := conserved.balance use
    have threads := tally_set (LedgerThread.share · use) present new
    have shares := moved use
    change ledger.memory (.use use) = tally _ leases + tally _ (ledger.threads.set index new)
    omega

/-- A change of the leases alone that keeps what they hold. -/
theorem regroup {leases : List BudgetLease}
    (same : ∀ use, tally (BudgetLease.share · use) leases =
      tally (BudgetLease.share · use) ledger.leases) :
    ({ ledger with leases } : Ledger).Conserved := by
  refine ⟨conserved.limits, conserved.sound, ?_⟩
  intro use
  rw [same, conserved.balance use]

theorem beginAcquire (request : Request) (idle : ledger.threads[index]? = some .idle) :
    (ledger.beginAcquire index request).Conserved := by
  unfold Ledger.beginAcquire
  split_ifs with nothing bytes
  · refine conserved.regroup ?_
    intro use
    rw [tally_append, tally_cons, tally_nil, BudgetLease.share, nothing, charge_zero]
    rfl
  · exact conserved.move idle bytes (fun _ => rfl)
  · refine conserved.move idle trivial ?_
    intro use
    change _ + chargeTotal request.kind request.amount use = _
    rw [chargeTotal_of_not_bytes bytes]
    rfl

theorem beginShrink {amount : Nat} (idle : ledger.threads[index]? = some .idle)
    (present : ledger.leases[lease]? = some held)
    (shrunk : ledger.beginShrink index lease amount held = some next) : next.Conserved := by
  unfold Ledger.beginShrink at shrunk
  split_ifs at shrunk with fits
  cases shrunk
  refine conserved.move idle (LedgerThread.release_sound _ _) ?_
  intro use
  have leases := tally_set (BudgetLease.share · use) present ⟨held.kind, amount⟩
  have parts := charge_add held.kind amount (held.amount - amount) use
  rw [Nat.add_sub_cancel' fits] at parts
  rw [LedgerThread.release_share]
  change _ + charge held.kind held.amount use = _ + charge held.kind amount use at leases
  change _ = _ + 0
  omega

theorem split {position : Nat} (present : ledger.leases[lease]? = some held)
    (cut : ledger.split lease position held = some next) : next.Conserved := by
  unfold Ledger.split at cut
  split_ifs at cut with fits
  cases cut
  refine conserved.regroup ?_
  intro use
  have leases := tally_set (BudgetLease.share · use) present ⟨held.kind, position⟩
  have parts := charge_add held.kind position (held.amount - position) use
  rw [Nat.add_sub_cancel' fits] at parts
  rw [tally_append, tally_cons, tally_nil]
  change _ + charge held.kind held.amount use = _ + charge held.kind position use at leases
  change _ + (charge held.kind (held.amount - position) use + 0) = _
  omega

theorem beginDrop (idle : ledger.threads[index]? = some .idle)
    (present : ledger.leases[lease]? = some held) :
    (ledger.beginDrop index lease held).Conserved := by
  refine conserved.move idle (LedgerThread.release_sound _ _) ?_
  intro use
  have leases := tally_eraseIdx (BudgetLease.share · use) present
  rw [LedgerThread.release_share]
  change _ + charge held.kind held.amount use = _ at leases
  change _ = _ + 0
  omega

theorem advance {spurious : Bool} (present : ledger.threads[index]? = some thread)
    (advanced : ledger.advance index thread spurious = some next) :
    next.Conserved ∧ next.budget = ledger.budget := by
  obtain ⟨atomic, performs, rfl⟩ := Option.map_eq_some_iff.mp advanced
  have member := List.mem_of_getElem? present
  have balanced := Balanced.perform spurious conserved.limits (conserved.sound thread member)
    (conserved.covers member) performs
  refine ⟨⟨balanced.limits, ?_, ?_⟩, rfl⟩
  · intro other kept
    rcases List.mem_or_eq_of_mem_set kept with old | rfl
    · exact conserved.sound other old
    · exact balanced.sound
  · intro use
    have before := conserved.balance use
    have moved := balanced.balance use
    dsimp only
    generalize thread.resume ledger.budget
      (SharedCounters.perform ledger.memory spurious atomic).1 = resumed at *
    have threads := tally_set (LedgerThread.share · use) present resumed.1
    rw [tally_append, tally_granted]
    omega

/-- Every event keeps the balance. -/
theorem event {event : LedgerEvent} (taken : ledger.event event = some next) :
    next.Conserved ∧ next.budget = ledger.budget := by
  cases event with
  | tryAcquireWithin index request =>
    unfold Ledger.event at taken
    dsimp only at taken
    split_ifs at taken with idle
    cases taken
    refine ⟨conserved.beginAcquire request idle, ?_⟩
    unfold Ledger.beginAcquire
    split_ifs <;> rfl
  | shrinkTo index lease amount =>
    unfold Ledger.event at taken
    dsimp only at taken
    split_ifs at taken with idle
    obtain ⟨held, present, shrunk⟩ := Option.bind_eq_some_iff.mp taken
    refine ⟨conserved.beginShrink idle present shrunk, ?_⟩
    unfold Ledger.beginShrink at shrunk
    split_ifs at shrunk
    cases shrunk
    rfl
  | splitOff index lease position =>
    unfold Ledger.event at taken
    dsimp only at taken
    split_ifs at taken with idle
    obtain ⟨held, present, cut⟩ := Option.bind_eq_some_iff.mp taken
    refine ⟨conserved.split present cut, ?_⟩
    unfold Ledger.split at cut
    split_ifs at cut
    cases cut
    rfl
  | drop index lease =>
    unfold Ledger.event at taken
    dsimp only at taken
    split_ifs at taken with idle
    obtain ⟨held, present, rfl⟩ := Option.map_eq_some_iff.mp taken
    exact ⟨conserved.beginDrop idle present, rfl⟩
  | step index spurious =>
    obtain ⟨thread, present, advanced⟩ := Option.bind_eq_some_iff.mp taken
    exact conserved.advance present advanced

/-- So does every interleaving. -/
theorem run {events : List LedgerEvent} {last : Ledger} (reached : ledger.run events = some last) :
    last.Conserved ∧ last.budget = ledger.budget := by
  induction events generalizing ledger with
  | nil =>
    cases reached
    exact ⟨conserved, rfl⟩
  | cons event rest ih =>
    obtain ⟨next, taken, onward⟩ := Option.bind_eq_some_iff.mp reached
    obtain ⟨kept, sameBudget⟩ := conserved.event taken
    obtain ⟨atEnd, lastBudget⟩ := ih kept onward
    exact ⟨atEnd, lastBudget.trans sameBudget⟩

end

end Ledger.Conserved

/-! ### Whole runs -/

def ResourceKind.bytePools : List ResourceKind :=
  [.metadataBytes, .tcpPayloadBytes, .packetBytes, .controlPacketBytes, .fragmentBytes]

/-- An amount is counted in the total once for the pool it is in. -/
theorem tally_chargePool (amount : Nat) :
    tally (fun pool => chargePool kind amount (.used pool)) ResourceKind.bytePools =
      chargeTotal kind amount .totalBytes := by
  cases kind <;>
    simp [ResourceKind.bytePools, chargePool, chargeTotal, ResourceKind.isBytes]

theorem tally_charge (amount : Nat) :
    tally (fun pool => charge kind amount (.used pool)) ResourceKind.bytePools =
      charge kind amount .totalBytes := by
  have pools := tally_chargePool kind amount
  simp only [charge, chargeTotal, Nat.zero_add] at pools ⊢
  rw [pools]
  rfl

/-- A thread's shares of the byte pools are part of its share of the total. -/
theorem LedgerThread.tally_share_le (thread : LedgerThread) :
    tally (fun pool => thread.share (.used pool)) ResourceKind.bytePools ≤
      thread.share .totalBytes := by
  unfold LedgerThread.share
  split <;> first
    | exact Nat.le_of_eq (tally_charge _ _)
    | exact (tally_eq_zero (fun _ _ => rfl)).trans_le (Nat.zero_le _)

def Ledger.Quiet (ledger : Ledger) : Prop :=
  ∀ thread ∈ ledger.threads, thread = .idle

def Ledger.outstanding (ledger : Ledger) (kind : ResourceKind) : Nat :=
  tally BudgetLease.amount (ledger.leases.filter (fun lease => lease.kind = kind))

theorem Ledger.Quiet.share_eq_zero {ledger : Ledger} (quiet : ledger.Quiet) (use : Use) :
    tally (LedgerThread.share · use) ledger.threads = 0 := by
  refine tally_eq_zero ?_
  intro thread member
  rw [quiet thread member]
  rfl

namespace Ledger.Conserved

variable {ledger : Ledger}

theorem used_eq (conserved : ledger.Conserved) (quiet : ledger.Quiet) (kind : ResourceKind) :
    ledger.memory (.use (.used kind)) = ledger.outstanding kind := by
  rw [conserved.balance, quiet.share_eq_zero, Nat.add_zero, outstanding, tally_filter]
  congr 1
  funext lease
  simp [BudgetLease.share, charge, chargeTotal, chargePool, eq_comm]

theorem tally_leases (ledger : Ledger) :
    tally (fun pool => tally (BudgetLease.share · (.used pool)) ledger.leases)
        ResourceKind.bytePools =
      tally (BudgetLease.share · .totalBytes) ledger.leases := by
  rw [tally_tally]
  congr 1
  funext lease
  exact tally_charge lease.kind lease.amount

theorem total_eq (conserved : ledger.Conserved) (quiet : ledger.Quiet) :
    ledger.memory (.use .totalBytes) =
      tally (fun pool => ledger.memory (.use (.used pool))) ResourceKind.bytePools := by
  simp only [conserved.balance, quiet.share_eq_zero, Nat.add_zero]
  exact (tally_leases ledger).symm

theorem pools_le_total (conserved : ledger.Conserved) :
    tally (fun pool => ledger.memory (.use (.used pool))) ResourceKind.bytePools ≤
      ledger.memory (.use .totalBytes) := by
  have pools : tally (fun pool => ledger.memory (.use (.used pool))) ResourceKind.bytePools =
      tally (fun pool => tally (BudgetLease.share · (.used pool)) ledger.leases)
          ResourceKind.bytePools +
        tally (fun pool => tally (LedgerThread.share · (.used pool)) ledger.threads)
          ResourceKind.bytePools := by
    simp only [conserved.balance]
    exact tally_add _ _ _
  rw [pools, conserved.balance .totalBytes, tally_leases]
  refine Nat.add_le_add_left ?_ _
  rw [tally_tally]
  exact tally_le_tally (fun thread _ => thread.tally_share_le)

end Ledger.Conserved

theorem Ledger.new_conserved {threads : Nat} {start : Ledger}
    (accepted : Ledger.new budget threads = .ok start) :
    start.Conserved ∧ start.budget = budget := by
  unfold Ledger.new at accepted
  cases valid : budget.validate with
  | error error =>
    rw [valid] at accepted
    cases accepted
  | ok validated =>
    rw [valid] at accepted
    cases accepted
    have quiet : ∀ thread ∈ List.replicate threads LedgerThread.idle, thread = .idle :=
      fun _ member => List.eq_of_mem_replicate member
    refine ⟨⟨fun _ => ⟨Nat.zero_le _, Nat.zero_le _⟩, ?_, ?_⟩, budget.validate_eq valid⟩
    · intro thread member
      rw [quiet thread member]
      trivial
    · intro use
      have nothing : tally (LedgerThread.share · use) (List.replicate threads .idle) = 0 := by
        refine tally_eq_zero ?_
        intro thread member
        rw [quiet thread member]
        rfl
      exact nothing.symm.trans (Nat.zero_add _).symm

/-- For every interleaving of any number of threads: no use exceeds its limit,
the byte pools together stay within the total, no counter underflows, and
whenever no operation is in progress each counter is what the leases hold. -/
theorem ledger_conserves_use (budget : ResourceBudget) (threads : Nat) (start : Ledger)
    (accepted : Ledger.new budget threads = .ok start) (events : List LedgerEvent)
    (ledger : Ledger) (reached : start.run events = some ledger) :
    (∀ kind, ledger.memory (.use (.used kind)) ≤ budget.limit kind) ∧
      tally (fun pool => ledger.memory (.use (.used pool))) ResourceKind.bytePools ≤
        budget.totalBytes ∧
      ledger.memory (.use .totalBytes) ≤ budget.totalBytes ∧
      (∀ thread ∈ ledger.threads, Covers ledger.memory thread) ∧
      (ledger.Quiet →
        (∀ kind, ledger.memory (.use (.used kind)) = ledger.outstanding kind) ∧
          ledger.memory (.use .totalBytes) =
            tally (fun pool => ledger.memory (.use (.used pool))) ResourceKind.bytePools) ∧
      ∀ (more : List LedgerEvent) (later : Ledger), ledger.run more = some later →
        ledger.Quiet → later.Quiet → later.leases = ledger.leases →
        ∀ use, later.memory (.use use) = ledger.memory (.use use) := by
  obtain ⟨initial, startBudget⟩ := Ledger.new_conserved accepted
  obtain ⟨conserved, sameBudget⟩ := initial.run reached
  rw [startBudget] at sameBudget
  have total : ledger.memory (.use .totalBytes) ≤ budget.totalBytes := by
    rw [← sameBudget]
    exact (conserved.limits .totalBytes).1
  refine ⟨?_, conserved.pools_le_total.trans total, total, fun _ member => conserved.covers member,
    fun quiet => ⟨conserved.used_eq quiet, conserved.total_eq quiet⟩, ?_⟩
  · intro kind
    rw [← sameBudget]
    exact (conserved.limits (.used kind)).1
  · intro more later onward quiet laterQuiet sameLeases use
    obtain ⟨laterConserved, _⟩ := conserved.run onward
    have sameUse (kind : ResourceKind) : later.memory (.use (.used kind)) =
        ledger.memory (.use (.used kind)) := by
      rw [laterConserved.used_eq laterQuiet, conserved.used_eq quiet, Ledger.outstanding,
        sameLeases]
      rfl
    cases use with
    | used kind => exact sameUse kind
    | totalBytes =>
      rw [laterConserved.total_eq laterQuiet, conserved.total_eq quiet]
      simp only [sameUse]

/-- Two threads ask for the last packet bytes of a router at once; the second
is refused by the pool after it has reserved the total, and rolls back. -/
theorem ledger_conserves_use_refused_thread :
    ∃ start ledger, Ledger.new BudgetProfile.router.budget 2 = .ok start ∧ start.run
          ([.tryAcquire 0 .packetBytes 3000000, .tryAcquire 1 .packetBytes 3000000] ++
            [0, 1, 0, 1, 1, 0, 1, 0, 1, 1, 1, 1, 0, 0].map (fun thread => .step thread false)) =
        some ledger ∧
      ledger.leases = [⟨.packetBytes, 3000000⟩] ∧
      ledger.memory (.use .totalBytes) ≤ BudgetProfile.router.budget.totalBytes := by
  refine ⟨_, _, rfl, rfl, ?_, ?_⟩
  · rfl
  · exact (ledger_conserves_use BudgetProfile.router.budget 2 _ rfl
      ([.tryAcquire 0 .packetBytes 3000000, .tryAcquire 1 .packetBytes 3000000] ++
        [0, 1, 0, 1, 1, 0, 1, 0, 1, 1, 1, 1, 0, 0].map (fun thread => .step thread false))
      _ rfl).2.2.1

end Sail.Netstack
