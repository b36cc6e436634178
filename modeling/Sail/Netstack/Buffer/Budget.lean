/-
The resource ledger.

A ledger counts the use of each kind of resource, and of all byte pools together, in
shared counters; a lease stands for a granted amount. Every access to a counter is one
atomic operation, and those of different threads interleave in any order.
-/

import Sail.Lib.SharedCounters

namespace Sail.Netstack

open SharedCounters

/-! ### Budgets -/

structure ResourceBudget where
  totalBytes : Nat
  metadataBytes : Nat
  tcpPayloadBytes : Nat
  packetBytes : Nat
  controlPacketBytes : Nat
  fragmentBytes : Nat
  maxTcpFlows : Nat
  maxSynReceived : Nat
  maxAcceptQueue : Nat
  maxUdpFlows : Nat
  maxFragments : Nat
  maxTimeWait : Nat
  maxPmtuEntries : Nat
deriving DecidableEq

inductive BudgetProfile where
  | mobile
  | router
  | desktop
  | server
deriving DecidableEq

def BudgetProfile.budget : BudgetProfile → ResourceBudget
  | .mobile =>
    { totalBytes := 24 * 1024 * 1024
      metadataBytes := 4 * 1024 * 1024
      tcpPayloadBytes := 12 * 1024 * 1024
      packetBytes := 6 * 1024 * 1024 - 256 * 1024
      controlPacketBytes := 256 * 1024
      fragmentBytes := 2 * 1024 * 1024
      maxTcpFlows := 4096
      maxSynReceived := 512
      maxAcceptQueue := 512
      maxUdpFlows := 2048
      maxFragments := 256
      maxTimeWait := 8192
      maxPmtuEntries := 2048 }
  | .router =>
    { totalBytes := 16 * 1024 * 1024
      metadataBytes := 3 * 1024 * 1024
      tcpPayloadBytes := 8 * 1024 * 1024
      packetBytes := 4 * 1024 * 1024 - 256 * 1024
      controlPacketBytes := 256 * 1024
      fragmentBytes := 1024 * 1024
      maxTcpFlows := 2048
      maxSynReceived := 256
      maxAcceptQueue := 256
      maxUdpFlows := 1024
      maxFragments := 128
      maxTimeWait := 4096
      maxPmtuEntries := 1024 }
  | .desktop =>
    { totalBytes := 128 * 1024 * 1024
      metadataBytes := 16 * 1024 * 1024
      tcpPayloadBytes := 72 * 1024 * 1024
      packetBytes := 31 * 1024 * 1024
      controlPacketBytes := 1024 * 1024
      fragmentBytes := 8 * 1024 * 1024
      maxTcpFlows := 32768
      maxSynReceived := 4096
      maxAcceptQueue := 4096
      maxUdpFlows := 16384
      maxFragments := 1024
      maxTimeWait := 65536
      maxPmtuEntries := 16384 }
  | .server =>
    { totalBytes := 1024 * 1024 * 1024
      metadataBytes := 128 * 1024 * 1024
      tcpPayloadBytes := 640 * 1024 * 1024
      packetBytes := 184 * 1024 * 1024
      controlPacketBytes := 8 * 1024 * 1024
      fragmentBytes := 64 * 1024 * 1024
      maxTcpFlows := 262144
      maxSynReceived := 32768
      maxAcceptQueue := 32768
      maxUdpFlows := 131072
      maxFragments := 8192
      maxTimeWait := 524288
      maxPmtuEntries := 131072 }

inductive ResourceKind where
  | metadataBytes
  | tcpPayloadBytes
  | packetBytes
  | controlPacketBytes
  | fragmentBytes
  | tcpFlows
  | synReceived
  | acceptQueue
  | udpFlows
  | fragments
  | timeWait
  | pmtuEntries
deriving DecidableEq

def ResourceKind.isBytes : ResourceKind → Bool
  | .metadataBytes | .tcpPayloadBytes | .packetBytes | .controlPacketBytes
  | .fragmentBytes => true
  | _ => false

inductive BudgetError where
  | invalid (message : String)
  | exhausted (kind : ResourceKind) (requested available : Nat)
deriving DecidableEq

namespace ResourceBudget

def checkedAdd (left right : Nat) : Option Nat :=
  if left + right ≤ usizeMax then some (left + right) else none

def validate (budget : ResourceBudget) : Except BudgetError ResourceBudget :=
  let pools :=
    (((checkedAdd budget.metadataBytes budget.tcpPayloadBytes).bind
      (checkedAdd · budget.packetBytes)).bind
      (checkedAdd · budget.controlPacketBytes)).bind
      (checkedAdd · budget.fragmentBytes)
  match pools with
  | none => .error (.invalid "byte pool sum overflows usize")
  | some pools =>
    if budget.totalBytes = 0 ∨ budget.totalBytes < pools then
      .error (.invalid "byte pools must fit within a non-zero total_bytes")
    else if budget.maxTcpFlows = 0 ∨ budget.maxUdpFlows = 0 then
      .error (.invalid "flow limits must be non-zero")
    else if budget.maxTcpFlows < budget.maxSynReceived ∨
        budget.maxTcpFlows < budget.maxAcceptQueue then
      .error (.invalid "TCP sub-state limits must not exceed max_tcp_flows")
    else if budget.maxFragments = 0 ∨ budget.maxTimeWait = 0 ∨ budget.maxPmtuEntries = 0 then
      .error (.invalid "fragment, TIME-WAIT, and PMTU limits must be non-zero")
    else .ok budget

/-- An accepted budget is taken as it is. -/
theorem validate_eq (budget : ResourceBudget) {validated : ResourceBudget}
    (accepted : budget.validate = .ok validated) : validated = budget := by
  unfold validate at accepted
  dsimp only at accepted
  split at accepted
  · cases accepted
  · split_ifs at accepted
    cases accepted
    rfl

/-- Every profile's budget is accepted. -/
theorem validate_profile (profile : BudgetProfile) :
    profile.budget.validate = .ok profile.budget := by
  cases profile <;> rfl

def limit (budget : ResourceBudget) : ResourceKind → Nat
  | .metadataBytes => budget.metadataBytes
  | .tcpPayloadBytes => budget.tcpPayloadBytes
  | .packetBytes => budget.packetBytes
  | .controlPacketBytes => budget.controlPacketBytes
  | .fragmentBytes => budget.fragmentBytes
  | .tcpFlows => budget.maxTcpFlows
  | .synReceived => budget.maxSynReceived
  | .acceptQueue => budget.maxAcceptQueue
  | .udpFlows => budget.maxUdpFlows
  | .fragments => budget.maxFragments
  | .timeWait => budget.maxTimeWait
  | .pmtuEntries => budget.maxPmtuEntries

end ResourceBudget

/-! ### The ledger and its threads -/

inductive Use where
  | totalBytes
  | used (kind : ResourceKind)
deriving DecidableEq

inductive Counter where
  | use (use : Use)
  | peak (kind : ResourceKind)
  | denied
deriving DecidableEq

structure BudgetLease where
  kind : ResourceKind
  amount : Nat
deriving DecidableEq

structure Request where
  kind : ResourceKind
  amount : Nat
  ceiling : Nat
deriving DecidableEq

inductive Stage where
  | total
  | pool
deriving DecidableEq

def Stage.use (kind : ResourceKind) : Stage → Use
  | .total => .totalBytes
  | .pool => .used kind

inductive LedgerThread where
  | idle
  | loading (request : Request) (stage : Stage)
  | exchanging (request : Request) (stage : Stage) (current : Nat)
  | denying (request : Request) (stage : Stage) (error : BudgetError)
  | counting (request : Request) (stage : Stage) (error : BudgetError) (denied : Nat)
  | rollingBack (request : Request) (error : BudgetError)
  | readingUse (request : Request)
  | raisingPeak (request : Request) (value : Nat)
  | releasingPool (kind : ResourceKind) (amount : Nat)
  | releasingTotal (kind : ResourceKind) (amount : Nat)
deriving DecidableEq

abbrev Answer : Type :=
  Option (Except BudgetError BudgetLease)

namespace LedgerThread

def reserveLimit (budget : ResourceBudget) (request : Request) : Stage → Nat
  | .total => budget.totalBytes
  | .pool => min (budget.limit request.kind) request.ceiling

def next : LedgerThread → Option (Atomic Counter)
  | .idle => none
  | .loading request stage => some (.load (.use (stage.use request.kind)))
  | .exchanging request stage current =>
    some (.compareExchangeWeak (.use (stage.use request.kind)) current
      (current + request.amount))
  | .denying _ _ _ => some (.load .denied)
  | .counting _ _ _ denied => some (.compareExchangeWeak .denied denied (denied + 1))
  | .rollingBack request _ => some (.fetchSub (.use .totalBytes) request.amount)
  | .readingUse request => some (.load (.use (.used request.kind)))
  | .raisingPeak request value => some (.fetchMax (.peak request.kind) value)
  | .releasingPool kind amount => some (.fetchSub (.use (.used kind)) amount)
  | .releasingTotal _ amount => some (.fetchSub (.use .totalBytes) amount)

def reserve (budget : ResourceBudget) (request : Request) (stage : Stage) (current : Nat) :
    LedgerThread :=
  let limit := reserveLimit budget request stage
  let exhausted := BudgetError.exhausted request.kind request.amount (limit - current)
  match ResourceBudget.checkedAdd current request.amount with
  | none => .denying request stage exhausted
  | some next =>
    if limit < next then .denying request stage exhausted
    else .exchanging request stage current

def refuse (request : Request) (stage : Stage) (error : BudgetError) : LedgerThread × Answer :=
  match stage with
  | .total => (.idle, some (.error error))
  | .pool =>
    if request.kind.isBytes then (.rollingBack request error, none)
    else (.idle, some (.error error))

def recordDenial (request : Request) (stage : Stage) (error : BudgetError) (denied : Nat) :
    LedgerThread × Answer :=
  if denied ≠ usizeMax then (.counting request stage error denied, none)
  else refuse request stage error

def resume (budget : ResourceBudget) : LedgerThread → Observed → LedgerThread × Answer
  | .loading request stage, .value current => (reserve budget request stage current, none)
  | .exchanging request .total _, .exchanged => (.loading request .pool, none)
  | .exchanging request .pool _, .exchanged => (.readingUse request, none)
  | .exchanging request stage _, .conflict observed =>
    (reserve budget request stage observed, none)
  | .denying request stage error, .value denied => recordDenial request stage error denied
  | .counting request stage error _, .exchanged => refuse request stage error
  | .counting request stage error _, .conflict observed =>
    recordDenial request stage error observed
  | .rollingBack _ error, .value _ => (.idle, some (.error error))
  | .readingUse request, .value value => (.raisingPeak request value, none)
  | .raisingPeak request _, .value _ => (.idle, some (.ok ⟨request.kind, request.amount⟩))
  | .releasingPool kind amount, .value _ =>
    (if kind.isBytes then .releasingTotal kind amount else .idle, none)
  | .releasingTotal _ _, .value _ => (.idle, none)
  | thread, _ => (thread, none)

def release (kind : ResourceKind) (amount : Nat) : LedgerThread :=
  if amount = 0 then .idle else .releasingPool kind amount

end LedgerThread

/-! ### Interleavings -/

structure Ledger where
  budget : ResourceBudget
  memory : Memory Counter
  threads : List LedgerThread
  leases : List BudgetLease

inductive LedgerEvent where
  | tryAcquireWithin (thread : Nat) (request : Request)
  | shrinkTo (thread lease amount : Nat)
  | splitOff (thread lease position : Nat)
  | drop (thread lease : Nat)
  | step (thread : Nat) (spurious : Bool)
deriving DecidableEq

def LedgerEvent.tryAcquire (thread : Nat) (kind : ResourceKind) (amount : Nat) : LedgerEvent :=
  .tryAcquireWithin thread ⟨kind, amount, usizeMax⟩

namespace Ledger

def new (budget : ResourceBudget) (threads : Nat) : Except BudgetError Ledger :=
  budget.validate.map (fun budget =>
    { budget
      memory := fun _ => 0
      threads := List.replicate threads .idle
      leases := [] })

def setThread (ledger : Ledger) (index : Nat) (thread : LedgerThread) : Ledger :=
  { ledger with threads := ledger.threads.set index thread }

def beginAcquire (ledger : Ledger) (index : Nat) (request : Request) : Ledger :=
  if request.amount = 0 then
    { ledger with leases := ledger.leases ++ [⟨request.kind, request.amount⟩] }
  else if request.kind.isBytes then ledger.setThread index (.loading request .total)
  else ledger.setThread index (.loading request .pool)

def beginShrink (ledger : Ledger) (index lease amount : Nat) (held : BudgetLease) : Option Ledger :=
  if amount ≤ held.amount then
    some
      ({ ledger with leases := ledger.leases.set lease ⟨held.kind, amount⟩ }.setThread index
        (LedgerThread.release held.kind (held.amount - amount)))
  else none

def split (ledger : Ledger) (lease position : Nat) (held : BudgetLease) : Option Ledger :=
  if position ≤ held.amount then
    some
      { ledger with
        leases := ledger.leases.set lease ⟨held.kind, position⟩ ++
          [⟨held.kind, held.amount - position⟩] }
  else none

def beginDrop (ledger : Ledger) (index lease : Nat) (held : BudgetLease) : Ledger :=
  { ledger with leases := ledger.leases.eraseIdx lease }.setThread index
    (LedgerThread.release held.kind held.amount)

def granted : Answer → List BudgetLease
  | some (.ok lease) => [lease]
  | _ => []

def advance (ledger : Ledger) (index : Nat) (thread : LedgerThread) (spurious : Bool) :
    Option Ledger :=
  thread.next.map (fun atomic =>
    let step := perform ledger.memory spurious atomic
    let resumed := thread.resume ledger.budget step.1
    { ledger with
      memory := step.2
      threads := ledger.threads.set index resumed.1
      leases := ledger.leases ++ granted resumed.2 })

/-- One event; `none` when the thread cannot take part in it: it is in the
middle of an operation, has none to go on with, or fails an assertion. -/
def event (ledger : Ledger) : LedgerEvent → Option Ledger
  | .tryAcquireWithin index request =>
    if ledger.threads[index]? = some .idle then some (ledger.beginAcquire index request)
    else none
  | .shrinkTo index lease amount =>
    if ledger.threads[index]? = some .idle then
      (ledger.leases[lease]?).bind (ledger.beginShrink index lease amount)
    else none
  | .splitOff index lease position =>
    if ledger.threads[index]? = some .idle then
      (ledger.leases[lease]?).bind (ledger.split lease position)
    else none
  | .drop index lease =>
    if ledger.threads[index]? = some .idle then
      (ledger.leases[lease]?).map (ledger.beginDrop index lease)
    else none
  | .step index spurious =>
    (ledger.threads[index]?).bind (fun thread => ledger.advance index thread spurious)

def run (ledger : Ledger) : List LedgerEvent → Option Ledger
  | [] => some ledger
  | event :: rest => (ledger.event event).bind (fun next => Ledger.run next rest)

end Ledger

end Sail.Netstack
