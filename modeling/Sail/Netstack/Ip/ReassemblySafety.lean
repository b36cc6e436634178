/-
What a reassembled datagram is made of.

An observer of the reassembler keeps, for every key, the fragments stored since
the assembly of that key was created. Dropping an assembly, in whatever way,
forgets them. A datagram is handed out only when exactly these fragments tile
it.
-/

import Sail.Netstack.Ip.Reassembly
import Sail.Netstack.Ip.WireFacts

namespace Sail.Netstack

open Bytes

/-! ### Steps that only drop assemblies -/

def Assembly.retimed (assembly : Assembly) (timer : TimerId) : Assembly :=
  { assembly with expiryTimer := timer }

/-- Every assembly left was there before, at most with another timer. -/
def Shrinks (before after : FragmentReassembler) : Prop :=
  ∀ key assembly, after.assemblies.lookup key = some assembly →
    ∃ original timer, before.assemblies.lookup key = some original ∧
      assembly = original.retimed timer

namespace Shrinks

variable {first second third : FragmentReassembler}

theorem of_eq (same : second.assemblies = first.assemblies) : Shrinks first second := by
  intro key assembly present
  rw [same] at present
  exact ⟨assembly, assembly.expiryTimer, present, rfl⟩

theorem refl (state : FragmentReassembler) : Shrinks state state :=
  of_eq rfl

theorem trans (earlier : Shrinks first second) (later : Shrinks second third) :
    Shrinks first third := by
  intro key assembly present
  obtain ⟨middle, lastTimer, middlePresent, same⟩ := later key assembly present
  obtain ⟨original, timer, originalPresent, middleSame⟩ := earlier key middle middlePresent
  refine ⟨original, lastTimer, originalPresent, ?_⟩
  rw [same, middleSame]
  rfl

theorem of_lookup_erased {key : FragmentKey}
    (erased : ∀ other, second.assemblies.lookup other =
      if other = key then none else first.assemblies.lookup other) :
    Shrinks first second := by
  intro other assembly present
  rw [erased] at present
  split_ifs at present with same
  exact ⟨assembly, assembly.expiryTimer, present, rfl⟩

end Shrinks

namespace FragmentReassembler

variable (state : FragmentReassembler) (key : FragmentKey)

theorem lookup_takeAssembly (other : FragmentKey) :
    (state.takeAssembly key).2.assemblies.lookup other =
      if other = key then none else state.assemblies.lookup other := by
  unfold takeAssembly
  cases present : state.assemblies.lookup key with
  | none =>
    by_cases same : other = key
    · rw [if_pos same, same]
      exact present
    · rw [if_neg same]
  | some assembly =>
    exact KeyedMap.lookup_erase_ite state.assemblies key other

theorem lookup_removeAssembly (other : FragmentKey) :
    (state.removeAssembly key).2.assemblies.lookup other =
      if other = key then none else state.assemblies.lookup other := by
  have taken := lookup_takeAssembly state key other
  unfold removeAssembly
  cases outcome : state.takeAssembly key with
  | mk removed after =>
    rw [outcome] at taken
    cases removed with
    | none | some _ => exact taken

theorem takeAssembly_shrinks : Shrinks state (state.takeAssembly key).2 :=
  Shrinks.of_lookup_erased (lookup_takeAssembly state key)

theorem removeAssembly_shrinks : Shrinks state (state.removeAssembly key).2 :=
  Shrinks.of_lookup_erased (lookup_removeAssembly state key)

theorem removeAssembly_fst : (state.removeAssembly key).1 = state.assemblies.lookup key := by
  unfold removeAssembly takeAssembly
  cases present : state.assemblies.lookup key with
  | none | some _ => rfl

theorem expireOne_shrinks (maxQuotes : Nat)
    (progress : FragmentExpirations × FragmentReassembler) (key : FragmentKey) :
    Shrinks progress.2 (expireOne maxQuotes progress key).2 := by
  have taken := takeAssembly_shrinks progress.2 key
  unfold expireOne
  cases outcome : progress.2.takeAssembly key with
  | mk removed after =>
    rw [outcome] at taken
    cases removed with
    | none | some _ => exact taken

theorem expireDue_shrinks (due : List FragmentKey) (maxQuotes : Nat) :
    Shrinks state (state.expireDue due maxQuotes).2 := by
  have fold : ∀ progress : FragmentExpirations × FragmentReassembler,
      Shrinks progress.2 (due.foldl (expireOne maxQuotes) progress).2 := by
    induction due with
    | nil =>
      intro progress
      exact Shrinks.refl _
    | cons key rest ih =>
      intro progress
      exact (expireOne_shrinks maxQuotes progress key).trans (ih _)
  exact fold _

theorem advanceCurrent_shrinks (nowMs : Nat) : Shrinks state (state.advanceCurrent nowMs).2 := by
  unfold advanceCurrent
  split_ifs with backwards
  · exact Shrinks.refl state
  · dsimp only
    cases outcome : (state.expiry.advanceTo nowMs).1 with
    | error error => exact Shrinks.of_eq rfl
    | ok due =>
      have moved : Shrinks state
          { state with nowMs, expiry := (state.expiry.advanceTo nowMs).2 } :=
        Shrinks.of_eq rfl
      exact (moved.trans (expireDue_shrinks _ due 0)).trans (Shrinks.of_eq rfl)

theorem retime_shrinks (timer : TimerId) (expiry : TimerWheel FragmentKey) :
    Shrinks state
      { state with
        expiry
        assemblies := state.assemblies.modify key
          (fun assembly => { assembly with expiryTimer := timer }) } := by
  intro other assembly present
  rw [KeyedMap.lookup_modify_ite] at present
  split_ifs at present with same
  · obtain ⟨original, originalPresent, changed⟩ := Option.map_eq_some_iff.mp present
    exact ⟨original, timer, same ▸ originalPresent, changed.symm⟩
  · exact ⟨assembly, assembly.expiryTimer, present, rfl⟩

theorem rescheduleAll_shrinks (nowMs effectiveTimeout : Nat)
    (entries : List (FragmentKey × Assembly)) (expired : List FragmentKey) :
    Shrinks state (rescheduleAll nowMs effectiveTimeout entries expired state).2 := by
  induction entries generalizing expired state with
  | nil => exact Shrinks.refl state
  | cons entry rest ih =>
    unfold rescheduleAll
    split_ifs with tooOld
    · exact ih state _
    · dsimp only
      cases (state.expiry.schedule
          (satAdd entry.2.createdAtMs effectiveTimeout) entry.1).1 with
      | error error => exact Shrinks.of_eq rfl
      | ok timer => exact (retime_shrinks state entry.1 timer _).trans (ih _ _)

theorem rebuildExpiry_shrinks (nowMs timeoutDivisor : Nat) :
    Shrinks state (state.rebuildExpiry nowMs timeoutDivisor).2 := by
  have restarted : Shrinks state
      { state with
        expiry := TimerWheel.new state.expiryTickMs nowMs state.expiryTickPositive } :=
    Shrinks.of_eq rfl
  have rescheduled := restarted.trans (rescheduleAll_shrinks _ nowMs
    (state.effectiveTimeout timeoutDivisor) state.assemblies.toList [])
  unfold rebuildExpiry
  dsimp only
  split
  · exact rescheduled
  · exact rescheduled.trans (Shrinks.of_eq rfl)

theorem advanceTime_shrinks (nowMs timeoutDivisor maxQuotes : Nat) : Shrinks state
      (state.advanceTimeUnderPressureWithQuotes nowMs timeoutDivisor maxQuotes).2 := by
  unfold advanceTimeUnderPressureWithQuotes
  split_ifs with backwards
  · exact Shrinks.refl state
  · have moved : Shrinks state { state with nowMs } := Shrinks.of_eq rfl
    dsimp only
    generalize dueEq : (if max timeoutDivisor 1 = state.timeoutDivisor then _ else _ :
      Except FragmentError (List FragmentKey) × FragmentReassembler) = due
    have dueShrinks : Shrinks state due.2 := by
      rw [← dueEq]
      split_ifs with sameDivisor
      · split
        · exact Shrinks.of_eq rfl
        · exact Shrinks.of_eq rfl
      · exact moved.trans (rebuildExpiry_shrinks _ _ _)
    split
    · exact dueShrinks
    · exact (dueShrinks.trans (expireDue_shrinks _ _ _)).trans (Shrinks.of_eq rfl)

theorem clear_shrinks : Shrinks state state.clear := by
  intro key assembly present
  cases present

theorem evictOldestAssembly_shrinks : Shrinks state state.evictOldestAssembly.2 := by
  unfold evictOldestAssembly
  cases state.evictionIndex.firstEntry with
  | none => exact Shrinks.refl state
  | some entry => exact removeAssembly_shrinks state entry.2

theorem acquireFragmentCredit_shrinks (answers : LedgerAnswers) (key : FragmentKey)
    (rounds attempt : Nat) :
    Shrinks state (acquireFragmentCredit answers key rounds attempt state).2 := by
  induction rounds generalizing attempt state with
  | zero =>
    unfold acquireFragmentCredit
    cases answers attempt with
    | none | some _ => exact Shrinks.refl state
  | succ rounds ih =>
    have evicted := evictOldestAssembly_shrinks state
    unfold acquireFragmentCredit
    cases answers attempt with
    | none => exact Shrinks.refl state
    | some error =>
      cases outcome : state.evictOldestAssembly with
      | mk success after =>
        rw [outcome] at evicted
        cases success with
        | false => exact evicted
        | true => exact (evicted.trans (Shrinks.of_eq rfl)).trans (ih _ _)

/-- The credit covers a new assembly exactly when there is none yet. -/
theorem acquireFragmentCredit_covers (answers : LedgerAnswers) (key : FragmentKey)
    (rounds attempt : Nat) {covers : Bool}
    (granted : (acquireFragmentCredit answers key rounds attempt state).1 = .ok covers) :
    covers =
      ((acquireFragmentCredit answers key rounds attempt state).2.assemblies.lookup
        key).isNone := by
  induction rounds generalizing attempt state with
  | zero =>
    unfold acquireFragmentCredit at granted ⊢
    cases answer : answers attempt with
    | none =>
      simp only [answer] at granted ⊢
      exact (Except.ok.inj granted).symm
    | some error =>
      simp only [answer] at granted
      cases granted
  | succ rounds ih =>
    unfold acquireFragmentCredit at granted ⊢
    cases answer : answers attempt with
    | none =>
      simp only [answer] at granted ⊢
      exact (Except.ok.inj granted).symm
    | some error =>
      simp only [answer] at granted ⊢
      cases outcome : state.evictOldestAssembly with
      | mk success after =>
        cases success with
        | false =>
          simp only [outcome] at granted
          cases granted
        | true =>
          simp only [outcome] at granted ⊢
          exact ih _ _ granted

end FragmentReassembler

/-! ### What a packet that was read guarantees -/

/-- The fields that `rebuild` rewrites lie inside the header. -/
def HeaderReadable (version : IpVersion) (header : Bytes) (previous : Option Nat) : Prop :=
  match version with
  | .v4 => 20 ≤ header.length ∧ ipv4HeaderLen header = header.length
  | .v6 => 40 ≤ header.length ∧ ∃ index, previous = some index ∧ index < header.length

structure Fragment.WellRead (fragment : Fragment) : Prop where
  stop_eq : fragment.stop = fragment.info.offsetBytes + fragment.payload.length
  nonempty : 0 < fragment.payload.length
  stop_le : fragment.stop ≤ maxReassembledBytes
  header : HeaderReadable fragment.key.version fragment.header fragment.previousNextHeader

theorem fragmentEnd_ok {info : FragmentInfo} {payloadLen stop : Nat}
    (read : fragmentEnd info payloadLen = .ok stop) :
    stop = info.offsetBytes + payloadLen ∧ 0 < payloadLen ∧ stop ≤ maxReassembledBytes := by
  unfold fragmentEnd at read
  split_ifs at read with empty unaligned long wide large
  cases read
  omega

variable {header packet : Bytes} {protocol : UInt8} {fragment : Fragment}

theorem ipv6FragmentHeaderFrom_ok {rounds previous offset : Nat} {nextHeader : UInt8}
    {named : Option Nat} (inside : 40 ≤ offset) (behind : previous < offset)
    (found : ipv6FragmentHeaderFrom packet rounds nextHeader previous offset =
      .ok (header, named, protocol)) :
    HeaderReadable .v6 header named := by
  induction rounds generalizing nextHeader previous offset with
  | zero => cases found
  | succ rounds ih =>
    unfold ipv6FragmentHeaderFrom at found
    split_ifs at found with here truncated extension long authentication tooLong
    · cases found
      have length : (packet.take offset).length = offset := by
        rw [List.length_take]
        omega
      exact ⟨by omega, previous, rfl, by omega⟩
    · have positive : 0 < extensionLen packet offset := by
        unfold extensionLen
        omega
      exact ih (by omega) (by omega) found
    · have positive : 0 < authenticationLen packet offset := by
        unfold authenticationLen
        omega
      exact ih (by omega) (by omega) found

theorem fragmentHeader_ok {parsed : ParsedIpPacket} {named : Option Nat}
    (done : parseIpPacket packet true = .ok parsed)
    (found : fragmentHeader packet parsed.version = .ok (header, named, protocol)) :
    HeaderReadable parsed.version header named := by
  rcases parseIpPacket_ok done with ⟨valid, rfl⟩ | version
  · have atLeast := valid.headerLower
    have atMost := Nat.le_trans valid.headerUpper valid.total
    cases found
    have length : (packet.take (ipv4HeaderLen packet)).length = ipv4HeaderLen packet := by
      rw [List.length_take]
      omega
    refine ⟨by omega, ?_⟩
    rw [length, ipv4HeaderLen, byteAt_take (by omega)]
    rfl
  · rw [version] at found ⊢
    exact ipv6FragmentHeaderFrom_ok (Nat.le_refl 40) (by omega) found

structure Inspected (packet : Bytes) (fragment : Fragment) (ip : ParsedIpPacket)
    (info : FragmentInfo) (stop : Nat) (header : Bytes) (previous : Option Nat)
    (protocol : UInt8) : Prop where
  parsed : parseIpPacket packet true = .ok ip
  found : ip.fragment = some info
  notAtomic : info.isAtomic = false
  ended : fragmentEnd info (ip.fragmentPayload.getD ip.payload).length = .ok stop
  headed : fragmentHeader packet ip.version = .ok (header, previous, protocol)
  fits : reassembledSizeExceeds ip.version header.length stop = false
  fragment_eq : fragment = .read ip info stop header previous protocol

theorem inspect_inspected (read : inspect packet = .ok (some fragment)) :
    ∃ ip info stop header previous protocol,
      Inspected packet fragment ip info stop header previous protocol := by
  unfold inspect at read
  split at read
  · cases read
  · rename_i ip parsed
    split at read
    · cases read
    · rename_i info found
      by_cases atomic : info.isAtomic = true
      · rw [if_pos atomic] at read
        cases read
      · rw [if_neg atomic] at read
        dsimp only at read
        split at read
        · cases read
        · rename_i stop ended
          split at read
          · cases read
          · rename_i header previous protocol headed
            split_ifs at read with large
            cases read
            exact ⟨ip, info, stop, header, previous, protocol, parsed, found,
              Bool.not_eq_true _ ▸ atomic, ended, headed, Bool.not_eq_true _ ▸ large, rfl⟩

theorem Inspected.inspect_eq {ip : ParsedIpPacket} {info : FragmentInfo} {stop : Nat}
    {previous : Option Nat}
    (inspected : Inspected packet fragment ip info stop header previous protocol) :
    inspect packet = .ok (some fragment) := by
  unfold inspect
  rw [inspected.parsed]
  dsimp only
  rw [inspected.found]
  dsimp only
  rw [inspected.notAtomic, if_neg Bool.false_ne_true, inspected.ended]
  rw [inspected.headed]
  dsimp only
  rw [inspected.fits, if_neg Bool.false_ne_true, inspected.fragment_eq]

theorem inspect_wellRead (read : inspect packet = .ok (some fragment)) : fragment.WellRead := by
  obtain ⟨ip, info, stop, header, previous, protocol, inspected⟩ := inspect_inspected read
  obtain ⟨stopEq, nonempty, stopLe⟩ := fragmentEnd_ok inspected.ended
  rw [inspected.fragment_eq]
  exact ⟨stopEq, nonempty, stopLe, fragmentHeader_ok inspected.parsed inspected.headed⟩

end Sail.Netstack
