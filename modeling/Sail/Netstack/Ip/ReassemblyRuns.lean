/-
Reassembly safety over whole runs.

The observer beside a run keeps, for every key, the fragments stored in the assembly
that is in place now. The invariant says that an assembly holds exactly these.
-/

import Sail.Netstack.Ip.ReassemblyTiling

namespace Sail.Netstack

open Bytes

variable {fragment : Fragment} (base : Assembly) {calls : List FragmentCall}

/-! ### Calls and the observer -/

inductive FragmentCall where
  | ingest (packet : Bytes) (nowMs : Nat) (answers : LedgerAnswers)
  | advanceTime (nowMs timeoutDivisor maxQuotes : Nat)
  | clear

namespace FragmentReassembler

/-- The fragment that an ingest goes on to store, beside the state in which the
ledger has granted its credit. Up to there the call has only dropped assemblies. -/
def admitted (state : FragmentReassembler) (packet : Bytes) (nowMs : Nat)
    (answers : LedgerAnswers) : Option (Fragment × FragmentReassembler) :=
  let advanced := state.advanceCurrent nowMs
  match advanced.1, inspect packet with
  | .ok _, .ok (some fragment) =>
    if advanced.2.overlaps fragment.key fragment.info.offsetBytes fragment.stop then none
    else if advanced.2.conflicts fragment then none
    else
      let credit := acquireFragmentCredit answers fragment.key
        advanced.2.assemblies.entries.length 0 advanced.2
      match credit.1 with
      | .ok _ => some (fragment, credit.2)
      | .error _ => none
  | _, _ => none

def call (state : FragmentReassembler) : FragmentCall → FragmentReassembler
  | .ingest packet nowMs answers => (state.ingest packet nowMs answers).2
  | .advanceTime nowMs timeoutDivisor maxQuotes =>
    (state.advanceTimeUnderPressureWithQuotes nowMs timeoutDivisor maxQuotes).2
  | .clear => state.clear

end FragmentReassembler

structure Observed where
  state : FragmentReassembler
  received : FragmentKey → List Fragment

namespace Observed

def start (timeoutMs : Nat) : Observed :=
  { state := .new timeoutMs, received := fun _ => [] }

/-- The fragments received under a key since its assembly was created, the one
being stored included. An assembly that is gone when the credit is granted
counts as dropped, even if the fragment then creates another under its key. -/
def sinceCreation (observed : Observed) (packet : Bytes) (nowMs : Nat)
    (answers : LedgerAnswers) (key : FragmentKey) : List Fragment :=
  match observed.state.admitted packet nowMs answers with
  | none => observed.received key
  | some (fragment, granted) =>
    (if (granted.assemblies.lookup key).isSome then observed.received key else []) ++
      (if fragment.key = key then [fragment] else [])

def step (observed : Observed) (call : FragmentCall) : Observed :=
  let after := observed.state.call call
  { state := after
    received := fun key =>
      if (after.assemblies.lookup key).isNone then []
      else
        match call with
        | .ingest packet nowMs answers => observed.sinceCreation packet nowMs answers key
        | .advanceTime _ _ _ => observed.received key
        | .clear => observed.received key }

def run (timeoutMs : Nat) (calls : List FragmentCall) : Observed :=
  calls.foldl step (start timeoutMs)

end Observed

/-! ### What one ingest does -/

namespace FragmentReassembler

variable {state : FragmentReassembler} {packet : Bytes} {nowMs : Nat} {answers : LedgerAnswers}

/-- An ingest that stores no fragment drops assemblies at most, and hands out
nothing but a packet that is no fragment. -/
theorem ingest_of_not_admitted (refused : state.admitted packet nowMs answers = none) :
    Shrinks state (state.ingest packet nowMs answers).2 ∧
      ∀ datagram, (state.ingest packet nowMs answers).1 = .ok (some datagram) →
        inspect packet = .ok none ∧ datagram = packet := by
  have advancedShrinks := advanceCurrent_shrinks state nowMs
  unfold admitted at refused
  unfold ingest
  dsimp only at refused ⊢
  cases clock : (state.advanceCurrent nowMs).1 with
  | error error =>
    refine ⟨advancedShrinks, ?_⟩
    intro datagram returned
    cases returned
  | ok expired =>
    rw [clock] at refused
    cases read : inspect packet with
    | error error =>
      refine ⟨advancedShrinks, ?_⟩
      intro datagram returned
      cases returned
    | ok found =>
      rw [read] at refused
      cases found with
      | none =>
        refine ⟨advancedShrinks, ?_⟩
        intro datagram returned
        cases returned
        exact ⟨rfl, rfl⟩
      | some fragment =>
        dsimp only at refused ⊢
        unfold ingestFragment
        split_ifs at refused ⊢ with overlapping conflicting
        · refine ⟨(advancedShrinks.trans (removeAssembly_shrinks _ _)).trans
            (Shrinks.of_eq rfl), ?_⟩
          intro datagram returned
          cases returned
        · refine ⟨advancedShrinks.trans (removeAssembly_shrinks _ _), ?_⟩
          intro datagram returned
          cases returned
        · have creditShrinks := acquireFragmentCredit_shrinks
            (state.advanceCurrent nowMs).2 answers fragment.key
            (state.advanceCurrent nowMs).2.assemblies.entries.length 0
          dsimp only
          split at refused
          · cases refused
          · rename_i error denied
            rw [denied]
            refine ⟨advancedShrinks.trans creditShrinks, ?_⟩
            intro datagram returned
            cases returned

structure Admissible (state : FragmentReassembler) (fragment : Fragment) : Prop where
  apart : ∀ assembly, state.assemblies.lookup fragment.key = some assembly →
    ∀ piece ∈ assembly.pieces.entries,
      ¬(fragment.info.offsetBytes < pieceEnd piece.1 piece.2 ∧ piece.1 < fragment.stop)
  protocol : ∀ assembly, state.assemblies.lookup fragment.key = some assembly →
    assembly.protocol = fragment.protocol

theorem Admissible.of_checks
    (separate : ¬state.overlaps fragment.key fragment.info.offsetBytes fragment.stop = true)
    (agrees : ¬state.conflicts fragment = true) : Admissible state fragment := by
  constructor
  · intro assembly present piece member touching
    apply separate
    unfold overlaps
    rw [present]
    apply List.any_eq_true.mpr
    exact ⟨piece, member, by simpa using touching⟩
  · intro assembly present
    by_contra different
    apply agrees
    unfold conflicts
    rw [present]
    dsimp only
    rw [if_pos (Or.inl different)]

theorem Admissible.shrinks {after : FragmentReassembler} (admissible : Admissible state fragment)
    (shrinks : Shrinks state after) : Admissible after fragment := by
  constructor
  · intro assembly present
    obtain ⟨original, timer, originalPresent, same⟩ := shrinks _ assembly present
    rw [same]
    exact admissible.apart original originalPresent
  · intro assembly present
    obtain ⟨original, timer, originalPresent, same⟩ := shrinks _ assembly present
    rw [same]
    exact admissible.protocol original originalPresent

def storeAdmitted (granted : FragmentReassembler) (fragment : Fragment) (nowMs : Nat) :
    Except FragmentError (Option Bytes) × FragmentReassembler :=
  let opened := granted.openAssembly fragment nowMs
    (granted.assemblies.lookup fragment.key).isNone
  match opened.1 with
  | .error error => (.error error, opened.2)
  | .ok () => opened.2.storeFragment fragment

theorem ingest_of_admitted {granted : FragmentReassembler}
    (taken : state.admitted packet nowMs answers = some (fragment, granted)) :
    inspect packet = .ok (some fragment) ∧ Shrinks state granted ∧ Admissible granted fragment ∧
      state.ingest packet nowMs answers = granted.storeAdmitted fragment nowMs := by
  have advancedShrinks := advanceCurrent_shrinks state nowMs
  unfold admitted at taken
  dsimp only at taken
  split at taken
  · rename_i expired found clock read
    split_ifs at taken with overlapping conflicting
    have creditShrinks := acquireFragmentCredit_shrinks (state.advanceCurrent nowMs).2
      answers found.key (state.advanceCurrent nowMs).2.assemblies.entries.length 0
    split at taken
    · rename_i covers creditGranted
      cases taken
      have coversEq := acquireFragmentCredit_covers _ _ _ _ _ creditGranted
      refine ⟨read, advancedShrinks.trans creditShrinks,
        (Admissible.of_checks overlapping conflicting).shrinks creditShrinks, ?_⟩
      unfold ingest
      dsimp only
      rw [clock, read]
      dsimp only
      unfold ingestFragment
      rw [if_neg overlapping, if_neg conflicting]
      dsimp only
      rw [creditGranted]
      rw [coversEq]
      rfl
    · cases taken
  · cases taken

end FragmentReassembler

/-! ### What storing a fragment does -/

def Opens (state : FragmentReassembler) (fragment : Fragment) (base : Assembly) : Prop :=
  state.assemblies.lookup fragment.key = some base ∨
    (state.assemblies.lookup fragment.key = none ∧ ∃ createdAtMs timer evictionKey,
        base = .empty fragment.protocol createdAtMs timer evictionKey)

namespace FragmentReassembler

variable (state : FragmentReassembler) (fragment : Fragment)

theorem nextEvictionKey_assemblies (createdAtMs rounds : Nat) :
    (nextEvictionKey createdAtMs rounds state).2.assemblies = state.assemblies := by
  induction rounds generalizing state with
  | zero => rfl
  | succ rounds ih =>
    unfold nextEvictionKey
    dsimp only
    split_ifs with used
    · exact ih _
    · rfl

theorem openAssembly_cases (nowMs : Nat) (covers : Bool) :
    (∃ error, (state.openAssembly fragment nowMs covers).1 = .error error ∧
        (state.openAssembly fragment nowMs covers).2.assemblies = state.assemblies ∧
        state.assemblies.lookup fragment.key = none) ∨
      ((state.openAssembly fragment nowMs covers).1 = .ok () ∧ ∃ base, Opens state fragment base ∧
          ∀ other, (state.openAssembly fragment nowMs covers).2.assemblies.lookup other =
            if other = fragment.key then some base else state.assemblies.lookup other) := by
  unfold openAssembly
  cases present : state.assemblies.lookup fragment.key with
  | some base =>
    refine Or.inr ⟨rfl, base, Or.inl present, ?_⟩
    intro other
    by_cases same : other = fragment.key
    · rw [if_pos same, same]
      exact present
    · rw [if_neg same]
      rfl
  | none =>
    rw [if_neg (by simp)]
    split_ifs with uncovered
    · exact Or.inl ⟨_, rfl, rfl, rfl⟩
    · dsimp only
      split
      · exact Or.inl ⟨_, rfl, rfl, rfl⟩
      · rename_i timer scheduled
        refine Or.inr ⟨rfl, .empty fragment.protocol nowMs timer
          (nextEvictionKey nowMs state.evictionIndex.size
            { state with
              expiry := (state.expiry.schedule
                (satAdd nowMs (state.effectiveTimeout state.timeoutDivisor))
                fragment.key).2 }).1, Or.inr ⟨present, _, _, _, rfl⟩, ?_⟩
        intro other
        rw [nextEvictionKey_assemblies, KeyedMap.lookup_insert_ite]

def filled (base : Assembly) (fragment : Fragment) : Assembly :=
  (base.withHeader fragment).withPiece fragment

theorem filled_header :
    (filled base fragment).header =
      if fragment.info.offsetBytes = 0 then some fragment.header else base.header := by
  unfold filled Assembly.withHeader
  split_ifs <;> rfl

theorem filled_previous :
    (filled base fragment).ipv6PreviousNextHeader =
      if fragment.info.offsetBytes = 0 then fragment.previousNextHeader
      else base.ipv6PreviousNextHeader := by
  unfold filled Assembly.withHeader
  split_ifs <;> rfl

theorem filled_protocol : (filled base fragment).protocol = base.protocol := by
  unfold filled Assembly.withHeader
  split_ifs <;> rfl

theorem filled_total :
    (filled base fragment).totalPayloadLen =
      if fragment.info.moreFragments then base.totalPayloadLen else some fragment.stop := by
  unfold filled Assembly.withPiece Assembly.withHeader
  split_ifs <;> rfl

theorem filled_pieces :
    (filled base fragment).pieces =
      base.pieces.insert fragment.info.offsetBytes fragment.payload := by
  unfold filled Assembly.withHeader
  split_ifs <;> rfl

/-- A fragment that starts where no piece does adds its piece to the others. -/
theorem perm_filled_pieces {base : Assembly} {received : List Fragment}
    (pieces : base.pieces.entries.Perm (received.map Fragment.piece))
    (fresh : ∀ piece ∈ base.pieces.entries, piece.1 ≠ fragment.info.offsetBytes) :
    (filled base fragment).pieces.entries.Perm
      ((received ++ [fragment]).map Fragment.piece) := by
  rw [filled_pieces, List.map_append]
  have inserted := OrderedMap.perm_insertEntry fragment.payload fresh
  exact inserted.trans ((pieces.cons _).trans (List.perm_append_singleton _ _).symm)

theorem storeFragment_cases {base : Assembly}
    (present : state.assemblies.lookup fragment.key = some base) :
    (∀ other, other ≠ fragment.key →
        (state.storeFragment fragment).2.assemblies.lookup other = state.assemblies.lookup other) ∧
      (((∃ error, (state.storeFragment fragment).1 = .error error) ∧
          (state.storeFragment fragment).2.assemblies.lookup fragment.key = none) ∨
        ((state.storeFragment fragment).1 = .ok none ∧
          (state.storeFragment fragment).2.assemblies.lookup fragment.key =
            some (filled base fragment)) ∨
        (∃ datagram, (state.storeFragment fragment).1 = .ok (some datagram) ∧
          (state.storeFragment fragment).2.assemblies.lookup fragment.key = none ∧
          isComplete (filled base fragment) = true ∧
          rebuild (filled base fragment) fragment.key.version = .ok datagram)) := by
  have inserted : ∀ changed other,
      (state.assemblies.insert fragment.key changed).lookup other =
        if other = fragment.key then some changed else state.assemblies.lookup other :=
    fun changed other => KeyedMap.lookup_insert_ite state.assemblies fragment.key other changed
  unfold storeFragment
  rw [present]
  dsimp only
  split_ifs with conflicting incomplete
  · constructor
    · intro other different
      rw [lookup_removeAssembly, if_neg different]
      exact (inserted _ other).trans (if_neg different)
    · refine Or.inl ⟨⟨_, rfl⟩, ?_⟩
      rw [lookup_removeAssembly, if_pos rfl]
  · constructor
    · intro other different
      exact (inserted _ other).trans (if_neg different)
    · refine Or.inr (Or.inl ⟨rfl, ?_⟩)
      exact (inserted _ fragment.key).trans (if_pos rfl)
  · have complete : isComplete (filled base fragment) = true :=
      (Bool.not_eq_false _).mp incomplete
    generalize storedEq : FragmentReassembler.mk _ _ _ _ _ _
      (state.assemblies.insert fragment.key _) _ _ _ = stored
    have storedLookup : ∀ other, stored.assemblies.lookup other =
        if other = fragment.key then some (filled base fragment)
        else state.assemblies.lookup other := by
      intro other
      rw [← storedEq]
      exact inserted _ other
    have removedLookup := lookup_removeAssembly stored fragment.key
    have removedFst := removeAssembly_fst stored fragment.key
    rw [storedLookup, if_pos rfl] at removedFst
    cases outcome : stored.removeAssembly fragment.key with
    | mk found removed =>
      rw [outcome] at removedLookup removedFst
      subst removedFst
      have others : ∀ other, other ≠ fragment.key →
          removed.assemblies.lookup other = state.assemblies.lookup other := by
        intro other different
        rw [removedLookup, if_neg different, storedLookup, if_neg different]
      have gone : removed.assemblies.lookup fragment.key = none := by
        rw [removedLookup, if_pos rfl]
      dsimp only
      cases built : rebuild (filled base fragment) fragment.key.version with
      | error error => exact ⟨others, Or.inl ⟨⟨error, rfl⟩, gone⟩⟩
      | ok datagram =>
        exact ⟨others, Or.inr (Or.inr ⟨datagram, rfl, gone, complete, rfl⟩)⟩

/-- What storing an admitted fragment can do: the other assemblies stay, and its
own is dropped, holds the fragment, or is handed out complete. -/
theorem storeAdmitted_cases (nowMs : Nat) :
    (∀ other, other ≠ fragment.key →
        (state.storeAdmitted fragment nowMs).2.assemblies.lookup other =
          state.assemblies.lookup other) ∧
      (((∃ error, (state.storeAdmitted fragment nowMs).1 = .error error) ∧
          (state.storeAdmitted fragment nowMs).2.assemblies.lookup fragment.key = none) ∨
        ∃ base, Opens state fragment base ∧
          (((state.storeAdmitted fragment nowMs).1 = .ok none ∧
              (state.storeAdmitted fragment nowMs).2.assemblies.lookup fragment.key =
                some (filled base fragment)) ∨
            (∃ datagram, (state.storeAdmitted fragment nowMs).1 = .ok (some datagram) ∧
              (state.storeAdmitted fragment nowMs).2.assemblies.lookup fragment.key = none ∧
              isComplete (filled base fragment) = true ∧
              rebuild (filled base fragment) fragment.key.version = .ok datagram))) := by
  unfold storeAdmitted
  dsimp only
  rcases openAssembly_cases state fragment nowMs
      (state.assemblies.lookup fragment.key).isNone with
    ⟨error, failed, same, absent⟩ | ⟨opened, base, opens, lookups⟩
  · rw [failed]
    rw [same]
    exact ⟨fun other _ => rfl, Or.inl ⟨⟨error, rfl⟩, absent⟩⟩
  · rw [opened]
    have present := lookups fragment.key
    rw [if_pos rfl] at present
    obtain ⟨others, outcome⟩ := storeFragment_cases _ fragment present
    constructor
    · intro other different
      rw [others other different, lookups other, if_neg different]
    · rcases outcome with dropped | kept | complete
      · exact Or.inl dropped
      · exact Or.inr ⟨base, opens, Or.inl kept⟩
      · exact Or.inr ⟨base, opens, Or.inr complete⟩

end FragmentReassembler

/-! ### The invariant -/

def Came (calls : List FragmentCall) (fragment : Fragment) : Prop :=
  ∃ packet nowMs answers, FragmentCall.ingest packet nowMs answers ∈ calls ∧
    inspect packet = .ok (some fragment)

theorem Came.append (came : Came calls fragment) (more : List FragmentCall) :
    Came (calls ++ more) fragment := by
  obtain ⟨packet, nowMs, answers, member, read⟩ := came
  exact ⟨packet, nowMs, answers, List.mem_append_left more member, read⟩

theorem Came.wellRead (came : Came calls fragment) : fragment.WellRead := by
  obtain ⟨packet, nowMs, answers, member, read⟩ := came
  exact inspect_wellRead read

structure Matches (calls : List FragmentCall) (key : FragmentKey) (assembly : Assembly)
    (received : List Fragment) : Prop where
  pieces : assembly.pieces.entries.Perm (received.map Fragment.piece)
  keyed : ∀ fragment ∈ received, fragment.key = key
  protocol : ∀ fragment ∈ received, fragment.protocol = assembly.protocol
  came : ∀ fragment ∈ received, Came calls fragment
  header : ∀ header, assembly.header = some header →
    ∃ fragment ∈ received, fragment.info.offsetBytes = 0 ∧ fragment.header = header ∧
      fragment.previousNextHeader = assembly.ipv6PreviousNextHeader
  total : ∀ total, assembly.totalPayloadLen = some total →
    ∃ fragment ∈ received, fragment.info.moreFragments = false ∧ fragment.stop = total

namespace Matches

variable {calls : List FragmentCall} {key : FragmentKey} {assembly : Assembly}
  {received : List Fragment}

theorem retimed (holds : Matches calls key assembly received) (timer : TimerId) :
    Matches calls key (assembly.retimed timer) received :=
  ⟨holds.pieces, holds.keyed, holds.protocol, holds.came, holds.header, holds.total⟩

theorem append (holds : Matches calls key assembly received) (more : List FragmentCall) :
    Matches (calls ++ more) key assembly received :=
  ⟨holds.pieces, holds.keyed, holds.protocol,
    fun fragment member => (holds.came fragment member).append more, holds.header, holds.total⟩

theorem empty (protocol : UInt8) (createdAtMs : Nat) (timer : TimerId)
    (evictionKey : EvictionKey) :
    Matches calls key (.empty protocol createdAtMs timer evictionKey) [] where
  pieces := List.Perm.refl _
  keyed := fun _ member => absurd member List.not_mem_nil
  protocol := fun _ member => absurd member List.not_mem_nil
  came := fun _ member => absurd member List.not_mem_nil
  header := fun _ headed => nomatch headed
  total := fun _ ended => nomatch ended

theorem fill (holds : Matches calls key assembly received) (sameKey : fragment.key = key)
    (came : Came calls fragment) (sameProtocol : assembly.protocol = fragment.protocol)
    (apart : ∀ piece ∈ assembly.pieces.entries,
      ¬(fragment.info.offsetBytes < pieceEnd piece.1 piece.2 ∧ piece.1 < fragment.stop)) :
    Matches calls key (FragmentReassembler.filled assembly fragment)
      (received ++ [fragment]) := by
  have last : fragment ∈ received ++ [fragment] :=
    List.mem_append_right _ (List.mem_singleton.mpr rfl)
  constructor
  · exact FragmentReassembler.perm_filled_pieces fragment holds.pieces
      (fresh_of_apart holds.pieces (fun old member => (holds.came old member).wellRead)
        came.wellRead apart)
  · intro other member
    rcases List.mem_append.mp member with old | added
    · exact holds.keyed other old
    · rw [List.mem_singleton.mp added]
      exact sameKey
  · intro other member
    rw [FragmentReassembler.filled_protocol]
    rcases List.mem_append.mp member with old | added
    · exact holds.protocol other old
    · rw [List.mem_singleton.mp added]
      exact sameProtocol.symm
  · intro other member
    rcases List.mem_append.mp member with old | added
    · exact holds.came other old
    · rw [List.mem_singleton.mp added]
      exact came
  · intro header headed
    rw [FragmentReassembler.filled_header] at headed
    rw [FragmentReassembler.filled_previous]
    split_ifs at headed ⊢ with first
    · exact ⟨fragment, last, first, Option.some.inj headed, rfl⟩
    · obtain ⟨old, member, atZero, sameHeader, sameNamed⟩ := holds.header header headed
      exact ⟨old, List.mem_append_left _ member, atZero, sameHeader, sameNamed⟩
  · intro total ended
    rw [FragmentReassembler.filled_total] at ended
    split_ifs at ended with more
    · obtain ⟨old, member, final, stop⟩ := holds.total total ended
      exact ⟨old, List.mem_append_left _ member, final, stop⟩
    · exact ⟨fragment, last, Bool.eq_false_iff.mpr more, Option.some.inj ended⟩

end Matches

/-! ### Runs -/

/-- Every assembly in place holds exactly the observed fragments of its key. -/
def Observed.Holds (calls : List FragmentCall) (observed : Observed) : Prop :=
  ∀ key assembly, observed.state.assemblies.lookup key = some assembly →
    Matches calls key assembly (observed.received key)

namespace Observed.Holds

open FragmentReassembler

variable {calls : List FragmentCall} {observed : Observed}

theorem shrunk (holds : Holds calls observed) {after : FragmentReassembler}
    (shrinks : Shrinks observed.state after) {key : FragmentKey} {assembly : Assembly}
    (present : after.assemblies.lookup key = some assembly) :
    Matches calls key assembly (observed.received key) := by
  obtain ⟨original, timer, originalPresent, same⟩ := shrinks key assembly present
  rw [same]
  exact (holds key original originalPresent).retimed timer

/-- The assembly of an admitted fragment, with the fragment in it, holds what
was received since its creation. -/
theorem filled (holds : Holds calls observed) {packet : Bytes} {nowMs : Nat}
    {answers : LedgerAnswers} {granted : FragmentReassembler}
    (taken : observed.state.admitted packet nowMs answers = some (fragment, granted))
    {base : Assembly} (opens : Opens granted fragment base) :
    Matches (calls ++ [.ingest packet nowMs answers]) fragment.key (filled base fragment)
      (observed.sinceCreation packet nowMs answers fragment.key) := by
  obtain ⟨read, shrinks, admissible, _⟩ := ingest_of_admitted taken
  have came : Came (calls ++ [.ingest packet nowMs answers]) fragment :=
    ⟨packet, nowMs, answers, List.mem_append_right _ (List.mem_singleton.mpr rfl), read⟩
  unfold Observed.sinceCreation
  rw [taken]
  dsimp only
  rw [if_pos rfl]
  rcases opens with present | ⟨absent, createdAtMs, timer, evictionKey, baseEq⟩
  · rw [present, Option.isSome_some, if_pos rfl]
    exact ((holds.shrunk shrinks present).append _).fill rfl came
      (admissible.protocol base present) (admissible.apart base present)
  · rw [absent, if_neg (by simp), baseEq]
    apply (Matches.empty fragment.protocol createdAtMs timer evictionKey).fill rfl came rfl
    intro piece member
    cases member

theorem ingest (holds : Holds calls observed) (packet : Bytes) (nowMs : Nat)
    (answers : LedgerAnswers) {key : FragmentKey} {assembly : Assembly}
    (present : (observed.state.ingest packet nowMs answers).2.assemblies.lookup key =
      some assembly) :
    Matches (calls ++ [.ingest packet nowMs answers]) key assembly
      (observed.sinceCreation packet nowMs answers key) := by
  cases taken : observed.state.admitted packet nowMs answers with
  | none =>
    have shrinks := (ingest_of_not_admitted taken).1
    unfold Observed.sinceCreation
    rw [taken]
    exact (holds.shrunk shrinks present).append _
  | some admittedPair =>
    obtain ⟨fragment, granted⟩ := admittedPair
    obtain ⟨_, shrinks, _, stores⟩ := ingest_of_admitted taken
    rw [stores] at present
    obtain ⟨others, outcome⟩ := storeAdmitted_cases granted fragment nowMs
    by_cases same : key = fragment.key
    · subst same
      rcases outcome with ⟨_, gone⟩ | ⟨base, opens, ⟨_, kept⟩ | ⟨_, _, gone, _⟩⟩
      · rw [gone] at present
        cases present
      · rw [kept] at present
        cases present
        exact holds.filled taken opens
      · rw [gone] at present
        cases present
    · rw [others key same] at present
      unfold Observed.sinceCreation
      rw [taken]
      dsimp only
      rw [present, Option.isSome_some, if_pos rfl, if_neg (fun found => same found.symm),
        List.append_nil]
      exact (holds.shrunk shrinks present).append _

theorem step (holds : Holds calls observed) (call : FragmentCall) :
    Holds (calls ++ [call]) (observed.step call) := by
  intro key assembly present
  have inPlace : ¬((observed.state.call call).assemblies.lookup key).isNone = true := by
    change (observed.state.call call).assemblies.lookup key = some assembly at present
    rw [present]
    exact Bool.false_ne_true
  change Matches (calls ++ [call]) key assembly (if _ then [] else _)
  rw [if_neg inPlace]
  cases call with
  | ingest packet nowMs answers => exact holds.ingest packet nowMs answers present
  | advanceTime nowMs timeoutDivisor maxQuotes =>
    exact (holds.shrunk (advanceTime_shrinks _ _ _ _) present).append _
  | clear => exact (holds.shrunk (clear_shrinks _) present).append _

theorem start (timeoutMs : Nat) : Holds [] (Observed.start timeoutMs) := by
  intro key assembly present
  cases present

end Observed.Holds

theorem Observed.run_holds (timeoutMs : Nat) (calls : List FragmentCall) :
    Holds calls (run timeoutMs calls) := by
  induction calls using List.reverseRecOn with
  | nil => exact Holds.start timeoutMs
  | append_singleton earlier call ih =>
    have stepped := ih.step call
    unfold run at stepped ⊢
    rw [List.foldl_append]
    exact stepped

/-! ### The datagram handed out -/

/-- The fragments `tiles` make up a datagram: they are of one key, follow each
other from offset zero to the end that one without more-fragments sets, and the
datagram is the first one's header before their payloads. -/
structure Tiling (key : FragmentKey) (tiles : List Fragment) (total : Nat)
    (first : Fragment) (datagram : Bytes) : Prop where
  keyed : ∀ tile ∈ tiles, tile.key = key
  contiguous : Contiguous 0 tiles total
  disjoint : tiles.Pairwise (fun earlier later =>
    earlier.info.offsetBytes + earlier.payload.length ≤ later.info.offsetBytes)
  ended : ∃ tile ∈ tiles, tile.info.moreFragments = false ∧
    tile.info.offsetBytes + tile.payload.length = total
  head : tiles.head? = some first
  datagram_eq : datagram = rebuiltHeader first total ++ joinedPayload tiles
  length_eq : datagram.length = first.header.length + total
  bytes : ∀ tile ∈ tiles, ∀ index, index < tile.payload.length →
    datagram[first.header.length + tile.info.offsetBytes + index]? = tile.payload[index]?

theorem flatMap_pieces (tiles : List Fragment) :
    (tiles.map Fragment.piece).flatMap Prod.snd = joinedPayload tiles := by
  rw [List.flatMap_map]
  rfl

theorem Matches.tiling {key : FragmentKey} {assembly : Assembly} {received : List Fragment}
    {datagram : Bytes} (holds : Matches calls key assembly received)
    (complete : isComplete assembly = true) (built : rebuild assembly key.version = .ok datagram) :
    ∃ tiles total first, tiles.Perm received ∧ Tiling key tiles total first datagram := by
  unfold isComplete at complete
  split at complete
  · rename_i total header ended headed
    have covered : coveredFrom 0 assembly.pieces.entries = some total :=
      of_decide_eq_true complete
    obtain ⟨tiles, perm, pieces⟩ := exists_tiles holds.pieces
    have wellRead : ∀ tile ∈ tiles, tile.WellRead := fun tile member =>
      (holds.came tile (perm.mem_iff.mp member)).wellRead
    have keyed : ∀ tile ∈ tiles, tile.key = key := fun tile member =>
      holds.keyed tile (perm.mem_iff.mp member)
    rw [← pieces] at covered
    have contiguous := contiguous_of_coveredFrom wellRead covered
    obtain ⟨first, firstReceived, atZero, firstHeader, firstNamed⟩ :=
      holds.header header headed
    have firstMember : first ∈ tiles := perm.mem_iff.mpr firstReceived
    have firstKey := keyed first firstMember
    have head := contiguous.head_of_offset (fun tile member => (wellRead tile member).nonempty)
      firstMember atZero
    obtain ⟨last, lastReceived, final, lastStop⟩ := holds.total total ended
    have lastMember : last ∈ tiles := perm.mem_iff.mpr lastReceived
    have payloadLength := contiguous.length_joinedPayload
    have readable := (wellRead first firstMember).header
    have payloadEq : assembly.pieces.entries.flatMap Prod.snd = joinedPayload tiles := by
      rw [← pieces, flatMap_pieces]
    have datagramEq : datagram = rebuiltHeader first total ++ joinedPayload tiles := by
      have whole := rebuild_eq (firstHeader ▸ headed) firstNamed
        (holds.protocol first firstReceived) readable (firstKey ▸ built)
      rw [payloadEq] at whole
      rw [whole, ← payloadLength, Nat.zero_add]
    have headerLength := length_rebuiltHeader total readable
    refine ⟨tiles, total, first, perm, keyed, contiguous, contiguous.disjoint,
      ⟨last, lastMember, final, ?_⟩, head, datagramEq, ?_, ?_⟩
    · rw [← (wellRead last lastMember).stop_eq, lastStop]
    · rw [datagramEq, List.length_append, headerLength]
      omega
    · intro tile member index inside
      have covering := contiguous.getElem?_joinedPayload member inside
      rw [datagramEq, List.getElem?_append_right (by omega), headerLength, ← covering]
      congr 1
      omega
  · cases complete

def sampleFirstFragment : Bytes :=
  [69, 0, 0, 28, 0, 7, 32, 0, 64, 17, 70, 200, 10, 0, 0, 1, 10, 0, 0, 2, 1, 2, 3, 4, 5, 6, 7, 8]

def sampleLastFragment : Bytes :=
  [69, 0, 0, 21, 0, 7, 0, 1, 64, 17, 102, 206, 10, 0, 0, 1, 10, 0, 0, 2, 9]

def sampleDatagram : Bytes :=
  [69, 0, 0, 29, 0, 7, 0, 0, 64, 17, 102, 199, 10, 0, 0, 1, 10, 0, 0, 2, 1, 2, 3, 4, 5, 6, 7, 8, 9]

end Sail.Netstack
