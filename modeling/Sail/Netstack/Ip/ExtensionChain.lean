/-
Extension chains of IPv6 packets.

A chain is the list of extension headers that a packet passes between a cursor
and the first header that is none. The parser and the search for the Fragment
header walk along it, and it stays a chain in every packet that repeats its
bytes.
-/

import Sail.Netstack.Ip.FragmentationFacts

namespace Sail.Netstack

open Bytes

variable {cursor : ChainCursor}

/-! ### One extension header -/

def chainLen (packet : Bytes) (kind : UInt8) (offset : Nat) : Nat :=
  if kind = 51 then authenticationLen packet offset else extensionLen packet offset

structure Passes (packet : Bytes) (limit : Nat) (kind : UInt8) (offset : Nat) : Prop where
  kinds : kind = 0 ∨ kind = 43 ∨ kind = 60 ∨ kind = 51
  leading : kind = 0 → offset = 40
  inside : offset + chainLen packet kind offset ≤ limit
  limited : limit ≤ packet.length
  routing : kind = 43 → byteAt packet (offset + 3) = 0
  options : hasOptions kind = true →
    validateIpv6Options (slice packet (offset + 2) (offset + chainLen packet kind offset))
      (offset + 2) (byteAt packet 24 = 255) true = .ok ()

section Header

variable {packet other : Bytes} {limit otherLimit : Nat} {kind : UInt8} {offset : Nat}

theorem eight_le_chainLen (packet : Bytes) (kind : UInt8) (offset : Nat) :
    8 ≤ chainLen packet kind offset := by
  unfold chainLen authenticationLen extensionLen
  split_ifs <;> omega

theorem require_ok {len : Nat} (inside : offset + len ≤ limit)
    (limited : limit ≤ packet.length) : require packet offset len limit = .ok () := by
  unfold require
  rw [if_neg (by omega)]

theorem require_inside {len : Nat} {checked : Unit}
    (done : require packet offset len limit = .ok checked) :
    offset + len ≤ limit ∧ offset + len ≤ packet.length := by
  unfold require at done
  split_ifs at done
  omega

theorem chainLen_extension (notAuthentication : kind ≠ 51) :
    chainLen packet kind offset = extensionLen packet offset :=
  if_neg notAuthentication

theorem checkExtension_spec {len : Nat} (notAuthentication : kind ≠ 51)
    (done : checkExtension packet limit true kind offset = .ok len) :
    len = chainLen packet kind offset ∧ offset + chainLen packet kind offset ≤ limit ∧
      (kind = 43 → byteAt packet (offset + 3) = 0) ∧
      (hasOptions kind = true →
        validateIpv6Options (slice packet (offset + 2) (offset + chainLen packet kind offset))
          (offset + 2) (byteAt packet 24 = 255) true = .ok ()) := by
  rw [chainLen_extension notAuthentication]
  obtain ⟨_, _, done⟩ := bind_ok done
  obtain ⟨_, required, done⟩ := bind_ok done
  have inside := (require_inside required).1
  split_ifs at done with badRouting options
  · obtain ⟨_, _, done⟩ := bind_ok done
    cases done
  · obtain ⟨_, checked, done⟩ := bind_ok done
    refine ⟨(Except.ok.inj done).symm, inside, ?_, fun _ => checked⟩
    intro isRouting
    rw [isRouting] at options
    cases options
  · refine ⟨(Except.ok.inj done).symm, inside, ?_, fun has => absurd has options⟩
    intro isRouting
    by_contra nonzero
    exact badRouting ⟨isRouting, rfl, nonzero⟩

namespace Passes

theorem checkExtension_eq (passes : Passes packet limit kind offset)
    (notAuthentication : kind ≠ 51) :
    checkExtension packet limit true kind offset = .ok (chainLen packet kind offset) := by
  have positive := eight_le_chainLen packet kind offset
  have inside := passes.inside
  have routing : ¬(kind = 43 ∧ true = true ∧ byteAt packet (offset + 3) ≠ 0) :=
    fun ⟨isRouting, _, nonzero⟩ => nonzero (passes.routing isRouting)
  have options := passes.options
  rw [chainLen_extension notAuthentication] at positive inside options ⊢
  unfold checkExtension
  dsimp only
  rw [require_ok (by omega) passes.limited, require_ok inside passes.limited, if_neg routing]
  by_cases has : hasOptions kind = true
  · rw [if_pos has, options has]
    rfl
  · rw [if_neg has]
    rfl

theorem checkAuthentication_eq (passes : Passes packet limit 51 offset) :
    checkAuthentication packet limit offset = .ok (chainLen packet 51 offset) := by
  have positive := eight_le_chainLen packet 51 offset
  have inside := passes.inside
  have sameLen : chainLen packet 51 offset = authenticationLen packet offset := rfl
  rw [sameLen] at positive inside ⊢
  unfold checkAuthentication
  dsimp only
  rw [require_ok (by omega) passes.limited, require_ok inside passes.limited]
  rfl

/-- The parser moves over a passing header. -/
theorem chainRound_eq (passes : Passes packet limit cursor.nextHeader cursor.offset) :
    chainRound packet limit true cursor =
      .ok (.inr (cursor.past packet (chainLen packet cursor.nextHeader cursor.offset))) := by
  have notMisplaced : ¬(cursor.nextHeader = 0 ∧ cursor.offset ≠ 40 ∧ true = true) :=
    fun ⟨hopByHop, misplaced, _⟩ => misplaced (passes.leading hopByHop)
  unfold chainRound
  rw [if_neg notMisplaced]
  by_cases authentication : cursor.nextHeader = 51
  · have others : ¬(cursor.nextHeader = 0 ∨ cursor.nextHeader = 43 ∨ cursor.nextHeader = 60) := by
      rw [authentication]
      decide
    rw [authentication] at passes ⊢
    rw [passes.checkAuthentication_eq]
    rfl
  · have extension : cursor.nextHeader = 0 ∨ cursor.nextHeader = 43 ∨ cursor.nextHeader = 60 := by
      rcases passes.kinds with kind | kind | kind | kind
      · exact Or.inl kind
      · exact Or.inr (Or.inl kind)
      · exact Or.inr (Or.inr kind)
      · exact absurd kind authentication
    rw [if_pos extension, passes.checkExtension_eq authentication]
    rfl

end Passes

/-- Where the parser moves on from an extension header, the header passes. -/
theorem passes_of_chainRound {result : ParsedIpPacket ⊕ ChainCursor}
    (limited : limit ≤ packet.length)
    (kinds : cursor.nextHeader = 0 ∨ cursor.nextHeader = 43 ∨ cursor.nextHeader = 60 ∨
      cursor.nextHeader = 51)
    (done : chainRound packet limit true cursor = .ok result) :
    Passes packet limit cursor.nextHeader cursor.offset := by
  unfold chainRound at done
  split_ifs at done with misplaced extension authentication fragment
  · obtain ⟨_, _, done⟩ := bind_ok done
    cases done
  · obtain ⟨len, checked, _⟩ := bind_ok done
    have notAuthentication : cursor.nextHeader ≠ 51 := by
      rcases extension with kind | kind | kind <;> rw [kind] <;> decide
    obtain ⟨_, inside, routing, options⟩ := checkExtension_spec notAuthentication checked
    refine ⟨kinds, ?_, inside, limited, routing, options⟩
    intro hopByHop
    by_contra elsewhere
    exact misplaced ⟨hopByHop, elsewhere, rfl⟩
  · obtain ⟨len, checked, _⟩ := bind_ok done
    obtain ⟨_, _, checked⟩ := bind_ok checked
    obtain ⟨_, required, _⟩ := bind_ok checked
    rw [authentication]
    refine ⟨Or.inr (Or.inr (Or.inr rfl)), ?_, (require_inside required).1, limited, ?_, ?_⟩
    · intro impossible
      exact absurd impossible (by decide)
    · intro impossible
      exact absurd impossible (by decide)
    · intro impossible
      exact absurd impossible (by decide)
  · rw [fragment] at kinds
    exact absurd kinds (by decide)
  · rcases kinds with kind | kind | kind | kind
    · exact absurd (Or.inl kind) extension
    · exact absurd (Or.inr (Or.inl kind)) extension
    · exact absurd (Or.inr (Or.inr kind)) extension
    · exact absurd kind authentication

end Header

/-! ### The same header elsewhere -/

theorem validateIpv6OptionsFrom_move {multicast : Bool} {rounds offset : Nat} {options : Bytes}
    (valid : validateIpv6OptionsFrom multicast true rounds offset options = .ok ())
    (moved : Nat) :
    validateIpv6OptionsFrom multicast true rounds moved options = .ok () := by
  induction rounds generalizing offset options moved with
  | zero => cases options <;> rfl
  | succ rounds ih =>
    cases options with
    | nil => rfl
    | cons kind rest =>
      unfold validateIpv6OptionsFrom at valid ⊢
      by_cases single : kind = 0
      · rw [if_pos single] at valid ⊢
        exact ih valid (moved + 1)
      · rw [if_neg single] at valid ⊢
        cases rest with
        | nil => cases valid
        | cons lengthByte data =>
          dsimp only at valid ⊢
          split_ifs at valid ⊢ with short padding nonzero action
          all_goals exact ih valid _

theorem byteAt_slice_eq {packet other : Bytes} {start moved len : Nat}
    (inPacket : start + len ≤ packet.length) (inOther : moved + len ≤ other.length)
    (same : ∀ index, index < len → byteAt other (moved + index) = byteAt packet (start + index)) :
    slice other moved (moved + len) = slice packet start (start + len) := by
  have otherLength : (slice other moved (moved + len)).length = len := by
    rw [length_slice inOther]
    omega
  have packetLength : (slice packet start (start + len)).length = len := by
    rw [length_slice inPacket]
    omega
  apply ext_byteAt (otherLength.trans packetLength.symm)
  intro index below
  rw [byteAt_slice (by omega), byteAt_slice (by omega)]
  exact same index (by omega)

namespace Passes

variable {packet other : Bytes} {limit otherLimit : Nat} {kind : UInt8} {offset moved : Nat}

theorem chainLen_move
    (same : byteAt other (moved + 1) = byteAt packet (offset + 1)) :
    chainLen other kind moved = chainLen packet kind offset := by
  unfold chainLen authenticationLen extensionLen
  rw [same]

/-- A header passes wherever its bytes behind the first are repeated. -/
theorem move (passes : Passes packet limit kind offset)
    (same : ∀ index, 0 < index → index < chainLen packet kind offset →
      byteAt other (moved + index) = byteAt packet (offset + index))
    (destination : byteAt other 24 = byteAt packet 24) (leading : kind = 0 → moved = 40)
    (inside : moved + chainLen packet kind offset ≤ otherLimit)
    (limited : otherLimit ≤ other.length) : Passes other otherLimit kind moved := by
  have positive := eight_le_chainLen packet kind offset
  have packetInside := passes.inside
  have packetLimited := passes.limited
  have sameLen : chainLen other kind moved = chainLen packet kind offset :=
    chainLen_move (same 1 (by omega) (by omega))
  refine ⟨passes.kinds, leading, by omega, limited, ?_, ?_⟩
  · intro isRouting
    rw [same 3 (by omega) (by omega)]
    exact passes.routing isRouting
  · intro has
    have valid := passes.options has
    generalize chainLen packet kind offset = len at *
    have sameOptions : slice other (moved + 2) (moved + len) =
        slice packet (offset + 2) (offset + len) := by
      have shifted := byteAt_slice_eq
        (show offset + 2 + (len - 2) ≤ packet.length by omega)
        (show moved + 2 + (len - 2) ≤ other.length by omega)
        (fun index below => by
          have here := same (2 + index) (by omega) (by omega)
          rw [← Nat.add_assoc, ← Nat.add_assoc] at here
          exact here)
      rw [Nat.add_assoc, Nat.add_assoc, Nat.add_sub_cancel' (show 2 ≤ len by omega)] at shifted
      exact shifted
    rw [sameLen, sameOptions, destination]
    exact validateIpv6OptionsFrom_move valid _

end Passes

/-! ### Chains -/

inductive Chain (packet : Bytes) (limit : Nat) :
    UInt8 → Nat → List ExtensionRecord → UInt8 → Nat → Prop where
  | stop (kind : UInt8) (offset : Nat) : Chain packet limit kind offset [] kind offset
  | next {kind : UInt8} {offset : Nat} {records : List ExtensionRecord} {last : UInt8}
      {stop : Nat} (passes : Passes packet limit kind offset)
      (rest : Chain packet limit (byteAt packet offset) (offset + chainLen packet kind offset)
        records last stop) :
      Chain packet limit kind offset
        ({ kind := kind, offset := offset, length := chainLen packet kind offset } :: records)
        last stop

namespace Chain

variable {packet other : Bytes} {limit otherLimit : Nat} {kind last : UInt8}
  {offset stop : Nat} {records : List ExtensionRecord}

section

variable (chain : Chain packet limit kind offset records last stop)

include chain

theorem le_stop : offset ≤ stop := by
  induction chain with
  | stop => exact Nat.le_refl _
  | next passes rest ih => omega

theorem stop_le (inside : offset ≤ limit) : stop ≤ limit := by
  induction chain with
  | stop => exact inside
  | next passes rest ih => exact ih passes.inside

/-- The parser walks along a chain, one round for each header. -/
theorem walkChain_eq (rounds : Nat) (atKind : cursor.nextHeader = kind)
    (atOffset : cursor.offset = offset) :
    ∃ pointer, walkChain packet limit true (records.length + rounds) cursor =
      walkChain packet limit true rounds
        { cursor with nextHeader := last, nextHeaderPointer := pointer, offset := stop } := by
  induction chain generalizing cursor with
  | stop kind offset =>
    refine ⟨cursor.nextHeaderPointer, ?_⟩
    rw [← atKind, ← atOffset, List.length_nil, Nat.zero_add]
  | next passes rest ih =>
    rename_i kind offset records last stop
    rw [← atKind, ← atOffset] at passes
    have moved := passes.chainRound_eq
    rw [atKind, atOffset] at moved
    have pastKind : (cursor.past packet (chainLen packet kind offset)).nextHeader =
        byteAt packet offset := by
      rw [ChainCursor.past, atOffset]
    have pastOffset : (cursor.past packet (chainLen packet kind offset)).offset =
        offset + chainLen packet kind offset := by
      rw [ChainCursor.past, atOffset]
    obtain ⟨pointer, walked⟩ := ih pastKind pastOffset
    refine ⟨pointer, ?_⟩
    rw [List.length_cons, Nat.add_right_comm, walkChain, moved]
    exact walked

end

end Chain

/-- Where the next-header field in front of the end of a chain stands. -/
def lastPointer : Nat → List ExtensionRecord → Nat
  | pointer, [] => pointer
  | _, record :: rest => lastPointer record.offset rest

def chainEnd : Nat → List ExtensionRecord → Nat
  | offset, [] => offset
  | _, record :: rest => chainEnd (record.offset + record.length) rest

theorem getLast?_point (records : List ExtensionRecord) (offset pointer : Nat) :
    (match records.getLast? with
      | none => (offset, pointer)
      | some record => (record.offset + record.length, record.offset)) =
      (chainEnd offset records, lastPointer pointer records) := by
  induction records generalizing offset pointer with
  | nil => rfl
  | cons record rest ih =>
    rw [chainEnd, lastPointer, ← ih (record.offset + record.length) record.offset,
      List.getLast?_cons]
    cases rest.getLast? with
    | none => rfl
    | some last => rfl

theorem insertionPoint_eq (records : List ExtensionRecord) : insertionPoint records =
      (chainEnd 40 (records.take (includedRecords records)),
        lastPointer 6 (records.take (includedRecords records))) :=
  getLast?_point _ 40 6

namespace Chain

variable {packet other : Bytes} {limit otherLimit : Nat} {kind last : UInt8}
  {offset stop pointer : Nat} {records front back : List ExtensionRecord}

section

variable (chain : Chain packet limit kind offset records last stop)

include chain

theorem stop_eq : stop = chainEnd offset records := by
  induction chain with
  | stop => rfl
  | next passes rest ih => exact ih

theorem last_eq (named : byteAt packet pointer = kind) :
    last = byteAt packet (lastPointer pointer records) := by
  induction chain generalizing pointer with
  | stop => exact named.symm
  | next passes rest ih => exact ih rfl

theorem lastPointer_cases (pointer : Nat) :
    (records = [] ∧ lastPointer pointer records = pointer) ∨
      (offset ≤ lastPointer pointer records ∧ lastPointer pointer records < stop) := by
  induction chain generalizing pointer with
  | stop => exact Or.inl ⟨rfl, rfl⟩
  | next passes rest ih =>
    rename_i kind offset records last stop
    right
    have positive := eight_le_chainLen packet kind offset
    have later := rest.le_stop
    rw [lastPointer]
    rcases ih offset with ⟨_, same⟩ | ⟨lower, upper⟩
    · dsimp only
      omega
    · dsimp only
      omega

end

theorem split (chain : Chain packet limit kind offset (front ++ back) last stop) :
    ∃ middle point, Chain packet limit kind offset front middle point ∧
      Chain packet limit middle point back last stop := by
  induction front generalizing kind offset with
  | nil => exact ⟨kind, offset, Chain.stop kind offset, chain⟩
  | cons record front ih =>
    cases chain with
    | next passes rest =>
      obtain ⟨middle, point, first, second⟩ := ih rest
      exact ⟨middle, point, Chain.next passes first, second⟩

section

variable (chain : Chain packet limit kind offset records last stop)

include chain

/-- Behind the fixed header's own successor no Hop-by-Hop header passes. -/
theorem kind_ne_zero (behind : 40 < offset) : ∀ record ∈ records, record.kind ≠ 0 := by
  induction chain with
  | stop => exact fun record member => nomatch member
  | next passes rest ih =>
    intro record member
    cases member with
    | head =>
      intro hopByHop
      have leading := passes.leading hopByHop
      omega
    | tail _ later => exact ih (by omega) record later

/-- The search for the Fragment header follows a chain. -/
theorem ipv6FragmentHeaderFrom_eq (rounds pointer : Nat) :
    ipv6FragmentHeaderFrom packet (records.length + rounds) kind pointer offset =
      ipv6FragmentHeaderFrom packet rounds last (lastPointer pointer records) stop := by
  induction chain generalizing pointer with
  | stop => rw [List.length_nil, Nat.zero_add, lastPointer]
  | next passes rest ih =>
    rename_i kind offset records last stop
    have inside := passes.inside
    have limited := passes.limited
    rw [List.length_cons, Nat.add_right_comm, lastPointer, ← ih offset, ipv6FragmentHeaderFrom]
    by_cases authentication : kind = 51
    · rw [authentication] at inside ⊢
      have sameLen : chainLen packet 51 offset = authenticationLen packet offset := rfl
      rw [sameLen] at inside ⊢
      rw [if_neg (by decide), if_neg (by decide), if_pos rfl, if_neg (by omega)]
    · rw [chainLen_extension authentication] at inside ⊢
      have extension : kind = 0 ∨ kind = 43 ∨ kind = 60 := by
        rcases passes.kinds with hopByHop | routing | destination | other
        · exact Or.inl hopByHop
        · exact Or.inr (Or.inl routing)
        · exact Or.inr (Or.inr destination)
        · exact absurd other authentication
      have notFragment : kind ≠ 44 := by
        rcases extension with same | same | same <;> rw [same] <;> decide
      rw [if_neg notFragment, if_pos extension, if_neg (by omega)]

/-- A chain whose last next-header field names a Fragment header instead. -/
theorem rename (named : byteAt packet pointer = kind) (before : pointer < offset)
    (same : ∀ index, index = pointer ∨ (offset ≤ index ∧ index < stop) →
      index ≠ lastPointer pointer records → byteAt other index = byteAt packet index)
    (renamed : byteAt other (lastPointer pointer records) = 44)
    (destination : byteAt other 24 = byteAt packet 24) (inside : stop ≤ otherLimit)
    (limited : otherLimit ≤ other.length) :
    Chain other otherLimit (byteAt other pointer) offset records 44 stop := by
  induction chain generalizing pointer with
  | stop kind offset =>
    rw [lastPointer] at renamed
    rw [renamed]
    exact Chain.stop 44 offset
  | next passes rest ih =>
    rename_i kind offset records last stop
    rw [lastPointer] at same renamed
    dsimp only at same renamed
    have positive := eight_le_chainLen packet kind offset
    have later := rest.le_stop
    have pointerCases := rest.lastPointer_cases offset
    have sameKind : byteAt other pointer = kind := by
      rw [← named]
      refine same pointer (Or.inl rfl) ?_
      rcases pointerCases with ⟨_, here⟩ | ⟨lower, _⟩ <;> omega
    have sameBehind : ∀ index, 0 < index → index < chainLen packet kind offset →
        byteAt other (offset + index) = byteAt packet (offset + index) := by
      intro index positiveIndex below
      refine same (offset + index) (Or.inr (by omega)) ?_
      rcases pointerCases with ⟨_, here⟩ | ⟨lower, _⟩ <;> omega
    have sameLen : chainLen other kind offset = chainLen packet kind offset :=
      Passes.chainLen_move (sameBehind 1 (by omega) (by omega))
    have moved := passes.move sameBehind destination passes.leading
      (show offset + chainLen packet kind offset ≤ otherLimit by omega) limited
    have tail := ih rfl (show offset < offset + chainLen packet kind offset by omega)
      (fun index range apart => same index (Or.inr (by omega)) apart) renamed inside
    rw [sameKind, ← sameLen]
    rw [← sameLen] at tail
    exact Chain.next moved tail

def shifted (by8 : ExtensionRecord) : ExtensionRecord :=
  { by8 with offset := by8.offset + 8 }

/-- A chain behind eight more bytes. -/
theorem shift
    (same : ∀ index, offset ≤ index → index < stop → byteAt other (index + 8) = byteAt packet index)
    (noHopByHop : ∀ record ∈ records, record.kind ≠ 0)
    (destination : byteAt other 24 = byteAt packet 24) (inside : stop + 8 ≤ otherLimit)
    (limited : otherLimit ≤ other.length) :
    Chain other otherLimit kind (offset + 8) (records.map shifted) last (stop + 8) := by
  induction chain with
  | stop kind offset => exact Chain.stop kind (offset + 8)
  | next passes rest ih =>
    rename_i kind offset records last stop
    have positive := eight_le_chainLen packet kind offset
    have later := rest.le_stop
    have sameBehind : ∀ index, 0 < index → index < chainLen packet kind offset →
        byteAt other (offset + 8 + index) = byteAt packet (offset + index) := by
      intro index positiveIndex below
      rw [Nat.add_right_comm]
      exact same (offset + index) (by omega) (by omega)
    have sameLen : chainLen other kind (offset + 8) = chainLen packet kind offset :=
      Passes.chainLen_move (sameBehind 1 (by omega) (by omega))
    have moved := passes.move sameBehind destination
      (fun hopByHop => absurd hopByHop (noHopByHop _ List.mem_cons_self))
      (show offset + 8 + chainLen packet kind offset ≤ otherLimit by omega) limited
    have tail := ih (fun index lower upper => same index (by omega) upper)
      (List.forall_mem_cons.mp noHopByHop).2 inside
    rw [← same offset (Nat.le_refl _) (by omega), Nat.add_right_comm, ← sameLen] at tail
    rw [List.map_cons, shifted, ← sameLen]
    exact Chain.next moved tail

end

end Chain

/-- The headers listed for a packet that the parser accepts are its chain. -/
theorem chain_of_records {packet : Bytes} {limit rounds : Nat} {parsed : ParsedIpPacket}
    {records : List ExtensionRecord} {last : UInt8} (limited : limit ≤ packet.length)
    (walked : walkChain packet limit true rounds cursor = .ok parsed)
    (listed : extensionRecordsFrom packet limit rounds cursor.nextHeader cursor.offset =
      .ok (records, last)) :
    isExtension last = false ∧ Chain packet limit cursor.nextHeader cursor.offset records last
        (chainEnd cursor.offset records) := by
  induction rounds generalizing cursor records last with
  | zero => cases walked
  | succ rounds ih =>
    have oneMore : (cursor.nextHeader = 0 ∨ cursor.nextHeader = 43 ∨ cursor.nextHeader = 60 ∨
        cursor.nextHeader = 51) →
        ∀ later lastKind, extensionRecordsFrom packet limit rounds (byteAt packet cursor.offset)
          (cursor.offset + chainLen packet cursor.nextHeader cursor.offset) =
            .ok (later, lastKind) →
        isExtension lastKind = false ∧ Chain packet limit cursor.nextHeader cursor.offset
            ({ kind := cursor.nextHeader
               offset := cursor.offset
               length := chainLen packet cursor.nextHeader cursor.offset } :: later) lastKind
            (chainEnd (cursor.offset + chainLen packet cursor.nextHeader cursor.offset) later) := by
      intro kinds later lastKind rest
      rw [walkChain] at walked
      cases round : chainRound packet limit true cursor with
      | error error =>
        rw [round] at walked
        cases walked
      | ok result =>
        have passes := passes_of_chainRound limited kinds round
        rw [passes.chainRound_eq] at walked
        obtain ⟨notExtension, chain⟩ := ih walked rest
        exact ⟨notExtension, Chain.next passes chain⟩
    unfold extensionRecordsFrom at listed
    dsimp only at listed
    by_cases extension : cursor.nextHeader = 0 ∨ cursor.nextHeader = 43 ∨ cursor.nextHeader = 60
    · have notAuthentication : cursor.nextHeader ≠ 51 := by
        rcases extension with kind | kind | kind <;> rw [kind] <;> decide
      split_ifs at listed
      cases rest : extensionRecordsFrom packet limit rounds (byteAt packet cursor.offset)
          (cursor.offset + extensionLen packet cursor.offset) with
      | error error =>
        rw [rest] at listed
        cases listed
      | ok found =>
        rw [rest] at listed
        cases listed
        rw [← chainLen_extension notAuthentication] at rest ⊢
        have kinds : cursor.nextHeader = 0 ∨ cursor.nextHeader = 43 ∨
            cursor.nextHeader = 60 ∨ cursor.nextHeader = 51 := by
          rcases extension with kind | kind | kind
          · exact Or.inl kind
          · exact Or.inr (Or.inl kind)
          · exact Or.inr (Or.inr (Or.inl kind))
        exact oneMore kinds found.1 found.2 rest
    · by_cases authentication : cursor.nextHeader = 51
      · have sameLen : authenticationLen packet cursor.offset =
            chainLen packet cursor.nextHeader cursor.offset := (if_pos authentication).symm
        rw [sameLen] at listed
        split_ifs at listed
        cases rest : extensionRecordsFrom packet limit rounds (byteAt packet cursor.offset)
            (cursor.offset + chainLen packet cursor.nextHeader cursor.offset) with
        | error error =>
          rw [rest] at listed
          cases listed
        | ok found =>
          rw [rest] at listed
          cases listed
          exact oneMore (Or.inr (Or.inr (Or.inr authentication))) found.1 found.2 rest
      · split_ifs at listed with fragment
        cases listed
        refine ⟨?_, Chain.stop _ _⟩
        simp only [not_or] at extension
        unfold isExtension
        simp [extension, authentication, fragment]

end Sail.Netstack
