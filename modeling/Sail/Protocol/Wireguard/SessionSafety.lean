/-
The sessions of all peers, step by step.

The journal tells every datagram sent and every packet received under a session.
Each session counts from zero without a gap, sends nothing when it is too old or,
on the responder's side, unconfirmed, and accepts each counter once.
-/

import Sail.Protocol.Wireguard.SessionSteps

namespace Sail.Protocol.Wireguard

open Netstack

variable {journal : List Event} {crypto : Crypto} {keypairs : Keypairs} {allocated : Nat}

/-! ### The journal -/

def Event.session : Event → Nat
  | .sent session _ _ _ _ => session
  | .received session _ => session
  | .delivered session _ => session

def sentOn (session : Nat) (journal : List Event) : List Nat :=
  journal.filterMap fun
    | .sent other counter _ _ _ => if other = session then some counter else none
    | _ => none

def receivedOn (session : Nat) (journal : List Event) : List Nat :=
  journal.filterMap fun
    | .received other counter => if other = session then some counter else none
    | _ => none

/-- What an event asks of the journal in front of it. -/
def Event.Fits (earlier : List Event) : Event → Prop
  | .sent session counter now birth initiator =>
    counter = (sentOn session earlier).length ∧ counter < rejectAfterMessages ∧
      now - birth < rejectAfterTime ∧
      (initiator = false → ∃ other, .received session other ∈ earlier)
  | .received session counter => .received session counter ∉ earlier
  | .delivered session counter =>
    .received session counter ∈ earlier ∧ .delivered session counter ∉ earlier

def Ordered (journal : List Event) : Prop :=
  ∀ earlier event later, journal = earlier ++ event :: later → event.Fits earlier

theorem Ordered.nil : Ordered [] := by
  intro earlier event later split
  cases earlier <;> cases split

theorem Ordered.snoc {event : Event} (ordered : Ordered journal) (fits : event.Fits journal) :
    Ordered (journal ++ [event]) := by
  intro earlier other later split
  rcases List.eq_nil_or_concat later with rfl | ⟨rest, last, rfl⟩
  · obtain ⟨rfl, same⟩ := List.append_inj' split rfl
    cases same
    exact fits
  · rw [List.concat_eq_append, ← List.cons_append, ← List.append_assoc] at split
    obtain ⟨rfl, _⟩ := List.append_inj' split rfl
    exact ordered earlier other rest rfl

theorem Ordered.init {event : Event} (ordered : Ordered (journal ++ [event])) :
    Ordered journal := by
  intro front other back split
  exact ordered front other (back ++ [event]) (by rw [split]; simp)

variable {counter : Nat} {keypair : Keypair} {holder : Holder} {back front : List Holder}
  {slot : Slot}

theorem mem_receivedOn {session : Nat} :
    counter ∈ receivedOn session journal ↔ .received session counter ∈ journal := by
  unfold receivedOn
  rw [List.mem_filterMap]
  constructor
  · rintro ⟨event, member, found⟩
    cases event with
    | received other number =>
      dsimp only at found
      split_ifs at found with same
      cases found
      rwa [← same]
    | _ => cases found
  · intro member
    exact ⟨_, member, if_pos rfl⟩

section Records

variable {session : Nat} {journal : List Event} {event : Event}

/-- An event that is no datagram of the session adds no counter to those sent. -/
theorem sentOn_snoc (nothing : sentOn session [event] = []) :
    sentOn session (journal ++ [event]) = sentOn session journal := by
  unfold sentOn at nothing ⊢
  rw [List.filterMap_append, nothing, List.append_nil]

theorem receivedOn_snoc (nothing : receivedOn session [event] = []) :
    receivedOn session (journal ++ [event]) = receivedOn session journal := by
  unfold receivedOn at nothing ⊢
  rw [List.filterMap_append, nothing, List.append_nil]

theorem sentOn_snoc_sent (counter : Nat) (now birth : Instant) (initiator : Bool) :
    sentOn session (journal ++ [.sent session counter now birth initiator]) =
      sentOn session journal ++ [counter] := by
  unfold sentOn
  simp

theorem receivedOn_snoc_received (counter : Nat) :
    receivedOn session (journal ++ [.received session counter]) =
      receivedOn session journal ++ [counter] := by
  unfold receivedOn
  simp

/-- Under a session that nothing was done under, nothing was sent. -/
theorem sentOn_of_unused (unused : ∀ event ∈ journal, event.session ≠ session) :
    sentOn session journal = [] := by
  unfold sentOn
  rw [List.filterMap_eq_nil_iff]
  intro event member
  have apart := unused event member
  cases event with
  | sent other counter now birth initiator => exact if_neg apart
  | _ => rfl

theorem receivedOn_of_unused (unused : ∀ event ∈ journal, event.session ≠ session) :
    receivedOn session journal = [] := by
  unfold receivedOn
  rw [List.filterMap_eq_nil_iff]
  intro event member
  have apart := unused event member
  cases event with
  | received other counter => exact if_neg apart
  | _ => rfl

end Records

/-- The counters sent under a session are the first numbers. -/
theorem Ordered.sentOn_eq_range (ordered : Ordered journal) (session : Nat) :
    sentOn session journal = List.range (sentOn session journal).length := by
  induction journal using List.reverseRecOn with
  | nil => rfl
  | append_singleton journal event ih =>
    have earlier := ordered.init
    have fits := ordered journal event [] rfl
    cases event with
    | sent other counter now birth initiator =>
      by_cases same : other = session
      · subst same
        rw [sentOn_snoc_sent, List.length_append, List.length_singleton, List.range_succ,
          ← ih earlier, fits.1]
      · rw [sentOn_snoc]
        · exact ih earlier
        · exact List.filterMap_cons_none (if_neg same)
    | _ =>
      rw [sentOn_snoc rfl]
      exact ih earlier

theorem mem_sentOn {session : Nat} (member : counter ∈ sentOn session journal) :
    ∃ now birth initiator, .sent session counter now birth initiator ∈ journal := by
  obtain ⟨event, inside, found⟩ := List.mem_filterMap.mp member
  cases event with
  | sent other number now birth initiator =>
    dsimp only at found
    split_ifs at found with same
    cases found
    exact ⟨now, birth, initiator, same ▸ inside⟩
  | _ => cases found

theorem Ordered.sentOn_below (ordered : Ordered journal) {session : Nat}
    (member : counter ∈ sentOn session journal) : counter < rejectAfterMessages := by
  obtain ⟨now, birth, initiator, inside⟩ := mem_sentOn member
  obtain ⟨earlier, later, split⟩ := List.append_of_mem inside
  exact (ordered earlier _ later split).2.1

/-! ### The sessions of all peers -/

/-- A session's counter and window are those of the journal. -/
structure Keypair.Recorded (keypair : Keypair) (journal : List Event) : Prop where
  sends : keypair.sendCounter = (sentOn keypair.localIndex journal).length
  receives : keypair.replay.Knows (receivedOn keypair.localIndex journal).reverse

def Holder.indices (holder : Holder) : List Nat :=
  holder.keypairs.indices ++ holder.pending.toList

structure Holder.Sound (holder : Holder) (journal : List Event) : Prop where
  distinct : holder.indices.Nodup
  unused : ∀ index, holder.pending = some index → ∀ event ∈ journal, event.session ≠ index
  recorded : ∀ slot keypair, holder.keypairs.slot slot = some keypair → keypair.Recorded journal
  confirmed : ∀ keypair, holder.keypairs.current = some keypair → keypair.initiator = false →
    ∃ counter, .received keypair.localIndex counter ∈ journal

structure Safe (crypto : Crypto) (holders : List Holder) (journal : List Event)
    (allocated : Nat) : Prop where
  ordered : Ordered journal
  sound : ∀ holder ∈ holders, holder.Sound journal
  apart : holders.Pairwise (fun first second => first.indices.Disjoint second.indices)
  drawn : ∀ holder ∈ holders, ∀ index ∈ holder.indices,
    ∃ number < allocated, crypto.index number = index
  known : ∀ event ∈ journal, ∃ number < allocated, crypto.index number = event.session

theorem Keypair.Recorded.snoc {event : Event} (recorded : keypair.Recorded journal)
    (apart : event.session ≠ keypair.localIndex) : keypair.Recorded (journal ++ [event]) := by
  have alone : ∀ other ∈ [event], other.session ≠ keypair.localIndex :=
    List.forall_mem_singleton.mpr apart
  refine ⟨?_, ?_⟩
  · rw [sentOn_snoc (sentOn_of_unused alone)]
    exact recorded.sends
  · rw [receivedOn_snoc (receivedOn_of_unused alone)]
    exact recorded.receives

/-- A counter the window takes was not received before. -/
theorem Keypair.Recorded.not_received (recorded : keypair.Recorded journal)
    (fresh : (keypair.replay.checkAndUpdate counter).1 = true) :
    .received keypair.localIndex counter ∉ journal := by
  intro member
  have acceptable := (recorded.receives.accepts_iff counter).mp fresh
  exact acceptable.2.1 (List.mem_reverse.mpr (mem_receivedOn.mpr member))

theorem mem_indices_of_slot {keypairs : Keypairs} {slot : Slot} {keypair : Keypair}
    (found : keypairs.slot slot = some keypair) : keypair.localIndex ∈ keypairs.indices := by
  refine List.mem_map_of_mem (List.mem_filterMap.mpr ⟨some keypair, ?_, rfl⟩)
  cases slot <;> simp [← found, Keypairs.slot]

theorem mem_indices_iff {index : Nat} : index ∈ keypairs.indices ↔
      ∃ slot keypair, keypairs.slot slot = some keypair ∧ keypair.localIndex = index := by
  constructor
  · intro member
    obtain ⟨keypair, inside, rfl⟩ := List.mem_map.mp member
    obtain ⟨place, among, found⟩ := List.mem_filterMap.mp inside
    cases found
    simp only [List.mem_cons, List.not_mem_nil, or_false] at among
    rcases among with isPrevious | isCurrent | isNext
    · exact ⟨.previous, keypair, isPrevious.symm, rfl⟩
    · exact ⟨.current, keypair, isCurrent.symm, rfl⟩
    · exact ⟨.next, keypair, isNext.symm, rfl⟩
  · rintro ⟨slot, keypair, found, rfl⟩
    exact mem_indices_of_slot found

/-- The sessions of other peers are not touched by an event of this one. -/
theorem Holder.Sound.snoc {event : Event} (sound : holder.Sound journal)
    (apart : event.session ∉ holder.indices) : holder.Sound (journal ++ [event]) := by
  refine ⟨sound.distinct, ?_, ?_, ?_⟩
  · intro index pending other member same
    rcases List.mem_append.mp member with old | new
    · exact sound.unused index pending other old same
    · rw [List.mem_singleton.mp new] at same
      refine apart (List.mem_append_right _ ?_)
      rw [pending, same]
      exact List.mem_singleton_self index
  · intro slot keypair found
    refine (sound.recorded slot keypair found).snoc (fun same => apart ?_)
    rw [same]
    exact List.mem_append_left _ (mem_indices_of_slot found)
  · intro keypair found responder
    obtain ⟨counter, member⟩ := sound.confirmed keypair found responder
    exact ⟨counter, List.mem_append_left _ member⟩

/-! ### One peer's step -/

/-- One peer's sessions change, and the journal may grow by an event of one of
them. -/
structure Replaces (crypto : Crypto) (holder : Holder) (journal : List Event) (allocated : Nat)
    (after : Holder) (journalAfter : List Event) (allocatedAfter : Nat) : Prop where
  sound : after.Sound journalAfter
  ordered : Ordered journalAfter
  grows : journalAfter = journal ∨
    ∃ event, journalAfter = journal ++ [event] ∧ event.session ∈ holder.indices
  indices : ∀ index ∈ after.indices, index ∈ holder.indices ∨
    (index = crypto.index allocated ∧ allocatedAfter = allocated + 1)
  later : allocated ≤ allocatedAfter

theorem Safe.perm {holders others : List Holder} (safe : Safe crypto holders journal allocated)
    (same : holders.Perm others) :
    Safe crypto others journal allocated where
  ordered := safe.ordered
  sound holder member := safe.sound holder (same.mem_iff.mpr member)
  apart := (same.pairwise_iff fun disjoint => List.Disjoint.symm disjoint).mp safe.apart
  drawn holder member := safe.drawn holder (same.mem_iff.mpr member)
  known := safe.known

theorem Safe.replace (distinct : Function.Injective crypto.index) {after : Holder}
    {journalAfter : List Event} {allocatedAfter : Nat}
    (safe : Safe crypto (front ++ holder :: back) journal allocated)
    (replaces : Replaces crypto holder journal allocated after journalAfter allocatedAfter) :
    Safe crypto (front ++ after :: back) journalAfter allocatedAfter := by
  replace safe := safe.perm List.perm_middle
  refine Safe.perm ?_ List.perm_middle.symm
  have own := safe.drawn holder List.mem_cons_self
  have drawnLater : ∀ index, (∃ number < allocated, crypto.index number = index) →
      ∃ number < allocatedAfter, crypto.index number = index := by
    rintro index ⟨number, below, same⟩
    exact ⟨number, Nat.lt_of_lt_of_le below replaces.later, same⟩
  obtain ⟨apart, apartOthers⟩ := List.pairwise_cons.mp safe.apart
  refine ⟨replaces.ordered, ?_, List.pairwise_cons.mpr ⟨?_, apartOthers⟩, ?_, ?_⟩
  · intro other member
    rcases List.mem_cons.mp member with rfl | elsewhere
    · exact replaces.sound
    · have sound := safe.sound other (List.mem_cons_of_mem _ elsewhere)
      rcases replaces.grows with same | ⟨event, grown, owned⟩
      · rw [same]
        exact sound
      · rw [grown]
        exact sound.snoc (apart other elsewhere owned)
  -- an index the peer holds now is one it held or the next one drawn
  · intro other member index inAfter inOther
    rcases replaces.indices index inAfter with old | ⟨drawn, _⟩
    · exact apart other member old inOther
    · obtain ⟨number, below, same⟩ := safe.drawn other (List.mem_cons_of_mem _ member) index inOther
      have equal := distinct (same.trans drawn)
      omega
  · intro other member index inside
    rcases List.mem_cons.mp member with rfl | elsewhere
    · rcases replaces.indices index inside with old | ⟨drawn, counted⟩
      · exact drawnLater index (own index old)
      · exact ⟨allocated, by omega, drawn.symm⟩
    · exact drawnLater index (safe.drawn other (List.mem_cons_of_mem _ elsewhere) index inside)
  · intro event member
    rcases replaces.grows with same | ⟨new, grown, owned⟩
    · rw [same] at member
      exact drawnLater _ (safe.known event member)
    · rw [grown] at member
      rcases List.mem_append.mp member with old | last
      · exact drawnLater _ (safe.known event old)
      · rw [List.mem_singleton.mp last]
        exact drawnLater _ (own _ owned)

/-! ### Slots -/

theorem slot_setSlot (keypairs : Keypairs) (keypair : Keypair) (slot other : Slot) :
    (keypairs.setSlot keypair slot).slot other =
      if other = slot then some keypair else keypairs.slot other := by
  cases slot <;> cases other <;> rfl

theorem indices_eq (keypairs : Keypairs) :
    keypairs.indices = (keypairs.previous.map Keypair.localIndex).toList ++
      ((keypairs.current.map Keypair.localIndex).toList ++
        (keypairs.next.map Keypair.localIndex).toList) := by
  obtain ⟨previous, current, next⟩ := keypairs
  cases previous <;> cases current <;> cases next <;> rfl

theorem indices_setSlot {keypairs : Keypairs} {slot : Slot} {keypair marked : Keypair}
    (found : keypairs.slot slot = some keypair) (same : marked.localIndex = keypair.localIndex) :
    (keypairs.setSlot marked slot).indices = keypairs.indices := by
  rw [indices_eq, indices_eq]
  cases slot <;> simp_all [Keypairs.setSlot, Keypairs.slot]

/-- A session in a slot after a packet came in was in some slot before. -/
theorem slot_receivedWith {received : Slot}
    (found : (keypairs.receivedWith received).2.2.slot slot = some keypair) :
    ∃ old, keypairs.slot old = some keypair := by
  unfold Keypairs.receivedWith at found
  split_ifs at found
  · exact ⟨slot, found⟩
  · cases slot with
    | previous => exact ⟨.current, found⟩
    | current => exact ⟨.next, found⟩
    | next => cases found

theorem indices_receivedWith (keypairs : Keypairs) (slot : Slot) :
    (keypairs.receivedWith slot).2.2.indices.Sublist keypairs.indices := by
  unfold Keypairs.receivedWith
  split_ifs
  · exact List.Sublist.refl _
  · have shorter : [keypairs.current, keypairs.next].Sublist
        [keypairs.previous, keypairs.current, keypairs.next] := List.sublist_cons_self _ _
    exact (shorter.filterMap id).map Keypair.localIndex

/-- The current session after a packet came in was current, or the packet came in
under it. -/
theorem current_receivedWith (found : (keypairs.receivedWith slot).2.2.current = some keypair) :
    keypairs.current = some keypair ∨ (slot = .next ∧ keypairs.slot slot = some keypair) := by
  unfold Keypairs.receivedWith at found
  split_ifs at found with other
  · exact .inl found
  · rw [not_not] at other
    rw [other]
    exact .inr ⟨rfl, found⟩

/-- Of the old sessions at most one stays beside a new one. -/
theorem indices_add (keypairs : Keypairs) (new : Keypair) : ∃ slot, (keypairs.add new).2.indices =
      ((keypairs.slot slot).map Keypair.localIndex).toList ++ [new.localIndex] := by
  unfold Keypairs.add
  split_ifs
  · cases next : keypairs.next with
    | some kept => exact ⟨.next, by simp [Keypairs.indices, Keypairs.slot, next]⟩
    | none =>
      refine ⟨.current, ?_⟩
      cases current : keypairs.current <;> simp [Keypairs.indices, Keypairs.slot, current]
  · refine ⟨.current, ?_⟩
    cases current : keypairs.current <;> simp [Keypairs.indices, Keypairs.slot, current]

theorem slot_add {new : Keypair} (found : (keypairs.add new).2.slot slot = some keypair) :
    keypair = new ∨ ∃ old, keypairs.slot old = some keypair := by
  unfold Keypairs.add at found
  split_ifs at found
  · cases next : keypairs.next with
    | some kept =>
      rw [next] at found
      cases slot with
      | previous => exact .inr ⟨.next, next.trans found⟩
      | current => exact .inl (Option.some.inj found).symm
      | next => cases found
    | none =>
      rw [next] at found
      cases slot with
      | previous => exact .inr ⟨.current, found⟩
      | current => exact .inl (Option.some.inj found).symm
      | next => cases found
  · cases slot with
    | previous => cases found
    | current => exact .inr ⟨.current, found⟩
    | next => exact .inl (Option.some.inj found).symm

theorem current_add {new : Keypair} (found : (keypairs.add new).2.current = some keypair) :
    (keypair = new ∧ new.initiator = true) ∨ keypairs.current = some keypair := by
  unfold Keypairs.add at found
  split_ifs at found with initiator
  · cases next : keypairs.next with
    | some _ | none =>
      rw [next] at found
      exact .inl ⟨(Option.some.inj found).symm, initiator⟩
  · exact .inr found

/-! ### Every step keeps the sessions safe -/

section Steps

variable {crypto : Crypto} {keypairs : Keypairs} {pending : Option Nat} {journal : List Event}
  {allocated : Nat}

variable {keypair : Keypair} {slot : Slot} {index : Nat}

/-- The same sessions under the same indices. -/
theorem Holder.Sound.mark {marked : Keypair} (sound : Holder.Sound ⟨keypairs, pending⟩ journal)
    (found : keypairs.slot slot = some keypair) (same : marked.SameSession keypair) :
    Holder.Sound ⟨keypairs.setSlot marked slot, pending⟩ journal := by
  refine ⟨?_, sound.unused, ?_, ?_⟩
  · unfold Holder.indices
    rw [indices_setSlot found same.localIndex]
    exact sound.distinct
  · intro other one inSlot
    rw [slot_setSlot] at inSlot
    split_ifs at inSlot
    · cases inSlot
      have recorded := sound.recorded slot keypair found
      refine ⟨?_, ?_⟩
      · rw [same.sendCounter, same.localIndex]
        exact recorded.sends
      · rw [same.replay, same.localIndex]
        exact recorded.receives
    · exact sound.recorded other one inSlot
  · intro one current responder
    rw [show (keypairs.setSlot marked slot).current = _ from
      slot_setSlot keypairs marked slot .current] at current
    split_ifs at current with here
    · cases current
      rw [same.localIndex]
      subst here
      exact sound.confirmed keypair found (same.initiator ▸ responder)
    · exact sound.confirmed one current responder

theorem Replaces.mark {marked : Keypair} (sound : Holder.Sound ⟨keypairs, pending⟩ journal)
    (ordered : Ordered journal) (found : keypairs.slot slot = some keypair)
    (same : marked.SameSession keypair) :
    Replaces crypto ⟨keypairs, pending⟩ journal allocated ⟨keypairs.setSlot marked slot, pending⟩
      journal allocated := by
  refine ⟨sound.mark found same, ordered, .inl rfl, ?_, Nat.le_refl _⟩
  intro index member
  refine .inl ?_
  unfold Holder.indices at member ⊢
  rwa [indices_setSlot found same.localIndex] at member

theorem Holder.Sound.pending_ne (sound : Holder.Sound ⟨keypairs, some index⟩ journal)
    (found : keypairs.slot slot = some keypair) : keypair.localIndex ≠ index := by
  intro same
  have disjoint := (List.nodup_append.mp sound.distinct).2.2
  exact disjoint _ (mem_indices_of_slot found) index (List.mem_singleton_self index) same

theorem Holder.Sound.slot_eq {first second : Slot} {left right : Keypair}
    (sound : Holder.Sound ⟨keypairs, pending⟩ journal) (foundLeft : keypairs.slot first = some left)
    (foundRight : keypairs.slot second = some right) (same : left.localIndex = right.localIndex) :
    first = second := by
  have distinct : keypairs.indices.Nodup := (List.nodup_append.mp sound.distinct).1
  rw [indices_eq] at distinct
  obtain ⟨_, rest, fromPrevious⟩ := List.nodup_append.mp distinct
  obtain ⟨_, _, fromCurrent⟩ := List.nodup_append.mp rest
  have inside : ∀ {place : Option Keypair} {keypair : Keypair}, place = some keypair →
      keypair.localIndex ∈ (place.map Keypair.localIndex).toList := by
    rintro _ keypair rfl
    exact List.mem_singleton_self _
  cases first <;> cases second <;> first
    | rfl
    | exact absurd same (fromPrevious _ (inside foundLeft) _
        (List.mem_append_left _ (inside foundRight)))
    | exact absurd same (fromPrevious _ (inside foundLeft) _
        (List.mem_append_right _ (inside foundRight)))
    | exact absurd same.symm (fromPrevious _ (inside foundRight) _
        (List.mem_append_left _ (inside foundLeft)))
    | exact absurd same.symm (fromPrevious _ (inside foundRight) _
        (List.mem_append_right _ (inside foundLeft)))
    | exact absurd same (fromCurrent _ (inside foundLeft) _ (inside foundRight))
    | exact absurd same.symm (fromCurrent _ (inside foundRight) _ (inside foundLeft))

/-- A datagram goes out under the current session. -/
theorem Replaces.send {now : Instant} (sound : Holder.Sound ⟨keypairs, pending⟩ journal)
    (ordered : Ordered journal) (found : keypairs.current = some keypair)
    (young : now - keypair.birth < rejectAfterTime)
    (below : keypair.sendCounter < rejectAfterMessages) :
    Replaces crypto ⟨keypairs, pending⟩ journal allocated
      ⟨keypairs.setSlot { keypair with sendCounter := keypair.sendCounter + 1 } .current, pending⟩
      (journal ++ [.sent keypair.localIndex keypair.sendCounter now keypair.birth
        keypair.initiator]) allocated := by
  have recorded := sound.recorded .current keypair found
  have sameIndices := @indices_setSlot keypairs .current keypair
    { keypair with sendCounter := keypair.sendCounter + 1 } found rfl
  have owned : keypair.localIndex ∈ Holder.indices ⟨keypairs, pending⟩ :=
    List.mem_append_left _ (@mem_indices_of_slot keypairs .current keypair found)
  refine ⟨⟨?_, ?_, ?_, ?_⟩, ?_, .inr ⟨_, rfl, owned⟩, ?_, Nat.le_refl _⟩
  · unfold Holder.indices
    rw [sameIndices]
    exact sound.distinct
  · intro index isPending event member same
    subst isPending
    rcases List.mem_append.mp member with old | new
    · exact sound.unused index rfl event old same
    · rw [List.mem_singleton.mp new] at same
      exact sound.pending_ne (show keypairs.slot .current = some keypair from found) same
  · intro slot other inSlot
    rw [slot_setSlot] at inSlot
    split_ifs at inSlot with here
    · cases inSlot
      refine ⟨?_, ?_⟩
      · rw [sentOn_snoc_sent, List.length_append, ← recorded.sends]
        rfl
      · rw [receivedOn_snoc rfl]
        exact recorded.receives
    · refine (sound.recorded slot other inSlot).snoc (fun same => here ?_)
      exact (sound.slot_eq (show keypairs.slot .current = some keypair from found) inSlot same).symm
  · intro other current responder
    cases current
    obtain ⟨counter, member⟩ := sound.confirmed keypair found responder
    exact ⟨counter, List.mem_append_left _ member⟩
  · exact ordered.snoc ⟨recorded.sends, below, young, sound.confirmed keypair found⟩
  · intro index member
    refine .inl ?_
    unfold Holder.indices at member ⊢
    rwa [sameIndices] at member

/-- A packet comes in under a session. -/
theorem Replaces.receive {slot : Slot} {keypair : Keypair} {counter : Nat}
    (sound : Holder.Sound ⟨keypairs, pending⟩ journal) (ordered : Ordered journal)
    (found : keypairs.slot slot = some keypair)
    (fresh : (keypair.replay.checkAndUpdate counter).1 = true) :
    Replaces crypto ⟨keypairs, pending⟩ journal allocated
      ⟨((keypairs.setSlot { keypair with replay := (keypair.replay.checkAndUpdate counter).2 }
          slot).receivedWith slot).2.2, pending⟩
      (journal ++ [.received keypair.localIndex counter]) allocated := by
  have recorded := sound.recorded slot keypair found
  have sameIndices := @indices_setSlot keypairs slot keypair
    { keypair with replay := (keypair.replay.checkAndUpdate counter).2 } found rfl
  have fewer := indices_receivedWith
    (keypairs.setSlot { keypair with replay := (keypair.replay.checkAndUpdate counter).2 } slot) slot
  rw [sameIndices] at fewer
  have owned : keypair.localIndex ∈ Holder.indices ⟨keypairs, pending⟩ :=
    List.mem_append_left _ (mem_indices_of_slot found)
  have absent := recorded.not_received fresh
  refine ⟨⟨?_, ?_, ?_, ?_⟩, ordered.snoc absent, .inr ⟨_, rfl, owned⟩, ?_, Nat.le_refl _⟩
  · exact sound.distinct.sublist (fewer.append_right _)
  · intro index isPending event member same
    subst isPending
    rcases List.mem_append.mp member with old | new
    · exact sound.unused index rfl event old same
    · rw [List.mem_singleton.mp new] at same
      exact sound.pending_ne found same
  · intro after other inSlot
    obtain ⟨place, inPlace⟩ := slot_receivedWith inSlot
    rw [slot_setSlot] at inPlace
    split_ifs at inPlace with here
    · cases inPlace
      refine ⟨?_, ?_⟩
      · rw [sentOn_snoc rfl]
        exact recorded.sends
      · have knows := recorded.receives.checkAndUpdate counter
        rw [if_pos fresh] at knows
        rw [receivedOn_snoc_received, List.reverse_append]
        exact knows
    · refine (sound.recorded place other inPlace).snoc (fun same => here ?_)
      exact (sound.slot_eq found inPlace same).symm
  · intro other current responder
    rcases current_receivedWith current with old | ⟨isNext, received⟩
    · rw [show (keypairs.setSlot _ slot).current = _ from slot_setSlot keypairs _ slot .current]
        at old
      split_ifs at old with here
      · cases old
        exact ⟨counter, List.mem_append_right _ (List.mem_singleton_self _)⟩
      · obtain ⟨number, member⟩ := sound.confirmed other old responder
        exact ⟨number, List.mem_append_left _ member⟩
    · rw [slot_setSlot, if_pos rfl] at received
      cases received
      exact ⟨counter, List.mem_append_right _ (List.mem_singleton_self _)⟩
  · intro index member
    refine .inl ?_
    rcases List.mem_append.mp member with inPairs | inPending
    · exact List.mem_append_left _ (fewer.subset inPairs)
    · exact List.mem_append_right _ inPending

/-- A session begins under the index of the handshake. -/
theorem Holder.Sound.begin (sound : Holder.Sound ⟨keypairs, some index⟩ journal)
    (fresh : keypair.Fresh index) :
    Holder.Sound ⟨(keypairs.add keypair).2, none⟩ journal := by
  have unused := sound.unused index rfl
  refine ⟨?_, nofun, ?_, ?_⟩
  · obtain ⟨slot, indices⟩ := indices_add keypairs keypair
    unfold Holder.indices
    rw [Option.toList_none, List.append_nil, indices, fresh.localIndex]
    cases kept : keypairs.slot slot with
    | none => simp
    | some other =>
      have apart := sound.pending_ne kept
      simp [apart]
  · intro slot other found
    rcases slot_add found with rfl | ⟨old, inOld⟩
    · refine ⟨?_, ?_⟩
      · rw [fresh.sendCounter, fresh.localIndex, sentOn_of_unused unused]
        rfl
      · rw [fresh.replay, fresh.localIndex, receivedOn_of_unused unused]
        exact ReplayWindow.new_knows
    · exact sound.recorded old other inOld
  · intro other current responder
    rcases current_add current with ⟨rfl, initiator⟩ | old
    · rw [initiator] at responder
      cases responder
    · exact sound.confirmed other old responder

theorem indices_begin (fresh : keypair.Fresh index) (other : Nat)
    (member : other ∈ Holder.indices ⟨(keypairs.add keypair).2, none⟩) :
    other ∈ Holder.indices ⟨keypairs, some index⟩ := by
  obtain ⟨slot, indices⟩ := indices_add keypairs keypair
  unfold Holder.indices at member ⊢
  rw [Option.toList_none, List.append_nil, indices, fresh.localIndex] at member
  rcases List.mem_append.mp member with old | new
  · refine List.mem_append_left _ (mem_indices_iff.mpr ?_)
    cases kept : keypairs.slot slot with
    | none =>
      rw [kept] at old
      cases old
    | some one =>
      rw [kept] at old
      exact ⟨slot, one, kept, (List.mem_singleton.mp old).symm⟩
  · exact List.mem_append_right _ new

/-- What every step does to one peer's sessions. -/
theorem Replaces.of_step {before after : View} (step : View.Step crypto before after)
    (sound : before.holder.Sound before.journal) (ordered : Ordered before.journal)
    (known : ∀ event ∈ before.journal, event.session ≠ crypto.index before.allocated)
    (unheld : crypto.index before.allocated ∉ before.holder.indices) :
    Replaces crypto before.holder before.journal before.allocated after.holder after.journal
      after.allocated := by
  cases step with
  | mark found same => exact .mark sound ordered found same
  | refuse found stale =>
    have unchanged := (sound.recorded _ _ found).receives.refused stale
    exact .mark sound ordered found ⟨rfl, unchanged, rfl, rfl, rfl⟩
  | send found young below => exact .send sound ordered found young below
  | receive found fresh => exact .receive sound ordered found fresh
  | allocate =>
    refine ⟨⟨?_, ?_, sound.recorded, sound.confirmed⟩, ordered, .inl rfl, ?_, Nat.le_succ _⟩
    · refine List.nodup_append.mpr ⟨(List.nodup_append.mp sound.distinct).1,
        List.nodup_singleton _, ?_⟩
      intro index member other isNew same
      rw [same, List.mem_singleton.mp isNew] at member
      exact unheld (List.mem_append_left _ member)
    · intro index isNew
      cases isNew
      exact known
    · intro index member
      rcases List.mem_append.mp member with old | new
      · exact .inl (List.mem_append_left _ old)
      · exact .inr ⟨List.mem_singleton.mp new, rfl⟩
  | forget =>
    refine ⟨⟨?_, nofun, sound.recorded, sound.confirmed⟩,
      ordered, .inl rfl, ?_, Nat.le_refl _⟩
    · exact sound.distinct.sublist ((List.nil_sublist _).append_left _)
    · intro index member
      rcases List.mem_append.mp member with old | new
      · exact .inl (List.mem_append_left _ old)
      · cases new
  | begin fresh =>
    exact ⟨sound.begin fresh, ordered, .inl rfl,
      fun index member => .inl (indices_begin fresh index member), Nat.le_refl _⟩
  | clear =>
    refine ⟨⟨?_, sound.unused, ?_, ?_⟩, ordered, .inl rfl, ?_, Nat.le_refl _⟩
    · exact (List.nodup_append.mp sound.distinct).2.1
    · intro slot other found
      cases slot <;> cases found
    · intro other found
      cases found
    · intro index member
      exact .inl (List.mem_append_right _ member)

end Steps

theorem Safe.step (distinct : Function.Injective crypto.index) {before after : View}
    (step : View.Step crypto before after)
    (safe : Safe crypto (front ++ before.holder :: back) before.journal before.allocated) :
    Safe crypto (front ++ after.holder :: back) after.journal after.allocated := by
  have inside : before.holder ∈ front ++ before.holder :: back := by simp
  refine safe.replace distinct (.of_step step (safe.sound _ inside) safe.ordered ?_ ?_)
  · intro event member same
    obtain ⟨number, below, drawn⟩ := safe.known event member
    have equal := distinct (drawn.trans same)
    omega
  · intro member
    obtain ⟨number, below, drawn⟩ := safe.drawn _ inside _ member
    have equal := distinct drawn
    omega

theorem Safe.steps (distinct : Function.Injective crypto.index) {before after : View}
    (steps : View.Steps crypto before after)
    (safe : Safe crypto (front ++ before.holder :: back) before.journal before.allocated) :
    Safe crypto (front ++ after.holder :: back) after.journal after.allocated := by
  induction steps with
  | refl => exact safe
  | tail _ step ih => exact ih.step distinct step

/-! ### Deliveries -/

/-- What is delivered was received. -/
theorem Ordered.received_of_delivered (ordered : Ordered journal) {session : Nat}
    (member : .delivered session counter ∈ journal) : .received session counter ∈ journal := by
  obtain ⟨earlier, later, split⟩ := List.append_of_mem member
  rw [split]
  exact List.mem_append_left _ (ordered earlier _ later split).1

theorem Safe.deliver {crypto : Crypto} {holders : List Holder} {journal : List Event}
    {allocated session counter : Nat} (safe : Safe crypto holders journal allocated)
    (received : .received session counter ∈ journal)
    (fresh : .delivered session counter ∉ journal) :
    Safe crypto holders (journal ++ [.delivered session counter]) allocated := by
  refine ⟨safe.ordered.snoc ⟨received, fresh⟩, ?_, safe.apart, safe.drawn, ?_⟩
  · intro holder member
    have sound := safe.sound holder member
    refine ⟨sound.distinct, ?_, ?_, ?_⟩
    · intro index pending event inside
      rcases List.mem_append.mp inside with old | new
      · exact sound.unused index pending event old
      · rw [List.mem_singleton.mp new]
        exact sound.unused index pending (.received session counter) received
    · intro slot keypair found
      have recorded := sound.recorded slot keypair found
      refine ⟨?_, ?_⟩
      · rw [sentOn_snoc rfl]
        exact recorded.sends
      · rw [receivedOn_snoc rfl]
        exact recorded.receives
    · intro keypair found responder
      obtain ⟨other, confirmed⟩ := sound.confirmed keypair found responder
      exact ⟨other, List.mem_append_left _ confirmed⟩
  · intro event inside
    rcases List.mem_append.mp inside with old | new
    · exact safe.known event old
    · rw [List.mem_singleton.mp new]
      exact safe.known (.received session counter) received

/-! ### Peers that come and go -/

theorem Safe.remove (safe : Safe crypto (front ++ holder :: back) journal allocated) :
    Safe crypto (front ++ back) journal allocated := by
  have fewer : (front ++ back).Sublist (front ++ holder :: back) :=
    (List.sublist_cons_self _ _).append_left _
  exact ⟨safe.ordered, fun other member => safe.sound other (fewer.subset member),
    safe.apart.sublist fewer, fun other member => safe.drawn other (fewer.subset member),
    safe.known⟩

theorem Safe.insert (safe : Safe crypto (front ++ back) journal allocated) :
    Safe crypto (front ++ ⟨.new, none⟩ :: back) journal allocated := by
  refine Safe.perm ⟨safe.ordered, ?_, ?_, ?_, safe.known⟩ List.perm_middle.symm
  · refine List.forall_mem_cons.mpr ⟨⟨List.nodup_nil, nofun, ?_, nofun⟩, safe.sound⟩
    intro slot keypair found
    cases slot <;> cases found
  · exact List.pairwise_cons.mpr ⟨fun _ _ => List.disjoint_nil_left _, safe.apart⟩
  · exact List.forall_mem_cons.mpr ⟨fun _ inside => absurd inside List.not_mem_nil, safe.drawn⟩

end Sail.Protocol.Wireguard
