/-
Putting packets back in order.

Whatever frames arrive, the reader's bytes are the packets below the one it
waits for, and each frame that was taken off a path was delivered or is kept.
-/

import Sail.Protocol.Mptp.Numbers

namespace Sail.Protocol.Mptp

open Endpoint (payloads payloads_append)

variable {inbox : Reordering} {numbers : List (Option Bytes)}

/-! ### The reorder buffer -/

namespace Reordering

variable {numbers : List (Option Bytes)} {given : Bytes} {inbox : Reordering}

/-- The bytes so far are the packets below the next one, and the packets that are
kept are those of their numbers. -/
structure Sound (numbers : List (Option Bytes)) (given : Bytes) (inbox : Reordering) : Prop where
  positive : 1 ≤ inbox.expectedReadPn
  reached : ∀ index, index + 1 < inbox.expectedReadPn →
    ∃ payload, numbers[index]? = some (some payload)
  bytes : given ++ inbox.readBuffer = payloads (numbers.take (inbox.expectedReadPn - 1))
  kept : ∀ pn payload, inbox.reorderBuffer.lookup pn = some payload →
    ∃ index, pn = index + 1 ∧ numbers[index]? = some (some payload)

def Settles (inbox : Reordering) : Frame → Prop
  | .data pn payload => pn < inbox.expectedReadPn ∨ inbox.reorderBuffer.lookup pn = some payload
  | _ => True

def Keeps (inbox after : Reordering) : Prop :=
  ∀ frame, inbox.Settles frame → after.Settles frame

theorem Keeps.refl (inbox : Reordering) : inbox.Keeps inbox :=
  fun _ settled => settled

theorem Keeps.trans {first second third : Reordering} (early : first.Keeps second)
    (late : second.Keeps third) : first.Keeps third :=
  fun frame settled => late frame (early frame settled)

theorem Keeps.of_le {after : Reordering} (expected : inbox.expectedReadPn ≤ after.expectedReadPn)
    (kept : ∀ pn payload, inbox.reorderBuffer.lookup pn = some payload →
      pn < after.expectedReadPn ∨ after.reorderBuffer.lookup pn = some payload) :
    inbox.Keeps after := by
  intro frame settled
  cases frame with
  | data pn payload =>
    rcases settled with delivered | waiting
    · exact .inl (Nat.lt_of_lt_of_le delivered expected)
    · exact kept pn payload waiting
  | _ => trivial

theorem Sound.expected_le (sound : inbox.Sound numbers given) :
    inbox.expectedReadPn ≤ numbers.length + 1 := by
  by_contra beyond
  obtain ⟨payload, found⟩ := sound.reached numbers.length (by omega)
  rw [List.getElem?_eq_none (Nat.le_refl _)] at found
  cases found

/-- The packet that is waited for is taken. -/
theorem Sound.accept (sound : inbox.Sound numbers given) {payload : Bytes}
    (inRange : numbers.length < usizeMax)
    (next : numbers[inbox.expectedReadPn - 1]? = some (some payload)) :
    (inbox.accept payload).Sound numbers given ∧
      (inbox.accept payload).expectedReadPn = inbox.expectedReadPn + 1 := by
  have positive := sound.positive
  have below : inbox.expectedReadPn - 1 < numbers.length := by
    obtain ⟨bound, _⟩ := List.getElem?_eq_some_iff.mp next
    exact bound
  have expected : (inbox.accept payload).expectedReadPn = inbox.expectedReadPn + 1 :=
    wrappingAdd_eq (by omega)
  refine ⟨⟨by omega, ?_, ?_, sound.kept⟩, expected⟩
  · intro index before
    by_cases last : index = inbox.expectedReadPn - 1
    · exact ⟨payload, last ▸ next⟩
    · exact sound.reached index (by omega)
  · rw [expected]
    change given ++ (inbox.readBuffer ++ payload) = _
    have oneMore : inbox.expectedReadPn + 1 - 1 = inbox.expectedReadPn - 1 + 1 := by omega
    rw [← List.append_assoc, sound.bytes, oneMore, List.take_add_one, next, payloads_append]
    simp [payloads]

theorem drain_spec (inRange : numbers.length < usizeMax) (fuel : Nat)
    (sound : inbox.Sound numbers given) :
    (inbox.drain fuel).Sound numbers given ∧ inbox.Keeps (inbox.drain fuel) ∧
      (inbox.drain fuel).finPn = inbox.finPn := by
  induction fuel generalizing inbox with
  | zero => exact ⟨sound, Keeps.refl inbox, rfl⟩
  | succ fuel ih =>
    unfold drain
    cases found : inbox.reorderBuffer.lookup inbox.expectedReadPn with
    | none => exact ⟨sound, Keeps.refl inbox, rfl⟩
    | some payload =>
      obtain ⟨index, isNext, packet⟩ := sound.kept _ payload found
      have next : numbers[inbox.expectedReadPn - 1]? = some (some payload) := by
        rw [isNext, Nat.add_sub_cancel]
        exact packet
      have erased : ∀ pn, (inbox.reorderBuffer.erase inbox.expectedReadPn).lookup pn =
          if pn = inbox.expectedReadPn then none else inbox.reorderBuffer.lookup pn :=
        fun pn => KeyedMap.lookup_erase_ite _ _ _
      have without : Sound numbers given
          { inbox with
            reorderBuffer := inbox.reorderBuffer.erase inbox.expectedReadPn } := by
        refine ⟨sound.positive, sound.reached, sound.bytes, ?_⟩
        intro pn other kept
        rw [erased] at kept
        split_ifs at kept
        exact sound.kept pn other kept
      obtain ⟨accepted, expected⟩ := without.accept inRange next
      obtain ⟨finished, keeps, sameFin⟩ := ih accepted
      refine ⟨finished, Keeps.trans (Keeps.of_le ?_ ?_) keeps, sameFin⟩
      · rw [expected]
        exact Nat.le_succ _
      · intro pn other kept
        by_cases here : pn = inbox.expectedReadPn
        · refine .inl ?_
          rw [expected, here]
          exact Nat.lt_succ_self _
        · refine .inr ?_
          change (inbox.reorderBuffer.erase inbox.expectedReadPn).lookup pn = some other
          rw [erased, if_neg here]
          exact kept

/-- A packet that arrives is delivered or kept, unless it is too far ahead. -/
theorem receive_spec (sound : inbox.Sound numbers given) (inRange : numbers.length < usizeMax)
    {index : Nat} {payload : Bytes} (packet : numbers[index]? = some (some payload)) :
    (inbox.receive (index + 1) payload).Sound numbers given ∧
      inbox.Keeps (inbox.receive (index + 1) payload) ∧
      (inbox.receive (index + 1) payload).Settles (.data (index + 1) payload) ∧
      (inbox.receive (index + 1) payload).finPn = inbox.finPn := by
  unfold receive
  by_cases old : index + 1 < inbox.expectedReadPn
  · rw [if_pos old]
    exact ⟨sound, Keeps.refl inbox, .inl old, rfl⟩
  rw [if_neg old]
  by_cases next : index + 1 = inbox.expectedReadPn
  · rw [if_pos next]
    have here : numbers[inbox.expectedReadPn - 1]? = some (some payload) := by
      rw [← next, Nat.add_sub_cancel]
      exact packet
    obtain ⟨accepted, expected⟩ := sound.accept inRange here
    have step : inbox.Keeps (inbox.accept payload) :=
      Keeps.of_le (by omega) (fun pn other kept => .inr kept)
    obtain ⟨drained, keeps, sameFin⟩ :=
      drain_spec inRange inbox.reorderBuffer.toList.length accepted
    refine ⟨drained, step.trans keeps, keeps _ (.inl ?_), sameFin⟩
    omega
  · unfold keep
    split_ifs with present
    · obtain ⟨other, found⟩ := Option.isSome_iff_exists.mp present
      obtain ⟨same, isIndex, samePacket⟩ := sound.kept _ other found
      have equal : same = index := by omega
      rw [equal, packet, Option.some.injEq, Option.some.injEq] at samePacket
      exact ⟨sound, Keeps.refl inbox, .inr (samePacket ▸ found), rfl⟩
    · have inserted : ∀ pn, (inbox.reorderBuffer.insert (index + 1) payload).lookup pn =
          if pn = index + 1 then some payload else inbox.reorderBuffer.lookup pn :=
        fun pn => KeyedMap.lookup_insert_ite _ _ _ _
      refine ⟨⟨sound.positive, sound.reached, sound.bytes, ?_⟩, Keeps.of_le (Nat.le_refl _) ?_,
        .inr ?_, rfl⟩
      · intro pn other kept
        rw [inserted] at kept
        split_ifs at kept with same
        · cases kept
          exact ⟨index, same, packet⟩
        · exact sound.kept pn other kept
      · intro pn other kept
        refine .inr ?_
        rw [inserted]
        split_ifs with same
        · rw [← same] at present
          rw [kept] at present
          exact absurd rfl present
        · exact kept
      · rw [inserted, if_pos rfl]

end Reordering

/-! ### The frames of a path -/

/-- A frame that the writer sends: a packet under its number, or the end. -/
def Frame.Of (numbers : List (Option Bytes)) : Frame → Prop
  | .data pn payload => ∃ index, pn = index + 1 ∧ numbers[index]? = some (some payload)
  | .fin _ => True
  | _ => False

/-- What a path brought: whole frames that were processed, and the read buffer. -/
def PathState (carried : List Frame) (taken : Bytes) (inbox : Reordering) (readBuf : Bytes) :
    Prop :=
  ∃ before, before <+: carried ∧ taken = frames.encodeAll before ++ readBuf ∧
    ∀ frame ∈ before, inbox.Settles frame

theorem PathState.mono {carried : List Frame} {taken readBuf : Bytes} {after : Reordering}
    (state : PathState carried taken inbox readBuf) (keeps : inbox.Keeps after) :
    PathState carried taken after readBuf := by
  obtain ⟨before, part, bytes, settled⟩ := state
  exact ⟨before, part, bytes, fun frame member => keeps frame (settled frame member)⟩

structure Processes (numbers : List (Option Bytes)) (given : Bytes) (known : Frame → Prop)
    (inbox after : Reordering) : Prop where
  sound : after.Sound numbers given
  keeps : inbox.Keeps after
  fin : after.finPn = inbox.finPn ∨ ∃ last, after.finPn = some last ∧ known (.fin last)

theorem Processes.refl {given : Bytes} (known : Frame → Prop) (sound : inbox.Sound numbers given) :
    Processes numbers given known inbox inbox :=
  ⟨sound, Reordering.Keeps.refl inbox, .inl rfl⟩

theorem Processes.trans {given : Bytes} {known : Frame → Prop} {first second third : Reordering}
    (early : Processes numbers given known first second)
    (late : Processes numbers given known second third) :
    Processes numbers given known first third := by
  refine ⟨late.sound, early.keeps.trans late.keeps, ?_⟩
  rcases late.fin with same | found
  · rw [same]
    exact early.fin
  · exact .inr found

section Frames

variable {numbers : List (Option Bytes)} {given : Bytes} {carried : List Frame} {taken : Bytes}

theorem nextFrame_of_state {readBuf : Bytes} (valid : ∀ frame ∈ carried, frame.Valid)
    (arrived : taken <+: frames.encodeAll carried) (state : PathState carried taken inbox readBuf) :
    nextFrame readBuf = none ∨ ∃ frame rest, nextFrame readBuf = some (frame, rest) ∧
      frame ∈ carried ∧
      (∀ after, inbox.Keeps after → after.Settles frame → PathState carried taken after rest) := by
  obtain ⟨before, ⟨later, rfl⟩, bytes, settled⟩ := state
  rw [bytes, Framing.Codec.encodeAll_append, List.prefix_append_right_inj] at arrived
  rcases frames.next_of_prefix (fun frame member => valid frame (List.mem_append_right _ member))
    arrived with incomplete | ⟨frame, others, rest, rfl, found, split, _⟩
  · exact .inl incomplete
  · refine .inr ⟨frame, rest, found, by simp, ?_⟩
    intro after keeps settles
    refine ⟨before ++ [frame], ⟨others, by simp⟩, ?_, ?_⟩
    · rw [bytes, split, Framing.Codec.encodeAll_append, Framing.Codec.encodeAll_cons,
        Framing.Codec.encodeAll_nil, List.append_nil, List.append_assoc]
    · intro other member
      rcases List.mem_append.mp member with old | new
      · exact keeps other (settled other old)
      · rw [List.mem_singleton.mp new]
        exact settles

theorem processFrames_spec (inRange : numbers.length < usizeMax)
    (valid : ∀ frame ∈ carried, frame.Valid ∧ frame.Of numbers)
    (arrived : taken <+: frames.encodeAll carried) (fuel : Nat) {sub : SubConnection}
    {inbox : Reordering} (progress : Bool) (sound : inbox.Sound numbers given)
    (state : PathState carried taken inbox sub.readBuf) :
    Processes numbers given (· ∈ carried) inbox (processFrames fuel sub inbox progress).inbox ∧
      PathState carried taken (processFrames fuel sub inbox progress).inbox
        (processFrames fuel sub inbox progress).sub.readBuf ∧
      (processFrames fuel sub inbox progress).reset = false := by
  induction fuel generalizing sub inbox progress with
  | zero => exact ⟨Processes.refl _ sound, state, rfl⟩
  | succ fuel ih =>
    unfold processFrames
    rcases nextFrame_of_state (fun frame member => (valid frame member).1) arrived state with
      incomplete | ⟨frame, rest, found, member, onward⟩
    · rw [incomplete]
      exact ⟨Processes.refl _ sound, state, rfl⟩
    · rw [found]
      have isOf := (valid frame member).2
      cases frame with
      | data pn payload =>
        dsimp only
        by_cases far : inbox.tooFar pn = true
        · rw [if_pos far]
          exact ⟨Processes.refl _ sound, state, rfl⟩
        · rw [if_neg far]
          obtain ⟨index, rfl, packet⟩ := isOf
          obtain ⟨received, keeps, settles, sameFin⟩ :=
            Reordering.receive_spec sound inRange packet
          obtain ⟨processes, finished, noReset⟩ :=
            @ih { sub with readBuf := rest } (inbox.receive (index + 1) payload)
              (progress || index + 1 = inbox.expectedReadPn) received
              (onward _ keeps settles)
          exact ⟨Processes.trans ⟨received, keeps, .inl sameFin⟩ processes, finished, noReset⟩
      | fin last =>
        refine ⟨⟨⟨sound.positive, sound.reached, sound.bytes, sound.kept⟩,
          Reordering.Keeps.of_le (Nat.le_refl _) (fun _ _ kept => .inr kept),
          .inr ⟨last, rfl, member⟩⟩, ?_, rfl⟩
        exact onward _ (Reordering.Keeps.of_le (Nat.le_refl _) (fun _ _ kept => .inr kept))
          trivial
      | _ => exact isOf.elim

theorem processFrames_stream (fuel : Nat) (sub : SubConnection) (inbox : Reordering)
    (progress : Bool) : (processFrames fuel sub inbox progress).sub.stream = sub.stream :=
  congrArg Prod.fst (processFrames_outbound fuel sub inbox progress)

end Frames

/-- The frames of all paths processed. -/
theorem processSubs_spec {given : Bytes} {carried : PathId → List Frame} {taken : PathId → Bytes}
    (inRange : numbers.length < usizeMax)
    (valid : ∀ path, ∀ frame ∈ carried path, frame.Valid ∧ frame.Of numbers)
    (arrived : ∀ path, taken path <+: frames.encodeAll (carried path)) {subs : List SubConnection}
    (progress : Bool) (sound : inbox.Sound numbers given)
    (states : ∀ sub ∈ subs, PathState (carried sub.stream) (taken sub.stream) inbox sub.readBuf) :
    Processes numbers given (fun frame => ∃ path, frame ∈ carried path) inbox
        (processSubs subs inbox progress).inbox ∧
      (∀ sub ∈ (processSubs subs inbox progress).subs,
        PathState (carried sub.stream) (taken sub.stream) (processSubs subs inbox progress).inbox
          sub.readBuf) ∧
      (processSubs subs inbox progress).reset = false := by
  induction subs generalizing inbox progress with
  | nil => exact ⟨Processes.refl _ sound, nofun, rfl⟩
  | cons sub rest ih =>
    have first := states sub List.mem_cons_self
    have others : ∀ other ∈ rest, PathState (carried other.stream) (taken other.stream) inbox
        other.readBuf := (List.forall_mem_cons.mp states).2
    unfold processSubs
    by_cases empty : sub.readBuf.isEmpty = true
    · rw [if_pos empty]
      obtain ⟨processes, after, noReset⟩ := ih progress sound others
      refine ⟨processes, ?_, noReset⟩
      intro other member
      rcases List.mem_cons.mp member with rfl | inRest
      · exact first.mono processes.keeps
      · exact after other inRest
    · rw [if_neg empty]
      obtain ⟨processed, state, noReset⟩ :=
        @processFrames_spec numbers given (carried sub.stream) (taken sub.stream) inRange
          (valid sub.stream) (arrived sub.stream) sub.readBuf.length
          { sub with held := false } inbox progress sound first
      have sameStream : (processSub sub inbox progress).sub.stream = sub.stream :=
        processFrames_stream _ _ _ _
      change Processes _ _ _ inbox (processSub sub inbox progress).inbox at processed
      change PathState _ _ (processSub sub inbox progress).inbox
        (processSub sub inbox progress).sub.readBuf at state
      change (processSub sub inbox progress).reset = false at noReset
      generalize processSub sub inbox progress = middle at *
      have widened : Processes numbers given (fun frame => ∃ path, frame ∈ carried path) inbox
          middle.inbox := by
        refine ⟨processed.sound, processed.keeps, ?_⟩
        rcases processed.fin with same | ⟨last, found, member⟩
        · exact .inl same
        · exact .inr ⟨last, found, sub.stream, member⟩
      dsimp only
      rw [noReset, if_neg Bool.false_ne_true]
      obtain ⟨processes, after, done⟩ := ih middle.anyProgress processed.sound
        (fun other member => (others other member).mono processed.keeps)
      refine ⟨widened.trans processes, ?_, done⟩
      intro other member
      rcases List.mem_cons.mp member with rfl | inRest
      · rw [sameStream]
        exact state.mono processes.keeps
      · exact after other inRest

/-! ### The reader's end -/

namespace Endpoint

variable {numbers : List (Option Bytes)} {carried : PathId → List Frame} {endpoint : Endpoint}

/-- The reader's end of a stream whose writer has put these packets on these
paths: what it gave out is in order, and each frame that arrived whole on a path
was settled or is still in the path's buffer. -/
structure Received (numbers : List (Option Bytes)) (carried : PathId → List Frame)
    (endpoint : Endpoint) : Prop where
  sound : endpoint.stream.inbox.Sound numbers endpoint.given
  fin : ∀ last, endpoint.stream.inbox.finPn = some last → ∃ path, Frame.fin last ∈ carried path
  ended : endpoint.ended = true → ∃ path last, Frame.fin last ∈ carried path ∧
    payloads (numbers.take last) <+: endpoint.given
  reading : ∀ sub ∈ endpoint.stream.subs, PathState (carried sub.stream)
    (endpoint.stream.log.takenOn sub.stream) endpoint.stream.inbox sub.readBuf
  forgotten : ∀ path, path ∉ endpoint.stream.subs.map SubConnection.stream →
    ∃ rest, PathState (carried path) (endpoint.stream.log.takenOn path) endpoint.stream.inbox rest ∧
      nextFrame rest = none

section

variable (received : endpoint.Received numbers carried)

include received

/-- A change that leaves the reader's side alone. -/
theorem Received.of_inbound {after : Endpoint}
    (sameInbox : after.stream.inbox = endpoint.stream.inbox)
    (sameGiven : after.given = endpoint.given) (sameEnded : after.ended = endpoint.ended)
    (inbound : after.stream.subs.map SubConnection.inbound =
      endpoint.stream.subs.map SubConnection.inbound)
    (sameTaken : ∀ path, after.stream.log.takenOn path = endpoint.stream.log.takenOn path) :
    after.Received numbers carried := by
  refine ⟨?_, ?_, ?_, ?_, ?_⟩
  · rw [sameInbox, sameGiven]
    exact received.sound
  · rw [sameInbox]
    exact received.fin
  · rw [sameEnded, sameGiven]
    exact received.ended
  · intro sub member
    obtain ⟨old, inside, same⟩ := MptpStream.exists_of_map_eq inbound member
    have sameStream : old.stream = sub.stream := congrArg Prod.fst same
    have sameBuf : old.readBuf = sub.readBuf := congrArg Prod.snd same
    rw [sameInbox, sameTaken, ← sameStream, ← sameBuf]
    exact received.reading old inside
  · intro path absent
    rw [MptpStream.map_stream_of_inbound inbound] at absent
    rw [sameInbox, sameTaken]
    exact received.forgotten path absent

/-- The paths that are forgotten have no whole frame left. -/
def Forgets (endpoint : Endpoint) : Step → Prop
  | .cleanup => 16 < endpoint.stream.subs.length → ∀ sub ∈ endpoint.stream.subs,
      sub.closed = true → nextFrame sub.readBuf = none
  | _ => True

theorem Received.cleanup (forgets : endpoint.Forgets .cleanup) :
    (endpoint.step .cleanup).Received numbers carried := by
  unfold Endpoint.step MptpStream.cleanup
  dsimp only
  split_ifs with many
  · refine ⟨received.sound, received.fin, received.ended, ?_, ?_⟩
    · intro sub member
      exact received.reading sub (List.mem_of_mem_filter member)
    · intro path absent
      by_cases known : path ∈ endpoint.stream.subs.map SubConnection.stream
      · obtain ⟨sub, member, rfl⟩ := List.mem_map.mp known
        refine ⟨sub.readBuf, received.reading sub member, forgets many sub member ?_⟩
        by_contra still
        exact absent (List.mem_map.mpr ⟨sub, List.mem_filter.mpr ⟨member, by simp [still]⟩, rfl⟩)
      · exact received.forgotten path known
  · exact received

theorem Received.join (buffered : endpoint.stream.Buffered) (arrivals : Arrivals)
    (named : endpoint.Named (.join arrivals)) :
    (endpoint.step (.join arrivals)).Received numbers carried := by
  unfold Named at named
  unfold Endpoint.step MptpStream.join at *
  dsimp only at *
  split_ifs at named ⊢
  · obtain ⟨_, _, apart⟩ := List.nodup_append.mp named
    refine ⟨received.sound, received.fin, received.ended, ?_, ?_⟩
    · intro sub member
      rcases List.mem_append.mp member with old | new
      · exact received.reading sub old
      · obtain ⟨path, inside, rfl⟩ := List.mem_map.mp new
        have away : path ∉ endpoint.stream.log.joined :=
          fun old => apart path old path inside rfl
        obtain ⟨_, _, nothing⟩ := buffered.fresh path away
        exact ⟨[], List.nil_prefix, nothing, nofun⟩
    · intro path absent
      rw [List.map_append, List.mem_append, not_or] at absent
      exact received.forgotten path absent.1
  · exact received

theorem Received.readPaths (buffered : endpoint.stream.Buffered) (reads : List ReadOutcome) :
    (endpoint.step (.readPaths reads)).Received numbers carried := by
  have took := readSubs_spec buffered.nodup endpoint.stream.log reads
  have names := MptpStream.map_stream_of_outbound took.outbound
  refine ⟨received.sound, received.fin, received.ended, ?_, ?_⟩
  · intro sub member
    obtain ⟨old, inside, sameStream, more, grown, buffer⟩ := took.buffers sub member
    obtain ⟨before, part, bytes, settled⟩ := received.reading old inside
    rw [sameStream] at part bytes
    refine ⟨before, part, ?_, settled⟩
    change (readSubs endpoint.stream.subs endpoint.stream.log reads).log.takenOn sub.stream = _
    rw [grown, bytes, buffer, List.append_assoc]
  · intro path absent
    have unnamed : path ∉ endpoint.stream.subs.map SubConnection.stream := by
      rw [← names]
      exact absent
    obtain ⟨rest, state, incomplete⟩ := received.forgotten path unnamed
    refine ⟨rest, ?_, incomplete⟩
    change PathState _ ((readSubs endpoint.stream.subs endpoint.stream.log reads).log.takenOn path)
      _ _
    rw [took.others path unnamed]
    exact state

theorem Received.processPaths (inRange : numbers.length < usizeMax)
    (valid : ∀ path, ∀ frame ∈ carried path, frame.Valid ∧ frame.Of numbers)
    (arrived : ∀ path, endpoint.stream.log.takenOn path <+: frames.encodeAll (carried path))
    (progress : Bool) : (endpoint.step (.processPaths progress)).Received numbers carried := by
  obtain ⟨processes, states, _⟩ := processSubs_spec inRange valid arrived progress received.sound
    received.reading
  have names := MptpStream.map_stream_of_outbound
    (processSubs_outbound endpoint.stream.subs endpoint.stream.inbox progress)
  refine ⟨processes.sound, ?_, received.ended, states, ?_⟩
  · intro last found
    rcases processes.fin with same | ⟨other, isOther, known⟩
    · exact received.fin last (same ▸ found)
    · have equal : other = last := Option.some.inj (isOther.symm.trans found)
      rw [← equal]
      exact known
  · intro path absent
    obtain ⟨rest, state, incomplete⟩ := received.forgotten path (by rw [← names]; exact absent)
    exact ⟨rest, state.mono processes.keeps, incomplete⟩

theorem Received.give (remaining : Nat) :
    (endpoint.step (.give remaining)).Received numbers carried := by
  have sound := received.sound
  refine ⟨⟨sound.positive, sound.reached, ?_, sound.kept⟩, received.fin, ?_, received.reading,
    received.forgotten⟩
  · change (endpoint.given ++ endpoint.stream.inbox.readBuffer.take _) ++
      endpoint.stream.inbox.readBuffer.drop _ = _
    rw [List.append_assoc, List.take_append_drop]
    exact sound.bytes
  · intro ended
    obtain ⟨path, last, known, part⟩ := received.ended ended
    exact ⟨path, last, known, part.trans (List.prefix_append _ _)⟩

end

theorem payloads_take_prefix (numbers : List (Option Bytes)) {less more : Nat}
    (order : less ≤ more) : payloads (numbers.take less) <+: payloads (numbers.take more) := by
  obtain ⟨rest, split⟩ := List.take_prefix_take_left (l := numbers) order
  rw [← split, payloads_append]
  exact List.prefix_append _ _

theorem Received.finish (received : endpoint.Received numbers carried) (remaining : Nat) :
    (endpoint.step (.finish remaining)).Received numbers carried := by
  refine ⟨received.sound, received.fin, ?_, received.reading, received.forgotten⟩
  intro ended
  change (endpoint.ended || _) = true at ended
  rw [Bool.or_eq_true, Bool.and_eq_true, Bool.and_eq_true] at ended
  rcases ended with already | ⟨⟨finished, drained⟩, _⟩
  · exact received.ended already
  · obtain ⟨last, isLast, passed⟩ := (Option.any_eq_true _ _).mp finished
    obtain ⟨path, known⟩ := received.fin last isLast
    refine ⟨path, last, known, ?_⟩
    have bytes := received.sound.bytes
    rw [List.isEmpty_iff.mp drained, List.append_nil] at bytes
    change _ <+: endpoint.given
    rw [bytes]
    have below := of_decide_eq_true passed
    exact payloads_take_prefix numbers (by omega)

theorem append_inbound (frame : Frame) (takes : SubConnection → Bool) (stream : MptpStream) :
    (stream.append frame takes).subs.map SubConnection.inbound =
      stream.subs.map SubConnection.inbound := by
  unfold MptpStream.append
  rw [List.map_map]
  refine List.map_congr_left (fun sub _ => ?_)
  dsimp only [Function.comp]
  split_ifs <;> rfl

/-- Every step of the reader keeps what it received. -/
theorem step_received (received : endpoint.Received numbers carried)
    (buffered : endpoint.stream.Buffered) (inRange : numbers.length < usizeMax)
    (valid : ∀ path, ∀ frame ∈ carried path, frame.Valid ∧ frame.Of numbers)
    (arrived : ∀ path, endpoint.stream.log.takenOn path <+: frames.encodeAll (carried path))
    (step : Step) (named : endpoint.Named step) (forgets : endpoint.Forgets step) :
    (endpoint.step step).Received numbers carried := by
  cases step with
  | join arrivals => exact received.join buffered arrivals named
  | cleanup => exact received.cleanup forgets
  | writePaths closing writes =>
    have wrote := writeSubs_spec closing buffered.nodup endpoint.stream.log writes
    exact received.of_inbound rfl rfl rfl wrote.inbound
      (fun path => (congrArg (fun log => PathLog.takenOn log path) wrote.sameLog :))
  | recheck => exact received
  | send buf => exact received.of_inbound rfl rfl rfl (append_inbound _ _ _) (fun _ => rfl)
  | queueFin =>
    refine received.of_inbound ?_ rfl rfl ?_ ?_
    · change endpoint.stream.queueFin.inbox = _
      unfold MptpStream.queueFin
      split_ifs <;> rfl
    · change endpoint.stream.queueFin.subs.map _ = _
      unfold MptpStream.queueFin
      split_ifs
      · rfl
      · exact append_inbound _ _ _
    · intro path
      change endpoint.stream.queueFin.log.takenOn path = _
      unfold MptpStream.queueFin
      split_ifs <;> rfl
  | readPaths reads => exact received.readPaths buffered reads
  | processPaths progress => exact received.processPaths inRange valid arrived progress
  | give remaining => exact received.give remaining
  | finish remaining => exact received.finish remaining

/-- More packets and frames of the writer change nothing for the reader. -/
theorem Received.grow {more : List (Option Bytes)} {later : PathId → List Frame}
    (received : endpoint.Received numbers carried)
    (finBounded : ∀ path last, Frame.fin last ∈ carried path → last ≤ numbers.length)
    (grows : ∀ path, carried path <+: later path) :
    endpoint.Received (numbers ++ more) later := by
  have sound := received.sound
  have expected := sound.expected_le
  have old : ∀ {index : Nat} {payload : Option Bytes}, numbers[index]? = some payload →
      (numbers ++ more)[index]? = some payload := by
    intro index payload found
    obtain ⟨below, _⟩ := List.getElem?_eq_some_iff.mp found
    rw [List.getElem?_append_left below, found]
  have states : ∀ {path : PathId} {taken rest : Bytes},
      PathState (carried path) taken endpoint.stream.inbox rest →
        PathState (later path) taken endpoint.stream.inbox rest := by
    rintro path taken rest ⟨before, part, bytes, settled⟩
    exact ⟨before, part.trans (grows path), bytes, settled⟩
  refine ⟨⟨sound.positive, ?_, ?_, ?_⟩, ?_, ?_, ?_, ?_⟩
  · intro index before
    obtain ⟨payload, found⟩ := sound.reached index before
    exact ⟨payload, old found⟩
  · rw [List.take_append_of_le_length (by omega)]
    exact sound.bytes
  · intro pn payload kept
    obtain ⟨index, isIndex, found⟩ := sound.kept pn payload kept
    exact ⟨index, isIndex, old found⟩
  · intro last found
    obtain ⟨path, known⟩ := received.fin last found
    exact ⟨path, (grows path).subset known⟩
  · intro ended
    obtain ⟨path, last, known, part⟩ := received.ended ended
    refine ⟨path, last, (grows path).subset known, ?_⟩
    rw [List.take_append_of_le_length (finBounded path last known)]
    exact part
  · intro sub member
    exact states (received.reading sub member)
  · intro path absent
    obtain ⟨rest, state, incomplete⟩ := received.forgotten path absent
    exact ⟨rest, states state, incomplete⟩

end Endpoint

end Sail.Protocol.Mptp
