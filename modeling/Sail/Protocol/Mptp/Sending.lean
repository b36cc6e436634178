/-
What the paths of a multipath stream carry.

The bytes written to a path and those still in its write buffer are the frames
put there, in order; so what was written to a path is always a part of whole
frames from the start.
-/

import Sail.Protocol.Mptp.Endpoint

namespace Sail.Protocol.Mptp

open Lanes

namespace PathLog

def framesOn (log : PathLog) (path : PathId) : List Frame :=
  ofLane path log.appended

def writtenOn (log : PathLog) (path : PathId) : Bytes :=
  (ofLane path log.written).flatten

def takenOn (log : PathLog) (path : PathId) : Bytes :=
  (ofLane path log.taken).flatten

theorem writtenOn_write (log : PathLog) (stream : PathId) (bytes : Bytes) (path : PathId) :
    (log.write stream bytes).writtenOn path =
      log.writtenOn path ++ if stream = path then bytes else [] := by
  unfold writtenOn write
  rw [ofLane_append, List.flatten_append, ofLane_singleton]
  split_ifs <;> simp

theorem takenOn_take (log : PathLog) (stream : PathId) (bytes : Bytes) (path : PathId) :
    (log.take stream bytes).takenOn path =
      log.takenOn path ++ if stream = path then bytes else [] := by
  unfold takenOn take
  rw [ofLane_append, List.flatten_append, ofLane_singleton]
  split_ifs <;> simp

end PathLog

/-! ### Writing out -/

structure WroteOut (sub : SubConnection) (log : PathLog) (out : Written) : Prop where
  stream : out.sub.stream = sub.stream
  readBuf : out.sub.readBuf = sub.readBuf
  sameLog : out.log = { log with written := out.log.written }
  own : out.log.writtenOn sub.stream ++ out.sub.writeBuf = log.writtenOn sub.stream ++ sub.writeBuf
  others : ∀ path, path ≠ sub.stream → out.log.writtenOn path = log.writtenOn path
  grows : ∀ path, log.writtenOn path <+: out.log.writtenOn path

theorem WroteOut.same {sub : SubConnection} {log : PathLog} (answers : List WriteOutcome)
    (pending : Bool) : WroteOut sub log ⟨sub, log, answers, pending⟩ :=
  ⟨rfl, rfl, rfl, rfl, fun _ _ => rfl, fun _ => List.prefix_rfl⟩

theorem writeOut_spec (closing : Bool) (answers : List WriteOutcome) (sub : SubConnection)
    (log : PathLog) : WroteOut sub log (writeOut closing answers sub log) := by
  induction answers generalizing sub log with
  | nil =>
    unfold writeOut
    split_ifs
    · exact .same _ _
    · exact .same _ _
  | cons answer answers ih =>
    unfold writeOut
    by_cases done : sub.writeBuf.isEmpty = true
    · rw [if_pos done]
      exact .same _ _
    rw [if_neg done]
    cases answer with
    | pending => exact .same _ _
    | failed => exact ⟨rfl, rfl, rfl, rfl, fun _ _ => rfl, fun _ => List.prefix_rfl⟩
    | ready count =>
      dsimp only
      split_ifs
      · exact ⟨rfl, rfl, rfl, rfl, fun _ _ => rfl, fun _ => List.prefix_rfl⟩
      · have onward := ih (sub.advance count)
          (log.write sub.stream (sub.writeBuf.take count))
        refine ⟨onward.stream, onward.readBuf, onward.sameLog, ?_, ?_, ?_⟩
        · have own := onward.own
          change _ = (log.write sub.stream (sub.writeBuf.take count)).writtenOn sub.stream ++
            sub.writeBuf.drop count at own
          rw [PathLog.writtenOn_write, if_pos rfl, List.append_assoc, List.take_append_drop] at own
          exact own
        · intro path apart
          rw [onward.others path apart, PathLog.writtenOn_write,
            if_neg (fun same => apart same.symm), List.append_nil]
        · intro path
          refine List.IsPrefix.trans ?_ (onward.grows path)
          rw [PathLog.writtenOn_write]
          exact List.prefix_append _ _

def SubConnection.inbound (sub : SubConnection) : PathId × Bytes :=
  (sub.stream, sub.readBuf)

def SubConnection.outbound (sub : SubConnection) : PathId × Bytes :=
  (sub.stream, sub.writeBuf)

structure WroteSubs (subs : List SubConnection) (log : PathLog) (out : WrittenSubs) : Prop where
  inbound : out.subs.map SubConnection.inbound = subs.map SubConnection.inbound
  sameLog : out.log = { log with written := out.log.written }
  others : ∀ path, path ∉ subs.map SubConnection.stream →
    out.log.writtenOn path = log.writtenOn path
  grows : ∀ path, log.writtenOn path <+: out.log.writtenOn path
  buffers : ∀ total : PathId → Bytes,
    (∀ sub ∈ subs, log.writtenOn sub.stream ++ sub.writeBuf = total sub.stream) →
      ∀ sub ∈ out.subs, out.log.writtenOn sub.stream ++ sub.writeBuf = total sub.stream

theorem WroteSubs.cons {sub : SubConnection} {rest : List SubConnection} {log : PathLog}
    {written : Written} {others : WrittenSubs} {pending : Bool} (first : WroteOut sub log written)
    (onward : WroteSubs rest written.log others)
    (absent : sub.stream ∉ rest.map SubConnection.stream) :
    WroteSubs (sub :: rest) log { others with subs := written.sub :: others.subs, pending } := by
  refine ⟨?_, ?_, ?_, fun path => (first.grows path).trans (onward.grows path), ?_⟩
  · simp only [List.map_cons, onward.inbound, SubConnection.inbound, first.stream, first.readBuf]
  · rw [onward.sameLog, first.sameLog]
  · intro path away
    rw [List.map_cons, List.mem_cons, not_or] at away
    rw [onward.others path away.2, first.others path away.1]
  · intro total before other member
    rcases List.mem_cons.mp member with rfl | inRest
    · rw [first.stream, onward.others sub.stream absent, first.own]
      exact before sub List.mem_cons_self
    · refine onward.buffers total (fun one inside => ?_) other inRest
      have apart : one.stream ≠ sub.stream := fun same =>
        absent (same ▸ List.mem_map_of_mem inside)
      rw [first.others one.stream apart]
      exact before one (List.mem_cons_of_mem _ inside)

theorem writeSubs_spec (closing : Bool) {subs : List SubConnection}
    (nodup : (subs.map SubConnection.stream).Nodup) (log : PathLog)
    (answers : List WriteOutcome) : WroteSubs subs log (writeSubs closing subs log answers) := by
  induction subs generalizing log answers with
  | nil =>
    exact ⟨rfl, rfl, fun _ _ => rfl, fun _ => List.prefix_rfl, nofun⟩
  | cons sub rest ih =>
    rw [List.map_cons, List.nodup_cons] at nodup
    unfold writeSubs
    split_ifs
    · exact .cons (.same answers false) (ih nodup.2 log answers) nodup.1
    · exact .cons (writeOut_spec closing answers sub log) (ih nodup.2 _ _) nodup.1

/-! ### Reading in -/

structure TookIn (sub : SubConnection) (log : PathLog) (after : SubConnection)
    (afterLog : PathLog) : Prop where
  outbound : after.outbound = sub.outbound
  sameLog : afterLog = { log with taken := afterLog.taken }
  own : ∃ more, afterLog.takenOn sub.stream = log.takenOn sub.stream ++ more ∧
    after.readBuf = sub.readBuf ++ more
  others : ∀ path, path ≠ sub.stream → afterLog.takenOn path = log.takenOn path

/-- Nothing was taken; the path may have been closed. -/
theorem TookIn.nothing {sub after : SubConnection} {log : PathLog}
    (outbound : after.outbound = sub.outbound) (readBuf : after.readBuf = sub.readBuf) :
    TookIn sub log after log :=
  ⟨outbound, rfl, ⟨[], by rw [List.append_nil], by rw [readBuf, List.append_nil]⟩, fun _ _ => rfl⟩

theorem TookIn.receive (sub : SubConnection) (log : PathLog) (bytes : Bytes) :
    TookIn sub log (sub.receive bytes) (log.take sub.stream bytes) := by
  refine ⟨rfl, rfl, ⟨bytes, ?_, rfl⟩, ?_⟩
  · rw [PathLog.takenOn_take, if_pos rfl]
  · intro path apart
    rw [PathLog.takenOn_take, if_neg (fun same => apart same.symm), List.append_nil]

structure TookSubs (subs : List SubConnection) (log : PathLog) (after : List SubConnection)
    (afterLog : PathLog) : Prop where
  outbound : after.map SubConnection.outbound = subs.map SubConnection.outbound
  sameLog : afterLog = { log with taken := afterLog.taken }
  others : ∀ path, path ∉ subs.map SubConnection.stream → afterLog.takenOn path = log.takenOn path
  grows : ∀ path, log.takenOn path <+: afterLog.takenOn path
  buffers : ∀ sub ∈ after, ∃ old ∈ subs, old.stream = sub.stream ∧
    ∃ more, afterLog.takenOn sub.stream = log.takenOn sub.stream ++ more ∧
      sub.readBuf = old.readBuf ++ more

theorem TookSubs.cons {sub after : SubConnection} {log middle last : PathLog}
    {rest others : List SubConnection} (first : TookIn sub log after middle)
    (onward : TookSubs rest middle others last)
    (absent : sub.stream ∉ rest.map SubConnection.stream) :
    TookSubs (sub :: rest) log (after :: others) last := by
  have sameName : after.stream = sub.stream := congrArg Prod.fst first.outbound
  obtain ⟨more, took, joined⟩ := first.own
  refine ⟨?_, ?_, ?_, ?_, ?_⟩
  · rw [List.map_cons, List.map_cons, first.outbound, onward.outbound]
  · rw [onward.sameLog, first.sameLog]
  · intro path away
    rw [List.map_cons, List.mem_cons, not_or] at away
    rw [onward.others path away.2, first.others path away.1]
  · intro path
    refine List.IsPrefix.trans ?_ (onward.grows path)
    by_cases same : path = sub.stream
    · rw [same, took]
      exact List.prefix_append _ _
    · exact (first.others path same).symm ▸ List.prefix_refl _
  · intro other member
    rcases List.mem_cons.mp member with rfl | inRest
    · refine ⟨sub, List.mem_cons_self, sameName.symm, more, ?_, joined⟩
      rw [sameName, onward.others sub.stream absent, took]
    · obtain ⟨old, inside, same, extra, grown, buffer⟩ := onward.buffers other inRest
      have apart : other.stream ≠ sub.stream := fun equal =>
        absent (equal ▸ same ▸ List.mem_map_of_mem inside)
      rw [first.others other.stream apart] at grown
      exact ⟨old, List.mem_cons_of_mem _ inside, same, extra, grown, buffer⟩

theorem readSubs_spec {subs : List SubConnection} (nodup : (subs.map SubConnection.stream).Nodup)
    (log : PathLog) (answers : List ReadOutcome) :
    TookSubs subs log (readSubs subs log answers).subs (readSubs subs log answers).log := by
  induction subs generalizing log answers with
  | nil =>
    exact ⟨rfl, rfl, fun _ _ => rfl, fun _ => List.prefix_rfl, nofun⟩
  | cons sub rest ih =>
    rw [List.map_cons, List.nodup_cons] at nodup
    unfold readSubs
    split_ifs
    any_goals exact .cons (.nothing rfl rfl) (ih nodup.2 _ _) nodup.1
    · cases answers.headD .pending with
      | pending | failed => exact .cons (.nothing rfl rfl) (ih nodup.2 _ _) nodup.1
      | ready bytes =>
        cases bytes with
        | nil => exact .cons (.nothing rfl rfl) (ih nodup.2 _ _) nodup.1
        | cons byte more =>
          exact .cons (.receive sub log (byte :: more)) (ih nodup.2 _ _) nodup.1

theorem processFrames_outbound (fuel : Nat) (sub : SubConnection) (inbox : Reordering)
    (progress : Bool) :
    (processFrames fuel sub inbox progress).sub.outbound = sub.outbound := by
  induction fuel generalizing sub inbox progress with
  | zero => rfl
  | succ fuel ih =>
    unfold processFrames
    split
    any_goals rfl
    · split_ifs
      · rfl
      · rw [ih]
        rfl
    · rw [ih]
      rfl

theorem processSubs_outbound (subs : List SubConnection) (inbox : Reordering) (progress : Bool) :
    (processSubs subs inbox progress).subs.map SubConnection.outbound =
      subs.map SubConnection.outbound := by
  induction subs generalizing inbox progress with
  | nil => rfl
  | cons sub rest ih =>
    have processed : (processSub sub inbox progress).sub.outbound = sub.outbound :=
      processFrames_outbound _ _ _ _
    unfold processSubs
    dsimp only
    split_ifs
    · rw [List.map_cons, List.map_cons, ih]
    · rw [List.map_cons, List.map_cons, processed]
    · rw [List.map_cons, List.map_cons, processed, ih]

/-! ### The write buffers in every run -/

namespace MptpStream

/-- What was written to a path and what is in its write buffer are the frames put
there; a path that never joined has nothing. -/
structure Buffered (stream : MptpStream) : Prop where
  nodup : (stream.subs.map SubConnection.stream).Nodup
  known : ∀ sub ∈ stream.subs, sub.stream ∈ stream.log.joined
  buffers : ∀ sub ∈ stream.subs, stream.log.writtenOn sub.stream ++ sub.writeBuf =
    frames.encodeAll (stream.log.framesOn sub.stream)
  written : ∀ path, stream.log.writtenOn path <+: frames.encodeAll (stream.log.framesOn path)
  fresh : ∀ path, path ∉ stream.log.joined → stream.log.framesOn path = [] ∧
    stream.log.writtenOn path = [] ∧ stream.log.takenOn path = []

theorem map_stream_of_outbound {first second : List SubConnection}
    (same : first.map SubConnection.outbound = second.map SubConnection.outbound) :
    first.map SubConnection.stream = second.map SubConnection.stream := by
  have names := congrArg (List.map Prod.fst) same
  rw [List.map_map, List.map_map] at names
  exact names

theorem map_stream_of_inbound {first second : List SubConnection}
    (same : first.map SubConnection.inbound = second.map SubConnection.inbound) :
    first.map SubConnection.stream = second.map SubConnection.stream := by
  have names := congrArg (List.map Prod.fst) same
  rw [List.map_map, List.map_map] at names
  exact names

theorem exists_of_map_eq {A B : Type*} {key : A → B} {first second : List A}
    (same : first.map key = second.map key) {item : A} (member : item ∈ first) :
    ∃ other ∈ second, key other = key item := by
  have listed := List.mem_map_of_mem (f := key) member
  rw [same] at listed
  exact List.mem_map.mp listed

namespace Buffered

variable {stream after : MptpStream}

/-- A change on the reader's side. -/
theorem of_outbound (buffered : stream.Buffered)
    (outbound : after.subs.map SubConnection.outbound = stream.subs.map SubConnection.outbound)
    (sameLog : after.log = { stream.log with taken := after.log.taken })
    (others : ∀ path, path ∉ stream.subs.map SubConnection.stream →
      after.log.takenOn path = stream.log.takenOn path) : after.Buffered := by
  have joined : after.log.joined = stream.log.joined := by rw [sameLog]
  have framesOn : ∀ path, after.log.framesOn path = stream.log.framesOn path := by
    intro path
    rw [sameLog]
    rfl
  have writtenOn : ∀ path, after.log.writtenOn path = stream.log.writtenOn path := by
    intro path
    rw [sameLog]
    rfl
  refine ⟨by rw [map_stream_of_outbound outbound]; exact buffered.nodup, ?_, ?_, ?_, ?_⟩
  · intro sub member
    obtain ⟨old, oldMember, same⟩ := exists_of_map_eq outbound member
    have sameStream : old.stream = sub.stream := congrArg Prod.fst same
    rw [joined, ← sameStream]
    exact buffered.known old oldMember
  · intro sub member
    obtain ⟨old, oldMember, same⟩ := exists_of_map_eq outbound member
    have sameStream : old.stream = sub.stream := congrArg Prod.fst same
    have sameBuf : old.writeBuf = sub.writeBuf := congrArg Prod.snd same
    rw [writtenOn, framesOn, ← sameStream, ← sameBuf]
    exact buffered.buffers old oldMember
  · intro path
    rw [writtenOn, framesOn]
    exact buffered.written path
  · intro path absent
    rw [joined] at absent
    have unnamed : path ∉ stream.subs.map SubConnection.stream := by
      intro member
      obtain ⟨sub, inside, rfl⟩ := List.mem_map.mp member
      exact absent (buffered.known sub inside)
    rw [framesOn, writtenOn, others path unnamed]
    exact buffered.fresh path absent

theorem join (buffered : stream.Buffered) (arrivals : Arrivals)
    (distinct : (stream.join arrivals).log.joined.Nodup) : (stream.join arrivals).Buffered := by
  unfold MptpStream.join at distinct ⊢
  split_ifs at distinct ⊢
  · obtain ⟨_, newNodup, apart⟩ := List.nodup_append.mp distinct
    have names : (arrivals.streams.map SubConnection.new).map SubConnection.stream =
        arrivals.streams := by
      rw [List.map_map]
      exact List.map_id _
    have away : ∀ path ∈ arrivals.streams, path ∉ stream.log.joined :=
      fun path member old => apart path old path member rfl
    refine ⟨?_, ?_, ?_, buffered.written, ?_⟩
    · rw [List.map_append, names]
      refine List.nodup_append.mpr ⟨buffered.nodup, newNodup, ?_⟩
      intro old oldMember new newMember same
      obtain ⟨sub, inside, rfl⟩ := List.mem_map.mp oldMember
      exact away new newMember (same ▸ buffered.known sub inside)
    · intro sub member
      rcases List.mem_append.mp member with old | new
      · exact List.mem_append_left _ (buffered.known sub old)
      · obtain ⟨path, inside, rfl⟩ := List.mem_map.mp new
        exact List.mem_append_right _ inside
    · intro sub member
      rcases List.mem_append.mp member with old | new
      · exact buffered.buffers sub old
      · obtain ⟨path, inside, rfl⟩ := List.mem_map.mp new
        obtain ⟨noFrames, nothing, _⟩ := buffered.fresh path (away path inside)
        change stream.log.writtenOn path ++ [] = frames.encodeAll (stream.log.framesOn path)
        rw [noFrames, nothing]
        rfl
    · intro path absent
      exact buffered.fresh path (fun old => absent (List.mem_append_left _ old))
  · exact buffered

theorem cleanup (buffered : stream.Buffered) : stream.cleanup.Buffered := by
  unfold MptpStream.cleanup
  split_ifs
  · refine ⟨buffered.nodup.sublist (List.filter_sublist.map _), ?_, ?_, buffered.written,
      buffered.fresh⟩
    · intro sub member
      exact buffered.known sub (List.mem_of_mem_filter member)
    · intro sub member
      exact buffered.buffers sub (List.mem_of_mem_filter member)
  · exact buffered

theorem writePaths (buffered : stream.Buffered) (closing : Bool) (writes : List WriteOutcome) :
    (stream.writePaths closing writes).Buffered := by
  have wrote := writeSubs_spec closing buffered.nodup stream.log writes
  have inbound : (stream.writePaths closing writes).subs.map SubConnection.inbound =
      stream.subs.map SubConnection.inbound := wrote.inbound
  have joined : (stream.writePaths closing writes).log.joined = stream.log.joined :=
    (congrArg PathLog.joined wrote.sameLog :)
  have framesOn : ∀ path, (stream.writePaths closing writes).log.framesOn path =
      stream.log.framesOn path :=
    fun path => (congrArg (fun log => PathLog.framesOn log path) wrote.sameLog :)
  have takenOn : ∀ path, (stream.writePaths closing writes).log.takenOn path =
      stream.log.takenOn path :=
    fun path => (congrArg (fun log => PathLog.takenOn log path) wrote.sameLog :)
  have others : ∀ path, path ∉ stream.subs.map SubConnection.stream →
      (stream.writePaths closing writes).log.writtenOn path = stream.log.writtenOn path :=
    wrote.others
  have buffers : ∀ sub ∈ (stream.writePaths closing writes).subs,
      (stream.writePaths closing writes).log.writtenOn sub.stream ++ sub.writeBuf =
        frames.encodeAll (stream.log.framesOn sub.stream) :=
    wrote.buffers (fun path => frames.encodeAll (stream.log.framesOn path)) buffered.buffers
  generalize stream.writePaths closing writes = after at *
  have names := map_stream_of_inbound inbound
  refine ⟨by rw [names]; exact buffered.nodup, ?_, ?_, ?_, ?_⟩
  · intro sub member
    obtain ⟨old, oldMember, same⟩ := exists_of_map_eq inbound member
    have sameStream : old.stream = sub.stream := congrArg Prod.fst same
    rw [joined, ← sameStream]
    exact buffered.known old oldMember
  · intro sub member
    rw [framesOn, buffers sub member]
  · intro path
    by_cases named : path ∈ stream.subs.map SubConnection.stream
    · rw [← names] at named
      obtain ⟨sub, member, rfl⟩ := List.mem_map.mp named
      rw [framesOn, ← buffers sub member]
      exact List.prefix_append _ _
    · rw [others path named, framesOn]
      exact buffered.written path
  · intro path absent
    rw [joined] at absent
    have unnamed : path ∉ stream.subs.map SubConnection.stream := by
      intro member
      obtain ⟨sub, inside, rfl⟩ := List.mem_map.mp member
      exact absent (buffered.known sub inside)
    rw [framesOn, takenOn, others path unnamed]
    exact buffered.fresh path absent

theorem of_same (buffered : stream.Buffered) (sameSubs : after.subs = stream.subs)
    (sameLog : after.log = stream.log) : after.Buffered := by
  refine ⟨?_, ?_, ?_, ?_, ?_⟩
  · rw [sameSubs]
    exact buffered.nodup
  · rw [sameSubs, sameLog]
    exact buffered.known
  · rw [sameSubs, sameLog]
    exact buffered.buffers
  · rw [sameLog]
    exact buffered.written
  · rw [sameLog]
    exact buffered.fresh

end Buffered

/-- The frames on a path after one was put in the write buffers. -/
theorem framesOn_append (frame : Frame) (takes : SubConnection → Bool) (stream : MptpStream)
    (path : PathId) :
    (stream.append frame takes).log.framesOn path = stream.log.framesOn path ++
      ofLane path ((stream.subs.filter takes).map (fun sub => (sub.stream, frame))) :=
  ofLane_append path _ _

theorem map_stream_append (frame : Frame) (takes : SubConnection → Bool) (stream : MptpStream) :
    (stream.append frame takes).subs.map SubConnection.stream =
      stream.subs.map SubConnection.stream := by
  unfold append
  rw [List.map_map]
  refine List.map_congr_left (fun sub _ => ?_)
  dsimp only [Function.comp]
  split_ifs <;> rfl

variable {stream : MptpStream}

/-- The frame reaches a path exactly if the path takes it. -/
theorem framesOn_append_of_mem (nodup : (stream.subs.map SubConnection.stream).Nodup)
    (frame : Frame) (takes : SubConnection → Bool) {sub : SubConnection}
    (member : sub ∈ stream.subs) :
    (stream.append frame takes).log.framesOn sub.stream =
      stream.log.framesOn sub.stream ++ if takes sub then [frame] else [] := by
  have names : ((stream.subs.filter takes).map (fun sub => (sub.stream, frame))).map Prod.fst =
      (stream.subs.filter takes).map SubConnection.stream := by
    rw [List.map_map]
    rfl
  have filtered := nodup.sublist ((List.filter_sublist (p := takes)).map SubConnection.stream)
  rw [framesOn_append]
  congr 1
  by_cases taken : takes sub = true
  · rw [if_pos taken]
    have listed : (sub.stream, frame) ∈
        (stream.subs.filter takes).map (fun sub => (sub.stream, frame)) :=
      List.mem_map.mpr ⟨sub, List.mem_filter.mpr ⟨member, taken⟩, rfl⟩
    exact ofLane_of_mem (by rw [names]; exact filtered) listed
  · rw [if_neg taken]
    refine ofLane_eq_nil ?_
    rw [names]
    intro listed
    obtain ⟨other, inside, same⟩ := List.mem_map.mp listed
    have equal := List.inj_on_of_nodup_map nodup (List.mem_of_mem_filter inside) member same
    exact taken (equal ▸ (List.mem_filter.mp inside).2)

theorem Buffered.append (buffered : stream.Buffered) (frame : Frame)
    (takes : SubConnection → Bool) : (stream.append frame takes).Buffered := by
  refine ⟨by rw [map_stream_append]; exact buffered.nodup, ?_, ?_, ?_, ?_⟩
  · intro sub member
    obtain ⟨old, inside, rfl⟩ := List.mem_map.mp member
    have known := buffered.known old inside
    split_ifs <;> exact known
  · intro sub member
    obtain ⟨old, inside, rfl⟩ := List.mem_map.mp member
    have before := buffered.buffers old inside
    have reached := framesOn_append_of_mem buffered.nodup frame takes inside
    by_cases taken : takes old = true
    · rw [if_pos taken] at reached ⊢
      change stream.log.writtenOn old.stream ++ (old.writeBuf ++ frame.encode) =
        frames.encodeAll ((stream.append frame takes).log.framesOn old.stream)
      rw [reached, Framing.Codec.encodeAll_append, ← before, List.append_assoc,
        Framing.Codec.encodeAll_cons, Framing.Codec.encodeAll_nil, List.append_nil]
      rfl
    · rw [if_neg taken] at reached ⊢
      change stream.log.writtenOn old.stream ++ old.writeBuf =
        frames.encodeAll ((stream.append frame takes).log.framesOn old.stream)
      rw [reached, List.append_nil, before]
  · intro path
    rw [framesOn_append, Framing.Codec.encodeAll_append]
    exact (buffered.written path).trans (List.prefix_append _ _)
  · intro path absent
    have unnamed : path ∉ ((stream.subs.filter takes).map
        (fun sub => (sub.stream, frame))).map Prod.fst := by
      rw [List.map_map]
      intro listed
      obtain ⟨sub, inside, rfl⟩ := List.mem_map.mp listed
      exact absent (buffered.known sub (List.mem_of_mem_filter inside))
    rw [framesOn_append, ofLane_eq_nil unnamed, List.append_nil]
    exact buffered.fresh path absent

theorem Buffered.queueFin (buffered : stream.Buffered) : stream.queueFin.Buffered := by
  unfold MptpStream.queueFin
  split_ifs
  · exact buffered
  · exact (buffered.append _ _).of_same rfl rfl

theorem Buffered.broadcast (buffered : stream.Buffered) (buf : Bytes) :
    (stream.broadcast buf).Buffered :=
  (@Buffered.of_same stream { stream with nextPn := wrappingAdd stream.nextPn 1 } buffered rfl
    rfl).append _ _

end MptpStream

namespace Endpoint

def Named (endpoint : Endpoint) : Step → Prop
  | .join arrivals => (endpoint.stream.join arrivals).log.joined.Nodup
  | _ => True

/-- Every step keeps the write buffers in order. -/
theorem step_buffered {endpoint : Endpoint} (buffered : endpoint.stream.Buffered) (step : Step)
    (named : endpoint.Named step) :
    (endpoint.step step).stream.Buffered := by
  cases step with
  | join arrivals => exact buffered.join arrivals named
  | cleanup => exact buffered.cleanup
  | writePaths closing writes => exact buffered.writePaths closing writes
  | recheck | finish _ => exact buffered
  | send buf => exact buffered.broadcast buf
  | queueFin => exact buffered.queueFin
  | readPaths reads =>
    have took := readSubs_spec buffered.nodup endpoint.stream.log reads
    exact buffered.of_outbound took.outbound took.sameLog took.others
  | processPaths progress =>
    exact buffered.of_outbound (processSubs_outbound _ _ _) rfl (fun _ _ => rfl)
  | give remaining => exact buffered.of_same rfl rfl

end Endpoint

/-! ### The log only grows -/

structure PathLog.Grows (log after : PathLog) : Prop where
  frames : ∀ path, log.framesOn path <+: after.framesOn path
  written : ∀ path, log.writtenOn path <+: after.writtenOn path
  taken : ∀ path, log.takenOn path <+: after.takenOn path

namespace PathLog.Grows

theorem refl (log : PathLog) : log.Grows log :=
  ⟨fun _ => List.prefix_rfl, fun _ => List.prefix_rfl, fun _ => List.prefix_rfl⟩

theorem trans {first second third : PathLog} (early : first.Grows second)
    (late : second.Grows third) : first.Grows third :=
  ⟨fun path => (early.frames path).trans (late.frames path),
    fun path => (early.written path).trans (late.written path),
    fun path => (early.taken path).trans (late.taken path)⟩

end PathLog.Grows

theorem append_grows (frame : Frame) (takes : SubConnection → Bool) (stream : MptpStream) :
    stream.log.Grows (stream.append frame takes).log :=
  ⟨fun _ => ofLane_prefix (List.prefix_append _ _), fun _ => List.prefix_rfl,
    fun _ => List.prefix_rfl⟩

namespace Endpoint

variable {endpoint : Endpoint}

theorem step_grows (buffered : endpoint.stream.Buffered) (step : Step) :
    endpoint.stream.log.Grows (endpoint.step step).stream.log := by
  cases step with
  | join arrivals =>
    change endpoint.stream.log.Grows (endpoint.stream.join arrivals).log
    unfold MptpStream.join
    split_ifs
    · exact ⟨fun _ => List.prefix_rfl, fun _ => List.prefix_rfl, fun _ => List.prefix_rfl⟩
    · exact .refl _
  | cleanup =>
    change endpoint.stream.log.Grows endpoint.stream.cleanup.log
    unfold MptpStream.cleanup
    split_ifs
    · exact .refl _
    · exact .refl _
  | writePaths closing writes =>
    have wrote := writeSubs_spec closing buffered.nodup endpoint.stream.log writes
    refine ⟨fun path => ?_, wrote.grows, fun path => ?_⟩
    · exact ⟨[], (List.append_nil _).trans (congrArg (PathLog.framesOn · path) wrote.sameLog).symm⟩
    · exact ⟨[], (List.append_nil _).trans (congrArg (PathLog.takenOn · path) wrote.sameLog).symm⟩
  | send buf => exact append_grows _ _ { endpoint.stream with nextPn := _ }
  | queueFin =>
    change endpoint.stream.log.Grows endpoint.stream.queueFin.log
    unfold MptpStream.queueFin
    split_ifs
    · exact .refl _
    · exact append_grows _ _ endpoint.stream
  | readPaths reads =>
    have took := readSubs_spec buffered.nodup endpoint.stream.log reads
    refine ⟨fun path => ?_, fun path => ?_, took.grows⟩
    · exact ⟨[], (List.append_nil _).trans (congrArg (PathLog.framesOn · path) took.sameLog).symm⟩
    · exact ⟨[], (List.append_nil _).trans (congrArg (PathLog.writtenOn · path) took.sameLog).symm⟩
  | _ => exact .refl _

theorem takeSteps_grows {steps : List Step} (buffered : endpoint.stream.Buffered)
    (named : Along Named steps endpoint) :
    endpoint.stream.log.Grows (takeSteps steps endpoint).stream.log := by
  induction steps generalizing endpoint with
  | nil => exact .refl _
  | cons step steps ih =>
    exact (step_grows buffered step).trans (ih (step_buffered buffered step named.1) named.2)

end Endpoint

end Sail.Protocol.Mptp
