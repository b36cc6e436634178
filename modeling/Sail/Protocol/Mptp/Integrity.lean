/-
A writer and a reader of a multipath stream.

Each path brings the reader the first of the bytes the writer wrote to it. What the
reader gives out is then in order, as long as lengths and numbers fit their fields
and no path is forgotten with a whole frame unread.
-/

import Mathlib
import Sail.Protocol.Mptp.Receiving

namespace Sail.Protocol.Mptp

open Lanes Endpoint

structure World where
  writer : Endpoint
  reader : Endpoint

inductive Side where
  | writer
  | reader

namespace World

def new (writerPaths : List PathId) (writerReceiver : Bool) (readerPaths : List PathId)
    (readerReceiver : Bool) : World :=
  { writer := Endpoint.new writerPaths writerReceiver
    reader := Endpoint.new readerPaths readerReceiver }

def endpoint (world : World) : Side → Endpoint
  | .writer => world.writer
  | .reader => world.reader

def poll (world : World) : Side × PollCall → World
  | (.writer, call) => { world with writer := world.writer.poll call }
  | (.reader, call) => { world with reader := world.reader.poll call }

def run (calls : List (Side × PollCall)) (world : World) : World :=
  calls.foldl poll world

/-! ### What is asked of a run -/

/-- Each path brought the reader the first of the bytes written to it. -/
def Delivers (world : World) : Prop :=
  ∀ path ∈ world.reader.stream.log.taken.map Prod.fst,
    world.reader.stream.log.takenOn path <+: world.writer.stream.log.writtenOn path

/-- The paths that join at an end have names of their own, and each path
delivers. -/
def Wired (world : World) (call : Side × PollCall) : Prop :=
  Along Named ((world.endpoint call.1).steps call.2) (world.endpoint call.1) ∧
    (world.poll call).Delivers

def Fits (endpoint : Endpoint) : Step → Prop
  | .send buf => endpoint.stream.nextPn < usizeMax ∧ buf.length < 4294967296
  | _ => True

/-- Packets fit at the writer; the reader forgets no path with a whole frame. -/
def Spares : Side → Endpoint → Step → Prop
  | .writer => Fits
  | .reader => Forgets

def Spared (world : World) (call : Side × PollCall) : Prop :=
  Along (Spares call.1) ((world.endpoint call.1).steps call.2) (world.endpoint call.1)

def AlongRun (condition : World → Side × PollCall → Prop) : List (Side × PollCall) → World → Prop
  | [], _ => True
  | call :: calls, world => condition world call ∧ AlongRun condition calls (world.poll call)

instance (world : World) : Decidable world.Delivers :=
  inferInstanceAs (Decidable (∀ path ∈ _, _))

instance (endpoint : Endpoint) (step : Step) : Decidable (endpoint.Named step) := by
  refine step.casesOn (fun _ => inferInstanceAs (Decidable (List.Nodup _)))
    ?_ ?_ ?_ ?_ ?_ ?_ ?_ ?_ ?_ <;> intros <;> exact isTrue trivial

instance (side : Side) (endpoint : Endpoint) (step : Step) :
    Decidable (Spares side endpoint step) := by
  refine side.casesOn ?_ ?_
  · refine step.casesOn ?_ ?_ ?_ ?_ (fun _ => inferInstanceAs (Decidable (_ ∧ _)))
      ?_ ?_ ?_ ?_ ?_ <;> intros <;> exact isTrue trivial
  · refine step.casesOn ?_ (inferInstanceAs (Decidable (_ → ∀ sub ∈ _, _ → _)))
      ?_ ?_ ?_ ?_ ?_ ?_ ?_ ?_ <;> intros <;> exact isTrue trivial

instance (world : World) (call : Side × PollCall) : Decidable (world.Wired call) :=
  inferInstanceAs (Decidable (_ ∧ _))

instance (world : World) (call : Side × PollCall) : Decidable (world.Spared call) :=
  inferInstanceAs (Decidable (Along _ _ _))

instance instDecidableAlongRun {condition : World → Side × PollCall → Prop}
    [∀ world call, Decidable (condition world call)] :
    (calls : List (Side × PollCall)) → (world : World) → Decidable (AlongRun condition calls world)
  | [], _ => isTrue trivial
  | call :: calls, world =>
    have := @instDecidableAlongRun condition _ calls (world.poll call)
    inferInstanceAs (Decidable (_ ∧ _))

/-! ### What every run keeps -/

structure Intact (numbers : List (Option Bytes)) (world : World) : Prop where
  writerPaths : world.writer.stream.Buffered
  readerPaths : world.reader.stream.Buffered
  numbered : world.writer.Numbered numbers
  inRange : numbers.length < usizeMax
  short : ∀ payload, some payload ∈ numbers → payload.length < 4294967296
  received : world.reader.Received numbers world.writer.stream.log.framesOn
  delivered : ∀ path,
    world.reader.stream.log.takenOn path <+: world.writer.stream.log.writtenOn path

theorem Delivers.all {world : World} (delivers : world.Delivers) (path : PathId) :
    world.reader.stream.log.takenOn path <+: world.writer.stream.log.writtenOn path := by
  by_cases taken : path ∈ world.reader.stream.log.taken.map Prod.fst
  · exact delivers path taken
  · rw [PathLog.takenOn, ofLane_eq_nil taken, List.flatten_nil]
    exact List.nil_prefix

variable {numbers : List (Option Bytes)} {world : World}

section

variable (intact : world.Intact numbers)

include intact

/-- The frames that the writer sends are frames the reader can tell. -/
theorem Intact.valid (path : PathId) (frame : Frame)
    (member : frame ∈ world.writer.stream.log.framesOn path) :
    frame.Valid ∧ frame.Of numbers := by
  have numbered := intact.numbered
  have inRange := intact.inRange
  have entry := mem_ofLane.mp member
  have limit : usizeMax = 18446744073709551615 := rfl
  rcases numbered.only _ entry with ⟨pn, payload, isData⟩ | ⟨last, isFin⟩
  · subst isData
    cases pn with
    | zero => exact absurd entry (numbered.positive path payload)
    | succ index =>
      have found := (numbered.data index payload).mpr ⟨path, entry⟩
      obtain ⟨below, _⟩ := List.getElem?_eq_some_iff.mp found
      exact ⟨⟨by omega, intact.short payload (List.mem_of_getElem? found)⟩, index, rfl, found⟩
  · subst isFin
    have bounded := (numbered.fin path last entry).1
    exact ⟨show last < _ by omega, trivial⟩

theorem Intact.arrived (path : PathId) : world.reader.stream.log.takenOn path <+:
      frames.encodeAll (world.writer.stream.log.framesOn path) :=
  (intact.delivered path).trans (intact.writerPaths.written path)

theorem Intact.writerStep {step : Step} (named : world.writer.Named step)
    (fits : Fits world.writer step) :
    ({ world with writer := world.writer.step step } : World).Intact
      (numbers ++ world.writer.newNumbers step) := by
  have countable : world.writer.Countable step := by
    cases step with
    | send buf => exact fits.1
    | _ => trivial
  have grows := step_grows intact.writerPaths step
  have numbered := step_numbered intact.numbered intact.writerPaths step countable
  refine ⟨step_buffered intact.writerPaths step named, intact.readerPaths, numbered, ?_, ?_, ?_,
    fun path => (intact.delivered path).trans (grows.written path)⟩
  · have count := intact.numbered.count
    have inRange := intact.inRange
    cases step with
    | send buf =>
      have room : world.writer.stream.nextPn < usizeMax := fits.1
      rw [List.length_append, newNumbers, List.length_singleton]
      omega
    | _ => rwa [newNumbers_eq_nil (by simp), List.append_nil]
  · intro payload member
    rcases List.mem_append.mp member with old | new
    · exact intact.short payload old
    · cases step with
      | send buf =>
        have packet := List.mem_singleton.mp new
        unfold packetOf at packet
        split_ifs at packet
        cases packet
        exact fits.2
      | _ => cases new
  · refine intact.received.grow ?_ grows.frames
    intro path last member
    exact (intact.numbered.fin path last (mem_ofLane.mp member)).1

theorem Intact.writerPoll {call : PollCall} (wired : world.Wired (.writer, call))
    (spared : world.Spared (.writer, call)) :
    ∃ more, (world.poll (.writer, call)).Intact (numbers ++ more) := by
  have along := along_and wired.1 spared
  change ∃ more, ({ world with writer := world.writer.poll call } : World).Intact (numbers ++ more)
  rw [poll_eq]
  have keeps : ∀ endpoint step,
      (∃ more, ({ world with writer := endpoint } : World).Intact (numbers ++ more)) →
      (endpoint.Named step ∧ Fits endpoint step) →
        ∃ more, ({ world with writer := endpoint.step step } : World).Intact (numbers ++ more) := by
    rintro endpoint step ⟨more, before⟩ ⟨named, fits⟩
    exact ⟨_, (List.append_assoc _ _ _) ▸ before.writerStep named fits⟩
  exact takeSteps_keeps keeps along ⟨[], by rwa [List.append_nil]⟩

theorem Intact.readerSteps {steps : List Step} (named : Along Named steps world.reader)
    (forgets : Along Forgets steps world.reader)
    (delivered : ∀ path, (takeSteps steps world.reader).stream.log.takenOn path <+:
      world.writer.stream.log.writtenOn path) :
    ({ world with reader := takeSteps steps world.reader } : World).Intact numbers := by
  induction steps generalizing world with
  | nil => exact intact
  | cons step steps ih =>
    have paths := step_buffered intact.readerPaths step named.1
    have received := step_received intact.received intact.readerPaths intact.inRange intact.valid
      intact.arrived step named.1 forgets.1
    have grows := takeSteps_grows paths named.2
    have after : ({ world with reader := world.reader.step step } : World).Intact numbers :=
      ⟨intact.writerPaths, paths, intact.numbered, intact.inRange, intact.short, received,
        fun path => (grows.taken path).trans (delivered path)⟩
    exact ih after named.2 forgets.2 delivered

theorem Intact.readerPoll {call : PollCall} (wired : world.Wired (.reader, call))
    (spared : world.Spared (.reader, call)) :
    (world.poll (.reader, call)).Intact numbers := by
  have delivered := wired.2.all
  change ({ world with reader := world.reader.poll call } : World).Intact numbers
  change ∀ path, (world.reader.poll call).stream.log.takenOn path <+: _ at delivered
  rw [poll_eq] at delivered ⊢
  exact intact.readerSteps wired.1 spared delivered

/-- Every run keeps the two ends in order. -/
theorem run_intact {calls : List (Side × PollCall)} (wired : AlongRun Wired calls world)
    (spared : AlongRun Spared calls world) :
    ∃ all, (world.run calls).Intact all := by
  induction calls generalizing world numbers with
  | nil => exact ⟨numbers, intact⟩
  | cons call calls ih =>
    obtain ⟨side, call⟩ := call
    cases side with
    | writer =>
      obtain ⟨more, after⟩ := intact.writerPoll wired.1 spared.1
      exact ih after wired.2 spared.2
    | reader => exact ih (intact.readerPoll wired.1 spared.1) wired.2 spared.2

end

theorem new_received (streams : List PathId) (receiver : Bool) (carried : PathId → List Frame) :
    (Endpoint.new streams receiver).Received [] carried := by
  have nothing : ∀ path, (Endpoint.new streams receiver).stream.log.takenOn path = [] := fun _ => rfl
  have empty : ∀ path, PathState (carried path) [] (Endpoint.new streams receiver).stream.inbox [] :=
    fun path => ⟨[], List.nil_prefix, rfl, nofun⟩
  refine ⟨⟨Nat.le_refl 1, ?_, rfl, ?_⟩, ?_, ?_, ?_, ?_⟩
  · intro index before
    exact absurd before (by change ¬index + 1 < 1; omega)
  · intro pn payload found
    cases found
  · intro last found
    cases found
  · exact nofun
  · intro sub member
    obtain ⟨path, inside, rfl⟩ := List.mem_map.mp member
    exact empty path
  · intro path absent
    exact ⟨[], empty path, rfl⟩

theorem new_intact {writerPaths readerPaths : List PathId} (writerNodup : writerPaths.Nodup)
    (readerNodup : readerPaths.Nodup) (writerReceiver readerReceiver : Bool) :
    (new writerPaths writerReceiver readerPaths readerReceiver).Intact [] :=
  ⟨new_buffered writerNodup writerReceiver, new_buffered readerNodup readerReceiver,
    new_numbered writerPaths writerReceiver, by decide, nofun,
    new_received readerPaths readerReceiver _, fun _ => List.nil_prefix⟩

/-! ### What the reader gets -/

theorem Intact.given_prefix (intact : world.Intact numbers) :
    world.reader.given <+: world.writer.accepted := by
  have bytes := intact.received.sound.bytes
  have expected := intact.received.sound.expected_le
  have part := payloads_take_prefix numbers
    (show world.reader.stream.inbox.expectedReadPn - 1 ≤ numbers.length by omega)
  rw [List.take_length, ← intact.numbered.accepted] at part
  exact List.IsPrefix.trans ⟨_, bytes⟩ part

/-- The end of the stream comes behind the bytes in front of the closing frame. -/
theorem Intact.ended_mark (intact : world.Intact numbers) (ended : world.reader.ended = true) :
    ∃ mark, world.writer.finMark = some mark ∧ mark <+: world.reader.given := by
  obtain ⟨path, last, member, part⟩ := intact.received.ended ended
  exact ⟨_, (intact.numbered.fin path last (mem_ofLane.mp member)).2, part⟩

def Holds (reader : Endpoint) (path : PathId) (pn : Nat) (payload : Bytes) : Prop :=
  pn < reader.stream.inbox.expectedReadPn ∨
    reader.stream.inbox.reorderBuffer.lookup pn = some payload ∨
    ∃ sub ∈ reader.stream.subs, sub.stream = path ∧ ∃ front back,
      sub.readBuf = frames.encodeAll front ++ ((Frame.data pn payload).encode ++ back)

/-- Of the frames that arrived whole, those that are not settled are still in
front of the reader. -/
theorem unsettled_of_state {carried arrived : List Frame} {taken rest : Bytes} {inbox : Reordering}
    (state : PathState carried taken inbox rest) (part : arrived <+: carried)
    (whole : frames.encodeAll arrived <+: taken) {frame : Frame} (member : frame ∈ arrived) :
    inbox.Settles frame ∨
      ∃ extra, frame ∈ extra ∧ frames.encodeAll extra <+: rest ∧ ∀ one ∈ extra, one ∈ carried := by
  obtain ⟨before, early, bytes, settled⟩ := state
  rcases List.prefix_or_prefix_of_prefix part early with ahead | behind
  · exact .inl (settled frame (ahead.subset member))
  · obtain ⟨extra, rfl⟩ := behind
    rcases List.mem_append.mp member with old | new
    · exact .inl (settled frame old)
    · refine .inr ⟨extra, new, ?_, ?_⟩
      · rw [bytes, Framing.Codec.encodeAll_append] at whole
        exact (List.prefix_append_right_inj _).mp whole
      · intro one inside
        exact part.subset (List.mem_append_right _ inside)

theorem Intact.holds (intact : world.Intact numbers) {path : PathId} {arrived : List Frame}
    (part : arrived <+: world.writer.stream.log.framesOn path)
    (whole : frames.encodeAll arrived <+: world.reader.stream.log.takenOn path) {pn : Nat}
    {payload : Bytes} (member : Frame.data pn payload ∈ arrived) :
    Holds world.reader path pn payload := by
  by_cases known : path ∈ world.reader.stream.subs.map SubConnection.stream
  · obtain ⟨sub, inside, rfl⟩ := List.mem_map.mp known
    rcases unsettled_of_state (intact.received.reading sub inside) part whole member with
      (delivered | waiting) | ⟨extra, inExtra, arrives, _⟩
    · exact .inl delivered
    · exact .inr (.inl waiting)
    · obtain ⟨front, back, rfl⟩ := List.append_of_mem inExtra
      obtain ⟨rest, split⟩ := arrives
      refine .inr (.inr ⟨sub, inside, rfl, front, frames.encodeAll back ++ rest, ?_⟩)
      rw [← split, Framing.Codec.encodeAll_append, Framing.Codec.encodeAll_cons,
        List.append_assoc, List.append_assoc]
      rfl
  · obtain ⟨rest, state, incomplete⟩ := intact.received.forgotten path known
    rcases unsettled_of_state state part whole member with
      (delivered | waiting) | ⟨extra, inExtra, arrives, within⟩
    · exact .inl delivered
    · exact .inr (.inl waiting)
    · have valid : ∀ frame ∈ extra, frames.Valid frame :=
        fun frame inside => (intact.valid path frame (within frame inside)).1
      exact absurd incomplete (frames.next_ne_none valid (List.ne_nil_of_mem inExtra) arrives)

end World

open World in
/-- In every run whose packets fit their fields and whose reader forgets no path
with a whole frame, the bytes given out are the first of those accepted, the end
of the stream is reported behind all bytes in front of the closing frame, and a
packet that arrived whole on a path is kept until it is delivered. -/
theorem stream_integrity {writerPaths readerPaths : List PathId} (writerNodup : writerPaths.Nodup)
    (readerNodup : readerPaths.Nodup) (writerReceiver readerReceiver : Bool)
    {calls : List (Side × PollCall)}
    (wired : AlongRun Wired calls (new writerPaths writerReceiver readerPaths readerReceiver))
    (spared : AlongRun Spared calls (new writerPaths writerReceiver readerPaths readerReceiver)) :
    let world := (new writerPaths writerReceiver readerPaths readerReceiver).run calls
    world.reader.given <+: world.writer.accepted ∧
      (world.reader.ended = true →
        ∃ mark, world.writer.finMark = some mark ∧ mark <+: world.reader.given) ∧
      ∀ path arrived pn payload, arrived <+: world.writer.stream.log.framesOn path →
        frames.encodeAll arrived <+: world.reader.stream.log.takenOn path →
          Frame.data pn payload ∈ arrived → Holds world.reader path pn payload := by
  intro world
  obtain ⟨all, intact⟩ := run_intact
    (new_intact writerNodup readerNodup writerReceiver readerReceiver) wired spared
  exact ⟨intact.given_prefix, intact.ended_mark,
    fun path arrived pn payload part whole member => intact.holds part whole member⟩

def readInput (remaining : Nat) (reads : List ReadOutcome) : ReadInput :=
  { arrivals := { streams := [], ended := false }, remaining, reads }

def shutdownInput (writes : List WriteOutcome) : ShutdownInput :=
  { arrivals := { streams := [], ended := false }, writes, shutdownsPending := [] }

/-- Two packets and the end over two paths, one of which fails behind a piece of
the first packet. -/
def twoPathCalls : List (Side × PollCall) :=
  [(.writer, .write (writeInput [] [.ready 5, .pending, .pending]) [7]),
    (.writer, .write (writeInput [] [.failed, .ready 29]) [8, 9]),
    (.reader, .read (readInput 4 [.ready (Frame.data 1 [7]).encode, .ready [1, 0, 0, 0, 0]])),
    (.reader, .read (readInput 4 [.ready (Frame.data 2 [8, 9]).encode, .failed])),
    (.writer, .shutdown (shutdownInput [.ready 9])),
    (.reader, .read (readInput 4 [.ready (Frame.fin 2).encode]))]

open World in
theorem stream_integrity_two_paths :
    let world := (new [0, 1] false [1, 0] false).run twoPathCalls
    world.reader.given <+: world.writer.accepted ∧ world.reader.given = [7, 8, 9] ∧
      world.reader.ended = true :=
  ⟨(@stream_integrity [0, 1] [1, 0] (by decide) (by decide) false false twoPathCalls
    (by decide +kernel) (by decide +kernel)).1, by decide +kernel, by decide +kernel⟩

/-! ### A packet too long for its length field -/

/-- A packet whose bytes behind the first are the header of another. -/
def disguised (rest : Bytes) : Bytes :=
  7 :: 1 :: 0 :: 0 :: 0 :: 0 :: 0 :: 0 :: 0 :: 2 :: 0 :: 0 :: 0 :: 1 :: 9 :: 0 :: rest

/-- The first bytes of the frame, if the length field says one. -/
def misread : Bytes :=
  (Frame.data 1 [7]).encode ++ (Frame.data 2 [9]).encode

theorem encode_disguised {rest : Bytes} (long : (disguised rest).length = 4294967297) :
    (Frame.data 1 (disguised rest)).encode = misread ++ 0 :: rest := by
  change mtypData :: (Bytes.u64Bytes 1 ++ (Bytes.u32Bytes (disguised rest).length ++ _)) = _
  rw [long]
  rfl

def longCalls (rest : Bytes) : List (Side × PollCall) :=
  [(.writer, .write (writeInput [] [.ready 28]) (disguised rest)),
    (.reader, .read (readInput 8 [.ready misread]))]

def longQueued (rest code : Bytes) : MptpStream :=
  { MptpStream.new [0] false with
    subs := [{ SubConnection.new 0 with writeBuf := code }]
    nextPn := 2
    log := { (MptpStream.new [0] false).log with appended := [(0, .data 1 (disguised rest))] } }

def longSent (rest : Bytes) : Endpoint :=
  { Endpoint.new [0] false with
    stream :=
      { longQueued rest (0 :: rest) with
        log := { (longQueued rest []).log with written := [(0, misread)] } }
    accepted := disguised rest }

theorem poll_longCalls {rest : Bytes} (long : (disguised rest).length = 4294967297) :
    (Endpoint.new [0] false).poll (.write (writeInput [] [.ready 28]) (disguised rest)) =
      longSent rest := by
  have queued : (Endpoint.new [0] false).poll
      (.write (writeInput [] [.ready 28]) (disguised rest)) =
        { Endpoint.new [0] false with
          stream := ((longQueued rest (Frame.data 1 (disguised rest)).encode).pollFlush
            (flushOnly [.ready 28])).2
          accepted := disguised rest } := rfl
  rw [queued, encode_disguised long]
  rfl

open World in
/-- The reader takes the bytes of the long packet for packets of their own. -/
theorem run_longCalls {rest : Bytes} (long : (disguised rest).length = 4294967297) :
    let world := (new [0] false [0] false).run (longCalls rest)
    AlongRun Wired (longCalls rest) (new [0] false [0] false) ∧
      world.reader.given = [7, 9] ∧ ¬world.reader.given <+: world.writer.accepted := by
  have sent : (new [0] false [0] false).poll
      (.writer, .write (writeInput [] [.ready 28]) (disguised rest)) =
        { writer := longSent rest, reader := Endpoint.new [0] false } := by
    change ({ writer := _, reader := _ } : World) = _
    rw [← poll_longCalls long]
    rfl
  have world : (new [0] false [0] false).run (longCalls rest) =
      ({ writer := longSent rest, reader := Endpoint.new [0] false } : World).poll
        (.reader, .read (readInput 8 [.ready misread])) := by
    rw [← sent]
    rfl
  have given : ((new [0] false [0] false).run (longCalls rest)).reader.given = [7, 9] := by
    rw [world]
    rfl
  have accepted : ((new [0] false [0] false).run (longCalls rest)).writer.accepted =
      disguised rest := by
    rw [world]
    rfl
  refine ⟨⟨⟨?_, ?_⟩, ⟨?_, ?_⟩, trivial⟩, given, ?_⟩
  · exact ⟨List.nodup_singleton 0, trivial, trivial, List.nodup_singleton 0, trivial, trivial,
      trivial⟩
  · intro path member
    rw [sent] at member
    cases member
  · rw [sent]
    exact ⟨List.nodup_singleton 0, trivial, trivial, trivial, trivial, trivial⟩
  · rw [sent]
    intro path member
    cases List.mem_singleton.mp member
    exact List.prefix_rfl
  · rw [given, accepted]
    rintro ⟨more, impossible⟩
    cases impossible

theorem length_disguised (count : Nat) :
    (disguised (List.replicate count 0)).length = count + 16 := by
  simp only [disguised, List.length_cons, List.length_replicate]

open World in
theorem long_packet_misread : ∃ rest : Bytes,
      let world := (new [0] false [0] false).run (longCalls rest)
      AlongRun Wired (longCalls rest) (new [0] false [0] false) ∧
        world.reader.given = [7, 9] ∧ ¬world.reader.given <+: world.writer.accepted :=
  ⟨List.replicate 4294967281 0, run_longCalls (length_disguised 4294967281)⟩

end Sail.Protocol.Mptp
