/-
Packet numbers of a multipath stream.

Each number that was taken belongs to one packet, and the packets that some path
carries are, in order, the bytes that were accepted. A number is lost when the
test behind a flush finds room on a path that is closed.
-/

import Sail.Protocol.Mptp.Sending

namespace Sail.Protocol.Mptp

variable {endpoint : Endpoint}

namespace Endpoint

variable {endpoint : Endpoint} {numbers : List (Option Bytes)}

def payloads (numbers : List (Option Bytes)) : Bytes :=
  numbers.flatMap (fun payload => payload.getD [])

@[simp] theorem payloads_append (first second : List (Option Bytes)) :
    payloads (first ++ second) = payloads first ++ payloads second :=
  List.flatMap_append

theorem payloads_some (packets : List Bytes) : payloads (packets.map some) = packets.flatten := by
  induction packets with
  | nil => rfl
  | cons packet packets ih =>
    rw [List.flatten_cons, ← ih]
    rfl

/-- The packets of the numbers taken so far; none where no path carries one. -/
structure Numbered (endpoint : Endpoint) (numbers : List (Option Bytes)) : Prop where
  count : endpoint.stream.nextPn = numbers.length + 1
  accepted : endpoint.accepted = payloads numbers
  positive : ∀ path payload, (path, Frame.data 0 payload) ∉ endpoint.stream.log.appended
  data : ∀ index payload, numbers[index]? = some (some payload) ↔
    ∃ path, (path, Frame.data (index + 1) payload) ∈ endpoint.stream.log.appended
  fin : ∀ path last, (path, Frame.fin last) ∈ endpoint.stream.log.appended →
    last ≤ numbers.length ∧ endpoint.finMark = some (payloads (numbers.take last))
  marked : endpoint.stream.finSent = endpoint.finMark.isSome
  only : ∀ entry ∈ endpoint.stream.log.appended,
    (∃ pn payload, entry.2 = .data pn payload) ∨ ∃ last, entry.2 = .fin last

theorem Numbered.of_same {after : Endpoint} (numbered : endpoint.Numbered numbers)
    (sameNext : after.stream.nextPn = endpoint.stream.nextPn)
    (sameAccepted : after.accepted = endpoint.accepted)
    (sameAppended : after.stream.log.appended = endpoint.stream.log.appended)
    (sameFin : after.stream.finSent = endpoint.stream.finSent)
    (sameMark : after.finMark = endpoint.finMark) : after.Numbered numbers := by
  refine ⟨by rw [sameNext, numbered.count], by rw [sameAccepted, numbered.accepted], ?_, ?_, ?_,
    by rw [sameFin, sameMark, numbered.marked], ?_⟩
  · rw [sameAppended]
    exact numbered.positive
  · rw [sameAppended]
    exact numbered.data
  · rw [sameAppended, sameMark]
    exact numbered.fin
  · rw [sameAppended]
    exact numbered.only

theorem Numbered.queueFin (numbered : endpoint.Numbered numbers) :
    (endpoint.step .queueFin).Numbered numbers := by
  by_cases sent : endpoint.stream.finSent = true
  · have same : endpoint.step .queueFin = endpoint := by
      simp only [step, MptpStream.queueFin, if_pos sent]
    rw [same]
    exact numbered
  · have unmarked : endpoint.finMark = none := by
      rw [← Option.not_isSome_iff_eq_none, ← numbered.marked]
      exact sent
    have noFin : ∀ path last, (path, Frame.fin last) ∉ endpoint.stream.log.appended := by
      intro path last member
      rw [(numbered.fin path last member).2] at unmarked
      cases unmarked
    have last : wrappingSub endpoint.stream.nextPn 1 = numbers.length := by
      rw [numbered.count, wrappingSub_eq (Nat.le_add_left _ _), Nat.add_sub_cancel]
    have after : endpoint.step .queueFin =
        { endpoint with
          stream :=
            { endpoint.stream.append (.fin numbers.length) (fun sub => !sub.closed) with
              finSent := true }
          finMark := some endpoint.accepted } := by
      simp only [step, MptpStream.queueFin, if_neg sent, last]
    have appended : ∀ entry, entry ∈ (endpoint.step .queueFin).stream.log.appended ↔
        entry ∈ endpoint.stream.log.appended ∨ ∃ sub ∈ endpoint.stream.subs, sub.closed = false ∧
            (sub.stream, Frame.fin numbers.length) = entry := by
      intro entry
      rw [after]
      change entry ∈ endpoint.stream.log.appended ++ _ ↔ _
      rw [List.mem_append, List.mem_map]
      simp only [List.mem_filter, Bool.not_eq_true', and_assoc]
    have noData : ∀ path pn payload,
        (path, Frame.data pn payload) ∈ (endpoint.step .queueFin).stream.log.appended ↔
          (path, Frame.data pn payload) ∈ endpoint.stream.log.appended := by
      intro path pn payload
      rw [appended, or_iff_left]
      rintro ⟨sub, _, _, same⟩
      cases same
    have sameNext : (endpoint.step .queueFin).stream.nextPn = endpoint.stream.nextPn := by
      rw [after]
      rfl
    have sameAccepted : (endpoint.step .queueFin).accepted = endpoint.accepted := by
      rw [after]
    have mark : (endpoint.step .queueFin).finMark = some endpoint.accepted := by
      rw [after]
    have finSent : (endpoint.step .queueFin).stream.finSent = true := by
      rw [after]
    generalize endpoint.step .queueFin = queued at *
    refine ⟨by rw [sameNext, numbered.count], by rw [sameAccepted, numbered.accepted], ?_, ?_, ?_,
      by rw [finSent, mark]; rfl, ?_⟩
    · intro path payload
      rw [noData]
      exact numbered.positive path payload
    · intro index payload
      simp only [noData]
      exact numbered.data index payload
    · intro path number member
      rcases (appended _).mp member with old | ⟨sub, _, _, same⟩
      · exact absurd old (noFin path number)
      · cases same
        rw [mark, numbered.accepted, List.take_length]
        exact ⟨Nat.le_refl _, rfl⟩
    · intro entry member
      rcases (appended _).mp member with old | ⟨sub, _, _, rfl⟩
      · exact numbered.only entry old
      · exact .inr ⟨numbers.length, rfl⟩

def packetOf (endpoint : Endpoint) (buf : Bytes) : Option Bytes :=
  if endpoint.stream.subs.any SubConnection.takes then some buf else none

theorem Numbered.send (numbered : endpoint.Numbered numbers)
    (inRange : endpoint.stream.nextPn < usizeMax) (buf : Bytes) :
    (endpoint.step (.send buf)).Numbered (numbers ++ [endpoint.packetOf buf]) := by
  have count := numbered.count
  have appended : ∀ entry, entry ∈ (endpoint.step (.send buf)).stream.log.appended ↔
      entry ∈ endpoint.stream.log.appended ∨ ∃ sub ∈ endpoint.stream.subs, sub.takes = true ∧
          (sub.stream, Frame.data (numbers.length + 1) buf) = entry := by
    intro entry
    change entry ∈ endpoint.stream.log.appended ++ _ ↔ _
    rw [List.mem_append, List.mem_map, ← count]
    simp only [List.mem_filter, and_assoc]
  have next : (endpoint.step (.send buf)).stream.nextPn = endpoint.stream.nextPn + 1 :=
    wrappingAdd_eq inRange
  have accepted : (endpoint.step (.send buf)).accepted =
      endpoint.accepted ++ (endpoint.packetOf buf).getD [] := by
    unfold packetOf
    change (if _ then _ else _) = _
    split_ifs
    · rfl
    · rw [Option.getD_none, List.append_nil]
  have mark : (endpoint.step (.send buf)).finMark = endpoint.finMark := rfl
  have finSent : (endpoint.step (.send buf)).stream.finSent = endpoint.stream.finSent := rfl
  generalize endpoint.step (.send buf) = after at *
  refine ⟨?_, ?_, ?_, ?_, ?_, by rw [finSent, mark, numbered.marked], ?_⟩
  · rw [next, count, List.length_append, List.length_singleton]
  · rw [accepted, numbered.accepted, payloads_append]
    simp [payloads]
  · intro path payload member
    rcases (appended _).mp member with old | ⟨sub, _, _, same⟩
    · exact numbered.positive path payload old
    · cases same
  · intro index payload
    simp only [appended]
    rcases Nat.lt_trichotomy index numbers.length with below | here | above
    · rw [List.getElem?_append_left below, numbered.data index payload]
      refine exists_congr (fun path => ?_)
      rw [or_iff_left]
      rintro ⟨sub, _, _, same⟩
      cases same
      exact Nat.lt_irrefl _ below
    · subst here
      rw [List.getElem?_concat_length, Option.some.injEq]
      have notOld : ∀ path, (path, Frame.data (numbers.length + 1) payload) ∉
          endpoint.stream.log.appended := by
        intro path member
        have found := (numbered.data numbers.length payload).mpr ⟨path, member⟩
        rw [List.getElem?_eq_none (Nat.le_refl _)] at found
        cases found
      simp only [notOld, false_or]
      unfold packetOf
      constructor
      · intro packet
        split_ifs at packet with taken
        obtain ⟨sub, member, takes⟩ := List.any_eq_true.mp taken
        cases packet
        exact ⟨sub.stream, sub, member, takes, rfl⟩
      · rintro ⟨path, sub, member, takes, same⟩
        rw [if_pos (List.any_eq_true.mpr ⟨sub, member, takes⟩)]
        cases same
        rfl
    · rw [List.getElem?_eq_none (by rw [List.length_append, List.length_singleton]; omega)]
      refine ⟨nofun, ?_⟩
      rintro ⟨path, old | ⟨sub, _, _, same⟩⟩
      · have found := (numbered.data index payload).mpr ⟨path, old⟩
        rw [List.getElem?_eq_none (Nat.le_of_lt above)] at found
        cases found
      · cases same
        exact absurd above (Nat.lt_irrefl _)
  · intro path last member
    rcases (appended _).mp member with old | ⟨sub, _, _, same⟩
    · obtain ⟨bounded, marked⟩ := numbered.fin path last old
      rw [List.length_append, mark, marked, List.take_append_of_le_length bounded]
      exact ⟨by omega, rfl⟩
    · cases same
  · intro entry member
    rcases (appended _).mp member with old | ⟨sub, _, _, rfl⟩
    · exact numbered.only entry old
    · exact .inl ⟨_, _, rfl⟩

/-! ### Runs -/

def newNumbers (endpoint : Endpoint) : Step → List (Option Bytes)
  | .send buf => [endpoint.packetOf buf]
  | _ => []

def Countable (endpoint : Endpoint) : Step → Prop
  | .send _ => endpoint.stream.nextPn < usizeMax
  | _ => True

theorem join_same (arrivals : Arrivals) (stream : MptpStream) :
    (stream.join arrivals).nextPn = stream.nextPn ∧
      (stream.join arrivals).log.appended = stream.log.appended ∧
      (stream.join arrivals).finSent = stream.finSent := by
  unfold MptpStream.join
  split_ifs <;> exact ⟨rfl, rfl, rfl⟩

theorem cleanup_same (stream : MptpStream) :
    stream.cleanup.nextPn = stream.nextPn ∧ stream.cleanup.log = stream.log ∧
      stream.cleanup.finSent = stream.finSent := by
  unfold MptpStream.cleanup
  split_ifs <;> exact ⟨rfl, rfl, rfl⟩

/-- The steps that neither take a number nor close the stream. -/
theorem step_numbered_same (numbered : endpoint.Numbered numbers)
    (buffered : endpoint.stream.Buffered) {step : Step} (noSend : ∀ buf, step ≠ .send buf)
    (noFin : step ≠ .queueFin) : (endpoint.step step).Numbered numbers := by
  cases step with
  | send buf => exact absurd rfl (noSend buf)
  | queueFin => exact absurd rfl noFin
  | join arrivals =>
    obtain ⟨next, appended, finSent⟩ := join_same arrivals endpoint.stream
    exact numbered.of_same next rfl appended finSent rfl
  | cleanup =>
    obtain ⟨next, log, finSent⟩ := cleanup_same endpoint.stream
    exact numbered.of_same next rfl (congrArg PathLog.appended log) finSent rfl
  | writePaths closing writes =>
    have wrote := writeSubs_spec closing buffered.nodup endpoint.stream.log writes
    exact numbered.of_same rfl rfl (congrArg PathLog.appended wrote.sameLog :) rfl rfl
  | readPaths reads =>
    have took := readSubs_spec buffered.nodup endpoint.stream.log reads
    exact numbered.of_same rfl rfl (congrArg PathLog.appended took.sameLog :) rfl rfl
  | recheck => exact numbered
  | _ => exact numbered.of_same rfl rfl rfl rfl rfl

theorem newNumbers_eq_nil {step : Step} (noSend : ∀ buf, step ≠ .send buf) :
    endpoint.newNumbers step = [] := by
  cases step with
  | send buf => exact absurd rfl (noSend buf)
  | _ => rfl

theorem step_numbered (numbered : endpoint.Numbered numbers) (buffered : endpoint.stream.Buffered)
    (step : Step) (countable : endpoint.Countable step) :
    (endpoint.step step).Numbered (numbers ++ endpoint.newNumbers step) := by
  by_cases sends : ∃ buf, step = .send buf
  · obtain ⟨buf, rfl⟩ := sends
    exact numbered.send countable buf
  · have noSend : ∀ buf, step ≠ .send buf := fun buf same => sends ⟨buf, same⟩
    rw [newNumbers_eq_nil noSend, List.append_nil]
    by_cases closes : step = .queueFin
    · rw [closes]
      exact numbered.queueFin
    · exact step_numbered_same numbered buffered noSend closes

theorem new_buffered {streams : List PathId} (nodup : streams.Nodup) (receiver : Bool) :
    (new streams receiver).stream.Buffered := by
  have names : (streams.map SubConnection.new).map SubConnection.stream = streams := by
    rw [List.map_map]
    exact List.map_id _
  refine ⟨?_, ?_, ?_, fun _ => List.prefix_rfl, fun _ _ => ⟨rfl, rfl, rfl⟩⟩
  · change ((streams.map SubConnection.new).map SubConnection.stream).Nodup
    rw [names]
    exact nodup
  · intro sub member
    obtain ⟨path, inside, rfl⟩ := List.mem_map.mp member
    exact inside
  · intro sub member
    obtain ⟨path, inside, rfl⟩ := List.mem_map.mp member
    rfl

theorem new_numbered (streams : List PathId) (receiver : Bool) :
    (new streams receiver).Numbered [] := by
  have nothing : (new streams receiver).stream.log.appended = [] := rfl
  refine ⟨rfl, rfl, ?_, ?_, ?_, rfl, ?_⟩
  · intro path payload
    exact List.not_mem_nil
  · intro index payload
    rw [nothing]
    simp
  · intro path last member
    cases member
  · intro entry member
    cases member

/-- A number is taken only for a packet that some open path takes. -/
def Taken (endpoint : Endpoint) : Step → Prop
  | .send _ => endpoint.stream.subs.any SubConnection.takes = true
  | _ => True

/-- Room that is found behind a flush is room on an open path. -/
def Rechecks (endpoint : Endpoint) : Step → Prop
  | .recheck => endpoint.stream.allFull = true → endpoint.stream.stillFull = true
  | _ => True

/-- Paths have names of their own, numbers do not run out, and the test behind a
flush is right. -/
def Carries (endpoint : Endpoint) (step : Step) : Prop :=
  endpoint.Named step ∧ endpoint.Countable step ∧ endpoint.Rechecks step

instance (endpoint : Endpoint) (step : Step) : Decidable (endpoint.Carries step) := by
  unfold Carries
  cases step <;> unfold Named Countable Rechecks <;> infer_instance

theorem taken_of_noSend {steps : List Step} (noSend : ∀ buf, Step.send buf ∉ steps)
    (endpoint : Endpoint) : Along Taken steps endpoint := by
  induction steps generalizing endpoint with
  | nil => trivial
  | cons first steps ih =>
    refine ⟨?_, ih (fun buf member => noSend buf (List.mem_cons_of_mem _ member)) _⟩
    cases first with
    | send buf => exact absurd List.mem_cons_self (noSend buf)
    | _ => trivial

theorem any_takes {stream : MptpStream} (room : ¬stream.allFull = true) :
    stream.subs.any SubConnection.takes = true := by
  unfold MptpStream.allFull at room
  rw [List.all_eq_true] at room
  push Not at room
  obtain ⟨sub, member, takes⟩ := room
  exact List.any_eq_true.mpr ⟨sub, member, by simpa using takes⟩

theorem taken_sendSteps (flush : FlushInput) (buf : Bytes)
    (taken : endpoint.stream.subs.any SubConnection.takes = true) :
    Along Taken (endpoint.stream.sendSteps flush buf) endpoint := by
  refine ⟨taken, taken_of_noSend ?_ _⟩
  intro other member
  split_ifs at member
  simp [MptpStream.flushSteps, MptpStream.newSubsSteps] at member

theorem taken_newSubs (arrivals : Arrivals) (endpoint : Endpoint) :
    Along Taken (MptpStream.newSubsSteps arrivals) endpoint :=
  ⟨trivial, trivial, trivial⟩

theorem taken_flush (input : FlushInput) (endpoint : Endpoint) :
    Along Taken (MptpStream.flushSteps input) endpoint :=
  ⟨trivial, trivial, trivial, trivial⟩

/-- Where the test behind a flush is right, no number is lost. -/
theorem taken_write (input : WriteInput) (buf : Bytes)
    (rechecks : Along Rechecks (endpoint.stream.writeSteps input buf) endpoint) :
    Along Taken (endpoint.stream.writeSteps input buf) endpoint := by
  unfold MptpStream.writeSteps at rechecks ⊢
  dsimp only at rechecks ⊢
  rw [along_append, takeSteps_newSubs] at rechecks ⊢
  refine ⟨taken_newSubs _ _, ?_⟩
  have onward := rechecks.2
  generalize endpoint.stream.pollNewSubs input.arrivals = joined at onward ⊢
  split_ifs at onward ⊢ with useless full still
  · trivial
  · rw [along_append]
    exact ⟨taken_flush _ _, trivial, trivial⟩
  · rw [along_append, takeSteps_flush] at onward ⊢
    refine ⟨taken_flush _ _, trivial, ?_⟩
    have recheck : (joined.pollFlush input.retry).2.allFull = true →
        (joined.pollFlush input.retry).2.stillFull = true := onward.2.1
    exact taken_sendSteps input.flush buf (any_takes (fun all => still (recheck all)))
  · exact taken_sendSteps input.flush buf (any_takes full)

theorem taken_steps {call : PollCall} (rechecks : Along Rechecks (endpoint.steps call) endpoint) :
    Along Taken (endpoint.steps call) endpoint := by
  cases call with
  | write input buf => exact taken_write input buf rechecks
  | flush input => exact taken_flush input endpoint
  | shutdown input => exact ⟨trivial, trivial, trivial, trivial, trivial⟩
  | read input =>
    refine taken_of_noSend ?_ endpoint
    intro buf member
    simp only [steps, MptpStream.readSteps, MptpStream.newSubsSteps,
      MptpStream.handOverSteps] at member
    split_ifs at member <;> simp at member

theorem pollNewSubs_nextPn (arrivals : Arrivals) (stream : MptpStream) :
    (stream.pollNewSubs arrivals).nextPn = stream.nextPn := by
  rw [MptpStream.pollNewSubs, (cleanup_same _).1, (join_same arrivals stream).1]

theorem pollFlush_nextPn (input : FlushInput) (stream : MptpStream) :
    (stream.pollFlush input).2.nextPn = stream.nextPn := by
  rw [pollFlush_stream]
  exact pollNewSubs_nextPn input.arrivals stream

theorem wrappingAdd_one_ne (number : Nat) : wrappingAdd number 1 ≠ number := by
  unfold wrappingAdd usizeMax u64Max
  split_ifs <;> omega

/-- A packet that no open path takes has used up its number. -/
theorem sendPacket_loses {flush : FlushInput} {buf : Bytes} {stream : MptpStream}
    (full : stream.allFull = true) :
    stream.sendPacket flush buf = (.pending, stream.broadcast buf) := by
  unfold MptpStream.sendPacket
  rw [if_neg]
  rw [List.any_eq_true]
  rintro ⟨sub, member, takes⟩
  have refuses := List.all_eq_true.mp full sub member
  rw [takes] at refuses
  cases refuses

/-- A write that is pending has used up no number exactly if the test behind the
flush is right. -/
theorem pollWrite_pending_iff (endpoint : Endpoint) (input : WriteInput) (buf : Bytes) :
    ((endpoint.stream.pollWrite input buf).1 = .pending →
        (endpoint.stream.pollWrite input buf).2.nextPn = endpoint.stream.nextPn) ↔
      Along Rechecks (endpoint.steps (.write input buf)) endpoint := by
  have sameNext := pollNewSubs_nextPn input.arrivals endpoint.stream
  have base : Along Rechecks (MptpStream.newSubsSteps input.arrivals) endpoint :=
    ⟨trivial, trivial, trivial⟩
  have sends : ∀ stream : MptpStream,
      Along Rechecks (stream.sendSteps input.flush buf) { endpoint with stream } := by
    intro stream
    refine ⟨trivial, ?_⟩
    split_ifs
    · exact ⟨trivial, trivial, trivial, trivial⟩
    · trivial
  have fails : ∀ stream : MptpStream, ¬stream.allFull = true →
      (stream.sendPacket input.flush buf).1 ≠ .pending := by
    intro stream room
    rw [sendPacket_result, if_pos (any_takes room)]
    exact nofun
  unfold steps MptpStream.writeSteps MptpStream.pollWrite
  rw [along_append, takeSteps_newSubs, and_iff_right base, ← sameNext]
  generalize endpoint.stream.pollNewSubs input.arrivals = joined
  by_cases empty : joined.subs.isEmpty = true
  · rw [if_pos empty, if_pos (by rw [empty, Bool.true_or])]
    exact ⟨fun _ => trivial, fun _ _ => rfl⟩
  by_cases closed : joined.subs.all SubConnection.closed = true
  · rw [if_neg empty, if_pos closed, if_pos (by rw [closed, Bool.or_true])]
    exact ⟨fun _ => trivial, fun _ _ => rfl⟩
  have useful : ¬(joined.subs.isEmpty || joined.subs.all SubConnection.closed) = true := by
    rw [Bool.or_eq_true, not_or]
    exact ⟨empty, closed⟩
  rw [if_neg empty, if_neg closed, if_neg useful]
  by_cases full : joined.allFull = true
  · rw [if_pos full, if_pos full, along_append, takeSteps_flush]
    have flushed : Along Rechecks (MptpStream.flushSteps input.retry)
        { endpoint with stream := joined } := ⟨trivial, trivial, trivial, trivial⟩
    have retriedNext := pollFlush_nextPn input.retry joined
    rw [and_iff_right flushed, ← retriedNext]
    generalize (joined.pollFlush input.retry).2 = retried
    by_cases still : retried.stillFull = true
    · rw [if_pos still, if_pos still]
      exact ⟨fun _ => ⟨fun _ => still, trivial⟩, fun _ _ => rfl⟩
    · rw [if_neg still, if_neg still]
      constructor
      · intro keeps
        refine ⟨fun all => ?_, sends retried⟩
        rw [sendPacket_loses all] at keeps
        exact absurd (keeps rfl) (wrappingAdd_one_ne _)
      · rintro ⟨recheck, _⟩ pending
        exact absurd pending (fails retried (fun all => still (recheck all)))
  · rw [if_neg full, if_neg full]
    exact ⟨fun _ => sends joined, fun _ pending => absurd pending (fails joined full)⟩

def AllCarried (endpoint : Endpoint) : Prop :=
  endpoint.stream.Buffered ∧ ∃ packets : List Bytes, endpoint.Numbered (packets.map some)

theorem step_allCarried {step : Step} (before : endpoint.AllCarried)
    (condition : endpoint.Carries step ∧ endpoint.Taken step) :
    (endpoint.step step).AllCarried := by
  obtain ⟨buffered, packets, numbered⟩ := before
  obtain ⟨⟨named, countable, _⟩, taken⟩ := condition
  refine ⟨step_buffered buffered step named, ?_⟩
  have after := step_numbered numbered buffered step countable
  cases step with
  | send buf =>
    refine ⟨packets ++ [buf], ?_⟩
    have packet : endpoint.packetOf buf = some buf := if_pos taken
    rw [newNumbers, packet] at after
    rw [List.map_append]
    exact after
  | _ =>
    rw [newNumbers_eq_nil (by simp), List.append_nil] at after
    exact ⟨packets, after⟩

theorem along_and {first second : Endpoint → Step → Prop} {steps : List Step}
    (left : Along first steps endpoint) (right : Along second steps endpoint) :
    Along (fun endpoint step => first endpoint step ∧ second endpoint step) steps endpoint := by
  induction steps generalizing endpoint with
  | nil => trivial
  | cons step steps ih => exact ⟨⟨left.1, right.1⟩, ih left.2 right.2⟩

theorem run_allCarried {streams : List PathId} (nodup : streams.Nodup) (receiver : Bool)
    {calls : List PollCall} (carries : AlongRun Carries calls (new streams receiver)) :
    (run calls (new streams receiver)).AllCarried := by
  have along : AlongRun (fun endpoint step => endpoint.Carries step ∧ endpoint.Taken step) calls
      (new streams receiver) := by
    refine alongRun_imp (fun between call holds => along_and holds (taken_steps ?_)) carries
    exact along_imp (fun _ _ _ all => all.2.2) holds
  exact run_keeps (fun _ _ before condition => step_allCarried before condition) along
    ⟨new_buffered nodup receiver, [], new_numbered streams receiver⟩

end Endpoint

open Endpoint in
/-- In every run in which the test behind a flush is right, each number from one
on belongs to a packet that was put, as one whole frame, in the write buffer of an
open path, and the packets in order are the bytes accepted. A single write that is
pending has used up no number exactly if that test is right. -/
theorem numbers_are_carried {streams : List PathId} (nodup : streams.Nodup) (receiver : Bool)
    {calls : List PollCall} (carries : AlongRun Carries calls (new streams receiver)) :
    let endpoint := run calls (new streams receiver)
    (∃ packets : List Bytes, endpoint.stream.nextPn = packets.length + 1 ∧
        endpoint.accepted = packets.flatten ∧
        ∀ index payload, packets[index]? = some payload ↔
          ∃ path, (path, Frame.data (index + 1) payload) ∈ endpoint.stream.log.appended) ∧
      (∀ sub ∈ endpoint.stream.subs, endpoint.stream.log.writtenOn sub.stream ++ sub.writeBuf =
        frames.encodeAll (endpoint.stream.log.framesOn sub.stream)) ∧
      ∀ (before : Endpoint) input buf,
        ((before.stream.pollWrite input buf).1 = .pending →
            (before.stream.pollWrite input buf).2.nextPn = before.stream.nextPn) ↔
          Along Rechecks (before.steps (.write input buf)) before := by
  intro endpoint
  obtain ⟨buffered, packets, numbered⟩ := run_allCarried nodup receiver carries
  refine ⟨⟨packets, ?_, ?_, ?_⟩, buffered.buffers, pollWrite_pending_iff⟩
  · rw [numbered.count, List.length_map]
  · rw [numbered.accepted, payloads_some]
  · intro index payload
    rw [← numbered.data index payload, List.getElem?_map]
    cases packets[index]? with
    | none | some _ => simp

def flushOnly (writes : List WriteOutcome) : FlushInput :=
  { arrivals := { streams := [], ended := false }, writes }

def writeInput (retry flush : List WriteOutcome) : WriteInput :=
  { arrivals := { streams := [], ended := false }
    retry := flushOnly retry
    flush := flushOnly flush }

open Endpoint in
theorem numbers_are_carried_two_paths :
    let calls := [.write (writeInput [] [.ready 14, .ready 9]) [7], .flush (flushOnly [.failed]),
      .write (writeInput [] [.ready 15]) [8, 9]]
    let endpoint := run calls (new [0, 1] false)
    endpoint.accepted = [7, 8, 9] ∧
      ∃ packets : List Bytes, endpoint.stream.nextPn = packets.length + 1 ∧
        endpoint.accepted = packets.flatten ∧
        ∀ index payload, packets[index]? = some payload ↔
          ∃ path, (path, Frame.data (index + 1) payload) ∈ endpoint.stream.log.appended :=
  ⟨by decide +kernel, (numbers_are_carried (by decide) false (by decide +kernel)).1⟩

/-- A path fails, the other fills up, and then there is one more write. -/
def lossCalls (big : Bytes) : List PollCall :=
  [.write (writeInput [] [.failed, .pending]) [], .write (writeInput [] [.pending]) big]

def failedPath : SubConnection :=
  { SubConnection.new 0 with writeBuf := (Frame.data 1 []).encode, closed := true }

def fullPath (big : Bytes) : SubConnection :=
  { SubConnection.new 1 with
    writeBuf := (Frame.data 1 []).encode ++ (Frame.data 2 big).encode }

open Endpoint in
theorem run_lossCalls (big : Bytes) :
    (run (lossCalls big) (new [0, 1] false)).stream =
      { (new [0, 1] false).stream with
        subs := [failedPath, fullPath big]
        nextPn := 3
        log :=
          { (new [0, 1] false).stream.log with
            appended := [(0, .data 1 []), (1, .data 1 []), (1, .data 2 big)] } } :=
  rfl

theorem fullPath_full {big : Bytes} (large : writeLimit ≤ big.length) :
    (fullPath big).hasRoom = false := by
  unfold SubConnection.hasRoom
  rw [decide_eq_false_iff_not]
  change ¬((Frame.data 1 []).encode ++ (Frame.data 2 big).encode).length ≤ writeLimit
  rw [List.length_append, encode_length_data, encode_length_data, dataHeaderLen]
  omega

open Endpoint in
/-- The write behind it is pending and its number is gone. -/
theorem pollWrite_lossCalls {big : Bytes} (large : writeLimit ≤ big.length) :
    (run (lossCalls big) (new [0, 1] false)).stream.pollWrite (writeInput [.pending] []) [7] =
      (.pending, (run (lossCalls big) (new [0, 1] false)).stream.broadcast [7]) := by
  have refuses : (fullPath big).takes = false := by
    rw [SubConnection.takes, fullPath_full large, Bool.and_false]
  have full : (run (lossCalls big) (new [0, 1] false)).stream.allFull = true := by
    rw [run_lossCalls, MptpStream.allFull, List.all_cons, List.all_cons, refuses]
    rfl
  have joined : (run (lossCalls big) (new [0, 1] false)).stream.pollNewSubs
      (writeInput [.pending] []).arrivals = (run (lossCalls big) (new [0, 1] false)).stream := rfl
  have retried : ((run (lossCalls big) (new [0, 1] false)).stream.pollFlush
      (writeInput [.pending] []).retry).2 = (run (lossCalls big) (new [0, 1] false)).stream := rfl
  have tested : (run (lossCalls big) (new [0, 1] false)).stream.stillFull = false := rfl
  unfold MptpStream.pollWrite
  dsimp only
  rw [joined, if_neg (show ¬(run (lossCalls big) (new [0, 1] false)).stream.subs.isEmpty = true
      from Bool.false_ne_true),
    if_neg (show ¬(run (lossCalls big) (new [0, 1] false)).stream.subs.all SubConnection.closed =
      true from Bool.false_ne_true), if_pos full, retried, tested,
    if_neg Bool.false_ne_true, sendPacket_loses full]

open Endpoint in
theorem number_used_by_pending_write : ∃ big : Bytes,
      let before := (run (lossCalls big) (new [0, 1] false)).stream
      let polled := before.pollWrite (writeInput [.pending] []) [7]
      polled.1 = .pending ∧ before.nextPn = 3 ∧ polled.2.nextPn = 4 ∧
        ∀ path payload, (path, Frame.data 3 payload) ∉ polled.2.log.appended := by
  refine ⟨List.replicate writeLimit 0, ?_⟩
  have large : writeLimit ≤ (List.replicate writeLimit (0 : UInt8)).length := by
    rw [List.length_replicate]
  intro before polled
  have result : polled = (.pending, before.broadcast [7]) := pollWrite_lossCalls large
  have refuses : (fullPath (List.replicate writeLimit 0)).takes = false := by
    rw [SubConnection.takes, fullPath_full large, Bool.and_false]
  rw [result]
  refine ⟨rfl, rfl, rfl, ?_⟩
  intro path payload member
  change (path, Frame.data 3 payload) ∈ before.log.appended ++
    (before.subs.filter SubConnection.takes).map _ at member
  have subs : before.subs = [failedPath, fullPath (List.replicate writeLimit 0)] := rfl
  have nobody : before.subs.filter SubConnection.takes = [] := by
    rw [subs, List.filter_cons_of_neg (by decide), List.filter_cons_of_neg (by rw [refuses]; decide),
      List.filter_nil]
  have appended : before.log.appended = [(0, .data 1 []), (1, .data 1 []),
      (1, .data 2 (List.replicate writeLimit 0))] := rfl
  rw [nobody, List.map_nil, List.append_nil, appended] at member
  simp at member

end Sail.Protocol.Mptp
