/-
One end of a multipath stream over a run of polls.

Every poll is a sequence of a few steps: paths join, closed paths are forgotten,
buffers are written out, a packet is sent, and so on. What holds in every run
follows from what each step keeps.
-/

import Sail.Protocol.Mptp.Stream

namespace Sail.Protocol.Mptp

variable (endpoint : Endpoint)

/-- An end, with the bytes its caller wrote and read so far, the bytes accepted
when the closing frame was queued, and whether the end of the stream was
reported. -/
structure Endpoint where
  stream : MptpStream
  accepted : Bytes
  given : Bytes
  finMark : Option Bytes
  ended : Bool

inductive PollCall where
  | write (input : WriteInput) (buf : Bytes)
  | flush (input : FlushInput)
  | shutdown (input : ShutdownInput)
  | read (input : ReadInput)

inductive Step where
  | join (arrivals : Arrivals)
  | cleanup
  | writePaths (closing : Bool) (writes : List WriteOutcome)
  | recheck
  | send (buf : Bytes)
  | queueFin
  | readPaths (reads : List ReadOutcome)
  | processPaths (progress : Bool)
  | give (remaining : Nat)
  | finish (remaining : Nat)

namespace Endpoint

def new (streams : List PathId) (receiver : Bool) : Endpoint :=
  { stream := MptpStream.new streams receiver
    accepted := []
    given := []
    finMark := none
    ended := false }

def afterRead (endpoint : Endpoint) (remaining : Nat) :
    Poll (Except IoError Bytes) × MptpStream → Endpoint
  | (.ready (.ok bytes), stream) =>
    { endpoint with
      stream
      given := endpoint.given ++ bytes
      ended := endpoint.ended || (bytes.isEmpty && 0 < remaining) }
  | (_, stream) => { endpoint with stream }

def poll (endpoint : Endpoint) : PollCall → Endpoint
  | .write input buf =>
    match endpoint.stream.pollWrite input buf with
    | (.ready (.ok _), stream) =>
      { endpoint with stream, accepted := endpoint.accepted ++ buf }
    | (_, stream) => { endpoint with stream }
  | .flush input => { endpoint with stream := (endpoint.stream.pollFlush input).2 }
  | .shutdown input =>
    { endpoint with
      stream := (endpoint.stream.pollShutdown input).2
      finMark := if endpoint.stream.finSent then endpoint.finMark else some endpoint.accepted }
  | .read input => endpoint.afterRead input.remaining (endpoint.stream.pollRead input)

def run (calls : List PollCall) (endpoint : Endpoint) : Endpoint :=
  calls.foldl poll endpoint

/-! ### Steps -/

def step (endpoint : Endpoint) : Step → Endpoint
  | .join arrivals => { endpoint with stream := endpoint.stream.join arrivals }
  | .cleanup => { endpoint with stream := endpoint.stream.cleanup }
  | .writePaths closing writes =>
    { endpoint with stream := endpoint.stream.writePaths closing writes }
  | .recheck => endpoint
  | .send buf =>
    { endpoint with
      stream := endpoint.stream.broadcast buf
      accepted :=
        if endpoint.stream.subs.any SubConnection.takes then endpoint.accepted ++ buf
        else endpoint.accepted }
  | .queueFin =>
    { endpoint with
      stream := endpoint.stream.queueFin
      finMark := if endpoint.stream.finSent then endpoint.finMark else some endpoint.accepted }
  | .readPaths reads => { endpoint with stream := endpoint.stream.readPaths reads }
  | .processPaths progress => { endpoint with stream := endpoint.stream.processPaths progress }
  | .give remaining =>
    { endpoint with
      stream := (endpoint.stream.give remaining).2
      given := endpoint.given ++ endpoint.stream.inbox.readBuffer.take
        (min remaining endpoint.stream.inbox.readBuffer.length) }
  | .finish remaining =>
    { endpoint with
      ended := endpoint.ended ||
        (endpoint.stream.inbox.finished && endpoint.stream.inbox.readBuffer.isEmpty &&
          0 < remaining) }

def takeSteps (steps : List Step) (endpoint : Endpoint) : Endpoint :=
  steps.foldl step endpoint

end Endpoint

namespace MptpStream

def newSubsSteps (arrivals : Arrivals) : List Step :=
  [.join arrivals, .cleanup]

def flushSteps (input : FlushInput) : List Step :=
  newSubsSteps input.arrivals ++ [.writePaths false input.writes]

def sendSteps (flush : FlushInput) (buf : Bytes) (stream : MptpStream) : List Step :=
  .send buf :: if stream.subs.any SubConnection.takes then flushSteps flush else []

def writeSteps (input : WriteInput) (buf : Bytes) (stream : MptpStream) : List Step :=
  let joined := stream.pollNewSubs input.arrivals
  newSubsSteps input.arrivals ++
    if joined.subs.isEmpty || joined.subs.all SubConnection.closed then []
    else if joined.allFull then
      let retried := (joined.pollFlush input.retry).2
      flushSteps input.retry ++
        (.recheck :: if retried.stillFull then [] else retried.sendSteps input.flush buf)
    else joined.sendSteps input.flush buf

def shutdownSteps (input : ShutdownInput) : List Step :=
  newSubsSteps input.arrivals ++ [.queueFin, .writePaths true input.writes]

def handOverSteps (remaining : Nat) (reset : Bool) (processed : MptpStream) : List Step :=
  if reset then []
  else if !processed.inbox.readBuffer.isEmpty then [.give remaining]
  else if processed.inbox.finished then [.finish remaining]
  else []

def readSteps (input : ReadInput) (stream : MptpStream) : List Step :=
  let joined := stream.pollNewSubs input.arrivals
  newSubsSteps input.arrivals ++
    if !joined.inbox.readBuffer.isEmpty then [.give input.remaining]
    else if joined.inbox.finished then [.finish input.remaining]
    else
      let pass := readSubs joined.subs joined.log input.reads
      let read := joined.readPaths input.reads
      .readPaths input.reads ::
        if read.exhausted then
          if read.inbox.finished then [.finish input.remaining] else []
        else
          .processPaths pass.anyProgress :: handOverSteps input.remaining
              (processSubs read.subs read.inbox pass.anyProgress).reset
              (read.processPaths pass.anyProgress)

end MptpStream

namespace Endpoint

def steps (endpoint : Endpoint) : PollCall → List Step
  | .write input buf => endpoint.stream.writeSteps input buf
  | .flush input => MptpStream.flushSteps input
  | .shutdown input => MptpStream.shutdownSteps input
  | .read input => endpoint.stream.readSteps input

/-! ### A poll is its steps -/

theorem takeSteps_append (first second : List Step) (endpoint : Endpoint) :
    takeSteps (first ++ second) endpoint = takeSteps second (takeSteps first endpoint) :=
  List.foldl_append

theorem takeSteps_cons (first : Step) (steps : List Step) (endpoint : Endpoint) :
    takeSteps (first :: steps) endpoint = takeSteps steps (endpoint.step first) :=
  rfl

theorem takeSteps_newSubs (arrivals : Arrivals) (endpoint : Endpoint) :
    takeSteps (MptpStream.newSubsSteps arrivals) endpoint =
      { endpoint with stream := endpoint.stream.pollNewSubs arrivals } :=
  rfl

theorem pollFlush_stream (input : FlushInput) (stream : MptpStream) :
    (stream.pollFlush input).2 =
      (stream.pollNewSubs input.arrivals).writePaths false input.writes := by
  unfold MptpStream.pollFlush
  dsimp only
  split_ifs <;> rfl

theorem pollShutdown_stream (input : ShutdownInput) (stream : MptpStream) :
    (stream.pollShutdown input).2 =
      (stream.pollNewSubs input.arrivals).queueFin.writePaths true input.writes := by
  unfold MptpStream.pollShutdown
  dsimp only
  split_ifs <;> rfl

theorem takeSteps_flush (input : FlushInput) (endpoint : Endpoint) :
    takeSteps (MptpStream.flushSteps input) endpoint =
      { endpoint with stream := (endpoint.stream.pollFlush input).2 } := by
  rw [pollFlush_stream]
  rfl

theorem poll_flush (input : FlushInput) (endpoint : Endpoint) :
    endpoint.poll (.flush input) = takeSteps (endpoint.steps (.flush input)) endpoint :=
  (takeSteps_flush input endpoint).symm

theorem join_finSent (arrivals : Arrivals) (stream : MptpStream) :
    (stream.pollNewSubs arrivals).finSent = stream.finSent := by
  unfold MptpStream.pollNewSubs MptpStream.join MptpStream.cleanup
  split_ifs <;> rfl

theorem poll_shutdown (input : ShutdownInput) (endpoint : Endpoint) :
    endpoint.poll (.shutdown input) = takeSteps (endpoint.steps (.shutdown input)) endpoint := by
  rw [steps, MptpStream.shutdownSteps, takeSteps_append, takeSteps_newSubs, poll,
    pollShutdown_stream, ← join_finSent input.arrivals]
  rfl

/-- What a packet that gets its number does to the end. -/
theorem takeSteps_send (flush : FlushInput) (buf : Bytes) (endpoint : Endpoint) :
    takeSteps (endpoint.stream.sendSteps flush buf) endpoint =
      { endpoint with
        stream := (endpoint.stream.sendPacket flush buf).2
        accepted :=
          if endpoint.stream.subs.any SubConnection.takes then endpoint.accepted ++ buf
          else endpoint.accepted } := by
  unfold MptpStream.sendSteps MptpStream.sendPacket
  rw [takeSteps_cons]
  by_cases taken : endpoint.stream.subs.any SubConnection.takes = true
  · simp only [if_pos taken, takeSteps_flush, step]
  · simp only [if_neg taken, step, takeSteps, List.foldl_nil]

theorem sendPacket_result (flush : FlushInput) (buf : Bytes) (stream : MptpStream) :
    (stream.sendPacket flush buf).1 =
      if stream.subs.any SubConnection.takes then .ready (.ok buf.length) else .pending := by
  unfold MptpStream.sendPacket
  dsimp only
  split_ifs <;> rfl

variable {stream : MptpStream}

/-- The end after a poll that sent a packet. -/
theorem poll_of_sendPacket {input : WriteInput} {buf : Bytes} {endpoint : Endpoint}
    {flush : FlushInput}
    (sends : endpoint.stream.pollWrite input buf = stream.sendPacket flush buf) :
    endpoint.poll (.write input buf) =
      { endpoint with
        stream := (stream.sendPacket flush buf).2
        accepted :=
          if stream.subs.any SubConnection.takes then endpoint.accepted ++ buf
          else endpoint.accepted } := by
  have result := sendPacket_result flush buf stream
  rw [poll, sends]
  generalize stream.sendPacket flush buf = outcome at result
  obtain ⟨answer, after⟩ := outcome
  dsimp only at result
  by_cases taken : stream.subs.any SubConnection.takes = true
  · rw [if_pos taken] at result
    rw [if_pos taken, result]
  · rw [if_neg taken] at result
    rw [if_neg taken, result]

theorem poll_write (input : WriteInput) (buf : Bytes) (endpoint : Endpoint) :
    endpoint.poll (.write input buf) = takeSteps (endpoint.steps (.write input buf)) endpoint := by
  rw [steps, MptpStream.writeSteps]
  dsimp only
  rw [takeSteps_append, takeSteps_newSubs]
  by_cases empty : (endpoint.stream.pollNewSubs input.arrivals).subs.isEmpty = true
  · rw [if_pos (by rw [empty, Bool.true_or]), poll, MptpStream.pollWrite]
    simp only [if_pos empty]
    rfl
  by_cases closed : (endpoint.stream.pollNewSubs input.arrivals).subs.all SubConnection.closed = true
  · rw [if_pos (by rw [closed, Bool.or_true]), poll, MptpStream.pollWrite]
    simp only [if_neg empty, if_pos closed]
    rfl
  rw [if_neg (by simp only [Bool.or_eq_true, not_or]; exact ⟨empty, closed⟩)]
  by_cases full : (endpoint.stream.pollNewSubs input.arrivals).allFull = true
  · rw [if_pos full, takeSteps_append, takeSteps_flush, takeSteps_cons]
    by_cases still :
        ((endpoint.stream.pollNewSubs input.arrivals).pollFlush input.retry).2.stillFull = true
    · rw [if_pos still, poll, MptpStream.pollWrite]
      simp only [if_neg empty, if_neg closed, if_pos full, if_pos still]
      rfl
    · rw [if_neg still, poll_of_sendPacket (by
        rw [MptpStream.pollWrite]
        simp only [if_neg empty, if_neg closed, if_pos full, if_neg still]
        rfl)]
      exact (takeSteps_send input.flush buf
        { endpoint with
          stream := ((endpoint.stream.pollNewSubs input.arrivals).pollFlush input.retry).2 }).symm
  · rw [if_neg full, poll_of_sendPacket (by
      rw [MptpStream.pollWrite]
      simp only [if_neg empty, if_neg closed, if_neg full]
      rfl)]
    exact (takeSteps_send input.flush buf
      { endpoint with stream := endpoint.stream.pollNewSubs input.arrivals }).symm

theorem afterRead_give {remaining : Nat} (buffered : stream.inbox.readBuffer ≠ []) :
    endpoint.afterRead remaining (stream.give remaining) =
      takeSteps [.give remaining] { endpoint with stream } := by
  have more : ((stream.inbox.readBuffer.take (min remaining stream.inbox.readBuffer.length)).isEmpty
      && 0 < remaining) = false := by
    cases remaining with
    | zero => simp
    | succ remaining =>
      have positive := List.length_pos_of_ne_nil buffered
      rw [Bool.and_eq_false_iff]
      refine .inl ?_
      rw [List.isEmpty_eq_false_iff, ← List.length_pos_iff, List.length_take]
      omega
  change { endpoint with
    stream := _, given := _, ended := endpoint.ended || (_ && decide (0 < remaining)) } = _
  rw [more, Bool.or_false]
  rfl

theorem afterRead_finish (remaining : Nat) (finished : stream.inbox.finished = true)
    (drained : stream.inbox.readBuffer.isEmpty = true) :
    endpoint.afterRead remaining (.ready (.ok []), stream) =
      takeSteps [.finish remaining] { endpoint with stream } := by
  unfold afterRead takeSteps
  simp only [List.foldl_cons, List.foldl_nil, step, finished, drained, List.append_nil,
    Bool.true_and, List.isEmpty_nil]

theorem afterRead_waitFor (remaining : Nat) (progress allEof : Bool) (stream : MptpStream) :
    endpoint.afterRead remaining (stream.waitFor progress allEof) =
      { endpoint with stream } := by
  unfold MptpStream.waitFor
  split_ifs <;> rfl

theorem afterRead_handOver (remaining : Nat) (reset progress allEof : Bool) (stream : MptpStream) :
    endpoint.afterRead remaining (stream.handOver remaining reset progress allEof) =
      takeSteps (MptpStream.handOverSteps remaining reset stream)
        { endpoint with stream } := by
  unfold MptpStream.handOver MptpStream.handOverSteps
  cases reset with
  | true => rfl
  | false =>
    rw [if_neg Bool.false_ne_true, if_neg Bool.false_ne_true]
    by_cases drained : stream.inbox.readBuffer.isEmpty = true
    · have nothing : ¬(!stream.inbox.readBuffer.isEmpty) = true := by simp [drained]
      rw [if_neg nothing, if_neg nothing]
      by_cases complete : stream.inbox.finished = true
      · rw [if_pos complete, if_pos complete]
        exact afterRead_finish endpoint remaining complete drained
      · rw [if_neg complete, if_neg complete]
        exact afterRead_waitFor endpoint _ _ _ stream
    · have something : (!stream.inbox.readBuffer.isEmpty) = true := by simp [drained]
      rw [if_pos something, if_pos something]
      exact afterRead_give endpoint (fun empty => drained (List.isEmpty_iff.mpr empty))

theorem poll_read (input : ReadInput) (endpoint : Endpoint) :
    endpoint.poll (.read input) = takeSteps (endpoint.steps (.read input)) endpoint := by
  rw [steps, MptpStream.readSteps, poll, MptpStream.pollRead]
  dsimp only
  rw [takeSteps_append, takeSteps_newSubs]
  generalize endpoint.stream.pollNewSubs input.arrivals = joined
  by_cases drained : joined.inbox.readBuffer.isEmpty = true
  · have nothing : ¬(!joined.inbox.readBuffer.isEmpty) = true := by simp [drained]
    rw [if_neg nothing, if_neg nothing]
    by_cases finished : joined.inbox.finished = true
    · rw [if_pos finished, if_pos finished]
      exact afterRead_finish endpoint input.remaining finished drained
    · rw [if_neg finished, if_neg finished, takeSteps_cons]
      change _ = takeSteps _ { endpoint with stream := joined.readPaths input.reads }
      have unfinished : ¬(joined.readPaths input.reads).inbox.finished = true := finished
      by_cases exhausted : (joined.readPaths input.reads).exhausted = true
      · rw [if_pos exhausted, if_pos exhausted, if_neg unfinished, if_neg unfinished]
        rfl
      · rw [if_neg exhausted, if_neg exhausted, takeSteps_cons]
        exact afterRead_handOver endpoint _ _ _ _ _
  · have something : (!joined.inbox.readBuffer.isEmpty) = true := by simp [drained]
    rw [if_pos something, if_pos something]
    exact afterRead_give endpoint (fun empty => drained (List.isEmpty_iff.mpr empty))

/-- Every poll is its steps. -/
theorem poll_eq (call : PollCall) :
    endpoint.poll call = takeSteps (endpoint.steps call) endpoint := by
  cases call with
  | write input buf => exact poll_write input buf endpoint
  | flush input => exact poll_flush input endpoint
  | shutdown input => exact poll_shutdown input endpoint
  | read input => exact poll_read input endpoint

/-! ### Conditions along a run -/

def Along (condition : Endpoint → Step → Prop) : List Step → Endpoint → Prop
  | [], _ => True
  | first :: steps, endpoint =>
    condition endpoint first ∧ Along condition steps (endpoint.step first)

def AlongRun (condition : Endpoint → Step → Prop) : List PollCall → Endpoint → Prop
  | [], _ => True
  | call :: calls, endpoint =>
    Along condition (endpoint.steps call) endpoint ∧ AlongRun condition calls (endpoint.poll call)

section Along

variable {condition other : Endpoint → Step → Prop}

instance instDecidableAlong [∀ endpoint step, Decidable (condition endpoint step)] :
    (steps : List Step) → (endpoint : Endpoint) → Decidable (Along condition steps endpoint)
  | [], _ => isTrue trivial
  | first :: steps, endpoint =>
    have := instDecidableAlong steps (endpoint.step first)
    inferInstanceAs (Decidable (_ ∧ _))

instance instDecidableAlongRun [∀ endpoint step, Decidable (condition endpoint step)] :
    (calls : List PollCall) → (endpoint : Endpoint) → Decidable (AlongRun condition calls endpoint)
  | [], _ => isTrue trivial
  | call :: calls, endpoint =>
    have := instDecidableAlongRun calls (endpoint.poll call)
    inferInstanceAs (Decidable (_ ∧ _))

variable {endpoint : Endpoint}

theorem along_append {first second : List Step} : Along condition (first ++ second) endpoint ↔
      Along condition first endpoint ∧ Along condition second (takeSteps first endpoint) := by
  induction first generalizing endpoint with
  | nil => exact ⟨fun along => ⟨trivial, along⟩, And.right⟩
  | cons step steps ih =>
    rw [List.cons_append, Along, Along, ih, and_assoc]
    rfl

theorem along_imp {steps : List Step}
    (weaker : ∀ endpoint, ∀ step ∈ steps,
    condition endpoint step → other endpoint step)
    (along : Along condition steps endpoint) : Along other steps endpoint := by
  induction steps generalizing endpoint with
  | nil => trivial
  | cons step steps ih =>
    exact ⟨weaker endpoint step List.mem_cons_self along.1,
      ih (fun between one member => weaker between one (List.mem_cons_of_mem _ member)) along.2⟩

section

variable {kept : Endpoint → Prop}
  (keeps : ∀ endpoint step, kept endpoint → condition endpoint step → kept (endpoint.step step))

include keeps

/-- What every step keeps holds after the steps of a poll. -/
theorem takeSteps_keeps {steps : List Step} (along : Along condition steps endpoint)
    (before : kept endpoint) : kept (takeSteps steps endpoint) := by
  induction steps generalizing endpoint with
  | nil => exact before
  | cons step steps ih => exact ih along.2 (keeps endpoint step before along.1)

/-- What every step keeps holds after every run. -/
theorem run_keeps {calls : List PollCall} (along : AlongRun condition calls endpoint)
    (before : kept endpoint) : kept (run calls endpoint) := by
  induction calls generalizing endpoint with
  | nil => exact before
  | cons call calls ih =>
    refine ih along.2 ?_
    rw [poll_eq]
    exact takeSteps_keeps keeps along.1 before

end

theorem alongRun_imp {calls : List PollCall}
    (weaker : ∀ endpoint call, Along condition (endpoint.steps call) endpoint →
      Along other (endpoint.steps call) endpoint)
    (along : AlongRun condition calls endpoint) : AlongRun other calls endpoint := by
  induction calls generalizing endpoint with
  | nil => trivial
  | cons call calls ih => exact ⟨weaker endpoint call along.1, ih along.2⟩

end Along

end Endpoint

end Sail.Protocol.Mptp
