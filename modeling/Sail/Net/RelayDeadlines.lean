/-
When a relay gives up, after `net/relay.rs`.

A direction counts its deadlines from the time bytes last moved, which is never before the
writer was asked for the bytes it does not take, or for the flush that follows them. A
flush at the end of the stream and a shutdown are first asked after the reader's end.
-/

import Sail.Net.RelayIntegrity

namespace Sail.Net

open Bytes

variable {copy : CopyBuffer} {journal : Journal} {pool : BufferPool} {direction : Direction}
  {now latest writeStall lastProgress : Nat} {strict : Prop}

/-! ### A copy -/

/-- Bytes moved in this poll, or the writer has been asked for what it holds up since before
bytes last moved. -/
def Backed (copy : CopyBuffer) (journal : Journal) (lastProgress : Nat) (what : Held) : Prop :=
  copy.progressed = true ∨ ∃ since, journal.held = some (what, since) ∧ since ≤ lastProgress

structure Paced (copy : CopyBuffer) (journal : Journal) (lastProgress latest : Nat) : Prop where
  byte : journal.lastByte ≤ latest
  held : ∀ what since, journal.held = some (what, since) → since ≤ latest
  seen : copy.progressed = false → journal.lastByte ≤ lastProgress
  writes : copy.pos < copy.cap → Backed copy journal lastProgress .write
  flushes : copy.needFlush = true → copy.pos = copy.cap → copy.readDone = false →
    Backed copy journal lastProgress .flush

structure Parked (copy : CopyBuffer) (journal : Journal) : Prop where
  writes : copy.pos < copy.cap → ∃ since, journal.held = some (.write, since)
  flushes : copy.needFlush = true → copy.pos = copy.cap → copy.readDone = false →
    ∃ since, journal.held = some (.flush, since)

def PacedReturn (strict : Prop) (copy : CopyBuffer) (journal : Journal) (lastProgress : Nat) :
    CopyStep → Prop
  | .asks _ => True
  | .pending => Parked copy journal ∧
      (strict → copy.writerBlocked = true → ∃ what, Backed copy journal lastProgress what ∧
        ∃ since, journal.held = some (what, since))
  | .ready (.ok _) => Parked copy journal
  | .ready (.error fault) => fault ≠ .writeStalled

theorem Paced.later (paced : Paced copy journal lastProgress latest) (later : latest ≤ now) :
    Paced copy journal lastProgress now :=
  ⟨Nat.le_trans paced.byte later,
    fun what since held => Nat.le_trans (paced.held what since held) later, paced.seen, paced.writes,
    paced.flushes⟩

theorem Paced.loop (paced : Paced copy journal lastProgress latest) :
    Paced (copy.loop pool).2.1 journal lastProgress latest := by
  have same : (copy.loop pool).2.1.progressed = copy.progressed ∧
      (copy.loop pool).2.1.pos = copy.pos ∧ (copy.loop pool).2.1.cap = copy.cap ∧
      (copy.loop pool).2.1.needFlush = copy.needFlush ∧
      (copy.loop pool).2.1.readDone = copy.readDone := by
    unfold CopyBuffer.loop
    repeat' split
    all_goals exact ⟨rfl, rfl, rfl, rfl, rfl⟩
  obtain ⟨progressed, pos, cap, needFlush, readDone⟩ := same
  refine ⟨paced.byte, paced.held, ?_, ?_, ?_⟩
  · rw [progressed]
    exact paced.seen
  · unfold Backed
    rw [pos, cap, progressed]
    exact paced.writes
  · unfold Backed
    rw [needFlush, pos, cap, readDone, progressed]
    exact paced.flushes

theorem Backed.later {what : Held} (backed : Backed copy journal lastProgress what)
    (later : lastProgress ≤ now) : Backed copy journal now what :=
  backed.imp_right fun ⟨since, held, early⟩ => ⟨since, held, Nat.le_trans early later⟩

/-- What the writer holds up it was asked for no later than before. -/
theorem Backed.hold {what : Held} (backed : Backed copy journal lastProgress what) :
    Backed copy (journal.hold what now) lastProgress what := by
  rcases backed with progressed | ⟨since, held, early⟩
  · exact .inl progressed
  · refine .inr ⟨since, ?_, early⟩
    unfold Journal.hold Journal.askedSince
    rw [held]
    dsimp only
    rw [if_pos rfl]

theorem askedSince_le (held : ∀ what since, journal.held = some (what, since) → since ≤ now)
    (what : Held) : journal.askedSince what now ≤ now := by
  unfold Journal.askedSince
  split
  · rename_i other since isHeld
    split
    · exact held other since isHeld
    · exact Nat.le_refl now
  · exact Nat.le_refl now

theorem held_hold (paced : Paced copy journal lastProgress now) (what : Held) :
    ∀ other since, (journal.hold what now).held = some (other, since) → since ≤ now := by
  rintro _ _ ⟨⟩
  exact askedSince_le paced.held what

theorem Paced.answered {ask : CopyAsk} {answer : Answer}
    (paced : Paced copy journal lastProgress now) (atAsk : AtAsk copy ask)
    (answers : copy.Answers ask answer = true)
    (prompt : strict → ask = .flushEnd → answer = .pending →
      copy.progressed = true ∨ journal.askedSince .flush now ≤ lastProgress) :
    Paced (copy.answered pool ask answer).2.1 (journal.noteCopy copy now ask answer) lastProgress
        now ∧
      PacedReturn strict (copy.answered pool ask answer).2.1 (journal.noteCopy copy now ask answer)
        lastProgress (copy.answered pool ask answer).2.2 := by
  have noHeld : ∀ what since, (none : Option (Held × Nat)) = some (what, since) → since ≤ now :=
    nofun
  have moved {next noted} (progressed : next.progressed = true) (byte : noted.lastByte = now)
      (held : noted.held = none) : Paced next noted lastProgress now := by
    refine ⟨Nat.le_of_eq byte, held ▸ noHeld, ?_, fun _ => .inl progressed,
      fun _ _ _ => .inl progressed⟩
    rw [progressed]
    exact nofun
  have noWrite {backed : Prop} (met : copy.pos = copy.cap) (below : copy.pos < copy.cap) : backed :=
    absurd met (Nat.ne_of_lt below)
  cases ask with
  | buffer =>
    cases answer with
    | buffer allocates =>
      unfold CopyBuffer.answered
      dsimp only
      split
      · rename_i left fault acquired
        refine ⟨paced, ?_⟩
        have fails : (pool.acquireBuffer copy.size allocates).2 = .error fault := by
          rw [acquired]
        intro is
        cases is
        unfold BufferPool.acquireBuffer at fails
        split at fails
        · cases fails
        · split at fails <;> cases fails
      · exact ⟨⟨paced.byte, paced.held, paced.seen, paced.writes, paced.flushes⟩, trivial⟩
    | _ => cases answers
  | read =>
    cases answer with
    | bytes data =>
      have full : Paced (copy.filled data) (journal.noteCopy copy now .read (.bytes data))
          lastProgress now := by
        cases data with
        | nil =>
          refine ⟨paced.byte, paced.held, paced.seen, noWrite atAsk.1, ?_⟩
          intro _ _ readDone
          cases readDone
        | cons byte rest => exact moved rfl rfl rfl
      exact ⟨full.loop, trivial⟩
    | pending =>
      unfold CopyBuffer.answered CopyBuffer.giveBack
      dsimp only
      have back : ∀ buf blocked, Paced { copy with buf, writerBlocked := blocked } journal
          lastProgress now :=
        fun _ _ => ⟨paced.byte, paced.held, paced.seen, paced.writes, paced.flushes⟩
      split
      · split
        · exact ⟨back copy.buf true, trivial⟩
        · rename_i unneeded
          exact ⟨back copy.buf false, ⟨noWrite atAsk.1, fun is => absurd is unneeded⟩, nofun⟩
      · split
        · exact ⟨back none true, trivial⟩
        · rename_i unneeded
          exact ⟨back none false, ⟨noWrite atAsk.1, fun is => absurd is unneeded⟩, nofun⟩
    | failed =>
      exact ⟨paced, nofun⟩
    | _ => cases answers
  | write =>
    cases answer with
    | took count =>
      unfold CopyBuffer.answered Journal.noteCopy
      dsimp only
      split
      · exact ⟨paced, nofun⟩
      · exact ⟨Paced.loop (moved rfl rfl rfl), trivial⟩
    | pending =>
      have backed : Backed copy (journal.hold .write now) lastProgress .write :=
        (paced.writes atAsk).hold
      exact ⟨⟨paced.byte, held_hold paced .write, paced.seen, fun _ => backed,
          fun _ met => noWrite met atAsk⟩,
        ⟨fun _ => ⟨_, rfl⟩, fun _ met => noWrite met atAsk⟩, fun _ _ => ⟨.write, backed, _, rfl⟩⟩
    | failed =>
      exact ⟨paced, nofun⟩
    | _ => cases answers
  | flushWaiting =>
    obtain ⟨met, readDone, needed⟩ := atAsk
    cases answer with
    | finished =>
      exact ⟨⟨paced.byte, noHeld, paced.seen, noWrite met, nofun⟩, ⟨noWrite met, nofun⟩, nofun⟩
    | pending =>
      have backed : Backed copy (journal.hold .flush now) lastProgress .flush :=
        (paced.flushes needed met readDone).hold
      exact ⟨⟨paced.byte, held_hold paced .flush, paced.seen, noWrite met, fun _ _ _ => backed⟩,
        ⟨noWrite met, fun _ _ _ => ⟨_, rfl⟩⟩, fun _ _ => ⟨.flush, backed, _, rfl⟩⟩
    | failed =>
      exact ⟨paced, nofun⟩
    | _ => cases answers
  | flushEnd =>
    obtain ⟨met, readDone⟩ := atAsk
    have noFlush {backed : Prop} (is : copy.readDone = false) : backed :=
      absurd (readDone.symm.trans is) Bool.noConfusion
    cases answer with
    | finished =>
      exact ⟨⟨paced.byte, noHeld, paced.seen, noWrite met, fun _ _ => noFlush⟩,
        ⟨noWrite met, fun _ _ => noFlush⟩⟩
    | pending =>
      refine ⟨⟨paced.byte, held_hold paced .flush, paced.seen, noWrite met, fun _ _ => noFlush⟩,
        ⟨noWrite met, fun _ _ => noFlush⟩, ?_⟩
      intro isStrict _
      refine ⟨.flush, ?_, _, rfl⟩
      rcases prompt isStrict rfl rfl with progressed | early
      · exact .inl progressed
      · exact .inr ⟨_, rfl, early⟩
    | failed =>
      exact ⟨paced, nofun⟩
    | _ => cases answers

/-! ### A direction -/

def Quiet (direction : Direction) : Prop :=
  ∀ copy, direction.state = .running copy → copy.progressed = false

def Direction.deadlines (direction : Direction) (writeStall : Nat) : List Nat :=
  (if direction.blocked then [direction.lastProgress + writeStall] else []) ++
    (direction.idleTimeout.map (direction.lastProgress + ·)).toList

/-- The deadline a direction waits for is the first one. -/
theorem deadline_le {due : Nat} (runs : due ∈ direction.deadlines writeStall) :
    ∃ first expired, direction.deadline writeStall = some (first, expired) ∧ first ≤ due := by
  unfold Direction.deadlines at runs
  unfold Direction.deadline
  cases isBlocked : direction.blocked with
  | false =>
    cases idles : direction.idleTimeout with
    | none =>
      rw [isBlocked, idles] at runs
      cases runs
    | some idle =>
      rw [isBlocked, idles] at runs
      exact ⟨_, _, rfl, Nat.le_of_eq (List.mem_singleton.mp runs).symm⟩
  | true =>
    cases idles : direction.idleTimeout with
    | none =>
      rw [isBlocked, idles] at runs
      exact ⟨_, _, rfl, Nat.le_of_eq (List.mem_singleton.mp runs).symm⟩
    | some idle =>
      rw [isBlocked, idles] at runs
      have either : due = direction.lastProgress + writeStall ∨
          due = direction.lastProgress + idle := by
        simpa using runs
      dsimp only [Option.map_some]
      split
      · exact ⟨_, _, rfl, by omega⟩
      · exact ⟨_, _, rfl, by omega⟩

theorem deadline_stall {first : Nat}
    (waits : direction.deadline writeStall = some (first, .writeStall)) :
    first = direction.lastProgress + writeStall ∧ direction.blocked = true := by
  unfold Direction.deadline at waits
  dsimp only at waits
  split at waits
  · rename_i blocked _
    split at waits
    · cases waits
      exact ⟨rfl, blocked⟩
    · cases waits
  · rename_i blocked _
    cases waits
    exact ⟨rfl, blocked⟩
  · cases waits
  · cases waits

theorem deadline_idle {first : Nat} (waits : direction.deadline writeStall = some (first, .idle)) :
    ∃ idle, direction.idleTimeout = some idle ∧ first = direction.lastProgress + idle := by
  unfold Direction.deadline at waits
  dsimp only at waits
  split at waits
  · rename_i idles
    split at waits
    · cases waits
    · cases waits
      obtain ⟨idle, isIdle, is⟩ := Option.map_eq_some_iff.mp idles
      exact ⟨idle, isIdle, is.symm⟩
  · cases waits
  · rename_i idles
    cases waits
    obtain ⟨idle, isIdle, is⟩ := Option.map_eq_some_iff.mp idles
    exact ⟨idle, isIdle, is.symm⟩
  · cases waits

structure Over (journal : Journal) (lastProgress latest : Nat) : Prop where
  seen : journal.lastByte ≤ lastProgress
  held : ∀ what since, journal.held = some (what, since) → since ≤ latest

structure Timed (timeouts : RelayTimeouts) (latest : Nat) (way : Way) (side : Side) : Prop where
  progress : side.direction.lastProgress ≤ latest
  told : ∀ idle, side.direction.idleTimeout = some idle →
    idle = timeouts.idle way ∧ (∃ copy, side.direction.state = .running copy) ∧
      ∃ other, side.journal.otherEnd = some other ∧ other ≤ side.direction.lastProgress
  running : ∀ copy, side.direction.state = .running copy →
    Paced copy side.journal side.direction.lastProgress latest
  closedDown : (∀ copy, side.direction.state ≠ .running copy) →
    Over side.journal side.direction.lastProgress latest

def HeldUp (side : Side) : Prop :=
  ∃ what since, side.journal.held = some (what, since) ∧ since ≤ side.direction.lastProgress

structure Due (strict : Prop) (writeStall : Nat) (side : Side) (deadline : Nat)
    (expired : Expired) : Prop where
  waits : side.direction.deadline writeStall = some (deadline, expired)
  quiet : Quiet side.direction
  heldUp : strict → side.direction.blocked = true → HeldUp side

def TimedAsk (strict : Prop) (writeStall : Nat) (side : Side) : Point → Prop
  | .copy _ => True
  | .stamp result =>
    (∀ fault, result ≠ .ready (.error fault)) ∧
      (∀ copy, side.direction.state = .running copy → Parked copy side.journal) ∧
      (strict → result = .pending → side.direction.blocked = true →
        ∃ what since, side.journal.held = some (what, since))
  | .shutdown => True
  | .timer deadline expired =>
    Due strict writeStall side deadline expired ∧
      ∃ due, side.direction.timer = some due ∧ due ≤ deadline
  | .clock deadline expired => Due strict writeStall side deadline expired

def Covered (writeStall : Nat) (side : Side) : Prop :=
  ∀ deadline ∈ side.direction.deadlines writeStall,
    ∃ due, side.direction.timer = some due ∧ due ≤ deadline ∧ side.journal.registered = true

variable {timeouts : RelayTimeouts} {way : Way}

abbrev Keeping (strict : Prop) (timeouts : RelayTimeouts) (latest : Nat) (way : Way)
    (journal : Journal) (left : BufferPool × Direction × DirectionStep) : Prop :=
  Stands (Timed timeouts latest) (fun _ side => TimedAsk strict timeouts.writeStall side)
    (fun _ side => Covered timeouts.writeStall side) way journal left

section

variable (timed : Timed timeouts latest way { direction := direction, journal := journal })

include timed

theorem keeping_pollDeadline (quiet : Quiet direction)
    (heldUp : strict → direction.blocked = true →
      HeldUp { direction, journal }) :
    Keeping strict timeouts latest way journal
      (pool, direction.pollDeadline timeouts.writeStall) := by
  unfold Direction.pollDeadline
  cases waits : direction.deadline timeouts.writeStall with
  | none =>
    refine ⟨timed, nofun, fun _ deadline runs => ?_⟩
    obtain ⟨first, expired, isFirst, _⟩ := deadline_le runs
    rw [waits] at isFirst
    cases isFirst
  | some first =>
    obtain ⟨deadline, expired⟩ := first
    refine ⟨⟨timed.progress, timed.told, timed.running, timed.closedDown⟩, ?_, ?_⟩
    · intro point is
      cases is
      refine ⟨⟨waits, quiet, heldUp⟩, _, rfl, ?_⟩
      split
      · exact Nat.le_refl _
      · rename_i early
        exact Nat.le_of_not_lt early
    · intro returned
      rcases returned with is | is <;> cases is

theorem keeping_closing (isState : direction.state = .running copy) (quiet : Quiet direction)
    (count : Nat) :
    Keeping strict timeouts latest way journal (direction.closing pool count) := by
  have paced := timed.running copy isState
  have closed : Timed timeouts latest way
      { direction := { direction with state := .shuttingDown count, idleTimeout := none }
        journal } :=
    ⟨timed.progress, nofun, nofun,
      fun _ => ⟨paced.seen (quiet copy isState), paced.held⟩⟩
  unfold Direction.closing
  rw [isState]
  exact .of_asks closed trivial

variable {result : CopyStep} {side : Side} {point : Point}

theorem keeping_copied (isState : direction.state = .running copy) (quiet : Quiet direction)
    (heldUp : strict → result = .pending → direction.blocked = true →
      HeldUp { direction, journal }) :
    Keeping strict timeouts latest way journal
      (direction.copied pool timeouts.writeStall result) := by
  unfold Direction.copied
  split
  · exact .of_asks timed trivial
  · exact keeping_pollDeadline timed quiet (fun isStrict => heldUp isStrict rfl)
  · exact .of_failed timed
  · exact keeping_closing timed isState quiet _

theorem Timed.running_state {next : CopyBuffer} {noted : Journal}
    (paced : Paced next noted direction.lastProgress latest)
    (otherEnd : noted.otherEnd = journal.otherEnd) :
    Timed timeouts latest way
      { direction := { direction with state := .running next }, journal := noted } where
  progress := timed.progress
  told idle is := by
    obtain ⟨isIdle, _, told⟩ := timed.told idle is
    refine ⟨isIdle, ⟨next, rfl⟩, ?_⟩
    rw [otherEnd]
    exact told
  running other is := by
    cases is
    exact paced
  closedDown copies := absurd rfl (copies next)

end

theorem keeping_returned {next : CopyBuffer} {noted : Journal}
    (timed : Timed timeouts latest way
      { direction := { direction with state := .running next }, journal := noted })
    (atReturn : PacedReturn strict next noted direction.lastProgress result) :
    Keeping strict timeouts latest way noted
      (direction.returned pool next timeouts.writeStall result) := by
  unfold Direction.returned
  split
  · exact .of_asks timed trivial
  · exact .of_failed timed
  · rename_i notAsks notFailed
    have parked : Parked next noted := by
      cases result with
      | asks ask => exact absurd rfl (notAsks ask)
      | pending => exact atReturn.1
      | ready result =>
        cases result with
        | error fault => exact absurd rfl (notFailed fault)
        | ok count => exact atReturn
    split
    · refine ⟨timed, ?_, ?_⟩
      · intro point is
        cases is
        refine ⟨notFailed, ?_, ?_⟩
        · intro copy is
          cases is
          exact parked
        · intro isStrict isPending blocked
          subst isPending
          obtain ⟨what, _, since, held⟩ := atReturn.2 isStrict blocked
          exact ⟨what, since, held⟩
      · intro returned
        rcases returned with is | is <;> cases is
    · rename_i still
      have quiet : Quiet { direction with state := .running next } := by
        intro copy is
        cases is
        exact Bool.eq_false_iff.mpr still
      refine keeping_copied timed rfl quiet ?_
      intro isStrict isPending blocked
      subst isPending
      obtain ⟨what, backed, _⟩ := atReturn.2 isStrict blocked
      rcases backed with progressed | ⟨since, held, early⟩
      · exact absurd progressed still
      · exact ⟨what, since, held, early⟩

theorem takeProgress_running (isState : direction.state = .running copy) (now : Nat) :
    direction.takeProgress now =
      { direction with
        state := .running { copy with progressed := false }
        lastProgress := now } := by
  unfold Direction.takeProgress
  rw [isState]

theorem keeping_stamp
    (timed : Timed timeouts now way { direction, journal })
    (isState : direction.state = .running copy)
    (asked : strict → result = .pending → direction.blocked = true →
      ∃ what since, journal.held = some (what, since))
    (parked : Parked copy journal) :
    Keeping strict timeouts now way journal
      ((direction.takeProgress now).copied pool timeouts.writeStall result) := by
  have paced := timed.running copy isState
  have stamped : Paced { copy with progressed := false } journal now now := by
    refine ⟨paced.byte, paced.held, fun _ => paced.byte, ?_, ?_⟩
    · intro below
      obtain ⟨since, isHeld⟩ := parked.writes below
      exact .inr ⟨since, isHeld, paced.held _ _ isHeld⟩
    · intro needed met readDone
      obtain ⟨since, isHeld⟩ := parked.flushes needed met readDone
      exact .inr ⟨since, isHeld, paced.held _ _ isHeld⟩
  rw [takeProgress_running isState]
  have stampedTimed : Timed timeouts now way
      { direction :=
          { direction with state := .running { copy with progressed := false }, lastProgress := now }
        journal } := by
    refine ⟨Nat.le_refl now, ?_, ?_, fun copies => absurd rfl (copies _)⟩
    · intro idle is
      obtain ⟨isIdle, _, other, isOther, early⟩ := timed.told idle is
      exact ⟨isIdle, ⟨_, rfl⟩, other, isOther, Nat.le_trans early timed.progress⟩
    · intro other is
      cases is
      exact stamped
  refine keeping_copied stampedTimed rfl ?_ ?_
  · intro other is
    cases is
    rfl
  · intro isStrict isPending blocked
    have wasBlocked : direction.blocked = true := by
      unfold Direction.blocked
      rw [isState]
      exact blocked
    obtain ⟨what, since, isHeld⟩ := asked isStrict isPending wasBlocked
    exact ⟨what, since, isHeld, paced.held _ _ isHeld⟩

theorem Timed.later (timed : Timed timeouts latest way side) (later : latest ≤ now) :
    Timed timeouts now way side where
  progress := Nat.le_trans timed.progress later
  told := timed.told
  running copy is := (timed.running copy is).later later
  closedDown copies := ⟨(timed.closedDown copies).seen,
    fun what since held => Nat.le_trans ((timed.closedDown copies).held what since held) later⟩

theorem Timed.covered_done (timed : Timed timeouts latest way side)
    (isDone : side.direction.isDone = true) : Covered writeStall side := by
  have isState : side.direction.state = .done := of_decide_eq_true isDone
  have noIdle : side.direction.idleTimeout = none := by
    cases idles : side.direction.idleTimeout with
    | none => rfl
    | some idle =>
      obtain ⟨_, ⟨copy, isRunning⟩, _⟩ := timed.told idle idles
      rw [isState] at isRunning
      cases isRunning
  intro deadline runs
  unfold Direction.deadlines Direction.blocked at runs
  rw [isState, noIdle] at runs
  cases runs

theorem Timed.noted (timed : Timed timeouts latest way { direction, journal }) {noted : Journal}
    (held : noted.held = journal.held) (byte : noted.lastByte = journal.lastByte)
    (otherEnd : noted.otherEnd = journal.otherEnd) :
    Timed timeouts latest way { direction, journal := noted } := by
  obtain ⟨progress, told, running, closedDown⟩ := timed
  refine ⟨progress, otherEnd ▸ told, fun copy is => ?_, fun copies => ?_⟩
  · obtain ⟨isByte, isHeld, seen, writes, flushes⟩ := running copy is
    exact ⟨byte ▸ isByte, held ▸ isHeld, byte ▸ seen, by simpa only [Backed, held] using writes,
      by simpa only [Backed, held] using flushes⟩
  · exact ⟨byte ▸ (closedDown copies).seen, held ▸ (closedDown copies).held⟩

theorem keeping_enter
    (timed : Timed timeouts latest way { direction, journal }) :
    Keeping strict timeouts latest way journal (direction.enter pool) := by
  unfold Direction.enter
  split
  · rename_i copy isState
    exact .of_asks (timed.running_state (timed.running copy isState).loop rfl) trivial
  · exact .of_asks timed trivial
  · rename_i isState
    refine ⟨timed, nofun, fun _ => ?_⟩
    exact timed.covered_done (decide_eq_true isState)

/-- A writer that does not finish the stream at once was asked for it no later than bytes
last moved. -/
def Side.Prompt (side : Side) (now : Nat) : Point → Answer → Bool
  | .copy .flushEnd, .pending =>
    match side.direction.state with
    | .running copy =>
      copy.progressed || decide (side.journal.askedSince .flush now ≤ side.direction.lastProgress)
    | _ => true
  | .shutdown, .pending =>
    decide (side.journal.askedSince .shutdown now ≤ side.direction.lastProgress)
  | _, _ => true

theorem noteCopy_otherEnd (journal : Journal) (copy : CopyBuffer) (now : Nat) (ask : CopyAsk)
    (answer : Answer) : (journal.noteCopy copy now ask answer).otherEnd = journal.otherEnd := by
  unfold Journal.noteCopy
  split
  · split <;> rfl
  · split <;> rfl
  all_goals rfl

theorem keeping_answered {answer : Answer}
    (timed : Timed timeouts now way { direction, journal })
    (atPoint : Side.AtPoint { direction, journal } point)
    (asked : TimedAsk strict timeouts.writeStall { direction, journal } point)
    (answers : direction.Answers point answer = true)
    (prompt : strict →
      Side.Prompt { direction, journal } now point answer = true) :
    Keeping strict timeouts now way (journal.note direction now point answer)
      (direction.answered pool timeouts.writeStall now point answer) := by
  cases point with
  | copy ask =>
    obtain ⟨copy, isState, atAsk⟩ := atPoint
    unfold Direction.Answers at answers
    unfold Direction.answered Journal.note
    rw [isState] at answers
    have promptly : strict → ask = .flushEnd → answer = .pending →
        copy.progressed = true ∨ journal.askedSince .flush now ≤ direction.lastProgress := by
      intro isStrict isFlush isPending
      have is := prompt isStrict
      subst isFlush isPending
      unfold Side.Prompt at is
      rw [isState] at is
      simpa using is
    obtain ⟨paced, atReturn⟩ := @Paced.answered copy journal pool now direction.lastProgress strict
      ask answer (timed.running copy isState) atAsk answers promptly
    rw [isState]
    exact keeping_returned
      (timed.running_state paced (noteCopy_otherEnd journal copy now ask answer)) atReturn
  | stamp result =>
    obtain ⟨copy, isState, _⟩ := atPoint
    cases answer with
    | clock => exact keeping_stamp timed isState asked.2.2 (asked.2.1 copy isState)
    | _ => cases answers
  | shutdown =>
    obtain ⟨count, isState⟩ := atPoint
    have notRunning : ∀ copy, direction.state ≠ .running copy := by
      intro copy is
      rw [isState] at is
      cases is
    have isOver := timed.closedDown notRunning
    have quiet : Quiet direction := fun copy is => absurd is (notRunning copy)
    have noted : ∀ held, (∀ what since, held = some (what, since) → since ≤ now) →
        Timed timeouts now way
          { direction, journal := { journal with closed := true, held } } :=
      fun held early => ⟨timed.progress, timed.told, fun copy is => absurd is (notRunning copy),
        fun _ => ⟨isOver.seen, early⟩⟩
    cases answer with
    | finished =>
      unfold Direction.answered
      rw [isState]
      have done : Timed timeouts now way
          { direction := { direction with count, state := .done }
            journal := { journal with closed := true, held := none } } := by
        refine ⟨timed.progress, ?_, nofun,
          fun _ => ⟨isOver.seen, nofun⟩⟩
        intro idle is
        obtain ⟨_, ⟨copy, isRunning⟩, _⟩ := timed.told idle is
        exact absurd isRunning (notRunning copy)
      exact ⟨done, nofun, fun _ => done.covered_done rfl⟩
    | pending =>
      have early := askedSince_le isOver.held .shutdown
      have held : Timed timeouts now way
          { direction
            journal := { journal.hold .shutdown now with closed := true } } := by
        refine noted _ ?_
        intro what since is
        cases is
        exact early
      refine keeping_pollDeadline held quiet ?_
      intro isStrict _
      have isPrompt : journal.askedSince .shutdown now ≤ direction.lastProgress :=
        of_decide_eq_true (prompt isStrict)
      exact ⟨.shutdown, _, rfl, isPrompt⟩
    | failed =>
      exact .of_failed (noted journal.held isOver.held)
    | _ => cases answers
  | timer deadline expired =>
    obtain ⟨isDue, due, isTimer, early⟩ := asked
    cases answer with
    | finished =>
      exact .of_asks timed isDue
    | pending =>
      refine ⟨timed.noted rfl rfl rfl, nofun, ?_⟩
      intro _ other runs
      obtain ⟨first, why, isFirst, before⟩ := deadline_le runs
      have same := isDue.waits.symm.trans isFirst
      cases same
      exact ⟨due, isTimer, Nat.le_trans early before, rfl⟩
    | _ => cases answers
  | clock deadline expired =>
    cases answer with
    | clock =>
      have noted : Timed timeouts now way
          { direction
            journal := journal.note direction now (.clock deadline expired) .clock } := by
        unfold Journal.note
        cases expired with
        | writeStall => exact timed
        | idle =>
          dsimp only
          split
          · exact timed.noted rfl rfl rfl
          · exact timed
      have sameHeld : (journal.note direction now (.clock deadline expired) .clock).held =
          journal.held := by
        unfold Journal.note
        cases expired with
        | writeStall => rfl
        | idle =>
          dsimp only
          split <;> rfl
      unfold Direction.answered
      dsimp only
      split
      · unfold Direction.expire
        split
        · exact .of_failed noted
        · split
          · rename_i copy isState
            exact keeping_closing noted isState asked.quiet _
          · exact .of_failed noted
      · refine ⟨⟨noted.progress, noted.told, noted.running, noted.closedDown⟩, ?_, ?_⟩
        · intro point is
          cases is
          refine ⟨⟨asked.waits, asked.quiet, ?_⟩, deadline, rfl, Nat.le_refl deadline⟩
          intro isStrict blocked
          obtain ⟨what, since, held, early⟩ := asked.heldUp isStrict blocked
          exact ⟨what, since, sameHeld.trans held, early⟩
        · intro returned
          rcases returned with is | is <;> cases is
    | _ => cases answers

theorem timed_otherDone (timed : Timed timeouts now way { direction, journal }) :
    Timed timeouts now way
      { direction := direction.otherDone (timeouts.idle way) now
        journal := { journal with otherEnd := some now } } := by
  unfold Direction.otherDone
  split
  · rename_i copy isState
    have paced := timed.running copy isState
    refine ⟨Nat.le_refl now, ?_, ?_, fun copies => absurd isState (copies copy)⟩
    · intro idle is
      cases is
      exact ⟨rfl, ⟨copy, isState⟩, now, rfl, Nat.le_refl now⟩
    · intro other is
      have same := isState.symm.trans is
      cases same
      have progress := timed.progress
      refine ⟨paced.byte, paced.held, fun _ => paced.byte, ?_, ?_⟩
      · exact fun below => (paced.writes below).later progress
      · exact fun needed met readDone => (paced.flushes needed met readDone).later progress
  · rename_i notRunning
    refine ⟨timed.progress, ?_, fun copy is => absurd is (notRunning copy), ?_⟩
    · intro idle is
      obtain ⟨_, ⟨copy, isState⟩, _⟩ := timed.told idle is
      exact absurd isState (notRunning copy)
    · intro copies
      have closedDown := timed.closedDown copies
      exact ⟨closedDown.seen, closedDown.held⟩

/-! ### How a direction is given up on -/

theorem pollDeadline_not_failed (direction : Direction) (writeStall : Nat) (fault : RelayFault) :
    (direction.pollDeadline writeStall).2 ≠ .ready (.error fault) := by
  unfold Direction.pollDeadline
  intro is
  split at is <;> cases is

theorem closing_asks (pool : BufferPool) (direction : Direction) (count : Nat) :
    (direction.closing pool count).2.2 = .asks .shutdown := by
  unfold Direction.closing
  split <;> rfl

theorem copied_failed {fault : RelayFault}
    (failed : (direction.copied pool writeStall result).2.2 = .ready (.error fault)) :
    result = .ready (.error fault) := by
  unfold Direction.copied at failed
  split at failed
  · cases failed
  · exact absurd failed (pollDeadline_not_failed _ _ _)
  · cases failed
    rfl
  · rw [closing_asks] at failed
    cases failed

theorem returned_failed {fault : RelayFault}
    (failed : (direction.returned pool copy writeStall result).2.2 = .ready (.error fault)) :
    result = .ready (.error fault) := by
  unfold Direction.returned at failed
  split at failed
  · cases failed
  · cases failed
    rfl
  · split at failed
    · cases failed
    · exact copied_failed failed

/-- A direction is given up on as stalled when the clock shows its deadline. -/
theorem answered_stalled {answer : Answer}
    (timed : Timed timeouts now way { direction, journal })
    (atPoint : Side.AtPoint { direction, journal } point)
    (asked : TimedAsk strict timeouts.writeStall { direction, journal } point)
    (answers : direction.Answers point answer = true)
    (stalled : (direction.answered pool timeouts.writeStall now point answer).2.2 =
      .ready (.error .writeStalled)) :
    direction.lastProgress + timeouts.writeStall ≤ now ∧ Quiet direction ∧
      (strict → HeldUp { direction, journal }) := by
  cases point with
  | copy ask =>
    obtain ⟨copy, isState, atAsk⟩ := atPoint
    unfold Direction.Answers at answers
    unfold Direction.answered at stalled
    dsimp only at answers stalled
    rw [isState] at answers stalled
    have isFault := returned_failed stalled
    obtain ⟨_, atReturn⟩ := @Paced.answered copy journal pool now direction.lastProgress False
      ask answer (timed.running copy isState) atAsk answers (fun is => is.elim)
    rw [isFault] at atReturn
    exact absurd rfl atReturn
  | stamp result => exact absurd (copied_failed stalled) (asked.1 _)
  | shutdown =>
    obtain ⟨count, isState⟩ := atPoint
    unfold Direction.answered at stalled
    cases answer with
    | finished =>
      rw [isState] at stalled
      cases stalled
    | pending => exact absurd stalled (pollDeadline_not_failed _ _ _)
    | failed => cases stalled
    | _ => cases answers
  | timer deadline expired =>
    cases answer with
    | finished | pending => cases stalled
    | _ => cases answers
  | clock deadline expired =>
    unfold Direction.answered at stalled
    dsimp only at stalled
    split at stalled
    · rename_i late
      cases expired with
      | writeStall =>
        obtain ⟨isDeadline, blocked⟩ := deadline_stall asked.waits
        exact ⟨isDeadline ▸ late, asked.quiet, fun isStrict => asked.heldUp isStrict blocked⟩
      | idle =>
        obtain ⟨idle, idles, _⟩ := deadline_idle asked.waits
        obtain ⟨_, ⟨copy, isState⟩, _⟩ := timed.told idle idles
        unfold Direction.expire at stalled
        rw [isState] at stalled
        rw [closing_asks] at stalled
        cases stalled
    · cases stalled

/-- No byte has moved since the direction last took note of one. -/
theorem Timed.last_byte (timed : Timed timeouts latest way side) (quiet : Quiet side.direction) :
    side.journal.lastByte ≤ side.direction.lastProgress := by
  by_cases copies : ∃ copy, side.direction.state = .running copy
  · obtain ⟨copy, isState⟩ := copies
    exact (timed.running copy isState).seen (quiet copy isState)
  · exact (timed.closedDown (fun copy is => copies ⟨copy, is⟩)).seen

/-- A direction that is asked something is not done. -/
theorem not_done_asked (timed : Timed timeouts latest way side) (atPoint : side.AtPoint point)
    (asked : TimedAsk strict writeStall side point) :
    side.direction.isDone = false := by
  have running : ∀ copy, side.direction.state = .running copy → side.direction.isDone = false := by
    intro copy is
    unfold Direction.isDone
    rw [is]
    rfl
  have due : ∀ deadline expired, Due strict writeStall side deadline expired →
      side.direction.isDone = false := by
    intro deadline expired isDue
    refine Bool.eq_false_iff.mpr (fun isDone => ?_)
    have isState : side.direction.state = .done := of_decide_eq_true isDone
    cases expired with
    | writeStall =>
      have blocked := (deadline_stall isDue.waits).2
      unfold Direction.blocked at blocked
      rw [isState] at blocked
      cases blocked
    | idle =>
      obtain ⟨idle, idles, _⟩ := deadline_idle isDue.waits
      obtain ⟨_, ⟨copy, isRunning⟩, _⟩ := timed.told idle idles
      rw [isState] at isRunning
      cases isRunning
  cases point with
  | copy _ | stamp _ =>
    obtain ⟨copy, is, _⟩ := atPoint
    exact running copy is
  | shutdown =>
    obtain ⟨count, is⟩ := atPoint
    unfold Direction.isDone
    rw [is]
    rfl
  | timer deadline expired => exact due deadline expired asked.1
  | clock deadline expired => exact due deadline expired asked

end Sail.Net
