/-
A relay gives up as its timeouts say, after `net/relay.rs`.

The idle timeout and the timers are kept in every run. The write stall is counted from the
last byte that moved: a connection that was quiet before its end has that much less time
for the flush and the shutdown at its end, or none.
-/

import Sail.Net.RelayDeadlines

namespace Sail.Net

variable {strict : Prop} {timeouts : RelayTimeouts} {relay : Relay} {event : RelayEvent}

namespace Relay

structure OnTime (strict : Prop) (timeouts : RelayTimeouts) (relay : Relay) : Prop where
  same : relay.timeouts = timeouts
  keeps : Keeps (fun way side => side.Sound ∧ Timed timeouts relay.latest way side)
    (fun _ side point => side.AtPoint point ∧ TimedAsk strict timeouts.writeStall side point)
    (fun _ side => Covered timeouts.writeStall side) relay
  told : ∀ way, (relay.side way).journal.otherEnd.isSome = true → relay.isDone way.other = true

def InTime (relay : Relay) (event : RelayEvent) : Prop :=
  relay.latest ≤ event.now

/-- A writer that does not flush at the end of the stream, or shut down, at once was asked
for it no later than bytes last moved its way. -/
def Promptly (relay : Relay) (event : RelayEvent) : Prop :=
  match relay.control, event.input with
  | .asking _ way point, .answer answer => (relay.side way).Prompt event.now point answer = true
  | _, _ => True

instance (relay : Relay) (event : RelayEvent) : Decidable (relay.InTime event) :=
  inferInstanceAs (Decidable (_ ≤ _))

instance (relay : Relay) (event : RelayEvent) : Decidable (relay.Promptly event) := by
  unfold Promptly
  split <;> infer_instance

theorem timed_rules {latest : Nat} :
    Rules (fun way side => side.Sound ∧ Timed timeouts latest way side)
      (fun _ side point => side.AtPoint point ∧ TimedAsk strict timeouts.writeStall side point)
      (fun _ side => Covered timeouts.writeStall side) where
  enters way direction journal pool good := by
    have stands : Side.Stands way journal (direction.enter pool) := stands_enter good.1
    have keeping : Keeping strict timeouts latest way journal (direction.enter pool) :=
      keeping_enter good.2
    exact stands.both keeping
  done _ _ good isDone := good.2.covered_done isDone
  unregisters way side good := by
    refine ⟨good.1.noted ⟨rfl, rfl, rfl, rfl, rfl⟩ rfl, good.2.progress, good.2.told, ?_, ?_⟩
    · intro copy is
      have paced := good.2.running copy is
      exact ⟨paced.byte, paced.held, paced.seen, paced.writes, paced.flushes⟩
    · intro copies
      have closedDown := good.2.closedDown copies
      exact ⟨closedDown.seen, closedDown.held⟩

/-! ### What an event does -/

/-- What the relay's own record of an event is: nothing, the answer of a direction, or that
a direction is done. -/
inductive Records (relay : Relay) (event : RelayEvent) (after : Relay) : Prop where
  | none (journal : ∀ way, ∃ registered, (after.side way).journal =
        { (relay.side way).journal with registered := registered })
      (done : ∀ way, relay.isDone way = true → after.isDone way = true)
      (failed : ∀ fault, after.control = .returned (.error fault) → relay.control = after.control)
  | answered (pass : Pass) (way : Way) (point : Point) (answer : Answer)
      (asked : relay.control = .asking pass way point) (told : event.input = .answer answer)
      (answers : (relay.side way).direction.Answers point answer = true)
      (journal : (after.side way).journal =
        (relay.side way).journal.note (relay.side way).direction event.now point answer)
      (other : (after.side way.other).journal = (relay.side way.other).journal)
      (done : relay.isDone way.other = true → after.isDone way.other = true)
      (failed : ∀ fault, after.control = .returned (.error fault) →
        ((relay.side way).direction.answered relay.pool relay.timeouts.writeStall event.now point
          answer).2.2 = .ready (.error fault))
  | ended (pass : Pass) (way : Way) (looping : relay.control = .looping pass way)
      (journal : (after.side way).journal =
        { (relay.side way).journal with otherEnd := some event.now })
      (other : (after.side way.other).journal = (relay.side way.other).journal)
      (done : ∀ any, relay.isDone any = true → after.isDone any = true)
      (failed : ∀ fault, after.control ≠ .returned (.error fault))

theorem isDone_otherDone (direction : Direction) (idle now : Nat) :
    (direction.otherDone idle now).isDone = direction.isDone := by
  unfold Direction.isDone
  rw [(otherDone_state direction idle now).1]

theorem step_frame (relay : Relay) (event : RelayEvent) :
    (Relay.step relay event).timeouts = relay.timeouts ∧
      (Relay.step relay event).latest = event.now ∧
      Records relay event (Relay.step relay event) := by
  have ignored : (∀ way, ∃ registered, ({ relay with latest := event.now }.side way).journal =
      { (relay.side way).journal with registered }) ∧
      ∀ way, relay.isDone way = true → { relay with latest := event.now }.isDone way = true :=
    ⟨forall_way .aToB ⟨_, rfl⟩ ⟨_, rfl⟩, forall_way .aToB id id⟩
  unfold Relay.step
  dsimp only
  split
  · rename_i pool _ _
    have frame := frame_startPass
      { relay with
        latest := event.now, pool, bFirst := !relay.bFirst
        aToB := unregister relay.aToB, bToA := unregister relay.bToA } relay.bFirst
    refine ⟨frame.timeouts, frame.latest, .none ?_ ?_ ?_⟩
    · intro way
      refine ⟨false, (frame.journal way).trans ?_⟩
      cases way <;> rfl
    · intro way isDone
      refine frame.done way ?_
      cases way <;> exact isDone
    · intro fault failed
      exact absurd failed (startPass_not_failed _ _ fault)
  · rename_i pass way point answer isAsking isAnswer
    have sides : { relay with latest := event.now }.side way = relay.side way := by
      cases way <;> rfl
    split
    · rename_i answers
      have frame := frame_afterStep
        (Relay.answered { relay with latest := event.now } way point answer event.now).1 pass way
        (Relay.answered { relay with latest := event.now } way point answer event.now).2
      have kept : (Relay.answered { relay with latest := event.now } way point answer
          event.now).1.timeouts = relay.timeouts ∧
          (Relay.answered { relay with latest := event.now } way point answer
            event.now).1.latest = event.now := by
        cases way <;> exact ⟨rfl, rfl⟩
      refine ⟨frame.timeouts.trans kept.1, frame.latest.trans kept.2,
        .answered pass way point answer isAsking isAnswer answers ((frame.journal way).trans ?_)
          ((frame.journal way.other).trans ?_) (fun isDone => frame.done way.other ?_) ?_⟩
      · cases way <;> rfl
      · cases way <;> rfl
      · cases way <;> exact isDone
      · intro fault failed
        have is := afterStep_failed failed
        cases way <;> exact is
    · exact ⟨rfl, rfl, .none ignored.1 ignored.2 (fun _ _ => rfl)⟩
  · rename_i pass way isLooping _
    have frame := frame_startPass
      (Relay.otherDone { relay with latest := event.now } way event.now) pass.bGoesFirst
    have kept : (Relay.otherDone { relay with latest := event.now } way event.now).timeouts =
        relay.timeouts ∧
        (Relay.otherDone { relay with latest := event.now } way event.now).latest = event.now := by
      cases way <;> exact ⟨rfl, rfl⟩
    refine ⟨frame.timeouts.trans kept.1, frame.latest.trans kept.2,
      .ended pass way isLooping ((frame.journal way).trans ?_)
        ((frame.journal way.other).trans ?_) ?_ (startPass_not_failed _ _)⟩
    · cases way <;> rfl
    · cases way <;> rfl
    · intro any isDone
      refine frame.done any ?_
      cases way with
      | aToB =>
        cases any with
        | aToB => exact (isDone_otherDone _ _ _).trans isDone
        | bToA => exact isDone
      | bToA =>
        cases any with
        | aToB => exact isDone
        | bToA => exact (isDone_otherDone _ _ _).trans isDone
  · exact ⟨rfl, rfl, .none ignored.1 ignored.2 (fun _ _ => rfl)⟩

theorem note_otherEnd (journal : Journal) (direction : Direction) (now : Nat) (point : Point)
    (answer : Answer) : (journal.note direction now point answer).otherEnd = journal.otherEnd := by
  unfold Journal.note
  split
  any_goals rfl
  · split
    · exact noteCopy_otherEnd _ _ _ _ _
    · rfl
  · split <;> rfl

/-- A step on time. -/
theorem onTime_step (inTime : relay.InTime event) (prompt : strict → relay.Promptly event)
    (onTime : relay.OnTime strict timeouts) : (Relay.step relay event).OnTime strict timeouts := by
  obtain ⟨sameTimeouts, sameLatest, records⟩ := step_frame relay event
  have isTimeouts := onTime.same
  subst isTimeouts
  have good : ∀ way, (relay.side way).Sound ∧ Timed relay.timeouts event.now way (relay.side way) :=
    fun way => ⟨(onTime.keeps.good way).1, (onTime.keeps.good way).2.later inTime⟩
  have there := onTime.keeps.there
  refine ⟨sameTimeouts, ?_, ?_⟩
  · rw [sameLatest]
    refine timed_rules.step good there ?_ ?_
    · intro pass way point answer isAsking isAnswer answers
      rw [isAsking] at there
      obtain ⟨⟨atPoint, asked⟩, _⟩ := there
      have isPrompt : strict → (relay.side way).Prompt event.now point answer = true := by
        intro isStrict
        have is := prompt isStrict
        unfold Promptly at is
        rw [isAsking, isAnswer] at is
        exact is
      have stands : Side.Stands way
          ((relay.side way).journal.note (relay.side way).direction event.now point answer)
          ((relay.side way).direction.answered relay.pool relay.timeouts.writeStall event.now point
            answer) :=
        stands_answered (good way).1 atPoint answers
      have keeping : Keeping strict relay.timeouts event.now way
          ((relay.side way).journal.note (relay.side way).direction event.now point answer)
          ((relay.side way).direction.answered relay.pool relay.timeouts.writeStall event.now point
            answer) :=
        keeping_answered (good way).2 atPoint asked answers isPrompt
      exact stands.both keeping
    · intro pass way isLooping
      have told := (good way).1.otherDone (relay.timeouts.idle way) event.now
      have side : (relay.otherDone way event.now).side way =
          { direction := (relay.side way).direction.otherDone (relay.timeouts.idle way) event.now
            journal := { (relay.side way).journal with otherEnd := some event.now } } := by
        cases way <;> rfl
      rw [side]
      exact ⟨told, timed_otherDone (good way).2⟩
  · cases records with
    | none journal done failed =>
      intro way ended
      obtain ⟨registered, is⟩ := journal way
      rw [is] at ended
      exact done _ (onTime.told way ended)
    | answered pass way point answer isAsking _ _ journal other done _ =>
      rw [isAsking] at there
      obtain ⟨⟨atPoint, asked⟩, _⟩ := there
      have notDone := not_done_asked (good way).2 atPoint asked
      refine forall_way way ?_ ?_
      · rw [journal, note_otherEnd]
        exact fun ended => done (onTime.told way ended)
      · rw [other]
        intro ended
        have isDone := onTime.told way.other ended
        have back : way.other.other = way := by cases way <;> rfl
        rw [back] at isDone
        cases notDone.symm.trans isDone
    | ended pass way isLooping journal other done _ =>
      rw [isLooping] at there
      refine forall_way way (fun _ => done _ there) ?_
      rw [other]
      exact fun ended => done _ (onTime.told way.other ended)

theorem onTime_new {minSize maxSize now : Nat}
    (made : Relay.withTimeout minSize maxSize timeouts now = .ok relay) :
    relay.OnTime strict timeouts := by
  have sound := sound_new made
  unfold Relay.withTimeout CopyBuffer.newAdaptive at made
  split at made
  · cases made
  · cases made
    have timed : ∀ way, Timed timeouts now way
        { direction := .new (.withSizes minSize maxSize) now, journal := .new now } := by
      intro way
      refine ⟨Nat.le_refl now, nofun, ?_, fun copies => absurd rfl (copies _)⟩
      intro copy is
      cases is
      refine ⟨Nat.le_refl now, nofun, fun _ => Nat.le_refl now, ?_, ?_⟩
      · intro below
        exact absurd below (Nat.lt_irrefl _)
      · exact nofun
    have covered : Covered timeouts.writeStall
        { direction := .new (.withSizes minSize maxSize) now, journal := .new now } := by
      intro deadline runs
      cases runs
    refine ⟨rfl, ⟨fun way => ⟨sound.good way, ?_⟩, fun way => ?_⟩, fun way ended => ?_⟩
    · cases way <;> exact timed _
    · cases way <;> exact covered
    · cases way <;> cases ended

/-! ### When a relay gives up -/

/-- A relay fails as stalled when a writer was asked a write stall ago, and no byte has moved
since. -/
theorem stalled_since (inTime : relay.InTime event) (onTime : relay.OnTime strict timeouts)
    (running : relay.control ≠ .returned (.error .writeStalled))
    (stalled : (Relay.step relay event).control = .returned (.error .writeStalled)) :
    ∃ way, (relay.side way).journal.lastByte + timeouts.writeStall ≤ event.now ∧
      (strict → ∃ what since, (relay.side way).journal.held = some (what, since) ∧
        since + timeouts.writeStall ≤ event.now) := by
  have isTimeouts := onTime.same
  subst isTimeouts
  obtain ⟨_, _, records⟩ := step_frame relay event
  cases records with
  | none _ _ failed => exact absurd ((failed _ stalled).trans stalled) running
  | ended _ _ _ _ _ _ failed => exact absurd stalled (failed _)
  | answered pass way point answer isAsking _ answers _ _ _ failed =>
    have there := onTime.keeps.there
    rw [isAsking] at there
    obtain ⟨⟨atPoint, asked⟩, _⟩ := there
    have timed := (onTime.keeps.good way).2.later inTime
    obtain ⟨late, quiet, heldUp⟩ := answered_stalled timed atPoint asked answers (failed _ stalled)
    have late : (relay.side way).direction.lastProgress + relay.timeouts.writeStall ≤ event.now :=
      late
    have byte := timed.last_byte quiet
    refine ⟨way, by omega, fun isStrict => ?_⟩
    obtain ⟨what, since, held, early⟩ := heldUp isStrict
    have early : since ≤ (relay.side way).direction.lastProgress := early
    exact ⟨what, since, held, by omega⟩

theorem note_idle {journal : Journal} {direction : Direction} {now : Nat} {point : Point}
    {answer : Answer} (before : journal.idle = false)
    (after : (journal.note direction now point answer).idle = true) :
    ∃ deadline, point = .clock deadline .idle ∧ deadline ≤ now := by
  have copied : ∀ copy ask, (journal.noteCopy copy now ask answer).idle = journal.idle := by
    intro copy ask
    unfold Journal.noteCopy
    split
    · split <;> rfl
    · split <;> rfl
    all_goals rfl
  unfold Journal.note at after
  split at after
  · split at after
    · rw [copied, before] at after
      cases after
    · rw [before] at after
      cases after
  · cases before.symm.trans after
  · cases before.symm.trans after
  · cases before.symm.trans after
  · cases before.symm.trans after
  · rename_i deadline
    split at after
    · exact ⟨deadline, rfl, of_decide_eq_true after⟩
    · cases before.symm.trans after
  · cases before.symm.trans after

/-- A direction is closed as idle when the other one is done, and both that and the last byte
are its idle time ago. -/
theorem idle_since (onTime : relay.OnTime strict timeouts) {way : Way}
    (before : (relay.side way).journal.idle = false)
    (after : ((Relay.step relay event).side way).journal.idle = true) :
    relay.isDone way.other = true ∧
      (relay.side way).journal.lastByte + timeouts.idle way ≤ event.now ∧
      ∃ ended, (relay.side way).journal.otherEnd = some ended ∧
        ended + timeouts.idle way ≤ event.now := by
  obtain ⟨_, _, records⟩ := step_frame relay event
  cases records with
  | none journal _ _ =>
    obtain ⟨registered, is⟩ := journal way
    rw [is] at after
    cases before.symm.trans after
  | ended pass asked _ journal other _ _ =>
    by_cases here : way = asked
    · subst here
      rw [journal] at after
      cases before.symm.trans after
    · rw [eq_other here, other, ← eq_other here] at after
      cases before.symm.trans after
  | answered pass asked point answer isAsking _ answers journal other _ _ =>
    by_cases here : way = asked
    · subst here
      rw [journal] at after
      obtain ⟨deadline, isClock, late⟩ := note_idle before after
      subst isClock
      have there := onTime.keeps.there
      rw [isAsking] at there
      obtain ⟨⟨_, due⟩, _⟩ := there
      have timed := (onTime.keeps.good way).2
      obtain ⟨idle, idles, isDeadline⟩ := deadline_idle due.waits
      obtain ⟨isIdle, _, ended, isEnded, early⟩ := timed.told idle idles
      have byte := timed.last_byte due.quiet
      refine ⟨onTime.told way (by rw [isEnded]; rfl), by omega, ended, isEnded, by omega⟩
    · rw [eq_other here, other, ← eq_other here] at after
      cases before.symm.trans after

/-- When a relay gives up. The first part is about runs whose writers are asked for the end
of the stream no later than bytes last moved; the others are about all runs. -/
theorem gives_up_as_documented {minSize maxSize now : Nat} {before : List RelayEvent}
    (made : Relay.withTimeout minSize maxSize timeouts now = .ok relay)
    (inTime : Relay.step.Permits InTime (before ++ [event]) relay) :
    (Relay.step.Permits Promptly (before ++ [event]) relay →
      (Relay.step.run before relay).control ≠ .returned (.error .writeStalled) →
      (Relay.step.run (before ++ [event]) relay).control = .returned (.error .writeStalled) →
      ∃ way what since,
        ((Relay.step.run before relay).side way).journal.held = some (what, since) ∧
        since + timeouts.writeStall ≤ event.now ∧
        ((Relay.step.run before relay).side way).journal.lastByte + timeouts.writeStall ≤
          event.now) ∧
    (∀ way, ((Relay.step.run before relay).side way).journal.idle = false →
      ((Relay.step.run (before ++ [event]) relay).side way).journal.idle = true →
      (Relay.step.run before relay).isDone way.other = true ∧
      ((Relay.step.run before relay).side way).journal.lastByte + timeouts.idle way ≤ event.now ∧
      ∃ ended, ((Relay.step.run before relay).side way).journal.otherEnd = some ended ∧
        ended + timeouts.idle way ≤ event.now) ∧
    ((Relay.step.run (before ++ [event]) relay).control = .waiting →
      ∀ way, ∀ deadline ∈ ((Relay.step.run (before ++ [event]) relay).side way).direction.deadlines
        timeouts.writeStall,
        ∃ due, ((Relay.step.run (before ++ [event]) relay).side way).direction.timer = some due ∧
          due ≤ deadline ∧
          ((Relay.step.run (before ++ [event]) relay).side way).journal.registered = true) := by
  obtain ⟨inTimeBefore, inTimeThere⟩ := inTime.split
  have loose : (Relay.step.run before relay).OnTime False timeouts :=
    inTimeBefore.invariant
      (fun relay event permitted onTime => onTime_step permitted (fun is => is.elim) onTime)
      (onTime_new made)
  rw [Machine.run_append]
  refine ⟨?_, ?_, ?_⟩
  · intro promptly running stalled
    have promptlyInTime : Relay.step.Permits (fun relay event => InTime relay event ∧
        Promptly relay event) (before ++ [event]) relay :=
      inTime.and promptly
    have onTime : (Relay.step.run before relay).OnTime True timeouts :=
      promptlyInTime.split.1.invariant
        (fun relay event permitted onTime =>
          onTime_step permitted.1 (fun _ => permitted.2) onTime)
        (onTime_new made)
    obtain ⟨way, byte, held⟩ := stalled_since inTimeThere onTime running stalled
    obtain ⟨what, since, isHeld, early⟩ := held trivial
    exact ⟨way, what, since, isHeld, early, byte⟩
  · intro way notIdle idle
    exact idle_since loose notIdle idle
  · intro waiting way
    have after := onTime_step inTimeThere (fun is => is.elim) loose
    have there := after.keeps.there
    change (Relay.step (Relay.step.run before relay) event).control = .waiting at waiting
    rw [waiting] at there
    exact there way

/-! ### A quiet connection ends -/

namespace GivesUpExample

def polled (now : Nat) : RelayEvent :=
  { now, input := .poll { bytes := 0, buffers := [], max := 0 } }

def toldAt (now : Nat) (answer : Answer) : RelayEvent :=
  { now, input := .answer answer }

/-- Nothing to read for a hundred seconds, then the client's end, which the server does not
flush at once. -/
def quietEnd : List RelayEvent :=
  [polled 0, toldAt 0 (.buffer true), toldAt 0 .pending, toldAt 0 (.buffer true), toldAt 0 .pending,
    polled 100, toldAt 100 (.buffer true), toldAt 100 .pending, toldAt 100 (.buffer true),
    toldAt 100 (.bytes []), toldAt 100 .pending, toldAt 100 .finished]

def blockedWrite : List RelayEvent :=
  [polled 0, toldAt 0 (.buffer true), toldAt 0 (.bytes [1]), toldAt 0 .pending, toldAt 0 .clock,
    toldAt 0 .pending, toldAt 0 (.buffer true), toldAt 0 .pending,
    polled 60, toldAt 60 (.buffer true), toldAt 60 .pending, toldAt 60 .pending, toldAt 60 .finished]

end GivesUpExample

open GivesUpExample
open DeliveryExample (fresh)

theorem gives_up_at_once : Relay.step.Permits InTime (quietEnd ++ [toldAt 100 .clock]) fresh ∧
      (Relay.step.run quietEnd fresh).aToB.journal.held = some (.flush, 100) ∧
      (Relay.step.run quietEnd fresh).bToA.journal.held = none ∧
      (Relay.step.run (quietEnd ++ [toldAt 100 .clock]) fresh).control =
        .returned (.error .writeStalled) ∧
      DeliveryExample.timeouts.writeStall = 60 := by
  decide +kernel

theorem gives_up_as_documented_blocked :
    (Relay.step.run (blockedWrite ++ [toldAt 60 .clock]) fresh).control =
        .returned (.error .writeStalled) ∧
      ∃ way what since,
        ((Relay.step.run blockedWrite fresh).side way).journal.held = some (what, since) ∧
        since + 60 ≤ 60 ∧
        ((Relay.step.run blockedWrite fresh).side way).journal.lastByte + 60 ≤ 60 := by
  have made : Relay.withTimeout 4 8 DeliveryExample.timeouts 0 = .ok fresh := rfl
  have stalled : (Relay.step.run (blockedWrite ++ [toldAt 60 .clock]) fresh).control =
      .returned (.error .writeStalled) := by
    decide +kernel
  exact ⟨stalled, (gives_up_as_documented made (by decide +kernel)).1 (by decide +kernel)
    (by decide +kernel) stalled⟩

end Relay

end Sail.Net
