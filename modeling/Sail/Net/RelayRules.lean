/-
What a relay keeps when each of its directions does, after `net/relay.rs`.

A direction acts when it is entered or answered; the other one then stands as it was.
`Good` is what holds of a direction at all times, `Asks` what holds at its question, and
`Rests` what holds once it has returned without failing.
-/

import Sail.Net.Relay

namespace Sail.Net

variable {Good : Way → Side → Prop} {Asks : Way → Side → Point → Prop}
  {Rests : Way → Side → Prop}

variable {way : Way} {journal : Journal}

structure Stands (Good : Way → Side → Prop) (Asks : Way → Side → Point → Prop)
    (Rests : Way → Side → Prop) (way : Way) (journal : Journal)
    (left : BufferPool × Direction × DirectionStep) : Prop where
  good : Good way { direction := left.2.1, journal := journal }
  asks : ∀ point, left.2.2 = .asks point →
    Asks way { direction := left.2.1, journal := journal } point
  rests : (left.2.2 = .pending ∨ left.2.2 = .ready (.ok ())) →
    Rests way { direction := left.2.1, journal := journal }

theorem Stands.of_asks {pool : BufferPool} {direction : Direction} {point : Point}
    (good : Good way { direction, journal }) (asks : Asks way { direction, journal } point) :
    Stands Good Asks Rests way journal (pool, direction, .asks point) := by
  refine ⟨good, fun other is => ?_, fun returned => ?_⟩
  · cases is
    exact asks
  · rcases returned with is | is <;> cases is

theorem Stands.of_returns {left : BufferPool × Direction × DirectionStep}
    (returns : ∀ point, left.2.2 ≠ .asks point) (good : Good way { direction := left.2.1, journal })
    (rests : Rests way { direction := left.2.1, journal }) :
    Stands Good Asks Rests way journal left :=
  ⟨good, fun point is => absurd is (returns point), fun _ => rests⟩

theorem Stands.of_failed {pool : BufferPool} {direction : Direction} {fault : RelayFault}
    (good : Good way { direction, journal }) :
    Stands Good Asks Rests way journal (pool, direction, .ready (.error fault)) := by
  refine ⟨good, fun other is => ?_, fun returned => ?_⟩
  · cases is
  · rcases returned with is | is <;> cases is

theorem Stands.both {More : Way → Side → Prop} {MoreAsks : Way → Side → Point → Prop}
    {MoreRests : Way → Side → Prop} {left : BufferPool × Direction × DirectionStep}
    (stands : Stands Good Asks Rests way journal left)
    (more : Stands More MoreAsks MoreRests way journal left) :
    Stands (fun way side => Good way side ∧ More way side)
      (fun way side point => Asks way side point ∧ MoreAsks way side point) MoreRests way journal
      left :=
  ⟨⟨stands.good, more.good⟩, fun point is => ⟨stands.asks point is, more.asks point is⟩, more.rests⟩

namespace Relay

def Control.Holds (Asks : Way → Side → Point → Prop) (Rests : Way → Side → Prop) (relay : Relay) :
    Control → Prop
  | .waiting => ∀ way, Rests way (relay.side way)
  | .asking pass way point =>
    Asks way (relay.side way) point ∧
      (way ≠ pass.first → Rests pass.first (relay.side pass.first)) ∧
      pass.isOpen way = true ∧ ∀ any, pass.isOpen any = false → relay.isDone any = true
  | .looping _ way => relay.isDone way.other = true
  | .returned (.ok counts) =>
    (∀ way, relay.isDone way = true) ∧
      counts = (relay.aToB.direction.count, relay.bToA.direction.count)
  | .returned (.error _) => True

structure Keeps (Good : Way → Side → Prop) (Asks : Way → Side → Point → Prop)
    (Rests : Way → Side → Prop) (relay : Relay) : Prop where
  good : ∀ way, Good way (relay.side way)
  there : Control.Holds Asks Rests relay relay.control

/-! ### The sides of a relay -/

theorem other_ne (way : Way) : way.other ≠ way := by
  cases way <;> decide

theorem eq_other {first : Way} (different : way ≠ first) : way = first.other := by
  cases way <;> cases first <;> first | rfl | exact absurd rfl different

theorem forall_way {P : Way → Prop} (way : Way) (here : P way) (there : P way.other) :
    ∀ any, P any := by
  intro any
  by_cases same : any = way
  · rw [same]
    exact here
  · rw [eq_other same]
    exact there

/-- Where a relay stands holds of its sides. -/
theorem Control.Holds.of_sides {relay other : Relay} {control : Control}
    (holds : Control.Holds Asks Rests relay control)
    (sides : ∀ way, other.side way = relay.side way) :
    Control.Holds Asks Rests other control := by
  have isDone : ∀ way, other.isDone way = relay.isDone way := by
    intro way
    unfold isDone
    rw [sides]
  cases control with
  | waiting =>
    intro way
    rw [sides]
    exact holds way
  | asking pass way point =>
    obtain ⟨asks, rested, isOpen, closed⟩ := holds
    refine ⟨?_, ?_, isOpen, ?_⟩
    · rw [sides]
      exact asks
    · rw [sides]
      exact rested
    · intro any
      rw [isDone]
      exact closed any
  | looping pass way => exact (isDone _).trans holds
  | returned result =>
    cases result with
    | error fault => trivial
    | ok counts =>
      obtain ⟨done, isCounts⟩ := holds
      refine ⟨fun way => (isDone way).trans (done way), ?_⟩
      have aToB : other.aToB = relay.aToB := sides .aToB
      have bToA : other.bToA = relay.bToA := sides .bToA
      rw [aToB, bToA]
      exact isCounts

/-! ### The end of a pass -/

variable {relay : Relay} {pass : Pass}

/-- Both directions have returned in a pass. -/
theorem keeps_endPass (good : ∀ way, Good way (relay.side way))
    (rests : ∀ way, Rests way (relay.side way)) : Keeps Good Asks Rests (relay.endPass pass) := by
  unfold endPass
  split
  · rename_i done
    exact ⟨good, forall_way .aToB done.1 done.2, rfl⟩
  · split
    · rename_i done
      exact ⟨good, done.2⟩
    · split
      · rename_i done
        exact ⟨good, done.2⟩
      · exact ⟨good, rests⟩

structure Rules (Good : Way → Side → Prop) (Asks : Way → Side → Point → Prop)
    (Rests : Way → Side → Prop) : Prop where
  enters : ∀ way direction journal pool, Good way { direction := direction, journal := journal } →
    Stands Good Asks Rests way journal (direction.enter pool)
  done : ∀ way side, Good way side → side.direction.isDone = true → Rests way side
  unregisters : ∀ way side, Good way side → Good way (unregister side)

variable (rules : Rules Good Asks Rests)

include rules

theorem Rules.enterWay (good : ∀ way, Good way (relay.side way)) (way : Way) :
    (∀ any, Good any ((relay.enterWay way).1.side any)) ∧
      (∀ point, (relay.enterWay way).2 = .asks point →
        Asks way ((relay.enterWay way).1.side way) point) ∧
      ((relay.enterWay way).2 = .pending ∨ (relay.enterWay way).2 = .ready (.ok ()) →
        Rests way ((relay.enterWay way).1.side way)) ∧
      (relay.enterWay way).1.side way.other = relay.side way.other := by
  have entered := rules.enters way (relay.side way).direction (relay.side way).journal relay.pool
    (good way)
  have same : (relay.enterWay way).1.side way =
      { direction := ((relay.side way).direction.enter relay.pool).2.1
        journal := (relay.side way).journal } := by
    cases way <;> rfl
  have other : (relay.enterWay way).1.side way.other = relay.side way.other := by
    cases way <;> rfl
  refine ⟨forall_way way ?_ ?_, ?_, ?_, other⟩
  · rw [same]
    exact entered.good
  · rw [other]
    exact good way.other
  · rw [same]
    exact entered.asks
  · rw [same]
    exact entered.rests

omit rules in
theorem keeps_afterStep (good : ∀ any, Good any (relay.side any)) {step : DirectionStep}
    (asks : ∀ point, step = .asks point → Asks way (relay.side way) point)
    (rests : step = .pending ∨ step = .ready (.ok ()) → Rests way (relay.side way))
    (rested : way ≠ pass.first → Rests pass.first (relay.side pass.first))
    (isOpen : pass.isOpen way = true)
    (isDone : ∀ any, pass.isOpen any = false → relay.isDone any = true)
    (second : way = pass.first → Rests way (relay.side way) →
      Keeps Good Asks Rests (relay.second pass)) :
    Keeps Good Asks Rests (relay.afterStep pass way step) := by
  have returned : Rests way (relay.side way) →
      Keeps Good Asks Rests
        (if way = pass.first then relay.second pass else relay.endPass pass) := by
    intro here
    split
    · rename_i isFirst
      exact second isFirst here
    · rename_i isSecond
      refine keeps_endPass good (forall_way pass.first (rested isSecond) ?_)
      rw [← eq_other isSecond]
      exact here
  cases step with
  | asks point => exact ⟨good, asks point rfl, rested, isOpen, isDone⟩
  | pending => exact returned (rests (.inl rfl))
  | ready result =>
    cases result with
    | error fault => exact ⟨good, trivial⟩
    | ok value => exact returned (rests (.inr rfl))

omit rules in
theorem afterSecond_eq (second : way ≠ pass.first) (step : DirectionStep) :
    relay.afterSecond pass way step = relay.afterStep pass way step := by
  unfold afterSecond afterStep
  rw [if_neg second]

theorem Rules.second (good : ∀ way, Good way (relay.side way))
    (rested : Rests pass.first (relay.side pass.first))
    (isDone : ∀ any, pass.isOpen any = false → relay.isDone any = true) :
    Keeps Good Asks Rests (relay.second pass) := by
  have back : pass.first.other.other = pass.first := by cases pass.first <;> rfl
  unfold Relay.second
  dsimp only
  split
  · rename_i isOpen
    obtain ⟨goodAfter, asks, rests, other⟩ := rules.enterWay good pass.first.other
    rw [back] at other
    rw [afterSecond_eq (other_ne _)]
    refine keeps_afterStep goodAfter asks rests (fun _ => ?_) isOpen ?_
      (fun isFirst => absurd isFirst (other_ne _))
    · rw [other]
      exact rested
    · refine forall_way pass.first.other ?_ ?_
      · intro closed
        rw [isOpen] at closed
        cases closed
      · rw [back]
        intro closed
        unfold Relay.isDone
        rw [other]
        exact isDone _ closed
  · rename_i closed
    refine keeps_endPass good (forall_way pass.first rested ?_)
    exact rules.done _ _ (good _) (isDone _ (Bool.eq_false_iff.mpr closed))

/-- A direction has taken a step in a pass. -/
theorem Rules.afterStep (good : ∀ any, Good any (relay.side any)) {step : DirectionStep}
    (asks : ∀ point, step = .asks point → Asks way (relay.side way) point)
    (rests : step = .pending ∨ step = .ready (.ok ()) → Rests way (relay.side way))
    (rested : way ≠ pass.first → Rests pass.first (relay.side pass.first))
    (isOpen : pass.isOpen way = true)
    (isDone : ∀ any, pass.isOpen any = false → relay.isDone any = true) :
    Keeps Good Asks Rests (relay.afterStep pass way step) :=
  keeps_afterStep good asks rests rested isOpen isDone
    fun isFirst here => rules.second good (isFirst ▸ here) isDone

theorem Rules.startPass (good : ∀ way, Good way (relay.side way)) (bGoesFirst : Bool) :
    Keeps Good Asks Rests (relay.startPass bGoesFirst) := by
  unfold Relay.startPass
  dsimp only
  generalize isPass : ({ bGoesFirst, aToBOpen := !relay.isDone .aToB
                         bToAOpen := !relay.isDone .bToA } : Pass) = pass
  have isDone : ∀ any, pass.isOpen any = false → relay.isDone any = true := by
    intro any closed
    subst isPass
    cases any with
    | aToB | bToA => exact (Bool.not_eq_false' ..).mp closed
  split
  · rename_i isOpen
    obtain ⟨goodAfter, asks, rests, other⟩ := rules.enterWay good pass.first
    refine rules.afterStep goodAfter asks rests (fun different => absurd rfl different) isOpen ?_
    refine forall_way pass.first ?_ ?_
    · intro closed
      rw [isOpen] at closed
      cases closed
    · intro closed
      unfold Relay.isDone
      rw [other]
      exact isDone _ closed
  · rename_i closed
    exact rules.second good
      (rules.done _ _ (good _) (isDone _ (Bool.eq_false_iff.mpr closed))) isDone

/-- An event keeps what a direction keeps that is entered, answered or told of the other's
end. -/
theorem Rules.step {event : RelayEvent} (good : ∀ way, Good way (relay.side way))
    (there : Control.Holds Asks Rests relay relay.control)
    (answers : ∀ pass way point answer, relay.control = .asking pass way point →
      event.input = .answer answer → (relay.side way).direction.Answers point answer = true →
      Stands Good Asks Rests way
        ((relay.side way).journal.note (relay.side way).direction event.now point answer)
        ((relay.side way).direction.answered relay.pool relay.timeouts.writeStall event.now point
          answer))
    (otherDone : ∀ pass way, relay.control = .looping pass way →
      Good way ((relay.otherDone way event.now).side way)) :
    Keeps Good Asks Rests (Relay.step relay event) := by
  have sides : ∀ way, { relay with latest := event.now }.side way = relay.side way := by
    intro way
    cases way <;> rfl
  unfold Relay.step
  dsimp only
  split
  · refine rules.startPass ?_ _
    intro way
    cases way with
    | aToB => exact rules.unregisters _ _ (good .aToB)
    | bToA => exact rules.unregisters _ _ (good .bToA)
  · rename_i pass way point answer isAsking isAnswer
    split
    · rename_i fits
      have stands := answers pass way point answer isAsking isAnswer fits
      rw [isAsking] at there
      obtain ⟨_, rested, isOpen, isDone⟩ := there
      have same : (Relay.answered { relay with latest := event.now } way point answer event.now).1.side
          way =
            { direction := ((relay.side way).direction.answered relay.pool
                relay.timeouts.writeStall event.now point answer).2.1
              journal := (relay.side way).journal.note (relay.side way).direction event.now point
                answer } := by
        cases way <;> rfl
      have other : (Relay.answered { relay with latest := event.now } way point answer
          event.now).1.side way.other = relay.side way.other := by
        cases way <;> rfl
      refine rules.afterStep (forall_way way ?_ ?_) ?_ ?_ ?_ isOpen (forall_way way ?_ ?_)
      · rw [same]
        exact stands.good
      · rw [other]
        exact good way.other
      · have asks := stands.asks
        cases way <;> exact asks
      · have rests := stands.rests
        cases way <;> exact rests
      · intro second
        have isFirst : pass.first = way.other := eq_other (fun same => second same.symm)
        rw [isFirst, other, ← isFirst]
        exact rested second
      · intro closed
        rw [isOpen] at closed
        cases closed
      · intro closed
        unfold Relay.isDone
        rw [other]
        exact isDone _ closed
    · exact ⟨fun any => sides any ▸ good any, there.of_sides sides⟩
  · rename_i pass way isLooping _
    have here : (Relay.otherDone { relay with latest := event.now } way event.now).side way =
        (relay.otherDone way event.now).side way := by
      cases way <;> rfl
    refine rules.startPass (forall_way way (here ▸ otherDone pass way isLooping) ?_) _
    have other : (Relay.otherDone { relay with latest := event.now } way event.now).side way.other =
        relay.side way.other := by
      cases way <;> rfl
    rw [other]
    exact good way.other
  · exact ⟨fun any => sides any ▸ good any, there.of_sides sides⟩

/-! ### What a pass leaves alone -/

structure Frame (after before : Relay) : Prop where
  timeouts : after.timeouts = before.timeouts
  latest : after.latest = before.latest
  journal : ∀ way, (after.side way).journal = (before.side way).journal
  done : ∀ way, before.isDone way = true → after.isDone way = true

omit rules

theorem Frame.trans {first second third : Relay} (left : Frame third second)
    (right : Frame second first) : Frame third first :=
  ⟨left.timeouts.trans right.timeouts, left.latest.trans right.latest,
    fun way => (left.journal way).trans (right.journal way),
    fun way isDone => left.done way (right.done way isDone)⟩

theorem enter_done {direction : Direction} (isDone : direction.isDone = true) (pool : BufferPool) :
    (direction.enter pool).2.1.isDone = true := by
  have isState : direction.state = .done := of_decide_eq_true isDone
  unfold Direction.enter
  rw [isState]
  exact isDone

variable (relay : Relay)

theorem frame_enterWay (way : Way) : Frame (relay.enterWay way).1 relay := by
  cases way with
  | aToB =>
    refine ⟨rfl, rfl, forall_way .aToB rfl rfl, forall_way .aToB ?_ id⟩
    exact fun isDone => enter_done isDone relay.pool
  | bToA =>
    refine ⟨rfl, rfl, forall_way .aToB rfl rfl, forall_way .aToB id ?_⟩
    exact fun isDone => enter_done isDone relay.pool

theorem frame_control (control : Control) : Frame { relay with control } relay :=
  ⟨rfl, rfl, forall_way .aToB rfl rfl, forall_way .aToB id id⟩

variable (pass : Pass)

theorem frame_endPass : Frame (relay.endPass pass) relay := by
  unfold endPass
  split
  · exact frame_control relay _
  · split
    · exact frame_control relay _
    · split <;> exact frame_control relay _

theorem frame_second : Frame (relay.second pass) relay := by
  have entered := frame_enterWay relay pass.first.other
  unfold second
  dsimp only
  split
  · refine Frame.trans ?_ entered
    unfold afterSecond
    split
    · exact frame_control _ _
    · exact frame_control _ _
    · exact frame_endPass _ pass
  · exact frame_endPass relay pass

theorem frame_afterStep (way : Way) (step : DirectionStep) :
    Frame (relay.afterStep pass way step) relay := by
  unfold afterStep
  split
  · exact frame_control _ _
  · exact frame_control _ _
  · split
    · exact frame_second relay pass
    · exact frame_endPass relay pass

theorem frame_startPass (bGoesFirst : Bool) : Frame (relay.startPass bGoesFirst) relay := by
  unfold startPass
  dsimp only
  split
  · exact (frame_afterStep _ _ _ _).trans (frame_enterWay relay _)
  · exact frame_second relay _

/-! ### What a relay fails with -/

theorem endPass_not_failed (fault : RelayFault) :
    (relay.endPass pass).control ≠ .returned (.error fault) := by
  unfold endPass
  intro is
  split at is
  · cases is
  · split at is
    · cases is
    · split at is <;> cases is

theorem enter_not_failed (pool : BufferPool) (direction : Direction) (fault : RelayFault) :
    (direction.enter pool).2.2 ≠ .ready (.error fault) := by
  unfold Direction.enter
  intro is
  split at is <;> cases is

theorem second_not_failed (fault : RelayFault) :
    (relay.second pass).control ≠ .returned (.error fault) := by
  unfold second
  dsimp only
  intro is
  split at is
  · unfold afterSecond at is
    split at is
    · cases is
    · rename_i failed
      exact enter_not_failed _ _ _ failed
    · exact endPass_not_failed _ pass fault is
  · exact endPass_not_failed relay pass fault is

/-- A relay fails with what the direction that was answered fails with. -/
theorem afterStep_failed {relay : Relay} {pass : Pass} {step : DirectionStep} {fault : RelayFault}
    (failed : (relay.afterStep pass way step).control = .returned (.error fault)) :
    step = .ready (.error fault) := by
  unfold afterStep at failed
  split at failed
  · cases failed
  · cases failed
    rfl
  · split at failed
    · exact absurd failed (second_not_failed relay pass fault)
    · exact absurd failed (endPass_not_failed relay pass fault)

theorem startPass_not_failed (bGoesFirst : Bool) (fault : RelayFault) :
    (relay.startPass bGoesFirst).control ≠ .returned (.error fault) := by
  unfold startPass
  dsimp only
  intro is
  split at is
  · exact enter_not_failed _ _ _ (afterStep_failed is)
  · exact second_not_failed relay _ fault is

end Relay

end Sail.Net
