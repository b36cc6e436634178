/-
What goes through a relay arrives, after `net/relay.rs`.

The bytes read and not yet written are the ones between the copy's two positions in its
buffer. Every step keeps that, whatever the buffer held before: a buffer is given up only
while the positions meet, and a read puts its bytes at the front.
-/

import Sail.Net.RelayRules

namespace Sail.Net

open Bytes

/-! ### A copy -/

structure Copying (copy : CopyBuffer) (journal : Journal) : Prop where
  inOrder : copy.pos ≤ copy.cap
  held : copy.pos < copy.cap → copy.cap ≤ (copy.buf.getD []).length
  parts : journal.taken = journal.given ++ copy.unwritten
  counted : copy.amt = journal.given.length
  ended : copy.readDone = true → journal.ended = true
  notClosed : journal.closed = false
  notIdle : journal.idle = false

def AtAsk (copy : CopyBuffer) : CopyAsk → Prop
  | .buffer => copy.pos = copy.cap ∧ copy.readDone = false
  | .read => copy.pos = copy.cap ∧ copy.readDone = false
  | .write => copy.pos < copy.cap
  | .flushWaiting => copy.pos = copy.cap ∧ copy.readDone = false ∧ copy.needFlush = true
  | .flushEnd => copy.pos = copy.cap ∧ copy.readDone = true

def AtReturn (copy : CopyBuffer) (journal : Journal) : CopyStep → Prop
  | .asks ask => AtAsk copy ask
  | .pending => True
  | .ready (.error _) => True
  | .ready (.ok count) =>
    count = copy.amt ∧ copy.pos = copy.cap ∧ copy.readDone = true ∧ journal.flushed = true

variable {copy : CopyBuffer} {journal : Journal} {pool : BufferPool} {now : Nat}

theorem slice_self (bytes : Bytes) (place : Nat) : slice bytes place place = [] := by
  rw [slice, List.drop_eq_nil_iff]
  exact List.length_take_le _ _

theorem unwritten_of_met (met : copy.pos = copy.cap) : copy.unwritten = [] := by
  rw [CopyBuffer.unwritten, met, slice_self]

/-- A copy whose positions have met may lose its buffer. -/
theorem Copying.without_buffer (copying : Copying copy journal) (met : copy.pos = copy.cap) :
    Copying { copy with buf := none } journal where
  inOrder := copying.inOrder
  held below := absurd met (Nat.ne_of_lt below)
  parts := by
    rw [copying.parts, unwritten_of_met met]
    rw [@unwritten_of_met { copy with buf := none } met]
  counted := copying.counted
  ended := copying.ended
  notClosed := copying.notClosed
  notIdle := copying.notIdle

/-- Flags do not matter to what is moved. -/
theorem Copying.flagged (copying : Copying copy journal) (needFlush progressed blocked : Bool) :
    Copying { copy with needFlush, progressed, writerBlocked := blocked }
      journal where
  inOrder := copying.inOrder
  held := copying.held
  parts := copying.parts
  counted := copying.counted
  ended := copying.ended
  notClosed := copying.notClosed
  notIdle := copying.notIdle

theorem Copying.loop (copying : Copying copy journal) :
    Copying (copy.loop pool).2.1 journal ∧ AtAsk (copy.loop pool).2.1 (copy.loop pool).2.2 := by
  unfold CopyBuffer.loop
  split
  · rename_i reads
    split
    · exact ⟨copying, reads⟩
    · split
      · exact ⟨copying.without_buffer reads.1, reads⟩
      · exact ⟨copying, reads⟩
  · rename_i noRead
    split
    · rename_i writes
      exact ⟨copying.flagged copy.needFlush copy.progressed true, writes⟩
    · rename_i noWrite
      have met : copy.pos = copy.cap := Nat.le_antisymm copying.inOrder (Nat.le_of_not_lt noWrite)
      refine ⟨copying.flagged copy.needFlush copy.progressed true, met, ?_⟩
      cases done : copy.readDone with
      | true => rfl
      | false => exact absurd ⟨met, done⟩ noRead

theorem Copying.giveBack (copying : Copying copy journal) (met : copy.pos = copy.cap) :
    Copying (copy.giveBack pool).2 journal ∧
      (copy.giveBack pool).2.pos = (copy.giveBack pool).2.cap ∧
      (copy.giveBack pool).2.readDone = copy.readDone := by
  unfold CopyBuffer.giveBack
  split
  · exact ⟨copying, met, rfl⟩
  · exact ⟨copying.without_buffer met, met, rfl⟩

theorem adaptSize_keeps (copy : CopyBuffer) (count : Nat) :
    (copy.adaptSize count).amt = copy.amt ∧ (copy.adaptSize count).readDone = copy.readDone ∧
      (copy.adaptSize count).needFlush = copy.needFlush := by
  unfold CopyBuffer.adaptSize
  split
  · exact ⟨rfl, rfl, rfl⟩
  · split
    · exact ⟨rfl, rfl, rfl⟩
    · exact ⟨rfl, rfl, rfl⟩

/-- A read puts its bytes behind those that were written. -/
theorem Copying.filled (copying : Copying copy journal) (met : copy.pos = copy.cap)
    {data : Bytes} (room : data.length ≤ (copy.buf.getD []).length) :
    Copying (copy.filled data) (journal.noteCopy copy now .read (.bytes data)) := by
  have everything : journal.taken = journal.given := by
    rw [copying.parts, unwritten_of_met met, List.append_nil]
  unfold CopyBuffer.filled
  cases data with
  | nil =>
    exact ⟨copying.inOrder, copying.held, copying.parts, copying.counted, fun _ => rfl,
      copying.notClosed, copying.notIdle⟩
  | cons byte rest =>
    obtain ⟨amount, readDone, _⟩ := adaptSize_keeps copy (byte :: rest).length
    cases isBuffer : copy.buf with
    | none =>
      rw [isBuffer] at room
      exact absurd room (Nat.not_succ_le_zero _)
    | some buffer =>
      have fits : (byte :: rest).length ≤ ((byte :: rest) ++ buffer.drop (byte :: rest).length).length := by
        rw [List.length_append]
        exact Nat.le_add_right _ _
      refine ⟨Nat.zero_le _, fun _ => fits, ?_, amount.trans copying.counted, ?_,
        copying.notClosed, copying.notIdle⟩
      · change journal.taken ++ (byte :: rest) = journal.given ++
          slice ((byte :: rest) ++ buffer.drop (byte :: rest).length) 0 (byte :: rest).length
        rw [everything, slice, List.drop_zero, List.take_left]
      · intro done
        exact copying.ended (readDone.symm.trans done)

variable {count : Nat} {other : Journal} {result : CopyStep} {side : Side}

/-- A write takes the bytes at the front of those that are left. -/
theorem Copying.wrote (copying : Copying copy journal) (some : count ≠ 0)
    (offered : count ≤ copy.cap - copy.pos) :
    Copying (copy.wrote count) (journal.noteCopy copy now .write (.took count)) := by
  have below : copy.pos < copy.cap := by omega
  have fits := copying.held below
  have length : (slice (copy.buf.getD []) copy.pos (copy.pos + count)).length = count :=
    length_slice_add (by omega)
  have front : copy.unwritten.take count =
      slice (copy.buf.getD []) copy.pos (copy.pos + count) := by
    unfold CopyBuffer.unwritten
    rw [← slice_append_slice (copy.buf.getD []) (Nat.le_add_right copy.pos count)
      (show copy.pos + count ≤ copy.cap by omega)]
    conv =>
      lhs
      arg 1
      rw [← length]
    exact List.take_left
  unfold Journal.noteCopy
  dsimp only
  rw [if_neg some]
  refine ⟨?_, fun _ => fits, ?_, ?_, copying.ended, copying.notClosed, copying.notIdle⟩
  · change copy.pos + count ≤ copy.cap
    omega
  · change journal.taken = (journal.given ++ copy.unwritten.take count) ++
      slice (copy.buf.getD []) (copy.pos + count) copy.cap
    rw [copying.parts, front, List.append_assoc,
      slice_append_slice _ (Nat.le_add_right _ _) (by omega)]
    rfl
  · change copy.amt + count = (journal.given ++ copy.unwritten.take count).length
    rw [List.length_append, front, length, copying.counted]

structure SameBytes (journal other : Journal) : Prop where
  taken : other.taken = journal.taken
  given : other.given = journal.given
  ended : other.ended = journal.ended
  closed : other.closed = journal.closed
  idle : other.idle = journal.idle

theorem Copying.noted (copying : Copying copy journal) (same : SameBytes journal other) :
    Copying copy other where
  inOrder := copying.inOrder
  held := copying.held
  parts := by rw [same.taken, same.given, copying.parts]
  counted := by rw [same.given, copying.counted]
  ended done := by rw [same.ended, copying.ended done]
  notClosed := by rw [same.closed, copying.notClosed]
  notIdle := by rw [same.idle, copying.notIdle]

theorem sameBytes_hold (journal : Journal) (what : Held) (now : Nat) :
    SameBytes journal (journal.hold what now) :=
  ⟨rfl, rfl, rfl, rfl, rfl⟩

theorem Copying.answered {ask : CopyAsk} {answer : Answer} (copying : Copying copy journal)
    (atAsk : AtAsk copy ask) (answers : copy.Answers ask answer = true) :
    Copying (copy.answered pool ask answer).2.1 (journal.noteCopy copy now ask answer) ∧
      AtReturn (copy.answered pool ask answer).2.1 (journal.noteCopy copy now ask answer)
        (copy.answered pool ask answer).2.2 := by
  cases ask with
  | buffer =>
    cases answer with
    | buffer allocates =>
      unfold CopyBuffer.answered Journal.noteCopy
      dsimp only
      have bare := copying.without_buffer atAsk.1
      split
      · exact ⟨copying, trivial⟩
      · rename_i left buffer _
        refine ⟨⟨bare.inOrder, fun below => absurd atAsk.1 (Nat.ne_of_lt below), ?_,
          bare.counted, bare.ended, bare.notClosed, bare.notIdle⟩, atAsk⟩
        rw [copying.parts, unwritten_of_met atAsk.1]
        rw [@unwritten_of_met { copy with buf := some buffer } atAsk.1]
    | _ => cases answers
  | read =>
    cases answer with
    | bytes data =>
      have full : Copying (copy.filled data) (journal.noteCopy copy now .read (.bytes data)) :=
        copying.filled atAsk.1 (of_decide_eq_true answers)
      exact full.loop
    | pending =>
      obtain ⟨back, met, readDone⟩ := @Copying.giveBack copy journal pool copying atAsk.1
      unfold CopyBuffer.answered
      dsimp only
      split
      · rename_i needed
        exact ⟨back.flagged _ _ true, met, readDone.trans atAsk.2, needed⟩
      · exact ⟨back.flagged _ _ false, trivial⟩
    | failed => exact ⟨copying, trivial⟩
    | _ => cases answers
  | write =>
    cases answer with
    | took count =>
      unfold CopyBuffer.answered
      dsimp only
      split
      · rename_i none
        subst none
        exact ⟨copying, trivial⟩
      · rename_i some
        have onward : Copying (copy.wrote count)
            (journal.noteCopy copy now .write (.took count)) :=
          copying.wrote some (of_decide_eq_true answers)
        exact onward.loop
    | pending => exact ⟨copying.noted (sameBytes_hold journal .write now), trivial⟩
    | failed => exact ⟨copying, trivial⟩
    | _ => cases answers
  | flushWaiting =>
    cases answer with
    | finished =>
      exact ⟨(copying.flagged false copy.progressed false).noted ⟨rfl, rfl, rfl, rfl, rfl⟩, trivial⟩
    | pending => exact ⟨copying.noted (sameBytes_hold journal .flush now), trivial⟩
    | failed => exact ⟨copying, trivial⟩
    | _ => cases answers
  | flushEnd =>
    cases answer with
    | finished => exact ⟨copying.noted ⟨rfl, rfl, rfl, rfl, rfl⟩, rfl, atAsk.1, atAsk.2, rfl⟩
    | pending => exact ⟨copying.noted (sameBytes_hold journal .flush now), trivial⟩
    | failed => exact ⟨copying, trivial⟩
    | _ => cases answers

/-! ### A direction -/

structure Delivered (count : Nat) (journal : Journal) : Prop where
  counted : count = journal.given.length
  inOrder : journal.given <+: journal.taken
  whole : journal.idle = true ∨
    (journal.ended = true ∧ journal.given = journal.taken ∧ journal.flushed = true)

namespace Side

def Sound (side : Side) : Prop :=
  match side.direction.state with
  | .running copy => Copying copy side.journal
  | .shuttingDown count => Delivered count side.journal
  | .done => Delivered side.direction.count side.journal

def AtPoint (side : Side) : Point → Prop
  | .copy ask => ∃ copy, side.direction.state = .running copy ∧ AtAsk copy ask
  | .stamp result => ∃ copy, side.direction.state = .running copy ∧ AtReturn copy side.journal result
  | .shutdown => ∃ count, side.direction.state = .shuttingDown count
  | _ => True

abbrev Stands (way : Way) (journal : Journal) (left : BufferPool × Direction × DirectionStep) :
    Prop :=
  Net.Stands (fun _ side => side.Sound) (fun _ side point => side.AtPoint point)
    (fun _ _ => True) way journal left

end Side

variable {direction : Direction} {writeStall : Nat} {way : Way}

theorem Copying.delivered (copying : Copying copy journal)
    (atReturn : AtReturn copy journal (.ready (.ok count))) : Delivered count journal := by
  obtain ⟨isCount, met, readDone, flushed⟩ := atReturn
  have everything : journal.taken = journal.given := by
    rw [copying.parts, unwritten_of_met met, List.append_nil]
  exact ⟨isCount.trans copying.counted, everything ▸ List.prefix_refl _,
    .inr ⟨copying.ended readDone, everything.symm, flushed⟩⟩

theorem stands_pollDeadline (sound : Side.Sound { direction, journal }) :
    Side.Stands way journal (pool, direction.pollDeadline writeStall) := by
  unfold Direction.pollDeadline
  split
  · exact .of_returns nofun sound trivial
  · exact .of_asks sound trivial

theorem stands_closing (delivered : Delivered count journal) :
    Side.Stands way journal (direction.closing pool count) := by
  unfold Direction.closing
  split
  · exact .of_asks delivered ⟨count, rfl⟩
  · exact .of_asks delivered ⟨count, rfl⟩

theorem stands_copied (isState : direction.state = .running copy) (copying : Copying copy journal)
    (atReturn : AtReturn copy journal result) :
    Side.Stands way journal (direction.copied pool writeStall result) := by
  have sound : Side.Sound { direction, journal } := by
    unfold Side.Sound
    rw [isState]
    exact copying
  unfold Direction.copied
  split
  · exact .of_asks sound ⟨copy, isState, atReturn⟩
  · exact stands_pollDeadline sound
  · exact .of_failed sound
  · exact stands_closing (copying.delivered atReturn)

theorem AtReturn.flagged (atReturn : AtReturn copy journal result) (progressed : Bool) :
    AtReturn { copy with progressed } journal result := by
  cases result with
  | asks ask => cases ask <;> exact atReturn
  | pending => trivial
  | ready result =>
    cases result with
    | error fault => trivial
    | ok count => exact atReturn

theorem stands_returned (copying : Copying copy journal) (atReturn : AtReturn copy journal result) :
    Side.Stands way journal (direction.returned pool copy writeStall result) := by
  unfold Direction.returned
  split
  · exact .of_asks copying ⟨copy, rfl, atReturn⟩
  · exact .of_failed copying
  · split
    · exact .of_asks copying ⟨_, rfl, atReturn⟩
    · exact stands_copied rfl copying atReturn

theorem Delivered.noted (delivered : Delivered count journal)
    (same : SameBytes { journal with closed := other.closed } other)
    (flushed : other.flushed = journal.flushed) : Delivered count other where
  counted := by rw [same.given, delivered.counted]
  inOrder := by
    rw [same.given, same.taken]
    exact delivered.inOrder
  whole := by
    rw [same.idle, same.ended, same.given, same.taken, flushed]
    exact delivered.whole

theorem Side.Sound.noted (sound : Side.Sound { direction, journal })
    (same : SameBytes journal other) (flushed : other.flushed = journal.flushed) :
    Side.Sound { direction, journal := other } := by
  unfold Side.Sound at sound ⊢
  split
  · rename_i copy isState
    rw [isState] at sound
    exact sound.noted same
  · rename_i count isState
    rw [isState] at sound
    exact sound.noted ⟨same.taken, same.given, same.ended, rfl, same.idle⟩ flushed
  · rename_i isState
    rw [isState] at sound
    exact sound.noted ⟨same.taken, same.given, same.ended, rfl, same.idle⟩ flushed

/-- A direction given up on for idleness has delivered what it says. -/
theorem Copying.abandoned (copying : Copying copy journal) :
    Delivered copy.amt { journal with idle := true } :=
  ⟨copying.counted, ⟨copy.unwritten, copying.parts.symm⟩, .inl rfl⟩

section

variable (sound : Side.Sound { direction := direction, journal := journal })

include sound

/-- Before its deadline a direction is not taken for idle. -/
theorem note_clock_early {deadline : Nat} {expired : Expired} (early : ¬deadline ≤ now) :
    journal.note direction now (.clock deadline expired) .clock = journal := by
  unfold Journal.note
  unfold Side.Sound at sound
  cases expired with
  | writeStall => rfl
  | idle =>
    dsimp only at sound ⊢
    split
    · rename_i copy isState
      rw [isState] at sound
      rw [decide_eq_false early, ← sound.notIdle]
    · rfl

theorem stands_expire {deadline : Nat} {expired : Expired} (late : deadline ≤ now) :
    Side.Stands way (journal.note direction now (.clock deadline expired) .clock)
      (direction.expire pool expired) := by
  cases expired with
  | writeStall =>
    exact .of_failed sound
  | idle =>
    have standing := sound
    unfold Side.Sound at sound
    unfold Journal.note Direction.expire
    dsimp only at sound ⊢
    rw [decide_eq_true late]
    split
    · rename_i copy isState
      rw [isState] at sound
      exact stands_closing sound.abandoned
    · exact .of_failed standing

theorem stands_answered {point : Point} {answer : Answer}
    (atPoint : Side.AtPoint { direction, journal } point)
    (answers : direction.Answers point answer = true) :
    Side.Stands way (journal.note direction now point answer)
      (direction.answered pool writeStall now point answer) := by
  cases point with
  | copy ask =>
    obtain ⟨copy, isState, atAsk⟩ := atPoint
    unfold Side.Sound at sound
    unfold Direction.Answers at answers
    unfold Direction.answered Journal.note
    rw [isState] at sound answers ⊢
    obtain ⟨copying, atReturn⟩ := @Copying.answered copy journal pool now ask answer sound atAsk answers
    exact stands_returned copying atReturn
  | stamp result =>
    obtain ⟨copy, isState, atReturn⟩ := atPoint
    unfold Side.Sound at sound
    rw [isState] at sound
    cases answer with
    | clock =>
      have unflagged := sound.flagged copy.needFlush false copy.writerBlocked
      have isTaken : (direction.takeProgress now).state =
          .running { copy with progressed := false } := by
        unfold Direction.takeProgress
        rw [isState]
      exact stands_copied isTaken unflagged (atReturn.flagged false)
    | _ => cases answers
  | shutdown =>
    obtain ⟨count, isState⟩ := atPoint
    unfold Side.Sound at sound
    rw [isState] at sound
    have closing : ∀ held, Side.Sound
        { direction, journal := { journal with closed := true, held } } := by
      intro held
      unfold Side.Sound
      rw [isState]
      exact sound.noted ⟨rfl, rfl, rfl, rfl, rfl⟩ rfl
    cases answer with
    | finished =>
      unfold Direction.answered
      rw [isState]
      have delivered : Delivered count { journal with closed := true, held := none } :=
        sound.noted ⟨rfl, rfl, rfl, rfl, rfl⟩ rfl
      exact .of_returns nofun delivered trivial
    | pending =>
      exact stands_pollDeadline (closing _)
    | failed =>
      exact .of_failed (closing journal.held)
    | _ => cases answers
  | timer deadline expired =>
    cases answer with
    | finished =>
      exact .of_asks sound trivial
    | pending =>
      exact .of_returns nofun
        (sound.noted ⟨rfl, rfl, rfl, rfl, rfl⟩ rfl) trivial
    | _ => cases answers
  | clock deadline expired =>
    cases answer with
    | clock =>
      unfold Direction.answered
      dsimp only
      by_cases late : deadline ≤ now
      · rw [if_pos late]
        exact stands_expire sound late
      · rw [if_neg late, note_clock_early sound late]
        exact .of_asks sound trivial
    | _ => cases answers

theorem stands_enter : Side.Stands way journal (direction.enter pool) := by
  have standing := sound
  unfold Side.Sound at sound
  unfold Direction.enter
  cases isState : direction.state with
  | running copy =>
    rw [isState] at sound
    obtain ⟨copying, atAsk⟩ := @Copying.loop copy journal pool sound
    exact .of_asks copying ⟨_, rfl, atAsk⟩
  | shuttingDown count =>
    exact .of_asks standing ⟨count, isState⟩
  | done =>
    exact .of_returns nofun standing trivial

end

/-! ### The relay -/

abbrev Relay.Sound : Relay → Prop :=
  Relay.Keeps (fun _ side => side.Sound) (fun _ side point => side.AtPoint point) (fun _ _ => True)

theorem sound_rules :
    Relay.Rules (fun _ side => side.Sound) (fun _ side point => side.AtPoint point)
      (fun _ _ => True) where
  enters _ _ _ _ sound := stands_enter sound
  done _ _ _ _ := trivial
  unregisters _ _ sound := sound.noted ⟨rfl, rfl, rfl, rfl, rfl⟩ rfl

theorem otherDone_state (direction : Direction) (idle now : Nat) :
    (direction.otherDone idle now).state = direction.state ∧
      (direction.otherDone idle now).count = direction.count := by
  unfold Direction.otherDone
  split
  · exact ⟨rfl, rfl⟩
  · exact ⟨rfl, rfl⟩

theorem Side.Sound.otherDone (sound : Side.Sound { direction, journal })
    (idle now : Nat) :
    Side.Sound
      { direction := direction.otherDone idle now
        journal := { journal with otherEnd := some now } } := by
  obtain ⟨state, count⟩ := otherDone_state direction idle now
  have told : Side.Sound { direction, journal := { journal with otherEnd := some now } } :=
    sound.noted ⟨rfl, rfl, rfl, rfl, rfl⟩ rfl
  unfold Side.Sound at told ⊢
  rw [state, count]
  exact told

theorem sound_step (relay : Relay) (event : RelayEvent) (sound : relay.Sound) :
    (Relay.step relay event).Sound := by
  refine sound_rules.step sound.good sound.there ?_ ?_
  · intro pass way point answer isAsking _ fits
    have there := sound.there
    rw [isAsking] at there
    exact stands_answered (sound.good way) there.1 fits
  · intro pass way _
    have told := (sound.good way).otherDone (relay.timeouts.idle way) event.now
    cases way <;> exact told

theorem sound_new {minSize maxSize : Nat} {timeouts : RelayTimeouts} {relay : Relay}
    (made : Relay.withTimeout minSize maxSize timeouts now = .ok relay) : relay.Sound := by
  unfold Relay.withTimeout CopyBuffer.newAdaptive at made
  split at made
  · cases made
  · cases made
    have copying : Copying (CopyBuffer.withSizes minSize maxSize) (Journal.new now) :=
      ⟨Nat.le_refl _, fun below => absurd below (Nat.lt_irrefl _), rfl, rfl,
        nofun, rfl, rfl⟩
    refine ⟨?_, fun _ => trivial⟩
    intro way
    cases way <;> exact copying

theorem sound_run {relay : Relay} (sound : relay.Sound) (events : List RelayEvent) :
    (Relay.step.run events relay).Sound := by
  induction events generalizing relay with
  | nil => exact sound
  | cons event rest ih => exact ih (sound_step relay event sound)

theorem Side.Sound.inOrder (sound : side.Sound) : side.journal.given <+: side.journal.taken := by
  unfold Side.Sound at sound
  split at sound
  · exact ⟨_, sound.parts.symm⟩
  · exact sound.inOrder
  · exact sound.inOrder

theorem Side.Sound.whole (sound : side.Sound) (closed : side.journal.closed = true) :
    side.journal.idle = true ∨
      (side.journal.ended = true ∧ side.journal.given = side.journal.taken ∧
        side.journal.flushed = true) := by
  unfold Side.Sound at sound
  split at sound
  · rw [sound.notClosed] at closed
    cases closed
  · exact sound.whole
  · exact sound.whole

theorem Side.Sound.finished (sound : side.Sound) (isDone : side.direction.isDone = true) :
    Delivered side.direction.count side.journal := by
  unfold Side.Sound at sound
  have state : side.direction.state = .done := of_decide_eq_true isDone
  rw [state] at sound
  exact sound

/-- At every moment of a relay: what was written is the front of what was read; a side is
shut down only behind everything read from the other, or for idleness; and the counts
returned are those of the bytes written. -/
theorem relay_delivers {minSize maxSize : Nat} {timeouts : RelayTimeouts} {relay : Relay}
    (made : Relay.withTimeout minSize maxSize timeouts now = .ok relay)
    (events : List RelayEvent) :
    (∀ way, ((Relay.step.run events relay).side way).journal.given <+:
        ((Relay.step.run events relay).side way).journal.taken ∧
      (((Relay.step.run events relay).side way).journal.closed = true →
        ((Relay.step.run events relay).side way).journal.idle = true ∨
          (((Relay.step.run events relay).side way).journal.ended = true ∧
            ((Relay.step.run events relay).side way).journal.given =
              ((Relay.step.run events relay).side way).journal.taken ∧
            ((Relay.step.run events relay).side way).journal.flushed = true))) ∧
    ∀ toB toA, (Relay.step.run events relay).control = .returned (.ok (toB, toA)) →
      toB = (Relay.step.run events relay).aToB.journal.given.length ∧
      toA = (Relay.step.run events relay).bToA.journal.given.length ∧
      ∀ way, ((Relay.step.run events relay).side way).journal.idle = false →
        ((Relay.step.run events relay).side way).journal.given =
          ((Relay.step.run events relay).side way).journal.taken := by
  have sound := sound_run (sound_new made) events
  refine ⟨fun way => ⟨(sound.good way).inOrder, (sound.good way).whole⟩, ?_⟩
  intro toB toA returned
  have there := sound.there
  rw [returned] at there
  obtain ⟨isDone, counts⟩ := there
  have delivered := fun way => (sound.good way).finished (isDone way)
  cases counts
  refine ⟨(delivered .aToB).counted, (delivered .bToA).counted, ?_⟩
  intro way notIdle
  rcases (delivered way).whole with idle | ⟨_, everything, _⟩
  · rw [notIdle] at idle
    cases idle
  · exact everything

/-! ### A short relay -/

namespace DeliveryExample

def timeouts : RelayTimeouts :=
  { writeStall := 60, aToBIdle := 30, bToAIdle := 30 }

def fresh : Relay :=
  .new (.withSizes 4 8) timeouts 0

def told (answer : Answer) : RelayEvent :=
  { now := 0, input := .answer answer }

/-- The client sends three bytes, of which the server takes two and then one; the server
ends, and then the client. The buffer held another connection's bytes. -/
def exchange : List RelayEvent :=
  [{ now := 0, input := .poll { bytes := 4, buffers := [[9, 9, 9, 9]], max := 8 } },
    told (.buffer true), told (.bytes [1, 2, 3]), told (.took 2), told (.took 1), told .pending,
    told .finished, told .clock,
    told (.buffer true), told (.bytes []), told .finished, told .finished, told .clock,
    told (.buffer true), told (.bytes []), told .finished, told .finished]

end DeliveryExample

open DeliveryExample

theorem relay_delivers_exchange :
    (Relay.step.run exchange fresh).control = .returned (.ok (3, 0)) ∧
      (Relay.step.run exchange fresh).aToB.journal.taken = [1, 2, 3] ∧
      (Relay.step.run exchange fresh).aToB.journal.given = [1, 2, 3] := by
  have returned : (Relay.step.run exchange fresh).control = .returned (.ok (3, 0)) := by
    decide +kernel
  have taken : (Relay.step.run exchange fresh).aToB.journal.taken = [1, 2, 3] := by
    decide +kernel
  have made : Relay.withTimeout 4 8 timeouts 0 = .ok fresh := rfl
  have everything := ((relay_delivers made exchange).2 3 0 returned).2.2 .aToB (by decide +kernel)
  exact ⟨returned, taken, everything.trans taken⟩

end Sail.Net
