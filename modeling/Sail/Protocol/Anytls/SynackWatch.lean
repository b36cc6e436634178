/-
The watch for a SYNACK on an AnyTLS session, after `protocol/anytls/session.rs`.

Every atomic operation and lock section is a step. A stream's SYN is queued before its watch
takes a generation, and a SYNACK that comes in between is older than the generation: the
watch then waits for another. How many SYNACK frames had come is a record that the code
does not keep.
-/

import Mathlib
import Sail.Lib.Interleaving
import Sail.Lib.Runs

namespace Sail.Protocol.Anytls

/-- A stream whose SYN has been queued, and the SYNACK frames decoded before. -/
structure Opened where
  id : Nat
  queuedAfter : Nat
deriving DecidableEq

structure Session where
  peerVersion : Nat := 0
  synackGeneration : Nat := 0
  synackMissed : Nat := 0
  nextId : Nat := 1
  closed : Bool := false
  -- No one but the watches has it any more.
  dropped : Bool := false
  synacks : Nat := 0
  -- The streams whose watch closed the session, each with the SYNACK frames decoded before
  -- the watch fired.
  closings : List (Opened × Nat) := []

inductive Pc where
  | openWith (refused : Bool)
  | loadVersion (stream : Opened)
  | watchSynack (stream : Opened)
  | asleep (stream : Opened) (generation : Nat)
  | checkClosed (stream : Opened) (firedAfter : Nat)
  | storeMissed (stream : Opened) (firedAfter : Nat)
  | closeMissed (stream : Opened) (firedAfter : Nat)
  | decodeSynack
  | decodeSettings (version : Nat)
  | close
  | drop
deriving DecidableEq

namespace Pc

def bumped (session : Session) : Nat :=
  (session.synackGeneration + 1) % 2 ^ 64

def step : Pc → Session → Session × Option Pc
  | .openWith refused, session =>
    if session.closed || refused || 2 ^ 32 - 3 < session.nextId + 1 then (session, none)
    else
      ({ session with nextId := session.nextId + 1 },
        some (.loadVersion ⟨session.nextId, session.synacks⟩))
  | .loadVersion stream, session =>
    (session, if 2 ≤ stream.id ∧ 2 ≤ session.peerVersion then some (.watchSynack stream) else none)
  | .watchSynack stream, session =>
    ({ session with synackGeneration := bumped session }, some (.asleep stream (bumped session)))
  | .asleep stream generation, session =>
    (session, if !session.dropped && session.synackGeneration = generation then
      some (.checkClosed stream session.synacks) else none)
  | .checkClosed stream firedAfter, session =>
    (session, if session.closed then none else some (.storeMissed stream firedAfter))
  | .storeMissed stream firedAfter, session =>
    ({ session with synackMissed := stream.id }, some (.closeMissed stream firedAfter))
  | .closeMissed stream firedAfter, session =>
    ({ session with closed := true, closings := session.closings ++ [(stream, firedAfter)] }, none)
  | .decodeSynack, session =>
    ({ session with synackGeneration := bumped session, synacks := session.synacks + 1 }, none)
  | .decodeSettings version, session => ({ session with peerVersion := version }, none)
  | .close, session => ({ session with closed := true }, none)
  | .drop, session => ({ session with dropped := true }, none)

/-- Its SYN is queued and its watch has no generation yet. -/
def unwatched : Pc → Bool
  | .loadVersion _ | .watchSynack _ => true
  | _ => false

end Pc

inductive Call where
  | openStream (refused : Bool)
  | decodeSynack
  | decodeSettings (version : Nat)
  | close
  | drop

def Call.entry : Call → Pc
  | .openStream refused => .openWith refused
  | .decodeSynack => .decodeSynack
  | .decodeSettings version => .decodeSettings version
  | .close => .close
  | .drop => .drop

def program : Program Session Pc Call where
  entry := Call.entry
  step := Pc.step

/-! ### What a watch knows -/

def Pc.Holds (session : Session) : Pc → Prop
  | .loadVersion stream | .watchSynack stream => stream.queuedAfter = session.synacks
  | .asleep stream generation =>
    generation ≤ session.synackGeneration ∧
      (generation = session.synackGeneration → stream.queuedAfter = session.synacks)
  | .checkClosed stream firedAfter | .storeMissed stream firedAfter
  | .closeMissed stream firedAfter => stream.queuedAfter = firedAfter
  | _ => True

structure Sound (threads : Threads Session Pc) : Prop where
  stands : ∀ thread pc, threads.running.lookup thread = some pc → pc.Holds threads.shared
  closings : ∀ closing ∈ threads.shared.closings, closing.1.queuedAfter = closing.2

/-- No SYNACK is decoded while a stream waits for its watch, and the generation does not
wrap. -/
def Orderly (threads : Threads Session Pc) : Action Call → Prop
  | .start _ => True
  | .advance thread => ∀ pc ∈ threads.running.lookup thread,
      threads.shared.synackGeneration + 1 < 2 ^ 64 ∧
        (pc = .decodeSynack → ∀ waiting ∈ threads.running.toList, waiting.2.unwatched = false)

instance (threads : Threads Session Pc) :
    (action : Action Call) → Decidable (Orderly threads action)
  | .start _ => .isTrue trivial
  | .advance thread => inferInstanceAs (Decidable (∀ pc ∈ threads.running.lookup thread, _))

variable {session : Session} {pc waiting : Pc}

/-- A step leaves a thread that holds what it should. -/
theorem holds_own (holds : pc.Holds session) {next : Pc}
    (goesOn : (pc.step session).2 = some next) : next.Holds (pc.step session).1 := by
  cases pc with
  | openWith refused =>
    simp only [Pc.step] at goesOn ⊢
    split_ifs at goesOn ⊢
    cases goesOn
    rfl
  | loadVersion _ | checkClosed _ _ =>
    simp only [Pc.step] at goesOn
    split_ifs at goesOn
    cases goesOn
    exact holds
  | watchSynack stream =>
    cases goesOn
    exact ⟨Nat.le_refl _, fun _ => holds⟩
  | asleep stream generation =>
    simp only [Pc.step] at goesOn
    split_ifs at goesOn with fires
    cases goesOn
    simp only [Bool.and_eq_true, decide_eq_true_eq] at fires
    exact holds.2 fires.2.symm
  | storeMissed stream firedAfter =>
    cases goesOn
    exact holds
  | _ => cases goesOn

/-- A step of another thread: a generation once taken is older than any bump after it. -/
theorem holds_other (fits : session.synackGeneration + 1 < 2 ^ 64)
    (apart : pc = .decodeSynack → waiting.unwatched = false) (holds : waiting.Holds session) :
    waiting.Holds (pc.step session).1 := by
  have bumps : Pc.bumped session = session.synackGeneration + 1 := Nat.mod_eq_of_lt fits
  have asleep {stream : Opened} {generation synacks : Nat}
      (holds : (Pc.asleep stream generation).Holds session) :
      (Pc.asleep stream generation).Holds
        { session with synackGeneration := Pc.bumped session, synacks } := by
    have taken := holds.1
    refine ⟨?_, fun same => ?_⟩ <;> dsimp only at * <;> omega
  cases pc with
  | openWith refused =>
    simp only [Pc.step]
    split_ifs <;> cases waiting <;> exact holds
  | watchSynack stream =>
    cases waiting with
    | asleep stream generation => exact asleep holds
    | _ => exact holds
  | decodeSynack =>
    cases waiting with
    | loadVersion _ | watchSynack _ => cases apart rfl
    | asleep stream generation => exact asleep holds
    | _ => exact holds
  | _ => cases waiting <;> exact holds

theorem closings_step (holds : pc.Holds session)
    (closings : ∀ closing ∈ session.closings, closing.1.queuedAfter = closing.2) :
    ∀ closing ∈ (pc.step session).1.closings, closing.1.queuedAfter = closing.2 := by
  cases pc with
  | openWith refused =>
    simp only [Pc.step]
    split_ifs <;> exact closings
  | closeMissed stream firedAfter =>
    intro closing member
    rcases List.mem_append.mp member with old | new
    · exact closings closing old
    · rw [List.mem_singleton.mp new]
      exact holds
  | _ => exact closings

theorem Sound.act {threads : Threads Session Pc} (action : Action Call)
    (orderly : Orderly threads action) (sound : Sound threads) :
    Sound (program.act threads action) := by
  cases action with
  | start call =>
    refine ⟨KeyedMap.every_insert sound.stands ?_, sound.closings⟩
    cases call <;> trivial
  | advance thread =>
    cases found : threads.running.lookup thread with
    | none =>
      rw [Program.act_absent found]
      exact sound
    | some pc =>
      obtain ⟨fits, apart⟩ := orderly pc found
      have holds := sound.stands thread pc found
      rw [Program.act_advance found]
      refine ⟨fun other waiting stands => ?_, closings_step holds sound.closings⟩
      dsimp only at stands
      rw [Threads.lookup_put] at stands
      split_ifs at stands with same
      · exact holds_own holds stands
      · exact holds_other fits (fun is => apart is _ (KeyedMap.mem_toList.mpr stands))
          (sound.stands other waiting stands)

/-- A watch that closes the session fired when no SYNACK had come since the SYN was
queued, where none came between the SYN and the watch's generation. -/
theorem closed_without_synack (actions : List (Action Call))
    (orderly : Machine.Permits program.act Orderly actions (.new {})) :
    ∀ closing ∈ (program.run actions (.new {})).shared.closings,
      closing.1.queuedAfter = closing.2 :=
  (orderly.invariant (fun _ action allowed => Sound.act action allowed)
    ⟨nofun, nofun⟩ : Sound _).closings

/-- Two streams are opened, the second once the server has told its version. -/
def twoOpened : List (Action Call) :=
  [.start (.openStream false), .advance 0, .advance 0, .start (.decodeSettings 2), .advance 1,
    .start (.openStream false), .advance 2]

theorem closed_without_synack_quiet :
    (⟨2, 0⟩, 0) ∈
        (program.run (twoOpened ++ List.replicate 6 (.advance 2)) (.new {})).shared.closings ∧
    ∀ closing ∈
        (program.run (twoOpened ++ List.replicate 6 (.advance 2)) (.new {})).shared.closings,
      closing.1.queuedAfter = closing.2 :=
  ⟨by decide +kernel, closed_without_synack _ (by decide +kernel)⟩

/-- The SYNACK is decoded before the watch has its generation. -/
theorem closed_behind_synack :
    (program.run
      (twoOpened ++ [.start .decodeSynack, .advance 3] ++ List.replicate 6 (.advance 2))
      (.new {})).shared.closings = [(⟨2, 0⟩, 1)] := by
  decide +kernel

end Sail.Protocol.Anytls
