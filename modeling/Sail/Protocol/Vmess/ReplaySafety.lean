/-
A VMess auth ID is taken once, after `protocol/vmess/header.rs`.

Any number of threads authenticate requests against one replay filter. A timestamp is good
for four minutes and a second in all, and an ID is remembered for four minutes: one whose
timestamp is as far ahead as it may be is forgotten before it has expired.
-/

import Sail.Protocol.Vmess.ReplayFilter

namespace Sail.Protocol.Vmess

open Bytes

/-! ### Calls -/

structure Call (T : Type*) where
  users : List (User T)
  authId : Block
  read : Nat
  checked : Nat
  later : Nat

section Runs

variable {T : Type*} (crc32 : Bytes → Nat) (epoch : Nat)

def Call.now (call : Call T) : Nat :=
  wholeSeconds epoch call.read

def serve : Recorder Generations (Call T) (User T) :=
  fun generations call =>
    let (generations, answer) := authenticate crc32 generations call.authId (call.now epoch)
      call.checked call.later call.users
    (generations, answer.toOption)

/-- A call whose ID a user's key opens to a good timestamp reaches the filter. -/
def Call.reaches (call : Call T) : Bool :=
  match recognise crc32 call.authId call.users with
  | none => false
  | some (_, time) => absDiff time (call.now epoch) ≤ maxTimeDifference

/-- Calls take the filter's lock one after the other, none longer than `delay` seconds after
it has read the wall clock. -/
structure Timed (start delay : Nat) (calls : List (Call T)) : Prop where
  started : ∀ call ∈ calls, start ≤ call.checked
  read : ∀ call ∈ calls, call.read ≤ call.checked
  prompt : ∀ call ∈ calls, call.checked ≤ call.read + delay * second
  held : ∀ call ∈ calls, call.checked ≤ call.later
  inTurn : calls.Pairwise (fun call next => call.later ≤ next.checked)

/-- Fewer IDs are checked in any four minutes than a generation holds. -/
def Few (calls : List (Call T)) : Prop :=
  ∀ start, (calls.filter (fun call => call.reaches crc32 epoch ∧ start ≤ call.later ∧
    call.later < start + replayWindow)).length < replayMaxEntries

variable {crc32 epoch} {generations : Generations} {call : Call T} {user : User T}

theorem serve_of_reaches (reaches : call.reaches crc32 epoch = true) :
    ∃ user time, recognise crc32 call.authId call.users = some (user, time) ∧
      absDiff time (call.now epoch) ≤ maxTimeDifference ∧
      serve crc32 epoch generations call =
        ((generations.check call.authId call.checked call.later).1,
          if (generations.check call.authId call.checked call.later).2 then some user
          else none) := by
  unfold Call.reaches at reaches
  cases found : recognise crc32 call.authId call.users with
  | none =>
    rw [found] at reaches
    cases reaches
  | some entry =>
    obtain ⟨user, time⟩ := entry
    rw [found] at reaches
    have close : absDiff time (call.now epoch) ≤ maxTimeDifference := of_decide_eq_true reaches
    refine ⟨user, time, rfl, close, ?_⟩
    unfold serve
    rw [authenticate_eq, found]
    dsimp only
    rw [if_neg (Nat.not_lt.mpr close)]
    cases (generations.check call.authId call.checked call.later).2 with
    | false => rfl
    | true => rfl

theorem serve_of_not_reaches (stopped : call.reaches crc32 epoch = false) :
    serve crc32 epoch generations call = (generations, none) := by
  unfold Call.reaches at stopped
  unfold serve
  rw [authenticate_eq]
  cases found : recognise crc32 call.authId call.users with
  | none => rfl
  | some entry =>
    obtain ⟨user, time⟩ := entry
    rw [found] at stopped
    have far : ¬ absDiff time (call.now epoch) ≤ maxTimeDifference :=
      of_decide_eq_false stopped
    dsimp only
    rw [if_pos (Nat.lt_of_not_le far)]
    rfl

/-- A call is taken if it reaches the filter and its ID is new there. -/
theorem serve_taken (taken : (serve crc32 epoch generations call).2 = some user) :
    call.reaches crc32 epoch = true ∧
      (generations.check call.authId call.checked call.later).2 = true := by
  cases reaches : call.reaches crc32 epoch with
  | false =>
    rw [serve_of_not_reaches reaches] at taken
    cases taken
  | true =>
    obtain ⟨_, _, _, _, is⟩ := serve_of_reaches reaches
    rw [is] at taken
    refine ⟨rfl, ?_⟩
    by_contra stale
    rw [if_neg stale] at taken
    cases taken

/-! ### An ID is remembered for four minutes -/

/-- The calls of a run up to now, and that the current generation holds no more IDs than
were checked since it started. -/
structure Fit (crc32 : Bytes → Nat) (epoch : Nat) (calls past : List (Call T))
    (generations : Generations) (rest : List (Call T)) : Prop where
  split : calls = past ++ rest
  since : ∀ call ∈ rest, generations.since ≤ call.checked
  counted : generations.current.card ≤
    (past.filter (fun call => call.reaches crc32 epoch ∧ generations.since ≤ call.later)).length

variable {start delay : Nat} {calls past rest : List (Call T)}

section

variable (timed : Timed start delay calls)

include timed

/-- What is known of a call that comes next. -/
theorem Timed.next (split : calls = past ++ call :: rest) :
    call.checked ≤ call.later ∧ (∀ before ∈ past, before.later ≤ call.checked) ∧
      (∀ after ∈ rest, call.later ≤ after.checked) := by
  subst split
  refine ⟨timed.held call List.mem_append_cons_self, ?_, ?_⟩
  · intro before member
    exact (List.pairwise_append.mp timed.inTurn).2.2 before member call List.mem_cons_self
  · intro after member
    exact List.rel_of_pairwise_cons (List.pairwise_append.mp timed.inTurn).2.1 member

/-- A young generation has room, so none is turned early. -/
theorem Fit.roomy (few : Few crc32 epoch calls)
    (fit : Fit crc32 epoch calls past generations (call :: rest))
    (young : call.checked < generations.since + replayWindow) :
    generations.current.card < replayMaxEntries := by
  refine Nat.lt_of_le_of_lt (Nat.le_trans fit.counted ?_) (few generations.since)
  obtain ⟨-, before, -⟩ := timed.next fit.split
  rw [fit.split, List.filter_append, List.length_append]
  refine Nat.le_trans (Nat.le_of_eq ?_) (Nat.le_add_right _ _)
  congr 1
  apply List.filter_congr
  intro earlier member
  have ended := before earlier member
  have inside : earlier.later < generations.since + replayWindow := by omega
  simp only [inside, and_true]

theorem Fit.onward (fit : Fit crc32 epoch calls past generations (call :: rest)) :
    Fit crc32 epoch calls (past ++ [call]) (serve crc32 epoch generations call).1 rest := by
  obtain ⟨held, -, after⟩ := timed.next fit.split
  have split : calls = past ++ [call] ++ rest := by
    rw [fit.split, List.append_assoc, List.singleton_append]
  have here := fit.since call List.mem_cons_self
  cases reaches : call.reaches crc32 epoch with
  | false =>
    rw [serve_of_not_reaches reaches]
    refine ⟨split, (List.forall_mem_cons.mp fit.since).2, ?_⟩
    rw [List.filter_append, List.length_append]
    exact Nat.le_trans fit.counted (Nat.le_add_right _ _)
  | true =>
    obtain ⟨_, _, _, _, is⟩ := @serve_of_reaches T crc32 epoch generations call reaches
    rw [is]
    rcases generations.check_current call.authId call.checked call.later with
      ⟨since, card⟩ | ⟨since, card⟩
    · refine ⟨split, fun later member => ?_, ?_⟩
      · rw [since]
        exact fit.since later (List.mem_cons_of_mem _ member)
      · have counted : call.reaches crc32 epoch = true ∧ generations.since ≤ call.later :=
          ⟨reaches, Nat.le_trans here held⟩
        rw [since, List.filter_append, List.length_append, List.filter_singleton,
          decide_eq_true counted]
        exact Nat.le_trans card (Nat.succ_le_succ fit.counted)
    · refine ⟨split, fun later member => ?_, ?_⟩
      · rw [since]
        exact after later member
      · have counted : call.reaches crc32 epoch = true ∧ call.later ≤ call.later :=
          ⟨reaches, Nat.le_refl _⟩
        rw [since, List.filter_append, List.length_append, List.filter_singleton,
          decide_eq_true counted]
        exact Nat.le_trans card (Nat.le_add_left _ _)

theorem serve_remembers (few : Few crc32 epoch calls) :
    (serve crc32 epoch).Remembers (fun entry : Call T × User T => entry.1.authId)
      (fun entry => entry.1.checked) Call.checked replayWindow
      (fun generations rest => ∃ past, Fit crc32 epoch calls past generations rest)
      Generations.Knows where
  onward := by
    rintro generations call rest ⟨past, fit⟩
    exact ⟨past ++ [call], fit.onward timed⟩
  ordered := by
    rintro generations call rest ⟨past, fit⟩ later member
    obtain ⟨held, -, after⟩ := timed.next fit.split
    exact Nat.le_trans held (after later member)
  learns := by
    rintro generations call rest user ⟨past, fit⟩ taken
    obtain ⟨reaches, fresh⟩ := serve_taken taken
    obtain ⟨_, _, _, _, is⟩ := @serve_of_reaches T crc32 epoch generations call reaches
    rw [is]
    exact Generations.knows_of_check (timed.next fit.split).1 fresh
  keeps := by
    rintro generations call rest id time ⟨past, fit⟩ known early
    cases reaches : call.reaches crc32 epoch with
    | false =>
      rw [serve_of_not_reaches reaches]
      exact known
    | true =>
      obtain ⟨_, _, _, _, is⟩ := @serve_of_reaches T crc32 epoch generations call reaches
      rw [is]
      exact Generations.knows_check (Generations.knows_turn known early
        (timed.next fit.split).1 (fit.roomy timed few)) call.authId
  refuses := by
    rintro generations call rest id time user ⟨past, fit⟩ known early taken same
    obtain ⟨-, fresh⟩ := serve_taken taken
    subst same
    rw [Generations.check_of_knows (Generations.knows_turn known early
      (timed.next fit.split).1 (fit.roomy timed few))] at fresh
    cases fresh

end

/-! ### An ID is taken once -/

/-- An ID that a user's key opens carries one timestamp, and it is less than two minutes
ahead of the clock by more than the time a call takes. -/
structure Stamped (crc32 : Bytes → Nat) (epoch delay : Nat) (calls : List (Call T)) : Prop where
  one : ∀ first ∈ calls, ∀ last ∈ calls, first.authId = last.authId →
    ∀ user time, recognise crc32 first.authId first.users = some (user, time) →
    ∀ other stamp, recognise crc32 last.authId last.users = some (other, stamp) → stamp = time
  near : ∀ call ∈ calls, ∀ user time, recognise crc32 call.authId call.users = some (user, time) →
    time + delay < call.now epoch + maxTimeDifference

theorem auth_id_accepted_once (timed : Timed start delay calls) (few : Few crc32 epoch calls)
    (stamped : Stamped crc32 epoch delay calls) :
    ((serve crc32 epoch).accepted calls (Generations.new start)).Pairwise
      (fun first last => first.1.authId ≠ last.1.authId) := by
  have fit : Fit crc32 epoch calls [] (Generations.new start) calls :=
    ⟨rfl, timed.started, Nat.le_refl 0⟩
  have apart := (serve_remembers timed few).accepted_apart ⟨[], fit⟩
  refine apart.imp_of_mem ?_
  intro first last firstMember lastMember apart same
  have firstCalled := (serve crc32 epoch).mem_of_accepted firstMember
  have lastCalled := (serve crc32 epoch).mem_of_accepted lastMember
  obtain ⟨state, taken⟩ := (serve crc32 epoch).taken_of_accepted firstMember
  obtain ⟨user, time, found, _, _⟩ :=
    @serve_of_reaches T crc32 epoch state first.1 (serve_taken taken).1
  obtain ⟨state, taken⟩ := (serve crc32 epoch).taken_of_accepted lastMember
  obtain ⟨other, stamp, again, close, _⟩ :=
    @serve_of_reaches T crc32 epoch state last.1 (serve_taken taken).1
  have sameStamp := stamped.one _ firstCalled _ lastCalled same _ _ found _ _ again
  have near := stamped.near _ firstCalled _ _ found
  have late : last.1.now epoch ≤ time + maxTimeDifference := by
    unfold absDiff at close
    omega
  have within : wholeSeconds epoch last.1.read + delay ≤
      wholeSeconds epoch first.1.read + (2 * maxTimeDifference - 1) := by
    unfold Call.now at near late
    omega
  have readings := reading_lt within
  have remembered := apart same.symm
  have firstRead := timed.read _ firstCalled
  have lastPrompt := timed.prompt _ lastCalled
  unfold replayWindow at remembered
  rw [Nat.sub_add_cancel (by decide)] at readings
  omega

end Runs

/-! ### An ID as far ahead as it may be -/

namespace ReplayExample

def noCrc (_ : Bytes) : Nat := 0

def plainUser : User Unit :=
  { decryptBlock := fun block => block, data := () }

def stampedId (time : Nat) : Block :=
  ⟨u64Bytes time ++ List.replicate 8 0, rfl⟩

/-- A call that takes no time, `half` half-seconds after the filter was made. -/
def callAt (time half : Nat) : Call Unit :=
  let instant := half * (second / 2)
  { users := [plainUser], authId := stampedId time, read := instant, checked := instant
    later := instant }

/-- The ID comes in half a second before its generation is turned, two minutes before its
timestamp, and again when both generations are dropped. -/
def replayed : List (Call Unit) :=
  [callAt 360 479, callAt 360 960]

def caught : List (Call Unit) :=
  [callAt 360 482, callAt 360 960]

theorem few_of_two (first last : Call Unit) (epoch : Nat) : Few noCrc epoch [first, last] := by
  intro start
  exact Nat.lt_of_le_of_lt (List.length_filter_le _ _) (by decide : 2 < replayMaxEntries)

theorem replayed_timed : Timed 0 0 replayed := by
  constructor <;> decide

theorem caught_timed : Timed 0 0 caught := by
  constructor <;> decide

theorem caught_stamped : Stamped noCrc (second / 2) 0 caught where
  one := by
    intro first isFirst last isLast same user time found other stamp again
    have stamps : ∀ call ∈ caught,
        (recognise noCrc call.authId call.users).map Prod.snd = some 360 := by decide
    have firstStamp := stamps first isFirst
    have lastStamp := stamps last isLast
    rw [found] at firstStamp
    rw [again] at lastStamp
    exact (Option.some.inj lastStamp).trans (Option.some.inj firstStamp).symm
  near := by
    intro call isCall user time found
    have near : ∀ call ∈ caught, (recognise noCrc call.authId call.users).map Prod.snd = some 360 ∧
        360 + 0 < call.now (second / 2) + maxTimeDifference := by decide
    have stamp := (near call isCall).1
    rw [found] at stamp
    have is : time = 360 := Option.some.inj stamp
    rw [is]
    exact (near call isCall).2

end ReplayExample

open ReplayExample

theorem auth_id_accepted_again : Timed 0 0 replayed ∧ Few noCrc (second / 2) replayed ∧
      (((serve noCrc (second / 2)).accepted replayed (Generations.new 0)).map
        (fun entry => entry.1.authId)) = [stampedId 360, stampedId 360] :=
  ⟨replayed_timed, few_of_two _ _ _, by decide +kernel⟩

theorem auth_id_accepted_once_ahead :
    (((serve noCrc (second / 2)).accepted caught (Generations.new 0)).map
        (fun entry => entry.1.authId)) = [stampedId 360] ∧
      ((serve noCrc (second / 2)).accepted caught (Generations.new 0)).Pairwise
        (fun first last => first.1.authId ≠ last.1.authId) :=
  ⟨by decide +kernel, auth_id_accepted_once caught_timed (few_of_two _ _ _) caught_stamped⟩

end Sail.Protocol.Vmess
