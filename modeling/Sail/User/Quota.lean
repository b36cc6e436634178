/-
The quota status of a user.

The threshold, the base, the counters and the status are written one at a time. Where
what a thread writes is still right when it is written, whatever is wrong in between is
put right by a thread at work, and nothing is wrong once all have returned.
-/

import Sail.User.State

namespace Sail.User

open UserState

/-- A step that writes what is right at the time: bytes are counted below the
largest number, the quota is marked as run out while the bytes reach the threshold
and as not while they do not, and the threshold is that of the base and the limits
in force. -/
def Timely (pc : Pc) (user : UserState) : Prop :=
  match pc with
  | .addUp count => user.up + user.down + count < maxU64
  | .addDown count => user.up + user.down + count < maxU64
  | .shut bits => bits.exhausted = true → user.quotaAt ≤ user.up + user.down
  | .clear bits _ => bits.exhausted = true → user.up + user.down < user.quotaAt
  | .applyAt quotaAt _ => quotaAt = threshold user.limits.quotaBytes user.quotaBase
  | _ => True

instance (pc : Pc) (user : UserState) : Decidable (Timely pc user) := by
  cases pc <;> unfold Timely <;> infer_instance

def Bounded (user : UserState) : Prop :=
  user.up + user.down < maxU64

theorem mod_of_bounded {n : Nat} (bounded : n < maxU64) : n % 2 ^ 64 = n :=
  Nat.mod_eq_of_lt (Nat.lt_of_lt_of_le bounded (Nat.sub_le _ _))

/-! ### Counting -/

/-- What a step does to the counters. -/
theorem step_counters {pc : Pc} {user : UserState} (timely : Timely pc user) :
    user.up ≤ (pc.step user).1.up ∧ user.down ≤ (pc.step user).1.down ∧
      (Bounded user → Bounded (pc.step user).1) := by
  cases pc with
  | admitLive id tag tcp limits =>
    change user.up ≤ (user.admitLive id tag tcp limits).up ∧
      user.down ≤ (user.admitLive id tag tcp limits).down ∧
      (Bounded user → Bounded (user.admitLive id tag tcp limits))
    unfold admitLive
    split_ifs <;> exact ⟨Nat.le_refl _, Nat.le_refl _, fun bounded => bounded⟩
  | addUp count =>
    change user.up ≤ (user.up + count) % 2 ^ 64 ∧ user.down ≤ user.down ∧
      (_ → (user.up + count) % 2 ^ 64 + user.down < maxU64)
    change user.up + user.down + count < maxU64 at timely
    rw [mod_of_bounded (by omega)]
    omega
  | addDown count =>
    change user.up ≤ user.up ∧ user.down ≤ (user.down + count) % 2 ^ 64 ∧
      (_ → user.up + (user.down + count) % 2 ^ 64 < maxU64)
    change user.up + user.down + count < maxU64 at timely
    rw [mod_of_bounded (by omega)]
    omega
  | _ => exact ⟨Nat.le_refl _, Nat.le_refl _, fun bounded => bounded⟩

/-- A step leaves the threshold unless it writes it. -/
theorem step_quotaAt (pc : Pc) (user : UserState) :
    (pc.step user).1.quotaAt = user.quotaAt ∨ ∃ quotaAt expired, pc = .applyAt quotaAt expired := by
  cases pc with
  | applyAt quotaAt expired => exact .inr ⟨quotaAt, expired, rfl⟩
  | admitLive id tag tcp limits =>
    refine .inl ?_
    change (user.admitLive id tag tcp limits).quotaAt = user.quotaAt
    unfold admitLive
    split_ifs <;> rfl
  | _ => exact .inl rfl

/-! ### The threshold -/

def AtThreshold (user : UserState) : Prop :=
  user.quotaAt = threshold user.limits.quotaBytes user.quotaBase

def WritesThreshold : Pc → UserState → Prop
  | .applyBase _ _, _ => True
  | .applyLimits _ _ _, _ => True
  | .applyAt _ _, _ => True
  | .resetLimits _, _ => True
  | _, _ => False

theorem threshold_repairs :
    program.Repairs (fun pc user => Timely pc user ∧ Bounded user) AtThreshold WritesThreshold where
  keeps := by
    intro pc user allowed holds
    cases pc with
    | applyLimits _ _ _ | resetBase _ _ => exact .inr ⟨_, rfl, trivial⟩
    | applyAt quotaAt expired => exact .inl allowed.1
    | admitLive id tag tcp limits =>
      refine .inl ?_
      change AtThreshold (user.admitLive id tag tcp limits)
      unfold admitLive
      split_ifs <;> exact holds
    | _ => exact .inl holds
  own := by
    intro pc user allowed writes
    cases pc with
    | applyBase _ _ | applyLimits _ _ _ | resetLimits _ => exact .inr ⟨_, rfl, trivial⟩
    | applyAt quotaAt expired => exact .inl allowed.1
    | _ => cases writes
  other := by
    intro pc waiting user _ writes
    refine .inl ?_
    cases waiting <;> first | exact trivial | cases writes

/-! ### Bytes that reach the threshold -/

def Marked (user : UserState) : Prop :=
  user.quotaAt ≤ user.up + user.down → user.status.exhausted = true

def Marks (pc : Pc) (user : UserState) : Prop :=
  match pc with
  | .checkAt => True
  | .checkUp quotaAt => quotaAt = user.quotaAt
  | .checkDown quotaAt up =>
    quotaAt = user.quotaAt ∧ up ≤ user.up ∧ quotaAt ≤ up + user.down
  | .checkStatus => True
  | .applyUp quotaAt _ => quotaAt = user.quotaAt
  | .applyDown quotaAt _ up =>
    quotaAt = user.quotaAt ∧ up ≤ user.up ∧ quotaAt ≤ up + user.down
  | .clear _ setting => setting.exhausted = true
  | .shut bits => bits.exhausted = true
  | _ => False

theorem marked_repairs :
    program.Repairs (fun pc user => Timely pc user ∧ Bounded user) Marked Marks where
  keeps := by
    intro pc user allowed holds
    cases pc with
    | addUp _ | addDown _ => exact .inr ⟨_, rfl, trivial⟩
    | applyAt quotaAt expired => exact .inr ⟨_, rfl, rfl⟩
    | shut bits =>
      refine .inl (fun reached => ?_)
      change (user.status.exhausted || bits.exhausted) = true
      rw [holds reached, Bool.true_or]
    | clear bits setting =>
      refine .inl (fun reached => ?_)
      change (user.status.exhausted && !bits.exhausted) = true
      cases clears : bits.exhausted with
      | true => exact absurd reached (Nat.not_le_of_lt (allowed.1 clears))
      | false => rw [holds reached, Bool.not_false, Bool.and_true]
    | admitLive id tag tcp limits =>
      refine .inl ?_
      change Marked (user.admitLive id tag tcp limits)
      unfold admitLive
      split_ifs <;> exact holds
    | _ => exact .inl holds
  own := by
    intro pc user allowed marks
    have bounded : user.up + user.down < maxU64 := allowed.2
    by_cases reached : user.quotaAt ≤ user.up + user.down
    · cases pc with
      | checkAt =>
        refine .inr ⟨.checkUp user.quotaAt, if_pos ?_, rfl⟩
        omega
      | checkUp _ | applyUp _ _ =>
        exact .inr ⟨_, rfl, marks, Nat.le_refl _, Nat.le_trans (Nat.le_of_eq marks) reached⟩
      | checkDown quotaAt up =>
        obtain ⟨_, older, enough⟩ := marks
        refine .inr ⟨.checkStatus, if_pos ?_, trivial⟩
        rw [mod_of_bounded (by omega)]
        exact enough
      | checkStatus =>
        cases marked : user.status.exhausted with
        | true => exact .inl (fun _ => marked)
        | false =>
          refine .inr ⟨.shut .exhaustedBit, if_neg ?_, rfl⟩
          rw [marked]
          exact Bool.false_ne_true
      | applyDown quotaAt expired up =>
        obtain ⟨_, older, enough⟩ := marks
        refine .inr ⟨_, rfl, decide_eq_true ?_⟩
        rw [mod_of_bounded (by omega)]
        exact enough
      | clear bits setting => exact .inr ⟨_, rfl, marks⟩
      | shut bits =>
        refine .inl (fun _ => ?_)
        change (user.status.exhausted || bits.exhausted) = true
        rw [show bits.exhausted = true from marks, Bool.or_true]
      | _ => cases marks
    · cases pc with
      | applyUp _ _ | clear _ _ | shut _ => exact .inl (fun impossible => absurd impossible reached)
      | _ => first | exact .inl (fun impossible => absurd impossible reached) | cases marks
  other := by
    intro pc waiting user allowed marks
    obtain ⟨upGrows, downGrows, _⟩ := step_counters allowed.1
    rcases step_quotaAt pc user with same | ⟨quotaAt, expired, rfl⟩
    · refine .inl ?_
      cases waiting with
      | checkUp _ | applyUp _ _ => exact Eq.trans marks same.symm
      | checkDown _ up | applyDown _ _ up =>
        exact ⟨marks.1.trans same.symm, Nat.le_trans marks.2.1 upGrows,
          Nat.le_trans marks.2.2 (Nat.add_le_add_left downGrows up)⟩
      | _ => exact marks
    · exact .inr (.inr ⟨_, rfl, rfl⟩)

/-! ### Bytes below the threshold -/

def Unmarked (user : UserState) : Prop :=
  user.status.exhausted = true → user.quotaAt ≤ user.up + user.down

def Unmarks (pc : Pc) (user : UserState) : Prop :=
  match pc with
  | .applyUp quotaAt _ => quotaAt = user.quotaAt
  | .applyDown quotaAt _ up => quotaAt = user.quotaAt ∧ up ≤ user.up
  | .clear bits _ => bits.exhausted = true
  | _ => False

theorem unmarked_repairs :
    program.Repairs (fun pc user => Timely pc user ∧ Bounded user) Unmarked Unmarks where
  keeps := by
    intro pc user allowed holds
    have grows := step_counters allowed.1
    cases pc with
    | addUp _ | addDown _ =>
      refine .inl (fun marked => Nat.le_trans (holds marked) ?_)
      exact Nat.add_le_add grows.1 grows.2.1
    | applyAt quotaAt expired => exact .inr ⟨_, rfl, rfl⟩
    | shut bits =>
      refine .inl (fun marked => ?_)
      rcases Bool.or_eq_true_iff.mp marked with before | sets
      · exact holds before
      · exact allowed.1 sets
    | clear bits setting =>
      refine .inl (fun marked => holds ?_)
      exact (Bool.and_eq_true_iff.mp marked).1
    | admitLive id tag tcp limits =>
      refine .inl ?_
      change Unmarked (user.admitLive id tag tcp limits)
      unfold admitLive
      split_ifs <;> exact holds
    | _ => exact .inl holds
  own := by
    intro pc user allowed unmarks
    have bounded : user.up + user.down < maxU64 := allowed.2
    cases pc with
    | applyUp quotaAt expired => exact .inr ⟨_, rfl, unmarks, Nat.le_refl _⟩
    | applyDown quotaAt expired up =>
      obtain ⟨same, older⟩ := unmarks
      by_cases reached : user.quotaAt ≤ user.up + user.down
      · exact .inl (fun _ => reached)
      · refine .inr ⟨_, rfl, ?_⟩
        have below : ¬ quotaAt ≤ (up + user.down) % 2 ^ 64 := by
          omega
        rw [decide_eq_false below]
        rfl
    | clear bits setting =>
      refine .inl (fun marked => ?_)
      change (user.status.exhausted && !bits.exhausted) = true at marked
      rw [show bits.exhausted = true from unmarks, Bool.not_true, Bool.and_false] at marked
      cases marked
    | _ => cases unmarks
  other := by
    intro pc waiting user allowed unmarks
    obtain ⟨upGrows, _, _⟩ := step_counters allowed.1
    rcases step_quotaAt pc user with same | ⟨quotaAt, expired, rfl⟩
    · refine .inl ?_
      cases waiting with
      | applyUp quotaAt expired => exact Eq.trans unmarks same.symm
      | applyDown quotaAt expired up =>
        exact ⟨unmarks.1.trans same.symm, Nat.le_trans unmarks.2 upGrows⟩
      | _ => exact unmarks
    · exact .inr (.inr ⟨_, rfl, rfl⟩)

/-! ### Nothing in progress -/

/-- Bytes below the largest number reach the threshold exactly when they reach the
base and the quota. -/
theorem threshold_le_iff {quotaBytes : Option Nat} {base total : Nat} (bounded : total < maxU64) :
    threshold quotaBytes base ≤ total ↔
      ∃ quota, quotaBytes = some quota ∧ base + quota ≤ total := by
  unfold threshold
  cases quotaBytes with
  | none =>
    refine ⟨fun impossible => absurd bounded (Nat.not_lt_of_le impossible), ?_⟩
    rintro ⟨_, impossible, _⟩
    cases impossible
  | some quota =>
    constructor
    · intro reached
      exact ⟨quota, rfl, by dsimp only at reached; omega⟩
    · rintro ⟨_, same, reached⟩
      cases same
      exact Nat.le_trans (Nat.min_le_left _ _) reached

/-- In every run whose steps write what is right at the time, once all threads have
returned the quota is marked as run out exactly when the bytes counted reach the base
and the quota of the limits in force. -/
theorem quota_status_right (up down : Nat) (small : up + down < maxU64)
    (actions : List (Action Call)) (threads : Threads UserState Pc)
    (reached : threads = program.run actions (.new (.new up down)))
    (timely : program.Permits Timely actions (.new (.new up down)))
    (idle : ∀ thread, threads.running.lookup thread = none) :
    threads.shared.status.exhausted = true ↔
      ∃ quota, threads.shared.limits.quotaBytes = some quota ∧
        threads.shared.quotaBase + quota ≤ threads.shared.up + threads.shared.down := by
  have fresh : (Threads.new (.new up down) : Threads UserState Pc).Fresh :=
    nofun
  have kept : ∀ pc user, Timely pc user → Bounded user → Bounded (program.step pc user).1 :=
    fun pc user isTimely holds => (step_counters isTimely).2.2 holds
  obtain ⟨allowed, bounded⟩ := Program.Permits.with_invariant kept actions timely small
  rw [← reached] at bounded
  have atThreshold := (threshold_repairs.run actions fresh allowed (.inl rfl)).of_idle
    (reached ▸ idle)
  have marked := (marked_repairs.run actions fresh allowed
    (.inl (fun impossible => absurd small (Nat.not_lt_of_le impossible)))).of_idle (reached ▸ idle)
  have unmarked := (unmarked_repairs.run actions fresh allowed
    (.inl nofun)).of_idle (reached ▸ idle)
  rw [← reached] at atThreshold marked unmarked
  rw [← threshold_le_iff bounded, ← show _ = _ from atThreshold]
  exact ⟨unmarked, marked⟩

namespace QuotaExample

def quota : Limits :=
  { Limits.default with quotaBytes := some 10 }

def steps (thread count : Nat) : List (Action Call) :=
  List.replicate count (.advance thread)

def limited : List (Action Call) :=
  .start (.apply quota 0) :: steps 0 7

def used : List (Action Call) :=
  limited ++ .start (.sent 10) :: steps 1 8

/-- A check that has found the quota run out; a reset that starts and returns then;
the rest of the check. -/
def undone : List (Action Call) :=
  limited ++ .start (.sent 10) :: steps 1 5 ++ .start (.resetQuota 0) :: steps 2 11 ++ steps 1 3

/-- Limits that are applied while bytes are counted: the bytes were looked at before,
and the mark is cleared behind the check that set it. -/
def lost : List (Action Call) :=
  .start (.apply quota 0) :: steps 0 5 ++ .start (.sent 10) :: steps 1 8 ++ steps 0 2

end QuotaExample

open QuotaExample in
theorem quota_status_right_used :
    (program.run used (.new (.new 0 0))).shared.status.exhausted = true ↔
      ∃ quota, (program.run used (.new (.new 0 0))).shared.limits.quotaBytes = some quota ∧
        (program.run used (.new (.new 0 0))).shared.quotaBase + quota ≤
          (program.run used (.new (.new 0 0))).shared.up +
            (program.run used (.new (.new 0 0))).shared.down :=
  quota_status_right 0 0 (by decide) used _ rfl (by decide +kernel) (fun _ => rfl)

open QuotaExample in
/-- A reset is undone by a check that started before it, and a mark is cleared by
limits applied meanwhile. -/
theorem stale_quota_status :
    ((program.run undone (.new (.new 0 0))).running.keys = [] ∧
      (program.run undone (.new (.new 0 0))).shared.status.exhausted = true ∧
      (program.run undone (.new (.new 0 0))).shared.limits.quotaBytes = some 10 ∧
      (program.run undone (.new (.new 0 0))).shared.quotaBase = 10 ∧
      (program.run undone (.new (.new 0 0))).shared.up +
        (program.run undone (.new (.new 0 0))).shared.down = 10) ∧
    ((program.run lost (.new (.new 0 0))).running.keys = [] ∧
      (program.run lost (.new (.new 0 0))).shared.status.exhausted = false ∧
      (program.run lost (.new (.new 0 0))).shared.limits.quotaBytes = some 10 ∧
      (program.run lost (.new (.new 0 0))).shared.quotaBase = 0 ∧
      (program.run lost (.new (.new 0 0))).shared.up +
        (program.run lost (.new (.new 0 0))).shared.down = 10) := by
  decide +kernel

end Sail.User
