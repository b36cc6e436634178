/-
A user that is shut out or taken out of an inbound keeps no connection.

A connection is admitted under the lock that shutting takes, and only while the
user is active; so the sweep behind a shut finds all there are. Taking a user out of
an inbound is noted first and swept then, and the note may be looked for too early.
-/

import Sail.User.State

namespace Sail.User

def LiveTold (inbound : Option String) (user : UserState) : Prop :=
  ∀ id live, user.live.lookup id = some live →
    inbound.all (fun tag => live.inboundTag = tag) = true → live.told = true

def CarriersTold (inbound : Option String) (user : UserState) : Prop :=
  ∀ id carrier, user.carriers.lookup id = some carrier →
    inbound.all (fun tag => carrier.inboundTag = tag) = true → carrier.told = true

/-- While a user is closed, in some sense, no step lets a connection of the inbound
in. -/
structure ClosedTo (permitted : Pc → UserState → Prop) (closed : UserState → Prop)
    (inbound : Option String) : Prop where
  kept : ∀ pc user, permitted pc user → closed user → closed (pc.step user).1
  refuses : ∀ id tag tcp limits user, permitted (.admitLive id tag tcp limits) user → closed user →
    inbound.all (fun other => tag = other) = true → user.hasRoom limits tcp = false
  closes : ∀ tag id user, permitted (.carryLive tag id) user → closed user →
    inbound.all (fun other => tag = other) = true → user.active = false

section

variable {permitted : Pc → UserState → Prop} {closed : UserState → Prop}
  {inbound : Option String} {user : UserState}

theorem liveTold_disconnectLive (user : UserState) (inbound : Option String) :
    LiveTold inbound (user.disconnectLive inbound) := by
  refine KeyedMap.every_mapValues fun id live _ through => ?_
  split_ifs at through ⊢ with here
  · rfl
  · exact absurd through here

theorem carriersTold_disconnectCarriers (user : UserState) (inbound : Option String) :
    CarriersTold inbound (user.disconnectCarriers inbound) := by
  refine KeyedMap.every_mapValues fun id carrier _ through => ?_
  split_ifs at through ⊢ with here
  · rfl
  · exact absurd through here

/-- A connection told to close stays so. -/
theorem LiveTold.step (isClosed : ClosedTo permitted closed inbound) {pc : Pc}
    (allowed : permitted pc user) (holds : closed user) (told : LiveTold inbound user) :
    LiveTold inbound (pc.step user).1 := by
  cases pc with
  | admitLive id tag tcp limits =>
    change LiveTold inbound (user.admitLive id tag tcp limits)
    unfold UserState.admitLive
    cases room : user.hasRoom limits tcp with
    | false => exact told
    | true =>
      refine KeyedMap.every_insert told fun through => ?_
      rw [isClosed.refuses id tag tcp limits user allowed holds through] at room
      cases room
  | leave id => exact fun other live found => told other live (KeyedMap.lookup_of_erase found)
  | disconnectLive swept =>
    refine KeyedMap.every_mapValues fun id live found through => ?_
    split_ifs at through ⊢
    · rfl
    · exact told id live found through
  | _ => exact told

theorem CarriersTold.step (isClosed : ClosedTo permitted closed inbound) {pc : Pc}
    (allowed : permitted pc user) (holds : closed user) (told : CarriersTold inbound user) :
    CarriersTold inbound (pc.step user).1 := by
  cases pc with
  | admitLive id tag tcp limits =>
    change CarriersTold inbound (user.admitLive id tag tcp limits)
    unfold UserState.admitLive
    split_ifs <;> exact told
  | carryLive tag id =>
    refine KeyedMap.every_insert told fun through => ?_
    rw [isClosed.closes tag id user allowed holds through]
    rfl
  | dropCarrier id =>
    exact fun other carrier found => told other carrier (KeyedMap.lookup_of_erase found)
  | disconnectCarriers swept =>
    refine KeyedMap.every_mapValues fun id carrier found through => ?_
    split_ifs at through ⊢
    · rfl
    · exact told id carrier found through
  | _ => exact told

/-- Where a thread that closes connections stands: in front of the sweep of the live
ones, or of the carriers. -/
def Sweeps (closed : UserState → Prop) (inbound : Option String) (pc : Pc) (user : UserState) :
    Prop :=
  closed user ∧ (pc = .disconnectLive inbound ∨
    pc = .disconnectCarriers inbound ∧ LiveTold inbound user)

def Swept (closed : UserState → Prop) (inbound : Option String) (user : UserState) : Prop :=
  closed user ∧ LiveTold inbound user ∧ CarriersTold inbound user

theorem ClosedTo.stages (isClosed : ClosedTo permitted closed inbound) :
    program.Stages permitted (Sweeps closed inbound) (Swept closed inbound) where
  own := by
    rintro pc user allowed ⟨holds, rfl | ⟨rfl, told⟩⟩
    · exact ⟨isClosed.kept _ user allowed holds, .inr ⟨rfl, liveTold_disconnectLive user inbound⟩⟩
    · exact ⟨isClosed.kept _ user allowed holds, told.step isClosed allowed holds,
        carriersTold_disconnectCarriers user inbound⟩
  other := by
    rintro pc waiting user allowed ⟨holds, rfl | ⟨rfl, told⟩⟩
    · exact ⟨isClosed.kept pc user allowed holds, .inl rfl⟩
    · exact ⟨isClosed.kept pc user allowed holds, .inr ⟨rfl, told.step isClosed allowed holds⟩⟩
  done := by
    rintro pc user allowed ⟨holds, live, carriers⟩
    exact ⟨isClosed.kept pc user allowed holds, live.step isClosed allowed holds,
      carriers.step isClosed allowed holds⟩

end

/-! ### Shut out -/

def Reopens (pc : Pc) (user : UserState) : Prop :=
  ∃ bits setting, pc = .clear bits setting ∧ user.status.clear bits = .none

theorem Status.set_ne_none {status : Status} (bits : Status) (shut : status ≠ .none) :
    status.set bits ≠ .none := by
  intro none
  refine shut ?_
  obtain ⟨exhausted, expired⟩ := status
  unfold Status.set Status.none at *
  simp only [Status.mk.injEq, Bool.or_eq_false_iff] at none ⊢
  exact ⟨none.1.1, none.2.1⟩

/-- A user that is shut out takes no connection in. -/
theorem shut_closed :
    ClosedTo (fun pc user => ¬ Reopens pc user) (fun user => user.status ≠ .none) none where
  kept := by
    intro pc user allowed shut
    cases pc with
    | admitLive id tag tcp limits =>
      change (user.admitLive id tag tcp limits).status ≠ .none
      unfold UserState.admitLive
      split_ifs <;> exact shut
    | shut bits => exact Status.set_ne_none bits shut
    | clear bits setting => exact fun none => allowed ⟨bits, setting, rfl, none⟩
    | _ => exact shut
  refuses := by
    intro id tag tcp limits user _ shut _
    unfold UserState.hasRoom UserState.active
    rw [decide_eq_false shut]
    rfl
  closes := by
    intro tag id user _ shut _
    exact decide_eq_false shut

/-! ### Taken out of an inbound -/

/-- A step that keeps a user out of an inbound it was taken out of: it is not put in
again, and what comes in through the inbound finds it not taken out. -/
def KeepsOut (tag : String) (pc : Pc) (user : UserState) : Prop :=
  pc ≠ .restoreTo tag ∧
    (∀ id tcp limits, pc = .admitLive id tag tcp limits → tag ∉ user.removed) ∧
    ∀ id, pc = .carryLive tag id → tag ∉ user.removed

theorem removed_closed (tag : String) :
    ClosedTo (KeepsOut tag) (fun user => tag ∈ user.removed) (some tag) where
  kept := by
    intro pc user allowed removed
    cases pc with
    | admitLive id other tcp limits =>
      change tag ∈ (user.admitLive id other tcp limits).removed
      unfold UserState.admitLive
      split_ifs <;> exact removed
    | removeFrom other => exact Finset.mem_insert_of_mem removed
    | restoreTo other =>
      refine Finset.mem_erase.mpr ⟨fun same => allowed.1 ?_, removed⟩
      rw [same]
    | _ => exact removed
  refuses := by
    intro id other tcp limits user allowed removed through
    have same : other = tag := by simpa using through
    subst same
    exact absurd removed (allowed.2.1 id tcp limits rfl)
  closes := by
    intro other id user allowed removed through
    have same : other = tag := by simpa using through
    subst same
    exact absurd removed (allowed.2.2 id rfl)

/-! ### Behind a shut or a removal -/

/-- A thread that has just closed the user sweeps until it returns. -/
theorem ClosedTo.follows {permitted : Pc → UserState → Prop} {closed : UserState → Prop}
    {inbound : Option String} (isClosed : ClosedTo permitted closed inbound)
    {threads : Threads UserState Pc} {thread : Nat} (actions : List (Action Call))
    (started : thread < threads.next) (holds : closed threads.shared)
    (stands : threads.running.lookup thread = some (.disconnectLive inbound))
    (allowed : program.Permits permitted actions threads)
    (returned : (program.run actions threads).running.lookup thread = none) :
    LiveTold inbound (program.run actions threads).shared ∧
      CarriersTold inbound (program.run actions threads).shared := by
  have begins : Program.Follows (Sweeps closed inbound) (Swept closed inbound) thread threads := by
    refine ⟨started, ?_⟩
    rw [stands]
    exact ⟨holds, .inl rfl⟩
  obtain ⟨_, ends⟩ := isClosed.stages.run actions allowed begins
  rw [returned] at ends
  exact ends.2

/-- Once a shut that made the user inactive has returned, and no step let it connect
again since, all its connections and carriers have been told to close; and so have
those of an inbound once the user was taken out of it and, since, what came in
through the inbound found it not taken out. -/
theorem shut_or_removed_keeps_none (up down : Nat) (before after : List (Action Call))
    (thread : Nat) (threads : Threads UserState Pc)
    (reached : threads = program.run before (.new (.new up down))) :
    (∀ bits, threads.running.lookup thread = some (.shut bits) →
      threads.shared.status = .none → bits ≠ .none →
      program.Permits (fun pc user => ¬ Reopens pc user) after
        (program.act threads (.advance thread)) →
      (program.run after (program.act threads (.advance thread))).running.lookup thread = none →
      LiveTold none (program.run after (program.act threads (.advance thread))).shared ∧
        CarriersTold none (program.run after (program.act threads (.advance thread))).shared) ∧
    (∀ tag, threads.running.lookup thread = some (.removeFrom tag) →
      program.Permits (KeepsOut tag) after (program.act threads (.advance thread)) →
      (program.run after (program.act threads (.advance thread))).running.lookup thread = none →
      LiveTold (some tag) (program.run after (program.act threads (.advance thread))).shared ∧
        CarriersTold (some tag)
          (program.run after (program.act threads (.advance thread))).shared) := by
  have fresh : threads.Fresh := by
    rw [reached]
    exact Program.fresh_run before nofun
  constructor
  · intro bits stands active sets allowed returned
    have stepped := @Program.act_advance _ _ _ program _ _ _ stands
    have next : (program.step (.shut bits) threads.shared).2 = some (.disconnectLive none) :=
      if_pos ⟨active, sets⟩
    refine shut_closed.follows after ?_ ?_ ?_ allowed returned
    · rw [stepped]
      exact fresh thread _ stands
    · rw [stepped]
      change threads.shared.status.set bits ≠ .none
      rw [active]
      exact sets
    · rw [stepped]
      rw [Threads.lookup_put, if_pos rfl, next]
  · intro tag stands allowed returned
    have stepped := @Program.act_advance _ _ _ program _ _ _ stands
    refine (removed_closed tag).follows after ?_ ?_ ?_ allowed returned
    · rw [stepped]
      exact fresh thread _ stands
    · rw [stepped]
      exact Finset.mem_insert_self tag _
    · rw [stepped]
      rw [Threads.lookup_put, if_pos rfl]
      rfl

/-! ### A connection behind the sweep -/

namespace ClosingExample

def racing : List (Action Call) :=
  [.start (.admitConnection 7 "in" true), .advance 0, .advance 0, .start (.removeFrom "in")]

def ordered : List (Action Call) :=
  [.start (.admitConnection 7 "in" true), .advance 0, .advance 0, .advance 0,
    .start (.removeFrom "in")]

def carrying : List (Action Call) :=
  [.start (.carry "in"), .advance 0, .start (.removeFrom "in")]

end ClosingExample

open ClosingExample in
theorem removed_keeps_none_ordered :
    (program.run (ordered ++ [.advance 1, .advance 1, .advance 1])
        (.new (.new 0 0))).shared.live.lookup 7 =
      some { inboundTag := "in", tcp := true, told := true } ∧
    LiveTold (some "in")
      (program.run [.advance 1, .advance 1]
        (program.act (program.run ordered (.new (.new 0 0))) (.advance 1))).shared := by
  refine ⟨by decide +kernel, ?_⟩
  refine ((shut_or_removed_keeps_none 0 0 ordered [.advance 1, .advance 1] 1 _ rfl).2 "in" rfl
    ⟨?_, ?_, trivial⟩ rfl).1
  all_goals
    intro thread pc is found
    cases is
    cases found
    exact ⟨nofun, nofun,
      nofun⟩

open ClosingExample in
/-- A connection that looked before the user was taken out is live behind the sweep,
and so is a carrier; neither has been told to close. -/
theorem admitted_behind_removal :
    ((program.run racing (.new (.new 0 0))).running.lookup 1 = some (.removeFrom "in") ∧
      (program.run [.advance 1, .advance 1, .advance 0]
        (program.act (program.run racing (.new (.new 0 0))) (.advance 1))).running.lookup 1 = none ∧
      (program.run [.advance 1, .advance 1, .advance 0]
        (program.act (program.run racing (.new (.new 0 0))) (.advance 1))).shared.live.lookup 7 =
          some { inboundTag := "in", tcp := true, told := false }) ∧
    ((program.run carrying (.new (.new 0 0))).running.lookup 1 = some (.removeFrom "in") ∧
      (program.run [.advance 1, .advance 1, .advance 0]
        (program.act (program.run carrying (.new (.new 0 0))) (.advance 1))).running.lookup 1 =
          none ∧
      (program.run [.advance 1, .advance 1, .advance 0]
        (program.act (program.run carrying (.new (.new 0 0))) (.advance 1))).shared.carriers.lookup
          0 = some { inboundTag := "in", told := false }) :=
  ⟨⟨rfl, rfl, by decide +kernel⟩, ⟨rfl, rfl, by decide +kernel⟩⟩

end Sail.User
