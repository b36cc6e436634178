/-
Threads that take steps in any order on one shared state.

A run is any list of starts and steps. Two rules are given for runs all of whose steps
are permitted: one follows a thread until it has returned, the other keeps a fact of the
shared state that some thread at work may still have to restore.
-/

import Sail.Lib.KeyedMap

namespace Sail

variable {S P C : Type*}

/-- What a call begins with, and one step of a thread: the shared state behind it,
and where the thread stands unless it has returned. -/
structure Program (S P C : Type*) where
  entry : C → P
  step : P → S → S × Option P

structure Threads (S P : Type*) where
  shared : S
  running : KeyedMap Nat P
  next : Nat

inductive Action (C : Type*) where
  | start (call : C)
  | advance (thread : Nat)

namespace Threads

def new (shared : S) : Threads S P :=
  { shared, running := ∅, next := 0 }

def Fresh (threads : Threads S P) : Prop :=
  ∀ thread pc, threads.running.lookup thread = some pc → thread < threads.next

def put (running : KeyedMap Nat P) (thread : Nat) : Option P → KeyedMap Nat P
  | none => running.erase thread
  | some pc => running.insert thread pc

theorem lookup_put (running : KeyedMap Nat P) (thread other : Nat) (pc : Option P) :
    (put running thread pc).lookup other =
      if other = thread then pc else running.lookup other := by
  cases pc with
  | none => exact KeyedMap.lookup_erase_ite running thread other
  | some pc => exact KeyedMap.lookup_insert_ite running thread other pc

end Threads

variable {repairs : P → S → Prop}

namespace Program

variable (program : Program S P C)

def act (threads : Threads S P) : Action C → Threads S P
  | .start call =>
    { threads with
      running := threads.running.insert threads.next (program.entry call)
      next := threads.next + 1 }
  | .advance thread =>
    match threads.running.lookup thread with
    | none => threads
    | some pc =>
      { threads with
        shared := (program.step pc threads.shared).1
        running := Threads.put threads.running thread (program.step pc threads.shared).2 }

def run (actions : List (Action C)) (threads : Threads S P) : Threads S P :=
  actions.foldl program.act threads

def Permits (permitted : P → S → Prop) : List (Action C) → Threads S P → Prop
  | [], _ => True
  | action :: rest, threads =>
    (∀ thread pc, action = .advance thread → threads.running.lookup thread = some pc →
      permitted pc threads.shared) ∧ Permits permitted rest (program.act threads action)

variable {program} {threads : Threads S P} {permitted : P → S → Prop}

theorem permits_start {call : C} {rest : List (Action C)} :
    program.Permits permitted (.start call :: rest) threads ↔
      program.Permits permitted rest (program.act threads (.start call)) :=
  ⟨fun all => all.2, fun onward => ⟨nofun, onward⟩⟩

theorem permits_advance {thread : Nat} {rest : List (Action C)} :
    program.Permits permitted (.advance thread :: rest) threads ↔
      (∀ pc ∈ threads.running.lookup thread, permitted pc threads.shared) ∧
        program.Permits permitted rest (program.act threads (.advance thread)) := by
  refine and_congr_left' ⟨fun all pc found => all thread pc rfl found, ?_⟩
  intro all stepped pc is found
  cases is
  exact all pc found

instance decidablePermits [∀ pc shared, Decidable (permitted pc shared)] :
    ∀ (actions : List (Action C)) (threads : Threads S P),
      Decidable (program.Permits permitted actions threads)
  | [], _ => .isTrue trivial
  | .start call :: rest, threads =>
    have := decidablePermits rest (program.act threads (.start call))
    decidable_of_iff' _ permits_start
  | .advance thread :: rest, threads =>
    have := decidablePermits rest (program.act threads (.advance thread))
    decidable_of_iff' _ permits_advance

theorem act_absent {thread : Nat} (absent : threads.running.lookup thread = none) :
    program.act threads (.advance thread) = threads := by
  simp only [act, absent]

theorem act_advance {thread : Nat} {pc : P} (found : threads.running.lookup thread = some pc) :
    program.act threads (.advance thread) =
      { threads with
        shared := (program.step pc threads.shared).1
        running := Threads.put threads.running thread (program.step pc threads.shared).2 } := by
  simp only [act, found]

theorem fresh_act (fresh : threads.Fresh) (action : Action C) :
    (program.act threads action).Fresh := by
  cases action with
  | start call =>
    intro thread pc found
    change (threads.running.insert threads.next _).lookup thread = some pc at found
    change thread < threads.next + 1
    rw [KeyedMap.lookup_insert_ite] at found
    split_ifs at found with same
    · omega
    · exact Nat.lt_succ_of_lt (fresh thread pc found)
  | advance stepped =>
    cases here : threads.running.lookup stepped with
    | none =>
      rw [act_absent here]
      exact fresh
    | some now =>
      rw [act_advance here]
      intro thread pc found
      rw [Threads.lookup_put] at found
      split_ifs at found with same
      · rw [same]
        exact fresh stepped now here
      · exact fresh thread pc found

theorem fresh_run (actions : List (Action C)) (fresh : threads.Fresh) :
    (program.run actions threads).Fresh := by
  induction actions generalizing threads with
  | nil => exact fresh
  | cons action rest ih => exact ih (fresh_act fresh action)

/-! ### One thread followed -/

/-- A thread stands where some stage says, or has returned and something holds. -/
def Follows (stage : P → S → Prop) (finished : S → Prop) (thread : Nat) (threads : Threads S P) :
    Prop :=
  thread < threads.next ∧
    match threads.running.lookup thread with
    | some pc => stage pc threads.shared
    | none => finished threads.shared

/-- Its own steps go from stage to stage, and those of others keep the stage. -/
structure Stages (program : Program S P C) (permitted : P → S → Prop) (stage : P → S → Prop)
    (finished : S → Prop) : Prop where
  own : ∀ pc shared, permitted pc shared → stage pc shared →
    match (program.step pc shared).2 with
    | some next => stage next (program.step pc shared).1
    | none => finished (program.step pc shared).1
  other : ∀ pc waiting shared, permitted pc shared → stage waiting shared →
    stage waiting (program.step pc shared).1
  done : ∀ pc shared, permitted pc shared → finished shared → finished (program.step pc shared).1

section

variable {finished : S → Prop} {stage : P → S → Prop}
  (stages : Stages program permitted stage finished)

include stages

theorem Stages.act {thread : Nat} {action : Action C}
    (allowed : ∀ stepped pc, action = .advance stepped → threads.running.lookup stepped = some pc →
      permitted pc threads.shared)
    (follows : Follows stage finished thread threads) :
    Follows stage finished thread (program.act threads action) := by
  obtain ⟨started, here⟩ := follows
  cases action with
  | start call =>
    refine ⟨Nat.lt_succ_of_lt started, ?_⟩
    change match (threads.running.insert threads.next _).lookup thread with
      | some pc => stage pc threads.shared
      | none => finished threads.shared
    rw [KeyedMap.lookup_insert_ite, if_neg (Nat.ne_of_lt started)]
    exact here
  | advance stepped =>
    cases found : threads.running.lookup stepped with
    | none =>
      rw [act_absent found]
      exact ⟨started, here⟩
    | some pc =>
      have permits := allowed stepped pc rfl found
      rw [act_advance found]
      refine ⟨started, ?_⟩
      rw [Threads.lookup_put]
      by_cases same : thread = stepped
      · rw [if_pos same]
        rw [same, found] at here
        exact stages.own pc threads.shared permits here
      · rw [if_neg same]
        cases stands : threads.running.lookup thread with
        | some waiting =>
          rw [stands] at here
          exact stages.other pc waiting threads.shared permits here
        | none =>
          rw [stands] at here
          exact stages.done pc threads.shared permits here

theorem Stages.run {thread : Nat} (actions : List (Action C))
    (allowed : program.Permits permitted actions threads)
    (follows : Follows stage finished thread threads) :
    Follows stage finished thread (program.run actions threads) := by
  induction actions generalizing threads with
  | nil => exact follows
  | cons action rest ih => exact ih allowed.2 (stages.act allowed.1 follows)

end

/-! ### A fact restored by some thread -/

def Restored (fact : S → Prop) (repairs : P → S → Prop) (threads : Threads S P) : Prop :=
  fact threads.shared ∨
    ∃ thread pc, threads.running.lookup thread = some pc ∧ repairs pc threads.shared

/-- A fact holds behind a step, or the thread that took it is at work to restore
it. -/
def Behind (fact : S → Prop) (repairs : P → S → Prop) (after : S × Option P) : Prop :=
  fact after.1 ∨ ∃ pc, after.2 = some pc ∧ repairs pc after.1

/-- Who breaks a fact restores it, and whoever is at work to restore it goes on. -/
structure Repairs (program : Program S P C) (permitted : P → S → Prop) (fact : S → Prop)
    (repairs : P → S → Prop) : Prop where
  keeps : ∀ pc shared, permitted pc shared → fact shared →
    Behind fact repairs (program.step pc shared)
  own : ∀ pc shared, permitted pc shared → repairs pc shared →
    Behind fact repairs (program.step pc shared)
  other : ∀ pc waiting shared, permitted pc shared → repairs waiting shared →
    repairs waiting (program.step pc shared).1 ∨ Behind fact repairs (program.step pc shared)

theorem Repairs.act {fact : S → Prop} (rules : Repairs program permitted fact repairs)
    (fresh : threads.Fresh) {action : Action C}
    (allowed : ∀ stepped pc, action = .advance stepped → threads.running.lookup stepped = some pc →
      permitted pc threads.shared)
    (restored : Restored fact repairs threads) :
    Restored fact repairs (program.act threads action) := by
  cases action with
  | start call =>
    rcases restored with holds | ⟨thread, pc, found, works⟩
    · exact .inl holds
    · refine .inr ⟨thread, pc, ?_, works⟩
      change (threads.running.insert threads.next _).lookup thread = some pc
      rw [KeyedMap.lookup_insert_ite, if_neg (Nat.ne_of_lt (fresh thread pc found))]
      exact found
  | advance stepped =>
    cases found : threads.running.lookup stepped with
    | none =>
      rw [act_absent found]
      exact restored
    | some pc =>
      have permits := allowed stepped pc rfl found
      rw [act_advance found]
      have behind : Behind fact repairs (program.step pc threads.shared) → Restored fact repairs
            { threads with
              shared := (program.step pc threads.shared).1
              running := Threads.put threads.running stepped
                (program.step pc threads.shared).2 } := by
        rintro (holds | ⟨next, isNext, works⟩)
        · exact .inl holds
        · refine .inr ⟨stepped, next, ?_, works⟩
          rw [Threads.lookup_put, if_pos rfl, isNext]
      rcases restored with holds | ⟨thread, waiting, stands, works⟩
      · exact behind (rules.keeps pc threads.shared permits holds)
      · by_cases same : thread = stepped
        · rw [same, found] at stands
          cases stands
          exact behind (rules.own pc threads.shared permits works)
        · rcases rules.other pc waiting threads.shared permits works with stays | ended
          · refine .inr ⟨thread, waiting, ?_, stays⟩
            rw [Threads.lookup_put, if_neg same]
            exact stands
          · exact behind ended

theorem Repairs.run {fact : S → Prop} (rules : Repairs program permitted fact repairs)
    (actions : List (Action C)) (fresh : threads.Fresh)
    (allowed : program.Permits permitted actions threads)
    (restored : Restored fact repairs threads) :
    Restored fact repairs (program.run actions threads) := by
  induction actions generalizing threads with
  | nil => exact restored
  | cons action rest ih =>
    exact ih (fresh_act fresh action) allowed.2 (rules.act fresh allowed.1 restored)

/-- With no thread at work the fact holds. -/
theorem Restored.of_idle {fact : S → Prop} (restored : Restored fact repairs threads)
    (idle : ∀ thread, threads.running.lookup thread = none) : fact threads.shared := by
  rcases restored with holds | ⟨thread, pc, found, _⟩
  · exact holds
  · rw [idle thread] at found
    cases found

/-! ### Invariants -/

/-- An invariant of the shared state holds wherever a step is taken. -/
theorem Permits.with_invariant {invariant : S → Prop}
    (kept : ∀ pc shared, permitted pc shared → invariant shared →
      invariant (program.step pc shared).1) (actions : List (Action C))
    (allowed : program.Permits permitted actions threads) (holds : invariant threads.shared) :
    program.Permits (fun pc shared => permitted pc shared ∧ invariant shared) actions threads ∧
      invariant (program.run actions threads).shared := by
  induction actions generalizing threads with
  | nil => exact ⟨trivial, holds⟩
  | cons action rest ih =>
    have after : invariant (program.act threads action).shared := by
      cases action with
      | start call => exact holds
      | advance stepped =>
        cases found : threads.running.lookup stepped with
        | none =>
          rw [act_absent found]
          exact holds
        | some pc =>
          rw [act_advance found]
          exact kept pc threads.shared (allowed.1 stepped pc rfl found) holds
    obtain ⟨onward, ends⟩ := ih allowed.2 after
    exact ⟨⟨fun stepped pc is found => ⟨allowed.1 stepped pc is found, holds⟩, onward⟩, ends⟩

end Program

end Sail
