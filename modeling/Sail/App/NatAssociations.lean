/-
UDP sessions end with their associations, after `app/nat_manager.rs`.

The first session of an association starts a task that waits for its end. The task gives
up the watch and then, in a section of its own, ends the sessions.
-/

import Mathlib.Data.Finset.Option
import Sail.App.NatSuccession

namespace Sail.App

inductive WatchTask where
  | waiting (association : Nat)
  | ending (association : Nat)
deriving DecidableEq

def WatchTask.association : WatchTask → Nat
  | .waiting association => association
  | .ending association => association

structure WatchedNat where
  nat : NatManager
  ended : Finset Nat
  watched : Finset Nat
  tasks : List WatchTask

inductive WatchEvent where
  | nat (event : NatEvent)
  | ends (association : Nat)
  | unwatch (association : Nat)
  | endSessions (association : Nat)

namespace WatchedNat

def new : WatchedNat :=
  { nat := .new, ended := ∅, watched := ∅, tasks := [] }

/-- Whether its association has ended is asked when a datagram has the lock. -/
def asked (state : WatchedNat) : NatEvent → NatEvent
  | .send call =>
    .send { call with associationEnded := call.source.association.any (· ∈ state.ended) }
  | event => event

/-- The association a session is put in for. -/
def puts (state : WatchedNat) : NatEvent → Option Nat
  | .send call => if call.adds state.nat then call.source.association else none
  | _ => none

def watchAssociation (state : WatchedNat) (association : Option Nat) : Option Nat :=
  association.bind (fun own => if own ∈ state.watched then none else some own)

variable (udpTimeouts : String → Option Nat) (uplinkChannelSize : Nat)

def step : Machine WatchedNat WatchEvent :=
  fun state event =>
    match event with
    | .nat event =>
      let started := state.watchAssociation (state.puts (state.asked event))
      { state with
        nat := state.nat.step udpTimeouts uplinkChannelSize (state.asked event)
        watched := state.watched ∪ started.toFinset
        tasks := started.toList.map .waiting ++ state.tasks }
    | .ends association => { state with ended := insert association state.ended }
    | .unwatch association =>
      if association ∈ state.ended ∧ .waiting association ∈ state.tasks then
        { state with
          watched := state.watched.erase association
          tasks := .ending association :: state.tasks.erase (.waiting association) }
      else state
    | .endSessions association =>
      if .ending association ∈ state.tasks then
        { state with
          nat := state.nat.endSessions (fun key => key.source.association = some association)
          tasks := state.tasks.erase (.ending association) }
      else state

end WatchedNat

variable {udpTimeouts : String → Option Nat} {uplinkChannelSize : Nat} {key : NatKey}
  {entry : NatEntry}

/-- A session was there before, or a datagram of its source puts it in. -/
theorem NatManager.step_origin {nat : NatManager} {event : NatEvent}
    (found : (nat.step udpTimeouts uplinkChannelSize event).sessions.lookup key = some entry) :
    (∃ earlier, nat.sessions.lookup key = some earlier) ∨
      ∃ call, event = .send call ∧ call.adds nat = true ∧ key.source = call.source := by
  cases event with
  | send call =>
    change (nat.send udpTimeouts uplinkChannelSize call).sessions.lookup key = some entry at found
    unfold NatManager.send at found
    split_ifs at found with dropped known ended
    · exact .inl ⟨entry, found⟩
    · exact .inl (((onward_sendTo _ _ _ _).sessions key entry found).imp fun _ => And.left)
    · exact .inl ⟨entry, found⟩
    · obtain ⟨earlier, added, _⟩ := (onward_sendTo _ _ _ _).sessions key entry found
      change (nat.sessions.insert call.addedKey _).lookup key = some earlier at added
      rw [KeyedMap.lookup_insert_ite] at added
      split_ifs at added with same
      · refine .inr ⟨call, rfl, ?_, congrArg NatKey.source same⟩
        rw [NatSend.adds, Bool.eq_false_iff.mpr ended]
        simp_all
      · exact .inl ⟨earlier, added⟩
  | _ =>
    exact .inl (((onward_step (fun _ same => by cases same)).sessions key entry found).imp
      fun _ => And.left)

namespace WatchedNat

variable {state : WatchedNat} {association : Nat} {event : WatchEvent}

def Holds (state : WatchedNat) (association : Nat) : Prop :=
  ∃ key entry, state.nat.sessions.lookup key = some entry ∧
    key.source.association = some association

/-- A session is put in while its association lasts, and is watched then. -/
theorem holds_step (holds : (step udpTimeouts uplinkChannelSize state event).Holds association) :
    state.Holds association ∨ association ∉ state.ended ∧
      ∃ put, event = .nat put ∧ state.puts (state.asked put) = some association := by
  obtain ⟨key, entry, found, own⟩ := holds
  cases event with
  | nat event =>
    rcases NatManager.step_origin found with ⟨earlier, before⟩ | ⟨call, isSend, adds, same⟩
    · exact .inl ⟨key, earlier, before, own⟩
    · rw [same] at own
      refine .inr ⟨fun ended => ?_, event, rfl, ?_⟩
      · cases event <;> cases isSend
        dsimp only at own
        simp [NatSend.adds, own, ended] at adds
      · rw [isSend, puts, if_pos adds, own]
  | ends _ => exact .inl ⟨key, entry, found, own⟩
  | unwatch _ =>
    dsimp only [step] at found
    split_ifs at found
    all_goals exact .inl ⟨key, entry, found, own⟩
  | endSessions _ =>
    dsimp only [step] at found
    split_ifs at found
    · exact .inl ⟨key, entry, (KeyedMap.lookup_retain.mp found).1, own⟩
    · exact .inl ⟨key, entry, found, own⟩

theorem over_step (past : association ∈ state.ended ∧ ¬ state.Holds association) :
    association ∈ (step udpTimeouts uplinkChannelSize state event).ended ∧
      ¬ (step udpTimeouts uplinkChannelSize state event).Holds association := by
  refine ⟨?_, fun holds => ?_⟩
  · cases event with
    | nat _ => exact past.1
    | ends _ => exact Finset.mem_insert_of_mem past.1
    | unwatch _ | endSessions _ =>
      dsimp only [step]
      split_ifs <;> exact past.1
  · rcases holds_step holds with before | ⟨lasts, _⟩
    · exact past.2 before
    · exact lasts past.1

/-- Every session has a task that will end it, and the watched are those waited for. -/
structure Covered (state : WatchedNat) : Prop where
  task : ∀ association, state.Holds association →
    ∃ task ∈ state.tasks, task.association = association
  one : ∀ association, state.tasks.count (.waiting association) =
    if association ∈ state.watched then 1 else 0

theorem covered_step (state : WatchedNat) (event : WatchEvent) (covered : state.Covered) :
    (step udpTimeouts uplinkChannelSize state event).Covered := by
  obtain ⟨task, one⟩ := covered
  cases event with
  | nat event =>
    refine ⟨fun association holds => ?_, fun association => ?_⟩
    · rcases holds_step holds with before | ⟨_, put, same, isPut⟩
      · obtain ⟨task, member, own⟩ := task association before
        exact ⟨task, List.mem_append_right _ member, own⟩
      · cases same
        refine ⟨.waiting association, ?_, rfl⟩
        have counted := one association
        by_cases watched : association ∈ state.watched
        · rw [if_pos watched] at counted
          exact List.mem_append_right _ (List.count_pos_iff.mp (counted ▸ Nat.one_pos))
        · simp [step, watchAssociation, isPut, watched]
    · cases isPut : state.puts (state.asked event) with
      | none => simp [step, watchAssociation, isPut, one]
      | some other =>
        by_cases watched : other ∈ state.watched
        · simp [step, watchAssociation, isPut, watched, one]
        · simp [step, watchAssociation, isPut, watched, one, List.count_cons]
          grind
  | ends _ => exact ⟨task, one⟩
  | unwatch other =>
    dsimp only [step]
    split_ifs with runs
    · refine ⟨fun association holds => ?_, fun association => ?_⟩
      · obtain ⟨task, member, own⟩ := task association holds
        by_cases woken : task = .waiting other
        · rw [woken] at own
          exact ⟨.ending other, List.mem_cons_self, own⟩
        · exact ⟨task, List.mem_cons_of_mem _ ((List.mem_erase_of_ne woken).mpr member), own⟩
      · grind
    · exact ⟨task, one⟩
  | endSessions other =>
    dsimp only [step]
    split_ifs with runs
    · refine ⟨fun association holds => ?_, fun association => ?_⟩
      · obtain ⟨key, entry, found, own⟩ := holds
        obtain ⟨before, kept⟩ := KeyedMap.lookup_retain.mp found
        obtain ⟨task, member, isOwn⟩ := task association ⟨key, entry, before, own⟩
        refine ⟨task, (List.mem_erase_of_ne ?_).mpr member, isOwn⟩
        rintro rfl
        cases isOwn
        simp [own, WatchTask.association] at kept
      · rw [List.count_erase_of_ne (by simp)]
        exact one association
    · exact ⟨task, one⟩

end WatchedNat

end Sail.App
