/-
The tasks of a UDP session and the session behind it, after `app/nat_manager.rs`.

A task names its session by the key alone. It acts on no other session when one is put in
only once the tasks of all earlier ones under its key are through with the map.
-/

import Sail.App.NatManager

namespace Sail.App

open Session

namespace NatManager

/-- No task of an earlier session under the key has still to lock the map. -/
def Settled (nat : NatManager) (key : NatKey) : Prop :=
  ∀ entry ∈ nat.tasks.toList, entry.2.key = key → entry.2.stage = .done

instance (nat : NatManager) (key : NatKey) : Decidable (nat.Settled key) :=
  inferInstanceAs (Decidable (∀ entry ∈ _, _))

def PutsInSettled (nat : NatManager) : NatEvent → Prop
  | .send call => call.adds nat = true → nat.Settled call.addedKey
  | _ => True

instance decidablePutsInSettled (nat : NatManager) : ∀ event, Decidable (nat.PutsInSettled event)
  | .send _ => inferInstanceAs (Decidable (_ → _))
  | .endSource _ _ => .isTrue trivial
  | .endAssociation _ => .isTrue trivial
  | .idleCheck _ => .isTrue trivial
  | .task _ _ => .isTrue trivial
  | .uplink _ _ => .isTrue trivial

/-- What a task finds under its key is the entry it was started for. -/
structure Owned (nat : NatManager) : Prop where
  own : ∀ insertion tasks entry, nat.tasks.lookup insertion = some tasks → tasks.stage ≠ .done →
    nat.sessions.lookup tasks.key = some entry → entry.insertion = insertion
  fresh : ∀ insertion tasks, nat.tasks.lookup insertion = some tasks → insertion < nat.next

end NatManager

def NatEvent.insertion : NatEvent → Option Nat
  | .task insertion _ => some insertion
  | .uplink insertion _ => some insertion
  | _ => none

variable (insertion : Nat)

namespace NatManager

variable {udpTimeouts : String → Option Nat} {uplinkChannelSize : Nat} {nat : NatManager}

/-! ### What each step does to the map -/

def From (after before : KeyedMap NatKey NatEntry) : Prop :=
  ∀ key entry, after.lookup key = some entry →
    ∃ earlier, before.lookup key = some earlier ∧ earlier.insertion = entry.insertion

theorem From.refl (sessions : KeyedMap NatKey NatEntry) : From sessions sessions :=
  fun _ entry found => ⟨entry, found, rfl⟩

theorem from_retain (keep : NatKey → NatEntry → Bool) (sessions : KeyedMap NatKey NatEntry) :
    From (KeyedMap.retain keep sessions) sessions :=
  fun _ entry found => ⟨entry, (KeyedMap.lookup_retain.mp found).1, rfl⟩

theorem from_erase (key : NatKey) (sessions : KeyedMap NatKey NatEntry) :
    From (sessions.erase key) sessions := by
  intro other entry found
  rw [KeyedMap.lookup_erase_ite] at found
  split at found
  · cases found
  · exact ⟨entry, found, rfl⟩

theorem from_modify (key : NatKey) (change : NatEntry → NatEntry)
    (same : ∀ entry, (change entry).insertion = entry.insertion)
    (sessions : KeyedMap NatKey NatEntry) : From (KeyedMap.modify key change sessions) sessions := by
  intro other entry found
  rw [KeyedMap.lookup_modify_ite] at found
  split at found
  · rename_i here
    subst here
    obtain ⟨earlier, there, is⟩ := Option.map_eq_some_iff.mp found
    exact ⟨earlier, there, by rw [← is, same]⟩
  · exact ⟨entry, found, rfl⟩

theorem touched_insertion (port : UInt16) (now : Nat) (entry : NatEntry) :
    (touched port now entry).insertion = entry.insertion := by
  unfold touched
  split
  · split
    · rfl
    · rfl
  · rfl

theorem from_underLock (key : NatKey) (now : Nat) (sessions : KeyedMap NatKey NatEntry)
    (stage : NatStage) : From (underLock key now sessions stage).1 sessions := by
  cases stage with
  | refused | failed | leaving => exact from_erase key sessions
  | timed udpTimeout =>
    exact from_modify key (fun entry => { entry with timeout := udpTimeout }) (fun _ => rfl) sessions
  | delivered port => exact from_modify key _ (touched_insertion port now) sessions
  | _ => exact .refl sessions

/-- A task that is through with the map stays so. -/
theorem underLock_done (key : NatKey) (now : Nat) (sessions : KeyedMap NatKey NatEntry) :
    underLock key now sessions .done = (sessions, .done) := rfl

theorem outside_done (gone : Bool) (step : NatMove) : outside gone step .done = .done := by
  cases step with
  | dispatched udpTimeout => cases udpTimeout <;> rfl
  | _ => rfl

/-- Under the lock a task changes the entry under its own key only. -/
theorem underLock_other {key other : NatKey} (different : other ≠ key) (now : Nat)
    (sessions : KeyedMap NatKey NatEntry) (stage : NatStage) :
    (underLock key now sessions stage).1.lookup other = sessions.lookup other := by
  cases stage with
  | refused | failed | leaving => exact AList.lookup_erase_ne different
  | timed _ | delivered _ => exact (KeyedMap.lookup_modify_ite _ _ _ _).trans (if_neg different)
  | _ => rfl

/-! ### A task finds its own entry -/

/-- Tasks of one state are tasks of another, and none is at work again. -/
def TasksFrom (after before : KeyedMap Nat NatTasks) : Prop :=
  ∀ insertion tasks, after.lookup insertion = some tasks →
    ∃ earlier, before.lookup insertion = some earlier ∧ earlier.key = tasks.key ∧
      (earlier.stage = .done → tasks.stage = .done)

theorem TasksFrom.refl (tasks : KeyedMap Nat NatTasks) : TasksFrom tasks tasks :=
  fun _ found there => ⟨found, there, rfl, id⟩

theorem tasksFrom_insert {tasks : KeyedMap Nat NatTasks} {insertion : Nat} {before after : NatTasks}
    (found : tasks.lookup insertion = some before) (sameKey : before.key = after.key)
    (stays : before.stage = .done → after.stage = .done) :
    TasksFrom (tasks.insert insertion after) tasks := by
  intro other there isThere
  rw [KeyedMap.lookup_insert_ite] at isThere
  split at isThere
  · rename_i here
    cases isThere
    rw [here]
    exact ⟨before, found, sameKey, stays⟩
  · exact ⟨there, isThere, rfl, id⟩

theorem tasksFrom_modify (change : NatTasks → NatTasks)
    (sameKey : ∀ tasks, (change tasks).key = tasks.key)
    (sameStage : ∀ tasks, (change tasks).stage = tasks.stage) (tasks : KeyedMap Nat NatTasks) :
    TasksFrom (KeyedMap.modify insertion change tasks) tasks := by
  intro other there isThere
  rw [KeyedMap.lookup_modify_ite] at isThere
  split at isThere
  · rename_i here
    subst here
    obtain ⟨earlier, before, is⟩ := Option.map_eq_some_iff.mp isThere
    refine ⟨earlier, before, ?_, ?_⟩
    · rw [← is, sameKey]
    · intro done
      rw [← is, sameStage]
      exact done
  · exact ⟨there, isThere, rfl, id⟩

/-- A step that puts nothing in. -/
structure Onward (after before : NatManager) : Prop where
  sessions : From after.sessions before.sessions
  tasks : TasksFrom after.tasks before.tasks
  next : after.next = before.next

theorem Onward.refl (nat : NatManager) : Onward nat nat :=
  ⟨.refl _, .refl _, rfl⟩

theorem Owned.onward {after : NatManager} (owned : nat.Owned) (onward : Onward after nat) :
    after.Owned := by
  obtain ⟨sessions, tasks, next⟩ := onward
  constructor
  · intro insertion standing entry found working there
    obtain ⟨earlier, before, sameKey, stays⟩ := tasks insertion standing found
    rw [← sameKey] at there
    obtain ⟨earlierEntry, wasThere, same⟩ := sessions _ entry there
    rw [← same]
    exact owned.own insertion earlier earlierEntry before (fun done => working (stays done)) wasThere
  · intro insertion standing found
    obtain ⟨earlier, before, _⟩ := tasks insertion standing found
    rw [next]
    exact owned.fresh insertion earlier before

theorem enqueue_key (size : Nat) (tasks : NatTasks) (packet : UdpPacket) :
    (enqueue size tasks packet).key = tasks.key := by
  unfold enqueue
  split <;> rfl

theorem enqueue_stage (size : Nat) (tasks : NatTasks) (packet : UdpPacket) :
    (enqueue size tasks packet).stage = tasks.stage := by
  unfold enqueue
  split <;> rfl

theorem onward_sendTo (nat : NatManager) (key : NatKey) (packet : UdpPacket) (now : Nat) :
    Onward (sendTo uplinkChannelSize key packet now nat) nat := by
  unfold sendTo
  cases found : nat.sessions.lookup key with
  | none => exact .refl nat
  | some entry =>
    refine ⟨?_, tasksFrom_modify _ _ (fun tasks => enqueue_key _ tasks packet)
      (fun tasks => enqueue_stage _ tasks packet) nat.tasks, rfl⟩
    intro other there isThere
    rw [KeyedMap.lookup_insert_ite] at isThere
    split at isThere
    · rename_i here
      cases isThere
      rw [here]
      exact ⟨entry, found, rfl⟩
    · exact ⟨there, isThere, rfl⟩

theorem owned_addSession (owned : nat.Owned) (key : NatKey) (now : Nat)
    (settled : nat.Settled key) : (addSession udpTimeouts key now nat).Owned := by
  constructor
  · intro insertion tasks entry found working there
    change (nat.tasks.insert nat.next _).lookup insertion = some tasks at found
    change (nat.sessions.insert key _).lookup tasks.key = some entry at there
    rw [KeyedMap.lookup_insert_ite] at found there
    split at found
    · rename_i isNew
      cases found
      rw [if_pos rfl] at there
      cases there
      exact isNew.symm
    · rw [if_neg ?_] at there
      · exact owned.own insertion tasks entry found working there
      · intro same
        exact working (settled (insertion, tasks) (KeyedMap.mem_toList.mpr found) same)
  · intro insertion tasks found
    change (nat.tasks.insert nat.next _).lookup insertion = some tasks at found
    change insertion < nat.next + 1
    rw [KeyedMap.lookup_insert_ite] at found
    split at found
    · omega
    · have before := owned.fresh insertion tasks found
      omega

theorem owned_send (owned : nat.Owned) (call : NatSend)
    (settled : call.adds nat = true → nat.Settled call.addedKey) :
    (send udpTimeouts uplinkChannelSize call nat).Owned := by
  unfold send
  cases restored : call.restored with
  | false => exact owned
  | true =>
    cases found : nat.sessions.lookup call.key with
    | some entry => exact owned.onward (onward_sendTo _ _ _ _)
    | none =>
      cases ended : call.source.association.isSome && call.associationEnded with
      | true => exact owned
      | false =>
        refine (owned_addSession owned _ _ (settled ?_)).onward (onward_sendTo _ _ _ _)
        unfold NatSend.adds
        rw [restored, found, ended]
        rfl

theorem onward_move (step : NatMove) : Onward (move insertion step nat) nat := by
  unfold move
  cases found : nat.tasks.lookup insertion with
  | none => exact .refl nat
  | some tasks =>
    cases step with
    | lock now =>
      refine ⟨from_underLock _ _ _ _, tasksFrom_insert found rfl ?_, rfl⟩
      intro done
      change (underLock tasks.key now nat.sessions tasks.stage).2 = .done
      rw [done, underLock_done]
    | sniff =>
      dsimp only
      split
      · exact ⟨.refl _, tasksFrom_insert found rfl id, rfl⟩
      · exact .refl nat
    | _ =>
      refine ⟨.refl _, tasksFrom_insert found rfl ?_, rfl⟩
      intro done
      change outside (gone insertion tasks nat) _ tasks.stage = .done
      rw [done, outside_done]

theorem onward_uplink (goesOn : Bool) : Onward (uplink insertion goesOn nat) nat := by
  unfold uplink
  cases found : nat.tasks.lookup insertion with
  | none => exact .refl nat
  | some tasks =>
    dsimp only
    split
    · refine ⟨.refl _, tasksFrom_insert found ?_ ?_, rfl⟩
      · split <;> rfl
      · intro done
        split <;> exact done
    · exact .refl nat

theorem onward_step {event : NatEvent} (other : ∀ call, event ≠ .send call) :
    Onward (step udpTimeouts uplinkChannelSize nat event) nat := by
  cases event with
  | send call => exact absurd rfl (other call)
  | endSource _ _ | endAssociation _ | idleCheck _ => exact ⟨from_retain _ _, .refl _, rfl⟩
  | task insertion step => exact onward_move insertion step
  | uplink insertion goesOn => exact onward_uplink insertion goesOn

theorem owned_step (nat : NatManager) (event : NatEvent) (settled : nat.PutsInSettled event)
    (owned : nat.Owned) : (step udpTimeouts uplinkChannelSize nat event).Owned := by
  cases event with
  | send call => exact owned_send owned call settled
  | _ => exact owned.onward (onward_step (fun _ same => by cases same))

theorem owned_new : NatManager.new.Owned := by
  constructor
  · intro insertion tasks entry found
    cases found
  · intro insertion tasks found
    cases found

/-! ### Tasks leave the sessions of others alone -/

/-- A step of a task changes no entry but the one under its key, and none unless it is at
work. -/
theorem move_sessions (step : NatMove) (nat : NatManager) (key : NatKey) :
    (move insertion step nat).sessions.lookup key = nat.sessions.lookup key ∨
      ∃ tasks, nat.tasks.lookup insertion = some tasks ∧ tasks.stage ≠ .done ∧ tasks.key = key := by
  unfold move
  cases found : nat.tasks.lookup insertion with
  | none => exact .inl rfl
  | some tasks =>
    cases step with
    | lock now =>
      by_cases done : tasks.stage = .done
      · refine .inl ?_
        dsimp only
        rw [done, underLock_done]
      · by_cases here : key = tasks.key
        · exact .inr ⟨tasks, rfl, done, here.symm⟩
        · exact .inl (underLock_other here _ _ _)
    | sniff =>
      refine .inl ?_
      dsimp only
      split <;> rfl
    | _ => exact .inl rfl

theorem uplink_sessions (goesOn : Bool) (nat : NatManager) :
    (uplink insertion goesOn nat).sessions = nat.sessions := by
  unfold uplink
  split
  · rfl
  · split <;> rfl

theorem step_sessions_other (owned : nat.Owned) {event : NatEvent} {insertion : Nat}
    (ofTask : event.insertion = some insertion) {key : NatKey} {entry : NatEntry}
    (found : nat.sessions.lookup key = some entry) (other : entry.insertion ≠ insertion) :
    (step udpTimeouts uplinkChannelSize nat event).sessions.lookup key = some entry := by
  cases event with
  | task number taken =>
    cases ofTask
    rcases move_sessions insertion taken nat key with same | ⟨tasks, isAt, working, isKey⟩
    · exact same.trans found
    · rw [← isKey] at found
      exact absurd (owned.own insertion tasks entry isAt working found) other
  | uplink number goesOn =>
    cases ofTask
    change (uplink insertion goesOn nat).sessions.lookup key = some entry
    rw [uplink_sessions]
    exact found
  | _ => cases ofTask

/-- At every moment of a run, a step of the tasks of one insertion leaves the entries of all
other insertions as they are. -/
theorem tasks_keep_to_own_session {before after : List NatEvent} {event : NatEvent}
    (permits : (step udpTimeouts uplinkChannelSize).Permits PutsInSettled
      (before ++ event :: after) NatManager.new)
    {insertion : Nat} (ofTask : event.insertion = some insertion)
    {key : NatKey} {entry : NatEntry}
    (found : ((step udpTimeouts uplinkChannelSize).run before NatManager.new).sessions.lookup key =
      some entry) (other : entry.insertion ≠ insertion) :
    ((step udpTimeouts uplinkChannelSize).run (before ++ [event])
      NatManager.new).sessions.lookup key = some entry := by
  have owned := permits.split.1.invariant owned_step owned_new
  rw [Machine.run_append]
  exact step_sessions_other owned ofTask found other

/-! ### A dial that fails late -/

namespace SuccessionExample

def client : DatagramSource :=
  { address := .v4 ⟨[192, 0, 2, 10], rfl⟩ 4000, streamId := none, processName := none
    user := none, association := none, resourceLease := none }

def sentAt (now : Nat) : NatEvent :=
  .send
    { source := client, inboundTag := "tun", session := none
      packet := { data := [1], srcAddr := .ip client.address
                  dstAddr := .ip (.v4 ⟨[192, 0, 2, 1], rfl⟩ 443) }
      restored := true, associationEnded := false, added := now, sent := now }

def clientKey : NatKey :=
  { inboundTag := "tun", source := client }

def manager : Machine NatManager NatEvent :=
  step (fun _ => none) 16

def whileDialing : List NatEvent :=
  [sentAt 0, .task 0 (.admission true), .endSource "tun" client, sentAt 1, .task 0 .dispatchFailed]

def onceRefused : List NatEvent :=
  [sentAt 0, .task 0 (.admission false), .task 0 (.lock 0), sentAt 1]

end SuccessionExample

open SuccessionExample

theorem late_failure_ends_successor :
    (manager.run whileDialing NatManager.new).sessions.lookup clientKey =
        some { insertion := 1, activity := 1, timeout := defaultUdpTimeout } ∧
      (manager.run (whileDialing ++ [.task 0 (.lock 2)]) NatManager.new).sessions.lookup clientKey =
        none := by
  decide +kernel

theorem tasks_keep_to_own_session_refused :
    (manager.run (onceRefused ++ [.task 0 (.lock 2)]) NatManager.new).sessions.lookup clientKey =
      some { insertion := 1, activity := 1, timeout := defaultUdpTimeout } :=
  @tasks_keep_to_own_session (fun _ => none) 16 onceRefused [] (.task 0 (.lock 2))
    (by decide +kernel) 0 rfl clientKey _ (by decide +kernel) (by decide)

end NatManager

end Sail.App
