/-
The limits users are held to, after `user/mod.rs`.

A call decides limits under the registry's lock and applies them behind it, to the users it
found there. Nothing keeps two calls from applying theirs the other way round.
-/

import Mathlib.Logic.Function.Basic
import Sail.Lib.Runs

namespace Sail.User

/-- What the registry has for a name. -/
structure Registered (Limits : Type) where
  configured : Option Limits
  override : Option Limits
  limits : Option Limits
  /-- The limits in force for the user of that name, if there is one. -/
  user : Option Limits
  /-- Decided for the user and not yet applied. -/
  pending : List Limits
deriving DecidableEq

inductive LimitCall (Limits : Type) where
  | setLimits (limits : String → Option Limits)
  | setLimitsNamed (limits : List (String × Limits))
  | restoreLimitNamed (name : String)
  | bind (name : String)
  | dropped (name : String)
  | apply (name : String) (index : Nat)

variable {Limits : Type} [Inhabited Limits]

namespace Registered

def new : Registered Limits :=
  { configured := none, override := none, limits := none, user := none, pending := [] }

def decided (entry : Registered Limits) (limits : Limits) : List Limits :=
  if entry.user.isSome then entry.pending ++ [limits] else entry.pending

def setLimits [DecidableEq Limits] (entry : Registered Limits) (limits : Option Limits) :
    Registered Limits :=
  let override := if entry.configured = limits then entry.override else none
  let effective := override.or limits
  { entry with
    configured := limits
    override
    limits := effective
    pending := entry.decided (effective.getD default) }

def setLimit (entry : Registered Limits) (limits : Limits) : Registered Limits :=
  { entry with
    override := some limits, limits := some limits, pending := entry.decided limits }

def restoreLimit (entry : Registered Limits) : Registered Limits :=
  let limits := entry.configured.getD default
  { entry with override := none, limits := some limits, pending := entry.decided limits }

def bind (entry : Registered Limits) : Registered Limits :=
  { entry with user := entry.user.or (some (entry.limits.getD default)) }

/-- A call that has still to apply limits to a user holds it. -/
def dropped (entry : Registered Limits) : Registered Limits :=
  if entry.pending.isEmpty then { entry with user := none } else entry

def apply (entry : Registered Limits) (index : Nat) : Registered Limits :=
  match entry.pending[index]? with
  | none => entry
  | some limits => { entry with user := some limits, pending := entry.pending.eraseIdx index }

def onRecord (entry : Registered Limits) : Limits :=
  (entry.override.or entry.configured).getD default

end Registered

abbrev Registry (Limits : Type) := String → Registered Limits

namespace Registry

def update (registry : Registry Limits) (name : String)
    (change : Registered Limits → Registered Limits) : Registry Limits :=
  Function.update registry name (change (registry name))

def step [DecidableEq Limits] : Machine (Registry Limits) (LimitCall Limits) :=
  fun registry call =>
    match call with
    | .setLimits limits => fun name => (registry name).setLimits (limits name)
    | .setLimitsNamed limits =>
      limits.foldl (fun registry (name, limits) => update registry name (·.setLimit limits))
        registry
    | .restoreLimitNamed name => update registry name .restoreLimit
    | .bind name => update registry name .bind
    | .dropped name => update registry name .dropped
    | .apply name index => update registry name (·.apply index)

/-- Limits are applied to a user in the order they were decided in. -/
def InOrder (_ : Registry Limits) : LimitCall Limits → Prop
  | .apply _ index => index = 0
  | _ => True

end Registry

/-- Once the pending limits are applied in order, the user has those on record. -/
structure Registered.Sound (entry : Registered Limits) : Prop where
  limits : entry.limits.getD default = entry.onRecord
  none : entry.user = none → entry.pending = []
  last : ∀ inForce ∈ entry.user, entry.pending.getLast?.getD inForce = entry.onRecord

namespace Registered.Sound

variable {entry : Registered Limits} (sound : entry.Sound)

include sound

/-- Limits decided under the lock are the last to be applied. -/
theorem decided {configured override limits : Option Limits} {value : Limits}
    (effective : limits.getD default = value)
    (recorded : (override.or configured).getD default = value) :
    Registered.Sound
      { entry with configured, override, limits, pending := entry.decided value } := by
  obtain ⟨_, _, _, _ | _, pending⟩ := entry
  · exact ⟨effective.trans recorded.symm, sound.none, nofun⟩
  · refine ⟨effective.trans recorded.symm, nofun, ?_⟩
    rintro _ ⟨⟩
    change (pending ++ [value]).getLast?.getD _ = _
    rw [List.getLast?_concat]
    exact recorded.symm

theorem bind : entry.bind.Sound := by
  obtain ⟨limits, none, last⟩ := sound
  obtain ⟨_, _, _, _ | _, pending⟩ := entry
  · cases none rfl
    refine ⟨limits, nofun, ?_⟩
    rintro _ ⟨⟩
    exact limits
  · exact ⟨limits, nofun, last⟩

theorem apply_first : (entry.apply 0).Sound := by
  obtain ⟨limits, none, last⟩ := sound
  obtain ⟨_, _, _, _ | inForce, _ | ⟨first, rest⟩⟩ := entry
  · exact ⟨limits, none, last⟩
  · cases none rfl
  · exact ⟨limits, none, last⟩
  · refine ⟨limits, nofun, ?_⟩
    rintro _ ⟨⟩
    have onRecord := last inForce rfl
    rw [List.getLast?_cons] at onRecord
    exact onRecord

end Registered.Sound

namespace Registry

variable [DecidableEq Limits] {registry : Registry Limits}

omit [DecidableEq Limits] in
theorem sound_update (sound : ∀ name, (registry name).Sound) {name : String}
    (change : Registered Limits → Registered Limits) (kept : (change (registry name)).Sound) :
    ∀ other, (update registry name change other).Sound := by
  intro other
  unfold update
  rw [Function.update_apply]
  split_ifs
  · exact kept
  · exact sound other

theorem sound_step (registry : Registry Limits) (call : LimitCall Limits)
    (inOrder : registry.InOrder call) (sound : ∀ name, (registry name).Sound) :
    ∀ name, (step registry call name).Sound := by
  cases call with
  | setLimits limits => exact fun name => (sound name).decided rfl rfl
  | setLimitsNamed limits =>
    clear inOrder
    induction limits generalizing registry with
    | nil => exact sound
    | cons entry rest ih =>
      exact ih _ (sound_update sound (·.setLimit entry.2) ((sound entry.1).decided rfl rfl))
  | restoreLimitNamed name => exact sound_update sound _ ((sound name).decided rfl rfl)
  | bind name => exact sound_update sound _ (sound name).bind
  | dropped name =>
    refine sound_update sound _ ?_
    unfold Registered.dropped
    split_ifs with isEmpty
    · exact ⟨(sound name).limits, fun _ => List.isEmpty_iff.mp isEmpty, nofun⟩
    · exact sound name
  | apply name index =>
    cases inOrder
    exact sound_update sound (·.apply 0) (sound name).apply_first

def setTwice (order : List Nat) : List (LimitCall Nat) :=
  [.bind "alice", .setLimitsNamed [("alice", 1)], .setLimitsNamed [("alice", 2)]] ++
    order.map (.apply "alice")

end Registry

end Sail.User
