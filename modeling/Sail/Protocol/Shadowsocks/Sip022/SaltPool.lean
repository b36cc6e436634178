/-
The TCP request salts a server has seen, after `protocol/shadowsocks/sip022/mod.rs`.

A salt is forgotten a minute after the instant it was put in with, by whichever check
comes first then. A pool full of live salts refuses new ones.
-/

import Sail.Protocol.Shadowsocks.Sip022.Primitives
import Mathlib.Data.Finset.Card

namespace Sail.Protocol.Shadowsocks.Sip022

def saltTtl : Nat := 2 * maxTimeDiff * second

def saltPoolCap : Nat := 256 * 1024

structure SaltPool where
  set : Finset Bytes
  order : List (Nat × Bytes)
deriving DecidableEq

namespace SaltPool

def new : SaltPool :=
  { set := ∅, order := [] }

def key (salt : Bytes) : Bytes :=
  salt.take 32 ++ List.replicate (32 - salt.length) 0

def expire (now : Nat) : List (Nat × Bytes) → Finset Bytes → SaltPool
  | [], set => { set, order := [] }
  | (time, salt) :: rest, set =>
    if now - time < saltTtl then { set, order := (time, salt) :: rest }
    else expire now rest (set.erase salt)

def checkAndInsertAt (pool : SaltPool) (salt : Bytes) (now cap : Nat) :
    SaltPool × Except String Unit :=
  let pool := expire now pool.order pool.set
  if key salt ∈ pool.set then (pool, .error "repeated salt")
  else if cap ≤ pool.set.card then (pool, .error "salt pool full")
  else
    ({ set := insert (key salt) pool.set, order := pool.order ++ [(now, key salt)] }, .ok ())

/-! ### What a pool holds -/

/-- The set is that of the queue, in which no salt stands twice. -/
structure Sound (pool : SaltPool) : Prop where
  mem_iff : ∀ salt, salt ∈ pool.set ↔ ∃ time, (time, salt) ∈ pool.order
  nodup : (pool.order.map Prod.snd).Nodup

theorem new_sound : new.Sound :=
  { mem_iff := fun salt => ⟨fun member => absurd member (Finset.notMem_empty salt),
      fun member => member.elim (fun _ inOrder => absurd inOrder List.not_mem_nil)⟩
    nodup := List.nodup_nil }

variable {pool : SaltPool}

theorem expire_sound (now : Nat) {order : List (Nat × Bytes)} {set : Finset Bytes}
    (sound : Sound { set, order }) : (expire now order set).Sound := by
  induction order generalizing set with
  | nil => exact sound
  | cons entry rest ih =>
    rw [expire]
    split
    · exact sound
    · have distinct := List.nodup_cons.mp sound.nodup
      refine ih ⟨?_, distinct.2⟩
      intro other
      rw [Finset.mem_erase, sound.mem_iff other]
      constructor
      · rintro ⟨apart, moment, member⟩
        rcases List.mem_cons.mp member with here | later
        · cases here
          exact absurd rfl apart
        · exact ⟨moment, later⟩
      · rintro ⟨moment, member⟩
        refine ⟨?_, moment, List.mem_cons_of_mem _ member⟩
        rintro rfl
        exact distinct.1 (List.mem_map.mpr ⟨_, member, rfl⟩)

variable {now time : Nat} {salt : Bytes}

/-- No salt is forgotten before its time. -/
theorem mem_expire {order : List (Nat × Bytes)} {set : Finset Bytes}
    (member : (time, salt) ∈ order) (live : now < time + saltTtl) :
    (time, salt) ∈ (expire now order set).order := by
  have positive : 0 < saltTtl := by decide
  induction order generalizing set with
  | nil => cases member
  | cons entry rest ih =>
    rw [expire]
    split
    · exact member
    · rename_i due
      rcases List.mem_cons.mp member with here | later
      · cases here
        omega
      · exact ih later

theorem checkAndInsertAt_sound (sound : pool.Sound) (salt : Bytes) (now cap : Nat) :
    (pool.checkAndInsertAt salt now cap).1.Sound := by
  have expired : (expire now pool.order pool.set).Sound := expire_sound now sound
  unfold checkAndInsertAt
  generalize expire now pool.order pool.set = pool at expired ⊢
  dsimp only
  split
  · exact expired
  · split
    · exact expired
    · rename_i absent _
      constructor
      · intro other
        rw [Finset.mem_insert, expired.mem_iff]
        constructor
        · rintro (rfl | ⟨time, member⟩)
          · exact ⟨now, List.mem_append_right _ List.mem_cons_self⟩
          · exact ⟨time, List.mem_append_left _ member⟩
        · rintro ⟨time, member⟩
          rcases List.mem_append.mp member with old | added
          · exact .inr ⟨time, old⟩
          · cases List.mem_singleton.mp added
            exact .inl rfl
      · rw [List.map_append]
        refine expired.nodup.append (List.nodup_singleton _) ?_
        intro other old added
        obtain ⟨⟨time, held⟩, member, rfl⟩ := List.mem_map.mp old
        have same : held = key salt := List.mem_singleton.mp added
        rw [same] at member
        exact absent ((expired.mem_iff _).mpr ⟨time, member⟩)

/-- A salt whose time has not passed stays, whatever else is checked. -/
theorem mem_checkAndInsertAt (member : (time, salt) ∈ pool.order) (live : now < time + saltTtl)
    (other : Bytes) (cap : Nat) :
    (time, salt) ∈ (pool.checkAndInsertAt other now cap).1.order := by
  have kept : (time, salt) ∈ (expire now pool.order pool.set).order := mem_expire member live
  unfold checkAndInsertAt
  dsimp only
  split
  · exact kept
  · split
    · exact kept
    · exact List.mem_append_left _ kept

/-- A salt that passes is put in, with the instant it was checked with. -/
theorem mem_of_checkAndInsertAt {cap : Nat}
    (passed : (pool.checkAndInsertAt salt now cap).2 = .ok ()) :
    (now, key salt) ∈ (pool.checkAndInsertAt salt now cap).1.order := by
  unfold checkAndInsertAt at passed ⊢
  dsimp only at passed ⊢
  split at passed
  · cases passed
  · split at passed
    · cases passed
    · rename_i absent roomy
      rw [if_neg absent, if_neg roomy]
      exact List.mem_append_right _ List.mem_cons_self

theorem checkAndInsertAt_refuses (sound : pool.Sound) {cap : Nat}
    (member : (time, key salt) ∈ pool.order) (live : now < time + saltTtl) :
    (pool.checkAndInsertAt salt now cap).2 ≠ .ok () := by
  have kept : (time, key salt) ∈ (expire now pool.order pool.set).order := mem_expire member live
  have expired : (expire now pool.order pool.set).Sound := expire_sound now sound
  unfold checkAndInsertAt
  dsimp only
  rw [if_pos ((expired.mem_iff _).mpr ⟨time, kept⟩)]
  exact nofun

end SaltPool

end Sail.Protocol.Shadowsocks.Sip022
