/-
Authentication of VMess requests, after `protocol/vmess/header.rs`.

The server takes an auth ID whose timestamp is within two minutes of now and that its
replay filter has not seen. The filter keeps two generations of IDs and turns them lazily.
AES and the CRC are parameters of the model. Instants count nanoseconds.
-/

import Mathlib
import Sail.Lib.Bytes
import Sail.Lib.Freshness

namespace Sail.Protocol.Vmess

open Bytes

abbrev Block := { bytes : Bytes // bytes.length = 16 }

def maxTimeDifference : Nat := 120

def replayWindow : Nat := 2 * maxTimeDifference * second

def replayMaxEntries : Nat := 2 ^ 20

/-! ### The filter -/

structure Generations where
  current : Finset Block
  previous : Finset Block
  since : Nat

namespace Generations

def new (now : Nat) : Generations :=
  { current := ∅, previous := ∅, since := now }

/-- What a check does before it looks an ID up. The clock is read for the age, and once
more when a generation starts. -/
def turn (generations : Generations) (now later : Nat) : Generations :=
  let age := now - generations.since
  if 2 * replayWindow ≤ age then
    { current := ∅, previous := ∅, since := later }
  else if replayWindow ≤ age ∨ replayMaxEntries ≤ generations.current.card then
    { current := ∅, previous := generations.current, since := later }
  else generations

def check (generations : Generations) (id : Block) (now later : Nat) : Generations × Bool :=
  let turned := generations.turn now later
  if id ∈ turned.previous then (turned, false)
  else ({ turned with current := insert id turned.current }, decide (id ∉ turned.current))

end Generations

/-! ### What the filter knows -/

namespace Generations

/-- An ID checked at `time` stands in the current generation, or in the one before it,
which ended later. -/
def Knows (generations : Generations) (id : Block) (time : Nat) : Prop :=
  (id ∈ generations.current ∧ time < generations.since + replayWindow) ∨
    (id ∈ generations.previous ∧ time ≤ generations.since)

variable {generations : Generations} {id : Block} {now later time : Nat}

theorem turn_cases (generations : Generations) (now later : Nat) :
    (generations.turn now later = { current := ∅, previous := ∅, since := later } ∧
        generations.since + 2 * replayWindow ≤ now) ∨
      (generations.turn now later =
          { current := ∅, previous := generations.current, since := later } ∧
        (generations.since + replayWindow ≤ now ∨ replayMaxEntries ≤ generations.current.card)) ∨
      (generations.turn now later = generations ∧ now < generations.since + replayWindow) := by
  have positive : 0 < replayWindow := by decide
  unfold turn
  dsimp only
  split
  · exact .inl ⟨rfl, by omega⟩
  · split
    · rename_i due
      refine .inr (.inl ⟨rfl, due.imp_left ?_⟩)
      intro aged
      omega
    · exact .inr (.inr ⟨rfl, by omega⟩)

theorem knows_turn (known : generations.Knows id time) (early : now < time + replayWindow)
    (order : now ≤ later)
    (roomy : now < generations.since + replayWindow → generations.current.card < replayMaxEntries) :
    (generations.turn now later).Knows id time := by
  rcases turn_cases generations now later with ⟨is, aged⟩ | ⟨is, due⟩ | ⟨is, -⟩
  · rcases known with ⟨-, recent⟩ | ⟨-, recent⟩
    · omega
    · omega
  · rcases known with ⟨member, recent⟩ | ⟨-, recent⟩
    · rw [is]
      exact .inr ⟨member, by dsimp only; omega⟩
    · omega
  · rw [is]
    exact known

theorem knows_check (known : (generations.turn now later).Knows id time) (other : Block) :
    (generations.check other now later).1.Knows id time := by
  unfold check
  dsimp only
  split
  · exact known
  · rcases known with ⟨member, recent⟩ | before
    · exact .inl ⟨Finset.mem_insert_of_mem member, recent⟩
    · exact .inr before

theorem check_of_knows (known : (generations.turn now later).Knows id time) :
    (generations.check id now later).2 = false := by
  unfold check
  dsimp only
  split
  · rfl
  · rename_i absent
    rcases known with ⟨member, -⟩ | ⟨member, -⟩
    · exact decide_eq_false (not_not_intro member)
    · exact absurd member absent

/-- An ID found new is known from then on. -/
theorem knows_of_check (order : now ≤ later)
    (fresh : (generations.check id now later).2 = true) :
    (generations.check id now later).1.Knows id now := by
  have positive : 0 < replayWindow := by decide
  have young : now < (generations.turn now later).since + replayWindow := by
    rcases turn_cases generations now later with ⟨is, -⟩ | ⟨is, -⟩ | ⟨is, young⟩
    · rw [is]
      dsimp only
      omega
    · rw [is]
      dsimp only
      omega
    · rw [is]
      exact young
  unfold check at fresh ⊢
  dsimp only at fresh ⊢
  split at fresh
  · cases fresh
  · rename_i absent
    rw [if_neg absent]
    exact .inl ⟨Finset.mem_insert_self _ _, young⟩

/-- A check leaves a young generation with one ID more, or starts one with it. -/
theorem check_current (generations : Generations) (id : Block) (now later : Nat) :
    ((generations.check id now later).1.since = generations.since ∧
        (generations.check id now later).1.current.card ≤ generations.current.card + 1) ∨
      ((generations.check id now later).1.since = later ∧
        (generations.check id now later).1.current.card ≤ 1) := by
  have checked : (generations.check id now later).1.since = (generations.turn now later).since ∧
      (generations.check id now later).1.current.card ≤
        (generations.turn now later).current.card + 1 := by
    unfold check
    dsimp only
    split
    · exact ⟨rfl, Nat.le_succ _⟩
    · exact ⟨rfl, Finset.card_insert_le _ _⟩
  rcases turn_cases generations now later with ⟨is, -⟩ | ⟨is, -⟩ | ⟨is, -⟩
  · rw [is] at checked
    exact .inr checked
  · rw [is] at checked
    exact .inr checked
  · rw [is] at checked
    exact .inl checked

end Generations

/-! ### Authentication -/

structure User (T : Type*) where
  /-- The user's AES key, as what it decrypts a block to. -/
  decryptBlock : Block → Block
  data : T

inductive AuthError where
  | unknownUser
  | badTime
  | replayed
deriving DecidableEq

section Authenticate

variable {T : Type*} (crc32 : Bytes → Nat)

def authenticate (generations : Generations) (authId : Block) (now checked later : Nat) :
    List (User T) → Generations × Except AuthError (User T)
  | [] => (generations, .error .unknownUser)
  | user :: others =>
    let id := (user.decryptBlock authId).1
    let crc := u32At id 12
    if crc32 (id.take 12) ≠ crc then authenticate generations authId now checked later others
    else
      let time := u64At id 0
      if maxTimeDifference < absDiff time now then (generations, .error .badTime)
      else
        let (generations, fresh) := generations.check authId checked later
        if fresh then (generations, .ok user) else (generations, .error .replayed)

def recognise (authId : Block) : List (User T) → Option (User T × Nat)
  | [] => none
  | user :: others =>
    let id := (user.decryptBlock authId).1
    if crc32 (id.take 12) ≠ u32At id 12 then recognise authId others
    else some (user, u64At id 0)

theorem authenticate_eq (generations : Generations) (authId : Block) (now checked later : Nat)
    (users : List (User T)) :
    authenticate crc32 generations authId now checked later users =
      match recognise crc32 authId users with
      | none => (generations, .error .unknownUser)
      | some (user, time) =>
        if maxTimeDifference < absDiff time now then (generations, .error .badTime)
        else
          ((generations.check authId checked later).1,
            if (generations.check authId checked later).2 then .ok user
            else .error .replayed) := by
  induction users with
  | nil => rfl
  | cons user others ih =>
    rw [authenticate, recognise]
    split
    · exact ih
    · dsimp only
      split
      · rfl
      · cases (generations.check authId checked later).2 with
        | false => rfl
        | true => rfl

end Authenticate

end Sail.Protocol.Vmess
