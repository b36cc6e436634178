/-
A Shadowsocks 2022 request is taken once, after `protocol/shadowsocks/sip022/stream.rs`.

A timestamp is good for thirty seconds on both sides of the second it names, sixty-one in
all, and a salt is remembered for sixty. A request whose timestamp is as far ahead as it
may be outlives its salt; one that is less far ahead does not.
-/

import Sail.Protocol.Shadowsocks.Sip022.Request

namespace Sail.Protocol.Shadowsocks.Sip022

open Bytes

structure Attempt where
  config : ServerConfig
  bytes : Bytes
  read : Nat
  instant : Nat
  locked : Nat

section Runs

variable (crypto : Crypto) (epoch : Nat)

def Attempt.now (attempt : Attempt) : Nat :=
  wholeSeconds epoch attempt.read

def attemptHead : Recorder SaltPool Attempt Head :=
  fun pool attempt =>
    let (pool, answer) := checkHead crypto attempt.config pool attempt.bytes (attempt.now epoch)
      attempt.instant
    (pool, answer.toOption)

/-- Attempts hold the pool one after the other, none longer than `delay` seconds after it
has read the wall clock. -/
structure Timed (delay : Nat) (attempts : List Attempt) : Prop where
  read : ∀ attempt ∈ attempts, attempt.read ≤ attempt.instant
  held : ∀ attempt ∈ attempts, attempt.instant ≤ attempt.locked
  prompt : ∀ attempt ∈ attempts, attempt.locked ≤ attempt.read + delay * second
  inTurn : attempts.Pairwise (fun attempt next => attempt.locked ≤ next.locked)

/-- A timestamp is less than thirty seconds ahead of the clock by more than the time an
attempt takes. -/
def Near (delay : Nat) (attempts : List Attempt) : Prop :=
  ∀ attempt ∈ attempts, ∀ head, readHead crypto attempt.config attempt.bytes = .ok head →
    head.timestamp + delay < attempt.now epoch + maxTimeDiff

variable {crypto epoch} {pool : SaltPool} {attempt : Attempt} {head : Head}

theorem attemptHead_taken (taken : (attemptHead crypto epoch pool attempt).2 = some head) :
    (checkHead crypto attempt.config pool attempt.bytes (attempt.now epoch) attempt.instant).2 =
      .ok head := by
  unfold attemptHead at taken
  dsimp only at taken
  cases answered : (checkHead crypto attempt.config pool attempt.bytes (attempt.now epoch)
      attempt.instant).2 with
  | error message =>
    rw [answered] at taken
    cases taken
  | ok opened =>
    rw [answered] at taken
    cases taken
    rfl

/-! ### A salt is remembered for a minute -/

structure Fit (pool : SaltPool) (rest : List Attempt) : Prop where
  sound : pool.Sound
  held : ∀ attempt ∈ rest, attempt.instant ≤ attempt.locked
  inTurn : rest.Pairwise (fun attempt next => attempt.locked ≤ next.locked)

theorem Fit.onward {rest : List Attempt} (fit : Fit pool (attempt :: rest)) :
    Fit (attemptHead crypto epoch pool attempt).1 rest := by
  refine ⟨?_, (List.forall_mem_cons.mp fit.held).2,
    (List.pairwise_cons.mp fit.inTurn).2⟩
  change (checkHead crypto attempt.config pool attempt.bytes (attempt.now epoch)
    attempt.instant).1.Sound
  rcases checkHead_pool crypto attempt.config pool attempt.bytes (attempt.now epoch)
    attempt.instant with same | ⟨salt, checked⟩
  · rw [same]
    exact fit.sound
  · rw [checked]
    exact SaltPool.checkAndInsertAt_sound fit.sound salt attempt.instant saltPoolCap

theorem attemptHead_remembers :
    (attemptHead crypto epoch).Remembers (fun entry : Attempt × Head => entry.2.salt)
      (fun entry => entry.1.instant) Attempt.locked saltTtl Fit
      (fun pool salt time => (time, SaltPool.key salt) ∈ pool.order) where
  onward := Fit.onward
  ordered := by
    intro pool attempt rest fit later member
    exact List.rel_of_pairwise_cons fit.inTurn member
  learns := by
    intro pool attempt rest head fit taken
    obtain ⟨_, _, passed, after⟩ := checkHead_ok (attemptHead_taken taken)
    change _ ∈ (checkHead crypto attempt.config pool attempt.bytes (attempt.now epoch)
      attempt.instant).1.order
    rw [after]
    exact SaltPool.mem_of_checkAndInsertAt passed
  keeps := by
    intro pool attempt rest salt time fit member early
    have live : attempt.instant < time + saltTtl :=
      Nat.lt_of_le_of_lt (fit.held attempt List.mem_cons_self) early
    change _ ∈ (checkHead crypto attempt.config pool attempt.bytes (attempt.now epoch)
      attempt.instant).1.order
    rcases checkHead_pool crypto attempt.config pool attempt.bytes (attempt.now epoch)
      attempt.instant with same | ⟨other, checked⟩
    · rw [same]
      exact member
    · rw [checked]
      exact SaltPool.mem_checkAndInsertAt member live other saltPoolCap
  refuses := by
    intro pool attempt rest salt time head fit member early taken same
    have live : attempt.instant < time + saltTtl :=
      Nat.lt_of_le_of_lt (fit.held attempt List.mem_cons_self) early
    obtain ⟨_, _, passed, _⟩ := checkHead_ok (attemptHead_taken taken)
    subst same
    exact SaltPool.checkAndInsertAt_refuses fit.sound member live passed

/-! ### A request is taken once -/

variable {delay : Nat} {attempts : List Attempt}

/-- A request passes the salt check once, and no salt is forgotten before its time. -/
theorem salt_passes_once (timed : Timed delay attempts) (near : Near crypto epoch delay attempts) :
    ((attemptHead crypto epoch).accepted attempts SaltPool.new).Pairwise
        (fun first last => first.2.salt = last.2.salt → first.2.timestamp ≠ last.2.timestamp) ∧
      ∀ entry ∈ (attemptHead crypto epoch).accepted attempts SaltPool.new,
        (∀ attempt ∈ attempts, attempt.locked < entry.1.instant + saltTtl) →
          SaltPool.key entry.2.salt ∈
            ((attemptHead crypto epoch).run attempts SaltPool.new).set := by
  have fit : Fit SaltPool.new attempts := ⟨SaltPool.new_sound, timed.held, timed.inTurn⟩
  constructor
  · refine (attemptHead_remembers.accepted_apart fit).imp_of_mem ?_
    intro first last firstMember lastMember apart same sameStamp
    have firstCalled := (attemptHead crypto epoch).mem_of_accepted firstMember
    have lastCalled := (attemptHead crypto epoch).mem_of_accepted lastMember
    obtain ⟨_, firstTaken⟩ := (attemptHead crypto epoch).taken_of_accepted firstMember
    obtain ⟨_, lastTaken⟩ := (attemptHead crypto epoch).taken_of_accepted lastMember
    obtain ⟨firstRead, _, _, _⟩ := checkHead_ok (attemptHead_taken firstTaken)
    obtain ⟨_, close, _, _⟩ := checkHead_ok (attemptHead_taken lastTaken)
    have ahead := near first.1 firstCalled first.2 firstRead
    have within : wholeSeconds epoch last.1.read + delay ≤
        wholeSeconds epoch first.1.read + (2 * maxTimeDiff - 1) := by
      unfold Attempt.now at ahead close
      unfold absDiff at close
      omega
    have readings := reading_lt within
    have remembered := apart same.symm
    have firstOrder := timed.read first.1 firstCalled
    have lastPrompt := timed.prompt last.1 lastCalled
    unfold saltTtl at remembered
    rw [Nat.sub_add_cancel (by decide)] at readings
    omega
  · intro entry member early
    have known := attemptHead_remembers.knows_accepted fit entry member early
    exact ((attemptHead_remembers.fit_run fit).sound.mem_iff _).mpr ⟨_, known⟩

end Runs

/-! ### A request as far ahead as it may be -/

namespace SaltExample

/-- An AEAD that only appends a tag of zeros. -/
def plainCrypto : Crypto where
  sessionSubkey psk _ := psk
  identitySubkey psk _ := psk
  pskHash psk := psk
  aeadSeal _ _ plaintext := plaintext ++ List.replicate 16 0
  aeadOpen _ _ ciphertext := some (ciphertext.take (ciphertext.length - 16))
  xchachaOpen _ _ ciphertext := some (ciphertext.take (ciphertext.length - 16))
  encryptBlock _ block := block
  decryptBlock _ block := block

def plainConfig : ServerConfig :=
  { method := .aes128Gcm, psk := List.replicate 16 7, users := none, shutOut := fun _ => false }

/-- A request stamped for second 30, sent `half` half-seconds into the run. -/
def sentAt (half : Nat) : Attempt :=
  let instant := half * (second / 2)
  { config := plainConfig
    bytes := List.replicate 16 5 ++
      plainCrypto.aeadSeal [] [] (headerTypeClient :: (u64Bytes 30 ++ u16Bytes 10))
    read := instant, instant, locked := instant }

theorem sent_timed {first last : Nat} (order : first ≤ last) :
    Timed 0 [sentAt first, sentAt last] := by
  refine ⟨?_, ?_, ?_, ?_⟩
  · intro attempt member
    simp only [List.mem_cons, List.not_mem_nil, or_false] at member
    rcases member with rfl | rfl <;> exact Nat.le_refl _
  · intro attempt member
    simp only [List.mem_cons, List.not_mem_nil, or_false] at member
    rcases member with rfl | rfl <;> exact Nat.le_refl _
  · intro attempt member
    simp only [List.mem_cons, List.not_mem_nil, or_false] at member
    rcases member with rfl | rfl <;> exact Nat.le_add_right _ _
  · rw [List.pairwise_pair]
    exact Nat.mul_le_mul_right _ order

theorem caught_near : Near plainCrypto 0 0 [sentAt 2, sentAt 121] := by
  intro attempt member head read
  have stamps : ∀ attempt ∈ [sentAt 2, sentAt 121],
      (readHead plainCrypto attempt.config attempt.bytes).toOption.map Head.timestamp = some 30 ∧
        30 + 0 < attempt.now 0 + maxTimeDiff := by decide +kernel
  obtain ⟨stamp, ahead⟩ := stamps attempt member
  rw [read] at stamp
  have is : head.timestamp = 30 := Option.some.inj stamp
  rw [is]
  exact ahead

end SaltExample

open SaltExample

theorem salt_passes_again : Timed 0 [sentAt 0, sentAt 121] ∧
      ((attemptHead plainCrypto 0).accepted [sentAt 0, sentAt 121] SaltPool.new).map
        (fun entry => (entry.2.salt, entry.2.timestamp)) =
          [(List.replicate 16 5, 30), (List.replicate 16 5, 30)] :=
  ⟨sent_timed (by decide), by decide +kernel⟩

theorem salt_passes_once_ahead :
    ((attemptHead plainCrypto 0).accepted [sentAt 2, sentAt 121] SaltPool.new).map
        (fun entry => (entry.2.salt, entry.2.timestamp)) = [(List.replicate 16 5, 30)] ∧
      ((attemptHead plainCrypto 0).accepted [sentAt 2, sentAt 121] SaltPool.new).Pairwise
        (fun first last => first.2.salt = last.2.salt → first.2.timestamp ≠ last.2.timestamp) :=
  ⟨by decide +kernel, (salt_passes_once (sent_timed (by decide)) caught_near).1⟩

end Sail.Protocol.Shadowsocks.Sip022
