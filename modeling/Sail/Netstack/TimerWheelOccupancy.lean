/-
The occupancy bitmap of the timer wheel.

One bit for each bucket says whether it holds a timer. The scan of one level's
words finds the first occupied bucket from the clock's own on and around, and
every operation of the wheel keeps the bits true.
-/

import Sail.Netstack.TimerWheelRefinement

namespace Sail.Netstack

variable {T : Type}

namespace TimerWheel

/-! ### Scanning the words -/

def marked (words : Nat → BitVec 64) (slot : Nat) : Bool :=
  (words (slot / 64)).getLsbD (slot % 64)

theorem trailingZeros_spec {word : BitVec 64} (nonzero : word ≠ 0) :
    trailingZeros word < 64 ∧ word.getLsbD (trailingZeros word) = true ∧
      ∀ bit, bit < trailingZeros word → word.getLsbD bit = false := by
  have present : ∃ bit ∈ List.range 64, word.getLsbD bit = true := by
    by_contra absent
    apply nonzero
    apply BitVec.eq_of_getLsbD_eq
    intro bit below
    have unset : (0 : BitVec 64).getLsbD bit = false := BitVec.getLsbD_zero
    rw [unset]
    by_contra set
    exact absent ⟨bit, List.mem_range.mpr below, Bool.eq_true_of_not_eq_false set⟩
  have inside := List.findIdx_lt_length.mpr present
  have found := List.findIdx_getElem (w := inside)
  rw [List.getElem_range] at found
  rw [List.length_range] at inside
  refine ⟨inside, found, ?_⟩
  intro bit below
  have earlier := List.not_of_lt_findIdx below
  rw [List.getElem_range] at earlier
  exact earlier

def covered (start rounds : Nat) : Nat :=
  64 * rounds - start % 64

def scanMask (start rounds : Nat) : BitVec 64 :=
  if rounds = 0 then BitVec.allOnes 64 <<< (start % 64) else BitVec.allOnes 64

variable {start : Nat}

theorem getLsbD_scanMask {rounds bit : Nat} (inside : bit < 64) :
    (scanMask start rounds).getLsbD bit =
      decide (rounds = 0 → start % 64 ≤ bit) := by
  unfold scanMask
  by_cases first : rounds = 0
  · rw [if_pos first, BitVec.getLsbD_shiftLeft, BitVec.getLsbD_allOnes]
    by_cases below : bit < start % 64
    · simp [first, below, inside]
    · have above : start % 64 ≤ bit := by omega
      have shifted : bit - start % 64 < 64 := by omega
      simp [above, inside, shifted]
  · rw [if_neg first, BitVec.getLsbD_allOnes]
    simp [first, inside]

def ScanSpec (words : Nat → BitVec 64) (start : Nat) : Option Nat → Prop
  | none => ∀ distance, distance < 256 → marked words ((start + distance) % 256) = false
  | some ahead =>
    ahead < 256 ∧ marked words ((start + ahead) % 256) = true ∧
      ∀ distance, distance < ahead → marked words ((start + distance) % 256) = false

theorem firstOccupiedFrom_spec (words : Nat → BitVec 64) (startInside : start < 256)
    (count rounds : Nat) (total : count + rounds = 5)
    (clear : ∀ distance, distance < covered start rounds → distance < 256 →
      marked words ((start + distance) % 256) = false) :
    ScanSpec words start
      (firstOccupiedFrom words start count (start / 64 + rounds) (scanMask start rounds)) := by
  induction count generalizing rounds with
  | zero =>
    intro distance below
    apply clear distance _ below
    unfold covered
    omega
  | succ count ih =>
    have here : ∀ bit, bit < 64 → (rounds = 0 → start % 64 ≤ bit) →
        (words ((start / 64 + rounds) % 4) &&& scanMask start rounds).getLsbD bit =
          marked words ((start + (64 * rounds + bit - start % 64)) % 256) := by
      intro bit below reached
      have word : (start + (64 * rounds + bit - start % 64)) % 256 / 64 =
          (start / 64 + rounds) % 4 := by omega
      have offset : (start + (64 * rounds + bit - start % 64)) % 256 % 64 = bit := by omega
      rw [BitVec.getLsbD_and, getLsbD_scanMask below, decide_eq_true reached, Bool.and_true,
        marked, word, offset]
    unfold firstOccupiedFrom
    dsimp only
    by_cases nonzero : words ((start / 64 + rounds) % 4) &&& scanMask start rounds ≠ 0
    · rw [if_pos nonzero]
      obtain ⟨inside, set, earlier⟩ := trailingZeros_spec nonzero
      have reached : rounds = 0 → start % 64 ≤ trailingZeros
          (words ((start / 64 + rounds) % 4) &&& scanMask start rounds) := by
        rw [BitVec.getLsbD_and, getLsbD_scanMask inside, Bool.and_eq_true] at set
        exact of_decide_eq_true set.2
      have occupied := here _ inside reached
      rw [set] at occupied
      generalize trailingZeros (words ((start / 64 + rounds) % 4) &&& scanMask start rounds) =
        bit at inside earlier reached occupied
      have within : 64 * rounds + bit - start % 64 < 256 := by
        by_contra beyond
        have wrapped := clear (64 * rounds + bit - start % 64 - 256)
          (by unfold covered; omega) (by omega)
        have same : (start + (64 * rounds + bit - start % 64 - 256)) % 256 =
            (start + (64 * rounds + bit - start % 64)) % 256 := by omega
        rw [same, ← occupied] at wrapped
        cases wrapped
      have distance : ((start / 64 + rounds) % 4 * 64 + bit + timerSlots - start) %
          timerSlots = 64 * rounds + bit - start % 64 := by
        unfold timerSlots
        omega
      rw [distance]
      refine ⟨within, occupied.symm, ?_⟩
      intro before closer
      by_cases known : before < covered start rounds
      · exact clear before known (by omega)
      · unfold covered at known
        have unset := earlier (before + start % 64 - 64 * rounds) (by omega)
        rw [here _ (by omega) (by omega)] at unset
        have same : 64 * rounds + (before + start % 64 - 64 * rounds) - start % 64 = before := by
          omega
        rw [same] at unset
        exact unset
    · rw [if_neg nonzero]
      have empty : words ((start / 64 + rounds) % 4) &&& scanMask start rounds = 0 :=
        Classical.not_not.mp nonzero
      apply ih (rounds + 1) (by omega)
      intro distance below inside
      by_cases known : distance < covered start rounds
      · exact clear distance known inside
      · unfold covered at below known
        have unset := here (distance + start % 64 - 64 * rounds) (by omega) (by omega)
        have same : 64 * rounds + (distance + start % 64 - 64 * rounds) - start % 64 =
            distance := by omega
        rw [empty, same] at unset
        exact unset.symm.trans BitVec.getLsbD_zero

theorem firstOccupied_spec (words : Nat → BitVec 64) (startInside : start < 256) :
    ScanSpec words start (firstOccupied words start) := by
  apply firstOccupiedFrom_spec words startInside 5 0 rfl
  intro distance below
  unfold covered at below
  omega

/-! ### The bits stay true -/

def Marked (wheel : TimerWheel T) : Prop :=
  ∀ level slot, marked (wheel.occupied level) slot = true ↔ wheel.buckets level slot ≠ ∅

theorem getLsbD_oneBit {position bit : Nat} (inside : position < 64) :
    (1#64 <<< position).getLsbD bit = decide (bit = position) := by
  by_cases same : bit = position
  · simp [same, inside]
  · by_cases before : bit < position
    · simp [before, same]
    · have apart : bit - position ≠ 0 := by omega
      simp [apart, same]

theorem marked_setOccupied (wheel : TimerWheel T) {level slot : Nat} {bits : BitVec 64}
    {value : Bool}
    (set : ∀ bit, bit < 64 → bits.getLsbD bit =
      if bit = slot % 64 then value else (wheel.occupied level (slot / 64)).getLsbD bit)
    (level' slot' : Nat) :
    marked (wheel.setOccupied level (slot / 64) bits level') slot' =
      if level' = level ∧ slot' = slot then value else marked (wheel.occupied level') slot' := by
  unfold marked setOccupied
  by_cases word : level' = level ∧ slot' / 64 = slot / 64
  · rw [if_pos word, set _ (Nat.mod_lt _ (by omega)), word.1, word.2]
    by_cases same : slot' % 64 = slot % 64
    · rw [if_pos same, if_pos ⟨rfl, by omega⟩]
    · rw [if_neg same, if_neg (by rintro ⟨_, rfl⟩; exact same rfl)]
  · rw [if_neg word, if_neg (by rintro ⟨sameLevel, rfl⟩; exact word ⟨sameLevel, rfl⟩)]

theorem marked_markOccupied (wheel : TimerWheel T) (level slot level' slot' : Nat) :
    marked (wheel.markOccupied level slot level') slot' =
      if level' = level ∧ slot' = slot then true else marked (wheel.occupied level') slot' := by
  refine wheel.marked_setOccupied (fun bit _ => ?_) level' slot'
  rw [BitVec.getLsbD_or, getLsbD_oneBit (Nat.mod_lt _ (by omega))]
  by_cases same : bit = slot % 64 <;> simp [same]

theorem marked_clearOccupied (wheel : TimerWheel T) (level slot level' slot' : Nat) :
    marked (wheel.clearOccupied level slot level') slot' =
      if level' = level ∧ slot' = slot then false else marked (wheel.occupied level') slot' := by
  refine wheel.marked_setOccupied (fun bit inside => ?_) level' slot'
  rw [BitVec.getLsbD_and, BitVec.getLsbD_not, getLsbD_oneBit (Nat.mod_lt _ (by omega))]
  by_cases same : bit = slot % 64 <;> simp [same, inside]

theorem new_marked (tickMs nowMs : Nat) (tickPositive : 0 < tickMs) :
    Marked (new tickMs nowMs tickPositive : TimerWheel T) := by
  intro level slot
  have unset : marked ((new tickMs nowMs tickPositive : TimerWheel T).occupied level) slot =
      false := BitVec.getLsbD_zero
  rw [unset]
  exact ⟨fun impossible => absurd impossible Bool.false_ne_true, fun wrong => absurd rfl wrong⟩

namespace Marked

variable {wheel : TimerWheel T}

theorem of_same {other : TimerWheel T} (isMarked : Marked wheel)
    (sameBits : other.occupied = wheel.occupied) (sameBuckets : other.buckets = wheel.buckets) :
    Marked other := by
  unfold Marked
  rw [sameBits, sameBuckets]
  exact isMarked

section

variable (isMarked : Marked wheel)

include isMarked

theorem of_setBucket {other : TimerWheel T} {level slot : Nat} {ids : Finset TimerId}
    (bits : ∀ level' slot', marked (other.occupied level') slot' =
      if level' = level ∧ slot' = slot then decide (ids ≠ ∅)
      else marked (wheel.occupied level') slot')
    (buckets : other.buckets = wheel.setBucket level slot ids) : Marked other := by
  intro level' slot'
  rw [bits, buckets]
  unfold setBucket
  split_ifs
  · exact decide_eq_true_iff
  · exact isMarked level' slot'

theorem insertInto (level slot : Nat) (id : TimerId) : Marked (wheel.insertInto level slot id) := by
  refine isMarked.of_setBucket (fun level' slot' => ?_) rfl
  rw [decide_eq_true (Finset.insert_ne_empty _ _)]
  exact marked_markOccupied wheel level slot level' slot'

theorem removeFrom (level slot : Nat) (id : TimerId) : Marked (wheel.removeFrom level slot id) := by
  refine isMarked.of_setBucket (fun level' slot' => ?_) rfl
  unfold TimerWheel.removeFrom
  dsimp only
  by_cases emptied : (wheel.buckets level slot).erase id = ∅
  · rw [if_pos emptied, decide_eq_false (not_not_intro emptied)]
    exact marked_clearOccupied wheel level slot level' slot'
  · rw [if_neg emptied, decide_eq_true emptied]
    split_ifs with here
    · rw [here.1, here.2, isMarked]
      intro empty
      rw [empty, Finset.erase_empty] at emptied
      exact emptied rfl
    · rfl

theorem takeSlot (level slot : Nat) : Marked (wheel.takeSlot level slot).2 := by
  refine isMarked.of_setBucket (fun level' slot' => ?_) rfl
  exact marked_clearOccupied wheel level slot level' slot'

theorem place (id : TimerId) (deadlineTick : Nat) : Marked (wheel.place id deadlineTick) := by
  exact insertInto (isMarked.of_same rfl rfl) _ _ id

theorem replace (id : TimerId) : Marked (wheel.replace id) := by
  unfold TimerWheel.replace
  cases wheel.entries.lookup id with
  | none => exact isMarked
  | some entry => exact isMarked.place id entry.deadlineTick

theorem foldl_replace (ids : List TimerId) : Marked (ids.foldl TimerWheel.replace wheel) := by
  induction ids generalizing wheel with
  | nil => exact isMarked
  | cons id ids ih => exact ih (isMarked.replace id)

theorem cascadeLevel (level : Nat) : Marked (wheel.cascadeLevel level) := by
  unfold TimerWheel.cascadeLevel
  split_ifs
  · exact isMarked
  · exact (isMarked.takeSlot level _).foldl_replace _

end

variable {progress : List T × TimerWheel T}

theorem expire (isMarked : Marked progress.2) (id : TimerId) :
    Marked (TimerWheel.expire progress id).2 := by
  unfold TimerWheel.expire
  cases progress.2.entries.lookup id with
  | none => exact isMarked
  | some entry =>
    dsimp only
    split_ifs
    · exact isMarked
    · exact isMarked.place id entry.deadlineTick

theorem foldl_expire (isMarked : Marked progress.2) (ids : List TimerId) :
    Marked (ids.foldl TimerWheel.expire progress).2 := by
  induction ids generalizing progress with
  | nil => exact isMarked
  | cons id ids ih => exact ih (isMarked.expire id)

theorem tick (isMarked : Marked progress.2) : Marked (TimerWheel.tick progress).2 := by
  unfold TimerWheel.tick
  apply foldl_expire
  apply takeSlot
  unfold cascadeBoundaries
  rw [List.foldl_cons, List.foldl_cons, List.foldl_cons, List.foldl_nil]
  apply cascadeLevel
  apply cascadeLevel
  apply cascadeLevel
  exact isMarked.of_same rfl rfl

theorem ticks (isMarked : Marked progress.2) (rounds : Nat) :
    Marked (TimerWheel.tick^[rounds] progress).2 := by
  induction rounds generalizing progress with
  | zero => exact isMarked
  | succ rounds ih => exact ih isMarked.tick

theorem largeAdvance (wheel : TimerWheel T) (targetTick : Nat) :
    Marked (wheel.largeAdvance targetTick).2 := by
  have placeAll : ∀ (timers : List (TimerId × Nat)) (cleared : TimerWheel T), Marked cleared →
      Marked (timers.foldl (fun wheel entry => wheel.place entry.1 entry.2) cleared) := by
    intro timers
    induction timers with
    | nil => exact fun _ isMarked => isMarked
    | cons timer timers ih => exact fun cleared isMarked => ih _ (isMarked.place timer.1 timer.2)
  apply placeAll
  exact (new_marked 1 0 Nat.one_pos).of_same rfl rfl

theorem advanceTo (isMarked : Marked wheel) (nowMs : Nat) : Marked (wheel.advanceTo nowMs).2 := by
  unfold TimerWheel.advanceTo
  by_cases backwards : nowMs < wheel.nowMs
  · rw [if_pos backwards]
    exact isMarked
  · rw [if_neg backwards]
    generalize (if nowMs = u64Max then divCeil nowMs wheel.tickMs else nowMs / wheel.tickMs) =
      targetTick
    by_cases far : largeAdvanceTicks < targetTick - wheel.currentTick
    · rw [if_pos far]
      exact largeAdvance wheel targetTick
    · rw [if_neg far]
      have start : Marked (([], wheel) : List T × TimerWheel T).2 := isMarked
      exact start.ticks _

theorem schedule (isMarked : Marked wheel) (deadlineMs : Nat) (value : T) :
    Marked (wheel.schedule deadlineMs value).2 := by
  unfold TimerWheel.schedule
  dsimp only
  split_ifs
  · exact isMarked
  · exact insertInto (isMarked.of_same rfl rfl) _ _ _

theorem cancel (isMarked : Marked wheel) (id : TimerId) : Marked (wheel.cancel id).2 := by
  unfold TimerWheel.cancel
  cases wheel.entries.lookup id with
  | none => exact isMarked
  | some entry =>
    exact removeFrom (isMarked.of_same rfl rfl) _ _ id

end Marked

end TimerWheel

end Sail.Netstack
