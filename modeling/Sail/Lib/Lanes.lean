/-
First-in-first-out lanes.

Items leave the front of their lane; a log of what left splits every lane into the part
it lists and the part that is left. Sums over the lanes are sums over both.
-/

import Mathlib.Logic.Function.Basic
import Sail.Lib.Tally

namespace Sail.Lanes

variable {Lane Item : Type*} [DecidableEq Lane]

def ofLane (lane : Lane) (log : List (Lane × Item)) : List Item :=
  (log.filter (fun entry => entry.1 = lane)).map Prod.snd

variable (lane : Lane)

@[simp] theorem ofLane_nil : ofLane lane ([] : List (Lane × Item)) = [] :=
  rfl

theorem ofLane_append (first second : List (Lane × Item)) :
    ofLane lane (first ++ second) = ofLane lane first ++ ofLane lane second := by
  rw [ofLane, List.filter_append, List.map_append, ofLane, ofLane]

theorem ofLane_cons (entry : Lane × Item) (log : List (Lane × Item)) :
    ofLane lane (entry :: log) =
      (if entry.1 = lane then [entry.2] else []) ++ ofLane lane log := by
  unfold ofLane
  rw [List.filter_cons]
  by_cases same : entry.1 = lane
  · simp [same]
  · simp [same]

theorem ofLane_singleton (entry : Lane × Item) :
    ofLane lane [entry] = if entry.1 = lane then [entry.2] else [] := by
  rw [ofLane_cons, ofLane_nil, List.append_nil]

variable {lane : Lane} {log : List (Lane × Item)} {lanes : List Lane}

theorem mem_ofLane {item : Item} : item ∈ ofLane lane log ↔ (lane, item) ∈ log := by
  simp [ofLane]

theorem ofLane_prefix {first second : List (Lane × Item)} (part : first <+: second) :
    ofLane lane first <+: ofLane lane second := by
  obtain ⟨rest, rfl⟩ := part
  rw [ofLane_append]
  exact List.prefix_append _ _

theorem ofLane_eq_nil (absent : lane ∉ log.map Prod.fst) : ofLane lane log = [] := by
  unfold ofLane
  rw [List.map_eq_nil_iff, List.filter_eq_nil_iff]
  intro entry member same
  exact absent (List.mem_map.mpr ⟨entry, member, of_decide_eq_true same⟩)

/-- A log that names each lane at most once lists one item of a lane it names. -/
theorem ofLane_of_mem (nodup : (log.map Prod.fst).Nodup) {entry : Lane × Item}
    (member : entry ∈ log) : ofLane entry.1 log = [entry.2] := by
  induction log with
  | nil => cases member
  | cons head rest ih =>
    rw [List.map_cons, List.nodup_cons] at nodup
    rw [ofLane_cons]
    rcases List.mem_cons.mp member with rfl | inRest
    · rw [if_pos rfl, ofLane_eq_nil nodup.1, List.append_nil]
    · have apart : head.1 ≠ entry.1 := by
        intro same
        exact nodup.1 (List.mem_map.mpr ⟨entry, inRest, same.symm⟩)
      rw [if_neg apart, ih nodup.2 inRest, List.nil_append]

def Splits (origin : Lane → List Item) (sent : List (Lane × Item))
    (left : Lane → List Item) : Prop :=
  ∀ lane, origin lane = ofLane lane sent ++ left lane

namespace Splits

variable {origin middle left : Lane → List Item} {sent more : List (Lane × Item)}

theorem refl (origin : Lane → List Item) : Splits origin [] origin :=
  fun _ => rfl

/-- One more item leaves the front of its lane. -/
theorem send {lane : Lane} {item : Item} {rest : List Item} (splits : Splits origin sent left)
    (front : left lane = item :: rest) :
    Splits origin (sent ++ [(lane, item)]) (Function.update left lane rest) := by
  intro other
  rw [splits other, ofLane_append, ofLane_singleton, List.append_assoc]
  by_cases same : other = lane
  · subst same
    rw [front, Function.update_self, if_pos rfl]
    rfl
  · rw [Function.update_of_ne same, if_neg (fun equal => same equal.symm)]
    rfl

theorem trans (first : Splits origin sent middle) (second : Splits middle more left) :
    Splits origin (sent ++ more) left := by
  intro lane
  rw [first lane, second lane, ofLane_append, List.append_assoc]

/-- One more item joins the end of its lane. -/
theorem join {lane : Lane} {item : Item} {joined : Lane → List Item} {accepted : List (Lane × Item)}
    (splits : Splits (ofLane · accepted) sent left)
    (added : ∀ other, joined other = left other ++ if lane = other then [item] else []) :
    Splits (ofLane · (accepted ++ [(lane, item)])) sent joined := by
  intro other
  change ofLane other (accepted ++ [(lane, item)]) = _
  rw [ofLane_append, ofLane_singleton, added, ← List.append_assoc, ← splits other]

end Splits

/-! ### Sums -/

theorem tally_indicator (nodup : lanes.Nodup) (member : lane ∈ lanes) (amount : Nat) :
    tally (fun other => if lane = other then amount else 0) lanes = amount := by
  induction lanes with
  | nil => cases member
  | cons head rest ih =>
    rw [tally_cons]
    have apart := (List.nodup_cons.mp nodup).1
    by_cases same : lane = head
    · have others : tally (fun other => if lane = other then amount else 0) rest = 0 := by
        refine tally_eq_zero ?_
        intro other inRest
        rw [if_neg]
        rintro rfl
        exact apart (same ▸ inRest)
      rw [if_pos same, others, Nat.add_zero]
    · rw [if_neg same, Nat.zero_add]
      exact ih (List.nodup_cons.mp nodup).2 ((List.mem_cons.mp member).resolve_left same)

/-- Summing a log lane by lane. -/
theorem tally_ofLane (weight : Item → Nat) (nodup : lanes.Nodup)
    (covered : ∀ entry ∈ log, entry.1 ∈ lanes) :
    tally (fun lane => tally weight (ofLane lane log)) lanes =
      tally (fun entry => weight entry.2) log := by
  induction log with
  | nil => exact tally_eq_zero (fun _ _ => rfl)
  | cons entry log ih =>
    have head : ∀ lane, tally weight (ofLane lane (entry :: log)) =
        (if entry.1 = lane then weight entry.2 else 0) + tally weight (ofLane lane log) := by
      intro lane
      rw [ofLane_cons, tally_append]
      split_ifs <;> simp
    simp only [head]
    rw [tally_add, tally_indicator nodup (covered entry List.mem_cons_self), tally_cons,
      ih (List.forall_mem_cons.mp covered).2]

/-- What was in the lanes left or is still there. -/
theorem Splits.tally_eq {origin left : Lane → List Item} {sent : List (Lane × Item)}
    (splits : Splits origin sent left) (weight : Item → Nat) (nodup : lanes.Nodup)
    (covers : ∀ lane, origin lane ≠ [] → lane ∈ lanes) :
    tally (fun lane => tally weight (origin lane)) lanes =
      tally (fun entry => weight entry.2) sent +
        tally (fun lane => tally weight (left lane)) lanes := by
  have covered : ∀ entry ∈ sent, entry.1 ∈ lanes := by
    intro entry member
    refine covers entry.1 ?_
    rw [splits entry.1]
    have listed : entry.2 ∈ ofLane entry.1 sent :=
      List.mem_map.mpr ⟨entry, List.mem_filter.mpr ⟨member, by simp⟩, rfl⟩
    exact List.append_ne_nil_of_left_ne_nil (List.ne_nil_of_mem listed) _
  rw [← tally_ofLane weight nodup covered]
  have each : ∀ lane, tally weight (origin lane) =
      tally weight (ofLane lane sent) + tally weight (left lane) := by
    intro lane
    rw [splits lane, tally_append]
  simp only [each]
  exact tally_add _ _ lanes

end Sail.Lanes
