/-
The walk as a parallel reading of the rule list.

Without race rules the walk comes to what the sequential reading comes to, in
whatever order the responses come. With race rules it acts on a rule that matches
where it stands, behind no rule that decides.
-/

import Sail.App.Dns.Walk

namespace Sail.App.Dns

variable {Message : Type}

/-! ### The response a respond rule answers with -/

theorem responseOf_single (answers : Nat → Option Message) (latest : Option Nat)
    (tagged : KeyedMap String Nat) (ref : ResponseRef) :
    responseOf answers (bindRefs latest tagged [ref]) ref =
      (bindRef latest tagged ref).bind answers := by
  have first : (bindRefs latest tagged [ref]).find? (fun entry => entry.1 = ref) =
      some (ref, bindRef latest tagged ref) :=
    List.find?_cons_of_pos (decide_eq_true rfl)
  unfold responseOf
  rw [first]
  cases bindRef latest tagged ref <;> rfl

namespace Client

variable {client : Client Message} {n : Nat} {ev : Evaluations Message} {rule : Rule Message}

/-- While its name stays bound as where the rule stands, the response is the one
the rule was judged by. -/
theorem Tracks.respondsWith (tracks : client.Tracks n ev) {index : Nat} (before : index ≤ n)
    (ready : ev.ready ((client.reading index).bind rule.needs) = true)
    (kept : ∀ ref, rule.action = .respond → rule.response = some ref →
      bindRef (client.reading n).latest (client.reading n).tagged ref =
        bindRef (client.reading index).latest (client.reading index).tagged ref) :
    Dns.respondsWith rule ev = (client.reading index).respondsWith rule := by
  unfold Dns.respondsWith Reading.respondsWith Evaluations.bind Reading.bind
  cases action : rule.action with
  | respond =>
    cases response : rule.response with
    | none => rfl
    | some ref =>
      have same := kept ref action response
      dsimp only
      rw [responseOf_single, responseOf_single, tracks.latest, tracks.tagged, same]
      cases named : bindRef (client.reading index).latest (client.reading index).tagged ref with
      | none => rfl
      | some asked =>
        have needed : (ref, some asked) ∈ (client.reading index).bind rule.needs :=
          List.mem_map.mpr ⟨ref, rule.response_needed ref response, by rw [named]⟩
        exact tracks.answers_eq before (ready_iff.mp ready ref asked needed)
          (named_asked named)
  | _ => rfl

/-! ### The sequential reading -/

section

variable (single : ∀ rule ∈ client.rules, rule.race = false)

include single

/-- The sequential reading comes to a rule in front of which nothing decided. -/
theorem readAll_reaches (undecided : client.Undecided n) (within : n ≤ client.rules.length) :
    client.readAll = client.readFrom n (client.rules.drop n) (client.reading n) := by
  induction n with
  | zero => rfl
  | succ n ih =>
    have found : client.rules[n]? = some client.rules[n] := List.getElem?_eq_getElem within
    have passes : (client.matchesAt (client.reading n) client.rules[n] &&
        client.rules[n].action.decides) = false := by
      cases decides : client.rules[n].action.decides with
      | false => rw [Bool.and_false]
      | true =>
        have not := undecided n _ (Nat.lt_succ_self n) found
          (single _ (List.getElem_mem within)) decides
        rw [not, Bool.false_and]
    rw [ih (undecided.mono (Nat.le_succ n)) (Nat.le_of_succ_le within),
      List.drop_eq_getElem_cons within, readFrom, if_neg (Bool.eq_false_iff.mp passes),
      reading_succ found]

theorem readAll_rule (undecided : client.Undecided n) (found : client.rules[n]? = some rule)
    (matched : client.matchesAt (client.reading n) rule = true)
    (decides : rule.action.decides = true) :
    client.readAll =
      { rule := some (n, rule)
        responded := (client.reading n).respondsWith rule
        options := (client.reading n).options
        passed := n } := by
  obtain ⟨within, same⟩ := List.getElem?_eq_some_iff.mp found
  rw [readAll_reaches single undecided (Nat.le_of_lt within), List.drop_eq_getElem_cons within,
    same, readFrom, if_pos (by rw [matched, decides]; rfl)]

theorem readAll_final (undecided : client.Undecided client.rules.length) : client.readAll =
      { rule := none
        responded := none
        options := (client.reading client.rules.length).options
        passed := client.rules.length } := by
  rw [readAll_reaches single undecided (Nat.le_refl _), List.drop_length]
  rfl

end

/-- A walk without race rules decides as the sequential reading. -/
theorem Decides.readAll {decision : Decision Message} (decides : client.Decides decision)
    (single : ∀ rule ∈ client.rules, rule.race = false) : decision = client.readAll := by
  obtain ⟨acted, responded, options, passed⟩ := decision
  have sets := decides.options
  cases acted with
  | none =>
    obtain ⟨none, last, undecided, _⟩ := decides.final rfl
    dsimp only at none last sets
    rw [readAll_final single undecided, sets, none, last]
  | some acted =>
    obtain ⟨index, rule⟩ := acted
    have decidesBy := decides.rule index rule rfl
    obtain ⟨ev, tracks, ready, answers⟩ := decidesBy.responded
    have here := (decidesBy.single (single rule (List.mem_of_getElem? decidesBy.found))).2
    dsimp only at sets here answers tracks
    rw [here] at tracks sets
    rw [readAll_rule single decidesBy.undecided decidesBy.found decidesBy.matched
      decidesBy.decides, sets, here, answers,
      tracks.respondsWith (Nat.le_refl _) ready (fun _ _ _ => rfl)]

/-! ### What a walk comes to -/

theorem walk_ended {arrivals : List Nat} {outcome : Except WalkError (Walked Message)}
    (ended : client.walk arrivals = .ended outcome) :
    ∃ decision, client.decision arrivals = .ended decision ∧ outcome = client.act decision := by
  unfold walk at ended
  split at ended
  · cases ended
  · rename_i decision decided
    cases ended
    exact ⟨decision, decided, rfl⟩

theorem walk_waiting {arrivals pending : List Nat}
    (waits : client.walk arrivals = .waiting pending) :
    client.decision arrivals = .waiting pending := by
  unfold walk at waits
  split at waits
  · rename_i decided
    cases waits
    exact decided
  · cases waits

end Client

/-- The walk reads the rule list in order: without race rules it comes to what the
sequential reading comes to; it acts on a race rule that matches its responses behind
no rule that decides, and on any other rule or the final server when the races in
front are lost; and it waits only for evaluated responses that have not come. -/
theorem walk_reads_rules (client : Client Message) (arrivals : List Nat) :
    (∀ outcome, client.walk arrivals = .ended outcome →
      (∀ rule ∈ client.rules, rule.race = false) → outcome = client.act client.readAll) ∧
    (∀ outcome, client.walk arrivals = .ended outcome →
      ∃ decision, client.decision arrivals = .ended decision ∧ outcome = client.act decision ∧
        (decision.rule = none →
          client.Undecided client.rules.length ∧ client.RacesLost client.rules.length) ∧
        ∀ index rule, decision.rule = some (index, rule) →
          client.rules[index]? = some rule ∧ rule.action.decides = true ∧
            client.matchesAt (client.reading index) rule = true ∧ client.Undecided index ∧
            (rule.race = false → client.RacesLost index)) ∧
    (∀ pending, client.walk arrivals = .waiting pending →
      pending ≠ [] ∧ ∀ index ∈ pending, client.Evaluated index ∧ index ∉ arrivals) := by
  have ends := client.ends_decision arrivals
  have decides : ∀ outcome, client.walk arrivals = .ended outcome →
      ∃ decision, client.decision arrivals = .ended decision ∧ outcome = client.act decision ∧
        client.Decides decision := by
    intro outcome ended
    obtain ⟨decision, decided, same⟩ := Client.walk_ended ended
    rw [decided] at ends
    exact ⟨decision, decided, same, ends⟩
  refine ⟨?_, ?_, ?_⟩
  · intro outcome ended single
    obtain ⟨decision, _, same, by_reading⟩ := decides outcome ended
    rw [same, by_reading.readAll single]
  · intro outcome ended
    obtain ⟨decision, decided, same, by_reading⟩ := decides outcome ended
    refine ⟨decision, decided, same, fun none => (by_reading.final none).2.2, ?_⟩
    intro index rule acted
    have decidesBy := by_reading.rule index rule acted
    exact ⟨decidesBy.found, decidesBy.decides, decidesBy.matched, decidesBy.undecided,
      fun single => (decidesBy.single single).1⟩
  · intro pending waits
    rw [Client.walk_waiting waits] at ends
    exact ends

end Sail.App.Dns
