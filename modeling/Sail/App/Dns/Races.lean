/-
What a race that is won comes to.

A race rule is judged by the responses it was bound to where it stands, but acts
with what the walk has then. Both are what they were at the rule unless the walk
passed a rule that sets options or gives that name anew.
-/

import Sail.App.Dns.ParallelReading

namespace Sail.App.Dns

variable {Message : Type}

namespace Client

def withRules (client : Client Message) (rules : List (Rule Message)) : Client Message :=
  { client with rules }

/-- The reading looks at the rules in front only. -/
theorem reading_congr (client : Client Message) {first second : List (Rule Message)} {n : Nat}
    (agree : ∀ index, index < n → first[index]? = second[index]?) :
    (client.withRules first).reading n = (client.withRules second).reading n := by
  induction n with
  | zero => rfl
  | succ n ih =>
    have before := ih (fun index less => agree index (Nat.lt_succ_of_lt less))
    have here : (client.withRules first).rules[n]? = (client.withRules second).rules[n]? :=
      agree n (Nat.lt_succ_self n)
    unfold reading
    rw [here, before]
    split
    · rfl
    · rfl

structure RaceWon (client : Client Message) (arrivals : List Nat) (index : Nat)
    (rule : Rule Message) (decision : Decision Message) : Prop where
  ended : client.decision arrivals = .ended decision
  acted : decision.rule = some (index, rule)
  races : rule.race = true

/-- A rule that matches does not change what a rule in front of it acts with: it sets
no options if that rule routes, and does not name its response anew if that rule
responds. -/
def Spares (rule later : Rule Message) : Prop :=
  match later.action with
  | .routeOptions _ => ∀ server own, rule.action ≠ .route server own
  | .evaluate _ tag _ => rule.action = .respond → rule.response ≠ some (evaluatedRef tag)
  | _ => True

def Undisturbed (client : Client Message) (rule : Rule Message) (index passed : Nat) : Prop :=
  ∀ between later, index < between → between < passed →
    client.rules[between]? = some later → later.race = false →
      client.matchesAt (client.reading between) later = true → Spares rule later

variable {client : Client Message} {rule : Rule Message} {index n : Nat}

/-- A race rule leaves the reading as it is. -/
theorem reading_race (found : client.rules[n]? = some rule) (races : rule.race = true) :
    client.reading (n + 1) = client.reading n := by
  rw [reading_succ found]
  unfold readRule
  rw [races]
  rfl

/-- What a rule acts with is kept while it is spared. -/
theorem reading_spared (found : client.rules[index]? = some rule) (races : rule.race = true)
    (spared : client.Undisturbed rule index n) (later : index ≤ n) :
    (∀ server own, rule.action = .route server own →
      (client.reading n).options = (client.reading index).options) ∧
    (∀ ref, rule.action = .respond → rule.response = some ref →
      bindRef (client.reading n).latest (client.reading n).tagged ref =
        bindRef (client.reading index).latest (client.reading index).tagged ref) := by
  induction n, later using Nat.le_induction with
  | base => exact ⟨fun _ _ _ => rfl, fun _ _ _ => rfl⟩
  | succ n later ih =>
    have before := ih (fun between other after less =>
      spared between other after (Nat.lt_succ_of_lt less))
    rcases Nat.lt_or_eq_of_le later with behind | rfl
    · rcases reading_cases client n with same | ⟨other, here, same⟩
      · rw [same]
        exact before
      · rw [same]
        have spares := spared n other behind (Nat.lt_succ_self n) here
        rcases readRule_cases client n other (client.reading n) with
          kept | ⟨single, matched, sets | asks⟩
        · rw [kept]
          exact before
        · obtain ⟨set, action, becomes⟩ := sets
          have spare := spares single matched
          unfold Spares at spare
          rw [action] at spare
          rw [becomes]
          exact ⟨fun server own routes => absurd routes (spare server own), before.2⟩
        · obtain ⟨server, tag, own, action, becomes⟩ := asks
          have spare := spares single matched
          unfold Spares at spare
          rw [action] at spare
          rw [becomes]
          refine ⟨fun server own routes => ?_, fun ref responds response => ?_⟩
          · rw [← before.1 server own routes]
            cases tag <;> rfl
          · rw [ask_named, if_neg (fun same => ?_), before.2 ref responds response]
            exact spare responds (by rw [response, same])
    · rw [reading_race found races]
      exact before

/-- What a race rule is to come to: it answers with the response it was judged by,
or asks with the options set in front of it. -/
def judgedOutcome (client : Client Message) (index : Nat) (rule : Rule Message) :
    Except WalkError (Walked Message) :=
  client.act
    { rule := some (index, rule)
      responded := (client.reading index).respondsWith rule
      options := (client.reading index).options
      passed := index }

/-- What a decision by a rule comes to: the response counts for a respond rule only,
the options for a route rule only. -/
theorem act_congr {first second : Decision Message} (acted : first.rule = some (index, rule))
    (same : second.rule = some (index, rule))
    (responded : rule.action = .respond → first.responded = second.responded)
    (options : ∀ server own, rule.action = .route server own → first.options = second.options) :
    client.act first = client.act second := by
  unfold act
  rw [acted, same]
  dsimp only
  cases action : rule.action with
  | respond =>
    rw [responded action]
  | route server own =>
    rw [options server own action]
  | _ => rfl

/-- A race that is won undisturbed comes to what it was judged by. -/
theorem RaceWon.outcome {arrivals : List Nat} {decision : Decision Message}
    (won : client.RaceWon arrivals index rule decision)
    (spared : client.Undisturbed rule index decision.passed) :
    client.act decision = client.judgedOutcome index rule := by
  have ends := client.ends_decision arrivals
  rw [won.ended] at ends
  have by_rule := ends.rule index rule won.acted
  obtain ⟨ev, tracks, ready, answers⟩ := by_rule.responded
  have kept := reading_spared by_rule.found won.races spared by_rule.before
  refine act_congr won.acted rfl (fun _ => ?_) (fun server own routes => ?_)
  · rw [answers]
    exact tracks.respondsWith by_rule.before ready kept.2
  · rw [ends.options]
    exact kept.1 server own routes

theorem judgedOutcome_congr (client : Client Message) {first second : List (Rule Message)}
    (agree : ∀ other, other < index → first[other]? = second[other]?) :
    (client.withRules first).judgedOutcome index rule =
      (client.withRules second).judgedOutcome index rule := by
  unfold judgedOutcome
  rw [client.reading_congr agree]
  rfl

end Client

/-- A race rule that is won in two walks, undisturbed in each, comes to the same in
both when the rule lists agree up to it: a respond rule answers with the response it
was judged by, a route rule asks with the options set in front of it. -/
theorem race_outcome_alone (client : Client Message) (first second : List (Rule Message))
    (index : Nat) (rule : Rule Message) (agree : first.take (index + 1) = second.take (index + 1))
    (firstArrivals secondArrivals : List Nat) (firstDecision secondDecision : Decision Message)
    (firstWon : (client.withRules first).RaceWon firstArrivals index rule firstDecision)
    (secondWon : (client.withRules second).RaceWon secondArrivals index rule secondDecision)
    (firstSpared : (client.withRules first).Undisturbed rule index firstDecision.passed)
    (secondSpared : (client.withRules second).Undisturbed rule index secondDecision.passed) :
    (client.withRules first).walk firstArrivals =
        .ended ((client.withRules first).judgedOutcome index rule) ∧
      (client.withRules second).walk secondArrivals =
        (client.withRules first).walk firstArrivals := by
  have same : ∀ other, other < index → first[other]? = second[other]? := by
    intro other less
    have inFront : other < index + 1 := Nat.lt_succ_of_lt less
    rw [← List.getElem?_take_of_lt inFront, agree, List.getElem?_take_of_lt inFront]
  have firstWalk : (client.withRules first).walk firstArrivals =
      .ended ((client.withRules first).judgedOutcome index rule) := by
    unfold Client.walk
    rw [firstWon.ended]
    dsimp only
    rw [firstWon.outcome firstSpared]
  refine ⟨firstWalk, ?_⟩
  rw [firstWalk, client.judgedOutcome_congr same]
  unfold Client.walk
  rw [secondWon.ended]
  dsimp only
  rw [secondWon.outcome secondSpared]

/-! ### Rules behind a race that change what it comes to -/

namespace RaceExample

def noOptions : QueryOptions :=
  { disableCache := false
    disableOptimisticCache := false
    rewriteTtl := none
    timeout := none
    clientSubnet := none
    forInstance := false }

def anyRule (action : RuleAction Nat) : Rule Nat :=
  { matcher := fun _ => true
    outbounds := []
    response := none
    invert := false
    ipMatchAll := false
    nestedResponses := false
    needs := []
    race := false
    speculative := true
    action
    response_needed := nofun
    race_decides := nofun }

def latestRace (action : RuleAction Nat) (decides : action.decides = true) : Rule Nat :=
  { matcher := fun _ => true
    outbounds := []
    response := some .latest
    invert := false
    ipMatchAll := false
    nestedResponses := false
    needs := [.latest]
    race := true
    speculative := false
    action
    response_needed := fun ref same => (by cases same; exact List.mem_singleton_self _)
    race_decides := fun _ => decides }

/-- Servers answer with the number of the rule that asks, and a hundred more when the
cache is not used. -/
def client : Client Nat :=
  { rules := []
    finalServer := "final"
    isFakeIp := fun _ => false
    resolve := fun asker _ options =>
      .ok (asker.getD 50 + if options.disableCache then 100 else 0)
    addresses := fun _ => []
    responseCode := fun _ => 0
    ctx :=
      { outbound := none
        options :=
          { disableCache := false
            disableOptimisticCache := false
            rewriteTtl := none
            clientSubnet := none } }
    fakeIp := true }

def asks (tag : Option String) : Rule Nat :=
  anyRule (.evaluate "server" tag noOptions)

def responds : Rule Nat :=
  latestRace .respond rfl

def routes : Rule Nat :=
  latestRace (.route "server" noOptions) rfl

def uncached : Rule Nat :=
  anyRule (.routeOptions { noOptions with disableCache := true })

/-- One rule behind a race rule is passed, and spares it. -/
theorem undisturbed_one {client : Client Nat} {rule later : Rule Nat}
    (found : client.rules[2]? = some later) (spares : Client.Spares rule later) :
    client.Undisturbed rule 1 3 := by
  intro between other after before here _ _
  obtain rfl : between = 2 := by omega
  rw [found] at here
  cases here
  exact spares

end RaceExample

open RaceExample in
theorem race_outcome_alone_spared :
    (client.withRules [asks none, responds, asks (some "tag")]).walk [2, 0] =
        .ended ((client.withRules [asks none, responds, asks (some "tag")]).judgedOutcome 1
          responds) ∧
      (client.withRules [asks none, responds, uncached]).walk [0] =
        (client.withRules [asks none, responds, asks (some "tag")]).walk [2, 0] :=
  race_outcome_alone client [asks none, responds, asks (some "tag")]
    [asks none, responds, uncached] 1 responds rfl [2, 0] [0] _ _ ⟨rfl, rfl, rfl⟩ ⟨rfl, rfl, rfl⟩
    (undisturbed_one rfl (fun _ same => by cases same))
    (undisturbed_one rfl (fun _ _ same => by cases same))

open RaceExample in
/-- A race rule that answers with a response it was not judged by, and one that asks
with options set behind it. -/
theorem later_rules_change_race :
    (∃ first second,
      (client.withRules [asks none, responds]).RaceWon [2, 0] 1 responds first ∧
      (client.withRules [asks none, responds, asks none]).RaceWon [2, 0] 1 responds second ∧
      (client.withRules [asks none, responds]).act first = .ok (.response 0) ∧
      (client.withRules [asks none, responds, asks none]).act second = .ok (.response 2)) ∧
    ∃ first second,
      (client.withRules [asks none, routes]).RaceWon [0] 1 routes first ∧
      (client.withRules [asks none, routes, uncached]).RaceWon [0] 1 routes second ∧
      (client.withRules [asks none, routes]).act first = .ok (.response 1) ∧
      (client.withRules [asks none, routes, uncached]).act second = .ok (.response 101) :=
  ⟨⟨_, _, ⟨rfl, rfl, rfl⟩, ⟨rfl, rfl, rfl⟩, rfl, rfl⟩,
    ⟨_, _, ⟨rfl, rfl, rfl⟩, ⟨rfl, rfl, rfl⟩, rfl, rfl⟩⟩

end Sail.App.Dns
