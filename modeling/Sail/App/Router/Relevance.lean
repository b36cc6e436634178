/-
What a rule does not need cannot change whether it matches.

Two records of what was learnt agree on some needs when they are the same wherever the
needs look. Each item, each rule and each rule-set answers alike on such records.
-/

import Sail.App.Router.Matcher

namespace Sail.App.Router

/-- Nothing in the tree is `no_resolve`. -/
inductive Condition.Resolves : Condition → Prop
  | default {own : Conditions} {ruleSets : List (List Condition)} (resolve : own.noResolve = false)
      (sets : ∀ rules ∈ ruleSets, ∀ rule ∈ rules, rule.Resolves) :
      Resolves (.default own ruleSets)
  | logical {all invert : Bool} {rules : List Condition} {response : Option Dns.ResponseRef}
      (each : ∀ rule ∈ rules, rule.Resolves) :
      Resolves (.logical all rules invert false response)

structure Learnt.Agree (needs : Needs) (left right : Learnt) : Prop where
  ips : needs.ip = true → left.ips = right.ips
  domain : needs.domain = true → left.domain = right.domain
  sniffed : needs.sniff = true → left.protocol = right.protocol ∧ left.http = right.http
  network : needs.network = true → left.networkState = right.networkState
  owner : needs.owner = true → left.owner = right.owner
  -- The program is looked up as a part of the owner.
  process : needs.owner = true → needs.process = true → left.processPath = right.processPath

namespace Learnt.Agree

variable {needs other : Needs} {left right : Learnt}

theorem refl : Agree needs left left :=
  ⟨fun _ => rfl, fun _ => rfl, fun _ => ⟨rfl, rfl⟩, fun _ => rfl, fun _ => rfl, fun _ _ => rfl⟩

theorem left_of_or (agree : Agree (needs.or other) left right) : Agree needs left right where
  ips needed := agree.ips (by simp [Needs.or, needed])
  domain needed := agree.domain (by simp [Needs.or, needed])
  sniffed needed := agree.sniffed (by simp [Needs.or, needed])
  network needed := agree.network (by simp [Needs.or, needed])
  owner needed := agree.owner (by simp [Needs.or, needed])
  process needed also := agree.process (by simp [Needs.or, needed]) (by simp [Needs.or, also])

theorem right_of_or (agree : Agree (needs.or other) left right) : Agree other left right := by
  have swapped : needs.or other = other.or needs := by simp [Needs.or, Bool.or_comm]
  rw [swapped] at agree
  exact agree.left_of_or

theorem of_resolving (agree : Agree (needs.resolving false) left right) :
    Agree needs left right := by
  simpa [Needs.resolving] using agree

end Learnt.Agree

def Facts.seeing (facts : Facts) (learnt : Learnt) : Facts :=
  { facts with toLearnt := learnt }

/-! ### Items -/

section Items

variable {facts : Facts} {ipMatchSource : Bool} {left right : Learnt}

theorem itemsNeed_cons (item : Item) (items : List Item) :
    itemsNeed (item :: items) ipMatchSource =
      (itemsNeed [item] ipMatchSource).or (itemsNeed items ipMatchSource) := by
  cases ipMatchSource <;> simp [itemsNeed, Needs.or]

theorem NetworkConditions.matches_congr {wanted : NetworkConditions}
    {known other : Option NetworkState} (same : wanted.needs = true → known = other) :
    wanted.matches known = wanted.matches other := by
  cases empty : wanted.isEmpty with
  | true => simp [NetworkConditions.matches, empty]
  | false => rw [same (by simp [needs, empty])]

theorem Item.judge_congr {item : Item} (groups : Groups)
    (agree : left.Agree (itemsNeed [item] ipMatchSource) right) :
    item.judge (facts.seeing left) ipMatchSource groups =
      item.judge (facts.seeing right) ipMatchSource groups := by
  cases item with
  | ipCidr index | ipAcceptAny =>
    cases ipMatchSource with
    | true => rfl
    | false => simp [judge, Facts.seeing, agree.ips rfl]
  | mmdbs _ | asns _ | ipIsPrivate =>
    have same : left.ips = right.ips := agree.ips (by cases ipMatchSource <;> rfl)
    simp [judge, Facts.seeing, same]
  | domains _ | succinct _ | domainRegex _ => simp [judge, Facts.seeing, agree.domain rfl]
  | protocols _ => simp [judge, Facts.seeing, (agree.sniffed rfl).1]
  | httpUserAgent _ | urlRegex _ =>
    simp [judge, Facts.seeing, Facts.url, Facts.userAgent, (agree.sniffed rfl).2]
  | processNames _ | processPaths _ | processPathRegex _ | processNameRegex _ =>
    simp [judge, Facts.seeing, Facts.processName, agree.process rfl rfl]
  | packageNames _ | packageNameRegex _ | processUsers _ | processUserIds _ =>
    simp [judge, Facts.seeing, agree.owner rfl]
  | network wanted =>
    have same := NetworkConditions.matches_congr fun needed =>
      agree.network (by simpa [itemsNeed, onNetwork] using needed)
    simp [judge, Facts.seeing, same]
  | _ => rfl

theorem evaluate_congr {items : List Item}
    (agree : left.Agree (itemsNeed items ipMatchSource) right) :
    evaluate items (facts.seeing left) ipMatchSource =
      evaluate items (facts.seeing right) ipMatchSource := by
  unfold evaluate
  generalize ({} : Groups) = groups
  induction items generalizing groups with
  | nil => rfl
  | cons item items ih =>
    rw [itemsNeed_cons] at agree
    rw [List.foldlM_cons, List.foldlM_cons, Item.judge_congr groups agree.left_of_or]
    congr 1
    exact funext (ih agree.right_of_or)

end Items

/-! ### The tree -/

/-- Naming a response replaces the addresses on both sides alike. -/
theorem Facts.switched_congr (facts : Facts) (response : Option Dns.ResponseRef) {needs : Needs}
    {left right : Learnt} (agree : left.Agree needs right) :
    ((facts.seeing left).switched response = none ∧
        (facts.seeing right).switched response = none) ∨
      ∃ (named : Facts) (left' right' : Learnt), left'.Agree needs right' ∧
        (facts.seeing left).switched response = some (named.seeing left') ∧
        (facts.seeing right).switched response = some (named.seeing right') := by
  cases response with
  | none => exact .inr ⟨facts, left, right, agree, rfl, rfl⟩
  | some name =>
    cases found : facts.responses.bind (· name) with
    | none =>
      left
      simpa [switched, ofResponse, seeing, Option.bind_eq_none_iff] using found
    | some answer =>
      obtain ⟨responses, given, named⟩ := Option.bind_eq_some_iff.mp found
      refine .inr ⟨{ facts with rcode := some answer.rcode, response := some answer.message },
        { left with ips := answer.ips }, { right with ips := answer.ips },
        { agree with ips := fun _ => rfl }, ?_, ?_⟩
      · simp [switched, ofResponse, seeing, given, named]
      · simp [switched, ofResponse, seeing, given, named]

/-- The items of a rule-set of one plain rule need what the rule does. -/
theorem agree_of_mergeable {rules : List Condition} {items : List Item} {ipMatchSource : Bool}
    {left right : Learnt} (merges : mergeable rules = some items)
    (resolve : ∀ rule ∈ rules, rule.Resolves)
    (agree : left.Agree (rulesNeed rules ipMatchSource) right) :
    left.Agree (itemsNeed items ipMatchSource) right := by
  unfold mergeable at merges
  split at merges
  case h_2 => cases merges
  case h_1 own =>
    cases resolve _ List.mem_cons_self with
    | default resolved sets =>
      split_ifs at merges
      cases merges
      rw [rulesNeed, Condition.needs, resolved] at agree
      exact agree.left_of_or.of_resolving.left_of_or

mutual

theorem Condition.matches_congr : (condition : Condition) → condition.Resolves →
    ∀ (facts : Facts) {left right : Learnt} (ipMatchSource : Bool),
      left.Agree (condition.needs ipMatchSource) right →
      condition.matches (facts.seeing left) ipMatchSource =
        condition.matches (facts.seeing right) ipMatchSource
  | .default own ruleSets, .default resolve sets, facts, left, right, ipMatchSource, agree => by
    rw [Condition.needs, resolve] at agree
    obtain ⟨alone, other⟩ | ⟨named, left', right', agree', alone, other⟩ :=
      facts.switched_congr own.response agree.of_resolving
    · simp only [Condition.matches, alone, other]
    · simp only [Condition.matches, alone, other, evaluate_congr agree'.left_of_or,
        fun groups => anyMatchesWith_congr ruleSets sets groups named own.ipMatchSource
          agree'.right_of_or]
  | .logical all rules invert _ response, .logical each, facts, left, right, ipMatchSource,
      agree => by
    rw [Condition.needs] at agree
    obtain ⟨alone, other⟩ | ⟨named, left', right', agree', alone, other⟩ :=
      facts.switched_congr response agree.of_resolving
    · simp only [Condition.matches, alone, other]
    · have same := rules_congr rules each named ipMatchSource agree'
      simp only [Condition.matches, alone, other, same.1, same.2]

theorem rules_congr : (rules : List Condition) → (∀ rule ∈ rules, rule.Resolves) →
    ∀ (facts : Facts) {left right : Learnt} (ipMatchSource : Bool),
      left.Agree (rulesNeed rules ipMatchSource) right →
      allMatch rules (facts.seeing left) ipMatchSource =
          allMatch rules (facts.seeing right) ipMatchSource ∧
        anyMatches rules (facts.seeing left) ipMatchSource =
          anyMatches rules (facts.seeing right) ipMatchSource
  | [], _, _, _, _, _, _ => ⟨rfl, rfl⟩
  | rule :: rules, each, facts, left, right, ipMatchSource, agree => by
    rw [rulesNeed] at agree
    have first := rule.matches_congr (each rule List.mem_cons_self) facts ipMatchSource
      agree.left_of_or
    have rest := rules_congr rules (List.forall_mem_cons.mp each).2
      facts ipMatchSource agree.right_of_or
    simp only [allMatch, anyMatches, first, rest.1, rest.2, and_self]

theorem anyMatchesWith_congr : (sets : List (List Condition)) →
    (∀ rules ∈ sets, ∀ rule ∈ rules, rule.Resolves) →
    ∀ (outer : Groups) (facts : Facts) {left right : Learnt} (ipMatchSource : Bool),
      left.Agree (setsNeed sets ipMatchSource) right →
      anyMatchesWith sets outer (facts.seeing left) ipMatchSource =
        anyMatchesWith sets outer (facts.seeing right) ipMatchSource
  | [], _, _, _, _, _, _, _ => rfl
  | rules :: sets, each, outer, facts, left, right, ipMatchSource, agree => by
    rw [setsNeed] at agree
    have ofRules := each rules List.mem_cons_self
    have rest := anyMatchesWith_congr sets
      (List.forall_mem_cons.mp each).2 outer facts ipMatchSource
      agree.right_of_or
    cases merges : mergeable rules with
    | none =>
      simp only [anyMatchesWith, merges, rest,
        (rules_congr rules ofRules facts ipMatchSource agree.left_of_or).2]
    | some items =>
      simp only [anyMatchesWith, merges, rest,
        evaluate_congr (agree_of_mergeable merges ofRules agree.left_of_or)]

end

/-- Facts that differ only in what a rule does not need match it alike. -/
theorem matches_of_unneeded (condition : Condition) (resolves : condition.Resolves)
    (ipMatchSource : Bool) (facts : Facts) :
    let needs := condition.needs ipMatchSource
    let answer (facts : Facts) := condition.matches facts ipMatchSource
    (needs.ip = false → ∀ ips, answer { facts with ips } = answer facts) ∧
      (needs.domain = false → ∀ domain, answer { facts with domain } = answer facts) ∧
      (needs.sniff = false →
        ∀ protocol http, answer { facts with protocol, http } = answer facts) ∧
      (needs.network = false →
        ∀ networkState, answer { facts with networkState } = answer facts) ∧
      (needs.owner = false →
        ∀ owner processPath, answer { facts with owner, processPath } = answer facts) ∧
      (needs.process = false →
        ∀ processPath, answer { facts with processPath } = answer facts) := by
  have alike {learnt : Learnt} :
      learnt.Agree (condition.needs ipMatchSource) facts.toLearnt →
        condition.matches { facts with toLearnt := learnt } ipMatchSource =
          condition.matches facts ipMatchSource :=
    condition.matches_congr resolves facts ipMatchSource
  refine ⟨?_, ?_, ?_, ?_, ?_, ?_⟩
  · intro unneeded ips
    exact alike { Learnt.Agree.refl with ips := by simp [unneeded] }
  · intro unneeded domain
    exact alike { Learnt.Agree.refl with domain := by simp [unneeded] }
  · intro unneeded protocol http
    exact alike { Learnt.Agree.refl with sniffed := by simp [unneeded] }
  · intro unneeded networkState
    exact alike { Learnt.Agree.refl with network := by simp [unneeded] }
  · intro unneeded owner processPath
    exact alike { Learnt.Agree.refl with
      owner := by simp [unneeded]
      process := by simp [unneeded] }
  · intro unneeded processPath
    exact alike { Learnt.Agree.refl with process := by simp [unneeded] }

/-- Not to the web, or not to one of a rule-set's names. -/
def offWeb : Condition :=
  .logical true
    [.default ⟨[.ports [(80, 80), (443, 443)]], none, true, false, false⟩
      [[.default ⟨[.domains (· == "example.org")], none, false, false, false⟩ []]]]
    true false none

def webFacts : Facts :=
  { domain := some "example.org", ips := [], protocol := some .tls, http := none
    processPath := none, owner := none, networkState := none, port := 443, ipVersion := none
    network := .tcp, inbound := "tun", user := none, source := ⟨.v4 1, 50000⟩
    queryType := none, preferredBy := none, neighbor := none, rcode := none, response := none
    responses := none }

theorem matches_of_unneeded_offWeb : (offWeb.needs true).ip = false ∧
    offWeb.matches { webFacts with ips := [.v4 8] } true = offWeb.matches webFacts true := by
  have resolves : offWeb.Resolves := by
    refine .logical ?_
    simp only [List.mem_singleton, forall_eq]
    refine .default rfl ?_
    simp only [List.mem_singleton, forall_eq]
    exact .default rfl (by simp)
  exact ⟨rfl, (matches_of_unneeded offWeb resolves true webFacts).1 rfl _⟩

end Sail.App.Router
