/-
What a recheck of a routed connection leaves behind, after `app/router/mod.rs`.

A recheck walks a copy of the session; it reads and resolves nothing and counts no
rejection. But every rule it matches counts a hit, as in routing.
-/

import Mathlib.Data.List.Forall2
import Sail.App.Router.Walk

namespace Sail.App.Router

open Netstack

structure Router where
  rules : List Rule
  finalOutbound : Option String

inductive Decision where
  | route (tag : Option String)
  | reject (drop : Bool)
  | hijackDns
  | direct

def Destination.ipVersion (destination : Destination) : Option Nat :=
  destination.address.map fun ip =>
    match toCanonical ip with
    | .v4 _ => 4
    | .v6 _ => 6

/-- The copy a recheck walks: to where was asked for, knowing what reverse mapping found. -/
def Session.rechecked (routed : Session) : Session :=
  { routed with
    destination := routed.originalDestination.getD routed.destination
    originalDestination := none, matchedRule := none
    resolved := [], resolvedForEveryOutbound := false
    sniffed :=
      { domain := routed.sniffed.domain.filter fun sniffed => sniffed.1 matches .dns
        protocol := none, http := none } }

namespace Router

def decide (router : Router) (env : Surroundings) : Stop → Decision
  | .route tag => .route (some tag)
  | .reject drop => .reject drop
  | .hijackDns => .hijackDns
  | .final =>
    if router.finalOutbound.any env.passes then .direct else .route router.finalOutbound
  | .bypass | .needsData => .route router.finalOutbound

/-- The decision and the rule that took it, and the router behind the recheck. -/
def recheck (router : Router) (env : Surroundings) (routed : Session) :
    (Decision × Option Nat) × Router :=
  let sess := routed.rechecked
  let walked := (Walk.recheck routed).run env sess.destination.ipVersion router.rules { sess }
  let (stop, sess) := walked.2.toOption.getD (.final, sess)
  ((router.decide env stop, sess.matchedRule), { router with rules := walked.1 })

end Router

/-- A rule behind a recheck: as before, or with one hit more. -/
def Rule.Counted (env : Surroundings) (before after : Rule) : Prop :=
  after = before ∨ after = { before with state := before.state.hit env.now }

namespace Walk

variable (env : Surroundings) (ipVersion : Option Nat)

theorem act_recheck (routed : Session) (rule : Rule) (state : WalkState) :
    ((recheck routed).act env rule state).1 = rule.action := by
  unfold act
  cases rule.action <;> rfl

theorem step_counted (routed : Session) (rule : Rule) (state : WalkState) :
    rule.Counted env ((recheck routed).step env ipVersion rule state).1 := by
  unfold step
  dsimp only
  split
  · exact .inl rfl
  · rw [act_recheck]
    split
    · exact .inl rfl
    · exact .inr rfl

theorem run_counted (routed : Session) (rules : List Rule) (state : WalkState) :
    List.Forall₂ (Rule.Counted env) rules
      ((recheck routed).run env ipVersion rules state).1 := by
  induction rules generalizing state with
  | nil => exact .nil
  | cons rule rules ih =>
    have first := step_counted env ipVersion routed rule state
    have unreached : List.Forall₂ (Rule.Counted env) rules rules :=
      List.forall₂_same.mpr fun _ _ => .inl rfl
    rw [run]
    split <;> rename_i stepped <;> rw [stepped] at first
    · exact .cons first unreached
    · exact .cons first unreached
    · exact .cons first (ih _)

theorem run_cons_outcome (walk : Walk) (rule : Rule) (rules : List Rule)
    (state : WalkState) :
    (walk.run env ipVersion (rule :: rules) state).2 =
      match (walk.step env ipVersion rule state).2 with
      | .error message => .error message
      | .ok (.stop stop sess) => .ok (stop, sess)
      | .ok (.on state) => (walk.run env ipVersion rules state).2 := by
  rw [run]
  split <;> rename_i stepped <;> rw [stepped]

/-- No walk reads the counts. -/
theorem run_of_counted (walk : Walk) {now : Surroundings} {rules counted : List Rule}
    (hits : List.Forall₂ (Rule.Counted now) rules counted) (state : WalkState) :
    (walk.run env ipVersion counted state).2 = (walk.run env ipVersion rules state).2 := by
  induction hits generalizing state with
  | nil => rfl
  | @cons before after _ _ first _ ih =>
    have same : (walk.step env ipVersion after state).2 =
        (walk.step env ipVersion before state).2 := by
      obtain rfl | rfl := first
      · rfl
      · unfold step
        dsimp only
        split
        · rfl
        · rw [apply_ite Prod.snd, apply_ite Prod.snd]
          rfl
    rw [run_cons_outcome, run_cons_outcome, same]
    split
    · rfl
    · rfl
    · exact ih _

theorem run_unmatched (walk : Walk) {rules : List Rule} {sess : Session}
    (unmatched : ∀ rule ∈ rules, rule.state.disabled ∨
      ¬ rule.condition.matches (facts env ipVersion { sess }) false) :
    walk.run env ipVersion rules { sess } = (rules, .ok (.final, sess)) := by
  induction rules with
  | nil => rfl
  | cons rule rules ih =>
    have skipped : walk.step env ipVersion rule { sess } = (rule, .ok (.on { sess })) := by
      have off := unmatched rule List.mem_cons_self
      exact if_pos (by simpa using off)
    rw [run, skipped]
    simp only [ih fun rule member => unmatched rule (List.mem_cons_of_mem _ member)]

end Walk

theorem run_recheck_outcome (router : Router) (env later : Surroundings) (routed : Session)
    (walk : Walk) (ipVersion : Option Nat) (state : WalkState) :
    (walk.run later ipVersion (router.recheck env routed).2.rules state).2 =
      (walk.run later ipVersion router.rules state).2 :=
  Walk.run_of_counted later ipVersion walk (Walk.run_counted env _ routed router.rules _) state

/-- Whatever rechecks have counted, every later walk decides as it would have. -/
theorem outcome_after_rechecks (router : Router) (rechecks : List (Surroundings × Session))
    (walk : Walk) (later : Surroundings) (ipVersion : Option Nat) (state : WalkState) :
    (walk.run later ipVersion (rechecks.foldl
        (fun router asked => (router.recheck asked.1 asked.2).2) router).rules state).2 =
      (walk.run later ipVersion router.rules state).2 := by
  induction rechecks generalizing router with
  | nil => rfl
  | cons first rest ih => rw [List.foldl_cons, ih, run_recheck_outcome]

/-- A router of one rule, to a port. -/
def routerTo (port : Nat) : Router :=
  { rules := [{ condition := .default ⟨[.ports [(port, port)]], none, false, false, false⟩ []
                action := .route "proxy" ⟨none, none⟩, index := 0, lines := []
                state := ⟨false, 0, 0⟩ }]
    finalOutbound := none }

def routedToWeb : Session :=
  { destination := .domain "example.org" 443, sniffed := ⟨none, none, none⟩
    skipResolve := false, network := .tcp, inbound := "tun", user := none
    source := ⟨.v4 1, 50000⟩, neighbor := none, owner := none, processPath := none
    originalDestination := none, matchedRule := some 0, resolved := []
    resolvedForEveryOutbound := false }

def noSurroundings : Surroundings :=
  { network := none, sniffer := fun _ => .ok, lookup := fun _ _ _ => .ok []
    passes := fun _ => false, now := 1000, instant := 0 }

end Sail.App.Router
