/-
The DNS rules: which server a query goes to.

An evaluate rule that matches sends a query, whose response the rules behind it that name
it wait for. A race rule does not hold the walk: it is judged once its responses have
come. Responses, their order and what a rule's conditions say come from outside.
-/

import Sail.Lib.KeyedMap
import Sail.Netstack.Ip.Wire

namespace Sail.App.Dns

open Netstack

/-! ### How a query is sent -/

inductive Subnet where
  | set (network : IpAddr) (length : Nat)
  | remove
deriving DecidableEq

structure QueryOptions where
  disableCache : Bool
  disableOptimisticCache : Bool
  rewriteTtl : Option Nat
  timeout : Option Nat
  clientSubnet : Option Subnet
  forInstance : Bool
deriving DecidableEq

structure LookupOptions where
  disableCache : Bool
  disableOptimisticCache : Bool
  rewriteTtl : Option Nat
  clientSubnet : Option (IpAddr × Nat)

structure LookupContext where
  outbound : Option String
  options : LookupOptions

namespace QueryOptions

def ofLookup (options : LookupOptions) : QueryOptions :=
  { disableCache := options.disableCache
    disableOptimisticCache := options.disableOptimisticCache
    rewriteTtl := options.rewriteTtl
    timeout := none
    clientSubnet := options.clientSubnet.map (fun subnet => .set subnet.1 subnet.2)
    forInstance := false }

def withLater (options later : QueryOptions) : QueryOptions :=
  { disableCache := options.disableCache || later.disableCache
    disableOptimisticCache := options.disableOptimisticCache || later.disableOptimisticCache
    rewriteTtl := later.rewriteTtl.or options.rewriteTtl
    timeout := later.timeout.or options.timeout
    clientSubnet := later.clientSubnet.or options.clientSubnet
    forInstance := options.forInstance || later.forInstance }

end QueryOptions

/-! ### Rules -/

inductive ResponseRef where
  | latest
  | tag (name : String)
deriving DecidableEq

inductive RuleAction (Message : Type) where
  | route (server : String) (options : QueryOptions)
  | evaluate (server : String) (tag : Option String) (options : QueryOptions)
  | respond
  | routeOptions (options : QueryOptions)
  | reject
  | predefined (response : Message)

def RuleAction.decides {Message : Type} : RuleAction Message → Bool
  | .evaluate _ _ _ => false
  | .routeOptions _ => false
  | _ => true

structure Facts (Message : Type) where
  ips : List IpAddr
  rcode : Option Nat
  response : Option Message
  responses : Option (List (ResponseRef × Option Message))

/-- A compiled rule. It names its own response among those it needs, and races
only with an action that decides: loading checks both. -/
structure Rule (Message : Type) where
  matcher : Facts Message → Bool
  outbounds : List String
  response : Option ResponseRef
  invert : Bool
  ipMatchAll : Bool
  nestedResponses : Bool
  needs : List ResponseRef
  race : Bool
  speculative : Bool
  action : RuleAction Message
  response_needed : ∀ ref, response = some ref → ref ∈ needs
  race_decides : race = true → action.decides = true

inductive WalkError where
  | resolve (message : String)
  | noEvaluatedResponse (rule : Nat)
deriving DecidableEq

/-- The client, with the query it walks the rules for. What a server answers may
depend on the rule that asks, none for the final server. -/
structure Client (Message : Type) where
  rules : List (Rule Message)
  finalServer : String
  isFakeIp : String → Bool
  resolve : Option Nat → String → QueryOptions → Except String Message
  addresses : Message → List IpAddr
  responseCode : Message → Nat
  ctx : LookupContext
  fakeIp : Bool

abbrev Bound : Type :=
  List (ResponseRef × Option Nat)

section

variable {Message : Type}

/-! ### Judging a rule -/

def responseOf (answers : Nat → Option Message) (bound : Bound) (ref : ResponseRef) :
    Option Message :=
  match bound.find? (fun entry => entry.1 = ref) with
  | some (_, some index) => answers index
  | _ => none

def responsesOf (answers : Nat → Option Message) (bound : Bound) :
    List (ResponseRef × Option Message) :=
  bound.map (fun entry => (entry.1, responseOf answers bound entry.1))

namespace Client

variable (client : Client Message)

def forOutbound (rule : Rule Message) : Bool :=
  rule.outbounds.isEmpty || client.ctx.outbound.any (fun outbound => rule.outbounds.contains outbound)

/-- Whether a rule is looked at. The client's own lookups pass over those that send
to the fakeip server. -/
def applies (rule : Rule Message) : Bool :=
  client.forOutbound rule &&
    match rule.action with
    | .route server _ => client.fakeIp || !client.isFakeIp server
    | _ => true

/-- Whether a rule matches a response: with `ipMatchAll`, as each of its addresses
alone. -/
def matchesResponse (rule : Rule Message) (response : Message)
    (responses : Option (List (ResponseRef × Option Message))) : Bool :=
  let facts := fun ips =>
    { ips
      rcode := some (client.responseCode response)
      response := some response
      responses }
  let ips := client.addresses response
  if !rule.ipMatchAll then rule.matcher (facts ips)
  else !ips.isEmpty && ips.all (fun ip => rule.matcher (facts [ip]))

/-- Whether a rule matches, with the responses bound to it. Without its response it
matches only inverted. -/
def judge (rule : Rule Message) (bound : Bound) (answers : Nat → Option Message) : Bool :=
  let responses := if rule.nestedResponses then some (responsesOf answers bound) else none
  match rule.response with
  | some ref =>
    match responseOf answers bound ref with
    | none => rule.invert
    | some response => client.matchesResponse rule response responses
  | none => rule.matcher { ips := [], rcode := none, response := none, responses }

end Client

/-! ### Evaluations -/

structure Race (Message : Type) where
  index : Nat
  rule : Rule Message
  bound : Bound

structure Evaluations (Message : Type) where
  inflight : List (Nat × Option Message)
  done : KeyedMap Nat (Option Message)
  latest : Option Nat
  tagged : KeyedMap String Nat
  races : List (Race Message)

def bindRef (latest : Option Nat) (tagged : KeyedMap String Nat) : ResponseRef → Option Nat
  | .latest => latest
  | .tag name => tagged.lookup name

def bindRefs (latest : Option Nat) (tagged : KeyedMap String Nat) (needs : List ResponseRef) :
    Bound :=
  needs.map (fun ref => (ref, bindRef latest tagged ref))

namespace Evaluations

def new : Evaluations Message :=
  { inflight := [], done := ∅, latest := none, tagged := ∅, races := [] }

def bind (ev : Evaluations Message) (needs : List ResponseRef) : Bound :=
  bindRefs ev.latest ev.tagged needs

def answers (ev : Evaluations Message) (index : Nat) : Option Message :=
  (ev.done.lookup index).join

def ready (ev : Evaluations Message) (bound : Bound) : Bool :=
  bound.all (fun entry => entry.2.all (fun index => (ev.done.lookup index).isSome))

def ask (ev : Evaluations Message) (index : Nat) (tag : Option String)
    (response : Option Message) : Evaluations Message :=
  match tag with
  | none => { ev with inflight := ev.inflight ++ [(index, response)], latest := some index }
  | some name =>
    { ev with
      inflight := ev.inflight ++ [(index, response)]
      tagged := ev.tagged.insert name index }

end Evaluations

inductive Progress (α : Type) where
  | ended (value : α)
  | waiting (pending : List Nat)

/-- What the walk acts on: a rule, or the final server; a respond rule with a
response. -/
structure Decision (Message : Type) where
  rule : Option (Nat × Rule Message)
  responded : Option Message
  options : QueryOptions
  /-- How many rules were looked at before. -/
  passed : Nat

inductive Walked (Message : Type) where
  | response (message : Message)
  | refused

namespace Client

variable (client : Client Message)

def judgeRaces (ev : Evaluations Message) :
    List (Race Message) → Option (Race Message) × List (Race Message)
  | [] => (none, [])
  | race :: rest =>
    if !ev.ready race.bound then
      let (won, kept) := judgeRaces ev rest
      (won, race :: kept)
    else if client.judge race.rule race.bound ev.answers then (some race, race :: rest)
    else judgeRaces ev rest

def judgePending (ev : Evaluations Message) : Option (Race Message) × Evaluations Message :=
  let (won, kept) := client.judgeRaces ev ev.races
  (won, { ev with races := kept })

def advance (arrivals : List Nat) (ev : Evaluations Message) :
    Progress (Option (Race Message) × Evaluations Message) :=
  match arrivals.findSome? (fun index => ev.inflight.find? (fun entry => entry.1 = index)) with
  | none => .waiting (ev.inflight.map Prod.fst)
  | some (index, response) =>
    .ended (client.judgePending
      { ev with
        inflight := ev.inflight.eraseP (fun entry => entry.1 = index)
        done := ev.done.insert index response })

/-- Wait for a response while any is in flight, unless a race is won first. -/
def waitFor (arrivals : List Nat) (index : Nat) :
    Nat → Evaluations Message → Progress (Option (Race Message) × Evaluations Message)
  | 0, ev => .ended (none, ev)
  | fuel + 1, ev =>
    if (ev.done.lookup index).isSome || ev.inflight.isEmpty then .ended (none, ev)
    else
      match client.advance arrivals ev with
      | .waiting pending => .waiting pending
      | .ended (some won, ev) => .ended (some won, ev)
      | .ended (none, ev) => waitFor arrivals index fuel ev

def wait (arrivals : List Nat) (index : Nat) (ev : Evaluations Message) :
    Progress (Option (Race Message) × Evaluations Message) :=
  client.waitFor arrivals index ev.inflight.length ev

def waitAll (arrivals : List Nat) :
    List Nat → Evaluations Message → Progress (Option (Race Message) × Evaluations Message)
  | [], ev => .ended (none, ev)
  | index :: rest, ev =>
    match client.wait arrivals index ev with
    | .waiting pending => .waiting pending
    | .ended (some won, ev) => .ended (some won, ev)
    | .ended (none, ev) => waitAll arrivals rest ev

def settleFor (arrivals : List Nat) :
    Nat → Evaluations Message → Progress (Option (Race Message) × Evaluations Message)
  | 0, ev => .ended (client.judgePending ev)
  | fuel + 1, ev =>
    match client.judgePending ev with
    | (some won, ev) => .ended (some won, ev)
    | (none, ev) =>
      if ev.races.isEmpty || ev.inflight.isEmpty then .ended (none, ev)
      else
        match client.advance arrivals ev with
        | .waiting pending => .waiting pending
        | .ended (some won, ev) => .ended (some won, ev)
        | .ended (none, ev) => settleFor arrivals fuel ev

def settle (arrivals : List Nat) (ev : Evaluations Message) :
    Progress (Option (Race Message) × Evaluations Message) :=
  client.settleFor arrivals ev.inflight.length ev

end Client

def respondsWith (rule : Rule Message) (ev : Evaluations Message) : Option Message :=
  match rule.action, rule.response with
  | .respond, some ref => responseOf ev.answers (ev.bind [ref]) ref
  | _, _ => none

def decideRule (index : Nat) (rule : Rule Message) (ev : Evaluations Message)
    (options : QueryOptions) (passed : Nat) : Decision Message :=
  { rule := some (index, rule)
    responded := respondsWith rule ev
    options
    passed }

inductive Look (Message : Type) where
  | goesOn (ev : Evaluations Message) (options : QueryOptions)
  | decided (decision : Decision Message)
  | waiting (pending : List Nat)

def Progress.andThen (progress : Progress (Option (Race Message) × Evaluations Message))
    (options : QueryOptions) (passed : Nat) (onward : Evaluations Message → Look Message) :
    Look Message :=
  match progress with
  | .waiting pending => .waiting pending
  | .ended (some won, ev) => .decided (decideRule won.index won.rule ev options passed)
  | .ended (none, ev) => onward ev

namespace Client

variable (client : Client Message)

/-- The action of a rule that matches. A query sent ahead of pending races is the
one that is sent behind them. -/
def take (arrivals : List Nat) (index : Nat) (rule : Rule Message) (ev : Evaluations Message)
    (options : QueryOptions) : Look Message :=
  match rule.action with
  | .routeOptions set => .goesOn ev (options.withLater set)
  | .evaluate server tag own =>
    let response := (client.resolve (some index) server (options.withLater own)).toOption
    if !ev.races.isEmpty && !rule.speculative then
      (client.settle arrivals ev).andThen options index
        (fun ev => .goesOn (ev.ask index tag response) options)
    else .goesOn (ev.ask index tag response) options
  | _ =>
    if ev.races.isEmpty then .decided (decideRule index rule ev options index)
    else
      (client.settle arrivals ev).andThen options index
        (fun ev => .decided (decideRule index rule ev options index))

def look (arrivals : List Nat) (index : Nat) (rule : Rule Message) (ev : Evaluations Message)
    (options : QueryOptions) : Look Message :=
  if !client.applies rule then .goesOn ev options
  else
    let bound := ev.bind rule.needs
    if rule.race then
      (Progress.ended (client.judgePending
        { ev with races := ev.races ++ [{ index, rule, bound }] })
        ).andThen options (index + 1) (fun ev => .goesOn ev options)
    else
      (client.waitAll arrivals (bound.filterMap Prod.snd) ev).andThen options index
        (fun ev =>
          if !client.judge rule bound ev.answers then .goesOn ev options
          else client.take arrivals index rule ev options)

def walkFrom (arrivals : List Nat) :
    Nat → List (Rule Message) → Evaluations Message → QueryOptions → Progress (Decision Message)
  | index, [], ev, options =>
    match client.settle arrivals ev with
    | .waiting pending => .waiting pending
    | .ended (some won, ev) => .ended (decideRule won.index won.rule ev options index)
    | .ended (none, _) =>
      .ended { rule := none, responded := none, options, passed := index }
  | index, rule :: rest, ev, options =>
    match client.look arrivals index rule ev options with
    | .goesOn ev options => walkFrom arrivals (index + 1) rest ev options
    | .decided decision => .ended decision
    | .waiting pending => .waiting pending

def startOptions : QueryOptions :=
  { QueryOptions.ofLookup client.ctx.options with forInstance := !client.fakeIp }

def decision (arrivals : List Nat) : Progress (Decision Message) :=
  client.walkFrom arrivals 0 client.rules .new client.startOptions

def ask (asker : Option Nat) (server : String) (options : QueryOptions) :
    Except WalkError (Walked Message) :=
  match client.resolve asker server options with
  | .ok message => .ok (.response message)
  | .error text => .error (.resolve text)

def act (decision : Decision Message) : Except WalkError (Walked Message) :=
  match decision.rule with
  | none => client.ask none client.finalServer decision.options
  | some (index, rule) =>
    match rule.action with
    | .respond =>
      match decision.responded with
      | some response => .ok (.response response)
      | none => .error (.noEvaluatedResponse index)
    | .route server own => client.ask (some index) server (decision.options.withLater own)
    | .reject => .ok .refused
    | .predefined response => .ok (.response response)
    -- an evaluate or route-options rule decides nothing
    | .evaluate _ _ _ => .error (.noEvaluatedResponse index)
    | .routeOptions _ => .error (.noEvaluatedResponse index)

def walk (arrivals : List Nat) : Progress (Except WalkError (Walked Message)) :=
  match client.decision arrivals with
  | .waiting pending => .waiting pending
  | .ended decision => .ended (client.act decision)

end Client

end

end Sail.App.Dns
