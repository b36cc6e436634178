/-
The walk over the routing rules, after `app/router/mod.rs`.

One walk serves routing, pre-match and rechecks. It gives back the rules with their counts
and the reject rules' recent rejections. What the sniffer reads, what the DNS answers,
which outbounds pass and what the clocks show come from outside. Of the route options, the
overrides are what later rules see.
-/

import Sail.App.Router.Matcher

namespace Sail.App.Router

open Netstack

inductive Destination where
  | ip (addr : SocketAddr)
  | domain (name : String) (port : Nat)
deriving DecidableEq

namespace Destination

def name : Destination → Option String
  | .ip _ => none
  | .domain name _ => some name

def address : Destination → Option IpAddr
  | .ip addr => some addr.ip
  | .domain _ _ => none

def port : Destination → Nat
  | .ip addr => addr.port
  | .domain _ port => port

def withPort (destination : Destination) (port : Nat) : Destination :=
  match destination with
  | .ip addr => .ip { addr with port }
  | .domain name _ => .domain name port

end Destination

inductive SniffedFrom where
  | dns | http | tls

structure Sniffed where
  domain : Option (SniffedFrom × String)
  protocol : Option SniffedProtocol
  http : Option Request

structure Session where
  destination : Destination
  sniffed : Sniffed
  skipResolve : Bool
  network : Network
  inbound : String
  user : Option String
  source : SocketAddr
  neighbor : Option Neighbor
  owner : Option ConnectionOwner
  processPath : Option String
  originalDestination : Option Destination
  matchedRule : Option Nat
  resolved : List IpAddr
  resolvedForEveryOutbound : Bool

def Session.domain (sess : Session) : Option String :=
  ((sess.sniffed.domain.map (·.2)).or sess.destination.name).map String.toLower

/-! ### Rules -/

structure Resolve where
  server : Option String
  ignoreFailure : Bool

structure SniffAction where
  protocols : List SniffedProtocol

structure Options where
  overrideAddress : Option Destination
  overridePort : Option Nat

structure Reject where
  drops : Bool
  noDrop : Bool
  recent : List Nat

inductive Action where
  | route (tag : String) (options : Options)
  | bypass (outbound : Option (String × Options))
  | routeOptions (options : Options)
  | reject (reject : Reject)
  | hijackDns
  | sniff (action : SniffAction)
  | resolve (how : Resolve)
  | armSniff (action : SniffAction)
  | armResolve (how : Resolve)
  | direct

structure RuleState where
  disabled : Bool
  hits : UInt64
  hitAt : Nat

structure Rule where
  condition : Condition
  action : Action
  index : Nat
  -- The inline lines merged into it, each with its own index.
  lines : List (Pattern × Nat)
  state : RuleState

def Options.apply (options : Options) (sess : Session) : Session :=
  if options.overrideAddress.isNone && options.overridePort.isNone then sess
  else
    let port := options.overridePort.getD sess.destination.port
    { sess with
      originalDestination := sess.originalDestination.or (some sess.destination)
      resolved := if options.overrideAddress.isSome then [] else sess.resolved
      resolvedForEveryOutbound :=
        !options.overrideAddress.isSome && sess.resolvedForEveryOutbound
      destination := (options.overrideAddress.getD sess.destination).withPort port }

/-- Whether this rejection drops the connection, and the rejections of the last 30 seconds:
past 50 of them a rule drops those after. -/
def Reject.dropsAt (reject : Reject) (now : Nat) : Bool × Reject :=
  if reject.drops then (true, reject)
  else if reject.noDrop then (false, reject)
  else
    let recent := reject.recent.dropWhile (fun time => 30000 < now - time) ++ [now]
    (50 < recent.length, { reject with recent })

def RuleState.hit (state : RuleState) (now : Nat) : RuleState :=
  { state with hits := state.hits + 1, hitAt := now }

def Rule.reported (rule : Rule) (domain : Option String) : Nat :=
  match domain.bind fun name => rule.lines.find? (·.1 name) with
  | some line => line.2
  | none => rule.index

/-! ### The walk -/

/-- What a walk is answered from outside. -/
structure Surroundings where
  network : Option NetworkState
  sniffer : SniffAction → Session → Except String Session
  lookup : Resolve → String → Session → Except String (List IpAddr)
  passes : String → Bool
  -- The wall clock, and the instant rejections are counted at.
  now : Nat
  instant : Nat

inductive Walk where
  | route
  | preMatch
  | recheck (routed : Session)

inductive Stop where
  | route (tag : String)
  | reject (drop : Bool)
  | hijackDns
  | bypass
  | needsData
  | final

structure WalkState where
  sess : Session
  resolved : List IpAddr := []
  armedSniff : Option SniffAction := none
  armedResolve : Option Resolve := none
  resolveTaken : Bool := false

inductive Outcome where
  | stop (stop : Stop) (sess : Session)
  | on (state : WalkState)

namespace Walk

variable (walk : Walk) (env : Surroundings)

def isPreMatch : Bool :=
  match walk with
  | .preMatch => true
  | _ => false

/-- The session a sniff leaves; none in pre-match, which reads nothing. -/
def sniff (action : SniffAction) (sess : Session) : Except String (Option Session) :=
  match walk with
  | .route =>
    match env.sniffer action sess with
    | .ok sess => .ok (some sess)
    | .error message => .error ("sniff: " ++ message)
  | .recheck routed => .ok (some { sess with sniffed := routed.sniffed })
  | .preMatch => .ok none

def resolveIn (how : Resolve) (domain : String) (sess : Session) : Except String (List IpAddr) :=
  match walk with
  | .recheck routed => .ok (if sess.destination = routed.destination then routed.resolved else [])
  | _ =>
    match env.lookup how domain sess with
    | .ok ips => .ok ips
    | .error message =>
      if how.ignoreFailure then .ok [] else .error ("resolve " ++ domain ++ ": " ++ message)

def facts (ipVersion : Option Nat) (state : WalkState) : Facts :=
  let sess := state.sess
  { domain := sess.domain
    ips := (sess.destination.address.map toCanonical).toList ++ state.resolved
    protocol := sess.sniffed.protocol, http := sess.sniffed.http
    processPath := sess.processPath, owner := sess.owner, networkState := env.network
    port := sess.destination.port, ipVersion, network := sess.network, inbound := sess.inbound
    user := sess.user, source := sess.source, neighbor := sess.neighbor, queryType := none
    preferredBy := none, rcode := none, response := none, responses := none }

def takeSniff (needs : Needs) (state : WalkState) : Except String WalkState :=
  match state.armedSniff with
  | none => .ok state
  | some action =>
    if needs.sniff || (needs.domain && state.sess.domain.isNone) then do
      let read ← walk.sniff env action state.sess
      return { state with armedSniff := none, sess := read.getD state.sess }
    else .ok state

/-- The walk with the addresses of the destination, which every outbound may use or not. -/
def resolving (how : Resolve) (every : Bool) (state : WalkState) : Except String WalkState :=
  match state.resolved, state.sess.skipResolve, state.sess.destination.name with
  | [], false, some domain => do
    let resolved ← walk.resolveIn env how domain state.sess
    return { state with
      resolved, sess := { state.sess with resolved, resolvedForEveryOutbound := every } }
  | _, _, _ => .ok state

def takeResolve (needs : Needs) (state : WalkState) : Except String WalkState :=
  match state.armedResolve with
  | none => .ok state
  | some how =>
    if needs.ip && state.resolved.isEmpty && !state.resolveTaken && !state.sess.skipResolve &&
        state.sess.destination.name.isSome then
      walk.resolving env how false { state with armedResolve := none, resolveTaken := true }
    else .ok state

/-- What a rule that matches does, and its action afterwards. -/
def act (rule : Rule) (state : WalkState) : Action × Except String Outcome :=
  let matched (sess : Session) : Session :=
    { sess with matchedRule := rule.reported state.sess.domain }
  let routed (tag : String) (options : Options) : Except String Outcome :=
    .ok (if env.passes tag then .on state
      else .stop (.route tag) (matched (options.apply state.sess)))
  match rule.action with
  | .route tag options => (.route tag options, routed tag options)
  | .bypass outbound =>
    (.bypass outbound,
      if walk.isPreMatch then .ok (.stop .bypass state.sess)
      else
        match outbound with
        | none => .ok (.on state)
        | some (tag, options) => routed tag options)
  | .routeOptions options =>
    let cleared := if options.overrideAddress.isSome then
        { state with resolved := [], resolveTaken := false }
      else state
    (.routeOptions options, .ok (.on { cleared with sess := options.apply state.sess }))
  | .reject reject =>
    match walk with
    | .recheck _ => (.reject reject, .ok (.stop (.reject reject.drops) (matched state.sess)))
    | _ =>
      let (drop, reject) := reject.dropsAt env.instant
      (.reject reject, .ok (.stop (.reject drop) (matched state.sess)))
  | .hijackDns => (.hijackDns, .ok (.stop .hijackDns (matched state.sess)))
  | .direct => (.direct, .ok (.on state))
  | .sniff action =>
    (.sniff action, do
      match ← walk.sniff env action state.sess with
      | none => return .stop .needsData state.sess
      | some sess => return .on { state with sess })
  | .resolve how => (.resolve how, (walk.resolving env how true state).map .on)
  -- Pre-match reads nothing.
  | .armSniff action =>
    (.armSniff action,
      .ok (.on (if walk.isPreMatch then state else { state with armedSniff := some action })))
  | .armResolve how => (.armResolve how, .ok (.on { state with armedResolve := some how }))

def step (ipVersion : Option Nat) (rule : Rule) (state : WalkState) :
    Rule × Except String Outcome :=
  let needs := rule.condition.needs false
  match walk.takeSniff env needs state >>= walk.takeResolve env needs with
  | .error message => (rule, .error message)
  | .ok state =>
    if rule.state.disabled || !rule.condition.matches (facts env ipVersion state) false then
      (rule, .ok (.on state))
    else
      let counted := if walk.isPreMatch then rule.state else rule.state.hit env.now
      let acted := walk.act env rule state
      ({ rule with action := acted.1, state := counted }, acted.2)

/-- The rules behind the walk, where it stopped and the session it leaves. -/
def run (ipVersion : Option Nat) : List Rule → WalkState →
    List Rule × Except String (Stop × Session)
  | [], state => ([], .ok (.final, state.sess))
  | rule :: rules, state =>
    match walk.step env ipVersion rule state with
    | (rule, .error message) => (rule :: rules, .error message)
    | (rule, .ok (.stop stop sess)) => (rule :: rules, .ok (stop, sess))
    | (rule, .ok (.on state)) =>
      let rest := run ipVersion rules state
      (rule :: rest.1, rest.2)

end Walk

end Sail.App.Router
