/-
The conditions of a rule and what they need learnt, after `app/router/matcher.rs`,
`matcher/network.rs` and `rule_set/mod.rs`.

Indexes, databases and regular expressions stand here as what they say of a value. A
rule-set is the list of its rules, and the instance's mode what it is, at the time.
-/

import Sail.App.Dns.Rules
import Sail.Netstack.Transport

namespace Sail.App.Router

open Netstack Dns

/-! ### What is known of a connection -/

inductive Network where
  | tcp | udp
deriving DecidableEq

inductive SniffedProtocol where
  | http | tls | quic | dns | stun | bittorrent | dtls
deriving DecidableEq

inductive NetworkType where
  | wifi | cellular | ethernet | other
deriving DecidableEq

structure NetworkState where
  kind : Option NetworkType
  ssid : Option String
  bssid : Option String
  gateway : Option IpAddr
  mccMnc : Option String
  expensive : Bool
  constrained : Bool

/-- A value kept up to a bound, and whether all of it was. -/
structure Bounded where
  value : String
  whole : Bool

structure Request where
  url : Option Bounded
  userAgent : Option Bounded

structure Neighbor where
  macString : Option String
  hostname : Option String

structure ConnectionOwner where
  uid : UInt32
  user : Option String
  packages : List String

structure Record where
  name : String
  dnsClass : UInt16
  data : Bytes
deriving DecidableEq

structure Message where
  answers : List Record
  authorities : List Record
  additionals : List Record

structure ResponseFacts where
  ips : List IpAddr
  rcode : UInt16
  message : Message

/-- What may be learnt of a connection beyond what it comes with. -/
structure Learnt where
  domain : Option String
  ips : List IpAddr
  protocol : Option SniffedProtocol
  http : Option Request
  processPath : Option String
  owner : Option ConnectionOwner
  networkState : Option NetworkState

structure Facts extends Learnt where
  port : Nat
  ipVersion : Option Nat
  network : Network
  inbound : String
  user : Option String
  source : SocketAddr
  queryType : Option UInt16
  preferredBy : Option (List String)
  neighbor : Option Neighbor
  rcode : Option UInt16
  response : Option Message
  responses : Option (ResponseRef → Option ResponseFacts)

def toCanonical : IpAddr → IpAddr
  | .v4 address => .v4 address
  | .v6 address => if address >>> 32 = 0xffff then .v4 (address.setWidth 32) else .v6 address

def isUnspecified : IpAddr → Bool
  | .v4 address => address = 0
  | .v6 address => address = 0

def isPrivate (ip : IpAddr) : Bool :=
  match toCanonical ip with
  | .v4 address =>
    address >>> 24 = 10 || address >>> 20 = 0xac1 || address >>> 16 = 0xc0a8 ||
      address >>> 24 = 127 || address >>> 28 = 0xe || address >>> 16 = 0xa9fe || address = 0
  | .v6 address =>
    address >>> 121 = 0x7e || address = 1 || address >>> 120 = 0xff ||
      address >>> 118 = 0x3fa || address = 0

namespace Facts

def ofResponse (facts : Facts) (name : ResponseRef) : Option Facts :=
  facts.responses.bind fun responses => (responses name).map fun response =>
    { facts with
      ips := response.ips, rcode := some response.rcode, response := some response.message }

def switched (facts : Facts) : Option ResponseRef → Option Facts
  | none => some facts
  | some name => facts.ofResponse name

/-- Where the connection came from; none for the DNS client's own queries. -/
def knownSource (facts : Facts) : Option SocketAddr :=
  if !isUnspecified facts.source.ip || facts.source.port != 0 then some facts.source else none

def processName (facts : Facts) : Option String :=
  facts.processPath.map fun path =>
    String.ofList (path.toList.reverse.takeWhile fun letter =>
      letter != '/' && letter != '\\').reverse

def whole (bounded : Option Bounded) : Option String :=
  bounded.bind fun kept => if kept.whole then some kept.value else none

def url (facts : Facts) : Option String :=
  facts.http.bind fun request => whole request.url

def userAgent (facts : Facts) : Option String :=
  facts.http.bind fun request => whole request.userAgent

end Facts

/-! ### Conditions -/

abbrev Pattern := String → Bool

structure NetworkConditions where
  ssid : List String
  ssidRegex : List Pattern
  bssid : List String
  bssidRegex : List Pattern
  types : List NetworkType
  expensive : Bool
  constrained : Bool
  gateways : List IpAddr
  mccMnc : List String

namespace NetworkConditions

def isEmpty (wanted : NetworkConditions) : Bool :=
  wanted.ssid.isEmpty && wanted.ssidRegex.isEmpty && wanted.bssid.isEmpty &&
    wanted.bssidRegex.isEmpty && wanted.types.isEmpty && !wanted.expensive &&
    !wanted.constrained && wanted.gateways.isEmpty && wanted.mccMnc.isEmpty

def needs (wanted : NetworkConditions) : Bool :=
  !wanted.isEmpty

def «matches» (wanted : NetworkConditions) (known : Option NetworkState) : Bool :=
  if wanted.isEmpty then true
  else
    match known with
    | none => false
    | some state =>
      (wanted.ssid.isEmpty || state.ssid.any wanted.ssid.contains) &&
      (wanted.ssidRegex.isEmpty || state.ssid.any fun name => wanted.ssidRegex.any (· name)) &&
      (wanted.bssid.isEmpty || state.bssid.any wanted.bssid.contains) &&
      (wanted.bssidRegex.isEmpty || state.bssid.any fun name => wanted.bssidRegex.any (· name)) &&
      (wanted.types.isEmpty || state.kind.any wanted.types.contains) &&
      (!wanted.expensive || state.expensive) &&
      (!wanted.constrained || state.constrained) &&
      (wanted.gateways.isEmpty ||
        state.gateway.any fun gateway => wanted.gateways.contains (toCanonical gateway)) &&
      (wanted.mccMnc.isEmpty ||
        (state.kind != some .wifi && state.mccMnc.any wanted.mccMnc.contains))

end NetworkConditions

inductive Item where
  | clashMode (isWanted : Bool)
  | inbounds (tags : List String)
  | ipVersion (version : Nat)
  | networks (wanted : List Network)
  | authUsers (names : List String)
  | protocols (wanted : List SniffedProtocol)
  | domains (index : String → Bool)
  | succinct (set : String → Bool)
  | domainRegex (patterns : List Pattern)
  | sourceIpCidr (index : IpAddr → Bool)
  | sourceIpIsPrivate
  | ipCidr (index : IpAddr → Bool)
  | mmdbs (countries : List (IpAddr → Bool))
  | asns (numbers : IpAddr → Bool)
  | ipIsPrivate
  | ipAcceptAny
  | responseRcode (code : UInt16)
  | responseRecords (part : Nat) (wanted : List Record)
  | sourcePorts (ranges : List (Nat × Nat))
  | ports (ranges : List (Nat × Nat))
  | processNames (names : List String)
  | processPaths (paths : List String)
  | processPathRegex (patterns : List Pattern)
  | processNameRegex (patterns : List Pattern)
  | packageNames (names : List String)
  | packageNameRegex (patterns : List Pattern)
  | processUsers (names : List String)
  | processUserIds (ids : List Int)
  | httpUserAgent (patterns : List Pattern)
  | urlRegex (patterns : List Pattern)
  | queryTypes (types : List UInt16)
  | preferredBy (servers : List String)
  | sourceMacs (addresses : List String)
  | sourceHostnames (names : List String)
  | network (wanted : NetworkConditions)

/-- The things a rule has conditions on; of those on one thing, any matching will do. -/
structure Groups where
  required : UInt8 := 0
  satisfied : UInt8 := 0

namespace Groups

def sourceAddress : UInt8 := 1
def sourcePort : UInt8 := 2
def destinationAddress : UInt8 := 4
def destinationPort : UInt8 := 8

def require (groups : Groups) (group : UInt8) (matched : Bool) : Groups :=
  { required := groups.required ||| group
    satisfied := if matched then groups.satisfied ||| group else groups.satisfied }

def holding (groups : Groups) (holds : Bool) : Option Groups :=
  if holds then some groups else none

def done (groups : Groups) : Bool :=
  groups.required &&& ~~~groups.satisfied == 0

def merge (groups other : Groups) : Groups :=
  { required := groups.required ||| other.required
    satisfied := groups.satisfied ||| other.satisfied }

end Groups

def inRanges (ranges : List (Nat × Nat)) (port : Nat) : Bool :=
  ranges.any fun range => range.1 ≤ port && port ≤ range.2

open Groups in
/-- What one condition makes of the facts: its group is required, or it holds or not. -/
def Item.judge (facts : Facts) (ipMatchSource : Bool) (groups : Groups) (item : Item) :
    Option Groups :=
  let sourceIp := facts.knownSource.map (·.ip)
  let ipGroup := if ipMatchSource then sourceAddress else destinationAddress
  let holding := groups.holding
  match item with
  | .sourceIpCidr index => some (groups.require sourceAddress (sourceIp.any index))
  | .sourceIpIsPrivate => some (groups.require sourceAddress (sourceIp.any isPrivate))
  | .ipCidr index =>
    some (groups.require ipGroup
      (if ipMatchSource then sourceIp.any index else facts.ips.any index))
  | .mmdbs countries =>
    some (groups.require ipGroup (facts.ips.any fun ip => countries.any (· ip)))
  | .asns numbers => some (groups.require ipGroup (facts.ips.any numbers))
  | .ipIsPrivate => some (groups.require ipGroup (facts.ips.any isPrivate))
  -- With the source looked at, it holds the group but matches nothing there.
  | .ipAcceptAny => some (groups.require ipGroup (!ipMatchSource && !facts.ips.isEmpty))
  | .sourcePorts ranges =>
    some (groups.require sourcePort (facts.knownSource.any fun source =>
      inRanges ranges source.port))
  | .domains index => some (groups.require destinationAddress (facts.domain.any index))
  | .succinct set => some (groups.require destinationAddress (facts.domain.any set))
  | .domainRegex patterns =>
    some (groups.require destinationAddress
      (facts.domain.any fun name => patterns.any (· name)))
  | .ports ranges => some (groups.require destinationPort (inRanges ranges facts.port))
  | .inbounds tags => holding (tags.contains facts.inbound)
  | .ipVersion version => holding (facts.ipVersion == some version)
  | .networks wanted => holding (wanted.contains facts.network)
  | .authUsers names => holding (facts.user.any names.contains)
  | .protocols wanted => holding (facts.protocol.any wanted.contains)
  | .processNames names => holding (facts.processName.any names.contains)
  | .processPaths paths => holding (facts.processPath.any paths.contains)
  | .processPathRegex patterns =>
    holding (facts.processPath.any fun path => patterns.any (· path))
  | .processNameRegex patterns =>
    holding (facts.processName.any fun name => patterns.any (· name))
  | .packageNames names => holding (facts.owner.any fun owner => owner.packages.any names.contains)
  | .packageNameRegex patterns =>
    holding (facts.owner.any fun owner => owner.packages.any fun name => patterns.any (· name))
  | .processUsers names => holding (facts.owner.any fun owner => owner.user.any names.contains)
  | .processUserIds ids =>
    holding (facts.owner.any fun owner =>
      decide (owner.uid.toNat < 2 ^ 31) && ids.contains owner.uid.toNat)
  | .httpUserAgent patterns =>
    holding (facts.userAgent.any fun agent => patterns.any (· agent))
  | .urlRegex patterns => holding (facts.url.any fun url => patterns.any (· url))
  | .queryTypes types => holding (facts.queryType.any types.contains)
  | .preferredBy servers => holding (facts.preferredBy.any fun tags => servers.any tags.contains)
  | .sourceMacs addresses =>
    holding ((facts.neighbor.bind (·.macString)).any addresses.contains)
  | .sourceHostnames names => holding ((facts.neighbor.bind (·.hostname)).any names.contains)
  | .responseRcode code => holding (facts.rcode == some code)
  | .responseRecords part wanted =>
    holding (facts.response.any fun message =>
      let records := match part with
        | 0 => message.answers
        | 1 => message.authorities
        | _ => message.additionals
      wanted.any records.contains)
  | .clashMode isWanted => holding isWanted
  | .network wanted => holding (wanted.matches facts.networkState)

def evaluate (items : List Item) (facts : Facts) (ipMatchSource : Bool) : Option Groups :=
  items.foldlM (Item.judge facts ipMatchSource) {}

/-! ### The condition tree -/

structure Conditions where
  items : List Item
  response : Option ResponseRef
  ipMatchSource : Bool
  noResolve : Bool
  invert : Bool

inductive Condition where
  | default (own : Conditions) (ruleSets : List (List Condition))
  | logical (all : Bool) (rules : List Condition) (invert noResolve : Bool)
      (response : Option ResponseRef)

/-- The items a rule-set of one plain rule merges into the rule that names it. -/
def mergeable : List Condition → Option (List Item)
  | [.default own []] => if own.invert then none else some own.items
  | _ => none

mutual

def Condition.matches : Condition → Facts → Bool → Bool
  | .default own ruleSets, facts, ipMatchSource =>
    match facts.switched own.response with
    | none => own.invert
    | some facts =>
      if own.items.isEmpty && ruleSets.isEmpty then true
      else
        (match evaluate own.items facts ipMatchSource with
          | none => false
          | some groups =>
            if ruleSets.isEmpty then groups.done
            else anyMatchesWith ruleSets groups facts own.ipMatchSource) != own.invert
  | .logical all rules invert _ response, facts, ipMatchSource =>
    match facts.switched response with
    | none => invert
    | some facts =>
      (if all then allMatch rules facts ipMatchSource
        else anyMatches rules facts ipMatchSource) != invert

def allMatch : List Condition → Facts → Bool → Bool
  | [], _, _ => true
  | rule :: rules, facts, ipMatchSource =>
    rule.matches facts ipMatchSource && allMatch rules facts ipMatchSource

def anyMatches : List Condition → Facts → Bool → Bool
  | [], _, _ => false
  | rule :: rules, facts, ipMatchSource =>
    rule.matches facts ipMatchSource || anyMatches rules facts ipMatchSource

/-- Whether one of the rule-sets matches with the conditions of the rule naming it. -/
def anyMatchesWith : List (List Condition) → Groups → Facts → Bool → Bool
  | [], _, _, _ => false
  | rules :: sets, outer, facts, ipMatchSource =>
    (match mergeable rules with
      | some items =>
        (evaluate items facts ipMatchSource).any fun groups => (outer.merge groups).done
      | none => outer.done && anyMatches rules facts ipMatchSource) ||
    anyMatchesWith sets outer facts ipMatchSource

end

/-! ### What the conditions need -/

structure Needs where
  ip : Bool := false
  domain : Bool := false
  sniff : Bool := false
  network : Bool := false
  owner : Bool := false
  process : Bool := false

namespace Needs

def or (needs other : Needs) : Needs :=
  { ip := needs.ip || other.ip
    domain := needs.domain || other.domain
    sniff := needs.sniff || other.sniff
    network := needs.network || other.network
    owner := needs.owner || other.owner
    process := needs.process || other.process }

def resolving (needs : Needs) (noResolve : Bool) : Needs :=
  { needs with ip := needs.ip && !noResolve }

end Needs

namespace Item

def onLookups : Item → Bool
  | .mmdbs _ | .asns _ | .ipIsPrivate => true
  | _ => false

def onIps : Item → Bool
  | .ipCidr _ | .mmdbs _ | .asns _ | .ipIsPrivate | .ipAcceptAny => true
  | _ => false

def onDomains : Item → Bool
  | .domains _ | .succinct _ | .domainRegex _ => true
  | _ => false

def onSniffed : Item → Bool
  | .protocols _ | .httpUserAgent _ | .urlRegex _ => true
  | _ => false

def onNetwork : Item → Bool
  | .network wanted => wanted.needs
  | _ => false

def onProcess : Item → Bool
  | .processNames _ | .processPaths _ | .processPathRegex _ | .processNameRegex _ => true
  | _ => false

def onOwner : Item → Bool
  | .processNames _ | .processPaths _ | .processPathRegex _ | .processNameRegex _
  | .packageNames _ | .packageNameRegex _ | .processUsers _ | .processUserIds _ => true
  | _ => false

end Item

def itemsNeed (items : List Item) (ipMatchSource : Bool) : Needs :=
  { ip := if ipMatchSource then items.any Item.onLookups else items.any Item.onIps
    domain := items.any Item.onDomains
    sniff := items.any Item.onSniffed
    network := items.any Item.onNetwork
    owner := items.any Item.onOwner
    process := items.any Item.onProcess }

-- The needs of several rules are put together with `or`, in whatever order.
mutual

def Condition.needs : Condition → Bool → Needs
  | .default own ruleSets, ipMatchSource =>
    ((itemsNeed own.items ipMatchSource).or (setsNeed ruleSets own.ipMatchSource)).resolving
      own.noResolve
  | .logical _ rules _ noResolve _, ipMatchSource =>
    (rulesNeed rules ipMatchSource).resolving noResolve

def rulesNeed : List Condition → Bool → Needs
  | [], _ => {}
  | rule :: rules, ipMatchSource =>
    (rule.needs ipMatchSource).or (rulesNeed rules ipMatchSource)

def setsNeed : List (List Condition) → Bool → Needs
  | [], _ => {}
  | rules :: sets, ipMatchSource =>
    (rulesNeed rules ipMatchSource).or (setsNeed sets ipMatchSource)

end

end Sail.App.Router
