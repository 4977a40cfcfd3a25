import Mathlib.Data.List.Infix
import Xhttp.Routing.Rule

/- How rules are matched (`RouteContext`, `CompiledRule::matches` and its siblings, and
   `Router::next_action` and `next_action_lazy` in `src/routing.rs`).

   The four ways of matching a rule are readings of one condition: `matches` asks about the
   whole context, `domain_fields_match` and `dns_matches_domain` about a domain only, and
   `dns_matches_address` about one address and perhaps a domain. They share how logical rules,
   rule-sets and inversion are treated, which is `Condition.eval`. -/
namespace Xhttp.Routing
open Xhttp.Lib Vless

structure RouteContext where
  domain : Option Str := none
  destinationIp : Option IpAddr := none
  destinationIps : List IpAddr := []
  destinationPort : Option UInt16 := none
  sourceIp : Option IpAddr := none
  sourcePort : Option UInt16 := none
  network : Option Str := none
  protocol : Option Str := none
  client : Option Str := none
  inbound : Option Str := none
  authUser : Option Str := none
  processName : Option Str := none
  processPath : Option Str := none
  packageName : Option Str := none
  user : Option Str := none
  userId : Option UInt32 := none
  clashMode : Option Str := none
  networkType : Option Str := none
  networkIsExpensive : Bool := false
  networkIsConstrained : Bool := false
  wifiSsid : Option Str := none
  wifiBssid : Option Str := none
  interfaceAddresses : Option (AList (fun _ : Str => List IpAddr)) := none
  networkInterfaceAddresses : Option (AList (fun _ : Str => List IpAddr)) := none
  sourceMacAddress : Option Str := none
  sourceHostname : Option Str := none
  defaultInterfaceAddresses : List IpAddr := []
  preferredBy : List Str := []

def RouteContext.destinationAddresses (c : RouteContext) : List IpAddr := c.destinationIps ++ c.destinationIp.toList

/-! ## Single fields -/

/-- A list of expected values, if there is one, has one that some actual value meets. -/
def meets {α β : Type} (expected : List α) (actual : List β) (test : β → α → Bool) : Bool :=
  expected.isEmpty || actual.any fun v => expected.any (test v)

def eqIgnoreAsciiCase (a b : Str) : Bool := Str.toAsciiLowercase a == Str.toAsciiLowercase b

def matchField (expected : List Str) (actual : Option Str) : Bool := meets expected actual.toList eqIgnoreAsciiCase

/-- The domain is the suffix, or ends with it after a dot. -/
def suffixMatches (domain suffix : Str) : Bool :=
  domain == suffix || (List.isSuffixOf? suffix domain).any (Str.endsWith '.')

def containsKeyword (domain value : Str) : Bool := decide (value <:+: domain)

def versionMatches (ip : IpAddr) (version : UInt8) : Bool :=
  (version == 4 && ip.isIpv4) || (version == 6 && ip.isIpv6)

def portMatches (port : UInt16) (range : UInt16 × UInt16) : Bool := range.1 ≤ port && port ≤ range.2

/-- `is_private`: for IPv4 the private, loopback, link-local and unspecified addresses, for IPv6
    loopback, unspecified, unique local and link-local. -/
def isPrivate : IpAddr → Bool
  | .v4 octets =>
    octets.get 0 == 10 || (octets.get 0 == 172 && octets.get 1 &&& 0xf0 == 16) ||
      (octets.get 0 == 192 && octets.get 1 == 168) || octets.get 0 == 127 ||
      (octets.get 0 == 169 && octets.get 1 == 254) ||
      octets.toList == [0, 0, 0, 0]
  | .v6 octets =>
    octets.toList == List.replicate 15 0 ++ [1] || octets.toList == List.replicate 16 0 ||
      octets.get 0 &&& 0xfe == 0xfc || (octets.get 0 == 0xfe && octets.get 1 &&& 0xc0 == 0x80)

def addressMapMatches (expected : AList (fun _ : Str => List IpNet))
    (actual : Option (AList (fun _ : Str => List IpAddr))) : Bool :=
  expected.entries.isEmpty || actual.any fun actual =>
    expected.entries.any fun entry =>
      (actual.lookup entry.1).any fun addresses => addresses.any fun ip => entry.2.any fun n => n.contains ip

def clashModeMatches : Option Str → Option Str → Bool
  | none, _ => true
  | some expected, some actual => eqIgnoreAsciiCase expected actual
  | some _, none => false

/-! ## All fields -/

def RuleFields.domainMatches (f : RuleFields) (domain : Option Str) : Bool :=
  meets f.domains domain.toList (fun d s => s == d) &&
  meets f.suffixes domain.toList suffixMatches &&
  meets f.keywords domain.toList containsKeyword &&
  meets f.regexes domain.toList fun d regex => regex d

def RuleFields.addressMatches (f : RuleFields) (addresses : List IpAddr) : Bool :=
  meets f.cidrs addresses (fun ip n => n.contains ip) &&
  meets f.ipVersions addresses versionMatches &&
  (!f.ipPrivate || addresses.any isPrivate)

def RuleFields.metadataMatches (f : RuleFields) (c : RouteContext) : Bool :=
  meets f.sourceCidrs c.sourceIp.toList (fun ip n => n.contains ip) &&
  (!f.sourcePrivate || c.sourceIp.any isPrivate) &&
  meets f.sourcePorts c.sourcePort.toList portMatches &&
  meets f.ports c.destinationPort.toList portMatches &&
  matchField f.networks c.network &&
  matchField f.protocols c.protocol &&
  matchField f.clients c.client &&
  meets f.inbounds c.inbound.toList (fun v x => x == v) &&
  matchField f.authUsers c.authUser &&
  matchField f.processNames c.processName &&
  meets f.processPaths c.processPath.toList (fun v x => x == v) &&
  meets f.processPathRegexes c.processPath.toList (fun v regex => regex v) &&
  matchField f.packageNames c.packageName &&
  meets f.packageNameRegexes c.packageName.toList (fun v regex => regex v) &&
  matchField f.users c.user &&
  meets f.userIds c.userId.toList (fun v x => x == v) &&
  clashModeMatches f.clashMode c.clashMode &&
  matchField f.networkTypes c.networkType &&
  (!f.networkIsExpensive || c.networkIsExpensive) &&
  (!f.networkIsConstrained || c.networkIsConstrained) &&
  matchField f.wifiSsids c.wifiSsid &&
  matchField f.wifiBssids c.wifiBssid &&
  addressMapMatches f.interfaceAddresses c.interfaceAddresses &&
  addressMapMatches f.networkInterfaceAddresses c.networkInterfaceAddresses &&
  matchField f.sourceMacAddresses c.sourceMacAddress &&
  matchField f.sourceHostnames c.sourceHostname &&
  meets f.defaultInterfaceAddresses c.defaultInterfaceAddresses (fun ip n => n.contains ip) &&
  meets f.preferredBy c.preferredBy fun tag x => x == tag

/-! ## Rules -/

/-- `matches`: a rule-set may be matched with the source address in place of the destination. -/
def matching (domain : Option Str) : Condition.Reading RuleFields RouteContext where
  own c f := f.domainMatches domain && f.addressMatches c.destinationAddresses && f.metadataMatches c
  down c f := if f.ruleSetIpCidrMatchSource then { c with destinationIp := c.sourceIp } else c
  inverted f := f.invert

def matchingDomain : Condition.Reading RuleFields Str where
  own domain f := f.domainMatches (some domain)
  down domain _ := domain
  inverted f := f.invert

def matchingAddress (domain : Option Str) : Condition.Reading RuleFields IpAddr where
  own address f := (domain.isNone || f.domainMatches domain) && f.addressMatches [address]
  down address _ := address
  inverted f := f.invert

def CompiledRule.matches (rule : CompiledRule) (c : RouteContext) (domain : Option Str) : Bool :=
  Condition.eval (matching domain) c rule

def CompiledRule.domainFieldsMatch (rule : CompiledRule) : Option Str → Bool
  | none => false
  | some domain => Condition.eval matchingDomain domain rule

def CompiledRule.dnsMatchesDomain (rule : CompiledRule) (domain : Str) : Bool :=
  Condition.eval matchingDomain domain rule

def CompiledRule.dnsMatchesAddress (rule : CompiledRule) (address : IpAddr) (domain : Option Str) : Bool :=
  Condition.eval (matchingAddress domain) address rule

def CompiledRule.dnsContainsIpCidr (rule : CompiledRule) : Bool := rule.tests.any fun f => !f.cidrs.isEmpty

/-! ## Routers -/

def Router.route (router : Router) (c : RouteContext) : RouteDecision :=
  let domain := c.domain.map normalizeDomain
  let decision := (router.rules.filter fun rule => CompiledRule.matches rule c domain).findSome? fun rule =>
    match rule.own.action with
    | .route decision _ => some decision
    | _ => none
  decision.getD (.outbound router.finalOutbound)

/-- The first rule from `start` on that matches, and its index. -/
def Router.nextAction (router : Router) (c : RouteContext) (start : Nat) : Option (Nat × RuleAction) :=
  let domain := c.domain.map normalizeDomain
  ((router.rules.zipIdx.drop start).find? fun entry => CompiledRule.matches entry.1 c domain).map fun entry =>
    (entry.2, entry.1.own.action)

inductive ActionLookup where
  | action (index : Nat) (action : RuleAction)
  | needResolve (index : Nat)
  | none
  deriving DecidableEq, Repr

/-- The loop of `next_action_lazy`, over the rules that are left. -/
def nextActionLazyLoop (c : RouteContext) (domain : Option Str) (needsIp : Bool) :
    List (CompiledRule × Nat) → ActionLookup
  | [] => .none
  | (rule, index) :: rest =>
    if CompiledRule.matches rule c domain then .action index rule.own.action
    else if needsIp && rule.own.requiresDestinationIp && CompiledRule.domainFieldsMatch rule domain then
      .needResolve index
    else nextActionLazyLoop c domain needsIp rest

def Router.nextActionLazy (router : Router) (c : RouteContext) (start : Nat) : ActionLookup :=
  let needsIp := c.destinationAddresses.isEmpty && c.domain.isSome
  nextActionLazyLoop c (c.domain.map normalizeDomain) needsIp (router.rules.zipIdx.drop start)

end Xhttp.Routing
