import Xhttp.Dns.Cache
import Xhttp.Dns.Rule

/- The calls of the resolver (`DnsResolver` in `src/dns/mod.rs`): `exchange` of a message and the lookup of
   the addresses of a name.

   A call is answered by a rule at once, or it is forwarded: it is given a key, `load` makes a value
   of what an upstream sends, and `finish` makes the answer of the value, be it loaded for this
   call or taken from the cache. The three parts are functions of what the call is given; how calls
   share the cache is modelled over them in `Answers`.

   What comes from outside is an `Outcome`: the id that is drawn, what `lookup_host` finds, and what
   `server.query` returns within its timeout. -/
namespace Xhttp.Dns
open Xhttp.Lib Xhttp.Routing Vless Checked

/-! ## Options -/

/-- The units of a duration, in nanoseconds. -/
def durationUnits : List (Str × Nat) :=
  [("ms", 1000000), ("s", 1000000000), ("m", 60000000000), ("h", 3600000000000)]

def parseDuration (value : Str) : Except Failure Nat := do
  let (number, multiplier) ← okOr
    (durationUnits.findSome? fun unit => (List.isSuffixOf? unit.1 value).map (·, unit.2))
    (.message ("invalid duration: " ++ String.ofList value))
  let count ← okOr (Str.parseUnsigned (2 ^ 32) number) (.message "parse duration")
  pure (multiplier * count)

/-- `parse_duration_lenient` of a value that is there. -/
def parseDurationLenient (value : Str) : Nat := (parseDuration value).toOption.getD 300000000

structure LookupOptions where
  server : Option Str := none
  disableCache : Bool := false
  rewriteTtl : Option UInt32 := none
  timeout : Option Nat := none
  strategy : Option Str := none
  clientSubnet : Option Str := none
  deriving DecidableEq, Repr

structure DnsResolver where
  /-- The types of the servers, by tag. -/
  servers : AList (fun _ : Str => Str)
  rules : List CompiledDnsRule
  finalTag : Str
  cacheEnabled : Bool := true
  strategy : Option Str := none
  clientSubnet : Option Str := none

structure Outcome where
  id : UInt16
  host : Except Failure (List IpAddr)
  upstream : Except Failure Bytes

/-- A TTL in seconds as the time to live of an entry. -/
def cacheTtl (ttl : UInt32) : Nat := max 1 (min ttl.toNat 86400) * 1000000000

/-- What the rule of a call says, if it has one. -/
def ruleItem {α : Type} (rule : Option CompiledDnsRule) (field : DnsItems → Option α) : Option α :=
  rule.bind fun rule => field rule.own.raw

section
variable (r : DnsResolver) (parsers : Parsers) (ruleSets : Option CompiledRuleSetMap)

def DnsResolver.selectRule (name : Str) (qtype : UInt16) : Option CompiledDnsRule :=
  r.rules.find? fun rule => dnsRuleMatches ruleSets rule name qtype

def DnsResolver.server (tag : Str) : Except Failure Str :=
  okOr (r.servers.lookup tag) (.message ("unknown DNS server: " ++ String.ofList tag))

def DnsResolver.selectServer (name : Str) (qtype : UInt16) : Except Failure Str :=
  r.server ((ruleItem (r.selectRule ruleSets name qtype) DnsItems.server).getD r.finalTag)

/-! ## Exchange -/

structure Exchange where
  requestId : UInt16
  question : Question
  rule : Option CompiledDnsRule
  serverTag : Str
  serverType : Str
  wire : Bytes

/-- The message that a predefined rule answers with. -/
def predefinedMessage (items : DnsItems) (request : Bytes) (questionEnd : Nat) : Except Failure Bytes := do
  let rcode ← parseRcode items.rcode
  let records ← items.records.mapM (parseDnsRecord parsers)
  predefinedResponse request questionEnd rcode records

/-- The query that is sent: the request, with the client subnet if there is one. -/
def DnsResolver.exchangeWire (request : Bytes) (rule : Option CompiledDnsRule) : Except Failure Bytes :=
  match (ruleItem rule DnsItems.clientSubnet).or r.clientSubnet with
  | some subnet => addClientSubnet parsers request subnet
  | none => .ok request

def DnsResolver.exchangeForward (request : Bytes) (question : Question) (requestId : UInt16)
    (rule : Option CompiledDnsRule) : Except Failure Exchange := do
  let serverTag := (ruleItem rule DnsItems.server).getD r.finalTag
  let serverType ← r.server serverTag
  let wire ← r.exchangeWire parsers request rule
  pure { requestId, question, rule, serverTag, serverType, wire }

/-- `exchange` up to the cache: an answer, or a call that is forwarded. -/
def DnsResolver.exchangeStart (request : Bytes) : Except Failure (Bytes ⊕ Exchange) := do
  let question ← parseQuestion request
  let requestId ← dnsId request
  let rule := r.selectRule ruleSets question.name question.qtype
  match rule, ruleItem rule DnsItems.action with
  | some rule, some action =>
    if action = "reject" then
      if rule.own.raw.method = some "drop".toList then .error (.message "DNS query dropped by rule")
      else (refusedResponse request question.questionEnd).map .inl
    else if action = "predefined" then
      (predefinedMessage parsers rule.own.raw request question.questionEnd).map .inl
    else (r.exchangeForward parsers request question requestId rule).map .inr
  | _, _ => (r.exchangeForward parsers request question requestId rule).map .inr

def Exchange.key (x : Exchange) : CacheKey := .wire (canonicalQuery x.wire) x.serverTag

def Exchange.disableCache (x : Exchange) : Bool := x.rule.any fun rule => rule.own.raw.disableCache

/-- The response that is cached. -/
def Exchange.receive (x : Exchange) (o : Outcome) : Except Failure Bytes :=
  if x.serverType = "local" then do
    let found ← o.host
    localResponse x.wire x.question.qtype x.question.questionEnd found
  else do
    let _ ← (ruleItem x.rule DnsItems.timeout).mapM parseDuration
    o.upstream

/-- The TTLs of the response, as the rule wants them. -/
def Exchange.rewritten (x : Exchange) (response : Bytes) : Bytes :=
  match ruleItem x.rule DnsItems.rewriteTtl with
  | some ttl => rewriteResponseTtls response ttl
  | none => response

def Exchange.load (x : Exchange) (o : Outcome) : Except Failure (CacheValue × Nat) := do
  let response ← x.receive o
  validateResponse x.requestId response
  let response := x.rewritten response
  let flags ← index response 3
  let ttl := if flags &&& 0x0f = 0 ∨ flags &&& 0x0f = 3 then cacheTtl (responseTtl response) else 0
  pure (.wire (overwrite response 0 [0, 0]), ttl)

theorem Exchange.rewritten_length (x : Exchange) (response : Bytes) :
    (x.rewritten response).length = response.length := by
  unfold Exchange.rewritten
  split
  · exact overwriteTtls_length _ _
  · rfl

def Exchange.finish (x : Exchange) : CacheValue → Except Failure Bytes
  | .wire response =>
    if 2 ≤ response.length then .ok (overwrite response 0 (beU16 x.requestId)) else .error .panic
  | .addresses _ => .error (.message "invalid DNS wire cache entry")

/-! ## Lookup -/

structure Lookup where
  name : Str
  qtype : UInt16
  rule : Option CompiledDnsRule
  serverTag : Option Str
  clientSubnet : Option Str
  rewriteTtl : Option UInt32
  disableCache : Bool

def DnsResolver.lookupForward (name : Str) (qtype : UInt16) (options : LookupOptions) (rule : Option CompiledDnsRule) :
    Except Failure Lookup := do
  let clientSubnet := (options.clientSubnet.or (ruleItem rule DnsItems.clientSubnet)).or r.clientSubnet
  let _ ← clientSubnet.mapM (parseClientSubnet parsers)
  -- the rule's timeout is read even if the options have one
  let _ ← (ruleItem rule DnsItems.timeout).mapM parseDuration
  pure
    { name, qtype, rule, clientSubnet
      serverTag := options.server.or (ruleItem rule DnsItems.server)
      rewriteTtl := options.rewriteTtl.or (ruleItem rule DnsItems.rewriteTtl)
      disableCache := options.disableCache || rule.any fun rule => rule.own.raw.disableCache }

/-- `lookup_type` up to the cache. -/
def DnsResolver.lookupStart (name : Str) (qtype : UInt16) (options : LookupOptions) :
    Except Failure (List IpAddr ⊕ Lookup) :=
  let rule := if options.server = none then r.selectRule ruleSets name qtype else none
  match rule, ruleItem rule DnsItems.action with
  | some rule, some action =>
    if action = "reject" then .error (.message "DNS lookup rejected by rule")
    else if action = "predefined" then
      (predefinedLookup parsers qtype rule.own.raw.rcode rule.own.raw.records).map .inl
    else (r.lookupForward parsers name qtype options rule).map .inr
  | _, _ => (r.lookupForward parsers name qtype options rule).map .inr

def Lookup.key (l : Lookup) : CacheKey := .lookup l.name l.qtype l.serverTag l.clientSubnet

/-- The type of the server that the lookup is sent to. -/
def Lookup.serverType (l : Lookup) : Except Failure Str :=
  match l.serverTag with
  | some tag => r.server tag
  | none => r.selectServer ruleSets l.name l.qtype

def Lookup.load (l : Lookup) (o : Outcome) : Except Failure (CacheValue × Nat) := do
  let serverType ← l.serverType r ruleSets
  if serverType = "local" then
    let found ← o.host
    pure (.addresses (ofType l.qtype found), cacheTtl (l.rewriteTtl.getD 30))
  else
    let _request ← buildQueryWithSubnet parsers o.id l.name l.qtype l.clientSubnet
    let response ← o.upstream
    let (addresses, ttl) ← parseResponse o.id l.qtype response
    pure (.addresses addresses, cacheTtl (l.rewriteTtl.getD ttl))

def Lookup.finish (l : Lookup) : CacheValue → Except Failure (List IpAddr)
  | .wire _ => .error (.message "invalid DNS address cache entry")
  | .addresses addresses =>
    match l.rule with
    | none => .ok addresses
    | some rule =>
      if dnsRuleHasAddressLimit ruleSets rule = true ∧
          dnsRuleAddressLimitMatches ruleSets rule l.name addresses = false then
        .error (.message ("DNS response rejected by rule-set address limit for " ++ String.ofList l.name))
      else .ok addresses

/-- The strategy of a lookup: of the options, of the rule for A or else for AAAA, or of the resolver. -/
def DnsResolver.lookupStrategy (name : Str) (options : LookupOptions) : Option Str :=
  let rule := (r.selectRule ruleSets name 1).or (r.selectRule ruleSets name 28)
  (options.strategy.or (ruleItem rule DnsItems.strategy)).or r.strategy

/-- `lookup_with_options`, given what `lookup_type` returns for each type that is asked for. -/
def DnsResolver.lookupWithOptions (domain : Str) (options : LookupOptions)
    (lookupType : UInt16 → Except Failure (List IpAddr)) : Except Failure (List IpAddr) := do
  let name := normalize domain
  let strategy := r.lookupStrategy ruleSets name options
  validateStrategy strategy
  let a := if strategy = some "ipv6_only".toList then .ok [] else lookupType 1
  let aaaa := if strategy = some "ipv4_only".toList then .ok [] else lookupType 28
  let result := sortDedup (a.toOption.getD [] ++ aaaa.toOption.getD [])
  let result :=
    if strategy = some "prefer_ipv4".toList then result.filter IpAddr.isIpv4 ++ result.filter IpAddr.isIpv6
    else if strategy = some "prefer_ipv6".toList then result.filter IpAddr.isIpv6 ++ result.filter IpAddr.isIpv4
    else result
  bailIf (result = []) ("DNS returned no addresses for " ++ String.ofList name)
  pure result

end

/-! ## Calls -/

inductive DnsCall where
  | exchange (request : Bytes)
  | lookup (name : Str) (qtype : UInt16) (options : LookupOptions)

inductive Forward where
  | exchange (x : Exchange)
  | lookup (l : Lookup)

inductive Answer where
  | message (m : Bytes)
  | addresses (addresses : List IpAddr)

def Forward.key : Forward → CacheKey
  | .exchange x => x.key
  | .lookup l => l.key

def Forward.disableCache : Forward → Bool
  | .exchange x => x.disableCache
  | .lookup l => l.disableCache

def Forward.load (r : DnsResolver) (parsers : Parsers) (ruleSets : Option CompiledRuleSetMap) (o : Outcome) :
    Forward → Except Failure (CacheValue × Nat)
  | .exchange x => x.load o
  | .lookup l => l.load r parsers ruleSets o

def Forward.finish (ruleSets : Option CompiledRuleSetMap) (value : CacheValue) : Forward → Except Failure Answer
  | .exchange x => (x.finish value).map .message
  | .lookup l => (l.finish ruleSets value).map .addresses

def DnsResolver.start (r : DnsResolver) (parsers : Parsers) (ruleSets : Option CompiledRuleSetMap) :
    DnsCall → Except Failure (Answer ⊕ Forward)
  | .exchange request => (r.exchangeStart parsers ruleSets request).map (Sum.map .message .exchange)
  | .lookup name qtype options =>
    (r.lookupStart parsers ruleSets name qtype options).map (Sum.map .addresses .lookup)

end Xhttp.Dns
