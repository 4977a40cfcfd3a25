import Xhttp.Dns.Record
import Xhttp.Routing.Matching

/- DNS rules (`DnsRule` in `src/singbox.rs`, `CompiledDnsRule` in `src/dns/message.rs`): the check of a
   configured rule, its compilation, the queries it matches, and the limit that its rule-sets put on
   the addresses of a response.

   A compiled rule is a condition whose tests are the fields of a rule; its rule-sets are looked up
   by tag when it is used. Two readings of it are used: `dnsMatching` on a query, and
   `limitMatching` on the addresses of a response.

   Left out are the fields of a rule that no function reads. -/
namespace Xhttp.Dns
open Xhttp.Lib Xhttp.Routing Vless Checked

/-! ## Configuration -/

/-- The fields of a `DnsRule` other than the nested rules. -/
structure DnsItems where
  type : Str := []
  mode : Option Str := none
  queryType : List JsonValue := []
  domain : List Str := []
  domainSuffix : List Str := []
  domainKeyword : List Str := []
  domainRegex : List Str := []
  ruleSet : List Str := []
  server : Option Str := none
  action : Option Str := none
  invert : Bool := false
  strategy : Option Str := none
  disableCache : Bool := false
  rewriteTtl : Option UInt32 := none
  timeout : Option Str := none
  clientSubnet : Option Str := none
  method : Option Str := none
  rcode : Option JsonValue := none
  answer : List Str := []
  ns : List Str := []
  extra : List Str := []

inductive DnsRule where
  | mk (items : DnsItems) (rules : List DnsRule)

/-- The records of a predefined rule, in the order they are answered. -/
def DnsItems.records (items : DnsItems) : List Str := items.answer ++ items.ns ++ items.extra

def queryTypeNames : List (Str × UInt16) :=
  [("A", 1), ("NS", 2), ("CNAME", 5), ("SOA", 6), ("PTR", 12), ("MX", 15),
    ("TXT", 16), ("AAAA", 28), ("SRV", 33), ("OPT", 41), ("SVCB", 64), ("HTTPS", 65),
    ("CAA", 257)]

def parseQueryType : JsonValue → Except Failure UInt16
  | .u64 n =>
    if n.toNat < 2 ^ 16 then .ok (UInt16.ofNat n.toNat) else .error (.message "DNS query_type number exceeds 65535")
  | .str s =>
    match Str.parseUnsigned (2 ^ 16) s with
    | some n => .ok (UInt16.ofNat n)
    | none =>
      okOr (queryTypeNames.lookup (Str.toAsciiUppercase s))
        (.message ("unsupported DNS query_type name: " ++ String.ofList s))
  | .other => .error (.message "DNS query_type must be a number or string")

def validateStrategy (strategy : Option Str) : Except Failure Unit :=
  bailIf (¬ [none, some [], some "prefer_ipv4".toList, some "prefer_ipv6".toList, some "ipv4_only".toList,
      some "ipv6_only".toList].contains strategy)
    ("unsupported DNS strategy: " ++ String.ofList (strategy.getD []))

/-- What the crates and `str::parse` give. -/
structure DnsCrates extends Parsers where
  regex : Str → Option Regex

section
variable (crates : DnsCrates)

def checkRegex (value : Str) : Except Failure Regex :=
  okOr (crates.regex value) (.message ("invalid DNS domain_regex: " ++ String.ofList value))

/-- The records and the response code of a predefined rule can be read. -/
def validatePredefined (items : DnsItems) : Except Failure Unit :=
  if items.action = some "predefined".toList then do
    let _ ← parseRcode items.rcode
    let _ ← items.records.mapM (parseDnsRecord crates.toParsers)
    pure ()
  else .ok ()

/-- The checks of a rule that do not depend on its nested rules. -/
def validateItems (items : DnsItems) (topLevel : Bool) : Except Failure Unit := do
  let _ ← items.domainRegex.mapM (checkRegex crates)
  let _ ← items.queryType.mapM parseQueryType
  bailIf (topLevel = false ∧ items.action.getD [] ≠ []) "nested logical DNS rules cannot contain actions"
  bailIf (¬ [none, some [], some "route".toList, some "reject".toList, some "predefined".toList].contains items.action)
    ("unsupported DNS rule action: " ++ String.ofList (items.action.getD []))
  validatePredefined crates items
  bailIf (items.action = some "reject".toList ∧
      ¬ [none, some [], some "default".toList, some "drop".toList].contains items.method)
    ("unsupported DNS reject method: " ++ String.ofList (items.method.getD []))
  let _ ← items.clientSubnet.mapM (parseClientSubnet crates.toParsers)
  validateStrategy items.strategy

mutual

def validateDnsRule (topLevel : Bool) : DnsRule → Except Failure Unit
  | .mk items rules => do
    let nested : Except Failure Unit :=
      if items.type = "logical" then do
        bailIf (¬ [some "and".toList, some "or".toList].contains items.mode) "logical DNS rule requires mode and/or"
        bailIf (rules.isEmpty = true) "logical DNS rule requires nested rules"
        validateNested rules
      else
        bailIf (¬ [[], "default"].contains items.type) ("unsupported DNS rule type: " ++ String.ofList items.type)
    nested
    validateItems crates items topLevel

def validateNested : List DnsRule → Except Failure Unit
  | [] => .ok ()
  | rule :: rules => do
    validateDnsRule false rule
    validateNested rules

end

/-! ## Compiled rules -/

/-- The fields of a `CompiledDnsRule` other than its logical mode and the nested rules. -/
structure DnsFields where
  raw : DnsItems
  queryType : List UInt16
  domains : List Str
  suffixes : List Str
  keywords : List Str
  regexes : List Regex

abbrev CompiledDnsRule := Condition DnsFields

def compileDnsFields (items : DnsItems) : Except Failure DnsFields := do
  let queryType ← items.queryType.mapM parseQueryType
  let regexes ← items.domainRegex.mapM (checkRegex crates)
  pure { raw := items, queryType, domains := items.domain.map normalize, suffixes := items.domainSuffix.map normalize,
         keywords := items.domainKeyword.map Str.toAsciiLowercase, regexes }

def dnsLogicalMode (mode : Option Str) : Except Failure Condition.Mode :=
  let mode := mode.getD "and"
  if mode = "and" then .ok .and
  else if mode = "or" then .ok .or
  else .error (.message "unsupported logical DNS mode")

mutual

def compileDnsRule : DnsRule → Except Failure CompiledDnsRule
  | .mk items rules => do
    let fields ← compileDnsFields crates items
    if items.type = "logical" then
      let mode ← dnsLogicalMode items.mode
      let nested ← compileDnsRules rules
      pure (.node fields (some mode) nested [])
    else pure (.node fields none [] [])

def compileDnsRules : List DnsRule → Except Failure (List CompiledDnsRule)
  | [] => .ok []
  | rule :: rules => do
    let compiled ← compileDnsRule rule
    let rest ← compileDnsRules rules
    pure (compiled :: rest)

end

theorem compileDnsRule_raw {items : DnsItems} {rules : List DnsRule} {compiled : CompiledDnsRule}
    (h : compileDnsRule crates (.mk items rules) = .ok compiled) : compiled.own.raw = items := by
  obtain ⟨fields, hfields, h⟩ := bind_ok_iff.mp h
  have hraw : fields.raw = items := by
    obtain ⟨_, -, hfields⟩ := bind_ok_iff.mp hfields
    obtain ⟨_, -, hfields⟩ := bind_ok_iff.mp hfields
    cases hfields
    rfl
  split at h
  · obtain ⟨_, -, h⟩ := bind_ok_iff.mp h
    obtain ⟨_, -, h⟩ := bind_ok_iff.mp h
    cases h
    exact hraw
  · cases h
    exact hraw

theorem validateDnsRule_predefined {items : DnsItems} {rules : List DnsRule} {topLevel : Bool}
    (h : validateDnsRule crates topLevel (.mk items rules) = .ok ())
    (haction : items.action = some "predefined".toList) :
    ∃ rcode records, parseRcode items.rcode = .ok rcode ∧
      items.records.mapM (parseDnsRecord crates.toParsers) = .ok records := by
  obtain ⟨-, -, h⟩ := bind_ok_iff.mp h
  rw [validateItems] at h
  simp only [bind_ok_iff] at h
  obtain ⟨_, -, _, -, _, -, _, -, _, hpredefined, -⟩ := h
  rw [validatePredefined, if_pos haction] at hpredefined
  simp only [bind_ok_iff] at hpredefined
  obtain ⟨rcode, hrcode, records, hrecords, -⟩ := hpredefined
  exact ⟨rcode, records, hrcode, hrecords⟩

end

/-! ## Matching -/

/-- Some rule of the rule-sets with these tags has the property. -/
def anyTagged (ruleSets : CompiledRuleSetMap) (tags : List Str) (p : CompiledRule → Bool) : Bool :=
  tags.any fun tag => (ruleSets.lookup tag).any fun rules => rules.any p

def dnsFieldsMatch (ruleSets : Option CompiledRuleSetMap) (query : Str × UInt16) (fields : DnsFields) : Bool :=
  let (name, qtype) := query
  let queryType := fields.queryType.isEmpty || fields.queryType.contains qtype
  let exact := fields.domains.isEmpty || fields.domains.contains name
  let suffix := fields.suffixes.isEmpty || fields.suffixes.any (suffixMatches name)
  let keyword := fields.keywords.isEmpty || fields.keywords.any (containsKeyword name)
  let regex := fields.regexes.isEmpty || fields.regexes.any fun r => r name
  let ruleSet := fields.raw.ruleSet.isEmpty || ruleSets.any fun sets =>
    anyTagged sets fields.raw.ruleSet fun rule => rule.dnsMatchesDomain name || rule.dnsContainsIpCidr
  queryType && exact && suffix && keyword && regex && ruleSet

def dnsMatching (ruleSets : Option CompiledRuleSetMap) : Condition.Reading DnsFields (Str × UInt16) where
  own := dnsFieldsMatch ruleSets
  down := fun query _ => query
  inverted := fun fields => fields.raw.invert

def dnsRuleMatches (ruleSets : Option CompiledRuleSetMap) (rule : CompiledDnsRule) (name : Str)
    (qtype : UInt16) : Bool :=
  Condition.eval (dnsMatching ruleSets) (name, qtype) rule

mutual

def dnsRuleHasAddressLimit (ruleSets : Option CompiledRuleSetMap) : CompiledDnsRule → Bool
  | .node fields mode nested _ =>
    if mode.isSome then anyHasAddressLimit ruleSets nested
    else ruleSets.any fun sets => anyTagged sets fields.raw.ruleSet CompiledRule.dnsContainsIpCidr

def anyHasAddressLimit (ruleSets : Option CompiledRuleSetMap) : List CompiledDnsRule → Bool
  | [] => false
  | rule :: rules => dnsRuleHasAddressLimit ruleSets rule || anyHasAddressLimit ruleSets rules

end

/-- Some address is one that a rule of the rule-sets matches. -/
def limitFieldsMatch (ruleSets : Option CompiledRuleSetMap) (response : Str × List IpAddr)
    (fields : DnsFields) : Bool :=
  ruleSets.all fun sets =>
    anyTagged sets fields.raw.ruleSet fun rule =>
      response.2.any fun address => rule.dnsMatchesAddress address (some response.1)

def limitMatching (ruleSets : Option CompiledRuleSetMap) : Condition.Reading DnsFields (Str × List IpAddr) where
  own := limitFieldsMatch ruleSets
  down := fun response _ => response
  inverted := fun fields => fields.raw.invert

def dnsRuleAddressLimitMatches (ruleSets : Option CompiledRuleSetMap) (rule : CompiledDnsRule) (name : Str)
    (addresses : List IpAddr) : Bool :=
  Condition.eval (limitMatching ruleSets) (name, addresses) rule

end Xhttp.Dns
