import Xhttp.Lib.Checked
import Xhttp.Lib.Condition
import Xhttp.Lib.Map
import Xhttp.Net

/- Route rules and their compilation (`RouteRule` in `src/singbox.rs`, `CompiledRule::compile`
   and `Router::compile` in `src/routing.rs`).

   A compiled rule is a `Condition` over `RuleFields`: its nested logical rules are the nested
   conditions, and its rule-sets the sets. What is proved here is what matching relies on: in a
   compiled router every rule, at any depth, has its flag `requires_destination_ip` set if
   it or a rule below it has a condition on the destination address (`Router.compile_flagged`).

   The crates `regex` and `ipnet` are the parameter `Crates`; a compiled expression is the test it
   decides. Reading and decoding a rule-set that is not inline is the parameter `read`. -/
namespace Xhttp.Routing
open Xhttp.Lib List Checked

/-- A compiled `regex::Regex`. -/
abbrev Regex := Str → Bool

/-- `Regex::new`, and `str::parse::<IpNet>`. -/
structure Crates where
  regex : Str → Option Regex
  ipNet : Str → Option IpNet

/-! ## Configuration -/

/-- The fields of a `RouteRule` other than the nested rules. -/
structure RouteItems where
  type : Str := []
  mode : Option Str := none
  domain : List Str := []
  domainSuffix : List Str := []
  domainKeyword : List Str := []
  domainRegex : List Str := []
  geosite : List Str := []
  geoip : List Str := []
  sourceGeoip : List Str := []
  ipCidr : List Str := []
  sourceIpCidr : List Str := []
  ipIsPrivate : Bool := false
  sourceIpIsPrivate : Bool := false
  port : List UInt16 := []
  portRange : List Str := []
  network : List Str := []
  ipVersion : List UInt8 := []
  authUser : List Str := []
  protocol : List Str := []
  client : List Str := []
  inbound : List Str := []
  sourcePort : List UInt16 := []
  sourcePortRange : List Str := []
  processName : List Str := []
  processPath : List Str := []
  processPathRegex : List Str := []
  packageName : List Str := []
  packageNameRegex : List Str := []
  user : List Str := []
  userId : List UInt32 := []
  clashMode : Option Str := none
  networkType : List Str := []
  networkIsExpensive : Bool := false
  networkIsConstrained : Bool := false
  wifiSsid : List Str := []
  wifiBssid : List Str := []
  interfaceAddress : AList (fun _ : Str => List Str) := ∅
  networkInterfaceAddress : AList (fun _ : Str => List Str) := ∅
  defaultInterfaceAddress : List Str := []
  sourceMacAddress : List Str := []
  sourceHostname : List Str := []
  preferredBy : List Str := []
  ruleSet : List Str := []
  ruleSetIpCidrMatchSource : Bool := false
  outbound : Option Str := none
  action : Option Str := none
  invert : Bool := false
  overrideAddress : Option Str := none
  overridePort : Option UInt16 := none
  networkStrategy : Option Str := none
  fallbackDelay : Option Str := none
  udpDisableDomainUnmapping : Bool := false
  udpConnect : Bool := false
  udpTimeout : Option Str := none
  tlsFragment : Bool := false
  tlsFragmentFallbackDelay : Option Str := none
  tlsRecordFragment : Bool := false
  tlsSpoof : Option Str := none
  tlsSpoofMethod : Option Str := none
  sniffer : List Str := []
  timeout : Option Str := none
  server : Option Str := none
  strategy : Option Str := none
  disableCache : Bool := false
  rewriteTtl : Option UInt32 := none
  clientSubnet : Option Str := none
  method : Option Str := none
  noDrop : Bool := false
  bindInterface : Option Str := none
  inet4BindAddress : Option Str := none
  inet6BindAddress : Option Str := none
  routingMark : Option UInt32 := none
  reuseAddr : Bool := false
  connectTimeout : Option Str := none
  tcpFastOpen : Bool := false
  tcpMultiPath : Bool := false
  udpFragment : Option Bool := none
  domainStrategy : Option Str := none

inductive RouteRule where
  | mk (items : RouteItems) (rules : List RouteRule)

def RouteRule.items : RouteRule → RouteItems
  | .mk items _ => items

def RouteRule.rules : RouteRule → List RouteRule
  | .mk _ rules => rules

structure RuleSetConfig where
  type : Str := []
  tag : Str := []
  format : Option Str := none
  path : Option Str := none
  url : Option Str := none
  downloadDetour : Option Str := none
  rules : List RouteRule := []

structure RouteConfig where
  rules : List RouteRule := []
  ruleSet : List RuleSetConfig := []
  finalOutbound : Option Str := none
  defaultInterface : Option Str := none
  defaultMark : Option UInt32 := none
  defaultNetworkStrategy : Option Str := none
  defaultFallbackDelay : Option Str := none
  defaultHttpClient : Option Str := none
  defaultDomainResolver : Option Str := none

/-! ## Actions -/

inductive RouteDecision where
  | outbound (tag : Str)
  | reject
  | hijackDns
  deriving DecidableEq, Repr

structure RouteOptions where
  overrideAddress : Option Str := none
  overridePort : Option UInt16 := none
  networkStrategy : Option Str := none
  fallbackDelay : Option Str := none
  udpDisableDomainUnmapping : Bool := false
  udpConnect : Bool := false
  udpTimeout : Option Str := none
  tlsFragment : Bool := false
  tlsFragmentFallbackDelay : Option Str := none
  tlsRecordFragment : Bool := false
  tlsSpoof : Option Str := none
  tlsSpoofMethod : Option Str := none
  bindInterface : Option Str := none
  inet4BindAddress : Option Str := none
  inet6BindAddress : Option Str := none
  routingMark : Option UInt32 := none
  reuseAddr : Bool := false
  connectTimeout : Option Str := none
  tcpFastOpen : Bool := false
  tcpMultiPath : Bool := false
  udpFragment : Option Bool := none
  domainStrategy : Option Str := none
  rejectMethod : Option Str := none
  rejectNoDrop : Bool := false
  deriving DecidableEq, Repr

/-- `RouteOptions::merge`: what the newer options set, over what is there. -/
def RouteOptions.merge (old newer : RouteOptions) : RouteOptions where
  overrideAddress := newer.overrideAddress.or old.overrideAddress
  overridePort := newer.overridePort.or old.overridePort
  networkStrategy := newer.networkStrategy.or old.networkStrategy
  fallbackDelay := newer.fallbackDelay.or old.fallbackDelay
  udpDisableDomainUnmapping := old.udpDisableDomainUnmapping || newer.udpDisableDomainUnmapping
  udpConnect := old.udpConnect || newer.udpConnect
  udpTimeout := newer.udpTimeout.or old.udpTimeout
  tlsFragment := old.tlsFragment || newer.tlsFragment
  tlsFragmentFallbackDelay := newer.tlsFragmentFallbackDelay.or old.tlsFragmentFallbackDelay
  tlsRecordFragment := old.tlsRecordFragment || newer.tlsRecordFragment
  tlsSpoof := newer.tlsSpoof.or old.tlsSpoof
  tlsSpoofMethod := newer.tlsSpoofMethod.or old.tlsSpoofMethod
  bindInterface := newer.bindInterface.or old.bindInterface
  inet4BindAddress := newer.inet4BindAddress.or old.inet4BindAddress
  inet6BindAddress := newer.inet6BindAddress.or old.inet6BindAddress
  routingMark := newer.routingMark.or old.routingMark
  reuseAddr := old.reuseAddr || newer.reuseAddr
  connectTimeout := newer.connectTimeout.or old.connectTimeout
  tcpFastOpen := old.tcpFastOpen || newer.tcpFastOpen
  tcpMultiPath := old.tcpMultiPath || newer.tcpMultiPath
  udpFragment := newer.udpFragment.or old.udpFragment
  domainStrategy := newer.domainStrategy.or old.domainStrategy
  rejectMethod := newer.rejectMethod.or old.rejectMethod
  rejectNoDrop := old.rejectNoDrop || newer.rejectNoDrop

inductive RuleAction where
  | route (decision : RouteDecision) (options : RouteOptions)
  | routeOptions (options : RouteOptions)
  | sniff (sniffers : List Str) (timeout : Option Str)
  | resolve (server timeout strategy : Option Str) (disableCache : Bool) (rewriteTtl : Option UInt32)
      (clientSubnet : Option Str)
  deriving DecidableEq, Repr

/-! ## Compiled rules -/

/-- The fields of a `CompiledRule` other than its logical mode, the nested rules and the rule-sets. -/
structure RuleFields where
  domains : List Str := []
  suffixes : List Str := []
  keywords : List Str := []
  regexes : List Regex := []
  cidrs : List IpNet := []
  sourceCidrs : List IpNet := []
  ipVersions : List UInt8 := []
  ipPrivate : Bool := false
  sourcePrivate : Bool := false
  /-- The first and the last port of each range. -/
  sourcePorts : List (UInt16 × UInt16) := []
  ports : List (UInt16 × UInt16) := []
  networks : List Str := []
  protocols : List Str := []
  clients : List Str := []
  inbounds : List Str := []
  authUsers : List Str := []
  processNames : List Str := []
  processPaths : List Str := []
  processPathRegexes : List Regex := []
  packageNames : List Str := []
  packageNameRegexes : List Regex := []
  users : List Str := []
  userIds : List UInt32 := []
  clashMode : Option Str := none
  networkTypes : List Str := []
  networkIsExpensive : Bool := false
  networkIsConstrained : Bool := false
  wifiSsids : List Str := []
  wifiBssids : List Str := []
  interfaceAddresses : AList (fun _ : Str => List IpNet) := ∅
  networkInterfaceAddresses : AList (fun _ : Str => List IpNet) := ∅
  sourceMacAddresses : List Str := []
  sourceHostnames : List Str := []
  defaultInterfaceAddresses : List IpNet := []
  preferredBy : List Str := []
  ruleSetIpCidrMatchSource : Bool := false
  action : RuleAction := .route .reject {}
  invert : Bool := false
  requiresDestinationIp : Bool := false

abbrev CompiledRule := Condition RuleFields

abbrev CompiledRuleSetMap := AList (fun _ : Str => List CompiledRule)

/-! ## Compilation -/

def normalizeDomain (value : Str) : Str := Str.toAsciiLowercase (Str.trimEndMatches '.' value)

def lower (values : List Str) : List Str := values.map Str.toAsciiLowercase

/-- The digits of a `u16` that are left, after those that gave `n`. -/
def parseU16Digits : Nat → Str → Except Failure UInt16
  | n, [] => .ok (UInt16.ofNat n)
  | n, c :: s =>
    if ¬ c.isDigit then .error (.message "invalid digit found in string")
    else if 2 ^ 16 ≤ n * 10 + (c.toNat - 48) then .error (.message "number too large to fit in target type")
    else parseU16Digits (n * 10 + (c.toNat - 48)) s

def parseU16 (s : Str) : Except Failure UInt16 :=
  match s with
  | [] => .error (.message "cannot parse integer from empty string")
  | ['+'] => .error (.message "invalid digit found in string")
  | '+' :: digits => parseU16Digits 0 digits
  | digits => parseU16Digits 0 digits

def parsePorts (values : List Str) : Except Failure (List (UInt16 × UInt16)) :=
  values.mapM fun v => do
    let (a, b) := (Str.splitOnce ':' v).getD (v, v)
    let first ← parseU16 a
    let last ← parseU16 b
    pure (first, last)

section
variable (crates : Crates)

def parseNets (values : List Str) : Except Failure (List IpNet) :=
  values.mapM fun v => okOr (crates.ipNet v) (.message ("invalid CIDR " ++ String.ofList v))

def compileDomainRegexes (values : List Str) : Except Failure (List Regex) :=
  values.mapM fun v => okOr (crates.regex v) (.message ("invalid domain regex " ++ String.ofList v))

def compileRegexes (values : List Str) (field : String) : Except Failure (List Regex) :=
  values.mapM fun v =>
    okOr (crates.regex v) (.message ("invalid " ++ field ++ " regular expression " ++ String.ofList v))

/-- The entries in the order of the map; a later entry replaces one of the same key. -/
def compileAddressMap (values : AList (fun _ : Str => List Str)) (field : String) :
    Except Failure (AList (fun _ : Str => List IpNet)) :=
  values.entries.foldlM (fun map entry => do
    let nets ← entry.2.mapM fun v =>
      okOr (crates.ipNet v) (.message ("invalid " ++ field ++ " prefix " ++ String.ofList v))
    pure (map.insert (Str.toAsciiLowercase entry.1) nets)) ∅

end

/-- On Linux. -/
def routeOptions (rule : RouteItems) : Except Failure RouteOptions := do
  bailIf (rule.tlsFragment = true ∧ rule.tlsRecordFragment = true)
    "tls_fragment and tls_record_fragment are mutually exclusive"
  bailIf rule.tlsSpoof.isSome "tls_spoof is not supported by sing-box or xhttp-rs on Linux"
  bailIf (rule.tcpMultiPath = true) "tcp_multi_path is not available on Linux"
  bailIf (rule.action = some "reject".toList ∧
      rule.method ∉ [none, some [], some "drop".toList, some "reply".toList])
    ("unsupported reject method: " ++ String.ofList (rule.method.getD []))
  pure
    { overrideAddress := rule.overrideAddress
      overridePort := rule.overridePort
      networkStrategy := rule.networkStrategy
      fallbackDelay := rule.fallbackDelay
      udpDisableDomainUnmapping := rule.udpDisableDomainUnmapping
      udpConnect := rule.udpConnect
      udpTimeout := rule.udpTimeout
      tlsFragment := rule.tlsFragment
      tlsFragmentFallbackDelay := rule.tlsFragmentFallbackDelay
      tlsRecordFragment := rule.tlsRecordFragment
      tlsSpoof := rule.tlsSpoof
      tlsSpoofMethod := rule.tlsSpoofMethod
      bindInterface := rule.bindInterface
      inet4BindAddress := rule.inet4BindAddress
      inet6BindAddress := rule.inet6BindAddress
      routingMark := rule.routingMark
      reuseAddr := rule.reuseAddr
      connectTimeout := rule.connectTimeout
      tcpFastOpen := rule.tcpFastOpen
      tcpMultiPath := rule.tcpMultiPath
      udpFragment := rule.udpFragment
      domainStrategy := rule.domainStrategy
      rejectMethod := rule.method
      rejectNoDrop := rule.noDrop }

def compileMode (rule : RouteItems) : Except Failure (Option Condition.Mode) :=
  if rule.type = "logical" then
    let mode := rule.mode.getD "and"
    if mode = "and" then .ok (some .and)
    else if mode = "or" then .ok (some .or)
    else .error (.message ("unsupported logical route mode: " ++ String.ofList mode))
  else if rule.type = [] ∨ rule.type = "default" then .ok none
  else .error (.message ("unsupported route rule type: " ++ String.ofList rule.type))

def compileAction (requireDecision : Bool) (rule : RouteItems) : Except Failure RuleAction :=
  if ¬ requireDecision then return .route .reject {}
  else
    match rule.action with
    | none => do
      let tag ← okOr rule.outbound (.message "route rule requires outbound")
      pure (.route (.outbound tag) (← routeOptions rule))
    | some action =>
      if action = "reject" then return .route .reject (← routeOptions rule)
      else if action = "hijack-dns" then return .route .hijackDns {}
      else if action = "direct" then return .route (.outbound "direct") (← routeOptions rule)
      else if action = "bypass" then
        return .route (.outbound (rule.outbound.getD "direct")) (← routeOptions rule)
      else if action = "route" then do
        let tag ← okOr rule.outbound (.message "route rule requires outbound")
        pure (.route (.outbound tag) (← routeOptions rule))
      else if action = "route-options" then return .routeOptions (← routeOptions rule)
      else if action = "sniff" then return .sniff (lower rule.sniffer) rule.timeout
      else if action = "resolve" then
        return .resolve rule.server rule.timeout rule.strategy rule.disableCache rule.rewriteTtl rule.clientSubnet
      else .error (.message ("unsupported route action: " ++ String.ofList action))

/-- The rule itself has a condition on the destination address. -/
def RouteItems.hasAddressCondition (rule : RouteItems) : Bool :=
  !rule.ipCidr.isEmpty || !rule.ipVersion.isEmpty || rule.ipIsPrivate

def compileFields (crates : Crates) (rule : RouteItems) (action : RuleAction) (requiresDestinationIp : Bool) :
    Except Failure RuleFields := do
  let regexes ← compileDomainRegexes crates rule.domainRegex
  let cidrs ← parseNets crates rule.ipCidr
  let sourceCidrs ← parseNets crates rule.sourceIpCidr
  let sourceRanges ← parsePorts rule.sourcePortRange
  let ranges ← parsePorts rule.portRange
  let processPathRegexes ← compileRegexes crates rule.processPathRegex "process path"
  let packageNameRegexes ← compileRegexes crates rule.packageNameRegex "package name"
  let interfaceAddresses ← compileAddressMap crates rule.interfaceAddress "interface_address"
  let networkInterfaceAddresses ←
    compileAddressMap crates rule.networkInterfaceAddress "network_interface_address"
  let defaultInterfaceAddresses ← parseNets crates rule.defaultInterfaceAddress
  pure
    { domains := rule.domain.map normalizeDomain
      suffixes := rule.domainSuffix.map normalizeDomain
      keywords := lower rule.domainKeyword
      regexes
      cidrs
      sourceCidrs
      ipVersions := rule.ipVersion
      ipPrivate := rule.ipIsPrivate
      sourcePrivate := rule.sourceIpIsPrivate
      sourcePorts := rule.sourcePort.map (fun v => (v, v)) ++ sourceRanges
      ports := rule.port.map (fun v => (v, v)) ++ ranges
      networks := lower rule.network
      protocols := lower rule.protocol
      clients := lower rule.client
      inbounds := rule.inbound
      authUsers := rule.authUser
      processNames := lower rule.processName
      processPaths := rule.processPath
      processPathRegexes
      packageNames := lower rule.packageName
      packageNameRegexes
      users := rule.user
      userIds := rule.userId
      clashMode := rule.clashMode.map Str.toAsciiLowercase
      networkTypes := lower rule.networkType
      networkIsExpensive := rule.networkIsExpensive
      networkIsConstrained := rule.networkIsConstrained
      wifiSsids := rule.wifiSsid
      wifiBssids := lower rule.wifiBssid
      interfaceAddresses
      networkInterfaceAddresses
      sourceMacAddresses := lower rule.sourceMacAddress
      sourceHostnames := lower rule.sourceHostname
      defaultInterfaceAddresses
      preferredBy := rule.preferredBy
      ruleSetIpCidrMatchSource := rule.ruleSetIpCidrMatchSource
      action
      invert := rule.invert
      requiresDestinationIp }

mutual

def CompiledRule.compile (crates : Crates) (available : CompiledRuleSetMap) (requireDecision : Bool) :
    RouteRule → Except Failure CompiledRule
  | .mk rule rules => do
    bailIf (rule.geosite ≠ [] ∨ rule.geoip ≠ [] ∨ rule.sourceGeoip ≠ [])
      "legacy geosite/geoip fields require external databases; use source or SRS rule-sets"
    bailIf (rule.preferredBy ≠ []) "preferred_by requires an outbound with preferred-route support"
    let mode ← compileMode rule
    bailIf (mode.isSome ∧ rules.isEmpty) "logical route rule requires nested rules"
    let action ← compileAction requireDecision rule
    let ruleSets ← rule.ruleSet.mapM fun tag =>
      okOr (available.lookup tag) (.message ("unknown route rule-set: " ++ String.ofList tag))
    let logicalRules ← compileAll crates available rules
    let requiresDestinationIp := rule.hasAddressCondition ||
      ruleSets.flatten.any (fun nested => nested.own.requiresDestinationIp) ||
      logicalRules.any fun nested => nested.own.requiresDestinationIp
    let fields ← compileFields crates rule action requiresDestinationIp
    pure (.node fields mode logicalRules ruleSets)

/-- The nested rules, which need no action of their own. -/
def CompiledRule.compileAll (crates : Crates) (available : CompiledRuleSetMap) :
    List RouteRule → Except Failure (List CompiledRule)
  | [] => .ok []
  | rule :: rules => do
    let compiled ← CompiledRule.compile crates available false rule
    pure (compiled :: (← compileAll crates available rules))

end

/-- The rules of a rule-set; `read` gives those of a set that is not inline. -/
def ruleSetRules (read : RuleSetConfig → Except Failure (List RouteRule)) (set : RuleSetConfig) :
    Except Failure (List RouteRule) :=
  if set.type = "inline" then .ok set.rules
  else if [[], "local", "remote"].contains set.type then read set
  else .error (.message ("unsupported route rule-set type: " ++ String.ofList set.type))

def addRuleSet (crates : Crates) (read : RuleSetConfig → Except Failure (List RouteRule))
    (result : CompiledRuleSetMap) (set : RuleSetConfig) : Except Failure CompiledRuleSetMap := do
  bailIf (set.tag = []) "route rule-set tag must not be empty"
  let rules ← ruleSetRules read set
  let compiled ← CompiledRule.compileAll crates ∅ rules
  bailIf (set.tag ∈ result) ("duplicate route rule-set tag: " ++ String.ofList set.tag)
  pure (result.insert set.tag compiled)

def loadRuleSets (crates : Crates) (read : RuleSetConfig → Except Failure (List RouteRule)) (config : RouteConfig) :
    Except Failure CompiledRuleSetMap :=
  config.ruleSet.foldlM (addRuleSet crates read) ∅

structure Router where
  rules : List CompiledRule
  ruleSets : CompiledRuleSetMap
  finalOutbound : Str
  defaultOptions : RouteOptions
  defaultDomainResolver : Option Str

def Router.compile (crates : Crates) (read : RuleSetConfig → Except Failure (List RouteRule)) (config : RouteConfig)
    (defaultOutbound : Str) : Except Failure Router := do
  let ruleSets ← loadRuleSets crates read config
  let rules ← config.rules.mapM (CompiledRule.compile crates ruleSets true)
  pure
    { rules
      ruleSets
      finalOutbound := config.finalOutbound.getD defaultOutbound
      defaultOptions :=
        { bindInterface := config.defaultInterface
          routingMark := config.defaultMark
          networkStrategy := config.defaultNetworkStrategy
          fallbackDelay := config.defaultFallbackDelay }
      defaultDomainResolver := config.defaultDomainResolver.filter (· ≠ []) }

/-! ## Rules that need a destination address -/

def RuleFields.hasAddressCondition (fields : RuleFields) : Bool :=
  !fields.cidrs.isEmpty || !fields.ipVersions.isEmpty || fields.ipPrivate

/-- A rule without the flag has no condition on the destination address, at any depth. -/
def CompiledRule.Flagged (rule : CompiledRule) : Prop :=
  rule.own.requiresDestinationIp = false → ∀ x ∈ rule.tests, x.hasAddressCondition = false

def CompiledRuleSetMap.Flagged (sets : CompiledRuleSetMap) : Prop :=
  ∀ tag rules, sets.lookup tag = some rules → ∀ r ∈ rules, CompiledRule.Flagged r

theorem CompiledRuleSetMap.flagged_empty : CompiledRuleSetMap.Flagged ∅ := by
  intro tag rules h
  cases h

variable {crates : Crates}

theorem compileFields_ok {rule : RouteItems} {action : RuleAction} {flag : Bool}
    {fields : RuleFields} (h : compileFields crates rule action flag = .ok fields) :
    fields.hasAddressCondition = rule.hasAddressCondition ∧ fields.requiresDestinationIp = flag ∧
      fields.action = action := by
  simp only [compileFields, bind_ok_iff] at h
  obtain ⟨regexes, -, cidrs, hcidrs, sourceCidrs, -, sourceRanges, -, ranges, -, processPathRegexes, -,
    packageNameRegexes, -, interfaceAddresses, -, networkInterfaceAddresses, -,
    defaultInterfaceAddresses, -, h⟩ := h
  cases h
  have hlength := (mapM_ok_iff.mp hcidrs).length_eq
  have hempty : cidrs.isEmpty = rule.ipCidr.isEmpty := by
    rw [Bool.eq_iff_iff, isEmpty_iff_length_eq_zero, isEmpty_iff_length_eq_zero, hlength]
  exact ⟨by rw [RuleFields.hasAddressCondition, RouteItems.hasAddressCondition, hempty], rfl, rfl⟩

/-- Below a rule without the flag, no rule has it. -/
theorem CompiledRule.flagged_node {fields : RuleFields} {mode : Option Condition.Mode}
    {nested : List CompiledRule} {sets : List (List CompiledRule)} {own : Bool}
    (hown : fields.hasAddressCondition = own)
    (hflag : fields.requiresDestinationIp = (own || sets.flatten.any (fun r => r.own.requiresDestinationIp) ||
      nested.any fun r => r.own.requiresDestinationIp))
    (hnested : ∀ r ∈ nested, CompiledRule.Flagged r) (hsets : ∀ rs ∈ sets, ∀ r ∈ rs, CompiledRule.Flagged r) :
    CompiledRule.Flagged (.node fields mode nested sets) := by
  intro hfalse x hx
  have hall : own = false ∧ (∀ r ∈ sets.flatten, r.own.requiresDestinationIp = false) ∧
      ∀ r ∈ nested, r.own.requiresDestinationIp = false := by
    have hor := hflag.symm.trans hfalse
    simpa only [Bool.or_eq_false_iff, any_eq_false, Bool.not_eq_true, and_assoc] using hor
  obtain ⟨hno, hinSets, hinNested⟩ := hall
  rw [Condition.tests, Condition.testsAll_eq, Condition.testsSets_eq] at hx
  rcases mem_cons.mp hx with rfl | hx
  · rw [hown, hno]
  · rcases mem_append.mp hx with hx | hx
    · obtain ⟨r, hr, hxr⟩ := mem_flatMap.mp hx
      exact hnested r hr (hinNested r hr) x hxr
    · obtain ⟨r, hr, hxr⟩ := mem_flatMap.mp hx
      obtain ⟨rs, hrs, hmem⟩ := mem_flatten.mp hr
      exact hsets rs hrs r hmem (hinSets r hr) x hxr

section
variable {available : CompiledRuleSetMap}

mutual

theorem CompiledRule.compile_flagged (havailable : CompiledRuleSetMap.Flagged available) :
    ∀ {requireDecision : Bool} (rule : RouteRule) {compiled : CompiledRule},
      CompiledRule.compile crates available requireDecision rule = .ok compiled → compiled.Flagged
  | requireDecision, .mk rule rules, compiled, h => by
    simp only [CompiledRule.compile, bind_ok_iff] at h
    obtain ⟨_, -, _, -, mode, -, _, -, action, -, ruleSets, hsets, logicalRules, hnested, fields, hfields,
      h⟩ := h
    cases h
    obtain ⟨hown, hflag, -⟩ := compileFields_ok hfields
    refine CompiledRule.flagged_node hown hflag (CompiledRule.compileAll_flagged havailable rules hnested) ?_
    intro rs hrs
    obtain ⟨tag, -, htag⟩ := mapM_ok_mem hsets rs hrs
    exact havailable tag rs (okOr_ok_iff.mp htag)

theorem CompiledRule.compileAll_flagged (havailable : CompiledRuleSetMap.Flagged available) :
    ∀ (rules : List RouteRule) {compiled : List CompiledRule},
      CompiledRule.compileAll crates available rules = .ok compiled → ∀ r ∈ compiled, CompiledRule.Flagged r
  | [], compiled, h => by
    rw [CompiledRule.compileAll] at h
    cases h
    exact nofun
  | rule :: rules, compiled, h => by
    rw [CompiledRule.compileAll] at h
    obtain ⟨first, hfirst, h⟩ := bind_ok_iff.mp h
    obtain ⟨rest, hrest, h⟩ := bind_ok_iff.mp h
    cases h
    exact forall_mem_cons.mpr ⟨CompiledRule.compile_flagged havailable rule hfirst,
      CompiledRule.compileAll_flagged havailable rules hrest⟩

end

end

section
variable {read : RuleSetConfig → Except Failure (List RouteRule)}

theorem addRuleSet_flagged {result result' : CompiledRuleSetMap} {set : RuleSetConfig}
    (h : CompiledRuleSetMap.Flagged result) (hadd : addRuleSet crates read result set = .ok result') :
    CompiledRuleSetMap.Flagged result' := by
  simp only [addRuleSet, bind_ok_iff] at hadd
  obtain ⟨_, -, rules, -, compiled, hcompiled, _, -, hadd⟩ := hadd
  cases hadd
  intro tag rs hlookup
  obtain ⟨rfl, rfl⟩ | ⟨-, hlookup⟩ := Map.lookup_insert_cases hlookup
  · exact CompiledRule.compileAll_flagged CompiledRuleSetMap.flagged_empty rules hcompiled
  · exact h tag rs hlookup

theorem loadRuleSets_flagged {config : RouteConfig} {sets : CompiledRuleSetMap}
    (h : loadRuleSets crates read config = .ok sets) : CompiledRuleSetMap.Flagged sets :=
  foldlM_ok_inv CompiledRuleSetMap.Flagged (fun _ _ _ => addRuleSet_flagged)
    CompiledRuleSetMap.flagged_empty h

theorem Router.compile_flagged {config : RouteConfig} {defaultOutbound : Str} {router : Router}
    (h : Router.compile crates read config defaultOutbound = .ok router) :
    ∀ rule ∈ router.rules, CompiledRule.Flagged rule := by
  obtain ⟨sets, hsets, h⟩ := bind_ok_iff.mp h
  obtain ⟨rules, hrules, h⟩ := bind_ok_iff.mp h
  cases h
  intro rule hrule
  obtain ⟨source, -, hcompile⟩ := mapM_ok_mem hrules rule hrule
  exact CompiledRule.compile_flagged (loadRuleSets_flagged hsets) source hcompile

end

end Xhttp.Routing
