import Xhttp.Lib.HeadLines
import Xhttp.Net
import Xhttp.Proxy.UdpNat

/- The options of a TUN inbound (`TunConfig::from_inbound` in `src/tun.rs`).

   `debug` is how a text is shown by `{:?}`; `meminfo` is what `/proc/meminfo` can be read as. -/
namespace Xhttp.Tun
open Xhttp.Lib Xhttp.Lib.Checked Vless Proxy

/-- `Inbound`, with the fields that a TUN inbound reads. -/
structure Inbound where
  type : Str
  interfaceName : Option Str := none
  netns : Option Str := none
  mtu : Option UInt16 := none
  address : List IpNet := []
  dnsMode : Option Str := none
  dnsAddress : List IpAddr := []
  stack : Option Str := none
  autoRoute : Bool := false
  autoRedirect : Bool := false
  autoRedirectInputMark : Option UInt32 := none
  autoRedirectOutputMark : Option UInt32 := none
  autoRedirectResetMark : Option UInt32 := none
  autoRedirectNfqueue : Option UInt16 := none
  autoRedirectIproute2FallbackRuleIndex : Option UInt32 := none
  excludeMptcp : Bool := false
  loopbackAddress : List IpAddr := []
  strictRoute : Bool := false
  iproute2TableIndex : Option UInt32 := none
  iproute2RuleIndex : Option UInt32 := none
  routeAddress : List IpNet := []
  routeAddressSet : List Str := []
  routeExcludeAddress : List IpNet := []
  routeExcludeAddressSet : List Str := []
  includeInterface : List Str := []
  excludeInterface : List Str := []
  includeUid : List UInt32 := []
  includeUidRange : List Str := []
  excludeUid : List UInt32 := []
  excludeUidRange : List Str := []
  includePackage : List Str := []
  excludePackage : List Str := []
  includeAndroidUser : List Int := []
  includeMacAddress : List Str := []
  excludeMacAddress : List Str := []
  endpointIndependentNat : Bool := false
  udpTimeout : Option Str := none
  udpMapping : Option Str := none
  udpFiltering : Option Str := none
  udpNatMax : Option UInt32 := none
  /-- The options themselves are not read. -/
  platform : Option Unit := none
  gso : Bool := false

/-- `struct TunConfig`. The timeout is in nanoseconds. -/
structure TunConfig where
  interfaceName : Str
  mtu : UInt16
  addresses : List IpNet
  stack : Str
  autoRoute : Bool
  autoRedirect : Bool
  strictRoute : Bool
  routeAddresses : List IpNet
  routeExcludeAddresses : List IpNet
  routeIncludeActive : Bool
  routeExcludeActive : Bool
  includeInterfaces : List Str
  excludeInterfaces : List Str
  includeUids : List UInt32
  excludeUids : List UInt32
  includeUidRanges : List (Nat × Nat)
  excludeUidRanges : List (Nat × Nat)
  tableIndex : UInt32
  ruleIndex : UInt32
  redirectInputMark : UInt32
  redirectOutputMark : UInt32
  includeMacs : List Str
  excludeMacs : List Str
  bypassAddresses : List IpAddr
  udpTimeout : Nat
  udpMapping : UdpNatBehavior
  udpFiltering : UdpNatBehavior
  udpNatMax : Nat

/-! ## Texts -/

section
variable (debug : Str → String)

def parseUidRange (value : Str) : Except Failure (Nat × Nat) := do
  let (start, stop) ← okOr (Str.splitOnce ':' value) (.message ("UID range " ++ debug value ++ " is missing ':'"))
  let start ← okOr (Str.parseUnsigned (2 ^ 32) start) (.message ("invalid UID range start in " ++ debug value))
  let stop ← okOr (Str.parseUnsigned (2 ^ 32) stop) (.message ("invalid UID range end in " ++ debug value))
  bailIf (stop < start) ("UID range start exceeds end in " ++ debug value)
  pure (start, stop)

def parseUidRanges (values : List Str) : Except Failure (List (Nat × Nat)) := values.mapM (parseUidRange debug)

def parseOctet (part : Str) : Option UInt8 := do
  let digits ← (if part.head? = some '+' then part.tail else part).mapM Str.hexDigit
  let value := digits.foldl (fun value digit => value * 16 + digit) 0
  if digits ≠ [] ∧ value < 256 then some (UInt8.ofNat value) else none

def parseMac (value : Str) : Except Failure (Vector UInt8 6) := do
  let bytes ← (Str.split ':' value).mapM fun part => okOr (parseOctet part) (.message "invalid MAC octet")
  okOr (vectorOf 6 bytes) (.message "MAC address must contain six octets")

def saturatingMul (a b : Nat) : Nat := min (a * b) (2 ^ 64 - 1)

def parseDuration (value : Str) : Except Failure Nat := do
  let amount ← okOr (Str.parseUnsigned (2 ^ 64) (value.takeWhile Char.isDigit))
    (.message ("invalid duration " ++ debug value))
  let unit := value.dropWhile Char.isDigit
  if unit = "ms" then pure (amount * 1000000)
  else if unit = "s" ∨ unit = [] then pure (amount * 1000000000)
  else if unit = "m" then pure (saturatingMul amount 60 * 1000000000)
  else if unit = "h" then pure (saturatingMul amount 3600 * 1000000000)
  else if unit = "d" then pure (saturatingMul amount 86400 * 1000000000)
  else .error (.message ("unsupported duration unit " ++ debug unit))

def udpTimeoutOf : Option Str → Except Failure Nat
  | none => pure 300000000000
  | some value => okOr (parseDuration debug value).toOption (.message "parse TUN udp_timeout")

/-- The size of the UDP NAT table where none is set, from the memory that `/proc/meminfo` tells. -/
def defaultUdpNatMax (meminfo : Option Str) : Nat :=
  let kibibytes := meminfo.bind fun value => (Str.lines value).findSome? fun line => do
    let rest ← Str.stripPrefix "MemTotal:" line
    let amount ← (Str.splitWhitespace rest).head?
    Str.parseUnsigned (2 ^ 64) amount
  match kibibytes with
  | some kibibytes => max 4096 (min (saturatingMul kibibytes 1024 / 16384) 16384)
  | none => 16384

/-! ## Checks -/

def checkSelectors (inbound : Inbound) : Except Failure Unit := do
  bailIf (inbound.autoRedirect ∧ ¬inbound.autoRoute) "TUN auto_redirect requires auto_route"
  bailIf (inbound.strictRoute ∧ ¬inbound.autoRoute) "TUN strict_route requires auto_route"
  bailIf ((inbound.routeAddress ≠ [] ∨ inbound.routeExcludeAddress ≠ [] ∨ inbound.includeInterface ≠ [] ∨
      inbound.excludeInterface ≠ [] ∨ inbound.includeUid ≠ [] ∨ inbound.excludeUid ≠ [] ∨
      inbound.includeUidRange ≠ [] ∨ inbound.excludeUidRange ≠ []) ∧ ¬inbound.autoRoute)
    "TUN route/interface/UID selectors require auto_route"
  bailIf (inbound.includeInterface ≠ [] ∧ inbound.excludeInterface ≠ [])
    "TUN include_interface and exclude_interface are mutually exclusive"
  bailIf ((inbound.includeUid ≠ [] ∨ inbound.includeUidRange ≠ []) ∧ ¬inbound.autoRedirect)
    "TUN include_uid requires auto_redirect so proxy-owned sockets can be marked for bypass"
  bailIf ((inbound.includeMacAddress ≠ [] ∨ inbound.excludeMacAddress ≠ []) ∧ ¬inbound.autoRedirect)
    "TUN MAC filters require auto_redirect"

def checkUnsupported (inbound : Inbound) : Except Failure Unit := do
  bailIf (inbound.includePackage ≠ [] ∨ inbound.excludePackage ≠ [])
    "TUN package filters are Android-only and unavailable on Linux"
  bailIf (inbound.includeAndroidUser ≠ []) "TUN include_android_user is Android-only and unavailable on Linux"
  bailIf ((inbound.dnsMode.any (· ≠ "disabled".toList)) ∨ inbound.dnsAddress ≠ [])
    "TUN dns_mode/dns_address is not implemented; use route DNS hijack rules"
  bailIf (inbound.autoRedirectResetMark.isSome ∨ inbound.autoRedirectNfqueue.isSome ∨
      inbound.autoRedirectIproute2FallbackRuleIndex.isSome)
    "TUN NFQUEUE reset/fallback options do not apply to the native nftables mark path"
  bailIf inbound.excludeMptcp "TUN exclude_mptcp is not implemented"
  bailIf (inbound.loopbackAddress ≠ []) "TUN loopback_address remapping is not implemented"
  bailIf inbound.platform.isSome "TUN platform options are unavailable on native Linux"
  bailIf inbound.gso "deprecated TUN gso option is not implemented"
  bailIf inbound.endpointIndependentNat
    "deprecated endpoint_independent_nat is not supported; use UDP mapping/filtering options"
  bailIf inbound.netns.isSome "TUN network namespace support is not implemented yet"

def checkAddress (inbound : Inbound) : Except Failure Unit := do
  bailIf (inbound.address = []) "TUN inbound requires at least one address prefix"
  bailIf (1 < inbound.address.countP (·.addr.isIpv4)) "TUN device currently accepts at most one IPv4 address"
  bailIf (inbound.mtu.getD 9000 < 1280) "TUN mtu must be between 1280 and 65535"
  let stack := inbound.stack.getD "mixed"
  bailIf (stack ≠ "mixed" ∧ stack ≠ "gvisor" ∧ stack ≠ "smoltcp")
    ("unsupported TUN stack " ++ String.ofList stack ++ "; expected mixed, gvisor or smoltcp")

def ofFamily (ipv6 : Bool) (nets : List IpNet) : List IpNet := nets.filter (·.addr.isIpv6 == ipv6)

/-- The rules that the validator counts for a family. -/
def familyRules (inbound : Inbound) (ipv6 : Bool) : Nat :=
  let localSourceRules :=
    if inbound.includeUid = [] ∧ inbound.includeUidRange = [] then (ofFamily ipv6 inbound.address).length + 1
    else inbound.includeUid.length + inbound.includeUidRange.length
  (ofFamily ipv6 inbound.routeExcludeAddress).length + inbound.excludeUid.length + inbound.excludeUidRange.length +
    inbound.excludeInterface.length + 1 + localSourceRules + max inbound.includeInterface.length 1

def checkIndexes (inbound : Inbound) : Except Failure Unit := do
  let tableIndex := (inbound.iproute2TableIndex.getD 2022).toNat
  bailIf (tableIndex = 0 ∨ tableIndex = 253 ∨ tableIndex = 254 ∨ tableIndex = 255)
    "TUN iproute2_table_index must be a non-reserved table number"
  bailIf (¬(inbound.iproute2RuleIndex.getD 9000).toNat + 63 < 32766)
    "TUN iproute2_rule_index leaves no room for managed rules"
  bailIf (64 < familyRules inbound false ∨ 64 < familyRules inbound true)
    "TUN auto_route selectors exceed the 64-rule managed priority window"

def checkMarks (inbound : Inbound) : Except Failure Unit := do
  let input := inbound.autoRedirectInputMark.getD 0x2023
  let output := inbound.autoRedirectOutputMark.getD 0x2024
  bailIf (input = 0 ∨ output = 0 ∨ input = output) "TUN auto_redirect input/output marks must be distinct and non-zero"
  (inbound.includeMacAddress ++ inbound.excludeMacAddress).forM fun mac =>
    okOr ((parseMac mac).toOption.map fun _ => ()) (.message ("invalid TUN MAC address: " ++ String.ofList mac))

variable (meminfo : Option Str)

def fromInbound (inbound : Inbound) : Except Failure TunConfig := do
  bailIf (inbound.type ≠ "tun") "TUN configuration requires type=tun"
  checkSelectors inbound
  checkUnsupported inbound
  checkAddress inbound
  checkIndexes inbound
  checkMarks inbound
  let includeUidRanges ← okOr (parseUidRanges debug inbound.includeUidRange).toOption
    (.message "parse TUN include_uid_range")
  let excludeUidRanges ← okOr (parseUidRanges debug inbound.excludeUidRange).toOption
    (.message "parse TUN exclude_uid_range")
  let udpTimeout ← udpTimeoutOf debug inbound.udpTimeout
  bailIf (udpTimeout = 0) "TUN udp_timeout must be greater than zero"
  let udpMapping ← UdpNatBehavior.parse inbound.udpMapping "udp_mapping"
  let udpFiltering ← UdpNatBehavior.parse inbound.udpFiltering "udp_filtering"
  pure {
    interfaceName := inbound.interfaceName.getD "xhttp0"
    mtu := inbound.mtu.getD 9000
    addresses := inbound.address
    stack := inbound.stack.getD "mixed"
    autoRoute := inbound.autoRoute
    autoRedirect := inbound.autoRedirect
    strictRoute := inbound.strictRoute
    routeAddresses := inbound.routeAddress
    routeExcludeAddresses := inbound.routeExcludeAddress
    routeIncludeActive := inbound.routeAddress ≠ [] || inbound.routeAddressSet ≠ []
    routeExcludeActive := inbound.routeExcludeAddress ≠ [] || inbound.routeExcludeAddressSet ≠ []
    includeInterfaces := inbound.includeInterface
    excludeInterfaces := inbound.excludeInterface
    includeUids := inbound.includeUid
    excludeUids := inbound.excludeUid
    includeUidRanges
    excludeUidRanges
    tableIndex := inbound.iproute2TableIndex.getD 2022
    ruleIndex := inbound.iproute2RuleIndex.getD 9000
    redirectInputMark := inbound.autoRedirectInputMark.getD 0x2023
    redirectOutputMark := inbound.autoRedirectOutputMark.getD 0x2024
    includeMacs := inbound.includeMacAddress
    excludeMacs := inbound.excludeMacAddress
    bypassAddresses := []
    udpTimeout
    udpMapping
    udpFiltering
    udpNatMax :=
      let value := (inbound.udpNatMax.getD 0).toNat
      if value = 0 then defaultUdpNatMax meminfo else value }

/-! ## What is accepted -/

variable {debug meminfo}

theorem length_parseUidRanges {values : List Str} {ranges : List (Nat × Nat)}
    (h : parseUidRanges debug values = .ok ranges) :
    ranges.length = values.length := (mapM_ok_iff.mp h).length_eq.symm

/-- What the planner needs of an inbound that was accepted. -/
structure Accepted (inbound : Inbound) (config : TunConfig) : Prop where
  addresses : config.addresses = inbound.address
  autoRedirect : config.autoRedirect = inbound.autoRedirect
  routeExcludeAddresses : config.routeExcludeAddresses = inbound.routeExcludeAddress
  includeInterfaces : config.includeInterfaces = inbound.includeInterface
  excludeInterfaces : config.excludeInterfaces = inbound.excludeInterface
  includeUids : config.includeUids = inbound.includeUid
  excludeUids : config.excludeUids = inbound.excludeUid
  includeUidRanges : config.includeUidRanges.length = inbound.includeUidRange.length
  excludeUidRanges : config.excludeUidRanges.length = inbound.excludeUidRange.length
  noUids : inbound.autoRedirect = false → inbound.includeUid = [] ∧ inbound.includeUidRange = []
  ruleIndex : config.ruleIndex = inbound.iproute2RuleIndex.getD 9000
  room : config.ruleIndex.toNat + 63 < 32766
  window : ∀ ipv6, familyRules inbound ipv6 ≤ 64

variable {inbound : Inbound}

theorem noUids_of_checkSelectors (h : checkSelectors inbound = .ok ()) (hredirect : inbound.autoRedirect = false) :
    inbound.includeUid = [] ∧ inbound.includeUidRange = [] := by
  obtain ⟨_, -, h⟩ := bind_ok_iff.mp h
  simp_all [bind_ok_iff, bailIf_ok_iff]

theorem window_of_checkIndexes (h : checkIndexes inbound = .ok ()) :
    (inbound.iproute2RuleIndex.getD 9000).toNat + 63 < 32766 ∧ ∀ ipv6, familyRules inbound ipv6 ≤ 64 := by
  obtain ⟨_, -, h⟩ := bind_ok_iff.mp h
  obtain ⟨_, hroom, hcount⟩ := bind_ok_iff.mp h
  have hcount := bailIf_ok_iff.mp hcount
  rw [not_or, Nat.not_lt, Nat.not_lt] at hcount
  refine ⟨not_not.mp (bailIf_ok_iff.mp hroom), fun ipv6 => ?_⟩
  cases ipv6 with
  | false => exact hcount.1
  | true => exact hcount.2

theorem accepted_of_fromInbound {config : TunConfig}
    (h : fromInbound debug meminfo inbound = .ok config) : Accepted inbound config := by
  simp only [fromInbound, bind_ok_iff] at h
  obtain ⟨_, -, ⟨⟩, hselectors, _, -, _, -, ⟨⟩, hindexes, _, -, included, hincluded, excluded, hexcluded,
    _, -, _, -, _, -, _, -, h⟩ := h
  cases h
  have hparsed : ∀ {values : List Str} {ranges : List (Nat × Nat)} {e : Failure},
      okOr (parseUidRanges debug values).toOption e = .ok ranges → ranges.length = values.length := by
    intro values ranges e hranges
    have hsome := okOr_ok_iff.mp hranges
    cases hparse : parseUidRanges debug values with
    | error e => rw [hparse] at hsome; cases hsome
    | ok parsed =>
      rw [hparse] at hsome
      cases hsome
      exact length_parseUidRanges hparse
  exact {
    addresses := rfl
    autoRedirect := rfl
    routeExcludeAddresses := rfl
    includeInterfaces := rfl
    excludeInterfaces := rfl
    includeUids := rfl
    excludeUids := rfl
    includeUidRanges := hparsed hincluded
    excludeUidRanges := hparsed hexcluded
    noUids := noUids_of_checkSelectors hselectors
    ruleIndex := rfl
    room := (window_of_checkIndexes hindexes).1
    window := (window_of_checkIndexes hindexes).2 }

end

end Xhttp.Tun
