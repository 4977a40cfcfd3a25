import Xhttp.IpText
import Xhttp.Lib.HeadLines
import Xhttp.Proxy.Route
import Xhttp.Routing.Scope

/- Linux metadata of a connection (`src/linux_route.rs`) and its use for routing (`handle` in
   `src/proxy/inbound.rs`).

   Only the classes of metadata that some rule asks about are collected. A connection is routed as
   if all of them had been (`evaluateRoute_collected`): what is collected for a class does not
   depend on which other classes are collected (`collectTcp_only`), and the contexts of the two
   evaluations agree on the scope of the router.

   A `Host` is what can be read at one moment; the interface caches, which are at most five seconds
   old, are part of that. The order of a `HashMap` is that of the list of its entries. -/
namespace Xhttp.Proxy
open Xhttp.Lib Xhttp.Routing Vless

/-! ## The host -/

structure Host where
  readToString : Str → Option Str
  readLink : Str → Option Str
  readDir : Str → Option (List Str)
  pathExists : Str → Bool
  /-- `command_output`: what a command prints, if it succeeds. -/
  commandOutput : Str → List Str → Option Str

namespace Host
variable (host : Host)

def commandLine (program : Str) (arguments : List Str) : Option Str :=
  ((host.commandOutput program arguments).map Str.trim).filter (· ≠ [])

def table (path : String) : Option (List Str) := (host.readToString path.toList).map fun text => (Str.lines text).drop 1

/-- A port in hexadecimal, after the last colon. -/
def hexPort (field : Str) : Option Nat := do
  let (port, _) ← Str.splitOnce ':' field.reverse
  let port := port.reverse
  let digits ← (if port.head? = some '+' then port.tail else port).mapM Str.hexDigit
  let value := digits.foldl (fun value digit => value * 16 + digit) 0
  if digits ≠ [] ∧ value < 2 ^ 16 then some value else none

/-- The inode and the owner of the socket in a line of `/proc/net/tcp`, if it is the peer's. -/
def socketOwner (peer proxy : IpAddr × UInt16) (line : Str) : Option (Nat × UInt32) := do
  let fields := Str.splitWhitespace line
  let localPort ← fields[1]?.bind hexPort
  let remotePort ← fields[2]?.bind hexPort
  if localPort ≠ peer.2.toNat ∨ remotePort ≠ proxy.2.toNat then none
  else
    let uid ← fields[7]?.bind (Str.parseUnsigned (2 ^ 32))
    let inode ← fields[9]?.bind (Str.parseUnsigned (2 ^ 64))
    some (inode, UInt32.ofNat uid)

def findSocketOwner (peer proxy : IpAddr × UInt16) : Option (Nat × UInt32) :=
  (["/proc/net/tcp", "/proc/net/tcp6"].filterMap host.table).flatten.findSome? (socketOwner peer proxy)

def findInodeProcess (inode : Nat) : Option Nat := do
  let target := "socket:[" ++ Str.decimal inode ++ "]"
  (← host.readDir "/proc").findSome? fun name => do
    let pid ← Str.parseUnsigned (2 ^ 32) name
    let directory := "/proc/" ++ name ++ "/fd"
    let descriptors ← host.readDir directory
    if descriptors.any fun descriptor =>
      host.readLink (directory ++ "/" ++ descriptor) = some target then some pid
    else none

def userName (uid : UInt32) : Option Str := do
  (Str.lines (← host.readToString "/etc/passwd")).findSome? fun line => do
    let fields := Str.split ':' line
    let id ← fields[2]?.bind (Str.parseUnsigned (2 ^ 32))
    if id = uid.toNat then fields.head? else none

/-- The interface of the default route with the least metric; the first of several. -/
def defaultInterface : Option Str := do
  let routes := (← host.table "/proc/net/route").filterMap fun line => do
    let fields := Str.splitWhitespace line
    let destination ← fields[1]?
    if destination ≠ "00000000".toList then none
    else
      let metric ← fields[6]?.bind (Str.parseUnsigned (2 ^ 32))
      some (metric, fields.headD [])
  let least ← routes.foldl (fun least route =>
    match least with
    | none => some route
    | some first => if route.1 < first.1 then some route else some first) none
  pure least.2

def interfaceType (interface : Str) : Str :=
  if interface = "lo" then "loopback"
  else if host.pathExists ("/sys/class/net/" ++ interface ++ "/wireless") then "wifi"
  else if (Str.stripPrefix "wwan" interface).isSome ∨ (Str.stripPrefix "rmnet" interface).isSome then
    "cellular"
  else "ethernet"

/-- `entry(key).or_default().extend(addresses)`. -/
def extend (map : AList (fun _ : Str => List IpAddr)) (key : Str) (addresses : List IpAddr) :
    AList (fun _ : Str => List IpAddr) :=
  map.insert key ((map.lookup key).getD [] ++ addresses)

/-- The name and the address in a line of `ip -o addr show`. -/
def interfaceAddress (line : Str) : Option (Str × IpAddr) := do
  let fields := Str.splitWhitespace line
  let interface ← fields[1]?.map (Str.trimEndMatches ':')
  let address ← fields.findSome? fun field => (Str.splitOnce '/' field).bind fun (address, _) => IpAddr.parse address
  pure (Str.toAsciiLowercase interface, address)

def allInterfaceAddresses : AList (fun _ : Str => List IpAddr) :=
  let output := host.commandOutput "ip" ["-o", "addr", "show"]
  ((Str.lines (output.getD [])).filterMap interfaceAddress).foldl (fun map (interface, address) =>
    extend map interface [address]) ∅

def interfaceAddresses (interface : Str) : List IpAddr :=
  (host.allInterfaceAddresses.lookup (Str.toAsciiLowercase interface)).getD []

def arpValue (ip : IpAddr) (field : Nat) : Option Str := do
  (← host.table "/proc/net/arp").findSome? fun line => do
    let fields := Str.splitWhitespace line
    let address ← fields.head?.bind IpAddr.parse
    if address = ip then fields[field]?.map Str.toAsciiLowercase else none

def hostsName (ip : IpAddr) : Option Str := do
  let lines := (Str.lines (← host.readToString "/etc/hosts")).filter fun line =>
    (line.dropWhile Str.isWhitespace).head? ≠ some '#'
  lines.findSome? fun line => do
    let fields := Str.splitWhitespace line
    let address ← fields.head?.bind IpAddr.parse
    if address = ip then fields[1]? else none

/-- The access point in a line of `iw dev INTERFACE link`. -/
def accessPoint (line : Str) : Option Str := do
  let rest ← Str.stripPrefix "Connected to " (Str.trim line)
  (Str.splitWhitespace rest).head?.map Str.toAsciiLowercase

end Host

/-! ## Collecting metadata -/

section
variable (host : Host) (peer proxy : IpAddr × UInt16)

/-- The addresses by interface, and by the type of the interface. -/
def LinuxRouteMetadata.addInterface (metadata : LinuxRouteMetadata) : LinuxRouteMetadata :=
  { metadata with
    interfaceAddresses := host.allInterfaceAddresses
    networkInterfaceAddresses := host.allInterfaceAddresses.entries.foldl (fun map entry =>
      Host.extend map (host.interfaceType entry.1) entry.2) metadata.networkInterfaceAddresses }

/-- The owner of the socket, and the process that holds it if that is asked for. -/
def LinuxRouteMetadata.addOwner (metadata : LinuxRouteMetadata) (process : Bool) : LinuxRouteMetadata :=
  match host.findSocketOwner peer proxy with
  | none => metadata
  | some (inode, uid) =>
    let metadata := { metadata with userId := some uid, user := host.userName uid }
    match if process then host.findInodeProcess inode else none with
    | none => metadata
    | some pid =>
      { metadata with
        processName := ((host.readToString ("/proc/" ++ Str.decimal pid ++ "/comm")).map Str.trim).filter
          (· ≠ [])
        processPath := host.readLink ("/proc/" ++ Str.decimal pid ++ "/exe") }

/-- The interface of the default route, and its access point if it is a wireless one. -/
def LinuxRouteMetadata.addNetwork (metadata : LinuxRouteMetadata) : LinuxRouteMetadata :=
  match host.defaultInterface with
  | none => metadata
  | some interface =>
    let metered := host.commandLine "nmcli"
      ["-g", "GENERAL.METERED", "device", "show", interface]
    let metadata :=
      { metadata with
        networkType := some (host.interfaceType interface)
        networkIsExpensive := metered = some "yes".toList ∨ metered = some "guess-yes".toList
        defaultInterfaceAddresses := host.interfaceAddresses interface }
    if host.interfaceType interface = "wifi" then
      { metadata with
        wifiSsid := host.commandLine "iwgetid" ["-r"]
        wifiBssid := (host.commandOutput "iw" ["dev", interface, "link"]).bind fun output =>
          (Str.lines output).findSome? Host.accessPoint }
    else metadata

def collectTcp (scope : LinuxMetadataScope) : LinuxRouteMetadata :=
  let metadata : LinuxRouteMetadata := {}
  let metadata := if scope.interface then metadata.addInterface host else metadata
  let metadata := if scope.process || scope.user then metadata.addOwner host peer proxy scope.process else metadata
  let metadata := if scope.network then metadata.addNetwork host else metadata
  let metadata := if scope.mac then { metadata with sourceMacAddress := host.arpValue peer.1 3 } else metadata
  if scope.hostname then { metadata with sourceHostname := host.hostsName peer.1 } else metadata

/-- What `handle` routes a connection with. -/
def connectionMetadata (router : Router) : LinuxRouteMetadata :=
  let scope := router.linuxMetadataScope
  if scope.isEmpty then {} else collectTcp host peer proxy scope

end

/-! ## One class at a time -/

def LinuxRouteMetadata.only (m : LinuxRouteMetadata) : MetadataClass → LinuxRouteMetadata
  | .process => { processName := m.processName, processPath := m.processPath }
  | .user => { user := m.user, userId := m.userId }
  | .interface =>
    { interfaceAddresses := m.interfaceAddresses, networkInterfaceAddresses := m.networkInterfaceAddresses }
  | .network =>
    { networkType := m.networkType
      networkIsExpensive := m.networkIsExpensive
      networkIsConstrained := m.networkIsConstrained
      wifiSsid := m.wifiSsid
      wifiBssid := m.wifiBssid
      defaultInterfaceAddresses := m.defaultInterfaceAddresses }
  | .mac => { sourceMacAddress := m.sourceMacAddress }
  | .hostname => { sourceHostname := m.sourceHostname }

namespace LinuxRouteMetadata
variable {k : MetadataClass} {host : Host} {peer proxy : IpAddr × UInt16} {m n : LinuxRouteMetadata}

theorem only_addInterface (h : k ≠ .interface) : (m.addInterface host).only k = m.only k := by
  cases k with
  | interface => exact absurd rfl h
  | _ => rfl

theorem only_addOwner (hprocess : k ≠ .process) (huser : k ≠ .user) (process : Bool) :
    (m.addOwner host peer proxy process).only k = m.only k := by
  unfold addOwner
  split
  · rfl
  · split <;> cases k with
    | process => exact absurd rfl hprocess
    | user => exact absurd rfl huser
    | _ => rfl

theorem only_addNetwork (h : k ≠ .network) : (m.addNetwork host).only k = m.only k := by
  unfold addNetwork
  split
  · rfl
  · split <;> cases k with
    | network => exact absurd rfl h
    | _ => rfl

theorem user_addOwner (h : m.only .user = n.only .user) (p q : Bool) :
    (m.addOwner host peer proxy p).only .user = (n.addOwner host peer proxy q).only .user := by
  unfold addOwner
  cases host.findSocketOwner peer proxy with
  | none => exact h
  | some owner =>
    dsimp only
    split <;> split <;> rfl

theorem process_addOwner (h : m.only .process = n.only .process) (process : Bool) :
    (m.addOwner host peer proxy process).only .process = (n.addOwner host peer proxy process).only .process := by
  unfold addOwner
  cases host.findSocketOwner peer proxy with
  | none => exact h
  | some owner =>
    dsimp only
    split
    · exact h
    · rfl

theorem network_addNetwork (h : m.only .network = n.only .network) :
    (m.addNetwork host).only .network = (n.addNetwork host).only .network := by
  have hconstrained := congrArg networkIsConstrained h
  have hssid := congrArg wifiSsid h
  have hbssid := congrArg wifiBssid h
  simp only [only] at hconstrained hssid hbssid
  unfold addNetwork
  cases host.defaultInterface with
  | none => exact h
  | some interface =>
    dsimp only
    split
    · simp only [only, hconstrained]
    · simp only [only, hconstrained, hssid, hbssid]

end LinuxRouteMetadata

section
open LinuxRouteMetadata
variable {scope scope' : LinuxMetadataScope}

/-- A part of the collection: if it collects the class it is run for both scopes, and otherwise it
    leaves the class alone. -/
theorem only_part {m m' n n' : LinuxRouteMetadata} {b b' : Bool} (own : Prop) (hmn : m.only k = n.only k)
    (hown : own → b = true ∧ b' = true ∧ m'.only k = n'.only k)
    (hother : ¬ own → m'.only k = m.only k ∧ n'.only k = n.only k) :
    (if b then m' else m).only k = (if b' then n' else n).only k := by
  by_cases h : own
  · obtain ⟨hb, hb', heq⟩ := hown h
    rw [if_pos hb, if_pos hb', heq]
  grind

/-- What is collected of a class is the same for every scope that requests the class. -/
theorem collectTcp_only (host : Host) (peer proxy : IpAddr × UInt16) (h : scope.requests k = true)
    (h' : scope'.requests k = true) :
    (collectTcp host peer proxy scope).only k = (collectTcp host peer proxy scope').only k := by
  simp only [collectTcp]
  have hinterface : ((if scope.interface then addInterface host {} else {}) : LinuxRouteMetadata).only k =
      ((if scope'.interface then addInterface host {} else {}) : LinuxRouteMetadata).only k := by
    refine only_part (k = .interface) rfl ?_ fun hk => ⟨only_addInterface hk, only_addInterface hk⟩
    rintro rfl
    exact ⟨h, h', rfl⟩
  generalize ((if scope.interface then addInterface host {} else {}) : LinuxRouteMetadata) = m,
    ((if scope'.interface then addInterface host {} else {}) : LinuxRouteMetadata) = n at hinterface ⊢
  have howner : (if scope.process || scope.user then m.addOwner host peer proxy scope.process else m).only k =
      (if scope'.process || scope'.user then n.addOwner host peer proxy scope'.process else n).only k := by
    refine only_part (k = .process ∨ k = .user) hinterface ?_ fun hk => ?_
    · rintro (rfl | rfl)
      · have hprocess : scope.process = true ∧ scope'.process = true := ⟨h, h'⟩
        simp only [hprocess, Bool.true_or, true_and]
        exact process_addOwner hinterface true
      · have huser : scope.user = true ∧ scope'.user = true := ⟨h, h'⟩
        simp only [huser, Bool.or_true, true_and]
        exact user_addOwner hinterface _ _
    · simp_all [not_or, only_addOwner]
  refine only_part (k = .hostname) (only_part (k = .mac) (only_part (k = .network) howner ?_ ?_) ?_ ?_) ?_ ?_
  · rintro rfl
    exact ⟨h, h', network_addNetwork howner⟩
  · exact fun hk => ⟨only_addNetwork hk, only_addNetwork hk⟩
  · rintro rfl
    exact ⟨h, h', rfl⟩
  · intro hk
    cases k with
    | mac => exact absurd rfl hk
    | _ => exact ⟨rfl, rfl⟩
  · rintro rfl
    exact ⟨h, h', rfl⟩
  · intro hk
    cases k with
    | hostname => exact absurd rfl hk
    | _ => exact ⟨rfl, rfl⟩

end

/-! ## Routing with what was collected -/

section
variable {host : Host} {proxy : IpAddr × UInt16} {env : Env} {input : RouteInput} {source : Source}
  {destination : Destination}

theorem sameIn_of_only {l : RouteLoop} {m n : LinuxRouteMetadata} {network : Str} (h : m.only k = n.only k) :
    (l.context { input with linux := m } destination network).SameIn
      (l.context { input with linux := n } destination network) k := by
  cases k <;> simp only [LinuxRouteMetadata.only, LinuxRouteMetadata.mk.injEq, and_true, true_and] at h <;>
    simp only [RouteContext.SameIn, RouteLoop.context, h, and_self]

theorem connectionMetadata_only {router : Router}
    (h : router.linuxMetadataScope.requests k = true) (peer : IpAddr × UInt16) :
    (connectionMetadata host peer proxy router).only k = (collectTcp host peer proxy .all).only k := by
  grind [connectionMetadata, LinuxMetadataScope.requests_of_isEmpty, collectTcp_only, LinuxMetadataScope.requests_all]

theorem context_agree (l : RouteLoop) (network : Str) : RouteContext.AgreeOn input.router.linuxMetadataScope
      (l.context { input with linux := connectionMetadata host input.peer proxy input.router } destination network)
      (l.context { input with linux := collectTcp host input.peer proxy .all } destination network) :=
  ⟨rfl, fun _ hk => sameIn_of_only (connectionMetadata_only hk input.peer)⟩

theorem step_collected (l : RouteLoop) :
    l.step env { input with linux := connectionMetadata host input.peer proxy input.router } source destination =
      l.step env { input with linux := collectTcp host input.peer proxy .all } source destination := by
  simp only [RouteLoop.step, Router.nextActionLazy_agree (context_agree l source.network)]
  rfl

/-- A connection is routed with what was collected as with all that could be. -/
theorem evaluateRoute_collected (rounds : Nat) :
    evaluateRoute env { input with linux := connectionMetadata host input.peer proxy input.router } source destination
        rounds =
      evaluateRoute env { input with linux := collectTcp host input.peer proxy .all } source destination rounds := by
  have hloop : ∀ (rounds : Nat) (l : RouteLoop),
      evaluateLoop env { input with linux := connectionMetadata host input.peer proxy input.router } source destination
          rounds l =
        evaluateLoop env { input with linux := collectTcp host input.peer proxy .all } source destination rounds l := by
    intro rounds
    induction rounds with
    | zero => exact fun _ => rfl
    | succ rounds ih =>
      intro l
      simp only [evaluateLoop, step_collected, ih]
  simp only [evaluateRoute, hloop]

end

/-! ## No decision depends on what is not collected -/

/-- Contexts that differ only in metadata of classes outside the scope of the router lead to the
    same lookups and to the same decision, so a connection whose metadata was collected for that
    scope is routed as with all of the metadata. -/
theorem metadata_scope_complete (router : Router) :
    (∀ c d : RouteContext, RouteContext.AgreeOn router.linuxMetadataScope c d →
      (∀ start, router.nextAction c start = router.nextAction d start) ∧ router.route c = router.route d ∧
        ∀ start, router.nextActionLazy c start = router.nextActionLazy d start) ∧
    ∀ (host : Host) (proxy : IpAddr × UInt16) (env : Env) (input : RouteInput) (source : Source)
      (destination : Destination) (rounds : Nat), input.router = router →
      evaluateRoute env { input with linux := connectionMetadata host input.peer proxy router } source destination
          rounds =
        evaluateRoute env { input with linux := collectTcp host input.peer proxy .all } source destination rounds := by
  grind [Router.nextAction_agree, Router.route_agree, Router.nextActionLazy_agree, evaluateRoute_collected]

/-- A router with one rule, which takes the connections of everyone but one user. -/
def ownerRouter : Router where
  rules := [.node { action := .route (.outbound "proxy") {}, invert := true } (some .and)
    [.node { users := ["root"] } none [] []] []]
  ruleSets := ∅
  finalOutbound := "direct"
  defaultOptions := {}
  defaultDomainResolver := none

/-- The process does not matter to it, and the user does. -/
theorem metadata_scope_complete_owner :
    ownerRouter.route { user := some "root".toList, processName := some "curl".toList } =
        ownerRouter.route { user := some "root".toList } ∧
      ownerRouter.route { user := some "root".toList } ≠ ownerRouter.route { user := some "daemon".toList } := by
  refine ⟨((metadata_scope_complete ownerRouter).1 _ _ ⟨rfl, fun k hk => ?_⟩).2.1, by decide⟩
  cases k with
  | process => cases hk
  | user | interface => exact ⟨rfl, rfl⟩
  | network => exact ⟨rfl, rfl, rfl, rfl, rfl, rfl⟩
  | mac | hostname => rfl

end Xhttp.Proxy
