import Xhttp.Dns.Resolver
import Xhttp.IpText
import Xhttp.Routing.Matching

/- Route evaluation (`src/proxy/route.rs`) and the addresses a direct connection is made to (`connect_direct` in
   `src/proxy/direct.rs`).

   One round of the loop looks up the next rule and applies its action: options are merged, the payload is sniffed,
   or the domain is resolved. Sniffing may replace the domain of the flow, resolving sets its candidate addresses,
   and `override_address` replaces the destination; `resolved_of_evaluation` says when the addresses that are returned
   are those of the host that is dialled.

   What a round did is recorded in a history, newest first. The resolver and the stream are functions of the
   history, so a later lookup of one name may have another answer. A timeout is one of the outcomes of a read or a
   lookup. The three variants of the function differ in the `Source` of the payload. -/
namespace Xhttp.Proxy
open Xhttp.Lib Xhttp.Routing Vless

/-! ## What an evaluation is given -/

structure SniffResult where
  protocol : Str
  domain : Option Str
  client : Option Str
  deriving DecidableEq, Repr

inductive Round where
  | options (merged : RouteOptions)
  | sniff (found : Option SniffResult)
  | lookup (name : Str) (options : Dns.LookupOptions) (answer : Except Failure (List IpAddr))

/-- `resolve_for_route` on a `DnsResolver`. -/
abbrev Resolver := List Round → Str → Dns.LookupOptions → Except Failure (List IpAddr)

structure LinuxRouteMetadata where
  processName : Option Str := none
  processPath : Option Str := none
  user : Option Str := none
  userId : Option UInt32 := none
  networkType : Option Str := none
  networkIsExpensive : Bool := false
  networkIsConstrained : Bool := false
  wifiSsid : Option Str := none
  wifiBssid : Option Str := none
  interfaceAddresses : AList (fun _ : Str => List IpAddr) := ∅
  networkInterfaceAddresses : AList (fun _ : Str => List IpAddr) := ∅
  sourceMacAddress : Option Str := none
  sourceHostname : Option Str := none
  defaultInterfaceAddresses : List IpAddr := []

structure RouteInput where
  peer : IpAddr × UInt16
  inbound : Str
  router : Router
  resolver : Option Resolver
  linux : LinuxRouteMetadata := {}
  authUser : Option Str := none
  clashMode : Option Str := none

structure Env where
  sniffPayload : Bytes → Bool → List Str → Option SniffResult
  /-- What a read or a peek of the stream gives: nothing after a timeout or an error. -/
  read : List Round → Option Bytes

/-- Where the payload to sniff comes from. -/
inductive Source where
  /-- A socket that can be peeked, and bytes already read from it. -/
  | tcp (initial : Bytes)
  /-- A stream, from which bytes are read once. -/
  | stream
  | udp (payload : Bytes)

def Source.isUdp : Source → Bool
  | .udp _ => true
  | _ => false

def Source.network (source : Source) : Str := if source.isUdp then "udp" else "tcp"

/-- The bytes to sniff, and the bytes read from the stream so far. -/
def Source.data (source : Source) (read : Option Bytes) (initial : Bytes) : Option Bytes × Bytes :=
  match source with
  | .tcp first => (if first.isEmpty then read.map (List.take 8192) else some first, initial)
  | .stream =>
    let initial := if initial.isEmpty then (read.map (List.take 8192)).getD initial else initial
    (some initial, initial)
  | .udp payload => (some payload, initial)

/-! ## The state of an evaluation -/

structure RouteState where
  domain : Option Str
  destinationIp : Option IpAddr
  destinationIps : List IpAddr := []
  cursor : Nat := 0
  resolved : Bool := false

/-- The name of a destination that is not an address. -/
def name? : Destination → Option Str
  | .ip _ _ => none
  | .domain name _ => some name

def RouteState.new (destination : Destination) : RouteState :=
  match destination with
  | .domain value _ => { domain := some value, destinationIp := none }
  | .ip value _ => { domain := none, destinationIp := some value }

def RouteState.resolvedAddresses (state : RouteState) : List IpAddr :=
  if state.resolved then state.destinationIps else []

structure RouteLoop where
  state : RouteState
  detectedProtocol : Option Str := none
  detectedClient : Option Str := none
  options : RouteOptions
  initial : Bytes := []
  history : List Round := []

def RouteLoop.context (l : RouteLoop) (input : RouteInput) (destination : Destination) (network : Str) :
    RouteContext where
  domain := l.state.domain
  destinationIp := l.state.destinationIp
  destinationIps := l.state.destinationIps
  destinationPort := some destination.port
  sourceIp := some input.peer.1
  sourcePort := some input.peer.2
  network := some network
  protocol := l.detectedProtocol
  client := l.detectedClient
  inbound := some input.inbound
  authUser := input.authUser
  processName := input.linux.processName
  processPath := input.linux.processPath
  user := input.linux.user
  userId := input.linux.userId
  clashMode := input.clashMode
  networkType := input.linux.networkType
  networkIsExpensive := input.linux.networkIsExpensive
  networkIsConstrained := input.linux.networkIsConstrained
  wifiSsid := input.linux.wifiSsid
  wifiBssid := input.linux.wifiBssid
  interfaceAddresses := some input.linux.interfaceAddresses
  networkInterfaceAddresses := some input.linux.networkInterfaceAddresses
  sourceMacAddress := input.linux.sourceMacAddress
  sourceHostname := input.linux.sourceHostname
  defaultInterfaceAddresses := input.linux.defaultInterfaceAddresses

def selectAddress (addresses : List IpAddr) (strategy : Option Str) : Option IpAddr :=
  let strategy := strategy.getD []
  if strategy = "ipv4_only" then addresses.find? IpAddr.isIpv4
  else if strategy = "ipv6_only" then addresses.find? IpAddr.isIpv6
  else if strategy = "prefer_ipv4" then (addresses.find? IpAddr.isIpv4).or addresses.head?
  else if strategy = "prefer_ipv6" then (addresses.find? IpAddr.isIpv6).or addresses.head?
  else addresses.head?

/-! ## The loop -/

inductive Control where
  | next (l : RouteLoop)
  | stop (decision : RouteDecision) (l : RouteLoop)
  | fail (error : Failure)

/-- The variables have the property, unless the evaluation fails. -/
def Control.All (P : RouteLoop → Prop) : Control → Prop
  | .next l => P l
  | .stop _ l => P l
  | .fail _ => True

namespace RouteLoop

def merge (l : RouteLoop) (options : RouteOptions) : RouteLoop :=
  { l with options := l.options.merge options, history := .options options :: l.history }

/-- The addresses a lookup gave; a failed lookup gives none. -/
def lookedUp (l : RouteLoop) (name : Str) (options : Dns.LookupOptions) (answer : Except Failure (List IpAddr)) :
    RouteLoop :=
  { l with
    state := { l.state with destinationIps := answer.toOption.getD [], resolved := true }
    history := .lookup name options answer :: l.history }

def resolveAction (input : RouteInput) (l : RouteLoop) (options : Dns.LookupOptions) : Control :=
  match l.state.domain, input.resolver with
  | some name, some resolver =>
    let options := { options with server := options.server.or input.router.defaultDomainResolver }
    match resolver l.history name options with
    | .error e => .fail e
    | .ok addresses =>
      let l := l.lookedUp name options (.ok addresses)
      .next { l with state := { l.state with destinationIp := selectAddress addresses options.strategy } }
  | _, _ => .next l

def needResolve (input : RouteInput) (l : RouteLoop) (index : Nat) : RouteLoop :=
  match l.state.domain, input.resolver with
  | some name, some resolver =>
    let options := { server := input.router.defaultDomainResolver }
    let l := l.lookedUp name options (resolver l.history name options)
    match l.state.destinationIps with
    | [] => { l with state := { l.state with cursor := index + 1 } }
    | first :: _ => { l with state := { l.state with destinationIp := some first, cursor := index } }
  | _, _ => { l with state := { l.state with cursor := index + 1 } }

/-- What was found replaces what was detected before; a name only if one was found. -/
def sniffed (l : RouteLoop) (initial : Bytes) (found : Option SniffResult) : RouteLoop :=
  { l with
    state := { l.state with domain := (found.bind SniffResult.domain).or l.state.domain }
    detectedProtocol := (found.map SniffResult.protocol).or l.detectedProtocol
    detectedClient := match found with
      | some result => result.client
      | none => l.detectedClient
    initial
    history := .sniff found :: l.history }

def apply (env : Env) (input : RouteInput) (source : Source) (l : RouteLoop) : RuleAction → Control
  | .route decision options => .stop decision (l.merge options)
  | .routeOptions options => .next (l.merge options)
  | .resolve server timeout strategy disableCache rewriteTtl clientSubnet =>
    l.resolveAction input
      { server, timeout := timeout.map Dns.parseDurationLenient, strategy, disableCache, rewriteTtl, clientSubnet }
  | .sniff sniffers _ =>
    let (data, initial) := source.data (env.read l.history) l.initial
    .next (l.sniffed initial (data.bind fun bytes => env.sniffPayload bytes source.isUdp sniffers))

def step (env : Env) (input : RouteInput) (source : Source) (destination : Destination) (l : RouteLoop) : Control :=
  match input.router.nextActionLazy (l.context input destination source.network) l.state.cursor with
  | .action index action => apply env input source { l with state := { l.state with cursor := index + 1 } } action
  | .needResolve index => .next (l.needResolve input index)
  | .none => .stop (.outbound input.router.finalOutbound) l

end RouteLoop

def overrideDestination (original : Destination) (options : RouteOptions) : Destination :=
  let port := options.overridePort.getD original.port
  match options.overrideAddress with
  | none =>
    match original with
    | .ip address _ => .ip address port
    | .domain domain _ => .domain domain port
  | some host =>
    match IpAddr.parse host with
    | some address => .ip address port
    | none => .domain host port

structure RouteEvaluation where
  decision : RouteDecision
  destination : Destination
  options : RouteOptions
  resolvedAddresses : List IpAddr

/-- The loop, for at most so many rounds. -/
def evaluateLoop (env : Env) (input : RouteInput) (source : Source) (destination : Destination) :
    Nat → RouteLoop → Option (Except Failure (RouteDecision × RouteLoop))
  | 0, _ => none
  | rounds + 1, l =>
    match l.step env input source destination with
    | .next l => evaluateLoop env input source destination rounds l
    | .stop decision l => some (.ok (decision, l))
    | .fail e => some (.error e)

variable {l : RouteLoop} {decision : RouteDecision} {input : RouteInput} {source : Source} {rounds : Nat}
  {e : Failure} {env : Env}

/-- What holds of the last round of a loop, and passes from a round to the one before it, holds of the whole loop. -/
theorem evaluateLoop_induct {destination : Destination} {P : RouteLoop → RouteDecision → RouteLoop → Prop}
    (stop : ∀ l decision l', l.step env input source destination = .stop decision l' → P l decision l')
    (next : ∀ l l₁ decision l', l.step env input source destination = .next l₁ → P l₁ decision l' →
      P l decision l') {l' : RouteLoop}
    (h : evaluateLoop env input source destination rounds l = some (.ok (decision, l'))) : P l decision l' := by
  induction rounds generalizing l with
  | zero => cases h
  | succ rounds ih =>
    rw [evaluateLoop] at h
    grind

theorem evaluateLoop_inv {destination : Destination}
    {I : RouteLoop → Prop} (hstep : ∀ l : RouteLoop, I l → (l.step env input source destination).All I)
    {l' : RouteLoop} (hl : I l)
    (h : evaluateLoop env input source destination rounds l = some (.ok (decision, l'))) : I l' := by
  refine evaluateLoop_induct (P := fun l _ l' => I l → I l') ?_ ?_ h hl
  · intro l decision l' hstop hl
    have hround := hstep l hl
    rwa [hstop] at hround
  · intro l l₁ decision l' hnext ih hl
    have hround := hstep l hl
    rw [hnext] at hround
    exact ih hround

theorem RouteLoop.step_fail {destination : Destination}
    (h : l.step env input source destination = .fail e) :
    ∃ resolver ∈ input.resolver, ∃ history name options, resolver history name options = .error e := by
  unfold RouteLoop.step at h
  split at h
  · next action _ =>
    cases action with
    | resolve =>
      simp only [RouteLoop.apply, RouteLoop.resolveAction] at h
      split at h
      · next resolver _ hresolver =>
        split at h
        · next hlookup =>
          cases h
          exact ⟨resolver, hresolver, _, _, _, hlookup⟩
        · cases h
      · cases h
    | route | routeOptions | sniff => cases h
  · cases h
  · cases h

theorem evaluateLoop_error {destination : Destination}
    (h : evaluateLoop env input source destination rounds l = some (.error e)) :
    ∃ resolver ∈ input.resolver, ∃ history name options, resolver history name options = .error e := by
  induction rounds generalizing l with
  | zero => cases h
  | succ rounds ih =>
    rw [evaluateLoop] at h
    split at h
    · exact ih h
    · cases h
    · next hfail =>
      cases h
      exact RouteLoop.step_fail hfail

def evaluateRoute (env : Env) (input : RouteInput) (source : Source) (destination : Destination) (rounds : Nat) :
    Option (Except Failure (RouteEvaluation × RouteLoop)) :=
  let start : RouteLoop := { state := .new destination, options := input.router.defaultOptions }
  (evaluateLoop env input source destination rounds start).map fun result => result.map fun (decision, l) =>
    ({ decision
       destination := overrideDestination destination l.options
       options := l.options
       resolvedAddresses := l.state.resolvedAddresses }, l)

def evaluateTcpRoute (env : Env) (input : RouteInput) (initial : Bytes) (destination : Destination) (rounds : Nat) :
    Option (Except Failure (RouteEvaluation × RouteLoop)) :=
  evaluateRoute env input (.tcp initial) destination rounds

/-- The bytes read from the stream are those of the loop. -/
def evaluateStreamTcpRoute (env : Env) (input : RouteInput) (destination : Destination) (rounds : Nat) :
    Option (Except Failure (RouteEvaluation × RouteLoop)) :=
  evaluateRoute env input .stream destination rounds

def evaluateUdpRoute (env : Env) (input : RouteInput) (destination : Destination) (payload : Bytes) (rounds : Nat) :
    Option (Except Failure (RouteEvaluation × RouteLoop)) :=
  evaluateRoute env input (.udp payload) destination rounds

/-! ## Direct connections -/

/-- A stable sort by a key that is true or false. -/
def orderAddresses (addresses : List (IpAddr × UInt16)) (strategy : Option Str) : List (IpAddr × UInt16) :=
  let strategy := strategy.getD []
  if strategy = "ipv4_only" then addresses.filter fun a => a.1.isIpv4
  else if strategy = "ipv6_only" then addresses.filter fun a => a.1.isIpv6
  else if strategy = "prefer_ipv4" then
    (addresses.filter fun a => a.1.isIpv4) ++ addresses.filter fun a => a.1.isIpv6
  else if strategy = "prefer_ipv6" then
    (addresses.filter fun a => a.1.isIpv6) ++ addresses.filter fun a => a.1.isIpv4
  else addresses

/-- The socket addresses `connect_direct` tries, in this order. -/
def connectDirect (lookup : Str → Except Failure (List IpAddr)) (destination : Destination) (options : RouteOptions)
    (preferResolved : List IpAddr) : Except Failure (List (IpAddr × UInt16)) := do
  let addresses ← match destination with
    | .ip ip port => pure [(ip, port)]
    | .domain host port =>
      if preferResolved ≠ [] then pure (preferResolved.map fun address => (address, port))
      else (lookup host).map fun addresses => addresses.map fun address => (address, port)
  let addresses := orderAddresses addresses (options.domainStrategy.or options.networkStrategy)
  Checked.bailIf (addresses = []) "direct connection strategy selected no addresses"
  pure addresses

/-! ## What the history says about the names -/

/-- The name of the flow after some rounds: the one sniffed last, or the destination's own. -/
def nameInForce (destination : Destination) : List Round → Option Str
  | [] => name? destination
  | .sniff found :: earlier => (found.bind SniffResult.domain).or (nameInForce destination earlier)
  | _ :: earlier => nameInForce destination earlier

/-- The name of the flow when its addresses were last looked up. -/
def resolvedName (destination : Destination) : List Round → Option Str
  | [] => none
  | .lookup _ _ _ :: earlier => nameInForce destination earlier
  | _ :: earlier => resolvedName destination earlier

def optionsInForce (default : RouteOptions) : List Round → RouteOptions
  | [] => default
  | .options merged :: earlier => (optionsInForce default earlier).merge merged
  | _ :: earlier => optionsInForce default earlier

/-- The name that is dialled: `override_address` unless it is an address, or the destination's own. -/
def dialledName (destination : Destination) (options : RouteOptions) : Option Str :=
  match options.overrideAddress with
  | none => name? destination
  | some host => if (IpAddr.parse host).isSome then none else some host

/-- The lookup made last: the name asked for, and the answer. -/
def lastLookup : List Round → Option (Str × Except Failure (List IpAddr))
  | [] => none
  | .lookup name _ answer :: _ => some (name, answer)
  | _ :: earlier => lastLookup earlier

/-- What the loop knows of the flow, against its history. -/
structure RouteLoop.Tracked (input : RouteInput) (destination : Destination) (l : RouteLoop) : Prop where
  domain : l.state.domain = nameInForce destination l.history
  options : l.options = optionsInForce input.router.defaultOptions l.history
  unresolved : lastLookup l.history = none → l.state.resolvedAddresses = []
  resolved : ∀ name answer, lastLookup l.history = some (name, answer) →
    l.state.resolvedAddresses = answer.toOption.getD [] ∧ resolvedName destination l.history = some name

namespace RouteLoop
variable {destination : Destination}

theorem tracked_start :
    Tracked input destination { state := .new destination, options := input.router.defaultOptions } where
  domain := by cases destination <;> rfl
  options := rfl
  unresolved _ := by cases destination <;> rfl
  resolved := nofun

variable (h : Tracked input destination l)
include h

theorem Tracked.move (ip : Option IpAddr) (cursor : Nat) :
    Tracked input destination { l with state := { l.state with destinationIp := ip, cursor } } :=
  ⟨h.domain, h.options, h.unresolved, h.resolved⟩

theorem Tracked.merge (options : RouteOptions) :
    Tracked input destination (l.merge options) where
  domain := h.domain
  options := by rw [RouteLoop.merge, optionsInForce, h.options]
  unresolved := h.unresolved
  resolved := h.resolved

theorem Tracked.sniffed (initial : Bytes) (found : Option SniffResult) :
    Tracked input destination (l.sniffed initial found) where
  domain := congrArg (found.bind SniffResult.domain).or h.domain
  options := h.options
  unresolved := h.unresolved
  resolved := h.resolved

theorem Tracked.lookedUp {name : Str} (hname : l.state.domain = some name)
    (options : Dns.LookupOptions) (answer : Except Failure (List IpAddr)) :
    Tracked input destination (l.lookedUp name options answer) where
  domain := h.domain
  options := h.options
  unresolved := nofun
  resolved := by
    rintro _ _ ⟨⟩
    exact ⟨rfl, h.domain.symm.trans hname⟩

theorem Tracked.resolveAction (options : Dns.LookupOptions) :
    (l.resolveAction input options).All (Tracked input destination) := by
  unfold RouteLoop.resolveAction
  split
  · next name resolver hname _ =>
    dsimp only
    split
    · trivial
    · exact (h.lookedUp hname _ _).move _ _
  · exact h

theorem Tracked.needResolve (index : Nat) :
    Tracked input destination (l.needResolve input index) := by
  unfold RouteLoop.needResolve
  split
  · next name resolver hname _ =>
    dsimp only
    split
    · exact (h.lookedUp hname _ _).move _ _
    · exact (h.lookedUp hname _ _).move _ _
  · exact h.move _ _

theorem Tracked.apply (action : RuleAction) :
    (l.apply env input source action).All (Tracked input destination) := by
  cases action with
  | route decision options | routeOptions options => exact h.merge options
  | sniff sniffers timeout => exact h.sniffed _ _
  | resolve => exact h.resolveAction _

theorem Tracked.step :
    (l.step env input source destination).All (Tracked input destination) := by
  unfold RouteLoop.step
  split
  · exact (h.move _ _).apply _
  · exact h.needResolve _
  · exact h

theorem Tracked.evaluateLoop {l' : RouteLoop}
    (hloop : evaluateLoop env input source destination rounds l = some (.ok (decision, l'))) :
    Tracked input destination l' :=
  evaluateLoop_inv (fun _ h => h.step) h hloop

end RouteLoop

/-! ## Whose addresses are returned -/

theorem overrideDestination_name {destination : Destination} {options : RouteOptions}
    {host : Str} {port : UInt16} (h : overrideDestination destination options = .domain host port) :
    dialledName destination options = some host := by
  unfold overrideDestination at h
  unfold dialledName
  cases haddress : options.overrideAddress with
  | none =>
    cases destination with
    | ip => simp [haddress] at h
    | domain name _ =>
      simp only [haddress, Destination.domain.injEq] at h
      exact congrArg some h.1
  | some given =>
    grind

/-- The addresses were obtained by resolving the name, up to the case of letters and a trailing dot. -/
def Resolves (history : List Round) (host : Str) (addresses : List IpAddr) : Prop :=
  ∃ name, lastLookup history = some (name, .ok addresses) ∧ normalizeDomain name = normalizeDomain host

theorem evaluateRoute_ok {destination : Destination} {evaluation : RouteEvaluation}
    (h : evaluateRoute env input source destination rounds = some (.ok (evaluation, l))) :
    l.Tracked input destination ∧ evaluation.destination = overrideDestination destination l.options ∧
      evaluation.resolvedAddresses = l.state.resolvedAddresses := by
  obtain ⟨result, hloop, hresult⟩ := Option.map_eq_some_iff.mp h
  cases result with
  | error => cases hresult
  | ok final =>
    cases hresult
    exact ⟨RouteLoop.tracked_start.evaluateLoop hloop, rfl, rfl⟩

/-- The addresses that are returned are those of the host that is dialled exactly if the flow had
    the name of that host when they were looked up. -/
theorem resolved_of_evaluation {env : Env} {input : RouteInput} {source : Source} {destination : Destination}
    {rounds : Nat} {evaluation : RouteEvaluation} {l : RouteLoop} {host : Str} {port : UInt16}
    (h : evaluateRoute env input source destination rounds = some (.ok (evaluation, l)))
    (hdestination : evaluation.destination = .domain host port) (hresolved : evaluation.resolvedAddresses ≠ []) :
    Resolves l.history host evaluation.resolvedAddresses ↔
      (resolvedName destination l.history).map normalizeDomain =
        (dialledName destination (optionsInForce input.router.defaultOptions l.history)).map
          normalizeDomain := by
  obtain ⟨htracked, hdial, haddresses⟩ := evaluateRoute_ok h
  rw [← htracked.options, overrideDestination_name (hdial.symm.trans hdestination)]
  -- addresses are returned only after a lookup, and they are its answer
  obtain ⟨name, answer, hlast⟩ : ∃ name answer, lastLookup l.history = some (name, answer) := by
    cases hlast : lastLookup l.history with
    | none => exact absurd (haddresses.trans (htracked.unresolved hlast)) hresolved
    | some entry => exact ⟨entry.1, entry.2, rfl⟩
  obtain ⟨hreturned, hname⟩ := htracked.resolved name answer hlast
  have hanswer : answer = .ok evaluation.resolvedAddresses := by
    rw [haddresses, hreturned]
    cases answer with
    | error e => exact absurd (haddresses.trans hreturned) hresolved
    | ok addresses => rfl
  rw [hname, Option.map_some, Option.map_some, Option.some_inj, Resolves, hlast, hanswer]
  grind

def hostRequest : Bytes := Str.asBytes "GET / HTTP/1.1\r\nHost: b.example\r\n\r\n"

/-- Every read gives a request for `b.example`, with what `sniff_payload` finds in it. -/
def exampleEnv : Env where
  sniffPayload payload udp _ :=
    if payload = hostRequest ∧ udp = false then
      some { protocol := "http", domain := some "b.example".toList, client := none }
    else none
  read _ := some hostRequest

/-- An address for every name. -/
def exampleResolver : Resolver := fun _ name _ =>
  .ok [if name = "a.example" then .v4 #v[192, 0, 2, 1] else .v4 #v[192, 0, 2, 2]]

def exampleRouter (rules : List RouteItems) : Except Failure Router :=
  Router.compile { regex := fun _ => none, ipNet := fun _ => none } (fun _ => .ok [])
    { rules := rules.map fun items => .mk items [] } "direct"

def exampleEvaluation (router : Router) : Option (Except Failure (RouteEvaluation × RouteLoop)) :=
  evaluateTcpRoute exampleEnv
    { peer := (.v4 #v[127, 0, 0, 2], 4000)
      inbound := "socks"
      router := router
      resolver := some exampleResolver }
    [] (.domain "a.example" 443) 8

def resolveItems : RouteItems := { action := some "resolve".toList }

theorem resolved_of_evaluation_plain :
    ∃ router evaluation l, exampleRouter [resolveItems] = .ok router ∧
      exampleEvaluation router = some (.ok (evaluation, l)) ∧
      evaluation.destination = .domain "a.example" 443 ∧
      Resolves l.history "a.example" evaluation.resolvedAddresses := by
  obtain ⟨router, evaluation, l, hrouter, hrun, hdestination, haddresses, hname, hoptions⟩ :
      ∃ router evaluation l, exampleRouter [resolveItems] = .ok router ∧
        exampleEvaluation router = some (.ok (evaluation, l)) ∧
        evaluation.destination = .domain "a.example" 443 ∧
        evaluation.resolvedAddresses = [.v4 #v[192, 0, 2, 1]] ∧
        resolvedName (.domain "a.example" 443) l.history = some "a.example".toList ∧
        (optionsInForce router.defaultOptions l.history).overrideAddress = none :=
    ⟨_, _, _, rfl, rfl, rfl, rfl, rfl, rfl⟩
  have hne : evaluation.resolvedAddresses ≠ [] := by
    rw [haddresses]
    exact List.cons_ne_nil _ _
  refine ⟨router, evaluation, l, hrouter, hrun, hdestination, (resolved_of_evaluation hrun hdestination hne).mpr ?_⟩
  rw [hname, dialledName, hoptions]
  rfl

/-- Two evaluations that return the addresses of another name: the destination is overridden after it
    is resolved, and a sniffed name is resolved in its place. A direct connection is then made to
    them. -/
theorem addresses_of_another_name :
    (∃ router evaluation l, exampleRouter [resolveItems,
        { outbound := some "direct".toList, overrideAddress := some "b.example".toList }] = .ok router ∧
      exampleEvaluation router = some (.ok (evaluation, l)) ∧
      evaluation.destination = .domain "b.example".toList 443 ∧
      lastLookup l.history = some ("a.example".toList, .ok [.v4 #v[192, 0, 2, 1]]) ∧
      ¬ Resolves l.history "b.example".toList evaluation.resolvedAddresses ∧
      connectDirect (fun _ => .ok [.v4 #v[192, 0, 2, 2]]) evaluation.destination evaluation.options
        evaluation.resolvedAddresses = .ok [(.v4 #v[192, 0, 2, 1], 443)]) ∧
    (∃ router evaluation l, exampleRouter [{ action := some "sniff".toList }, resolveItems] = .ok router ∧
      exampleEvaluation router = some (.ok (evaluation, l)) ∧
      evaluation.destination = .domain "a.example".toList 443 ∧
      lastLookup l.history = some ("b.example".toList, .ok [.v4 #v[192, 0, 2, 2]]) ∧
      ¬ Resolves l.history "a.example".toList evaluation.resolvedAddresses ∧
      connectDirect (fun _ => .ok [.v4 #v[192, 0, 2, 1]]) evaluation.destination evaluation.options
        evaluation.resolvedAddresses = .ok [(.v4 #v[192, 0, 2, 2], 443)]) := by
  refine ⟨⟨_, _, _, rfl, rfl, rfl, rfl, ?_, rfl⟩, ⟨_, _, _, rfl, rfl, rfl, rfl, ?_, rfl⟩⟩
  · rintro ⟨name, hlast, hsame⟩
    cases hlast
    revert hsame
    decide
  · rintro ⟨name, hlast, hsame⟩
    cases hlast
    revert hsame
    decide

end Xhttp.Proxy
