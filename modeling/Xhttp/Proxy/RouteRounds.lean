import Xhttp.Proxy.RouteAgreement
import Xhttp.Routing.Lazy

/- How long a route evaluation takes: its rounds, and the lookups it makes for `NeedResolve`.

   A round that finds a rule moves the cursor past it. `NeedResolve` may leave the cursor where it is, but only together
   with an address, and a flow that has an address never needs one again. So what a round lowers is the number of
   rules that are left plus one while there is no address (`roundsLeft`).

   `need_resolve` sets `resolved`, but nothing reads this before the next lookup: after a lookup without an answer the
   next rule that asks for an address is looked up again (`resolved_once_iff`). -/
namespace Xhttp.Routing
open Xhttp.Lib

/-! ## Where a search stops -/

/-- The index of the rule that a search stopped at. -/
def ActionLookup.index? : ActionLookup → Option Nat
  | .action index _ => some index
  | .needResolve index => some index
  | .none => .none

namespace Router
variable {router : Router} {c : RouteContext}

theorem nextActionLazy_index (router : Router) (c : RouteContext) (start : Nat) :
    ∀ i, (router.nextActionLazy c start).index? = some i → start ≤ i ∧ i < router.rules.length := by
  induction start using scan_induct router with
  | done i hnone =>
    intro j hj
    rw [nextActionLazy_none hnone] at hj
    cases hj
  | step i rule hrule ih =>
    intro j hj
    rw [nextActionLazy_some hrule] at hj
    grind [ActionLookup.index?, Option.some.injEq]

theorem mem_of_action {start i : Nat} {action : RuleAction} (h : router.nextActionLazy c start = .action i action) :
    ∃ rule ∈ router.rules, rule.own.action = action := by
  induction start using scan_induct router with
  | done j hnone =>
    rw [nextActionLazy_none hnone] at h
    cases h
  | step j rule hrule ih =>
    rw [nextActionLazy_some hrule] at h
    grind

/-- A search asks for addresses only in a context that has none. -/
theorem addresses_of_needResolve {start i : Nat} (h : router.nextActionLazy c start = .needResolve i) :
    c.destinationAddresses = [] := by
  by_contra hne
  rw [nextActionLazy_of_addresses hne] at h
  cases hnext : router.nextAction c start <;> rw [hnext] at h <;> cases h

end Router

end Xhttp.Routing

namespace Xhttp.Proxy
open Xhttp.Lib Xhttp.Routing Vless

/-! ## Resolvers -/

def Resolver.NonEmpty (resolver : Resolver) : Prop :=
  ∀ history name options, resolver history name options ≠ .ok []

/-- `resolve_for_route`: `timely` says which lookups end before their timeout, and `lookupType` what
    the lookups of single types return. -/
def resolveForRoute (r : Dns.DnsResolver) (ruleSets : Option CompiledRuleSetMap) (timely : List Round → Bool)
    (lookupType : List Round → UInt16 → Except Failure (List IpAddr)) : Resolver := fun history name options =>
  if timely history then r.lookupWithOptions ruleSets name options (lookupType history)
  else .error (.message "route DNS resolution timeout")

theorem lookupWithOptions_ne_nil (r : Dns.DnsResolver) (ruleSets : Option CompiledRuleSetMap) (domain : Str)
    (options : Dns.LookupOptions) (lookupType : UInt16 → Except Failure (List IpAddr)) :
    r.lookupWithOptions ruleSets domain options lookupType ≠ .ok [] := by
  intro h
  obtain ⟨_, -, h⟩ := Checked.bind_ok_iff.mp h
  obtain ⟨_, hbail, h⟩ := Checked.bind_ok_iff.mp h
  have hne := (Checked.bailIf_ok_iff.mp hbail)
  exact hne (Except.ok.inj h)

theorem resolveForRoute_nonEmpty (r : Dns.DnsResolver) (ruleSets : Option CompiledRuleSetMap)
    (timely : List Round → Bool) (lookupType : List Round → UInt16 → Except Failure (List IpAddr)) :
    (resolveForRoute r ruleSets timely lookupType).NonEmpty := by
  intro history name options
  grind [resolveForRoute, lookupWithOptions_ne_nil]

/-! ## Rounds -/

namespace RouteLoop
variable {env : Env} {input : RouteInput} {source : Source} {destination : Destination} {l l' : RouteLoop}

def isUnresolved (l : RouteLoop) : Bool := l.state.destinationIps.isEmpty && l.state.destinationIp.isNone

/-- The rules that are left, and one more while there is no address. -/
def roundsLeft (input : RouteInput) (l : RouteLoop) : Nat :=
  (input.router.rules.length - l.state.cursor) + l.isUnresolved.toNat

theorem isUnresolved_iff : l.isUnresolved = true ↔ l.state.destinationIps = [] ∧ l.state.destinationIp = none := by
  simp [isUnresolved]

theorem isUnresolved_iff_context (network : Str) :
    l.isUnresolved = true ↔ (l.context input destination network).destinationAddresses = [] := by
  simp [isUnresolved, RouteContext.destinationAddresses, context]

/-- A `resolve` action leaves an address, or everything as it is. -/
theorem resolveAction_next (hresolver : ∀ resolver ∈ input.resolver, Resolver.NonEmpty resolver)
    {options : Dns.LookupOptions} (h : l.resolveAction input options = .next l') :
    l'.state.cursor = l.state.cursor ∧ (l'.isUnresolved = true → l.isUnresolved = true) := by
  unfold resolveAction at h
  split at h
  · next name resolver hname hsome =>
    dsimp only at h
    split at h
    · cases h
    · next addresses hanswer =>
      cases h
      refine ⟨rfl, fun hunresolved => ?_⟩
      have hnil : addresses = [] := (isUnresolved_iff.mp hunresolved).1
      rw [hnil] at hanswer
      exact absurd hanswer (hresolver resolver hsome _ _ _)
  · cases h
    exact ⟨rfl, id⟩

theorem apply_next {action : RuleAction}
    (hresolver : action.isPlain = true ∨ ∀ resolver ∈ input.resolver, Resolver.NonEmpty resolver)
    (h : l.apply env input source action = .next l') :
    l'.state.cursor = l.state.cursor ∧ (l'.isUnresolved = true → l.isUnresolved = true) := by
  cases action with
  | route decision options => cases h
  | routeOptions options | sniff sniffers timeout =>
    cases h
    exact ⟨rfl, id⟩
  | resolve =>
    have hanswers := hresolver.resolve_left Bool.false_ne_true
    exact resolveAction_next hanswers h

/-- `need_resolve` moves past the rule, or leaves an address. -/
theorem needResolve_moves (input : RouteInput) (l : RouteLoop) (index : Nat) :
    (l.needResolve input index).state.cursor = index + 1 ∨
    ((l.needResolve input index).state.cursor = index ∧ (l.needResolve input index).isUnresolved = false) := by
  grind [needResolve, isUnresolved]

section
variable {resolver : Resolver} {name : Str} (hname : l.state.domain = some name)
  (hresolver : input.resolver = some resolver)
include hname hresolver

/-- After a lookup without an answer the flow is what it was, and the search goes on after the rule. -/
theorem needResolve_of_empty (destination : Destination) (network : Str) (index : Nat)
    (hunresolved : l.state.destinationIps = [])
    (h : (resolver l.history name { server := input.router.defaultDomainResolver }).toOption.getD [] = []) :
    (l.needResolve input index).state.cursor = index + 1 ∧
      (l.needResolve input index).history = .lookup name { server := input.router.defaultDomainResolver }
        (resolver l.history name { server := input.router.defaultDomainResolver }) :: l.history ∧
      (l.needResolve input index).context input destination network = l.context input destination network := by
  simp [needResolve, hname, hresolver, lookedUp, h, context, hunresolved]

theorem needResolve_of_found (index : Nat)
    (h : (resolver l.history name { server := input.router.defaultDomainResolver }).toOption.getD [] ≠ []) :
    (l.needResolve input index).isUnresolved = false ∧
      (l.needResolve input index).history = .lookup name { server := input.router.defaultDomainResolver }
        (resolver l.history name { server := input.router.defaultDomainResolver }) :: l.history := by
  obtain ⟨first, rest, hcons⟩ := List.exists_cons_of_ne_nil h
  simp [needResolve, hname, hresolver, lookedUp, hcons, isUnresolved]

end

/-- Every round lowers what is left. -/
theorem roundsLeft_step (hresolver : (∀ rule ∈ input.router.rules, rule.own.action.isPlain = true) ∨
      ∀ resolver ∈ input.resolver, Resolver.NonEmpty resolver)
    (h : l.step env input source destination = .next l') : l'.roundsLeft input < l.roundsLeft input := by
  unfold step at h
  have hindex := input.router.nextActionLazy_index (l.context input destination source.network) l.state.cursor
  split at h
  · next index action hfound =>
    rw [hfound] at hindex
    have hbounds := hindex index rfl
    obtain ⟨rule, hrule, haction⟩ := Router.mem_of_action hfound
    obtain ⟨hcursor, hstays⟩ := apply_next (hresolver.imp_left fun hplain => haction ▸ hplain rule hrule) h
    have hcursor' : l'.state.cursor = index + 1 := hcursor
    have hsame : l'.isUnresolved.toNat ≤ l.isUnresolved.toNat := Bool.toNat_le_toNat hstays
    unfold roundsLeft
    omega
  · next index hfound =>
    rw [hfound] at hindex
    have hbounds := hindex index rfl
    have hnone : l.isUnresolved = true :=
      (isUnresolved_iff_context source.network).mpr (Router.addresses_of_needResolve hfound)
    have hone : l'.isUnresolved.toNat ≤ 1 := Bool.toNat_le _
    grind [roundsLeft, needResolve_moves]
  · cases h

end RouteLoop

theorem evaluateLoop_isSome (env : Env) {input : RouteInput} (source : Source) (destination : Destination)
    (hresolver : (∀ rule ∈ input.router.rules, rule.own.action.isPlain = true) ∨
      ∀ resolver ∈ input.resolver, Resolver.NonEmpty resolver) (rounds : Nat) :
    ∀ l : RouteLoop, l.roundsLeft input < rounds →
      ∃ result, evaluateLoop env input source destination rounds l = some result := by
  induction rounds with
  | zero =>
    omega
  | succ rounds ih =>
    intro l h
    rw [evaluateLoop]
    split
    · next l' hnext =>
      have hless := RouteLoop.roundsLeft_step hresolver hnext
      apply ih
      omega
    · exact ⟨_, rfl⟩
    · exact ⟨_, rfl⟩

theorem roundsLeft_start (input : RouteInput) (destination : Destination) :
    RouteLoop.roundsLeft input { state := .new destination, options := input.router.defaultOptions } <
      input.router.rules.length + 2 := by
  have hone := Bool.toNat_le (RouteLoop.isUnresolved
    { state := .new destination, options := input.router.defaultOptions })
  unfold RouteLoop.roundsLeft
  omega

/-- An evaluation by `n` rules ends after at most `n + 2` rounds, whatever is sniffed and whatever the
    lookups return, as long as one that succeeds has an address. -/
theorem evaluation_terminates (env : Env) (input : RouteInput) (destination : Destination)
    (hresolver : ∀ resolver ∈ input.resolver, Resolver.NonEmpty resolver) :
    (∀ initial, ∃ result,
      evaluateTcpRoute env input initial destination (input.router.rules.length + 2) = some result) ∧
    (∃ result, evaluateStreamTcpRoute env input destination (input.router.rules.length + 2) = some result) ∧
    ∀ payload, ∃ result,
      evaluateUdpRoute env input destination payload (input.router.rules.length + 2) = some result := by
  have hsome : ∀ source, ∃ result,
      evaluateRoute env input source destination (input.router.rules.length + 2) = some result := by
    intro source
    obtain ⟨result, hresult⟩ := evaluateLoop_isSome env source destination (.inr hresolver) _ _
      (roundsLeft_start input destination)
    exact ⟨_, by rw [evaluateRoute, hresult, Option.map_some]⟩
  exact ⟨fun initial => hsome (.tcp initial), hsome .stream, fun payload => hsome (.udp payload)⟩

/-- A router with rules for `10.0.0.0/8`, one for each outbound. -/
def prefixRouter (outbounds : List Str) : Router where
  rules := outbounds.map fun tag => .node
    { cidrs := (Router.tenCrates.ipNet []).toList, action := .route (.outbound tag) {},
      requiresDestinationIp := true } none [] []
  ruleSets := ∅
  finalOutbound := "direct"
  defaultOptions := {}
  defaultDomainResolver := none

def prefixInput (outbounds : List Str) (resolver : Resolver) : RouteInput where
  peer := (.v4 #v[127, 0, 0, 3], 4000)
  inbound := "socks"
  router := prefixRouter outbounds
  resolver := some resolver

def oneAddress : Resolver :=
  resolveForRoute { servers := ∅, rules := [], finalTag := [] } none (fun _ => true) fun _ qtype =>
    if qtype = 1 then .ok [.v4 #v[192, 0, 2, 77]] else .ok []

/-- The one rule is looked at before and after the domain is resolved. -/
theorem evaluation_terminates_prefix :
    oneAddress.NonEmpty ∧ ∃ result,
      evaluateUdpRoute silentEnv (prefixInput ["lan"] oneAddress) (.domain "a.example" 443) [] 3 =
        some result := by
  have hanswers : oneAddress.NonEmpty := resolveForRoute_nonEmpty _ _ _ _
  refine ⟨hanswers, ?_⟩
  have hresolver : ∀ resolver ∈ (prefixInput ["lan"] oneAddress).resolver, Resolver.NonEmpty resolver := by
    intro resolver hsome
    cases hsome
    exact hanswers
  exact (evaluation_terminates silentEnv _ (.domain "a.example" 443) hresolver).2.2 []

/-! ## Lookups for `NeedResolve` -/

/-- What the rules do one after the other in a context with a name and no address, up to the first that
    routes: options that are set, or a request for addresses. -/
def unresolvedPass (c : RouteContext) : List CompiledRule → List (Option RouteOptions)
  | [] => []
  | rule :: rules =>
    if rule.matches c (c.domain.map normalizeDomain) then
      match rule.own.action with
      | .routeOptions options => some options :: unresolvedPass c rules
      | _ => []
    else if rule.own.requiresDestinationIp && rule.domainFieldsMatch (c.domain.map normalizeDomain) then
      none :: unresolvedPass c rules
    else unresolvedPass c rules

def asked (pass : List (Option RouteOptions)) : Nat := pass.countP Option.isNone

/-- What was done before the first request. -/
def beforeAsking (pass : List (Option RouteOptions)) : List Round :=
  ((pass.takeWhile Option.isSome).filterMap (Option.map Round.options)).reverse

def Round.isLookup : Round → Bool
  | .lookup _ _ _ => true
  | _ => false

def lookups (history : List Round) : Nat := history.countP Round.isLookup

theorem lookups_lookup (name : Str) (options : Dns.LookupOptions) (answer : Except Failure (List IpAddr))
    (history : List Round) : lookups (.lookup name options answer :: history) = lookups history + 1 := by
  rw [lookups, List.countP_cons_of_pos (by rfl), lookups]

/-- The lookups that are made for a pass over the rules, after what the history has. -/
def lookupsMade (resolver : Resolver) (name : Str) (options : Dns.LookupOptions) :
    List Round → List (Option RouteOptions) → Nat
  | _, [] => 0
  | history, some merged :: pass => lookupsMade resolver name options (.options merged :: history) pass
  | history, none :: pass =>
    let answer := resolver history name options
    if answer.toOption.getD [] = [] then
      1 + lookupsMade resolver name options (.lookup name options answer :: history) pass
    else 1

section
variable (resolver : Resolver) (name : Str) (options : Dns.LookupOptions)

theorem lookupsMade_eq_zero (pass : List (Option RouteOptions)) :
    ∀ history, lookupsMade resolver name options history pass = 0 ↔ asked pass = 0 := by
  induction pass with
  | nil =>
    simp [lookupsMade, asked]
  | cons first pass ih =>
    intro history
    cases first with
    | some merged =>
      rw [lookupsMade, ih]
      simp [asked]
    | none =>
      simp only [lookupsMade, asked, List.countP_cons, Option.isNone_none, if_true]
      split <;> omega

/-- There is at most one lookup if at most one rule asks, or if the first lookup finds an address. -/
theorem lookupsMade_le_one_iff (pass : List (Option RouteOptions)) :
    ∀ history, lookupsMade resolver name options history pass ≤ 1 ↔
      asked pass ≤ 1 ∨ (resolver (beforeAsking pass ++ history) name options).toOption.getD [] ≠ [] := by
  induction pass with
  | nil =>
    simp [lookupsMade, asked]
  | cons first pass ih =>
    intro history
    cases first with
    | some merged =>
      have hbefore :
          beforeAsking (some merged :: pass) ++ history = beforeAsking pass ++ .options merged :: history := by
        simp [beforeAsking]
      have hasked : asked (some merged :: pass) = asked pass := by simp [asked]
      rw [lookupsMade, ih, hbefore, hasked]
    | none =>
      have hbefore : beforeAsking (none :: pass) ++ history = history := by simp [beforeAsking]
      have hasked : asked (none :: pass) = asked pass + 1 := by simp [asked]
      rw [hbefore, hasked, lookupsMade]
      by_cases hempty : (resolver history name options).toOption.getD [] = []
      · have hzero := lookupsMade_eq_zero resolver name options pass
          (.lookup name options (resolver history name options) :: history)
        simp only [hempty, if_true, ne_eq, not_true_eq_false, or_false]
        omega
      · simp [hempty]

end

section
variable {router : Router} {c : RouteContext}

theorem unresolvedPass_drop (hdomain : c.domain.isSome = true) (haddresses : c.destinationAddresses = [])
    (start : Nat) :
    unresolvedPass c (router.rules.drop start) = match router.nextActionLazy c start with
      | .action i (.routeOptions options) => some options :: unresolvedPass c (router.rules.drop (i + 1))
      | .needResolve i => none :: unresolvedPass c (router.rules.drop (i + 1))
      | _ => [] := by
  induction start using Router.scan_induct router with
  | done i hnone =>
    rw [Router.nextActionLazy_none hnone, List.drop_eq_nil_of_le (List.getElem?_eq_none_iff.mp hnone)]
    rfl
  | step i rule hrule ih =>
    obtain ⟨hlt, hget⟩ := List.getElem?_eq_some_iff.mp hrule
    rw [List.drop_eq_getElem_cons hlt, hget, unresolvedPass, Router.nextActionLazy_some hrule, haddresses, hdomain]
    grind

end

section
variable {env : Env} {input : RouteInput} {source : Source} {destination : Destination} {rounds : Nat}
  {decision : RouteDecision} {l l' : RouteLoop}

theorem step_no_resolver (hresolver : input.resolver = none) (l : RouteLoop) :
    (l.step env input source destination).All fun l' => lookups l'.history = lookups l.history := by
  unfold RouteLoop.step
  split
  · next index action _ =>
    cases action with
    | resolve =>
      unfold RouteLoop.apply RouteLoop.resolveAction
      simp [hresolver, Control.All]
    | _ => rfl
  · unfold RouteLoop.needResolve
    simp [hresolver, Control.All]
  · rfl

theorem evaluateLoop_no_resolver (hresolver : input.resolver = none)
    (h : evaluateLoop env input source destination rounds l = some (.ok (decision, l'))) :
    lookups l'.history = lookups l.history := by
  refine evaluateLoop_inv (I := fun x => lookups x.history = lookups l.history) ?_ rfl h
  intro x hx
  rw [← hx]
  exact step_no_resolver hresolver x

variable (hactions : ∀ rule ∈ input.router.rules, rule.own.action.isPlain = true)
include hactions

/-- A round by rules that only route and set options, in a context with an address, makes no lookup and
    keeps the address. -/
theorem step_resolved (l : RouteLoop) (hresolved : l.isUnresolved = false) :
    (l.step env input source destination).All fun l' =>
      l'.isUnresolved = false ∧ lookups l'.history = lookups l.history := by
  unfold RouteLoop.step
  split
  · next index action hfound =>
    obtain ⟨rule, hrule, rfl⟩ := Router.mem_of_action hfound
    have hplain := hactions rule hrule
    cases haction : rule.own.action with
    | route decision options | routeOptions options => exact ⟨hresolved, rfl⟩
    | sniff | resolve => simp [haction, RuleAction.isPlain] at hplain
  · grind [RouteLoop.isUnresolved_iff_context, Router.addresses_of_needResolve]
  · exact ⟨hresolved, rfl⟩

theorem evaluateLoop_resolved (hresolved : l.isUnresolved = false)
    (h : evaluateLoop env input source destination rounds l = some (.ok (decision, l'))) :
    lookups l'.history = lookups l.history := by
  refine (evaluateLoop_inv (I := fun x => x.isUnresolved = false ∧ lookups x.history = lookups l.history)
    ?_ ⟨hresolved, rfl⟩ h).2
  intro x hx
  rw [← hx.2]
  exact step_resolved hactions x hx.1

theorem evaluateLoop_ok {result : Except Failure (RouteDecision × RouteLoop)} (rounds : Nat) :
    ∀ l : RouteLoop, evaluateLoop env input source destination rounds l = some result →
      ∃ decision l', result = .ok (decision, l') := by
  induction rounds with
  | zero =>
    intro l h
    cases h
  | succ rounds ih =>
    intro l h
    rw [evaluateLoop] at h
    split at h
    · exact ih _ h
    · cases h
      exact ⟨_, _, rfl⟩
    · next e hfail =>
      unfold RouteLoop.step at hfail
      split at hfail
      · next index action hfound =>
        obtain ⟨rule, hrule, rfl⟩ := Router.mem_of_action hfound
        have hplain := hactions rule hrule
        cases haction : rule.own.action <;> simp [haction, RuleAction.isPlain] at hplain <;>
          rw [haction] at hfail <;> cases hfail
      · cases hfail
      · cases hfail

/-- The lookups of a loop without an address are those of the pass over the rules that are left. -/
theorem evaluateLoop_lookups {resolver : Resolver} {name : Str} {c : RouteContext}
    (hresolver : input.resolver = some resolver)
    (hname : c.domain = some name) (haddresses : c.destinationAddresses = [])
    (hcontext : l.context input destination source.network = c)
    (h : evaluateLoop env input source destination rounds l = some (.ok (decision, l'))) :
    lookups l'.history = lookups l.history +
      lookupsMade resolver name { server := input.router.defaultDomainResolver } l.history
        (unresolvedPass c (input.router.rules.drop l.state.cursor)) := by
  have hdomain : c.domain.isSome = true := by rw [hname, Option.isSome_some]
  induction rounds generalizing l with
  | zero => cases h
  | succ rounds ih =>
    rw [evaluateLoop] at h
    unfold RouteLoop.step at h
    rw [hcontext] at h
    rw [unresolvedPass_drop hdomain haddresses]
    cases hfound : input.router.nextActionLazy c l.state.cursor with
    | none =>
      rw [hfound] at h
      cases h
      rfl
    | action index action =>
      rw [hfound] at h
      obtain ⟨rule, hrule, rfl⟩ := Router.mem_of_action hfound
      have hplain := hactions rule hrule
      cases haction : rule.own.action with
      | route decision options =>
        rw [haction] at h
        cases h
        rfl
      | routeOptions options =>
        rw [haction] at h
        exact ih (l := RouteLoop.merge { l with state := { l.state with cursor := index + 1 } } options) hcontext h
      | sniff | resolve => simp [haction, RuleAction.isPlain] at hplain
    | needResolve index =>
      rw [hfound] at h
      have hstate : l.state.domain = some name := (congrArg RouteContext.domain hcontext).trans hname
      have hips : l.state.destinationIps = [] :=
        (RouteLoop.isUnresolved_iff.mp
          ((RouteLoop.isUnresolved_iff_context source.network).mpr (hcontext ▸ haddresses))).1
      rw [lookupsMade]
      by_cases hempty : (resolver l.history name { server := input.router.defaultDomainResolver }).toOption.getD [] = []
      · -- the context is as before, and the next rule that asks is looked up again
        grind [RouteLoop.needResolve_of_empty, lookups_lookup]
      · rw [if_neg hempty]
        obtain ⟨hresolved, hhistory⟩ := RouteLoop.needResolve_of_found hstate hresolver index hempty
        rw [evaluateLoop_resolved hactions hresolved h, hhistory, lookups_lookup]

end

/-- A flow to a domain, by rules that only route and set options: its evaluation ends, and it has made at most one
    lookup if and only if there is no resolver, or at most one rule before the one that routes asks for an address, or
    the lookup for the first that does finds one. -/
theorem resolved_once_iff (env : Env) (input : RouteInput) (source : Source) (name : Str) (port : UInt16)
    (hactions : ∀ rule ∈ input.router.rules, rule.own.action.isPlain = true) :
    ∃ evaluation l, evaluateRoute env input source (.domain name port) (input.router.rules.length + 2) =
        some (.ok (evaluation, l)) ∧
      (lookups l.history ≤ 1 ↔
        input.resolver = none ∨
        asked (unresolvedPass (firstContext input source (.domain name port)) input.router.rules) ≤ 1 ∨
        ∃ resolver address rest, input.resolver = some resolver ∧
          resolver (beforeAsking
            (unresolvedPass (firstContext input source (.domain name port)) input.router.rules)) name
            { server := input.router.defaultDomainResolver } = .ok (address :: rest)) := by
  obtain ⟨result, hresult⟩ := evaluateLoop_isSome env source (.domain name port) (.inl hactions) _ _
    (roundsLeft_start input (.domain name port))
  obtain ⟨decision, l, rfl⟩ := evaluateLoop_ok hactions _ _ hresult
  refine ⟨_, l, by rw [evaluateRoute, hresult]; rfl, ?_⟩
  cases hresolver : input.resolver with
  | none =>
    rw [evaluateLoop_no_resolver hresolver hresult]
    simp [lookups]
  | some resolver =>
    have hcount : lookups l.history = lookups [] + lookupsMade resolver name
        { server := input.router.defaultDomainResolver } []
        (unresolvedPass (firstContext input source (.domain name port)) input.router.rules) :=
      evaluateLoop_lookups hactions hresolver rfl rfl rfl hresult
    have hnone : lookups [] = 0 := rfl
    rw [hcount, hnone, Nat.zero_add, lookupsMade_le_one_iff, List.append_nil]
    simp only [reduceCtorEq, false_or, Option.some.injEq]
    apply or_congr_right
    constructor
    · intro hfound
      obtain ⟨address, rest, hcons⟩ := List.exists_cons_of_ne_nil hfound
      refine ⟨resolver, address, rest, rfl, ?_⟩
      cases hanswer : resolver (beforeAsking (unresolvedPass (firstContext input source (.domain name port))
          input.router.rules)) name { server := input.router.defaultDomainResolver } with
      | error e => simp [hanswer, Except.toOption] at hcons
      | ok addresses =>
        rw [hanswer] at hcons
        exact congrArg Except.ok hcons
    simp_all [Except.toOption]

theorem resolved_once_iff_found :
    ∃ evaluation l, evaluateRoute silentEnv (prefixInput ["lan", "vpn"] oneAddress) .stream
        (.domain "a.example" 443) 4 = some (.ok (evaluation, l)) ∧ lookups l.history ≤ 1 := by
  obtain ⟨evaluation, l, hrun, hiff⟩ := resolved_once_iff silentEnv
    (prefixInput ["lan", "vpn"] oneAddress) .stream "a.example" 443 (by decide)
  refine ⟨evaluation, l, hrun, hiff.mpr (.inr (.inr ⟨oneAddress, .v4 #v[192, 0, 2, 77], [], rfl, ?_⟩))⟩
  decide +kernel

/-- Every lookup runs into its timeout: each of two rules costs one. -/
theorem looked_up_twice :
    Router.compile Router.tenCrates (fun _ => .ok [])
      { rules := ["lan".toList, "vpn".toList].map fun tag =>
          .mk { ipCidr := ["10.0.0.0/8".toList], outbound := some tag } [] } "direct".toList =
        .ok (prefixRouter ["lan".toList, "vpn".toList]) ∧
    (∀ rule ∈ (prefixRouter ["lan".toList, "vpn".toList]).rules, rule.own.action.isPlain = true) ∧
    ∃ evaluation l, evaluateRoute silentEnv
        (prefixInput ["lan".toList, "vpn".toList] (resolveForRoute { servers := ∅, rules := [], finalTag := [] } none
          (fun _ => false) fun _ _ => .ok [])) .stream (.domain "a.example".toList 443) 4 = some (.ok (evaluation, l)) ∧
      evaluation.decision = .outbound "direct".toList ∧ lookups l.history = 2 := by
  exact ⟨rfl, by decide, _, _, rfl, rfl, rfl⟩

end Xhttp.Proxy
