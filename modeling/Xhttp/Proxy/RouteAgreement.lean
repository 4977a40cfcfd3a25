import Xhttp.Lib.Scan
import Xhttp.Proxy.Route

/- Route evaluation against `Router::route`.

   `route` is one pass over the rules that match; an evaluation searches for one rule after the
   other with `next_action_lazy` and collects options on the way. For a flow whose destination is
   an address, and rules that only route or set options, nothing the evaluation does changes the
   context of the search. So it goes through the rules that match, in order, one a round
   (`evaluateLoop_matched`), up to the first that routes. -/
namespace Xhttp.Routing
open Xhttp.Lib List

/-! ## Merging options -/

theorem RouteOptions.merge_assoc (a b c : RouteOptions) : (a.merge b).merge c = a.merge (b.merge c) := by
  simp only [RouteOptions.merge, Option.or_assoc, Bool.or_assoc]

theorem RouteOptions.merge_default (a : RouteOptions) : a.merge {} = a := by
  simp only [RouteOptions.merge, Option.none_or, Bool.or_false]

theorem RouteOptions.default_merge (a : RouteOptions) : RouteOptions.merge {} a = a := by
  simp only [RouteOptions.merge, Option.or_none, Bool.false_or]

/-! ## The actions of the rules that match -/

def RuleAction.decision? : RuleAction → Option RouteDecision
  | .route decision _ => some decision
  | _ => none

def RuleAction.options : RuleAction → RouteOptions
  | .route _ options => options
  | .routeOptions options => options
  | _ => {}

/-- The action routes or sets options. -/
def RuleAction.isPlain : RuleAction → Bool
  | .route _ _ => true
  | .routeOptions _ => true
  | _ => false

/-- The options of the actions before the first decision are merged in order, and then those of the
    action that decides. -/
def mergeActions (options : RouteOptions) (actions : List RuleAction) : RouteOptions :=
  let options := (actions.takeWhile fun action => action.decision?.isNone).foldl
    (fun options action => options.merge action.options) options
  match actions.find? fun action => action.decision?.isSome with
  | some action => options.merge action.options
  | none => options

section
variable {options : RouteOptions} {actions : List RuleAction}

theorem mergeActions_nil : mergeActions options [] = options := rfl

theorem mergeActions_route (decision : RouteDecision) (own : RouteOptions) :
    mergeActions options (.route decision own :: actions) = options.merge own := rfl

theorem mergeActions_routeOptions (own : RouteOptions) :
    mergeActions options (.routeOptions own :: actions) = mergeActions (options.merge own) actions := rfl

end

def Router.matchedActions (router : Router) (c : RouteContext) : List RuleAction :=
  (router.rules.filter fun rule => CompiledRule.matches rule c (c.domain.map normalizeDomain)).map
    fun rule => rule.own.action

theorem Router.route_eq (router : Router) (c : RouteContext) :
    router.route c = ((router.matchedActions c).findSome? RuleAction.decision?).getD
      (.outbound router.finalOutbound) := by
  rw [Router.matchedActions, findSome?_map]
  rfl

/-! ## Searching without names -/

section
variable {router : Router} {c : RouteContext}

/-- Without a name no rule waits for an address, and the search finds the next rule that matches. -/
theorem Router.nextActionLazy_of_no_domain (h : c.domain = none) (start : Nat) : router.nextActionLazy c start =
      match passing (fun rule => CompiledRule.matches rule c none) router.rules start with
      | [] => .none
      | (rule, index) :: _ => .action index rule.own.action := by
  simp only [Router.nextActionLazy, h, Option.isSome_none, Bool.and_false, Option.map_none, passing]
  generalize router.rules.zipIdx.drop start = entries
  induction entries with
  | nil => rfl
  | cons entry entries ih =>
    rw [nextActionLazyLoop, Bool.false_and, Bool.false_and, filter_cons]
    split
    · rfl
    · exact ih

end

end Xhttp.Routing

namespace Xhttp.Proxy
open Xhttp.Lib Xhttp.Routing Vless

/-! ## The loop -/

/-- The rounds that are left go through the rules that match, up to the first that routes. -/
theorem evaluateLoop_matched (env : Env) (input : RouteInput) (source : Source) (destination : Destination)
    {c : RouteContext} (hdomain : c.domain = none) :
    ∀ (entries : List (CompiledRule × Nat)) {l : RouteLoop} {rounds : Nat},
      l.context input destination source.network = c →
      passing (fun rule => CompiledRule.matches rule c none) input.router.rules l.state.cursor = entries →
      (∀ entry ∈ entries, entry.1.own.action.isPlain = true) → entries.length < rounds →
      ∃ l', evaluateLoop env input source destination rounds l =
          some (.ok (((entries.map fun entry => entry.1.own.action).findSome? RuleAction.decision?).getD
            (.outbound input.router.finalOutbound), l')) ∧
        l'.options = mergeActions l.options (entries.map fun entry => entry.1.own.action) ∧
        l'.state.resolvedAddresses = l.state.resolvedAddresses
  | _, _, 0, _, _, _, hrounds => absurd hrounds (Nat.not_lt_zero _)
  | [], l, rounds + 1, hcontext, hentries, _, _ => by
    have hstep : l.step env input source destination = .stop (.outbound input.router.finalOutbound) l := by
      rw [RouteLoop.step, hcontext, Router.nextActionLazy_of_no_domain hdomain, hentries]
    simp_all [mergeActions_nil, evaluateLoop]
  | (rule, index) :: rest, l, rounds + 1, hcontext, hentries, hplain, hrounds => by
    have hstep : l.step env input source destination =
        RouteLoop.apply env input source { l with state := { l.state with cursor := index + 1 } } rule.own.action := by
      rw [RouteLoop.step, hcontext, Router.nextActionLazy_of_no_domain hdomain, hentries]
    obtain ⟨hrule, hrest⟩ := List.forall_mem_cons.mp hplain
    rw [evaluateLoop, hstep, List.map_cons]
    cases haction : rule.own.action with
    | route decision own => exact ⟨_, rfl, (mergeActions_route decision own).symm, rfl⟩
    | routeOptions own =>
      obtain ⟨l', hloop, hoptions, hresolved⟩ := evaluateLoop_matched env input source destination hdomain rest
        (l := RouteLoop.merge { l with state := { l.state with cursor := index + 1 } } own) hcontext
        (passing_tail hentries) hrest (Nat.lt_of_succ_lt_succ hrounds)
      exact ⟨l', hloop, hoptions.trans (mergeActions_routeOptions own).symm, hresolved⟩
    | sniff | resolve =>
      rw [haction] at hrule
      cases hrule

/-! ## Whole evaluations -/

def firstContext (input : RouteInput) (source : Source) (destination : Destination) : RouteContext :=
  RouteLoop.context { state := .new destination, options := input.router.defaultOptions } input
    destination source.network

/-- A flow to an address, by rules that only route and set options: its evaluation comes to an end
    with the decision of `route` and with the options of the rules that match, merged in order up
    to the rule that decides. Merging is associative, and the default options change nothing. -/
theorem evaluation_agrees_route (env : Env) (input : RouteInput) (source : Source) (ip : IpAddr) (port : UInt16)
    {rounds : Nat} (hactions : ∀ rule ∈ input.router.rules, rule.own.action.isPlain = true)
    (hrounds : input.router.rules.length < rounds) :
    (∃ l, evaluateRoute env input source (.ip ip port) rounds = some (.ok
      ({ decision := input.router.route (firstContext input source (.ip ip port))
         destination := overrideDestination (.ip ip port) (mergeActions input.router.defaultOptions
           (input.router.matchedActions (firstContext input source (.ip ip port))))
         options := mergeActions input.router.defaultOptions
           (input.router.matchedActions (firstContext input source (.ip ip port)))
         resolvedAddresses := [] }, l))) ∧
    (∀ a b c : RouteOptions, (a.merge b).merge c = a.merge (b.merge c)) ∧
    ∀ a : RouteOptions, a.merge {} = a ∧ RouteOptions.merge {} a = a := by
  refine ⟨?_, RouteOptions.merge_assoc, fun a => ⟨RouteOptions.merge_default a, RouteOptions.default_merge a⟩⟩
  have hmatched : (passing (fun rule => CompiledRule.matches rule (firstContext input source (.ip ip port)) none)
      input.router.rules 0).map (fun entry => entry.1.own.action) =
        input.router.matchedActions (firstContext input source (.ip ip port)) := by
    rw [Router.matchedActions, ← passing_zero, List.map_map]
    rfl
  have hcontext : RouteLoop.context { state := .new (.ip ip port), options := input.router.defaultOptions } input
      (.ip ip port) source.network = firstContext input source (.ip ip port) := rfl
  obtain ⟨l, hloop, hoptions, hresolved⟩ := evaluateLoop_matched env input source (.ip ip port) rfl _ hcontext rfl
    (fun entry hentry => hactions entry.1 (mem_of_mem_passing hentry)) (Nat.lt_of_le_of_lt length_passing_le hrounds)
  have hstart : (RouteState.new (.ip ip port)).cursor = 0 := rfl
  have hnone : (RouteState.new (.ip ip port)).resolvedAddresses = [] := rfl
  simp_all [evaluateRoute, Option.map_some, Except.map, Router.route_eq]

/-- A router that sets options for port 80 and for every flow, and then routes. -/
def optionsRouter : Router where
  rules :=
    [.node { ports := [(80, 80)], action := .routeOptions { udpConnect := true } } none [] [],
     .node { action := .routeOptions { overridePort := some 8443 } } none [] [],
     .node { ports := [(443, 443)], action := .route (.outbound "proxy") { udpFragment := some true } } none [] []]
  ruleSets := ∅
  finalOutbound := "direct"
  defaultOptions := { routingMark := some 1 }
  defaultDomainResolver := none

def optionsInput : RouteInput where
  peer := (.v4 #v[10, 0, 0, 2], 5000)
  inbound := "in"
  router := optionsRouter
  resolver := none

def silentEnv : Env where
  sniffPayload _ _ _ := none
  read _ := none

theorem evaluation_agrees_route_options :
    (∃ l, evaluateRoute silentEnv optionsInput .stream (.ip (.v4 #v[9, 9, 9, 9]) 443) 4 = some (.ok
      ({ decision := optionsRouter.route (firstContext optionsInput .stream (.ip (.v4 #v[9, 9, 9, 9]) 443))
         destination := .ip (.v4 #v[9, 9, 9, 9]) 8443
         options := { routingMark := some 1, overridePort := some 8443, udpFragment := some true }
         resolvedAddresses := [] }, l))) ∧
    optionsRouter.route (firstContext optionsInput .stream (.ip (.v4 #v[9, 9, 9, 9]) 443)) = .outbound "proxy" := by
  refine ⟨?_, by decide⟩
  refine (evaluation_agrees_route silentEnv optionsInput .stream (.v4 #v[9, 9, 9, 9]) 443 ?_ ?_).1
  · simp [optionsInput, optionsRouter, Condition.own, RuleAction.isPlain]
  · decide

end Xhttp.Proxy
