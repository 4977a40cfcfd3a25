import Xhttp.Routing.Matching

/- Which classes of Linux metadata the rules of a router ask about (`metadata_scope` and `linux_metadata_scope` in
   `src/routing.rs`, `LinuxMetadataScope` in `src/linux_route.rs`).

   The scope is computed by a recursion over the rules that must not forget a field that matching looks at: if two
   contexts agree on the classes of the scope and on everything that is not metadata, the router takes the same
   action in both (`Router.nextAction_agree`, `Router.route_agree`). -/
namespace Xhttp.Routing
open Xhttp.Lib Vless

/-! ## Scopes -/

structure LinuxMetadataScope where
  process : Bool := false
  user : Bool := false
  interface : Bool := false
  network : Bool := false
  mac : Bool := false
  hostname : Bool := false
  deriving DecidableEq, Repr

/-- The classes of metadata, one for each flag of a scope. -/
inductive MetadataClass where
  | process
  | user
  | interface
  | network
  | mac
  | hostname
  deriving DecidableEq, Repr

namespace LinuxMetadataScope

def isEmpty (scope : LinuxMetadataScope) : Bool := scope == {}

def union (a b : LinuxMetadataScope) : LinuxMetadataScope where
  process := a.process || b.process
  user := a.user || b.user
  interface := a.interface || b.interface
  network := a.network || b.network
  mac := a.mac || b.mac
  hostname := a.hostname || b.hostname

def all : LinuxMetadataScope where
  process := true
  user := true
  interface := true
  network := true
  mac := true
  hostname := true

def requests (scope : LinuxMetadataScope) : MetadataClass → Bool
  | .process => scope.process
  | .user => scope.user
  | .interface => scope.interface
  | .network => scope.network
  | .mac => scope.mac
  | .hostname => scope.hostname

/-- Every class that the one requests, the other does. -/
instance : LE LinuxMetadataScope where
  le a b := ∀ k, a.requests k = true → b.requests k = true

variable {a b c : LinuxMetadataScope}

@[simp] theorem requests_union (k : MetadataClass) : (a.union b).requests k = (a.requests k || b.requests k) := by
  cases k <;> rfl

theorem requests_all (k : MetadataClass) : all.requests k = true := by
  cases k <;> rfl

theorem requests_of_isEmpty (h : a.isEmpty = true) (k : MetadataClass) : a.requests k = false := by
  rw [eq_of_beq h]
  cases k <;> rfl

theorem le_refl (a : LinuxMetadataScope) : a ≤ a := fun _ h => h

theorem le_trans (hab : a ≤ b) (hbc : b ≤ c) : a ≤ c := fun k h => hbc k (hab k h)

theorem le_union_left (a b : LinuxMetadataScope) : a ≤ a.union b := fun k h => by simp [h]

theorem le_union_right (a b : LinuxMetadataScope) : b ≤ a.union b := fun k h => by simp [h]

/-- The scope of a list, as the loops over rules collect it. -/
def unionAll {α : Type} (f : α → LinuxMetadataScope) (scope : LinuxMetadataScope) (xs : List α) : LinuxMetadataScope :=
  xs.foldl (fun scope x => scope.union (f x)) scope

section
variable {α : Type} (f : α → LinuxMetadataScope)

theorem le_unionAll (xs : List α) : ∀ scope, scope ≤ unionAll f scope xs := by
  induction xs with
  | nil => exact le_refl
  | cons x xs ih => exact fun scope => le_trans (le_union_left scope (f x)) (ih _)

theorem mem_le_unionAll {xs : List α} {x : α} (h : x ∈ xs) (scope : LinuxMetadataScope) :
    f x ≤ unionAll f scope xs := by
  induction xs generalizing scope with
  | nil => cases h
  | cons y ys ih =>
    rcases List.mem_cons.mp h with rfl | hmem
    · exact le_trans (le_union_right scope (f x)) (le_unionAll f ys _)
    · exact ih hmem _

end

end LinuxMetadataScope

open LinuxMetadataScope

/-! ## The scope of a router -/

/-- What the fields of one rule ask about. -/
def RuleFields.metadataScope (f : RuleFields) : LinuxMetadataScope where
  process := !f.processNames.isEmpty || !f.processPaths.isEmpty || !f.processPathRegexes.isEmpty ||
    !f.packageNames.isEmpty || !f.packageNameRegexes.isEmpty
  user := !f.users.isEmpty || !f.userIds.isEmpty
  interface := !f.interfaceAddresses.entries.isEmpty || !f.networkInterfaceAddresses.entries.isEmpty
  network := !f.networkTypes.isEmpty || f.networkIsExpensive || f.networkIsConstrained || !f.wifiSsids.isEmpty ||
    !f.wifiBssids.isEmpty || !f.defaultInterfaceAddresses.isEmpty
  mac := !f.sourceMacAddresses.isEmpty
  hostname := !f.sourceHostnames.isEmpty

mutual

def CompiledRule.metadataScope : CompiledRule → LinuxMetadataScope
  | .node fields _ nested sets => metadataScopeSets (metadataScopeAll fields.metadataScope nested) sets

/-- The loop over the nested rules, and over the rules of a set. -/
def CompiledRule.metadataScopeAll : LinuxMetadataScope → List CompiledRule → LinuxMetadataScope
  | scope, [] => scope
  | scope, rule :: rules => metadataScopeAll (scope.union (CompiledRule.metadataScope rule)) rules

def CompiledRule.metadataScopeSets : LinuxMetadataScope → List (List CompiledRule) → LinuxMetadataScope
  | scope, [] => scope
  | scope, set :: sets => metadataScopeSets (metadataScopeAll scope set) sets

end

def Router.linuxMetadataScope (router : Router) : LinuxMetadataScope :=
  router.rules.foldl (fun scope rule => scope.union (CompiledRule.metadataScope rule)) {}

namespace CompiledRule

theorem metadataScopeAll_eq : ∀ (rules : List CompiledRule) (scope : LinuxMetadataScope),
    metadataScopeAll scope rules = unionAll metadataScope scope rules
  | [], _ => rfl
  | rule :: rules, scope => by
    rw [metadataScopeAll, metadataScopeAll_eq rules]
    rfl

theorem metadataScopeSets_eq : ∀ (sets : List (List CompiledRule)) (scope : LinuxMetadataScope),
    metadataScopeSets scope sets = unionAll metadataScope scope sets.flatten
  | [], _ => rfl
  | set :: sets, scope => by
    rw [metadataScopeSets, metadataScopeAll_eq, metadataScopeSets_eq sets, unionAll, unionAll, unionAll,
      List.flatten_cons, List.foldl_append]

theorem metadataScope_node (fields : RuleFields) (mode : Option Condition.Mode) (nested : List CompiledRule)
    (sets : List (List CompiledRule)) : metadataScope (.node fields mode nested sets) =
      unionAll metadataScope (unionAll metadataScope fields.metadataScope nested) sets.flatten := by
  rw [metadataScope, metadataScopeSets_eq, metadataScopeAll_eq]

/-- The scope of a rule has what any rule inside it asks about. -/
theorem metadataScope_tests (rule : CompiledRule) : ∀ f ∈ rule.tests, f.metadataScope ≤ rule.metadataScope := by
  induction rule using Condition.induct with
  | node fields mode nested sets hnested hsets =>
    intro f hf
    rw [metadataScope_node]
    rw [Condition.tests, Condition.testsAll_eq, Condition.testsSets_eq] at hf
    rcases List.mem_cons.mp hf with rfl | hf
    · exact le_trans (le_unionAll metadataScope nested _) (le_unionAll metadataScope _ _)
    rcases List.mem_append.mp hf with hf | hf
    · obtain ⟨rule, hrule, hmem⟩ := List.mem_flatMap.mp hf
      refine le_trans (hnested rule hrule f hmem) ?_
      exact le_trans (mem_le_unionAll metadataScope hrule _) (le_unionAll metadataScope _ _)
    · obtain ⟨rule, hrule, hmem⟩ := List.mem_flatMap.mp hf
      obtain ⟨set, hset, hin⟩ := List.mem_flatten.mp hrule
      exact le_trans (hsets set hset rule hin f hmem) (mem_le_unionAll metadataScope hrule _)

end CompiledRule

theorem Router.metadataScope_le {router : Router} {rule : CompiledRule} (h : rule ∈ router.rules) :
    CompiledRule.metadataScope rule ≤ router.linuxMetadataScope :=
  mem_le_unionAll CompiledRule.metadataScope h {}

/-! ## Contexts that agree on a scope -/

namespace RouteContext

def SameIn (c d : RouteContext) : MetadataClass → Prop
  | .process => c.processName = d.processName ∧ c.processPath = d.processPath ∧ c.packageName = d.packageName
  | .user => c.user = d.user ∧ c.userId = d.userId
  | .interface =>
    c.interfaceAddresses = d.interfaceAddresses ∧ c.networkInterfaceAddresses = d.networkInterfaceAddresses
  | .network =>
    c.networkType = d.networkType ∧ c.networkIsExpensive = d.networkIsExpensive ∧
      c.networkIsConstrained = d.networkIsConstrained ∧ c.wifiSsid = d.wifiSsid ∧ c.wifiBssid = d.wifiBssid ∧
      c.defaultInterfaceAddresses = d.defaultInterfaceAddresses
  | .mac => c.sourceMacAddress = d.sourceMacAddress
  | .hostname => c.sourceHostname = d.sourceHostname

/-- What is not Linux metadata. -/
def withoutMetadata (c : RouteContext) : RouteContext :=
  { c with
    processName := none
    processPath := none
    packageName := none
    user := none
    userId := none
    interfaceAddresses := none
    networkInterfaceAddresses := none
    networkType := none
    networkIsExpensive := false
    networkIsConstrained := false
    wifiSsid := none
    wifiBssid := none
    defaultInterfaceAddresses := []
    sourceMacAddress := none
    sourceHostname := none }

/-- The contexts differ at most in metadata of classes that the scope does not request. -/
structure AgreeOn (scope : LinuxMetadataScope) (c d : RouteContext) : Prop where
  rest : c.withoutMetadata = d.withoutMetadata
  requested : ∀ k, scope.requests k = true → c.SameIn d k

variable {scope : LinuxMetadataScope} {c d : RouteContext}

theorem AgreeOn.domain (h : AgreeOn scope c d) : c.domain = d.domain := by
  have hrest := congrArg RouteContext.domain h.rest
  exact hrest

theorem AgreeOn.addresses (h : AgreeOn scope c d) : c.destinationAddresses = d.destinationAddresses := by
  have hrest := congrArg RouteContext.destinationAddresses h.rest
  exact hrest

theorem AgreeOn.down (h : AgreeOn scope c d) (domain : Option Str) (f : RuleFields) :
    AgreeOn scope ((matching domain).down c f) ((matching domain).down d f) := by
  simp only [matching]
  split
  · refine ⟨congrArg (fun e : RouteContext => { e with destinationIp := e.sourceIp }) h.rest, fun k hk => ?_⟩
    have hsame := h.requested k hk
    cases k <;> exact hsame
  · exact h

end RouteContext

/-! ## The fields of a rule, class by class -/

namespace RuleFields

/-- The conditions on what is not Linux metadata, other than the domain and the destination address. -/
def plainMatches (f : RuleFields) (c : RouteContext) : Bool :=
  meets f.sourceCidrs c.sourceIp.toList (fun ip n => n.contains ip) &&
  (!f.sourcePrivate || c.sourceIp.any isPrivate) &&
  meets f.sourcePorts c.sourcePort.toList portMatches &&
  meets f.ports c.destinationPort.toList portMatches &&
  matchField f.networks c.network &&
  matchField f.protocols c.protocol &&
  matchField f.clients c.client &&
  meets f.inbounds c.inbound.toList (fun v x => x == v) &&
  matchField f.authUsers c.authUser &&
  clashModeMatches f.clashMode c.clashMode &&
  meets f.preferredBy c.preferredBy fun tag x => x == tag

def classMatches (f : RuleFields) (c : RouteContext) : MetadataClass → Bool
  | .process =>
    matchField f.processNames c.processName &&
    meets f.processPaths c.processPath.toList (fun v x => x == v) &&
    meets f.processPathRegexes c.processPath.toList (fun v regex => regex v) &&
    matchField f.packageNames c.packageName &&
    meets f.packageNameRegexes c.packageName.toList fun v regex => regex v
  | .user => matchField f.users c.user && meets f.userIds c.userId.toList fun v x => x == v
  | .interface =>
    addressMapMatches f.interfaceAddresses c.interfaceAddresses &&
    addressMapMatches f.networkInterfaceAddresses c.networkInterfaceAddresses
  | .network =>
    matchField f.networkTypes c.networkType &&
    (!f.networkIsExpensive || c.networkIsExpensive) &&
    (!f.networkIsConstrained || c.networkIsConstrained) &&
    matchField f.wifiSsids c.wifiSsid &&
    matchField f.wifiBssids c.wifiBssid &&
    meets f.defaultInterfaceAddresses c.defaultInterfaceAddresses fun ip n => n.contains ip
  | .mac => matchField f.sourceMacAddresses c.sourceMacAddress
  | .hostname => matchField f.sourceHostnames c.sourceHostname

variable {f : RuleFields} {c d : RouteContext}

/-- The conditions of `metadataMatches`, sorted by class. -/
theorem metadataMatches_eq (f : RuleFields) (c : RouteContext) : f.metadataMatches c =
      (f.plainMatches c && f.classMatches c .process && f.classMatches c .user && f.classMatches c .interface &&
        f.classMatches c .network && f.classMatches c .mac && f.classMatches c .hostname) := by
  simp only [metadataMatches, plainMatches, classMatches]
  ac_rfl

theorem plainMatches_withoutMetadata (f : RuleFields) (c : RouteContext) :
    f.plainMatches c.withoutMetadata = f.plainMatches c := rfl

variable {k : MetadataClass}

theorem classMatches_of_not_requested (h : f.metadataScope.requests k = false) (c : RouteContext) :
    f.classMatches c k = true := by
  cases k <;>
    simp only [LinuxMetadataScope.requests, metadataScope, Bool.or_eq_false_iff, Bool.not_eq_false'] at h <;>
    simp [classMatches, matchField, meets, addressMapMatches, h]

theorem classMatches_sameIn (h : c.SameIn d k) : f.classMatches c k = f.classMatches d k := by
  cases k <;> simp only [RouteContext.SameIn] at h <;> simp only [classMatches, h]

theorem classMatches_agree (hscope : f.metadataScope ≤ scope) (h : RouteContext.AgreeOn scope c d) (k : MetadataClass) :
    f.classMatches c k = f.classMatches d k := by
  cases hrequest : f.metadataScope.requests k with
  | true => exact classMatches_sameIn (h.requested k (hscope k hrequest))
  | false => rw [classMatches_of_not_requested hrequest, classMatches_of_not_requested hrequest]

theorem metadataMatches_agree (hscope : f.metadataScope ≤ scope) (h : RouteContext.AgreeOn scope c d) :
    f.metadataMatches c = f.metadataMatches d := by
  have hplain : f.plainMatches c = f.plainMatches d := by
    rw [← plainMatches_withoutMetadata f c, h.rest, plainMatches_withoutMetadata]
  simp only [metadataMatches_eq, hplain, classMatches_agree hscope h]

end RuleFields

/-! ## Rules and routers -/

section
variable {c d : RouteContext}

/-- A rule whose scope is requested matches in both contexts or in neither. -/
theorem CompiledRule.matches_agree {rule : CompiledRule} (hscope : rule.metadataScope ≤ scope)
    (h : RouteContext.AgreeOn scope c d) (domain : Option Str) : rule.matches c domain = rule.matches d domain := by
  refine Condition.eval_congr (R := RouteContext.AgreeOn scope) (q := fun f : RuleFields => f.metadataScope ≤ scope)
    (fun _ => rfl) ?_ (fun _ _ _ h _ => h) (fun _ _ f h _ => h.down domain f) rule ?_ h
  · intro c d f h hf
    simp only [matching, h.addresses, RuleFields.metadataMatches_agree hf h]
  · intro f hf
    exact LinuxMetadataScope.le_trans (CompiledRule.metadataScope_tests rule f hf) hscope

variable {router : Router}

theorem Router.mem_rules_of_drop {start : Nat} {entry : CompiledRule × Nat}
    (hentry : entry ∈ router.rules.zipIdx.drop start) : entry.1 ∈ router.rules :=
  List.fst_mem_of_mem_zipIdx (List.mem_of_mem_drop hentry)

variable (h : RouteContext.AgreeOn router.linuxMetadataScope c d)
include h

theorem Router.matches_agree {rule : CompiledRule} (hrule : rule ∈ router.rules) (domain : Option Str) :
    CompiledRule.matches rule c domain = CompiledRule.matches rule d domain :=
  CompiledRule.matches_agree (Router.metadataScope_le hrule) h domain

theorem Router.route_agree : router.route c = router.route d := by
  simp only [Router.route, h.domain]
  rw [List.filter_congr fun rule hrule => Router.matches_agree h hrule _]

theorem Router.nextAction_agree (start : Nat) : router.nextAction c start = router.nextAction d start := by
  simp only [Router.nextAction, h.domain]
  rw [← List.head?_filter, ← List.head?_filter,
    List.filter_congr fun entry hentry => Router.matches_agree h (Router.mem_rules_of_drop hentry) _]

theorem Router.nextActionLazy_agree (start : Nat) : router.nextActionLazy c start = router.nextActionLazy d start := by
  unfold Router.nextActionLazy
  rw [h.domain, h.addresses]
  have hmem : ∀ entry ∈ router.rules.zipIdx.drop start, entry.1 ∈ router.rules := fun _ => Router.mem_rules_of_drop
  generalize router.rules.zipIdx.drop start = entries at hmem
  induction entries with
  | nil => rfl
  | cons entry entries ih =>
    obtain ⟨hrule, hrest⟩ := List.forall_mem_cons.mp hmem
    simp only [nextActionLazyLoop, Router.matches_agree h hrule, ih hrest]

end

end Xhttp.Routing
