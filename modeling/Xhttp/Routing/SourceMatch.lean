import Xhttp.Routing.DnsMatching

/- `rule_set_ip_cidr_match_source`: a rule-set is matched against the source address of a flow in place of its
   destination (the end of `CompiledRule::matches` in `src/routing.rs`).

   The context for the rule-set has the source in `destination_ip`, but keeps `destination_ips`, where the
   addresses of a resolved domain are. So the rule-set sees the source and these addresses
   (`seenAddresses`). -/
namespace Xhttp.Routing
open Xhttp.Lib Vless List

/-! ## The rule-set condition of a rule -/

def CompiledRule.ruleSetMatches (rule : CompiledRule) (c : RouteContext) (domain : Option Str) : Bool :=
  rule.sets.isEmpty || rule.sets.any fun set => set.any fun nested =>
    CompiledRule.matches nested
      (if rule.own.ruleSetIpCidrMatchSource then { c with destinationIp := c.sourceIp } else c) domain

theorem CompiledRule.matches_eq (rule : CompiledRule) (c : RouteContext) (domain : Option Str) (h : rule.mode = none) :
    rule.matches c domain = (rule.own.invert ^^ (rule.own.domainMatches domain &&
      rule.own.addressMatches c.destinationAddresses && rule.own.metadataMatches c &&
        rule.ruleSetMatches c domain)) := by
  rw [CompiledRule.matches, Condition.eval_eq, Condition.join, h]
  rfl

/-- The rule has conditions on addresses only. -/
def RuleFields.UsesOnlyIp (f : RuleFields) : Prop :=
  f =
    { cidrs := f.cidrs
      sourceCidrs := f.sourceCidrs
      ipVersions := f.ipVersions
      ipPrivate := f.ipPrivate
      sourcePrivate := f.sourcePrivate
      ruleSetIpCidrMatchSource := f.ruleSetIpCidrMatchSource
      action := f.action
      invert := f.invert
      requiresDestinationIp := f.requiresDestinationIp }

/-! ## What a rule-set sees -/

/-- The addresses that a rule-set is matched with if the source is to be. -/
def RouteContext.seenAddresses (c : RouteContext) : List IpAddr := c.destinationIps ++ c.sourceIp.toList

/-- Two flows whose rule-sets are matched with the source, as a rule in them sees it. -/
structure RouteContext.SameSeen (s t : RouteContext) : Prop where
  same : s.SameFlow t
  left : s.destinationIp = s.sourceIp
  right : t.destinationIp = t.sourceIp
  seen : ∀ a, a ∈ s.seenAddresses ↔ a ∈ t.seenAddresses

section
variable {α β : Type} {expected : List α} {actual actual' : List β} {test : β → α → Bool}

theorem any_congr_mem (h : ∀ x, x ∈ actual ↔ x ∈ actual') (p : β → Bool) : actual.any p = actual'.any p := by
  rw [Bool.eq_iff_iff, any_eq_true, any_eq_true]
  simp only [h]

theorem meets_congr_mem (h : ∀ x, x ∈ actual ↔ x ∈ actual') :
    meets expected actual test = meets expected actual' test := by
  rw [meets, meets, any_congr_mem h]

end

theorem RuleFields.addressMatches_congr_mem {addresses addresses' : List IpAddr}
    (h : ∀ a, a ∈ addresses ↔ a ∈ addresses') (f : RuleFields) :
    f.addressMatches addresses = f.addressMatches addresses' := by
  rw [addressMatches, addressMatches, meets_congr_mem h, meets_congr_mem h, any_congr_mem h]

namespace RouteContext
variable {s t : RouteContext} {f : RuleFields} {domain : Option Str}

theorem SameSeen.own (h : s.SameSeen t) : (matching domain).own s f = (matching domain).own t f := by
  have hseen : ∀ a, a ∈ s.destinationAddresses ↔ a ∈ t.destinationAddresses := by
    intro a
    unfold destinationAddresses
    rw [h.left, h.right]
    exact h.seen a
  simp only [matching]
  rw [f.addressMatches_congr_mem hseen, h.same.metadata]

theorem SameSeen.down (h : s.SameSeen t) : ((matching domain).down s f).SameSeen ((matching domain).down t f) := by
  refine ⟨h.same.down, ?_, ?_, ?_⟩
  · simp only [matching]
    split
    · rfl
    · exact h.left
  · simp only [matching]
    split
    · rfl
    · exact h.right
  · simp only [matching]
    split <;> exact h.seen

end RouteContext

/-- A rule-set that is matched with the source sees the source and the addresses of a resolved domain, and
    nothing else of the destination. -/
theorem CompiledRule.ruleSetMatches_congr {rule : CompiledRule} {c d : RouteContext}
    (hsource : rule.own.ruleSetIpCidrMatchSource = true) (hsame : c.SameFlow d)
    (hseen : ∀ a, a ∈ c.seenAddresses ↔ a ∈ d.seenAddresses) (domain : Option Str) :
    rule.ruleSetMatches c domain = rule.ruleSetMatches d domain := by
  have hcontext :
      RouteContext.SameSeen { c with destinationIp := c.sourceIp } { d with destinationIp := d.sourceIp } := by
    refine ⟨?_, rfl, rfl, hseen⟩
    unfold RouteContext.SameFlow at hsame ⊢
    rw [hsame]
  unfold CompiledRule.ruleSetMatches
  simp only [hsource, if_true]
  congr 2
  funext set
  congr 1
  funext nested
  exact Condition.eval_congr (R := RouteContext.SameSeen) (q := fun _ => True) (fun _ => rfl)
    (fun _ _ _ h _ => h.own) (fun _ _ _ h _ => h) (fun _ _ _ h _ => h.down) nested (fun _ _ => trivial) hcontext

/-! ## A rule-set for one address -/

def hostNet (a : IpAddr) : IpNet := ⟨a, a.width⟩

theorem hostNet_contains (a b : IpAddr) : (hostNet a).contains b = true ↔ a = b := by
  simp only [hostNet, IpNet.contains, Nat.sub_self, Nat.pow_zero, Nat.div_one, Bool.and_eq_true, beq_iff_eq]
  constructor
  · intro h
    exact IpAddr.eq_of_bits h.1 h.2.symm
  · intro h
    rw [h]
    exact ⟨rfl, rfl⟩

/-- A rule that matches its rule-set, for one address, with the source. -/
def sourceRule (a : IpAddr) : CompiledRule :=
  .node { ruleSetIpCidrMatchSource := true } none []
    [[.node { cidrs := [hostNet a], requiresDestinationIp := true } none [] []]]

theorem sourceRule_matches (a : IpAddr) (c : RouteContext) (domain : Option Str) :
    (sourceRule a).ruleSetMatches c domain = true ↔ a ∈ c.seenAddresses := by
  have hfields : RuleFields.UsesOnlyDestination { cidrs := [hostNet a], requiresDestinationIp := true } := rfl
  have hrule : (sourceRule a).ruleSetMatches c domain = c.seenAddresses.any (hostNet a).contains := by
    simp only [CompiledRule.ruleSetMatches, sourceRule, Condition.sets, Condition.own, if_true,
      isEmpty_cons, Bool.false_or, any_cons, any_nil, Bool.or_false]
    rw [CompiledRule.matches_eq _ _ _ rfl]
    simp only [Condition.own, hfields.metadataMatches]
    simp [RuleFields.domainMatches, RuleFields.addressMatches, meets, CompiledRule.ruleSetMatches, Condition.sets,
      RouteContext.destinationAddresses, RouteContext.seenAddresses]
  rw [hrule, any_eq_true]
  simp [hostNet_contains]

theorem usesOnlyIp_single {fields : RuleFields} (h : fields.UsesOnlyIp) :
    ∀ set ∈ [[(.node fields none [] [] : CompiledRule)]], ∀ nested ∈ set, ∀ f ∈ nested.tests, f.UsesOnlyIp := by
  intro set hset nested hnested f hf
  cases mem_singleton.mp hset
  cases mem_singleton.mp hnested
  cases mem_singleton.mp hf
  exact h

/-- For two flows that differ at most in their destination, every rule that matches its rule-sets with the source has
    the same answer from them if and only if the flows have the same addresses besides their `destination_ip`: those
    of `destination_ips` and the source. -/
theorem source_match_noninterference_iff {c d : RouteContext} (hsame : c.SameFlow d) (domain : Option Str) :
    (∀ rule : CompiledRule, rule.own.ruleSetIpCidrMatchSource = true →
        (∀ set ∈ rule.sets, ∀ nested ∈ set, ∀ f ∈ nested.tests, f.UsesOnlyIp) →
        rule.ruleSetMatches c domain = rule.ruleSetMatches d domain) ↔
      ∀ a, a ∈ c.destinationIps ++ c.sourceIp.toList ↔ a ∈ d.destinationIps ++ d.sourceIp.toList := by
  constructor
  · intro h a
    have hrule := Bool.eq_iff_iff.mp (h (sourceRule a) rfl (usesOnlyIp_single rfl))
    rw [sourceRule_matches, sourceRule_matches] at hrule
    exact hrule
  · intro h rule hsource _
    exact CompiledRule.ruleSetMatches_congr hsource hsame h domain

/-- Two flows of one source to different addresses. -/
theorem source_match_noninterference_iff_addresses :
    (sourceRule (.v4 #v[10, 0, 0, 1])).ruleSetMatches
        { sourceIp := some (.v4 #v[10, 0, 0, 1]), destinationIp := some (.v4 #v[192, 0, 2, 1]) } none =
      (sourceRule (.v4 #v[10, 0, 0, 1])).ruleSetMatches
        { sourceIp := some (.v4 #v[10, 0, 0, 1]), destinationIp := some (.v4 #v[192, 0, 2, 2]) } none := by
  have hsame : RouteContext.SameFlow
      { sourceIp := some (.v4 #v[10, 0, 0, 1]), destinationIp := some (.v4 #v[192, 0, 2, 1]) }
      { sourceIp := some (.v4 #v[10, 0, 0, 1]), destinationIp := some (.v4 #v[192, 0, 2, 2]) } := rfl
  apply (source_match_noninterference_iff hsame none).mpr
  · intro a
    exact Iff.rfl
  · rfl
  · exact usesOnlyIp_single rfl

/-- A rule for flows from `10.0.0.0/8`, by a rule-set. -/
def sourceConfig : RouteConfig where
  rules := [.mk { ruleSet := ["lan"], ruleSetIpCidrMatchSource := true, outbound := some "lan".toList } []]
  ruleSet := [{ type := "inline", tag := "lan", rules := [.mk { ipCidr := ["10.0.0.0/8"] } []] }]

/-- A flow from another address, before its domain is resolved. -/
def outsideFlow : RouteContext := { domain := some "a.example".toList, sourceIp := some (.v4 #v[192, 0, 2, 9]) }

/-- Once the domain is resolved to an address of `10.0.0.0/8`, the rule for the source matches. -/
theorem resolved_destination_seen :
    ∃ router rule, Router.compile Router.tenCrates (fun _ => .ok []) sourceConfig "direct" = .ok router ∧
      router.rules = [rule] ∧ rule.own.ruleSetIpCidrMatchSource = true ∧
      (∀ set ∈ rule.sets, ∀ nested ∈ set, ∀ f ∈ nested.tests, f.UsesOnlyIp) ∧
      outsideFlow.SameFlow (outsideFlow.resolved [.v4 #v[10, 1, 2, 3]]) ∧
      rule.ruleSetMatches outsideFlow (some "a.example".toList) = false ∧
      rule.ruleSetMatches (outsideFlow.resolved [.v4 #v[10, 1, 2, 3]]) (some "a.example".toList) = true ∧
      router.nextAction (outsideFlow.resolved [.v4 #v[10, 1, 2, 3]]) 0 = some (0, .route (.outbound "lan") {}) := by
  exact ⟨_, _, rfl, rfl, rfl, usesOnlyIp_single rfl, rfl, by decide +kernel, by decide +kernel, by decide +kernel⟩

end Xhttp.Routing
