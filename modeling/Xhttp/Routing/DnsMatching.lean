import Xhttp.Routing.Lazy

/- Rule-sets in DNS rules against rule-sets in route rules. `dns_matches_domain`, `dns_matches_address` and `matches`
   in `src/routing.rs` are three recursions over a rule, the first of them with early returns. The equations
   `dnsMatchesDomain_eq`, `dnsMatchesAddress_eq` and `matches_eq_rec` are these recursions as they are written. -/
namespace Xhttp.Routing
open Xhttp.Lib Vless List

/-! ## The recursions -/

namespace CompiledRule

theorem matches_eq_rec (rule : CompiledRule) (c : RouteContext) (domain : Option Str) : rule.matches c domain =
      match rule.mode with
      | some mode =>
        let matched := match mode with
          | .and => rule.nested.all fun nested => CompiledRule.matches nested c domain
          | .or => rule.nested.any fun nested => CompiledRule.matches nested c domain
        if rule.own.invert then !matched else matched
      | none =>
        let matched := rule.own.domainMatches domain && rule.own.addressMatches c.destinationAddresses &&
          rule.own.metadataMatches c && (rule.sets.isEmpty || rule.sets.flatten.any fun nested =>
            if rule.own.ruleSetIpCidrMatchSource then CompiledRule.matches nested
              { c with destinationIp := c.sourceIp } domain
            else CompiledRule.matches nested c domain)
        if rule.own.invert then !matched else matched := by
  rw [CompiledRule.matches, Condition.eval_eq, Condition.join]
  cases rule.mode with
  | some mode => cases mode <;> cases hinvert : rule.own.invert <;> simp [matching, hinvert, CompiledRule.matches]
  | none =>
    cases hinvert : rule.own.invert <;> cases hsource : rule.own.ruleSetIpCidrMatchSource <;>
      simp [matching, hinvert, hsource, CompiledRule.matches]

theorem dnsMatchesDomain_eq (rule : CompiledRule) (domain : Str) : rule.dnsMatchesDomain domain = match rule.mode with
      | some mode =>
        let matched := match mode with
          | .and => rule.nested.all fun nested => CompiledRule.dnsMatchesDomain nested domain
          | .or => rule.nested.any fun nested => CompiledRule.dnsMatchesDomain nested domain
        if rule.own.invert then !matched else matched
      | none =>
        if !rule.own.domainMatches (some domain) then rule.own.invert
        else if !rule.sets.isEmpty && !rule.sets.flatten.any fun nested =>
          CompiledRule.dnsMatchesDomain nested domain then
          rule.own.invert
        else !rule.own.invert := by
  rw [CompiledRule.dnsMatchesDomain, Condition.eval_eq, Condition.join]
  cases rule.mode with
  | some mode =>
    cases mode <;> cases hinvert : rule.own.invert <;> simp [matchingDomain, hinvert, CompiledRule.dnsMatchesDomain]
  | none =>
    have hsets : (rule.sets.flatten.any fun nested => CompiledRule.dnsMatchesDomain nested domain) =
        rule.sets.any fun set => set.any (Condition.eval matchingDomain domain) := any_flatten
    change (rule.own.invert ^^ (rule.own.domainMatches (some domain) &&
      (rule.sets.isEmpty || rule.sets.any fun set => set.any (Condition.eval matchingDomain domain)))) = _
    grind

theorem dnsMatchesAddress_eq (rule : CompiledRule) (address : IpAddr) (domain : Option Str) :
    rule.dnsMatchesAddress address domain = match rule.mode with
      | some mode =>
        let matched := match mode with
          | .and => rule.nested.all fun nested => CompiledRule.dnsMatchesAddress nested address domain
          | .or => rule.nested.any fun nested => CompiledRule.dnsMatchesAddress nested address domain
        if rule.own.invert then !matched else matched
      | none =>
        let domainMatches := domain.isNone || rule.own.domainMatches domain
        let addressMatches := rule.own.addressMatches [address] &&
          (rule.sets.isEmpty || rule.sets.flatten.any fun nested =>
            CompiledRule.dnsMatchesAddress nested address domain)
        if rule.own.invert then !(domainMatches && addressMatches) else domainMatches && addressMatches := by
  rw [CompiledRule.dnsMatchesAddress, Condition.eval_eq, Condition.join]
  cases rule.mode with
  | some mode =>
    cases mode <;> cases hinvert : rule.own.invert <;> simp [matchingAddress, hinvert, CompiledRule.dnsMatchesAddress]
  | none =>
    cases hinvert : rule.own.invert <;>
      simp [matchingAddress, hinvert, CompiledRule.dnsMatchesAddress, Bool.and_assoc]

end CompiledRule

/-! ## Rules without other conditions -/

/-- The rule has conditions on the domain and on the destination address only. -/
def RuleFields.UsesOnlyDestination (f : RuleFields) : Prop :=
  f =
    { domains := f.domains
      suffixes := f.suffixes
      keywords := f.keywords
      regexes := f.regexes
      cidrs := f.cidrs
      ipVersions := f.ipVersions
      ipPrivate := f.ipPrivate
      ruleSetIpCidrMatchSource := f.ruleSetIpCidrMatchSource
      action := f.action
      invert := f.invert
      requiresDestinationIp := f.requiresDestinationIp }

/-- The rule has conditions on the domain only. -/
structure RuleFields.UsesOnlyDomain (f : RuleFields) : Prop where
  destination : f.UsesOnlyDestination
  address : f.hasAddressCondition = false

section
variable {f : RuleFields}

theorem RuleFields.UsesOnlyDestination.metadataMatches (h : f.UsesOnlyDestination) (c : RouteContext) :
    f.metadataMatches c = true := by
  rw [h]
  simp [RuleFields.metadataMatches, meets, matchField, addressMapMatches, clashModeMatches]

end

/-! ## Agreement -/

theorem dnsMatchesDomain_eq_matches {rule : CompiledRule} (h : ∀ f ∈ rule.tests, f.UsesOnlyDomain) (d : Str)
    (c : RouteContext) : rule.dnsMatchesDomain d = rule.matches c (some d) := by
  refine Condition.eval_congr (R := fun s (_ : RouteContext) => s = d) (q := RuleFields.UsesOnlyDomain) (fun _ => rfl)
    ?_ (fun _ _ _ h _ => h) (fun _ _ _ h _ => h) rule h rfl
  intro s t f hs hf
  simp only [matching, matchingDomain]
  rw [hs, RuleFields.addressMatches_of_no_condition hf.address, hf.destination.metadataMatches,
    Bool.and_true, Bool.and_true]

theorem dnsMatchesAddress_eq_matches {rule : CompiledRule}
    (h : ∀ f ∈ rule.tests, f.UsesOnlyDestination ∧ f.ruleSetIpCidrMatchSource = false) (a : IpAddr) (d : Str)
    {c : RouteContext} (hc : c.destinationAddresses = [a]) :
    rule.dnsMatchesAddress a (some d) = rule.matches c (some d) := by
  refine Condition.eval_congr (R := fun s t => s = a ∧ RouteContext.destinationAddresses t = [a])
    (q := fun f : RuleFields => f.UsesOnlyDestination ∧ f.ruleSetIpCidrMatchSource = false) (fun _ => rfl)
    ?_ (fun _ _ _ h _ => h) ?_ rule h ⟨rfl, hc⟩
  · intro s t f hs hf
    simp only [matching, matchingAddress]
    rw [hs.1, hs.2, hf.1.metadataMatches, Option.isNone_some, Bool.false_or, Bool.and_true]
  simp_all [matching, matchingAddress]

/-- For a domain that is normalised. The flow of the route rules may be any with this domain, and in the
    second part any with this domain and this one address. -/
theorem dns_and_routing_agree (rule : CompiledRule) {d : Str} (hd : normalizeDomain d = d) :
    ((∀ f ∈ rule.tests, f.UsesOnlyDomain) → ∀ c : RouteContext, c.domain = some d →
      rule.dnsMatchesDomain d = rule.matches c (c.domain.map normalizeDomain)) ∧
    ((∀ f ∈ rule.tests, f.UsesOnlyDestination ∧ f.ruleSetIpCidrMatchSource = false) →
      ∀ (a : IpAddr) (c : RouteContext), c.domain = some d → c.destinationAddresses = [a] →
        rule.dnsMatchesAddress a (some d) = rule.matches c (c.domain.map normalizeDomain)) := by
  grind [dnsMatchesDomain_eq_matches, dnsMatchesAddress_eq_matches]

/-- The names outside `ads.example`, and the private addresses. -/
def nestedRule : CompiledRule :=
  .node {} (some .or)
    [.node { suffixes := ["ads.example"], invert := true } none [] [],
     .node { ipPrivate := true, requiresDestinationIp := true } none [] []] []

theorem dns_and_routing_agree_nested :
    nestedRule.dnsMatchesAddress (.v4 #v[10, 0, 0, 1]) (some "x.ads.example".toList) =
        nestedRule.matches { domain := some "x.ads.example".toList, destinationIp := some (.v4 #v[10, 0, 0, 1]) }
          (some "x.ads.example".toList) ∧
      nestedRule.dnsMatchesAddress (.v4 #v[10, 0, 0, 1]) (some "x.ads.example".toList) = true := by
  have hd : normalizeDomain "x.ads.example" = "x.ads.example" := by decide
  have htests : ∀ f ∈ nestedRule.tests, f.UsesOnlyDestination ∧ f.ruleSetIpCidrMatchSource = false := by
    intro f hf
    simp only [nestedRule, Condition.tests, Condition.testsAll, Condition.testsSets, append_nil, nil_append,
      cons_append, mem_cons, not_mem_nil, or_false] at hf
    rcases hf with rfl | rfl | rfl <;> exact ⟨rfl, rfl⟩
  exact ⟨(dns_and_routing_agree nestedRule hd).2 htests _ _ rfl rfl, by decide +kernel⟩

end Xhttp.Routing
