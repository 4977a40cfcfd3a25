import Xhttp.Routing.Matching

/- Lazy routing: `next_action_lazy` decides as many rules as it can before the domain of a flow is
   resolved, and asks for its addresses at the first rule that may depend on them.

   What a rule makes of addresses that are not known yet is bounded by two readings of it
   (`CompiledRule.certain`, `CompiledRule.possible`), in which every condition on the destination
   address is taken as missing or as met, by the number of inversions above it. Without `invert`
   these are the rule matched without addresses and a consequence of its domain fields, so the
   lazy lookup is the eager one (`lazy_refines_eager`). With `invert` they are not, and the lookup
   decides rules too early; `early_decisions_survive` says when it does not. -/
namespace Xhttp.Routing
open Xhttp.Lib Vless List

/-! ## The fields of a rule and the addresses -/

section
variable {α β : Type} {expected : List α} {actual actual' : List β} {test : β → α → Bool}

theorem meets_mono (h : actual ⊆ actual') : meets expected actual test = true → meets expected actual' test = true := by
  simp only [meets, Bool.or_eq_true, any_eq_true]
  grind

end

namespace RuleFields
variable {f : RuleFields} {addresses addresses' : List IpAddr}

theorem addressMatches_iff : f.addressMatches addresses = true ↔
      meets f.cidrs addresses (fun ip n => n.contains ip) = true ∧
      meets f.ipVersions addresses versionMatches = true ∧
      (f.ipPrivate = true → addresses.any isPrivate = true) := by
  simp only [addressMatches, Bool.and_eq_true, Bool.or_eq_true, Bool.not_eq_true', and_assoc]
  cases f.ipPrivate <;> simp

theorem addressMatches_mono (h : addresses ⊆ addresses') :
    f.addressMatches addresses = true → f.addressMatches addresses' = true := by
  rw [addressMatches_iff, addressMatches_iff]
  grind [meets_mono, any_eq_true]

theorem addressMatches_of_no_condition (h : f.hasAddressCondition = false) : f.addressMatches addresses = true := by
  simp only [hasAddressCondition, Bool.or_eq_false_iff, Bool.not_eq_false'] at h
  simp [addressMatches, meets, h]

/-- Some addresses meet the conditions on the destination address. A prefix contains an address, and
    there are private ones; only the version may be one that no address has. -/
def addressPossible (f : RuleFields) : Bool :=
  f.ipVersions.isEmpty || f.ipVersions.any fun version => version == 4 || version == 6

theorem addressPossible_of_matches : f.addressMatches addresses = true → f.addressPossible = true := by
  rw [addressMatches_iff]
  rintro ⟨-, hversions, -⟩
  simp only [meets, Bool.or_eq_true, any_eq_true] at hversions
  simp only [addressPossible, Bool.or_eq_true, any_eq_true]
  rcases hversions with hempty | ⟨ip, -, version, hversion, hmatch⟩
  · exact .inl hempty
  · refine .inr ⟨version, hversion, ?_⟩
    simp only [versionMatches, Bool.or_eq_true, Bool.and_eq_true] at hmatch
    exact hmatch.imp And.left And.left

/-- Addresses that meet every condition of the fields on the address that can be met. -/
def someAddresses (f : RuleFields) : List IpAddr :=
  f.cidrs.map IpNet.addr ++ [.v4 #v[10, 0, 0, 1], .ofBits false 1]

theorem addressMatches_someAddresses (h : f.someAddresses ⊆ addresses) :
    f.addressMatches addresses = f.addressPossible := by
  rw [Bool.eq_iff_iff]
  refine ⟨addressPossible_of_matches, fun hpossible => addressMatches_mono h (addressMatches_iff.mpr ⟨?_, ?_, ?_⟩)⟩
  · cases hcidrs : f.cidrs with
    | nil => rfl
    | cons n rest =>
      simp only [meets, Bool.or_eq_true, any_eq_true]
      simp_all [someAddresses, IpNet.contains]
  · simp only [addressPossible, Bool.or_eq_true, any_eq_true, beq_iff_eq] at hpossible
    simp only [meets, Bool.or_eq_true, any_eq_true]
    rcases hpossible with hempty | ⟨version, hversion, rfl | rfl⟩
    · exact .inl hempty
    · exact .inr ⟨.v4 #v[10, 0, 0, 1], by simp [someAddresses], 4, hversion, rfl⟩
    · exact .inr ⟨.ofBits false 1, by simp [someAddresses], 6, hversion, rfl⟩
  · intro _
    exact any_eq_true.mpr ⟨.v4 #v[10, 0, 0, 1], by simp [someAddresses], rfl⟩

end RuleFields

/-! ## Contexts that differ in what is known of the destination address -/

/-- The contexts differ at most in the destination addresses. -/
def RouteContext.SameFlow (s t : RouteContext) : Prop :=
  t = { s with destinationIp := t.destinationIp, destinationIps := t.destinationIps }

/-- `t` knows every destination address that `s` does. -/
structure RouteContext.Grows (s t : RouteContext) : Prop where
  same : s.SameFlow t
  ips : s.destinationIps ⊆ t.destinationIps
  ip : s.destinationIp.toList ⊆ t.destinationIp.toList

namespace RouteContext
variable {c s t : RouteContext} {f : RuleFields}

theorem SameFlow.refl (s : RouteContext) : s.SameFlow s := rfl

theorem SameFlow.metadata (h : s.SameFlow t) : f.metadataMatches t = f.metadataMatches s := by
  rw [h]
  rfl

theorem SameFlow.down_left (h : s.SameFlow t) {domain : Option Str} : ((matching domain).down s f).SameFlow t := by
  simp only [matching]
  split
  · exact h
  · exact h

theorem SameFlow.down (h : s.SameFlow t) {domain : Option Str} :
    ((matching domain).down s f).SameFlow ((matching domain).down t f) := by
  rw [h]
  simp only [matching]
  split <;> rfl

theorem Grows.addresses (h : s.Grows t) : s.destinationAddresses ⊆ t.destinationAddresses :=
  append_subset.mpr ⟨List.Subset.trans h.ips (subset_append_left ..),
    List.Subset.trans h.ip (subset_append_right ..)⟩

theorem Grows.down (h : s.Grows t) {domain : Option Str} :
    ((matching domain).down s f).Grows ((matching domain).down t f) := by
  refine ⟨h.same.down, ?_, ?_⟩ <;> simp only [matching] <;> split
  · exact h.ips
  · exact h.ips
  · have hsource : t.sourceIp = s.sourceIp := by rw [h.same]
    rw [hsource]
    exact List.Subset.refl _
  · exact h.ip

/-- The context once the addresses are known, as the callers of `next_action_lazy` set it. -/
def resolved (c : RouteContext) (addresses : List IpAddr) : RouteContext :=
  { c with destinationIps := addresses, destinationIp := addresses.head? }

def withDestinationIps (c : RouteContext) (addresses : List IpAddr) : RouteContext :=
  { c with destinationIps := addresses }

variable (h : c.destinationAddresses = [])
include h

theorem unresolved : c.destinationIps = [] ∧ c.destinationIp = none := by
  obtain ⟨hips, hip⟩ := append_eq_nil_iff.mp h
  exact ⟨hips, Option.toList_eq_nil_iff.mp hip⟩

theorem grows_resolved (addresses : List IpAddr) : c.Grows (c.resolved addresses) := by
  obtain ⟨hips, hip⟩ := unresolved h
  refine ⟨rfl, ?_, ?_⟩
  · rw [hips]
    exact nil_subset _
  · rw [hip]
    exact nil_subset _

theorem grows_withDestinationIps (addresses : List IpAddr) :
    c.Grows (c.withDestinationIps addresses) := by
  refine ⟨rfl, ?_, List.Subset.refl _⟩
  rw [(unresolved h).1]
  exact nil_subset _

end RouteContext

/-! ## What a rule makes of unknown addresses -/

/-- Every condition on the destination address that can be met is taken as met. -/
def possibly (domain : Option Str) : Condition.Reading RuleFields RouteContext where
  own c f := f.domainMatches domain && f.addressPossible && f.metadataMatches c
  down c _ := c
  inverted f := f.invert

namespace CompiledRule

/-- The rule matches whatever the conditions on the destination address turn out to be. -/
def certain (rule : CompiledRule) (c : RouteContext) (domain : Option Str) : Bool :=
  Condition.eval (Condition.signed (matching domain) (possibly domain)) (true, c, c) rule

/-- The rule matches for some outcome of the conditions on the destination address, each taken on
    its own. -/
def possible (rule : CompiledRule) (c : RouteContext) (domain : Option Str) : Bool :=
  Condition.eval (Condition.signed (matching domain) (possibly domain)) (false, c, c) rule

/-- The conditions on the destination address all stand under an even number of inversions, or all
    under an odd one. -/
def Unmixed (rule : CompiledRule) : Prop :=
  ∃ even, Condition.Polar RuleFields.invert (fun f => f.hasAddressCondition = true) even rule

variable {rule : CompiledRule} {c s t : RouteContext} {domain : Option Str}

/-- What is known of the addresses later is between the two bounds. -/
theorem matches_between (h : s.Grows t) : (rule.certain s domain = true → rule.matches t domain = true) ∧
      (rule.matches t domain = true → rule.possible s domain = true) := by
  refine Condition.eval_signed (R := fun s t u => s.Grows t ∧ s.SameFlow u) (fun _ => rfl) ?_ (fun _ _ _ _ h => h)
    ?_ rule s t s ⟨h, rfl⟩
  · rintro s t u f ⟨hgrows, hsame⟩
    simp only [matching, possibly, Bool.and_eq_true, hgrows.same.metadata, hsame.metadata]
    constructor
    · rintro ⟨⟨hdomain, haddress⟩, hmetadata⟩
      exact ⟨⟨hdomain, RuleFields.addressMatches_mono hgrows.addresses haddress⟩, hmetadata⟩
    grind [RuleFields.addressPossible_of_matches]
  · rintro s t u f ⟨hgrows, hsame⟩
    exact ⟨hgrows.down, hsame.down_left⟩

/-- The fields without a condition on the address are read alike. -/
theorem own_eq_of_no_condition {f : RuleFields} (h : s.SameFlow t) (hno : ¬ f.hasAddressCondition = true) :
    (matching domain).own s f = (possibly domain).own t f := by
  rw [Bool.not_eq_true] at hno
  have hmatches : ∀ addresses, f.addressMatches addresses = true := fun _ =>
    RuleFields.addressMatches_of_no_condition hno
  simp only [matching, possibly, h.metadata, hmatches, RuleFields.addressPossible_of_matches (hmatches [])]

section
variable {even : Bool}
  (hpolar : Condition.Polar RuleFields.invert (fun f => f.hasAddressCondition = true) even rule)
include hpolar

theorem signed_eq_matches :
    Condition.eval (Condition.signed (matching domain) (possibly domain)) (even, c, c) rule = rule.matches c domain :=
  Condition.signed_of_polar (R := RouteContext.SameFlow) (fun _ _ _ => own_eq_of_no_condition) (fun _ _ _ h => h)
    (fun _ _ _ h => h.down_left) hpolar (.refl c)

theorem signed_not_eq_possibly :
    Condition.eval (Condition.signed (matching domain) (possibly domain)) (!even, c, c) rule =
      Condition.eval (possibly domain) c rule :=
  Condition.signed_of_polar_not (a := matching domain) (p := possibly domain) (R := RouteContext.SameFlow)
    (fun _ => rfl) (fun _ _ _ => own_eq_of_no_condition)
    (fun _ _ _ h => h) (fun _ _ _ h => h.down_left) hpolar (.refl c)

end

/-- Without a condition on the address, the addresses do not matter. -/
theorem matches_congr (hno : ∀ f ∈ rule.tests, f.hasAddressCondition = false) (h : s.SameFlow t) :
    rule.matches s domain = rule.matches t domain := by
  refine Condition.eval_congr (R := RouteContext.SameFlow) (fun _ => rfl) ?_ (fun _ _ _ h _ => h)
    (fun _ _ _ h _ => h.down) rule hno h
  intro s t f h hno
  simp only [matching, h.metadata, RuleFields.addressMatches_of_no_condition hno]

/-- Without inversion, a rule that matches still does when more addresses are known. -/
theorem matches_mono (huninverted : ∀ f ∈ rule.tests, f.invert = false) (h : s.Grows t)
    (hmatch : rule.matches s domain = true) : rule.matches t domain = true := by
  refine (matches_between h).1 ?_
  rw [certain, signed_eq_matches (Condition.polar_of_uninverted rule huninverted), hmatch]

theorem domainFieldsMatch_of_matches {name : Str} (huninverted : ∀ f ∈ rule.tests, f.invert = false)
    (hmatch : rule.matches c (some name) = true) : rule.domainFieldsMatch (some name) = true := by
  have hbound := Condition.eval_signed (a := matching (some name)) (b := matching (some name)) (p := matchingDomain)
    (R := fun s t u => s = t ∧ u = name) (fun _ => rfl)
    (by
      rintro s _ u f ⟨rfl, rfl⟩
      refine ⟨id, fun h => ?_⟩
      simp only [matching, Bool.and_eq_true] at h
      exact h.1.1)
    (fun _ _ _ _ h => h) (by rintro s _ u f ⟨rfl, rfl⟩; exact ⟨rfl, rfl⟩) rule c c name ⟨rfl, rfl⟩
  have hdomain := Condition.signed_of_polar_not (a := matching (some name)) (p := matchingDomain) (q := fun _ => True)
    (R := fun _ _ => True) (fun _ => rfl) (fun _ _ _ _ h => absurd trivial h) (fun _ _ _ _ => trivial)
    (fun _ _ _ _ => trivial) (Condition.polar_of_uninverted rule huninverted) (s := c) (u := name) trivial
  exact hdomain.symm.trans (hbound.2 hmatch)

/-! ### Addresses that meet all conditions -/

def someAddresses (rule : CompiledRule) : List IpAddr :=
  .v4 #v[10, 0, 0, 1] :: rule.tests.flatMap RuleFields.someAddresses

theorem matches_someAddresses :
    rule.matches (c.withDestinationIps rule.someAddresses) domain = Condition.eval (possibly domain) c rule := by
  refine Condition.eval_congr (a := matching domain) (b := possibly domain)
    (R := fun s t => t.SameFlow s ∧ rule.someAddresses ⊆ s.destinationIps)
    (q := fun f => f.someAddresses ⊆ rule.someAddresses) (fun _ => rfl) ?_ (fun _ _ _ h _ => h) ?_ rule ?_
    (s := c.withDestinationIps rule.someAddresses) (t := c) ⟨rfl, List.Subset.refl _⟩
  · rintro s t f ⟨hsame, haddresses⟩ hf
    have hall : f.someAddresses ⊆ s.destinationAddresses :=
      List.Subset.trans hf (List.Subset.trans haddresses (subset_append_left ..))
    simp only [matching, possibly, RuleFields.addressMatches_someAddresses hall, hsame.metadata]
  · grind [matching, possibly, RouteContext.SameFlow]
  · intro f hf address haddress
    exact mem_cons_of_mem _ (mem_flatMap.mpr ⟨f, hf, haddress⟩)

end CompiledRule

/-! ## Lookups, rule by rule -/

namespace Router
variable {router : Router} {c : RouteContext}

theorem scan_induct (router : Router) {P : Nat → Prop} (done : ∀ i, router.rules[i]? = none → P i)
    (step : ∀ i rule, router.rules[i]? = some rule → P (i + 1) → P i) (start : Nat) : P start := by
  induction hleft : router.rules.length - start generalizing start with
  | zero => exact done start (getElem?_eq_none (by omega))
  | succ n ih =>
    have hlt : start < router.rules.length := by omega
    exact step start _ (getElem?_eq_getElem hlt) (ih (start + 1) (by omega))

section
variable {i : Nat} {rule : CompiledRule}

theorem drop_zipIdx (h : router.rules[i]? = some rule) :
    router.rules.zipIdx.drop i = (rule, i) :: router.rules.zipIdx.drop (i + 1) := by
  obtain ⟨hlt, rfl⟩ := List.getElem?_eq_some_iff.mp h
  rw [List.drop_eq_getElem_cons (by rwa [List.length_zipIdx]), List.getElem_zipIdx, Nat.zero_add]

theorem drop_zipIdx_none (h : router.rules[i]? = none) : router.rules.zipIdx.drop i = [] := by
  rw [drop_eq_nil_iff, length_zipIdx]
  exact getElem?_eq_none_iff.mp h

theorem nextAction_none (h : router.rules[i]? = none) : router.nextAction c i = none := by
  rw [nextAction, drop_zipIdx_none h]
  rfl

theorem nextAction_some (h : router.rules[i]? = some rule) : router.nextAction c i =
      if rule.matches c (c.domain.map normalizeDomain) then some (i, rule.own.action)
      else router.nextAction c (i + 1) := by
  rw [nextAction, drop_zipIdx h, find?_cons]
  grind [nextAction]

theorem nextActionLazy_none (h : router.rules[i]? = none) : router.nextActionLazy c i = .none := by
  rw [nextActionLazy, drop_zipIdx_none h]
  rfl

theorem nextActionLazy_some (h : router.rules[i]? = some rule) : router.nextActionLazy c i =
      if rule.matches c (c.domain.map normalizeDomain) then .action i rule.own.action
      else if c.destinationAddresses.isEmpty && c.domain.isSome && rule.own.requiresDestinationIp &&
        rule.domainFieldsMatch (c.domain.map normalizeDomain) then .needResolve i
      else router.nextActionLazy c (i + 1) := by
  rw [nextActionLazy, drop_zipIdx h, nextActionLazyLoop]
  rfl

end

end Router

/-- The lookup goes on to the next rule: this one neither matches nor has its domain resolved. -/
def CompiledRule.PassedOver (rule : CompiledRule) (c : RouteContext) : Prop :=
  rule.matches c (c.domain.map normalizeDomain) = false ∧
    (rule.own.requiresDestinationIp && rule.domainFieldsMatch (c.domain.map normalizeDomain)) = false

instance (rule : CompiledRule) (c : RouteContext) : Decidable (rule.PassedOver c) :=
  inferInstanceAs (Decidable (_ ∧ _))

namespace Router
variable {router : Router} {c : RouteContext} {i : Nat} {rule : CompiledRule}

theorem nextActionLazy_of_matches (h : router.rules[i]? = some rule)
    (hmatch : rule.matches c (c.domain.map normalizeDomain) = true) :
    router.nextActionLazy c i = .action i rule.own.action := by
  rw [nextActionLazy_some h, if_pos hmatch]

theorem nextActionLazy_of_passedOver (h : router.rules[i]? = some rule) (hpassed : rule.PassedOver c) :
    router.nextActionLazy c i = router.nextActionLazy c (i + 1) := by
  rw [nextActionLazy_some h, if_neg (by simp [hpassed.1]), Bool.and_assoc, hpassed.2]
  simp

/-- What the lookup does with a rule in a context that has a domain and no addresses. -/
theorem nextActionLazy_cases (hdomain : c.domain.isSome = true) (haddresses : c.destinationAddresses = [])
    (h : router.rules[i]? = some rule) :
    (rule.matches c (c.domain.map normalizeDomain) = true ∧ router.nextActionLazy c i = .action i rule.own.action) ∨
      (rule.PassedOver c ∧ router.nextActionLazy c i = router.nextActionLazy c (i + 1)) ∨
      router.nextActionLazy c i = .needResolve i := by
  cases hmatch : rule.matches c (c.domain.map normalizeDomain) with
  | true => exact .inl ⟨rfl, nextActionLazy_of_matches h hmatch⟩
  | false =>
    cases hneeds : rule.own.requiresDestinationIp && rule.domainFieldsMatch (c.domain.map normalizeDomain) with
    | false => exact .inr (.inl ⟨⟨hmatch, hneeds⟩, nextActionLazy_of_passedOver h ⟨hmatch, hneeds⟩⟩)
    | true =>
      simp_all [nextActionLazy_some]

end Router

/-! ## Lazy and eager lookups -/

/-- What an eager lookup found, as a lazy one reports it. -/
def ActionLookup.ofNext : Option (Nat × RuleAction) → ActionLookup
  | .some entry => .action entry.1 entry.2
  | .none => .none

/-- The lazy lookup, repeated from the rule it returns once the addresses are known. -/
def Router.lazily (router : Router) (c : RouteContext) (addresses : List IpAddr) (start : Nat) : ActionLookup :=
  match router.nextActionLazy c start with
  | .needResolve index => router.nextActionLazy (c.resolved addresses) index
  | found => found

namespace Router
variable {defaultOutbound : Str} {router : Router} {c : RouteContext} {crates : Crates}
  {read : RuleSetConfig → Except Failure (List RouteRule)} {config : RouteConfig}

theorem nextActionLazy_of_addresses (h : c.destinationAddresses ≠ []) (start : Nat) :
    router.nextActionLazy c start = .ofNext (router.nextAction c start) := by
  have hknown : c.destinationAddresses.isEmpty = false := by simpa using h
  induction start using scan_induct router with
  | done i hnone =>
    rw [nextActionLazy_none hnone, nextAction_none hnone]
    rfl
  | step i rule hrule ih =>
    rw [nextActionLazy_some hrule, nextAction_some hrule, hknown, ih]
    split <;> rfl

theorem lazy_refines_eager (hcompiled : Router.compile crates read config defaultOutbound = .ok router)
    (huninverted : ∀ rule ∈ router.rules, ∀ f ∈ rule.tests, f.invert = false) (hdomain : c.domain.isSome = true)
    (haddresses : c.destinationAddresses = []) (start : Nat) {addresses : List IpAddr} (hne : addresses ≠ []) :
    router.lazily c addresses start = .ofNext (router.nextAction (c.resolved addresses) start) := by
  obtain ⟨name, hname⟩ := Option.isSome_iff_exists.mp hdomain
  have hknown : (c.resolved addresses).destinationAddresses ≠ [] := by
    rw [RouteContext.destinationAddresses, RouteContext.resolved]
    simp [hne]
  induction start using scan_induct router with
  | done i hnone =>
    rw [lazily, nextActionLazy_none hnone, nextAction_none hnone]
    rfl
  | step i rule hrule ih =>
    have hmem := mem_of_getElem? hrule
    have hgrows := RouteContext.grows_resolved haddresses addresses
    have heager := nextAction_some (c := c.resolved addresses) hrule
    rw [show (c.resolved addresses).domain = c.domain from rfl] at heager
    rcases nextActionLazy_cases hdomain haddresses hrule with ⟨hmatch, hlazy⟩ | ⟨hpassed, hlazy⟩ | hlazy
    · rw [lazily, hlazy, heager, if_pos (CompiledRule.matches_mono (huninverted rule hmem) hgrows hmatch)]
      rfl
    · have hfalse : rule.matches (c.resolved addresses) (c.domain.map normalizeDomain) ≠ true := by
        intro htrue
        cases hflag : rule.own.requiresDestinationIp with
        | false =>
          have hno := compile_flagged hcompiled rule hmem hflag
          exact Bool.false_ne_true
            (hpassed.1.symm.trans ((CompiledRule.matches_congr hno hgrows.same).trans htrue))
        | true =>
          have hfields : rule.domainFieldsMatch (c.domain.map normalizeDomain) = false := by
            simpa only [hflag, Bool.true_and] using hpassed.2
          rw [hname] at hfields htrue
          exact Bool.false_ne_true (hfields.symm.trans
            (CompiledRule.domainFieldsMatch_of_matches (huninverted rule hmem) htrue))
      rw [heager, if_neg hfalse, ← ih, lazily, lazily, hlazy]
    · rw [lazily, hlazy]
      exact nextActionLazy_of_addresses hknown i

/-- Every prefix is read as `10.0.0.0/8`, and no regular expression is one. -/
def tenCrates : Crates where
  regex _ := none
  ipNet _ := some ⟨.v4 #v[10, 0, 0, 0], 8⟩

/-- A router with one rule and no rule-sets. -/
def ofRule (items : RouteItems) (rules : List RouteRule) : Except Failure Router :=
  Router.compile tenCrates (fun _ => .ok [])
    { rules := [.mk { items with outbound := some "lan".toList } rules] } "direct"

/-- A rule for `10.0.0.0/8` waits for the addresses of the domain. -/
theorem lazy_refines_eager_ten :
    ∃ router, ofRule { ipCidr := ["10.0.0.0/8"] } [] = .ok router ∧
      router.nextActionLazy { domain := some "a.example".toList } 0 = .needResolve 0 ∧
      router.lazily { domain := some "a.example".toList } [.v4 #v[10, 1, 2, 3]] 0 =
        .ofNext (router.nextAction
          (RouteContext.resolved { domain := some "a.example".toList } [.v4 #v[10, 1, 2, 3]]) 0) :=
  ⟨_, rfl, by decide +kernel,
    lazy_refines_eager (rfl : ofRule { ipCidr := ["10.0.0.0/8"] } [] = .ok _) (by decide +kernel)
    rfl rfl 0 (cons_ne_nil _ _)⟩

end Router

/-! ## Decisions that survive resolution -/

namespace CompiledRule

/-- The rule, matched without addresses, acts only if that is certain, and its domain is resolved
    if it may yet match. -/
def Decided (rule : CompiledRule) (c : RouteContext) : Prop :=
  (rule.matches c (c.domain.map normalizeDomain) = true → rule.certain c (c.domain.map normalizeDomain) = true) ∧
    (rule.possible c (c.domain.map normalizeDomain) = true →
      rule.matches c (c.domain.map normalizeDomain) = true ∨
        rule.domainFieldsMatch (c.domain.map normalizeDomain) = true)

instance (rule : CompiledRule) (c : RouteContext) : Decidable (rule.Decided c) := inferInstanceAs (Decidable (_ ∧ _))

/-- What is decided about the rule without addresses holds with them. -/
structure Holds (rule : CompiledRule) (c : RouteContext) : Prop where
  acted : rule.matches c (c.domain.map normalizeDomain) = true → ∀ addresses, addresses ≠ [] →
    rule.matches (c.withDestinationIps addresses) (c.domain.map normalizeDomain) = true
  passed : rule.PassedOver c → ∀ addresses,
    rule.matches (c.withDestinationIps addresses) (c.domain.map normalizeDomain) = false

variable {rule : CompiledRule} {c : RouteContext}

theorem Decided.holds (h : rule.Decided c) (hflagged : rule.Flagged) (haddresses : c.destinationAddresses = []) :
    rule.Holds c := by
  refine ⟨fun hmatch addresses _ => ?_, fun hpassed addresses => ?_⟩
  · exact (matches_between (RouteContext.grows_withDestinationIps haddresses addresses)).1 (h.1 hmatch)
  have hgrows := RouteContext.grows_withDestinationIps haddresses addresses
  cases hflag : rule.own.requiresDestinationIp with
  | false => exact (matches_congr (hflagged hflag) hgrows.same).symm.trans hpassed.1
  | true =>
    have hfields : rule.domainFieldsMatch (c.domain.map normalizeDomain) = false := by
      simpa only [hflag, Bool.true_and] using hpassed.2
    rw [← Bool.not_eq_true]
    intro htrue
    rcases h.2 ((matches_between hgrows).2 htrue) with hmatch | hmatch
    · exact Bool.false_ne_true (hpassed.1.symm.trans hmatch)
    · exact Bool.false_ne_true (hfields.symm.trans hmatch)

/-- Addresses that meet every condition on them show a decision that is not. -/
theorem Holds.decided (h : rule.Holds c) (hunmixed : rule.Unmixed) : rule.Decided c := by
  obtain ⟨even, hpolar⟩ := hunmixed
  have hmatches : Condition.eval (Condition.signed (matching (c.domain.map normalizeDomain)) (possibly _))
      (even, c, c) rule = rule.matches c (c.domain.map normalizeDomain) := signed_eq_matches hpolar
  have hall : Condition.eval (Condition.signed (matching (c.domain.map normalizeDomain)) (possibly _))
      (!even, c, c) rule = rule.matches (c.withDestinationIps rule.someAddresses) (c.domain.map normalizeDomain) :=
    (signed_not_eq_possibly hpolar).trans matches_someAddresses.symm
  have hpass : rule.matches c (c.domain.map normalizeDomain) = false →
      rule.domainFieldsMatch (c.domain.map normalizeDomain) = false → rule.PassedOver c :=
    fun hno hfields => ⟨hno, by rw [hfields, Bool.and_false]⟩
  cases even with
  | true =>
    refine ⟨hmatches.trans, fun hpossible => ?_⟩
    by_contra hneither
    simp only [not_or, Bool.not_eq_true] at hneither
    have hfalse := h.passed (hpass hneither.1 hneither.2) rule.someAddresses
    exact Bool.false_ne_true (hfalse.symm.trans (hall.symm.trans hpossible))
  | false =>
    refine ⟨fun hmatch => hall.trans (h.acted hmatch _ (cons_ne_nil _ _)), fun hpossible => ?_⟩
    exact .inl (hmatches.symm.trans hpossible)

end CompiledRule

/-- The lookup has gone past the rule. -/
def ActionLookup.Passes (k : Nat) : ActionLookup → Prop
  | .action index _ => k < index
  | .needResolve index => k < index
  | .none => True

namespace Router

/-- A rule that is acted on before the domain is resolved matches with any addresses, and one that
    is passed over matches with none. -/
structure Survives (router : Router) (c : RouteContext) (start : Nat) : Prop where
  acted : ∀ j action, router.nextActionLazy c start = .action j action → ∀ addresses, addresses ≠ [] →
    ∃ rule, router.rules[j]? = some rule ∧
      rule.matches (c.withDestinationIps addresses) (c.domain.map normalizeDomain) = true
  passed : ∀ k rule, start ≤ k → router.rules[k]? = some rule → (router.nextActionLazy c start).Passes k →
    ∀ addresses, rule.matches (c.withDestinationIps addresses) (c.domain.map normalizeDomain) = false

/-- The lookup comes to the rule of index `k`. -/
def Reads (router : Router) (c : RouteContext) (start k : Nat) : Prop :=
  start ≤ k ∧ ∀ j, start ≤ j → j < k → ∀ rule, router.rules[j]? = some rule → rule.PassedOver c

variable {router : Router} {c : RouteContext} {start k : Nat} {rule : CompiledRule}

theorem Reads.refl : router.Reads c k k := ⟨le_rfl, fun _ hle hlt => absurd hlt (by omega)⟩

theorem Reads.cons (hrule : router.rules[start]? = some rule) (hpassed : rule.PassedOver c)
    (h : router.Reads c (start + 1) k) : router.Reads c start k := by
  refine ⟨by have := h.1; omega, fun j hle hlt other hother => ?_⟩
  rcases Nat.eq_or_lt_of_le hle with rfl | hlt'
  · cases hrule.symm.trans hother
    exact hpassed
  · exact h.2 j hlt' hlt other hother

theorem Reads.nextActionLazy (h : router.Reads c start k) :
    router.nextActionLazy c start = router.nextActionLazy c k := by
  obtain ⟨hle, hpassed⟩ := h
  induction k, hle using Nat.le_induction with
  | base => rfl
  | succ k hle ih =>
    rw [ih fun j hj hlt => hpassed j hj (by omega)]
    cases hrule : router.rules[k]? with
    | none =>
      have hnext : router.rules[k + 1]? = none := by
        rw [getElem?_eq_none_iff] at hrule ⊢
        omega
      rw [nextActionLazy_none hrule, nextActionLazy_none hnext]
    | some rule => exact nextActionLazy_of_passedOver hrule (hpassed k hle (Nat.lt_succ_self k) rule hrule)

section
variable (hdomain : c.domain.isSome = true) (haddresses : c.destinationAddresses = [])
include hdomain haddresses

theorem passes_of_lt (h : k < start) : (router.nextActionLazy c start).Passes k := by
  induction start using scan_induct router with
  | done i hnone =>
    rw [nextActionLazy_none hnone]
    trivial
  | step i rule hrule ih =>
    rcases nextActionLazy_cases hdomain haddresses hrule with ⟨-, hlazy⟩ | ⟨-, hlazy⟩ | hlazy <;> rw [hlazy]
    · exact h
    · exact ih (by omega)
    · exact h

theorem reads_of_action {j : Nat} {action : RuleAction} (h : router.nextActionLazy c start = .action j action) :
    router.Reads c start j ∧ ∃ rule, router.rules[j]? = some rule ∧
      rule.matches c (c.domain.map normalizeDomain) = true := by
  induction start using scan_induct router with
  | done i hnone =>
    rw [nextActionLazy_none hnone] at h
    cases h
  | step i rule hrule ih =>
    rcases nextActionLazy_cases hdomain haddresses hrule with ⟨hmatch, hlazy⟩ | ⟨hpassed, hlazy⟩ | hlazy <;>
      rw [hlazy] at h
    · cases h
      exact ⟨.refl, rule, hrule, hmatch⟩
    · obtain ⟨hreads, hfound⟩ := ih h
      exact ⟨hreads.cons hrule hpassed, hfound⟩
    · cases h

theorem reads_of_passes (hle : start ≤ k) (hk : router.rules[k]? = some rule)
    (h : (router.nextActionLazy c start).Passes k) : router.Reads c start k ∧ rule.PassedOver c := by
  induction start using scan_induct router with
  | done i hnone =>
    have := List.getElem?_eq_none_iff.mp hnone
    obtain ⟨hlt, -⟩ := List.getElem?_eq_some_iff.mp hk
    omega
  | step i first hrule ih =>
    rcases nextActionLazy_cases hdomain haddresses hrule with ⟨-, hlazy⟩ | ⟨hpassed, hlazy⟩ | hlazy <;>
      rw [hlazy] at h
    · exact absurd hle (Nat.not_le_of_lt h)
    · rcases Nat.eq_or_lt_of_le hle with rfl | hlt
      · cases hrule.symm.trans hk
        exact ⟨.refl, hpassed⟩
      · obtain ⟨hreads, hrest⟩ := ih hlt h
        exact ⟨hreads.cons hrule hpassed, hrest⟩
    · exact absurd hle (Nat.not_le_of_lt h)

theorem survives_iff : router.Survives c start ↔
      ∀ k rule, router.Reads c start k → router.rules[k]? = some rule → rule.Holds c := by
  constructor
  · intro h k rule hreads hrule
    refine ⟨fun hmatch addresses hne => ?_, fun hpassed addresses => ?_⟩
    · have hfound := hreads.nextActionLazy.trans (nextActionLazy_of_matches hrule hmatch)
      obtain ⟨found, hmem, hholds⟩ := h.acted k _ hfound addresses hne
      cases hrule.symm.trans hmem
      exact hholds
    · refine h.passed k rule hreads.1 hrule ?_ addresses
      rw [hreads.nextActionLazy, nextActionLazy_of_passedOver hrule hpassed]
      exact passes_of_lt hdomain haddresses (Nat.lt_succ_self k)
  · intro h
    refine ⟨fun j action hfound addresses hne => ?_, fun k rule hle hrule hpasses => ?_⟩
    · obtain ⟨hreads, rule, hrule, hmatch⟩ := reads_of_action hdomain haddresses hfound
      exact ⟨rule, hrule, (h j rule hreads hrule).acted hmatch addresses hne⟩
    · obtain ⟨hreads, hpassed⟩ := reads_of_passes hdomain haddresses hle hrule hpasses
      exact (h k rule hreads hrule).passed hpassed

end

variable {crates : Crates} {read : RuleSetConfig → Except Failure (List RouteRule)} {config : RouteConfig}

/-- Early decisions survive resolution if every rule the lookup comes to is `Decided`, and only then
    if no rule mixes inverted conditions on the destination address with others. -/
theorem early_decisions_survive (hcompiled : Router.compile crates read config defaultOutbound = .ok router)
    (hdomain : c.domain.isSome = true) (haddresses : c.destinationAddresses = []) (start : Nat) :
    ((∀ k rule, router.Reads c start k → router.rules[k]? = some rule → rule.Decided c) →
        router.Survives c start) ∧
      ((∀ rule ∈ router.rules, rule.Unmixed) →
        (router.Survives c start ↔
          ∀ k rule, router.Reads c start k → router.rules[k]? = some rule → rule.Decided c)) := by
  have henough : (∀ k rule, router.Reads c start k → router.rules[k]? = some rule → rule.Decided c) →
      router.Survives c start := by
    intro h
    rw [survives_iff hdomain haddresses]
    intro k rule hreads hrule
    have hflagged := compile_flagged hcompiled rule (mem_of_getElem? hrule)
    exact (h k rule hreads hrule).holds hflagged haddresses
  refine ⟨henough, fun hunmixed => ⟨fun hsurvives k rule hreads hrule => ?_, henough⟩⟩
  have hholds := (survives_iff hdomain haddresses).mp hsurvives k rule hreads hrule
  exact hholds.decided (hunmixed rule (mem_of_getElem? hrule))

/-- An inverted rule that asks for no address. -/
theorem early_decisions_survive_port :
    ∃ router, ofRule { port := [80], invert := true } [] = .ok router ∧
      router.nextActionLazy { domain := some "a.example".toList, destinationPort := some 443 } 0 =
        .action 0 (.route (.outbound "lan") {}) ∧
      router.Survives { domain := some "a.example".toList, destinationPort := some 443 } 0 := by
  refine ⟨_, rfl, by decide +kernel,
    (early_decisions_survive (rfl : ofRule { port := [80], invert := true } [] = .ok _) rfl rfl 0).1 ?_⟩
  intro k rule _ hrule
  have hzero : k = 0 := by
    obtain ⟨hlt, -⟩ := List.getElem?_eq_some_iff.mp hrule
    exact Nat.lt_one_iff.mp hlt
  subst hzero
  cases hrule
  decide +kernel

/-- Two rules decided without the addresses they depend on: an inverted prefix acts on a domain
    whose address is in the prefix, and a logical rule is passed over, because `domain_fields_match`
    takes its inverted port as one that is met. -/
theorem inverted_rules_decided_early :
    (∃ router, ofRule { ipCidr := ["10.0.0.0/8"], invert := true } [] = .ok router ∧
      router.nextActionLazy { domain := some "a.example".toList } 0 = .action 0 (.route (.outbound "lan") {}) ∧
      router.nextAction
        (RouteContext.withDestinationIps { domain := some "a.example".toList } [.v4 #v[10, 0, 0, 1]]) 0 =
        none ∧
      ¬ router.Survives { domain := some "a.example".toList } 0) ∧
    (∃ router, ofRule { type := "logical" }
        [.mk { port := [80], invert := true } [], .mk { ipCidr := ["10.0.0.0/8"] } []] = .ok router ∧
      router.nextActionLazy { domain := some "a.example".toList, destinationPort := some 443 } 0 = .none ∧
      router.nextAction (RouteContext.withDestinationIps
          { domain := some "a.example".toList, destinationPort := some 443 } [.v4 #v[10, 0, 0, 1]]) 0 =
        some (0, .route (.outbound "lan") {}) ∧
      ¬ router.Survives { domain := some "a.example".toList, destinationPort := some 443 } 0) := by
  refine ⟨⟨_, rfl, by decide +kernel, by decide +kernel, fun h => ?_⟩,
    ⟨_, rfl, by decide +kernel, by decide +kernel, fun h => ?_⟩⟩
  · obtain ⟨rule, hrule, hmatch⟩ := h.acted 0 (.route (.outbound "lan") {}) (by decide +kernel)
      [.v4 #v[10, 0, 0, 1]] (cons_ne_nil _ _)
    cases hrule
    revert hmatch
    decide +kernel
  · have hno := h.passed 0 _ le_rfl rfl trivial [.v4 #v[10, 0, 0, 1]]
    revert hno
    decide +kernel

end Router

end Xhttp.Routing
