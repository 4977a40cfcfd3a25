import Xhttp.Proxy.RouteRounds

/- The two ways to fragment a TLS handshake, over a whole route evaluation.

   `route_options` refuses a rule that sets both `tls_fragment` and `tls_record_fragment`, but the options of an
   evaluation are merged from all the rules that it finds, and `merge` keeps a flag once it is set: a `route-options`
   rule may set one of the flags and a later rule the other (`fragmentation_exclusive_iff`). -/
namespace Xhttp.Routing
open Xhttp.Lib Checked

namespace RouteOptions

/-- At most one of the two modes is on. -/
def Exclusive (options : RouteOptions) : Prop := ¬ (options.tlsFragment = true ∧ options.tlsRecordFragment = true)

/-- The newer options do not ask for the mode other than the one in force. -/
def Compatible (old newer : RouteOptions) : Prop :=
  ¬ (old.tlsFragment = true ∧ newer.tlsRecordFragment = true) ∧
    ¬ (old.tlsRecordFragment = true ∧ newer.tlsFragment = true)

theorem exclusive_default : Exclusive {} := by
  simp [Exclusive]

theorem exclusive_merge_iff {old newer : RouteOptions} (hnewer : newer.Exclusive) :
    (old.merge newer).Exclusive ↔ old.Exclusive ∧ old.Compatible newer := by
  simp only [Exclusive, Compatible, merge, Bool.or_eq_true] at *
  tauto

end RouteOptions

/-! ## The options of a compiled rule -/

theorem routeOptions_exclusive {rule : RouteItems} {options : RouteOptions} (h : routeOptions rule = .ok options) :
    options.Exclusive := by
  simp only [routeOptions, bind_ok_iff] at h
  obtain ⟨_, hboth, _, -, _, -, _, -, h⟩ := h
  cases h
  exact bailIf_ok_iff.mp hboth

variable {action : RuleAction} {requireDecision : Bool} {crates : Crates}

/-- An action made of the options of a rule. -/
theorem exclusive_of_routeOptions {rule : RouteItems} {f : RouteOptions → RuleAction}
    (hf : ∀ options, (f options).options = options)
    (h : (do return f (← routeOptions rule) : Except Failure RuleAction) = .ok action) : action.options.Exclusive := by
  obtain ⟨options, hoptions, h⟩ := bind_ok_iff.mp h
  cases h
  rw [hf]
  exact routeOptions_exclusive hoptions

theorem compileAction_exclusive {rule : RouteItems}
    (h : compileAction requireDecision rule = .ok action) : action.options.Exclusive := by
  unfold compileAction at h
  split at h
  · cases h
    exact RouteOptions.exclusive_default
  · split at h
    · obtain ⟨tag, -, h⟩ := bind_ok_iff.mp h
      exact exclusive_of_routeOptions (fun _ => rfl) h
    · split_ifs at h
      · exact exclusive_of_routeOptions (fun _ => rfl) h
      · cases h
        exact RouteOptions.exclusive_default
      · exact exclusive_of_routeOptions (fun _ => rfl) h
      · exact exclusive_of_routeOptions (fun _ => rfl) h
      · obtain ⟨tag, -, h⟩ := bind_ok_iff.mp h
        exact exclusive_of_routeOptions (fun _ => rfl) h
      · exact exclusive_of_routeOptions (fun _ => rfl) h
      · cases h
        exact RouteOptions.exclusive_default
      · cases h
        exact RouteOptions.exclusive_default

theorem CompiledRule.compile_exclusive {available : CompiledRuleSetMap} {rule : RouteRule} {compiled : CompiledRule}
    (h : CompiledRule.compile crates available requireDecision rule = .ok compiled) :
    compiled.own.action.options.Exclusive := by
  obtain ⟨rule, rules⟩ := rule
  simp only [CompiledRule.compile, bind_ok_iff] at h
  obtain ⟨_, -, _, -, mode, -, _, -, action, haction, ruleSets, -, logicalRules, -, fields, hfields, h⟩ := h
  cases h
  have hfield : fields.action = action := (compileFields_ok hfields).2.2
  show fields.action.options.Exclusive
  rw [hfield]
  exact compileAction_exclusive haction

/-- The options of a router that are merged in an evaluation: those it starts with, and those of each rule. -/
structure Router.Exclusive (router : Router) : Prop where
  default : router.defaultOptions.Exclusive
  rules : ∀ rule ∈ router.rules, rule.own.action.options.Exclusive

theorem Router.compile_exclusive {read : RuleSetConfig → Except Failure (List RouteRule)}
    {config : RouteConfig} {defaultOutbound : Str} {router : Router}
    (h : Router.compile crates read config defaultOutbound = .ok router) : router.Exclusive := by
  obtain ⟨ruleSets, -, h⟩ := bind_ok_iff.mp h
  obtain ⟨rules, hrules, h⟩ := bind_ok_iff.mp h
  cases h
  refine ⟨by simp [RouteOptions.Exclusive], fun rule hrule => ?_⟩
  obtain ⟨source, -, hsource⟩ := mapM_ok_mem hrules rule hrule
  exact CompiledRule.compile_exclusive hsource

end Xhttp.Routing

namespace Xhttp.Proxy
open Xhttp.Lib Xhttp.Routing Vless

/-! ## Rounds -/

namespace RouteLoop
variable {env : Env} {input : RouteInput} {source : Source} {destination : Destination} {l l' m : RouteLoop}

/-- The options of the rule that the next round finds. -/
def roundOptions (input : RouteInput) (source : Source) (destination : Destination) (l : RouteLoop) : RouteOptions :=
  match input.router.nextActionLazy (l.context input destination source.network) l.state.cursor with
  | .action _ action => action.options
  | _ => {}

theorem roundOptions_exclusive (hrouter : input.router.Exclusive) (l : RouteLoop) :
    (l.roundOptions input source destination).Exclusive := by
  unfold roundOptions
  split
  · next i action haction =>
    obtain ⟨rule, hrule, hown⟩ := Router.mem_of_action haction
    rw [← hown]
    exact hrouter.rules rule hrule
  · exact RouteOptions.exclusive_default

theorem resolveAction_options (l : RouteLoop) (options : Dns.LookupOptions) :
    (l.resolveAction input options).All fun l' => l'.options = l.options := by
  unfold resolveAction
  split
  · dsimp only
    split
    · trivial
    · rfl
  · rfl

theorem needResolve_options (l : RouteLoop) (index : Nat) : (l.needResolve input index).options = l.options := by
  unfold needResolve
  split
  · dsimp only
    split <;> rfl
  · rfl

theorem apply_options (l : RouteLoop) (action : RuleAction) :
    (l.apply env input source action).All fun l' => l'.options = l.options.merge action.options := by
  cases action with
  | route decision options | routeOptions options => exact rfl
  | sniff sniffers timeout => exact (RouteOptions.merge_default l.options).symm
  | resolve =>
    simp only [RuleAction.options, RouteOptions.merge_default]
    exact resolveAction_options l _

theorem step_options (env : Env) (input : RouteInput) (source : Source) (destination : Destination) (l : RouteLoop) :
    (l.step env input source destination).All fun l' =>
      l'.options = l.options.merge (l.roundOptions input source destination) := by
  unfold step roundOptions
  cases input.router.nextActionLazy (l.context input destination source.network) l.state.cursor with
  | action index action => exact apply_options _ action
  | needResolve index => exact (needResolve_options l index).trans (RouteOptions.merge_default l.options).symm
  | none => exact (RouteOptions.merge_default l.options).symm

/-- The rounds of an evaluation, one after the other. -/
def Next (env : Env) (input : RouteInput) (source : Source) (destination : Destination) (l l' : RouteLoop) : Prop :=
  l.step env input source destination = .next l'

/-- The round finds no rule for the mode other than the one in force. -/
def Compatible (input : RouteInput) (source : Source) (destination : Destination) (l : RouteLoop) : Prop :=
  l.options.Compatible (l.roundOptions input source destination)

def start (input : RouteInput) (destination : Destination) : RouteLoop :=
  { state := .new destination, options := input.router.defaultOptions }

/-- One round: the options stay exclusive exactly if the round is compatible with them. -/
theorem step_exclusive (hrouter : input.router.Exclusive) (env : Env) (source : Source) (destination : Destination)
    (l : RouteLoop) : (l.step env input source destination).All fun l' =>
      l'.options.Exclusive ↔ l.options.Exclusive ∧ l.Compatible input source destination := by
  have hstep := step_options env input source destination l
  revert hstep
  cases l.step env input source destination with
  | fail => exact fun _ => trivial
  | next l' | stop decision l' =>
    intro (hoptions : l'.options = _)
    show l'.options.Exclusive ↔ _
    rw [hoptions]
    exact RouteOptions.exclusive_merge_iff (roundOptions_exclusive hrouter l)

theorem evaluateLoop_exclusive (hrouter : input.router.Exclusive) {rounds : Nat} {decision : RouteDecision}
    (h : evaluateLoop env input source destination rounds l = some (.ok (decision, l'))) :
    l'.options.Exclusive ↔ l.options.Exclusive ∧
      ∀ m, Relation.ReflTransGen (Next env input source destination) l m → m.Compatible input source destination := by
  refine evaluateLoop_induct (P := fun l _ l' => l'.options.Exclusive ↔ l.options.Exclusive ∧
    ∀ m, Relation.ReflTransGen (Next env input source destination) l m → m.Compatible input source destination) ?_ ?_ h
  · intro l decision l' hstop
    have hround := step_exclusive hrouter env source destination l
    rw [hstop] at hround
    refine hround.trans (and_congr_right fun _ => ⟨fun hl m hm => ?_, fun hall => hall l .refl⟩)
    -- the last round is followed by no other
    grind [Next]
  · intro l l₁ decision l' hnext ih
    have hround := step_exclusive hrouter env source destination l
    rw [hnext] at hround
    rw [ih, show l₁.options.Exclusive ↔ _ from hround, and_assoc]
    refine and_congr_right fun _ => ⟨fun ⟨hl, hall⟩ m hm => ?_, fun hall => ⟨hall l .refl, fun m hm => ?_⟩⟩
    · obtain rfl | ⟨l₂, hnext', hm⟩ := hm.cases_head
      · exact hl
      · rw [Next, hnext] at hnext'
        cases hnext'
        exact hall m hm
    · exact hall m (hm.head hnext)

end RouteLoop

/-- The options that an evaluation returns have at most one of the two modes on, exactly if no round of
    the evaluation finds a rule that asks for the mode other than the one in force. -/
theorem fragmentation_exclusive_iff {crates : Crates} {read : RuleSetConfig → Except Failure (List RouteRule)}
    {config : RouteConfig} {defaultOutbound : Str} {env : Env} {input : RouteInput} {source : Source}
    {destination : Destination} {rounds : Nat} {evaluation : RouteEvaluation} {l : RouteLoop}
    (hcompile : Router.compile crates read config defaultOutbound = .ok input.router)
    (h : evaluateRoute env input source destination rounds = some (.ok (evaluation, l))) :
    evaluation.options.Exclusive ↔
      ∀ m, Relation.ReflTransGen (RouteLoop.Next env input source destination) (RouteLoop.start input destination) m →
        m.Compatible input source destination := by
  have hrouter := Router.compile_exclusive hcompile
  obtain ⟨result, hloop, hresult⟩ := Option.map_eq_some_iff.mp h
  cases result with
  | error => cases hresult
  | ok final =>
    cases hresult
    exact (RouteLoop.evaluateLoop_exclusive hrouter hloop).trans (and_iff_right hrouter.default)

def exampleInput (router : Router) : RouteInput where
  peer := (.v4 #v[127, 0, 0, 4], 4000)
  inbound := "socks"
  router := router
  resolver := some exampleResolver

theorem fragmentation_exclusive_iff_fragment :
    ∃ router evaluation l, exampleRouter [{ outbound := some "direct".toList, tlsFragment := true }] = .ok router ∧
      evaluateTcpRoute exampleEnv (exampleInput router) [] (.domain "a.example" 443) 8 = some (.ok (evaluation, l)) ∧
      evaluation.options.tlsFragment = true ∧ ∀ m, Relation.ReflTransGen
          (RouteLoop.Next exampleEnv (exampleInput router) (.tcp []) (.domain "a.example" 443))
          (RouteLoop.start (exampleInput router) (.domain "a.example" 443)) m →
        m.Compatible (exampleInput router) (.tcp []) (.domain "a.example" 443) := by
  obtain ⟨router, evaluation, l, hrouter, hrun, hon, hoff⟩ :
      ∃ router evaluation l, exampleRouter [{ outbound := some "direct".toList, tlsFragment := true }] = .ok router ∧
        evaluateTcpRoute exampleEnv (exampleInput router) [] (.domain "a.example" 443) 8 =
          some (.ok (evaluation, l)) ∧ evaluation.options.tlsFragment = true ∧
            evaluation.options.tlsRecordFragment = false :=
    ⟨_, _, _, rfl, rfl, rfl, rfl⟩
  have hexclusive : evaluation.options.Exclusive := by
    simp [RouteOptions.Exclusive, hoff]
  refine ⟨router, evaluation, l, hrouter, hrun, hon, ?_⟩
  unfold exampleRouter at hrouter
  exact (fragmentation_exclusive_iff hrouter hrun).mp hexclusive

/-- A `route-options` rule sets one mode and the rule that routes the flow the other; each of them is
    accepted, and a rule with both is not. -/
theorem both_fragmentation_modes :
    (∃ router evaluation l, exampleRouter [{ action := some "route-options".toList, tlsFragment := true },
        { outbound := some "direct".toList, tlsRecordFragment := true }] = .ok router ∧
      exampleEvaluation router = some (.ok (evaluation, l)) ∧
      evaluation.options.tlsFragment = true ∧ evaluation.options.tlsRecordFragment = true ∧
      ¬ evaluation.options.Exclusive) ∧
    exampleRouter [{ outbound := some "direct".toList, tlsFragment := true, tlsRecordFragment := true }] =
      .error (.message "tls_fragment and tls_record_fragment are mutually exclusive") :=
  ⟨⟨_, _, _, rfl, rfl, rfl, rfl, fun hexclusive => hexclusive ⟨rfl, rfl⟩⟩, rfl⟩

end Xhttp.Proxy
