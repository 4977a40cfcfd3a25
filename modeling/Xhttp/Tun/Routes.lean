import Xhttp.Tun.Config

/- The plan of routes and policy rules for a TUN device (`build_actions` in `src/tun_route_linux.rs`). -/
namespace Xhttp.Tun
open Xhttp.Lib Xhttp.Lib.Checked Vless List

/-! ## Actions -/

inductive Family where
  | v4
  | v6
  deriving DecidableEq, Repr

def Family.of (ipv6 : Bool) : Family := if ipv6 then .v6 else .v4

def Family.flag : Family → Str
  | .v4 => "-4"
  | .v6 => "-6"

inductive Object where
  | route
  | rule
  deriving DecidableEq, Repr

def Object.text : Object → Str
  | .route => "route"
  | .rule => "rule"

/-- `struct IpAction`: all of them are made by `new`, so that `add` and `delete` have the object and the tail
    in common. -/
structure IpAction where
  family : Family
  object : Object
  tail : List Str
  deriving DecidableEq, Repr

def IpAction.add (a : IpAction) : List Str := a.object.text :: "add" :: a.tail

def IpAction.delete (a : IpAction) : List Str := a.object.text :: "del" :: a.tail

def IpAction.route (family : Family) (net : IpNet) (interface : Str) (table : UInt32) : IpAction :=
  ⟨family, .route, [net.text, "dev", interface, "table", Str.decimal table.toNat]⟩

def IpAction.rule (family : Family) (priority : UInt32) (selectors : List Str) : IpAction :=
  ⟨family, .rule, "priority" :: Str.decimal priority.toNat :: selectors⟩

/-! ## The plan -/

/-- The largest priority is below 32766, and far below what a `u32` holds. -/
def nextPriority (priority : UInt32) : Except Failure UInt32 :=
  if priority.toNat + 1 < 32766 then .ok (priority + 1) else .error (.message "TUN policy rule priority overflow")

/-- `actions.push(IpAction::rule(family, priority, ..))` and `priority = next_priority(priority)?`. -/
def pushRule (family : Family) (plan : UInt32 × List IpAction) (selectors : List Str) :
    Except Failure (UInt32 × List IpAction) := do
  let next ← nextPriority plan.1
  pure (next, plan.2 ++ [.rule family plan.1 selectors])

/-- A loop that pushes one rule for each item. -/
def pushRules {α : Type} (family : Family) (selectors : α → List Str) (items : List α) (plan : UInt32 × List IpAction) :
    Except Failure (UInt32 × List IpAction) :=
  items.foldlM (fun plan item => pushRule family plan (selectors item)) plan

def lookupMain (selectors : List Str) : List Str := selectors ++ ["lookup".toList, "main".toList]

def lookupTable (table : UInt32) (selectors : List Str) : List Str :=
  selectors ++ ["lookup".toList, Str.decimal table.toNat]

def uidRange (start stop : Nat) : List Str := ["uidrange", Str.decimal start ++ '-' :: Str.decimal stop]

def suppressRule : List Str := ["lookup", "main", "suppress_prefixlength", "0"]

def unspecified (ipv6 : Bool) : Str := if ipv6 then "::/128" else "0.0.0.0/32"

def defaultRoute (ipv6 : Bool) : IpNet := ⟨.ofBits (!ipv6) 0, 0⟩

/-- The prefixes that are routed to the device. -/
def familyRoutes (config : TunConfig) (ipv6 : Bool) : List IpNet :=
  let routes := ofFamily ipv6 config.routeAddresses
  if routes.isEmpty && !config.routeIncludeActive then [defaultRoute ipv6] else routes

/-- `0x{:x}` of a mark. -/
def markText (mark : UInt32) : Str := "0x" ++ Nat.toDigits 16 mark.toNat

/-- The rules of `auto_redirect`: only the input mark is looked up in the table. -/
def redirectRules (config : TunConfig) (family : Family) : List IpAction :=
  [.rule family config.ruleIndex ["fwmark", markText config.redirectOutputMark, "goto",
      Str.decimal (config.ruleIndex + 2).toNat],
    .rule family (config.ruleIndex + 1) (lookupTable config.tableIndex ["fwmark", markText config.redirectInputMark]),
    .rule family (config.ruleIndex + 2) ["nop"]]

def truncated (net : IpNet) : IpNet := ⟨net.network, net.prefixLen⟩

/-- The rules for what is not captured. -/
def pushExclusions (config : TunConfig) (ipv6 : Bool) (plan : UInt32 × List IpAction) :
    Except Failure (UInt32 × List IpAction) := do
  let family := Family.of ipv6
  let plan ← pushRules family (fun net : IpNet => lookupMain ["to", net.text])
    (ofFamily ipv6 config.routeExcludeAddresses) plan
  let plan ← pushRules family (fun uid : UInt32 => lookupMain (uidRange uid.toNat uid.toNat)) config.excludeUids plan
  let plan ← pushRules family
    (fun range : Nat × Nat => lookupMain (uidRange range.1 range.2)) config.excludeUidRanges plan
  let plan ← pushRules family (fun interface => lookupMain ["iif", interface]) config.excludeInterfaces plan
  pushRule family plan suppressRule

/-- The rules for what the host itself sends. -/
def pushSources (config : TunConfig) (ipv6 : Bool) (plan : UInt32 × List IpAction) :
    Except Failure (UInt32 × List IpAction) :=
  let family := Family.of ipv6
  let table := config.tableIndex
  if config.includeUids = [] ∧ config.includeUidRanges = [] then do
    let plan ← pushRules family
      (fun net : IpNet => lookupTable table ["iif", "lo", "from", (truncated net).text])
      (ofFamily ipv6 config.addresses) plan
    pushRule family plan (lookupTable table ["iif", "lo", "from", unspecified ipv6])
  else do
    let plan ← pushRules family
      (fun uid : UInt32 => lookupTable table (uidRange uid.toNat uid.toNat)) config.includeUids plan
    pushRules family
      (fun range : Nat × Nat => lookupTable table (uidRange range.1 range.2)) config.includeUidRanges plan

/-- The rules for the interfaces that are captured. -/
def pushInterfaces (config : TunConfig) (family : Family) (plan : UInt32 × List IpAction) :
    Except Failure (List IpAction) :=
  let table := config.tableIndex
  -- the only rule after which no further priority is asked for
  if config.includeInterfaces = [] then
    pure (plan.2 ++ [.rule family plan.1 (lookupTable table ["not", "iif", "lo"])])
  else do
    let plan ← pushRules family (fun interface => lookupTable table ["iif", interface]) config.includeInterfaces plan
    pure plan.2

def routeActions (config : TunConfig) (ipv6 : Bool) : List IpAction :=
  (familyRoutes config ipv6).map fun net => .route (.of ipv6) net config.interfaceName config.tableIndex

def buildFamilyActions (config : TunConfig) (ipv6 : Bool) (actions : List IpAction) :
    Except Failure (List IpAction) := do
  let actions := actions ++ routeActions config ipv6
  if config.autoRedirect then pure (actions ++ redirectRules config (.of ipv6))
  else
    let plan ← pushExclusions config ipv6 (config.ruleIndex, actions)
    let plan ← pushSources config ipv6 plan
    pushInterfaces config (.of ipv6) plan

def unreachableRule (config : TunConfig) (family : Family) : IpAction := .rule family config.ruleIndex ["unreachable"]

/-- The actions of a family that the device has. -/
def buildFamilyIf (config : TunConfig) (present ipv6 : Bool) (actions : List IpAction) :
    Except Failure (List IpAction) :=
  if present then buildFamilyActions config ipv6 actions else pure actions

def buildActions (config : TunConfig) : Except Failure (List IpAction) := do
  let hasV4 := config.addresses.any (·.addr.isIpv4)
  let hasV6 := config.addresses.any (·.addr.isIpv6)
  let actions ← buildFamilyIf config hasV4 false []
  let actions ← buildFamilyIf config hasV6 true actions
  let actions := if config.strictRoute && !hasV4 then actions ++ [unreachableRule config .v4] else actions
  pure (if config.strictRoute && !hasV6 then actions ++ [unreachableRule config .v6] else actions)

/-! ## Consecutive priorities -/

section
variable {family : Family} {p : UInt32} {acc : List IpAction}

/-- Rules with the selectors of a list, at consecutive priorities. -/
def rulesAt (family : Family) : Nat → List (List Str) → List IpAction
  | _, [] => []
  | priority, selectors :: rest => .rule family (UInt32.ofNat priority) selectors :: rulesAt family (priority + 1) rest

theorem nextPriority_of_lt (h : p.toNat + 1 < 32766) : nextPriority p = .ok (p + 1) := if_pos h

theorem toNat_succ (h : p.toNat + 1 < 32766) : (p + 1).toNat = p.toNat + 1 := by
  rw [UInt32.toNat_add]
  exact Nat.mod_eq_of_lt (by have : (1 : UInt32).toNat = 1 := rfl; omega)

/-- The loops one after the other are one loop over all selectors. -/
def pushAll (family : Family) (xs : List (List Str)) (plan : UInt32 × List IpAction) :
    Except Failure (UInt32 × List IpAction) :=
  xs.foldlM (pushRule family) plan

theorem pushRules_eq {α : Type} (selectors : α → List Str) (items : List α) (plan : UInt32 × List IpAction) :
    pushRules family selectors items plan = pushAll family (items.map selectors) plan := by
  simp only [pushAll, pushRules, foldlM_map]

theorem pushAll_append (xs ys : List (List Str)) (plan : UInt32 × List IpAction) :
    pushAll family (xs ++ ys) plan = pushAll family xs plan >>= fun plan => pushAll family ys plan := foldlM_append

theorem pushAll_singleton (x : List Str) (plan : UInt32 × List IpAction) :
    pushAll family [x] plan = pushRule family plan x := by
  simp only [pushAll, foldlM_cons, foldlM_nil, bind_pure]

theorem pushAll_eq : ∀ (xs : List (List Str)) (p : UInt32) (acc : List IpAction), p.toNat < 32766 →
    pushAll family xs (p, acc) =
      if p.toNat + xs.length < 32766 then .ok (UInt32.ofNat (p.toNat + xs.length), acc ++ rulesAt family p.toNat xs)
      else .error (.message "TUN policy rule priority overflow")
  | [], p, acc, hp => by
    rw [if_pos (by simpa using hp)]
    simp only [pushAll, foldlM_nil, rulesAt, append_nil, length_nil, Nat.add_zero, UInt32.ofNat_toNat]
    rfl
  | x :: xs, p, acc, hp => by
    have hcons : pushAll family (x :: xs) (p, acc) = pushRule family (p, acc) x >>= pushAll family xs := by
      rfl
    rw [hcons, length_cons]
    by_cases hnext : p.toNat + 1 < 32766
    · have hrule : pushRule family (p, acc) x = .ok (p + 1, acc ++ [.rule family p x]) := by
        rw [pushRule, nextPriority_of_lt hnext]
        rfl
      rw [hrule]
      show pushAll family xs (p + 1, acc ++ [.rule family p x]) = _
      rw [pushAll_eq xs (p + 1) _ (by rw [toNat_succ hnext]; exact hnext), toNat_succ hnext]
      have hsum : p.toNat + 1 + xs.length = p.toNat + (xs.length + 1) := by omega
      rw [hsum, rulesAt, UInt32.ofNat_toNat, append_assoc]
      rfl
    · rw [if_neg (by omega), pushRule, nextPriority, if_neg hnext]
      rfl

theorem rulesAt_append (ys : List (List Str)) : ∀ (xs : List (List Str)) (priority : Nat),
    rulesAt family priority (xs ++ ys) = rulesAt family priority xs ++ rulesAt family (priority + xs.length) ys
  | [], _ => rfl
  | _ :: xs, priority => by
    have hsum : priority + 1 + xs.length = priority + (xs.length + 1) := by omega
    rw [cons_append, rulesAt, rulesAt, rulesAt_append ys xs, cons_append, length_cons, hsum]

end

/-! ## The rules of a family -/

section
variable (config : TunConfig) (ipv6 : Bool)

def exclusionSelectors : List (List Str) :=
  (ofFamily ipv6 config.routeExcludeAddresses).map (fun net => lookupMain ["to", net.text]) ++
  (config.excludeUids.map (fun uid => lookupMain (uidRange uid.toNat uid.toNat)) ++
  (config.excludeUidRanges.map (fun range => lookupMain (uidRange range.1 range.2)) ++
  (config.excludeInterfaces.map (fun interface => lookupMain ["iif", interface]) ++ [suppressRule])))

def sourceSelectors : List (List Str) :=
  if config.includeUids = [] ∧ config.includeUidRanges = [] then
    (ofFamily ipv6 config.addresses).map (fun net =>
      lookupTable config.tableIndex ["iif", "lo", "from", (truncated net).text]) ++
    [lookupTable config.tableIndex ["iif", "lo", "from", unspecified ipv6]]
  else
    config.includeUids.map (fun uid => lookupTable config.tableIndex (uidRange uid.toNat uid.toNat)) ++
    config.includeUidRanges.map (fun range => lookupTable config.tableIndex (uidRange range.1 range.2))

def interfaceSelectors : List (List Str) :=
  if config.includeInterfaces = [] then [lookupTable config.tableIndex ["not", "iif", "lo"]]
  else config.includeInterfaces.map fun interface => lookupTable config.tableIndex ["iif", interface]

/-- The rules before those for the interfaces. -/
def frontSelectors : List (List Str) := exclusionSelectors config ipv6 ++ sourceSelectors config ipv6

variable {config ipv6}

theorem pushExclusions_eq (plan : UInt32 × List IpAction) :
    pushExclusions config ipv6 plan = pushAll (.of ipv6) (exclusionSelectors config ipv6) plan := by
  simp only [pushExclusions, exclusionSelectors, pushRules_eq, ← pushAll_singleton, pushAll_append]

theorem pushSources_eq (plan : UInt32 × List IpAction) :
    pushSources config ipv6 plan = pushAll (.of ipv6) (sourceSelectors config ipv6) plan := by
  unfold pushSources sourceSelectors
  split
  · simp only [pushRules_eq, ← pushAll_singleton, pushAll_append]
  · simp only [pushRules_eq, pushAll_append]

/-- The last loop asks for a priority after each of its rules; without interfaces there is one rule and no loop. -/
theorem pushInterfaces_eq {p : UInt32} (hp : p.toNat < 32766) (acc : List IpAction) :
    pushInterfaces config family (p, acc) =
      if p.toNat + config.includeInterfaces.length < 32766 then
        .ok (acc ++ rulesAt family p.toNat (interfaceSelectors config))
      else .error (.message "TUN policy rule priority overflow") := by
  unfold pushInterfaces interfaceSelectors
  by_cases hnone : config.includeInterfaces = []
  · rw [if_pos hnone, if_pos hnone, if_pos (by rw [hnone]; exact hp)]
    simp only [rulesAt, UInt32.ofNat_toNat]
    rfl
  · rw [if_neg hnone, if_neg hnone]
    simp only [pushRules_eq]
    rw [pushAll_eq _ _ _ hp, length_map]
    split
    · rfl
    · rfl

/-- Without `auto_redirect` the plan of a family is its routes and its rules at consecutive priorities, and it fails
    if the loops ask for a priority that is too large. -/
theorem buildFamilyActions_eq (hredirect : config.autoRedirect = false) (hindex : config.ruleIndex.toNat < 32766)
    (actions : List IpAction) : buildFamilyActions config ipv6 actions =
      if config.ruleIndex.toNat + (frontSelectors config ipv6).length + config.includeInterfaces.length < 32766 then
        .ok (actions ++ routeActions config ipv6 ++
          rulesAt (.of ipv6) config.ruleIndex.toNat (frontSelectors config ipv6 ++ interfaceSelectors config))
      else .error (.message "TUN policy rule priority overflow") := by
  have hbuild : buildFamilyActions config ipv6 actions =
      pushAll (.of ipv6) (frontSelectors config ipv6) (config.ruleIndex, actions ++ routeActions config ipv6) >>=
        pushInterfaces config (.of ipv6) := by
    simp only [buildFamilyActions, hredirect, Bool.false_eq_true, if_false, pushExclusions_eq, pushSources_eq,
      frontSelectors, pushAll_append, bind_assoc]
  rw [hbuild, pushAll_eq _ _ _ hindex]
  by_cases hfront : config.ruleIndex.toNat + (frontSelectors config ipv6).length < 32766
  · have hnat : (UInt32.ofNat (config.ruleIndex.toNat + (frontSelectors config ipv6).length)).toNat =
        config.ruleIndex.toNat + (frontSelectors config ipv6).length :=
      UInt32.toNat_ofNat_of_lt' (by show _ < 2 ^ 32; omega)
    rw [if_pos hfront]
    show pushInterfaces config (.of ipv6) (.ofNat _, _) = _
    rw [pushInterfaces_eq (by rw [hnat]; exact hfront), hnat, rulesAt_append, append_assoc]
  · rw [if_neg hfront, if_neg (by omega)]
    rfl

end

/-! ## Priorities -/

/-- The priority of a rule: the word after `priority`. -/
def IpAction.priority? (a : IpAction) : Option Nat :=
  if a.object = .rule then (a.tail[1]?).bind (Str.parseUnsigned (2 ^ 32)) else none

/-- The priorities of the rules of a family, in the order of the plan. -/
def rulePriorities (family : Family) (actions : List IpAction) : List Nat :=
  (actions.filter (·.family = family)).filterMap IpAction.priority?

section
variable {config : TunConfig}

theorem rulePriorities_append (xs ys : List IpAction) :
    rulePriorities family (xs ++ ys) = rulePriorities family xs ++ rulePriorities family ys := by
  simp [rulePriorities]

theorem priority?_rule (p : UInt32) (selectors : List Str) :
    (IpAction.rule family p selectors).priority? = some p.toNat := by
  exact Str.parseUnsigned_decimal p.toNat_lt

theorem rulePriorities_rule (p : UInt32) (selectors : List Str) :
    rulePriorities family [.rule family p selectors] = [p.toNat] := by
  have hfamily : (IpAction.rule family p selectors).family = family := rfl
  simp [rulePriorities, hfamily, priority?_rule]

theorem rulePriorities_rulesAt : ∀ (xs : List (List Str)) (priority : Nat), priority + xs.length ≤ 32766 →
    rulePriorities family (rulesAt family priority xs) = List.range' priority xs.length
  | [], _, _ => rfl
  | x :: xs, priority, h => by
    rw [length_cons] at h
    have hnat : (UInt32.ofNat priority).toNat = priority := UInt32.toNat_ofNat_of_lt' (by show priority < 2 ^ 32; omega)
    have hcons : rulesAt family priority (x :: xs) =
        [.rule family (.ofNat priority) x] ++ rulesAt family (priority + 1) xs := rfl
    rw [hcons, rulePriorities_append, rulePriorities_rule, hnat, rulePriorities_rulesAt xs _ (by omega)]
    rfl

theorem rulePriorities_of_ne {actions : List IpAction} (h : ∀ a ∈ actions, a.family ≠ family) :
    rulePriorities family actions = [] := by
  have hnone : actions.filter (·.family = family) = [] := by simpa using h
  rw [rulePriorities, hnone]
  rfl

theorem rulesAt_family : ∀ (xs : List (List Str)) (priority : Nat), ∀ a ∈ rulesAt family priority xs, a.family = family
  | [], _, _, ha => absurd ha not_mem_nil
  | _ :: xs, priority, a, ha => by
    rcases mem_cons.mp ha with rfl | hrest
    · rfl
    · exact rulesAt_family xs (priority + 1) a hrest

theorem rulePriorities_routeActions (config : TunConfig) (ipv6 : Bool) :
    rulePriorities family (routeActions config ipv6) = [] := by
  refine filterMap_eq_nil_iff.mpr fun a ha => ?_
  obtain ⟨net, -, rfl⟩ := mem_map.mp (mem_of_mem_filter ha)
  rfl

def ruleCount (config : TunConfig) (ipv6 : Bool) : Nat :=
  (frontSelectors config ipv6 ++ interfaceSelectors config).length

def familyActions (config : TunConfig) (ipv6 : Bool) : List IpAction :=
  routeActions config ipv6 ++
    rulesAt (.of ipv6) config.ruleIndex.toNat (frontSelectors config ipv6 ++ interfaceSelectors config)

theorem familyActions_family (config : TunConfig) (ipv6 : Bool) :
    ∀ a ∈ familyActions config ipv6, a.family = .of ipv6 := by
  intro a ha
  rcases mem_append.mp ha with hroute | hrule
  · obtain ⟨net, -, rfl⟩ := mem_map.mp hroute
    rfl
  · exact rulesAt_family _ _ a hrule

theorem rulePriorities_familyActions {ipv6 : Bool} (hcount : config.ruleIndex.toNat + ruleCount config ipv6 ≤ 32766) :
    rulePriorities (.of ipv6) (familyActions config ipv6) = List.range' config.ruleIndex.toNat
      (ruleCount config ipv6) := by
  rw [familyActions, rulePriorities_append, rulePriorities_routeActions, rulePriorities_rulesAt _ _ hcount, nil_append]
  rfl

end

/-! ## The whole plan -/

section
variable (config : TunConfig) (ipv6 : Bool)

def hasFamily : Bool := config.addresses.any (·.addr.isIpv6 == ipv6)

/-- The loops of a family ask for no priority that is too large. -/
def Fits : Prop :=
  config.ruleIndex.toNat + (frontSelectors config ipv6).length + config.includeInterfaces.length < 32766

instance decidableFits : Decidable (Fits config ipv6) := inferInstanceAs (Decidable (_ < _))

def familyPart : List IpAction :=
  if hasFamily config ipv6 then familyActions config ipv6 else []

/-- Under `strict_route` one rule refuses a family that the device does not have. -/
def strictPart : List IpAction :=
  if config.strictRoute && !hasFamily config ipv6 then [unreachableRule config (.of ipv6)] else []

end

section
variable {config : TunConfig}

theorem hasFamily_v4 : hasFamily config false = config.addresses.any (·.addr.isIpv4) := by
  simp [hasFamily, IpAddr.isIpv6]

theorem hasFamily_v6 : hasFamily config true = config.addresses.any (·.addr.isIpv6) := by
  unfold hasFamily
  congr 1
  funext net
  exact beq_true _

theorem buildFamilyIf_eq (hredirect : config.autoRedirect = false) (hindex : config.ruleIndex.toNat < 32766)
    (ipv6 : Bool) (acc : List IpAction) : buildFamilyIf config (hasFamily config ipv6) ipv6 acc =
      if hasFamily config ipv6 = true → Fits config ipv6 then .ok (acc ++ familyPart config ipv6)
      else .error (.message "TUN policy rule priority overflow") := by
  unfold familyPart buildFamilyIf
  by_cases hhas : hasFamily config ipv6 = true
  · rw [if_pos hhas, if_pos hhas, buildFamilyActions_eq hredirect hindex, append_assoc]
    by_cases hfits : Fits config ipv6
    · exact (if_pos hfits).trans (if_pos fun _ => hfits).symm
    · exact (if_neg hfits).trans (if_neg fun h => hfits (h hhas)).symm
  · rw [if_neg hhas, if_neg hhas, append_nil, if_pos fun h => absurd h hhas]
    rfl

/-- There is a plan exactly if the loops of each family that the device has can be run to their ends. -/
theorem buildActions_eq (hredirect : config.autoRedirect = false) (hindex : config.ruleIndex.toNat < 32766) :
    buildActions config = if ∀ ipv6, hasFamily config ipv6 = true → Fits config ipv6 then
        .ok (familyPart config false ++ familyPart config true ++ strictPart config false ++ strictPart config true)
      else .error (.message "TUN policy rule priority overflow") := by
  have hbuild := buildFamilyIf_eq hredirect hindex
  unfold buildActions
  rw [← hasFamily_v4, ← hasFamily_v6]
  dsimp only
  rw [hbuild]
  by_cases hv4 : hasFamily config false = true → Fits config false
  · rw [if_pos hv4]
    simp only [bind, Except.bind, hbuild]
    by_cases hv6 : hasFamily config true = true → Fits config true
    · rw [if_pos hv6, if_pos (Bool.forall_bool.mpr ⟨hv4, hv6⟩)]
      have hpush : ∀ (c : Bool) (l : List IpAction) (a : IpAction),
          (if c = true then l ++ [a] else l) = l ++ if c = true then [a] else [] := by
        intro c l a
        cases c <;> simp
      simp only [hpush]
      rfl
    · rw [if_neg hv6, if_neg fun hall => hv6 (hall true)]
  · rw [if_neg hv4, if_neg fun hall => hv4 (hall false)]
    rfl

/-- The priorities of a family are consecutive from the first of the window. -/
theorem rulePriorities_plan {ipv6 : Bool} (hcount : config.ruleIndex.toNat + ruleCount config ipv6 ≤ 32766) :
    ∃ n, n ≤ max 1 (ruleCount config ipv6) ∧ rulePriorities (.of ipv6)
      (familyPart config false ++ familyPart config true ++ strictPart config false ++ strictPart config true) =
        List.range' config.ruleIndex.toNat n := by
  have hother : ∀ other, other ≠ ipv6 → rulePriorities (.of ipv6) (familyPart config other) = [] ∧
      rulePriorities (.of ipv6) (strictPart config other) = [] := by
    intro other hne
    have hfamily : Family.of other ≠ Family.of ipv6 := by cases other <;> cases ipv6 <;> simp_all [Family.of]
    constructor
    · grind [rulePriorities_of_ne, familyPart, familyActions_family]
    · refine rulePriorities_of_ne fun a ha => ?_
      unfold strictPart at ha
      split at ha
      · rw [mem_singleton.mp ha]
        exact hfamily
      · exact absurd ha not_mem_nil
  have hown : ∃ n, n ≤ max 1 (ruleCount config ipv6) ∧ rulePriorities (.of ipv6) (familyPart config ipv6) ++
      rulePriorities (.of ipv6) (strictPart config ipv6) = List.range' config.ruleIndex.toNat n := by
    unfold familyPart strictPart
    cases hasFamily config ipv6 with
    | true =>
      rw [if_pos rfl, rulePriorities_familyActions hcount]
      simp [rulePriorities]
    | false =>
      cases config.strictRoute with
      | true => exact ⟨1, Nat.le_max_left 1 _, rulePriorities_rule _ _⟩
      | false => exact ⟨0, Nat.zero_le _, rfl⟩
  simp only [rulePriorities_append]
  cases ipv6 with
  | false => simpa [hother true (by decide)] using hown
  | true => simpa [hother false (by decide)] using hown

end

/-! ## The window -/

section
variable {inbound : Inbound} {config : TunConfig}

/-- The validator counts the rules that the planner pushes. -/
theorem Accepted.ruleCount_eq (h : Accepted inbound config) (hredirect : inbound.autoRedirect = false) (ipv6 : Bool) :
    ruleCount config ipv6 = familyRules inbound ipv6 ∧
      (config.includeInterfaces = [] → (frontSelectors config ipv6).length + 1 = familyRules inbound ipv6) ∧
      (config.includeInterfaces ≠ [] →
        (frontSelectors config ipv6).length + config.includeInterfaces.length = familyRules inbound ipv6) := by
  obtain ⟨huids, hranges⟩ := h.noUids hredirect
  have hnone : config.includeUids = [] ∧ config.includeUidRanges = [] :=
    ⟨h.includeUids.trans huids, length_eq_zero_iff.mp (h.includeUidRanges.trans (by rw [hranges]; rfl))⟩
  have hfront :
      (frontSelectors config ipv6).length + max inbound.includeInterface.length 1 = familyRules inbound ipv6 := by
    simp only [frontSelectors, exclusionSelectors, sourceSelectors, if_pos hnone, familyRules, huids, hranges, and_self,
      if_true, length_append, length_map, length_singleton, h.addresses, h.routeExcludeAddresses,
      h.excludeUids, h.excludeUidRanges, h.excludeInterfaces]
    omega
  rw [ruleCount, length_append, interfaceSelectors, h.includeInterfaces]
  by_cases hinterfaces : inbound.includeInterface = []
  · rw [hinterfaces] at hfront ⊢
    exact ⟨hfront, fun _ => hfront, absurd rfl⟩
  · have hpos : 1 ≤ inbound.includeInterface.length := length_pos_of_ne_nil hinterfaces
    rw [Nat.max_eq_left hpos] at hfront
    rw [if_neg hinterfaces, length_map]
    exact ⟨hfront, fun heq => absurd heq hinterfaces, fun _ => hfront⟩

end

/-- **An inbound that was accepted has a plan within its window exactly if no interface is selected, or the rules of
    each family that the device has leave one priority of the window free below 32766.** -/
theorem priority_window_iff (debug : Str → String) (meminfo : Option Str) (inbound : Inbound) (config : TunConfig)
    (hconfig : fromInbound debug meminfo inbound = .ok config) (hredirect : inbound.autoRedirect = false) :
    (∃ actions, buildActions config = .ok actions ∧ ∀ family, (rulePriorities family actions).Pairwise (· < ·) ∧
      ∀ p ∈ rulePriorities family actions, config.ruleIndex.toNat ≤ p ∧ p ≤ config.ruleIndex.toNat + 63 ∧ p < 32766) ↔
    (inbound.includeInterface = [] ∨ ∀ ipv6, ofFamily ipv6 inbound.address ≠ [] →
      (inbound.iproute2RuleIndex.getD 9000).toNat + familyRules inbound ipv6 < 32766) := by
  have h := accepted_of_fromInbound hconfig
  have hroom := h.room
  have hhas : ∀ ipv6, hasFamily config ipv6 = true ↔ ofFamily ipv6 inbound.address ≠ [] := by
    intro ipv6
    rw [hasFamily, h.addresses, ofFamily, ne_eq, filter_eq_nil_iff, any_eq_true]
    push Not
    rfl
  have hfits : (∀ ipv6, hasFamily config ipv6 = true → Fits config ipv6) ↔
      (inbound.includeInterface = [] ∨ ∀ ipv6, ofFamily ipv6 inbound.address ≠ [] →
        (inbound.iproute2RuleIndex.getD 9000).toNat + familyRules inbound ipv6 < 32766) := by
    rw [← h.ruleIndex, ← h.includeInterfaces]
    by_cases hinterfaces : config.includeInterfaces = []
    · refine iff_of_true (fun ipv6 _ => ?_) (.inl hinterfaces)
      have hcount := (h.ruleCount_eq hredirect ipv6).2.1 hinterfaces
      have hwindow := h.window ipv6
      unfold Fits
      rw [hinterfaces, length_nil]
      omega
    · rw [or_iff_right hinterfaces]
      refine forall_congr' fun ipv6 => ?_
      have hcount := (h.ruleCount_eq hredirect ipv6).2.2 hinterfaces
      rw [hhas, Fits, Nat.add_assoc, hcount]
  rw [← hfits, buildActions_eq (h.autoRedirect.trans hredirect) (by omega)]
  constructor
  · grind
  · intro hall
    rw [if_pos hall]
    refine ⟨_, rfl, fun family => ?_⟩
    obtain ⟨ipv6, rfl⟩ : ∃ ipv6, family = Family.of ipv6 := by
      cases family with
      | v4 => exact ⟨false, rfl⟩
      | v6 => exact ⟨true, rfl⟩
    have hwindow := h.window ipv6
    rw [← (h.ruleCount_eq hredirect ipv6).1] at hwindow
    have hcount : config.ruleIndex.toNat + ruleCount config ipv6 ≤ 32766 := by omega
    grind [rulePriorities_plan, pairwise_lt_range']

/-! One IPv4 address, and as many interfaces as the window has room for. -/

def oneAddress : IpNet := ⟨.v4 #v[172, 19, 0, 1], 30⟩

def interfaceNames (n : Nat) : List Str := (List.range n).map fun i => "lan" ++ Str.decimal i

def lastWindow (interfaces : Nat) : Inbound where
  type := "tun"
  address := [oneAddress]
  autoRoute := true
  iproute2RuleIndex := some 32702
  includeInterface := interfaceNames interfaces

/-- With 60 interfaces the last of 63 rules has the last priority but one. -/
theorem priority_window_one_free : ∃ config, fromInbound String.ofList none (lastWindow 60) = .ok config ∧
    ∃ actions, buildActions config = .ok actions ∧ ∀ family, (rulePriorities family actions).Pairwise (· < ·) ∧
      ∀ p ∈ rulePriorities family actions,
        config.ruleIndex.toNat ≤ p ∧ p ≤ config.ruleIndex.toNat + 63 ∧ p < 32766 := by
  have hconfig : ∃ config, fromInbound String.ofList none (lastWindow 60) = .ok config := ⟨_, rfl⟩
  obtain ⟨config, hconfig⟩ := hconfig
  exact ⟨config, hconfig, (priority_window_iff _ _ _ _ hconfig rfl).mpr (.inr (by decide))⟩

/-- With 61 interfaces the validator counts 64 rules and accepts, and the planner gives up after the last of them. -/
theorem full_window_refused : familyRules (lastWindow 61) false = 64 ∧
    ∃ config, fromInbound String.ofList none (lastWindow 61) = .ok config ∧
      buildActions config = .error (.message "TUN policy rule priority overflow") :=
  ⟨rfl, _, rfl, rfl⟩

end Xhttp.Tun
