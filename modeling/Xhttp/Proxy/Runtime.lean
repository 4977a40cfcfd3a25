import Xhttp.Routing.RuleSet

/- The rule-sets that the router and the resolver look at (`build_runtime` in `src/proxy/mod.rs`, `replace_from` and
   `rule_sets` in `src/routing.rs`).

   A handle is an `Arc<RwLock<CompiledRuleSetMap>>`: its clones are the same handle. The resolver is given the handle of
   a slot; when the router is compiled, its map is copied into the slot. A refresh writes to the router's own handle, so
   the resolver goes on with the map of the start (`ruleSets_agree_iff`). -/
namespace Xhttp.Proxy
open Xhttp.Lib Xhttp.Routing List

/-- The maps behind the handles; a handle is a place in the list. -/
abbrev Cells := List CompiledRuleSetMap

def Cells.read (cells : Cells) (handle : Nat) : CompiledRuleSetMap := (cells[handle]?).getD ∅

structure Runtime where
  cells : Cells
  resolver : Nat
  router : Nat

/-- `build_runtime` with a DNS configuration; `ruleSets` is what the router was compiled with. -/
def buildRuntime (ruleSets : CompiledRuleSetMap) : Runtime :=
  -- the slot is cell 0, and the router brings cell 1
  let cells : Cells := [∅, ruleSets]
  { cells := cells.set 0 (cells.read 1), resolver := 0, router := 1 }

/-- `replace_from`, where the updated router has brought a cell of its own. -/
def Runtime.replaceFrom (runtime : Runtime) (updated : Router) : Runtime :=
  let cells : Cells := runtime.cells ++ [updated.ruleSets]
  { runtime with cells := cells.set runtime.router (cells.read runtime.cells.length) }

/-- The map that `select_rule` and the check of address limits read. -/
def Runtime.resolverSets (runtime : Runtime) : CompiledRuleSetMap := runtime.cells.read runtime.resolver

def Runtime.routerSets (runtime : Runtime) : CompiledRuleSetMap := runtime.cells.read runtime.router

/-- The maps have the same rules under each tag. -/
def SameSets (sets other : CompiledRuleSetMap) : Prop := ∀ tag, sets.lookup tag = other.lookup tag

def Runtime.refresh (runtime : Runtime) (updates : List Router) : Runtime := updates.foldl Runtime.replaceFrom runtime

/-- The handles are there and lead to different cells. -/
structure Runtime.Apart (runtime : Runtime) : Prop where
  resolver : runtime.resolver < runtime.cells.length
  router : runtime.router < runtime.cells.length
  ne : runtime.resolver ≠ runtime.router

theorem buildRuntime_apart (ruleSets : CompiledRuleSetMap) : (buildRuntime ruleSets).Apart :=
  ⟨Nat.zero_lt_succ 1, Nat.lt_succ_self 1, Nat.zero_ne_one⟩

section
variable {runtime : Runtime}

theorem Runtime.Apart.replaceFrom (h : runtime.Apart) (updated : Router) : (runtime.replaceFrom updated).Apart := by
  have hlength : (runtime.replaceFrom updated).cells.length = runtime.cells.length + 1 := by
    simp [Runtime.replaceFrom]
  constructor
  · rw [hlength]
    exact Nat.lt_succ_of_lt h.resolver
  · rw [hlength]
    exact Nat.lt_succ_of_lt h.router
  · exact h.ne

theorem Runtime.Apart.routerSets_replaceFrom (h : runtime.Apart) (updated : Router) :
    (runtime.replaceFrom updated).routerSets = updated.ruleSets := by
  have hlt : runtime.router < (runtime.cells ++ [updated.ruleSets]).length := by
    rw [length_append]
    exact Nat.lt_add_right 1 h.router
  simp [Runtime.routerSets, Runtime.replaceFrom, Cells.read, getElem?_set_self hlt]

theorem Runtime.Apart.resolverSets_replaceFrom (h : runtime.Apart) (updated : Router) :
    (runtime.replaceFrom updated).resolverSets = runtime.resolverSets := by
  show ((runtime.cells ++ [updated.ruleSets]).set runtime.router _)[runtime.resolver]?.getD ∅ = _
  rw [getElem?_set_ne (Ne.symm h.ne), getElem?_append_left h.resolver]
  rfl

/-- After refreshes the resolver has the map it had, and the router the last one. -/
theorem Runtime.Apart.refresh : ∀ {runtime : Runtime}, runtime.Apart → ∀ updates : List Router,
    (runtime.refresh updates).resolverSets = runtime.resolverSets ∧
      (runtime.refresh updates).routerSets = ((updates.map Router.ruleSets).getLast?).getD runtime.routerSets
  | _, _, [] => ⟨rfl, rfl⟩
  | runtime, h, updated :: updates => by
    obtain ⟨hresolver, hrouter⟩ := (h.replaceFrom updated).refresh updates
    refine ⟨hresolver.trans (h.resolverSets_replaceFrom updated), hrouter.trans ?_⟩
    rw [h.routerSets_replaceFrom, map_cons, getLast?_cons, Option.getD_some]

end

/-- After each of the refreshes the resolver and the router look at the same rule-sets, exactly if each refresh brings
    the rule-sets that the router was first compiled with. -/
theorem ruleSets_agree_iff (ruleSets : CompiledRuleSetMap) (updates : List Router) :
    (∀ done left, updates = done ++ left →
      SameSets ((buildRuntime ruleSets).refresh done).resolverSets ((buildRuntime ruleSets).refresh done).routerSets) ↔
    ∀ updated ∈ updates, SameSets ruleSets updated.ruleSets := by
  have hstart := buildRuntime_apart ruleSets
  constructor
  · intro h updated hupdated
    obtain ⟨before, after, rfl⟩ := append_of_mem hupdated
    have hsame := h (before ++ [updated]) after (by rw [append_assoc]; rfl)
    obtain ⟨hresolver, hrouter⟩ := hstart.refresh (before ++ [updated])
    rw [hresolver, hrouter, map_append, map_singleton, getLast?_concat, Option.getD_some] at hsame
    exact hsame
  · intro h done left hsplit
    obtain ⟨hresolver, hrouter⟩ := hstart.refresh done
    rw [hresolver, hrouter]
    cases hlast : (done.map Router.ruleSets).getLast? with
    | none => exact fun _ => rfl
    | some sets =>
      obtain ⟨updated, hupdated, rfl⟩ := mem_map.mp (mem_of_getLast? hlast)
      exact h updated (hsplit ▸ mem_append_left left hupdated)

def firstSets : CompiledRuleSetMap := AList.singleton ['r'] [.node {} none [] []]

def emptiedRouter : Router := ⟨[], AList.singleton ['r'] [], "direct", {}, none⟩

/-- A refresh that empties a rule-set is not seen by the resolver. -/
theorem resolver_keeps_first_sets : ¬SameSets ((buildRuntime firstSets).refresh [emptiedRouter]).resolverSets
    ((buildRuntime firstSets).refresh [emptiedRouter]).routerSets := by
  intro h
  have hlookup : some [.node {} none [] []] = some ([] : List CompiledRule) := h ['r']
  cases hlookup

end Xhttp.Proxy
