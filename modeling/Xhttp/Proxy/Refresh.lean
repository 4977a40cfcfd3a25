import Xhttp.Lib.Run
import Xhttp.Routing.RuleSet

/- The refresh of rule-sets (`start_rule_set_updater` and `prefetch_rule_sets` in `src/proxy/mod.rs`,
   `Router::replace_from` in `src/routing.rs`).

   A cycle first fetches the remote rule-sets through the detour of the `default_http_client`, if there is one, all at
   once; then it loads the rule-sets one after another, compiles the rules and replaces those of the router. Between
   any two steps of a cycle other programs may write to the files. The entity tag that is sent along only selects
   between the replies of the `Server`; so the files that hold these tags are left out. -/
namespace Xhttp.Proxy
open Xhttp.Lib Xhttp.Routing Checked

structure HttpClientConfig where
  tag : Str := []
  detour : Option Str := none

structure Updater where
  platform : Platform
  route : RouteConfig
  defaultOutbound : Str
  httpClients : List HttpClientConfig

abbrev Server := Str → Option Bytes

namespace Updater
variable (u : Updater)

def detour : Option Str := do
  let tag ← u.route.defaultHttpClient.filter (· ≠ [])
  let client ← u.httpClients.find? fun client => client.tag = tag
  client.detour.filter (· ≠ [])

def remoteSets : List RuleSetConfig := u.route.ruleSet.filter fun set => set.type = "remote"

end Updater

/-- What `fetch_url_etag` comes to: an error, status 304, or status 200 with the data. -/
inductive Reply where
  | failed
  | notModified
  | modified

/-- The end of the task that fetches a rule-set; what it returns, and the files then. -/
def prefetchRuleSet (p : Platform) (files : Files) (server : Server) (set : RuleSetConfig) :
    Reply → Option (Option (Str × Bytes) × Files)
  | .failed => some (none, files)
  | .notModified => do
    let url ← set.url
    let format ← (ruleSetFormatFor set url).toOption
    some ((files (ruleSetCachePath p url format)).map fun data => (set.tag, data), files)
  | .modified => do
    let url ← set.url
    let format ← (ruleSetFormatFor set url).toOption
    let data ← server url
    if sizeLimit < data.length then none
    else some (some (set.tag, data),
      (writeRuleSetCache p files (ruleSetCachePath p url format) data).toOption.getD files)

inductive Task where
  | pending (set : RuleSetConfig)
  | done (item : Option (Str × Bytes))

def Task.result : Task → Option (Option (Str × Bytes))
  | .pending _ => none
  | .done item => some item

def collectItems (items : List (Option (Str × Bytes))) : AList (fun _ : Str => Bytes) :=
  items.foldl (fun map item => match item with
    | some (tag, data) => map.insert tag data
    | none => map) ∅

inductive Phase where
  /-- Between two cycles; `last` is the server of the cycle that has ended. -/
  | sleeping (last : Option Server)
  | prefetching (server : Server) (tasks : List Task)
  /-- In `load_rule_sets`, with the sets that are left and the map so far. -/
  | loading (server : Server) (prefetched : AList (fun _ : Str => Bytes)) (left : List RuleSetConfig)
      (loaded : CompiledRuleSetMap)

structure Refresh where
  files : Files
  router : Router
  phase : Phase

inductive Event where
  | wake (server : Server)
  | answer (i : Nat) (reply : Reply)
  | fetched
  | load
  | replace
  | disk (path : Str) (content : Option Bytes)

namespace Updater
variable (u : Updater)

/-- The rest of `compile_inner`, after the rule-sets. -/
def compileRules (loaded : CompiledRuleSetMap) : Except Failure Router := do
  let rules ← u.route.rules.mapM (CompiledRule.compile u.platform.crates loaded true)
  pure
    { rules
      ruleSets := loaded
      finalOutbound := u.route.finalOutbound.getD u.defaultOutbound
      defaultOptions :=
        { bindInterface := u.route.defaultInterface
          routingMark := u.route.defaultMark
          networkStrategy := u.route.defaultNetworkStrategy
          fallbackDelay := u.route.defaultFallbackDelay }
      defaultDomainResolver := u.route.defaultDomainResolver.filter (· ≠ []) }

def wake (s : Refresh) (server : Server) : Option Refresh :=
  match s.phase with
  | .sleeping _ =>
    some { s with phase := .prefetching server (if u.detour.isSome then u.remoteSets.map .pending else []) }
  | _ => none

def answer (s : Refresh) (i : Nat) (reply : Reply) : Option Refresh :=
  match s.phase with
  | .prefetching server tasks =>
    match tasks[i]? with
    | some (.pending set) => (prefetchRuleSet u.platform s.files server set reply).map fun (item, files) =>
        { s with files, phase := .prefetching server (tasks.set i (.done item)) }
    | _ => none
  | _ => none

def fetched (s : Refresh) : Option Refresh :=
  match s.phase with
  | .prefetching server tasks => (tasks.mapM Task.result).map fun items =>
      { s with phase := .loading server (collectItems items) u.route.ruleSet ∅ }
  | _ => none

/-- A round of the loop over the rule-sets. An error ends the cycle. -/
def load (s : Refresh) : Option Refresh :=
  match s.phase with
  | .loading server prefetched (set :: left) loaded =>
    match loadRound u.platform s.files server prefetched loaded set with
    | (.ok loaded, files) => some { s with files, phase := .loading server prefetched left loaded }
    | (.error _, files) => some { s with files, phase := .sleeping (some server) }
  | _ => none

def replace (s : Refresh) : Option Refresh :=
  match s.phase with
  | .loading server _ [] loaded =>
    match u.compileRules loaded with
    | .ok updated => some { s with router := s.router.replaceFrom updated, phase := .sleeping (some server) }
    | .error _ => some { s with phase := .sleeping (some server) }
  | _ => none

def step (s : Refresh) : Event → Option Refresh
  | .wake server => u.wake s server
  | .answer i reply => u.answer s i reply
  | .fetched => u.fetched s
  | .load => u.load s
  | .replace => u.replace s
  | .disk path content => some { s with files := fun p => if p = path then content else s.files p }

end Updater

/-! ## What the server has -/

namespace Updater
variable (u : Updater)

/-- The data decodes to rules that compile to these. -/
def Gives (set : RuleSetConfig) (data : Bytes) (compiled : List CompiledRule) : Prop :=
  ∃ url format rules, set.url = some url ∧ ruleSetFormatFor set url = .ok format ∧
    decodeRuleSet u.platform data format = .ok rules ∧
    CompiledRule.compileAll u.platform.crates ∅ rules = .ok compiled

/-- A download of the rule-set would be answered with valid data, and the compiled rules are these. -/
def Valid (server : Server) (set : RuleSetConfig) (compiled : List CompiledRule) : Prop :=
  ∃ url data, set.url = some url ∧ server url = some data ∧ data.length ≤ sizeLimit ∧ u.Gives set data compiled

/-- After a cycle, the router has each remote rule-set as the server has it. -/
def Refreshed (s : Refresh) : Prop :=
  ∀ server, s.phase = .sleeping (some server) → ∀ set ∈ u.remoteSets, ∀ compiled, u.Valid server set compiled →
    s.router.ruleSets.lookup set.tag = some compiled

/-- A copy in the disk cache that is used gives the same rules, and where there is none the download can be
    written to the cache. -/
def CopyFresh (files : Files) (set : RuleSetConfig) (compiled : List CompiledRule) : Prop :=
  ∀ url format, set.url = some url → ruleSetFormatFor set url = .ok format →
    (∃ data, files (ruleSetCachePath u.platform url format) = some data ∧ u.Gives set data compiled) ∨
    ((∀ data, files (ruleSetCachePath u.platform url format) = some data →
        ∃ e, decodeRuleSet u.platform data format = .error e ∧ e ≠ .panic) ∧
      u.platform.writable (ruleSetCachePath u.platform url format) = true)

/-- No stale copy is used where a set is loaded; a set that the server has no valid data for loads from what
    there is. -/
def LoadFresh (files : Files) (server : Server) (prefetched : AList (fun _ : Str => Bytes))
    (set : RuleSetConfig) : Prop :=
  (∃ compiled, set.type = "remote" ∧ u.Valid server set compiled ∧
    (prefetched.lookup set.tag = none → set.downloadDetour.any (· ≠ []) = false ∧ u.CopyFresh files set compiled)) ∨
  ((set.type = "remote" → ∀ compiled, ¬u.Valid server set compiled) ∧
    ∃ rules compiled, (readRuleSet u.platform files server prefetched set).1 = .ok rules ∧
      CompiledRule.compileAll u.platform.crates ∅ rules = .ok compiled)

/-- The steps that use no stale copy: at the reply that a set is not modified, the copy in the disk cache gives what
    the server has. -/
def Fresh (s : Refresh) : Event → Prop
  | .answer i .notModified => ∀ server tasks set, s.phase = .prefetching server tasks →
      tasks[i]? = some (.pending set) → ∀ compiled, u.Valid server set compiled →
        ∀ url format data, set.url = some url → ruleSetFormatFor set url = .ok format →
          s.files (ruleSetCachePath u.platform url format) = some data → u.Gives set data compiled
  | .load => ∀ server prefetched set left loaded, s.phase = .loading server prefetched (set :: left) loaded →
      set.type ≠ "inline" → u.LoadFresh s.files server prefetched set
  | _ => True

/-- The configuration was compiled when the updater was started. -/
def Compiled : Prop :=
  ∃ read router, Router.compile u.platform.crates read u.route u.defaultOutbound = .ok router

variable {u}

variable {compiled : List CompiledRule} {files : Files} {reply : Reply} {compiled' : List CompiledRule}

theorem Gives.unique {set : RuleSetConfig} {data : Bytes}
    (h : u.Gives set data compiled) (h' : u.Gives set data compiled') : compiled = compiled' := by
  obtain ⟨url, format, rules, hurl, hformat, hrules, hcompiled⟩ := h
  obtain ⟨url', format', rules', hurl', hformat', hrules', hcompiled'⟩ := h'
  simp_all

theorem Valid.unique {server : Server} {set : RuleSetConfig}
    (h : u.Valid server set compiled) (h' : u.Valid server set compiled') : compiled = compiled' := by
  obtain ⟨url, data, hurl, hdata, -, hgives⟩ := h
  obtain ⟨url', data', hurl', hdata', -, hgives'⟩ := h'
  cases hurl.symm.trans hurl'
  cases hdata.symm.trans hdata'
  exact hgives.unique hgives'

/-! ## The configuration -/

/-- What the compilation at the start says of each rule-set. -/
def Loadable (set : RuleSetConfig) : Prop :=
  set.tag ≠ [] ∧
    if set.type = "inline" then
      ∃ compiled, CompiledRule.compileAll u.platform.crates ∅ set.rules = .ok compiled
    else [[], "local", "remote"].contains set.type = true

theorem Compiled.sets (h : u.Compiled) : (∀ set ∈ u.route.ruleSet, u.Loadable set) ∧
    (u.route.ruleSet.map RuleSetConfig.tag).Nodup := by
  obtain ⟨read, router, h⟩ := h
  obtain ⟨sets, hsets, -⟩ := bind_ok_iff.mp h
  obtain ⟨hall, hnodup, -⟩ := foldlM_addRuleSet_ok hsets
  exact ⟨fun set hset => ⟨(hall set hset).1, (hall set hset).2.2⟩, hnodup⟩

theorem Compiled.rules (h : u.Compiled) {loaded : CompiledRuleSetMap}
    (htags : ∀ tag, tag ∈ loaded ↔ tag ∈ u.route.ruleSet.map RuleSetConfig.tag) :
    ∃ updated, u.compileRules loaded = .ok updated ∧ updated.ruleSets = loaded := by
  obtain ⟨read, router, h⟩ := h
  obtain ⟨sets, hsets, h⟩ := bind_ok_iff.mp h
  obtain ⟨rules, hrules, -⟩ := bind_ok_iff.mp h
  obtain ⟨-, -, hkeys⟩ := foldlM_addRuleSet_ok hsets
  have hsame : ∀ tag, tag ∈ sets ↔ tag ∈ loaded := by
    intro tag
    rw [htags, hkeys, or_iff_right (AList.notMem_empty tag)]
  obtain ⟨rules', hrules'⟩ :
      ∃ rules', u.route.rules.mapM (CompiledRule.compile u.platform.crates loaded true) = .ok rules' := by
    refine mapM_ok_iff_exists.mpr fun rule hrule => ?_
    obtain ⟨compiled, hcompiled⟩ := mapM_ok_iff_exists.mp ⟨rules, hrules⟩ rule hrule
    exact CompiledRule.compile_ok_of_tags hsame rule hcompiled
  exact ⟨_, bind_ok_iff.mpr ⟨rules', hrules', rfl⟩, rfl⟩

/-! ## A cycle -/

theorem loadRemoteRuleSet_fresh {server : Server} {set : RuleSetConfig}
    (hvalid : u.Valid server set compiled) (hdetour : set.downloadDetour.any (· ≠ []) = false)
    (hcopy : u.CopyFresh files set compiled) : ∃ rules, (loadRemoteRuleSet u.platform files server set).1 = .ok rules ∧
      CompiledRule.compileAll u.platform.crates ∅ rules = .ok compiled := by
  obtain ⟨url, data, hurl, hdata, hsize, url', format, rules, hurl', hformat, hrules, hcompiled⟩ := hvalid
  cases hurl.symm.trans hurl'
  rw [loadRemoteRuleSet, if_neg (Bool.eq_false_iff.mp hdetour)]
  simp only [hurl, hformat]
  rcases hcopy url format hurl hformat with ⟨copy, hfile, url', format', rules', hurl', hformat', hrules', hcompiled'⟩ |
    ⟨hnone, hwrite⟩
  · -- the copy is used
    simp_all
  · have hdownload :
        (downloadRuleSet u.platform files server set url format (ruleSetCachePath u.platform url format)).1 =
          .ok rules := by
      simp only [downloadRuleSet, hdata, if_neg (Nat.not_lt.mpr hsize), writeRuleSetCache, if_pos hwrite]
      exact withContext_ok_iff.mpr hrules
    refine ⟨rules, ?_, hcompiled⟩
    cases hfile : files (ruleSetCachePath u.platform url format) with
    | none => exact hdownload
    | some copy =>
      grind

theorem loadRound_fresh {server : Server} {prefetched : AList (fun _ : Str => Bytes)}
    {loaded : CompiledRuleSetMap} {set : RuleSetConfig} (hset : u.Loadable set) (hnew : set.tag ∉ loaded)
    (hprefetched : ∀ data, prefetched.lookup set.tag = some data → set.type = "remote" →
      ∀ compiled, u.Valid server set compiled → u.Gives set data compiled)
    (hfresh : set.type ≠ "inline" → u.LoadFresh files server prefetched set) :
    ∃ compiled files', loadRound u.platform files server prefetched loaded set =
        (.ok (loaded.insert set.tag compiled), files') ∧
      (set.type = "remote" → ∀ expected, u.Valid server set expected → compiled = expected) := by
  obtain ⟨htag, hkind⟩ := hset
  -- it is enough that the rules can be had and compile
  have hadd : ∀ {rules : List RouteRule} {compiled : List CompiledRule},
      ruleSetRules (fun _ => (readRuleSet u.platform files server prefetched set).1) set = .ok rules →
      CompiledRule.compileAll u.platform.crates ∅ rules = .ok compiled →
      ∃ files', loadRound u.platform files server prefetched loaded
        set = (.ok (loaded.insert set.tag compiled), files') := by
    intro rules compiled hrules hcompiled
    exact ⟨_, Prod.ext (addRuleSet_ok_iff.mpr ⟨htag, hnew, rules, compiled, hrules, hcompiled, rfl⟩) rfl⟩
  by_cases hinline : set.type = "inline"
  · rw [if_pos hinline] at hkind
    obtain ⟨compiled, hcompiled⟩ := hkind
    obtain ⟨files', hload⟩ := hadd (if_pos hinline) hcompiled
    grind
  · rw [if_neg hinline] at hkind
    have hread : ruleSetRules (fun _ => (readRuleSet u.platform files server prefetched set).1) set =
        (readRuleSet u.platform files server prefetched set).1 := by
      rw [ruleSetRules, if_neg hinline, if_pos hkind]
    rcases hfresh hinline with ⟨compiled, hremote, hvalid, hcopy⟩ | ⟨hnot, rules, compiled, hrules, hcompiled⟩
    · obtain ⟨rules, hrules, hcompiled⟩ : ∃ rules, (readRuleSet u.platform files server prefetched set).1 = .ok rules ∧
          CompiledRule.compileAll u.platform.crates ∅ rules = .ok compiled := by
        rw [readRuleSet, if_pos hremote]
        cases hlookup : prefetched.lookup set.tag with
        | none => exact loadRemoteRuleSet_fresh hvalid (hcopy hlookup).1 (hcopy hlookup).2
        | some data =>
          obtain ⟨url, format, rules, hurl, hformat, hrules, hcompiled⟩ :=
            hprefetched data hlookup hremote compiled hvalid
          simp_all [bind_ok_iff, withContext_ok_iff]
      obtain ⟨files', hload⟩ := hadd (hread.trans hrules) hcompiled
      exact ⟨compiled, files', hload, fun _ expected hexpected => hvalid.unique hexpected⟩
    grind

/-! ## Every run -/

variable (u)

/-- What was fetched for a tag gives what the server has. -/
def ItemFresh (server : Server) (tag : Str) (data : Bytes) : Prop :=
  ∀ set ∈ u.remoteSets, set.tag = tag → ∀ compiled, u.Valid server set compiled → u.Gives set data compiled

/-- What holds at each place of a cycle. While the sets are loaded, the map has those that have been loaded. -/
def Inv (s : Refresh) : Prop :=
  match s.phase with
  | .sleeping none => True
  | .sleeping (some server) => ∀ set ∈ u.remoteSets, ∀ compiled, u.Valid server set compiled →
      s.router.ruleSets.lookup set.tag = some compiled
  | .prefetching server tasks => (∀ set, .pending set ∈ tasks → set ∈ u.remoteSets) ∧
      ∀ tag data, .done (some (tag, data)) ∈ tasks → u.ItemFresh server tag data
  | .loading server prefetched left loaded =>
      (∀ tag data, prefetched.lookup tag = some data → u.ItemFresh server tag data) ∧
      ∃ past, u.route.ruleSet = past ++ left ∧ (∀ tag, tag ∈ loaded ↔ tag ∈ past.map RuleSetConfig.tag) ∧
        ∀ set ∈ past, set.type = "remote" → ∀ compiled, u.Valid server set compiled →
          loaded.lookup set.tag = some compiled

variable {u}

theorem mem_remoteSets {set : RuleSetConfig} : set ∈ u.remoteSets ↔ set ∈ u.route.ruleSet ∧ set.type = "remote" := by
  rw [remoteSets, List.mem_filter, decide_eq_true_eq]

theorem Compiled.eq_of_tag (h : u.Compiled) {set other : RuleSetConfig} (hset : set ∈ u.remoteSets)
    (hother : other ∈ u.remoteSets) (htag : set.tag = other.tag) : set = other :=
  List.inj_on_of_nodup_map h.sets.2 (mem_remoteSets.mp hset).1 (mem_remoteSets.mp hother).1 htag

theorem wake_inv {s s' : Refresh} {server : Server} (h : u.wake s server = some s') : u.Inv s' := by
  unfold wake at h
  split at h
  · cases h
    show _ ∧ _
    simp_all
  · cases h

theorem prefetchRuleSet_fresh (hcompiled : u.Compiled) {files' : Files} {server : Server}
    {set : RuleSetConfig} {tag : Str} {data : Bytes} (hset : set ∈ u.remoteSets)
    (hcopy : reply = .notModified → ∀ compiled, u.Valid server set compiled → ∀ url format data, set.url = some url →
      ruleSetFormatFor set url = .ok format → files (ruleSetCachePath u.platform url format) = some data →
      u.Gives set data compiled)
    (h : prefetchRuleSet u.platform files server set reply = some (some (tag, data), files')) :
    u.ItemFresh server tag data := by
  intro other hother htag compiled hvalid
  have hformatOk : ∀ {url format : Str}, (ruleSetFormatFor set url).toOption = some format →
      ruleSetFormatFor set url = .ok format := toOption_eq_some_iff.mp
  cases reply with
  | failed => cases h
  | notModified =>
    obtain ⟨url, hurl, h⟩ := Option.bind_eq_some_iff.mp h
    obtain ⟨format, hformat, h⟩ := Option.bind_eq_some_iff.mp h
    obtain ⟨hitem, -⟩ := Prod.mk.inj (Option.some.inj h)
    obtain ⟨copy, hfile, heq⟩ := Option.map_eq_some_iff.mp hitem
    cases heq
    obtain rfl := hcompiled.eq_of_tag hother hset htag
    exact hcopy rfl compiled hvalid url format _ hurl (hformatOk hformat) hfile
  | modified =>
    obtain ⟨url, hurl, h⟩ := Option.bind_eq_some_iff.mp h
    obtain ⟨format, -, h⟩ := Option.bind_eq_some_iff.mp h
    obtain ⟨body, hbody, h⟩ := Option.bind_eq_some_iff.mp h
    split at h
    · cases h
    · cases h
      obtain rfl := hcompiled.eq_of_tag hother hset htag
      obtain ⟨url', data', hurl', hdata', -, hgives⟩ := hvalid
      simp_all

theorem answer_inv (hcompiled : u.Compiled) {s s' : Refresh} {i : Nat} (hfresh : u.Fresh s (.answer i reply))
    (hinv : u.Inv s) (h : u.answer s i reply = some s') : u.Inv s' := by
  unfold answer at h
  split at h
  case h_2 => cases h
  case h_1 server tasks hphase =>
    split at h
    case h_2 => cases h
    case h_1 set htask =>
      obtain ⟨⟨item, files⟩, hitem, rfl⟩ := Option.map_eq_some_iff.mp h
      rw [Inv, hphase] at hinv
      obtain ⟨hpending, hdone⟩ := hinv
      have hset : set ∈ u.remoteSets := hpending set (List.mem_of_getElem? htask)
      refine ⟨fun other hother => ?_, fun tag data hother => ?_⟩
      · grind
      · rcases List.mem_or_eq_of_mem_set hother with hmem | heq
        · exact hdone tag data hmem
        · obtain rfl : some (tag, data) = item := Task.done.inj heq
          refine prefetchRuleSet_fresh hcompiled hset ?_ hitem
          rintro rfl compiled hvalid
          exact hfresh server tasks set hphase htask compiled hvalid

theorem lookup_collectItems {P : Str → Bytes → Prop} :
    ∀ {items : List (Option (Str × Bytes))} {map : AList (fun _ : Str => Bytes)},
    (∀ tag data, map.lookup tag = some data → P tag data) → (∀ tag data, some (tag, data) ∈ items → P tag data) →
      ∀ tag data, (items.foldl (fun map item => match item with
        | some (tag, data) => map.insert tag data
        | none => map) map).lookup tag = some data → P tag data
  | [], map, hmap, _, tag, data, h => hmap tag data h
  | none :: items, map, hmap, hitems, tag, data, h =>
    lookup_collectItems hmap (fun tag data hmem => hitems tag data (List.mem_cons_of_mem _ hmem)) tag data h
  | some (first, value) :: items, map, hmap, hitems, tag, data, h => by
    refine lookup_collectItems (fun tag data hlookup => ?_)
      (fun tag data hmem => hitems tag data (List.mem_cons_of_mem _ hmem)) tag data h
    grind [Map.lookup_insert_cases, List.mem_cons_self]

theorem mem_of_mapM_result :
    ∀ {tasks : List Task} {items : List (Option (Str × Bytes))}, tasks.mapM Task.result = some items →
    ∀ {item : Option (Str × Bytes)}, item ∈ items → ∃ task ∈ tasks, task.result = some item
  | [], items, h, item, hmem => by
    cases h
    exact absurd hmem List.not_mem_nil
  | task :: tasks, items, h, item, hmem => by
    rw [List.mapM_cons] at h
    obtain ⟨first, hfirst, h⟩ := Option.bind_eq_some_iff.mp h
    obtain ⟨rest, hrest, h⟩ := Option.bind_eq_some_iff.mp h
    cases h
    rcases List.mem_cons.mp hmem with rfl | hmem
    · exact ⟨task, List.mem_cons_self, hfirst⟩
    · obtain ⟨other, hother, hresult⟩ := mem_of_mapM_result hrest hmem
      exact ⟨other, List.mem_cons_of_mem task hother, hresult⟩

theorem fetched_inv {s s' : Refresh} (hinv : u.Inv s) (h : u.fetched s = some s') : u.Inv s' := by
  unfold fetched at h
  split at h
  case h_2 => cases h
  case h_1 server tasks hphase =>
    obtain ⟨items, hitems, rfl⟩ := Option.map_eq_some_iff.mp h
    rw [Inv, hphase] at hinv
    refine ⟨lookup_collectItems (fun tag data hlookup => ?_) fun tag data hmem => ?_, [], rfl, fun tag => ?_, ?_⟩
    · cases hlookup
    · obtain ⟨task, htask, hresult⟩ := mem_of_mapM_result hitems hmem
      cases task with
      | pending set => cases hresult
      | done item =>
        obtain rfl : item = some (tag, data) := Option.some.inj hresult
        exact hinv.2 tag data htask
    · exact iff_of_false (AList.notMem_empty tag) List.not_mem_nil
    · exact fun _ hset => absurd hset List.not_mem_nil

theorem load_inv (hcompiled : u.Compiled) {s s' : Refresh} (hfresh : u.Fresh s .load) (hinv : u.Inv s)
    (h : u.load s = some s') : u.Inv s' := by
  unfold load at h
  split at h
  case h_2 => cases h
  case h_1 server prefetched set left loaded hphase =>
    rw [Inv, hphase] at hinv
    obtain ⟨hprefetched, past, hsets, hkeys, hpast⟩ := hinv
    obtain ⟨hloadable, hnodup⟩ := hcompiled.sets
    have hset : set ∈ u.route.ruleSet := by
      rw [hsets]
      exact List.mem_append_right past List.mem_cons_self
    have hnew : set.tag ∉ past.map RuleSetConfig.tag := by
      rw [hsets, List.map_append, List.nodup_append] at hnodup
      exact fun hmem => hnodup.2.2 _ hmem _ (List.mem_map_of_mem List.mem_cons_self) rfl
    obtain ⟨compiled, files', hround, hexpected⟩ := loadRound_fresh (hloadable set hset)
      (fun hmem => hnew ((hkeys set.tag).mp hmem))
      (fun data hlookup hremote => hprefetched set.tag data hlookup set (mem_remoteSets.mpr ⟨hset, hremote⟩) rfl)
      (hfresh server prefetched set left loaded hphase)
    rw [hround] at h
    cases h
    refine ⟨hprefetched, past ++ [set], ?_, fun tag => ?_, fun other hother hremote expected hvalid => ?_⟩
    · rw [hsets, List.append_assoc]
      rfl
    · rw [AList.mem_insert, hkeys, List.map_append, List.mem_append, List.map_singleton, List.mem_singleton, or_comm]
    grind [List.mem_map_of_mem, AList.lookup_insert_ne, List.mem_singleton, AList.lookup_insert]

theorem replace_inv (hcompiled : u.Compiled) {s s' : Refresh} (hinv : u.Inv s) (h : u.replace s = some s') :
    u.Inv s' := by
  unfold replace at h
  split at h
  case h_2 => cases h
  case h_1 server prefetched loaded hphase =>
    rw [Inv, hphase] at hinv
    obtain ⟨-, past, hsets, hkeys, hpast⟩ := hinv
    rw [List.append_nil] at hsets
    obtain ⟨updated, hupdated, hloaded⟩ := hcompiled.rules (hsets ▸ hkeys)
    rw [hupdated] at h
    cases h
    intro set hset compiled hvalid
    obtain ⟨hmem, hremote⟩ := mem_remoteSets.mp hset
    show updated.ruleSets.lookup set.tag = some compiled
    rw [hloaded]
    exact hpast set (hsets ▸ hmem) hremote compiled hvalid

theorem step_inv (hcompiled : u.Compiled) {s s' : Refresh} {e : Event} (hfresh : u.Fresh s e) (hinv : u.Inv s)
    (h : u.step s e = some s') : u.Inv s' := by
  cases e with
  | wake server => exact wake_inv h
  | answer i reply => exact answer_inv hcompiled hfresh hinv h
  | fetched => exact fetched_inv hinv h
  | load => exact load_inv hcompiled hfresh hinv h
  | replace => exact replace_inv hcompiled hinv h
  | disk path content =>
    cases h
    exact hinv

/-- In every run of the updater that uses no stale copy, whatever is on the disk and whatever other programs write
    there, the router has after each cycle the remote rule-sets as the server has them. -/
theorem refreshed_of_fresh (hcompiled : u.Compiled) {files : Files} {router : Router} {events : List Event}
    {s : Refresh} (hfresh : Along u.step u.Fresh ⟨files, router, .sleeping none⟩ events)
    (hrun : run u.step ⟨files, router, .sleeping none⟩ events = some s) : u.Refreshed s := by
  have hinv := run_inv_along u.Inv u.Fresh (fun _ _ _ => step_inv hcompiled) events hfresh trivial hrun
  intro server hphase
  rw [Inv, hphase] at hinv
  exact hinv

/-! ## A rule-set that has changed -/

def oldData : Bytes := Str.asBytes "\x7b\"version\":1,\"rules\":[]\x7d"

def newData : Bytes := Str.asBytes "\x7b\"version\":1,\"rules\":[\x7b\"domain\":[\"a\"]\x7d]\x7d"

def domainRule : RouteRule := .mk { domain := [['a']] } []

def changedSet : RuleSetConfig := { type := "remote", tag := ['r'], url := some "http://h/r".toList }

/-- A configuration with one remote rule-set and no `default_http_client`. -/
def changedUpdater : Updater where
  platform :=
    { crates := { regex := fun _ => none, ipNet := fun _ => none }
      escape := id
      inflate := fun _ => none
      source := fun data =>
        if data = newData then .ok [domainRule] else if data = oldData then .ok []
        else .error (.message "expected value")
      hash := fun _ => 0xa58223d75a2baaaa
      cacheRoot := "/tmp/xhttp-cache"
      writable := fun _ => true }
  route := { ruleSet := [changedSet] }
  defaultOutbound := "direct"
  httpClients := []

def changedServer : Server := fun _ => some newData

def emptyRouter : Router := ⟨[], ∅, "direct", {}, none⟩

def oldFiles : Files := Files.write (fun _ => none)
  (ruleSetCachePath changedUpdater.platform "http://h/r" "source") oldData

theorem compileAll_domainRule (crates : Crates) :
    ∃ compiled, CompiledRule.compileAll crates ∅ [domainRule] = .ok [compiled] := by
  exact ⟨_, rfl⟩

theorem changedUpdater_valid : ∃ compiled, changedUpdater.Valid changedServer changedSet [compiled] := by
  obtain ⟨compiled, hcompiled⟩ := compileAll_domainRule changedUpdater.platform.crates
  have hsize : newData.length ≤ sizeLimit := by decide
  have hdecode : decodeRuleSet changedUpdater.platform newData "source" = .ok [domainRule] := rfl
  exact ⟨compiled, "http://h/r", newData, rfl, rfl, hsize, "http://h/r", "source", [domainRule], rfl, rfl,
    hdecode, hcompiled⟩

theorem changedUpdater_compiled : changedUpdater.Compiled := ⟨fun _ => .ok [], _, rfl⟩

/-- The server has a new rule, but the copy in the disk cache is used, and the rule is not seen. -/
theorem stale_copy_kept : changedUpdater.Compiled ∧ ∃ s, run changedUpdater.step ⟨oldFiles, emptyRouter, .sleeping none⟩
      [.wake changedServer, .fetched, .load, .replace] = some s ∧ ¬changedUpdater.Refreshed s := by
  refine ⟨changedUpdater_compiled, _, rfl, fun h => ?_⟩
  obtain ⟨compiled, hvalid⟩ := changedUpdater_valid
  have hmem : changedSet ∈ changedUpdater.remoteSets := mem_remoteSets.mpr ⟨List.mem_cons_self, rfl⟩
  have hlookup : (some [] : Option (List CompiledRule)) = some [compiled] :=
    h changedServer rfl changedSet hmem _ hvalid
  cases hlookup

/-- With an empty disk cache the same cycle brings the new rule. -/
theorem refreshed_of_fresh_download : ∃ s, run changedUpdater.step ⟨fun _ => none, emptyRouter, .sleeping none⟩
      [.wake changedServer, .fetched, .load, .replace] = some s ∧ changedUpdater.Refreshed s ∧
      ∃ compiled, changedUpdater.Valid changedServer changedSet [compiled] := by
  obtain ⟨compiled, hvalid⟩ := changedUpdater_valid
  obtain ⟨s, hrun⟩ : ∃ s, run changedUpdater.step ⟨fun _ => none, emptyRouter, .sleeping none⟩
      [.wake changedServer, .fetched, .load, .replace] = some s := ⟨_, rfl⟩
  refine ⟨s, hrun, refreshed_of_fresh changedUpdater_compiled ?_ hrun, compiled, hvalid⟩
  refine ⟨trivial, fun s₁ h₁ => ⟨trivial, fun s₂ h₂ => ⟨?_, fun s₃ h₃ => ⟨trivial, fun _ _ => trivial⟩⟩⟩⟩
  cases h₁
  cases h₂
  intro server prefetched set left loaded hphase _
  cases hphase
  refine .inl ⟨[compiled], rfl, hvalid,
    fun _ => ⟨rfl, fun url format _ _ => .inr ⟨fun data hdata => absurd hdata nofun, rfl⟩⟩⟩

end Updater

end Xhttp.Proxy
