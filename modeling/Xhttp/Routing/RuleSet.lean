import Xhttp.Lib.Map
import Xhttp.Routing.Rule
import Xhttp.Srs.Reader

/- How the rules of a rule-set are obtained (`load_rule_sets`, `load_remote_rule_set`, `decode_rule_set` in
   `src/routing.rs`): from the configuration, from a file, from bytes that were fetched before, from the copy
   in the disk cache, or by a download that writes this copy. A rule that compiles with some rule-sets
   compiles with all others of the same tags (`CompiledRule.compile_ok_of_tags`), so a refresh does not fail
   in the rules.

   `Platform` holds what is not under `src/`: the crates, the hash of `DefaultHasher`, the directory of the cache and
   which of its files can be written. What a download is answered is the argument `download`. -/
namespace Xhttp.Routing
open Xhttp.Lib Checked

abbrev Files := Str → Option Bytes

def Files.write (files : Files) (path : Str) (data : Bytes) : Files :=
  fun p => if p = path then some data else files p

structure Platform where
  crates : Crates
  /-- `regex::escape` and the decompression of `flate2`. -/
  escape : Str → Str
  inflate : Bytes → Option Bytes
  /-- `serde_json::from_slice::<SourceRuleSet>`. -/
  source : Bytes → Except Failure (List RouteRule)
  /-- `url.hash(&mut DefaultHasher::new())`. -/
  hash : Str → UInt64
  cacheRoot : Str
  writable : Str → Bool

def withContext {α : Type} (text : String) : Except Failure α → Except Failure α
  | .ok a => .ok a
  | .error .panic => .error .panic
  | .error _ => .error (.message text)

theorem withContext_ok_iff {α : Type} {text : String} {x : Except Failure α} {a : α} :
    withContext text x = .ok a ↔ x = .ok a := by
  cases x with
  | ok b => rfl
  | error e =>
    cases e with
    | message | utf8 => exact ⟨nofun, nofun⟩
    | panic => exact Iff.rfl

def ruleSetFormatFor (set : RuleSetConfig) (location : Str) : Except Failure Str :=
  let format := set.format.getD
    (if ".srs".toList.isSuffixOf (location.takeWhile fun c => c != '?' && c != '#') then "binary"
      else "source")
  if format = "source" ∨ format = "binary" then .ok format
  else .error (.message ("unsupported route rule-set format: " ++ String.ofList format))

section
variable (p : Platform)

/-- `srs::decode`, whose reads fail at the end of the data. -/
def decodeBinary (data : Bytes) : Except Failure (List RouteRule) :=
  match Srs.decode p.escape p.inflate data with
  | .ok rules => .ok rules
  | .error (.bail e) => .error e
  | .error .eof => .error (.message "failed to fill whole buffer")

def decodeRuleSet (data : Bytes) (format : Str) : Except Failure (List RouteRule) :=
  if format = "source" then p.source data
  else if format = "binary" then decodeBinary p data
  else .error .panic

def hex16 (n : UInt64) : Str :=
  let digits := Nat.toDigits 16 n.toNat
  List.replicate (16 - digits.length) '0' ++ digits

def ruleSetCachePath (url format : Str) : Str :=
  p.cacheRoot ++ "/rule-set/" ++ hex16 (p.hash url) ++
    (if format = "binary".toList then ".srs".toList else ".json".toList)

def writeRuleSetCache (files : Files) (path : Str) (data : Bytes) : Except Failure Files :=
  if p.writable path then .ok (files.write path data)
  else .error (.message ("write rule-set cache " ++ String.ofList path))

def sizeLimit : Nat := 64 * 1024 * 1024

/-- The rest of `load_remote_rule_set`, where no copy is used: the download, and its fallback. -/
def downloadRuleSet (files : Files) (download : Str → Option Bytes) (set : RuleSetConfig) (url format path : Str) :
    Except Failure (List RouteRule) × Files :=
  let parse data := withContext ("parse remote rule-set " ++ String.ofList set.tag) (decodeRuleSet p data format)
  match download url with
  | some data =>
    if sizeLimit < data.length then
      (.error (.message ("remote rule-set " ++ String.ofList set.tag ++ " exceeds 64 MiB")), files)
    else
      match writeRuleSetCache p files path data with
      | .error e => (.error e, files)
      | .ok files => (parse data, files)
  | none =>
    match files path with
    | some data => (parse data, files)
    | none =>
      (.error (.message ("download remote rule-set " ++ String.ofList set.tag ++ " and read cache " ++
        String.ofList path)), files)

def loadRemoteRuleSet (files : Files) (download : Str → Option Bytes) (set : RuleSetConfig) :
    Except Failure (List RouteRule) × Files :=
  if set.downloadDetour.any (· ≠ []) then
    (.error (.message "remote rule-set download_detour is not supported"), files)
  else
    match set.url with
    | none => (.error (.message ("remote rule-set " ++ String.ofList set.tag ++ " requires url")), files)
    | some url =>
      match ruleSetFormatFor set url with
      | .error e => (.error e, files)
      | .ok format =>
        let path := ruleSetCachePath p url format
        match (files path).map fun data => decodeRuleSet p data format with
        | some (.ok rules) => (.ok rules, files)
        | some (.error .panic) => (.error .panic, files)
        | _ => downloadRuleSet p files download set url format path

def readLocal (files : Files) (set : RuleSetConfig) : Except Failure (List RouteRule) := do
  let path ← okOr set.path (.message ("local rule-set " ++ String.ofList set.tag ++ " requires path"))
  let data ← okOr (files path) (.message ("read route rule-set " ++ String.ofList path))
  let format ← ruleSetFormatFor set path
  withContext ("parse route rule-set " ++ String.ofList path) (decodeRuleSet p data format)

/-- The rules of a set that is not inline, and the files then. -/
def readRuleSet (files : Files) (download : Str → Option Bytes) (prefetched : AList (fun _ : Str => Bytes))
    (set : RuleSetConfig) : Except Failure (List RouteRule) × Files :=
  if set.type = "remote" then
    match prefetched.lookup set.tag with
    | some data => (do
        let format ← ruleSetFormatFor set (set.url.getD [])
        withContext ("parse remote rule-set " ++ String.ofList set.tag) (decodeRuleSet p data format), files)
    | none => loadRemoteRuleSet p files download set
  else (readLocal p files set, files)

/-- A round of `load_rule_sets`, with `fetch_remote` set. A set without a tag, or with rules of its own, is not read. -/
def loadRound (files : Files) (download : Str → Option Bytes) (prefetched : AList (fun _ : Str => Bytes))
    (loaded : CompiledRuleSetMap) (set : RuleSetConfig) : Except Failure CompiledRuleSetMap × Files :=
  (addRuleSet p.crates (fun _ => (readRuleSet p files download prefetched set).1) loaded set,
    if set.tag = [] ∨ set.type = "inline" then files else (readRuleSet p files download prefetched set).2)

end

/-- `replace_from`: the final outbound and the default resolver stay. -/
def Router.replaceFrom (router updated : Router) : Router :=
  { router with rules := updated.rules, ruleSets := updated.ruleSets, defaultOptions := updated.defaultOptions }

/-! ## Successful loads -/

section
variable {crates : Crates} {read : RuleSetConfig → Except Failure (List RouteRule)}

theorem addRuleSet_ok_iff {loaded loaded' : CompiledRuleSetMap} {set : RuleSetConfig} :
    addRuleSet crates read loaded set = .ok loaded' ↔
      set.tag ≠ [] ∧ set.tag ∉ loaded ∧ ∃ rules compiled, ruleSetRules read set = .ok rules ∧
        CompiledRule.compileAll crates ∅ rules = .ok compiled ∧ loaded' = loaded.insert set.tag compiled := by
  rw [addRuleSet, bind_ok_iff]
  constructor
  · rintro ⟨_, htag, h⟩
    simp only [bind_ok_iff] at h
    obtain ⟨rules, hrules, compiled, hcompiled, _, hnew, h⟩ := h
    exact ⟨bailIf_ok_iff.mp htag, bailIf_ok_iff.mp hnew, rules, compiled, hrules, hcompiled,
      (Except.ok.inj h).symm⟩
  · rintro ⟨htag, hnew, rules, compiled, hrules, hcompiled, rfl⟩
    refine ⟨(), bailIf_ok_iff.mpr htag, bind_ok_iff.mpr ⟨rules, hrules, ?_⟩⟩
    refine bind_ok_iff.mpr ⟨compiled, hcompiled, ?_⟩
    exact bind_ok_iff.mpr ⟨(), bailIf_ok_iff.mpr hnew, rfl⟩

/-- What is known of the rule-sets of a configuration that was compiled: their tags are distinct, and the rules that
    stand in the configuration compile. -/
theorem foldlM_addRuleSet_ok : ∀ {sets : List RuleSetConfig} {loaded loaded' : CompiledRuleSetMap},
    sets.foldlM (addRuleSet crates read) loaded = .ok loaded' →
      (∀ set ∈ sets, set.tag ≠ [] ∧ set.tag ∉ loaded ∧
        if set.type = "inline" then ∃ compiled, CompiledRule.compileAll crates ∅ set.rules = .ok compiled
        else [[], "local", "remote"].contains set.type = true) ∧
      (sets.map RuleSetConfig.tag).Nodup ∧
      ∀ tag, tag ∈ loaded' ↔ tag ∈ loaded ∨ tag ∈ sets.map RuleSetConfig.tag
  | [], loaded, loaded', h => by
    cases h
    exact ⟨fun _ hset => absurd hset List.not_mem_nil, List.nodup_nil, fun tag => by simp⟩
  | set :: sets, loaded, loaded', h => by
    rw [List.foldlM_cons, bind_ok_iff] at h
    obtain ⟨next, hnext, h⟩ := h
    obtain ⟨htag, hnew, rules, compiled, hrules, hcompiled, rfl⟩ := addRuleSet_ok_iff.mp hnext
    obtain ⟨hrest, hnodup, hkeys⟩ := foldlM_addRuleSet_ok h
    refine ⟨?_, ?_, ?_⟩
    · refine List.forall_mem_cons.mpr ⟨⟨htag, hnew, ?_⟩, fun other hother => ?_⟩
      · unfold ruleSetRules at hrules
        split at hrules
        · next hinline =>
          cases hrules
          rw [if_pos hinline]
          exact ⟨compiled, hcompiled⟩
        · next hinline =>
          rw [if_neg hinline]
          split at hrules
          · assumption
          · cases hrules
      · obtain ⟨hne, hmem, hinline⟩ := hrest other hother
        exact ⟨hne, fun h => hmem ((AList.mem_insert _).mpr (.inr h)), hinline⟩
    · rw [List.map_cons, List.nodup_cons]
      refine ⟨fun hmem => ?_, hnodup⟩
      obtain ⟨other, hother, heq⟩ := List.mem_map.mp hmem
      exact (hrest other hother).2.1 ((AList.mem_insert _).mpr (.inl heq))
    · intro tag
      rw [hkeys, AList.mem_insert, List.map_cons, List.mem_cons]
      tauto

end

/-! ## Rules and the tags of rule-sets -/

section
variable {crates : Crates} {available other : CompiledRuleSetMap}

theorem compileFields_flag (rule : RouteItems) (action : RuleAction) (flag flag' : Bool) :
    compileFields crates rule action flag' =
      (fun fields => { fields with requiresDestinationIp := flag' }) <$> compileFields crates rule action flag := by
  simp only [compileFields, map_bind, map_pure]

theorem compileFields_ok_of_flag {rule : RouteItems} {action : RuleAction} {flag : Bool} {fields : RuleFields}
    (h : compileFields crates rule action flag = .ok fields) (flag' : Bool) :
    ∃ fields', compileFields crates rule action flag' = .ok fields' := by
  rw [compileFields_flag rule action flag flag', h]
  exact ⟨_, rfl⟩

theorem mapM_lookup_ok {tags : List Str} {found : List (List CompiledRule)}
    (htags : ∀ tag, tag ∈ available ↔ tag ∈ other) (h : tags.mapM (fun tag => okOr (available.lookup tag)
      (.message ("unknown route rule-set: " ++ String.ofList tag))) = .ok found) :
    ∃ found', tags.mapM (fun tag => okOr (other.lookup tag)
      (.message ("unknown route rule-set: " ++ String.ofList tag))) = .ok found' := by
  refine mapM_ok_iff_exists.mpr fun tag htag => ?_
  obtain ⟨rules, hrules⟩ := mapM_ok_iff_exists.mp ⟨found, h⟩ tag htag
  have hmem : tag ∈ other := (htags tag).mp (Map.mem_of_lookup (okOr_ok_iff.mp hrules))
  obtain ⟨rules', hrules'⟩ := Option.isSome_iff_exists.mp (AList.lookup_isSome.mpr hmem)
  exact ⟨rules', okOr_ok_iff.mpr hrules'⟩

mutual

theorem CompiledRule.compile_ok_of_tags (htags : ∀ tag, tag ∈ available ↔ tag ∈ other) :
    ∀ {requireDecision : Bool} (rule : RouteRule) {compiled : CompiledRule},
      CompiledRule.compile crates available requireDecision rule = .ok compiled →
        ∃ compiled', CompiledRule.compile crates other requireDecision rule = .ok compiled'
  | requireDecision, .mk rule rules, compiled, h => by
    rw [CompiledRule.compile] at h ⊢
    obtain ⟨_, hlegacy, h⟩ := bind_ok_iff.mp h
    obtain ⟨_, hpreferred, h⟩ := bind_ok_iff.mp h
    obtain ⟨mode, hmode, h⟩ := bind_ok_iff.mp h
    obtain ⟨_, hnested, h⟩ := bind_ok_iff.mp h
    obtain ⟨action, haction, h⟩ := bind_ok_iff.mp h
    obtain ⟨ruleSets, hsets, h⟩ := bind_ok_iff.mp h
    obtain ⟨logicalRules, hrules, h⟩ := bind_ok_iff.mp h
    obtain ⟨fields, hfields, -⟩ := bind_ok_iff.mp h
    obtain ⟨ruleSets', hsets'⟩ := mapM_lookup_ok htags hsets
    obtain ⟨logicalRules', hrules'⟩ := CompiledRule.compileAll_ok_of_tags htags rules hrules
    obtain ⟨fields', hfields'⟩ := compileFields_ok_of_flag hfields (rule.hasAddressCondition ||
      ruleSets'.flatten.any (fun nested => nested.own.requiresDestinationIp) ||
      logicalRules'.any fun nested => nested.own.requiresDestinationIp)
    simp_all [bind, Except.bind, pure, Except.pure]

theorem CompiledRule.compileAll_ok_of_tags (htags : ∀ tag, tag ∈ available ↔ tag ∈ other) :
    ∀ (rules : List RouteRule) {compiled : List CompiledRule},
      CompiledRule.compileAll crates available rules = .ok compiled →
        ∃ compiled', CompiledRule.compileAll crates other rules = .ok compiled'
  | [], _, _ => by
    exact ⟨[], rfl⟩
  | rule :: rules, compiled, h => by
    rw [CompiledRule.compileAll] at h ⊢
    obtain ⟨first, hfirst, h⟩ := bind_ok_iff.mp h
    obtain ⟨rest, hrest, -⟩ := bind_ok_iff.mp h
    obtain ⟨first', hfirst'⟩ := CompiledRule.compile_ok_of_tags htags rule hfirst
    obtain ⟨rest', hrest'⟩ := CompiledRule.compileAll_ok_of_tags htags rules hrest
    simp_all [bind_ok_iff]

end

end

end Xhttp.Routing
