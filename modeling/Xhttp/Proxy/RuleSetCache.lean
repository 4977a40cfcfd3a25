import Xhttp.Proxy.Refresh
import Xhttp.Routing.Matching

/- The disk cache of remote rule-sets over a sequence of downloads (`prefetch_rule_sets` and `fetch_url_with_etag` in
   `src/proxy/mod.rs`, `load_remote_rule_set` in `src/routing.rs`).

   A copy in the cache is good if it decodes; then the rule-set can be loaded without a network (`load_of_cached`).
   `load_remote_rule_set` never replaces a good copy (`cached_load`). `prefetch_rule_sets` writes what it
   downloads before anyone decodes it: it keeps the good copies if what it downloads decodes
   (`cached_copies_survive`), and loses one otherwise (`bad_download_cached`).

   A request that fails before it is answered is the reply `none`. The tag that is sent with a request only selects
   between the replies. Files with an entity tag never have the name of a copy, and are kept apart. -/
namespace Xhttp.Proxy
open Xhttp.Lib Xhttp.Routing

/-! ## Downloads -/

structure Response where
  status : UInt16
  headers : List (Str × Str) := []
  body : Bytes := []

def header? (name : String) (headers : List (Str × Str)) : Option Str :=
  headers.findSome? fun (key, value) => if eqIgnoreAsciiCase key name.toList then some value else none

def isRedirect (status : UInt16) : Bool := [301, 302, 303, 307, 308].contains status

/-- The requests of a download, each for the location that the reply before it names. -/
def fetchUrlWithEtag (redirects : Nat) : List (Option Response) → Option (Bytes × List (Str × Str) × UInt16)
  | some response :: rest =>
    if 5 < redirects then none
    else if isRedirect response.status then
      if (header? "location" response.headers).isSome then fetchUrlWithEtag (redirects + 1) rest else none
    else if response.status ≠ 200 ∧ response.status ≠ 304 then none
    else if sizeLimit < response.body.length then none
    else some (response.body, response.headers, response.status)
  | _ => none

/-- The data, the entity tag, and whether the server says that nothing was modified. -/
def fetchUrlEtag (replies : List (Option Response)) : Option (Bytes × Option Str × Bool) :=
  (fetchUrlWithEtag 0 replies).map fun (data, headers, status) => (data, header? "etag" headers, status == 304)

def directBody (answer : Option Response) : Option Bytes :=
  (answer.filter fun response => response.status < 400 || 600 ≤ response.status).map Response.body

/-! ## The cache -/

structure Cache where
  files : Files
  etags : Files

def location (set : RuleSetConfig) : Option (Str × Str) := do
  let url ← set.url
  let format ← (ruleSetFormatFor set url).toOption
  pure (url, format)

section
variable (p : Platform)

/-- `cache_path.with_extension("etag")`. -/
def etagPath (url : Str) : Str := p.cacheRoot ++ "/rule-set/" ++ hex16 (p.hash url) ++ ".etag"

def Cache.store (s : Cache) (url path : Str) (data : Bytes) (etag : Option Str) : Cache where
  files := (writeRuleSetCache p s.files path data).toOption.getD s.files
  etags := match etag with
    | some etag => if p.writable (etagPath p url) then s.etags.write (etagPath p url) (Str.asBytes etag) else s.etags
    | none => s.etags

def prefetchTask (s : Cache) (set : RuleSetConfig) (replies : List (Option Response)) : Option (Str × Bytes) × Cache :=
  match location set with
  | none => (none, s)
  | some (url, format) =>
    let path := ruleSetCachePath p url format
    match fetchUrlEtag replies with
    | none => (none, s)
    | some (data, etag, notModified) =>
      if notModified then ((s.files path).map fun data => (set.tag, data), s)
      else (some (set.tag, data), s.store p url path data etag)

/-- How a task of `prefetch_rule_sets` ends: its number, and what its requests were answered. -/
abbrev TaskEnd := Nat × List (Option Response)

def prefetchRuleSets (s : Cache) (sets : List RuleSetConfig) (ends : List TaskEnd) : Cache :=
  ends.foldl (fun s (i, replies) =>
    match sets[i]? with
    | some set => (prefetchTask p s set replies).2
    | none => s) s

inductive Call where
  | prefetch (route : RouteConfig) (httpClients : List HttpClientConfig) (ends : List TaskEnd)
  | load (set : RuleSetConfig) (answer : Option Response)

/-- The rule-sets that `prefetch_rule_sets` fetches: none without a detour. -/
def prefetchedSets (route : RouteConfig) (httpClients : List HttpClientConfig) : List RuleSetConfig :=
  let u : Updater := { platform := p, route, defaultOutbound := [], httpClients }
  if u.detour.isSome then u.remoteSets else []

/-- A call, in which every task ends once. -/
def Cache.step (s : Cache) : Call → Option Cache
  | .prefetch route httpClients ends =>
    let sets := prefetchedSets p route httpClients
    if (ends.map Prod.fst).isPerm (List.range sets.length) then some (prefetchRuleSets p s sets ends) else none
  | .load set answer =>
    some { s with files := (loadRemoteRuleSet p s.files (fun _ => directBody answer) set).2 }

end

/-! ## Good copies -/

theorem location_eq_some {set : RuleSetConfig} {url format : Str} :
    location set = some (url, format) ↔ set.url = some url ∧ ruleSetFormatFor set url = .ok format := by
  simp only [location, Option.bind_eq_bind, Option.bind_eq_some_iff, Option.pure_def, Option.some.injEq, Prod.mk.injEq]
  simp [Checked.toOption_eq_some_iff]

/-- The cache has a copy of the rule-set, and it decodes. -/
def Cached (p : Platform) (files : Files) (set : RuleSetConfig) : Prop :=
  ∃ url format data rules, location set = some (url, format) ∧ files (ruleSetCachePath p url format) = some data ∧
    decodeRuleSet p data format = .ok rules

section
variable {p : Platform} {files : Files} {set other : RuleSetConfig} {url url' format format' : Str}

theorem format_of_location (h : location set = some (url, format)) : format = "source" ∨ format = "binary" := by
  obtain ⟨-, hformat⟩ := location_eq_some.mp h
  simp only [ruleSetFormatFor] at hformat
  generalize set.format.getD _ = chosen at hformat
  split at hformat
  case isTrue hvalid =>
    cases hformat
    exact hvalid
  case isFalse => cases hformat

theorem getLast?_ruleSetCachePath (p : Platform) (url format : Str) :
    (ruleSetCachePath p url format).getLast? = some (if format = "binary" then 's' else 'n') := by
  unfold ruleSetCachePath
  rw [List.getLast?_append]
  split <;> rfl

/-- The name of a file in the cache tells the format. -/
theorem format_of_path (h : location set = some (url, format)) (h' : location other = some (url', format'))
    (hpath : ruleSetCachePath p url format = ruleSetCachePath p url' format') : format = format' := by
  have hlast := congrArg List.getLast? hpath
  rw [getLast?_ruleSetCachePath, getLast?_ruleSetCachePath, Option.some.injEq] at hlast
  have hne : ¬ "source".toList = "binary".toList := by decide
  rcases format_of_location h with rfl | rfl <;> rcases format_of_location h' with rfl | rfl
  · rfl
  · exact absurd hlast (by decide)
  · exact absurd hlast (by decide)
  · rfl

theorem cached_iff (h : location set = some (url, format)) : Cached p files set ↔
      ∃ data rules, files (ruleSetCachePath p url format) = some data ∧ decodeRuleSet p data format = .ok rules := by
  constructor
  · rintro ⟨url', format', data, rules, hlocation, hdata, hrules⟩
    rw [h] at hlocation
    cases hlocation
    exact ⟨data, rules, hdata, hrules⟩
  · rintro ⟨data, rules, hdata, hrules⟩
    exact ⟨url, format, data, rules, h, hdata, hrules⟩

end

/-! ## What a call does to a copy -/

section
variable {p : Platform}

/-- What a task writes to a file of the cache. -/
def downloaded (p : Platform) (path : Str) (set : RuleSetConfig) (replies : List (Option Response)) : Option Bytes := do
  let (url, format) ← location set
  let (data, _, notModified) ← fetchUrlEtag replies
  if ruleSetCachePath p url format = path ∧ p.writable path = true ∧ notModified = false then some data else none

theorem prefetchTask_files (p : Platform) (s : Cache) (set : RuleSetConfig) (replies : List (Option Response))
    (path : Str) : (prefetchTask p s set replies).2.files path = (downloaded p path set replies).or (s.files path) := by
  unfold prefetchTask downloaded
  cases location set with
  | none => rfl
  | some place =>
    obtain ⟨url, format⟩ := place
    cases fetchUrlEtag replies with
    | none => rfl
    | some reply =>
      obtain ⟨data, etag, notModified⟩ := reply
      cases notModified with
      | true => simp
      | false =>
        by_cases hpath : ruleSetCachePath p url format = path
        · subst hpath
          cases hwritable : p.writable (ruleSetCachePath p url format) <;>
            simp [Cache.store, writeRuleSetCache, Files.write, hwritable, Except.toOption]
        · have hne : path ≠ ruleSetCachePath p url format := fun heq => hpath heq.symm
          cases hwritable : p.writable (ruleSetCachePath p url format) <;>
            simp [Cache.store, writeRuleSetCache, Files.write, hwritable, hpath, hne, Except.toOption]

/-- What the tasks write to a file of the cache, in order. -/
def downloads (p : Platform) (path : Str) (sets : List RuleSetConfig) (ends : List TaskEnd) : List Bytes :=
  ends.filterMap fun (i, replies) => sets[i]?.bind fun set => downloaded p path set replies

theorem prefetchRuleSets_files (p : Platform) (sets : List RuleSetConfig) (path : Str) (ends : List TaskEnd) :
    ∀ s : Cache, (prefetchRuleSets p s sets ends).files path = (downloads p path sets ends).getLast?.or
      (s.files path) := by
  induction ends with
  | nil => exact fun _ => rfl
  | cons first rest ih =>
    obtain ⟨i, replies⟩ := first
    intro s
    have hfold : prefetchRuleSets p s sets ((i, replies) :: rest) =
        prefetchRuleSets p (match sets[i]? with
          | some set => (prefetchTask p s set replies).2
          | none => s) sets rest := rfl
    rw [hfold, ih]
    cases hset : sets[i]? with
    | none => simp [downloads, hset]
    | some set =>
      rw [prefetchTask_files]
      grind [downloaded, downloads, List.getLast?_cons]

variable {files : Files}

/-- A direct download is made only where there is no good copy, and replaces the file of a rule-set of the
    same format. -/
theorem cached_load {set : RuleSetConfig} (h : Cached p files set) (download : Str → Option Bytes)
    (other : RuleSetConfig) : Cached p (loadRemoteRuleSet p files download other).2 set := by
  unfold loadRemoteRuleSet
  split
  · exact h
  split
  · exact h
  next url' hurl =>
    split
    · exact h
    next format' hformat =>
      have hother : location other = some (url', format') := location_eq_some.mpr ⟨hurl, hformat⟩
      dsimp only
      split
      · exact h
      · exact h
      next hno _ =>
        unfold downloadRuleSet
        split
        next data hdata =>
          have hwrite : Cached p (files.write (ruleSetCachePath p url' format') data) set := by
            obtain ⟨url, format, copy, rules, hlocation, hcopy, hrules⟩ := h
            by_cases hpath : ruleSetCachePath p url format = ruleSetCachePath p url' format'
            · obtain rfl := format_of_path hlocation hother hpath
              simp_all
            · exact ⟨url, format, copy, rules, hlocation, by rw [Files.write, if_neg hpath, hcopy], hrules⟩
          split
          · exact h
          cases hwritable : p.writable (ruleSetCachePath p url' format') with
          | false => simpa only [writeRuleSetCache, hwritable, Bool.false_eq_true, if_false] using h
          | true => simpa only [writeRuleSetCache, hwritable, if_true] using hwrite
        · split <;> exact h

/-- What `prefetch_rule_sets` leaves in the file of the rule-set decodes. -/
def Call.Decodes (p : Platform) (set : RuleSetConfig) : Call → Prop
  | .prefetch route httpClients ends => ∀ url format data, location set = some (url, format) →
      (downloads p (ruleSetCachePath p url format) (prefetchedSets p route httpClients) ends).getLast? = some data →
      ∃ rules, decodeRuleSet p data format = .ok rules
  | .load _ _ => True

theorem cached_step {s s' : Cache} {set : RuleSetConfig} {call : Call} (hcached : Cached p s.files set)
    (h : s.step p call = some s') : call.Decodes p set ↔ Cached p s'.files set := by
  obtain ⟨url, format, data, rules, hlocation, hdata, hrules⟩ := hcached
  cases call with
  | load other answer =>
    cases h
    exact iff_of_true trivial (cached_load ⟨url, format, data, rules, hlocation, hdata, hrules⟩ _ other)
  | prefetch route httpClients ends =>
    simp only [Cache.step] at h
    split at h
    case isFalse => cases h
    case isTrue =>
      cases h
      rw [cached_iff hlocation, prefetchRuleSets_files, Call.Decodes]
      constructor
      · grind
      grind

/-- A good copy is enough to load the rule-set, whatever the network does. -/
theorem load_of_cached {set : RuleSetConfig} (h : Cached p files set)
    (hdetour : set.downloadDetour.any (· ≠ []) = false) (download : Str → Option Bytes) :
    ∃ rules, loadRemoteRuleSet p files download set = (.ok rules, files) := by
  obtain ⟨url, format, data, rules, hlocation, hdata, hrules⟩ := h
  simp_all [location_eq_some, loadRemoteRuleSet, Option.map_some, Bool.false_eq_true]

end

/-! ## The tasks of a refresh -/

theorem length_of_fetch {redirects : Nat} {replies : List (Option Response)} {found : Bytes × List (Str × Str) × UInt16}
    (h : fetchUrlWithEtag redirects replies = some found) : found.1.length ≤ sizeLimit := by
  induction replies generalizing redirects with
  | nil => cases h
  | cons answer rest ih =>
    cases answer with
    | none => cases h
    | some response =>
      rw [fetchUrlWithEtag] at h
      grind

/-- How the requests of a task end, as a refresh has it. -/
def replyOf (set : RuleSetConfig) (replies : List (Option Response)) : Reply :=
  match location set, fetchUrlEtag replies with
  | some _, some (_, _, true) => .notModified
  | some _, some (_, _, false) => .modified
  | _, _ => .failed

/-- A task of `prefetch_rule_sets` does what the refresh takes it to do, apart from the entity tags, with the server
    that has what is downloaded. -/
theorem prefetchRuleSet_eq_prefetchTask (p : Platform) (s : Cache) (set : RuleSetConfig)
    (replies : List (Option Response)) :
    prefetchRuleSet p s.files (fun _ => (fetchUrlEtag replies).map Prod.fst) set (replyOf set replies) =
      some ((prefetchTask p s set replies).1, (prefetchTask p s set replies).2.files) := by
  unfold replyOf prefetchTask
  cases hlocation : location set with
  | none => rfl
  | some place =>
    obtain ⟨url, format⟩ := place
    obtain ⟨hurl, hformat⟩ := location_eq_some.mp hlocation
    cases hfetch : fetchUrlEtag replies with
    | none => rfl
    | some found =>
      obtain ⟨data, etag, notModified⟩ := found
      cases notModified with
      | true => simp [prefetchRuleSet, hurl, hformat, Except.toOption]
      | false =>
        obtain ⟨fetched, hfetched, heq⟩ := Option.map_eq_some_iff.mp hfetch
        obtain rfl : fetched.1 = data := congrArg Prod.fst heq
        simp [prefetchRuleSet, hurl, hformat, Except.toOption, Cache.store, Nat.not_lt.mpr (length_of_fetch hfetched)]

/-! ## Sequences of calls -/

/-- In every sequence of calls from a state with a good copy of a rule-set, the copy is good after every
    call if and only if what each `prefetch_rule_sets` leaves in its file decodes. With a good copy the
    rule-set can be loaded without a network. -/
theorem cached_copies_survive (p : Platform) (set : RuleSetConfig) {s s' : Cache} {calls : List Call}
    (hcached : Cached p s.files set) (hrun : run (Cache.step p) s calls = some s') :
    ((∀ before after m, calls = before ++ after → run (Cache.step p) s before = some m → Cached p m.files set) ↔
      ∀ call ∈ calls, call.Decodes p set) ∧
    ∀ files, Cached p files set → set.downloadDetour.any (· ≠ []) = false →
      ∃ rules, loadRemoteRuleSet p files (fun _ => none) set = (.ok rules, files) := by
  refine ⟨?_, fun files h hdetour => load_of_cached h hdetour _⟩
  have hiff := along_iff_forall_states (fun _ : Cache => True) (fun s => Cached p s.files set)
    (fun _ call => call.Decodes p set) (fun _ _ _ _ _ => trivial) (fun _ _ _ _ h hstep => cached_step h hstep)
    trivial hcached hrun
  rw [← hiff]
  exact ⟨fun h => forall_of_along h hrun, fun h => along_of_forall s fun call hcall _ => h call hcall⟩

section
open Updater

/-- A configuration that fetches a rule-set through an outbound. -/
def detourRoute : RouteConfig := { ruleSet := [changedSet], defaultHttpClient := some "client".toList }

def detourClients : List HttpClientConfig := [{ tag := "client", detour := some "proxy".toList }]

def fetchedWith (body : Bytes) : Call :=
  .prefetch detourRoute detourClients [(0, [some { status := 200, body }])]

theorem cached_oldFiles : Cached changedUpdater.platform oldFiles changedSet := by
  refine ⟨"http://h/r", "source", oldData, [], rfl, ?_, rfl⟩
  rw [oldFiles, Files.write, if_pos rfl]

/-- Two versions of a rule-set are fetched, and a direct download fails in between. -/
theorem cached_copies_survive_updates :
    ∃ s', run (Cache.step changedUpdater.platform) ⟨oldFiles, fun _ => none⟩
        [fetchedWith newData, .load changedSet none, fetchedWith oldData] = some s' ∧
      Cached changedUpdater.platform s'.files changedSet := by
  obtain ⟨s', hrun⟩ : ∃ s', run (Cache.step changedUpdater.platform) ⟨oldFiles, fun _ => none⟩
      [fetchedWith newData, .load changedSet none, fetchedWith oldData] = some s' := ⟨_, rfl⟩
  refine ⟨s', hrun, (cached_copies_survive _ changedSet cached_oldFiles hrun).1.mpr ?_ _ [] s'
    (List.append_nil _).symm hrun⟩
  intro call hcall
  simp only [List.mem_cons, List.not_mem_nil, or_false] at hcall
  rcases hcall with rfl | rfl | rfl
  · intro url format data hlocation hlast
    cases hlocation
    obtain rfl : newData = data := Option.some.inj hlast
    exact ⟨[domainRule], rfl⟩
  · trivial
  · intro url format data hlocation hlast
    cases hlocation
    obtain rfl : oldData = data := Option.some.inj hlast
    exact ⟨[], rfl⟩

/-- A page of another server is written over a good copy, and without a network the rule-set cannot be
    loaded any more. -/
theorem bad_download_cached :
    Cached changedUpdater.platform oldFiles changedSet ∧
    ∃ s', run (Cache.step changedUpdater.platform) ⟨oldFiles, fun _ => none⟩
        [fetchedWith (Str.asBytes "<html>")] = some s' ∧
      ¬Cached changedUpdater.platform s'.files changedSet ∧
      (loadRemoteRuleSet changedUpdater.platform s'.files (fun _ => none) changedSet).1 =
        .error (.message "parse remote rule-set r") := by
  refine ⟨cached_oldFiles, _, rfl, ?_, rfl⟩
  have hlocation : location changedSet = some ("http://h/r".toList, "source".toList) := rfl
  rw [cached_iff hlocation]
  rintro ⟨data, rules, hdata, hrules⟩
  obtain rfl : Str.asBytes "<html>" = data := Option.some.inj hdata
  cases hrules

end

end Xhttp.Proxy
