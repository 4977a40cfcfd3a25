import Xhttp.Server.Handler

/- Client and server with one configuration: what the client builds is admitted by the
   server and dispatched with the same session, sequence number and payload. The
   client's writes are put together from those of padding, metadata and payload, and
   each check of the server is a lookup in them.

   A validated configuration can still use one name for two things, or a name that its
   place does not take. `Compatible` says that this one does not. -/
namespace Xhttp
open Lib Protocol Client Server List

/-- The places padding, session and sequence number are written to. -/
def places (config : TransportConfig) : List (Placement × Str) :=
  [(paddingAt config).target, (config.sessionPlacement, config.sessionKey),
    (config.sequencePlacement, config.sequenceKey)]

/-- One name for two things. A path has room for both. -/
def Clash (a b : Placement × Str) : Prop := a.1 = b.1 ∧ a.1 ≠ .path ∧ SameKey a.1 a.2 b.2

instance (a b : Placement × Str) : Decidable (Clash a b) := by
  unfold Clash
  infer_instance

def queryPairs (H : Http) (config : TransportConfig) : List (Str × Str) :=
  config.query.elim [] H.formParse

/-- Every name fits its place and stands for one thing only. -/
structure Compatible (H : Http) (B : Base64) (config : TransportConfig) (base : RequestBase H)
    (payload : Bytes) : Prop where
  /-- The server answers `OPTIONS` itself. -/
  method : config.uplinkMethod ≠ "OPTIONS"
  root : config.path = ['/'] → config.sessionPlacement ≠ .path ∧ config.sequencePlacement ≠ .path
  padding_max : config.paddingMax + 2 < 2 ^ 64
  host : ∀ host, config.host = some host → ∀ c ∈ host, visible c = true
  token : ∀ token, config.token = some token → ∀ c ∈ token, visible c = true
  distinct : (places config).Pairwise fun a b => ¬ Clash a b
  header : ∀ name, (Placement.header, name) ∈ places config →
    (∃ n, H.headerName name = some n) ∧ name.toAsciiLowercase ≠ "cookie" ∧
      (config.host ≠ none → name.toAsciiLowercase ≠ "host") ∧
      (config.token ≠ none → name.toAsciiLowercase ≠ "authorization")
  cookie : ∀ key, (Placement.cookie, key) ∈ places config →
    CookieKey key ∧ key ∉ (cookies H base.headers).map Prod.fst
  query : ∀ key, (Placement.query, key) ∈ places config → key ∉ (queryPairs H config).map Prod.fst
  /-- Of the query the padding is the first pair of its name. -/
  padding : (paddingAt config).placement = .query ∨ (paddingAt config).placement = .queryInHeader →
    (paddingAt config).key ∉ (H.pairs base.url).map Prod.fst
  /-- A request without a sequence number has none at its place. -/
  sequence : Absent H base.url base.headers config.sequencePlacement config.sequenceKey
  /-- The server keeps one value of each name. -/
  single : ∀ kv ∈ queryPairs H config, ∀ kv' ∈ queryPairs H config, kv.1 = kv'.1 → kv.2 = kv'.2
  data_names : ∀ i < (headerChunks B config payload).length,
    ∃ n, H.headerName (numberedKey config.dataKey '-' i) = some n
  data_key : config.dataPlacement = .cookie → CookieKey config.dataKey
  data_headers : config.dataPlacement = .header ∨ config.dataPlacement = .auto → ∀ i,
    H.getStr base.headers (numberedKey config.dataKey '-' i) = none ∧
      ∀ name, (Placement.header, name) ∈ places config →
        name.toAsciiLowercase ≠ (numberedKey config.dataKey '-' i).toAsciiLowercase
  data_cookies : config.dataPlacement = .cookie ∨ config.dataPlacement = .auto → ∀ i,
    numberedKey config.dataKey '_' i ∉ (cookies H base.headers).map Prod.fst ∧
      (Placement.cookie, numberedKey config.dataKey '_' i) ∉ places config

/-! ## The writes of a request -/

/-- What `Client::request` writes: padding, then metadata. -/
def clientWrites (H : Http) (config : TransportConfig) (url : H.Url) (value session : Str)
    (sequence : Option UInt64) : Writes :=
  valueWrites (paddingAt config).target.1 (paddingAt config).target.2
      ((paddingAt config).text H url value) ++
    metadataWrites config session sequence

variable {placement : Placement} {H : Http} {payload : Bytes} {B : Base64}

/-- Nothing is written under a name that none of the places has. -/
theorem clientWrites_clear {config : TransportConfig} {key : Str} (hpath : placement ≠ .path)
    (h : ∀ name, (placement, name) ∈ places config → ¬ SameKey placement name key) (url : H.Url)
    (value session : Str) (sequence : Option UInt64) :
    (clientWrites H config url value session sequence).values placement key = [] := by
  have hother : ∀ a ∈ places config, a.1 = placement → a.1 ≠ .path ∧ ¬ SameKey a.1 a.2 key := by
    rintro ⟨_, name⟩ ha rfl
    exact ⟨hpath, h name ha⟩
  have hpadding := hother (paddingAt config).target (by simp [places])
  have hsession := hother (config.sessionPlacement, config.sessionKey) (by simp [places])
  have hsequence := hother (config.sequencePlacement, config.sequenceKey) (by simp [places])
  rw [clientWrites, metadataWrites, Writes.values_append, Writes.values_append,
    valueWrites_other _ hpadding, valueWrites_other _ hsession, sequenceWrites_other _ hsequence]
  rfl

/-- Writes that touch no place of the request and no header the server checks. -/
structure Beside (config : TransportConfig) (data : Writes) : Prop where
  segments : data.segments = []
  query : data.query = []
  host : headersOf "host" data.headers = []
  authorization : headersOf "authorization" data.headers = []
  header : ∀ name, (Placement.header, name) ∈ places config → headersOf name data.headers = []
  cookie : ∀ key, (Placement.cookie, key) ∈ places config → valuesOf key data.cookies = []

theorem Beside.none (config : TransportConfig) : Beside config Writes.none :=
  ⟨rfl, rfl, rfl, rfl, fun _ _ => rfl, fun _ _ => rfl⟩

theorem Beside.values {config : TransportConfig} {data : Writes} (h : Beside config data) {key : Str}
    (hmem : (placement, key) ∈ places config) :
    data.values placement key = [] := by
  cases placement with
  | path => exact h.segments
  | query => simp only [Writes.values, h.query, valuesOf_nil]
  | header => exact h.header key hmem
  | cookie => exact h.cookie key hmem
  | _ => rfl

/-! ## The checks -/

theorem validPath_joinPath {path base : Str} {segments : List Str}
    (hbase : path.endsWith '/' = false ∧ base = path ++ ['/'] ∨ path = ['/'] ∧ base = ['/'])
    (hroot : path = ['/'] → segments = []) (hs : ∀ s ∈ segments, s ≠ [] ∧ '/' ∉ s) :
    validPath path (joinPath base segments) = true := by
  have hslash : ∀ rest, validPath path (path ++ '/' :: rest) = true := by
    intro rest
    rw [validPath, Str.stripPrefix_append]
    simp [Str.startsWith]
  by_cases hnil : segments = []
  · subst hnil
    rcases hbase with ⟨-, rfl⟩ | ⟨rfl, rfl⟩
    · exact hslash []
    · rfl
  · rcases hbase with ⟨hend, rfl⟩ | ⟨rfl, -⟩
    · obtain ⟨s, rest, rfl⟩ := exists_cons_of_ne_nil hnil
      rw [joinPath_eq hnil hs, Str.trimEndMatches_append_self, Str.trimEndMatches_of_endsWith_eq_false hend]
      exact hslash _
    · exact absurd (hroot rfl) hnil

theorem collected_eq (pairs : List (Str × Str)) (key : Str) : collected pairs key = (valuesOf key pairs).getLast? := by
  rw [collected, foldl_last, Option.or_none]

/-- A pair is kept if its name has one value only and no pair of the name follows. -/
theorem collected_mem {kv : Str × Str} {l : List (Str × Str)} (hmem : kv ∈ l)
    (hsingle : ∀ kv' ∈ l, kv.1 = kv'.1 → kv.2 = kv'.2) (before : List (Str × Str))
    {after : List (Str × Str)} (hafter : valuesOf kv.1 after = []) :
    collected (before ++ l ++ after) kv.1 = some kv.2 := by
  have hin : kv.2 ∈ valuesOf kv.1 l :=
    mem_map.mpr ⟨kv, mem_filter.mpr ⟨hmem, by simp⟩, rfl⟩
  have hall : ∀ v ∈ valuesOf kv.1 l, v = kv.2 := by
    intro v hv
    obtain ⟨kv', hkv', rfl⟩ := mem_map.mp hv
    obtain ⟨hmem', hname⟩ := mem_filter.mp hkv'
    exact (hsingle kv' hmem' (of_decide_eq_true hname).symm).symm
  obtain ⟨v, hlast⟩ : ∃ v, (valuesOf kv.1 l).getLast? = some v :=
    ⟨_, getLast?_eq_some_getLast (ne_nil_of_mem hin)⟩
  calc collected (before ++ l ++ after) kv.1
      = (valuesOf kv.1 (before ++ l ++ after)).getLast? := collected_eq _ _
    _ = (valuesOf kv.1 before ++ valuesOf kv.1 l).getLast? := by
        rw [valuesOf_append, valuesOf_append, hafter, append_nil]
    _ = some v := by
        rw [getLast?_append, hlast]
        rfl
    _ = some kv.2 := by rw [hall v (mem_of_getLast? hlast)]

section
variable {H : Http} {B : Base64} {F : Huffman} {config : TransportConfig} {base : RequestBase H} {payload : Bytes}
  {url : H.Url} {headers : H.HeaderMap} {value session : Str} {sequence : Option UInt64} {data : Writes} {sampled : Nat}
  (hc : Compatible H B config base payload)

section
include hc

/-- The payload goes under names of its own. -/
theorem payloadWrites_beside : Beside config (payloadWrites B config payload) := by
  -- the headers the server checks have no dash in their names, the numbered ones have
  have hdash : ∀ {name : Str}, '-' ∉ name → name.toAsciiLowercase = name → ∀ i,
      name.toAsciiLowercase ≠ (numberedKey config.dataKey '-' i).toAsciiLowercase := by
    intro name hname hlower i
    rw [hlower]
    exact (numberedKey_ne_of_notMem hname config.dataKey i).symm
  refine ⟨rfl, rfl, headersOf_numbered_of_ne (hdash (by decide) (by decide)) 0 _,
    headersOf_numbered_of_ne (hdash (by decide) (by decide)) 0 _, ?_, ?_⟩
  · intro name hname
    by_cases hp : config.dataPlacement = .header
    · exact headersOf_numbered_of_ne (fun i => (hc.data_headers (Or.inl hp) i).2 name hname) 0 _
    · rw [payloadWrites, headerChunks, if_neg hp]
      rfl
  · intro key hkey
    by_cases hp : config.dataPlacement = .cookie
    · apply valuesOf_numbered_of_ne
      rintro i rfl
      exact (hc.data_cookies (Or.inl hp) i).2 hkey
    · rw [payloadWrites, cookieChunks, if_neg hp]
      rfl

theorem Compatible.fits {key : Str} (hmem : (placement, key) ∈ places config) :
    Fits placement key where
  header := fun hp => (hc.header key (hp ▸ hmem)).2.1
  cookie := fun hp => (hc.cookie key (hp ▸ hmem)).1

theorem Compatible.paddingFits (hvalid : config.Valid H) :
    (paddingAt config).Fits H base.url base.headers where
  placement := paddingAt_placement hvalid
  name := fun hp => (hc.header _ (by simp [places, PaddingAt.target_of_header hp])).1
  key := fun hp => (hc.cookie _ (by simp [places, PaddingAt.target_of_cookie hp])).1
  query := hc.padding
  cookie := fun hp => (hc.cookie _ (by simp [places, PaddingAt.target_of_cookie hp])).2

theorem Compatible.apart : Apart config := by
  intro heq hpath hsame
  have hpair := (pairwise_cons.mp (pairwise_cons.mp hc.distinct).2).1
    (config.sequencePlacement, config.sequenceKey) (by simp)
  exact hpair ⟨heq, hpath, hsame⟩

/-- The padding is at neither place of the metadata. -/
theorem Compatible.padding_values {key : Str}
    (hmem : (placement, key) ∈ [(config.sessionPlacement, config.sessionKey),
      (config.sequencePlacement, config.sequenceKey)]) (text : Str) :
    (valueWrites (paddingAt config).target.1 (paddingAt config).target.2 text).values placement key = [] := by
  have hpair := (pairwise_cons.mp hc.distinct).1 (placement, key) hmem
  apply valueWrites_other
  intro heq
  exact ⟨(paddingAt config).target_ne_path, fun hsame => hpair ⟨heq, (paddingAt config).target_ne_path, hsame⟩⟩

theorem Compatible.metadata_values (session : Str) (sequence : Option UInt64) :
    (metadataWrites config session sequence).values (paddingAt config).target.1 (paddingAt config).target.2 = [] := by
  have hother : ∀ b ∈ [(config.sessionPlacement, config.sessionKey),
      (config.sequencePlacement, config.sequenceKey)], b.1 = (paddingAt config).target.1 →
        b.1 ≠ .path ∧ ¬ SameKey b.1 b.2 (paddingAt config).target.2 := by
    intro b hb heq
    have hpath := (paddingAt config).target_ne_path
    refine ⟨heq ▸ hpath, fun hsame => ?_⟩
    exact (pairwise_cons.mp hc.distinct).1 b hb ⟨heq.symm, hpath, (heq ▸ hsame).symm⟩
  have hsession := hother (config.sessionPlacement, config.sessionKey) (by simp)
  have hsequence := hother (config.sequencePlacement, config.sequenceKey) (by simp)
  rw [metadataWrites, Writes.values_append, valueWrites_other session hsession, sequenceWrites_other sequence hsequence]
  rfl

/-- The numbered names of the payload are not used by the request itself. -/
theorem Compatible.unused :
    Unused H config base.headers (clientWrites H config base.url value session sequence) := by
  constructor
  · intro hp i
    refine ⟨?_, (hc.data_headers hp i).1⟩
    have hclear : (clientWrites H config base.url value session sequence).values .header
        (numberedKey config.dataKey '-' i) = [] := by
      refine clientWrites_clear (by decide) ?_ _ _ _ _
      intro name hname hsame
      exact (hc.data_headers hp i).2 name hname hsame
    exact hclear
  · intro hp i
    refine ⟨?_, (hc.data_cookies hp i).1⟩
    have hclear : (clientWrites H config base.url value session sequence).values .cookie
        (numberedKey config.dataKey '_' i) = [] := by
      refine clientWrites_clear (by decide) ?_ _ _ _ _
      intro name hname hsame
      have hkey : name = numberedKey config.dataKey '_' i := hsame
      exact (hc.data_cookies hp i).2 (hkey ▸ hname)
    exact hclear

theorem request_shows (hvalid : config.Valid H)
    (hroot : (H.path base.url).head? = some '/') (hne : session ≠ [])
    (hsession : ∀ c ∈ session, tokenChar c = true) (F : Huffman) (sampled : Nat) (sequence : Option UInt64) :
    ∃ url headers, request H F config base sampled (some session) sequence = .ok (url, headers) ∧
      Shows H base.url base.headers (clientWrites H config base.url
        (paddingValue F config.paddingMethod (paddingLength config sampled)) session sequence) url headers := by
  have htarget : Fits (paddingAt config).target.1 (paddingAt config).target.2 :=
    hc.fits (by simp [places])
  have hpadding := putPadding_shows (hc.paddingFits hvalid) htarget hroot
    (paddingValue_spec F config.paddingMethod (paddingLength config sampled)).1
  exact applyMetadata_shows hpadding hvalid.session hvalid.sequence (hc.fits (by simp [places]))
    (hc.fits (by simp [places])) hvalid.session_name hne hsession sequence fun _ => hvalid.sequence_name

end

/-- What the request base is for the server. -/
structure BaseOf (H : Http) (config : TransportConfig) (base : RequestBase H) : Prop where
  root : (H.path base.url).head? = some '/'
  path : config.path.endsWith '/' = false ∧ H.path base.url = config.path ++ ['/'] ∨
    config.path = ['/'] ∧ H.path base.url = ['/']
  pairs : ∃ pairs, H.pairs base.url = pairs ++ queryPairs H config
  host : ∀ t, config.host = some t → (∀ c ∈ t, visible c = true) →
    H.getStr base.headers "host" = some t
  token : ∀ t, config.token = some t → (∀ c ∈ bearer t, visible c = true) →
    H.getStr base.headers "authorization" = some (bearer t)

theorem buildRequestBase_baseOf (hvalid : config.Valid H) {server : Str}
    (hserver : H.parse server = some url) (hslash : H.path url = ['/'])
    (hnormal : H.path (H.setPath url config.path) = config.path) :
    ∃ base, buildRequestBase H server config = .ok base ∧ BaseOf H config base := by
  obtain ⟨base, hok, hurl, hhost, htoken⟩ := buildRequestBase_ok hvalid hserver
  have hpath := path_baseUrl hvalid.path_head hvalid.path_end hslash hnormal
  rw [← path_appendPairs (config.query.elim [] H.formParse), ← hurl] at hpath
  refine ⟨base, hok, ?_, hpath, ⟨H.pairs url, ?_⟩, hhost, htoken⟩
  · rcases hpath with ⟨-, hpath⟩ | ⟨-, hpath⟩
    · rw [hpath, head?_append, hvalid.path_head]
      rfl
    · rw [hpath]
      rfl
  · rw [hurl, pairs_appendPairs, query_baseUrl]
    rfl

variable (hvalid : config.Valid H) (hbase : BaseOf H config base)
  (hsession : session ≠ [] ∧ ∀ c ∈ session, tokenChar c = true)
  (hsampled : config.paddingMin ≤ sampled ∧ sampled ≤ config.paddingMax)
  (h : Shows H base.url base.headers (clientWrites H config base.url value session sequence ++ data) url headers)
  (hdata : Beside config data)

section
include hsession hdata

theorem mem_segments {s : Str} (hs : s ∈ (clientWrites H config base.url value session sequence ++ data).segments) :
    (s ≠ [] ∧ '/' ∉ s) ∧ (config.sessionPlacement = .path ∨ config.sequencePlacement = .path) := by
  have hpadding : ∀ text, (valueWrites (paddingAt config).target.1 (paddingAt config).target.2
      text).segments = [] := by
    intro text
    have hnil : (valueWrites (paddingAt config).target.1 (paddingAt config).target.2 text).values
        .path [] = [] :=
      valueWrites_other text fun heq => absurd heq (paddingAt config).target_ne_path
    exact hnil
  rw [Writes.append_segments, hdata.segments, append_nil, clientWrites, Writes.append_segments,
    hpadding, nil_append] at hs
  exact mem_metadataWrites_segments hsession.1 hsession.2 hs

end

section
include h

/-- A header that is neither written over by the request nor by its payload. -/
theorem getStr_of_shows {name : Str} (hcookie : name.toAsciiLowercase ≠ "cookie")
    (hdata : headersOf name data.headers = []) (hother : ∀ key, (Placement.header, key) ∈ places config →
      key.toAsciiLowercase ≠ name.toAsciiLowercase) : H.getStr headers name = H.getStr base.headers name := by
  have hclear : (clientWrites H config base.url value session sequence).values .header name = [] := by
    refine clientWrites_clear (by decide) ?_ _ _ _ _
    intro key hkey hsame
    exact hother key hkey hsame
  rw [Writes.values] at hclear
  rw [h.header name hcookie, Writes.append_headers, headersOf_append, hclear, hdata]
  rfl

include hc hdata

theorem validQuery_of_shows {pairs : List (Str × Str)}
    (hpairs : H.pairs base.url = pairs ++ queryPairs H config) :
    validQuery H config.query (H.uri url).query = true := by
  cases hq : config.query with
  | none => rfl
  | some query =>
    have hquery : queryPairs H config = H.formParse query := by rw [queryPairs, hq]; rfl
    show (H.formParse query).all _ = true
    rw [← hquery]
    apply all_eq_true.mpr
    intro kv hkv
    -- the names of the configured query are none of the places
    have hclear : (clientWrites H config base.url value session sequence).values .query kv.1 = [] := by
      refine clientWrites_clear (by decide) ?_ _ _ _ _
      intro name hname hsame
      have hkey : name = kv.1 := hsame
      exact hc.query name hname (hkey ▸ mem_map_of_mem hkv)
    have hall : H.pairs url =
        pairs ++ queryPairs H config ++ (clientWrites H config base.url value session sequence).query := calc
      _ = H.pairs base.url ++ (clientWrites H config base.url value session sequence ++ data).query := h.pairs
      _ = H.pairs base.url ++ (clientWrites H config base.url value session sequence).query := by
          rw [Writes.append_query, hdata.query, append_nil]
      _ = _ := by rw [hpairs]
    have hread := collected_mem hkv (hc.single kv hkv) pairs hclear
    rw [← hall] at hread
    exact beq_iff_eq.mpr hread

include hbase

theorem validHost_of_shows : validHost H config.host headers = true := by
  cases hh : config.host with
  | none => rfl
  | some host =>
    have hother : ∀ key, (Placement.header, key) ∈ places config → key.toAsciiLowercase ≠ "host" :=
      fun key hkey => (hc.header key hkey).2.2.1 (by rw [hh]; nofun)
    have hget : H.getStr headers "host" = some host := calc
      _ = H.getStr base.headers "host" := getStr_of_shows h (by decide) hdata.host hother
      _ = some host := hbase.host host hh (hc.host host hh)
    exact beq_iff_eq.mpr hget

theorem authorized_of_shows : authorized H config headers = true := by
  unfold authorized
  cases ht : config.token with
  | none => rfl
  | some token =>
    have hvisible : ∀ c ∈ bearer token, visible c = true := by
      intro c hc'
      rcases mem_append.mp hc' with hc' | hc'
      · have hword : ∀ d ∈ "Bearer ".toList, visible d = true := by decide
        exact hword c hc'
      · exact hc.token token ht c hc'
    have hother : ∀ key, (Placement.header, key) ∈ places config →
        key.toAsciiLowercase ≠ "authorization" :=
      fun key hkey => (hc.header key hkey).2.2.2 (by rw [ht]; nofun)
    have hget : H.getStr headers "authorization" = some (bearer token) := calc
      _ = H.getStr base.headers "authorization" :=
          getStr_of_shows h (by decide) hdata.authorization hother
      _ = some (bearer token) := hbase.token token ht hvisible
    rw [Http.getStr, H.headerName_authorization] at hget
    exact beq_iff_eq.mpr hget

include hvalid hsession

/-- The server reads the session and the sequence number the client wrote. -/
theorem extractMetadata_of_request :
    extractMetadata H config (H.uri url) headers = (some session, sequence) := by
  have hpath : H.path base.url = config.path ++ ['/'] ∨ config.path = ['/'] ∧ H.path base.url = ['/'] := by
    rcases hbase.path with ⟨-, hpath⟩ | hpath
    · exact Or.inl hpath
    · exact Or.inr hpath
  have hclear : ∀ {placement key}, (placement, key) ∈ [(config.sessionPlacement, config.sessionKey),
      (config.sequencePlacement, config.sequenceKey)] →
      (valueWrites (paddingAt config).target.1 (paddingAt config).target.2
        ((paddingAt config).text H base.url value) ++ data).values placement key = [] := by
    intro placement key hmem
    rw [Writes.values_append, hc.padding_values hmem, hdata.values (mem_cons_of_mem _ hmem)]
    rfl
  have hcookie : config.sessionPlacement = .cookie →
      Absent H base.url base.headers config.sessionPlacement config.sessionKey := by
    intro hp
    have hmem : (Placement.cookie, config.sessionKey) ∈ places config := by simp [places, hp]
    rw [hp]
    exact (hc.cookie config.sessionKey hmem).2
  exact extractMetadata_of_shows h hvalid.path_end hpath hvalid.session hvalid.sequence
    (hc.fits (by simp [places])) (hc.fits (by simp [places])) hc.apart hcookie (fun _ => hc.sequence)
    (hclear (by simp)) (hclear (by simp)) hsession.1 hsession.2

end

/-! ## Dispatch -/

theorem extractPayloadBytes_eq (fuel : Nat) (headers : H.HeaderMap) (body : Bytes) :
    extractPayloadBytes H B fuel config headers body = extractPayload H B fuel config headers body := by
  unfold extractPayloadBytes extractPayload
  cases config.dataPlacement <;> rfl

theorem payloadBody_length (config : TransportConfig) (payload : Bytes) :
    ((payloadBody config payload).getD []).length ≤ payload.length := by
  unfold payloadBody
  split
  · exact Nat.zero_le _
  · exact Nat.le_refl _

section
include hc hvalid hbase hsession hsampled

/-- Every check in front of the dispatch lets the request through. -/
theorem admitted_of_shows (h : Shows H base.url base.headers
      (clientWrites H config base.url (paddingValue F config.paddingMethod (paddingLength config sampled))
        session sequence ++ data) url headers) (hdata : Beside config data) (method : Str) (body : Bytes) :
    admitted H F config ⟨method, H.uri url, headers, body⟩ = .ok true := by
  obtain ⟨pairs, hpairs⟩ := hbase.pairs
  obtain ⟨hlo, hhi⟩ := paddingLength_mem hsampled
  have hpath : validPath config.path (H.path url) = true := by
    rw [h.path]
    apply validPath_joinPath hbase.path
    · intro hslash
      apply eq_nil_iff_forall_not_mem.mpr
      intro s hs
      obtain ⟨hno, hno'⟩ := hc.root hslash
      rcases (mem_segments hsession hdata hs).2 with hp | hp
      · exact hno hp
      · exact hno' hp
    · intro s hs
      exact (mem_segments hsession hdata hs).1
  have hpadding : validPadding H F config (H.uri url) headers = .ok true := by
    apply validPadding_of_read hc.padding_max hlo hhi
    -- the padding was written first, so metadata and data count as later writes
    rw [clientWrites, Writes.append_assoc] at h
    apply readPadding_of_shows h (hc.paddingFits hvalid) (hc.fits (by simp [places])) hbase.root
    intro htarget
    have hmem : (Placement.header, (paddingAt config).target.2) ∈ places config := by
      rw [← htarget]
      simp [places]
    have hmetadata := hc.metadata_values session sequence
    rw [htarget, Writes.values] at hmetadata
    rw [Writes.append_headers, headersOf_append, hmetadata, hdata.header _ hmem]
    rfl
  rw [admitted, if_pos, hpadding]
  simp only [Bool.and_eq_true]
  exact ⟨⟨⟨hpath, validQuery_of_shows hc h hdata hpairs⟩, validHost_of_shows hc hbase h hdata⟩,
    authorized_of_shows hc hbase h hdata⟩

theorem packet_dispatched (hmode : config.mode = .auto ∨ config.mode = .packetUp)
    (hsize : payload.length ≤ config.maxPacketSize) (F : Huffman) (sequence : UInt64) {fuel : Nat}
    (hfuel : (headerChunks B config payload).length + (cookieChunks B config payload).length < fuel) :
    ∃ request, packetRequest H B F config base sampled session sequence payload = .ok request ∧
      handler H B F fuel config request = .packet session sequence payload := by
  obtain ⟨url, headers, hrequest, hshows⟩ :=
    request_shows hc hvalid hbase.root hsession.1 hsession.2 F sampled (some sequence)
  obtain ⟨headers', hput, hcarries⟩ :=
    putPayload_carries hvalid.data hc.data_names hc.data_key hshows.toCarries
  have hall := hshows.carry hcarries
  have hbeside := payloadWrites_beside hc
  have hmethod : uplinkMethod H config = .ok config.uplinkMethod := if_pos hvalid.uplink_method
  have hpayload := extractPayload_of_carries hvalid.data hcarries hc.unused hfuel
  have hbody : ((payloadBody config payload).getD []).length ≤ config.maxPacketSize := calc
    _ ≤ payload.length := payloadBody_length config payload
    _ ≤ config.maxPacketSize := hsize
  refine ⟨⟨config.uplinkMethod, H.uri url, headers', (payloadBody config payload).getD []⟩, ?_, ?_⟩
  · simp only [packetRequest, hrequest, hput, hmethod, bind, Except.bind]
    rfl
  · have hadmitted := admitted_of_shows hc hvalid hbase hsession hsampled hall hbeside
      config.uplinkMethod ((payloadBody config payload).getD [])
    have hmetadata := extractMetadata_of_request hc hvalid hbase hsession hall hbeside
    simp only [handler, hadmitted, if_neg hc.method, hmetadata, dispatch,
      if_pos hmode, packetUpload, if_neg (Nat.not_lt_of_le hbody), extractPayloadBytes_eq, hpayload,
      if_neg (Nat.not_lt_of_le hsize)]

theorem download_dispatched (F : Huffman) (fuel : Nat) :
    ∃ request, downloadRequest H F config base sampled session = .ok request ∧
      handler H B F fuel config request = .download session := by
  obtain ⟨url, headers, hrequest, hshows⟩ :=
    request_shows hc hvalid hbase.root hsession.1 hsession.2 F sampled none
  -- a download carries no data
  rw [← Writes.append_none (clientWrites _ _ _ _ _ _)] at hshows
  have hbeside := Beside.none config
  refine ⟨⟨"GET".toList, H.uri url, headers, []⟩, ?_, ?_⟩
  · simp only [downloadRequest, hrequest, bind, Except.bind]
    rfl
  · have hadmitted := admitted_of_shows hc hvalid hbase hsession hsampled hshows hbeside "GET".toList []
    have hmetadata := extractMetadata_of_request hc hvalid hbase hsession hshows hbeside
    have hget : "GET".toList ≠ "OPTIONS".toList := by decide
    simp only [handler, hadmitted, if_neg hget, hmetadata, dispatch, if_true]

end

end

/-- **Agreement.** Client and server share a validated configuration, and the server URL
    has the path `/`, so that the client uses the configured path, which is one the URL
    crate leaves as it is. Then the client has a request base. If on it every name fits
    its place and stands for one thing, then for every session id, every sequence number
    and every payload of at most `max_packet_size` bytes the packet request passes every
    check and is dispatched with exactly these, and the download request is dispatched
    to the download of the same session. -/
theorem client_server_agree (H : Http) (B : Base64) (F : Huffman) (raw config : TransportConfig)
    (hraw : raw.validate H = .ok config) (server : Str) (url : H.Url)
    (hserver : H.parse server = some url) (hslash : H.path url = ['/'])
    (hnormal : H.path (H.setPath url config.path) = config.path) :
    ∃ base, buildRequestBase H server config = .ok base ∧
      ∀ payload session sampled, Compatible H B config base payload →
        (session ≠ [] ∧ ∀ c ∈ session, tokenChar c = true) →
        (config.paddingMin ≤ sampled ∧ sampled ≤ config.paddingMax) →
        (config.mode = .auto ∨ config.mode = .packetUp → payload.length ≤ config.maxPacketSize →
          ∀ sequence fuel, (headerChunks B config payload).length + (cookieChunks B config payload).length < fuel →
            ∃ request, packetRequest H B F config base sampled session sequence payload = .ok request ∧
              handler H B F fuel config request = .packet session sequence payload) ∧
        ∀ fuel, ∃ request, downloadRequest H F config base sampled session = .ok request ∧
          handler H B F fuel config request = .download session := by
  have hvalid := validate_valid hraw
  obtain ⟨base, hok, hbase⟩ := buildRequestBase_baseOf hvalid hserver hslash hnormal
  refine ⟨base, hok, ?_⟩
  intro payload session sampled hc hsession hsampled
  constructor
  · simp_all [packet_dispatched]
  · intro fuel
    exact download_dispatched hc hvalid hbase hsession hsampled F fuel

/-- Host and token set, metadata behind the path, data in cookies. -/
def guarded : TransportConfig :=
  { TransportConfig.default with
    host := some "example.com".toList, token := some "secret".toList, dataPlacement := .cookie }

def rootUrl : Http.Reference.Url := .plain ['/'] (by decide) (by decide)

def guardedBase : RequestBase .reference :=
  ⟨plainUrl, [("authorization", "Bearer secret"), ("host", "example.com")]⟩

theorem guarded_places : places guarded =
    [(.header, "Referer".toList), (.path, "x_session".toList), (.path, "x_seq".toList)] := rfl

theorem guarded_compatible (payload : Bytes) : Compatible .reference .urlSafeNoPad guarded guardedBase payload where
  method := by decide
  root := fun h => absurd h (by decide)
  padding_max := by decide
  host := by
    intro host h
    cases h
    decide
  token := by
    intro token h
    cases h
    decide
  distinct := by decide
  header := by
    intro name h
    rw [guarded_places] at h
    rcases mem_cons.mp h with h | h
    · cases h
      exact ⟨⟨_, rfl⟩, by decide, by decide, by decide⟩
    · simp at h
  cookie := by
    intro key h
    rw [guarded_places] at h
    simp at h
  query := fun _ _ => not_mem_nil
  padding := fun _ => not_mem_nil
  sequence := trivial
  single := nofun
  data_names := nofun
  data_key := fun _ => CookieKey.of_token (by decide)
  data_headers := by
    intro h
    simp [guarded] at h
  data_cookies := by
    intro _ i
    refine ⟨not_mem_nil, ?_⟩
    rw [guarded_places]
    simp

/-- A packet of 1501 bytes in two cookies, with the largest sequence number, and the
    download of the same session. -/
theorem client_server_agree_guarded :
    ∃ base, buildRequestBase .reference "https://example.com/" guarded = .ok base ∧
      (∃ request, packetRequest .reference .urlSafeNoPad .reference guarded base 250 "0a1b"
          18446744073709551615 (List.replicate 1501 42) = .ok request ∧
        handler .reference .urlSafeNoPad .reference 3 guarded request =
          .packet "0a1b" 18446744073709551615 (List.replicate 1501 42)) ∧
      ∃ request, downloadRequest .reference .reference guarded base 250 "0a1b" = .ok request ∧
        handler .reference .urlSafeNoPad .reference 0 guarded request = .download "0a1b" := by
  obtain ⟨base, hok, hagree⟩ := client_server_agree .reference .urlSafeNoPad .reference guarded guarded rfl
    "https://example.com/" rootUrl rfl rfl rfl
  have hbase : buildRequestBase .reference "https://example.com/" guarded = .ok guardedBase := rfl
  cases hok
  have hcount : (cookieChunks .urlSafeNoPad guarded (List.replicate 1501 42)).length = 2 := by
    decide +kernel
  obtain ⟨hpacket, hdownload⟩ := hagree (List.replicate 1501 42) "0a1b" 250 (guarded_compatible _)
    (by decide) (by decide)
  refine ⟨guardedBase, hbase, ?_, hdownload 0⟩
  exact hpacket (Or.inl rfl) (by rw [length_replicate]; decide) 18446744073709551615 3
    (by rw [hcount]; decide)

/-! ## Configurations that do not agree -/

/-- Build a request and give it to the server. -/
def outcomeOf (config : TransportConfig)
    (build : RequestBase .reference → Except Failure (Request .reference)) : Option Outcome :=
  match buildRequestBase .reference "https://example.com/" config with
  | .error _ => none
  | .ok base => (build base).toOption.map (handler .reference .urlSafeNoPad .reference 3 config)

/-- What becomes of the packet of two bytes with number 7 of session `ab`. -/
def packetOutcome (config : TransportConfig) : Option Outcome :=
  outcomeOf config fun base =>
    packetRequest .reference .urlSafeNoPad .reference config base 2 "ab" 7 [1, 2]

/-- What becomes of the download of session `ab`. -/
def downloadOutcome (config : TransportConfig) : Option Outcome :=
  outcomeOf config fun base => downloadRequest .reference .reference config base 2 "ab"

/-- The default with two characters of padding. -/
def short : TransportConfig := { TransportConfig.default with paddingMin := 2, paddingMax := 2 }

/-- A sequence number among the configured headers. -/
def sequenceConfigured : TransportConfig :=
  { short with sequencePlacement := .header, headers := [("x_seq", "5")] }

/-- Configurations with what becomes of their packet. -/
def misdirected : List (TransportConfig × Option Outcome) :=
  [ -- answered before the dispatch
    ({ short with uplinkMethod := "OPTIONS" }, some (.status 200)),
    -- the URL has the path `/a%20b`
    ({ short with path := "/a b" }, some (.status 404)),
    -- nothing but another slash is admitted behind the root
    ({ short with path := ['/'] }, some (.status 404)),
    -- header values that `to_str` does not give back
    ({ short with host := some "ä".toList }, some (.status 404)),
    ({ short with token := some "ä".toList }, some (.status 404)),
    -- `padding_max + 2` overflows
    ({ short with paddingMax := 2 ^ 64 - 1 }, some .panic),
    -- no padding is written under an invalid name
    ({ short with paddingObfs := true, paddingPlacement := .header, paddingHeader := "a b" }, some (.status 404)),
    -- one header for two things
    ({ short with
        sessionPlacement := .header, sessionKey := "x-id", sequencePlacement := .header,
        sequenceKey := "X-Id" }, some (.packet "7" 7 [1, 2])),
    ({ short with sessionPlacement := .header, sessionKey := "Referer" }, some (.status 404)),
    ({ short with
        host := some "h".toList, sessionPlacement := .header, sessionKey := "Host" },
      some (.status 404)),
    ({ short with
        sessionPlacement := .cookie, sequencePlacement := .header, sequenceKey := "Cookie" },
      some (.status 405)),
    -- a cookie that is read under another name, and one that is configured
    ({ short with sessionPlacement := .cookie, sessionKey := "a=b" }, some (.status 405)),
    ({ short with
        sessionPlacement := .cookie, sessionKey := "s",
        headers := [("Cookie", "s=zz")] }, some (.packet "zz" 7 [1, 2])),
    -- padding read from the configured query
    ({ short with paddingMin := 9, paddingMax := 9, query := some "x_padding=1".toList }, some (.status 404)),
    -- a query name with two values
    ({ short with query := some "a=1&a=2".toList }, some (.status 404)),
    ({ short with sessionPlacement := .query, sessionKey := "k", query := some "k=1".toList }, some (.status 404)),
    -- data under a name that is no header name, or that is configured
    ({ short with dataPlacement := .header, dataKey := "a b" }, none),
    ({ short with dataPlacement := .auto, headers := [("X-Data-0", "!")] }, some (.status 400)) ]

/-- Every one of these configurations is validated, and none gets its packet through;
    the last one gets a packet where a download was asked for. -/
theorem requests_misdirected :
    (∀ case ∈ misdirected, (case.1.validate .reference).toOption = some case.1 ∧
      packetOutcome case.1 = case.2 ∧ case.2 ≠ some (.packet "ab" 7 [1, 2])) ∧
    (sequenceConfigured.validate .reference).toOption = some sequenceConfigured ∧
    downloadOutcome sequenceConfigured = some (.packet "ab" 5 []) := by
  decide +kernel

end Xhttp
