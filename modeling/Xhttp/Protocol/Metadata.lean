import Xhttp.Http.Reference
import Xhttp.Protocol.Writes

/- Session id and sequence number of a request (`src/protocol.rs`): the client puts
   each where the configuration says, the server reads it back from there. The
   sixteen combinations of places are one argument: what was written at a place is a
   list of values (`Writes.values`), and a place that holds exactly one value is read
   as that value. -/
namespace Xhttp.Protocol
open Lib List Checked

def applyValue (H : Http) (placement : Placement) (key value : Str) (url : H.Url)
    (headers : H.HeaderMap) : Except Failure (H.Url × H.HeaderMap) :=
  match placement with
  | .path => .ok (H.setPath url ((H.path url).trimEndMatches '/' ++ '/' :: value), headers)
  | .query => .ok (H.appendPair url key value, headers)
  | .header => do
    let n ← okOr (H.headerName key) invalidName
    let v ← okOr (H.headerValue value) invalidValue
    pure (url, H.insert headers n v)
  | .cookie => do
    let headers ← appendCookie H headers key value
    pure (url, headers)
  | _ => .error (.message "invalid metadata placement")

def applyMetadata (H : Http) (config : TransportConfig) (url : H.Url) (headers : H.HeaderMap)
    (session : Option Str) (sequence : Option UInt64) : Except Failure (H.Url × H.HeaderMap) := do
  let (url, headers) ← match session with
    | some value => applyValue H config.sessionPlacement config.sessionKey value url headers
    | none => pure (url, headers)
  match sequence with
  | some value =>
    applyValue H config.sequencePlacement config.sequenceKey (Str.decimal value.toNat) url headers
  | none => pure (url, headers)

def queryValue (H : Http) (uri : Uri) (key : Str) : Option Str :=
  match uri.query with
  | none => none
  | some query =>
    (H.formParse query).foldl (fun found nv => if nv.1 = key then some nv.2 else found) none

/-- The closure `read` of `extract_metadata`; the state of the iterator `path_values`
    is the list of the segments it has not given out. -/
def readValue (H : Http) (uri : Uri) (headers : H.HeaderMap) (pathValues : List Str)
    (placement : Placement) (key : Str) : Option Str × List Str :=
  match placement with
  | .path => (pathValues.head?, pathValues.tail)
  | .query => (queryValue H uri key, pathValues)
  | .header => (H.getStr headers key, pathValues)
  | .cookie => (cookieValue H headers key, pathValues)
  | _ => (none, pathValues)

/-- The segments of the path behind the configured one. -/
def pathValues (base path : Str) : List Str :=
  let suffix := (Str.stripPrefix base path).getD []
  ((suffix.trimMatches '/').split '/').filter (· ≠ [])

def extractMetadata (H : Http) (config : TransportConfig) (uri : Uri) (headers : H.HeaderMap) :
    Option Str × Option UInt64 :=
  let values := pathValues config.path uri.path
  let (session, values) := readValue H uri headers values config.sessionPlacement config.sessionKey
  let (sequence, _) := readValue H uri headers values config.sequencePlacement config.sequenceKey
  (session, sequence.bind Str.parseU64)

/-! ## The path -/

variable {segments : List Str} {base : Str} {placement : Placement} {H : Http} {w : Writes}
  {sequence : Option UInt64} {r : H.Url × H.HeaderMap}

theorem joinPath_eq (hne : segments ≠ []) (hs : ∀ s ∈ segments, s ≠ [] ∧ '/' ∉ s) :
    joinPath base segments = base.trimEndMatches '/' ++ segments.flatMap ('/' :: ·) := by
  induction segments generalizing base with
  | nil => exact absurd rfl hne
  | cons s rest ih =>
    obtain ⟨hsne, hslash⟩ := hs s mem_cons_self
    show joinPath (base.trimEndMatches '/' ++ '/' :: s) rest = _
    cases rest with
    | nil => simp [joinPath]
    | cons t rest =>
      have htrim : Str.trimEndMatches '/' (base.trimEndMatches '/' ++ '/' :: s) =
          base.trimEndMatches '/' ++ '/' :: s := by
        rw [show base.trimEndMatches '/' ++ '/' :: s = (base.trimEndMatches '/' ++ ['/']) ++ s by simp]
        exact Str.trimEndMatches_append _ hsne hslash
      simp_all

theorem fields_flatMap_slash (hs : ∀ s ∈ segments, s ≠ [] ∧ '/' ∉ s) :
    Str.fields '/' (segments.flatMap ('/' :: ·)) = segments := by
  induction segments with
  | nil => rfl
  | cons s rest ih =>
    obtain ⟨hsne, hslash⟩ := hs s mem_cons_self
    have hrest := ih (fun x hx => hs x (mem_cons_of_mem s hx))
    show Str.fields '/' ('/' :: s ++ rest.flatMap ('/' :: ·)) = s :: rest
    cases rest with
    | nil => simp [Str.fields_of_notMem hslash hsne]
    | cons t rest =>
      rw [flatMap_cons] at hrest ⊢
      rw [cons_append, Str.fields_cons_self] at hrest ⊢
      rw [cons_append, Str.fields_append_cons, Str.fields_of_notMem hslash hsne, hrest]
      rfl

/-- Where the base path is the configured one and a slash, what was put behind it comes
    out again. The root path needs no further slash. -/
theorem pathValues_joinPath {path : Str} (hpath : path = ['/'] ∨ path.endsWith '/' = false)
    (hbase : base = path ++ ['/'] ∨ path = ['/'] ∧ base = ['/']) (hs : ∀ s ∈ segments, s ≠ [] ∧ '/' ∉ s) :
    pathValues path (joinPath base segments) = segments := by
  show Str.fields '/' (Str.trimMatches '/' ((Str.stripPrefix path (joinPath base segments)).getD [])) =
    segments
  rw [Str.fields_trimMatches]
  by_cases hne : segments = []
  · -- nothing behind the base path
    subst hne
    rcases hbase with rfl | ⟨rfl, rfl⟩
    · show Str.fields '/' ((Str.stripPrefix path (path ++ ['/'])).getD []) = []
      rw [Str.stripPrefix_append]
      rfl
    · rfl
  rw [joinPath_eq hne hs]
  rcases hpath with rfl | hend
  · -- the root: stripping it takes the slash of the first segment
    have htrim : base.trimEndMatches '/' = [] := by
      rcases hbase with rfl | ⟨-, rfl⟩ <;> rfl
    rw [htrim, nil_append]
    obtain ⟨s, rest, rfl⟩ := exists_cons_of_ne_nil hne
    have hfields := fields_flatMap_slash hs
    exact hfields
  grind [Str.trimEndMatches_append_self, Str.trimEndMatches_of_endsWith_eq_false, Str.stripPrefix_append,
    fields_flatMap_slash]

/-! ## Writing -/

/-- The one value `apply_value` writes. -/
def valueWrites (placement : Placement) (key value : Str) : Writes :=
  match placement with
  | .path => ⟨[value], [], [], []⟩
  | .query => ⟨[], [(key, value)], [], []⟩
  | .header => ⟨[], [], [(key, value)], []⟩
  | .cookie => ⟨[], [], [], [(key, value)]⟩
  | _ => Writes.none

/-- The key can be told apart at the place: as a header it is not `Cookie`, and as a
    cookie it is a key that a cookie can carry. -/
structure Fits (placement : Placement) (key : Str) : Prop where
  header : placement = .header → key.toAsciiLowercase ≠ "cookie"
  cookie : placement = .cookie → CookieKey key

/-- A key placed in a header is a header name. -/
def Named (H : Http) (placement : Placement) (key : Str) : Prop :=
  placement = .header → ∃ n, H.headerName key = some n

theorem applyValue_shows {url₀ url : H.Url} {headers₀ headers : H.HeaderMap}
    (h : Shows H url₀ headers₀ w url headers) {key value : Str}
    (hp : placement.ofMetadata = true) (hk : Fits placement key) (hname : Named H placement key)
    (hne : value ≠ []) (hv : ∀ c ∈ value, tokenChar c = true) :
    ∃ url' headers', applyValue H placement key value url headers = .ok (url', headers') ∧
      Shows H url₀ headers₀ (w ++ valueWrites placement key value) url' headers' := by
  cases placement with
  | path => exact ⟨_, _, rfl, h.segment hne hv⟩
  | query => exact ⟨_, _, rfl, h.pair key value⟩
  | header =>
    obtain ⟨n, hn⟩ := hname rfl
    obtain ⟨v, hval, hstr⟩ := H.headerValue_visible fun c hc => visible_of_tokenChar (hv c hc)
    refine ⟨url, H.insert headers n v, ?_, h.carry (h.toCarries.insert hn hstr (hk.header rfl))⟩
    simp only [applyValue, hn, hval, okOr]
    rfl
  | cookie =>
    obtain ⟨headers', hok, hcarries⟩ := h.toCarries.appendCookie (hk.cookie rfl) hv
    refine ⟨url, headers', ?_, h.carry hcarries⟩
    simp only [applyValue, hok]
    rfl
  | _ => cases hp

/-- The decimal digits of the sequence number, if there is one. -/
def sequenceValue (sequence : Option UInt64) : List Str :=
  sequence.toList.map fun n => Str.decimal n.toNat

def sequenceWrites (config : TransportConfig) : Option UInt64 → Writes
  | some n => valueWrites config.sequencePlacement config.sequenceKey (Str.decimal n.toNat)
  | none => Writes.none

def metadataWrites (config : TransportConfig) (session : Str) (sequence : Option UInt64) : Writes :=
  valueWrites config.sessionPlacement config.sessionKey session ++ sequenceWrites config sequence

theorem tokenChar_of_mem_decimal {n : Nat} : ∀ c ∈ Str.decimal n, tokenChar c = true :=
  fun _ hc => tokenChar_of_isDigit (Str.isDigit_of_mem_decimal hc)

theorem applyMetadata_shows {url₀ url : H.Url} {headers₀ headers : H.HeaderMap}
    (h : Shows H url₀ headers₀ w url headers) {config : TransportConfig}
    (hsp : config.sessionPlacement.ofMetadata = true) (hqp : config.sequencePlacement.ofMetadata = true)
    (hsk : Fits config.sessionPlacement config.sessionKey) (hqk : Fits config.sequencePlacement config.sequenceKey)
    (hsname : Named H config.sessionPlacement config.sessionKey) {session : Str} (hne : session ≠ [])
    (hv : ∀ c ∈ session, tokenChar c = true) (sequence : Option UInt64)
    (hqname : sequence ≠ none → Named H config.sequencePlacement config.sequenceKey) :
    ∃ url' headers', applyMetadata H config url headers (some session) sequence = .ok (url', headers') ∧
      Shows H url₀ headers₀ (w ++ metadataWrites config session sequence) url' headers' := by
  obtain ⟨url₁, headers₁, hok₁, hshows₁⟩ := applyValue_shows h hsp hsk hsname hne hv
  cases sequence with
  | none =>
    simp_all [applyMetadata, metadataWrites, sequenceWrites, Writes.append_none]
  | some n =>
    obtain ⟨url₂, headers₂, hok₂, hshows₂⟩ := applyValue_shows hshows₁ hqp hqk (hqname nofun)
      (Str.decimal_ne_nil n.toNat) tokenChar_of_mem_decimal
    refine ⟨url₂, headers₂, ?_, ?_⟩
    · simp only [applyMetadata, hok₁]
      exact hok₂
    · rw [metadataWrites, ← Writes.append_assoc]
      exact hshows₂

/-! ## Reading -/

def Absent (H : Http) (url : H.Url) (headers : H.HeaderMap) (placement : Placement) (key : Str) : Prop :=
  match placement with
  | .query => key ∉ (H.pairs url).map Prod.fst
  | .header => H.getStr headers key = none
  | .cookie => key ∉ (cookies H headers).map Prod.fst
  | _ => True

theorem foldl_last (key : Str) (l : List (Str × Str)) (found : Option Str) :
    l.foldl (fun found nv => if nv.1 = key then some nv.2 else found) found = (valuesOf key l).getLast?.or found := by
  induction l generalizing found with
  | nil => rfl
  | cons nv l ih =>
    obtain ⟨name, value⟩ := nv
    rw [foldl_cons, ih, valuesOf_cons]
    by_cases h : name = key
    · rw [if_pos h, if_pos h, getLast?_cons]
      cases (valuesOf key l).getLast? <;> rfl
    · rw [if_neg h, if_neg h]

theorem queryValue_eq (H : Http) (url : H.Url) (key : Str) :
    queryValue H (H.uri url) key = (valuesOf key (H.pairs url)).getLast? := by
  unfold queryValue Http.pairs Http.uri
  cases H.query url with
  | none => rfl
  | some q =>
    simp [foldl_last, Option.or_none]

/-- A place where at most one value was written is read as that value. The last header
    and the last pair of a name count, so only what is not written has to be absent
    before; of cookies the first counts. -/
theorem Shows.readValue {url₀ url : H.Url} {headers₀ headers : H.HeaderMap}
    (h : Shows H url₀ headers₀ w url headers) {key : Str}
    (hp : placement.ofMetadata = true) (hpath : placement ≠ .path) (hk : Fits placement key) (value : Option Str)
    (habsent : value = none ∨ placement = .cookie → Absent H url₀ headers₀ placement key)
    (hw : w.values placement key = value.toList) (segments : List Str) :
    Protocol.readValue H (H.uri url) headers segments placement key = (value, segments) := by
  cases placement with
  | path => exact absurd rfl hpath
  | query =>
    simp only [Writes.values] at hw
    simp only [Protocol.readValue, queryValue_eq, h.pairs, valuesOf_append, hw]
    cases value with
    | none => rw [valuesOf_eq_nil (habsent (Or.inl rfl))]; rfl
    | some v => simp
  | header =>
    simp only [Writes.values] at hw
    simp only [Protocol.readValue, h.header key (hk.header rfl), hw]
    cases value with
    | none =>
      have hnone : H.getStr headers₀ key = none := habsent (Or.inl rfl)
      rw [hnone]
      rfl
    | some v => rfl
  | cookie =>
    simp only [Writes.values] at hw
    simp only [Protocol.readValue, cookieValue_eq, lookup_eq_head?, h.cookies, valuesOf_append,
      valuesOf_eq_nil (habsent (Or.inr rfl)), nil_append, hw, Option.head?_toList]
  | _ => cases hp

/-! ## Round trip -/

/-- Two keys name the same place. -/
def SameKey (placement : Placement) (a b : Str) : Prop :=
  if placement = .header then a.toAsciiLowercase = b.toAsciiLowercase else a = b

instance (placement : Placement) (a b : Str) : Decidable (SameKey placement a b) := by
  unfold SameKey
  infer_instance

theorem valueWrites_self (hp : placement.ofMetadata = true) (key value : Str) :
    (valueWrites placement key value).values placement key = [value] := by
  cases placement with
  | path => rfl
  | query | cookie => simp [valueWrites, Writes.values, valuesOf_cons]
  | header => simp [valueWrites, Writes.values, headersOf_singleton]
  | _ => cases hp

theorem valueWrites_other {p p' : Placement} {key key' : Str} (value : Str)
    (h : p = p' → p ≠ .path ∧ ¬ SameKey p key key') : (valueWrites p key value).values p' key' = [] := by
  by_cases hp : p = p'
  · obtain ⟨hpath, hkey⟩ := h hp
    subst hp
    cases p with
    | path => exact absurd rfl hpath
    | query | cookie =>
      have hk : ¬ key = key' := hkey
      simp [valueWrites, Writes.values, valuesOf_cons, hk]
    | header =>
      have hk : ¬ key.toAsciiLowercase = key'.toAsciiLowercase := hkey
      simp [valueWrites, Writes.values, headersOf_singleton, hk]
    | _ => rfl
  · cases p <;> cases p' <;> first | rfl | exact absurd rfl hp

@[simp] theorem none_values (placement : Placement) (key : Str) : Writes.none.values placement key = [] := by
  cases placement <;> rfl

theorem sequenceWrites_self {config : TransportConfig} (hqp : config.sequencePlacement.ofMetadata = true)
    (sequence : Option UInt64) : (sequenceWrites config sequence).values config.sequencePlacement config.sequenceKey =
      sequenceValue sequence := by
  cases sequence with
  | none => exact none_values _ _
  | some n => exact valueWrites_self hqp _ _

theorem sequenceWrites_other {config : TransportConfig} {p : Placement} {key : Str} (sequence : Option UInt64)
    (h : config.sequencePlacement = p →
      config.sequencePlacement ≠ .path ∧ ¬ SameKey config.sequencePlacement config.sequenceKey key) :
    (sequenceWrites config sequence).values p key = [] := by
  cases sequence with
  | none => exact none_values _ _
  | some n => exact valueWrites_other _ h

theorem SameKey.symm {a b : Str} (h : SameKey placement a b) : SameKey placement b a := by
  unfold SameKey at h ⊢
  grind

/-- Session and sequence number do not share a place. A path has room for both. -/
def Apart (config : TransportConfig) : Prop :=
  config.sessionPlacement = config.sequencePlacement → config.sessionPlacement ≠ .path →
    ¬ SameKey config.sessionPlacement config.sessionKey config.sequenceKey

theorem metadataWrites_session {config : TransportConfig} (hsp : config.sessionPlacement.ofMetadata = true)
    (hpath : config.sessionPlacement ≠ .path) (hapart : Apart config) (session : Str) (sequence : Option UInt64) :
    (metadataWrites config session sequence).values config.sessionPlacement config.sessionKey = [session] := by
  rw [metadataWrites, Writes.values_append, valueWrites_self hsp, sequenceWrites_other, append_nil]
  intro heq
  refine ⟨heq ▸ hpath, fun hsame => hapart heq.symm hpath ?_⟩
  exact (heq ▸ hsame).symm

theorem metadataWrites_sequence {config : TransportConfig}
    (hqp : config.sequencePlacement.ofMetadata = true) (hpath : config.sequencePlacement ≠ .path)
    (hapart : Apart config) (session : Str) (sequence : Option UInt64) :
    (metadataWrites config session sequence).values config.sequencePlacement config.sequenceKey =
      sequenceValue sequence := by
  rw [metadataWrites, Writes.values_append, sequenceWrites_self hqp, valueWrites_other, nil_append]
  intro heq
  exact ⟨heq ▸ hpath, hapart heq (heq ▸ hpath)⟩

theorem metadataWrites_segments (config : TransportConfig) (session : Str) (sequence : Option UInt64) :
    (metadataWrites config session sequence).segments = (if config.sessionPlacement = .path then [session] else []) ++
        if config.sequencePlacement = .path then sequenceValue sequence else [] := by
  rw [metadataWrites, Writes.append_segments]
  congr 1
  · cases config.sessionPlacement <;> rfl
  · cases sequence with
    | none => split <;> rfl
    | some n =>
      simp only [sequenceWrites]
      cases config.sequencePlacement <;> rfl

/-- Every segment can be told apart in the path, and there are some only where session
    or sequence number are placed there. -/
theorem mem_metadataWrites_segments {config : TransportConfig} {session s : Str} (hne : session ≠ [])
    (hv : ∀ c ∈ session, tokenChar c = true) (hs : s ∈ (metadataWrites config session sequence).segments) :
    (s ≠ [] ∧ '/' ∉ s) ∧ (config.sessionPlacement = .path ∨ config.sequencePlacement = .path) := by
  rw [metadataWrites_segments, mem_append] at hs
  rcases hs with hs | hs
  · split at hs
    · next hp =>
      rw [mem_singleton.mp hs]
      exact ⟨⟨hne, notMem_of_tokenChars hv (by decide)⟩, Or.inl hp⟩
    · cases hs
  · split at hs
    · next hp =>
      obtain ⟨n, -, rfl⟩ := mem_map.mp hs
      exact ⟨⟨Str.decimal_ne_nil _, notMem_of_tokenChars tokenChar_of_mem_decimal (by decide)⟩, Or.inr hp⟩
    · cases hs

section

variable {H : Http} {url₀ url : H.Url} {headers₀ headers : H.HeaderMap} {before after : Writes}
  {config : TransportConfig} {session : Str}

theorem readValue_session
    (h : Shows H url₀ headers₀ (before ++ metadataWrites config session sequence ++ after) url headers)
    (hsp : config.sessionPlacement.ofMetadata = true) (hp : config.sessionPlacement ≠ .path)
    (hsk : Fits config.sessionPlacement config.sessionKey) (hapart : Apart config)
    (hsabsent : config.sessionPlacement = .cookie →
      Absent H url₀ headers₀ config.sessionPlacement config.sessionKey)
    (hb : before.values config.sessionPlacement config.sessionKey = [])
    (ha : after.values config.sessionPlacement config.sessionKey = []) (segments : List Str) :
    readValue H (H.uri url) headers segments config.sessionPlacement config.sessionKey = (some session, segments) := by
  apply h.readValue hsp hp hsk
  · rintro (hnone | hcookie)
    · cases hnone
    · exact hsabsent hcookie
  simp_all [Writes.values_append, nil_append, append_nil, metadataWrites_session]

theorem sequenceValue_eq (sequence : Option UInt64) :
    sequenceValue sequence = (sequence.map fun n => Str.decimal n.toNat).toList := by
  cases sequence <;> rfl

section
variable (h : Shows H url₀ headers₀ (before ++ metadataWrites config session sequence ++ after) url headers)
include h

theorem readValue_sequence
    (hqp : config.sequencePlacement.ofMetadata = true) (hp : config.sequencePlacement ≠ .path)
    (hqk : Fits config.sequencePlacement config.sequenceKey) (hapart : Apart config)
    (hqabsent : sequence = none ∨ config.sequencePlacement = .cookie →
      Absent H url₀ headers₀ config.sequencePlacement config.sequenceKey)
    (hb : before.values config.sequencePlacement config.sequenceKey = [])
    (ha : after.values config.sequencePlacement config.sequenceKey = []) (segments : List Str) :
    readValue H (H.uri url) headers segments config.sequencePlacement config.sequenceKey =
      (sequence.map fun n => Str.decimal n.toNat, segments) := by
  apply h.readValue hqp hp hqk
  · rw [Option.map_eq_none_iff]
    exact hqabsent
  simp only [Writes.values_append, hb, ha, nil_append, append_nil]
  rw [metadataWrites_sequence hqp hp hapart, sequenceValue_eq]

/-- What is behind the configured path, if nothing but the metadata was appended there. -/
theorem pathValues_of_shows
    (hpath : config.path = ['/'] ∨ config.path.endsWith '/' = false)
    (hbase : H.path url₀ = config.path ++ ['/'] ∨ config.path = ['/'] ∧ H.path url₀ = ['/'])
    (hb : before.segments = []) (ha : after.segments = [])
    (hne : session ≠ []) (hv : ∀ c ∈ session, tokenChar c = true) :
    pathValues config.path (H.path url) = (metadataWrites config session sequence).segments := by
  rw [h.path, Writes.append_segments, Writes.append_segments, hb, ha, nil_append, append_nil]
  apply pathValues_joinPath hpath hbase
  intro s hs
  exact (mem_metadataWrites_segments hne hv hs).1

end

theorem parse_sequence (sequence : Option UInt64) :
    (sequence.map fun n => Str.decimal n.toNat).bind Str.parseU64 = sequence := by
  cases sequence with
  | none => rfl
  | some n => exact Str.parseU64_decimal n

theorem parse_segment (sequence : Option UInt64) : (sequenceValue sequence).head?.bind Str.parseU64 = sequence := by
  rw [sequenceValue_eq, Option.head?_toList, parse_sequence]

/-- The server reads back the session and the sequence number a client wrote, whatever
    else (`before`, `after`) was written at other places. -/
theorem extractMetadata_of_shows
    (h : Shows H url₀ headers₀ (before ++ metadataWrites config session sequence ++ after) url headers)
    (hpath : config.path = ['/'] ∨ config.path.endsWith '/' = false)
    (hbase : H.path url₀ = config.path ++ ['/'] ∨ config.path = ['/'] ∧ H.path url₀ = ['/'])
    (hsp : config.sessionPlacement.ofMetadata = true) (hqp : config.sequencePlacement.ofMetadata = true)
    (hsk : Fits config.sessionPlacement config.sessionKey)
    (hqk : Fits config.sequencePlacement config.sequenceKey) (hapart : Apart config)
    (hsabsent : config.sessionPlacement = .cookie →
      Absent H url₀ headers₀ config.sessionPlacement config.sessionKey)
    (hqabsent : sequence = none ∨ config.sequencePlacement = .cookie →
      Absent H url₀ headers₀ config.sequencePlacement config.sequenceKey)
    (hsclear : (before ++ after).values config.sessionPlacement config.sessionKey = [])
    (hqclear : (before ++ after).values config.sequencePlacement config.sequenceKey = [])
    (hne : session ≠ []) (hv : ∀ c ∈ session, tokenChar c = true) :
    extractMetadata H config (H.uri url) headers = (some session, sequence) := by
  rw [Writes.values_append, append_eq_nil_iff] at hsclear hqclear
  have hsequence := fun hp => readValue_sequence h hqp hp hqk hapart hqabsent hqclear.1 hqclear.2
  -- the iterator gives out the session first, the sequence number is read from what is left
  show ((readValue H (H.uri url) headers (pathValues config.path (H.path url)) _ _).1,
    (readValue H (H.uri url) headers (readValue H (H.uri url) headers
      (pathValues config.path (H.path url)) _ _).2 _ _).1.bind Str.parseU64) = _
  by_cases hs : config.sessionPlacement = .path
  · -- the session is the first segment, and the second is left for the sequence number
    rw [hs] at hsclear
    rw [pathValues_of_shows h hpath hbase hsclear.1 hsclear.2 hne hv, metadataWrites_segments, if_pos hs, hs]
    show (some session, (readValue H (H.uri url) headers _ _ _).1.bind Str.parseU64) = _
    by_cases hq : config.sequencePlacement = .path
    · rw [if_pos hq, hq]
      show (some session, (sequenceValue sequence).head?.bind Str.parseU64) = _
      rw [parse_segment]
    · rw [hsequence hq, parse_sequence]
  · rw [readValue_session h hsp hs hsk hapart hsabsent hsclear.1 hsclear.2]
    by_cases hq : config.sequencePlacement = .path
    · rw [hq] at hqclear
      rw [pathValues_of_shows h hpath hbase hqclear.1 hqclear.2 hne hv, metadataWrites_segments,
        if_neg hs, if_pos hq, hq]
      show (some session, (sequenceValue sequence).head?.bind Str.parseU64) = _
      rw [parse_segment]
    · rw [hsequence hq, parse_sequence]

end

theorem named_of_applyValue {key value : Str} {url : H.Url} {headers : H.HeaderMap}
    (h : applyValue H placement key value url headers = .ok r) : Named H placement key := by
  rintro rfl
  obtain ⟨n, hn, -⟩ := bind_ok_iff.mp h
  exact ⟨n, okOr_ok_iff.mp hn⟩

theorem named_of_applyMetadata {config : TransportConfig} {url : H.Url}
    {headers : H.HeaderMap} {session : Str}
    (h : applyMetadata H config url headers (some session) sequence = .ok r) :
    Named H config.sessionPlacement config.sessionKey ∧
      (sequence ≠ none → Named H config.sequencePlacement config.sequenceKey) := by
  obtain ⟨⟨url₁, headers₁⟩, h₁, h₂⟩ := bind_ok_iff.mp h
  grind [named_of_applyValue]

/-- A token that is not the name of the `Cookie` header fits every place. -/
theorem Fits.of_token {key : Str} (h : ∀ c ∈ key, tokenChar c = true)
    (hcookie : placement = .header → key.toAsciiLowercase ≠ "cookie") : Fits placement key where
  header := hcookie
  cookie := fun _ => CookieKey.of_token fun c hc => tchar_of_tokenChar (h c hc)

/-- **Metadata round trip.** For every two places among path, query, header and
    cookie, every session id and every optional sequence number, under keys that are
    distinct tokens nothing else in the request uses: what `apply_metadata` produces
    from a URL whose path is the configured one and a slash is read by
    `extract_metadata` as exactly that session and sequence number. It produces
    something unless a key is too long for a header name. -/
theorem metadata_round_trip (H : Http) (config : TransportConfig) (url : H.Url) (headers : H.HeaderMap)
    (session : Str) (sequence : Option UInt64)
    (hpath : config.path.head? = some '/' ∧ (config.path = ['/'] ∨ config.path.endsWith '/' = false))
    (hurl : H.path url = config.path ++ ['/'])
    (hplaces : config.sessionPlacement.ofMetadata = true ∧ config.sequencePlacement.ofMetadata = true)
    (hsession : session ≠ [] ∧ ∀ c ∈ session, tokenChar c = true)
    (htokens : ∀ key ∈ [config.sessionKey, config.sequenceKey], key ≠ [] ∧ ∀ c ∈ key, tokenChar c = true)
    (hdistinct : Apart config)
    (hcookie : (config.sessionPlacement = .header →
        config.sessionKey.toAsciiLowercase ≠ "cookie") ∧
      (config.sequencePlacement = .header → config.sequenceKey.toAsciiLowercase ≠ "cookie"))
    (habsent : Absent H url headers config.sessionPlacement config.sessionKey ∧
      Absent H url headers config.sequencePlacement config.sequenceKey) :
    (∀ url' headers', applyMetadata H config url headers (some session) sequence = .ok (url', headers') →
      extractMetadata H config (H.uri url') headers' = (some session, sequence)) ∧
    (config.sessionKey.length ≤ 65535 → config.sequenceKey.length ≤ 65535 →
      ∃ url' headers', applyMetadata H config url headers (some session) sequence =
        .ok (url', headers')) := by
  obtain ⟨hsne, hsv⟩ := hsession
  obtain ⟨hskne, hskt⟩ := htokens config.sessionKey (by simp)
  obtain ⟨hqkne, hqkt⟩ := htokens config.sequenceKey (by simp)
  have hsk : Fits config.sessionPlacement config.sessionKey := Fits.of_token hskt hcookie.1
  have hqk : Fits config.sequencePlacement config.sequenceKey := Fits.of_token hqkt hcookie.2
  have hroot : (H.path url).head? = some '/' := by
    rw [hurl, head?_append, hpath.1]
    rfl
  have hstart : Shows H url headers Writes.none url headers := Shows.refl hroot
  constructor
  · intro url' headers' hok
    obtain ⟨hsname, hqname⟩ := named_of_applyMetadata hok
    obtain ⟨url₁, headers₁, hok₁, hshows⟩ :=
      applyMetadata_shows hstart hplaces.1 hplaces.2 hsk hqk hsname hsne hsv sequence hqname
    rw [hok] at hok₁
    cases hok₁
    -- nothing was written before or after
    rw [← Writes.append_none (Writes.none ++ _)] at hshows
    exact extractMetadata_of_shows hshows hpath.2 (Or.inl hurl) hplaces.1 hplaces.2 hsk hqk hdistinct
      (fun _ => habsent.1) (fun _ => habsent.2) (by simp) (by simp) hsne hsv
  · intro hslen hqlen
    obtain ⟨url', headers', hok, -⟩ := applyMetadata_shows hstart hplaces.1 hplaces.2 hsk hqk
      (fun _ => H.headerName_token hskne (fun c hc => tchar_of_tokenChar (hskt c hc)) hslen)
      hsne hsv sequence
      (fun _ _ => H.headerName_token hqkne (fun c hc => tchar_of_tokenChar (hqkt c hc)) hqlen)
    exact ⟨url', headers', hok⟩

def cookieThenPath : TransportConfig :=
  { TransportConfig.default with sessionPlacement := .cookie }

def plainUrl : Http.Reference.Url := .plain "/xhttp/" (by decide) (by decide)

def startUrl : Http.Reference.Url := plainUrl.appendPair "lang" "en"

def startHeaders : Http.Reference.HeaderMap := [("cookie", "a=1; b=2")]

/-- A session id in a cookie behind two others and the largest sequence number in the
    path are read back. -/
theorem metadata_round_trip_cookie_path :
    ∃ url' headers', applyMetadata .reference cookieThenPath startUrl startHeaders
        (some "session-a".toList) (some 18446744073709551615) = .ok (url', headers') ∧
      extractMetadata .reference cookieThenPath (Http.reference.uri url') headers' =
        (some "session-a".toList, some 18446744073709551615) := by
  obtain ⟨hread, hwrite⟩ := metadata_round_trip .reference cookieThenPath startUrl startHeaders
    "session-a" (some 18446744073709551615) ⟨by decide, Or.inr (by decide)⟩ (by decide)
    ⟨by decide, by decide⟩ (by decide) (by decide) nofun ⟨by decide, by decide⟩
    ⟨(by decide : "x_session".toList ∉ (cookies .reference startHeaders).map Prod.fst), trivial⟩
  obtain ⟨url', headers', hok⟩ := hwrite (by decide) (by decide)
  exact ⟨url', headers', hok, hread url' headers' hok⟩

end Xhttp.Protocol
