import Xhttp.Protocol.Huffman
import Xhttp.Protocol.Metadata

/- Padding (`src/protocol.rs`): the client puts a value of a random length into a
   header, a cookie, the query or the query of a `Referer`, and the server only goes
   on with a request whose padding has a length in the configured range. Metadata is
   written after the padding, so the value has to survive that. -/
namespace Xhttp.Protocol
open Lib List Checked

/-- The triple `(placement, key, header)` both functions start with. -/
structure PaddingAt where
  placement : Placement
  key : Str
  header : Str

def paddingAt (config : TransportConfig) : PaddingAt :=
  if config.paddingObfs then ⟨config.paddingPlacement, config.paddingKey, config.paddingHeader⟩
  else ⟨.queryInHeader, "x_padding", "Referer"⟩

/-- The range is not sampled when it has one element. -/
def paddingLength (config : TransportConfig) (sampled : Nat) : Nat :=
  if config.paddingMin = config.paddingMax then config.paddingMin else sampled

/-- `headers.insert(name, value)`, if both are accepted. -/
def insertIfValid (H : Http) (headers : H.HeaderMap) (header value : Str) : H.HeaderMap :=
  match H.headerName header, H.headerValue value with
  | some n, some v => H.insert headers n v
  | _, _ => headers

def putPadding (H : Http) (value : Str) (url : H.Url) (headers : H.HeaderMap) : PaddingAt → H.Url × H.HeaderMap
  | ⟨.header, _, header⟩ => (url, insertIfValid H headers header value)
  | ⟨.cookie, key, _⟩ =>
    match appendCookie H headers key value with
    | .ok headers => (url, headers)
    | .error _ => (url, headers)
  | ⟨.query, key, _⟩ => (H.appendPair url key value, headers)
  | ⟨.queryInHeader, key, header⟩ =>
    (url, insertIfValid H headers header (H.asStr (H.appendPair url key value)))
  | _ => (url, headers)

def applyPadding (H : Http) (F : Huffman) (config : TransportConfig) (sampled : Nat) (url : H.Url)
    (headers : H.HeaderMap) : H.Url × H.HeaderMap :=
  putPadding H (paddingValue F config.paddingMethod (paddingLength config sampled)) url headers
    (paddingAt config)

def readPadding (H : Http) (uri : Uri) (headers : H.HeaderMap) : PaddingAt → Option Str
  | ⟨.header, _, header⟩ => H.getStr headers header
  | ⟨.cookie, key, _⟩ => cookieValue H headers key
  | ⟨.query, key, _⟩ => uri.query.bind fun q => (H.formParse q).lookup key
  | ⟨.queryInHeader, key, header⟩ =>
    (H.getStr headers header).bind fun s => (H.parse s).bind fun u => (H.pairs u).lookup key
  | _ => none

/-- Addition of `usize`. -/
def usizeAdd (a b : Nat) : Except Failure Nat := if a + b < 2 ^ 64 then .ok (a + b) else .error .panic

def validPadding (H : Http) (F : Huffman) (config : TransportConfig) (uri : Uri) (headers : H.HeaderMap) :
    Except Failure Bool :=
  match readPadding H uri headers (paddingAt config) with
  | none => .ok false
  | some value => do
    let length := paddedLength F config.paddingMethod value
    if (← usizeAdd length 2) < config.paddingMin then return false
    return length ≤ (← usizeAdd config.paddingMax 2)

/-! ## Writing and reading -/

variable {H : Http} {l : List (Str × Str)}

theorem insertIfValid_eq (headers : H.HeaderMap) {header value : Str} {n : H.HeaderName}
    (hn : H.headerName header = some n) (hv : ∀ c ∈ value, visible c = true) :
    H.getStr (insertIfValid H headers header value) header = some value := by
  obtain ⟨v, hval, hstr⟩ := H.headerValue_visible hv
  rw [insertIfValid, hn, hval]
  exact H.getStr_insert_self headers hn hstr

theorem lookup_append_fresh {key value : Str} (h : key ∉ l.map Prod.fst) :
    (l ++ [(key, value)]).lookup key = some value := by
  rw [lookup_eq_head?, valuesOf_append, valuesOf_eq_nil h, valuesOf_cons, if_pos rfl]
  rfl

theorem lookup_append_some {key value : Str} (h : l.lookup key = some value)
    (more : List (Str × Str)) : (l ++ more).lookup key = some value := by
  rw [lookup_eq_head?] at h ⊢
  rw [valuesOf_append, head?_append, h]
  rfl

/-- The query as `valid_padding` reads it. -/
theorem query_lookup (H : Http) (url : H.Url) (key : Str) :
    ((H.uri url).query.bind fun q => (H.formParse q).lookup key) = (H.pairs url).lookup key := by
  unfold Http.uri Http.pairs
  cases H.query url <;> rfl

/-- What can be put at a place of the request and found there again: the header has a
    name, a cookie can carry the key, and the key is not in use. -/
structure PaddingAt.Fits (H : Http) (url : H.Url) (headers : H.HeaderMap) (place : PaddingAt) : Prop where
  placement : place.placement.ofPadding = true
  name : place.placement = .header ∨ place.placement = .queryInHeader →
    ∃ n, H.headerName place.header = some n
  key : place.placement = .cookie → CookieKey place.key
  query : place.placement = .query ∨ place.placement = .queryInHeader →
    place.key ∉ (H.pairs url).map Prod.fst
  cookie : place.placement = .cookie → place.key ∉ (cookies H headers).map Prod.fst

section
variable {H : Http} {url : H.Url} {headers : H.HeaderMap}

theorem readPadding_putPadding {place : PaddingAt} (h : place.Fits H url headers)
    (hroot : (H.path url).head? = some '/') {value : Str} (hvalue : ∀ c ∈ value, tokenChar c = true) :
    readPadding H (H.uri (putPadding H value url headers place).1)
      (putPadding H value url headers place).2 place = some value := by
  obtain ⟨placement, key, header⟩ := place
  cases placement with
  | header =>
    obtain ⟨n, hn⟩ := h.name (Or.inl rfl)
    exact insertIfValid_eq headers hn fun c hc => visible_of_tokenChar (hvalue c hc)
  | cookie =>
    obtain ⟨v, hok, hcookies⟩ := appendCookie_ok H headers (h.key rfl) hvalue
    simp only [putPadding, readPadding, hok, cookieValue_eq, hcookies]
    exact lookup_append_fresh (h.cookie rfl)
  | query =>
    simp only [putPadding, readPadding, query_lookup, H.pairs_appendPair]
    exact lookup_append_fresh (h.query (Or.inl rfl))
  | queryInHeader =>
    obtain ⟨n, hn⟩ := h.name (Or.inr rfl)
    have hroot' : (H.path (H.appendPair url key value)).head? = some '/' := by
      rw [H.path_appendPair]
      exact hroot
    simp only [putPadding, readPadding, insertIfValid_eq headers hn (H.asStr_visible _),
      Option.bind_some, H.parse_asStr _ hroot', H.pairs_appendPair]
    exact lookup_append_fresh (h.query (Or.inr rfl))
  | _ => cases h.placement

theorem validPadding_of_read {F : Huffman} {config : TransportConfig} {uri : Uri} {length : Nat}
    (hmax : config.paddingMax + 2 < 2 ^ 64) (hlo : config.paddingMin ≤ length) (hhi : length ≤ config.paddingMax)
    (hread : readPadding H uri headers (paddingAt config) = some (paddingValue F config.paddingMethod length)) :
    validPadding H F config uri headers = .ok true := by
  have hlen := (paddingValue_spec F config.paddingMethod length).2
  -- `tokenish` makes one byte where none was asked for, within the tolerance of two
  have hbound : length ≤ paddedLength F config.paddingMethod (paddingValue F config.paddingMethod length) ∧
      paddedLength F config.paddingMethod (paddingValue F config.paddingMethod length) ≤ max length 1 := by
    rw [hlen]
    split <;> omega
  have hlow : usizeAdd (paddedLength F config.paddingMethod (paddingValue F config.paddingMethod length)) 2 = .ok _ :=
    if_pos (by omega)
  have hhigh : usizeAdd config.paddingMax 2 = .ok _ := if_pos hmax
  simp only [validPadding, hread, hlow, hhigh, bind, Except.bind, pure, Except.pure]
  rw [if_neg (by omega), decide_eq_true (by omega)]

/-! ## Later writes -/

/-- The header that carries the padding. -/
def PaddingAt.carrier (place : PaddingAt) : Option Str :=
  match place.placement with
  | .header | .queryInHeader => some place.header
  | .cookie => some "cookie".toList
  | _ => none

/-- A header other than the one that carries the padding. -/
def PaddingAt.Apart (place : PaddingAt) (name : Str) : Prop :=
  ∀ carrier, place.carrier = some carrier → name.toAsciiLowercase ≠ carrier.toAsciiLowercase

variable {place : PaddingAt} {value : Str}

section
variable (h : readPadding H (H.uri url) headers place = some value)
include h

theorem readPadding_setPath (path : Str) :
    readPadding H (H.uri (H.setPath url path)) headers place = some value := by
  rw [← h]
  unfold readPadding Http.uri
  rw [H.query_setPath]

theorem readPadding_appendPair (k v : Str) :
    readPadding H (H.uri (H.appendPair url k v)) headers place = some value := by
  obtain ⟨placement, key, header⟩ := place
  cases placement with
  | query =>
    simp only [readPadding, query_lookup, H.pairs_appendPair] at h ⊢
    exact lookup_append_some h [(k, v)]
  | _ => exact h

theorem readPadding_insert {name : Str}
    {n : H.HeaderName} (hn : H.headerName name = some n) (hapart : place.Apart name) (v : H.HeaderValue) :
    readPadding H (H.uri url) (H.insert headers n v) place = some value := by
  have hne : ∀ carrier, place.carrier = some carrier → H.headerName carrier ≠ some n :=
    fun carrier hc hsome => hapart carrier hc (H.headerName_inj hn hsome)
  obtain ⟨placement, key, header⟩ := place
  cases placement with
  | header | queryInHeader =>
    simp only [readPadding] at h ⊢
    rw [H.getStr_insert_of_ne headers v (hne header rfl)]
    exact h
  | cookie =>
    -- the carrier is the `Cookie` header as a whole
    have hcookie : H.cookie ≠ n := fun he => hne _ rfl (he ▸ H.headerName_cookie)
    simp only [readPadding, cookieValue, cookieParts, H.getAll_insert_of_ne headers v hcookie] at h ⊢
    exact h
  | _ => exact h

theorem readPadding_append (v : H.HeaderValue) :
    readPadding H (H.uri url) (H.append headers H.cookie v) place = some value := by
  obtain ⟨placement, key, header⟩ := place
  cases placement with
  | header => exact H.getStr_append headers H.cookie v h
  | queryInHeader =>
    simp only [readPadding] at h ⊢
    obtain ⟨s, hs, hrest⟩ := Option.bind_eq_some_iff.mp h
    rw [H.getStr_append headers H.cookie v hs]
    exact hrest
  | cookie =>
    simp only [readPadding, cookieValue_eq, cookies, cookieParts, H.getAll_append_self,
      filterMap_append, flatMap_append] at h ⊢
    exact lookup_append_some h _
  | _ => exact h

end

variable {headers' : H.HeaderMap} {url' : H.Url}

section
variable (h : readPadding H (H.uri url) headers place = some value)
include h

theorem readPadding_of_appendCookie {key val : Str}
    (hok : appendCookie H headers key val = .ok headers') : readPadding H (H.uri url) headers' place = some value := by
  obtain ⟨v, -, hrest⟩ := bind_ok_iff.mp hok
  cases hrest
  exact readPadding_append h v

theorem readPadding_applyValue {placement : Placement} {key val : Str}
    (hapart : placement = .header → place.Apart key)
    (hok : applyValue H placement key val url headers = .ok (url', headers')) :
    readPadding H (H.uri url') headers' place = some value := by
  cases placement with
  | path =>
    cases hok
    exact readPadding_setPath h _
  | query =>
    cases hok
    exact readPadding_appendPair h key val
  | header =>
    obtain ⟨n, hn, hok⟩ := bind_ok_iff.mp hok
    obtain ⟨v, -, hok⟩ := bind_ok_iff.mp hok
    cases hok
    exact readPadding_insert h (okOr_ok_iff.mp hn) (hapart rfl) v
  | cookie =>
    obtain ⟨headers₁, happend, hok⟩ := bind_ok_iff.mp hok
    cases hok
    exact readPadding_of_appendCookie h happend
  | _ => cases hok

end

/-- Metadata in headers stays clear of the header that carries the padding. -/
structure MetadataApart (config : TransportConfig) : Prop where
  session : config.sessionPlacement = .header → (paddingAt config).Apart config.sessionKey
  sequence : config.sequencePlacement = .header → (paddingAt config).Apart config.sequenceKey

theorem readPadding_applyMetadata {config : TransportConfig} {session : Option Str} {sequence : Option UInt64}
    (h : readPadding H (H.uri url) headers (paddingAt config) = some value) (hapart : MetadataApart config)
    (hok : applyMetadata H config url headers session sequence = .ok (url', headers')) :
    readPadding H (H.uri url') headers' (paddingAt config) = some value := by
  have hsequence : ∀ {url₁ headers₁}, readPadding H (H.uri url₁) headers₁ (paddingAt config) = some value →
      applyMetadata H config url₁ headers₁ none sequence = .ok (url', headers') →
      readPadding H (H.uri url') headers' (paddingAt config) = some value := by
    intro url₁ headers₁ h₁ hok₁
    cases sequence with
    | none =>
      cases hok₁
      exact h₁
    | some n => exact readPadding_applyValue h₁ hapart.sequence hok₁
  cases session with
  | none => exact hsequence h hok
  | some id =>
    obtain ⟨⟨url₁, headers₁⟩, hfirst, hrest⟩ := bind_ok_iff.mp hok
    exact hsequence (readPadding_applyValue h hapart.session hfirst) hrest

end

/-! ## Padding as a write -/

def PaddingAt.target (place : PaddingAt) : Placement × Str :=
  match place.placement with
  | .header | .queryInHeader => (.header, place.header)
  | .cookie => (.cookie, place.key)
  | _ => (.query, place.key)

theorem PaddingAt.target_of_header {place : PaddingAt}
    (h : place.placement = .header ∨ place.placement = .queryInHeader) : place.target = (.header, place.header) := by
  rcases h with h | h <;> rw [PaddingAt.target, h]

theorem PaddingAt.target_of_cookie {place : PaddingAt} (h : place.placement = .cookie) :
    place.target = (.cookie, place.key) := by
  rw [PaddingAt.target, h]

theorem PaddingAt.target_ne_path (place : PaddingAt) : place.target.1 ≠ .path := by
  unfold PaddingAt.target
  split <;> nofun

def PaddingAt.text (H : Http) (place : PaddingAt) (url : H.Url) (value : Str) : Str :=
  if place.placement = .queryInHeader then H.asStr (H.appendPair url place.key value) else value

theorem putPadding_shows {url : H.Url} {headers : H.HeaderMap} {place : PaddingAt}
    (hfits : place.Fits H url headers) (htarget : Fits place.target.1 place.target.2)
    (hroot : (H.path url).head? = some '/') {value : Str} (hvalue : ∀ c ∈ value, tokenChar c = true) :
    Shows H url headers (valueWrites place.target.1 place.target.2 (place.text H url value))
      (putPadding H value url headers place).1 (putPadding H value url headers place).2 := by
  have hstart : Shows H url headers Writes.none url headers := Shows.refl hroot
  have hinsert : ∀ {name text : Str} {n : H.HeaderName}, H.headerName name = some n →
      name.toAsciiLowercase ≠ "cookie" → (∀ c ∈ text, visible c = true) →
      Shows H url headers ⟨[], [], [(name, text)], []⟩ url (insertIfValid H headers name text) := by
    intro name text n hn hcookie htext
    obtain ⟨v, hval, hstr⟩ := H.headerValue_visible htext
    simp only [insertIfValid, hn, hval]
    exact hstart.carry (hstart.toCarries.insert hn hstr hcookie)
  obtain ⟨placement, key, header⟩ := place
  cases placement with
  | header =>
    obtain ⟨n, hn⟩ := hfits.name (Or.inl rfl)
    exact hinsert hn (htarget.header rfl) fun c hc => visible_of_tokenChar (hvalue c hc)
  | queryInHeader =>
    obtain ⟨n, hn⟩ := hfits.name (Or.inr rfl)
    exact hinsert hn (htarget.header rfl) (H.asStr_visible _)
  | cookie =>
    obtain ⟨headers', hok, hcarries⟩ := hstart.toCarries.appendCookie (hfits.key rfl) hvalue
    simp only [putPadding, hok]
    exact hstart.carry hcarries
  | query => exact hstart.pair key value
  | _ => cases hfits.placement

/-- The padding is found, whatever was written behind it to other headers. -/
theorem readPadding_of_shows {url₀ url : H.Url} {headers₀ headers : H.HeaderMap}
    {place : PaddingAt} {value : Str} {rest : Writes} (h : Shows H url₀ headers₀
      (valueWrites place.target.1 place.target.2 (place.text H url₀ value) ++ rest) url headers)
    (hfits : place.Fits H url₀ headers₀) (htarget : Fits place.target.1 place.target.2)
    (hroot : (H.path url₀).head? = some '/')
    (hrest : place.target.1 = .header → headersOf place.target.2 rest.headers = []) :
    readPadding H (H.uri url) headers place = some value := by
  -- of a cookie or a query name the first entry counts
  have hfirst : ∀ {key : Str} {l more : List (Str × Str)}, key ∉ l.map Prod.fst →
      (l ++ ([(key, value)] ++ more)).lookup key = some value := by
    intro key l more hkey
    rw [← append_assoc]
    exact lookup_append_some (lookup_append_fresh hkey) more
  -- of a header the last, and there is no later one
  have hheader : ∀ {name text : Str}, Fits .header name → headersOf name rest.headers = [] →
      Shows H url₀ headers₀ (⟨[], [], [(name, text)], []⟩ ++ rest) url headers →
      H.getStr headers name = some text := by
    intro name text hname hnone hshows
    rw [hshows.header name (hname.header rfl), Writes.append_headers, headersOf_append, hnone,
      headersOf_singleton, if_pos rfl]
    rfl
  obtain ⟨placement, key, header⟩ := place
  cases placement with
  | header => exact hheader htarget (hrest rfl) h
  | queryInHeader =>
    have hroot' : (H.path (H.appendPair url₀ key value)).head? = some '/' := by
      rw [H.path_appendPair]
      exact hroot
    have hstr : H.getStr headers header = some (H.asStr (H.appendPair url₀ key value)) :=
      hheader htarget (hrest rfl) h
    simp only [readPadding, hstr, Option.bind_some, H.parse_asStr _ hroot', H.pairs_appendPair]
    exact lookup_append_fresh (hfits.query (Or.inr rfl))
  | cookie =>
    simp only [readPadding, cookieValue_eq, h.cookies]
    exact hfirst (hfits.cookie rfl)
  | query =>
    simp only [readPadding, query_lookup, h.pairs]
    exact hfirst (hfits.query (Or.inl rfl))
  | _ => cases hfits.placement

/-! ## Acceptance -/

theorem paddingAt_placement {config : TransportConfig} (h : config.Valid H) :
    (paddingAt config).placement.ofPadding = true := by
  unfold paddingAt
  split
  · exact h.padding
  · rfl

theorem paddingLength_mem {config : TransportConfig} {sampled : Nat}
    (h : config.paddingMin ≤ sampled ∧ sampled ≤ config.paddingMax) :
    config.paddingMin ≤ paddingLength config sampled ∧ paddingLength config sampled ≤ config.paddingMax := by
  unfold paddingLength
  split <;> omega

/-- **Padding acceptance.** For every validated configuration with lengths below 2³¹,
    every place, both methods and every sampled length: under a padding header that is
    a header name, a key that a cookie can carry where the padding is a cookie, and a
    key not in use, `valid_padding` accepts what `apply_padding` produced; and it still
    does after `apply_metadata`, unless metadata goes into the header that carries the
    padding. The Huffman encoding of a `tokenish` value is exactly as long as asked for,
    from one byte on. -/
theorem padding_accepted (H : Http) (F : Huffman) (raw config : TransportConfig)
    (hvalid : raw.validate H = .ok config) (hmax : config.paddingMax < 2 ^ 31) (url : H.Url)
    (headers : H.HeaderMap) (hroot : (H.path url).head? = some '/') (sampled : Nat)
    (hsampled : config.paddingMin ≤ sampled ∧ sampled ≤ config.paddingMax)
    (hname : config.paddingObfs = true →
      config.paddingPlacement = .header ∨ config.paddingPlacement = .queryInHeader →
      ∃ n, H.headerName config.paddingHeader = some n)
    (hcookie : config.paddingObfs = true → config.paddingPlacement = .cookie →
      CookieKey config.paddingKey)
    (hfresh : (paddingAt config).key ∉ (H.pairs url).map Prod.fst ∧
      (paddingAt config).key ∉ (cookies H headers).map Prod.fst) :
    (validPadding H F config (H.uri (applyPadding H F config sampled url headers).1)
      (applyPadding H F config sampled url headers).2 = .ok true ∧
    ∀ session sequence url' headers', MetadataApart config →
      applyMetadata H config (applyPadding H F config sampled url headers).1
        (applyPadding H F config sampled url headers).2 session sequence = .ok (url', headers') →
      validPadding H F config (H.uri url') headers' = .ok true) ∧
    ∀ length, 1 ≤ length →
      huffmanLength F (paddingValue F "tokenish" length).asBytes = length := by
  have hfits : (paddingAt config).Fits H url headers := by
    refine ⟨paddingAt_placement (validate_valid hvalid), ?_, ?_, fun _ => hfresh.1, fun _ => hfresh.2⟩
    · unfold paddingAt
      split
      · next hobfs => exact hname hobfs
      · intro _
        exact H.headerName_token (by decide) (by decide) (by decide)
    · unfold paddingAt
      split
      · next hobfs => exact hcookie hobfs
      · nofun
  obtain ⟨hlo, hhi⟩ := paddingLength_mem hsampled
  have hread := readPadding_putPadding hfits hroot
    (paddingValue_spec F config.paddingMethod (paddingLength config sampled)).1
  refine ⟨⟨validPadding_of_read (by omega) hlo hhi hread, ?_⟩, ?_⟩
  · intro session sequence url' headers' hapart hok
    exact validPadding_of_read (by omega) hlo hhi (readPadding_applyMetadata hread hapart hok)
  · intro length hpos
    have hlen := (paddingValue_spec F "tokenish" length).2
    rw [paddedLength, if_pos rfl, if_pos rfl] at hlen
    omega

def tokenishInCookie : TransportConfig :=
  { TransportConfig.default with
    paddingObfs := true, paddingPlacement := .cookie, paddingMethod := "tokenish",
    paddingMin := 40, paddingMax := 80 }

/-- `tokenish` padding of 64 bytes in a cookie is accepted, also once the session id is
    in the path. -/
theorem padding_accepted_tokenish :
    validPadding .reference .reference tokenishInCookie
      (Http.reference.uri (applyPadding .reference .reference tokenishInCookie 64 plainUrl []).1)
      (applyPadding .reference .reference tokenishInCookie 64 plainUrl []).2 = .ok true ∧
    (∃ url' headers', applyMetadata .reference tokenishInCookie
        (applyPadding .reference .reference tokenishInCookie 64 plainUrl []).1
        (applyPadding .reference .reference tokenishInCookie 64 plainUrl []).2 (some "ab".toList) none =
          .ok (url', headers') ∧
      validPadding .reference .reference tokenishInCookie (Http.reference.uri url') headers' = .ok true) ∧
    huffmanLength .reference (paddingValue .reference "tokenish" 64).asBytes = 64 := by
  have h := padding_accepted .reference .reference tokenishInCookie tokenishInCookie rfl (by decide)
    plainUrl [] (by decide) 64 (by decide) nofun (fun _ _ => CookieKey.of_token (by decide)) (by decide)
  refine ⟨h.1.1, ⟨_, _, rfl, h.1.2 (some "ab".toList) none _ _ ⟨nofun, nofun⟩ rfl⟩, h.2 64 (by decide)⟩

/-- Padding of two characters in a cookie whose name has an equals sign in it. -/
def equalsInCookieKey : TransportConfig :=
  { TransportConfig.default with
    paddingObfs := true, paddingPlacement := .cookie, paddingKey := "a=b", paddingMin := 2,
    paddingMax := 2 }

/-- The session id goes into the header that carries the padding. -/
def sessionInReferer : TransportConfig :=
  { TransportConfig.default with
    sessionPlacement := .header, sessionKey := "Referer", paddingMin := 3, paddingMax := 3 }

/-- The session id replaces the `Cookie` header. -/
def sessionAsCookieHeader : TransportConfig :=
  { TransportConfig.default with
    paddingObfs := true, paddingPlacement := .cookie, sessionPlacement := .header,
    sessionKey := "Cookie", paddingMin := 2, paddingMax := 2 }

/-- Validated configurations whose padding the server does not accept: a cookie key
    with an equals sign, and a session id, under another key than the padding, in the
    header that carries it. -/
theorem padding_lost :
    (equalsInCookieKey.validate .reference = .ok equalsInCookieKey ∧
      validPadding .reference .reference equalsInCookieKey
        (Http.reference.uri (applyPadding .reference .reference equalsInCookieKey 2 plainUrl []).1)
        (applyPadding .reference .reference equalsInCookieKey 2 plainUrl []).2 = .ok false) ∧
    ∀ config ∈ [sessionInReferer, sessionAsCookieHeader],
      config.validate .reference = .ok config ∧ config.sessionKey ≠ (paddingAt config).key ∧
      ∃ url' headers', applyMetadata .reference config
          (applyPadding .reference .reference config config.paddingMin plainUrl []).1
          (applyPadding .reference .reference config config.paddingMin plainUrl []).2 (some "ab".toList)
          none = .ok (url', headers') ∧
        validPadding .reference .reference config (Http.reference.uri url') headers' = .ok false := by
  refine ⟨⟨rfl, by decide⟩, ?_⟩
  intro config hconfig
  simp only [mem_cons, not_mem_nil, or_false] at hconfig
  rcases hconfig with rfl | rfl
  · exact ⟨rfl, by decide, _, _, rfl, by decide⟩
  · exact ⟨rfl, by decide, _, _, rfl, by decide⟩

end Xhttp.Protocol
