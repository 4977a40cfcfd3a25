import Xhttp.Config

/- What a client writes into a request, as data. A value goes behind the path, into
   the query, into a header or into a cookie; `Writes` lists what was put where, in
   order. `Carries` says that a header map is an earlier one with these writes made,
   `Shows` says it of a URL and a header map together. Each operation of the client
   adds its writes (`Shows.segment`, `Shows.pair`, `Carries.insert`,
   `Carries.appendCookie`), and what the server reads is a lookup in the lists. The
   cookie functions of `src/protocol.rs` are here since metadata, padding and payload
   all use them. -/
namespace Xhttp.Protocol
open Lib List

def invalidName : Failure := .message "invalid HTTP header name"

def invalidValue : Failure := .message "failed to parse header value"

/-! ## Cookies -/

def appendCookie (H : Http) (headers : H.HeaderMap) (key value : Str) : Except Failure H.HeaderMap := do
  let v ← Checked.okOr (H.headerValue (key ++ '=' :: value)) invalidValue
  pure (H.append headers H.cookie v)

/-- The parts of all `Cookie` headers. -/
def cookieParts (H : Http) (headers : H.HeaderMap) : List Str :=
  ((H.getAll headers H.cookie).filterMap H.toStr).flatMap (Str.split ';')

def cookieValue (H : Http) (headers : H.HeaderMap) (key : Str) : Option Str :=
  (cookieParts H headers).findSome? fun part =>
    (part.trim.splitOnce '=').bind fun nv => if nv.1 = key then some nv.2 else none

def cookies (H : Http) (headers : H.HeaderMap) : List (Str × Str) :=
  (cookieParts H headers).filterMap fun part => part.trim.splitOnce '='

theorem cookieValue_eq (H : Http) (headers : H.HeaderMap) (key : Str) :
    cookieValue H headers key = (cookies H headers).lookup key := by
  unfold cookieValue cookies
  induction cookieParts H headers with
  | nil => rfl
  | cons part parts ih =>
    grind

/-- A key that a cookie can carry: visible, free of the separators, and without a
    leading blank that reading would trim. -/
structure CookieKey (key : Str) : Prop where
  chars : ∀ c ∈ key, visible c = true
  semicolon : ';' ∉ key
  equals : '=' ∉ key
  head : ∀ c, key.head? = some c → Str.isWhitespace c = false

theorem isWhitespace_of_tchar {c : Char} (h : tchar c = true) : Str.isWhitespace c = false := by
  have := tchar_bounds h
  simp only [Str.isWhitespace, Bool.or_eq_false_iff, Bool.and_eq_false_iff, decide_eq_false_iff_not,
    beq_eq_false_iff_ne]
  omega

theorem notMem_of_tokenChars {s : Str} (h : ∀ c ∈ s, tokenChar c = true) {c : Char}
    (hc : tokenChar c = false) : c ∉ s := by
  intro hmem
  rw [h c hmem] at hc
  cases hc

theorem CookieKey.of_token {key : Str} (h : ∀ c ∈ key, tchar c = true) : CookieKey key where
  chars := fun c hc => visible_of_tchar (h c hc)
  semicolon := fun hc => absurd (h _ hc) (by decide)
  equals := fun hc => absurd (h _ hc) (by decide)
  head := fun c hc => isWhitespace_of_tchar (h c (mem_of_mem_head? hc))

/-- A cookie of a well-formed key and a value of token characters is read back as
    it was written. -/
theorem cookie_part {key value : Str} (hk : CookieKey key) (hv : ∀ c ∈ value, tokenChar c = true) :
    ((Str.split ';' (key ++ '=' :: value)).filterMap fun part => part.trim.splitOnce '=') = [(key, value)] := by
  have hsemi : ';' ∉ key ++ '=' :: value := by
    simp only [mem_append, mem_cons, not_or]
    exact ⟨hk.semicolon, by decide, notMem_of_tokenChars hv (by decide)⟩
  have htrim : Str.trim (key ++ '=' :: value) = key ++ '=' :: value := by
    apply Str.trim_eq_self
    · intro c hc
      cases key with
      | nil => cases hc; decide
      | cons x key => exact hk.head c hc
    · intro c hc
      rw [getLast?_append_cons] at hc
      rcases mem_cons.mp (mem_of_getLast? hc) with rfl | hmem
      · decide
      · exact isWhitespace_of_tchar (tchar_of_tokenChar (hv c hmem))
  rw [Str.split_of_notMem hsemi]
  simp [htrim, Str.splitOnce_append hk.equals]

theorem appendCookie_ok (H : Http) (headers : H.HeaderMap) {key value : Str} (hk : CookieKey key)
    (hv : ∀ c ∈ value, tokenChar c = true) : ∃ v, appendCookie H headers key value = .ok (H.append headers H.cookie v) ∧
      cookies H (H.append headers H.cookie v) = cookies H headers ++ [(key, value)] := by
  have hvis : ∀ c ∈ key ++ '=' :: value, visible c = true := by
    intro c hc
    rcases mem_append.mp hc with hc | hc
    · exact hk.chars c hc
    · rcases mem_cons.mp hc with rfl | hc
      · decide
      · exact visible_of_tokenChar (hv c hc)
  obtain ⟨v, hval, hstr⟩ := H.headerValue_visible hvis
  refine ⟨v, by simp only [appendCookie, hval, Checked.okOr]; rfl, ?_⟩
  simp only [cookies, cookieParts, H.getAll_append_self, filterMap_append, flatMap_append,
    filterMap_cons, hstr, filterMap_nil, flatMap_cons, flatMap_nil,
    append_nil, cookie_part hk hv]

/-! ## Writes -/

/-- What was written where, oldest first. -/
structure Writes where
  segments : List Str
  query : List (Str × Str)
  headers : List (Str × Str)
  cookies : List (Str × Str)

namespace Writes

def none : Writes := ⟨[], [], [], []⟩

instance : Append Writes where
  append a b := ⟨a.segments ++ b.segments, a.query ++ b.query, a.headers ++ b.headers, a.cookies ++ b.cookies⟩

@[simp] theorem append_segments (a b : Writes) : (a ++ b).segments = a.segments ++ b.segments := rfl
@[simp] theorem append_query (a b : Writes) : (a ++ b).query = a.query ++ b.query := rfl
@[simp] theorem append_headers (a b : Writes) : (a ++ b).headers = a.headers ++ b.headers := rfl
@[simp] theorem append_cookies (a b : Writes) : (a ++ b).cookies = a.cookies ++ b.cookies := rfl

theorem append_none (a : Writes) : a ++ none = a := by
  show (⟨a.segments ++ [], a.query ++ [], a.headers ++ [], a.cookies ++ []⟩ : Writes) = a
  simp only [append_nil]

theorem append_assoc (a b c : Writes) : a ++ b ++ c = a ++ (b ++ c) := by
  show (⟨_, _, _, _⟩ : Writes) = ⟨_, _, _, _⟩
  simp

end Writes

def valuesOf (key : Str) (l : List (Str × Str)) : List Str := (l.filter (·.1 = key)).map Prod.snd

/-- The values of the headers of a name, compared without case. -/
def headersOf (name : Str) (l : List (Str × Str)) : List Str :=
  (l.filter fun h => h.1.toAsciiLowercase = name.toAsciiLowercase).map Prod.snd

/-- The values written at a place. -/
def Writes.values (w : Writes) : Placement → Str → List Str
  | .path, _ => w.segments
  | .query, key => valuesOf key w.query
  | .header, key => headersOf key w.headers
  | .cookie, key => valuesOf key w.cookies
  | _, _ => []

@[simp] theorem valuesOf_nil (key : Str) : valuesOf key [] = [] := rfl

@[simp] theorem valuesOf_append (key : Str) (a b : List (Str × Str)) :
    valuesOf key (a ++ b) = valuesOf key a ++ valuesOf key b := by
  simp [valuesOf]

@[simp] theorem headersOf_append (name : Str) (a b : List (Str × Str)) :
    headersOf name (a ++ b) = headersOf name a ++ headersOf name b := by
  simp [headersOf]

theorem valuesOf_cons (key name value : Str) (l : List (Str × Str)) :
    valuesOf key ((name, value) :: l) = if name = key then value :: valuesOf key l else valuesOf key l := by
  by_cases h : name = key <;> simp [valuesOf, h]

theorem headersOf_singleton (key name value : Str) : headersOf key [(name, value)] =
      if name.toAsciiLowercase = key.toAsciiLowercase then [value] else [] := by
  by_cases h : name.toAsciiLowercase = key.toAsciiLowercase <;> simp [headersOf, h]

theorem valuesOf_eq_nil {key : Str} {l : List (Str × Str)} (h : key ∉ l.map Prod.fst) : valuesOf key l = [] := by
  simp only [valuesOf, map_eq_nil_iff, filter_eq_nil_iff, decide_eq_true_eq]
  intro nv hnv heq
  exact h (heq ▸ mem_map_of_mem hnv)

theorem lookup_eq_head? (key : Str) (l : List (Str × Str)) : l.lookup key = (valuesOf key l).head? := by
  induction l with
  | nil => rfl
  | cons nv l ih =>
    obtain ⟨name, value⟩ := nv
    rw [valuesOf_cons, lookup_cons]
    by_cases h : name = key
    · simp [h]
    grind

@[simp] theorem Writes.values_append (a b : Writes) (placement : Placement) (key : Str) :
    (a ++ b).values placement key = a.values placement key ++ b.values placement key := by
  cases placement <;> simp [Writes.values]

/-- Put the segments behind the path, each behind exactly one slash. -/
def joinPath (path : Str) (segments : List Str) : Str :=
  segments.foldl (fun p s => p.trimEndMatches '/' ++ '/' :: s) path

/-- `headers` is `headers₀` with the writes `w` made. The `Cookie` header itself is
    seen through the cookies in it. -/
structure Carries (H : Http) (headers₀ : H.HeaderMap) (w : Writes) (headers : H.HeaderMap) : Prop where
  cookies : cookies H headers = Protocol.cookies H headers₀ ++ w.cookies
  header : ∀ key, key.toAsciiLowercase ≠ "cookie".toList →
    H.getStr headers key = (headersOf key w.headers).getLast?.or (H.getStr headers₀ key)

/-- `url` and `headers` are `url₀` and `headers₀` with the writes `w` made. -/
structure Shows (H : Http) (url₀ : H.Url) (headers₀ : H.HeaderMap) (w : Writes) (url : H.Url)
    (headers : H.HeaderMap) : Prop extends Carries H headers₀ w headers where
  root : (H.path url).head? = some '/'
  path : H.path url = joinPath (H.path url₀) w.segments
  pairs : H.pairs url = H.pairs url₀ ++ w.query

namespace Carries
variable {H : Http} {headers₀ headers : H.HeaderMap} {w : Writes}

theorem refl : Carries H headers Writes.none headers where
  cookies := (append_nil _).symm
  header := fun _ _ => rfl

variable (h : Carries H headers₀ w headers)
include h

theorem elsewhere (segments : List Str) (query : List (Str × Str)) :
    Carries H headers₀ (w ++ ⟨segments, query, [], []⟩) headers where
  cookies := by rw [h.cookies, Writes.append_cookies, append_nil]
  header := by
    rw [Writes.append_headers, append_nil]
    exact h.header

theorem insert {name value : Str} {n : H.HeaderName}
    {v : H.HeaderValue} (hn : H.headerName name = some n) (hstr : H.toStr v = some value)
    (hcookie : name.toAsciiLowercase ≠ "cookie") :
    Carries H headers₀ (w ++ ⟨[], [], [(name, value)], []⟩) (H.insert headers n v) where
  cookies := by
    have hne : H.cookie ≠ n := by
      rintro rfl
      exact hcookie (H.headerName_inj hn H.headerName_cookie)
    rw [Writes.append_cookies, append_nil, ← h.cookies]
    simp only [Protocol.cookies, cookieParts, H.getAll_insert_of_ne headers v hne]
  header := by
    intro key hkey
    rw [Writes.append_headers, headersOf_append, headersOf_singleton]
    split
    · next hsame =>
      rw [H.getStr_insert_self headers ((H.headerName_congr hsame).symm.trans hn) hstr, getLast?_concat]
      rfl
    · next hdiff =>
      rw [append_nil, ← h.header key hkey]
      exact H.getStr_insert_of_ne headers v fun hk => hdiff (H.headerName_inj hn hk)

theorem appendCookie {key value : Str} (hk : CookieKey key)
    (hv : ∀ c ∈ value, tokenChar c = true) : ∃ headers', Protocol.appendCookie H headers key value = .ok headers' ∧
      Carries H headers₀ (w ++ ⟨[], [], [], [(key, value)]⟩) headers' := by
  obtain ⟨v, hok, hcookies⟩ := appendCookie_ok H headers hk hv
  refine ⟨_, hok, ?_, ?_⟩
  · rw [hcookies, h.cookies, Writes.append_cookies, append_assoc]
  · intro name hname
    rw [Writes.append_headers, append_nil, ← h.header name hname]
    exact H.getStr_append_of_ne headers v fun hn => hname (H.headerName_inj hn H.headerName_cookie)

end Carries

namespace Shows
variable {H : Http} {url₀ url : H.Url} {headers₀ headers : H.HeaderMap} {w : Writes}

theorem refl (hroot : (H.path url).head? = some '/') : Shows H url headers Writes.none url headers :=
  { Carries.refl with
    root := hroot
    path := rfl
    pairs := (append_nil _).symm }

variable (h : Shows H url₀ headers₀ w url headers)
include h

theorem carry {hs cs : List (Str × Str)}
    {headers' : H.HeaderMap} (hc : Carries H headers₀ (w ++ ⟨[], [], hs, cs⟩) headers') :
    Shows H url₀ headers₀ (w ++ ⟨[], [], hs, cs⟩) url headers' :=
  { hc with
    root := h.root
    path := by rw [h.path, Writes.append_segments, append_nil]
    pairs := by rw [h.pairs, Writes.append_query, append_nil] }

theorem segment {value : Str} (hne : value ≠ [])
    (hv : ∀ c ∈ value, tokenChar c = true) : Shows H url₀ headers₀ (w ++ ⟨[value], [], [], []⟩)
      (H.setPath url ((H.path url).trimEndMatches '/' ++ '/' :: value)) headers :=
  { h.toCarries.elsewhere [value] [] with
    root := by
      rw [H.path_setPath_segment url value h.root hne hv]
      rcases Str.trimEndMatches_eq_nil_or_head? '/' (H.path url) with hnil | hhead
      · rw [hnil]
        rfl
      · rw [head?_append, hhead, h.root]
        rfl
    path := by
      rw [H.path_setPath_segment url value h.root hne hv, h.path]
      simp [joinPath]
    pairs := by rw [H.pairs_setPath, h.pairs, Writes.append_query, append_nil] }

theorem pair (key value : Str) :
    Shows H url₀ headers₀ (w ++ ⟨[], [(key, value)], [], []⟩) (H.appendPair url key value) headers :=
  { h.toCarries.elsewhere [] [(key, value)] with
    root := by
      rw [H.path_appendPair]
      exact h.root
    path := by rw [H.path_appendPair, h.path, Writes.append_segments, append_nil]
    pairs := by rw [H.pairs_appendPair, h.pairs, Writes.append_query, append_assoc] }

end Shows

end Xhttp.Protocol
