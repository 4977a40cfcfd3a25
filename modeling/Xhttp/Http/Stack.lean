import Xhttp.Lib.Text

/- The HTTP stack under the transport: header maps of the crate `http`, URLs of the crate `url`. Their code is not part
   of the repository, so the stack is a parameter of the model, with the documented behaviour the transport relies on
   as its laws:
     · header names are compared without regard to case; a token of at most 65535 characters is one;
     · a value of visible characters is accepted and read back as it is;
     · `insert` replaces every value of a name, `append` adds one behind the others;
     · `append_pair` adds one pair behind those of the query and leaves the path alone, `set_path` leaves the
       query alone;
     · a path that comes out of a URL stays as it is when a slash or a segment of letters, digits, `-` and `_` is put
       behind it;
     · a URL is its own serialization, which has visible characters only.
   The limits of `HeaderMap` and `Uri` on the number of headers and the length of a URI are not modelled. -/
namespace Xhttp
open Lib

/-- The characters of keys, session ids and encoded data: `[A-Za-z0-9_-]`. -/
def tokenChar (c : Char) : Bool :=
  let n := c.toNat
  (48 ≤ n && n ≤ 57) || (65 ≤ n && n ≤ 90) || (97 ≤ n && n ≤ 122) || n == 95 || n == 45

/-- The characters `HeaderValue::to_str` lets through: visible ASCII, space and tab. -/
def visible (c : Char) : Bool :=
  let n := c.toNat
  (32 ≤ n && n ≤ 126) || n == 9

/-- The characters of an HTTP token, which a header name is. -/
def tchar (c : Char) : Bool :=
  let n := c.toNat
  tokenChar c || n == 33 || (35 ≤ n && n ≤ 39) || n == 42 || n == 43 || n == 46 || n == 94 ||
    n == 96 || n == 124 || n == 126

variable {c : Char}

theorem tokenChar_iff : tokenChar c = true ↔
    (48 ≤ c.toNat ∧ c.toNat ≤ 57) ∨ (65 ≤ c.toNat ∧ c.toNat ≤ 90) ∨ (97 ≤ c.toNat ∧ c.toNat ≤ 122) ∨
      c.toNat = 95 ∨ c.toNat = 45 := by
  simp only [tokenChar, Bool.or_eq_true, Bool.and_eq_true, decide_eq_true_eq, beq_iff_eq, or_assoc]

theorem visible_iff : visible c = true ↔ (32 ≤ c.toNat ∧ c.toNat ≤ 126) ∨ c.toNat = 9 := by
  simp only [visible, Bool.or_eq_true, Bool.and_eq_true, decide_eq_true_eq, beq_iff_eq]

theorem tchar_of_tokenChar (h : tokenChar c = true) : tchar c = true := by
  simp [tchar, h]

theorem tchar_bounds (h : tchar c = true) : 33 ≤ c.toNat ∧ c.toNat ≤ 126 ∧ c.toNat ≠ 59 ∧ c.toNat ≠ 61 := by
  simp only [tchar, Bool.or_eq_true, Bool.and_eq_true, decide_eq_true_eq, beq_iff_eq, tokenChar_iff] at h
  omega

theorem visible_of_tchar (h : tchar c = true) : visible c = true := by
  have := tchar_bounds h
  rw [visible_iff]
  omega

theorem visible_of_tokenChar (h : tokenChar c = true) : visible c = true :=
  visible_of_tchar (tchar_of_tokenChar h)

theorem tokenChar_of_isDigit (h : c.isDigit = true) : tokenChar c = true := by
  have hd : 48 ≤ c.toNat ∧ c.toNat ≤ 57 := by
    simp only [Char.isDigit, Bool.and_eq_true, decide_eq_true_eq] at h
    exact ⟨UInt32.le_iff_toNat_le.mp h.1, UInt32.le_iff_toNat_le.mp h.2⟩
  rw [tokenChar_iff]
  omega

structure Http where
  HeaderName : Type
  HeaderValue : Type
  HeaderMap : Type
  Url : Type
  /-- `HeaderName::try_from`. -/
  headerName : Str → Option HeaderName
  headerValue : Str → Option HeaderValue
  toStr : HeaderValue → Option Str
  empty : HeaderMap
  insert : HeaderMap → HeaderName → HeaderValue → HeaderMap
  append : HeaderMap → HeaderName → HeaderValue → HeaderMap
  getAll : HeaderMap → HeaderName → List HeaderValue
  cookie : HeaderName
  authorization : HeaderName
  isMethod : Str → Bool
  parse : Str → Option Url
  asStr : Url → Str
  path : Url → Str
  query : Url → Option Str
  setPath : Url → Str → Url
  /-- `query_pairs_mut().append_pair`. -/
  appendPair : Url → Str → Str → Url
  /-- `form_urlencoded::parse`. -/
  formParse : Str → List (Str × Str)
  headerName_congr : ∀ {a b}, a.toAsciiLowercase = b.toAsciiLowercase → headerName a = headerName b
  headerName_inj : ∀ {a b n}, headerName a = some n → headerName b = some n →
    a.toAsciiLowercase = b.toAsciiLowercase
  headerName_token : ∀ {s}, s ≠ [] → (∀ c ∈ s, tchar c) → s.length ≤ 65535 →
    ∃ n, headerName s = some n
  headerName_cookie : headerName "cookie" = some cookie
  headerName_authorization : headerName "authorization" = some authorization
  headerValue_visible : ∀ {s}, (∀ c ∈ s, visible c) → ∃ v, headerValue s = some v ∧ toStr v = some s
  getAll_empty : ∀ n, getAll empty n = []
  getAll_insert_self : ∀ m n v, getAll (insert m n v) n = [v]
  getAll_insert_of_ne : ∀ m {n n'} v, n' ≠ n → getAll (insert m n v) n' = getAll m n'
  getAll_append_self : ∀ m n v, getAll (append m n v) n = getAll m n ++ [v]
  getAll_append_of_ne : ∀ m {n n'} v, n' ≠ n → getAll (append m n v) n' = getAll m n'
  path_appendPair : ∀ u k v, path (appendPair u k v) = path u
  query_appendPair : ∀ u k v, ∃ q, query (appendPair u k v) = some q ∧
    formParse q = (query u).elim [] formParse ++ [(k, v)]
  query_setPath : ∀ u p, query (setPath u p) = query u
  path_setPath_slash : ∀ u, (path u).head? = some '/' →
    path (setPath u (path u ++ ['/'])) = path u ++ ['/']
  path_setPath_segment : ∀ u s, (path u).head? = some '/' → s ≠ [] → (∀ c ∈ s, tokenChar c) →
    path (setPath u ((path u).trimEndMatches '/' ++ '/' :: s)) = (path u).trimEndMatches '/' ++ '/' :: s
  parse_asStr : ∀ u, (path u).head? = some '/' → parse (asStr u) = some u
  asStr_visible : ∀ u, ∀ c ∈ asStr u, visible c

structure Uri where
  path : Str
  query : Option Str
  deriving DecidableEq, Repr

namespace Http
variable (H : Http)

def uri (url : H.Url) : Uri := ⟨H.path url, H.query url⟩

def pairs (url : H.Url) : List (Str × Str) := (H.query url).elim [] H.formParse

/-- `headers.get(key).and_then(|v| v.to_str().ok()).map(str::to_owned)`. -/
def getStr (headers : H.HeaderMap) (key : Str) : Option Str :=
  (H.headerName key).bind fun n => (H.getAll headers n).head?.bind H.toStr

variable {v : H.HeaderValue} {n : H.HeaderName}

theorem toStr_of_visible {s : Str} (hv : H.headerValue s = some v)
    (hs : ∀ c ∈ s, visible c = true) : H.toStr v = some s := by
  obtain ⟨v', hval, hstr⟩ := H.headerValue_visible hs
  rw [hv] at hval
  cases hval
  exact hstr

theorem pairs_appendPair (url : H.Url) (key value : Str) :
    H.pairs (H.appendPair url key value) = H.pairs url ++ [(key, value)] := by
  obtain ⟨q, hq, hparse⟩ := H.query_appendPair url key value
  rw [pairs, hq]
  exact hparse

theorem pairs_setPath (url : H.Url) (path : Str) : H.pairs (H.setPath url path) = H.pairs url := by
  rw [pairs, H.query_setPath]
  rfl

theorem getStr_insert_self (headers : H.HeaderMap) {key value : Str} (hn : H.headerName key = some n)
    (hv : H.toStr v = some value) :
    H.getStr (H.insert headers n v) key = some value := by
  simp only [getStr, hn, Option.bind_some, H.getAll_insert_self, List.head?_cons, hv]

theorem getStr_congr {headers headers' : H.HeaderMap} {key : Str}
    (h : ∀ m, H.headerName key = some m → H.getAll headers' m = H.getAll headers m) :
    H.getStr headers' key = H.getStr headers key := by
  simp only [getStr]
  cases hk : H.headerName key with
  | none => rfl
  | some m => simp only [Option.bind_some, h m hk]

theorem getStr_insert_of_ne (headers : H.HeaderMap) {key : Str} (v : H.HeaderValue)
    (hn : H.headerName key ≠ some n) : H.getStr (H.insert headers n v) key = H.getStr headers key := by
  apply H.getStr_congr
  intro m hm
  apply H.getAll_insert_of_ne headers v
  rintro rfl
  exact hn hm

theorem getStr_append_of_ne (headers : H.HeaderMap) {key : Str} (v : H.HeaderValue)
    (hn : H.headerName key ≠ some n) : H.getStr (H.append headers n v) key = H.getStr headers key := by
  apply H.getStr_congr
  intro m hm
  apply H.getAll_append_of_ne headers v
  rintro rfl
  exact hn hm

theorem getStr_append (headers : H.HeaderMap) {key value : Str} (n : H.HeaderName) (v : H.HeaderValue)
    (h : H.getStr headers key = some value) : H.getStr (H.append headers n v) key = some value := by
  by_cases hn : H.headerName key = some n
  · simp only [getStr, hn, Option.bind_some] at h ⊢
    obtain ⟨first, hfirst, hstr⟩ := Option.bind_eq_some_iff.mp h
    rw [H.getAll_append_self, List.head?_append, hfirst]
    exact hstr
  · rw [H.getStr_append_of_ne headers v hn]
    exact h

end Http

end Xhttp
