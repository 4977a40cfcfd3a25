import Xhttp.Http.Stack
import Xhttp.Lib.FormUrlencoded

/- An HTTP stack that obeys the laws of `Http`: they have a model, and results that
   take a stack as a parameter can be evaluated. Header maps are lists, and URLs are
   those of one origin, with paths percent-encoded as the URL standard has it; dot
   segments and fragments are left out. -/
namespace Xhttp.Http
open Lib List

namespace Reference

def isName (s : Str) : Bool := s ≠ [] && s.all tchar && s.length ≤ 65535

def headerName (s : Str) : Option Str :=
  if isName s.toAsciiLowercase then some s.toAsciiLowercase else none

def valueChar (c : Char) : Bool :=
  let n := c.toNat
  (32 ≤ n && n != 127) || n == 9

def headerValue (s : Str) : Option Str := if s.all valueChar then some s else none

def toStr (v : Str) : Option Str := if v.all visible then some v else none

abbrev HeaderMap := List (Str × Str)

def getAll (m : HeaderMap) (n : Str) : List Str := (m.filter (·.1 = n)).map Prod.snd

def insert (m : HeaderMap) (n v : Str) : HeaderMap := m.filter (·.1 ≠ n) ++ [(n, v)]

def append (m : HeaderMap) (n v : Str) : HeaderMap := m ++ [(n, v)]

/-- The characters a path is made of once it is percent-encoded. -/
def pathChar (c : Char) : Bool :=
  let n := c.toNat
  33 ≤ n && n ≤ 126 && n != 34 && n != 35 && n != 60 && n != 62 && n != 63 && n != 92 && n != 94 &&
    n != 96 && n != 123 && n != 125

def encodePathChar (c : Char) : Str :=
  if pathChar c then [c]
  else if c = '\\' then ['/']
  else (String.utf8EncodeChar c).flatMap fun b =>
    ['%', FormUrlencoded.upperHex (b.toNat / 16), FormUrlencoded.upperHex (b.toNat % 16)]

def rooted (p : Str) : Str := if p.head? = some '/' then p else '/' :: p

def encodePath (p : Str) : Str := rooted (p.flatMap encodePathChar)

def queryChar (c : Char) : Bool := 33 ≤ c.toNat && c.toNat ≤ 126 && c != '#'

structure Url where
  path : Str
  query : Option Str
  path_root : path.head? = some '/'
  path_chars : ∀ c ∈ path, pathChar c = true
  query_chars : ∀ c ∈ query.getD [], queryChar c = true

def Url.plain (path : Str) (path_root : path.head? = some '/')
    (path_chars : ∀ c ∈ path, pathChar c = true) : Url := ⟨path, none, path_root, path_chars, nofun⟩

def origin : Str := "https://example.com"

def Url.asStr (u : Url) : Str := origin ++ (u.path ++ u.query.elim [] ('?' :: ·))

def Url.ofParts (path : Str) (query : Option Str) : Option Url :=
  if h : path.head? = some '/' ∧ (∀ c ∈ path, pathChar c = true) ∧
      ∀ c ∈ query.getD [], queryChar c = true then
    some ⟨path, query, h.1, h.2.1, h.2.2⟩
  else none

def Url.parse (s : Str) : Option Url :=
  (Str.stripPrefix origin s).bind fun rest =>
    match rest.splitOnce '?' with
    | some (path, query) => Url.ofParts path (some query)
    | none => Url.ofParts rest none

theorem pathChar_upperHex : ∀ n < 16, pathChar (FormUrlencoded.upperHex n) = true := by decide

variable {p s : Str} {c : Char}

theorem pathChar_of_mem_encodePath : ∀ c ∈ encodePath p, pathChar c = true := by
  have hflat : ∀ c ∈ p.flatMap encodePathChar, pathChar c = true := by
    intro c hc
    obtain ⟨d, -, hd⟩ := mem_flatMap.mp hc
    unfold encodePathChar at hd
    split at hd
    · next h => exact mem_singleton.mp hd ▸ h
    · split at hd
      · rw [mem_singleton.mp hd]
        decide
      · obtain ⟨b, -, hb⟩ := mem_flatMap.mp hd
        have hlt := b.toNat_lt
        simp only [mem_cons, not_mem_nil, or_false] at hb
        rcases hb with rfl | rfl | rfl
        · decide
        · exact pathChar_upperHex _ (by omega)
        · exact pathChar_upperHex _ (by omega)
  intro c hc
  unfold encodePath rooted at hc
  split at hc
  · exact hflat c hc
  · rcases mem_cons.mp hc with rfl | hc
    · decide
    · exact hflat c hc

theorem encodePath_root (p : Str) : (encodePath p).head? = some '/' := by
  unfold encodePath rooted
  split
  · assumption
  · rfl

theorem encodePath_eq_self (hroot : p.head? = some '/') (h : ∀ c ∈ p, pathChar c = true) : encodePath p = p := by
  have hflat : p.flatMap encodePathChar = p := by
    clear hroot
    induction p with
    | nil => rfl
    | cons c p ih =>
      have hc : encodePathChar c = [c] := if_pos (h c mem_cons_self)
      rw [flatMap_cons, hc, ih fun d hd => h d (mem_cons_of_mem c hd)]
      rfl
  rw [encodePath, hflat, rooted, if_pos hroot]

def Url.setPath (u : Url) (p : Str) : Url :=
  { u with path := encodePath p, path_root := encodePath_root p, path_chars := pathChar_of_mem_encodePath }

theorem queryChar_of_plain (h : FormUrlencoded.plain c = true) : queryChar c = true := by
  simp only [FormUrlencoded.plain, queryChar, Bool.and_eq_true, decide_eq_true_eq] at h ⊢
  exact ⟨h.1.1.1, h.2⟩

def Url.appendPair (u : Url) (k v : Str) : Url :=
  { u with
    query := some (FormUrlencoded.append (u.query.getD []) k v)
    query_chars := by
      intro c hc
      simp only [Option.getD_some, FormUrlencoded.append, mem_append, mem_cons] at hc
      rcases hc with (hc | hc) | rfl | hc
      · split at hc
        · cases hc
        · rcases mem_append.mp hc with hc | hc
          · exact u.query_chars c hc
          · rw [mem_singleton.mp hc]
            decide
      · exact queryChar_of_plain (FormUrlencoded.plain_of_mem_encode c hc)
      · decide
      · exact queryChar_of_plain (FormUrlencoded.plain_of_mem_encode c hc) }

/-! ## The laws -/

theorem pathChar_of_tokenChar (h : tokenChar c = true) : pathChar c = true := by
  rw [tokenChar_iff] at h
  simp only [pathChar, Bool.and_eq_true, decide_eq_true_eq, bne_iff_ne]
  omega

theorem visible_of_pathChar (h : pathChar c = true) : visible c = true := by
  simp only [pathChar, Bool.and_eq_true, decide_eq_true_eq, bne_iff_ne] at h
  rw [visible_iff]
  omega

theorem visible_of_queryChar (h : queryChar c = true) : visible c = true := by
  simp only [queryChar, Bool.and_eq_true, decide_eq_true_eq] at h
  rw [visible_iff]
  omega

theorem valueChar_of_visible (h : visible c = true) : valueChar c = true := by
  rw [visible_iff] at h
  simp only [valueChar, Bool.or_eq_true, Bool.and_eq_true, decide_eq_true_eq, beq_iff_eq, bne_iff_ne]
  omega

/-- A token stays one in lower case: the characters are few enough to try. -/
theorem tchar_lowercase : ∀ n < 127, tchar (Char.ofNat n) = true →
    (Str.toAsciiLowercase [Char.ofNat n]).all tchar = true := by
  decide +kernel

theorem all_tchar_toAsciiLowercase (h : ∀ c ∈ s, tchar c = true) : s.toAsciiLowercase.all tchar = true := by
  induction s with
  | nil => rfl
  | cons c s ih =>
    have hc := h c mem_cons_self
    have hone := tchar_lowercase c.toNat (by have := tchar_bounds hc; omega)
      (by rwa [Char.ofNat_toNat])
    rw [Char.ofNat_toNat] at hone
    have hrest := ih fun d hd => h d (mem_cons_of_mem c hd)
    rw [Str.toAsciiLowercase] at hone hrest ⊢
    rw [map_cons, ← singleton_append, all_append, hrest, Bool.and_true]
    exact hone

theorem headerName_of_token (hne : s ≠ []) (h : ∀ c ∈ s, tchar c = true)
    (hlen : s.length ≤ 65535) : ∃ n, headerName s = some n := by
  refine ⟨s.toAsciiLowercase, if_pos ?_⟩
  have hlen' : s.toAsciiLowercase.length = s.length := length_map _
  have hne' : s.toAsciiLowercase ≠ [] := by simpa [Str.toAsciiLowercase] using hne
  simp [isName, hne', hlen', hlen, all_tchar_toAsciiLowercase h]

theorem headerName_eq_some {n : Str} (h : headerName s = some n) : s.toAsciiLowercase = n := by
  unfold headerName at h
  split at h
  · exact Option.some.inj h
  · cases h

theorem headerValue_of_visible (h : ∀ c ∈ s, visible c = true) : ∃ v, headerValue s = some v ∧ toStr v = some s := by
  refine ⟨s, if_pos ?_, if_pos ?_⟩
  · exact all_eq_true.mpr fun c hc => valueChar_of_visible (h c hc)
  · exact all_eq_true.mpr h

theorem getAll_insert_self (m : HeaderMap) (n v : Str) : getAll (insert m n v) n = [v] := by
  simp [getAll, insert, filter_filter]

theorem getAll_insert_of_ne (m : HeaderMap) {n n' : Str} (v : Str) (h : n' ≠ n) :
    getAll (insert m n v) n' = getAll m n' := by
  have hkeep : ∀ p : Str × Str, (decide (p.1 = n') && !decide (p.1 = n)) = decide (p.1 = n') := by
    intro p
    by_cases hp : p.1 = n' <;> simp [hp, h]
  simp [getAll, insert, filter_filter, hkeep, Ne.symm h]

variable (u : Url)
include u

theorem Url.ofParts_self : Url.ofParts u.path u.query = some u :=
  dif_pos ⟨u.path_root, u.path_chars, u.query_chars⟩

theorem Url.parse_asStr : Url.parse u.asStr = some u := by
  have hpath : '?' ∉ u.path := fun h => absurd (u.path_chars _ h) (by decide)
  have hself := u.ofParts_self
  rw [Url.parse, Url.asStr, Str.stripPrefix_append]
  cases hq : u.query with
  | none =>
    rw [hq] at hself
    simp only [Option.bind_some, Option.elim_none, append_nil, Str.splitOnce_of_notMem hpath, hself]
  | some q =>
    rw [hq] at hself
    simp only [Option.bind_some, Option.elim_some, Str.splitOnce_append hpath, hself]

theorem Url.asStr_visible : ∀ c ∈ u.asStr, visible c = true := by
  have horigin : ∀ c ∈ origin, visible c = true := by decide
  intro c hc
  rcases mem_append.mp hc with hc | hc
  · exact horigin c hc
  rcases mem_append.mp hc with hc | hc
  · exact visible_of_pathChar (u.path_chars c hc)
  · have hchars := u.query_chars
    cases hq : u.query with
    | none => rw [hq] at hc; cases hc
    | some q =>
      rw [hq] at hc hchars
      rcases mem_cons.mp hc with rfl | hc
      · decide
      · exact visible_of_queryChar (hchars c hc)

theorem Url.path_setPath_of_plain (hroot : p.head? = some '/')
    (h : ∀ c ∈ p, pathChar c = true) : (u.setPath p).path = p := encodePath_eq_self hroot h

theorem Url.path_setPath_segment (h : ∀ c ∈ s, tokenChar c = true) :
    (u.setPath (u.path.trimEndMatches '/' ++ '/' :: s)).path = u.path.trimEndMatches '/' ++ '/' :: s := by
  apply u.path_setPath_of_plain
  · rcases Str.trimEndMatches_eq_nil_or_head? '/' u.path with hnil | hhead
    · rw [hnil]
      rfl
    · rw [head?_append, hhead, u.path_root]
      rfl
  · intro c hc
    rcases mem_append.mp hc with hc | hc
    · have hsub : u.path.trimEndMatches '/' <+: u.path := rdropWhile_prefix _ _
      exact u.path_chars c (hsub.subset hc)
    · rcases mem_cons.mp hc with rfl | hc
      · decide
      · exact pathChar_of_tokenChar (h c hc)

theorem Url.query_appendPair (k v : Str) :
    FormUrlencoded.parse (FormUrlencoded.append (u.query.getD []) k v) =
      u.query.elim [] FormUrlencoded.parse ++ [(k, v)] := by
  rw [FormUrlencoded.parse_append]
  cases u.query <;> rfl

end Reference

def reference : Http where
  HeaderName := Str
  HeaderValue := Str
  HeaderMap := Reference.HeaderMap
  Url := Reference.Url
  headerName := Reference.headerName
  headerValue := Reference.headerValue
  toStr := Reference.toStr
  empty := []
  insert := Reference.insert
  append := Reference.append
  getAll := Reference.getAll
  cookie := "cookie"
  authorization := "authorization"
  isMethod s := s ≠ [] && List.all s tchar
  parse := Reference.Url.parse
  asStr := Reference.Url.asStr
  path := Reference.Url.path
  query := Reference.Url.query
  setPath := Reference.Url.setPath
  appendPair := Reference.Url.appendPair
  formParse := FormUrlencoded.parse
  headerName_congr h := by simp only [Reference.headerName, h]
  headerName_inj ha hb :=
    (Reference.headerName_eq_some ha).trans (Reference.headerName_eq_some hb).symm
  headerName_token := Reference.headerName_of_token
  headerName_cookie := by decide
  headerName_authorization := by decide
  headerValue_visible := Reference.headerValue_of_visible
  getAll_empty _ := rfl
  getAll_insert_self := Reference.getAll_insert_self
  getAll_insert_of_ne := Reference.getAll_insert_of_ne
  getAll_append_self m n v := by simp [Reference.getAll, Reference.append]
  getAll_append_of_ne m _ _ v h := by simp [Reference.getAll, Reference.append, Ne.symm h]
  path_appendPair _ _ _ := rfl
  query_appendPair u k v := ⟨_, rfl, u.query_appendPair k v⟩
  query_setPath _ _ := rfl
  path_setPath_slash u _ := by
    apply u.path_setPath_of_plain
    · rw [head?_append, u.path_root]
      rfl
    · intro c hc
      rcases mem_append.mp hc with hc | hc
      · exact u.path_chars c hc
      · rw [mem_singleton.mp hc]
        decide
  path_setPath_segment u _ _ _ h := u.path_setPath_segment h
  parse_asStr u _ := u.parse_asStr
  asStr_visible := Reference.Url.asStr_visible

end Xhttp.Http
