import Xhttp.Protocol.Padding
import Xhttp.Protocol.Payload

/- The requests of a client (`src/client.rs`): everything that is the same for all
   requests is built once, and every request adds padding, metadata and, for a packet,
   the payload. A request is what the HTTP stack carries to the server.

   The random lengths of the padding are arguments. -/
namespace Xhttp
open Lib List Checked

/-- A request as it arrives. -/
structure Request (H : Http) where
  method : Str
  uri : Uri
  headers : H.HeaderMap
  body : Bytes

namespace Client
open Protocol

structure RequestBase (H : Http) where
  url : H.Url
  headers : H.HeaderMap

def addHeaders (H : Http) : List (Str × Str) → H.HeaderMap → Except Failure H.HeaderMap
  | [], headers => pure headers
  | (name, value) :: rest, headers => do
    let n ← okOr (H.headerName name) (.message "invalid configured header name")
    let v ← okOr (H.headerValue value) (.message "invalid configured header value")
    addHeaders H rest (H.insert headers n v)

def addToken (H : Http) (token : Option Str) (headers : H.HeaderMap) : Except Failure H.HeaderMap :=
  match token with
  | none => pure headers
  | some token => do
    let v ← okOr (H.headerValue (bearer token)) invalidValue
    pure (H.insert headers H.authorization v)

def addCommonHeaders (H : Http) (config : TransportConfig) (headers : H.HeaderMap) : Except Failure H.HeaderMap := do
  let headers ← addHeaders H config.headers headers
  addToken H config.token headers

/-- `headers.insert("host", host.parse()?)`; a literal that is no header name would be
    a panic. -/
def addHost (H : Http) (host : Option Str) (headers : H.HeaderMap) : Except Failure H.HeaderMap :=
  match host with
  | none => pure headers
  | some host => do
    let v ← okOr (H.headerValue host) invalidValue
    let n ← okOr (H.headerName "host") .panic
    pure (H.insert headers n v)

/-- A server URL without a path gets the configured one; then a slash is put behind it. -/
def baseUrl (H : Http) (path : Str) (url : H.Url) : H.Url :=
  let url := if H.path url = ['/'] then H.setPath url path else url
  if (H.path url).endsWith '/' then url else H.setPath url (H.path url ++ ['/'])

def appendPairs (H : Http) (pairs : List (Str × Str)) (url : H.Url) : H.Url :=
  pairs.foldl (fun url kv => H.appendPair url kv.1 kv.2) url

def buildRequestBase (H : Http) (server : Str) (config : TransportConfig) : Except Failure (RequestBase H) := do
  let url ← okOr (H.parse server) (.message "invalid server URL")
  let url := appendPairs H (config.query.elim [] H.formParse) (baseUrl H config.path url)
  let headers ← addCommonHeaders H config H.empty
  let headers ← addHost H config.host headers
  pure ⟨url, headers⟩

def request (H : Http) (F : Huffman) (config : TransportConfig) (base : RequestBase H) (sampled : Nat)
    (session : Option Str) (sequence : Option UInt64) : Except Failure (H.Url × H.HeaderMap) :=
  let (url, headers) := applyPadding H F config sampled base.url base.headers
  applyMetadata H config url headers session sequence

def uplinkMethod (H : Http) (config : TransportConfig) : Except Failure Str :=
  if H.isMethod config.uplinkMethod then .ok config.uplinkMethod
  else .error (.message "invalid XHTTP uplink method")

def packetRequest (H : Http) (B : Base64) (F : Huffman) (config : TransportConfig) (base : RequestBase H)
    (sampled : Nat) (session : Str) (sequence : UInt64) (payload : Bytes) : Except Failure (Request H) := do
  let (url, headers) ← request H F config base sampled (some session) (some sequence)
  let (body, headers) ← putPayload H B config payload headers
  let method ← uplinkMethod H config
  pure ⟨method, H.uri url, headers, body.getD []⟩

def downloadRequest (H : Http) (F : Huffman) (config : TransportConfig) (base : RequestBase H)
    (sampled : Nat) (session : Str) : Except Failure (Request H) := do
  let (url, headers) ← request H F config base sampled (some session) none
  pure ⟨"GET", H.uri url, headers, []⟩

/-! ## The base -/

section
variable {H : Http} {url : H.Url}

theorem pairs_appendPairs (pairs : List (Str × Str)) (url : H.Url) :
    H.pairs (appendPairs H pairs url) = H.pairs url ++ pairs := by
  induction pairs generalizing url with
  | nil => exact (append_nil _).symm
  | cons kv pairs ih =>
    calc H.pairs (appendPairs H pairs (H.appendPair url kv.1 kv.2))
        = H.pairs (H.appendPair url kv.1 kv.2) ++ pairs := ih _
      _ = H.pairs url ++ [kv] ++ pairs := by rw [H.pairs_appendPair]
      _ = H.pairs url ++ kv :: pairs := by rw [append_assoc, singleton_append]

theorem path_appendPairs (pairs : List (Str × Str)) (url : H.Url) : H.path (appendPairs H pairs url) = H.path url := by
  induction pairs generalizing url with
  | nil => rfl
  | cons kv pairs ih =>
    show H.path (appendPairs H pairs (H.appendPair url kv.1 kv.2)) = _
    rw [ih, H.path_appendPair]

theorem path_baseUrl {path : Str} (hroot : path.head? = some '/')
    (hend : path = ['/'] ∨ path.endsWith '/' = false) (hurl : H.path url = ['/'])
    (hnormal : H.path (H.setPath url path) = path) :
    path.endsWith '/' = false ∧ H.path (baseUrl H path url) = path ++ ['/'] ∨
      path = ['/'] ∧ H.path (baseUrl H path url) = ['/'] := by
  simp only [baseUrl, if_pos hurl, hnormal]
  -- the first `set_path` gives the configured path, the second adds the slash
  rcases hend with rfl | hend
  · exact Or.inr ⟨rfl, hnormal⟩
  · have hslash := H.path_setPath_slash (H.setPath url path) (by rw [hnormal]; exact hroot)
    rw [hnormal] at hslash
    refine Or.inl ⟨hend, ?_⟩
    rw [hend]
    exact hslash

theorem query_baseUrl (path : Str) (url : H.Url) : H.pairs (baseUrl H path url) = H.pairs url := by
  simp only [baseUrl]
  split <;> split <;> simp only [H.pairs_setPath]

theorem addHeaders_ok {entries : List (Str × Str)}
    (h : ∀ entry ∈ entries, (∃ n, H.headerName entry.1 = some n) ∧ ∃ v, H.headerValue entry.2 = some v)
    (headers : H.HeaderMap) : ∃ headers', addHeaders H entries headers = .ok headers' := by
  induction entries generalizing headers with
  | nil => exact ⟨headers, rfl⟩
  | cons entry rest ih =>
    obtain ⟨⟨n, hn⟩, v, hv⟩ := h entry mem_cons_self
    obtain ⟨headers', hok⟩ := ih (fun e he => h e (mem_cons_of_mem _ he)) (H.insert headers n v)
    refine ⟨headers', ?_⟩
    simp only [addHeaders, hn, hv, okOr]
    exact hok

theorem addToken_ok {token : Option Str}
    (h : ∀ t, token = some t → ∃ v, H.headerValue (bearer t) = some v) (headers : H.HeaderMap) :
    ∃ headers', addToken H token headers = .ok headers' ∧
      ∀ t, token = some t → (∀ c ∈ bearer t, visible c = true) →
        H.getStr headers' "authorization" = some (bearer t) := by
  cases token with
  | none => exact ⟨headers, rfl, nofun⟩
  | some t =>
    obtain ⟨v, hv⟩ := h t rfl
    refine ⟨H.insert headers H.authorization v, by simp only [addToken, hv, okOr]; rfl, ?_⟩
    intro t' ht hvisible
    cases ht
    exact H.getStr_insert_self headers H.headerName_authorization (H.toStr_of_visible hv hvisible)

/-- The host goes in last and leaves every other header alone. -/
theorem addHost_ok {host : Option Str} (h : ∀ t, host = some t → ∃ v, H.headerValue t = some v)
    (headers : H.HeaderMap) : ∃ headers', addHost H host headers = .ok headers' ∧
      (∀ t, host = some t → (∀ c ∈ t, visible c = true) → H.getStr headers' "host".toList = some t) ∧
      ∀ key, key.toAsciiLowercase ≠ "host".toList → H.getStr headers' key = H.getStr headers key := by
  cases host with
  | none => exact ⟨headers, rfl, nofun, fun _ _ => rfl⟩
  | some t =>
    obtain ⟨v, hv⟩ := h t rfl
    obtain ⟨n, hn⟩ : ∃ n, H.headerName "host" = some n :=
      H.headerName_token (by decide) (by decide) (by decide)
    refine ⟨H.insert headers n v, by simp only [addHost, hv, hn, okOr]; rfl, ?_, ?_⟩
    · intro t' ht hvisible
      cases ht
      exact H.getStr_insert_self headers hn (H.toStr_of_visible hv hvisible)
    · intro key hkey
      exact H.getStr_insert_of_ne headers v fun hk => hkey (H.headerName_inj hk hn)

/-- A validated configuration and a server URL that parses have a request base; it
    carries host and token, where these are set. -/
theorem buildRequestBase_ok {config : TransportConfig} (hvalid : config.Valid H) {server : Str}
    (hserver : H.parse server = some url) : ∃ base, buildRequestBase H server config = .ok base ∧
      base.url = appendPairs H (config.query.elim [] H.formParse) (baseUrl H config.path url) ∧
      (∀ t, config.host = some t → (∀ c ∈ t, visible c = true) →
        H.getStr base.headers "host" = some t) ∧
      ∀ t, config.token = some t → (∀ c ∈ bearer t, visible c = true) →
        H.getStr base.headers "authorization" = some (bearer t) := by
  obtain ⟨headers₁, hok₁⟩ := addHeaders_ok (fun entry he => (hvalid.headers entry he).2) H.empty
  obtain ⟨headers₂, hok₂, htoken⟩ := addToken_ok hvalid.token headers₁
  obtain ⟨headers₃, hok₃, hhost, hother⟩ := addHost_ok hvalid.host headers₂
  refine ⟨⟨_, headers₃⟩, ?_, rfl, hhost, ?_⟩
  · simp only [buildRequestBase, hserver, okOr, addCommonHeaders, hok₁, bind, Except.bind, hok₂, hok₃]
    rfl
  · -- the host went in after the token
    intro t ht hvisible
    rw [hother _ (by decide)]
    exact htoken t ht hvisible

end

end Client

end Xhttp
