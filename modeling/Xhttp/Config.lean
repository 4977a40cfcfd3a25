import Xhttp.Http.Stack
import Xhttp.Lib.Checked

/- The transport configuration both sides share, and its validation
   (`src/config.rs`). `validate` also normalises: it cuts a query off the path,
   makes the path start with a slash and end without one, and upper-cases the
   uplink method. `Valid` collects what holds of every configuration it lets
   through (`validate_valid`).

   `headers` is a `HashMap`: the list stands for any order of its entries. -/
namespace Xhttp
open Lib List Checked

/-- The fields `from` and `to`. -/
structure RangeConfig where
  lo : Nat
  hi : Nat
  deriving DecidableEq, Repr

def RangeConfig.validate (range : RangeConfig) (name : String) : Except Failure Unit :=
  if range.hi = 0 then
    bailIf (range.lo ≠ 0) (name ++ ".from requires a non-zero to value")
  else bailIf (range.hi < range.lo) (name ++ ".from must not exceed " ++ name ++ ".to")

structure XmuxConfig where
  maxConcurrency : RangeConfig
  maxConnections : RangeConfig
  cMaxReuseTimes : RangeConfig
  hMaxRequestTimes : RangeConfig
  hMaxReusableSecs : RangeConfig
  deriving DecidableEq, Repr

def XmuxConfig.validate (xmux : XmuxConfig) : Except Failure Unit := do
  bailIf (xmux.maxConcurrency.hi ≠ 0 ∧ xmux.maxConnections.hi ≠ 0)
    "xmux max_concurrency and max_connections are mutually exclusive"
  xmux.maxConcurrency.validate "xmux.max_concurrency"
  xmux.maxConnections.validate "xmux.max_connections"
  xmux.cMaxReuseTimes.validate "xmux.c_max_reuse_times"
  xmux.hMaxRequestTimes.validate "xmux.h_max_request_times"
  xmux.hMaxReusableSecs.validate "xmux.h_max_reusable_secs"

inductive Mode where
  | auto
  | streamOne
  | streamUp
  | packetUp
  deriving DecidableEq, Repr

inductive Placement where
  | path
  | query
  | header
  | cookie
  | body
  | auto
  | queryInHeader
  deriving DecidableEq, Repr

structure TransportConfig where
  path : Str
  query : Option Str
  host : Option Str
  mode : Mode
  headers : List (Str × Str)
  token : Option Str
  sessionPlacement : Placement
  sessionKey : Str
  sequencePlacement : Placement
  sequenceKey : Str
  dataPlacement : Placement
  dataKey : Str
  paddingMin : Nat
  paddingMax : Nat
  paddingObfs : Bool
  paddingPlacement : Placement
  paddingKey : Str
  paddingHeader : Str
  paddingMethod : Str
  uplinkMethod : Str
  maxPacketSize : Nat
  maxBufferedPackets : Nat
  sessionTimeoutSecs : Nat
  maxSessions : Nat
  maxSessionIdLength : Nat
  xmux : XmuxConfig
  deriving DecidableEq, Repr

def RangeConfig.default : RangeConfig := ⟨0, 0⟩

def TransportConfig.default : TransportConfig :=
  { path := "/xhttp", query := none, host := none, mode := .auto, headers := [], token := none,
    sessionPlacement := .path, sessionKey := "x_session",
    sequencePlacement := .path, sequenceKey := "x_seq",
    dataPlacement := .body, dataKey := "X-Data",
    paddingMin := 100, paddingMax := 1000, paddingObfs := false, paddingPlacement := .queryInHeader,
    paddingKey := "x_padding", paddingHeader := "X-Padding",
    paddingMethod := "repeat-x", uplinkMethod := "POST",
    maxPacketSize := 1000000, maxBufferedPackets := 30, sessionTimeoutSecs := 30, maxSessions := 4096,
    maxSessionIdLength := 256,
    xmux := ⟨.default, .default, .default, .default, .default⟩ }

/-! ## Validation -/

/-- A query behind the path becomes the query, unless it is empty. -/
def TransportConfig.splitQuery (config : TransportConfig) : TransportConfig :=
  match config.path.splitOnce '?' with
  | some (path, query) =>
    { config with path := path, query := if query = [] then config.query else some query }
  | none => config

/-- `while path.len() > 1 && path.ends_with('/') { path.pop() }`, on the reversed path. -/
def popSlashes : Str → Str
  | '/' :: c :: rest => popSlashes (c :: rest)
  | path => path

def normalisePath (path : Str) : Str :=
  let path := if path.startsWith '/' then path else '/' :: path
  (popSlashes path.reverse).reverse

def Placement.ofMetadata : Placement → Bool
  | .path | .query | .header | .cookie => true
  | _ => false

def Placement.ofData : Placement → Bool
  | .body | .header | .cookie | .auto => true
  | _ => false

def Placement.ofPadding : Placement → Bool
  | .header | .cookie | .query | .queryInHeader => true
  | _ => false

def validateHeader (H : Http) (entry : Str × Str) : Except Failure Unit := do
  bailIf (entry.1.toAsciiLowercase = "host")
    "use the XHTTP host field instead of a Host header"
  let _ ← okOr (H.headerName entry.1) (.message "invalid XHTTP header name")
  let _ ← okOr (H.headerValue entry.2) (.message "invalid XHTTP header value")
  pure ()

def validateHeaders (H : Http) : List (Str × Str) → Except Failure Unit
  | [] => pure ()
  | entry :: rest => do
    validateHeader H entry
    validateHeaders H rest

/-- The value of the `Authorization` header, `format!("Bearer {token}")`. -/
def bearer (token : Str) : Str := "Bearer " ++ token

/-- A value that is only checked when it is set. -/
def validateValue (H : Http) (value : Option Str) (text : String) : Except Failure Unit :=
  match value with
  | none => pure ()
  | some value => do
    let _ ← okOr (H.headerValue value) (.message text)
    pure ()

def validateMetadataKey (H : Http) (placement : Placement) (key : Str) : Except Failure Unit :=
  if placement = .header then do
    let _ ← okOr (H.headerName key) (.message "invalid metadata header name")
    pure ()
  else pure ()

def TransportConfig.validate (H : Http) (config : TransportConfig) : Except Failure TransportConfig := do
  let config := config.splitQuery
  let config := { config with path := normalisePath config.path }
  bailIf (config.paddingMax < config.paddingMin) "padding_min must not exceed padding_max"
  bailIf (config.maxPacketSize = 0 ∨ config.maxBufferedPackets = 0 ∨
    config.sessionTimeoutSecs = 0 ∨ config.maxSessions = 0 ∨ config.maxSessionIdLength = 0)
    "packet limits must be greater than zero"
  bailIf (config.sessionPlacement.ofMetadata = false ∨ config.sequencePlacement.ofMetadata = false)
    "session and sequence metadata cannot use body placement"
  bailIf (config.dataPlacement.ofData = false) "data placement must be body, header, cookie, or auto"
  bailIf (config.paddingPlacement.ofPadding = false) "invalid padding placement"
  bailIf (config.paddingMethod ≠ "repeat-x".toList ∧ config.paddingMethod ≠ "tokenish".toList)
    "invalid padding method"
  let config := { config with uplinkMethod := config.uplinkMethod.toAsciiUppercase }
  bailIf (H.isMethod config.uplinkMethod = false) "invalid XHTTP uplink method"
  bailIf (config.uplinkMethod = "GET".toList ∧ config.mode ≠ .auto ∧ config.mode ≠ .packetUp)
    "GET uplink method requires packet-up or auto mode"
  validateHeaders H config.headers
  validateValue H config.host "invalid XHTTP host value"
  validateValue H (config.token.map bearer) "invalid XHTTP authorization token"
  config.xmux.validate
  validateMetadataKey H config.sessionPlacement config.sessionKey
  validateMetadataKey H config.sequencePlacement config.sequenceKey
  pure config

/-! ## What validation guarantees -/

/-- What holds of every configuration `validate` lets through. -/
structure TransportConfig.Valid (H : Http) (config : TransportConfig) : Prop where
  path_head : config.path.head? = some '/'
  path_end : config.path = ['/'] ∨ config.path.endsWith '/' = false
  padding_le : config.paddingMin ≤ config.paddingMax
  session : config.sessionPlacement.ofMetadata = true
  sequence : config.sequencePlacement.ofMetadata = true
  data : config.dataPlacement.ofData = true
  padding : config.paddingPlacement.ofPadding = true
  padding_method : config.paddingMethod = "repeat-x" ∨ config.paddingMethod = "tokenish"
  uplink_method : H.isMethod config.uplinkMethod = true
  headers : ∀ entry ∈ config.headers, entry.1.toAsciiLowercase ≠ "host" ∧
    (∃ n, H.headerName entry.1 = some n) ∧ ∃ v, H.headerValue entry.2 = some v
  host : ∀ host, config.host = some host → ∃ v, H.headerValue host = some v
  token : ∀ token, config.token = some token → ∃ v, H.headerValue (bearer token) = some v
  session_name : config.sessionPlacement = .header → ∃ n, H.headerName config.sessionKey = some n
  sequence_name : config.sequencePlacement = .header → ∃ n, H.headerName config.sequenceKey = some n

theorem popSlashes_getLast? (r : Str) : (popSlashes r).getLast? = r.getLast? := by
  fun_induction popSlashes r with
  | case1 c rest ih => rw [ih]; rfl
  | case2 r _ => rfl

theorem popSlashes_head? (r : Str) : (popSlashes r).length ≤ 1 ∨ (popSlashes r).head? ≠ some '/' := by
  fun_induction popSlashes r with
  | case1 c rest ih => exact ih
  | case2 r h =>
    match r with
    | [] => exact Or.inl (Nat.zero_le 1)
    | [c] => exact Or.inl (Nat.le_refl 1)
    | c :: d :: rest =>
      right
      rintro he
      cases he
      exact h d rest rfl

theorem normalisePath_head? (path : Str) : (normalisePath path).head? = some '/' := by
  simp only [normalisePath, head?_reverse, popSlashes_getLast?, getLast?_reverse]
  split
  · next h => simpa [Str.startsWith] using h
  · rfl

theorem normalisePath_end (path : Str) : normalisePath path = ['/'] ∨ (normalisePath path).endsWith '/' = false := by
  have hhead := normalisePath_head? path
  simp only [normalisePath] at hhead ⊢
  generalize (if path.startsWith '/' = true then path else '/' :: path).reverse = r at hhead ⊢
  rcases popSlashes_head? r with h | h
  · -- one character, which is the leading slash
    left
    match hp : popSlashes r, h, hhead with
    | [], _, hhead => simp at hhead
    | [c], _, hhead => simpa using hhead
  · simp [Str.endsWith, getLast?_reverse, h]

variable {H : Http}

theorem validateHeader_ok {entry : Str × Str} (h : validateHeader H entry = .ok ()) :
    entry.1.toAsciiLowercase ≠ "host" ∧ (∃ n, H.headerName entry.1 = some n) ∧
      ∃ v, H.headerValue entry.2 = some v := by
  obtain ⟨_, hhost, h⟩ := bind_ok_iff.mp h
  grind [bind_ok_iff, bailIf_ok_iff, okOr_ok_iff]

theorem validateHeaders_ok {headers : List (Str × Str)} (h : validateHeaders H headers = .ok ()) :
    ∀ entry ∈ headers, entry.1.toAsciiLowercase ≠ "host" ∧
      (∃ n, H.headerName entry.1 = some n) ∧ ∃ v, H.headerValue entry.2 = some v := by
  induction headers with
  | nil => simp
  | cons entry rest ih =>
    obtain ⟨_, hfirst, hrest⟩ := bind_ok_iff.mp h
    grind [validateHeader_ok]

theorem validateValue_ok {value : Str} {text : String}
    (h : validateValue H (some value) text = .ok ()) : ∃ v, H.headerValue value = some v := by
  obtain ⟨v, hv, -⟩ := bind_ok_iff.mp h
  exact ⟨v, okOr_ok_iff.mp hv⟩

theorem validateMetadataKey_ok {placement : Placement} {key : Str}
    (h : validateMetadataKey H placement key = .ok ()) (hp : placement = .header) : ∃ n, H.headerName key = some n := by
  rw [validateMetadataKey, if_pos hp] at h
  grind [bind_ok_iff, okOr_ok_iff]

theorem validate_valid {raw config : TransportConfig} (h : raw.validate H = .ok config) : config.Valid H := by
  simp only [TransportConfig.validate, bind_ok_iff] at h
  obtain ⟨_, hpadding, _, hlimits, _, hmeta, _, hdata, _, hplace, _, hmethod, _, huplink, _, hget,
    _, hheaders, _, hhost, _, htoken, _, hxmux, _, hsession, _, hsequence, h⟩ := h
  -- every check has passed, and what is left is the normalised configuration
  cases h
  rw [bailIf_ok_iff] at hpadding hmeta hdata hplace hmethod huplink
  exact {
    path_head := normalisePath_head? _
    path_end := normalisePath_end _
    padding_le := Nat.le_of_not_lt hpadding
    session := by simpa using fun hs => hmeta (Or.inl hs)
    sequence := by simpa using fun hs => hmeta (Or.inr hs)
    data := by simpa using hdata
    padding := by simpa using hplace
    padding_method := by
      by_contra hboth
      exact hmethod (not_or.mp hboth)
    uplink_method := by simpa using huplink
    headers := validateHeaders_ok hheaders
    host := fun host hsome => validateValue_ok (hsome ▸ hhost)
    token := fun token hsome => by
      rw [hsome] at htoken
      exact validateValue_ok htoken
    session_name := validateMetadataKey_ok hsession
    sequence_name := validateMetadataKey_ok hsequence }

end Xhttp
