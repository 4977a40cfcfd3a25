import Xhttp.Http.Reference
import Xhttp.Protocol.Base64
import Xhttp.Protocol.Writes

/- The payload of an uplink packet (`src/protocol.rs`): in the body, or encoded and
   cut into chunks that go into numbered headers or numbered cookies. The server
   tries the numbers one after the other and stops at the first that is not there. -/
namespace Xhttp.Protocol
open Lib List Checked

/-- `format!("{}{separator}{index}", config.data_key)`. -/
def numberedKey (key : Str) (separator : Char) (index : Nat) : Str :=
  key ++ separator :: Str.decimal index

def putNumbered {σ : Type} (put : Nat → Str → σ → Except Failure σ) : Nat → List Str → σ → Except Failure σ
  | _, [], headers => pure headers
  | index, chunk :: chunks, headers => do
    let headers ← put index chunk headers
    putNumbered put (index + 1) chunks headers

def putHeader (H : Http) (key : Str) (index : Nat) (chunk : Str) (headers : H.HeaderMap) :
    Except Failure H.HeaderMap := do
  let n ← okOr (H.headerName (numberedKey key '-' index)) invalidName
  let v ← okOr (H.headerValue chunk) invalidValue
  pure (H.insert headers n v)

def putCookie (H : Http) (key : Str) (index : Nat) (chunk : Str) (headers : H.HeaderMap) : Except Failure H.HeaderMap :=
  appendCookie H headers (numberedKey key '_' index) chunk

def putPayload (H : Http) (B : Base64) (config : TransportConfig) (payload : Bytes)
    (headers : H.HeaderMap) : Except Failure (Option Bytes × H.HeaderMap) :=
  match config.dataPlacement with
  | .body | .auto => .ok (some payload, headers)
  | .header => do
    let headers ← putNumbered (putHeader H config.dataKey) 0 ((B.encode payload).chunks 3000) headers
    pure (none, headers)
  | .cookie => do
    let headers ← putNumbered (putCookie H config.dataKey) 0 ((B.encode payload).chunks 2000) headers
    pure (none, headers)
  | _ => .error (.message "invalid payload placement")

/-- The loop of `collect_numbered`. `fuel` bounds the numbers that are tried; the index
    of the source is an `i32`, and going past its range is a panic. -/
def collectNumbered (get : Str → Option Str) (key : Str) (separator : Char) : Nat → Nat → Str → Except Failure Str
  | 0, _, _ => .error .panic
  | fuel + 1, index, output =>
    match get (numberedKey key separator index) with
    | none => pure output
    | some value => collectNumbered get key separator fuel (index + 1) (output ++ value)

def decodePayload (B : Base64) (encoded : Str) : Except Failure Bytes :=
  okOr (B.decode encoded) (.message "invalid base64url packet payload")

/-- An encoding that was not found adds nothing. -/
def decodePart (B : Base64) (encoded : Str) : Except Failure Bytes :=
  if encoded = [] then pure [] else decodePayload B encoded

def extractPayload (H : Http) (B : Base64) (fuel : Nat) (config : TransportConfig)
    (headers : H.HeaderMap) (body : Bytes) : Except Failure Bytes :=
  match config.dataPlacement with
  | .auto => do
    let fromHeaders ← collectNumbered (H.getStr headers) config.dataKey '-' fuel 0 []
    let fromCookies ← collectNumbered (cookieValue H headers) config.dataKey '_' fuel 0 []
    let first ← decodePart B fromHeaders
    let second ← decodePart B fromCookies
    pure (first ++ second ++ body)
  | .body => pure body
  | .header => do
    let encoded ← collectNumbered (H.getStr headers) config.dataKey '-' fuel 0 []
    decodePayload B encoded
  | .cookie => do
    let encoded ← collectNumbered (cookieValue H headers) config.dataKey '_' fuel 0 []
    decodePayload B encoded
  | _ => .error (.message "invalid payload placement")

def extractPayloadBytes (H : Http) (B : Base64) (fuel : Nat) (config : TransportConfig)
    (headers : H.HeaderMap) (body : Bytes) : Except Failure Bytes :=
  match config.dataPlacement with
  | .body => pure body
  | _ => extractPayload H B fuel config headers body

/-! ## Numbered keys -/

/-- The entries of the chunks under their numbered keys. -/
def numbered (key : Str) (separator : Char) : Nat → List Str → List (Str × Str)
  | _, [] => []
  | index, chunk :: chunks =>
    (numberedKey key separator index, chunk) :: numbered key separator (index + 1) chunks

variable {separator : Char} {H : Http} {fuel : Nat} {payload : Bytes} {w : Writes} {B : Base64}

theorem numberedKey_injective {key : Str} {i j : Nat}
    (h : numberedKey key separator i = numberedKey key separator j) : i = j := by
  have htail := append_cancel_left h
  exact Str.decimal_injective (List.cons.inj htail).2

theorem valuesOf_numbered_lt {key : Str} {j start : Nat} (hlt : j < start)
    (chunks : List Str) : valuesOf (numberedKey key separator j) (numbered key separator start chunks) = [] := by
  induction chunks generalizing start with
  | nil => rfl
  | cons chunk chunks ih =>
    have hne : numberedKey key separator start ≠ numberedKey key separator j := by
      intro h
      have := numberedKey_injective h
      omega
    rw [numbered, valuesOf_cons, if_neg hne]
    exact ih (by omega)

theorem valuesOf_numbered (key : Str) (separator : Char) (start j : Nat) (chunks : List Str) :
    valuesOf (numberedKey key separator (start + j)) (numbered key separator start chunks) = chunks[j]?.toList := by
  induction chunks generalizing start j with
  | nil => rfl
  | cons chunk chunks ih =>
    rw [numbered, valuesOf_cons]
    cases j with
    | zero =>
      rw [Nat.add_zero, if_pos rfl, valuesOf_numbered_lt (by omega)]
      rfl
    | succ j =>
      have hne : numberedKey key separator start ≠ numberedKey key separator (start + (j + 1)) := by
        intro h
        have := numberedKey_injective h
        omega
      rw [if_neg hne, show start + (j + 1) = start + 1 + j by omega, ih]
      rfl

theorem toAsciiLowercase_numberedKey (key : Str) (i : Nat) :
    (numberedKey key '-' i).toAsciiLowercase = numberedKey key.toAsciiLowercase '-' i := by
  have htail : Str.toAsciiLowercase ('-' :: Str.decimal i) = '-' :: Str.decimal i :=
    congrArg (List.cons '-') (Str.toAsciiLowercase_decimal i)
  rw [numberedKey, Str.toAsciiLowercase_append, htail]
  rfl

theorem numberedKey_ne_of_notMem {name : Str} (hname : '-' ∉ name) (key : Str) (i : Nat) :
    (numberedKey key '-' i).toAsciiLowercase ≠ name := by
  rw [toAsciiLowercase_numberedKey]
  rintro rfl
  exact hname (by simp [numberedKey])

theorem numberedKey_ne_cookie (key : Str) (i : Nat) : (numberedKey key '-' i).toAsciiLowercase ≠ "cookie" :=
  numberedKey_ne_of_notMem (by decide) key i

/-- Header names are compared in lower case, numbers included. -/
theorem headersOf_numbered (key : Str) (j : Nat) (chunks : List Str) :
    headersOf (numberedKey key '-' j) (numbered key '-' 0 chunks) = chunks[j]?.toList := by
  have hlower : ∀ start (chunks : List Str), headersOf (numberedKey key '-' j) (numbered key '-' start chunks) =
        valuesOf (numberedKey key.toAsciiLowercase '-' j) (numbered key.toAsciiLowercase '-' start chunks) := by
    intro start chunks
    induction chunks generalizing start with
    | nil => rfl
    | cons chunk chunks ih =>
      rw [numbered, numbered, valuesOf_cons, ← ih, ← singleton_append, headersOf_append,
        headersOf_singleton, toAsciiLowercase_numberedKey, toAsciiLowercase_numberedKey]
      split <;> rfl
  have hvalues := valuesOf_numbered key.toAsciiLowercase '-' 0 j chunks
  rw [Nat.zero_add] at hvalues
  rw [hlower, hvalues]

theorem valuesOf_numbered_of_ne {key name : Str}
    (h : ∀ i, name ≠ numberedKey key separator i) (start : Nat) (chunks : List Str) :
    valuesOf name (numbered key separator start chunks) = [] := by
  induction chunks generalizing start with
  | nil => rfl
  | cons chunk chunks ih =>
    rw [numbered, valuesOf_cons, if_neg (h start).symm]
    exact ih (start + 1)

theorem headersOf_numbered_of_ne {key name : Str}
    (h : ∀ i, name.toAsciiLowercase ≠ (numberedKey key '-' i).toAsciiLowercase) (start : Nat)
    (chunks : List Str) : headersOf name (numbered key '-' start chunks) = [] := by
  induction chunks generalizing start with
  | nil => rfl
  | cons chunk chunks ih =>
    rw [numbered, ← singleton_append, headersOf_append, headersOf_singleton, if_neg (h start).symm]
    exact ih (start + 1)

/-! ## Putting -/

def headerChunks (B : Base64) (config : TransportConfig) (payload : Bytes) : List Str :=
  if config.dataPlacement = .header then (B.encode payload).chunks 3000 else []

def cookieChunks (B : Base64) (config : TransportConfig) (payload : Bytes) : List Str :=
  if config.dataPlacement = .cookie then (B.encode payload).chunks 2000 else []

def payloadWrites (B : Base64) (config : TransportConfig) (payload : Bytes) : Writes :=
  ⟨[], [], numbered config.dataKey '-' 0 (headerChunks B config payload),
    numbered config.dataKey '_' 0 (cookieChunks B config payload)⟩

/-- One chunk after the other, whatever kind of entry a chunk becomes. -/
theorem putNumbered_carries {headers₀ : H.HeaderMap} {key : Str}
    (put : Nat → Str → H.HeaderMap → Except Failure H.HeaderMap) (entry : List (Str × Str) → Writes)
    (good : Nat → Prop) (hnil : entry [] = Writes.none) (hcons : ∀ e l, entry (e :: l) = entry [e] ++ entry l)
    (hput : ∀ i chunk w headers, good i → (∀ c ∈ chunk, tokenChar c = true) →
      Carries H headers₀ w headers → ∃ headers', put i chunk headers = .ok headers' ∧
        Carries H headers₀ (w ++ entry [(numberedKey key separator i, chunk)]) headers')
    {chunks : List Str} (hchars : ∀ chunk ∈ chunks, ∀ c ∈ chunk, tokenChar c = true) (start : Nat)
    (hgood : ∀ i < chunks.length, good (start + i)) {headers : H.HeaderMap} (h : Carries H headers₀ w headers) :
    ∃ headers', putNumbered put start chunks headers = .ok headers' ∧
      Carries H headers₀ (w ++ entry (numbered key separator start chunks)) headers' := by
  -- induction on the chunks; each one adds its own entry behind the writes `w` so far
  induction chunks generalizing start w headers with
  | nil => exact ⟨headers, rfl, by rw [numbered, hnil, Writes.append_none]; exact h⟩
  | cons chunk chunks ih =>
    obtain ⟨headers₁, hok₁, h₁⟩ := hput start chunk w headers (hgood 0 (Nat.succ_pos _))
      (hchars chunk mem_cons_self) h
    have hrest : ∀ i < chunks.length, good (start + 1 + i) := by
      intro i hi
      have := hgood (i + 1) (Nat.succ_lt_succ hi)
      rwa [show start + (i + 1) = start + 1 + i by omega] at this
    obtain ⟨headers₂, hok₂, h₂⟩ := ih (fun c hc => hchars c (mem_cons_of_mem _ hc)) (start + 1) hrest h₁
    refine ⟨headers₂, ?_, ?_⟩
    · rw [putNumbered, hok₁]
      exact hok₂
    · rw [numbered, hcons, ← Writes.append_assoc]
      exact h₂

theorem putHeader_carries {headers₀ headers : H.HeaderMap} {key : Str} {i : Nat}
    {chunk : Str} (hname : ∃ n, H.headerName (numberedKey key '-' i) = some n)
    (hchars : ∀ c ∈ chunk, tokenChar c = true) (h : Carries H headers₀ w headers) :
    ∃ headers', putHeader H key i chunk headers = .ok headers' ∧
      Carries H headers₀ (w ++ ⟨[], [], [(numberedKey key '-' i, chunk)], []⟩) headers' := by
  obtain ⟨n, hn⟩ := hname
  obtain ⟨v, hval, hstr⟩ := H.headerValue_visible fun c hc => visible_of_tokenChar (hchars c hc)
  refine ⟨H.insert headers n v, ?_, h.insert hn hstr (numberedKey_ne_cookie key i)⟩
  simp only [putHeader, hn, hval, okOr]
  rfl

theorem CookieKey.numbered {key : Str} (h : CookieKey key) (i : Nat) : CookieKey (numberedKey key '_' i) := by
  have htail : ∀ c ∈ '_' :: Str.decimal i, tokenChar c = true := by
    intro c hc
    rcases mem_cons.mp hc with rfl | hc
    · decide
    · exact tokenChar_of_isDigit (Str.isDigit_of_mem_decimal hc)
  have hnot : ∀ {c}, c ∉ key → tokenChar c = false → c ∉ numberedKey key '_' i := by
    intro c hk hc hmem
    rcases mem_append.mp hmem with hmem | hmem
    · exact hk hmem
    · exact notMem_of_tokenChars htail hc hmem
  constructor
  · intro c hc
    rcases mem_append.mp hc with hc | hc
    · exact h.chars c hc
    · exact visible_of_tokenChar (htail c hc)
  · exact hnot h.semicolon (by decide)
  · exact hnot h.equals (by decide)
  · intro c hc
    cases key with
    | nil =>
      cases hc
      decide
    | cons x key => exact h.head c hc

/-- The body `put_payload` returns. -/
def payloadBody (config : TransportConfig) (payload : Bytes) : Option Bytes :=
  if config.dataPlacement = .header ∨ config.dataPlacement = .cookie then none else some payload

theorem chars_of_mem_chunks (B : Base64) (payload : Bytes) (n : Nat) :
    ∀ chunk ∈ (B.encode payload).chunks n, ∀ c ∈ chunk, tokenChar c = true :=
  fun _ hchunk c hc => B.encode_chars payload c (Str.mem_of_mem_chunks hchunk c hc)

theorem payloadWrites_eq_none (B : Base64) {config : TransportConfig}
    (hheader : config.dataPlacement ≠ .header) (hcookie : config.dataPlacement ≠ .cookie)
    (payload : Bytes) : payloadWrites B config payload = Writes.none := by
  rw [payloadWrites, headerChunks, cookieChunks, if_neg hheader, if_neg hcookie]
  rfl

theorem putPayload_carries {config : TransportConfig}
    {headers₀ headers : H.HeaderMap} (hdata : config.dataPlacement.ofData = true)
    (hname : ∀ i < (headerChunks B config payload).length,
      ∃ n, H.headerName (numberedKey config.dataKey '-' i) = some n)
    (hcookie : config.dataPlacement = .cookie → CookieKey config.dataKey) (h : Carries H headers₀ w headers) :
    ∃ headers', putPayload H B config payload headers = .ok (payloadBody config payload, headers') ∧
      Carries H headers₀ (w ++ payloadWrites B config payload) headers' := by
  cases hp : config.dataPlacement with
  | header =>
    have hchunks : headerChunks B config payload = (B.encode payload).chunks 3000 := if_pos hp
    have hwrites : payloadWrites B config payload =
        ⟨[], [], numbered config.dataKey '-' 0 (headerChunks B config payload), []⟩ := by
      simp [payloadWrites, cookieChunks, hp, numbered]
    rw [hchunks] at hwrites hname
    obtain ⟨headers', hok, hcarries⟩ := putNumbered_carries (putHeader H config.dataKey)
      (fun l => ⟨[], [], l, []⟩) (fun i => ∃ n, H.headerName (numberedKey config.dataKey '-' i) = some n)
      rfl (fun _ _ => rfl) (fun _ _ _ _ hn hc hw => putHeader_carries hn hc hw)
      (chars_of_mem_chunks B payload 3000) 0 (fun i hi => (Nat.zero_add i).symm ▸ hname i hi) h
    simp_all [putPayload, payloadBody]
  | cookie =>
    have hwrites : payloadWrites B config payload =
        ⟨[], [], [], numbered config.dataKey '_' 0 ((B.encode payload).chunks 2000)⟩ := by
      simp [payloadWrites, headerChunks, cookieChunks, hp, numbered]
    obtain ⟨headers', hok, hcarries⟩ := putNumbered_carries (putCookie H config.dataKey)
      (fun l => ⟨[], [], [], l⟩) (fun _ => True) rfl (fun _ _ => rfl)
      (fun i _ _ _ _ hc hw => hw.appendCookie ((hcookie hp).numbered i) hc)
      (chars_of_mem_chunks B payload 2000) 0 (fun _ _ => trivial) h
    simp_all [putPayload, payloadBody]
  | body | auto =>
    rw [payloadWrites_eq_none B (by simp [hp]) (by simp [hp]), Writes.append_none]
    exact ⟨headers, by simp [putPayload, payloadBody, hp], h⟩
  | _ =>
    rw [hp] at hdata
    cases hdata

theorem named_of_putHeaders {key : Str} {chunks : List Str} {start : Nat} {headers headers' : H.HeaderMap}
    (h : putNumbered (putHeader H key) start chunks headers = .ok headers') :
    ∀ i < chunks.length, ∃ n, H.headerName (numberedKey key '-' (start + i)) = some n := by
  induction chunks generalizing start headers with
  | nil => intro i hi; cases hi
  | cons chunk chunks ih =>
    obtain ⟨headers₁, hfirst, hrest⟩ := bind_ok_iff.mp h
    obtain ⟨n, hn, -⟩ := bind_ok_iff.mp hfirst
    intro i hi
    cases i with
    | zero => exact ⟨n, okOr_ok_iff.mp hn⟩
    | succ i =>
      have := ih hrest i (Nat.lt_of_succ_lt_succ hi)
      rwa [show start + 1 + i = start + (i + 1) by omega] at this

theorem named_of_putPayload {config : TransportConfig} {headers : H.HeaderMap} {r : Option Bytes × H.HeaderMap}
    (h : putPayload H B config payload headers = .ok r) : ∀ i < (headerChunks B config payload).length,
      ∃ n, H.headerName (numberedKey config.dataKey '-' i) = some n := by
  intro i hi
  unfold headerChunks at hi
  split at hi
  · next hp =>
    simp only [putPayload, hp] at h
    obtain ⟨headers₁, hput, -⟩ := bind_ok_iff.mp h
    have := named_of_putHeaders hput i hi
    rwa [Nat.zero_add] at this
  · cases hi

/-! ## Collecting -/

/-- The loop gives back the chunks in a row, once the numbers tried go past them. -/
theorem collectNumbered_eq {get : Str → Option Str} {key : Str} (chunks : List Str)
    (hfuel : chunks.length < fuel) (index : Nat) (output : Str)
    (hget : ∀ i, get (numberedKey key separator (index + i)) = chunks[i]?) :
    collectNumbered get key separator fuel index output = .ok (output ++ chunks.flatten) := by
  -- induction on the chunks that are still to be found
  induction chunks generalizing fuel index output with
  | nil =>
    obtain ⟨fuel, rfl⟩ : ∃ n, fuel = n + 1 := ⟨fuel - 1, by omega⟩
    have hstop : get (numberedKey key separator index) = none := hget 0
    rw [collectNumbered, hstop, flatten_nil, append_nil]
    rfl
  | cons chunk chunks ih =>
    obtain ⟨fuel, rfl⟩ : ∃ n, fuel = n + 1 := ⟨fuel - 1, by omega⟩
    have hfirst : get (numberedKey key separator index) = some chunk := hget 0
    have hrest : ∀ i, get (numberedKey key separator (index + 1 + i)) = chunks[i]? := by
      intro i
      rw [show index + 1 + i = index + (i + 1) by omega]
      exact hget (i + 1)
    rw [collectNumbered, hfirst]
    simp_all

/-- Nothing but the payload is at the places of the payload: neither in `headers₀`
    nor among the writes `w`. -/
structure Unused (H : Http) (config : TransportConfig) (headers₀ : H.HeaderMap) (w : Writes) : Prop where
  header : config.dataPlacement = .header ∨ config.dataPlacement = .auto → ∀ i,
    headersOf (numberedKey config.dataKey '-' i) w.headers = [] ∧
      H.getStr headers₀ (numberedKey config.dataKey '-' i) = none
  cookie : config.dataPlacement = .cookie ∨ config.dataPlacement = .auto → ∀ i,
    valuesOf (numberedKey config.dataKey '_' i) w.cookies = [] ∧
      numberedKey config.dataKey '_' i ∉ (cookies H headers₀).map Prod.fst

section
variable {H : Http} {config : TransportConfig}
  {headers₀ headers : H.HeaderMap}

section
variable (h : Carries H headers₀ (w ++ payloadWrites B config payload) headers)
include h

theorem getStr_numbered
    (hfree : Unused H config headers₀ w)
    (hp : config.dataPlacement = .header ∨ config.dataPlacement = .auto) (i : Nat) :
    H.getStr headers (numberedKey config.dataKey '-' i) = (headerChunks B config payload)[i]? := by
  obtain ⟨hw, hzero⟩ := hfree.header hp i
  have hwritten : headersOf (numberedKey config.dataKey '-' i) (w ++ payloadWrites B config payload).headers =
      (headerChunks B config payload)[i]?.toList := by
    rw [Writes.append_headers, headersOf_append, hw, nil_append, payloadWrites, headersOf_numbered]
  rw [h.header _ (numberedKey_ne_cookie config.dataKey i), hzero, Option.or_none, hwritten]
  cases (headerChunks B config payload)[i]? <;> rfl

theorem cookieValue_numbered
    (hfree : Unused H config headers₀ w)
    (hp : config.dataPlacement = .cookie ∨ config.dataPlacement = .auto) (i : Nat) :
    cookieValue H headers (numberedKey config.dataKey '_' i) = (cookieChunks B config payload)[i]? := by
  obtain ⟨hw, hzero⟩ := hfree.cookie hp i
  have hvalues := valuesOf_numbered config.dataKey '_' 0 i (cookieChunks B config payload)
  rw [Nat.zero_add] at hvalues
  calc cookieValue H headers (numberedKey config.dataKey '_' i)
      = (valuesOf (numberedKey config.dataKey '_' i) (cookies H headers)).head? := by
        rw [cookieValue_eq, lookup_eq_head?]
    _ = (valuesOf (numberedKey config.dataKey '_' i) (payloadWrites B config payload).cookies).head? := by
        rw [h.cookies, valuesOf_append, valuesOf_eq_nil hzero, Writes.append_cookies, valuesOf_append, hw]
        rfl
    _ = (cookieChunks B config payload)[i]? := by rw [payloadWrites, hvalues, Option.head?_toList]

theorem collectNumbered_headers
    (hfree : Unused H config headers₀ w) (hp : config.dataPlacement = .header ∨ config.dataPlacement = .auto)
    (hfuel : (headerChunks B config payload).length < fuel) :
    collectNumbered (H.getStr headers) config.dataKey '-' fuel 0 [] = .ok (headerChunks B config payload).flatten := by
  apply collectNumbered_eq _ hfuel
  intro i
  rw [Nat.zero_add]
  exact getStr_numbered h hfree hp i

theorem collectNumbered_cookies
    (hfree : Unused H config headers₀ w) (hp : config.dataPlacement = .cookie ∨ config.dataPlacement = .auto)
    (hfuel : (cookieChunks B config payload).length < fuel) :
    collectNumbered (cookieValue H headers) config.dataKey '_' fuel 0 [] =
      .ok (cookieChunks B config payload).flatten := by
  apply collectNumbered_eq _ hfuel
  intro i
  rw [Nat.zero_add]
  exact cookieValue_numbered h hfree hp i

end

theorem decodePayload_chunks (B : Base64) (payload : Bytes) {n : Nat} (hn : 0 < n) :
    decodePayload B ((B.encode payload).chunks n).flatten = .ok payload := by
  rw [decodePayload, Str.chunks_flatten hn, B.decode_encode]
  rfl

/-- The server reads the payload the client put, whatever else (`w`) was written at
    other places, once it may try more numbers than there are chunks. -/
theorem extractPayload_of_carries (hdata : config.dataPlacement.ofData = true)
    (h : Carries H headers₀ (w ++ payloadWrites B config payload) headers) (hfree : Unused H config headers₀ w)
    (hfuel : (headerChunks B config payload).length + (cookieChunks B config payload).length < fuel) :
    extractPayload H B fuel config headers ((payloadBody config payload).getD []) = .ok payload := by
  have hheaders : (headerChunks B config payload).length < fuel := by omega
  have hcookies : (cookieChunks B config payload).length < fuel := by omega
  cases hp : config.dataPlacement with
  | header =>
    have hall := collectNumbered_headers h hfree (Or.inl hp) hheaders
    rw [headerChunks, if_pos hp] at hall
    simp only [extractPayload, hp, hall]
    exact decodePayload_chunks B payload (by decide)
  | cookie =>
    have hall := collectNumbered_cookies h hfree (Or.inl hp) hcookies
    rw [cookieChunks, if_pos hp] at hall
    simp only [extractPayload, hp, hall]
    exact decodePayload_chunks B payload (by decide)
  | body =>
    simp only [extractPayload, payloadBody, hp]
    rfl
  | auto =>
    -- nothing is found under any number, so the body is all there is
    have hno := collectNumbered_headers h hfree (Or.inr hp) hheaders
    have hno' := collectNumbered_cookies h hfree (Or.inr hp) hcookies
    rw [headerChunks, if_neg (by simp [hp])] at hno
    rw [cookieChunks, if_neg (by simp [hp])] at hno'
    simp only [extractPayload, hp, hno, hno', payloadBody]
    rfl
  | _ =>
    rw [hp] at hdata
    cases hdata

end

theorem numberedKey_token {key : Str} (h : ∀ c ∈ key, tchar c = true) (i : Nat) :
    ∀ c ∈ numberedKey key '-' i, tchar c = true := by
  intro c hc
  rcases mem_append.mp hc with hc | hc
  · exact h c hc
  · rcases mem_cons.mp hc with rfl | hc
    · decide
    · exact tchar_of_tokenChar (tokenChar_of_isDigit (Str.isDigit_of_mem_decimal hc))

/-- **Payload round trip.** For every data placement validation accepts, every payload
    and every token as data key such that no header and no cookie of the request is
    named by the key and a number: from what `put_payload` produced, `extract_payload`
    gets exactly the payload, once it may try more numbers than there are chunks.
    `put_payload` does produce something unless a numbered key is too long for a
    header name. -/
theorem payload_round_trip (H : Http) (B : Base64) (config : TransportConfig) (payload : Bytes)
    (headers : H.HeaderMap) (hdata : config.dataPlacement.ofData = true)
    (hkey : ∀ c ∈ config.dataKey, tchar c = true)
    (hfree : ∀ i, H.getStr headers (numberedKey config.dataKey '-' i) = none ∧
      numberedKey config.dataKey '_' i ∉ (cookies H headers).map Prod.fst) :
    (∀ body headers', putPayload H B config payload headers = .ok (body, headers') →
      ∀ fuel, (headerChunks B config payload).length + (cookieChunks B config payload).length < fuel →
        extractPayload H B fuel config headers' (body.getD []) = .ok payload) ∧
    ((∀ i < (headerChunks B config payload).length, (numberedKey config.dataKey '-' i).length ≤ 65535) →
      ∃ body headers', putPayload H B config payload headers = .ok (body, headers')) := by
  have hunused : Unused H config headers Writes.none :=
    ⟨fun _ i => ⟨rfl, (hfree i).1⟩, fun _ i => ⟨rfl, (hfree i).2⟩⟩
  have hcookie : config.dataPlacement = .cookie → CookieKey config.dataKey :=
    fun _ => CookieKey.of_token hkey
  constructor
  · intro body headers' hok fuel hfuel
    obtain ⟨headers₁, hok₁, hcarries⟩ :=
      putPayload_carries hdata (named_of_putPayload hok) hcookie Carries.refl
    rw [hok] at hok₁
    cases hok₁
    exact extractPayload_of_carries hdata hcarries hunused hfuel
  · intro hlen
    have hname : ∀ i < (headerChunks B config payload).length,
        ∃ n, H.headerName (numberedKey config.dataKey '-' i) = some n := by
      intro i hi
      exact H.headerName_token (by simp [numberedKey]) (numberedKey_token hkey i) (hlen i hi)
    have hstart : Carries H headers Writes.none headers := Carries.refl
    obtain ⟨headers', hok, -⟩ := putPayload_carries hdata hname hcookie hstart
    exact ⟨_, headers', hok⟩

def dataInCookies : TransportConfig := { TransportConfig.default with dataPlacement := .cookie }

/-- A request with a cookie whose name is the data key without a number. -/
def bareKeyHeaders : Http.Reference.HeaderMap := [("cookie", "X-Data=1")]

/-- One byte more than fits one cookie: the payload is put into two cookies and read
    back. -/
theorem payload_round_trip_two_cookies :
    (cookieChunks .urlSafeNoPad dataInCookies (List.replicate 1501 42)).length = 2 ∧
    ∃ body headers', putPayload .reference .urlSafeNoPad dataInCookies (List.replicate 1501 42)
        bareKeyHeaders = .ok (body, headers') ∧
      extractPayload .reference .urlSafeNoPad 3 dataInCookies headers' (body.getD []) =
        .ok (List.replicate 1501 42) := by
  have hcount : (cookieChunks .urlSafeNoPad dataInCookies (List.replicate 1501 42)).length = 2 := by
    decide +kernel
  have hfree : ∀ i, Http.reference.getStr bareKeyHeaders (numberedKey "X-Data" '-' i) = none ∧
      numberedKey "X-Data" '_' i ∉ (cookies .reference bareKeyHeaders).map Prod.fst := by
    intro i
    constructor
    · show (Http.Reference.headerName _).bind _ = none
      cases hn : Http.Reference.headerName (numberedKey "X-Data" '-' i) with
      | none => rfl
      | some n =>
        have hne : "cookie" ≠ n :=
          Http.Reference.headerName_eq_some hn ▸ (numberedKey_ne_cookie _ i).symm
        have hnone : Http.Reference.getAll bareKeyHeaders n = [] := by
          simp only [Http.Reference.getAll, bareKeyHeaders, filter_cons, hne, decide_false]
          rfl
        show (Http.Reference.getAll bareKeyHeaders n).head?.bind _ = none
        rw [hnone]
        rfl
    · have hcookies : (cookies .reference bareKeyHeaders).map Prod.fst = ["X-Data".toList] := by decide
      rw [hcookies, mem_singleton]
      simp [numberedKey]
  obtain ⟨hread, hwrite⟩ := payload_round_trip .reference .urlSafeNoPad dataInCookies
    (List.replicate 1501 42) bareKeyHeaders (by decide) (by decide) hfree
  obtain ⟨body, headers', hok⟩ := hwrite nofun
  exact ⟨hcount, body, headers', hok, hread body headers' hok 3 (by rw [hcount]; decide)⟩

end Xhttp.Protocol
