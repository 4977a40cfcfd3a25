import Xhttp.IpText
import Xhttp.Lib.Checked
import Xhttp.Lib.HeadLines
import Xhttp.Routing.Matching

/- The HTTP inbound (`http_handshake` and the HTTP part of `handle` in `src/proxy/inbound.rs`) on the bytes of a whole
   client connection.

   The handshake reads one head, up to the first blank line, and rewrites it to origin form. What the client sends
   behind that head is copied to the same target as it is, so a second request on the connection is not read by
   anything (`handleHttp_cons`, `requests_kept_separate_iff`).

   `Url::parse`, `Authority::from_str` and base64 are the fields of `HttpParsers`. The evaluation of the route and the
   dialling are the parameter `connect`: the destination that is connected to, or nothing. Every outbound is written
   `initial` and then the client's further bytes; a head does not start like a TLS record, so `write_first_packet`
   writes it as it is. -/
namespace Xhttp.Proxy
open Xhttp.Lib Xhttp.Routing Vless List Checked

/-! ## The handshake -/

/-- What is read of a `url::Url`; `port` is `port_or_known_default`. -/
structure Url where
  host : Option Str
  port : Option UInt16
  path : Str
  query : Option Str
  deriving DecidableEq

structure HttpParsers where
  url : Str → Option Url
  authority : Str → Except Failure (Str × Option UInt16)
  base64 : Str → Option Bytes

structure User where
  name : Option Str
  password : Option Str

structure TcpHandshake where
  destination : Destination
  reply : Option Bytes
  initial : Bytes
  authUser : Option Str

variable (parsers : HttpParsers) (users : List User)

def authenticate (name password : Str) : Except Failure Unit :=
  if users.any fun user => user.name == some name && user.password == some password then .ok ()
  else .error (.message "invalid proxy credentials")

/-- The reading loop, with the number of bytes that may still be read. -/
def readHead : Nat → Bytes → Io Failure Bytes
  | 0, request => pure request
  | n + 1, request => do
    let byte ← Io.readU8
    if blankLine <:+ request ++ [byte] then pure (request ++ [byte]) else readHead n (request ++ [byte])

/-- The value of the first `Proxy-Authorization` line. -/
def proxyAuthorization (text : Str) : Option Str :=
  (Str.lines text).findSome? fun line =>
    (Str.splitOnce ':' line).bind fun field =>
      if eqIgnoreAsciiCase field.1 "proxy-authorization" then some (Str.trim field.2) else none

def httpCredentials (text : Str) : Option Str := do
  let value ← proxyAuthorization text
  let (_, encoded) ← (Str.splitOnce ' ' value).filter fun field => eqIgnoreAsciiCase field.1 "basic"
  let decoded ← parsers.base64 encoded
  Str.fromUtf8 decoded

/-- The user of a request, if it may pass. -/
def httpAuthUser (text : Str) : Option (Option Str) :=
  if users.isEmpty then some none
  else
    (((httpCredentials parsers text).bind (Str.splitOnce ':')).filter fun field =>
      (authenticate users field.1 field.2).isOk).map fun field => some field.1

def proxyAuthenticate : Bytes :=
  Str.asBytes ("HTTP/1.1 407 Proxy Authentication Required\r\nProxy-Authenticate: Basic realm=\"xhttp-rs\"\r\n" ++
    "Content-Length: 0\r\n\r\n").toList

def httpAuth (text : Str) : Io Failure (Option Str) :=
  match httpAuthUser parsers users text with
  | some user => pure user
  | none => do
    Io.writeAll proxyAuthenticate
    Io.bail (.message "HTTP proxy authentication required")

/-- A header line that is not forwarded. -/
def isProxyHeader (header : Str) : Bool :=
  let name := ((Str.splitOnce ':' header).map Prod.fst).getD []
  eqIgnoreAsciiCase name "proxy-authorization" || eqIgnoreAsciiCase name "proxy-connection"

def connectRequest (target : Str) (authUser : Option Str) : Except Failure TcpHandshake := do
  let authority ← parsers.authority target
  pure {
    destination := parseDestination authority.1 (authority.2.getD 443)
    reply := some (Str.asBytes "HTTP/1.1 200 Connection Established\r\n\r\n")
    initial := []
    authUser }

def Url.pathAndQuery (url : Url) : Str :=
  match url.query with
  | some q => url.path ++ '?' :: q
  | none => url.path

def absoluteRequest (text method target version : Str) (authUser : Option Str) : Except Failure TcpHandshake := do
  let url ← okOr (parsers.url target) (.message "HTTP proxy request requires absolute URI")
  let host ← okOr url.host (.message "HTTP target has no host")
  let port ← okOr url.port (.message "HTTP target has no port")
  let headers := ((Str.lines text).drop 1).takeWhile (!·.isEmpty)
  pure {
    destination := parseDestination host port
    reply := none
    initial := Str.asBytes (method ++ ' ' :: url.pathAndQuery ++ ' ' :: version) ++ crlf ++
      (headers.filter (!isProxyHeader ·)).flatMap (fun header => Str.asBytes header ++ crlf) ++ crlf
    authUser }

def httpRequest (text : Str) (authUser : Option Str) : Except Failure TcpHandshake := do
  let line ← okOr (Str.lines text).head? (.message "missing HTTP request line")
  let parts := Str.splitWhitespace line
  let method ← okOr parts[0]? (.message "missing HTTP method")
  let target ← okOr parts[1]? (.message "missing HTTP target")
  let version ← okOr parts[2]? (.message "missing HTTP version")
  if eqIgnoreAsciiCase method "CONNECT" then connectRequest parsers target authUser
  else absoluteRequest parsers text method target version authUser

def httpHandshake : Io Failure TcpHandshake := do
  let request ← readHead (16 * 1024) []
  Io.bailIf (¬blankLine <:+ request) (.message "HTTP proxy header too large")
  let text ← Io.lift (okOr (Str.fromUtf8 request) .utf8)
  let authUser ← httpAuth parsers users text
  Io.lift (httpRequest parsers text authUser)

/-- What a connection on which the client sends `input` has sent, to which destination. -/
def handleHttp (connect : TcpHandshake → Option Destination) (input : Bytes) : List (Destination × Bytes) :=
  match httpHandshake parsers users ⟨input, []⟩ with
  | (.ok handshake, stream) =>
    (connect handshake).toList.map fun destination => (destination, handshake.initial ++ stream.input)
  | (.error _, _) => []

/-! ## Requests in absolute form -/

/-- A token or a URI: visible ASCII characters, at least one. -/
structure Word (s : Str) : Prop where
  ne_nil : s ≠ []
  visible : ∀ c ∈ s, 33 ≤ c.toNat ∧ c.toNat ≤ 126

variable {parsers} {users}

/-- An HTTP/1.1 request for an absolute `http` URI, with what the URI is parsed to. -/
structure AbsoluteRequest (parsers : HttpParsers) where
  method : Str
  target : Str
  headers : List Bytes
  body : Bytes
  url : Url
  host : Str
  port : UInt16
  method_word : Word method
  target_word : Word target
  notConnect : eqIgnoreAsciiCase method "CONNECT" = false
  header_line : ∀ header ∈ headers, IsLine header
  url_eq : parsers.url target = some url
  host_eq : url.host = some host
  port_eq : url.port = some port
  /-- A URI starts with its scheme. -/
  scheme : target.head? ≠ some '/'
  /-- The path of an `http` URL starts with a slash, also where the URI has none. -/
  path : url.path.head? = some '/'

def http11 : Str := "HTTP/1.1"

namespace AbsoluteRequest

variable (r : AbsoluteRequest parsers)

def requestLine : Str := r.method ++ ' ' :: r.target ++ ' ' :: http11

def lines : List Bytes := Str.asBytes r.requestLine :: r.headers

def head : Bytes := headOf r.lines

def bytes : Bytes := r.head ++ r.body

def destination : Destination := parseDestination r.host r.port

/-- The header lines a target may see: all but `Proxy-Authorization` and `Proxy-Connection`. -/
def forwarded : List Bytes :=
  r.headers.filter fun header => !(Str.fromUtf8 header).any isProxyHeader

def originHead : Bytes :=
  headOf (Str.asBytes (r.method ++ ' ' :: r.url.pathAndQuery ++ ' ' :: http11) :: r.forwarded)

def origin : Bytes := r.originHead ++ r.body

end AbsoluteRequest

/-- Each request is sent on one of the connections: that connection leads to the host and the port
    of its URI, and carries the origin forms of its requests in their order and nothing else. -/
def KeptSeparate (requests : List (AbsoluteRequest parsers)) (sends : List (Destination × Bytes)) : Prop :=
  ∃ assigned : List (AbsoluteRequest parsers × Nat), assigned.map Prod.fst = requests ∧
    (∀ a ∈ assigned, (sends[a.2]?).map Prod.fst = some a.1.destination) ∧
    ∀ j send, sends[j]? = some send → send.2 = (assigned.filter (·.2 = j)).flatMap (·.1.origin)

/-- The handshake takes the request, and the route leads to the destination it asks for. -/
def Accepted (users : List User) (connect : TcpHandshake → Option Destination) (r : AbsoluteRequest parsers) : Prop :=
  r.head.length ≤ 16 * 1024 ∧ ∃ text user, Str.fromUtf8 r.head = some text ∧
    httpAuthUser parsers users text = some user ∧
    connect ⟨r.destination, none, r.originHead, user⟩ = some r.destination

/-! ## Reading a head -/

/-- The loop stops behind the first blank line, or when `n` bytes were read. -/
theorem readHead_take {n : Nat} {done todo : Bytes} (hne : todo ≠ []) (hend : blankLine <:+ done ++ todo)
    (honce : ∀ part back, done ++ todo = part ++ back → blankLine <:+ part → back = []) (rest out : Bytes) :
    readHead n done ⟨todo ++ rest, out⟩ = (.ok (done ++ todo.take n), ⟨todo.drop n ++ rest, out⟩) := by
  induction n generalizing done todo with
  | zero => simpa [readHead] using Io.pure_ok_iff.mpr ⟨rfl, rfl⟩
  | succ n ih =>
    obtain ⟨b, todo, rfl⟩ := exists_cons_of_ne_nil hne
    have hread : (Io.readU8 : Io Failure UInt8) ⟨b :: todo ++ rest, out⟩ = (.ok b, ⟨todo ++ rest, out⟩) :=
      Io.readU8_ok_iff.mpr rfl
    have happend : done ++ b :: todo = (done ++ [b]) ++ todo := by simp
    refine Io.bind_ok_iff.mpr ⟨b, _, hread, ?_⟩
    by_cases hblank : blankLine <:+ done ++ [b]
    · obtain rfl : todo = [] := honce _ _ happend hblank
      rw [if_pos hblank]
      simpa using Io.pure_ok_iff.mpr ⟨rfl, rfl⟩
    · rw [if_neg hblank]
      have htodo : todo ≠ [] := by
        rintro rfl
        exact hblank hend
      rw [happend] at hend honce
      simpa using ih htodo hend honce

namespace AbsoluteRequest
variable (r : AbsoluteRequest parsers)

theorem not_whitespace {s : Str} (h : Word s) : ∀ c ∈ s, Str.isWhitespace c = false := by
  intro c hc
  have hrange := h.visible c hc
  simp only [Str.isWhitespace, Bool.or_eq_false_iff, Bool.and_eq_false_iff, decide_eq_false_iff_not,
    beq_eq_false_iff_ne]
  omega

theorem http11_word : Word http11 := ⟨by decide, by decide⟩

theorem requestLine_visible : ∀ c ∈ r.requestLine, 32 ≤ c.toNat ∧ c.toNat ≤ 126 := by
  intro c hc
  simp only [requestLine, mem_append, mem_cons] at hc
  rcases hc with (hc | rfl | hc) | rfl | hc
  · have := r.method_word.visible c hc
    omega
  · decide
  · have := r.target_word.visible c hc
    omega
  · decide
  · have := http11_word.visible c hc
    omega

theorem requestLine_ne {b : UInt8} (hb : b.toNat < 32) : b ∉ Str.asBytes r.requestLine := by
  intro hmem
  obtain ⟨c, hc, hbc⟩ := mem_flatMap.mp hmem
  have hval := Str.utf8EncodeChar_of_mem hbc (by omega)
  have := r.requestLine_visible c hc
  omega

theorem isLine_lines : ∀ line ∈ r.lines, IsLine line := by
  intro line hline
  rcases mem_cons.mp hline with rfl | hheader
  · refine ⟨fun hnil => ?_, r.requestLine_ne (by decide), r.requestLine_ne (by decide)⟩
    have hempty : r.requestLine = [] := Str.asBytes_injective hnil
    simp [requestLine] at hempty
  · exact r.header_line line hheader

theorem head_ne_nil : r.head ≠ [] := by
  simp [head, headOf, crlf]

theorem readHead_head (rest out : Bytes) : readHead (16 * 1024) [] ⟨r.head ++ rest, out⟩ =
      (.ok (r.head.take (16 * 1024)), ⟨r.head.drop (16 * 1024) ++ rest, out⟩) :=
  readHead_take r.head_ne_nil (blankLine_suffix (cons_ne_nil _ _))
    (fun _ _ heq hend => head_ends_once r.isLine_lines heq hend) rest out

/-! ## Rewriting a head -/

theorem exists_texts {text : Str} (htext : Str.fromUtf8 r.head = some text) :
    ∃ texts, r.headers = texts.map Str.asBytes ∧ Str.lines text = r.requestLine :: texts ++ [[]] := by
  obtain ⟨texts, hlines, rfl⟩ := Str.text_of_head r.isLine_lines htext
  have hlf : ∀ t ∈ texts, '\n' ∉ t := by
    intro t ht hmem
    have hline := r.isLine_lines (Str.asBytes t) (hlines ▸ mem_map_of_mem ht)
    exact hline.lf (mem_flatMap.mpr ⟨'\n', hmem, by decide⟩)
  rw [Str.lines_textHead hlf]
  cases texts with
  | nil => cases hlines
  | cons t texts =>
    obtain ⟨hfirst, hheaders⟩ := List.cons.inj hlines
    rw [Str.asBytes_injective hfirst]
    exact ⟨texts, hheaders, rfl⟩

theorem splitWhitespace_requestLine : Str.splitWhitespace r.requestLine = [r.method, r.target, http11] := by
  rw [requestLine, append_assoc, cons_append,
    Str.splitWhitespace_append r.method_word.ne_nil (not_whitespace r.method_word),
    Str.splitWhitespace_append r.target_word.ne_nil (not_whitespace r.target_word),
    Str.splitWhitespace_word http11_word.ne_nil (not_whitespace http11_word)]

variable {texts : List Str}

theorem takeWhile_headers (h : r.headers = texts.map Str.asBytes) : (texts ++ [[]]).takeWhile (!·.isEmpty) = texts := by
  have hne : ∀ t ∈ texts, (!t.isEmpty) = true := by
    intro t ht
    have hline := r.header_line (Str.asBytes t) (h ▸ mem_map_of_mem ht)
    cases t with
    | nil => exact absurd rfl hline.ne_nil
    | cons c t => rfl
  rw [takeWhile_append_of_pos hne]
  simp

theorem forwarded_eq (h : r.headers = texts.map Str.asBytes) :
    r.forwarded = (texts.filter (!isProxyHeader ·)).map Str.asBytes := by
  rw [forwarded, h, filter_map]
  simp [Function.comp_def, Str.fromUtf8_asBytes]

theorem httpRequest_head {text : Str} (htext : Str.fromUtf8 r.head = some text) (user : Option Str) :
    httpRequest parsers text user = .ok ⟨r.destination, none, r.originHead, user⟩ := by
  obtain ⟨texts, hheaders, hlines⟩ := r.exists_texts htext
  have hinitial : r.originHead =
      Str.asBytes (r.method ++ ' ' :: r.url.pathAndQuery ++ ' ' :: http11) ++ crlf ++
        (texts.filter (!isProxyHeader ·)).flatMap (fun header => Str.asBytes header ++ crlf) ++ crlf := by
    rw [originHead, headOf, r.forwarded_eq hheaders, flatMap_cons, flatMap_map]
  have habsolute : absoluteRequest parsers text r.method r.target http11 user =
      .ok ⟨r.destination, none, r.originHead, user⟩ := by
    refine bind_ok_iff.mpr ⟨r.url, okOr_ok_iff.mpr r.url_eq, ?_⟩
    refine bind_ok_iff.mpr ⟨r.host, okOr_ok_iff.mpr r.host_eq, ?_⟩
    refine bind_ok_iff.mpr ⟨r.port, okOr_ok_iff.mpr r.port_eq, ?_⟩
    rw [hinitial, hlines, cons_append, drop_succ_cons, drop_zero, r.takeWhile_headers hheaders]
    rfl
  have hparts := r.splitWhitespace_requestLine
  have hline : (Str.lines text).head? = some r.requestLine := by
    rw [hlines]
    rfl
  refine bind_ok_iff.mpr ⟨r.requestLine, okOr_ok_iff.mpr hline, ?_⟩
  rw [hparts]
  refine bind_ok_iff.mpr ⟨r.method, rfl, bind_ok_iff.mpr ⟨r.target, rfl, ?_⟩⟩
  refine bind_ok_iff.mpr ⟨http11, rfl, ?_⟩
  rw [r.notConnect]
  exact habsolute

end AbsoluteRequest

/-! ## A connection -/

variable {connect : TcpHandshake → Option Destination} (r : AbsoluteRequest parsers)

variable {user : Option Str}

theorem httpAuth_ok_iff {text : Str} {s s' : Stream} :
    httpAuth parsers users text s = (.ok user, s') ↔ httpAuthUser parsers users text = some user ∧ s = s' := by
  unfold httpAuth
  cases httpAuthUser parsers users text with
  | some found => simp [Io.pure_ok_iff]
  | none =>
    simp only [reduceCtorEq, false_and, iff_false]
    intro h
    obtain ⟨_, m, -, hbail⟩ := Io.bind_ok_iff.mp h
    cases hbail

/-- The handshake reads the head of the first request and nothing behind it, or fails. -/
theorem httpHandshake_ok_iff {rest : Bytes} {handshake : TcpHandshake} {s : Stream} :
    httpHandshake parsers users ⟨r.head ++ rest, []⟩ = (.ok handshake, s) ↔
      r.head.length ≤ 16 * 1024 ∧ s = ⟨rest, []⟩ ∧ ∃ text user, Str.fromUtf8 r.head = some text ∧
        httpAuthUser parsers users text = some user ∧ handshake = ⟨r.destination, none, r.originHead, user⟩ := by
  by_cases hlen : r.head.length ≤ 16 * 1024
  · have hread : readHead (16 * 1024) [] ⟨r.head ++ rest, []⟩ = (.ok r.head, ⟨rest, []⟩) := by
      rw [r.readHead_head, take_of_length_le hlen, drop_eq_nil_of_le hlen, nil_append]
    have hblank : blankLine <:+ r.head := blankLine_suffix (cons_ne_nil _ _)
    constructor
    · intro h
      obtain ⟨request, s₁, h₁, h⟩ := Io.bind_ok_iff.mp h
      obtain ⟨_, s₂, h₂, h⟩ := Io.bind_ok_iff.mp h
      obtain ⟨text, s₃, h₃, h⟩ := Io.bind_ok_iff.mp h
      obtain ⟨user, s₄, h₄, h₅⟩ := Io.bind_ok_iff.mp h
      obtain ⟨hrequest, rfl⟩ := Prod.mk.inj (hread.symm.trans h₁)
      obtain rfl := Except.ok.inj hrequest
      obtain ⟨-, rfl⟩ := Io.bailIf_ok_iff.mp h₂
      obtain ⟨htext, rfl⟩ := Io.lift_ok_iff.mp h₃
      obtain ⟨huser, rfl⟩ := httpAuth_ok_iff.mp h₄
      obtain ⟨hhandshake, rfl⟩ := Io.lift_ok_iff.mp h₅
      have htext' := okOr_ok_iff.mp htext
      rw [r.httpRequest_head htext'] at hhandshake
      simp_all
    · rintro ⟨-, rfl, text, user, htext, huser, rfl⟩
      refine Io.bind_ok_iff.mpr ⟨_, _, hread, ?_⟩
      refine Io.bind_ok_iff.mpr ⟨(), _, Io.bailIf_ok_iff.mpr ⟨not_not_intro hblank, rfl⟩, ?_⟩
      refine Io.bind_ok_iff.mpr ⟨text, _, Io.lift_ok_iff.mpr ⟨okOr_ok_iff.mpr htext, rfl⟩, ?_⟩
      refine Io.bind_ok_iff.mpr ⟨user, _, httpAuth_ok_iff.mpr ⟨huser, rfl⟩, ?_⟩
      exact Io.lift_ok_iff.mpr ⟨r.httpRequest_head htext user, rfl⟩
  · -- the first 16 KiB of a longer head do not end with a blank line
    refine iff_of_false (fun h => ?_) fun h => hlen h.1
    obtain ⟨request, s₁, h₁, h⟩ := Io.bind_ok_iff.mp h
    obtain ⟨_, s₂, h₂, -⟩ := Io.bind_ok_iff.mp h
    rw [r.readHead_head] at h₁
    obtain rfl := Except.ok.inj (Prod.mk.inj h₁).1
    have hblank := not_not.mp (Io.bailIf_ok_iff.mp h₂).1
    have hnil := head_ends_once r.isLine_lines (take_append_drop (16 * 1024) r.head).symm hblank
    exact hlen (drop_eq_nil_iff.mp hnil)

theorem handleHttp_nil : handleHttp parsers users connect [] = [] := rfl

/-- A request that the handshake takes: everything behind its head follows the rewritten head. -/
theorem handleHttp_of_connect (rest : Bytes) {text : Str} {destination : Destination}
    (hlen : r.head.length ≤ 16 * 1024) (htext : Str.fromUtf8 r.head = some text)
    (huser : httpAuthUser parsers users text = some user)
    (hconnect : connect ⟨r.destination, none, r.originHead, user⟩ = some destination) :
    handleHttp parsers users connect (r.head ++ rest) = [(destination, r.originHead ++ rest)] := by
  rw [handleHttp, (httpHandshake_ok_iff r).mpr ⟨hlen, rfl, text, user, htext, huser, rfl⟩]
  simp [hconnect]

theorem handleHttp_head (users : List User) (connect : TcpHandshake → Option Destination) (rest : Bytes) :
    handleHttp parsers users connect (r.head ++ rest) = [] ∨
      ∃ text user destination, r.head.length ≤ 16 * 1024 ∧ Str.fromUtf8 r.head = some text ∧
        httpAuthUser parsers users text = some user ∧
        connect ⟨r.destination, none, r.originHead, user⟩ = some destination ∧
        handleHttp parsers users connect (r.head ++ rest) = [(destination, r.originHead ++ rest)] := by
  rcases hrun : httpHandshake parsers users ⟨r.head ++ rest, []⟩ with ⟨_ | handshake, s⟩
  · left
    rw [handleHttp, hrun]
  · obtain ⟨hlen, -, text, user, htext, huser, rfl⟩ := (httpHandshake_ok_iff r).mp hrun
    cases hconnect : connect ⟨r.destination, none, r.originHead, user⟩ with
    | none =>
      left
      rw [handleHttp, hrun]
      simp [hconnect]
    | some destination =>
      simp_all [handleHttp_of_connect]

/-- What is sent for a sequence of requests: the first decides, and the others follow as they came. -/
theorem handleHttp_cons (users : List User) (connect : TcpHandshake → Option Destination)
    (requests : List (AbsoluteRequest parsers)) :
    handleHttp parsers users connect ((r :: requests).flatMap (·.bytes)) = [] ∨
      ∃ text user destination, r.head.length ≤ 16 * 1024 ∧ Str.fromUtf8 r.head = some text ∧
        httpAuthUser parsers users text = some user ∧
        connect ⟨r.destination, none, r.originHead, user⟩ = some destination ∧
        handleHttp parsers users connect ((r :: requests).flatMap (·.bytes)) =
          [(destination, r.origin ++ requests.flatMap (·.bytes))] := by
  grind [AbsoluteRequest.bytes, AbsoluteRequest.origin, handleHttp_head]

/-! ## Which requests are kept separate -/

theorem keptSeparate_nil_iff {requests : List (AbsoluteRequest parsers)} :
    KeptSeparate requests [] ↔ requests = [] := by
  constructor
  · rintro ⟨assigned, rfl, hsent, -⟩
    cases assigned with
    | nil => rfl
    | cons a assigned => cases hsent a mem_cons_self
  · rintro rfl
    exact ⟨[], rfl, by simp, by simp⟩

theorem keptSeparate_singleton_iff {requests : List (AbsoluteRequest parsers)} {destination : Destination}
    {sent : Bytes} : KeptSeparate requests [(destination, sent)] ↔
      (∀ r ∈ requests, r.destination = destination) ∧ sent = requests.flatMap (·.origin) := by
  constructor
  · rintro ⟨assigned, rfl, hsent, hbytes⟩
    -- there is one connection, so every request is assigned to it
    have hzero : ∀ a ∈ assigned, a.2 = 0 ∧ a.1.destination = destination := by
      intro a ha
      have := hsent a ha
      obtain ⟨request, j⟩ := a
      cases j with
      | zero => exact ⟨rfl, (Option.some.inj this).symm⟩
      | succ j => cases this
    refine ⟨?_, ?_⟩
    · intro r hr
      obtain ⟨a, ha, rfl⟩ := mem_map.mp hr
      exact (hzero a ha).2
    · have hall : assigned.filter (·.2 = 0) = assigned :=
        filter_eq_self.mpr fun a ha => decide_eq_true (hzero a ha).1
      rw [flatMap_map]
      simpa only [hall] using hbytes 0 _ rfl
  · rintro ⟨hdest, rfl⟩
    refine ⟨requests.map (·, 0), by simp [Function.comp_def], ?_, ?_⟩
    · simp_all
    · intro j send hj
      cases j with
      | zero =>
        obtain rfl := Option.some.inj hj
        simp [filter_map, flatMap_map, Function.comp_def]
      | succ j => cases hj

/-- A request as it came is not in origin form: behind the method stands the URI, not a path. -/
theorem head_append_ne (rest rest' : Bytes) : r.head ++ rest ≠ r.originHead ++ rest' := by
  intro heq
  obtain ⟨c, target, htarget⟩ := exists_cons_of_ne_nil r.target_word.ne_nil
  obtain ⟨path, hpath⟩ : ∃ path, r.url.pathAndQuery = '/' :: path := by
    have hslash := r.path
    rw [Url.pathAndQuery]
    cases hurl : r.url.path with
    | nil => simp [hurl] at hslash
    | cons d ds =>
      grind
  have hslash : String.utf8EncodeChar '/' = [47] := by decide
  simp only [AbsoluteRequest.head, AbsoluteRequest.lines, AbsoluteRequest.originHead, AbsoluteRequest.requestLine,
    headOf_cons, htarget, hpath, Str.asBytes_append, Str.asBytes_cons, hslash, append_assoc,
    append_cancel_left_eq, cons_append, nil_append] at heq
  -- the first byte of the URI would be that of a slash
  have hmem : 47 ∈ String.utf8EncodeChar c := by
    cases henc : String.utf8EncodeChar c with
    | nil => exact absurd henc String.utf8EncodeChar_ne_nil
    | cons b bs =>
      rw [henc] at heq
      simp [(List.cons.inj heq).1]
  have hc : c = '/' := Char.toNat_inj.mp (Str.utf8EncodeChar_of_mem hmem (by decide))
  exact r.scheme (by simp [htarget, hc])

/-- Every request reaches the host of its own URI in origin form iff the connection carries at most
    one, and that one passes the handshake and is routed to its own destination. -/
theorem requests_kept_separate_iff (parsers : HttpParsers) (users : List User)
    (connect : TcpHandshake → Option Destination) (requests : List (AbsoluteRequest parsers)) :
    KeptSeparate requests (handleHttp parsers users connect (requests.flatMap (·.bytes))) ↔
      requests.length ≤ 1 ∧ ∀ r ∈ requests, Accepted users connect r := by
  cases requests with
  | nil => simp [handleHttp_nil, keptSeparate_nil_iff]
  | cons r requests =>
    constructor
    · intro hkept
      obtain hnone | ⟨text, user, destination, hlen, htext, huser, hconnect, hsent⟩ :=
        handleHttp_cons r users connect requests
      · rw [hnone, keptSeparate_nil_iff] at hkept
        cases hkept
      · rw [hsent, keptSeparate_singleton_iff] at hkept
        obtain ⟨hdest, hbytes⟩ := hkept
        obtain rfl := hdest r mem_cons_self
        cases requests with
        | nil => exact ⟨Nat.le_refl 1, by simpa using ⟨hlen, text, user, htext, huser, hconnect⟩⟩
        | cons next requests =>
          simp only [flatMap_cons, append_cancel_left_eq, AbsoluteRequest.bytes, AbsoluteRequest.origin,
            append_assoc] at hbytes
          exact absurd hbytes (head_append_ne next _ _)
    · rintro ⟨hone, haccepted⟩
      obtain rfl : requests = [] := length_eq_zero_iff.mp (by simpa using hone)
      obtain ⟨hlen, text, user, htext, huser, hconnect⟩ := haccepted r mem_cons_self
      have hsent := handleHttp_of_connect r r.body hlen htext huser hconnect
      have hbytes : [r].flatMap (·.bytes) = r.head ++ r.body := by simp [AbsoluteRequest.bytes]
      rw [hbytes, hsent, keptSeparate_singleton_iff]
      simp [AbsoluteRequest.origin]

/-! Two requests of one user for two hosts, each with the credentials. -/

/-- URLs `http://host/path`, and the one token the requests carry. -/
def hostParsers : HttpParsers where
  url target := (Str.stripPrefix "http://" target).bind fun s =>
    (Str.splitOnce '/' s).map fun parts => ⟨some parts.1, some 80, '/' :: parts.2, none⟩
  authority target := .ok (target, none)
  base64 token := if token = "dTpw" then some (Str.asBytes "u:p") else none

def credentials : Bytes := Str.asBytes "Proxy-Authorization: Basic dTpw"

theorem isLine_credentials : ∀ header ∈ [credentials], IsLine header := by
  intro header hheader
  obtain rfl := mem_singleton.mp hheader
  exact ⟨by decide, by decide, by decide⟩

def getFirst : AbsoluteRequest hostParsers where
  method := "GET"
  target := "http://a.test/"
  headers := [credentials]
  body := []
  url := ⟨some "a.test".toList, some 80, "/", none⟩
  host := "a.test"
  port := 80
  method_word := ⟨by decide, by decide⟩
  target_word := ⟨by decide, by decide⟩
  notConnect := by decide
  header_line := isLine_credentials
  url_eq := by decide
  host_eq := by decide
  port_eq := by decide
  scheme := by decide
  path := by decide

def getSecond : AbsoluteRequest hostParsers :=
  { getFirst with
    target := "http://b.test/"
    url := ⟨some "b.test".toList, some 80, "/", none⟩
    host := "b.test"
    target_word := ⟨by decide, by decide⟩
    url_eq := by decide
    host_eq := by decide
    port_eq := by decide
    scheme := by decide
    path := by decide }

def oneUser : List User := [⟨some "u".toList, some "p".toList⟩]

def direct (handshake : TcpHandshake) : Option Destination := some handshake.destination

def firstText : Str := "GET http://a.test/ HTTP/1.1\r\nProxy-Authorization: Basic dTpw\r\n\r\n"

/-- The second request goes to the host of the first, with its credentials. -/
theorem second_request_sent_as_it_came :
    handleHttp hostParsers oneUser direct ([getFirst, getSecond].flatMap (·.bytes)) =
      [(.domain "a.test" 80, Str.asBytes ("GET / HTTP/1.1\r\n\r\nGET http://b.test/ HTTP/1.1\r\n" ++
          "Proxy-Authorization: Basic dTpw\r\n\r\n").toList)] ∧
    ¬KeptSeparate [getFirst, getSecond]
      (handleHttp hostParsers oneUser direct ([getFirst, getSecond].flatMap (·.bytes))) := by
  have hhead : getFirst.head = Str.asBytes firstText := by decide +kernel
  have htext : Str.fromUtf8 getFirst.head = some firstText := by rw [hhead, Str.fromUtf8_asBytes]
  have huser : httpAuthUser hostParsers oneUser firstText = some (some "u".toList) := by
    have hvalue : proxyAuthorization firstText = some "Basic dTpw".toList := by decide +kernel
    have hcredentials : httpCredentials hostParsers firstText = some "u:p".toList := by
      rw [httpCredentials, hvalue]
      exact Str.fromUtf8_asBytes "u:p".toList
    rw [httpAuthUser, hcredentials]
    decide +kernel
  have hsent : handleHttp hostParsers oneUser direct ([getFirst, getSecond].flatMap (·.bytes)) =
      [(getFirst.destination, getFirst.originHead ++ getSecond.bytes)] := by
    have hbytes : [getFirst, getSecond].flatMap (·.bytes) = getFirst.head ++ getSecond.bytes := by
      simp [AbsoluteRequest.bytes, getFirst]
    rw [hbytes]
    exact handleHttp_of_connect getFirst getSecond.bytes (by decide +kernel) htext huser rfl
  refine ⟨?_, fun hkept => ?_⟩
  · have hheaders : getFirst.headers = ["Proxy-Authorization: Basic dTpw"].map Str.asBytes := rfl
    have hforwarded : getFirst.forwarded = [] := getFirst.forwarded_eq hheaders
    rw [hsent, AbsoluteRequest.originHead, hforwarded]
    decide +kernel
  · rw [hsent] at hkept
    have hdest := (keptSeparate_singleton_iff.mp hkept).1 getSecond (by simp)
    revert hdest
    decide +kernel

end Xhttp.Proxy
