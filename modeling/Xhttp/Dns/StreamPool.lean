import Mathlib.Data.List.Infix
import Xhttp.Lib.Bytes
import Xhttp.Lib.Pool

/- The pool of TCP and TLS connections to a DNS server (`TcpPool` and `exchange_stream` in `src/dns/transport.rs`).

   A query makes two attempts, each on the pooled connection used last or on a new one. If both take a pooled
   connection that the server has closed, no new one is tried (`two_stale_connections`).

   For concurrent queries a connection is what was written on it and how much was read from it. The server answers
   each request that has arrived completely, so an exchange that ends half way would leave the next one with an answer
   that is not its own: it never comes to that, since the stream is dropped with the exchange (`answers_not_mixed_up`).
   Times are nanoseconds; the first connection of a list is the one pushed last. -/
namespace Xhttp.Dns.TcpPool
open Xhttp.Lib List

def streamPoolSize : Nat := 32
def streamIdleTimeout : Nat := 60 * 10 ^ 9

section
variable {σ ε : Type} {now : Nat} {idle expired rest : List (σ × Nat)} {c : σ × Nat}

/-- An `IdleConnection` that is too old to be used. -/
def Expired (now : Nat) (c : σ × Nat) : Prop := streamIdleTimeout ≤ now - c.2

instance (now : Nat) (c : σ × Nat) : Decidable (Expired now c) := inferInstanceAs (Decidable (_ ≤ _))

def takeIdle (now : Nat) : List (σ × Nat) → Option σ × List (σ × Nat)
  | [] => (none, [])
  | c :: idle => if Expired now c then takeIdle now idle else (some c.1, idle)

theorem takeIdle_append (h : ∀ x ∈ expired, Expired now x) (hc : ¬Expired now c) :
    takeIdle now (expired ++ c :: rest) = (some c.1, rest) := by
  induction expired with
  | nil => exact if_neg hc
  | cons x expired ih =>
    obtain ⟨hx, h⟩ := forall_mem_cons.mp h
    rw [cons_append, takeIdle, if_pos hx, ih h]

theorem takeIdle_cases (now : Nat) (idle : List (σ × Nat)) :
    takeIdle now idle = (none, []) ∨ ∃ expired c rest, idle = expired ++ c :: rest ∧ (∀ x ∈ expired, Expired now x) ∧
      ¬Expired now c ∧ takeIdle now idle = (some c.1, rest) := by
  induction idle with
  | nil => exact .inl rfl
  | cons x idle ih =>
    by_cases hx : Expired now x
    · rw [takeIdle, if_pos hx]
      rcases ih with h | ⟨expired, c, rest, rfl, hall, hc, h⟩
      · exact .inl h
      · exact .inr ⟨x :: expired, c, rest, rfl, forall_mem_cons.mpr ⟨hx, hall⟩, hc, h⟩
    · exact .inr ⟨[], x, idle, rfl, by simp, hx, by rw [takeIdle, if_neg hx]⟩

def push (idle : List (σ × Nat)) (c : σ × Nat) : List (σ × Nat) :=
  if idle.length < streamPoolSize then c :: idle else idle

/-- What an attempt meets: the time `take_idle` looks at, the outcome of a new connection, the time of the answer. -/
structure Attempt (σ ε : Type) where
  now : Nat
  connect : Except ε σ
  answered : Nat

def attempts (exchange : σ → Except ε Bytes) :
    List (Attempt σ ε) → Option ε → List (σ × Nat) → Except (Option ε) Bytes × List (σ × Nat)
  | [], lastError, idle => (.error lastError, idle)
  | a :: rounds, _, idle =>
    let (taken, idle) := takeIdle a.now idle
    match taken.elim a.connect .ok with
    | .error e => (.error (some e), idle)
    | .ok stream =>
      match exchange stream with
      | .ok response => (.ok response, push idle (stream, a.answered))
      | .error e => attempts exchange rounds (some e) idle

/-- The loop of `query`, for a request that `exchange` sends on a stream. -/
def query (exchange : σ → Except ε Bytes) (first second : Attempt σ ε) (idle : List (σ × Nat)) :
    Except (Option ε) Bytes × List (σ × Nat) :=
  attempts exchange [first, second] none idle

/-- The two connections that the attempts take from the pool are both closed. -/
def TwoStale (closed : σ → Prop) (first second : Nat) (idle : List (σ × Nat)) : Prop :=
  ∃ expired c between d rest, idle = expired ++ c :: (between ++ d :: rest) ∧
    (∀ x ∈ expired, Expired first x) ∧ ¬Expired first c ∧ closed c.1 ∧
    (∀ x ∈ between, Expired second x) ∧ ¬Expired second d ∧ closed d.1

/-- **Stale connections.** With a server that answers on every connection it has not closed, a query is
    answered unless both attempts meet a closed one in the pool. -/
theorem stale_retry_iff (exchange : σ → Except ε Bytes) (first second : Attempt σ ε) (idle : List (σ × Nat))
    (closed : σ → Prop) (answer : Bytes) (hclosed : ∀ c ∈ idle, closed c.1 → ∃ e, exchange c.1 = .error e)
    (hopen : ∀ c ∈ idle, ¬closed c.1 → exchange c.1 = .ok answer)
    (hnew : ∀ a ∈ [first, second], ∃ stream, a.connect = .ok stream ∧ exchange stream = .ok answer) :
    (query exchange first second idle).1 = .ok answer ↔ ¬TwoStale closed first.now second.now idle := by
  obtain ⟨⟨s₁, hs₁, ha₁⟩, ⟨s₂, hs₂, ha₂⟩, -⟩ := by simpa only [forall_mem_cons] using hnew
  constructor
  · rintro h ⟨expired, c, between, d, rest, rfl, hexp, hc, hcc, hbet, hd, hdc⟩
    obtain ⟨e, he⟩ := hclosed c (by simp) hcc
    obtain ⟨e', he'⟩ := hclosed d (by simp) hdc
    rw [query, attempts, takeIdle_append hexp hc] at h
    simp only [Option.elim, he, attempts, takeIdle_append hbet hd, he'] at h
    cases h
  · intro hnot
    rw [query, attempts]
    rcases takeIdle_cases first.now idle with h | ⟨expired, c, rest, rfl, hexp, hc, h⟩
    · simp only [h, Option.elim, hs₁, ha₁]
    by_cases hcc : closed c.1
    · -- the second attempt
      obtain ⟨e, he⟩ := hclosed c (by simp) hcc
      simp only [h, Option.elim, he, attempts]
      rcases takeIdle_cases second.now rest with h' | ⟨between, d, rest', rfl, hbet, hd, h'⟩
      · simp only [h', hs₂, ha₂]
      · have hdo : ¬closed d.1 := fun hdc => hnot ⟨expired, c, between, d, rest', rfl, hexp, hc, hcc, hbet, hd, hdc⟩
        simp only [h', hopen d (by simp) hdo]
    · simp only [h, Option.elim, hopen c (by simp) hcc]

end

def closedExchange (stream : Nat) : Except Unit Bytes := if stream < 2 then .error () else .ok [7]

theorem stale_retry_iff_one : (query closedExchange ⟨5, .ok 2, 6⟩ ⟨7, .ok 2, 8⟩ [(0, 5)]).1 = .ok [7] :=
  (stale_retry_iff closedExchange ⟨5, .ok 2, 6⟩ ⟨7, .ok 2, 8⟩ [(0, 5)] (· < 2) [7]
    (fun c _ hc => ⟨(), if_pos hc⟩) (fun c _ hc => if_neg hc) (by simp [closedExchange])).mpr (by
      rintro ⟨expired, c, between, d, rest, h, -⟩
      have hlen := congrArg List.length h
      simp at hlen
      omega)

/-- A new connection would be answered, but both attempts are used up on closed ones. -/
theorem two_stale_connections :
    (query closedExchange ⟨5, .ok 2, 6⟩ ⟨7, .ok 2, 8⟩ [(0, 5), (1, 4)]).1 = .error (some ()) := by
  decide +kernel

/-! ## Concurrent queries -/

def framed (message : Bytes) : Bytes := beU16 (UInt16.ofNat message.length) ++ message

/-- The messages that have arrived completely. -/
def messages : Bytes → List Bytes
  | hi :: lo :: rest =>
    if (ofBeU16 hi lo).toNat ≤ rest.length then
      rest.take (ofBeU16 hi lo).toNat :: messages (rest.drop (ofBeU16 hi lo).toNat)
    else []
  | _ => []
termination_by b => b.length
decreasing_by simp only [length_drop, length_cons]; omega

/-- What the server answers to the request with this number on the connection. -/
structure Server where
  answer : Nat → Bytes → Bytes
  short : ∀ i request, (answer i request).length < 2 ^ 16

structure Connection where
  server : Server
  sent : Bytes
  received : Nat

def Server.responses (server : Server) (requests : List Bytes) : Bytes :=
  (requests.mapIdx server.answer).flatMap framed

def Connection.unread (c : Connection) : Bytes := (c.server.responses (messages c.sent)).drop c.received

structure Shared where
  permits : Nat
  idle : List (Connection × Nat)
  /-- Request, response and connection of every query that was answered. -/
  returned : List (Bytes × Bytes × Connection)

/-- Where a query is. It can be dropped while it waits, connects, writes or reads. -/
inductive Thread where
  | waits (request : Bytes)
  | attempt (request : Bytes) (left : Nat)
  | connects (request : Bytes) (left : Nat)
  | writes (request : Bytes) (left : Nat) (c : Connection) (rest : Bytes)
  | reads (request : Bytes) (left : Nat) (c : Connection) (got : Bytes)
  | answered (request : Bytes) (c : Connection) (response : Bytes)

inductive Choice where
  | go (now : Nat)
  | connected (server : Server)
  | moved (n : Nat)
  | fails
  | dropped

def Thread.start : Thread → Bool
  | .waits _ => true
  | _ => false

def Thread.holds (t : Thread) : Bool := !t.start

/-- The first line of `exchange_stream`. -/
def exchange (request : Bytes) (left : Nat) (c : Connection) : Thread :=
  if request.length < 2 ^ 16 then .writes request left c (framed request) else .attempt request left

/-- How many bytes `read_u16` and then `read_exact` still ask for. -/
def missing : Bytes → Nat
  | hi :: lo :: got => (ofBeU16 hi lo).toNat - got.length
  | got => 2 - got.length

def Shared.ends (s : Shared) : Shared := { s with permits := s.permits + 1 }

def act (s : Shared) : Thread → Choice → Option (Shared × List Thread)
  | .waits request, .go _ =>
    if s.permits = 0 then none else some ({ s with permits := s.permits - 1 }, [.attempt request 2])
  | .waits _, .dropped => some (s, [])
  | .attempt _ 0, .go _ => some (s.ends, [])
  | .attempt request (left + 1), .go now =>
    match takeIdle now s.idle with
    | (some c, idle) => some ({ s with idle }, [exchange request left c])
    | (none, idle) => some ({ s with idle }, [.connects request left])
  | .connects request left, .connected server => some (s, [exchange request left ⟨server, [], 0⟩])
  | .connects _ _, .fails => some (s.ends, [])
  | .connects _ _, .dropped => some (s.ends, [])
  | .writes request left c rest, .moved n =>
    let c := { c with sent := c.sent ++ rest.take n }
    some (s, [if n < rest.length then .writes request left c (rest.drop n) else .reads request left c []])
  | .writes request left _ _, .fails => some (s, [.attempt request left])
  | .writes _ _ _ _, .dropped => some (s.ends, [])
  | .reads request left c got, .moved n =>
    let chunk := c.unread.take (min n (missing got))
    let c := { c with received := c.received + chunk.length }
    some (s, [if missing (got ++ chunk) = 0 ∧ 2 ≤ (got ++ chunk).length then .answered request c ((got ++ chunk).drop 2)
      else .reads request left c (got ++ chunk)])
  | .reads request left _ _, .fails => some (s, [.attempt request left])
  | .reads _ _ _ _, .dropped => some (s.ends, [])
  | .answered request c response, .go now =>
    some ({ s.ends with idle := push s.idle (c, now), returned := (request, response, c) :: s.returned }, [])
  | _, _ => none

def step : Pool Shared Thread → Pool.Event Thread Choice → Option (Pool Shared Thread) := Pool.step Thread.start act

variable {message request response got rest : Bytes} {requests : List Bytes} {left n : Nat} {c : Connection}
  {s s' : Shared} {t : Thread} {choice : Choice} {ts us : List Thread}

theorem framed_eq (h : message.length < 2 ^ 16) :
    ∃ hi lo, framed message = hi :: lo :: message ∧ (ofBeU16 hi lo).toNat = message.length :=
  ⟨_, _, rfl, (congrArg UInt16.toNat (ofBeU16_beU16 _)).trans (UInt16.toNat_ofNat_of_lt' h)⟩

theorem messages_framed (h : message.length < 2 ^ 16) :
    messages (framed message ++ rest) = message :: messages rest := by
  obtain ⟨hi, lo, hframed, hlen⟩ := framed_eq h
  rw [hframed, cons_append, cons_append, messages, hlen, if_pos (by simp), take_left, drop_left]

theorem messages_flatMap (h : ∀ r ∈ requests, r.length < 2 ^ 16) : messages (requests.flatMap framed) = requests := by
  induction requests with
  | nil => rw [flatMap_nil, messages]; simp
  | cons r requests ih =>
    obtain ⟨hr, h⟩ := forall_mem_cons.mp h
    rw [flatMap_cons, messages_framed hr, ih h]

theorem Server.responses_concat (server : Server) (requests : List Bytes) (request : Bytes) :
    server.responses (requests ++ [request]) = server.responses requests ++ framed
      (server.answer requests.length request) := by
  simp [Server.responses, mapIdx_append]

/-- All of a message is there once nothing of it is missing. -/
theorem eq_framed_of_missing (h : got ++ rest = framed message) (hshort : message.length < 2 ^ 16)
    (htwo : 2 ≤ got.length) (hmissing : missing got = 0) : rest = [] ∧ got.drop 2 = message := by
  obtain ⟨hi, lo, hframed, hlen⟩ := framed_eq hshort
  rw [hframed] at h
  match got, htwo with
  | _ :: _ :: got, _ =>
    obtain ⟨rfl, rfl, rfl⟩ : _ ∧ _ ∧ got ++ rest = message := by simpa using h
    rw [missing, hlen, length_append] at hmissing
    obtain rfl : rest = [] := eq_nil_of_length_eq_zero (by omega)
    exact ⟨rfl, (append_nil _).symm⟩

/-- These requests were written and their responses read; of the next request, a part was written. -/
structure Connection.After (c : Connection) (requests : List Bytes) (part : Bytes) : Prop where
  sent : c.sent = requests.flatMap framed ++ part
  received : c.received = (c.server.responses requests).length
  short : ∀ r ∈ requests, r.length < 2 ^ 16

def Thread.Sound : Thread → Prop
  | .waits _ | .attempt _ _ | .connects _ _ => True
  | .writes request _ c rest => request.length < 2 ^ 16 ∧
    ∃ requests part, c.After requests part ∧ part ++ rest = framed request
  | .reads request _ c got =>
    ∃ requests rest, c.sent = (requests ++ [request]).flatMap framed ∧
      (∀ r ∈ requests ++ [request], r.length < 2 ^ 16) ∧
      c.received = (c.server.responses requests).length + got.length ∧
      got ++ rest = framed (c.server.answer requests.length request)
  | .answered request c response =>
    ∃ requests, c.After (requests ++ [request]) [] ∧ response = c.server.answer requests.length request

theorem exchange_sound (h : c.After requests []) : (exchange request left c).Sound := by
  rw [exchange]
  split
  · next hshort => exact ⟨hshort, requests, [], h, rfl⟩
  · trivial

theorem writes_moved (h : (Thread.writes request left c rest).Sound) (n : Nat) :
    (if n < rest.length then Thread.writes request left { c with sent := c.sent ++ rest.take n } (rest.drop n)
      else .reads request left { c with sent := c.sent ++ rest.take n } []).Sound := by
  obtain ⟨hshort, requests, part, hafter, hpart⟩ := h
  split
  · refine ⟨hshort, requests, part ++ rest.take n, ⟨?_, hafter.received, hafter.short⟩, ?_⟩
    · rw [hafter.sent, append_assoc]
    · rw [append_assoc, take_append_drop, hpart]
  · next hn =>
    refine ⟨requests, _, ?_, ?_, hafter.received, rfl⟩
    · rw [hafter.sent, take_of_length_le (by omega), append_assoc, hpart]
      simp
    · simpa [or_imp, forall_and] using ⟨hafter.short, hshort⟩

theorem reads_moved (h : (Thread.reads request left c got).Sound) (n : Nat) : let chunk := c.unread.take n
    let c' := { c with received := c.received + chunk.length }
    (if missing (got ++ chunk) = 0 ∧ 2 ≤ (got ++ chunk).length then Thread.answered request c' ((got ++ chunk).drop 2)
      else .reads request left c' (got ++ chunk)).Sound := by
  intro chunk c'
  obtain ⟨requests, rest, hsent, hshort, hreceived, hgot⟩ := h
  have hunread : c.unread = rest := by
    rw [Connection.unread, hsent, messages_flatMap hshort, Server.responses_concat, hreceived, ← hgot, ← append_assoc,
      drop_left' (length_append ..)]
  have hall : got ++ chunk ++ rest.drop n = framed (c.server.answer requests.length request) := by
    rw [← hgot, append_assoc, ← hunread, take_append_drop]
  have hc' : c'.received = (c.server.responses requests).length + (got ++ chunk).length := by
    rw [length_append, ← Nat.add_assoc, ← hreceived]
  split
  · next hdone =>
    obtain ⟨hrest, hresponse⟩ := eq_framed_of_missing hall (c.server.short _ _) hdone.2 hdone.1
    refine ⟨requests, ⟨by rw [append_nil]; exact hsent, ?_, hshort⟩, hresponse⟩
    rw [hrest, append_nil] at hall
    rw [hc', hall, ← length_append]
    exact congrArg List.length (Server.responses_concat ..).symm
  · exact ⟨requests, _, hsent, hshort, hc', hall⟩

theorem takeIdle_subset {now : Nat} {idle idle' : List (Connection × Nat)} {taken : Option Connection}
    (h : takeIdle now idle = (taken, idle')) :
    (∀ c, taken = some c → ∃ used, (c, used) ∈ idle) ∧ (∀ c ∈ idle', c ∈ idle) ∧ idle'.length ≤ idle.length := by
  rcases takeIdle_cases now idle with h' | ⟨expired, c, rest, rfl, -, -, h'⟩ <;> rw [h'] at h <;> cases h
  · simp
  · refine ⟨fun d hd => ⟨c.2, ?_⟩, fun d hd => by simp [hd], by simp; omega⟩
    cases hd
    simp

/-- The pooled connections are at most 32 and clean, every answer is the one to its request, and a permit is
    out for each query under way. -/
structure Inv (s : Shared) (ts : List Thread) : Prop where
  permits : ts.countP Thread.holds + s.permits = streamPoolSize
  few : s.idle.length ≤ streamPoolSize
  clean : ∀ c ∈ s.idle, ∃ requests, c.1.After requests []
  sound : ∀ t ∈ ts, t.Sound
  answers : ∀ request response c, (request, response, c) ∈ s.returned → (Thread.answered request c response).Sound

theorem act_permits (h : act s t choice = some (s', ts)) :
    ts.countP Thread.holds + s'.permits = t.holds.toNat + s.permits := by
  unfold act at h
  split at h <;> grind [Thread.holds, Thread.start, Shared.ends, exchange]

theorem Inv.act (h : Inv s (t :: us)) (hact : act s t choice = some (s', ts)) : Inv s' (ts ++ us) := by
  obtain ⟨hpermits, hfew, hclean, hsound, hanswers⟩ := h
  replace ⟨ht, hsound⟩ := forall_mem_cons.mp hsound
  have hone := act_permits hact
  have hcount : (ts ++ us).countP Thread.holds + s'.permits = streamPoolSize := by
    rw [countP_append]
    cases hh : t.holds <;> simp [hh] at hone hpermits <;> omega
  have hall : ∀ {u}, Thread.Sound u → ∀ t ∈ [u] ++ us, t.Sound := fun hu => forall_mem_cons.mpr ⟨hu, hsound⟩
  unfold TcpPool.act at hact
  split at hact
  case h_4 request left now =>
    split at hact <;> cases hact <;> next htake =>
    obtain ⟨htaken, hkept, hlen⟩ := takeIdle_subset htake
    refine ⟨hcount, hlen.trans hfew, fun c hc => hclean c (hkept c hc), hall ?_, hanswers⟩
    first
      | trivial
      | obtain ⟨used, hin⟩ := htaken _ rfl
        exact exchange_sound (hclean _ hin).choose_spec
  case h_5 request left server =>
    cases hact
    exact ⟨hcount, hfew, hclean,
      hall (exchange_sound (show Connection.After ⟨server, [], 0⟩ [] [] from ⟨rfl, rfl, by simp⟩)), hanswers⟩
  case h_8 request left c rest n =>
    cases hact
    exact ⟨hcount, hfew, hclean, hall (writes_moved ht n), hanswers⟩
  case h_11 request left c got n =>
    cases hact
    exact ⟨hcount, hfew, hclean, hall (reads_moved ht _), hanswers⟩
  case h_14 request c response now =>
    cases hact
    refine ⟨hcount, ?_, ?_, hsound, ?_⟩
    · unfold push
      split
      · assumption
      · exact hfew
    · unfold push
      split
      · exact forall_mem_cons.mpr ⟨⟨_, ht.choose_spec.1⟩, hclean⟩
      · exact hclean
    · intro request' response' d hd
      rcases mem_cons.mp hd with hd | hd
      · cases hd
        exact ht
      · exact hanswers _ _ _ hd
  case h_1 request now =>
    split at hact <;> cases hact
    exact ⟨hcount, hfew, hclean, hall trivial, hanswers⟩
  case h_9 | h_12 =>
    cases hact
    exact ⟨hcount, hfew, hclean, hall trivial, hanswers⟩
  case h_15 => cases hact
  all_goals
    cases hact
    exact ⟨hcount, hfew, hclean, hsound, hanswers⟩

theorem inv_of_run {es : List (Pool.Event Thread Choice)} {p : Pool Shared Thread}
    (h : run step ⟨⟨streamPoolSize, [], []⟩, []⟩ es = some p) : Inv p.shared p.threads := by
  have hperm : ∀ s ts us, ts.Perm us → Inv s ts → Inv s us := fun s ts us hp hts =>
    ⟨by rw [← hp.countP_eq]; exact hts.permits, hts.few, hts.clean,
      fun t ht => hts.sound t (hp.mem_iff.mpr ht), hts.answers⟩
  have hspawn : ∀ s ts t, Thread.start t = true → Inv s ts → Inv s (t :: ts) := by
    rintro s ts (_ | _ | _ | _ | _ | _) ht hts <;> cases ht
    exact ⟨hts.permits, hts.few, hts.clean, forall_mem_cons.mpr ⟨trivial, hts.sound⟩, hts.answers⟩
  have hinit : Inv ⟨streamPoolSize, [], []⟩ [] := ⟨rfl, Nat.zero_le _, by simp, by simp, by simp⟩
  exact Pool.inv_run hperm hspawn (fun _ _ _ _ _ _ => Inv.act) hinit h

/-- **Answers.** In every interleaving: an answer is the server's response to the request, the last one on its
    connection; on a pooled connection all that was written is requests and all responses were read; and at
    most 32 connections are pooled and 32 queries under way. -/
theorem answers_not_mixed_up (es : List (Pool.Event Thread Choice)) (p : Pool Shared Thread)
    (h : run step ⟨⟨streamPoolSize, [], []⟩, []⟩ es = some p) :
    (∀ request response c, (request, response, c) ∈ p.shared.returned →
      ∃ requests, messages c.sent = requests ++ [request] ∧ response = c.server.answer requests.length request) ∧
    (∀ c ∈ p.shared.idle, (messages c.1.sent).flatMap framed = c.1.sent ∧
      c.1.received = (c.1.server.responses (messages c.1.sent)).length) ∧
    p.shared.idle.length ≤ 32 ∧ p.threads.countP Thread.holds ≤ 32 := by
  have hinv := inv_of_run h
  have hsent : ∀ {c : Connection} {requests}, c.After requests [] → messages c.sent = requests := fun hafter => by
    rw [hafter.sent, append_nil, messages_flatMap hafter.short]
  refine ⟨fun request response c hc => ?_, fun c hc => ?_, hinv.few, ?_⟩
  · obtain ⟨requests, hafter, hresponse⟩ := hinv.answers request response c hc
    exact ⟨requests, hsent hafter, hresponse⟩
  · obtain ⟨requests, hafter⟩ := hinv.clean c hc
    rw [hsent hafter]
    exact ⟨by rw [hafter.sent, append_nil], hafter.received⟩
  · have hpermits := hinv.permits
    rw [streamPoolSize] at hpermits
    omega

/-- Answers with the number of the request and with its first byte. -/
def numbering : Server := ⟨fun i request => [UInt8.ofNat i, request.headD 0], fun _ _ => by simp⟩

/-- A query that is answered. -/
def served (connect : List Choice) (request : Bytes) : List (Pool.Event Thread Choice) :=
  .spawn (.waits request) ::
    map (.act 0) ([.go 0, .go 0] ++ connect ++ [.moved 3, .moved 1, .moved 9, .moved 9, .go 0])

/-- A query is answered, one on its connection is dropped while it writes, and two are answered on a new one. -/
def history : List (Pool.Event Thread Choice) :=
  served [.connected numbering] [7] ++ [.spawn (.waits [5]), .act 0 (.go 0), .act 0 (.go 0), .act 0 (.moved 2),
    .act 0 .dropped] ++ served [.connected numbering] [6] ++ served [] [8]

theorem answers_not_mixed_up_reused : ∃ p, run step ⟨⟨streamPoolSize, [], []⟩, []⟩ history = some p ∧
    p.shared.returned.map (fun r => (r.1, r.2.1)) = [([8], [1, 8]), ([6], [0, 6]), ([7], [0, 7])] ∧
    p.shared.idle.length = 1 ∧ ∀ c ∈ p.shared.idle, (messages c.1.sent).flatMap framed = c.1.sent := by
  have hrun : (run step ⟨⟨streamPoolSize, [], []⟩, []⟩ history).map
      (fun p => (p.shared.returned.map fun r => (r.1, r.2.1), p.shared.idle.length)) =
      some ([([8], [1, 8]), ([6], [0, 6]), ([7], [0, 7])], 1) := by decide +kernel
  obtain ⟨p, hp, hends⟩ := Option.map_eq_some_iff.mp hrun
  obtain ⟨hreturned, hidle⟩ := Prod.mk.inj hends
  exact ⟨p, hp, hreturned, hidle, fun c hc => ((answers_not_mixed_up history p hp).2.1 c hc).1⟩

/-- **Permits.** Wherever queries are dropped, a query has to wait exactly while 32 others are under way. -/
theorem query_waits_iff (es : List (Pool.Event Thread Choice)) (p : Pool Shared Thread)
    (h : run step ⟨⟨streamPoolSize, [], []⟩, []⟩ es = some p) (request : Bytes) (now : Nat) :
    act p.shared (.waits request) (.go now) = none ↔ p.threads.countP Thread.holds = 32 := by
  have hpermits : p.threads.countP Thread.holds + p.shared.permits = 32 := (inv_of_run h).permits
  have hnone : act p.shared (.waits request) (.go now) = none ↔ p.shared.permits = 0 := by simp [act]
  rw [hnone]
  omega

def busy : List (Pool.Event Thread Choice) := (replicate 32 [.spawn (.waits [7]), .act 0 (.go 0)]).flatten

/-- A query waits for 32 others, and no longer once one of them has been dropped while it connects. -/
theorem query_waits_iff_busy :
    (∃ p, run step ⟨⟨streamPoolSize, [], []⟩, []⟩ busy = some p ∧ act p.shared (.waits [8]) (.go 0) = none) ∧
    ∃ p, run step ⟨⟨streamPoolSize, [], []⟩, []⟩ (busy ++ [.act 0 (.go 0), .act 0 .dropped]) = some p ∧
      act p.shared (.waits [8]) (.go 0) ≠ none :=
  ⟨⟨_, rfl, (query_waits_iff busy _ rfl [8] 0).mpr rfl⟩,
    _, rfl, fun h => nomatch (query_waits_iff (busy ++ [.act 0 (.go 0), .act 0 .dropped]) _ rfl [8] 0).mp h⟩

end Xhttp.Dns.TcpPool
