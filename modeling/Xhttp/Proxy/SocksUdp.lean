import Xhttp.Lib.Map
import Xhttp.Lib.Run
import Xhttp.Net
import Xhttp.Proxy.UdpSend

/- UDP of the SOCKS inbound (`udp_associate` and `udp_session` in `src/proxy/udp.rs`). One socket takes the datagrams of
   all ports of the client. A datagram goes to the session of its outbound and destination, and a new session keeps the
   address of the datagram that opened it: it sends there whatever it receives. So if two ports of the client talk to
   one destination, the second never gets an answer (`reply_to_first_port`).

   A datagram is received with its host and port already decoded. Sessions are numbered in the order they were opened.
   Errors and timeouts end a session at any time. A full queue only delays a send. -/
namespace Xhttp.Proxy
open Xhttp.Lib Xhttp.Routing Vless Vless.Relay List

def destinationHost : Destination → Str
  | .ip ip _ => ip.text
  | .domain name _ => name

/-- `format!("{tag}|{}:{}", destination.host(), destination.port())`. -/
def socksKey (tag : Str) (destination : Destination) : Str :=
  tag ++ '|' :: destinationHost destination ++ ':' :: Str.decimal destination.port.toNat

/-! ## A session -/

/-- A payload on its way to a session. Who sent it, where to and with which options it was routed is only recorded. -/
structure SocksDatagram where
  payload : Bytes
  peer : SocketAddr
  own : Destination
  options : RouteOptions
  deriving DecidableEq, Repr

inductive SocksPhase where
  /-- `resolve_udp(..).await` or the connection to the proxy. -/
  | connect
  | select
  | ended
  deriving DecidableEq, Repr

structure SocksSession where
  client : SocketAddr
  destination : Destination
  dialer : UdpDialer
  options : RouteOptions
  packets : List SocksDatagram
  phase : SocksPhase
  sent : List SocksDatagram

structure SocksReply where
  client : SocketAddr
  /-- The `response_source` it is encoded with. -/
  source : Destination
  payload : Bytes
  /-- The session that received it, and the sender of the datagram it answers, if it answers one. Only recorded. -/
  session : Option Nat
  answers : Option SocketAddr

inductive SessionEvent where
  | connected
  /-- `packets.recv()`, and the packet is sent. -/
  | packet
  /-- A response with the address it carries, to datagram number `answering` if it answers one. -/
  | response (source : Option Destination) (payload : Bytes) (answering : Option Nat)
  | stop

namespace SocksSession

/-- The `response_source` of the three dialers: a VLESS packet may come without an address. -/
def responseSource (t : SocksSession) (source : Option Destination) : Destination :=
  (source.map fun source => udpResponseProxyDestination t.destination source t.options).getD t.destination

/-- The session with number `n` afterwards, and what it sends to the client. -/
def step (n : Nat) (t : SocksSession) : SessionEvent → Option (SocksSession × Option SocksReply)
  | .connected =>
    match t.phase with
    | .connect => some ({ t with phase := .select }, none)
    | _ => none
  | .packet =>
    match t.phase, t.packets with
    | .select, p :: packets => some ({ t with packets, sent := t.sent ++ [p] }, none)
    | _, _ => none
  | .response source payload answering =>
    match t.phase with
    | .select =>
      some (t, some { client := t.client, source := t.responseSource source, payload, session := some n,
                      answers := (answering.bind fun i => t.sent[i]?).map SocksDatagram.peer })
    | _ => none
  | .stop => some ({ t with phase := .ended }, none)

/-- Datagrams go to the destination the session was opened with. -/
def send (t : SocksSession) (p : SocksDatagram) : UdpSend :=
  { relay := .socks, first := false, own := p.own, opened := t.destination, options := p.options,
    target := t.destination }

end SocksSession

/-! ## An association -/

inductive AssociatePhase where
  /-- Both branches of `select!` pending. -/
  | select
  /-- `evaluate_udp_route(..).await`. -/
  | evaluate (peer : SocketAddr) (own : Destination) (payload : Bytes)
  /-- `sender.send(..).await` to session `n`. -/
  | send (n : Nat) (p : SocksDatagram)
  | returned
  deriving DecidableEq

/-- A hijacked query, with the destination it was routed to. -/
structure HijackedQuery where
  peer : SocketAddr
  destination : Destination
  deriving DecidableEq

/-- What a session keeps, and what it sends back. -/
structure SocksSession.Steps (n : Nat) (t t' : SocksSession) (reply : Option SocksReply) : Prop where
  client : t'.client = t.client
  destination : t'.destination = t.destination
  given : ∀ p, p ∈ t'.packets ++ t'.sent → p ∈ t.packets ++ t.sent
  reply : ∀ r, reply = some r → r.client = t.client ∧ r.session = some n ∧
    ∀ peer, r.answers = some peer → ∃ p ∈ t.sent, p.peer = peer

theorem SocksSession.steps_of_step {n : Nat} {t t' : SocksSession} {event : SessionEvent} {reply : Option SocksReply}
    (h : t.step n event = some (t', reply)) : t.Steps n t' reply := by
  cases event with
  | connected =>
    simp only [SocksSession.step] at h
    split at h <;> cases h
    exact ⟨rfl, rfl, fun _ => id, nofun⟩
  | packet =>
    simp only [SocksSession.step] at h
    split at h
    · next p packets _ hpackets =>
      cases h
      refine ⟨rfl, rfl, fun q hq => ?_, nofun⟩
      grind
    · cases h
  | response source payload answering =>
    simp only [SocksSession.step] at h
    split at h <;> cases h
    refine ⟨rfl, rfl, fun _ => id, fun r heq => ?_⟩
    grind [Option.map_eq_some_iff, Option.bind_eq_some_iff, mem_of_getElem?]
  | stop =>
    cases h
    exact ⟨rfl, rfl, fun _ => id, nofun⟩

namespace Associate

structure State where
  phase : AssociatePhase
  sessions : AList fun _ : Str => Nat
  tasks : List SocksSession
  queries : List HijackedQuery
  replies : List SocksReply
  /-- Only recorded: senders and routed destinations of the datagrams that went to a session. -/
  routed : List (SocketAddr × Destination)

def start : State :=
  { phase := .select, sessions := ∅, tasks := [], queries := [], replies := [], routed := [] }

inductive Event where
  /-- A datagram, with host, port and payload if it parses. -/
  | receive (peer : SocketAddr) (parsed : Option (Str × UInt16 × Bytes))
  /-- The control connection or the socket fails or ends. -/
  | close
  | evaluated (decision : RouteDecision) (options : RouteOptions) (dialer : Option UdpDialer)
  /-- `evaluate_udp_route(..).await?` with an error. -/
  | failed
  | send
  | session (n : Nat) (event : SessionEvent)
  /-- `resolver.exchange` of hijacked query `n` is done. -/
  | exchanged (n : Nat) (response : Bytes)

def State.closed (s : State) (n : Nat) : Bool := (s.tasks[n]?.map fun t => t.phase == .ended).getD true

/-- `sessions.get(&key).filter(|value| !value.is_closed())`. -/
def State.openSession (s : State) (key : Str) : Option Nat := (s.sessions.lookup key).filter fun n => !s.closed n

section
variable (client : IpAddr)

/-- The datagram goes to the open session of its key, or opens one. -/
def State.join (s : State) (key : Str) (p : SocksDatagram) (destination : Destination) (dialer : UdpDialer) : State :=
  match s.openSession key with
  | some n => { s with phase := .send n p, routed := s.routed ++ [(p.peer, destination)] }
  | none =>
    { s with
      phase := .send s.tasks.length p
      sessions := s.sessions.insert key s.tasks.length
      tasks := s.tasks ++ [{ client := p.peer, destination, dialer, options := p.options, packets := [],
                             phase := .connect, sent := [] }]
      routed := s.routed ++ [(p.peer, destination)] }

def step (s : State) : Event → Option State
  | .receive peer parsed =>
    match s.phase with
    | .select =>
      if peer.ip ≠ client then some s
      else match parsed with
        | none => some s
        | some (host, port, payload) =>
          some { s with phase := .evaluate peer (parseDestination host port) payload }
    | _ => none
  | .close =>
    match s.phase with
    | .select => some { s with phase := .returned }
    | _ => none
  | .evaluated decision options dialer =>
    match s.phase with
    | .evaluate peer own payload =>
      let destination := overrideDestination own options
      match decision, dialer with
      | .reject, _ | .outbound _, none | .outbound _, some .block => some { s with phase := .select }
      | .hijackDns, _ => some { s with phase := .select, queries := s.queries ++ [⟨peer, destination⟩] }
      | .outbound tag, some dialer =>
        some (s.join (socksKey tag destination) { payload, peer, own, options } destination dialer)
    | _ => none
  | .failed =>
    match s.phase with
    | .evaluate _ _ _ => some { s with phase := .returned }
    | _ => none
  | .send =>
    match s.phase with
    | .send n p =>
      match s.tasks[n]? with
      | none => none
      | some t =>
        if t.phase = .ended then
          some { s with phase := .select, sessions := Map.retain (fun _ n => !s.closed n) s.sessions }
        else some { s with phase := .select, tasks := s.tasks.set n { t with packets := t.packets ++ [p] } }
    | _ => none
  | .session n event =>
    match s.tasks[n]? with
    | none => none
    | some t => (t.step n event).map fun r =>
        { s with tasks := s.tasks.set n r.1, replies := s.replies ++ r.2.toList }
  | .exchanged n response =>
    match s.queries[n]? with
    | none => none
    | some query =>
      some { s with replies := s.replies ++ [{ client := query.peer, source := query.destination, payload := response,
                                               session := none, answers := some query.peer }] }

end

/-! ## What a step can do -/

inductive Steps (s : State) : Event → State → Prop where
  | ignored {e} : Steps s e s
  | received {peer host port payload} (hphase : s.phase = .select) :
      Steps s (.receive peer (some (host, port, payload)))
        { s with phase := .evaluate peer (parseDestination host port) payload }
  | passed {e} (phase : AssociatePhase) (hphase : phase = .select ∨ phase = .returned) :
      Steps s e { s with phase }
  | hijacked {peer own payload options dialer} (hphase : s.phase = .evaluate peer own payload) :
      Steps s (.evaluated .hijackDns options dialer)
        { s with phase := .select, queries := s.queries ++ [⟨peer, overrideDestination own options⟩] }
  | joined {peer own payload tag options dialer} (n : Nat) (hphase : s.phase = .evaluate peer own payload)
      (hopen : s.openSession (socksKey tag (overrideDestination own options)) = some n) :
      Steps s (.evaluated (.outbound tag) options (some dialer))
        { s with phase := .send n { payload, peer, own, options },
                 routed := s.routed ++ [(peer, overrideDestination own options)] }
  | opened {peer own payload tag options dialer} (hphase : s.phase = .evaluate peer own payload)
      (hnone : s.openSession (socksKey tag (overrideDestination own options)) = none) :
      Steps s (.evaluated (.outbound tag) options (some dialer))
        { s with
          phase := .send s.tasks.length { payload, peer, own, options }
          sessions := s.sessions.insert (socksKey tag (overrideDestination own options)) s.tasks.length
          tasks := s.tasks ++ [{ client := peer, destination := overrideDestination own options, dialer, options,
                                 packets := [], phase := .connect, sent := [] }]
          routed := s.routed ++ [(peer, overrideDestination own options)] }
  | undelivered {n p} (hphase : s.phase = .send n p) :
      Steps s .send
        { s with phase := .select, sessions := Map.retain (fun _ n => !s.closed n) s.sessions }
  | queued {n p t} (hphase : s.phase = .send n p) (ht : s.tasks[n]? = some t) :
      Steps s .send
        { s with phase := .select, tasks := s.tasks.set n { t with packets := t.packets ++ [p] } }
  | session {n event t t' reply} (ht : s.tasks[n]? = some t) (hstep : t.step n event = some (t', reply)) :
      Steps s (.session n event) { s with tasks := s.tasks.set n t', replies := s.replies ++ reply.toList }
  | exchanged {n response query} (hquery : s.queries[n]? = some query) :
      Steps s (.exchanged n response)
        { s with replies := s.replies ++ [{ client := query.peer, source := query.destination, payload := response,
                                            session := none, answers := some query.peer }] }

section
variable {client : IpAddr} {s s' : State} {e : Event}

theorem steps_of_step (h : step client s e = some s') : Steps s e s' := by
  cases e with
  | receive peer parsed =>
    simp only [step] at h
    split at h
    · next hphase =>
      split at h
      · cases h
        exact .ignored
      · split at h
        · cases h
          exact .ignored
        · cases h
          exact .received hphase
    · cases h
  | close | failed =>
    simp only [step] at h
    split at h
    · cases h
      exact .passed _ (.inr rfl)
    · cases h
  | evaluated decision options dialer =>
    simp only [step] at h
    split at h
    · next peer own payload hphase =>
      split at h
      · cases h
        exact .passed _ (.inl rfl)
      · cases h
        exact .passed _ (.inl rfl)
      · cases h
        exact .passed _ (.inl rfl)
      · cases h
        exact .hijacked hphase
      · cases h
        unfold State.join
        split
        · next n hopen => exact .joined n hphase hopen
        · next hnone => exact .opened hphase hnone
    · cases h
  | send =>
    simp only [step] at h
    split at h
    · next n p hphase =>
      split at h
      · cases h
      · next t ht =>
        split at h
        · cases h
          exact .undelivered hphase
        · cases h
          exact .queued hphase ht
    · cases h
  | session n event =>
    simp only [step] at h
    split at h
    · cases h
    · next t ht =>
      obtain ⟨⟨t', reply⟩, hstep, rfl⟩ := Option.map_eq_some_iff.mp h
      exact .session ht hstep
  | exchanged n response =>
    simp only [step] at h
    split at h
    · cases h
    · next query hquery =>
      cases h
      exact .exchanged hquery

/-! ## Who gets a reply -/

/-- The address a session was opened from, and what has gone through its queue. -/
structure State.Opened (s : State) : Prop where
  tasks : ∀ (n : Nat) (t : SocksSession), s.tasks[n]? = some t → (t.client, t.destination) ∈ s.routed
  replies : ∀ r ∈ s.replies, ∀ n, r.session = some n → ∃ t, s.tasks[n]? = some t ∧ r.client = t.client

/-- No session has been given a datagram of another address than the one that opened it. -/
structure State.Alone (s : State) : Prop where
  tasks : ∀ (n : Nat) (t : SocksSession), s.tasks[n]? = some t → ∀ p ∈ t.packets ++ t.sent, p.peer = t.client
  sending : ∀ n p, s.phase = .send n p → ∀ t : SocksSession, s.tasks[n]? = some t → p.peer = t.client
  replies : ∀ r ∈ s.replies, ∀ peer, r.answers = some peer → r.client = peer

/-- A datagram joins a session only if its sender has opened it. -/
def alone (s : State) : Event → Bool
  | .evaluated (.outbound tag) options _ =>
    match s.phase with
    | .evaluate peer own _ =>
      ((s.openSession (socksKey tag (overrideDestination own options))).bind fun n => s.tasks[n]?).all
        fun t => t.client == peer
    | _ => true
  | _ => true

theorem opened_start : start.Opened := by
  constructor <;> simp [start]

theorem alone_start : start.Alone := by
  constructor <;> simp [start]

theorem State.Opened.step (hs : s.Opened) (h : step client s e = some s') : s'.Opened := by
  cases steps_of_step h with
  | ignored => exact hs
  | received | passed | hijacked | undelivered => exact ⟨hs.tasks, hs.replies⟩
  | joined n hphase hopen =>
    exact ⟨fun n t ht => mem_append_left _ (hs.tasks n t ht), hs.replies⟩
  | opened hphase hnone =>
    refine ⟨fun n t ht => ?_, fun r hr n hn => ?_⟩
    · rcases Numbered.get_concat_cases ht with hold | ⟨-, rfl⟩
      · exact mem_append_left _ (hs.tasks n t hold)
      · exact mem_append_right _ (mem_singleton.mpr rfl)
    · obtain ⟨t, ht, hclient⟩ := hs.replies r hr n hn
      exact ⟨t, Numbered.get_concat ht, hclient⟩
  | @queued n p t hphase ht =>
    refine ⟨fun m u hu => ?_, fun r hr m hm => ?_⟩
    · rcases Numbered.get_set_cases ht hu with ⟨rfl, rfl⟩ | ⟨-, hold⟩
      · exact hs.tasks m t ht
      · exact hs.tasks m u hold
    · obtain ⟨u, hu, hclient⟩ := hs.replies r hr m hm
      grind
  | @session n event t t' reply ht hstep =>
    have hT := SocksSession.steps_of_step hstep
    refine ⟨fun m u hu => ?_, fun r hr m hm => ?_⟩
    · rcases Numbered.get_set_cases ht hu with ⟨rfl, rfl⟩ | ⟨-, hold⟩
      · rw [hT.client, hT.destination]
        exact hs.tasks m t ht
      · exact hs.tasks m u hold
    · rcases mem_append.mp hr with hold | hnew
      · obtain ⟨u, hu, hclient⟩ := hs.replies r hold m hm
        obtain ⟨u', hu', hsame⟩ := Numbered.get_set_of_eq SocksSession.client ht hT.client hu
        exact ⟨u', hu', hclient.trans hsame.symm⟩
      · obtain ⟨hclient, hsession, -⟩ := hT.reply r (Option.mem_toList.mp hnew)
        obtain rfl : n = m := Option.some.inj (hsession.symm.trans hm)
        exact ⟨t', getElem?_set_self (Numbered.lt_length ht), hclient.trans hT.client.symm⟩
  | @exchanged n response query hquery =>
    refine ⟨hs.tasks, fun r hr m hm => ?_⟩
    rcases mem_append.mp hr with hold | hnew
    · exact hs.replies r hold m hm
    · obtain rfl := mem_singleton.mp hnew
      cases hm

theorem State.Alone.step (hs : s.Alone) (halone : alone s e = true)
    (h : step client s e = some s') : s'.Alone := by
  cases steps_of_step h with
  | ignored => exact hs
  | passed phase hphase =>
    refine ⟨hs.tasks, fun n p hp => ?_, hs.replies⟩
    rcases hphase with rfl | rfl <;> cases hp
  | received | hijacked | undelivered => exact ⟨hs.tasks, fun _ _ heq => (by cases heq), hs.replies⟩
  | joined n hphase hopen =>
    refine ⟨hs.tasks, fun m p hp t ht => ?_, hs.replies⟩
    cases hp
    simp_all [alone, Option.bind_some, Option.all_some, beq_iff_eq]
  | opened hphase hnone =>
    refine ⟨fun n t ht => ?_, fun n p hp t ht => ?_, hs.replies⟩
    · rcases Numbered.get_concat_cases ht with hold | ⟨-, rfl⟩
      · exact hs.tasks n t hold
      · exact fun p hp => by cases hp
    grind
  | @queued n p t hphase ht =>
    refine ⟨fun m u hu q hq => ?_, fun _ _ heq => (by cases heq), hs.replies⟩
    rcases Numbered.get_set_cases ht hu with ⟨rfl, rfl⟩ | ⟨-, hold⟩
    · simp only [mem_append, mem_singleton] at hq
      rcases hq with (hq | rfl) | hq
      · exact hs.tasks m t ht q (mem_append_left _ hq)
      · exact hs.sending m q hphase t ht
      · exact hs.tasks m t ht q (mem_append_right _ hq)
    · exact hs.tasks m u hold q hq
  | @session n event t t' reply ht hstep =>
    have hT := SocksSession.steps_of_step hstep
    refine ⟨fun m u hu q hq => ?_, fun m p hp u hu => ?_, fun r hr peer hpeer => ?_⟩
    · rcases Numbered.get_set_cases ht hu with ⟨rfl, rfl⟩ | ⟨-, hold⟩
      · rw [hT.client]
        exact hs.tasks m t ht q (hT.given q hq)
      · exact hs.tasks m u hold q hq
    · rcases Numbered.get_set_cases ht hu with ⟨rfl, rfl⟩ | ⟨-, hold⟩
      · rw [hT.client]
        exact hs.sending m p hp t ht
      · exact hs.sending m p hp u hold
    · rcases mem_append.mp hr with hold | hnew
      · exact hs.replies r hold peer hpeer
      · obtain ⟨hclient, -, hanswers⟩ := hT.reply r (Option.mem_toList.mp hnew)
        obtain ⟨p, hp, rfl⟩ := hanswers peer hpeer
        rw [hclient]
        exact (hs.tasks n t ht p (mem_append_right _ hp)).symm
  | @exchanged n response query hquery =>
    refine ⟨hs.tasks, hs.sending, fun r hr peer hpeer => ?_⟩
    rcases mem_append.mp hr with hold | hnew
    · exact hs.replies r hold peer hpeer
    · obtain rfl := mem_singleton.mp hnew
      exact Option.some.inj hpeer

end

/-- **Replies of a session.** In every run a reply goes to an address from which a datagram to the destination of its
    session was received; and if every datagram that joins a session comes from the address that opened it, a reply
    goes to the sender of the datagram it answers. -/
theorem replies_to_sender (client : IpAddr) (es : List Event) (s : State)
    (hrun : run (step client) start es = some s) :
    (∀ r ∈ s.replies, ∀ n, r.session = some n →
      ∃ t, s.tasks[n]? = some t ∧ (r.client, t.destination) ∈ s.routed) ∧
    (Along (step client) (fun s e => alone s e = true) start es →
      ∀ r ∈ s.replies, ∀ peer, r.answers = some peer → r.client = peer) := by
  constructor
  · have hopened : s.Opened := run_inv State.Opened (fun _ => True) (fun s e s' _ hs h => hs.step h)
      (fun _ _ => trivial) opened_start hrun
    intro r hr n hn
    obtain ⟨t, ht, hclient⟩ := hopened.replies r hr n hn
    rw [hclient]
    exact ⟨t, ht, hopened.tasks n t ht⟩
  · intro halong
    have halone : s.Alone := run_inv_along State.Alone _ (fun s e s' ha hs h => hs.step ha h) es halong alone_start hrun
    exact halone.replies

def firstPort : SocketAddr := ⟨.v4 #v[127, 0, 0, 9], 4001⟩
def secondPort : SocketAddr := { firstPort with port := 4002 }

/-- A datagram of `peer` for port 53 of `host` is routed directly. -/
def datagramOf (peer : SocketAddr) (host : Str) : List Event :=
  [.receive peer (some (host, 53, [1])), .evaluated (.outbound "direct") {} (some .direct), .send]

/-- Both ports ask one server, which answers both. -/
def twoPorts : List Event :=
  datagramOf firstPort "dns.example" ++ datagramOf secondPort "dns.example" ++
    [.session 0 .connected, .session 0 .packet, .session 0 .packet,
     .session 0 (.response none [2] (some 0)), .session 0 (.response none [3] (some 1))]

/-- Both answers go to the port that asked first. -/
theorem reply_to_first_port :
    (run (step firstPort.ip) start twoPorts).map
        (fun s => s.replies.map fun r => (r.client, r.payload, r.answers)) =
      some [(firstPort, [2], some firstPort), (firstPort, [3], some secondPort)] ∧ firstPort ≠ secondPort := by
  decide +kernel

def twoServers : List Event :=
  datagramOf firstPort "dns.example" ++ datagramOf secondPort "ntp.example" ++
    [.session 0 .connected, .session 0 .packet, .session 1 .connected, .session 1 .packet,
     .session 0 (.response none [2] (some 0)), .session 1 (.response none [3] (some 0))]

theorem replies_to_sender_two_servers :
    ∃ s, run (step firstPort.ip) start twoServers = some s ∧ s.replies.length = 2 ∧
      ∀ r ∈ s.replies, ∀ peer, r.answers = some peer → r.client = peer := by
  have hrun : (run (step firstPort.ip) start twoServers).map (fun s => s.replies.length) = some 2 := by decide +kernel
  obtain ⟨s, hs, hlength⟩ := Option.map_eq_some_iff.mp hrun
  exact ⟨s, hs, hlength, (replies_to_sender _ _ s hs).2 (by decide +kernel)⟩

/-! ## What ends an association -/

theorem step_returned {client : IpAddr} {s s' : State} {e : Event}
    (h : step client s e = some s') :
    (s'.phase = .returned ↔ s.phase = .returned ∨ e = .close ∨ e = .failed) ∧
      (s.phase = .returned → e ≠ .close ∧ e ≠ .failed) := by
  cases e with
  | receive peer parsed =>
    simp only [step] at h
    grind
  | session n event =>
    simp only [step] at h
    grind [Option.map_eq_some_iff]
  | close | failed | send | exchanged n response => grind [step]
  | evaluated decision options dialer => grind [step, State.join]

/-- **Errors.** In every run only the end of the control connection or of the socket makes the association
    return, exactly if the evaluation of no route fails; and it fails only if the lookup of a `resolve` action
    does. -/
theorem errors_stay_local_iff (client : IpAddr) (es : List Event) (s : State)
    (hrun : run (step client) start es = some s) :
    ((s.phase = .returned → .close ∈ es) ↔ .failed ∉ es) ∧
    ∀ env input own payload rounds error, evaluateUdpRoute env input own payload rounds = some (.error error) →
      ∃ resolver ∈ input.resolver, ∃ history name options, resolver history name options = .error error := by
  constructor
  · have hhistory := run_history (fun es s => (s.phase = .returned → (.close ∈ es ↔ .failed ∉ es)) ∧
      (s.phase ≠ .returned → .close ∉ es ∧ .failed ∉ es)) (fun _ => True)
      (fun es s e s' _ hs h => by grind [step_returned h]) es [] start s (fun _ _ => trivial) (by simp [start]) hrun
    grind
  · intro env input own payload rounds error h
    obtain ⟨result, hloop, hresult⟩ := Option.map_eq_some_iff.mp h
    cases result with
    | ok found => cases hresult
    | error e =>
      cases hresult
      exact evaluateLoop_error hloop

/-- A datagram that does not parse, one for an outbound that does not exist, and one whose session fails. -/
def withErrors : List Event :=
  [.receive firstPort none, .receive firstPort (some ("a.example", 53, [1])), .evaluated (.outbound "gone") {} none] ++
    datagramOf firstPort "dns.example" ++ [.session 0 .stop] ++ datagramOf firstPort "ntp.example"

theorem errors_stay_local_iff_errors :
    ∃ s, run (step firstPort.ip) start withErrors = some s ∧ s.tasks.length = 2 ∧ s.phase ≠ .returned := by
  have hrun : (run (step firstPort.ip) start withErrors).map (fun s => s.tasks.length) = some 2 := by decide +kernel
  obtain ⟨s, hs, hlength⟩ := Option.map_eq_some_iff.mp hrun
  refine ⟨s, hs, hlength, fun hreturned => ?_⟩
  have hclose := (errors_stay_local_iff _ _ s hs).1.mpr (by simp [withErrors, datagramOf]) hreturned
  simp [withErrors, datagramOf] at hclose

/-- The name of one datagram cannot be resolved. -/
theorem failed_lookup_ends_association :
    (∃ router error, exampleRouter [resolveItems] = .ok router ∧
      evaluateUdpRoute exampleEnv { peer := (firstPort.ip, 4000), inbound := "socks", router,
                                    resolver := some fun _ _ _ => .error (.message "SERVFAIL") }
        (.domain "a.example" 53) [1] 2 = some (.error error)) ∧
    (run (step firstPort.ip) start
      [.receive firstPort (some ("a.example", 53, [1])), .failed]).map State.phase = some .returned :=
  ⟨⟨_, _, rfl, rfl⟩, by decide +kernel⟩

end Associate
end Xhttp.Proxy
