import Xhttp.Proxy.UdpNat
import Xhttp.Proxy.UdpSend

/- UDP of the transparent inbounds: the packets of a client reach `relay_tun_udp` (`src/proxy/relay.rs`) through the
   NAT table, and its responses come back through the filter of the table to the writer of the inbound, which is
   `run_udp` (`src/tun.rs`) for TUN and `run_tproxy_inbound` (`src/proxy/tproxy.rs`) for TPROXY. A flow is one
   `relay_tun_udp`, numbered in the order the flows were started; its number stands for the sender of its queue.

   A reply has the wrong source address in two ways (`reply_from_another_server`): the hijack loop answers every query
   as the first destination of the mapping, and the writer of TPROXY sends from the socket of the inbound.

   What a flow does between two uses of a channel is one step. Errors, timeouts and the end of its queue may end a flow
   at any time; a send that would wait is a send that comes later. A route evaluation is one event with any decision
   and any options. A netstack socket sends from the address it is given, a UDP socket from the one it is bound to. -/
namespace Xhttp.Proxy
open Xhttp.Lib Xhttp.Routing Vless Vless.Relay List

/-! ## A flow -/

structure Packet where
  payload : Bytes
  destination : SocketAddr
  deriving DecidableEq, Repr

structure UdpReply where
  payload : Bytes
  remote : SocketAddr
  client : SocketAddr
  /-- Only recorded: the destination of the query, or the address the outbound gave, which is the destination of the
      flow if it gave none. -/
  answers : Option SocketAddr
  deriving DecidableEq, Repr

inductive TunOutbound where
  | direct (target : SocketAddr) (connected : Bool)
  | vless (xudp : Bool)
  | anyTls (connected : Bool)
  deriving DecidableEq, Repr

/-- What `relay_tun_udp` has evaluated. -/
structure TunRoute where
  original : SocketAddr
  destination : Destination
  options : RouteOptions
  deriving DecidableEq, Repr

inductive FlowPhase where
  /-- `packets.recv()`, for the first packet. -/
  | first
  /-- `evaluate_udp_route(..).await`. -/
  | evaluate (first : Packet)
  /-- `packets.recv()` in the hijack loop. -/
  | hijack (original : SocketAddr)
  /-- `resolver.exchange(&request).await`. -/
  | exchange (original : SocketAddr) (request : Packet)
  /-- The socket is bound, or the stream of the proxy opened. -/
  | connect (dialer : UdpDialer) (route : TunRoute) (first : Packet)
  /-- The `select!` of a dialer, with the packets of `initial_rx`. -/
  | relay (outbound : TunOutbound) (route : TunRoute) (initial : List Packet)
  | ended
  deriving DecidableEq

structure Flow where
  key : UdpMappingKey
  source : SocketAddr
  fixedDestination : Bool
  packets : List Packet
  phase : FlowPhase
  responses : List UdpReply
  /-- Only recorded: the packets handed to the outbound. -/
  sent : List UdpSend

inductive FlowEvent where
  | recv
  | evaluated (decision : RouteDecision) (options : RouteOptions) (dialer : Option UdpDialer)
  | exchanged (response : Bytes)
  | connected (lookup : Str → Option IpAddr)
  /-- `packets.next()`, and the packet is sent. -/
  | packet
  /-- `socket.recv_from`, or `socket.recv`. -/
  | datagram (source : SocketAddr) (payload : Bytes) (lookup : Str → Option IpAddr)
  /-- A packet of the VLESS stream, with the address of an XUDP frame that has one. -/
  | frame (address : Option Destination) (payload : Bytes) (lookup : Str → Option IpAddr)
  /-- A packet of the AnyTLS stream, with the address if packets carry one. -/
  | uot (address : Destination) (payload : Bytes) (lookup : Str → Option IpAddr)
  | stop

namespace Flow

/-- `responses.send((payload, response_source, source)).await`. -/
def respond (f : Flow) (payload : Bytes) (remote : SocketAddr) (answers : Option SocketAddr) : Flow :=
  { f with responses := f.responses ++ [{ payload, remote, client := f.source, answers }] }

/-- A response of the outbound, which names `reported` as its source; `attached` becomes its address. -/
def received (f : Flow) (payload : Bytes) (lookup : Str → Option IpAddr) (reported attached : Destination) : Flow :=
  match destinationSocketAddr lookup attached with
  | some remote => f.respond payload remote (destinationSocketAddr lookup reported)
  | none => { f with phase := .ended }

/-- The next packet of `initial_rx` chained to the queue. -/
def next (f : Flow) (initial : List Packet) : Option (Packet × List Packet × List Packet) :=
  match initial, f.packets with
  | p :: initial, packets => some (p, initial, packets)
  | [], p :: packets => some (p, [], packets)
  | [], [] => none

end Flow

def TunOutbound.relay : TunOutbound → UdpRelay
  | .direct _ connected => .tunDirect connected
  | .vless xudp => .tunVless xudp
  | .anyTls connected => .tunAnyTls connected

/-- Where a packet goes; classic VLESS refuses a packet for another destination. -/
def TunOutbound.target (outbound : TunOutbound) (route : TunRoute) (p : Packet) : Option Destination :=
  match outbound with
  | .direct _ connected => some (if connected then route.destination else ofSocketAddr p.destination)
  | .vless true => some (ofSocketAddr p.destination)
  | .vless false => if p.destination = route.original then some route.destination else none
  | .anyTls connected => some (if connected then route.destination else ofSocketAddr p.destination)

/-- The record of a packet sent. -/
def TunOutbound.send (outbound : TunOutbound) (route : TunRoute) (first : Bool) (p : Packet) (target : Destination) :
    UdpSend :=
  { relay := outbound.relay, first, own := ofSocketAddr p.destination, opened := ofSocketAddr route.original,
    options := route.options, target }

namespace Flow

def step (f : Flow) : FlowEvent → Option Flow
  | .recv =>
    match f.phase, f.packets with
    | .first, p :: packets => some { f with packets, phase := .evaluate p }
    | .hijack original, p :: packets => some { f with packets, phase := .exchange original p }
    | _, _ => none
  | .evaluated decision options dialer =>
    match f.phase with
    | .evaluate first =>
      let destination := overrideDestination (ofSocketAddr first.destination) options
      match decision, dialer with
      | .hijackDns, _ => some { f with phase := .exchange first.destination first }
      | .reject, _ | .outbound _, none | .outbound _, some .block => some { f with phase := .ended }
      | .outbound _, some dialer =>
        some { f with phase := .connect dialer ⟨first.destination, destination, options⟩ first }
    | _ => none
  | .exchanged response =>
    match f.phase with
    | .exchange original request =>
      some ({ f with phase := .hijack original }.respond response original (some request.destination))
    | _ => none
  | .connected lookup =>
    match f.phase with
    | .connect .direct route first =>
      match resolveUdp lookup route.destination with
      | some target =>
        let connected := route.options.udpConnect && f.fixedDestination
        some { f with phase := .relay (.direct target connected) route [first] }
      | none => some { f with phase := .ended }
    | .connect (.vless xudp) route first => some { f with phase := .relay (.vless xudp) route [first] }
    | .connect .anyTls route first => some { f with phase := .relay (.anyTls f.fixedDestination) route [first] }
    | _ => none
  | .packet =>
    match f.phase with
    | .relay outbound route initial =>
      (f.next initial).map fun (p, rest, packets) =>
        match outbound.target route p with
        | some target =>
          { f with packets, phase := .relay outbound route rest,
                   sent := f.sent ++ [outbound.send route (!initial.isEmpty) p target] }
        | none => { f with packets, phase := .ended }
    | _ => none
  | .datagram source payload lookup =>
    match f.phase with
    | .relay (.direct target connected) route _ =>
      let source := if connected then target else source
      some (f.received payload lookup (ofSocketAddr source)
        (udpResponseDestination route.destination source route.options))
    | _ => none
  | .frame address payload lookup =>
    match f.phase with
    | .relay (.vless xudp) route _ =>
      let address := if xudp then address else none
      some (f.received payload lookup (address.getD route.destination)
        ((address.map fun value => udpResponseProxyDestination route.destination value route.options).getD
          route.destination))
    | _ => none
  | .uot address payload lookup =>
    match f.phase with
    | .relay (.anyTls connected) route _ =>
      let address := if connected then route.destination else address
      some (f.received payload lookup address (udpResponseProxyDestination route.destination address route.options))
    | _ => none
  | .stop => some { f with phase := .ended }

end Flow

/-! ## An inbound -/

inductive TransparentKind where
  | tun
  /-- With the address its UDP socket is bound to. -/
  | tproxy (listen : SocketAddr)
  deriving DecidableEq, Repr

structure Transparent where
  kind : TransparentKind
  mapping : UdpNatBehavior
  filtering : UdpNatBehavior
  maxSessions : Nat
  idleTimeout : Nat

/-- A reply on its way to the client. -/
structure Delivered where
  payload : Bytes
  source : SocketAddr
  client : SocketAddr
  answers : Option SocketAddr
  deriving DecidableEq, Repr

inductive ReaderPhase where
  /-- `reader.next().await`. -/
  | next
  /-- The key has no open sender. -/
  | spawn (key : UdpMappingKey) (source : SocketAddr) (p : Packet)
  /-- `sender.send(..).await` to flow `n`. -/
  | send (n : Nat) (key : UdpMappingKey) (p : Packet)
  deriving DecidableEq, Repr

namespace Transparent

structure State where
  table : UdpNatTable Nat
  flows : List Flow
  reader : ReaderPhase
  responses : List (UdpMappingKey × UdpReply)
  /-- The writer of TUN ends when it cannot write. -/
  writing : Bool
  delivered : List Delivered

def start (inbound : Transparent) : State :=
  { table := .new inbound.filtering inbound.maxSessions inbound.idleTimeout
    flows := [], reader := .next, responses := [], writing := true, delivered := [] }

inductive Event where
  /-- The reader takes a packet of the client `source`. -/
  | receive (now : Nat) (source : SocketAddr) (p : Packet)
  | spawn
  | send
  | flow (n : Nat) (event : FlowEvent)
  | forward (n : Nat)
  | write (now : Nat) (ok : Bool)

def State.closed (s : State) (n : Nat) : Bool := (s.flows[n]?.map fun f => f.phase == .ended).getD true

/-- The source address the client sees. -/
def sourceOf (inbound : Transparent) (reply : UdpReply) : SocketAddr :=
  match inbound.kind with
  | .tun => reply.remote
  | .tproxy listen => listen

def State.setFlow (s : State) (n : Nat) (f : Flow) : State := { s with flows := s.flows.set n f }

def step (inbound : Transparent) (s : State) : Event → Option State
  | .receive now source p =>
    match s.reader with
    | .next =>
      let key := UdpNatTable.keyFor inbound.mapping source p.destination
      let (sender, table) := s.table.touchAndSender s.closed now key p.destination
      match sender with
      | some n => some { s with table, reader := .send n key p }
      | none => some { s with table, reader := .spawn key source p }
    | _ => none
  | .spawn =>
    match s.reader with
    | .spawn key source p =>
      some { s with
        table := s.table.insertSender key s.flows.length
        flows := s.flows ++ [{ key, source, fixedDestination := inbound.mapping == .addressAndPortDependent,
                               packets := [], phase := .first, responses := [], sent := [] }]
        reader := .send s.flows.length key p }
    | _ => none
  | .send =>
    match s.reader with
    | .send n key p =>
      match s.flows[n]? with
      | none => none
      | some f =>
        if f.phase = .ended then
          match inbound.kind with
          | .tun => some { s with table := s.table.clearSender key, reader := .next }
          | .tproxy _ => some { s with reader := .next }
        else some { s.setFlow n { f with packets := f.packets ++ [p] } with reader := .next }
    | _ => none
  | .flow n event =>
    match s.flows[n]? with
    | none => none
    | some f => (f.step event).map fun f => s.setFlow n f
  | .forward n =>
    match s.flows[n]? with
    | none => none
    | some f =>
      match f.responses with
      | [] => none
      | reply :: responses =>
        some { s.setFlow n { f with responses } with responses := s.responses ++ [(f.key, reply)] }
  | .write now ok =>
    match s.writing, s.responses with
    | true, (key, reply) :: responses =>
      let (allowed, table) := s.table.allowResponse now key reply.remote
      if !allowed then some { s with table, responses }
      else if ok then
        some { s with
          table, responses
          delivered := s.delivered ++ [{ payload := reply.payload, source := inbound.sourceOf reply,
                                         client := reply.client, answers := reply.answers }] }
      else
        match inbound.kind with
        | .tun => some { s with table, responses, writing := false }
        | .tproxy _ => some { s with table, responses }
    | _, _ => none

end Transparent

/-! ## Replies that come from where they should -/

/-- The hijack loop is given no query for another destination than its first. -/
def Flow.sameServer (f : Flow) : Bool :=
  match f.phase, f.packets with
  | .hijack original, p :: _ => p.destination == original
  | _, _ => true

def FlowPhase.Faithful : FlowPhase → Prop
  | .exchange original request => request.destination = original
  | .connect _ route _ | .relay _ route _ => route.destination = ofSocketAddr route.original
  | _ => True

/-- What the flow has sent towards the writer carries the address it answers, and so will what it sends next. -/
structure Flow.Faithful (f : Flow) : Prop where
  phase : f.phase.Faithful
  responses : ∀ reply ∈ f.responses, reply.answers = some reply.remote

section
variable {f f' : Flow} {lookup : Str → Option IpAddr}

theorem Flow.Faithful.respond (hf : f.Faithful) (payload : Bytes) {remote : SocketAddr} {answers : Option SocketAddr}
    (hanswers : answers = some remote) : (f.respond payload remote answers).Faithful := by
  refine ⟨hf.phase, fun reply hreply => ?_⟩
  rcases mem_append.mp hreply with hold | hnew
  · exact hf.responses reply hold
  · obtain rfl := mem_singleton.mp hnew
    exact hanswers

theorem Flow.Faithful.received (hf : f.Faithful) (payload : Bytes) (source : Destination) :
    (f.received payload lookup source source).Faithful := by
  unfold Flow.received
  split
  · next remote hremote => exact hf.respond payload hremote
  · exact ⟨trivial, hf.responses⟩

theorem Flow.Faithful.step {event : FlowEvent} (hf : f.Faithful)
    (hplain : ∀ decision options dialer, event = .evaluated decision options dialer →
      options.overrideAddress = none ∧ options.overridePort = none)
    (hserver : event = .recv → f.sameServer = true) (h : f.step event = some f') : f'.Faithful := by
  cases event with
  | recv =>
    simp only [Flow.step] at h
    split at h
    · cases h
      exact ⟨trivial, hf.responses⟩
    · next original p packets hphase hpackets =>
      cases h
      have hsame := hserver rfl
      simp only [Flow.sameServer, hphase, hpackets, beq_iff_eq] at hsame
      exact ⟨hsame, hf.responses⟩
    · cases h
  | evaluated decision options dialer =>
    obtain ⟨haddress, hport⟩ := hplain decision options dialer rfl
    simp only [Flow.step] at h
    split at h
    · split at h <;> cases h
      · exact ⟨rfl, hf.responses⟩
      · exact ⟨trivial, hf.responses⟩
      · exact ⟨trivial, hf.responses⟩
      · exact ⟨trivial, hf.responses⟩
      · next first _ _ _ _ _ _ =>
        have hsame : overrideDestination (ofSocketAddr first.destination) options =
            ofSocketAddr first.destination := overrideDestination_none haddress hport
        exact ⟨hsame, hf.responses⟩
    · cases h
  | exchanged response =>
    simp only [Flow.step] at h
    split at h
    · next original request hphase =>
      cases h
      have hrequest : request.destination = original := by
        have hp := hf.phase
        rwa [hphase] at hp
      have hnext : Flow.Faithful { f with phase := .hijack original } := ⟨trivial, hf.responses⟩
      exact hnext.respond response (by rw [hrequest])
    · cases h
  | connected lookup =>
    have hp := hf.phase
    simp only [Flow.step] at h
    split at h
    · next hphase =>
      rw [hphase] at hp
      split at h <;> cases h
      · exact ⟨hp, hf.responses⟩
      · exact ⟨trivial, hf.responses⟩
    · next hphase =>
      rw [hphase] at hp
      cases h
      exact ⟨hp, hf.responses⟩
    · next hphase =>
      rw [hphase] at hp
      cases h
      exact ⟨hp, hf.responses⟩
    · cases h
  | packet =>
    have hp := hf.phase
    simp only [Flow.step] at h
    split at h
    · next outbound route initial hphase =>
      rw [hphase] at hp
      obtain ⟨⟨p, initial', packets⟩, -, rfl⟩ := Option.map_eq_some_iff.mp h
      split
      · exact ⟨hp, hf.responses⟩
      · exact ⟨trivial, hf.responses⟩
    · cases h
  | datagram source payload lookup | frame address payload lookup | uot address payload lookup =>
    have hp := hf.phase
    simp only [Flow.step] at h
    split at h
    · next hphase =>
      rw [hphase] at hp
      obtain rfl := Option.some.inj h
      simp only [udpResponseDestination, show _ = _ from hp, udpResponseProxyDestination_ofSocketAddr, Option.map_id']
      exact hf.received payload _
    · cases h
  | stop =>
    cases h
    exact ⟨trivial, hf.responses⟩

end

namespace Transparent

def plain : Event → Bool
  | .flow _ (.evaluated _ options _) => options.overrideAddress.isNone && options.overridePort.isNone
  | _ => true

/-- A flow that hijacks takes no query for a second destination, and what TPROXY writes comes from the address its
    socket is bound to. -/
def answerable (inbound : Transparent) (s : State) : Event → Bool
  | .flow n .recv => (s.flows[n]?.map Flow.sameServer).getD true
  | .write _ _ =>
    match inbound.kind, s.responses with
    | .tproxy listen, (_, reply) :: _ => reply.remote == listen
    | _, _ => true
  | _ => true

structure State.Faithful (s : State) : Prop where
  flows : ∀ f ∈ s.flows, f.Faithful
  responses : ∀ p ∈ s.responses, p.2.answers = some p.2.remote
  delivered : ∀ d ∈ s.delivered, d.answers = some d.source

section
variable {inbound : Transparent} {s s' : State} {e : Event}

theorem faithful_start : inbound.start.Faithful := by
  constructor <;> simp [start]

theorem State.Faithful.setFlow (hs : s.Faithful) (n : Nat) {f : Flow} (hf : f.Faithful) : (s.setFlow n f).Faithful := by
  refine ⟨fun g hg => ?_, hs.responses, hs.delivered⟩
  rcases mem_or_eq_of_mem_set hg with hold | rfl
  · exact hs.flows g hold
  · exact hf

theorem sourceOf_answered {reply : UdpReply} {key : UdpMappingKey} {rest : List (UdpMappingKey × UdpReply)} {now : Nat}
    {ok : Bool} (hqueue : s.responses = (key, reply) :: rest) (hkept : inbound.answerable s (.write now ok) = true) :
    inbound.sourceOf reply = reply.remote := by
  unfold sourceOf
  unfold answerable at hkept
  grind

theorem State.Faithful.step (hs : s.Faithful) (hplain : plain e = true) (hkept : inbound.answerable s e = true)
    (h : inbound.step s e = some s') : s'.Faithful := by
  cases e with
  | receive now source p =>
    simp only [Transparent.step] at h
    split at h
    · split at h <;> cases h <;> exact ⟨hs.flows, hs.responses, hs.delivered⟩
    · cases h
  | spawn =>
    simp only [Transparent.step] at h
    split at h
    · cases h
      refine ⟨fun g hg => ?_, hs.responses, hs.delivered⟩
      rcases mem_append.mp hg with hold | hnew
      · exact hs.flows g hold
      · obtain rfl := mem_singleton.mp hnew
        exact ⟨trivial, nofun⟩
    · cases h
  | send =>
    simp only [Transparent.step] at h
    split at h
    · next n key p _ =>
      split at h
      · cases h
      · next f hf =>
        have hfaithful := hs.flows f (mem_of_getElem? hf)
        split at h
        · split at h <;> cases h <;> exact ⟨hs.flows, hs.responses, hs.delivered⟩
        · cases h
          have hset := hs.setFlow n (f := { f with packets := f.packets ++ [p] }) ⟨hfaithful.phase, hfaithful.responses⟩
          exact ⟨hset.flows, hset.responses, hset.delivered⟩
    · cases h
  | flow n event =>
    simp only [Transparent.step] at h
    split at h
    · cases h
    · next f hf =>
      obtain ⟨f', hstep, rfl⟩ := Option.map_eq_some_iff.mp h
      refine hs.setFlow n ((hs.flows f (mem_of_getElem? hf)).step ?_ ?_ hstep)
      · rintro decision options dialer rfl
        simpa [plain] using hplain
      · rintro rfl
        simpa [answerable, hf] using hkept
  | forward n =>
    simp only [Transparent.step] at h
    split at h
    · cases h
    · next f hf =>
      have hfaithful := hs.flows f (mem_of_getElem? hf)
      split at h
      · cases h
      · next reply responses hresponses =>
        cases h
        have hall := hfaithful.responses
        rw [hresponses] at hall
        have hset := hs.setFlow n (f := { f with responses })
          ⟨hfaithful.phase, fun r hr => hall r (mem_cons_of_mem _ hr)⟩
        refine ⟨hset.flows, fun p hp => ?_, hset.delivered⟩
        rcases mem_append.mp hp with hold | hnew
        · exact hs.responses p hold
        simp_all
  | write now ok =>
    simp only [Transparent.step] at h
    split at h
    · next key reply rest hwriting hqueue =>
      have hall := hs.responses
      rw [hqueue] at hall
      have hrest : ∀ p ∈ rest, p.2.answers = some p.2.remote := fun p hp => hall p (mem_cons_of_mem _ hp)
      split at h
      · cases h
        exact ⟨hs.flows, hrest, hs.delivered⟩
      split at h
      · cases h
        refine ⟨hs.flows, hrest, fun d hd => ?_⟩
        rcases mem_append.mp hd with hold | hnew
        · exact hs.delivered d hold
        grind [mem_singleton, sourceOf_answered, mem_cons_self]
      · split at h <;> cases h <;> exact ⟨hs.flows, hrest, hs.delivered⟩
    · cases h

end

/-- **Source addresses.** In every run of an inbound without destination override in which a hijacking flow takes no
    query for a second destination and TPROXY writes only responses of the address its socket is bound to, every
    reply has the address it answers as its source. -/
theorem replies_from_answered (inbound : Transparent) (es : List Event) (s : State)
    (hrun : run inbound.step inbound.start es = some s) (hplain : ∀ e ∈ es, plain e = true)
    (hkept : Along inbound.step (fun s e => inbound.answerable s e = true) inbound.start es) :
    ∀ d ∈ s.delivered, d.answers = some d.source := by
  have halong : Along inbound.step (fun s e => plain e = true ∧ inbound.answerable s e = true) inbound.start es :=
    (along_of_forall _ fun e he _ => hplain e he).and hkept
  have hfaithful : s.Faithful := run_inv_along State.Faithful _
    (fun s e s' hP hs h => hs.step hP.1 hP.2 h) es halong faithful_start hrun
  exact hfaithful.delivered

def exampleInbound (kind : TransparentKind) : Transparent :=
  { kind, mapping := .endpointIndependent, filtering := .endpointIndependent, maxSessions := 1024, idleTimeout := 300 }

def exampleClient : SocketAddr := ⟨.v4 #v[172, 16, 0, 2], 5000⟩
def exampleListen : SocketAddr := ⟨.v4 #v[172, 16, 0, 1], 7893⟩
def firstServer : SocketAddr := ⟨.v4 #v[9, 9, 9, 9], 53⟩
def secondServer : SocketAddr := ⟨.v4 #v[149, 112, 112, 112], 53⟩

/-- A hijacked query to `server` opens a mapping and is answered. -/
def firstQuery (server : SocketAddr) : List Event :=
  [.receive 0 exampleClient ⟨[1], server⟩, .spawn, .send, .flow 0 .recv, .flow 0 (.evaluated .hijackDns {} none),
   .flow 0 (.exchanged [2]), .forward 0, .write 0 true]

def secondQuery (server : SocketAddr) : List Event :=
  [.receive 1 exampleClient ⟨[3], server⟩, .send, .flow 0 .recv, .flow 0 (.exchanged [4]), .forward 0, .write 1 true]

/-- On TUN the answer to the second query comes from the first server; on TPROXY the answer to any comes from the
    inbound. -/
theorem reply_from_another_server :
    (run (exampleInbound .tun).step (exampleInbound .tun).start
      (firstQuery firstServer ++ secondQuery secondServer)).map
        State.delivered =
      some [⟨[2], firstServer, exampleClient, some firstServer⟩, ⟨[4], firstServer, exampleClient, some secondServer⟩] ∧
    (run (exampleInbound (.tproxy exampleListen)).step (exampleInbound (.tproxy exampleListen)).start
        (firstQuery firstServer)).map State.delivered =
      some [⟨[2], exampleListen, exampleClient, some firstServer⟩] ∧
    (∀ e ∈ firstQuery firstServer ++ secondQuery secondServer, plain e = true) ∧ firstServer ≠ secondServer ∧
    firstServer ≠ exampleListen := by
  decide +kernel

/-- Both queries go to one server. -/
theorem replies_from_answered_one_server :
    ∃ s, run (exampleInbound .tun).step (exampleInbound .tun).start
        (firstQuery firstServer ++ secondQuery firstServer) = some s ∧
      s.delivered.length = 2 ∧ ∀ d ∈ s.delivered, d.answers = some d.source := by
  obtain ⟨s, hs⟩ : ∃ s, run (exampleInbound .tun).step (exampleInbound .tun).start
      (firstQuery firstServer ++ secondQuery firstServer) = some s := Option.isSome_iff_exists.mp (by decide +kernel)
  have hlength : (run (exampleInbound .tun).step (exampleInbound .tun).start
      (firstQuery firstServer ++ secondQuery firstServer)).map (fun s => s.delivered.length) = some 2 := by
    decide +kernel
  rw [hs] at hlength
  exact ⟨s, hs, Option.some.inj hlength, replies_from_answered _ _ s hs (by decide +kernel) (by decide +kernel)⟩

end Transparent

end Xhttp.Proxy
