import Xhttp.Lib.Run
import Xhttp.Proxy.UdpSend

/- UDP of the AnyTLS inbound, from the client to the outbound (`relay_anytls_udp` and `relay_anytls_udp_direct` in
   `src/proxy/relay.rs`). The client opens one stream for a destination (`is_connect`) or for packets that carry theirs.
   The route is evaluated for the first packet. What follows is relayed by three loops: to a socket, to a VLESS stream,
   and as the bytes they are to another AnyTLS stream.

   Errors and timeouts end a flow at any time. The answers to the client are not part of this model. -/
namespace Xhttp.Proxy
open Xhttp.Lib Xhttp.Routing Vless Vless.Relay

structure UotRequest where
  isConnect : Bool
  destination : Destination
  deriving DecidableEq, Repr

/-- The evaluation of the first packet, which was sent to `own`. -/
structure UotRoute where
  own : Destination
  destination : Destination
  options : RouteOptions
  deriving DecidableEq, Repr

inductive UotPhase where
  /-- `read_packet`, for the first packet. -/
  | first
  /-- `evaluate_udp_route(..).await`. -/
  | evaluate (own : Destination)
  /-- `relay_anytls_dns_udp`. -/
  | hijack
  /-- The socket, or the stream to the proxy; the first packet is sent at the end. -/
  | connect (dialer : UdpDialer) (route : UotRoute)
  | relay (dialer : UdpDialer) (route : UotRoute)
  | ended
  deriving DecidableEq

structure UotFlow where
  request : UotRequest
  phase : UotPhase
  sent : List UdpSend

inductive UotEvent where
  /-- A packet, with its address if it carries one. -/
  | packet (address : Destination)
  | evaluated (decision : RouteDecision) (options : RouteOptions) (dialer : Option UdpDialer)
  | connected
  | stop

namespace UotFlow

def start (request : UotRequest) : UotFlow := { request, phase := .first, sent := [] }

/-- `read_packet(stream, request.is_connect.then_some(&request.destination))`: whom the packet is for. -/
def own (f : UotFlow) (address : Destination) : Destination :=
  if f.request.isConnect then f.request.destination else address

def relay (f : UotFlow) : UdpDialer → UdpRelay
  | .direct | .block => .anyTlsDirect f.request.isConnect
  | .vless xudp => .anyTlsVless xudp
  | .anyTls => .anyTlsAnyTls f.request.isConnect

/-- Where a packet after the first goes; a flow to `block` gets no further than its evaluation. -/
def target (f : UotFlow) (dialer : UdpDialer) (route : UotRoute) (own : Destination) :
    Destination :=
  match dialer with
  | .direct | .block =>
    if f.request.isConnect || route.options.udpConnect then route.destination
    else overrideDestination own route.options
  | .vless xudp => if xudp then own else route.destination
  -- `copy_bidirectional`: a packet keeps the address it carries
  | .anyTls => if f.request.isConnect then route.destination else own

def send (f : UotFlow) (dialer : UdpDialer) (route : UotRoute) (first : Bool) (own target : Destination) : UotFlow :=
  { f with
    phase := .relay dialer route
    sent := f.sent ++ [{ relay := f.relay dialer, first, own, opened := route.own, options := route.options, target }] }

def step (f : UotFlow) : UotEvent → Option UotFlow
  | .packet address =>
    match f.phase with
    | .first => some { f with phase := .evaluate (f.own address) }
    | .hijack => some f
    | .relay dialer route =>
      some (f.send dialer route false (f.own address) (f.target dialer route (f.own address)))
    | _ => none
  | .evaluated decision options dialer =>
    match f.phase with
    | .evaluate own =>
      let route : UotRoute := ⟨own, overrideDestination own options, options⟩
      match decision, dialer with
      | .hijackDns, _ => some { f with phase := .hijack }
      | .reject, _ | .outbound _, none | .outbound _, some .block => some { f with phase := .ended }
      | .outbound _, some (.vless xudp) =>
        if !xudp && !f.request.isConnect then some { f with phase := .ended }
        else some { f with phase := .connect (.vless xudp) route }
      | .outbound _, some dialer => some { f with phase := .connect dialer route }
    | _ => none
  | .connected =>
    match f.phase with
    | .connect dialer route => some (f.send dialer route true route.own route.destination)
    | _ => none
  | .stop => some { f with phase := .ended }

end UotFlow
end Xhttp.Proxy
