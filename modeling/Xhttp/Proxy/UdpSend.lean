import Xhttp.Proxy.Route
import Xhttp.Vless.Relay

/- What the UDP relays of the client share: the addresses of destinations and of responses (`src/proxy/udp.rs`), and the
   record of a datagram that was handed to an outbound. The relays are `relay_tun_udp`, `relay_anytls_udp` with
   `relay_anytls_udp_direct` (`src/proxy/relay.rs`) and `udp_session` (`src/proxy/udp.rs`).

   In UoT, the AnyTLS protocol for UDP, the packets of a connected stream go to the destination of its
   request, and those of another carry their address. -/
namespace Xhttp.Proxy
open Xhttp.Lib Xhttp.Routing Vless Vless.Relay

/-! ## Addresses -/

/-- `vless::Destination::Ip(address.ip(), address.port())`. -/
def ofSocketAddr (address : SocketAddr) : Destination := .ip address.ip address.port

/-- The address itself, or the first that the lookup of the name gives. -/
def firstAddress (lookup : Str → Option IpAddr) : Destination → Option SocketAddr
  | .ip ip port => some ⟨ip, port⟩
  | .domain host port => (lookup host).map fun ip => ⟨ip, port⟩

/-- `resolve_udp`: with a resolver the lookup is the resolver's, without one the system's. -/
def resolveUdp (lookup : Str → Option IpAddr) (destination : Destination) : Option SocketAddr :=
  firstAddress lookup destination

/-- `destination_socket_addr`: the lookup is the resolver's, and without one there is none. -/
def destinationSocketAddr (lookup : Str → Option IpAddr) (destination : Destination) : Option SocketAddr :=
  firstAddress lookup destination

def isDomain : Destination → Bool
  | .domain _ _ => true
  | .ip _ _ => false

def udpResponseProxyDestination (requested source : Destination) (options : RouteOptions) : Destination :=
  if !options.udpDisableDomainUnmapping && isDomain requested then requested else source

def udpResponseDestination (requested : Destination) (source : SocketAddr) (options : RouteOptions) : Destination :=
  udpResponseProxyDestination requested (ofSocketAddr source) options

section

@[simp] theorem overrideDestination_none {original : Destination} {options : RouteOptions}
    (haddress : options.overrideAddress = none) (hport : options.overridePort = none) :
    overrideDestination original options = original := by
  cases original <;> simp [overrideDestination, haddress, hport, Destination.port]

@[simp] theorem udpResponseProxyDestination_ofSocketAddr (requested : SocketAddr) (source : Destination)
    (options : RouteOptions) : udpResponseProxyDestination (ofSocketAddr requested) source options = source := by
  simp [udpResponseProxyDestination, isDomain, ofSocketAddr]

end

/-! ## Datagrams that were sent -/

inductive UdpDialer where
  | direct
  | vless (xudp : Bool)
  | anyTls
  | block
  deriving DecidableEq, Repr

inductive UdpRelay where
  /-- `relay_tun_udp` with a socket that is connected, or not. -/
  | tunDirect (connected : Bool)
  | tunVless (xudp : Bool)
  /-- With a stream that is connected, or not. -/
  | tunAnyTls (connected : Bool)
  /-- `relay_anytls_udp_direct`, and `is_connect` of the request. -/
  | anyTlsDirect (isConnect : Bool)
  | anyTlsVless (xudp : Bool)
  | anyTlsAnyTls (isConnect : Bool)
  | socks
  deriving DecidableEq, Repr

structure UdpSend where
  relay : UdpRelay
  /-- It is the first of its flow. -/
  first : Bool
  own : Destination
  /-- The destination of the first datagram of its flow. -/
  opened : Destination
  options : RouteOptions
  /-- The destination of the frame or of the stream it is sent in, or the one whose address it is sent to. -/
  target : Destination
  deriving DecidableEq, Repr

end Xhttp.Proxy
