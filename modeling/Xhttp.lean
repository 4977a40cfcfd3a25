import Xhttp.Lib.Run
import Xhttp.Lib.SelectLoop
import Xhttp.Lib.Bytes
import Xhttp.Lib.Text
import Xhttp.Lib.Map
import Xhttp.Lib.Pool
import Xhttp.Lib.Checked
import Xhttp.Lib.FormUrlencoded
import Xhttp.Lib.Reader
import Xhttp.Lib.TtlLru
import Xhttp.Lib.Dyadic
import Xhttp.Lib.Condition
import Xhttp.Lib.Louds
import Xhttp.Lib.HeadLines
import Xhttp.Lib.Scan
import Xhttp.Net
import Xhttp.IpText
import Xhttp.Server.Reorder
import Xhttp.Server.Sessions
import Xhttp.Server.Incarnation
import Xhttp.Vless.Handshake
import Xhttp.Vless.Xudp
import Xhttp.Vless.Relay
import Xhttp.Vless.RelayUdp
import Xhttp.Vless.Framing
import Xhttp.Vless.Deadlock
import Xhttp.Vless.Demux
import Xhttp.Vless.Isolation
import Xhttp.Vless.Reuse
import Xhttp.Dns.Message
import Xhttp.Dns.Layout
import Xhttp.Dns.Cache
import Xhttp.Dns.CacheRefinement
import Xhttp.Dns.CacheSize
import Xhttp.Dns.Persistence
import Xhttp.Dns.Singleflight
import Xhttp.Dns.Multiplexer
import Xhttp.Dns.Abandoned
import Xhttp.Dns.Upstream
import Xhttp.Dns.Query
import Xhttp.Dns.Codec
import Xhttp.Dns.Ech
import Xhttp.Dns.Record
import Xhttp.Routing.Rule
import Xhttp.Routing.RuleSet
import Xhttp.Routing.Matching
import Xhttp.Routing.Lazy
import Xhttp.Routing.Scope
import Xhttp.Routing.DnsMatching
import Xhttp.Routing.SourceMatch
import Xhttp.Dns.Rule
import Xhttp.Dns.Resolver
import Xhttp.Dns.EchCache
import Xhttp.Dns.StreamPool
import Xhttp.Dns.Predefined
import Xhttp.Dns.Answers
import Xhttp.Dns.AddressLimit
import Xhttp.Dns.OwnQuestion
import Xhttp.Proxy.Route
import Xhttp.Proxy.Refresh
import Xhttp.Proxy.RuleSetCache
import Xhttp.Proxy.Runtime
import Xhttp.Proxy.UdpLoops
import Xhttp.Srs.Ranges
import Xhttp.Srs.Reader
import Xhttp.Srs.Succinct
import Xhttp.Srs.Domains
import Xhttp.Http.Stack
import Xhttp.Http.Reference
import Xhttp.Config
import Xhttp.Protocol.Writes
import Xhttp.Protocol.Metadata
import Xhttp.Protocol.Base64
import Xhttp.Protocol.Payload
import Xhttp.Protocol.Huffman
import Xhttp.Protocol.Padding
import Xhttp.Clash
import Xhttp.Client
import Xhttp.Server.Handler
import Xhttp.Agreement
import Xhttp.Proxy.Groups
import Xhttp.Proxy.HttpInbound
import Xhttp.Proxy.UdpNat
import Xhttp.Proxy.UdpSend
import Xhttp.Proxy.TunUdp
import Xhttp.Proxy.SocksUdp
import Xhttp.Proxy.SocksCodec
import Xhttp.Proxy.AnyTlsUdp
import Xhttp.Proxy.UdpOverride
import Xhttp.Proxy.LinuxRoute
import Xhttp.Proxy.RouteAgreement
import Xhttp.Proxy.RouteRounds
import Xhttp.Proxy.TlsFragment
import Xhttp.Tun.Config
import Xhttp.Tun.Routes
import Xhttp.Tun.Install
import Xhttp.Tun.Reload
import Xhttp.Tun.Redirect
import Xhttp.Xmux.Model
import Xhttp.Xmux.Accounting
import Xhttp.Xmux.Limits
