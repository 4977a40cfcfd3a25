import Xhttp.Lib.SelectLoop
import Xhttp.Vless.Relay
import Xhttp.Vless.RelayUdp

/- The loops of the client that read UDP packets from a stream (`udp_session` in `src/proxy/udp.rs`, `relay_tun_udp`
   and `relay_anytls_udp` in `src/proxy/relay.rs`). Each reads inside `select!`, next to a branch that is ready with
   a datagram of the client, and is an instance of `SelectLoop`. Unlike on the server, the payload is read there
   too, and so is the response header of VLESS, except in `relay_anytls_udp`, which reads it before the loop.

   The branch of the client's datagrams (`packets.recv()`, `packets.next()`, or a whole packet from the AnyTLS stream)
   is the event `other`, its body `handled`; `passed` is the send to the client. -/
namespace Xhttp.Proxy
open Xhttp.Lib Xhttp.Vless

/-- `read_response`, with an await at every read. -/
def responseReader : Reader Failure Unit := do
  let version ← Reader.readU8
  Reader.bailIf (version ≠ 0) (.message "invalid VLESS response")
  let n ← Reader.readU8
  if 0 < n.toNat then do
    let _ ← Reader.readExact n.toNat
    pure ()
  else pure ()

theorem responseReader_toIo : responseReader.toIo = readResponse := by
  unfold responseReader readResponse skipAddons
  simp only [Reader.toIo_bind, Reader.toIo_readU8, Reader.toIo_bailIf]
  congr 1
  funext version
  congr 1
  funext _
  congr 1
  funext n
  split
  · rfl
  · rfl

def datagramReader : Reader Failure Bytes := do
  let length ← Reader.readU16
  Reader.readExact length.toNat

theorem datagramReader_toIo : datagramReader.toIo = RelayUdp.readDatagram := by
  unfold datagramReader RelayUdp.readDatagram
  simp only [Reader.toIo_bind, Reader.toIo_readU16, Reader.toIo_readExact]

/-- A packet for the client: where it came from, if the frame says so, and its payload. -/
abbrev UdpPacket := Option Destination × Bytes

/-- A frame ends the session, is passed over, or is a packet. -/
def xudpVerdict (frame : XudpFrame) : SelectLoop.Verdict UdpPacket :=
  if frame.status = 3 then .stop
  else
    match frame.payload with
    | some payload => .packet (frame.destination, payload)
    | none => .skip

inductive UdpLoop where
  | udpSession
  | relayTunUdp
  | relayAnytlsUdp
  deriving DecidableEq, Repr

/-- `response_read` starts as false; `relay_anytls_udp` reads the response before its loop. -/
def UdpLoop.headerInLoop : UdpLoop → Bool
  | .udpSession => true
  | .relayTunUdp => true
  | .relayAnytlsUdp => false

theorem responseReader_waits : (responseReader.feed []).1.waits = true := rfl

theorem frameReader_waits : (Relay.frameReader.feed []).1.waits = true := rfl

theorem datagramReader_waits : (datagramReader.feed []).1.waits = true := rfl

def UdpLoop.xudp (loop : UdpLoop) : SelectLoop.Protocol Failure XudpFrame UdpPacket where
  header := responseReader
  message := Relay.frameReader
  verdict := xudpVerdict
  inLoop := loop.headerInLoop
  headerWaits := responseReader_waits
  messageWaits := frameReader_waits

def UdpLoop.classic (loop : UdpLoop) : SelectLoop.Protocol Failure Bytes UdpPacket where
  header := responseReader
  message := datagramReader
  verdict payload := .packet (none, payload)
  inLoop := loop.headerInLoop
  headerWaits := responseReader_waits
  messageWaits := datagramReader_waits

theorem packets_classic (loop : UdpLoop) : ∀ datagrams : List Bytes,
    loop.classic.packets datagrams = datagrams.map fun payload => (none, payload)
  | [] => rfl
  | payload :: datagrams => congrArg ((none, payload) :: ·) (packets_classic loop datagrams)

/-- **Packets and scheduling.** In every run of a loop in which no datagram of the client is taken while a
    header or a packet is half read, all bytes are accounted for, the header is taken once, and the packets
    passed on are the first of the stream, however it was delivered; a datagram taken while something is half
    read loses what was read of it. -/
theorem packets_independent_of_schedule (loop : UdpLoop) (events : List SelectLoop.Event) :
    (∀ s, run SelectLoop.State.step (.start loop.xudp) events = some s →
      Along SelectLoop.State.step SelectLoop.State.Undropped (.start loop.xudp) events →
        s.Framed ∧
        (∀ head frames body, (if loop.headerInLoop then Runs readResponse head () [] else head = []) →
          Frames readXudpFrame frames body → s.delivered <+: head ++ body → s.passed <+: loop.xudp.packets frames) ∧
        ∀ e s', s.step e = some s' → ¬s.Undropped e → ¬s'.Framed) ∧
    (∀ s, run SelectLoop.State.step (.start loop.classic) events = some s →
      Along SelectLoop.State.step SelectLoop.State.Undropped (.start loop.classic) events →
        s.Framed ∧
        (∀ head datagrams body, (if loop.headerInLoop then Runs readResponse head () [] else head = []) →
          Frames RelayUdp.readDatagram datagrams body → s.delivered <+: head ++ body →
            s.passed <+: datagrams.map fun payload => (none, payload)) ∧
        ∀ e s', s.step e = some s' → ¬s.Undropped e → ¬s'.Framed) := by
  constructor
  · intro s hrun halong
    obtain ⟨hF, hprefix, hdrop⟩ := SelectLoop.State.independent_of_schedule hrun halong
    refine ⟨hF, fun head frames body hhead hbody hpre => ?_, hdrop⟩
    exact hprefix head frames body (responseReader_toIo ▸ hhead) (Relay.frameReader_toIo ▸ hbody) hpre
  · intro s hrun halong
    obtain ⟨hF, hprefix, hdrop⟩ := SelectLoop.State.independent_of_schedule hrun halong
    refine ⟨hF, fun head datagrams body hhead hbody hpre => ?_, hdrop⟩
    have h := hprefix head datagrams body (responseReader_toIo ▸ hhead) (datagramReader_toIo ▸ hbody) hpre
    rwa [packets_classic] at h

theorem frames_two_datagrams :
    Frames RelayUdp.readDatagram [[], [0, 1, 9]] ((beU16 0 ++ []) ++ ((beU16 3 ++ [0, 1, 9]) ++ [])) :=
  .cons (RelayUdp.runs_readDatagram rfl) (.cons (RelayUdp.runs_readDatagram rfl) .nil)

/-- A continuation whose payload reads like a continuation. -/
def echoed : Bytes := [0, 4, 0, 0, 2, 1, 0, 9, 0, 4, 0, 0, 2, 1, 0, 1, 7]

theorem frames_echoed : Frames readXudpFrame [⟨0, 2, none, some [0, 4, 0, 0, 2, 1, 0, 1, 7]⟩] (echoed ++ []) := by
  refine .cons ?_ .nil
  rw [← Relay.frameReader_toIo]
  exact Reader.runs_of_feed rfl

/-- A datagram of the client is ready after the first length byte, and again after the byte that is then taken
    for one. -/
def splitDatagrams : List SelectLoop.Event :=
  [.deliver [0], .poll, .other, .handled true, .deliver [0, 0], .poll, .passed true,
   .deliver [3], .poll, .other, .handled true, .deliver [0, 1, 9], .poll]

/-- The header is read, and then eight bytes of a frame; a datagram of the client is ready before the rest. -/
def splitXudp : List SelectLoop.Event :=
  [.deliver ([0, 0] ++ echoed.take 8), .poll, .poll, .other, .handled true, .deliver (echoed.drop 8),
    .poll, .passed true]

/-- The client is sent packets that are not in the streams. -/
theorem datagram_splits_packet :
    (∃ datagrams body s, Frames RelayUdp.readDatagram datagrams body ∧
      run SelectLoop.State.step (.start UdpLoop.relayAnytlsUdp.classic) (splitDatagrams ++ [.passed true]) = some s ∧
      s.delivered <+: body ∧ ¬s.passed <+: datagrams.map fun payload => (none, payload)) ∧
    Runs readResponse [0, 0] () [] ∧
    ∀ loop, loop = UdpLoop.udpSession ∨ loop = UdpLoop.relayTunUdp →
      (∃ datagrams body s, Frames RelayUdp.readDatagram datagrams body ∧
        run SelectLoop.State.step (.start loop.classic)
          ([.deliver [0, 0], .poll] ++ splitDatagrams ++ [.passed true]) = some s ∧
        s.delivered <+: [0, 0] ++ body ∧ ¬s.passed <+: datagrams.map fun payload => (none, payload)) ∧
      ∃ frames body s, Frames readXudpFrame frames body ∧
        run SelectLoop.State.step (.start loop.xudp) splitXudp = some s ∧
        s.delivered <+: [0, 0] ++ body ∧ ¬s.passed <+: loop.xudp.packets frames := by
  refine ⟨⟨_, _, _, frames_two_datagrams, rfl, by decide, by decide⟩, readResponse_runs, ?_⟩
  rintro loop (rfl | rfl)
  · exact ⟨⟨_, _, _, frames_two_datagrams, rfl, by decide, by decide⟩, _, _, _, frames_echoed,
      rfl, by decide, by decide⟩
  · exact ⟨⟨_, _, _, frames_two_datagrams, rfl, by decide, by decide⟩, _, _, _, frames_echoed,
      rfl, by decide, by decide⟩

/-- The datagrams of the client are ready between two packets. -/
def betweenPackets : List SelectLoop.Event :=
  [.other, .handled true, .deliver [0, 0, 0], .poll, .poll, .deliver [1, 8], .poll, .passed true, .other, .handled true]

theorem packets_independent_of_schedule_between :
    ∃ s, run SelectLoop.State.step (.start UdpLoop.udpSession.classic) betweenPackets = some s ∧
      s.passed = [(none, [8])] ∧ s.Framed :=
  ⟨_, rfl, rfl, ((packets_independent_of_schedule .udpSession betweenPackets).2 _ rfl (by decide)).1⟩

end Xhttp.Proxy
