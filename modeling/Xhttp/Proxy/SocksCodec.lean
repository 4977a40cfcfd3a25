import Xhttp.IpText

/- The addresses of SOCKS5: `socks_handshake` (`src/proxy/inbound.rs`) reads one from a stream, `parse_socks_udp` and
   `encode_socks_udp` (`src/proxy/udp.rs`) read and write one in a datagram.

   `decode_address` goes through the text of the address, so a domain that is the text of an address comes out as
   that address; the handshake leaves it a domain (`socks_addresses_agree_iff`). -/
namespace Xhttp.Proxy.Socks
open Xhttp.Lib Vless Checked

/-- `packet.get(position..position + n)`, with its `context`. -/
def range (packet : Bytes) (position n : Nat) (missing : String) : Except Failure Bytes :=
  okOr (if position + n ≤ packet.length then some ((packet.drop position).take n) else none) (.message missing)

/-- `try_into()?` of a range into an array. -/
def array (n : Nat) (bytes : Bytes) : Except Failure (Vector UInt8 n) :=
  okOr (vectorOf n bytes) (.message "could not convert slice to array")

/-- The `match` of `decode_address`: the host as a text, and the position behind it. -/
def decodeHost (packet : Bytes) (position : Nat) (atyp : UInt8) : Except Failure (Str × Nat) :=
  match atyp with
  | 1 => do
    let octets ← array 4 (← range packet position 4 "truncated IPv4 address")
    pure ((IpAddr.v4 octets).text, position + 4)
  | 3 => do
    let length ← okOr packet[position]? (.message "missing domain length")
    let host ← okOr (Str.fromUtf8 (← range packet (position + 1) length.toNat "truncated domain")) .utf8
    pure (host, position + 1 + length.toNat)
  | 4 => do
    let octets ← array 16 (← range packet position 16 "truncated IPv6 address")
    pure ((IpAddr.v6 octets).text, position + 16)
  | _ => .error (.message "invalid SOCKS address type")

def decodeAddress (packet : Bytes) (offset : Nat) : Except Failure (Destination × Nat) := do
  let atyp ← okOr packet[offset]? (.message "missing SOCKS address type")
  let (host, position) ← decodeHost packet (offset + 1) atyp
  let port ← array 2 (← range packet position 2 "missing SOCKS port")
  pure (parseDestination host (ofBeU16 port[0] port[1]), position + 2)

def parseSocksUdp (packet : Bytes) : Except Failure (Destination × Bytes) := do
  bailIf (packet.length < 4 ∨ packet.take 2 ≠ [0, 0]) "invalid SOCKS UDP reserved field"
  let frag ← index packet 2
  bailIf (frag ≠ 0) "fragmented SOCKS UDP datagrams are unsupported"
  let (destination, offset) ← decodeAddress packet 3
  let payload ← sliceFrom packet offset
  pure (destination, payload)

def encodeAddress (output : Bytes) : Destination → Except Failure Bytes
  | .ip (.v4 ip) port => .ok (output ++ 1 :: ip.toList ++ beU16 port)
  | .domain host port =>
    if Str.len host < 256 then
      .ok (output ++ [3, UInt8.ofNat (Str.len host)] ++ Str.asBytes host ++ beU16 port)
    else .error (.message "SOCKS domain is too long")
  | .ip (.v6 ip) port => .ok (output ++ 4 :: ip.toList ++ beU16 port)

def encodeSocksUdp (destination : Destination) (payload : Bytes) : Except Failure Bytes := do
  let packet ← encodeAddress [0, 0, 0] destination
  pure (packet ++ payload)

/-- The address at the end of a request in `socks_handshake`. -/
def handshakeAddress : Io Failure Destination := do
  match ← Io.readU8 with
  | 1 => do
    let b ← Io.readArray 4
    pure (.ip (.v4 b) (← Io.readU16))
  | 3 => do
    let n ← Io.readU8
    let b ← Io.readExact n.toNat
    let host ← Io.lift (okOr (Str.fromUtf8 b) .utf8)
    pure (.domain host (← Io.readU16))
  | 4 => do
    let b ← Io.readArray 16
    pure (.ip (.v6 b) (← Io.readU16))
  | _ => Io.bail (.message "invalid SOCKS address")

inductive Address where
  | ip (addr : IpAddr)
  | domain (length : UInt8) (text : Bytes) (h : text.length = length.toNat)

namespace Address

def bytes : Address → Bytes
  | ip (.v4 octets) => 1 :: octets.toList
  | domain length text _ => 3 :: length :: text
  | ip (.v6 octets) => 4 :: octets.toList

/-- The text that `decode_address` makes of it. -/
def host : Address → Option Str
  | ip addr => some addr.text
  | domain _ text _ => Str.fromUtf8 text

/-- What the handshake makes of it. -/
def read (port : UInt16) : Address → Option Destination
  | ip addr => some (.ip addr port)
  | domain _ text _ => (Str.fromUtf8 text).map (.domain · port)

/-- A domain that is the text of an address. -/
def SpellsIp : Address → Prop
  | domain _ text _ => ∃ host ip, Str.fromUtf8 text = some host ∧ IpAddr.parse host = some ip
  | ip _ => False

end Address

section
variable {packet : Bytes} {position n : Nat} {missing : String} {bs : Bytes} {d : Destination}

theorem range_append (front bs rest : Bytes) (hposition : position = front.length) (hn : n = bs.length) :
    range (front ++ (bs ++ rest)) position n missing = .ok bs := by
  subst hposition hn
  rw [range, if_pos (by simp), List.drop_left, List.take_left]
  rfl

theorem array_toList (v : Vector UInt8 n) : array n v.toList = .ok v := by
  rw [array, vectorOf, dif_pos v.length_toList]
  rfl

theorem decodeHost_layout (a : Address) (front rest : Bytes) :
    ∃ atyp, (front ++ (a.bytes ++ rest))[front.length]? = some atyp ∧
      decodeHost (front ++ (a.bytes ++ rest)) (front.length + 1) atyp =
        (okOr a.host .utf8).map (·, front.length + a.bytes.length) := by
  refine ⟨a.bytes.head?.getD 0, by rcases a with (_ | _) | _ <;> simp [Address.bytes], ?_⟩
  have hcons : ∀ (b : UInt8) (bs : Bytes), front ++ (b :: bs ++ rest) = front ++ [b] ++ (bs ++ rest) := by simp
  match a with
  | .ip (.v4 octets) =>
    rw [Address.bytes, hcons]
    simp only [List.head?_cons, Option.getD_some, decodeHost]
    rw [range_append (front ++ [1]) octets.toList rest (by simp) (by simp)]
    simp [array_toList, okOr, Address.host, Except.map, pure, Except.pure, bind, Except.bind]
  | .ip (.v6 octets) =>
    rw [Address.bytes, hcons]
    simp only [List.head?_cons, Option.getD_some, decodeHost]
    rw [range_append (front ++ [4]) octets.toList rest (by simp) (by simp)]
    simp [array_toList, okOr, Address.host, Except.map, pure, Except.pure, bind, Except.bind]
  | .domain length text h =>
    have hlength : (front ++ (3 :: length :: text ++ rest))[front.length + 1]? = some length := by simp
    have htext : front ++ (3 :: length :: text ++ rest) = front ++ [3, length] ++ (text ++ rest) := by simp
    have hrange :
        range (front ++ (3 :: length :: text ++ rest)) (front.length + 1 + 1) length.toNat "truncated domain" =
          .ok text := htext ▸ range_append (front ++ [3, length]) text rest (by simp) h.symm
    simp only [Address.bytes, List.head?_cons, Option.getD_some, decodeHost, hlength, okOr, bind, Except.bind, hrange]
    cases hutf8 : Str.fromUtf8 text <;> simp [Address.host, hutf8, h, Except.map, pure, Except.pure]
    omega

theorem decodeAddress_layout (a : Address) (port : UInt16) (front rest : Bytes) :
    decodeAddress (front ++ (a.bytes ++ (beU16 port ++ rest))) front.length =
      (okOr a.host .utf8).map fun host => (parseDestination host port, front.length + a.bytes.length + 2) := by
  obtain ⟨atyp, htype, hhost⟩ := decodeHost_layout a front (beU16 port ++ rest)
  have hport :
      range (front ++ (a.bytes ++ (beU16 port ++ rest))) (front.length + a.bytes.length) 2 "missing SOCKS port" =
        .ok (beU16 port) := by
    rw [← List.append_assoc]
    exact range_append _ _ _ (by simp) rfl
  simp only [decodeAddress, htype, okOr, bind, Except.bind, hhost]
  cases a.host with
  | none => rfl
  | some host =>
    simp only [Except.map, hport]
    exact congrArg (fun p => Except.ok (parseDestination host p, _)) (ofBeU16_beU16 port)

theorem handshakeAddress_layout (a : Address) (port : UInt16) (h : a.read port = some d) :
    Runs handshakeAddress (a.bytes ++ beU16 port) d [] := by
  match a with
  | .ip (.v4 octets) =>
    cases h
    exact (Runs.readU8 1).read_bind ((Runs.readArray octets).read_bind ((Runs.readU16 port).last_bind (Runs.pure _)))
  | .ip (.v6 octets) =>
    cases h
    exact (Runs.readU8 4).read_bind ((Runs.readArray octets).read_bind ((Runs.readU16 port).last_bind (Runs.pure _)))
  | .domain length text htext =>
    obtain ⟨host, hhost, rfl⟩ := Option.map_eq_some_iff.mp h
    refine (Runs.readU8 3).read_bind ((Runs.readU8 length).read_bind ?_)
    rw [← htext]
    exact (Runs.readExact text).read_bind ((Runs.lift (okOr_ok_iff.mpr hhost)).pass_bind
      ((Runs.readU16 port).last_bind (Runs.pure _)))

/-- **Both transports.** Of one address field, the handshake and the datagrams make the same destination exactly if the
    field is not a domain that spells an address. -/
theorem socks_addresses_agree_iff (a : Address) (port : UInt16) (front rest out : Bytes) {d d' : Destination} {n : Nat}
    {s : Stream} (hs : handshakeAddress ⟨a.bytes ++ beU16 port ++ rest, out⟩ = (.ok d, s))
    (hd : decodeAddress (front ++ (a.bytes ++ (beU16 port ++ rest))) front.length = .ok (d', n)) :
    d = d' ↔ ¬a.SpellsIp := by
  rw [decodeAddress_layout] at hd
  cases hhost : a.host with
  | none => simp [hhost, okOr, Except.map] at hd
  | some host =>
    obtain ⟨rfl, rfl⟩ : parseDestination host port = d' ∧ _ = n := by simpa [hhost, okOr, Except.map] using hd
    cases a with
    | ip addr =>
      have hread := handshakeAddress_layout (.ip addr) port rfl rest out
      cases hs.symm.trans hread
      cases hhost
      simp [parseDestination, IpAddr.parse_text, Address.SpellsIp]
    | domain length text h =>
      have hutf8 : Str.fromUtf8 text = some host := hhost
      have hread := handshakeAddress_layout (.domain length text h) port (by simp [Address.read, hutf8]; rfl) rest out
      cases hs.symm.trans hread
      cases hip : IpAddr.parse host <;> simp [parseDestination, hip, Address.SpellsIp, hutf8]

theorem socks_addresses_agree_iff_v4 : ∃ d d' n s,
    handshakeAddress ⟨[1, 192, 0, 2, 1, 0, 53] ++ [7], []⟩ = (.ok d, s) ∧
      decodeAddress [0, 0, 0, 1, 192, 0, 2, 1, 0, 53, 7] 3 = .ok (d', n) ∧ d = d' := by
  have hs : handshakeAddress ⟨[1, 192, 0, 2, 1, 0, 53] ++ [7], []⟩ =
      (.ok (.ip (.v4 #v[192, 0, 2, 1]) 53), ⟨[7], []⟩) := by
    decide +kernel
  have hd : decodeAddress [0, 0, 0, 1, 192, 0, 2, 1, 0, 53, 7] 3 = .ok (.ip (.v4 #v[192, 0, 2, 1]) 53, 10) := by
    decide +kernel
  exact ⟨_, _, _, _, hs, hd,
    (socks_addresses_agree_iff (.ip (.v4 #v[192, 0, 2, 1])) 53 [0, 0, 0] [7] [] hs hd).mpr nofun⟩

/-- The domain of a request spells the address that a datagram to it goes to. -/
theorem socks_addresses_differ :
    handshakeAddress ⟨[3, 3, 58, 58, 49, 0, 53], []⟩ = (.ok (.domain "::1" 53), ⟨[], []⟩) ∧
      decodeAddress [3, 3, 58, 58, 49, 0, 53] 0 = .ok
        (.ip (.v6 #v[0, 0, 0, 0, 0, 0, 0, 0, 0, 0, 0, 0, 0, 0, 0, 1]) 53, 7) := by
  decide +kernel

/-! ## Datagrams -/

theorem range_le (h : range packet position n missing = .ok bs) : position + n ≤ packet.length := by
  by_contra hlt
  rw [range, if_neg hlt] at h
  cases h

theorem decodeAddress_le {offset : Nat} (h : decodeAddress packet offset = .ok (d, n)) :
    n ≤ packet.length := by
  simp only [decodeAddress, bind_ok_iff] at h
  obtain ⟨_, -, ⟨host, position⟩, -, _, hport, _, -, h⟩ := h
  cases h
  exact range_le hport

theorem range_ok (h : range packet position n missing = .ok bs) :
    packet.drop position = bs ++ packet.drop (position + n) ∧ bs.length = n := by
  have hle := range_le h
  rw [range, if_pos hle] at h
  cases h
  rw [← List.drop_drop]
  exact ⟨(List.take_append_drop n _).symm, by simp; omega⟩

theorem octets_ok {v : Vector UInt8 n} (hrange : range packet position n missing = .ok bs)
    (h : array n bs = .ok v) : packet.drop position = v.toList ++ packet.drop (position + n) := by
  rw [toList_of_vectorOf (okOr_ok_iff.mp h)]
  exact (range_ok hrange).1

theorem decodeHost_ok {atyp : UInt8} {host : Str} (h : decodeHost packet position atyp = .ok (host, n)) :
    ∃ a : Address, a.host = some host ∧ atyp :: packet.drop position = a.bytes ++ packet.drop n := by
  unfold decodeHost at h
  split at h
  on_goal 4 => cases h
  all_goals simp only [bind_ok_iff, okOr_ok_iff] at h
  · obtain ⟨bs, hrange, octets, hoctets, ⟨⟩⟩ := h
    exact ⟨.ip (.v4 octets), rfl, congrArg _ (octets_ok hrange hoctets)⟩
  · obtain ⟨length, hlength, bs, hrange, _, hutf8, ⟨⟩⟩ := h
    obtain ⟨hrest, hlen⟩ := range_ok hrange
    obtain ⟨hlt, hget⟩ := List.getElem?_eq_some_iff.mp hlength
    refine ⟨.domain length bs hlen, hutf8, ?_⟩
    rw [List.drop_eq_getElem_cons hlt, hget, hrest]
    rfl
  · obtain ⟨bs, hrange, octets, hoctets, ⟨⟩⟩ := h
    exact ⟨.ip (.v6 octets), rfl, congrArg _ (octets_ok hrange hoctets)⟩

end

theorem decodeAddress_ne_panic (packet : Bytes) (offset : Nat) : decodeAddress packet offset ≠ .error .panic := by
  have hrange : ∀ {n position : Nat} {text β} {f : Vector UInt8 n → Except Failure β}, (∀ v, f v ≠ .error .panic) →
      (range packet position n text >>= fun bs => array n bs >>= f) ≠ .error .panic := fun hf =>
    bind_ne_panic (okOr_ne_panic _ nofun) fun _ => bind_ne_panic (okOr_ne_panic _ nofun) hf
  refine bind_ne_panic (okOr_ne_panic _ nofun) fun atyp => bind_ne_panic ?_ fun host => hrange fun _ => nofun
  unfold decodeHost
  split
  · exact hrange fun _ => nofun
  · exact bind_ne_panic (okOr_ne_panic _ nofun) fun _ => bind_ne_panic (okOr_ne_panic _ nofun) fun _ =>
      bind_ne_panic (okOr_ne_panic _ nofun) fun _ => nofun
  · exact hrange fun _ => nofun
  · nofun

theorem parseSocksUdp_layout {a : Address} {host : Str} (port : UInt16) (payload : Bytes) (h : a.host = some host) :
    parseSocksUdp ([0, 0, 0] ++ (a.bytes ++ (beU16 port ++ payload))) = .ok (parseDestination host port, payload) := by
  have hdecode := decodeAddress_layout a port [0, 0, 0] payload
  rw [h] at hdecode
  simp only [parseSocksUdp, bind_ok_iff, bailIf_ok_iff]
  refine ⟨(), ?_, 0, rfl, (), fun h => h rfl, _, hdecode, payload, ?_, rfl⟩
  · simp [beU16]
    omega
  · rw [sliceFrom_of_le (by simp [beU16]; omega)]
    have hsplit :
        [0, 0, 0] ++ (a.bytes ++ (beU16 port ++ payload)) = [0, 0, 0] ++ a.bytes ++ beU16 port ++ payload := by simp
    rw [hsplit]
    exact congrArg _ (List.drop_left' (by simp [beU16]; omega))

/-- **Datagrams.** What is written is read back, up to domains that spell an address; and whatever is read, reading ends
    without a panic and with the rest of the packet. -/
theorem socks_udp_round_trip :
    (∀ destination payload, (∀ host port, destination = .domain host port → Str.len host ≤ 255) →
      ∃ packet, encodeSocksUdp destination payload = .ok packet ∧ parseSocksUdp packet = .ok (match destination with
        | .ip addr port => .ip addr port
        | .domain host port => parseDestination host port, payload)) ∧
    ∀ packet, parseSocksUdp packet ≠ .error .panic ∧
      ∀ destination payload, parseSocksUdp packet = .ok (destination, payload) → payload <:+ packet := by
  refine ⟨fun destination payload hshort => ?_, fun packet => ⟨?_, fun destination payload h => ?_⟩⟩
  · have hip : ∀ addr port, parseDestination addr.text port = .ip addr port := by
      simp [parseDestination, IpAddr.parse_text]
    have hlayout := fun a host port => @parseSocksUdp_layout a host port payload
    match destination with
    | .ip (.v4 octets) port => exact ⟨_, rfl, by simpa [Address.bytes, hip] using hlayout (.ip (.v4 octets)) _ port rfl⟩
    | .ip (.v6 octets) port => exact ⟨_, rfl, by simpa [Address.bytes, hip] using hlayout (.ip (.v6 octets)) _ port rfl⟩
    | .domain host port =>
      have hlen := Nat.lt_succ_of_le (hshort host port rfl)
      have hdomain := hlayout (.domain (UInt8.ofNat (Str.len host)) (Str.asBytes host) (by
        rw [Str.asBytes_length, UInt8.toNat_ofNat']; omega)) host port (Str.fromUtf8_asBytes host)
      exact ⟨_, by simp only [encodeSocksUdp, encodeAddress, if_pos hlen]; rfl, by simpa [Address.bytes] using hdomain⟩
  · refine bailIf_bind_ne_panic fun hshort => ok_bind_ne_panic (index_of_lt (by omega)) ?_
    refine bailIf_bind_ne_panic fun _ => ?_
    cases hd : decodeAddress packet 3 with
    | error e =>
      rintro ⟨⟩
      exact decodeAddress_ne_panic packet 3 hd
    | ok found =>
      exact ok_bind_ne_panic rfl (ok_bind_ne_panic (sliceFrom_of_le (decodeAddress_le hd)) nofun)
  · simp only [parseSocksUdp, bind_ok_iff] at h
    obtain ⟨_, -, _, -, _, -, ⟨d, offset⟩, hd, rest, hrest, h⟩ := h
    rw [sliceFrom_of_le (decodeAddress_le hd)] at hrest
    cases hrest
    cases h
    exact List.drop_suffix offset packet

/-- **Datagrams that are accepted.** A packet is accepted exactly if it is three zero bytes, an address whose text is
    UTF-8, a port and the payload. -/
theorem parse_socks_udp_accepts_iff (packet payload : Bytes) (d : Destination) :
    parseSocksUdp packet = .ok (d, payload) ↔ ∃ (a : Address) (port : UInt16) (host : Str),
      packet = [0, 0, 0] ++ (a.bytes ++ (beU16 port ++ payload)) ∧ a.host = some host ∧
        d = parseDestination host port := by
  constructor
  · intro h
    simp only [parseSocksUdp, decodeAddress, bind_ok_iff, bailIf_ok_iff, okOr_ok_iff, not_or, not_not] at h
    obtain ⟨_, ⟨hlong, hreserved⟩, frag, hfrag, _, rfl, _,
      ⟨atyp, htype, ⟨host, position⟩, hhost, bs, hrange, port, hport, ⟨⟩⟩,
      rest, hrest, ⟨⟩⟩ := h
    rw [sliceFrom_of_le (range_le hrange)] at hrest
    cases hrest
    obtain ⟨a, ha, hbytes⟩ := decodeHost_ok hhost
    have hpair : port.toList = [port[0], port[1]] := List.ext_getElem (by simp) (by grind)
    rw [octets_ok hrange hport, hpair, ← beU16_ofBeU16] at hbytes
    obtain _ | ⟨_, _ | ⟨_, _ | ⟨_, _ | ⟨_, _⟩⟩⟩⟩ := packet
    on_goal 5 =>
      cases hreserved
      cases hfrag
      cases htype
      exact ⟨a, _, host, congrArg ([0, 0, 0] ++ ·) hbytes, ha, rfl⟩
    all_goals simp at hlong
  · rintro ⟨a, port, host, rfl, ha, rfl⟩
    exact parseSocksUdp_layout port payload ha

end Xhttp.Proxy.Socks
