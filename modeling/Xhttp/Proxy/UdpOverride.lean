import Xhttp.IpText
import Xhttp.Proxy.AnyTlsUdp
import Xhttp.Proxy.SocksUdp
import Xhttp.Proxy.TunUdp

/- `override_address` and `override_port` for UDP. The evaluation of a route applies them to the destination
   of the first datagram of a flow; whether they reach the other datagrams, and the first itself, depends on
   the relay and on its outbound (`override_bypassed`). -/
namespace Xhttp.Proxy
open Xhttp.Lib Xhttp.Routing Vless Vless.Relay List

/-- The datagram went where `override_destination` says. -/
def UdpSend.Overridden (r : UdpSend) : Prop :=
  r.target = overrideDestination r.own r.options

/-- The cases in which the relays apply the override: where they do not, it must not change anything. -/
def UdpSend.Covered (r : UdpSend) : Prop :=
  match r.relay with
  | .tunDirect true | .tunVless false | .tunAnyTls true | .anyTlsDirect true | .anyTlsVless false
  | .anyTlsAnyTls true | .socks => True
  | .tunDirect false | .tunVless true | .tunAnyTls false => overrideDestination r.own r.options = r.own
  | .anyTlsVless true | .anyTlsAnyTls false => r.first = true ∨ overrideDestination r.own r.options = r.own
  -- a socket that is connected for the first datagram
  | .anyTlsDirect false => r.options.udpConnect = true →
      overrideDestination r.own r.options = overrideDestination r.opened r.options

/-! ## TUN and TPROXY -/

/-- A mapping by address and port has one destination. -/
def UdpMappingKey.Fits : UdpMappingKey → SocketAddr → Prop
  | .addressAndPort _ destination, other => other = destination
  | _, _ => True

def UdpMappingKey.Fixed : UdpMappingKey → Prop
  | .addressAndPort _ _ => True
  | _ => False

section
variable {key : UdpMappingKey} {mapping : UdpNatBehavior} {a b source : SocketAddr} {p : Packet}

theorem UdpMappingKey.Fixed.eq (hfixed : key.Fixed) (ha : key.Fits a) (hb : key.Fits b) : a = b := by
  cases key with
  | addressAndPort _ destination => exact Eq.trans ha (Eq.symm hb)
  | endpoint | address => cases hfixed

theorem keyFor_fits : (UdpNatTable.keyFor mapping source a).Fits a := by
  cases mapping <;> simp [UdpNatTable.keyFor, UdpMappingKey.Fits]

theorem keyFor_fixed (h : (mapping == .addressAndPortDependent) = true) :
    (UdpNatTable.keyFor mapping source a).Fixed := by
  cases mapping <;> first | exact trivial | cases h

/-- The outbound sends everything to one destination. -/
def TunOutbound.connected : TunOutbound → Bool
  | .direct _ connected | .anyTls connected => connected
  | .vless _ => false

def TunRoute.Evaluated (key : UdpMappingKey) (route : TunRoute) : Prop :=
  key.Fits route.original ∧
    route.destination = overrideDestination (ofSocketAddr route.original) route.options

def FlowPhase.Routed (key : UdpMappingKey) : FlowPhase → Prop
  | .evaluate p => key.Fits p.destination
  | .connect _ route p => route.Evaluated key ∧ key.Fits p.destination
  | .relay outbound route initial => route.Evaluated key ∧ (∀ p ∈ initial, key.Fits p.destination) ∧
      (outbound.connected = true → key.Fixed)
  | _ => True

structure Flow.Routed (f : Flow) : Prop where
  fixed : f.fixedDestination = true → f.key.Fixed
  packets : ∀ p ∈ f.packets, f.key.Fits p.destination
  phase : f.phase.Routed f.key
  sent : ∀ r ∈ f.sent, r.Overridden ↔ r.Covered

theorem covered_tun {outbound : TunOutbound} {route : TunRoute} {target : Destination} (first : Bool)
    (hroute : route.Evaluated key) (hp : key.Fits p.destination) (hfixed : outbound.connected = true → key.Fixed)
    (htarget : outbound.target route p = some target) :
    (outbound.send route first p target).Overridden ↔ (outbound.send route first p target).Covered := by
  obtain ⟨horiginal, hdestination⟩ := hroute
  -- a datagram for the destination of the first one
  have hsame : p.destination = route.original →
      route.destination = overrideDestination (ofSocketAddr p.destination) route.options := by
    intro heq
    rw [heq]
    exact hdestination
  cases outbound with
  | direct address connected | anyTls connected =>
    cases connected with
    | true =>
      obtain rfl : route.destination = target := by simpa [TunOutbound.target] using htarget
      exact iff_of_true (hsame ((hfixed rfl).eq hp horiginal)) trivial
    | false =>
      obtain rfl : ofSocketAddr p.destination = target := by simpa [TunOutbound.target] using htarget
      exact eq_comm
  | vless xudp =>
    cases xudp with
    | true =>
      obtain rfl : ofSocketAddr p.destination = target := by simpa [TunOutbound.target] using htarget
      exact eq_comm
    | false =>
      obtain ⟨horig, rfl⟩ : p.destination = route.original ∧ route.destination = target := by
        simpa [TunOutbound.target] using htarget
      exact iff_of_true (hsame horig) trivial

variable {f f' : Flow} {event : FlowEvent}

theorem Flow.received_keeps (f : Flow) (payload : Bytes) (lookup : Str → Option IpAddr)
    (reported attached : Destination) : (f.received payload lookup reported attached).key = f.key ∧
    (f.received payload lookup reported attached).fixedDestination = f.fixedDestination ∧
    (f.received payload lookup reported attached).packets = f.packets ∧
    (f.received payload lookup reported attached).sent = f.sent ∧
    ((f.received payload lookup reported attached).phase = f.phase ∨
      (f.received payload lookup reported attached).phase = .ended) := by
  unfold Flow.received
  split
  · exact ⟨rfl, rfl, rfl, rfl, .inl rfl⟩
  · exact ⟨rfl, rfl, rfl, rfl, .inr rfl⟩

theorem Flow.Routed.received (hf : f.Routed) (payload : Bytes) (lookup : Str → Option IpAddr)
    (reported attached : Destination) : (f.received payload lookup reported attached).Routed := by
  obtain ⟨hkey, hfixed, hpackets, hsent, hphase⟩ := f.received_keeps payload lookup reported attached
  refine ⟨?_, ?_, ?_, ?_⟩
  · rw [hkey, hfixed]
    exact hf.fixed
  · rw [hkey, hpackets]
    exact hf.packets
  · rw [hkey]
    rcases hphase with h | h <;> rw [h]
    · exact hf.phase
    · exact trivial
  · rw [hsent]
    exact hf.sent

theorem Flow.Routed.enter (hf : f.Routed) {phase : FlowPhase} (hphase : phase.Routed f.key) :
    Flow.Routed { f with phase } :=
  ⟨hf.fixed, hf.packets, hphase, hf.sent⟩

theorem Flow.next_fits {initial rest packets : List Packet} (hinitial : ∀ q ∈ initial, key.Fits q.destination)
    (hpackets : ∀ q ∈ f.packets, key.Fits q.destination) (h : f.next initial = some (p, rest, packets)) :
    key.Fits p.destination ∧ (∀ q ∈ rest, key.Fits q.destination) ∧ ∀ q ∈ packets, key.Fits q.destination := by
  unfold Flow.next at h
  grind

theorem Flow.Routed.step (hf : f.Routed) (h : f.step event = some f') : f'.Routed := by
  have hphase := hf.phase
  cases event with
  | recv =>
    simp only [Flow.step] at h
    split at h
    · next hpackets =>
      have hall := hf.packets
      rw [hpackets] at hall
      cases h
      exact ⟨hf.fixed, fun q hq => hall q (mem_cons_of_mem _ hq), hall _ mem_cons_self, hf.sent⟩
    · next hpackets =>
      have hall := hf.packets
      rw [hpackets] at hall
      cases h
      exact ⟨hf.fixed, fun q hq => hall q (mem_cons_of_mem _ hq), trivial, hf.sent⟩
    · cases h
  | evaluated decision options dialer =>
    simp only [Flow.step] at h
    split at h
    · next p heq =>
      rw [heq] at hphase
      split at h <;> cases h
      · exact hf.enter trivial
      · exact hf.enter trivial
      · exact hf.enter trivial
      · exact hf.enter trivial
      · exact hf.enter ⟨⟨hphase, rfl⟩, hphase⟩
    · cases h
  | exchanged response =>
    simp only [Flow.step] at h
    split at h
    · cases h
      exact ⟨hf.fixed, hf.packets, trivial, hf.sent⟩
    · cases h
  | connected lookup =>
    -- a stream or a socket is connected only if the mapping is by address and port
    have hone : ∀ {p : Packet}, f.key.Fits p.destination → ∀ q ∈ [p], f.key.Fits q.destination := by
      intro p hp q hq
      obtain rfl := mem_singleton.mp hq
      exact hp
    simp only [Flow.step] at h
    split at h
    · next heq =>
      rw [heq] at hphase
      split at h <;> cases h
      · refine hf.enter ⟨hphase.1, hone hphase.2, fun hconnected => hf.fixed ?_⟩
        exact (Bool.and_eq_true_iff.mp hconnected).2
      · exact hf.enter trivial
    · next heq =>
      rw [heq] at hphase
      cases h
      exact hf.enter ⟨hphase.1, hone hphase.2, fun hconnected => by cases hconnected⟩
    · next heq =>
      rw [heq] at hphase
      cases h
      exact hf.enter ⟨hphase.1, hone hphase.2, hf.fixed⟩
    · cases h
  | packet =>
    simp only [Flow.step] at h
    split at h
    · next outbound route initial heq =>
      rw [heq] at hphase
      obtain ⟨hroute, hinitial, hfixed⟩ := hphase
      obtain ⟨⟨p, rest, packets⟩, hnext, rfl⟩ := Option.map_eq_some_iff.mp h
      obtain ⟨hp, hrest, hpackets⟩ := Flow.next_fits hinitial hf.packets hnext
      split
      · next target htarget =>
        refine ⟨hf.fixed, hpackets, ⟨hroute, hrest, hfixed⟩, fun r hr => ?_⟩
        rcases mem_append.mp hr with hold | hnew
        · exact hf.sent r hold
        grind [mem_singleton, covered_tun]
      · exact ⟨hf.fixed, hpackets, trivial, hf.sent⟩
    · cases h
  | datagram source payload lookup | frame address payload lookup | uot address payload lookup =>
    simp only [Flow.step] at h
    split at h
    · obtain rfl := Option.some.inj h
      exact hf.received payload lookup _ _
    · cases h
  | stop =>
    cases h
    exact hf.enter trivial

theorem Flow.step_key (h : f.step event = some f') : f'.key = f.key := by
  cases event with
  | recv | evaluated decision options dialer | exchanged response =>
    simp only [Flow.step] at h
    split at h
    all_goals first | cases h; rfl | (split at h <;> cases h <;> rfl) | cases h
  | connected lookup =>
    grind [Flow.step]
  | packet =>
    simp only [Flow.step] at h
    split at h
    · obtain ⟨⟨p, rest, packets⟩, -, rfl⟩ := Option.map_eq_some_iff.mp h
      dsimp only
      split <;> rfl
    · cases h
  | datagram source payload lookup | frame address payload lookup | uot address payload lookup =>
    simp only [Flow.step] at h
    split at h
    · obtain rfl := Option.some.inj h
      exact (f.received_keeps payload lookup _ _).1
    · cases h
  | stop =>
    cases h
    rfl

end

namespace UdpNatTable
variable {Sender : Type} {t : UdpNatTable Sender} {k key : UdpMappingKey} {n : Sender} {now : Nat}

/-- The session of the key has the sender. -/
def Sends (t : UdpNatTable Sender) (key : UdpMappingKey) (n : Sender) : Prop :=
  ∃ session, t.sessions.lookup key = some session ∧ session.sender = some n

/-- The session a touch works on has the sender that was there. -/
theorem sends_of_getD {now' : Nat} {generation : UInt64}
    (h : ((t.room now key).sessions.lookup key |>.getD ⟨none, ∅, ∅, now', generation⟩).sender = some n) :
    t.Sends key n := by
  rw [lookup_room_self] at h
  cases hlookup : t.sessions.lookup key with
  | none =>
    rw [hlookup] at h
    cases h
  | some session =>
    rw [hlookup] at h
    exact ⟨session, hlookup, h⟩

theorem sends_of_touchAndSender {closed : Sender → Bool} {destination : SocketAddr}
    (h : (t.touchAndSender closed now key destination).1 = some n) : t.Sends key n :=
  sends_of_getD (Option.filter_eq_some_iff.mp h).1

theorem Sends.of_touchAndSender {closed : Sender → Bool} {destination : SocketAddr}
    (h : (t.touchAndSender closed now key destination).2.Sends k n) : t.Sends k n := by
  obtain ⟨session, hlookup, hsender⟩ := h
  have hinsert : (AList.insert key _ (t.room now key).sessions).lookup k = some session := hlookup
  obtain ⟨rfl, rfl⟩ | ⟨-, hother⟩ := Map.lookup_insert_cases hinsert
  · exact sends_of_getD hsender
  · exact ⟨session, lookup_of_room hother, hsender⟩

theorem Sends.of_setSender {sender : Option Sender} (h : (t.setSender key sender).Sends k n) :
    t.Sends k n ∨ (k = key ∧ sender = some n) := by
  obtain ⟨session, hlookup, hsender⟩ := h
  unfold setSender at hlookup
  split at hlookup
  · obtain ⟨rfl, rfl⟩ | ⟨-, hlookup⟩ := Map.lookup_insert_cases hlookup
    · exact .inr ⟨rfl, hsender⟩
    · exact .inl ⟨session, hlookup, hsender⟩
  · exact .inl ⟨session, hlookup, hsender⟩

theorem Sends.of_allowResponse {remote : SocketAddr} (h : (t.allowResponse now key remote).2.Sends k n) :
    t.Sends k n := by
  obtain ⟨session, hlookup, hsender⟩ := h
  obtain ⟨heq, -⟩ | ⟨old, hold, -, -, heq⟩ := t.allowResponse_cases now key remote <;> rw [heq] at hlookup
  · exact ⟨session, (lookup_expire.mp hlookup).1, hsender⟩
  · obtain ⟨rfl, rfl⟩ | ⟨-, hlookup⟩ := Map.lookup_insert_cases hlookup
    · exact ⟨old, hold, hsender⟩
    · exact ⟨session, (lookup_expire.mp hlookup).1, hsender⟩

end UdpNatTable

/-- The reader is about to start a flow, or to send a packet to a flow, of the key of the packet. -/
def ReaderPhase.Routed (mapping : UdpNatBehavior) (flows : List Flow) : ReaderPhase → Prop
  | .next => True
  | .spawn key source p => key = UdpNatTable.keyFor mapping source p.destination
  | .send n key p => key.Fits p.destination ∧ ∃ f, flows[n]? = some f ∧ f.key = key

namespace Transparent

/-- A sender leads to a flow of its key, and so does the reader. -/
structure State.Routed (inbound : Transparent) (s : State) : Prop where
  flows : ∀ f ∈ s.flows, f.Routed
  table : ∀ key n, s.table.Sends key n → ∃ f, s.flows[n]? = some f ∧ f.key = key
  reader : s.reader.Routed inbound.mapping s.flows

section
variable {inbound : Transparent} {s s' : State} {e : Event}

theorem routed_start : inbound.start.Routed inbound := by
  refine ⟨by simp [start], fun key n hsends => ?_, trivial⟩
  obtain ⟨session, hlookup, -⟩ := hsends
  simp [start, UdpNatTable.new] at hlookup

theorem State.Routed.setFlow (hs : s.Routed inbound) {n : Nat} {f f' : Flow} (hf : s.flows[n]? = some f)
    (hkey : f'.key = f.key) (hrouted : f'.Routed) : (s.setFlow n f').Routed inbound := by
  refine ⟨fun g hg => ?_, fun key m hsends => ?_, ?_⟩
  · rcases mem_or_eq_of_mem_set hg with hold | rfl
    · exact hs.flows g hold
    · exact hrouted
  · obtain ⟨g, hg, rfl⟩ := hs.table key m hsends
    exact Numbered.get_set_of_eq Flow.key hf hkey hg
  · have hreader := hs.reader
    show s.reader.Routed inbound.mapping (s.flows.set n f')
    cases hphase : s.reader with
    | next => exact trivial
    | spawn key source p =>
      rw [hphase] at hreader
      exact hreader
    | send m key p =>
      rw [hphase] at hreader
      obtain ⟨hfits, g, hg, rfl⟩ := hreader
      exact ⟨hfits, Numbered.get_set_of_eq Flow.key hf hkey hg⟩

theorem State.Routed.step (hs : s.Routed inbound) (h : inbound.step s e = some s') : s'.Routed inbound := by
  cases e with
  | receive now source p =>
    simp only [Transparent.step] at h
    split at h
    · have htable : ∀ key n, (s.table.touchAndSender s.closed now
          (UdpNatTable.keyFor inbound.mapping source p.destination) p.destination).2.Sends key n →
          ∃ f, s.flows[n]? = some f ∧ f.key = key :=
        fun key n hsends => hs.table key n hsends.of_touchAndSender
      split at h
      · next n hsender =>
        cases h
        exact ⟨hs.flows, htable, keyFor_fits, hs.table _ n (UdpNatTable.sends_of_touchAndSender hsender)⟩
      · cases h
        exact ⟨hs.flows, htable, rfl⟩
    · cases h
  | spawn =>
    simp only [Transparent.step] at h
    split at h
    · next key source p hreader =>
      have hkey : key = UdpNatTable.keyFor inbound.mapping source p.destination := by
        have hr := hs.reader
        rwa [hreader] at hr
      cases h
      refine ⟨fun g hg => ?_, fun k n hsends => ?_, ?_, _, getElem?_concat_length, rfl⟩
      · rcases mem_append.mp hg with hold | hnew
        · exact hs.flows g hold
        · obtain rfl := mem_singleton.mp hnew
          refine ⟨fun hfixed => ?_, fun _ hq => ?_, trivial, fun _ hr => ?_⟩
          · rw [hkey]
            exact keyFor_fixed hfixed
          · cases hq
          · cases hr
      · rcases hsends.of_setSender with hold | ⟨rfl, hsender⟩
        · obtain ⟨f, hf, hfkey⟩ := hs.table k n hold
          exact ⟨f, Numbered.get_concat hf, hfkey⟩
        simp_all
      · rw [hkey]
        exact keyFor_fits
    · cases h
  | send =>
    simp only [Transparent.step] at h
    split at h
    · next n key p hreader =>
      obtain ⟨hfits, g, hg, hkey⟩ : key.Fits p.destination ∧ ∃ f, s.flows[n]? = some f ∧ f.key = key := by
        have hr := hs.reader
        rwa [hreader] at hr
      split at h
      · cases h
      · next f hf =>
        split at h
        · split at h <;> cases h
          · refine ⟨hs.flows, fun k m hsends => ?_, trivial⟩
            rcases hsends.of_setSender with hold | ⟨-, hnone⟩
            · exact hs.table k m hold
            · cases hnone
          · exact ⟨hs.flows, hs.table, trivial⟩
        · cases h
          have hold := hs.flows f (mem_of_getElem? hf)
          have hrouted : Flow.Routed { f with packets := f.packets ++ [p] } := by
            refine ⟨hold.fixed, fun q hq => ?_, hold.phase, hold.sent⟩
            rcases mem_append.mp hq with hq | hq
            · exact hold.packets q hq
            · simp_all
          have hset : (s.setFlow n { f with packets := f.packets ++ [p] }).Routed inbound := hs.setFlow hf rfl hrouted
          exact ⟨hset.flows, hset.table, trivial⟩
    · cases h
  | flow n event =>
    simp only [Transparent.step] at h
    split at h
    · cases h
    · next f hf =>
      obtain ⟨f', hstep, rfl⟩ := Option.map_eq_some_iff.mp h
      exact hs.setFlow hf (Flow.step_key hstep) ((hs.flows f (mem_of_getElem? hf)).step hstep)
  | forward n =>
    simp only [Transparent.step] at h
    split at h
    · cases h
    · next f hf =>
      split at h
      · cases h
      · next reply responses hresponses =>
        cases h
        have hold := hs.flows f (mem_of_getElem? hf)
        have hset : (s.setFlow n { f with responses }).Routed inbound :=
          hs.setFlow hf rfl ⟨hold.fixed, hold.packets, hold.phase, hold.sent⟩
        exact ⟨hset.flows, hset.table, hset.reader⟩
  | write now ok =>
    simp only [Transparent.step] at h
    split at h
    · next key reply responses hwriting hqueue =>
      have htable : ∀ k n, (s.table.allowResponse now key reply.remote).2.Sends k n →
          ∃ f, s.flows[n]? = some f ∧ f.key = k := fun k n hsends => hs.table k n hsends.of_allowResponse
      split at h
      · cases h
        exact ⟨hs.flows, htable, hs.reader⟩
      split at h
      · cases h
        exact ⟨hs.flows, htable, hs.reader⟩
      · split at h <;> cases h <;> exact ⟨hs.flows, htable, hs.reader⟩
    · cases h

end

end Transparent

/-! ## AnyTLS -/

def UotRoute.Evaluated (request : UotRequest) (route : UotRoute) : Prop :=
  route.destination = overrideDestination route.own route.options ∧
    (request.isConnect = true → route.own = request.destination)

def UotPhase.Routed (request : UotRequest) : UotPhase → Prop
  | .evaluate own => request.isConnect = true → own = request.destination
  | .connect (.vless false) route | .relay (.vless false) route =>
    route.Evaluated request ∧ request.isConnect = true
  | .connect _ route | .relay _ route => route.Evaluated request
  | _ => True

structure UotFlow.Routed (f : UotFlow) : Prop where
  phase : f.phase.Routed f.request
  sent : ∀ r ∈ f.sent, r.Overridden ↔ r.Covered

section
variable {f f' : UotFlow} {event : UotEvent}

theorem UotFlow.own_of_isConnect (f : UotFlow) (address : Destination) (h : f.request.isConnect = true) :
    f.own address = f.request.destination := if_pos h

variable {dialer : UdpDialer}

theorem UotPhase.Routed.evaluated {request : UotRequest} {route : UotRoute}
    (h : (UotPhase.relay dialer route).Routed request) : route.Evaluated request := by
  cases dialer with
  | direct | anyTls | block => exact h
  | vless xudp =>
    cases xudp with
    | true => exact h
    | false => exact h.1

theorem covered_uot {route : UotRoute} (address : Destination)
    (hphase : (UotPhase.relay dialer route).Routed f.request) :
    let r : UdpSend := { relay := f.relay dialer, first := false, own := f.own address, opened := route.own,
                         options := route.options, target := f.target dialer route (f.own address) }
    r.Overridden ↔ r.Covered := by
  obtain ⟨hdestination, hown⟩ := hphase.evaluated
  -- on a connected stream all packets are for one destination
  have hsame : f.request.isConnect = true →
      route.destination = overrideDestination (f.own address) route.options := by
    intro hconnect
    rw [hdestination, hown hconnect, f.own_of_isConnect address hconnect]
  have hdirect : (if f.request.isConnect || route.options.udpConnect then route.destination
        else overrideDestination (f.own address) route.options) =
        overrideDestination (f.own address) route.options ↔
      match f.request.isConnect with
      | true => True
      | false => route.options.udpConnect = true →
          overrideDestination (f.own address) route.options =
            overrideDestination route.own route.options := by
    cases hconnect : f.request.isConnect with
    | true => simpa using hsame hconnect
    | false =>
      cases hudp : route.options.udpConnect with
      | true => simpa [hdestination] using eq_comm
      | false => simp
  cases dialer with
  | direct | block =>
    refine hdirect.trans ?_
    simp only [UdpSend.Covered, UotFlow.relay]
    cases f.request.isConnect <;> exact Iff.rfl
  | vless xudp =>
    cases xudp with
    | true => simpa [UdpSend.Overridden, UdpSend.Covered, UotFlow.relay, UotFlow.target] using eq_comm
    | false => exact iff_of_true (hsame hphase.2) trivial
  | anyTls =>
    cases hconnect : f.request.isConnect with
    | true => simpa [UdpSend.Overridden, UdpSend.Covered, UotFlow.relay, UotFlow.target, hconnect] using hsame hconnect
    | false => simpa [UdpSend.Overridden, UdpSend.Covered, UotFlow.relay, UotFlow.target, hconnect] using eq_comm

theorem covered_uot_first {route : UotRoute} (hphase : (UotPhase.relay dialer route).Routed f.request) :
    let r : UdpSend := { relay := f.relay dialer, first := true, own := route.own, opened := route.own,
                         options := route.options, target := route.destination }
    r.Overridden ↔ r.Covered := by
  refine iff_of_true hphase.evaluated.1 ?_
  cases dialer with
  | direct | block =>
    grind [UdpSend.Covered, UotFlow.relay]
  | vless xudp =>
    cases xudp with
    | true => exact .inl rfl
    | false => exact trivial
  | anyTls =>
    grind [UdpSend.Covered, UotFlow.relay]

theorem UotFlow.Routed.send {route : UotRoute} {first : Bool} {own target : Destination}
    (hf : f.Routed) (hphase : (UotPhase.relay dialer route).Routed f.request)
    (hr :
      let r : UdpSend :=
        { relay := f.relay dialer, first, own, opened := route.own, options := route.options, target }
      r.Overridden ↔ r.Covered) : (f.send dialer route first own target).Routed := by
  refine ⟨hphase, fun r hmem => ?_⟩
  rcases mem_append.mp hmem with hold | hnew
  · exact hf.sent r hold
  · obtain rfl := mem_singleton.mp hnew
    exact hr

theorem UotFlow.Routed.step (hf : f.Routed) (h : f.step event = some f') : f'.Routed := by
  have hphase := hf.phase
  cases event with
  | packet address =>
    simp only [UotFlow.step] at h
    split at h
    · cases h
      exact ⟨f.own_of_isConnect address, hf.sent⟩
    · cases h
      exact hf
    · next dialer route heq =>
      rw [heq] at hphase
      cases h
      exact hf.send hphase (covered_uot address hphase)
    · cases h
  | evaluated decision options dialer =>
    simp only [UotFlow.step] at h
    split at h
    · next own heq =>
      rw [heq] at hphase
      have hroute : (UotRoute.mk own (overrideDestination own options) options).Evaluated f.request :=
        ⟨rfl, hphase⟩
      split at h
      · cases h
        exact ⟨trivial, hf.sent⟩
      · cases h
        exact ⟨trivial, hf.sent⟩
      · cases h
        exact ⟨trivial, hf.sent⟩
      · cases h
        exact ⟨trivial, hf.sent⟩
      · next xudp =>
        split at h
        · cases h
          exact ⟨trivial, hf.sent⟩
        · next hallowed =>
          cases h
          refine ⟨?_, hf.sent⟩
          cases xudp with
          | true => exact hroute
          | false => exact ⟨hroute, by simpa using hallowed⟩
      · next dialer _ hvless =>
        cases h
        refine ⟨?_, hf.sent⟩
        cases dialer with
        | direct | anyTls | block => exact hroute
        | vless xudp => exact absurd rfl (hvless xudp)
    · cases h
  | connected =>
    simp only [UotFlow.step] at h
    split at h
    · next dialer route heq =>
      rw [heq] at hphase
      have hrelay : (UotPhase.relay dialer route).Routed f.request := by
        cases dialer with
        | direct | anyTls | block => exact hphase
        | vless xudp => cases xudp <;> exact hphase
      cases h
      exact hf.send hrelay (covered_uot_first hrelay)
    · cases h
  | stop =>
    cases h
    exact ⟨trivial, hf.sent⟩

theorem UotFlow.routed_start (request : UotRequest) : (UotFlow.start request).Routed :=
  ⟨trivial, fun _ h => by cases h⟩

end

/-! ## SOCKS -/

/-- No name is the text of an address: `parse_destination` and `override_destination` make it one. -/
def Canonical : Destination → Prop
  | .ip _ _ => True
  | .domain name _ => IpAddr.parse name = none

theorem canonical_parseDestination (host : Str) (port : UInt16) : Canonical (parseDestination host port) := by
  unfold parseDestination
  split
  · exact trivial
  · next hparse => exact hparse

theorem Canonical.overrideDestination {d : Destination} (h : Canonical d) (options : RouteOptions) :
    Canonical (overrideDestination d options) := by
  unfold Proxy.overrideDestination
  split
  · cases d with
    | ip => exact trivial
    | domain => exact h
  · split
    · exact trivial
    · next hparse => exact hparse

theorem eq_of_last {c : Char} {a a' b b' : Str} (hb : c ∉ b) (hb' : c ∉ b') (h : a ++ c :: b = a' ++ c :: b') :
    a = a' ∧ b = b' := by
  have hrev : b.reverse ++ c :: a.reverse = b'.reverse ++ c :: a'.reverse := by
    simpa using congrArg List.reverse h
  have hfirst := Str.splitOnce_append (c := c) (a := b.reverse) (by simpa using hb) a.reverse
  have hsecond := Str.splitOnce_append (c := c) (a := b'.reverse) (by simpa using hb') a'.reverse
  simp_all

theorem bar_notMem_decimal (n : Nat) : '|' ∉ Str.decimal n ∧ ':' ∉ Str.decimal n :=
  ⟨fun h => absurd (Str.isDigit_of_mem_decimal h) (by decide),
    fun h => absurd (Str.isDigit_of_mem_decimal h) (by decide)⟩

/-- A key determines outbound and destination, if hosts do not contain the bar. -/
theorem socksKey_injective {tag tag' : Str} {d d' : Destination} (hd : Canonical d) (hd' : Canonical d')
    (hbar : '|' ∉ destinationHost d) (hbar' : '|' ∉ destinationHost d') (h : socksKey tag d = socksKey tag' d') :
    tag = tag' ∧ d = d' := by
  have hsplit : ∀ (tag : Str) (d : Destination), socksKey tag d =
      tag ++ '|' :: (destinationHost d ++ ':' :: Str.decimal d.port.toNat) := by
    simp [socksKey]
  have hplain :
      ∀ d : Destination, '|' ∉ destinationHost d → '|' ∉ destinationHost d ++ ':' :: Str.decimal d.port.toNat := by
    intro d hd
    simp [hd, (bar_notMem_decimal d.port.toNat).1]
  rw [hsplit, hsplit] at h
  obtain ⟨htag, hrest⟩ := eq_of_last (hplain d hbar) (hplain d' hbar') h
  obtain ⟨hhost, hport⟩ := eq_of_last (bar_notMem_decimal _).2 (bar_notMem_decimal _).2 hrest
  have hports : d.port = d'.port := UInt16.toNat_inj.mp (Str.decimal_injective hport)
  refine ⟨htag, ?_⟩
  cases d with
  | ip a port =>
    cases d' with
    | ip b port' =>
      have htext : some a = some b := by
        rw [← a.parse_text, ← b.parse_text]
        exact congrArg _ hhost
      obtain rfl := Option.some.inj htext
      obtain rfl : port = port' := hports
      rfl
    | domain name port' =>
      have hparse : IpAddr.parse name = some a := by
        rw [← a.parse_text]
        exact congrArg _ hhost.symm
      exact absurd (hparse.symm.trans hd') (by simp)
  | domain name port =>
    cases d' with
    | ip b port' =>
      have hparse : IpAddr.parse name = some b := by
        rw [← b.parse_text]
        exact congrArg _ hhost
      exact absurd (hparse.symm.trans hd) (by simp)
    | domain name' port' =>
      obtain rfl : name = name' := hhost
      obtain rfl : port = port' := hports
      rfl

namespace Associate

/-- The destination a datagram is routed to has no bar in its name. -/
def plainName (s : State) : Event → Bool
  | .evaluated _ options _ =>
    match s.phase with
    | .evaluate _ own _ => !(destinationHost (overrideDestination own options)).contains '|'
    | _ => true
  | _ => true

/-- The datagram is for the destination of the session. -/
def Matches (p : SocksDatagram) (t : SocksSession) : Prop :=
  overrideDestination p.own p.options = t.destination

structure State.Keyed (s : State) : Prop where
  evaluating : ∀ peer own payload, s.phase = .evaluate peer own payload → Canonical own
  destinations : ∀ (n : Nat) (t : SocksSession), s.tasks[n]? = some t →
    Canonical t.destination ∧ '|' ∉ destinationHost t.destination
  keys : ∀ key n, s.sessions.lookup key = some n → ∃ t tag, s.tasks[n]? = some t ∧ key = socksKey tag t.destination
  given : ∀ (n : Nat) (t : SocksSession), s.tasks[n]? = some t → ∀ p ∈ t.packets ++ t.sent, Matches p t
  sending : ∀ n p, s.phase = .send n p → ∀ t : SocksSession, s.tasks[n]? = some t → Matches p t

section
variable {client : IpAddr} {s s' : State} {e : Event}

theorem keyed_start : start.Keyed := by
  constructor <;> simp [start]

theorem notMem_of_plainName {peer : SocketAddr} {own : Destination} {payload : Bytes} {decision : RouteDecision}
    {options : RouteOptions} {dialer : Option UdpDialer} (hphase : s.phase = .evaluate peer own payload)
    (h : plainName s (.evaluated decision options dialer) = true) :
    '|' ∉ destinationHost (overrideDestination own options) := by
  simpa [plainName, hphase] using h

theorem State.Keyed.set (hs : s.Keyed) {n : Nat} {t t' : SocksSession} {phase : AssociatePhase}
    {replies : List SocksReply} (ht : s.tasks[n]? = some t) (hdestination : t'.destination = t.destination)
    (hgiven : ∀ p ∈ t'.packets ++ t'.sent, Matches p t) (hphase : phase = s.phase ∨ phase = .select) :
    State.Keyed { s with phase, tasks := s.tasks.set n t', replies } := by
  refine ⟨fun peer own payload heq => ?_, fun m u hu => ?_, fun key m hkey => ?_, fun m u hu p hp => ?_,
    fun m p heq u hu => ?_⟩
  · rcases hphase with rfl | rfl
    · exact hs.evaluating peer own payload heq
    · cases heq
  · rcases Numbered.get_set_cases ht hu with ⟨rfl, rfl⟩ | ⟨-, hold⟩
    · rw [hdestination]
      exact hs.destinations m t ht
    · exact hs.destinations m u hold
  · obtain ⟨u, tag, hu, rfl⟩ := hs.keys key m hkey
    grind
  · rcases Numbered.get_set_cases ht hu with ⟨rfl, rfl⟩ | ⟨-, hold⟩
    · rw [Matches, hdestination]
      exact hgiven p hp
    · exact hs.given m u hold p hp
  · rcases hphase with rfl | rfl
    · rcases Numbered.get_set_cases ht hu with ⟨rfl, rfl⟩ | ⟨-, hold⟩
      · rw [Matches, hdestination]
        exact hs.sending m p heq t ht
      · exact hs.sending m p heq u hold
    · cases heq

theorem State.Keyed.step (hs : s.Keyed) (hplain : plainName s e = true)
    (h : step client s e = some s') : s'.Keyed := by
  cases steps_of_step h with
  | ignored => exact hs
  | received hphase =>
    refine ⟨fun _ _ _ heq => ?_, hs.destinations, hs.keys, hs.given, fun _ _ heq => ?_⟩
    · cases heq
      exact canonical_parseDestination _ _
    · cases heq
  | passed phase hphase =>
    refine ⟨fun _ _ _ heq => ?_, hs.destinations, hs.keys, hs.given, fun _ _ heq => ?_⟩ <;>
      rcases hphase with rfl | rfl <;> cases heq
  | hijacked hphase =>
    refine ⟨fun _ _ _ heq => ?_, hs.destinations, hs.keys, hs.given, fun _ _ heq => ?_⟩ <;> cases heq
  | undelivered hphase =>
    refine ⟨fun _ _ _ heq => ?_, hs.destinations, fun key n hkey => ?_, hs.given, fun _ _ heq => ?_⟩
    · cases heq
    · exact hs.keys key n (Map.lookup_retain_eq_some.mp hkey).1
    · cases heq
  | @joined peer own payload tag options dialer n hphase hopen =>
    have hcanonical := (hs.evaluating peer own payload hphase).overrideDestination options
    have hbar := notMem_of_plainName hphase hplain
    refine ⟨fun _ _ _ heq => ?_, hs.destinations, hs.keys, hs.given, fun m p heq t ht => ?_⟩
    · cases heq
    · cases heq
      -- the session under the key has the destination, since the key determines it
      obtain ⟨t', tag', ht', hkey⟩ := hs.keys _ n (Option.filter_eq_some_iff.mp hopen).1
      obtain rfl := Option.some.inj (ht'.symm.trans ht)
      obtain ⟨hc, hb⟩ := hs.destinations n t' ht'
      exact (socksKey_injective hcanonical hc hbar hb hkey).2
  | @opened peer own payload tag options dialer hphase hnone =>
    have hcanonical := (hs.evaluating peer own payload hphase).overrideDestination options
    have hbar := notMem_of_plainName hphase hplain
    refine ⟨fun _ _ _ heq => ?_, fun n t ht => ?_, fun key n hkey => ?_, fun n t ht p hp => ?_, fun n p heq t ht => ?_⟩
    · cases heq
    · rcases Numbered.get_concat_cases ht with hold | ⟨-, rfl⟩
      · exact hs.destinations n t hold
      · exact ⟨hcanonical, hbar⟩
    · obtain ⟨rfl, rfl⟩ | ⟨-, hkey⟩ := Map.lookup_insert_cases hkey
      · exact ⟨_, tag, getElem?_concat_length, rfl⟩
      · obtain ⟨t, tag', ht, rfl⟩ := hs.keys key n hkey
        exact ⟨t, tag', Numbered.get_concat ht, rfl⟩
    · rcases Numbered.get_concat_cases ht with hold | ⟨-, rfl⟩
      · exact hs.given n t hold p hp
      · cases hp
    · cases heq
      have hlast : (s.tasks ++ [_])[s.tasks.length]? = some t := ht
      rw [getElem?_concat_length] at hlast
      obtain rfl := Option.some.inj hlast
      rfl
  | @queued n p t hphase ht =>
    refine hs.set ht rfl (fun q hq => ?_) (.inr rfl)
    simp only [mem_append, mem_singleton] at hq
    rcases hq with (hq | rfl) | hq
    · exact hs.given n t ht q (mem_append_left _ hq)
    · exact hs.sending n q hphase t ht
    · exact hs.given n t ht q (mem_append_right _ hq)
  | @session n event t t' reply ht hstep =>
    have hT := SocksSession.steps_of_step hstep
    exact hs.set ht hT.destination (fun q hq => hs.given n t ht q (hT.given q hq)) (.inl rfl)
  | exchanged hquery => exact ⟨hs.evaluating, hs.destinations, hs.keys, hs.given, hs.sending⟩

end

end Associate

/-! ## All relays -/

theorem Transparent.overridden_iff {inbound : Transparent} {events : List Transparent.Event} {s : Transparent.State}
    (hrun : run inbound.step inbound.start events = some s) :
    ∀ f ∈ s.flows, ∀ r ∈ f.sent, r.Overridden ↔ r.Covered := by
  have hrouted : s.Routed inbound := run_inv (Transparent.State.Routed inbound) (fun _ => True)
    (fun s e s' _ hs h => hs.step h) (fun _ _ => trivial) Transparent.routed_start hrun
  exact fun f hf => (hrouted.flows f hf).sent

theorem UotFlow.overridden_iff {request : UotRequest} {events : List UotEvent} {flow : UotFlow}
    (hrun : run UotFlow.step (.start request) events = some flow) : ∀ r ∈ flow.sent, r.Overridden ↔ r.Covered := by
  have hrouted : flow.Routed := run_inv UotFlow.Routed (fun _ => True)
    (fun f e f' _ hf h => hf.step h) (fun _ _ => trivial) (UotFlow.routed_start request) hrun
  exact hrouted.sent

theorem Associate.overridden_of_plain {client : IpAddr} {events : List Associate.Event} {s : Associate.State}
    (hrun : run (Associate.step client) Associate.start events = some s)
    (hplain : Along (Associate.step client) (fun s e => Associate.plainName s e = true) Associate.start events) :
    ∀ t ∈ s.tasks, ∀ p ∈ t.sent, (t.send p).Overridden := by
  have hkeyed : s.Keyed := run_inv_along Associate.State.Keyed _
    (fun s e s' hp hs h => hs.step hp h) events hplain Associate.keyed_start hrun
  intro t ht p hp
  obtain ⟨n, hn⟩ := mem_iff_getElem?.mp ht
  exact (hkeyed.given n t hn p (mem_append_right _ hp)).symm

/-- **Destination override.** Under TUN, TPROXY and AnyTLS, whatever the run, a datagram is sent to its overridden
    destination exactly in the cases of `Covered`. Under SOCKS every datagram is, in every run in which no name has a
    bar. -/
theorem override_uniform_iff (inbound : Transparent) (request : UotRequest) (client : IpAddr) :
    (∀ events s, run inbound.step inbound.start events = some s →
      ∀ f ∈ s.flows, ∀ r ∈ f.sent, r.Overridden ↔ r.Covered) ∧
    (∀ events flow, run UotFlow.step (.start request) events = some flow →
      ∀ r ∈ flow.sent, r.Overridden ↔ r.Covered) ∧
    ∀ events s, run (Associate.step client) Associate.start events = some s →
      Along (Associate.step client) (fun s e => Associate.plainName s e = true) Associate.start events →
      ∀ t ∈ s.tasks, ∀ p ∈ t.sent, (t.send p).Overridden :=
  ⟨fun _ _ => Transparent.overridden_iff, fun _ _ => UotFlow.overridden_iff, fun _ _ => Associate.overridden_of_plain⟩

def overridden : RouteOptions := { overrideAddress := some "192.0.2.53".toList }

def tunPacket (dialer : UdpDialer) : List Transparent.Event :=
  [.receive 0 Transparent.exampleClient ⟨[1], Transparent.firstServer⟩, .spawn, .send, .flow 0 .recv,
   .flow 0 (.evaluated (.outbound "out") overridden (some dialer)), .flow 0 (.connected fun _ => none),
   .flow 0 .packet]

def tunInbound : Transparent := Transparent.exampleInbound .tun

def uotPackets : List UotEvent :=
  [.packet (ofSocketAddr Transparent.firstServer), .evaluated (.outbound "out") overridden (some (.vless true)),
   .connected, .packet (ofSocketAddr Transparent.firstServer)]

def socksPacket : List Associate.Event :=
  [.receive Associate.firstPort (some ("dns.example", 53, [1])),
   .evaluated (.outbound "out") overridden (some .direct), .send, .session 0 .connected, .session 0 .packet]

/-- Where the datagrams of a run went, and where they should have gone. -/
def targets (sent : List UdpSend) : List (Destination × Destination) :=
  sent.map fun r => (r.target, overrideDestination r.own r.options)

/-- A packet through TUN goes to its own destination, and so does the second of the two, from AnyTLS to XUDP. -/
theorem override_bypassed :
    ∃ moved, moved ≠ ofSocketAddr Transparent.firstServer ∧
      (run tunInbound.step tunInbound.start (tunPacket .direct)).map (fun s => s.flows.map fun f => targets f.sent) =
        some [[(ofSocketAddr Transparent.firstServer, moved)]] ∧
      (run UotFlow.step (.start ⟨false, ofSocketAddr Transparent.firstServer⟩) uotPackets).map
          (fun f => targets f.sent) =
        some [(moved, moved), (ofSocketAddr Transparent.firstServer, moved)] := by
  refine ⟨overrideDestination (ofSocketAddr Transparent.firstServer) overridden, ?_⟩
  decide +kernel

/-- Classic VLESS under TUN, one packet of an AnyTLS client, and one of a SOCKS client. -/
theorem override_uniform_iff_each :
    ∃ s flow association, run tunInbound.step tunInbound.start (tunPacket (.vless false)) = some s ∧
      run UotFlow.step (.start ⟨false, ofSocketAddr Transparent.firstServer⟩) (uotPackets.take 3) =
        some flow ∧
      run (Associate.step Associate.firstPort.ip) Associate.start socksPacket = some association ∧
      (∀ f ∈ s.flows, ∀ r ∈ f.sent, r.Overridden ↔ r.Covered) ∧
      (∀ r ∈ flow.sent, r.Overridden ↔ r.Covered) ∧
      ∀ t ∈ association.tasks, ∀ p ∈ t.sent, (t.send p).Overridden := by
  obtain ⟨s, hs⟩ := Option.isSome_iff_exists.mp
    (by decide +kernel : (run tunInbound.step tunInbound.start (tunPacket (.vless false))).isSome = true)
  obtain ⟨flow, hflow⟩ := Option.isSome_iff_exists.mp
    (by decide +kernel : (run UotFlow.step (.start ⟨false, ofSocketAddr Transparent.firstServer⟩)
      (uotPackets.take 3)).isSome = true)
  obtain ⟨association, hassociation⟩ := Option.isSome_iff_exists.mp
    (by decide +kernel : (run (Associate.step Associate.firstPort.ip) Associate.start
      socksPacket).isSome = true)
  obtain ⟨htun, huot, hsocks⟩ := override_uniform_iff tunInbound ⟨false, ofSocketAddr Transparent.firstServer⟩
    Associate.firstPort.ip
  exact ⟨s, flow, association, hs, hflow, hassociation, htun _ s hs, huot _ flow hflow,
    hsocks _ association hassociation (by decide +kernel)⟩

end Xhttp.Proxy
