import Xhttp.Lib.Reader
import Xhttp.Lib.Run
import Xhttp.Vless.Xudp

/- The classic UDP relay of the server (`relay_udp` in `src/vless.rs`): datagrams in
   both directions on one stream, each behind its length. Only the read of the length
   stands in `select!`; once it is complete the payload is read without interruption.

   What is proved: a step loses no byte of a datagram unless the socket has a datagram
   ready while one of the two length bytes is taken (`framed_step_iff`). -/
namespace Xhttp.Vless.RelayUdp
open Xhttp.Lib List

/-- `stream.read_u16()`. -/
def lengthReader : Reader Failure UInt16 := Reader.readU16

/-- A datagram as the stream carries it. -/
def readDatagram : Io Failure Bytes := do
  let length ← Io.readU16
  Io.readExact length.toNat

inductive Phase where
  /-- `lookup_host(..).await`. -/
  | resolve
  | bind
  | connect
  /-- Both branches of `select!` pending. -/
  | select (reading : Reading lengthReader)
  /-- `stream.read_exact(&mut stream_buffer[..length]).await`, with `taken` in the
      buffer. -/
  | body (length : UInt16) (taken : Bytes) (hle : taken.length ≤ length.toNat)
  /-- `socket.send(..).await`. -/
  | send (datagram : Bytes)
  /-- The three writes of a response. -/
  | write (datagram : Bytes)
  | returned

def Phase.fresh : Phase := .select ⟨[], rfl⟩

structure State where
  arrived : Bytes
  closed : Bool
  output : Bytes
  relay : Phase
  /-- All bytes that ever arrived. Only recorded, as is the next field. -/
  delivered : Bytes
  /-- The datagrams sent to the target. -/
  sent : List Bytes

def State.start : State :=
  { arrived := [], closed := false, output := [], relay := .resolve, delivered := [], sent := [] }

inductive Event where
  | deliver (chunk : Bytes)
  | close
  | resolved (ok : Bool)
  | bound (ok : Bool)
  | connected (ok : Bool)
  /-- The relay polls `read_u16`. -/
  | pollLength
  /-- The relay polls `read_exact`. -/
  | pollBody
  | sent (ok : Bool)
  /-- `socket.recv` completes: the read of the length is dropped. -/
  | received (bytes : Bytes)
  | recvError
  | written (ok : Bool)

/-- An await before the loop: go on, or return with the error. -/
def State.await (s : State) (ok : Bool) (next : Phase) : State :=
  { s with relay := if ok then next else .returned }

def State.step (s : State) : Event → Option State
  | .deliver chunk =>
    if s.closed then none
    else some { s with arrived := s.arrived ++ chunk, delivered := s.delivered ++ chunk }
  | .close => some { s with closed := true }
  | .resolved ok =>
    match s.relay with
    | .resolve => some (s.await ok .bind)
    | _ => none
  | .bound ok =>
    match s.relay with
    | .bind => some (s.await ok .connect)
    | _ => none
  | .connected ok =>
    match s.relay with
    | .connect => some (s.await ok .fresh)
    | _ => none
  | .pollLength =>
    match s.relay with
    | .select reading =>
      match reading.poll s.arrived with
      | .ready (.ok length) rest =>
        some { s with arrived := rest, relay := .body length [] (Nat.zero_le _) }
      | .ready (.error _) rest => some { s with arrived := rest, relay := .returned }
      | .pending reading' =>
        if s.closed then some { s with arrived := [], relay := .returned }
        else some { s with arrived := [], relay := .select reading' }
    | _ => none
  | .pollBody =>
    match s.relay with
    | .body length taken _ =>
      if h : length.toNat ≤ (taken ++ s.arrived).length then
        some { s with arrived := (taken ++ s.arrived).drop length.toNat,
                      relay := .send ((taken ++ s.arrived).take length.toNat) }
      else if s.closed then some { s with arrived := [], relay := .returned }
      else some { s with arrived := [], relay := .body length (taken ++ s.arrived) (by omega) }
    | _ => none
  | .sent ok =>
    match s.relay with
    | .send datagram =>
      if ok then some { s with relay := .fresh, sent := s.sent ++ [datagram] }
      else some { s with relay := .returned }
    | _ => none
  | .received bytes =>
    match s.relay with
    | .select _ => some { s with relay := .write (bytes.take 65535) }
    | _ => none
  | .recvError =>
    match s.relay with
    | .select _ => some { s with relay := .returned }
    | _ => none
  | .written ok =>
    match s.relay with
    | .write datagram =>
      if ok then
        some { s with output := s.output ++ (beU16 (UInt16.ofNat datagram.length) ++ datagram),
                      relay := .fresh }
      else some { s with relay := .returned }
    | _ => none

/-! ## Framing -/

def State.held (s : State) : Bytes :=
  match s.relay with
  | .select reading => reading.taken
  | .body length taken _ => beU16 length ++ taken
  | _ => []

/-- The datagram that is read and not sent yet. -/
def State.inHand (s : State) : List Bytes :=
  match s.relay with
  | .send datagram => [datagram]
  | _ => []

def State.hasReturned (s : State) : Bool :=
  match s.relay with
  | .returned => true
  | _ => false

/-- The datagrams sent are the first ones of the stream, and until the relay returns every
    byte that arrived belongs to one of them, is held by a read or is still there. -/
def State.Framed (s : State) : Prop :=
  Framing readDatagram (s.sent ++ s.inHand) s.hasReturned s.held s.arrived s.delivered

/-- The socket has a datagram ready only while no length byte is taken. -/
def Undropped (s : State) : Event → Prop
  | .received _ => s.held = []
  | _ => True

instance (s : State) : ∀ e, Decidable (Undropped s e)
  | .received _ => inferInstanceAs (Decidable (s.held = []))
  | .deliver _ | .close | .resolved _ | .bound _ | .connected _ | .pollLength | .pollBody | .sent _
  | .recvError | .written _ => isTrue trivial

section
variable {s s' : State}

theorem State.Framed.returns (h : s.Framed) (hret : s'.hasReturned = true) (hsent : s'.sent = s.sent)
    (hhand : s'.inHand = []) (hdelivered : s'.delivered = s.delivered) : s'.Framed := by
  obtain ⟨consumed, hframes, hpre, -⟩ := h
  obtain ⟨b, c, rfl, hb, -⟩ := hframes.split
  refine ⟨b, ?_, ?_, fun hf => ?_⟩
  · rw [hsent, hhand, append_nil]
    exact hb
  · rw [hdelivered]
    exact (prefix_append b c).trans hpre
  · rw [hret] at hf
    cases hf

variable {length : UInt16} {reading : Reading lengthReader} {e : Event}

theorem runs_readDatagram {payload : Bytes} (h : payload.length = length.toNat) :
    Runs readDatagram (beU16 length ++ payload) payload [] := by
  have hbody : Runs (Io.readExact length.toNat : Io Failure Bytes) payload payload [] := by
    rw [← h]
    exact Runs.readExact payload
  exact (Runs.readU16 length).read_bind hbody

theorem of_poll_length {arrived rest : Bytes} (h : reading.poll arrived = .ready (.ok length) rest) :
    reading.taken ++ arrived = beU16 length ++ rest := by
  have hfeed := Reading.poll_ready h
  obtain ⟨cs, hcs, hread⟩ := Reader.feed_exact hfeed
  have hruns := Reader.runs_of_feed hread
  have hio := hruns rest []
  rw [show lengthReader.toIo = (Io.readU16 : Io Failure UInt16) from Reader.toIo_readU16] at hio
  grind [Io.readU16_ok_iff, beU16_ofBeU16, Stream.mk.inj]

theorem framed_pollLength (hF : s.Framed)
    (hrelay : s.relay = .select reading) (h : s.step .pollLength = some s') : s'.Framed := by
  simp only [State.step, hrelay] at h
  split at h
  · next length rest hpoll =>
    cases h
    refine hF.move [] (by simp [State.inHand, hrelay]) (by simp) fun _ => ?_
    refine ⟨by simp [State.hasReturned, hrelay], ?_⟩
    simpa [State.held, hrelay] using (of_poll_length hpoll).symm
  · cases h
    exact hF.returns rfl rfl rfl rfl
  · next reading' hpoll =>
    split at h
    · cases h
      exact hF.returns rfl rfl rfl rfl
    · cases h
      refine hF.move [] (by simp [State.inHand, hrelay]) (by simp) fun _ => ?_
      grind [State.hasReturned, State.held, Reading.poll_pending]

theorem framed_pollBody {taken : Bytes} {hle : taken.length ≤ length.toNat}
    (hF : s.Framed) (hrelay : s.relay = .body length taken hle) (h : s.step .pollBody = some s') : s'.Framed := by
  simp only [State.step, hrelay] at h
  split at h
  · next hlen =>
    -- the payload is complete: length and payload are the next datagram of the stream
    cases h
    obtain ⟨consumed, hframes, hpre, hall⟩ := hF
    have hdel := hall (by simp [State.hasReturned, hrelay])
    have hrun := runs_readDatagram (length_take_of_le hlen)
    rw [show s.sent ++ s.inHand = s.sent by simp [State.inHand, hrelay]] at hframes
    have hsplit : s.delivered = (consumed ++ (beU16 length ++ (taken ++ s.arrived).take length.toNat)) ++
        (taken ++ s.arrived).drop length.toNat := by
      rw [hdel, append_assoc, append_assoc, take_append_drop]
      simp [State.held, hrelay]
    refine ⟨_, hframes.append_one hrun, ⟨_, hsplit.symm⟩, fun _ => ?_⟩
    simpa [State.held] using hsplit
  · split at h
    · cases h
      exact hF.returns rfl rfl rfl rfl
    · cases h
      refine hF.move [] (by simp [State.inHand, hrelay]) (by simp) fun _ => ?_
      simp_all [State.hasReturned, State.held]

theorem runs_readDatagram_ne_nil (b : Bytes) (d : Bytes) (h : Runs readDatagram b d []) : b ≠ [] := by
  rintro rfl
  cases h [] []

/-- A response is ready: the read is dropped, and what it had taken is lost. -/
theorem framed_received (hF : s.Framed) (hrelay : s.relay = .select reading) (bytes : Bytes) :
    State.Framed { s with relay := .write bytes } ↔ reading.taken = [] := by
  simp only [State.Framed, State.hasReturned, State.held, State.inHand, hrelay] at hF
  exact hF.drop_iff runs_readDatagram_ne_nil

theorem framed_await {ok : Bool} {next : Phase} (hF : s.Framed) (hheld : s.held = [])
    (hhand : s.inHand = []) (hret : s.hasReturned = false)
    (hnext : (s.await true next).held = [] ∧ (s.await true next).inHand = []) : (s.await ok next).Framed := by
  cases ok with
  | false => exact hF.returns rfl rfl rfl rfl
  | true =>
    refine hF.move [] ?_ ?_ fun _ => ⟨hret, ?_⟩
    · rw [hnext.2, hhand]
      rfl
    · rw [append_nil]
      rfl
    · rw [hnext.1, hheld, append_nil]
      rfl

theorem framed_step (hF : s.Framed) (hother : ∀ bytes, e ≠ .received bytes) (h : s.step e = some s') : s'.Framed := by
  cases e with
  | deliver chunk =>
    simp only [State.step] at h
    split at h
    · cases h
    · cases h
      exact hF.move chunk rfl rfl fun hret => ⟨hret, (append_assoc ..).symm⟩
  | close =>
    cases h
    exact hF.move [] rfl (append_nil _).symm fun hret => ⟨hret, (append_nil _).symm⟩
  | resolved ok | bound ok | connected ok =>
    simp only [State.step] at h
    split at h
    · next hrelay =>
      cases h
      exact framed_await hF (by simp [State.held, hrelay]) (by simp [State.inHand, hrelay])
        (by simp [State.hasReturned, hrelay]) ⟨rfl, rfl⟩
    · cases h
  | pollLength =>
    grind [framed_pollLength, State.step]
  | pollBody =>
    grind [framed_pollBody, State.step]
  | sent ok | written ok =>
    simp only [State.step] at h
    split at h
    · next datagram hrelay =>
      cases ok with
      | false =>
        cases h
        exact hF.returns rfl rfl rfl rfl
      | true =>
        cases h
        refine hF.move [] (by simp [State.inHand, hrelay, Phase.fresh]) (by simp) fun _ => ?_
        simp_all [State.hasReturned, State.held, Phase.fresh]
    · cases h
  | received bytes => exact absurd rfl (hother bytes)
  | recvError =>
    simp only [State.step] at h
    split at h
    · cases h
      exact hF.returns rfl rfl rfl rfl
    · cases h

/-- **One step.** Nothing is lost exactly when no read is dropped that has taken
    something. -/
theorem framed_step_iff (hF : s.Framed) (h : s.step e = some s') : s'.Framed ↔ Undropped s e := by
  cases e with
  | received bytes =>
    simp only [State.step] at h
    split at h
    · next reading hrelay =>
      cases h
      rw [framed_received hF hrelay]
      show _ ↔ s.held = []
      simp [State.held, hrelay]
    · cases h
  | _ => exact iff_of_true (framed_step hF (by simp) h) trivial

theorem framed_start : State.start.Framed := ⟨[], .nil, nil_prefix, fun _ => rfl⟩

theorem State.Framed.sent_prefix (h : s.Framed) {datagrams : List Bytes} {stream : Bytes}
    (hstream : Frames readDatagram datagrams stream) (hpre : s.delivered <+: stream) : s.sent <+: datagrams :=
  (prefix_append _ _).trans (h.prefix_of_frames runs_readDatagram_ne_nil hstream hpre)

end

end Xhttp.Vless.RelayUdp
