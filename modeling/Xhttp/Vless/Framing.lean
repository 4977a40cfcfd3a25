import Xhttp.Vless.Relay
import Xhttp.Vless.RelayUdp

/- Which frames the server's UDP relays act on (`relay_xudp`, `relay_udp` in
   `src/vless.rs`). Both read inside `select!`, next to a branch that becomes ready
   with a response; a read dropped there takes the bytes it holds with it, and what
   follows is parsed from the middle of a frame (`response_splits_frame`). -/
namespace Xhttp.Vless.Relay
open Xhttp.Lib List

def State.held (s : State) : Bytes :=
  match s.relay with
  | .select reading => reading.taken
  | _ => []

/-- The frames acted on are the first ones of the stream, and until the relay returns
    every byte that arrived belongs to one of them, is held by the read or is still
    there. -/
def State.Framed (s : State) : Prop :=
  Framing readXudpFrame s.acted s.hasReturned s.held s.arrived s.delivered

/-- A response is taken only while the read of the next frame has taken nothing. -/
def Undropped (s : State) : Event → Prop
  | .takeResponse => s.held = []
  | _ => True

instance (s : State) : ∀ e, Decidable (Undropped s e)
  | .takeResponse => inferInstanceAs (Decidable (s.held = []))
  | .deliver _ | .close | .pollFrame | .resolved _ | .bound _ | .sent | .written _ | .task _ _ =>
    isTrue trivial

theorem runs_readXudpFrame_ne_nil (b : Bytes) (f : XudpFrame) (h : Runs readXudpFrame b f []) : b ≠ [] := by
  rintro rfl
  cases h [] []

section
variable {s s' : State}

theorem State.Framed.returns (h : s.Framed) (ending : Ending) (arrived : Bytes) :
    State.Framed (({ s with arrived } : State).returns ending) :=
  h.move [] rfl (append_nil _).symm nofun

theorem State.Framed.aside (h : s.Framed) (hacted : s'.acted = s.acted)
    (hdelivered : s'.delivered = s.delivered) (harrived : s'.arrived = s.arrived)
    (hheld : s'.held = s.held) (hret : s'.hasReturned = false → s.hasReturned = false) : s'.Framed :=
  h.move [] hacted (by rw [hdelivered, append_nil])
    fun hr => ⟨hret hr, by rw [hheld, harrived, append_nil]⟩

theorem actOn_stream (s : State) (frame : XudpFrame) :
    (s.actOn frame).acted = s.acted ++ [frame] ∧ (s.actOn frame).delivered = s.delivered ∧
      (s.actOn frame).arrived = s.arrived ∧ (s.actOn frame).held = [] := by
  have h := actsOn_actOn s frame
  generalize s.actOn frame = s' at h
  cases h <;> exact ⟨rfl, rfl, rfl, rfl⟩

variable {reading : Reading frameReader}

theorem framed_frame {frame : XudpFrame} {rest : Bytes} (hF : s.Framed)
    (hrelay : s.relay = .select reading) (hpoll : reading.poll s.arrived = .ready (.ok frame) rest) :
    State.Framed (({ s with arrived := rest } : State).actOn frame) := by
  obtain ⟨consumed, hframes, hpre, hall⟩ := hF
  obtain ⟨hacted, hdelivered, harrived, hheld⟩ := actOn_stream { s with arrived := rest } frame
  -- the bytes of the frame are what the read held and the front of what had arrived
  obtain ⟨cs, hcs, hread⟩ := Reader.feed_exact (Reading.poll_ready hpoll)
  have hrun : Runs readXudpFrame cs frame [] := frameReader_toIo ▸ Reader.runs_of_feed hread
  have hsplit : s.delivered = (consumed ++ cs) ++ rest := by
    rw [hall (by simp [State.hasReturned, hrelay]), append_assoc, ← hcs]
    simp [State.held, hrelay]
  refine ⟨consumed ++ cs, ?_, ?_, fun _ => ?_⟩
  · rw [hacted]
    exact hframes.append_one hrun
  · rw [hdelivered]
    exact ⟨rest, hsplit.symm⟩
  · rw [hdelivered, hheld, harrived]
    exact hsplit

/-- A response is taken: the read is dropped, and what it had taken is lost. -/
theorem framed_response (hF : s.Framed)
    (hrelay : s.relay = .select reading) (response : Response) (rest : List Response) :
    State.Framed { s with responses := rest, relay := .write response } ↔ reading.taken = [] := by
  simp only [State.Framed, State.hasReturned, State.held, hrelay] at hF
  exact hF.drop_iff runs_readXudpFrame_ne_nil

/-- **One step.** Nothing is lost exactly when no read is dropped that has taken
    something. -/
theorem framed_step_iff {e : Event} (hF : s.Framed) (h : s.step e = some s') : s'.Framed ↔ Undropped s e := by
  cases steps_of_step h with
  | response hrelay hqueue =>
    rw [framed_response hF hrelay]
    show _ ↔ s.held = []
    simp [State.held, hrelay]
  | delivered =>
    refine iff_of_true ?_ trivial
    exact hF.move _ rfl rfl fun hret => ⟨hret, (append_assoc ..).symm⟩
  | closed | task ht hstep => exact iff_of_true (hF.aside rfl rfl rfl rfl id) trivial
  | waits hrelay hpoll =>
    refine iff_of_true (hF.move [] rfl (append_nil _).symm fun _ => ?_) trivial
    grind [State.hasReturned, State.held, Reading.poll_pending]
  | eof hrelay hpoll | malformed hrelay hpoll => exact iff_of_true (hF.returns _ _) trivial
  | frame hrelay hpoll => exact iff_of_true (framed_frame hF hrelay hpoll) trivial
  | unresolved hrelay | unbound hrelay | dropped hrelay ht hdead | lost hrelay =>
    exact iff_of_true (hF.returns _ s.arrived) trivial
  | resolved hrelay | bound hrelay | queued hrelay ht halive hroom | written hrelay =>
    refine iff_of_true (hF.aside rfl rfl rfl ?_ fun _ => ?_) trivial
    · simp [State.held, hrelay, State.spawn, Phase.fresh]
    · simp [State.hasReturned, hrelay]

theorem framed_start : State.start.Framed := ⟨[], .nil, nil_prefix, fun _ => rfl⟩

end

end Xhttp.Vless.Relay

namespace Xhttp.Vless
open Xhttp.Lib

/-- **Framing and scheduling.** In every run of `relay_xudp` in which no response is taken
    while a frame is half read, all bytes are accounted for and the frames acted on are
    the first frames of the stream, however it was delivered; a response taken while a
    frame is half read loses the bytes read of it. The same holds of the datagrams
    `relay_udp` sends. -/
theorem frames_independent_of_schedule (es : List Relay.Event) (s : Relay.State)
    (us : List RelayUdp.Event) (u : RelayUdp.State) :
    (run Relay.State.step .start es = some s →
      Along Relay.State.step Relay.Undropped .start es →
        s.Framed ∧
        (∀ frames stream, Frames readXudpFrame frames stream → s.delivered <+: stream →
          s.acted <+: frames) ∧
        ∀ e s', s.step e = some s' → ¬ Relay.Undropped s e → ¬ s'.Framed) ∧
    (run RelayUdp.State.step .start us = some u →
      Along RelayUdp.State.step RelayUdp.Undropped .start us →
        u.Framed ∧
        (∀ datagrams stream, Frames RelayUdp.readDatagram datagrams stream → u.delivered <+: stream →
          u.sent <+: datagrams) ∧
        ∀ e u', u.step e = some u' → ¬ RelayUdp.Undropped u e → ¬ u'.Framed) := by
  constructor
  · intro hrun hall
    have hF : s.Framed := run_inv_along Relay.State.Framed Relay.Undropped
      (fun s e s' hund hF h => (Relay.framed_step_iff hF h).mpr hund) es hall Relay.framed_start hrun
    refine ⟨hF, fun _ _ => hF.prefix_of_frames Relay.runs_readXudpFrame_ne_nil, ?_⟩
    intro e s' h hdrop hF'
    exact hdrop ((Relay.framed_step_iff hF h).mp hF')
  · intro hrun hall
    have hF : u.Framed := run_inv_along RelayUdp.State.Framed RelayUdp.Undropped
      (fun s e s' hund hF h => (RelayUdp.framed_step_iff hF h).mpr hund) us hall RelayUdp.framed_start hrun
    refine ⟨hF, fun _ _ => hF.sent_prefix, ?_⟩
    intro e u' h hdrop hF'
    exact hdrop ((RelayUdp.framed_step_iff hF h).mp hF')

/-- An echo server, and the frame that opens a session to it. -/
def echo : Relay.SocketAddr := ⟨.v4 #v[192, 0, 2, 7], 7⟩

def openEcho : Outgoing :=
  { session := 1, status := 1, destination := .ip echo.ip echo.port, payload := [7],
    fits := trivial, small := by decide }

def keepEcho : Outgoing := { openEcho with status := 2 }

/-- A continuation whose payload reads like a frame that closes session 9. -/
def nested : Bytes := [0, 4, 0, 1, 2, 1, 0, 6, 0, 4, 0, 9, 3, 0]

/-- The session is opened and its datagram answered; the answer waits in the queue. -/
def answered : List Relay.Event :=
  [.deliver openEcho.layout, .pollFrame, .resolved (some echo), .bound true, .sent,
   .task 0 .recv, .task 0 (.resolved (some echo)), .task 0 (.sentTo true),
   .task 0 (.datagram echo [7]), .task 0 .responded]

theorem frames_nested : Frames readXudpFrame [openEcho.received, ⟨1, 2, none, some [0, 4, 0, 9, 3, 0]⟩]
      (openEcho.layout ++ (nested ++ [])) := by
  refine .cons (readXudpFrame_runs openEcho) (.cons ?_ .nil)
  rw [← Relay.frameReader_toIo]
  exact Reader.runs_of_feed rfl

theorem frames_datagrams :
    Frames RelayUdp.readDatagram [[], [0, 1, 9]] ((beU16 0 ++ []) ++ ((beU16 3 ++ [0, 1, 9]) ++ [])) :=
  .cons (RelayUdp.runs_readDatagram rfl) (.cons (RelayUdp.runs_readDatagram rfl) .nil)

/-- The answer is taken with eight bytes of the second frame read. -/
def splitFrame : List Relay.Event :=
  answered ++ [.deliver (nested.take 8), .pollFrame, .takeResponse, .written true, .deliver (nested.drop 8), .pollFrame]

/-- A datagram of the target is ready after the first length byte, and again after the
    byte that is then taken for one. -/
def splitLengths : List RelayUdp.Event :=
  [.resolved true, .bound true, .connected true, .deliver [0], .pollLength, .received [5], .written true,
   .deliver [0, 0], .pollLength, .pollBody, .sent true,
   .deliver [3], .pollLength, .received [5], .written true,
   .deliver [0, 1, 9], .pollLength, .pollBody, .sent true]

/-- The relays act on a frame and send a datagram that are not in their streams. -/
theorem response_splits_frame :
    (∃ frames stream s, Frames readXudpFrame frames stream ∧
      run Relay.State.step .start splitFrame = some s ∧ s.delivered <+: stream ∧
      ¬ s.acted <+: frames) ∧
    (∃ datagrams stream s, Frames RelayUdp.readDatagram datagrams stream ∧
      run RelayUdp.State.step .start splitLengths = some s ∧ s.delivered <+: stream ∧
      ¬ s.sent <+: datagrams) :=
  ⟨⟨_, _, _, frames_nested, rfl, by decide, by decide⟩, ⟨_, _, _, frames_datagrams, rfl, by decide, by decide⟩⟩

/-- The answer is taken between two frames. -/
def betweenFrames : List Relay.Event :=
  answered ++ [.takeResponse, .written true, .deliver (nested.take 8), .pollFrame, .deliver (nested.drop 8), .pollFrame]

def betweenDatagrams : List RelayUdp.Event :=
  [.resolved true, .bound true, .connected true, .received [5], .written true, .deliver [0, 1],
   .pollLength, .deliver [8], .pollBody, .sent true]

theorem frames_independent_of_schedule_between :
    (∃ s, run Relay.State.step .start betweenFrames = some s ∧
      s.acted = [openEcho.received, ⟨1, 2, none, some [0, 4, 0, 9, 3, 0]⟩] ∧ s.Framed) ∧
    ∃ s, run RelayUdp.State.step .start betweenDatagrams = some s ∧ s.sent = [[8]] ∧ s.Framed :=
  ⟨⟨_, rfl, rfl, ((frames_independent_of_schedule betweenFrames _ [] .start).1 rfl (by decide)).1⟩,
    ⟨_, rfl, rfl, ((frames_independent_of_schedule [] .start betweenDatagrams _).2 rfl (by decide)).1⟩⟩

end Xhttp.Vless
