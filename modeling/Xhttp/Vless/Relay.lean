import Xhttp.Lib.Map
import Xhttp.Lib.Reader
import Xhttp.Lib.Run
import Xhttp.Vless.Xudp

/- The XUDP relay of the server (`src/vless.rs`): `relay_xudp` reads frames from one stream and hands each to the task
   of its session, `run_xudp_session` sends the payloads from a socket of its own and returns what the socket
   receives through a queue that all sessions share. The model is one state and one step for every point at which a
   task can be interrupted; the bytes of the stream arrive in any chunks, and every answer of the network and of the
   resolver is an event.

   When a branch of `select!` completes, the futures of the other branches are dropped with what they hold. `recv`
   of a channel and of a socket hold nothing; a frame that is half read holds the bytes it has taken. An event that
   cannot happen in a state is refused: a `send` into a full queue waits. -/
namespace Xhttp.Vless.Relay
open Xhttp.Lib List

/-! ## Reading a frame, bit by bit -/

def destinationReader (headerLength : Nat) : Reader Failure (Option Destination) :=
  if 4 < headerLength then do
    let remaining ← Reader.readExact (headerLength - 4)
    Reader.bailIf (remaining.head? ≠ some 2) (.message "XUDP frame is not UDP")
    let address ← Reader.lift (Checked.sliceFrom remaining 1)
    let destination ← Reader.lift (parseDestinationBytes address)
    pure (some destination)
  else pure none

def payloadReader (option : UInt8) : Reader Failure (Option Bytes) :=
  if option &&& 1 ≠ 0 then do
    let length ← Reader.readU16
    let payload ← Reader.readExact length.toNat
    pure (some payload)
  else pure none

/-- `read_xudp_frame`, with an await at every read. -/
def frameReader : Reader Failure XudpFrame := do
  let headerLength ← Reader.readU16
  Reader.bailIf (headerLength.toNat < 4) (.message "invalid XUDP frame length")
  let session ← Reader.readU16
  let status ← Reader.readU8
  let option ← Reader.readU8
  let destination ← destinationReader headerLength.toNat
  let payload ← payloadReader option
  Reader.bailIf (option &&& 2 ≠ 0) (.message "remote XUDP session reported an error")
  pure { session, status, destination, payload }

theorem frameReader_toIo : frameReader.toIo = readXudpFrame := by
  have hdestination : ∀ n, (destinationReader n).toIo = readFrameDestination n := by
    intro n
    unfold destinationReader readFrameDestination
    split
    · simp only [Reader.toIo_bind, Reader.toIo_readExact, Reader.toIo_bailIf]
      rfl
    · rfl
  have hpayload : ∀ o, (payloadReader o).toIo = readFramePayload o := by
    intro o
    unfold payloadReader readFramePayload
    split
    · simp only [Reader.toIo_bind, Reader.toIo_readExact, Reader.toIo_readU16]
      rfl
    · rfl
  unfold frameReader readXudpFrame
  simp only [Reader.toIo_bind, Reader.toIo_readU16, Reader.toIo_readU8, Reader.toIo_bailIf, hdestination, hpayload]
  rfl

/-! ## Session tasks -/

structure SocketAddr where
  ip : IpAddr
  port : UInt16
  deriving DecidableEq, Repr

/-- A datagram on its way back: `(session, Destination::Ip(..), payload)`. -/
structure Response where
  session : UInt16
  source : SocketAddr
  payload : Bytes
  /-- The buffer of `recv_from` has `u16::MAX` bytes. -/
  small : payload.length ≤ 65535
  /-- Which task's socket received it. Only recorded. -/
  task : Nat

inductive TaskPhase where
  /-- Waiting for a frame, a datagram or the end of `idle_timeout`. -/
  | select
  /-- `resolve_destination(&destination).await`, with a payload to send. -/
  | resolve (payload : Bytes)
  /-- `socket.send_to(&payload, target).await`. -/
  | sendTo (payload : Bytes) (target : SocketAddr)
  /-- `responses.send(..).await`. -/
  | respond (response : Response)
  /-- Returned: the receiver of its queue is dropped. -/
  | ended

/-- A `run_xudp_session` with its queue, `mpsc::channel(32)`. `received` and `sent`
    only record the frames it took from the queue and the datagrams it sent. -/
structure Task where
  session : UInt16
  queue : List XudpFrame
  destination : Destination
  cachedTarget : Option SocketAddr
  phase : TaskPhase
  received : List XudpFrame
  sent : List (Bytes × SocketAddr)

def Task.alive (t : Task) : Bool :=
  match t.phase with
  | .ended => false
  | _ => true

inductive TaskEvent where
  /-- `frames.recv()` completes. -/
  | recv
  /-- `socket.recv_from` completes. -/
  | datagram (source : SocketAddr) (bytes : Bytes)
  | recvError
  | idle
  /-- The lookup ends, with a first address or without. -/
  | resolved (target : Option SocketAddr)
  | sentTo (ok : Bool)
  /-- `responses.send` completes. -/
  | responded

/-- What a task can see of the rest. -/
structure View where
  /-- A sender of its queue still exists. -/
  hasSender : Bool
  /-- `relay_xudp` has returned and dropped the receiver of the responses. -/
  relayGone : Bool
  /-- There is room in the queue of responses. -/
  room : Bool

/-- The body of the loop for a frame, up to the next await. -/
def Task.handle (t : Task) (frame : XudpFrame) : Task :=
  let t := { t with received := t.received ++ [frame] }
  let t := match frame.destination with
    | some value => { t with destination := value, cachedTarget := none }
    | none => t
  match frame.payload with
  | none => t
  | some payload =>
    match t.cachedTarget with
    | none => { t with phase := .resolve payload }
    | some target => { t with phase := .sendTo payload target }

/-- What task number `n` makes of a datagram; a longer one is cut off at the end of the
    buffer. -/
def Task.response (n : Nat) (t : Task) (source : SocketAddr) (bytes : Bytes) : Response :=
  { session := t.session, source, payload := bytes.take 65535, small := length_take_le _ _,
    task := n }

/-- One step of task number `n`: the task afterwards, and what it put into the queue of
    responses. -/
def Task.step (n : Nat) (view : View) (t : Task) : TaskEvent → Option (Task × List Response)
  | .recv =>
    match t.phase with
    | .select =>
      match t.queue with
      | frame :: rest => some (({ t with queue := rest } : Task).handle frame, [])
      | [] => if view.hasSender then none else some ({ t with phase := .ended }, [])
    | _ => none
  | .datagram source bytes =>
    match t.phase with
    | .select =>
      some ({ t with phase := .respond (t.response n source bytes) }, [])
    | _ => none
  | .recvError =>
    match t.phase with
    | .select => some ({ t with phase := .ended }, [])
    | _ => none
  | .idle =>
    match t.phase with
    | .select => if t.queue = [] then some ({ t with phase := .ended }, []) else none
    | _ => none
  | .resolved target =>
    match t.phase with
    | .resolve payload =>
      match target with
      | some target =>
        some ({ t with cachedTarget := some target, phase := .sendTo payload target }, [])
      | none => some ({ t with phase := .ended }, [])
    | _ => none
  | .sentTo ok =>
    match t.phase with
    | .sendTo payload target =>
      if ok then some ({ t with phase := .select, sent := t.sent ++ [(payload, target)] }, [])
      else some ({ t with phase := .ended }, [])
    | _ => none
  | .responded =>
    match t.phase with
    | .respond response =>
      if view.relayGone then some ({ t with phase := .ended }, [])
      else if view.room then some ({ t with phase := .select }, [response])
      else none
    | _ => none

/-! ## The relay -/

inductive Ending where
  /-- `read_xudp_frame` failed. -/
  | frame (fault : Fault Failure)
  /-- `write_xudp_frame` failed: the stream does not take the bytes. -/
  | write
  /-- `write_xudp_frame` failed: the frame cannot be encoded. -/
  | encode (fault : Fault Failure)
  /-- "duplicate XUDP session" -/
  | duplicate (session : UInt16)
  /-- "too many XUDP sessions" -/
  | tooMany
  /-- "XUDP new frame has no destination" -/
  | noDestination
  /-- `resolve_destination` failed. -/
  | unresolved
  /-- `UdpSocket::bind` failed. -/
  | unbound
  /-- "start XUDP session" -/
  | notStarted
  /-- "XUDP continuation references unknown session" -/
  | unknownContinuation (session : UInt16)
  /-- "continue XUDP session" -/
  | notContinued
  /-- "XUDP close references unknown session" -/
  | unknownClose (session : UInt16)
  /-- "invalid XUDP frame status" -/
  | invalidStatus (status : UInt8)
  deriving DecidableEq

inductive Phase where
  /-- Both branches of `select!` pending. -/
  | select (reading : Reading frameReader)
  /-- `resolve_destination(&destination).await`. -/
  | resolve (frame : XudpFrame) (destination : Destination)
  /-- `UdpSocket::bind(..).await`. -/
  | bind (frame : XudpFrame) (destination : Destination)
  /-- `sender.send(frame).await` to task number `task`, for a new session or an old
      one. -/
  | send (frame : XudpFrame) (task : Nat) (opening : Bool)
  /-- `write_xudp_frame(..).await`. -/
  | write (response : Response)
  | returned (ending : Ending)

/-- A new pass of the loop: `read_xudp_frame(stream)` from its start. -/
def Phase.fresh : Phase := .select ⟨[], rfl⟩

/-- The relay, its stream, its tasks and its queues. Session tasks are numbered in the
    order they were spawned; `sessions` leads from an id to the task at the other end
    of its sender. The last four fields only record what happened. -/
structure State where
  arrived : Bytes
  closed : Bool
  output : Bytes
  relay : Phase
  sessions : AList (fun _ : UInt16 => Nat)
  tasks : List Task
  responses : List Response
  delivered : Bytes
  acted : List XudpFrame
  /-- The ids the client has opened and not closed since. -/
  openIds : List UInt16
  /-- The responses written, each with the number of tasks spawned by then. -/
  written : List (Response × Nat)

def State.start : State :=
  { arrived := [], closed := false, output := [], relay := .fresh, sessions := ∅, tasks := [],
    responses := [], delivered := [], acted := [], openIds := [], written := [] }

/-- `MAX_XUDP_SESSIONS`, also the capacity of the queue of responses. -/
def maxXudpSessions : Nat := 256

/-- The capacity of a session's queue. -/
def queueCapacity : Nat := 32

def State.returns (s : State) (ending : Ending) : State := { s with relay := .returned ending }

def State.taskAlive (s : State) (n : Nat) : Bool := (s.tasks[n]?.map Task.alive).getD false

/-- `sessions.retain(|_, sender| !sender.is_closed())`. -/
def State.liveSessions (s : State) : AList (fun _ : UInt16 => Nat) :=
  Map.retain (fun _ n => s.taskAlive n) s.sessions

/-- A frame is complete, and the table is rid of tasks that have returned. -/
def State.takeUp (s : State) (frame : XudpFrame) : State :=
  { s with sessions := s.liveSessions, acted := s.acted ++ [frame] }

/-- Everything from a complete frame to the next await. -/
def State.actOn (s : State) (frame : XudpFrame) : State :=
  let s := s.takeUp frame
  match frame.status with
  | 1 =>
    if frame.session ∈ s.sessions then s.returns (.duplicate frame.session)
    else if maxXudpSessions ≤ Map.size s.sessions then s.returns .tooMany
    else match frame.destination with
      | none => s.returns .noDestination
      | some destination => { s with relay := .resolve frame destination }
  | 2 | 4 =>
    match s.sessions.lookup frame.session with
    | none => s.returns (.unknownContinuation frame.session)
    | some n => { s with relay := .send frame n false }
  | 3 =>
    if frame.session ∈ s.sessions then
      { s with sessions := s.sessions.erase frame.session,
               openIds := s.openIds.erase frame.session, relay := .fresh }
    else s.returns (.unknownClose frame.session)
  | status => s.returns (.invalidStatus status)

/-- The socket is bound: the channel, the entry of the table and the task. -/
def State.spawn (s : State) (frame : XudpFrame) (destination : Destination) : State :=
  { s with
    sessions := s.sessions.insert frame.session s.tasks.length
    tasks := s.tasks ++ [{ session := frame.session, queue := [], destination, cachedTarget := none,
                           phase := .select, received := [], sent := [] }]
    openIds := s.openIds.insert frame.session
    relay := .send frame s.tasks.length true }

/-- What `write_xudp_frame` is called with for a response. -/
def Response.outgoing (r : Response) : Outgoing :=
  { session := r.session, status := 2, destination := .ip r.source.ip r.source.port,
    payload := r.payload, fits := trivial, small := r.small }

def State.hasReturned (s : State) : Bool :=
  match s.relay with
  | .returned _ => true
  | _ => false

/-- A sender to task `n` exists: the table's, or the one the relay is sending with. -/
def State.hasSender (s : State) (n : Nat) : Bool :=
  match s.relay with
  | .returned _ => false
  | .send _ m _ => m == n || s.sessions.entries.any (fun e => e.2 == n)
  | _ => s.sessions.entries.any fun e => e.2 == n

def State.view (s : State) (n : Nat) : View :=
  { hasSender := s.hasSender n, relayGone := s.hasReturned,
    room := decide (s.responses.length < maxXudpSessions) }

inductive Event where
  | deliver (chunk : Bytes)
  | close
  | pollFrame
  /-- `response_receiver.recv()` completes: the read is dropped. -/
  | takeResponse
  | resolved (target : Option SocketAddr)
  | bound (ok : Bool)
  /-- `sender.send(frame)` completes. -/
  | sent
  | written (ok : Bool)
  | task (n : Nat) (event : TaskEvent)

def State.step (s : State) : Event → Option State
  | .deliver chunk =>
    if s.closed then none
    else some { s with arrived := s.arrived ++ chunk, delivered := s.delivered ++ chunk }
  | .close => some { s with closed := true }
  | .pollFrame =>
    match s.relay with
    | .select reading =>
      match reading.poll s.arrived with
      | .ready (.ok frame) rest => some (({ s with arrived := rest } : State).actOn frame)
      | .ready (.error e) rest => some (({ s with arrived := rest } : State).returns (.frame (.bail e)))
      | .pending reading' =>
        if s.closed then some (({ s with arrived := [] } : State).returns (.frame .eof))
        else some { s with arrived := [], relay := .select reading' }
    | _ => none
  | .takeResponse =>
    match s.relay, s.responses with
    | .select _, response :: rest => some { s with responses := rest, relay := .write response }
    | _, _ => none
  | .resolved target =>
    match s.relay with
    | .resolve frame destination =>
      if target.isSome then some { s with relay := .bind frame destination }
      else some (s.returns .unresolved)
    | _ => none
  | .bound ok =>
    match s.relay with
    | .bind frame destination =>
      if ok then some (s.spawn frame destination) else some (s.returns .unbound)
    | _ => none
  | .sent =>
    match s.relay with
    | .send frame n opening =>
      match s.tasks[n]? with
      | none => none
      | some t =>
        if t.alive = false then some (s.returns (if opening then .notStarted else .notContinued))
        else if t.queue.length < queueCapacity then
          some { s with tasks := s.tasks.set n { t with queue := t.queue ++ [frame] }, relay := .fresh }
        else none
    | _ => none
  | .written ok =>
    match s.relay with
    | .write response =>
      if ok then
        match response.outgoing.write ⟨[], s.output⟩ with
        | (.ok _, stream) =>
          some { s with output := stream.output, relay := .fresh,
                        written := s.written ++ [(response, s.tasks.length)] }
        | (.error e, _) => some (s.returns (.encode e))
      else some (s.returns .write)
    | _ => none
  | .task n event =>
    match s.tasks[n]? with
    | none => none
    | some t => (t.step n (s.view n) event).map fun r =>
        { s with tasks := s.tasks.set n r.1, responses := s.responses ++ r.2 }

/-- The frame the relay acts on if it polls its read now. -/
def State.nextFrame (s : State) : Option XudpFrame :=
  match s.relay with
  | .select reading =>
    match reading.poll s.arrived with
    | .ready (.ok frame) _ => some frame
    | _ => none
  | _ => none

/-! ## What a step can do -/

/-- A task that has not returned takes a frame out of its queue or leaves the queue
    alone, puts at most the response it holds into the queue of responses, and comes to
    hold a response by a datagram its own socket received. -/
structure Task.Steps (n : Nat) (view : View) (t t' : Task) (out : List Response) : Prop where
  alive : t.alive = true
  session : t'.session = t.session
  queue : t'.queue <:+ t.queue
  out : out = [] ∨ ∃ r, t.phase = .respond r ∧ out = [r] ∧ view.relayGone = false
  respond : ∀ r, t'.phase = .respond r → ∃ source bytes, r = t.response n source bytes

theorem Task.handle_session (t : Task) (frame : XudpFrame) : (t.handle frame).session = t.session := by
  grind [Task.handle]

theorem Task.handle_queue (t : Task) (frame : XudpFrame) : (t.handle frame).queue = t.queue := by
  grind [Task.handle]

theorem Task.handle_phase (t : Task) (frame : XudpFrame) :
    (t.handle frame).phase = t.phase ∨ (∃ p, (t.handle frame).phase = .resolve p) ∨
      ∃ p target, (t.handle frame).phase = .sendTo p target := by
  grind [Task.handle]

variable {t : Task} {n : Nat} {out : List Response} {event : TaskEvent}

theorem Task.alive_of_phase (h : t.phase ≠ .ended) : t.alive = true := by
  unfold Task.alive
  split
  · next he => exact absurd he h
  · rfl

theorem Task.Steps.silent {view : View} {t' : Task} (hphase : t.phase ≠ .ended)
    (hsession : t'.session = t.session) (hqueue : t'.queue <:+ t.queue)
    (hrespond : ∀ r, t'.phase ≠ .respond r) : Task.Steps n view t t' [] :=
  ⟨Task.alive_of_phase hphase, hsession, hqueue, Or.inl rfl, fun r h => absurd h (hrespond r)⟩

theorem Task.steps_of_step {view : View} {t' : Task} (h : t.step n view event = some (t', out)) :
    t.Steps n view t' out := by
  cases event with
  | recv =>
    simp only [Task.step] at h
    split at h
    · next hphase =>
      split at h
      · next frame rest hq =>
        cases h
        refine .silent (by simp [hphase]) ?_ ?_ ?_
        · rw [Task.handle_session]
        · rw [Task.handle_queue, hq]
          exact suffix_cons frame rest
        · intro r hr
          rcases Task.handle_phase { t with queue := rest } frame with h | ⟨p, h⟩ | ⟨p, target, h⟩
          · rw [h, hphase] at hr
            cases hr
          · rw [h] at hr
            cases hr
          · rw [h] at hr
            cases hr
      · split at h
        · cases h
        · cases h
          exact .silent (by simp [hphase]) rfl suffix_rfl nofun
    · cases h
  | datagram source bytes =>
    simp only [Task.step] at h
    split at h
    · next hphase =>
      cases h
      refine ⟨Task.alive_of_phase (by simp [hphase]), rfl, suffix_rfl, Or.inl rfl, ?_⟩
      intro r hr
      cases hr
      exact ⟨source, bytes, rfl⟩
    · cases h
  | recvError =>
    simp only [Task.step] at h
    split at h
    · next hphase =>
      cases h
      exact .silent (by simp [hphase]) rfl suffix_rfl nofun
    · cases h
  | idle =>
    simp only [Task.step] at h
    split at h
    · next hphase =>
      split at h
      · cases h
        exact .silent (by simp [hphase]) rfl suffix_rfl nofun
      · cases h
    · cases h
  | resolved target =>
    simp only [Task.step] at h
    split at h
    · next payload hphase =>
      cases target <;> cases h <;> exact .silent (by simp [hphase]) rfl suffix_rfl nofun
    · cases h
  | sentTo ok =>
    simp only [Task.step] at h
    split at h
    · next payload target hphase =>
      cases ok <;> cases h <;> exact .silent (by simp [hphase]) rfl suffix_rfl nofun
    · cases h
  | responded =>
    simp only [Task.step] at h
    split at h
    · next response hphase =>
      split at h
      · cases h
        exact .silent (by simp [hphase]) rfl suffix_rfl nofun
      · next hgone =>
        split at h
        · cases h
          exact ⟨Task.alive_of_phase (by simp [hphase]), rfl, suffix_rfl,
            Or.inr ⟨response, hphase, rfl, by simpa using hgone⟩, nofun⟩
        · cases h
    · cases h

/-- The outcomes of one step, one constructor each: every fact about steps is a case
    analysis of this relation. -/
inductive Steps (s : State) : Event → State → Prop where
  | delivered {chunk} :
      Steps s (.deliver chunk)
        { s with arrived := s.arrived ++ chunk, delivered := s.delivered ++ chunk }
  | closed : Steps s .close { s with closed := true }
  | waits {reading reading'} (hrelay : s.relay = .select reading)
      (hpoll : reading.poll s.arrived = .pending reading') :
      Steps s .pollFrame { s with arrived := [], relay := .select reading' }
  | eof {reading reading'} (hrelay : s.relay = .select reading)
      (hpoll : reading.poll s.arrived = .pending reading') :
      Steps s .pollFrame (({ s with arrived := [] } : State).returns (.frame .eof))
  | malformed {reading e rest} (hrelay : s.relay = .select reading)
      (hpoll : reading.poll s.arrived = .ready (.error e) rest) :
      Steps s .pollFrame (({ s with arrived := rest } : State).returns (.frame (.bail e)))
  | frame {reading frame rest} (hrelay : s.relay = .select reading)
      (hpoll : reading.poll s.arrived = .ready (.ok frame) rest) :
      Steps s .pollFrame (({ s with arrived := rest } : State).actOn frame)
  | response {reading response rest} (hrelay : s.relay = .select reading)
      (hqueue : s.responses = response :: rest) :
      Steps s .takeResponse { s with responses := rest, relay := .write response }
  | resolved {frame destination target} (hrelay : s.relay = .resolve frame destination) :
      Steps s (.resolved (some target)) { s with relay := .bind frame destination }
  | unresolved {frame destination} (hrelay : s.relay = .resolve frame destination) :
      Steps s (.resolved none) (s.returns .unresolved)
  | bound {frame destination} (hrelay : s.relay = .bind frame destination) :
      Steps s (.bound true) (s.spawn frame destination)
  | unbound {frame destination} (hrelay : s.relay = .bind frame destination) :
      Steps s (.bound false) (s.returns .unbound)
  | queued {frame n opening t} (hrelay : s.relay = .send frame n opening) (ht : s.tasks[n]? = some t)
      (halive : t.alive = true) (hroom : t.queue.length < queueCapacity) :
      Steps s .sent
        { s with tasks := s.tasks.set n { t with queue := t.queue ++ [frame] }, relay := .fresh }
  | dropped {frame n opening t} (hrelay : s.relay = .send frame n opening)
      (ht : s.tasks[n]? = some t) (hdead : t.alive = false) :
      Steps s .sent (s.returns (if opening then .notStarted else .notContinued))
  | written {response} (hrelay : s.relay = .write response) :
      Steps s (.written true)
        { s with output := s.output ++ response.outgoing.layout, relay := .fresh,
                 written := s.written ++ [(response, s.tasks.length)] }
  | lost {response} (hrelay : s.relay = .write response) :
      Steps s (.written false) (s.returns .write)
  | task {n event t t' out} (ht : s.tasks[n]? = some t)
      (hstep : t.step n (s.view n) event = some (t', out)) :
      Steps s (.task n event) { s with tasks := s.tasks.set n t', responses := s.responses ++ out }

theorem steps_of_step {s s' : State} {e : Event} (h : s.step e = some s') : Steps s e s' := by
  cases e with
  | deliver chunk =>
    simp only [State.step] at h
    split at h
    · cases h
    · cases h; exact .delivered
  | close => cases h; exact .closed
  | pollFrame =>
    simp only [State.step] at h
    split at h
    · next reading hrelay =>
      split at h
      · next hpoll => cases h; exact .frame hrelay hpoll
      · next hpoll => cases h; exact .malformed hrelay hpoll
      · next hpoll =>
        split at h
        · cases h; exact .eof hrelay hpoll
        · cases h; exact .waits hrelay hpoll
    · cases h
  | takeResponse =>
    simp only [State.step] at h
    split at h
    · next hrelay hqueue => cases h; exact .response hrelay hqueue
    · cases h
  | resolved target =>
    simp only [State.step] at h
    split at h
    · next hrelay =>
      cases target with
      | none => cases h; exact .unresolved hrelay
      | some target => cases h; exact .resolved hrelay
    · cases h
  | bound ok =>
    simp only [State.step] at h
    split at h
    · next hrelay =>
      cases ok with
      | false => cases h; exact .unbound hrelay
      | true => cases h; exact .bound hrelay
    · cases h
  | sent =>
    simp only [State.step] at h
    split at h
    · next hrelay =>
      split at h
      · cases h
      · next t ht =>
        split at h
        · next hdead => cases h; exact .dropped hrelay ht hdead
        · next halive =>
          split at h
          · next hroom => cases h; exact .queued hrelay ht (by simpa using halive) hroom
          · cases h
    · cases h
  | written ok =>
    simp only [State.step] at h
    split at h
    · next response hrelay =>
      cases ok with
      | false => cases h; exact .lost hrelay
      | true =>
        -- what a task returns can always be encoded
        have hw := writeXudpFrame_runs response.outgoing [] s.output
        rw [append_nil] at hw
        simp only [if_true, hw] at h
        cases h
        exact .written hrelay
    · cases h
  | task n event =>
    simp only [State.step] at h
    split at h
    · cases h
    · next t ht =>
      obtain ⟨⟨t', out⟩, hstep, rfl⟩ := Option.map_eq_some_iff.mp h
      exact .task ht hstep

inductive ActsOn (s : State) (frame : XudpFrame) : State → Prop where
  | duplicate (hstatus : frame.status = 1) (hin : frame.session ∈ s.liveSessions) :
      ActsOn s frame ((s.takeUp frame).returns (.duplicate frame.session))
  | tooMany (hstatus : frame.status = 1) (hfull : maxXudpSessions ≤ Map.size s.liveSessions) :
      ActsOn s frame ((s.takeUp frame).returns .tooMany)
  | noDestination (hstatus : frame.status = 1) (hnew : frame.session ∉ s.liveSessions)
      (hroom : Map.size s.liveSessions < maxXudpSessions) :
      ActsOn s frame ((s.takeUp frame).returns .noDestination)
  | opens {destination} (hstatus : frame.status = 1) (hnew : frame.session ∉ s.liveSessions)
      (hroom : Map.size s.liveSessions < maxXudpSessions) :
      ActsOn s frame { s.takeUp frame with relay := .resolve frame destination }
  | unknownContinuation (hstatus : frame.status = 2 ∨ frame.status = 4)
      (hout : frame.session ∉ s.liveSessions) :
      ActsOn s frame ((s.takeUp frame).returns (.unknownContinuation frame.session))
  | continues {n : Nat} (hstatus : frame.status = 2 ∨ frame.status = 4)
      (hlookup : s.liveSessions.lookup frame.session = some n) :
      ActsOn s frame { s.takeUp frame with relay := .send frame n false }
  | closes (hstatus : frame.status = 3) (hin : frame.session ∈ s.liveSessions) :
      ActsOn s frame
        { s.takeUp frame with sessions := s.liveSessions.erase frame.session,
                              openIds := s.openIds.erase frame.session, relay := .fresh }
  | unknownClose (hstatus : frame.status = 3) (hout : frame.session ∉ s.liveSessions) :
      ActsOn s frame ((s.takeUp frame).returns (.unknownClose frame.session))
  | invalidStatus (hstatus : ∀ status ∈ [1, 2, 3, 4], frame.status ≠ status) :
      ActsOn s frame ((s.takeUp frame).returns (.invalidStatus frame.status))

theorem actsOn_actOn (s : State) (frame : XudpFrame) : ActsOn s frame (s.actOn frame) := by
  unfold State.actOn
  simp only
  split
  · next hstatus =>
    split
    · next hin => exact .duplicate hstatus hin
    · next hnew =>
      split
      · next hfull => exact .tooMany hstatus hfull
      · next hroom =>
        split
        · exact .noDestination hstatus hnew (Nat.lt_of_not_le hroom)
        · exact .opens hstatus hnew (Nat.lt_of_not_le hroom)
  · next hstatus =>
    split
    · next hnone => exact .unknownContinuation (Or.inl hstatus) (AList.lookup_eq_none.mp hnone)
    · next hsome => exact .continues (Or.inl hstatus) hsome
  · next hstatus =>
    split
    · next hnone => exact .unknownContinuation (Or.inr hstatus) (AList.lookup_eq_none.mp hnone)
    · next hsome => exact .continues (Or.inr hstatus) hsome
  · next hstatus =>
    split
    · next hin => exact .closes hstatus hin
    · next hout => exact .unknownClose hstatus hout
  · next h₁ h₂ h₄ h₃ => exact .invalidStatus (by simpa using ⟨h₁, h₂, h₃, h₄⟩)

section
variable {s : State}

theorem nextFrame_eq {reading : Reading frameReader} {frame : XudpFrame} {rest : Bytes}
    (hrelay : s.relay = .select reading) (hpoll : reading.poll s.arrived = .ready (.ok frame) rest) :
    s.nextFrame = some frame := by
  simp [State.nextFrame, hrelay, hpoll]

theorem step_task {t' : Task} (ht : s.tasks[n]? = some t) (hstep : t.step n (s.view n) event = some (t', out)) :
    s.step (.task n event) = some { s with tasks := s.tasks.set n t', responses := s.responses ++ out } := by
  simp [State.step, ht, hstep]

theorem step_sent {frame : XudpFrame} {opening : Bool}
    (hrelay : s.relay = .send frame n opening) (ht : s.tasks[n]? = some t) (halive : t.alive = true)
    (hroom : t.queue.length < queueCapacity) : s.step .sent =
      some { s with tasks := s.tasks.set n { t with queue := t.queue ++ [frame] }, relay := .fresh } := by
  simp [State.step, hrelay, ht, halive, hroom]

/-- A step of task number `n` that is possible whatever the relay does and puts nothing
    into the queue of responses. -/
def Task.Drives (n : Nat) (t t' : Task) : Prop :=
  ∃ event, ∀ view, t.step n view event = some (t', [])

/-- A task that has not returned can be brought to hold a response: its lookup and its
    send come to an end, and a datagram arrives. -/
theorem Task.exists_respond (n : Nat) (halive : t.alive = true) :
    ∃ t' r, Relation.ReflTransGen (Task.Drives n) t t' ∧ t'.phase = .respond r ∧
      t'.queue = t.queue ∧ t'.session = t.session ∧
      (t.phase = .respond r ∨ ∃ source bytes, r = t.response n source bytes) := by
  have source : SocketAddr := ⟨.v4 #v[0, 0, 0, 0], 0⟩
  have hselect : ∀ {t : Task}, t.phase = .select → Task.Drives n t
      { t with phase := .respond (t.response n source []) } := fun {t} hphase =>
    ⟨.datagram source [], fun view => by simp [Task.step, hphase]⟩
  have hsendTo : ∀ {t : Task} {payload target}, t.phase = .sendTo payload target → Task.Drives n t
      { t with phase := .select, sent := t.sent ++ [(payload, target)] } := fun {t} _ _ hphase =>
    ⟨.sentTo true, fun view => by simp [Task.step, hphase]⟩
  have hresolve : ∀ {t : Task} {payload}, t.phase = .resolve payload → Task.Drives n t
      { t with cachedTarget := some source, phase := .sendTo payload source } := fun {t} _ hphase =>
    ⟨.resolved (some source), fun view => by simp [Task.step, hphase]⟩
  cases hphase : t.phase with
  | select =>
    exact ⟨_, _, .single (hselect hphase), rfl, rfl, rfl, Or.inr ⟨source, [], rfl⟩⟩
  | sendTo payload target =>
    exact ⟨_, _, .head (hsendTo hphase) (.single (hselect rfl)), rfl, rfl, rfl, Or.inr ⟨source, [], rfl⟩⟩
  | resolve payload =>
    exact ⟨_, _, .head (hresolve hphase) (.head (hsendTo rfl) (.single (hselect rfl))), rfl, rfl, rfl,
      Or.inr ⟨source, [], rfl⟩⟩
  | respond r => exact ⟨t, r, .refl, hphase, rfl, rfl, Or.inl rfl⟩
  | ended => simp [Task.alive, hphase] at halive

theorem reaches_of_drives {t' : Task} (hdrives : Relation.ReflTransGen (Task.Drives n) t t')
    (ht : s.tasks[n]? = some t) : Reaches State.step s { s with tasks := s.tasks.set n t' } := by
  induction hdrives with
  | refl =>
    obtain ⟨hlen, rfl⟩ := List.getElem?_eq_some_iff.mp ht
    rw [List.set_getElem_self]
    exact .refl s
  | @tail t₁ t₂ _ hlast ih =>
    obtain ⟨event, hevent⟩ := hlast
    have hlen := (List.getElem?_eq_some_iff.mp ht).1
    refine ih.trans (.single (e := .task n event) ?_)
    rw [step_task (getElem?_set_self hlen) (hevent _)]
    simp

theorem lookup_liveSessions {id : UInt16} (h : s.liveSessions.lookup id = some n) :
    s.sessions.lookup id = some n ∧ s.taskAlive n = true :=
  Map.lookup_retain_eq_some.mp h

end

end Xhttp.Vless.Relay
