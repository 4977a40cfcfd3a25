import Xhttp.Vless.Reuse

/- Which task the XUDP relay hands a frame to (`relay_xudp` and `run_xudp_session` in
   `src/vless.rs`). A session is opened by a frame, closed by a frame, may return of
   itself in between, and its id can be opened again while frames of the first session
   still sit in its queue. The frames the relay acted on are recorded in `acted`, those a
   task took from its queue in `received`. -/
namespace Xhttp.Vless.Relay
open Xhttp.Lib List

/-- Status 1: a new session. -/
def opens (frame : XudpFrame) : Bool := frame.status == 1

/-- The frame closes the id or opens it anew. -/
def ends (id : UInt16) (frame : XudpFrame) : Bool :=
  frame.session == id && (frame.status == 1 || frame.status == 3)

/-- Of the frames after a session was opened, those that are its own. -/
def carried (id : UInt16) (later : List XudpFrame) : List XudpFrame :=
  (later.takeWhile fun frame => !ends id frame).filter fun frame => frame.session == id

/-- Frame `first` opened session number `n`, and `later` came after it. -/
def OpenedBy (acted : List XudpFrame) (n : Nat) (first : XudpFrame) (later : List XudpFrame) : Prop :=
  ∃ earlier, acted = earlier ++ first :: later ∧ earlier.countP opens = n ∧ opens first = true

/-- The frame for which a socket is being set up. -/
def State.opening (s : State) : List XudpFrame :=
  match s.relay with
  | .resolve frame _ | .bind frame _ => [frame]
  | _ => []

/-- The frame the relay is sending to task `n`. -/
def State.sending (s : State) (n : Nat) : List XudpFrame :=
  match s.relay with
  | .send frame m _ => if m = n then [frame] else []
  | _ => []

/-- What task number `n` was given, up to the frame under way to it. -/
def State.handed (s : State) (n : Nat) (t : Task) : List XudpFrame :=
  t.received ++ t.queue ++ s.sending n

/-! ## The frames of one session -/

section
variable {id : UInt16} {frame : XudpFrame} {later : List XudpFrame}

theorem session_of_mem_carried (h : frame ∈ carried id later) : frame.session = id := by
  simpa using (mem_filter.mp h).2

theorem carried_isPrefix_concat (id : UInt16) (later : List XudpFrame) (frame : XudpFrame) :
    carried id later <+: carried id (later ++ [frame]) := by
  unfold carried
  rw [takeWhile_append]
  grind

theorem open_concat (hopen : ∀ f ∈ later, ends id f = false) (hgoes : ends id frame = false) :
    ∀ f ∈ later ++ [frame], ends id f = false := by
  grind

theorem carried_eq_filter (hopen : ∀ f ∈ later, ends id f = false) :
    carried id later = later.filter fun frame => frame.session == id := by
  rw [carried, takeWhile_eq_self_iff.mpr]
  simpa using hopen

end

variable {n : Nat}

theorem OpenedBy.concat {acted later : List XudpFrame} {first : XudpFrame}
    (h : OpenedBy acted n first later) (frame : XudpFrame) :
    OpenedBy (acted ++ [frame]) n first (later ++ [frame]) := by
  obtain ⟨earlier, hacted, hcount, hopens⟩ := h
  exact ⟨earlier, by simp [hacted], hcount, hopens⟩

/-! ## The invariant -/

/-- What task number `n` was given is the beginning of its session, and all of it while the
    table leads to the task. -/
def State.Serves (s : State) (n : Nat) (t : Task) : Prop :=
  ∃ first later, OpenedBy s.acted n first later ∧ first.session = t.session ∧
    s.handed n t <+: first :: carried t.session later ∧
    (s.sessions.lookup t.session = some n →
      (∀ f ∈ later, ends t.session f = false) ∧ s.handed n t = first :: carried t.session later)

structure State.Demux (s : State) : Prop where
  size : Map.size s.sessions ≤ maxXudpSessions
  latest : ∀ id n, s.sessions.lookup id = some n → Owns s.ids s.ids.length n id
  numbered : s.acted.countP opens = s.tasks.length + s.opening.length
  /-- A socket is set up for the last frame, whose id is free. -/
  opening : ∀ frame ∈ s.opening, (∃ earlier, s.acted = earlier ++ [frame]) ∧ opens frame = true ∧
    frame.session ∉ s.sessions ∧ Map.size s.sessions < maxXudpSessions
  tasks : ∀ n t, s.tasks[n]? = some t → s.Serves n t

section
variable {s s' : State} {e : Event} {t : Task} {reading : Reading frameReader} {id : UInt16}

/-- A step of a task takes at most the head of its queue, and records it. -/
theorem Task.step_given {view : View} {t' : Task} {event : TaskEvent} {out : List Response}
    (h : t.step n view event = some (t', out)) : t'.received ++ t'.queue = t.received ++ t.queue := by
  cases event with
  | recv =>
    simp only [Task.step] at h
    split at h
    · split at h
      · next frame rest hq =>
        cases h
        have hreceived : (Task.handle { t with queue := rest } frame).received = t.received ++ [frame] := by
          unfold Task.handle
          cases frame.destination <;> cases frame.payload <;> cases t.cachedTarget <;> rfl
        rw [hreceived, Task.handle_queue, hq]
        simp
      · split at h <;> cases h
        rfl
    · cases h
  | datagram source bytes | recvError =>
    simp only [Task.step] at h
    split at h <;> cases h
    rfl
  | idle =>
    grind [Task.step]
  | resolved target =>
    grind [Task.step]
  | sentTo ok =>
    grind [Task.step]
  | responded =>
    grind [Task.step]

/-- A step that acts on no frame and spawns no task: the frames of a task may move from the
    relay into its queue and on to the task. -/
theorem State.Demux.moved (hD : s.Demux) (hacted : s'.acted = s.acted)
    (hsessions : s'.sessions = s.sessions) (hopening : s'.opening = s.opening) (hids : s'.ids = s.ids)
    (htasks : ∀ n t', s'.tasks[n]? = some t' →
      ∃ t, s.tasks[n]? = some t ∧ t'.session = t.session ∧ s'.handed n t' = s.handed n t) : s'.Demux := by
  have hlen : s'.tasks.length = s.tasks.length := by
    simpa [State.ids] using congrArg List.length hids
  constructor
  · rw [hsessions]
    exact hD.size
  · rw [hsessions, hids]
    exact hD.latest
  · rw [hacted, hlen, hopening]
    exact hD.numbered
  · rw [hopening, hacted, hsessions]
    exact hD.opening
  · intro n t' ht'
    obtain ⟨t, ht, hsession, hhanded⟩ := htasks n t' ht'
    unfold State.Serves
    rw [hacted, hsessions, hsession, hhanded]
    exact hD.tasks n t ht

theorem State.Demux.aside (hD : s.Demux) (hacted : s'.acted = s.acted)
    (hsessions : s'.sessions = s.sessions) (htasks : s'.tasks = s.tasks)
    (hopening : s'.opening = s.opening) (hsending : s'.sending = s.sending) : s'.Demux := by
  refine hD.moved hacted hsessions hopening (by rw [State.ids, State.ids, htasks]) fun n t' ht' => ?_
  rw [htasks] at ht'
  exact ⟨t', ht', rfl, by rw [State.handed, State.handed, hsending]⟩

theorem State.Serves.other (hS : s.Serves n t) (frame : XudpFrame)
    (hacted : s'.acted = s.acted ++ [frame]) (hhanded : s'.handed n t = s.handed n t)
    (hlookup : s'.sessions.lookup t.session = some n →
      s.sessions.lookup t.session = some n ∧ frame.session ≠ t.session) : s'.Serves n t := by
  obtain ⟨first, later, hopened, hfirst, hgiven, hentry⟩ := hS
  refine ⟨first, later ++ [frame], ?_, hfirst, ?_, fun h => ?_⟩
  · rw [hacted]
    exact hopened.concat frame
  · rw [hhanded]
    exact hgiven.trans (cons_prefix_cons.mpr ⟨rfl, carried_isPrefix_concat _ _ _⟩)
  grind [open_concat, ends, carried_eq_filter]

theorem State.Serves.own (hS : s.Serves n t) (frame : XudpFrame)
    (hacted : s'.acted = s.acted ++ [frame]) (hhanded : s'.handed n t = s.handed n t ++ [frame])
    (hlookup : s.sessions.lookup t.session = some n) (hsession : frame.session = t.session)
    (hgoes : ends t.session frame = false) : s'.Serves n t := by
  obtain ⟨first, later, hopened, hfirst, -, hentry⟩ := hS
  obtain ⟨hopen, hall⟩ := hentry hlookup
  have hopen' := open_concat hopen hgoes
  have hall' : s'.handed n t = first :: carried t.session (later ++ [frame]) := by
    rw [hhanded, hall, carried_eq_filter hopen, carried_eq_filter hopen', filter_append]
    simp [hsession]
  refine ⟨first, later ++ [frame], ?_, hfirst, ?_, fun _ => ⟨hopen', hall'⟩⟩
  · rw [hacted]
    exact hopened.concat frame
  · exact ⟨[], by rw [append_nil, hall']⟩

/-- Between two awaits of `select!` nothing is under way to a task. -/
theorem sending_select (hrelay : s.relay = .select reading) (n : Nat) : s.sending n = [] := by
  simp [State.sending, hrelay]

/-- The table after a frame was taken up holds no entry it did not hold. -/
theorem Owns.of_live (hD : s.Demux) {id : UInt16} {n : Nat} (h : s.liveSessions.lookup id = some n) :
    Owns s.ids s.ids.length n id :=
  hD.latest id n (lookup_liveSessions h).1

theorem session_of_owns {k : Nat} (ht : s.tasks[n]? = some t) (howns : Owns s.ids k n id) : t.session = id := by
  have h := howns.1
  simpa [State.ids, ht] using h

theorem size_liveSessions_le (s : State) : Map.size s.liveSessions ≤ Map.size s.sessions :=
  Map.size_le_of_lookup fun _ _ h => (lookup_liveSessions h).1

theorem State.Demux.actOn {frame : XudpFrame} (hD : s.Demux)
    (hrelay : s.relay = .select reading) (hgo : (s.actOn frame).hasReturned = false) : (s.actOn frame).Demux := by
  have hacts := actsOn_actOn s frame
  have hnone : s.opening = [] := by simp [State.opening, hrelay]
  have hcount : s.acted.countP opens = s.tasks.length := by simpa [hnone] using hD.numbered
  have hsize : Map.size s.liveSessions ≤ maxXudpSessions := (size_liveSessions_le s).trans hD.size
  generalize s.actOn frame = s' at hacts hgo
  cases hacts with
  | duplicate | tooMany | noDestination | unknownContinuation | unknownClose | invalidStatus =>
    cases hgo
  | @opens destination hstatus hnew hroom =>
    refine ⟨hsize, fun id n => Owns.of_live hD, ?_, ?_, fun n t ht => ?_⟩
    · show (s.acted ++ [frame]).countP Relay.opens = s.tasks.length + 1
      rw [countP_append, hcount]
      simp [Relay.opens, hstatus]
    · intro f hf
      obtain rfl := mem_singleton.mp hf
      exact ⟨⟨s.acted, rfl⟩, by simp [Relay.opens, hstatus], hnew, hroom⟩
    · refine (hD.tasks n t ht).other frame rfl ?_ fun h => ⟨(lookup_liveSessions h).1, ?_⟩
      · rw [State.handed, State.handed, sending_select hrelay]
        rfl
      · rintro heq
        exact hnew (heq ▸ Map.mem_of_lookup h)
  | @continues m hstatus hlookup =>
    have hgoes : ends frame.session frame = false ∧ Relay.opens frame = false := by
      rcases hstatus with h | h <;> simp [ends, Relay.opens, h]
    refine ⟨hsize, fun id n => Owns.of_live hD, ?_, nofun, fun n t ht => ?_⟩
    · show (s.acted ++ [frame]).countP Relay.opens = s.tasks.length
      rw [countP_append, hcount]
      simp [hgoes.2]
    · by_cases hn : m = n
      · -- the task the frame is for
        subst hn
        have hsession := session_of_owns ht (Owns.of_live hD hlookup)
        refine (hD.tasks m t ht).own frame rfl ?_ ?_ hsession.symm ?_
        · show t.received ++ t.queue ++ (if m = m then [frame] else []) = s.handed m t ++ [frame]
          simp [State.handed, sending_select hrelay]
        · rw [hsession]
          exact (lookup_liveSessions hlookup).1
        · rw [hsession]
          exact hgoes.1
      · refine (hD.tasks n t ht).other frame rfl ?_ fun h => ⟨(lookup_liveSessions h).1, ?_⟩
        · show t.received ++ t.queue ++ (if m = n then [frame] else []) = s.handed n t
          simp [State.handed, sending_select hrelay, hn]
        · intro heq
          have h' : s.liveSessions.lookup t.session = some n := h
          rw [← heq, hlookup] at h'
          exact hn (Option.some.inj h')
  | closes hstatus hin =>
    have hsub : ∀ id n, (s.liveSessions.erase frame.session).lookup id = some n →
        s.liveSessions.lookup id = some n := fun id n => Map.lookup_of_lookup_erase
    refine ⟨?_, fun id n h => Owns.of_live hD (hsub id n h), ?_, nofun, fun n t ht => ?_⟩
    · exact (Map.size_le_of_lookup hsub).trans hsize
    · show (s.acted ++ [frame]).countP Relay.opens = s.tasks.length
      rw [countP_append, hcount]
      simp [Relay.opens, hstatus]
    · refine (hD.tasks n t ht).other frame rfl ?_ fun h =>
        ⟨(lookup_liveSessions (hsub _ n h)).1, ?_⟩
      · rw [State.handed, State.handed, sending_select hrelay]
        rfl
      grind [AList.lookup_erase]

theorem State.Demux.spawn {frame : XudpFrame} {destination : Destination} (hD : s.Demux)
    (hrelay : s.relay = .bind frame destination) : (s.spawn frame destination).Demux := by
  have hopening : s.opening = [frame] := by simp [State.opening, hrelay]
  obtain ⟨⟨earlier, hacted⟩, hopens, hfree, hroom⟩ := hD.opening frame (by simp [hopening])
  have hcount : earlier.countP opens = s.tasks.length := by
    have h := hD.numbered
    rw [hacted, hopening, countP_append] at h
    simp [hopens] at h
    exact h
  have hlen : s.tasks.length = s.ids.length := by simp [State.ids]
  have hids : (s.spawn frame destination).ids = s.ids ++ [frame.session] := by
    simp [State.ids, State.spawn]
  refine ⟨?_, fun id n h => ?_, ?_, fun f hf => absurd hf not_mem_nil, fun n t ht => ?_⟩
  · show Map.size (s.sessions.insert frame.session s.tasks.length) ≤ maxXudpSessions
    rw [Map.size_insert_of_notMem _ hfree]
    exact hroom
  · rw [hids]
    by_cases hid : id = frame.session
    · subst hid
      have hn : s.tasks.length = n := by simpa [State.spawn] using h
      rw [← hn, hlen]
      exact owns_last _ _
    · have hold : s.sessions.lookup id = some n := by
        simpa [State.spawn, AList.lookup_insert_ne hid] using h
      exact (hD.latest id n hold).append_ne hid
  · show s.acted.countP opens = (s.tasks ++ [_]).length
    rw [hD.numbered, hopening]
    simp
  · rcases Numbered.get_concat_cases ht with hold | ⟨rfl, rfl⟩
    · have hne : s.tasks.length ≠ n := (Numbered.lt_length hold).ne'
      obtain ⟨first, later, hopened, hfirst, hgiven, hentry⟩ := hD.tasks n t hold
      have hhanded : (s.spawn frame destination).handed n t = s.handed n t := by
        simp [State.handed, State.sending, State.spawn, hne, hrelay]
      refine ⟨first, later, hopened, hfirst, by rw [hhanded]; exact hgiven, fun h => ?_⟩
      rw [hhanded]
      refine hentry ?_
      by_cases hid : t.session = frame.session
      · -- the table leads to the new task
        rw [hid] at h
        simp [State.spawn] at h
        exact absurd h hne
      · simpa [State.spawn, AList.lookup_insert_ne hid] using h
    · refine ⟨frame, [], ⟨earlier, hacted, hcount, hopens⟩, rfl, ?_,
        fun _ => ⟨fun f hf => absurd hf not_mem_nil, ?_⟩⟩ <;>
        simp [State.handed, State.sending, State.spawn, carried]

theorem State.Demux.set (hD : s.Demux) (t' : Task) (ht : s.tasks[n]? = some t)
    (hacted : s'.acted = s.acted) (hsessions : s'.sessions = s.sessions)
    (hopening : s'.opening = s.opening) (htasks : s'.tasks = s.tasks.set n t')
    (hsession : t'.session = t.session) (hgiven : s'.handed n t' = s.handed n t)
    (hothers : ∀ m ≠ n, s'.sending m = s.sending m) : s'.Demux := by
  have hids : s'.ids = s.ids := by rw [State.ids, State.ids, htasks, ids_set ht hsession]
  refine hD.moved hacted hsessions hopening hids fun m u hu => ?_
  grind [Numbered.get_set_cases, State.handed]

theorem demux_step (hD : s.Demux) (h : s.step e = some s') (hgo : s'.hasReturned = false) : s'.Demux := by
  cases steps_of_step h with
  | delivered | closed => exact hD.aside rfl rfl rfl rfl rfl
  | eof | malformed | unresolved | unbound | dropped | lost => cases hgo
  | waits hrelay | response hrelay | resolved hrelay | written hrelay =>
    refine hD.aside rfl rfl rfl ?_ (funext fun n => ?_)
    · simp [State.opening, Phase.fresh, hrelay]
    · simp [State.sending, Phase.fresh, hrelay]
  | @frame reading frame rest hrelay hpoll =>
    have hD' : State.Demux { s with arrived := rest } := hD.aside rfl rfl rfl rfl rfl
    exact hD'.actOn hrelay hgo
  | bound hrelay => exact hD.spawn hrelay
  | @queued frame n opening t hrelay ht halive hroom =>
    refine hD.set { t with queue := t.queue ++ [frame] } ht rfl rfl ?_ rfl rfl ?_ ?_
    · simp [State.opening, Phase.fresh, hrelay]
    · simp [State.handed, State.sending, Phase.fresh, hrelay]
    · intro m hm
      simp [State.sending, Phase.fresh, hrelay, hm.symm]
  | @task n event t t' out ht hstep =>
    refine hD.set t' ht rfl rfl rfl rfl (Task.steps_of_step hstep).session ?_ fun _ _ => rfl
    show t'.received ++ t'.queue ++ s.sending n = t.received ++ t.queue ++ s.sending n
    rw [Task.step_given hstep]

theorem hasReturned_step (h : s.step e = some s') (hgo : s'.hasReturned = false) : s.hasReturned = false := by
  cases steps_of_step h with
  | delivered | closed | task => exact hgo
  | eof | malformed | unresolved | unbound | dropped | lost => cases hgo
  | waits hrelay | frame hrelay | response hrelay | resolved hrelay | bound hrelay | queued hrelay
  | written hrelay => simp [State.hasReturned, hrelay]

theorem demux_start : State.start.Demux := by
  refine ⟨by decide, fun _ _ h => ?_, rfl, nofun, nofun⟩
  simp [State.start] at h

end

/-- **Demultiplexing.** As long as the relay has not returned, whatever the frames and the
    schedule: the table holds at most 256 sessions and leads to the last task opened with an
    id, and what a task has received is the beginning of its own session. -/
theorem uplink_demultiplexed (es : List Event) (s : State) (hrun : run State.step .start es = some s)
    (hgo : s.hasReturned = false) :
    Map.size s.sessions ≤ maxXudpSessions ∧
    (∀ id n, s.sessions.lookup id = some n → Owns s.ids s.ids.length n id) ∧
    ∀ n t, s.tasks[n]? = some t →
      (∃ first later, OpenedBy s.acted n first later ∧ first.session = t.session ∧
        t.received <+: first :: carried t.session later) ∧
      ∀ frame ∈ t.received, frame.session = t.session := by
  have hD : s.hasReturned = false → s.Demux :=
    run_inv (fun s : State => s.hasReturned = false → s.Demux) (fun _ => True)
      (fun s e s' _ hD h hgo => demux_step (hD (hasReturned_step h hgo)) h hgo)
      (fun _ _ => trivial) (fun _ => demux_start) hrun
  refine ⟨(hD hgo).size, (hD hgo).latest, fun n t ht => ?_⟩
  obtain ⟨first, later, hopened, hfirst, hgiven, -⟩ := (hD hgo).tasks n t ht
  have hreceived : t.received <+: first :: carried t.session later := by
    rw [State.handed, append_assoc] at hgiven
    exact (prefix_append _ _).trans hgiven
  grind [session_of_mem_carried]

/-- The id is opened twice, and each task has received the frame that opened it. -/
theorem uplink_demultiplexed_reopened :
    ∃ s, run State.step .start (reopened ++ [.task 1 .recv]) = some s ∧
      s.tasks.map (fun t => (t.session, t.received.length)) = [(1, 1), (1, 1)] ∧
      ∀ (n : Nat) (t : Task), s.tasks[n]? = some t → ∀ frame ∈ t.received, frame.session = t.session := by
  obtain ⟨s, hrun, htasks, hgo⟩ : ∃ s, run State.step .start (reopened ++ [.task 1 .recv]) = some s ∧
      s.tasks.map (fun t => (t.session, t.received.length)) = [(1, 1), (1, 1)] ∧
      s.hasReturned = false := ⟨_, rfl, rfl, rfl⟩
  exact ⟨s, hrun, htasks, fun n t ht => ((uplink_demultiplexed _ s hrun hgo).2.2 n t ht).2⟩

end Xhttp.Vless.Relay
