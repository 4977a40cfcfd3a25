import Xhttp.Vless.Framing

/- The two queues between `relay_xudp` and a session's task (`src/vless.rs`): the relay
   waits in `sender.send(frame)` while the session's queue is full, the task waits in
   `responses.send(..)` while the queue of responses is full, and neither empties its own
   queue while it waits. A state in which both wait is never left (`deadlocked_step`). -/
namespace Xhttp.Vless.Relay
open Xhttp.Lib List

def Task.responding (t : Task) : Bool :=
  match t.phase with
  | .respond _ => true
  | _ => false

/-- The relay waits for room in the queue of a task that waits for room in the queue of
    responses. -/
def State.Deadlocked (s : State) : Prop :=
  match s.relay with
  | .send _ n _ =>
    ∃ t ∈ s.tasks[n]?, queueCapacity ≤ t.queue.length ∧ t.responding = true ∧
      maxXudpSessions ≤ s.responses.length
  | _ => False

instance (s : State) : Decidable s.Deadlocked :=
  match h : s.relay with
  | .send _ n _ =>
    decidable_of_iff (∃ t ∈ s.tasks[n]?, queueCapacity ≤ t.queue.length ∧ t.responding = true ∧
      maxXudpSessions ≤ s.responses.length) (by simp [State.Deadlocked, h])
  | .select _ | .resolve _ _ | .bind _ _ | .write _ | .returned _ =>
    isFalse (by simp [State.Deadlocked, h])

/-- The task a continuation goes to. -/
def State.continued (s : State) (frame : XudpFrame) : Option Task :=
  if frame.status = 2 ∨ frame.status = 4 then
    (s.liveSessions.lookup frame.session).bind fun n => s.tasks[n]?
  else none

/-- A continuation is taken up only while the queue of its session has room. -/
def Roomy (s : State) : Event → Prop
  | .pollFrame =>
    ∀ frame ∈ s.nextFrame, ∀ t ∈ s.continued frame, t.queue.length < queueCapacity
  | _ => True

instance (s : State) : ∀ e, Decidable (Roomy s e)
  | .pollFrame => inferInstanceAs (Decidable (∀ frame ∈ s.nextFrame, ∀ t ∈ s.continued frame,
      t.queue.length < queueCapacity))
  | .deliver _ | .close | .takeResponse | .resolved _ | .bound _ | .sent | .written _ | .task _ _ =>
    isTrue trivial

section
variable {s s' : State} {e : Event} {t : Task} {r : Response} {n : Nat}

theorem Task.responding_of_phase (h : t.phase = .respond r) : t.responding = true := by
  simp [Task.responding, h]

theorem deadlocked_iff {frame : XudpFrame} {opening : Bool} (hrelay : s.relay = .send frame n opening) :
    s.Deadlocked ↔ ∃ t, s.tasks[n]? = some t ∧ queueCapacity ≤ t.queue.length ∧
      t.responding = true ∧ maxXudpSessions ≤ s.responses.length := by
  simp [State.Deadlocked, hrelay]

theorem State.Deadlocked.relay_send (h : s.Deadlocked) : ∃ frame n opening, s.relay = .send frame n opening := by
  grind [State.Deadlocked]

/-! ## No way out -/

theorem Task.step_responding {event : TaskEvent} {view : View}
    (h : t.responding = true) (hgone : view.relayGone = false) (hroom : view.room = false) :
    t.step n view event = none := by
  unfold Task.responding at h
  split at h
  · next r hphase => cases event <;> simp [Task.step, hphase, hgone, hroom]
  · cases h

theorem deadlocked_step (hD : s.Deadlocked) (h : s.step e = some s') : s'.Deadlocked := by
  obtain ⟨frame, n, opening, hrelay⟩ := hD.relay_send
  obtain ⟨t, ht, hfull, hresponding, hresponses⟩ := (deadlocked_iff hrelay).mp hD
  cases steps_of_step h with
  | delivered | closed => exact hD
  | queued hrelay' ht' halive hroom =>
    grind
  | dropped hrelay' ht' hdead =>
    grind [Phase.send.inj, Task.responding, Task.alive]
  | task ht' hstep =>
    rename_i m _ t₁ t₂ out
    have hne : m ≠ n := by
      rintro rfl
      obtain rfl := Option.some.inj (ht.symm.trans ht')
      rw [Task.step_responding hresponding] at hstep
      · cases hstep
      · simp [State.view, State.hasReturned, hrelay]
      · simpa [State.view] using hresponses
    refine (deadlocked_iff (?_ : _ = Phase.send frame n opening)).mpr
      ⟨t, ?_, hfull, hresponding, ?_⟩
    · exact hrelay
    · rw [getElem?_set_ne hne]
      exact ht
    · rw [length_append]
      omega
  | waits hrelay' | eof hrelay' | malformed hrelay' | frame hrelay' | response hrelay'
  | resolved hrelay' | unresolved hrelay' | bound hrelay' | unbound hrelay' | written hrelay'
  | lost hrelay' =>
    rw [hrelay] at hrelay'
    cases hrelay'

/-! ## While there is room -/

/-- What the relay is sending will find room. -/
def State.Sendable (s : State) : Prop :=
  ∀ frame n opening t, s.relay = .send frame n opening → s.tasks[n]? = some t →
    t.queue.length < queueCapacity

theorem State.Sendable.not_deadlocked (h : s.Sendable) : ¬ s.Deadlocked := by
  intro hD
  obtain ⟨frame, n, opening, hrelay⟩ := hD.relay_send
  obtain ⟨t, ht, hfull, -⟩ := (deadlocked_iff hrelay).mp hD
  have hlt := h frame n opening t hrelay ht
  omega

theorem State.Sendable.of_not_send (h : ∀ frame n opening, s.relay ≠ .send frame n opening) : s.Sendable :=
  fun frame n opening _ hrelay => absurd hrelay (h frame n opening)

theorem sendable_step (hS : s.Sendable) (hroom : Roomy s e) (h : s.step e = some s') : s'.Sendable := by
  cases steps_of_step h with
  | delivered | closed => exact hS
  | @frame reading f rest hrelay hpoll =>
    have hnext : f ∈ s.nextFrame := nextFrame_eq hrelay hpoll
    have hacts := actsOn_actOn { s with arrived := rest } f
    generalize State.actOn _ f = s' at hacts
    cases hacts with
    | @continues n hstatus hlookup =>
      intro frame m opening t hrelay' ht
      obtain ⟨rfl, rfl, rfl⟩ := Phase.send.inj hrelay'
      refine hroom f hnext t ?_
      rw [State.continued, if_pos hstatus]
      exact Option.mem_def.mpr (Option.bind_eq_some_iff.mpr ⟨n, hlookup, ht⟩)
    | duplicate | tooMany | noDestination | opens | unknownContinuation | closes | unknownClose
    | invalidStatus => exact .of_not_send (by rintro _ _ _ ⟨⟩)
  | @bound f d hrelay =>
    -- the queue of a new session is empty
    intro frame n opening t hrelay' ht
    obtain ⟨rfl, rfl, rfl⟩ := Phase.send.inj hrelay'
    simp only [State.spawn, getElem?_concat_length] at ht
    cases ht
    exact Nat.zero_lt_succ 31
  | @task m event t₁ t₂ out ht₁ hstep =>
    intro frame n opening t hrelay' ht
    by_cases hmn : m = n
    · subst hmn
      have hlt := hS frame m opening t₁ hrelay' ht₁
      obtain rfl : t₂ = t := by
        have hlen := (List.getElem?_eq_some_iff.mp ht₁).1
        simpa [List.getElem?_set_self hlen] using ht
      have hle := (Task.steps_of_step hstep).queue.length_le
      omega
    · exact hS frame n opening t hrelay' (by simpa [getElem?_set_ne hmn] using ht)
  | waits | eof | malformed | response | resolved | unresolved | unbound | queued | dropped | written
  | lost => exact .of_not_send (by rintro _ _ _ ⟨⟩)

theorem sendable_start : State.start.Sendable := .of_not_send nofun

/-! ## Once there is none -/

/-- The relay waits for room in the queue of task `n`, which has not returned. -/
structure State.Waiting (s : State) (n : Nat) (t : Task) : Prop where
  relay : ∃ frame opening, s.relay = .send frame n opening
  task : s.tasks[n]? = some t
  alive : t.alive = true
  full : queueCapacity ≤ t.queue.length

section
variable (hW : s.Waiting n t)
include hW

theorem State.Waiting.relayGone {m : Nat} : (s.view m).relayGone = false := by
  obtain ⟨frame, opening, hrelay⟩ := hW.relay
  simp [State.view, State.hasReturned, hrelay]

theorem State.Waiting.set (t' : Task)
    (hqueue : t'.queue = t.queue) (halive : t'.alive = true) (responses : List Response) :
    State.Waiting { s with tasks := s.tasks.set n t', responses := responses } n t' :=
  ⟨hW.relay, List.getElem?_set_self (List.getElem?_eq_some_iff.mp hW.task).1, halive, hqueue ▸ hW.full⟩

theorem State.Waiting.exists_responding :
    ∃ s' t' r, Reaches State.step s s' ∧ s'.Waiting n t' ∧ t'.phase = .respond r ∧
      s'.responses = s.responses := by
  obtain ⟨t', r, hdrives, hphase, hqueue, -, -⟩ := Task.exists_respond n hW.alive
  have halive : t'.alive = true := Task.alive_of_phase (by simp [hphase])
  exact ⟨_, t', r, reaches_of_drives hdrives hW.task, hW.set t' hqueue halive s.responses, hphase, rfl⟩

theorem State.Waiting.receives (hphase : t.phase = .select) (source : SocketAddr) (bytes : Bytes) :
    ∃ s' t' r, s.step (.task n (.datagram source bytes)) = some s' ∧ s'.Waiting n t' ∧
      t'.phase = .respond r ∧ s'.responses = s.responses := by
  have hstep : t.step n (s.view n) (.datagram source bytes) =
      some ({ t with phase := .respond (t.response n source bytes) }, []) := by
    simp [Task.step, hphase]
  exact ⟨_, _, _, step_task hW.task hstep,
    hW.set { t with phase := .respond (t.response n source bytes) } rfl rfl _, rfl, append_nil _⟩

theorem State.Waiting.responds
    (hphase : t.phase = .respond r) (hroom : s.responses.length < maxXudpSessions) :
    ∃ s' t', s.step (.task n .responded) = some s' ∧ s'.Waiting n t' ∧ t'.phase = .select ∧
      s'.responses.length = s.responses.length + 1 := by
  have hstep : t.step n (s.view n) .responded = some ({ t with phase := .select }, [r]) := by
    have hview : (s.view n).room = true := by simpa [State.view] using hroom
    simp [Task.step, hphase, hW.relayGone, hview]
  exact ⟨_, _, step_task hW.task hstep, hW.set { t with phase := .select } rfl rfl _, rfl, length_append⟩

/-- Once the queue of responses is full as well, the two wait for each other. -/
theorem State.Waiting.deadlocked
    (hphase : t.phase = .respond r) (hfull : maxXudpSessions ≤ s.responses.length) : s.Deadlocked := by
  obtain ⟨frame, opening, hrelay⟩ := hW.relay
  exact (deadlocked_iff hrelay).mpr ⟨t, hW.task, hW.full, Task.responding_of_phase hphase, hfull⟩

end

/-- Datagrams fill the queue of responses until the task waits too. The induction is on
    the free places `k` of that queue. -/
theorem State.Waiting.exists_deadlocked (k : Nat) :
    ∀ {s : State} {t : Task}, s.Waiting n t → maxXudpSessions ≤ s.responses.length + k →
      ∃ s', Reaches State.step s s' ∧ s'.Deadlocked := by
  induction k with
  | zero =>
    intro s t hW hk
    obtain ⟨s', t', r, hreach, hW', hphase, hresponses⟩ := hW.exists_responding
    exact ⟨s', hreach, hW'.deadlocked hphase (hresponses ▸ hk)⟩
  | succ k ih =>
    intro s t hW hk
    obtain ⟨s₁, t₁, r, hreach, hW₁, hphase, hresponses⟩ := hW.exists_responding
    by_cases hroom : s₁.responses.length < maxXudpSessions
    · obtain ⟨s₂, t₂, hstep, hW₂, -, hlen⟩ := hW₁.responds hphase hroom
      obtain ⟨s', hreach', hD⟩ := ih hW₂ (by rw [hlen, hresponses]; omega)
      exact ⟨s', hreach.trans (.head hstep hreach'), hD⟩
    · exact ⟨s₁, hreach, hW₁.deadlocked hphase (Nat.le_of_not_lt hroom)⟩

theorem State.Waiting.run_answers (source : SocketAddr) (bytes : Bytes) (k : Nat) :
    ∀ {s : State} {t : Task}, s.Waiting n t → t.phase = .select →
      s.responses.length + k ≤ maxXudpSessions →
      ∃ s' t', run State.step s
          (List.replicate k [.task n (.datagram source bytes), .task n .responded]).flatten = some s' ∧
        s'.Waiting n t' ∧ t'.phase = .select ∧ s'.responses.length = s.responses.length + k := by
  induction k with
  | zero => exact fun {s t} hW hphase _ => ⟨s, t, rfl, hW, hphase, rfl⟩
  | succ k ih =>
    intro s t hW hphase hk
    obtain ⟨s₁, t₁, r, hstep₁, hW₁, hphase₁, hresponses⟩ := hW.receives hphase source bytes
    obtain ⟨s₂, t₂, hstep₂, hW₂, hphase₂, hlen⟩ := hW₁.responds hphase₁ (by rw [hresponses]; omega)
    rw [hresponses] at hlen
    obtain ⟨s', t', hrun, hW', hphase', hlen'⟩ := ih hW₂ hphase₂ (by omega)
    refine ⟨s', t', ?_, hW', hphase', by omega⟩
    grind [run_cons_eq_some]

/-- A continuation taken up for a full queue leaves the relay waiting for room. -/
theorem waiting_of_not_roomy (hroom : ¬ Roomy s e) (h : s.step e = some s') : ∃ n t, s'.Waiting n t := by
  cases e with
  | pollFrame =>
    simp only [Roomy, not_forall] at hroom
    obtain ⟨f, hnext, t, ht, hfull⟩ := hroom
    cases steps_of_step h with
    | @frame reading f' rest hrelay hpoll =>
      obtain rfl := Option.some.inj ((nextFrame_eq hrelay hpoll).symm.trans hnext)
      unfold State.continued at ht
      split at ht
      · next hstatus =>
        obtain ⟨n, hlookup, htask⟩ := Option.bind_eq_some_iff.mp ht
        have halive : t.alive = true := by
          simpa [State.taskAlive, htask] using (lookup_liveSessions hlookup).2
        refine ⟨n, t, ?_⟩
        have hrelay' : (State.actOn { s with arrived := rest } f').relay = .send f' n false ∧
            (State.actOn { s with arrived := rest } f').tasks = s.tasks := by
          have hlookup' : State.liveSessions { s with arrived := rest } = s.liveSessions := rfl
          grind [State.actOn, State.takeUp]
        refine ⟨⟨f', false, hrelay'.1⟩, ?_, halive, by omega⟩
        rw [hrelay'.2]
        exact htask
      · cases ht
    | waits hrelay hpoll | eof hrelay hpoll | malformed hrelay hpoll =>
      simp [State.nextFrame, hrelay, hpoll] at hnext
  | deliver | close | takeResponse | resolved | bound | sent | written | task =>
    exact absurd trivial hroom

end

/-- **Deadlock.** In every run in which the relay takes up no continuation for a session
    whose queue is full, the relay and a session's task never wait for each other. If it
    takes one up, a state can be reached in which they do and after which they always
    will. -/
theorem deadlock_free_with_room (es : List Event) (s : State)
    (hrun : run State.step .start es = some s) (hroom : Along State.step Roomy .start es) :
    ¬ s.Deadlocked ∧
    ∀ e s', s.step e = some s' → ¬ Roomy s e →
      ∃ stuck, Reaches State.step s' stuck ∧
        ∀ later, Reaches State.step stuck later → later.Deadlocked := by
  have hS : s.Sendable := run_inv_along State.Sendable Roomy
    (fun s e s' hroom hS h => sendable_step hS hroom h) es hroom sendable_start hrun
  refine ⟨hS.not_deadlocked, ?_⟩
  intro e s' h hfull
  obtain ⟨n, t, hW⟩ := waiting_of_not_roomy hfull h
  obtain ⟨stuck, hreach, hD⟩ :=
    hW.exists_deadlocked maxXudpSessions (Nat.le_add_left _ _)
  exact ⟨stuck, hreach, fun later hlater => hlater.inv (fun _ _ _ => deadlocked_step) hD⟩

/-- A session is opened and continued often enough to fill its queue before its task
    runs; the target then sends until the queue of responses is full as well. -/
def overrun : List Event :=
  [.deliver openEcho.layout, .pollFrame, .resolved (some echo), .bound true, .sent] ++
    (List.replicate 31 [.deliver keepEcho.layout, .pollFrame, .sent]).flatten ++
    [.deliver keepEcho.layout, .pollFrame] ++
    (List.replicate 256 [.task 0 (.datagram echo []), .task 0 .responded]).flatten ++
    [.task 0 (.datagram echo [])]

/-- The relay waits for room in the queue of task `n`, which is at its `select!` and has
    nothing to respond. -/
def State.stalled (s : State) (n : Nat) : Bool :=
  match s.relay, s.tasks[n]? with
  | .send _ m _, some t =>
    m == n && decide (queueCapacity ≤ t.queue.length) && (t.phase matches .select) && s.responses.isEmpty
  | _, _ => false

theorem waiting_of_stalled {s : State} {n : Nat} (h : s.stalled n = true) :
    ∃ t, s.Waiting n t ∧ t.phase = .select ∧ s.responses.length = 0 := by
  unfold State.stalled at h
  split at h
  · next frame m opening t hrelay ht =>
    simp only [Bool.and_eq_true, beq_iff_eq, decide_eq_true_eq, List.isEmpty_iff] at h
    obtain ⟨⟨⟨rfl, hfull⟩, hselect⟩, hempty⟩ := h
    have hphase : t.phase = .select := by
      split at hselect
      · next hphase => exact hphase
      · cases hselect
    refine ⟨t, ⟨⟨frame, opening, hrelay⟩, ht, Task.alive_of_phase (by simp [hphase]), hfull⟩, hphase, ?_⟩
    rw [hempty, List.length_nil]
  · cases h

theorem overrun_deadlocks : ∃ s, run State.step .start overrun = some s ∧ s.Deadlocked := by
  have hstalled : (run State.step .start
      ([.deliver openEcho.layout, .pollFrame, .resolved (some echo), .bound true, .sent] ++
        (List.replicate 31 [.deliver keepEcho.layout, .pollFrame, .sent]).flatten ++
        [.deliver keepEcho.layout, .pollFrame])).any (fun s => s.stalled 0) = true := by
    decide +kernel
  obtain ⟨s₀, hfill, hstalled₀⟩ := (Option.any_eq_true _ _).mp hstalled
  obtain ⟨t₀, hW₀, hphase₀, hlen₀⟩ := waiting_of_stalled hstalled₀
  obtain ⟨s₁, t₁, hanswers, hW₁, hphase₁, hlen₁⟩ :=
    hW₀.run_answers echo [] 256 hphase₀ (by rw [hlen₀]; exact Nat.le_refl _)
  obtain ⟨s, t, r, hstep, hW, hphase, hresponses⟩ := hW₁.receives hphase₁ echo []
  refine ⟨s, ?_, hW.deadlocked hphase ?_⟩
  · refine run_append_eq_some.mpr ⟨s₁, run_append_eq_some.mpr ⟨s₀, hfill, hanswers⟩, ?_⟩
    exact run_cons_eq_some.mpr ⟨s, hstep, rfl⟩
  · rw [hresponses, hlen₁, hlen₀]
    exact Nat.le_refl _

theorem deadlock_free_with_room_answered :
    ∃ s, run State.step .start answered = some s ∧ s.responses.length = 1 ∧ ¬ s.Deadlocked :=
  ⟨_, rfl, rfl, (deadlock_free_with_room answered _ rfl (by decide)).1⟩

end Xhttp.Vless.Relay
