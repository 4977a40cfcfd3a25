import Xhttp.Vless.Framing

/- Whose datagrams the XUDP relay writes under an id (`relay_xudp` and
   `run_xudp_session` in `src/vless.rs`). A close takes the id out of the table and drops
   the sender; the task goes on until it sees that its queue has ended, and what it put
   into the queue of responses stays there. If the id is opened again in the meantime,
   datagrams of the first socket are written as the second session's
   (`first_socket_answers_second`). -/
namespace Xhttp.Vless.Relay
open Xhttp.Lib List

/-- Of the first `k` tasks, number `n` is the last with the id. -/
def Owns (ids : List UInt16) (k n : Nat) (id : UInt16) : Prop :=
  ids[n]? = some id ∧ n < k ∧ ∀ m, n < m → m < k → ids[m]? ≠ some id

/-- The ids of the tasks, in the order the sessions were opened. -/
def State.ids (s : State) : List UInt16 := s.tasks.map Task.session

/-- Every frame was written with a datagram of the socket whose session was, by then, the
    last opened with the frame's id. -/
def State.Fresh (s : State) : Prop :=
  ∀ p ∈ s.written, Owns s.ids p.2 p.1.task p.1.session

/-- No task and no queued response is left of the sessions that had the id. -/
def State.Quiet (s : State) (id : UInt16) : Prop :=
  (∀ t ∈ s.tasks, t.alive = true → t.session ≠ id) ∧ ∀ r ∈ s.responses, r.session ≠ id

instance (s : State) (id : UInt16) : Decidable (s.Quiet id) :=
  inferInstanceAs (Decidable ((∀ t ∈ s.tasks, t.alive = true → t.session ≠ id) ∧
    ∀ r ∈ s.responses, r.session ≠ id))

/-- A task is spawned only when nothing is left of the id's earlier sessions. -/
def Unshared (s : State) : Event → Prop
  | .bound true =>
    match s.relay with
    | .bind frame _ => s.Quiet frame.session
    | _ => True
  | _ => True

instance (s : State) : ∀ e, Decidable (Unshared s e)
  | .bound true =>
    match h : s.relay with
    | .bind frame _ => decidable_of_iff (s.Quiet frame.session) (by simp [Unshared, h])
    | .select _ | .resolve _ _ | .send _ _ _ | .write _ | .returned _ => isTrue (by simp [Unshared, h])
  | .bound false | .deliver _ | .close | .pollFrame | .takeResponse | .resolved _ | .sent
  | .written _ | .task _ _ => isTrue trivial

/-! ## Numbering -/

variable {n : Nat} {t : Task}

theorem Owns.append {ids : List UInt16} {k : Nat} {id new : UInt16} (h : Owns ids k n id)
    (hk : k ≤ ids.length) : Owns (ids ++ [new]) k n id := by
  obtain ⟨hn, hlt, hlast⟩ := h
  refine ⟨?_, hlt, fun m hm hmk => ?_⟩
  · rw [getElem?_append_left (by omega)]
    exact hn
  · rw [getElem?_append_left (by omega)]
    exact hlast m hm hmk

theorem Owns.append_ne {ids : List UInt16} {id new : UInt16} (h : Owns ids ids.length n id)
    (hne : id ≠ new) : Owns (ids ++ [new]) (ids ++ [new]).length n id := by
  have happend : Owns (ids ++ [new]) ids.length n id := h.append (Nat.le_refl _)
  obtain ⟨hn, hlt, hlast⟩ := happend
  refine ⟨hn, by simp; omega, fun m hm hmk => ?_⟩
  grind

theorem owns_last (ids : List UInt16) (new : UInt16) : Owns (ids ++ [new]) (ids ++ [new]).length ids.length new := by
  refine ⟨by simp, by simp, fun m hm hmk => ?_⟩
  simp at hmk
  omega

theorem ids_set {tasks : List Task} {t' : Task} (ht : tasks[n]? = some t) (hsession : t'.session = t.session) :
    (tasks.set n t').map Task.session = tasks.map Task.session := by
  apply List.ext_getElem?
  grind

/-! ## While ids are not shared -/

/-- Tasks that have not returned, responses under way and responses written all belong to
    the latest session of their id. -/
structure State.Current (s : State) : Prop where
  tasks : ∀ n t, s.tasks[n]? = some t → t.alive = true → Owns s.ids s.ids.length n t.session
  held : ∀ n (t : Task) (r : Response), s.tasks[n]? = some t → t.phase = .respond r →
    r.task = n ∧ r.session = t.session
  responses : ∀ r ∈ s.responses, Owns s.ids s.ids.length r.task r.session
  writing : ∀ r, s.relay = .write r → Owns s.ids s.ids.length r.task r.session
  written : ∀ p ∈ s.written, p.2 ≤ s.ids.length ∧ Owns s.ids p.2 p.1.task p.1.session

section
variable {s s' : State} {e : Event}

theorem State.Current.aside (hC : s.Current) (htasks : s'.tasks = s.tasks)
    (hresponses : s'.responses = s.responses) (hwritten : s'.written = s.written)
    (hrelay : ∀ r, s'.relay = .write r → s.relay = .write r) : s'.Current := by
  have hids : s'.ids = s.ids := by rw [State.ids, State.ids, htasks]
  constructor
  · rw [hids, htasks]
    exact hC.tasks
  · rw [htasks]
    exact hC.held
  · rw [hids, hresponses]
    exact hC.responses
  · rw [hids]
    exact fun r hr => hC.writing r (hrelay r hr)
  · rw [hids, hwritten]
    exact hC.written

theorem State.Current.set (hC : s.Current) (t' : Task) (out : List Response)
    (ht : s.tasks[n]? = some t) (hsession : t'.session = t.session) (halive : t'.alive = true → t.alive = true)
    (hheld : ∀ r, t'.phase = .respond r → r.task = n ∧ r.session = t.session)
    (hout : ∀ r ∈ out, t.phase = .respond r) (htasks : s'.tasks = s.tasks.set n t')
    (hresponses : s'.responses = s.responses ++ out) (hwritten : s'.written = s.written)
    (hrelay : ∀ r, s'.relay = .write r → s.relay = .write r) : s'.Current := by
  have hids : s'.ids = s.ids := by rw [State.ids, State.ids, htasks, ids_set ht hsession]
  -- the task with number `m` afterwards, and the one before
  have hget : ∀ m u, s'.tasks[m]? = some u → (m = n ∧ u = t') ∨ (m ≠ n ∧ s.tasks[m]? = some u) := by
    intro m u hu
    rw [htasks] at hu
    exact Numbered.get_set_cases ht hu
  constructor
  · intro m u hu hal
    rw [hids]
    rcases hget m u hu with ⟨rfl, rfl⟩ | ⟨-, hu'⟩
    · rw [hsession]
      exact hC.tasks m t ht (halive hal)
    · exact hC.tasks m u hu' hal
  · intro m u r hu hphase
    rcases hget m u hu with ⟨rfl, rfl⟩ | ⟨-, hu'⟩
    · rw [hsession]
      exact hheld r hphase
    · exact hC.held m u r hu' hphase
  · intro r hr
    rw [hids]
    rw [hresponses] at hr
    rcases mem_append.mp hr with hr | hr
    · exact hC.responses r hr
    · obtain ⟨htask, hsess⟩ := hC.held n t r ht (hout r hr)
      rw [htask, hsess]
      exact hC.tasks n t ht (Task.alive_of_phase (by simp [hout r hr]))
  · rw [hids]
    exact fun r hr => hC.writing r (hrelay r hr)
  · rw [hids, hwritten]
    exact hC.written

theorem State.Current.spawn {frame : XudpFrame} {destination : Destination} (hC : s.Current)
    (hquiet : s.Quiet frame.session) : (s.spawn frame destination).Current := by
  have hids : (s.spawn frame destination).ids = s.ids ++ [frame.session] := by
    simp [State.ids, State.spawn]
  have hlen : s.tasks.length = s.ids.length := by simp [State.ids]
  -- an earlier task keeps its number
  have hget : ∀ m u, (s.spawn frame destination).tasks[m]? = some u →
      s.tasks[m]? = some u ∨ (m = s.tasks.length ∧ u.session = frame.session ∧ u.phase = .select) := by
    intro m u hu
    rcases Numbered.get_concat_cases hu with hold | ⟨rfl, rfl⟩
    · exact Or.inl hold
    · exact Or.inr ⟨rfl, rfl, rfl⟩
  constructor
  · intro m u hu hal
    rw [hids]
    rcases hget m u hu with hu' | ⟨rfl, hsess, -⟩
    · exact (hC.tasks m u hu' hal).append_ne (hquiet.1 u (mem_of_getElem? hu') hal)
    · rw [hsess, hlen]
      exact owns_last _ _
  · intro m u r hu hphase
    rcases hget m u hu with hu' | ⟨-, -, hselect⟩
    · exact hC.held m u r hu' hphase
    · rw [hselect] at hphase
      cases hphase
  · intro r hr
    rw [hids]
    exact (hC.responses r hr).append_ne (hquiet.2 r hr)
  · intro r hrelay
    cases hrelay
  · intro p hp
    obtain ⟨hle, howns⟩ := hC.written p hp
    rw [hids]
    exact ⟨by simp; omega, howns.append hle⟩

theorem actOn_aside (s : State) (frame : XudpFrame) :
    (s.actOn frame).tasks = s.tasks ∧ (s.actOn frame).responses = s.responses ∧
      (s.actOn frame).written = s.written ∧ ∀ r, (s.actOn frame).relay ≠ .write r := by
  have h := actsOn_actOn s frame
  generalize s.actOn frame = s' at h
  cases h <;> exact ⟨rfl, rfl, rfl, nofun⟩

theorem current_step (hC : s.Current) (hU : Unshared s e) (h : s.step e = some s') : s'.Current := by
  cases steps_of_step h with
  | delivered | closed => exact hC.aside rfl rfl rfl fun _ => id
  | waits | eof | malformed | resolved | unresolved | unbound | dropped | lost =>
    exact hC.aside rfl rfl rfl nofun
  | @frame reading frame rest hrelay hpoll =>
    obtain ⟨htasks, hresponses, hwritten, hrelay'⟩ := actOn_aside { s with arrived := rest } frame
    exact hC.aside htasks hresponses hwritten fun r hr => absurd hr (hrelay' r)
  | @response reading response rest hrelay hqueue =>
    have hsub : ∀ r ∈ response :: rest, Owns s.ids s.ids.length r.task r.session := hqueue ▸ hC.responses
    refine ⟨hC.tasks, hC.held, fun r hr => hsub r (mem_cons_of_mem _ hr), ?_, hC.written⟩
    intro r hr
    obtain rfl := Phase.write.inj hr
    exact hsub _ mem_cons_self
  | @written response hrelay =>
    refine ⟨hC.tasks, hC.held, hC.responses, nofun, ?_⟩
    intro p hp
    rcases mem_append.mp hp with hp | hp
    · exact hC.written p hp
    · obtain rfl := mem_singleton.mp hp
      have hlen : s.tasks.length = s.ids.length := by simp [State.ids]
      refine ⟨hlen.le, ?_⟩
      rw [hlen]
      exact hC.writing response hrelay
  | bound hrelay =>
    refine hC.spawn ?_
    simpa [Unshared, hrelay] using hU
  | @queued frame n opening t hrelay ht halive hroom =>
    exact hC.set { t with queue := t.queue ++ [frame] } [] ht rfl (fun _ => halive)
      (fun r hr => hC.held n t r ht hr) nofun rfl (append_nil _).symm rfl nofun
  | @task n event t t' out ht hstep =>
    have hS := Task.steps_of_step hstep
    refine hC.set t' out ht hS.session (fun _ => hS.alive) ?_ ?_ rfl rfl rfl fun _ => id
    · intro r hr
      obtain ⟨source, bytes, rfl⟩ := hS.respond r hr
      exact ⟨rfl, rfl⟩
    · intro r hr
      rcases hS.out with rfl | ⟨r', hphase, rfl, -⟩
      · cases hr
      · obtain rfl := mem_singleton.mp hr
        exact hphase

theorem current_start : State.start.Current := by
  constructor <;> simp [State.start, Phase.fresh]

theorem State.Current.fresh (hC : s.Current) : s.Fresh := fun p hp => (hC.written p hp).2

/-! ## Once they are -/

variable {r : Response} {reading : Reading frameReader}

theorem not_fresh {k m : Nat} (hw : (r, k) ∈ s.written) (htask : r.task < m)
    (hm : m < k) (hid : s.ids[m]? = some r.session) : ¬ s.Fresh :=
  fun h => (h (r, k) hw).2.2 m htask hm hid

theorem exists_write {rest : List Response} (hrelay : s.relay = .select reading) (hqueue : s.responses = r :: rest) :
    ∃ s', Reaches State.step s s' ∧ s'.tasks = s.tasks ∧ s'.responses = rest ∧ s'.relay = .fresh ∧
      s'.written = s.written ++ [(r, s.tasks.length)] := by
  have htake : s.step .takeResponse = some { s with responses := rest, relay := .write r } := by
    simp [State.step, hrelay, hqueue]
  have hwrite := writeXudpFrame_runs r.outgoing [] s.output
  rw [append_nil] at hwrite
  have hwritten : State.step { s with responses := rest, relay := .write r } (.written true) =
      some { s with responses := rest, output := s.output ++ r.outgoing.layout, relay := .fresh,
                    written := s.written ++ [(r, s.tasks.length)] } := by
    simp [State.step, hwrite]
  exact ⟨_, .head htake (.single hwritten), rfl, rfl, rfl, rfl⟩

theorem exists_write_mem {back : List Response} (front : List Response) :
    ∀ {s : State} {reading : Reading frameReader}, s.relay = .select reading →
      s.responses = front ++ r :: back →
      ∃ s', Reaches State.step s s' ∧ s'.tasks = s.tasks ∧ (r, s.tasks.length) ∈ s'.written := by
  induction front with
  | nil =>
    grind [exists_write]
  | cons r₀ front ih =>
    intro s reading hrelay hqueue
    obtain ⟨s₁, hreach, htasks, hresponses, hfresh, -⟩ := exists_write hrelay hqueue
    obtain ⟨s', hreach', htasks', hwritten⟩ := ih hfresh hresponses
    exact ⟨s', hreach.trans hreach', htasks'.trans htasks, htasks ▸ hwritten⟩

theorem exists_drained (queue : List Response) :
    ∀ {s : State} {reading : Reading frameReader}, s.relay = .select reading → s.responses = queue →
      ∃ s' reading', Reaches State.step s s' ∧ s'.tasks = s.tasks ∧ s'.responses = [] ∧
        s'.relay = .select reading' := by
  induction queue with
  | nil => exact fun {s reading} hrelay hqueue => ⟨s, reading, .refl s, rfl, hqueue, hrelay⟩
  | cons r rest ih =>
    intro s reading hrelay hqueue
    obtain ⟨s₁, hreach, htasks, hresponses, hfresh, -⟩ := exists_write hrelay hqueue
    obtain ⟨s', reading', hreach', htasks', hempty, hrelay'⟩ := ih hfresh hresponses
    exact ⟨s', reading', hreach.trans hreach', htasks'.trans htasks, hempty, hrelay'⟩

theorem exists_write_of_alive (hrelay : s.relay = .select reading) (ht : s.tasks[n]? = some t) (halive : t.alive = true)
    (hheld : ∀ r, t.phase = .respond r → r.task = n ∧ r.session = t.session) :
    ∃ s' r, Reaches State.step s s' ∧ s'.ids = s.ids ∧ r.task = n ∧ r.session = t.session ∧
      (r, s.tasks.length) ∈ s'.written := by
  obtain ⟨s₁, reading₁, hreach₁, htasks₁, hempty, hrelay₁⟩ := exists_drained s.responses hrelay rfl
  rw [← htasks₁] at ht
  obtain ⟨t₂, r, hdrives, hphase, -, hsession, hr⟩ := Task.exists_respond n halive
  have hr' : r.task = n ∧ r.session = t.session := by
    rcases hr with hr | ⟨source, bytes, rfl⟩
    · exact hheld r hr
    · exact ⟨rfl, rfl⟩
  have hlen := (List.getElem?_eq_some_iff.mp ht).1
  have ht₂ : (s₁.tasks.set n t₂)[n]? = some t₂ := List.getElem?_set_self hlen
  have hstep : t₂.step n (State.view { s₁ with tasks := s₁.tasks.set n t₂ } n) .responded =
      some ({ t₂ with phase := .select }, [r]) := by
    simp [Task.step, hphase, State.view, State.hasReturned, hrelay₁, hempty, maxXudpSessions]
  obtain ⟨s', hreach', htasks', -, -, hwritten⟩ :=
    exists_write (s := { s₁ with tasks := (s₁.tasks.set n t₂).set n { t₂ with phase := .select },
                                 responses := s₁.responses ++ [r] })
      hrelay₁ (by rw [hempty]; rfl)
  refine ⟨s', r, ?_, ?_, hr'.1, hr'.2, ?_⟩
  · exact hreach₁.trans ((reaches_of_drives hdrives ht).trans (.head (step_task ht₂ hstep) hreach'))
  · calc s'.ids = ((s₁.tasks.set n t₂).set n { t₂ with phase := .select }).map Task.session := by
          rw [State.ids, htasks']
      _ = (s₁.tasks.set n t₂).map Task.session := ids_set ht₂ rfl
      _ = s₁.tasks.map Task.session := ids_set ht hsession
      _ = s.ids := by rw [State.ids, htasks₁]
  · simp [hwritten, htasks₁]

theorem spawn_sent (s : State) (frame : XudpFrame) (destination : Destination) :
    ∃ s' reading, (s.spawn frame destination).step .sent = some s' ∧ s'.relay = .select reading ∧
      s'.ids = s.ids ++ [frame.session] ∧ s'.responses = s.responses ∧
      ∀ n < s.tasks.length, s'.tasks[n]? = s.tasks[n]? := by
  have hget : (s.spawn frame destination).tasks[s.tasks.length]? =
      some { session := frame.session, queue := [], destination, cachedTarget := none,
             phase := .select, received := [], sent := [] } :=
    getElem?_concat_length
  refine ⟨_, _, step_sent rfl hget rfl (Nat.zero_lt_succ 31), rfl, ?_, rfl, ?_⟩
  · simp [State.spawn, State.ids]
  · intro n hn
    rw [getElem?_set_ne (by omega)]
    exact getElem?_append_left hn

/-- A task spawned while something is left of its id: an earlier socket can still be
    heard under it. -/
theorem exists_stale (hC : s.Current) (hshared : ¬ Unshared s e) (h : s.step e = some s') :
    ∃ stale, Reaches State.step s' stale ∧ ¬ stale.Fresh := by
  cases steps_of_step h with
  | @bound frame destination hrelay =>
    obtain ⟨s₁, reading, hsent, hselect, hids, hresponses, hold⟩ := spawn_sent s frame destination
    have hlen : s.tasks.length = s.ids.length := by simp [State.ids]
    have hlen₁ : s₁.tasks.length = s.tasks.length + 1 := by
      have h := congrArg List.length hids
      simpa [State.ids] using h
    have hnew : s₁.ids[s.tasks.length]? = some frame.session := by rw [hids, hlen]; simp
    have hshared' : ¬ s.Quiet frame.session := by simpa [Unshared, hrelay] using hshared
    rcases not_and_or.mp hshared' with htask | hqueued
    · -- an earlier task is still there
      push Not at htask
      obtain ⟨t, hmem, halive, hsession⟩ := htask
      obtain ⟨n, ht⟩ := List.mem_iff_getElem?.mp hmem
      have hn := (List.getElem?_eq_some_iff.mp ht).1
      obtain ⟨s₂, r, hreach, hids₂, hrtask, hrsession, hwritten⟩ :=
        exists_write_of_alive hselect ((hold n hn).trans ht) halive fun r => hC.held n t r ht
      refine ⟨s₂, .head hsent hreach, not_fresh hwritten (m := s.tasks.length) ?_ ?_ ?_⟩
      · omega
      · omega
      · rw [hids₂, hnew, hrsession, hsession]
    · -- one of its responses is
      push Not at hqueued
      obtain ⟨r, hmem, hsession⟩ := hqueued
      have hr := (hC.responses r hmem).2.1
      obtain ⟨front, back, hsplit⟩ := append_of_mem hmem
      obtain ⟨s₂, hreach, htasks, hwritten⟩ := exists_write_mem front hselect (hresponses.trans hsplit)
      refine ⟨s₂, .head hsent hreach, not_fresh hwritten (m := s.tasks.length) ?_ ?_ ?_⟩
      · omega
      · omega
      · rw [State.ids, htasks, ← State.ids, hnew, hsession]
  | delivered | closed | waits | eof | malformed | frame | response | resolved | unresolved | unbound
  | queued | dropped | written | lost | task => exact absurd trivial hshared

end

/-- **Reuse of an id.** In every run in which a task is spawned only when nothing is left of
    the earlier sessions with its id, every frame is written with a datagram of the latest
    socket of its id. If something is left, a frame can be written that is not. -/
theorem responses_of_latest_session (es : List Event) (s : State)
    (hrun : run State.step .start es = some s) (hall : Along State.step Unshared .start es) :
    s.Fresh ∧
    ∀ e s', s.step e = some s' → ¬ Unshared s e →
      ∃ stale, Reaches State.step s' stale ∧ ¬ stale.Fresh := by
  have hC : s.Current := run_inv_along State.Current Unshared
    (fun s e s' hU hC h => current_step hC hU h) es hall current_start hrun
  exact ⟨hC.fresh, fun e s' h hshared => exists_stale hC hshared h⟩

def closeEcho : Bytes := [0, 4, 0, 1, 3, 0]

/-- The session is closed and opened again while the answer of its first socket waits. -/
def reopened : List Event :=
  answered ++ [.deliver closeEcho, .pollFrame,
    .deliver openEcho.layout, .pollFrame, .resolved (some echo), .bound true, .sent]

/-- The answer is written as the second session's. -/
theorem first_socket_answers_second :
    ∃ s, run State.step .start (reopened ++ [.takeResponse, .written true]) = some s ∧
      s.ids = [1, 1] ∧ s.written.map (fun p => (p.1.session, p.1.task, p.2)) = [(1, 0, 2)] ∧
      ¬ s.Fresh := by
  refine ⟨_, rfl, rfl, rfl, not_fresh mem_cons_self (m := 1) ?_ ?_ rfl⟩ <;> decide

/-- The answer is written and the first task has returned before the id is used again. -/
def reopenedLater : List Event :=
  answered ++ [.takeResponse, .written true, .deliver closeEcho, .pollFrame, .task 0 .recv,
    .deliver openEcho.layout, .pollFrame, .resolved (some echo), .bound true, .sent]

theorem responses_of_latest_session_later :
    ∃ s, run State.step .start reopenedLater = some s ∧ s.ids = [1, 1] ∧
      s.written.map (fun p => (p.1.session, p.1.task, p.2)) = [(1, 0, 1)] ∧ s.Fresh :=
  ⟨_, rfl, rfl, rfl, (responses_of_latest_session reopenedLater _ rfl (by decide)).1⟩

end Xhttp.Vless.Relay
