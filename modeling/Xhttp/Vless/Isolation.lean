import Xhttp.Vless.Framing

/- What ends the XUDP relay (`relay_xudp` in `src/vless.rs`). Several of its error exits
   are about one session only: the destination of a new session does not resolve, its
   socket cannot be bound, or a frame arrives for a session whose task has returned in
   the meantime, which a task does after two minutes of silence or on any error of its
   socket. Each takes the relay and with it all other sessions down
   (`session_ends_relay`). -/
namespace Xhttp.Vless.Relay
open Xhttp.Lib List

/-- Malformed framing or loss of the stream. -/
def Ending.ofStream : Ending → Bool
  | .frame _ | .write | .noDestination | .invalidStatus _ => true
  | _ => false

/-- The client opens an id it has open or one too many, or it continues or closes an id
    it does not have open. -/
def State.Breach (s : State) : Ending → Prop
  | .duplicate id => id ∈ s.openIds
  | .tooMany => maxXudpSessions ≤ s.openIds.length
  | .unknownContinuation id | .unknownClose id => id ∉ s.openIds
  | _ => False

/-- If the relay has returned, it is for one of the reasons `ok` allows. -/
def State.EndsBy (ok : State → Ending → Prop) (s : State) : Prop :=
  ∀ ending, s.relay = .returned ending → ok s ending

/-- Only the stream may end the relay. -/
def ByStream (_ : State) (ending : Ending) : Prop := ending.ofStream = true

/-- Only the stream and the client may end the relay. -/
def ByPeer (s : State) (ending : Ending) : Prop := ending.ofStream = true ∨ s.Breach ending

/-- A frame for an id the client has open finds its session. -/
def Kept (s : State) (frame : XudpFrame) : Prop :=
  frame.status = 2 ∨ frame.status = 3 ∨ frame.status = 4 → frame.session ∈ s.openIds →
    frame.session ∈ s.liveSessions

/-- A frame opens a session that there is room for, or is for a session there is. -/
def Served (s : State) (frame : XudpFrame) : Prop :=
  (frame.status = 1 →
    frame.session ∉ s.liveSessions ∧ Map.size s.liveSessions < maxXudpSessions) ∧
  (frame.status = 2 ∨ frame.status = 3 ∨ frame.status = 4 → frame.session ∈ s.liveSessions)

instance (s : State) (frame : XudpFrame) : Decidable (Kept s frame) :=
  inferInstanceAs (Decidable (_ → _ → _))

instance (s : State) (frame : XudpFrame) : Decidable (Served s frame) :=
  inferInstanceAs (Decidable ((_ → _ ∧ _) ∧ (_ → _)))

/-- Lookup and bind succeed for a new session, a frame is never sent to a task that has
    returned, and the frames taken up are as `P` says. -/
def Undisturbed (P : State → XudpFrame → Prop) (s : State) : Event → Prop
  | .resolved target => target.isSome = true
  | .bound ok => ok = true
  | .sent =>
    match s.relay with
    | .send _ n _ => s.taskAlive n = true
    | _ => True
  | .pollFrame => ∀ frame ∈ s.nextFrame, P s frame
  | _ => True

instance (P : State → XudpFrame → Prop) [∀ s frame, Decidable (P s frame)] (s : State) :
    ∀ e, Decidable (Undisturbed P s e)
  | .resolved target => decidable_of_iff (target.isSome = true) Iff.rfl
  | .bound ok => decidable_of_iff (ok = true) Iff.rfl
  | .sent =>
    match h : s.relay with
    | .send _ n _ => decidable_of_iff (s.taskAlive n = true) (by simp [Undisturbed, h])
    | .select _ | .resolve _ _ | .bind _ _ | .write _ | .returned _ =>
      isTrue (by simp [Undisturbed, h])
  | .pollFrame => decidable_of_iff (∀ frame ∈ s.nextFrame, P s frame) Iff.rfl
  | .deliver _ | .close | .takeResponse | .written _ | .task _ _ => isTrue trivial

section
variable {s s' : State} {e : Event} {id : UInt16}

/-! ## The ids in the table are open -/

/-- The table holds open ids only. -/
def State.Opened (s : State) : Prop := ∀ id ∈ s.sessions, id ∈ s.openIds

theorem mem_sessions_of_live (h : id ∈ s.liveSessions) : id ∈ s.sessions := by
  obtain ⟨n, hn⟩ := Option.isSome_iff_exists.mp (AList.lookup_isSome.mpr h)
  exact Map.mem_of_lookup (lookup_liveSessions hn).1

theorem State.Opened.live (h : s.Opened) (hin : id ∈ s.liveSessions) : id ∈ s.openIds :=
  h id (mem_sessions_of_live hin)

theorem State.Opened.size_live_le (h : s.Opened) : Map.size s.liveSessions ≤ s.openIds.length := by
  have hsub : s.liveSessions.keys ⊆ s.openIds := fun id hid => h.live hid
  exact (subperm_of_subset s.liveSessions.nodupKeys hsub).length_le

theorem opened_actOn (h : s.Opened) (frame : XudpFrame) : (s.actOn frame).Opened := by
  have hacts := actsOn_actOn s frame
  generalize s.actOn frame = s' at hacts
  cases hacts with
  | closes hstatus hin =>
    intro id hid
    obtain ⟨hne, hlive⟩ := AList.mem_erase.mp hid
    exact (mem_erase_of_ne hne).mpr (h.live hlive)
  | duplicate | tooMany | noDestination | opens | unknownContinuation | continues | unknownClose
  | invalidStatus => exact fun id hid => h.live hid

theorem opened_step (hO : s.Opened) (h : s.step e = some s') : s'.Opened := by
  cases steps_of_step h with
  | @frame reading frame rest hrelay hpoll =>
    exact opened_actOn (s := { s with arrived := rest }) hO frame
  | bound hrelay =>
    intro id hid
    rcases (AList.mem_insert _).mp hid with rfl | hid
    · exact mem_insert_self
    · exact mem_insert_of_mem (hO id hid)
  | delivered | closed | waits | eof | malformed | response | resolved | unresolved | unbound
  | queued | dropped | written | lost | task => exact hO

theorem opened_start : State.start.Opened := nofun

/-! ## What one step can end -/

variable {ok : State → Ending → Prop}

theorem State.EndsBy.of_running (h : ∀ ending, s.relay ≠ .returned ending) : s.EndsBy ok :=
  fun ending hrelay => absurd hrelay (h ending)

theorem endsBy_returns_iff {ending : Ending} : (s.returns ending).EndsBy ok ↔ ok (s.returns ending) ending :=
  ⟨fun h => h ending rfl, fun h _ hrelay => Phase.returned.inj hrelay ▸ h⟩

theorem endsByStream_actOn_iff (frame : XudpFrame) : (s.actOn frame).EndsBy ByStream ↔ Served s frame := by
  have hacts := actsOn_actOn s frame
  generalize s.actOn frame = s' at hacts
  cases hacts with
  | duplicate hstatus hin =>
    rw [endsBy_returns_iff]
    exact iff_of_false (by simp [ByStream, Ending.ofStream]) fun h => (h.1 hstatus).1 hin
  | tooMany hstatus hfull =>
    rw [endsBy_returns_iff]
    exact iff_of_false (by simp [ByStream, Ending.ofStream]) fun h => Nat.not_lt.mpr hfull (h.1 hstatus).2
  | noDestination hstatus hnew hroom =>
    rw [endsBy_returns_iff]
    exact iff_of_true rfl ⟨fun _ => ⟨hnew, hroom⟩, by simp [hstatus]⟩
  | opens hstatus hnew hroom =>
    exact iff_of_true (.of_running nofun) ⟨fun _ => ⟨hnew, hroom⟩, by simp [hstatus]⟩
  | unknownContinuation hstatus hout | unknownClose hstatus hout =>
    rw [endsBy_returns_iff]
    exact iff_of_false (by simp [ByStream, Ending.ofStream]) fun h => hout (h.2 (by tauto))
  | continues hstatus hlookup =>
    have hin := Map.mem_of_lookup hlookup
    exact iff_of_true (.of_running nofun) ⟨by rcases hstatus with h | h <;> simp [h], fun _ => hin⟩
  | closes hstatus hin =>
    exact iff_of_true (.of_running nofun) ⟨by simp [hstatus], fun _ => hin⟩
  | invalidStatus hstatus =>
    rw [endsBy_returns_iff]
    exact iff_of_true rfl ⟨fun h => absurd h (hstatus 1 (by simp)), by simp_all⟩

theorem endsByPeer_actOn_iff (hO : s.Opened) (frame : XudpFrame) : (s.actOn frame).EndsBy ByPeer ↔ Kept s frame := by
  have hacts := actsOn_actOn s frame
  generalize s.actOn frame = s' at hacts
  cases hacts with
  | duplicate hstatus hin =>
    rw [endsBy_returns_iff]
    exact iff_of_true (Or.inr (hO.live hin)) (by simp [Kept, hstatus])
  | tooMany hstatus hfull =>
    rw [endsBy_returns_iff]
    exact iff_of_true (Or.inr (hfull.trans hO.size_live_le)) (by simp [Kept, hstatus])
  | noDestination hstatus hnew hroom =>
    rw [endsBy_returns_iff]
    exact iff_of_true (Or.inl rfl) (by simp [Kept, hstatus])
  | opens hstatus hnew hroom =>
    exact iff_of_true (.of_running nofun) (by simp [Kept, hstatus])
  | continues hstatus hlookup =>
    exact iff_of_true (.of_running nofun) fun _ _ => Map.mem_of_lookup hlookup
  | closes hstatus hin =>
    exact iff_of_true (.of_running nofun) fun _ _ => hin
  | unknownContinuation hstatus hout =>
    rw [endsBy_returns_iff]
    have hstatus' : frame.status = 2 ∨ frame.status = 3 ∨ frame.status = 4 := by tauto
    simp [ByPeer, Ending.ofStream, Kept, hstatus', hout]
    rfl
  | unknownClose hstatus hout =>
    rw [endsBy_returns_iff]
    simp [ByPeer, Ending.ofStream, Kept, hstatus, hout]
    rfl
  | invalidStatus hstatus =>
    rw [endsBy_returns_iff]
    exact iff_of_true (Or.inl rfl) fun h => by simp_all

/-- What both readings of the reasons have in common: the stream is one, a failed open or
    a task that has returned is none, and nothing but the open ids matters. -/
structure Reasons (ok : State → Ending → Prop) : Prop where
  stream : ∀ s ending, ending.ofStream = true → ok s ending
  unresolved : ∀ s, ¬ ok s .unresolved
  unbound : ∀ s, ¬ ok s .unbound
  notStarted : ∀ s, ¬ ok s .notStarted
  notContinued : ∀ s, ¬ ok s .notContinued
  openIds : ∀ s s' ending, s'.openIds = s.openIds → ok s ending → ok s' ending

theorem reasons_byStream : Reasons ByStream where
  stream _ _ h := h
  unresolved _ := nofun
  unbound _ := nofun
  notStarted _ := nofun
  notContinued _ := nofun
  openIds _ _ _ _ h := h

theorem reasons_byPeer : Reasons ByPeer where
  stream _ _ h := Or.inl h
  unresolved _ := nofun
  unbound _ := nofun
  notStarted _ := nofun
  notContinued _ := nofun
  openIds s s' ending heq h := by
    unfold ByPeer State.Breach
    rw [heq]
    exact h

/-- **One step.** The relay does not return for any other reason exactly when the step is
    undisturbed. -/
theorem endsBy_step_iff {P : State → XudpFrame → Prop} (hok : Reasons ok) (hI : s.EndsBy ok)
    (hframe : ∀ frame rest, (State.actOn { s with arrived := rest } frame).EndsBy ok ↔ P s frame)
    (h : s.step e = some s') : s'.EndsBy ok ↔ Undisturbed P s e := by
  cases steps_of_step h with
  | delivered | closed | task =>
    exact iff_of_true (fun ending hrelay => hok.openIds s _ ending rfl (hI ending hrelay)) trivial
  | @frame reading frame rest hrelay hpoll =>
    rw [hframe]
    simp [Undisturbed, nextFrame_eq hrelay hpoll]
  | waits hrelay hpoll =>
    refine iff_of_true (.of_running (by rintro _ ⟨⟩)) ?_
    simp [Undisturbed, State.nextFrame, hrelay, hpoll]
  | eof hrelay hpoll | malformed hrelay hpoll =>
    refine iff_of_true (endsBy_returns_iff.mpr (hok.stream _ _ rfl)) ?_
    simp [Undisturbed, State.nextFrame, hrelay, hpoll]
  | response | written => exact iff_of_true (.of_running (by rintro _ ⟨⟩)) trivial
  | lost => exact iff_of_true (endsBy_returns_iff.mpr (hok.stream _ _ rfl)) trivial
  | resolved | bound => exact iff_of_true (.of_running (by rintro _ ⟨⟩)) rfl
  | unresolved =>
    rw [endsBy_returns_iff]
    exact iff_of_false (hok.unresolved _) (by rintro ⟨⟩)
  | unbound =>
    rw [endsBy_returns_iff]
    exact iff_of_false (hok.unbound _) (by rintro ⟨⟩)
  | queued hrelay ht halive hroom =>
    refine iff_of_true (.of_running (by rintro _ ⟨⟩)) ?_
    simp [Undisturbed, hrelay, State.taskAlive, ht, halive]
  | @dropped frame n opening t hrelay ht hdead =>
    rw [endsBy_returns_iff]
    refine iff_of_false ?_ (by simp [Undisturbed, hrelay, State.taskAlive, ht, hdead])
    cases opening
    · exact hok.notContinued _
    · exact hok.notStarted _

theorem endsBy_start : State.start.EndsBy ok := .of_running nofun

end

/-- **Isolation.** In every run in which lookup and bind succeed for new sessions and a
    frame for an open id finds its task, the relay returns only because of the stream or
    because the client uses an id it should not; if every frame can be served, only
    because of the stream. A step that breaks the condition makes the relay return for
    another reason. -/
theorem relay_outlives_sessions (es : List Event) (s : State)
    (hrun : run State.step .start es = some s) :
    (Along State.step (Undisturbed Kept) .start es →
      s.EndsBy ByPeer ∧
      ∀ e s', s.step e = some s' → ¬ Undisturbed Kept s e → ¬ s'.EndsBy ByPeer) ∧
    (Along State.step (Undisturbed Served) .start es →
      s.EndsBy ByStream ∧
      ∀ e s', s.step e = some s' → ¬ Undisturbed Served s e → ¬ s'.EndsBy ByStream) := by
  constructor
  · intro hkept
    have hpeer : ∀ {s e s'}, s.Opened → s.EndsBy ByPeer → s.step e = some s' →
        (s'.EndsBy ByPeer ↔ Undisturbed Kept s e) := fun {s e s'} hO hI h =>
      endsBy_step_iff reasons_byPeer hI
        (fun frame rest => endsByPeer_actOn_iff (s := { s with arrived := rest }) hO frame) h
    obtain ⟨hO, hI⟩ : s.Opened ∧ s.EndsBy ByPeer :=
      run_inv_along (fun s => s.Opened ∧ s.EndsBy ByPeer) (Undisturbed Kept)
        (fun s e s' hP hinv h => ⟨opened_step hinv.1 h, (hpeer hinv.1 hinv.2 h).mpr hP⟩)
        es hkept ⟨opened_start, endsBy_start⟩ hrun
    exact ⟨hI, fun e s' h hbroken hI' => hbroken ((hpeer hO hI h).mp hI')⟩
  · intro hserved
    have hstream : ∀ {s e s'}, s.EndsBy ByStream → s.step e = some s' →
        (s'.EndsBy ByStream ↔ Undisturbed Served s e) := fun {s e s'} hI h =>
      endsBy_step_iff reasons_byStream hI
        (fun frame rest => endsByStream_actOn_iff (s := { s with arrived := rest }) frame) h
    have hI : s.EndsBy ByStream :=
      run_inv_along (State.EndsBy ByStream) (Undisturbed Served)
        (fun s e s' hP hI h => (hstream hI h).mpr hP) es hserved endsBy_start hrun
    exact ⟨hI, fun e s' h hbroken hI' => hbroken ((hstream hI h).mp hI')⟩

def openSecond : Outgoing := { openEcho with session := 2 }

/-- The first session is open and has been answered; the destination of the second does
    not resolve. -/
def failedOpen : List Event :=
  answered ++ [.deliver openSecond.layout, .pollFrame, .resolved none]

/-- Both sessions are open; the first falls silent, and the client continues it. -/
def continuedAfterIdle : List Event :=
  answered ++ [.deliver openSecond.layout, .pollFrame, .resolved (some echo), .bound true, .sent,
    .task 0 .idle, .deliver keepEcho.layout, .pollFrame]

/-- What happens to one session ends the relay, with the other session's task alive. -/
theorem session_ends_relay :
    (∃ s, run State.step .start failedOpen = some s ∧ s.taskAlive 0 = true ∧
      s.relay = .returned .unresolved ∧ ¬ s.EndsBy ByPeer) ∧
    (∃ s, run State.step .start continuedAfterIdle = some s ∧ s.taskAlive 1 = true ∧
      s.relay = .returned (.unknownContinuation 1) ∧ ¬ s.EndsBy ByPeer) :=
  ⟨⟨_, rfl, rfl, rfl, fun h => (h _ rfl).elim nofun nofun⟩,
    ⟨_, rfl, rfl, rfl, fun h => (h _ rfl).elim nofun fun hout => hout (by decide)⟩⟩

theorem relay_outlives_sessions_answered :
    ∃ s, run State.step .start answered = some s ∧ s.EndsBy ByPeer ∧ s.EndsBy ByStream :=
  ⟨_, rfl, ((relay_outlives_sessions answered _ rfl).1 (by decide)).1,
    ((relay_outlives_sessions answered _ rfl).2 (by decide)).1⟩

end Xhttp.Vless.Relay
