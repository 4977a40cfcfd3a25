import Xhttp.Lib.Map
import Xhttp.Lib.Pool
import Xhttp.Lib.Text

/- The session table of the server (`src/server.rs`): `get_session` finds or creates the session of an id,
   `remove_session` takes it out again, and `active_sessions` counts what the table and the calls in flight hold.
   Every access to the map and to the counter is one atomic step of a thread, and a schedule interleaves the threads
   in any order.

   A `DashMap` entry keeps its shard locked while it is held; here it locks its own id, which lets more schedules
   through. `usize` has 64 bits. -/
namespace Xhttp.Server.Sessions
open Xhttp.Lib

structure Limits where
  maxSessions : UInt64
  maxSessionIdLength : Nat

/-- An `Arc<Session>`: sessions are told apart by identity. -/
abbrev Session := Nat

/-- `struct ServerState`, with the flags of the sessions it has created.
    `returned` and `removed` only record what happened: the results of
    `get_session`, and for each `sessions.remove` that found an entry the session
    it was run for and the session it took out. -/
structure Table where
  sessions : AList (fun _ : Str => Session)
  activeSessions : UInt64
  /-- The ids whose map entry is held. -/
  locked : List Str
  taken : List Session
  connected : List Session
  fresh : Session
  returned : List (Str × Session)
  removed : List (Session × Session)

def Table.start : Table :=
  { sessions := ∅, activeSessions := 0, locked := [], taken := [], connected := [], fresh := 0,
    returned := [], removed := [] }

/-- Who called `get_session`: `packet_upload` and `stream_upload` only send to the
    session, `download` goes on to take its receiver. -/
inductive Caller where
  | upload
  | download
  deriving DecidableEq, Repr

/-- What is left of a request or task, named after its next step. -/
inductive Thread where
  /-- `get_session`: the length check and `state.sessions.get(id)`. -/
  | lookup (caller : Caller) (id : Str)
  /-- `get_session`: `active_sessions.fetch_update`. -/
  | fetchUpdate (caller : Caller) (id : Str)
  /-- `get_session`: `state.sessions.entry(id)`, and `v.insert` if it is vacant. -/
  | entry (caller : Caller) (id : Str)
  /-- `get_session`: the occupied entry is held; `fetch_sub` and `v.get()`. -/
  | occupied (caller : Caller) (id : Str)
  /-- `download`: `session.receiver.lock().await.take()`. -/
  | takeReceiver (id : Str) (session : Session)
  /-- `download`: `session.connected.store(true)`, then the two tasks. -/
  | connect (id : Str) (session : Session)
  /-- The orphan timer of `get_session`, asleep. -/
  | timer (id : Str) (session : Session)
  | reorderTask (id : Str) (session : Session)
  | downloadTask (id : Str) (session : Session)
  /-- `remove_session`: `state.sessions.remove(id)`, run for `session`. -/
  | remove (id : Str) (session : Session)
  /-- `remove_session`: `active_sessions.fetch_sub`. -/
  | fetchSub
  deriving DecidableEq, Repr

/-- What the caller does with the session `get_session` returned. -/
def afterGet (caller : Caller) (id : Str) (session : Session) : List Thread :=
  match caller with
  | .upload => []
  | .download => [.takeReceiver id session]

/-- One atomic step. The choice is read by the reorder task only: whether it ends
    by dropping the session or because the channel closed. -/
def act (limits : Limits) (s : Table) : Thread → Bool → Option (Table × List Thread)
  | .lookup caller id, _ =>
    if limits.maxSessionIdLength < id.len then some (s, [])
    else if id ∈ s.locked then none
    else match s.sessions.lookup id with
      | some session =>
        some ({ s with returned := (id, session) :: s.returned }, afterGet caller id session)
      | none => some (s, [.fetchUpdate caller id])
  | .fetchUpdate caller id, _ =>
    if s.activeSessions < limits.maxSessions then
      some ({ s with activeSessions := s.activeSessions + 1 }, [.entry caller id])
    else some (s, [])
  | .entry caller id, _ =>
    if id ∈ s.locked then none
    else match s.sessions.lookup id with
      | some _ => some ({ s with locked := id :: s.locked }, [.occupied caller id])
      | none =>
        some ({ s with sessions := s.sessions.insert id s.fresh, fresh := s.fresh + 1,
                       returned := (id, s.fresh) :: s.returned },
          .timer id s.fresh :: afterGet caller id s.fresh)
  | .occupied caller id, _ =>
    match s.sessions.lookup id with
    | some session =>
      some ({ s with activeSessions := s.activeSessions - 1, locked := s.locked.erase id,
                     returned := (id, session) :: s.returned },
        afterGet caller id session)
    | none => none
  | .takeReceiver id session, _ =>
    if session ∈ s.taken then some (s, [])
    else some ({ s with taken := session :: s.taken }, [.connect id session])
  | .connect id session, _ =>
    some ({ s with connected := session :: s.connected }, [.reorderTask id session, .downloadTask id session])
  | .timer id session, _ =>
    if id ∈ s.locked then none
    else match s.sessions.lookup id with
      | some current => some (s, if current ∈ s.connected then [] else [.remove id session])
      | none => some (s, [])
  | .reorderTask id session, fails => some (s, if fails then [.remove id session] else [])
  | .downloadTask id session, _ => some (s, [.remove id session])
  | .remove id session, _ =>
    if id ∈ s.locked then none
    else match s.sessions.lookup id with
      | some current =>
        some ({ s with sessions := s.sessions.erase id, removed := (session, current) :: s.removed }, [.fetchSub])
      | none => some (s, [])
  | .fetchSub, _ => some ({ s with activeSessions := s.activeSessions - 1 }, [])

open List

abbrev System := Pool Table Thread

def System.start : System := ⟨Table.start, []⟩

/-- Any `get_session` and any `remove_session` call may start at any time. -/
def anyCall : Thread → Bool
  | .lookup _ _ => true
  | .remove _ _ => true
  | _ => false

/-- The outcomes of one atomic step, one constructor each: every fact about steps
    below is a case analysis of this relation. -/
inductive Acts (limits : Limits) (s : Table) : Thread → Bool → Table → List Thread → Prop where
  | tooLong {caller id c} : Acts limits s (.lookup caller id) c s []
  | found {caller id c v} (hsome : s.sessions.lookup id = some v) :
      Acts limits s (.lookup caller id) c { s with returned := (id, v) :: s.returned }
        (afterGet caller id v)
  | missing {caller id c} : Acts limits s (.lookup caller id) c s [.fetchUpdate caller id]
  | reserved {caller id c} (hroom : s.activeSessions < limits.maxSessions) :
      Acts limits s (.fetchUpdate caller id) c { s with activeSessions := s.activeSessions + 1 }
        [.entry caller id]
  | refused {caller id c} : Acts limits s (.fetchUpdate caller id) c s []
  | held {caller id c v} (hsome : s.sessions.lookup id = some v) :
      Acts limits s (.entry caller id) c { s with locked := id :: s.locked } [.occupied caller id]
  | created {caller id c} (hfree : id ∉ s.locked) (hnone : s.sessions.lookup id = none) :
      Acts limits s (.entry caller id) c
        { s with sessions := s.sessions.insert id s.fresh, fresh := s.fresh + 1,
                 returned := (id, s.fresh) :: s.returned }
        (.timer id s.fresh :: afterGet caller id s.fresh)
  | givenBack {caller id c v} (hsome : s.sessions.lookup id = some v) :
      Acts limits s (.occupied caller id) c
        { s with activeSessions := s.activeSessions - 1, locked := s.locked.erase id,
                 returned := (id, v) :: s.returned }
        (afterGet caller id v)
  | conflict {id v c} : Acts limits s (.takeReceiver id v) c s []
  | took {id v c} (hfree : v ∉ s.taken) :
      Acts limits s (.takeReceiver id v) c { s with taken := v :: s.taken } [.connect id v]
  | connected {id v c} :
      Acts limits s (.connect id v) c { s with connected := v :: s.connected }
        [.reorderTask id v, .downloadTask id v]
  | timerIdle {id v c} : Acts limits s (.timer id v) c s []
  | timerFired {id v c} : Acts limits s (.timer id v) c s [.remove id v]
  | reorderClosed {id v} : Acts limits s (.reorderTask id v) false s []
  | reorderFailed {id v} : Acts limits s (.reorderTask id v) true s [.remove id v]
  | downloadEnded {id v c} : Acts limits s (.downloadTask id v) c s [.remove id v]
  | removed {id v c w} (hfree : id ∉ s.locked) (hsome : s.sessions.lookup id = some w) :
      Acts limits s (.remove id v) c
        { s with sessions := s.sessions.erase id, removed := (v, w) :: s.removed } [.fetchSub]
  | absent {id v c} : Acts limits s (.remove id v) c s []
  | subtracted {c} :
      Acts limits s .fetchSub c { s with activeSessions := s.activeSessions - 1 } []

variable {t : Thread} {ts : List Thread} {c : Bool} {s : Table} {es : List (Pool.Event Thread Bool)}
  {p : System} {s' : Table} {id : Str} {rest : List Thread}

theorem acts_of_act {limits : Limits}
    (ha : act limits s t c = some (s', ts)) : Acts limits s t c s' ts := by
  cases t with
  | lookup caller id =>
    simp only [act] at ha
    split at ha
    · cases ha; exact .tooLong
    · split at ha
      · cases ha
      · split at ha
        · rename_i hsome
          cases ha; exact .found hsome
        · cases ha; exact .missing
  | fetchUpdate caller id =>
    simp only [act] at ha
    split at ha
    · rename_i hroom
      cases ha; exact .reserved hroom
    · cases ha; exact .refused
  | entry caller id =>
    simp only [act] at ha
    split at ha
    · cases ha
    · rename_i hfree
      split at ha
      · rename_i hsome
        cases ha; exact .held hsome
      · rename_i hnone
        cases ha; exact .created hfree hnone
  | occupied caller id =>
    simp only [act] at ha
    split at ha
    · rename_i hsome
      cases ha; exact .givenBack hsome
    · cases ha
  | takeReceiver id session =>
    simp only [act] at ha
    split at ha
    · cases ha; exact .conflict
    · rename_i hfree
      cases ha; exact .took hfree
  | connect id session => cases ha; exact .connected
  | timer id session =>
    simp only [act] at ha
    split at ha
    · cases ha
    · split at ha
      · cases ha
        split
        · exact .timerIdle
        · exact .timerFired
      · cases ha; exact .timerIdle
  | reorderTask id session =>
    cases ha
    cases c
    · exact .reorderClosed
    · exact .reorderFailed
  | downloadTask id session => cases ha; exact .downloadEnded
  | remove id session =>
    simp only [act] at ha
    split at ha
    · cases ha
    · rename_i hfree
      split at ha
      · rename_i hsome
        cases ha; exact .removed hfree hsome
      · cases ha; exact .absent
  | fetchSub => cases ha; exact .subtracted

def Thread.inCall : Thread → Bool
  | .lookup _ _ | .fetchUpdate _ _ | .entry _ _ | .occupied _ _ | .remove _ _ | .fetchSub => true
  | _ => false

def Thread.subtracts : Thread → Bool
  | .occupied _ _ | .fetchSub => true
  | _ => false

/-! ## Accounting -/

/-- The thread has a unit of the counter that no entry of the table accounts for:
    it has not inserted its session yet, or it still has to subtract. -/
def Thread.holdsSlot : Thread → Bool
  | .entry _ _ | .occupied _ _ | .fetchSub => true
  | _ => false

def Thread.holdsEntry (id : Str) : Thread → Bool
  | .occupied _ i => i = id
  | _ => false

theorem Thread.holdsSlot_of_subtracts (h : t.subtracts = true) : t.holdsSlot = true := by
  cases t <;> first | rfl | cases h

theorem Thread.inCall_of_holdsSlot (h : t.holdsSlot = true) : t.inCall = true := by
  cases t <;> first | rfl | cases h

@[simp] theorem countP_holdsSlot_afterGet (caller : Caller) (id : Str) (v : Session) :
    (afterGet caller id v).countP Thread.holdsSlot = 0 := by
  cases caller <;> rfl

@[simp] theorem countP_holdsEntry_afterGet (caller : Caller) (id i : Str) (v : Session) :
    (afterGet caller id v).countP (Thread.holdsEntry i) = 0 := by
  cases caller <;> rfl

/-- What holds of the table `s` while the threads `ts` are running. -/
structure Inv (limits : Limits) (s : Table) (ts : List Thread) : Prop where
  counted : s.activeSessions.toNat = Map.size s.sessions + ts.countP Thread.holdsSlot
  capped : s.activeSessions ≤ limits.maxSessions
  guarded : ∀ id, ts.countP (Thread.holdsEntry id) = s.locked.count id
  present : ∀ id ∈ s.locked, id ∈ s.sessions

section
variable {limits : Limits} {s : Table} {ts us : List Thread}

theorem Inv.congr (h : Inv limits s ts) (hsessions : s'.sessions = s.sessions)
    (hactive : s'.activeSessions = s.activeSessions) (hlocked : s'.locked = s.locked)
    (hslots : us.countP Thread.holdsSlot = ts.countP Thread.holdsSlot)
    (hentries : ∀ id, us.countP (Thread.holdsEntry id) = ts.countP (Thread.holdsEntry id)) : Inv limits s' us where
  counted := by rw [hactive, hsessions, hslots, h.counted]
  capped := by rw [hactive]; exact h.capped
  guarded := by intro id; rw [hlocked, hentries, h.guarded]
  present := by rw [hlocked, hsessions]; exact h.present

theorem Inv.perm (h : Inv limits s ts) (hp : ts.Perm us) : Inv limits s us :=
  h.congr rfl rfl rfl (hp.countP_eq _).symm (fun _ => (hp.countP_eq _).symm)

theorem Inv.start : Inv limits Table.start [] where
  counted := by simp [Table.start]
  capped := by simp [Table.start, UInt64.le_iff_toNat_le]
  guarded := by simp [Table.start]
  present := by simp [Table.start]

theorem Inv.active_pos (h : Inv limits s ts) (ht : t ∈ ts) (hslot : t.holdsSlot = true) :
    0 < s.activeSessions.toNat := by
  have : 0 < ts.countP Thread.holdsSlot := countP_pos_iff.mpr ⟨t, ht, hslot⟩
  rw [h.counted]
  omega

end

theorem toNat_sub_one {n : UInt64} (h : 0 < n.toNat) : (n - 1).toNat = n.toNat - 1 := by
  have hle : (1 : UInt64) ≤ n := by rw [UInt64.le_iff_toNat_le, UInt64.toNat_one]; exact h
  rw [UInt64.toNat_sub_of_le _ _ hle, UInt64.toNat_one]

theorem toNat_add_one {n m : UInt64} (h : n < m) : (n + 1).toNat = n.toNat + 1 := by
  have hlt := UInt64.lt_iff_toNat_lt.mp h
  have hm := m.toNat_lt
  rw [UInt64.toNat_add, UInt64.toNat_one]
  omega

/-- Subtracting one of a unit that a thread holds leaves the counter below its limit. -/
theorem Inv.sub_le {limits : Limits} (h : Inv limits s ts)
    (ht : t ∈ ts) (hslot : t.holdsSlot = true) : s.activeSessions - 1 ≤ limits.maxSessions := by
  have hpos := h.active_pos ht hslot
  have hcap := UInt64.le_iff_toNat_le.mp h.capped
  rw [UInt64.le_iff_toNat_le, toNat_sub_one hpos]
  omega

section
variable {limits : Limits} {s : Table} {caller : Caller} {v : Session}

theorem Inv.fetchUpdate
    (h : Inv limits s (.fetchUpdate caller id :: rest)) (hlt : s.activeSessions < limits.maxSessions) :
    Inv limits { s with activeSessions := s.activeSessions + 1 } (.entry caller id :: rest) where
  counted := by
    have := h.counted
    grind [Thread.holdsSlot, toNat_add_one]
  capped := by
    rw [UInt64.le_iff_toNat_le, toNat_add_one hlt]
    exact UInt64.lt_iff_toNat_lt.mp hlt
  guarded := by simpa [countP_cons, Thread.holdsEntry] using h.guarded
  present := h.present

theorem Inv.insert (h : Inv limits s (.entry caller id :: rest)) (hnone : s.sessions.lookup id = none)
    (hsessions : s'.sessions = s.sessions.insert id v)
    (hactive : s'.activeSessions = s.activeSessions) (hlocked : s'.locked = s.locked) :
    Inv limits s' (.timer id v :: afterGet caller id v ++ rest) where
  counted := by
    have hc := h.counted
    have hnot : id ∉ s.sessions := AList.lookup_eq_none.mp hnone
    rw [hactive, hsessions, Map.size_insert_of_notMem v hnot]
    simp only [cons_append, countP_cons, countP_append, countP_holdsSlot_afterGet,
      Thread.holdsSlot, if_true, Bool.false_eq_true, if_false] at hc ⊢
    omega
  capped := by rw [hactive]; exact h.capped
  guarded := by
    intro i
    have hg := h.guarded i
    rw [hlocked, ← hg]
    simp [countP_append, Thread.holdsEntry]
  present := by
    intro i hi
    rw [hsessions]
    rw [hlocked] at hi
    exact (AList.mem_insert s.sessions).mpr (Or.inr (h.present i hi))

theorem Inv.lock (h : Inv limits s (.entry caller id :: rest)) (hsome : s.sessions.lookup id = some v) :
    Inv limits { s with locked := id :: s.locked } (.occupied caller id :: rest) where
  counted := by
    have hc := h.counted
    simpa [countP_cons, Thread.holdsSlot] using hc
  capped := h.capped
  guarded := by
    intro i
    have hg := h.guarded i
    simp only [countP_cons, Thread.holdsEntry, count_cons] at hg ⊢
    simp_all
  present := by
    intro i hi
    rcases mem_cons.mp hi with rfl | hi
    · exact Map.mem_of_lookup hsome
    · exact h.present i hi

theorem Inv.unlock (h : Inv limits s (.occupied caller id :: rest)) (hsessions : s'.sessions = s.sessions)
    (hactive : s'.activeSessions = s.activeSessions - 1) (hlocked : s'.locked = s.locked.erase id)
    (hslots : ts.countP Thread.holdsSlot = 0) (hentries : ∀ i, ts.countP (Thread.holdsEntry i) = 0) :
    Inv limits s' (ts ++ rest) where
  counted := by
    have hc := h.counted
    rw [hactive, hsessions, toNat_sub_one (h.active_pos mem_cons_self rfl)]
    simp only [countP_cons, countP_append, hslots, Thread.holdsSlot, if_true] at hc ⊢
    omega
  capped := by
    rw [hactive]
    exact h.sub_le mem_cons_self rfl
  guarded := by
    intro i
    have hg := h.guarded i
    rw [hlocked, count_erase, ← hg]
    simp only [countP_cons, countP_append, hentries, Thread.holdsEntry, Nat.zero_add]
    by_cases hi : id = i
    · simp [hi]
    · simp [hi]
  present := by
    intro i hi
    rw [hsessions]
    rw [hlocked] at hi
    exact h.present i (mem_of_mem_erase hi)

theorem Inv.remove {o : Session} (h : Inv limits s (.remove id o :: rest))
    (hfree : id ∉ s.locked) (hsome : s.sessions.lookup id = some v) (hsessions : s'.sessions = s.sessions.erase id)
    (hactive : s'.activeSessions = s.activeSessions) (hlocked : s'.locked = s.locked) :
    Inv limits s' (.fetchSub :: rest) where
  counted := by
    have hc := h.counted
    have hsize := Map.size_erase_of_mem (Map.mem_of_lookup hsome)
    rw [hactive, hsessions]
    simp only [countP_cons, Thread.holdsSlot, if_true, Bool.false_eq_true, if_false] at hc ⊢
    omega
  capped := by rw [hactive]; exact h.capped
  guarded := by
    intro i
    rw [hlocked, ← h.guarded i]
    simp [Thread.holdsEntry]
  present := by
    intro i hi
    rw [hlocked] at hi
    rw [hsessions]
    refine AList.mem_erase.mpr ⟨?_, h.present i hi⟩
    rintro rfl
    exact hfree hi

theorem Inv.fetchSub (h : Inv limits s (.fetchSub :: rest)) :
    Inv limits { s with activeSessions := s.activeSessions - 1 } rest where
  counted := by
    have hc := h.counted
    rw [toNat_sub_one (h.active_pos mem_cons_self rfl)]
    simp only [countP_cons, Thread.holdsSlot, if_true] at hc ⊢
    omega
  capped := h.sub_le mem_cons_self rfl
  guarded := by simpa [countP_cons, Thread.holdsEntry] using h.guarded
  present := h.present

end

theorem Inv.idle {limits : Limits}
    (h : Inv limits s (t :: rest)) (hslot : t.holdsSlot = false) (hentry : ∀ i, t.holdsEntry i = false)
    (hsessions : s'.sessions = s.sessions) (hactive : s'.activeSessions = s.activeSessions)
    (hlocked : s'.locked = s.locked) (hslots : ts.countP Thread.holdsSlot = 0)
    (hentries : ∀ i, ts.countP (Thread.holdsEntry i) = 0) : Inv limits s' (ts ++ rest) := by
  refine h.congr hsessions hactive hlocked ?_ (fun i => ?_)
  · simp [countP_append, hslots, hslot]
  · simp [countP_append, hentries, hentry]

theorem act_inv {limits : Limits} (s : Table) (t : Thread) (c : Bool) (s' : Table)
    (ts rest : List Thread) (h : Inv limits s (t :: rest)) (ha : act limits s t c = some (s', ts)) :
    Inv limits s' (ts ++ rest) := by
  -- six outcomes touch the map, the counter or the locks; the others are idle
  cases acts_of_act ha with
  | reserved hroom => exact h.fetchUpdate hroom
  | held hsome => exact h.lock hsome
  | created hfree hnone => exact h.insert hnone rfl rfl rfl
  | givenBack hsome => exact h.unlock rfl rfl rfl (by simp) (by simp)
  | removed hfree hsome => exact h.remove hfree hsome rfl rfl rfl
  | subtracted => exact h.fetchSub
  | found hsome => exact h.idle rfl (fun _ => rfl) rfl rfl rfl (by simp) (by simp)
  | _ => exact h.idle rfl (fun _ => rfl) rfl rfl rfl rfl (fun _ => rfl)

theorem schedule_inv {limits : Limits} (hr : run (Pool.step anyCall (act limits)) System.start es = some p) :
    Inv limits p.shared p.threads := by
  refine Pool.inv_run (fun s ts us hp h => h.perm hp) ?_ act_inv Inv.start hr
  intro s ts t ht h
  refine h.congr rfl rfl rfl ?_ (fun i => ?_)
  -- a call that has only started holds neither a slot nor an entry
  · cases t <;> first | rfl | cases ht
  · cases t <;> first | rfl | cases ht

/-! ## Agreement -/

/-- What one atomic step does to the map and to the results: nothing to the map and
    at most one result, the session the map holds; a new session for an id that had
    none; or a removal. -/
theorem act_sessions {limits : Limits} (ha : act limits s t c = some (s', ts)) :
    (s'.sessions = s.sessions ∧ s'.returned = s.returned) ∨
    (∃ id v, s'.sessions = s.sessions ∧ s.sessions.lookup id = some v ∧
      s'.returned = (id, v) :: s.returned) ∨
    (∃ id v, s.sessions.lookup id = none ∧ s'.sessions = s.sessions.insert id v ∧
      s'.returned = (id, v) :: s.returned) ∨
    (∃ id, s'.sessions = s.sessions.erase id ∧ s'.returned = s.returned) := by
  cases acts_of_act ha with
  | found hsome | givenBack hsome => exact Or.inr (Or.inl ⟨_, _, rfl, hsome, rfl⟩)
  | created hfree hnone => exact Or.inr (Or.inr (Or.inl ⟨_, _, hnone, rfl, rfl⟩))
  | removed hfree hsome => exact Or.inr (Or.inr (Or.inr ⟨_, rfl, rfl⟩))
  | _ => exact Or.inl ⟨rfl, rfl⟩

/-- After the event `id` is in the table. -/
def Stays (limits : Limits) (id : Str) (p : System) (e : Pool.Event Thread Bool) : Prop :=
  ∀ p', Pool.step anyCall (act limits) p e = some p' → id ∈ p'.shared.sessions

/-- The results `new` for `id` are the session the table `s'` holds, and so is the
    session the table `s` held. -/
def Agrees (id : Str) (s s' : Table) (new : List (Str × Session)) : Prop :=
  s'.returned = new ++ s.returned ∧ (∀ v, (id, v) ∈ new → s'.sessions.lookup id = some v) ∧
    ∀ v, s.sessions.lookup id = some v → s'.sessions.lookup id = some v

theorem step_agrees {limits : Limits} {p' : System} {e : Pool.Event Thread Bool}
    (hs : Pool.step anyCall (act limits) p e = some p') (hin : id ∈ p'.shared.sessions) :
    ∃ new, Agrees id p.shared p'.shared new := by
  rcases Pool.step_eq_some hs with ⟨t, -, -, rfl⟩ | ⟨_, c, t, s', ts, rest, -, -, -, ha, rfl⟩
  · exact ⟨[], rfl, by simp, fun _ h => h⟩
  · rcases act_sessions ha with ⟨h1, h2⟩ | ⟨i, v, h1, h2, h3⟩ | ⟨i, v, h1, h2, h3⟩ | ⟨i, h1, h2⟩
    · exact ⟨[], h2, by simp, fun v hv => by rw [h1]; exact hv⟩
    · -- a result: the session the map holds
      refine ⟨[(i, v)], h3, ?_, fun w hw => by rw [h1]; exact hw⟩
      grind
    · -- a new session, for an id that had none
      refine ⟨[(i, v)], h3, ?_, ?_⟩
      · grind [mem_singleton, Prod.mk.injEq, AList.lookup_insert]
      grind [AList.lookup_insert_ne]
    · -- the removed id cannot be `id`, which is still there
      refine ⟨[], h2, by simp, fun w hw => ?_⟩
      have hne : id ≠ i := by
        rintro rfl
        rw [h1] at hin
        exact (AList.mem_erase.mp hin).1 rfl
      rw [h1, AList.lookup_erase_ne hne]
      exact hw

theorem run_agrees {limits : Limits} : ∀ (es : List (Pool.Event Thread Bool)) {p p' : System},
    Along (Pool.step anyCall (act limits)) (Stays limits id) p es →
    run (Pool.step anyCall (act limits)) p es = some p' →
    ∃ new, Agrees id p.shared p'.shared new
  | [], p, p', _, hr => by
    cases hr
    exact ⟨[], rfl, by simp, fun _ h => h⟩
  | e :: es, p, p', ⟨hstay, hrest⟩, hr => by
    obtain ⟨m, hm, hr'⟩ := run_cons_eq_some.mp hr
    -- results of the first event, and behind them (newer) those of the rest
    obtain ⟨new₁, h1, h2, h3⟩ := step_agrees hm (hstay m hm)
    obtain ⟨new₂, k1, k2, k3⟩ := run_agrees es (hrest m hm) hr'
    refine ⟨new₂ ++ new₁, by rw [k1, h1, append_assoc], ?_, fun v hv => k3 v (h3 v hv)⟩
    grind

/-- **Session accounting.** At every point of every schedule of any number of
    `get_session` and `remove_session` calls: the table is no larger than the
    counter and the counter no larger than `max_sessions`; a `fetch_sub` about to
    run finds a positive counter; with no call in flight the counter is the size of
    the table; and from there on, as long as `id` stays in the table, all calls that
    return a session for `id` return the same one. -/
theorem session_accounting (limits : Limits) (es : List (Pool.Event Thread Bool)) (p : System)
    (hr : run (Pool.step anyCall (act limits)) System.start es = some p) :
    Map.size p.shared.sessions ≤ p.shared.activeSessions.toNat ∧
    p.shared.activeSessions ≤ limits.maxSessions ∧
    (∀ t ∈ p.threads, t.subtracts = true → 0 < p.shared.activeSessions.toNat) ∧
    ((∀ t ∈ p.threads, t.inCall = false) →
      p.shared.activeSessions.toNat = Map.size p.shared.sessions) ∧
    (∀ id fs p', run (Pool.step anyCall (act limits)) p fs = some p' →
      Along (Pool.step anyCall (act limits)) (Stays limits id) p fs →
      ∃ new, p'.shared.returned = new ++ p.shared.returned ∧
        ∀ v w, (id, v) ∈ new → (id, w) ∈ new → v = w) := by
  have h := schedule_inv hr
  refine ⟨by rw [h.counted]; exact Nat.le_add_right _ _, h.capped, ?_, ?_, ?_⟩
  · intro t ht hsub
    exact h.active_pos ht (Thread.holdsSlot_of_subtracts hsub)
  · intro hidle
    have hzero : p.threads.countP Thread.holdsSlot = 0 := by
      rw [countP_eq_zero]
      intro t ht hslot
      exact absurd (hidle t ht) (by rw [Thread.inCall_of_holdsSlot hslot]; simp)
    rw [h.counted, hzero, Nat.add_zero]
  · intro id fs p' hrun hstay
    obtain ⟨new, hnew, hsame, -⟩ := run_agrees fs hstay hrun
    grind

/-- Two calls race for one id: both reserve a slot, one inserts its session, the
    other finds the entry occupied and gives its slot back. -/
theorem session_accounting_race :
    ∃ p, run (Pool.step anyCall (act ⟨4, 8⟩)) System.start
        [.spawn (.lookup .upload ['a']), .spawn (.lookup .upload ['a']), .act 0 false, .act 1 false,
         .act 0 false, .act 1 false, .act 0 false, .act 1 false, .act 0 false] = some p ∧
      p.shared.returned = [(['a'], 0), (['a'], 0)] ∧
      p.shared.activeSessions.toNat = Map.size p.shared.sessions := by
  refine ⟨_, rfl, rfl, (session_accounting ⟨4, 8⟩ [.spawn (.lookup .upload ['a']),
    .spawn (.lookup .upload ['a']), .act 0 false, .act 1 false, .act 0 false, .act 1 false,
    .act 0 false, .act 1 false, .act 0 false] _ rfl).2.2.2.1 ?_⟩
  intro t ht
  cases mem_singleton.mp ht
  rfl

end Xhttp.Server.Sessions
