import Xhttp.Server.Sessions

/- Which session a cleanup takes out of the table (`src/server.rs`). Every
   cleanup is started for one session (the orphan timer of `get_session`, the two
   tasks of `download`) but `remove_session` takes out whatever session the id
   names when it runs. After the id is used again that is another session
   (`stale_timer_removes_new_session`). -/
namespace Xhttp.Server.Sessions
open Xhttp.Lib List

/-- The threads a client can start: a request that asks for its session. -/
def request : Thread → Bool
  | .lookup _ _ => true
  | _ => false

/-- The id and session of a cleanup that the thread is or can still become. A
    `download` that will find its receiver taken answers `409` and cleans nothing. -/
def Thread.cleans (s : Table) : Thread → Option (Str × Session)
  | .timer id v | .reorderTask id v | .downloadTask id v | .connect id v | .remove id v => some (id, v)
  | .takeReceiver id v => if v ∈ s.taken then none else some (id, v)
  | _ => none

variable {s s' : Table} {t u : Thread} {rest : List Thread} {id : Str} {caller : Caller} {o : Session} {c : Bool}
  {p : System} {v : Session} {ts : List Thread}

theorem cleans_congr (htaken : s'.taken = s.taken) (t : Thread) : t.cleans s' = t.cleans s := by
  cases t <;> simp only [Thread.cleans, htaken]

/-- The event makes `get_session` insert a new session under `id`. -/
def Creates (p : System) (e : Pool.Event Thread Bool) (id : Str) : Prop :=
  ∃ i c caller, e = .act i c ∧ p.threads[i]? = some (.entry caller id) ∧
    p.shared.sessions.lookup id = none

/-- No cleanup is pending for an id at the moment a session is created under it. -/
def Undisturbed (p : System) (e : Pool.Event Thread Bool) : Prop :=
  ∀ id, Creates p e id → ∀ t ∈ p.threads, ∀ v, t.cleans p.shared ≠ some (id, v)

/-- `Undisturbed`, computed: only a thread at its map entry can create a session. -/
def undisturbed (p : System) : Pool.Event Thread Bool → Bool
  | .spawn _ => true
  | .act i _ =>
    match p.threads[i]? with
    | some (.entry _ id) => decide (p.shared.sessions.lookup id = none →
        ∀ t ∈ p.threads, (t.cleans p.shared).map Prod.fst ≠ some id)
    | _ => true

theorem undisturbed_iff (p : System) (e : Pool.Event Thread Bool) : undisturbed p e = true ↔ Undisturbed p e := by
  cases e with
  | spawn t => exact iff_of_true rfl nofun
  | act i c =>
    simp only [undisturbed]
    split
    · rename_i caller id hi
      rw [decide_eq_true_iff]
      constructor
      · rintro h j ⟨k, d, caller', he, hk, hnone⟩ t ht v hc
        grind
      · intro h hnone t ht hc
        obtain ⟨⟨j, v⟩, hv, rfl⟩ := Option.map_eq_some_iff.mp hc
        exact h j ⟨i, c, caller, rfl, hi, hnone⟩ t ht v hv
    · rename_i hnot
      refine iff_of_true rfl ?_
      rintro j ⟨k, d, caller, he, hk, -⟩
      cases he
      exact absurd hk (hnot caller j)

instance (p : System) (e : Pool.Event Thread Bool) : Decidable (Undisturbed p e) :=
  decidable_of_iff _ (undisturbed_iff p e)

/-! ## Cleanups that keep to their own session -/

/-- Every pending cleanup is for the session its id names, if it names one, and
    every removal so far took out the session it was run for. -/
def Owned (s : Table) (ts : List Thread) : Prop :=
  (∀ t ∈ ts, ∀ id o, t.cleans s = some (id, o) → ∀ v, s.sessions.lookup id = some v → v = o) ∧
    ∀ r ∈ s.removed, r.1 = r.2

theorem Owned.perm {us : List Thread} (hp : ts.Perm us) (h : Owned s ts) : Owned s us :=
  ⟨fun t ht => h.1 t (hp.mem_iff.mpr ht), h.2⟩

/-- A step that only moves the thread on: the map and the removals stay, cleanups
    already pending stay pending or lapse, and what the thread leaves behind is owned. -/
theorem Owned.move (h : Owned s (t :: rest))
    (hsessions : s'.sessions = s.sessions) (hremoved : s'.removed = s.removed) (htaken : ∀ v ∈ s.taken, v ∈ s'.taken)
    (hts : ∀ u ∈ ts, ∀ id o, u.cleans s' = some (id, o) →
      ∀ v, s.sessions.lookup id = some v → v = o) : Owned s' (ts ++ rest) := by
  refine ⟨?_, by rw [hremoved]; exact h.2⟩
  intro u hu id o hc v hv
  rw [hsessions] at hv
  rcases mem_append.mp hu with hu | hu
  · exact hts u hu id o hc v hv
  · refine h.1 u (mem_cons_of_mem t hu) id o ?_ v hv
    -- only a download that has not taken its receiver yet depends on the table
    cases u with
    | takeReceiver i w =>
      simp only [Thread.cleans] at hc ⊢
      grind
    | _ => exact hc

theorem cleans_afterGet {i : Str}
    (hu : u ∈ afterGet caller id v) (hc : u.cleans s = some (i, o)) : i = id ∧ o = v := by
  cases caller with
  | upload => simp [afterGet] at hu
  | download =>
    simp_all [afterGet, Thread.cleans, Option.some.injEq, Prod.mk.injEq, symm]

theorem Owned.create (h : Owned s (.entry caller id :: rest)) (hfree : ∀ t ∈ rest, ∀ v, t.cleans s ≠ some (id, v))
    (hsessions : s'.sessions = s.sessions.insert id s.fresh) (hremoved : s'.removed = s.removed)
    (htaken : s'.taken = s.taken) : Owned s' (.timer id s.fresh :: afterGet caller id s.fresh ++ rest) := by
  refine ⟨?_, by rw [hremoved]; exact h.2⟩
  intro u hu i o hc v hv
  rw [hsessions] at hv
  rw [cleans_congr htaken] at hc
  obtain ⟨rfl, rfl⟩ | ⟨hi, hv⟩ := Map.lookup_insert_cases hv
  · -- cleanups of the new session: its timer, its download, and by `hfree` no others
    simp only [cons_append, mem_cons, mem_append] at hu
    rcases hu with rfl | hu | hu
    · simp only [Thread.cleans, Option.some.injEq, Prod.mk.injEq] at hc
      exact hc.2
    · exact (cleans_afterGet hu hc).2.symm
    · exact absurd hc (hfree u hu o)
  · -- other ids keep their session
    simp only [cons_append, mem_cons, mem_append] at hu
    rcases hu with rfl | hu | hu
    · simp only [Thread.cleans, Option.some.injEq, Prod.mk.injEq] at hc
      exact absurd hc.1.symm hi
    · exact absurd (cleans_afterGet hu hc).1 hi
    · exact h.1 u (mem_cons_of_mem _ hu) i o hc v hv

/-- A removal takes out the session it was run for, and leaves its id without one. -/
theorem Owned.remove (h : Owned s (.remove id o :: rest)) (hsome : s.sessions.lookup id = some v) :
    Owned { s with sessions := s.sessions.erase id, removed := (o, v) :: s.removed }
      (.fetchSub :: rest) := by
  have hown : v = o := h.1 _ mem_cons_self id o rfl v hsome
  refine ⟨?_, ?_⟩
  · intro u hu i w hc x hx
    rcases mem_cons.mp hu with rfl | hu
    · cases hc
    · refine h.1 u (mem_cons_of_mem _ hu) i w ?_ x (Map.lookup_of_lookup_erase hx)
      cases u <;> exact hc
  · intro r hr
    rcases mem_cons.mp hr with rfl | hr
    · exact hown.symm
    · exact h.2 r hr

section
variable (h : Owned s (t :: rest))
include h

/-- A step on the way of one cleanup: what the thread leaves behind is the same
    cleanup. -/
theorem Owned.pass (hc : t.cleans s = some (id, o)) (hsessions : s'.sessions = s.sessions)
    (hremoved : s'.removed = s.removed) (htaken : ∀ v ∈ s.taken, v ∈ s'.taken)
    (hts : ∀ u ∈ ts, u.cleans s' = some (id, o)) : Owned s' (ts ++ rest) := by
  refine h.move hsessions hremoved htaken ?_
  intro u hu i o' hu' v hv
  rw [hts u hu] at hu'
  cases hu'
  exact h.1 t mem_cons_self id o hc v hv

theorem Owned.hand {w : Session} (hsome : s.sessions.lookup id = some w)
    (hsessions : s'.sessions = s.sessions) (hremoved : s'.removed = s.removed)
    (htaken : s'.taken = s.taken) : Owned s' (afterGet caller id w ++ rest) := by
  refine h.move hsessions hremoved (by rw [htaken]; exact fun _ hv => hv) ?_
  grind [cleans_afterGet]

/-- Every atomic step keeps cleanups to their own sessions, if no cleanup is pending
    for the id of a session it creates. -/
theorem act_owned {limits : Limits} (ha : act limits s t c = some (s', ts))
    (hcreate : ∀ caller id, t = .entry caller id → s.sessions.lookup id = none →
      ∀ u ∈ rest, ∀ v, u.cleans s ≠ some (id, v)) : Owned s' (ts ++ rest) := by
  have keep : ∀ v ∈ s.taken, v ∈ s.taken := fun _ hv => hv
  cases acts_of_act ha with
  | created hfree hnone => exact h.create (hcreate _ _ rfl hnone) rfl rfl rfl
  | removed hfree hsome => exact h.remove hsome
  | found hsome | givenBack hsome => exact h.hand hsome rfl rfl rfl
  | took hfree =>
    exact h.pass (by rw [Thread.cleans, if_neg hfree]) rfl rfl
      (fun v hv => mem_cons_of_mem _ hv) (by simp [Thread.cleans])
  | connected | timerFired | reorderFailed | downloadEnded => exact h.pass rfl rfl rfl keep (by simp [Thread.cleans])
  | _ => exact h.move rfl rfl keep (by simp [Thread.cleans])

end

theorem step_owned {limits : Limits} (p : System) (e : Pool.Event Thread Bool) (p' : System)
    (hq : Undisturbed p e) (h : Owned p.shared p.threads)
    (hs : Pool.step request (act limits) p e = some p') : Owned p'.shared p'.threads := by
  refine Pool.inv_step (fun s ts us hp => Owned.perm hp) ?_ ?_ h hs
  · intro t ht h
    refine ⟨?_, h.2⟩
    intro u hu i o hc
    rcases mem_cons.mp hu with rfl | hu
    · cases u with
      | lookup caller id => cases hc
      | _ => cases ht
    · exact h.1 u hu i o hc
  · intro i c t s' ts rest he hi hp h ha
    refine act_owned h ha ?_
    rintro caller id rfl hnone u hu
    exact hq id ⟨i, c, caller, he, hi, hnone⟩ u (hp.mem_iff.mpr (mem_cons_of_mem _ hu))

/-! ## Why the condition is needed -/

def Thread.session : Thread → Option Session
  | .timer _ v | .reorderTask _ v | .downloadTask _ v | .connect _ v | .remove _ v
  | .takeReceiver _ v => some v
  | _ => none

theorem session_of_cleans (hc : t.cleans s = some (id, o)) : t.session = some o := by
  cases t with
  | takeReceiver i w =>
    simp only [Thread.cleans] at hc
    split at hc <;> cases hc
    rfl
  | _ => cases hc <;> rfl

/-- Every session in sight has been created: the next one is new. -/
def Born (s : Table) (ts : List Thread) : Prop :=
  (∀ t ∈ ts, ∀ v, t.session = some v → v < s.fresh) ∧
    (∀ v ∈ s.connected, v < s.fresh) ∧ ∀ id v, s.sessions.lookup id = some v → v < s.fresh

theorem session_afterGet {w : Session} (hu : u ∈ afterGet caller id v) (hw : u.session = some w) : w = v := by
  cases caller with
  | upload => simp [afterGet] at hu
  | download =>
    simp only [afterGet, mem_singleton] at hu
    subst hu
    exact (Option.some.inj hw).symm

theorem Born.move (h : Born s (t :: rest))
    (hfresh : s'.fresh = s.fresh) (hts : ∀ u ∈ ts, ∀ v, u.session = some v → v < s.fresh)
    (hconnected : ∀ v ∈ s'.connected, v ∈ s.connected ∨ t.session = some v)
    (hsessions : ∀ id v, s'.sessions.lookup id = some v → s.sessions.lookup id = some v) : Born s' (ts ++ rest) := by
  refine ⟨?_, ?_, ?_⟩
  · intro u hu v hv
    rw [hfresh]
    rcases mem_append.mp hu with hu | hu
    · exact hts u hu v hv
    · exact h.1 u (mem_cons_of_mem t hu) v hv
  · intro v hv
    rw [hfresh]
    rcases hconnected v hv with hv | hv
    · exact h.2.1 v hv
    · exact h.1 t mem_cons_self v hv
  · intro id v hv
    rw [hfresh]
    exact h.2.2 id v (hsessions id v hv)

/-- The next session is born: its timer and its caller work for it. -/
theorem Born.create (h : Born s (t :: rest)) (hfresh : s'.fresh = s.fresh + 1) (hconnected : s'.connected = s.connected)
    (hsessions : s'.sessions = s.sessions.insert id s.fresh) :
    Born s' (.timer id s.fresh :: afterGet caller id s.fresh ++ rest) := by
  refine ⟨?_, ?_, ?_⟩
  · intro u hu v hv
    rw [hfresh]
    simp only [cons_append, mem_cons, mem_append] at hu
    rcases hu with rfl | hu | hu
    · cases hv
      exact Nat.lt_succ_self _
    · rw [session_afterGet hu hv]
      exact Nat.lt_succ_self _
    · exact Nat.lt_succ_of_lt (h.1 u (mem_cons_of_mem _ hu) v hv)
  · intro v hv
    rw [hfresh]
    rw [hconnected] at hv
    exact Nat.lt_succ_of_lt (h.2.1 v hv)
  · intro i v hv
    rw [hfresh]
    rw [hsessions] at hv
    obtain ⟨rfl, rfl⟩ | ⟨-, hv⟩ := Map.lookup_insert_cases hv
    · exact Nat.lt_succ_self _
    · exact Nat.lt_succ_of_lt (h.2.2 i v hv)

theorem act_born {limits : Limits} (s : Table) (t : Thread) (c : Bool) (s' : Table)
    (ts rest : List Thread) (h : Born s (t :: rest)) (ha : act limits s t c = some (s', ts)) :
    Born s' (ts ++ rest) := by
  have own : ∀ v, t.session = some v → v < s.fresh := h.1 t mem_cons_self
  have keepC : ∀ v ∈ s.connected, v ∈ s.connected ∨ t.session = some v := fun _ hv => Or.inl hv
  have keepS : ∀ id v, s.sessions.lookup id = some v → s.sessions.lookup id = some v :=
    fun _ _ hv => hv
  cases acts_of_act ha with
  | created hfree hnone => exact h.create rfl rfl rfl
  | removed hfree hsome =>
    refine h.move rfl ?_ keepC fun i x => Map.lookup_of_lookup_erase
    intro u hu v hv
    rw [mem_singleton.mp hu] at hv
    cases hv
  | found hsome | givenBack hsome =>
    exact h.move rfl (fun u hu v hv => by rw [session_afterGet hu hv]; exact h.2.2 _ _ hsome) keepC keepS
  | connected =>
    refine h.move rfl ?_ ?_ keepS
    · intro u hu v hv
      simp only [mem_cons, not_mem_nil, or_false] at hu
      rcases hu with rfl | rfl <;> exact own v hv
    · intro v hv
      rcases mem_cons.mp hv with rfl | hv
      · exact Or.inr rfl
      · exact Or.inl hv
  | _ =>
    refine h.move rfl ?_ keepC keepS
    intro u hu v hv
    -- at most one thread goes on, for the same session
    simp only [mem_singleton, not_mem_nil] at hu <;> (subst hu; exact own v hv)

theorem schedule_born {limits : Limits} {es : List (Pool.Event Thread Bool)}
    (hr : run (Pool.step request (act limits)) System.start es = some p) : Born p.shared p.threads := by
  refine Pool.inv_run ?_ ?_ act_born ?_ hr
  · exact fun s ts us hp h => ⟨fun t ht => h.1 t (hp.mem_iff.mpr ht), h.2⟩
  · intro s ts t ht h
    refine ⟨?_, h.2⟩
    intro u hu v hv
    rcases mem_cons.mp hu with rfl | hu
    · cases u with
      | lookup caller id => cases hv
      | _ => cases ht
    · exact h.1 u hu v hv
  · exact ⟨by simp [System.start], by simp [System.start, Table.start], by simp [System.start, Table.start]⟩

/-- The session of `id` is `v`, nobody holds its entry and no `download` has
    connected to it. -/
def Exposed (s : Table) (id : Str) (v : Session) : Prop :=
  s.sessions.lookup id = some v ∧ id ∉ s.locked ∧ v ∉ s.connected

theorem exists_removal_of_remove {limits : Limits}
    (ht : .remove id o ∈ p.threads) (hx : Exposed p.shared id v) :
    ∃ fs q, run (Pool.step request (act limits)) p fs = some q ∧ (o, v) ∈ q.shared.removed := by
  have hact : act limits p.shared (.remove id o) false =
      some ({ p.shared with sessions := p.shared.sessions.erase id,
                            removed := (o, v) :: p.shared.removed }, [.fetchSub]) := by
    simp [act, hx.1, hx.2.1]
  refine Pool.exists_run_of_act ht hact ?_
  intro q hq _
  exact ⟨[], q, rfl, by rw [hq]; exact mem_cons_self⟩

theorem exists_removal_of_call {limits : Limits} (ht : t ∈ p.threads)
    (hact : act limits p.shared t c = some (p.shared, [.remove id o])) (hx : Exposed p.shared id v) :
    ∃ fs q, run (Pool.step request (act limits)) p fs = some q ∧ (o, v) ∈ q.shared.removed := by
  refine Pool.exists_run_of_act ht hact ?_
  intro q hq hts
  exact exists_removal_of_remove (hts _ mem_cons_self) (hq ▸ hx)

theorem exists_removal_of_downloadTask {limits : Limits}
    (ht : .downloadTask id o ∈ p.threads) (hx : Exposed p.shared id v) :
    ∃ fs q, run (Pool.step request (act limits)) p fs = some q ∧ (o, v) ∈ q.shared.removed := by
  have hact : act limits p.shared (.downloadTask id o) false = some (p.shared, [.remove id o]) := rfl
  exact exists_removal_of_call ht hact hx

theorem exists_removal_of_connect {limits : Limits}
    (ht : .connect id o ∈ p.threads) (hx : Exposed p.shared id v) (hne : v ≠ o) :
    ∃ fs q, run (Pool.step request (act limits)) p fs = some q ∧ (o, v) ∈ q.shared.removed := by
  have hact : act limits p.shared (.connect id o) false =
      some ({ p.shared with connected := o :: p.shared.connected }, [.reorderTask id o, .downloadTask id o]) := rfl
  refine Pool.exists_run_of_act ht hact ?_
  intro q hq hts
  refine exists_removal_of_downloadTask (hts (.downloadTask id o) (by simp)) ?_
  rw [hq]
  exact ⟨hx.1, hx.2.1, by simp [hne, hx.2.2]⟩

/-- A cleanup pending for one session takes out whichever session its id names, once
    its thread is let run to the end. -/
theorem exists_removal_of_cleans {limits : Limits} (ht : t ∈ p.threads) (hc : t.cleans p.shared = some (id, o))
    (hx : Exposed p.shared id v) (hne : v ≠ o) :
    ∃ fs q, run (Pool.step request (act limits)) p fs = some q ∧ (o, v) ∈ q.shared.removed := by
  cases t with
  | remove i w => cases hc; exact exists_removal_of_remove ht hx
  | downloadTask i w => cases hc; exact exists_removal_of_downloadTask ht hx
  | connect i w => cases hc; exact exists_removal_of_connect ht hx hne
  | timer i w =>
    cases hc
    -- the timer asks whether the session the id names now is connected, not its own
    have hact : act limits p.shared (.timer id o) false = some (p.shared, [.remove id o]) := by
      simp [act, hx.1, hx.2.1, hx.2.2]
    exact exists_removal_of_call ht hact hx
  | reorderTask i w =>
    cases hc
    have hact : act limits p.shared (.reorderTask id o) true = some (p.shared, [.remove id o]) := rfl
    exact exists_removal_of_call ht hact hx
  | takeReceiver i w =>
    simp only [Thread.cleans] at hc
    split at hc
    · cases hc
    · rename_i hnot
      cases hc
      have hact : act limits p.shared (.takeReceiver id o) false =
          some ({ p.shared with taken := o :: p.shared.taken }, [.connect id o]) := by
        simp [act, hnot]
      refine Pool.exists_run_of_act ht hact ?_
      intro q hq hts
      refine exists_removal_of_connect (hts _ mem_cons_self) ?_ hne
      rw [hq]; exact hx
  | _ => cases hc

/-- The session just created is exposed to every cleanup that was pending before. -/
theorem creates_exposed {limits : Limits} {p' : System} {e : Pool.Event Thread Bool}
    (hb : Born p.shared p.threads) (hs : Pool.step request (act limits) p e = some p') (hcr : Creates p e id) :
    Exposed p'.shared id p.shared.fresh ∧ p'.shared.taken = p.shared.taken ∧
      ∀ t ∈ p.threads, ∀ i o, t.cleans p.shared = some (i, o) → t ∈ p'.threads := by
  obtain ⟨i, c, caller, rfl, hi, hnone⟩ := hcr
  rcases Pool.step_eq_some hs with ⟨t, he, -, -⟩ | ⟨j, d, t, s', ts, rest, he, hj, hp, ha, rfl⟩
  · cases he
  · cases he
    rw [hi] at hj
    cases hj
    cases acts_of_act ha with
    | held hsome => rw [hnone] at hsome; cases hsome
    | created hfree _ =>
      refine ⟨⟨AList.lookup_insert _, hfree, ?_⟩, rfl, ?_⟩
      · exact fun hmem => Nat.lt_irrefl _ (hb.2.1 _ hmem)
      · intro t ht i o hc
        rcases mem_cons.mp (hp.mem_iff.mp ht) with rfl | hrest
        · cases hc
        · exact mem_append_right _ hrest

/-- **Cleanups and incarnations.** In every schedule of requests in which no session
    is created under an id that a cleanup of an earlier session is still pending for,
    every removal takes out the session it was run for. Where a session is created
    under such an id, some continuation takes out the new session in its place. -/
theorem cleanup_removes_own_session (limits : Limits) (es : List (Pool.Event Thread Bool))
    (p : System) (hr : run (Pool.step request (act limits)) System.start es = some p) :
    (Along (Pool.step request (act limits)) Undisturbed System.start es →
      ∀ r ∈ p.shared.removed, r.1 = r.2) ∧
    (∀ e p', Pool.step request (act limits) p e = some p' → ¬ Undisturbed p e →
      ∃ fs q o, run (Pool.step request (act limits)) p' fs = some q ∧
        (o, p.shared.fresh) ∈ q.shared.removed ∧ o < p.shared.fresh) := by
  refine ⟨fun hq => ?_, ?_⟩
  · have hstart : Owned System.start.shared System.start.threads := by
      simp [Owned, System.start, Table.start]
    exact (run_inv_along (fun p => Owned p.shared p.threads) Undisturbed step_owned es hq hstart hr).2
  · intro e p' hs hdist
    -- the session just created and a cleanup of an older one under the same id
    simp only [Undisturbed, not_forall, not_not] at hdist
    obtain ⟨id, hcr, t, ht, o, hc⟩ := hdist
    have hb := schedule_born hr
    obtain ⟨hx, htaken, hkeep⟩ := creates_exposed hb hs hcr
    have hold : o < p.shared.fresh := hb.1 t ht o (session_of_cleans hc)
    have hc' : t.cleans p'.shared = some (id, o) := by rw [cleans_congr htaken, hc]
    obtain ⟨fs, q, hfs, hmem⟩ := exists_removal_of_cleans (hkeep t ht id o hc) hc' hx
      (Nat.ne_of_gt hold)
    exact ⟨fs, q, o, hfs, hmem, hold⟩

/-- A session that was downloaded and removed, and its id used again while the
    orphan timer of the first session sleeps. -/
def reusedId : List (Pool.Event Thread Bool) :=
  [.spawn (.lookup .upload ['a']), .act 0 false, .act 0 false, .act 0 false,
   .spawn (.lookup .download ['a']), .act 0 false, .act 0 false, .act 0 false, .act 1 false,
   .act 0 false, .act 0 false, .act 0 false,
   .spawn (.lookup .upload ['a']), .act 0 false, .act 0 false, .act 0 false]

/-- The timer of session 0 fires after its id was given to session 1 and takes
    session 1 out. -/
theorem stale_timer_removes_new_session :
    ∃ p, run (Pool.step request (act ⟨4, 8⟩)) System.start
        (reusedId ++ [.act 1 false, .act 0 false]) = some p ∧
      p.shared.removed = [(0, 1), (0, 0)] :=
  ⟨_, rfl, rfl⟩

/-- Up to the point where the id is used again every removal was of its own session. -/
theorem cleanup_removes_own_session_until_reuse :
    ∃ p, run (Pool.step request (act ⟨4, 8⟩)) System.start (reusedId.take 12) = some p ∧
      p.shared.removed = [(0, 0)] ∧ ∀ r ∈ p.shared.removed, r.1 = r.2 := by
  refine ⟨_, rfl, rfl, (cleanup_removes_own_session ⟨4, 8⟩ (reusedId.take 12) _ rfl).1 ?_⟩
  decide

end Xhttp.Server.Sessions
