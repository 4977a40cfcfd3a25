import Xhttp.Xmux.Model

/- What the counters of the pools say, at every point of every schedule. -/
namespace Xhttp.Xmux
open Xhttp.Lib List

/-! ## Counting calls -/

/-- The pool that a connection pick has returned to the call. -/
def Thread.picked? : Thread → Option Nat
  | .count i => some i
  | .lease i _ | .rotate i _ | .rotating i _ | .charge i _ _ | .dropped i => some i
  | .acquire | .acquiring => none

/-- The pool that the call has been counted on. -/
def Thread.counted? : Thread → Option Nat
  | .lease i _ | .rotate i _ | .rotating i _ | .charge i _ _ | .dropped i => some i
  | .acquire | .acquiring | .count _ => none

/-- The connection picks that returned the pool. -/
def picked (ts : List Thread) (i : Nat) : Nat := ts.countP fun t => t.picked? = some i

/-- The calls that have executed `running += 1` on the pool. -/
def counted (ts : List Thread) (i : Nat) : Nat := ts.countP fun t => t.counted? = some i

/-- The leases of the pool that were dropped. -/
def dropped (ts : List Thread) (i : Nat) : Nat := ts.countP fun t => t = .dropped i

section
variable {ts : List Thread} {i : Nat}

theorem picked_cons (t : Thread) : picked (t :: ts) i = picked ts i + if t.picked? = some i then 1 else 0 := by
  simp [picked, countP_cons]

theorem counted_cons (t : Thread) : counted (t :: ts) i = counted ts i + if t.counted? = some i then 1 else 0 := by
  simp [counted, countP_cons]

theorem dropped_cons (t : Thread) : dropped (t :: ts) i = dropped ts i + if t = .dropped i then 1 else 0 := by
  simp [dropped, countP_cons]

/-- A lease that was dropped had been counted. -/
theorem dropped_le_counted : dropped ts i ≤ counted ts i := by
  refine countP_mono_left fun t _ ht => ?_
  have heq : t = .dropped i := by simpa using ht
  subst heq
  simp [Thread.counted?]

end

/-! ## Budgets -/

/-- The reuse budget that is left after `n` picks: there is none, or it was never taken below zero. -/
def ReuseLeft (pool : Pool) (n : Nat) : Prop :=
  pool.reuseBudget = 0 ∧ pool.remainingReuse = none ∨ ∃ r, pool.remainingReuse = some r ∧ r + n = pool.reuseBudget

/-- The pool exists and may be picked for a connection. -/
def Reusable (pools : List Pool) (i : Nat) : Prop := ∃ pool, pools[i]? = some pool ∧ pool.remainingReuse ≠ some 0

/-- What a pick has looked up and may return. -/
def Ready (pools : List Pool) : Phase → Prop
  | .scan rest active _ => (∀ i ∈ rest, i < pools.length) ∧ ∀ i ∈ active, Reusable pools i
  | .retain rest kept => ∀ i ∈ kept ++ rest, i < pools.length
  | .create => True
  | .selected i => Reusable pools i

structure Accounts (s : Manager) (ts : List Thread) : Prop where
  running : ∀ i pool, s.pools[i]? = some pool → pool.running + dropped ts i = counted ts i
  reuse : ∀ i pool, s.pools[i]? = some pool → ReuseLeft pool (picked ts i)
  known : ∀ t ∈ ts, ∀ i, t.picked? = some i → i < s.pools.length
  table : ∀ i ∈ s.table, i < s.pools.length
  ready : ∀ k, s.picking = some k → Ready s.pools k.phase

section
variable {f : Pool → Pool} {t : Thread} {s s' : Manager} {us rest : List Thread} {i j : Nat}
  {pools : List Pool} {u : Thread}

theorem Accounts.perm (hp : ts.Perm us) (h : Accounts s ts) : Accounts s us where
  running i pool hpool := by
    have hrunning := h.running i pool hpool
    rwa [dropped, counted, hp.countP_eq, hp.countP_eq] at hrunning
  reuse i pool hpool := by
    have hreuse := h.reuse i pool hpool
    rwa [picked, hp.countP_eq] at hreuse
  known t ht := h.known t (hp.mem_iff.mpr ht)
  table := h.table
  ready := h.ready

theorem Reusable.lt (h : Reusable pools i) : i < pools.length := by
  obtain ⟨pool, hpool, -⟩ := h
  exact Numbered.lt_length hpool

section
variable (hf : ∀ pool, (f pool).remainingReuse = pool.remainingReuse)
include hf

theorem Reusable.modify (h : Reusable pools i) :
    Reusable (pools.modify j f) i := by
  obtain ⟨pool, hpool, hreuse⟩ := h
  refine ⟨if j = i then f pool else pool, by simp [getElem?_modify, hpool], ?_⟩
  split
  · rwa [hf]
  · exact hreuse

theorem Ready.modify {phase : Phase}
    (h : Ready pools phase) : Ready (pools.modify j f) phase := by
  cases phase with
  | scan rest active n => exact ⟨by simpa using h.1, fun i hi => (h.2 i hi).modify hf⟩
  | retain rest kept => simpa [Ready] using h
  | create => trivial
  | selected i => exact Reusable.modify hf h

end

section
variable (h : Accounts s (t :: rest))
include h

theorem Accounts.running_pos (hcounted : t.counted? = some i) (hlive : t ≠ .dropped i)
    {pool : Pool} (hpool : s.pools[i]? = some pool) : 0 < pool.running := by
  have hrunning := h.running i pool hpool
  rw [dropped_cons, counted_cons, if_pos hcounted, if_neg hlive] at hrunning
  have hle : dropped rest i ≤ counted rest i := dropped_le_counted
  omega

theorem Accounts.same (hpools : s'.pools = s.pools)
    (hpicked : u.picked? = t.picked?) (hcounted : u.counted? = t.counted?) (hdropped : ∀ i, u ≠ .dropped i)
    (hdropped' : ∀ i, t ≠ .dropped i) (htable : ∀ i ∈ s'.table, i < s.pools.length)
    (hready : ∀ k, s'.picking = some k → Ready s.pools k.phase) : Accounts s' (u :: rest) where
  running i pool hpool := by
    have hrunning := h.running i pool (hpools ▸ hpool)
    rw [dropped_cons, counted_cons, if_neg (hdropped' i)] at hrunning
    rw [dropped_cons, counted_cons, if_neg (hdropped i), hcounted]
    exact hrunning
  reuse i pool hpool := by
    have hreuse := h.reuse i pool (hpools ▸ hpool)
    rw [picked_cons] at hreuse
    rwa [picked_cons, hpicked]
  known u' hu' i hi := by
    rw [hpools]
    rcases mem_cons.mp hu' with rfl | hmem
    · exact h.known t mem_cons_self i (hpicked ▸ hi)
    · exact h.known u' (mem_cons_of_mem t hmem) i hi
  table := hpools ▸ htable
  ready := hpools ▸ hready

theorem Accounts.modify
    (hreuse : ∀ pool, (f pool).remainingReuse = pool.remainingReuse ∧ (f pool).reuseBudget = pool.reuseBudget)
    (hpicked : u.picked? = t.picked?) (hrunning : ∀ i pool, s.pools[i]? = some pool →
      (if i = j then f pool else pool).running + dropped (u :: rest) i = counted (u :: rest) i) :
    Accounts (s.modify j f) (u :: rest) where
  running i pool hpool := by
    obtain ⟨old, hold, rfl⟩ := Numbered.get_modify hpool
    exact hrunning i old hold
  reuse i pool hpool := by
    obtain ⟨old, hold, rfl⟩ := Numbered.get_modify hpool
    have hleft := h.reuse i old hold
    rw [picked_cons] at hleft
    rw [picked_cons, hpicked]
    split
    · rwa [ReuseLeft, (hreuse old).1, (hreuse old).2]
    · exact hleft
  known u' hu' i hi := by
    rw [Manager.length_modify]
    rcases mem_cons.mp hu' with rfl | hmem
    · exact h.known t mem_cons_self i (hpicked ▸ hi)
    · exact h.known u' (mem_cons_of_mem t hmem) i hi
  table i hi := by
    rw [Manager.length_modify]
    exact h.table i hi
  ready k hk := (h.ready k hk).modify fun pool => (hreuse pool).1

end

variable {o : Outcome} {c : Choice} {k : Picking}

section
variable (h : Accounts s (t :: rest))
include h

theorem Accounts.phase (hlive : ∀ i, t ≠ .dropped i) {phase : Phase}
    (hready : Ready s.pools phase) : Accounts (s.next k phase) (t :: rest) :=
  h.same rfl rfl rfl hlive hlive h.table fun _ hk' => Option.some.inj hk' ▸ hready

theorem Accounts.create (now : Nat) : Accounts { s with
      initial := false
      pools := s.pools ++ [.fresh now c]
      table := s.table ++ [s.pools.length]
      picking := some { k with phase := .selected s.pools.length } } (t :: rest) := by
  -- no call has the new pool yet
  have hnew : ∀ (q : Thread → Option Nat), (∀ u, ∀ i, q u = some i → u.picked? = some i) →
      (t :: rest).countP (fun u => q u = some s.pools.length) = 0 := by
    intro q hq
    refine countP_eq_zero.mpr fun u hu heq => ?_
    exact absurd (h.known u hu _ (hq u _ (by simpa using heq))) (Nat.lt_irrefl _)
  have hpicked : picked (t :: rest) s.pools.length = 0 := hnew Thread.picked? fun _ _ hu => hu
  have hcounted : counted (t :: rest) s.pools.length = 0 :=
    hnew Thread.counted? fun u i hu => by cases u <;> first | exact hu | cases hu
  have hdropped : dropped (t :: rest) s.pools.length = 0 := Nat.le_zero.mp (hcounted ▸ dropped_le_counted)
  have hlength : s.pools.length < (s.pools ++ [Pool.fresh now c]).length := by simp
  refine ⟨?_, ?_, ?_, ?_, ?_⟩
  · intro i pool hpool
    obtain hold | ⟨rfl, rfl⟩ := Numbered.get_concat_cases hpool
    · exact h.running i pool hold
    · rw [hdropped, hcounted]
      rfl
  · intro i pool hpool
    obtain hold | ⟨rfl, rfl⟩ := Numbered.get_concat_cases hpool
    · exact h.reuse i pool hold
    · rw [hpicked]
      by_cases hzero : c.reuse = 0
      · exact .inl ⟨hzero, if_neg (not_not_intro hzero)⟩
      · exact .inr ⟨c.reuse, if_pos hzero, rfl⟩
  · exact fun u hu i hi => (h.known u hu i hi).trans hlength
  · intro i hi
    rcases mem_append.mp hi with hold | hlast
    · exact (h.table i hold).trans hlength
    · rw [mem_singleton.mp hlast]
      exact hlength
  · intro k' hk'
    obtain rfl := Option.some.inj hk'
    refine ⟨.fresh now c, getElem?_concat_length, ?_⟩
    simp [Pool.fresh, nonzeroBudget]

theorem Accounts.going (hpicking : s.picking = some k) (hlive : ∀ i, t ≠ .dropped i)
    (hstep : PickStep s k c s' .going) : Accounts s' (t :: rest) := by
  have hready := h.ready k hpicking
  cases hstep with
  | @retire j _ _ _ _ hphase =>
    rw [hphase] at hready
    have hmodify : Accounts (s.modify j Pool.retire) (t :: rest) := by
      refine h.modify (fun _ => ⟨rfl, rfl⟩) rfl fun i pool hpool => ?_
      rw [← h.running i pool hpool]
      split <;> rfl
    refine hmodify.phase hlive ⟨?_, ?_⟩
    · simpa using fun i hi => hready.1 i (mem_cons_of_mem _ hi)
    · exact fun i hi => (hready.2 i hi).modify fun _ => rfl
  | accept hphase hpool _ hreuse =>
    rw [hphase] at hready
    refine h.phase hlive ⟨fun i hi => hready.1 i (mem_cons_of_mem _ hi), fun i hi => ?_⟩
    rcases mem_append.mp hi with hold | hlast
    · exact hready.2 i hold
    · rw [mem_singleton.mp hlast]
      exact ⟨_, hpool, hreuse⟩
  | full hphase =>
    rw [hphase] at hready
    exact h.phase hlive ⟨fun i hi => hready.1 i (mem_cons_of_mem _ hi), hready.2⟩
  | replace hphase => exact h.phase hlive fun i hi => h.table i (by simpa using hi)
  | choose hphase hi =>
    rw [hphase] at hready
    exact h.phase hlive (hready.2 _ (mem_of_getElem? hi))
  | discard hphase =>
    rw [hphase] at hready
    refine h.phase hlive fun i hi => hready i ?_
    grind
  | keep hphase =>
    rw [hphase] at hready
    exact h.phase hlive fun i hi => hready i (by simpa [or_assoc] using hi)
  | retained hphase =>
    rw [hphase] at hready
    exact h.same rfl rfl rfl hlive hlive (fun i hi => hready i (mem_append_left _ hi))
      fun _ hk' => Option.some.inj hk' ▸ trivial
  | create hphase => exact h.create k.now

end

/-- A pick for a connection returns its pool: the budget is charged once for the call. -/
theorem Accounts.returned (h : Accounts s (.acquiring :: rest)) (hpicking : s.picking = some k)
    (hphase : k.phase = .selected i) :
    Accounts { s.modify i Pool.consumeReuse with picking := none } (.count i :: rest) := by
  have hready := h.ready k hpicking
  rw [hphase] at hready
  refine ⟨?_, ?_, ?_, ?_, fun _ hk' => by cases hk'⟩
  · intro j pool hpool
    obtain ⟨old, hold, rfl⟩ := Numbered.get_modify hpool
    have hrunning := h.running j old hold
    rw [dropped_cons, counted_cons] at hrunning ⊢
    have hsame : (if j = i then Pool.consumeReuse old else old).running = old.running := by split <;> rfl
    rw [hsame]
    simpa [Thread.counted?] using hrunning
  · intro j pool hpool
    obtain ⟨old, hold, rfl⟩ := Numbered.get_modify hpool
    have hleft := h.reuse j old hold
    rw [picked_cons] at hleft ⊢
    by_cases hj : j = i
    · subst hj
      rw [if_pos rfl]
      obtain ⟨pool, hpool, hnonzero⟩ := hready
      obtain rfl := Option.some.inj (hold.symm.trans hpool)
      rcases hleft with ⟨hbudget, hnone⟩ | ⟨r, hsome, hsum⟩
      · exact .inl ⟨hbudget, by simp [Pool.consumeReuse, hnone]⟩
      · -- the budget is not used up, so the subtraction is exact
        have hr : r ≠ 0 := fun hzero => hnonzero (hzero ▸ hsome)
        refine .inr ⟨r - 1, by simp [Pool.consumeReuse, hsome], ?_⟩
        rw [if_pos (show (Thread.count j).picked? = some j from rfl)]
        have hbudget : (Pool.consumeReuse old).reuseBudget = old.reuseBudget := rfl
        rw [if_neg (show ¬Thread.acquiring.picked? = some j from nofun)] at hsum
        omega
    · have hother : ¬(Thread.count i).picked? = some j := fun heq => hj (Option.some.inj heq).symm
      rw [if_neg hj, if_neg hother]
      exact hleft
  · intro u hu j hj
    rw [Manager.length_modify]
    rcases mem_cons.mp hu with rfl | hmem
    · cases hj
      exact Reusable.lt hready
    · exact h.known u (mem_cons_of_mem _ hmem) j hj
  · intro j hj
    rw [Manager.length_modify]
    exact h.table j hj

theorem Accounts.failed (h : Accounts s (.acquiring :: rest)) : Accounts { s with picking := none } rest where
  running i pool hpool := by simpa [dropped_cons, counted_cons, Thread.counted?] using h.running i pool hpool
  reuse i pool hpool := by simpa [picked_cons, Thread.picked?] using h.reuse i pool hpool
  known t ht := h.known t (mem_cons_of_mem _ ht)
  table := h.table
  ready _ hk := by cases hk

theorem Accounts.act (h : Accounts s (t :: rest)) (hact : Act s c t s' ts) : Accounts s' (ts ++ rest) := by
  cases hact with
  | lockConnection hfree | lockRequest hfree =>
    refine h.same rfl rfl rfl nofun nofun h.table fun k hk => ?_
    obtain rfl := Option.some.inj hk
    exact ⟨h.table, nofun⟩
  | @pickConnection k s' o hpicking hconnection hpick =>
    cases o with
    | going => exact h.going hpicking nofun hpick
    | returned i =>
      cases hpick with
      | selectConnection hphase => exact h.returned hpicking hphase
      | selectRequest hphase hrequest => simp [hconnection] at hrequest
    | failed =>
      cases hpick
      exact h.failed
  | @pickRequest a b k s' o hpicking hrequest hpick =>
    cases o with
    | going => exact h.going hpicking nofun hpick
    | returned i =>
      cases hpick with
      | selectConnection hphase hconnection => simp [hconnection] at hrequest
      | selectRequest hphase =>
        exact h.same rfl rfl rfl nofun nofun h.table
          nofun
    | failed =>
      cases hpick
      exact h.same rfl rfl rfl nofun nofun h.table
        nofun
  | @count i =>
    refine h.modify (fun _ => ⟨rfl, rfl⟩) rfl fun j pool hpool => ?_
    have hrunning := h.running j pool hpool
    rw [dropped_cons, counted_cons] at hrunning ⊢
    by_cases hj : j = i
    · grind [Thread.counted?, Pool.countLease, Pool.consumeRequest]
    · simpa [Thread.counted?, hj, Ne.symm hj] using hrunning
  | @drop connection request =>
    refine h.modify (fun _ => ⟨rfl, rfl⟩) rfl fun j pool hpool => ?_
    have hrunning := h.running j pool hpool
    by_cases hj : j = connection
    · subst hj
      have hpos := h.running_pos rfl nofun hpool
      rw [dropped_cons, counted_cons] at hrunning ⊢
      simp [Thread.counted?, Pool.dropLease] at hrunning ⊢
      omega
    simp_all [dropped_cons, counted_cons, Thread.counted?, Ne.symm]
  | @packet connection request pool hpool hlive husable =>
    refine h.modify (fun _ => ⟨rfl, rfl⟩) rfl fun j pool hpool => ?_
    rw [← h.running j pool hpool]
    split <;> rfl
  | unusable | charge =>
    refine h.modify (fun _ => ⟨rfl, rfl⟩) rfl fun j pool hpool => ?_
    have hrunning := h.running j pool hpool
    rw [dropped_cons, counted_cons] at hrunning ⊢
    split <;> simpa [Thread.counted?, Pool.retire, Pool.consumeRequest] using hrunning

end

/-! ## How many pools are not retired -/

/-- The pool exists and is not retired. -/
def live (pools : List Pool) (i : Nat) : Bool := (pools[i]?).any (!·.retired)

/-- There is room for one more pool. -/
def Room (s : Manager) : Prop := 0 < s.maxConnections → s.table.countP (live s.pools) < s.maxConnections

/-- What a pick has counted. Pools may be retired by others meanwhile, but none is added. -/
def Scanned (s : Manager) : Phase → Prop
  | .scan rest active n => ∃ seen, s.table = seen ++ rest ∧ seen.countP (live s.pools) ≤ n ∧
      (s.maxConcurrency = 0 → active.length = n)
  | .retain rest kept => (∃ seen, s.table = seen ++ rest ∧ kept.Sublist seen ∧
      ∀ i ∈ seen, live s.pools i = true → i ∈ kept) ∧ Room s
  | .create => Room s
  | .selected _ => True

structure Capacity (s : Manager) : Prop where
  nodup : s.table.Nodup
  known : ∀ i ∈ s.table, i < s.pools.length
  cover : ∀ i, live s.pools i = true → i ∈ s.table
  exclusive : 0 < s.maxConnections → s.maxConcurrency = 0
  bound : 0 < s.maxConnections → s.table.countP (live s.pools) ≤ s.maxConnections
  scanned : ∀ k, s.picking = some k → Scanned s k.phase

section
variable {s s' : Manager} {pools : List Pool} {i j : Nat} {k : Picking}

theorem live_iff : live pools i = true ↔ ∃ pool, pools[i]? = some pool ∧ pool.retired = false := by
  simp [live, Option.any_eq_true]

theorem live_modify (hf : ∀ pool, (f pool).retired = false → pool.retired = false)
    (h : live (pools.modify j f) i = true) : live pools i = true := by
  grind [live_iff, Numbered.get_modify]

theorem live_concat (pool : Pool) (hi : i < pools.length) : live (pools ++ [pool]) i = live pools i := by
  rw [live, live, getElem?_append_left hi]

variable {l : List Nat}

/-- The pools that are not retired are counted by any list that holds them all. -/
theorem countP_le_of_cover (h : ∀ i, live pools i = true → i ∈ l) :
    pools.countP (!·.retired) ≤ l.countP (live pools) := by
  have hcount : pools.countP (!·.retired) = (List.range pools.length).countP (live pools) := by
    clear h
    induction pools using List.reverseRecOn with
    | nil => rfl
    | append_singleton pools pool ih =>
      have hold : (List.range pools.length).countP (live (pools ++ [pool])) =
          (List.range pools.length).countP (live pools) :=
        countP_congr fun i hi => by rw [live_concat pool (mem_range.mp hi)]
      rw [countP_append, ih, length_append, length_singleton, range_succ, countP_append, hold]
      simp [live]
  rw [hcount, countP_eq_length_filter, countP_eq_length_filter]
  refine (subperm_of_subset (nodup_range.filter _) fun i hi => ?_).length_le
  simp_all

/-- Steps that keep `state` and only retire pools. -/
theorem Scanned.mono {phase : Phase} (h : Scanned s phase) (htable : s'.table = s.table)
    (hmax : s'.maxConnections = s.maxConnections) (hconcurrency : s'.maxConcurrency = s.maxConcurrency)
    (hlive : ∀ i, live s'.pools i = true → live s.pools i = true) : Scanned s' phase := by
  have hroom : Room s → Room s' := by
    intro hr hpos
    rw [hmax] at hpos ⊢
    rw [htable]
    exact (countP_mono_left fun i _ => hlive i).trans_lt (hr hpos)
  cases phase with
  | scan rest active n =>
    obtain ⟨seen, heq, hcount, hactive⟩ := h
    exact ⟨seen, htable.trans heq, (countP_mono_left fun i _ => hlive i).trans hcount, hconcurrency ▸ hactive⟩
  | retain rest kept =>
    obtain ⟨⟨seen, heq, hsub, hkept⟩, hr⟩ := h
    exact ⟨⟨seen, htable.trans heq, hsub, fun i hi hl => hkept i hi (hlive i hl)⟩, hroom hr⟩
  | create => exact hroom h
  | selected i => trivial

section
variable (h : Capacity s)
include h

theorem Capacity.mono (hlength : s'.pools.length = s.pools.length) (htable : s'.table = s.table)
    (hmax : s'.maxConnections = s.maxConnections) (hconcurrency : s'.maxConcurrency = s.maxConcurrency)
    (hlive : ∀ i, live s'.pools i = true → live s.pools i = true)
    (hscanned : ∀ k, s'.picking = some k → Scanned s k.phase) : Capacity s' where
  nodup := htable ▸ h.nodup
  known := by rw [htable, hlength]; exact h.known
  cover i hi := htable ▸ h.cover i (hlive i hi)
  exclusive := by rw [hmax, hconcurrency]; exact h.exclusive
  bound := by
    rw [hmax, htable]
    exact fun hpos => (countP_mono_left fun i _ => hlive i).trans (h.bound hpos)
  scanned k hk := (hscanned k hk).mono htable hmax hconcurrency hlive

theorem Capacity.modify (hf : ∀ pool, (f pool).retired = false → pool.retired = false) :
    Capacity (s.modify j f) :=
  h.mono (Manager.length_modify ..) rfl rfl rfl (fun _ => live_modify hf) h.scanned

theorem Capacity.phase {phase : Phase} (hscanned : Scanned s phase) : Capacity (s.next k phase) :=
  h.mono rfl rfl rfl rfl (fun _ hl => hl) fun _ hk => Option.some.inj hk ▸ hscanned

theorem Capacity.unlock : Capacity { s with picking := none } :=
  h.mono rfl rfl rfl rfl (fun _ hl => hl) nofun

theorem Capacity.lock (connection : Bool) (now : Nat) :
    Capacity { s with picking := some ⟨connection, now, .scan s.table [] 0⟩ } :=
  h.mono rfl rfl rfl rfl (fun _ hl => hl) fun _ hk =>
    Option.some.inj hk ▸ ⟨[], rfl, Nat.le_refl 0, fun _ => rfl⟩

theorem Capacity.create (hroom : Room s) (now : Nat) : Capacity { s with
      initial := false
      pools := s.pools ++ [.fresh now c]
      table := s.table ++ [s.pools.length]
      picking := some { k with phase := .selected s.pools.length } } := by
  have hold : ∀ i ∈ s.table, live (s.pools ++ [Pool.fresh now c]) i = live s.pools i :=
    fun i hi => live_concat _ (h.known i hi)
  refine ⟨?_, ?_, ?_, h.exclusive, ?_, fun _ hk => Option.some.inj hk ▸ trivial⟩
  · refine h.nodup.append (nodup_singleton _) ?_
    rw [disjoint_singleton]
    exact fun hmem => absurd (h.known _ hmem) (Nat.lt_irrefl _)
  · intro i hi
    rw [length_append, length_singleton]
    rcases mem_append.mp hi with hmem | hlast
    · exact Nat.lt_succ_of_lt (h.known i hmem)
    · rw [mem_singleton.mp hlast]
      exact Nat.lt_succ_self _
  · intro i hi
    obtain ⟨pool, hpool, hlive⟩ := live_iff.mp hi
    obtain hin | ⟨rfl, -⟩ := Numbered.get_concat_cases hpool
    · exact mem_append_left _ (h.cover i (live_iff.mpr ⟨pool, hin, hlive⟩))
    · exact mem_append_right _ (mem_singleton_self _)
  · intro hpos
    show (s.table ++ [s.pools.length]).countP (live (s.pools ++ [Pool.fresh now c])) ≤ _
    have hcount : s.table.countP (live (s.pools ++ [Pool.fresh now c])) = s.table.countP (live s.pools) :=
      countP_congr fun i hi => by rw [hold i hi]
    rw [countP_append, hcount]
    have hone : [s.pools.length].countP (live (s.pools ++ [Pool.fresh now c])) ≤ 1 := countP_le_length
    have hless := hroom hpos
    show _ ≤ s.maxConnections
    omega

end

theorem countP_concat_le {n : Nat} (h : l.countP (live pools) ≤ n) : (l ++ [i]).countP (live pools) ≤ n + 1 := by
  rw [countP_append]
  have hone : [i].countP (live pools) ≤ 1 := countP_le_length
  omega

theorem countP_concat_of_retired (h : live pools i = false) :
    (l ++ [i]).countP (live pools) = l.countP (live pools) := by
  rw [countP_append, countP_singleton, h]
  rfl

theorem retired_retire (pool : Pool) (h : pool.retire.retired = false) : pool.retired = false := by cases h

theorem live_retire_self : live (pools.modify i Pool.retire) i = false := by
  rw [← Bool.not_eq_true, live_iff]
  rintro ⟨pool, hpool, hlive⟩
  obtain ⟨old, -, rfl⟩ := Numbered.get_modify hpool
  rw [if_pos rfl] at hlive
  cases hlive

theorem Capacity.pick (h : Capacity s) (hpicking : s.picking = some k) (hstep : PickStep s k c s' o) : Capacity s' := by
  have hscanned := h.scanned k hpicking
  cases hstep with
  | @retire i rest active n pool hphase =>
    rw [hphase] at hscanned
    have hretire : Capacity (s.modify i Pool.retire) := h.modify retired_retire
    have hlater : Scanned (s.modify i Pool.retire) (.scan (i :: rest) active n) :=
      hscanned.mono rfl rfl rfl fun _ => live_modify retired_retire
    obtain ⟨seen, heq, hcount, hactive⟩ := hlater
    refine hretire.phase ⟨seen ++ [i], by simpa using heq, ?_, hactive⟩
    show (seen ++ [i]).countP (live (s.pools.modify i Pool.retire)) ≤ n
    rw [countP_concat_of_retired live_retire_self]
    exact hcount
  | @accept i rest active n pool hphase =>
    rw [hphase] at hscanned
    obtain ⟨seen, heq, hcount, hactive⟩ := hscanned
    refine h.phase ⟨seen ++ [i], by simpa using heq, countP_concat_le hcount, fun hzero => ?_⟩
    rw [length_append, length_singleton, hactive hzero]
  | @full i rest active n pool hphase hpool hlimit =>
    rw [hphase] at hscanned
    obtain ⟨seen, heq, hcount, -⟩ := hscanned
    exact h.phase ⟨seen ++ [i], by simpa using heq, countP_concat_le hcount, fun hzero => absurd hzero hlimit⟩
  | @replace active n hphase hroom =>
    rw [hphase] at hscanned
    obtain ⟨seen, heq, hcount, hactive⟩ := hscanned
    rw [append_nil] at heq
    refine h.phase ⟨⟨[], rfl, List.Sublist.refl _, nofun⟩, fun hpos => ?_⟩
    rw [heq]
    rcases hroom with rfl | ⟨-, hless⟩
    · -- no pool is left: with `max_connections` there is no limit that could have kept one out
      have hzero : n = 0 := (hactive (h.exclusive hpos)).symm
      omega
    · omega
  | choose => exact h.phase trivial
  | @discard i rest kept pool hphase hpool hretired =>
    rw [hphase] at hscanned
    obtain ⟨⟨seen, heq, hsub, hkept⟩, hroom⟩ := hscanned
    refine h.phase ⟨⟨seen ++ [i], by simpa using heq, hsub.trans (sublist_append_left _ _), ?_⟩, hroom⟩
    grind [mem_singleton, live]
  | @keep i rest kept pool hphase =>
    rw [hphase] at hscanned
    obtain ⟨⟨seen, heq, hsub, hkept⟩, hroom⟩ := hscanned
    refine h.phase ⟨⟨seen ++ [i], by simpa using heq, hsub.append (List.Sublist.refl _), ?_⟩, hroom⟩
    grind
  | @retained kept hphase =>
    rw [hphase] at hscanned
    obtain ⟨⟨seen, heq, hsub, hkept⟩, hroom⟩ := hscanned
    rw [append_nil] at heq
    rw [← heq] at hsub hkept
    have hcount : kept.countP (live s.pools) ≤ s.table.countP (live s.pools) := hsub.countP_le
    exact {
      nodup := h.nodup.sublist hsub
      known := fun i hi => h.known i (hsub.subset hi)
      cover := fun i hi => hkept i (h.cover i hi) hi
      exclusive := h.exclusive
      bound := fun hpos => hcount.trans (h.bound hpos)
      scanned := fun _ hk => Option.some.inj hk ▸ fun hpos => hcount.trans_lt (hroom hpos) }
  | fail | selectRequest => exact h.unlock
  | create hphase =>
    rw [hphase] at hscanned
    exact h.create hscanned k.now
  | @selectConnection i =>
    have hcharge : Capacity (s.modify i Pool.consumeReuse) := h.modify fun _ hlive => hlive
    exact hcharge.unlock

theorem Capacity.act (h : Capacity s) (hact : Act s c t s' ts) : Capacity s' := by
  cases hact with
  | lockConnection => exact h.lock true c.now
  | lockRequest => exact h.lock false c.now
  | pickConnection hpicking _ hpick | pickRequest hpicking _ hpick => exact h.pick hpicking hpick
  | count | drop | packet | charge => exact h.modify fun _ hlive => hlive
  | unusable => exact h.modify retired_retire

end

/-! ## Retired pools -/

def Retired (s : Manager) (i : Nat) : Prop := ∃ pool, s.pools[i]? = some pool ∧ pool.retired = true

/-- The pool is not among those the pick may return. -/
def NotOffered (i : Nat) : Phase → Prop
  | .scan _ active _ => i ∉ active
  | .selected j => i ≠ j
  | .retain _ _ | .create => True

/-- A retired pool that no pick can return any more. -/
def Passed (i : Nat) (s : Manager) : Prop := Retired s i ∧ ∀ k, s.picking = some k → NotOffered i k.phase

/-- A retired pool without running leases. -/
def Idle (i : Nat) (s : Manager) : Prop :=
  ∃ pool, s.pools[i]? = some pool ∧ pool.retired = true ∧ pool.running = 0

instance decidableIdle (i : Nat) (s : Manager) : Decidable (Idle i s) :=
  decidable_of_iff ((s.pools[i]?).any (fun pool => pool.retired && pool.running == 0) = true)
    (by simp [Idle, Option.any_eq_true])

/-- No pick is between the start of its `retain` and the new pool. -/
def NotCreating (s : Manager) : Prop :=
  ∀ k, s.picking = some k → (∃ rest active n, k.phase = .scan rest active n) ∨ ∃ i, k.phase = .selected i

/-- The pool is not in the table that a creation under way will leave. -/
def NotKept (i : Nat) (table : List Nat) : Phase → Prop
  | .retain _ kept => i ∉ kept
  | .create => i ∉ table
  | .scan _ _ _ | .selected _ => True

/-- With `n` pools made so far: the next creation leaves the pool out, or has done so. -/
structure LeftOut (i n : Nat) (s : Manager) : Prop where
  known : i < n
  length : n ≤ s.pools.length
  table : n < s.pools.length → i ∉ s.table
  notKept : ∀ k, s.picking = some k → NotKept i s.table k.phase

section
variable {s s' : Manager} {i j n : Nat} {k : Picking}

theorem Retired.modify (h : Retired s i) (hf : ∀ pool, pool.retired = true → (f pool).retired = true) :
    Retired (s.modify j f) i := by
  obtain ⟨pool, hpool, hretired⟩ := h
  refine ⟨if j = i then f pool else pool, by simp [Manager.modify, getElem?_modify, hpool], ?_⟩
  split
  · exact hf pool hretired
  · exact hretired

section
variable (h : Passed i s)
include h

theorem Passed.modify (hf : ∀ pool, pool.retired = true → (f pool).retired = true) :
    Passed i (s.modify j f) := ⟨h.1.modify hf, h.2⟩

theorem Passed.phase {phase : Phase} (hphase : NotOffered i phase) : Passed i (s.next k phase) :=
  ⟨h.1, fun _ hk => Option.some.inj hk ▸ hphase⟩

theorem Passed.unlock : Passed i { s with picking := none } :=
  ⟨h.1, nofun⟩

theorem Passed.pick (hpicking : s.picking = some k) (hstep : PickStep s k c s' o) : Passed i s' := by
  have hoffered := h.2 k hpicking
  cases hstep with
  | retire hphase =>
    rw [hphase] at hoffered
    exact (h.modify fun _ _ => rfl).phase hoffered
  | @accept j rest active n pool hphase hpool hlive =>
    rw [hphase] at hoffered
    refine h.phase fun hmem => ?_
    rcases mem_append.mp hmem with hold | hlast
    · exact hoffered hold
    · -- the pool the loop admits is not retired
      obtain ⟨old, hold, hretired⟩ := h.1
      simp_all
  | full hphase =>
    rw [hphase] at hoffered
    exact h.phase hoffered
  | replace | discard | keep => exact h.phase trivial
  | choose hphase hi =>
    rw [hphase] at hoffered
    exact h.phase fun heq => hoffered (heq ▸ mem_of_getElem? hi)
  | retained => exact ⟨h.1, fun _ hk => Option.some.inj hk ▸ trivial⟩
  | fail | selectRequest => exact h.unlock
  | create =>
    obtain ⟨pool, hpool, hretired⟩ := h.1
    refine ⟨⟨pool, Numbered.get_concat hpool, hretired⟩, fun _ hk => ?_⟩
    obtain rfl := Option.some.inj hk
    exact Nat.ne_of_lt (Numbered.lt_length hpool)
  | @selectConnection j =>
    have hcharge : Passed i (s.modify j Pool.consumeReuse) := h.modify fun _ hretired => hretired
    exact hcharge.unlock

theorem Passed.act (hact : Act s c t s' ts) : Passed i s' := by
  cases hact with
  | lockConnection | lockRequest => exact ⟨h.1, fun _ hk => Option.some.inj hk ▸ not_mem_nil⟩
  | pickConnection hpicking _ hpick | pickRequest hpicking _ hpick => exact h.pick hpicking hpick
  | count | drop | packet | charge => exact h.modify fun _ hretired => hretired
  | unusable => exact h.modify fun _ _ => rfl

end

section
variable (h : LeftOut i n s)
include h

theorem LeftOut.modify (j : Nat) (f : Pool → Pool) : LeftOut i n (s.modify j f) where
  known := h.known
  length := by simpa using h.length
  table hlt := h.table (by simpa using hlt)
  notKept := h.notKept

theorem LeftOut.phase {phase : Phase} (hphase : NotKept i s.table phase) :
    LeftOut i n (s.next k phase) :=
  ⟨h.known, h.length, h.table, fun _ hk => Option.some.inj hk ▸ hphase⟩

theorem LeftOut.unlock : LeftOut i n { s with picking := none } :=
  ⟨h.known, h.length, h.table, nofun⟩

theorem LeftOut.lock (connection : Bool) (now : Nat) :
    LeftOut i n { s with picking := some ⟨connection, now, .scan s.table [] 0⟩ } :=
  ⟨h.known, h.length, h.table, fun _ hk => Option.some.inj hk ▸ trivial⟩

theorem LeftOut.pick (hidle : Idle i s) (hpicking : s.picking = some k)
    (hstep : PickStep s k c s' o) : LeftOut i n s' := by
  have hkept := h.notKept k hpicking
  cases hstep with
  | @retire j => exact (h.modify j Pool.retire).phase trivial
  | accept | full | choose => exact h.phase trivial
  | replace => exact h.phase not_mem_nil
  | discard hphase =>
    rw [hphase] at hkept
    exact h.phase hkept
  | @keep j rest kept pool hphase hpool hused =>
    rw [hphase] at hkept
    refine h.phase fun hmem => ?_
    rcases mem_append.mp hmem with hold | hlast
    · exact hkept hold
    · -- `retain` keeps no idle pool
      obtain ⟨old, hold, hretired, hrunning⟩ := hidle
      simp_all
  | retained hphase =>
    rw [hphase] at hkept
    exact ⟨h.known, h.length, fun _ => hkept, fun _ hk => Option.some.inj hk ▸ hkept⟩
  | fail | selectRequest => exact h.unlock
  | create hphase =>
    rw [hphase] at hkept
    have hlength := h.length
    refine ⟨h.known, ?_, fun _ hmem => ?_, fun _ hk => Option.some.inj hk ▸ trivial⟩
    · rw [length_append]
      exact Nat.le_add_right_of_le hlength
    · rcases mem_append.mp hmem with hold | hlast
      · exact hkept hold
      · have hknown := h.known
        rw [mem_singleton.mp hlast] at hknown
        omega
  | @selectConnection j => exact (h.modify j Pool.consumeReuse).unlock

theorem LeftOut.act (hidle : Idle i s) (hact : Act s c t s' ts) : LeftOut i n s' := by
  cases hact with
  | lockConnection => exact h.lock true c.now
  | lockRequest => exact h.lock false c.now
  | pickConnection hpicking _ hpick | pickRequest hpicking _ hpick => exact h.pick hidle hpicking hpick
  | count | drop | packet | unusable | charge => exact h.modify _ _

end

theorem leftOut_of_notCreating (h : NotCreating s) (hidle : Idle i s) : LeftOut i s.pools.length s := by
  obtain ⟨pool, hpool, -⟩ := hidle
  refine ⟨Numbered.lt_length hpool, Nat.le_refl _, fun hlt => absurd hlt (Nat.lt_irrefl _), fun k hk => ?_⟩
  rcases h k hk with ⟨rest, active, n, hphase⟩ | ⟨j, hphase⟩ <;> rw [hphase] <;> trivial

end

/-! ## Schedules -/

section
variable {config : XmuxConfig} {p p' : Lib.Pool Manager Thread} {es : List (Lib.Pool.Event Thread Choice)} {i : Nat}

theorem samples_pos {range : RangeConfig} {value : Nat} (h : samples range value = true) (hpos : 0 < value) :
    range.hi ≠ 0 := by
  intro hzero
  rw [samples, if_pos hzero, decide_eq_true_iff] at h
  omega

variable {maxConcurrency maxConnections : Nat}

theorem exclusive_of_validate (hvalid : config.validate = .ok ())
    (hconcurrency : samples config.maxConcurrency maxConcurrency = true)
    (hconnections : samples config.maxConnections maxConnections = true) (hpos : 0 < maxConnections) :
    maxConcurrency = 0 := by
  obtain ⟨_, hboth, -⟩ := Checked.bind_ok_iff.mp hvalid
  have hnot := Checked.bailIf_ok_iff.mp hboth
  have hzero : config.maxConcurrency.hi = 0 := by
    by_contra hne
    exact hnot ⟨hne, samples_pos hconnections hpos⟩
  rw [samples, if_pos hzero, decide_eq_true_iff] at hconcurrency
  exact hconcurrency

theorem capacity_new (h : 0 < maxConnections → maxConcurrency = 0) : Capacity (.new maxConcurrency maxConnections) where
  nodup := nodup_nil
  known _ hi := absurd hi not_mem_nil
  cover i hi := by simp [Manager.new, live] at hi
  exclusive := h
  bound _ := Nat.zero_le _
  scanned _ hk := by cases hk

theorem accounts_new (maxConcurrency maxConnections : Nat) : Accounts (.new maxConcurrency maxConnections) [] where
  running i pool hpool := by simp [Manager.new] at hpool
  reuse i pool hpool := by simp [Manager.new] at hpool
  known _ ht := absurd ht not_mem_nil
  table _ hi := absurd hi not_mem_nil
  ready _ hk := by cases hk

theorem accounts_run
    (h : run (step config) ⟨.new maxConcurrency maxConnections, []⟩ es = some p) : Accounts p.shared p.threads := by
  refine Lib.Pool.inv_run (I := Accounts) (fun _ _ _ hp => Accounts.perm hp) ?_ ?_ (accounts_new _ _) h
  · intro s ts t ht hts
    have hacquire : t = .acquire := by simpa [starts] using ht
    subst hacquire
    exact {
      running := fun i pool hpool => by
        simpa [dropped_cons, counted_cons, Thread.counted?] using hts.running i pool hpool
      reuse := fun i pool hpool => by simpa [picked_cons, Thread.picked?] using hts.reuse i pool hpool
      known := fun u hu j hj => by
        rcases mem_cons.mp hu with rfl | hmem
        · cases hj
        · exact hts.known u hmem j hj
      table := hts.table
      ready := hts.ready }
  · exact fun s t c s' ts rest hts hact => hts.act (act_spec hact)

theorem capacity_run (hexclusive : 0 < maxConnections → maxConcurrency = 0)
    (h : run (step config) ⟨.new maxConcurrency maxConnections, []⟩ es = some p) : Capacity p.shared :=
  run_inv (fun p => Capacity p.shared) (fun _ => True)
    (fun _ _ _ _ hI hstep => keeps_of_act (fun _ _ _ _ => hI.act) hI hstep) (fun _ _ => trivial)
    (capacity_new hexclusive) h

/-- A pool that is retired while no pick runs is never selected again. -/
theorem never_selected (hretired : Retired p.shared i) (hfree : p.shared.picking = none)
    (h : run (step config) p es = some p') {k : Picking} (hk : p'.shared.picking = some k) : k.phase ≠ .selected i := by
  have hpassed : Passed i p'.shared :=
    run_inv (fun p => Passed i p.shared) (fun _ => True)
      (fun _ _ _ _ hI hstep => keeps_of_act (fun _ _ _ _ => hI.act) hI hstep) (fun _ _ => trivial)
      ⟨hretired, fun _ hk => by rw [hfree] at hk; cases hk⟩ h
  intro hphase
  have hoffered := hpassed.2 k hk
  rw [hphase] at hoffered
  exact hoffered rfl

/-- A retired pool that stays without running leases is out of the table after the next creation. -/
theorem dropped_at_creation (hnot : NotCreating p.shared) (hidle : Idle i p.shared)
    (halong : Along (step config) (fun p _ => Idle i p.shared) p es) (h : run (step config) p es = some p')
    (hcreated : p.shared.pools.length < p'.shared.pools.length) : i ∉ p'.shared.table := by
  have hleft : LeftOut i p.shared.pools.length p'.shared :=
    run_inv_along (fun q => LeftOut i p.shared.pools.length q.shared) (fun q _ => Idle i q.shared)
      (fun _ _ _ hq hI hstep => keeps_of_act (fun _ _ _ _ => hI.act hq) hI hstep) es halong
      (leftOut_of_notCreating hnot hidle) h
  exact hleft.table hcreated

end

/-- The accounting of the pools at every point of every schedule. A pool that is retired when a pick
    takes the lock (so while `picking` is `none`) is not selected by it or by any later one. -/
theorem pool_accounting (config : XmuxConfig) (hvalid : config.validate = .ok ()) (maxConcurrency maxConnections : Nat)
    (hconcurrency : samples config.maxConcurrency maxConcurrency = true)
    (hconnections : samples config.maxConnections maxConnections = true)
    (es : List (Lib.Pool.Event Thread Choice)) (p : Lib.Pool Manager Thread)
    (hrun : run (step config) ⟨.new maxConcurrency maxConnections, []⟩ es = some p) :
    (∀ i pool, p.shared.pools[i]? = some pool →
      pool.running + dropped p.threads i = counted p.threads i ∧
      (∀ request, .lease i request ∈ p.threads → 0 < pool.running) ∧
      (0 < pool.reuseBudget → picked p.threads i ≤ pool.reuseBudget)) ∧
    (∀ i, Retired p.shared i → p.shared.picking = none → ∀ es' p', run (step config) p es' = some p' →
      ∀ k, p'.shared.picking = some k → k.phase ≠ .selected i) ∧
    (0 < maxConnections → p.shared.pools.countP (!·.retired) ≤ maxConnections) ∧
    ∀ i, NotCreating p.shared → Idle i p.shared → ∀ es' p', run (step config) p es' = some p' →
      Along (step config) (fun q _ => Idle i q.shared) p es' → p.shared.pools.length < p'.shared.pools.length →
      i ∉ p'.shared.table := by
  have haccounts := accounts_run hrun
  have hcapacity := capacity_run (exclusive_of_validate hvalid hconcurrency hconnections) hrun
  have hmax : p.shared.maxConnections = maxConnections := (limits_run hrun).2
  refine ⟨?_, ?_, ?_, ?_⟩
  · intro i pool hpool
    refine ⟨haccounts.running i pool hpool, ?_, ?_⟩
    · intro request hmem
      obtain ⟨front, back, hsplit⟩ := append_of_mem hmem
      have hperm : p.threads.Perm (.lease i request :: (front ++ back)) := hsplit ▸ perm_middle
      exact (haccounts.perm hperm).running_pos rfl nofun hpool
    · rcases haccounts.reuse i pool hpool with ⟨hzero, -⟩ | ⟨r, -, hsum⟩
      · omega
      · omega
  · exact fun i hretired hfree es' p' h k hk => never_selected hretired hfree h hk
  · intro hpos
    have hbound := hcapacity.bound (hmax.symm ▸ hpos)
    rw [hmax] at hbound
    exact (countP_le_of_cover hcapacity.cover).trans hbound
  grind [hnot, dropped_at_creation]

/-! One connection at a time, each for one use: the second `acquire_connection` replaces the first pool. -/

def oneUse : XmuxConfig where
  maxConcurrency := ⟨0, 0⟩
  maxConnections := ⟨1, 1⟩
  cMaxReuseTimes := ⟨1, 1⟩
  hMaxRequestTimes := ⟨0, 0⟩
  hMaxReusableSecs := ⟨0, 0⟩

/-- The first call up to the drop of its lease, and the second up to the end of its loop. -/
def firstLease : List (Lib.Pool.Event Thread Choice) :=
  [.spawn .acquire, .act 0 {}, .act 0 {}, .act 0 {}, .act 0 { reuse := 1 }, .act 0 {}, .act 0 {},
    .act 0 { drop := true }, .spawn .acquire, .act 0 {}, .act 0 {}]

def firstRetired : Lib.Pool Manager Thread where
  shared := {
    maxConcurrency := 0
    maxConnections := 1
    initial := false
    pools := [⟨0, some 0, none, none, true, 1, 0, 1⟩]
    table := [0]
    picking := some ⟨true, 0, .scan [] [] 0⟩ }
  threads := [.acquiring, .dropped 0]

/-- `retain` and the second pool. -/
def secondPool : List (Lib.Pool.Event Thread Choice) := [.act 0 {}, .act 0 {}, .act 0 {}, .act 0 { reuse := 1 }]

theorem pool_accounting_one_use :
    run (step oneUse) ⟨.new 0 1, []⟩ firstLease = some firstRetired ∧ picked firstRetired.threads 0 ≤ 1 ∧
      ∃ p', run (step oneUse) firstRetired secondPool = some p' ∧ 0 ∉ p'.shared.table := by
  have hrun : run (step oneUse) ⟨.new 0 1, []⟩ firstLease = some firstRetired := rfl
  obtain ⟨haccounts, -, -, hdropped⟩ := pool_accounting oneUse rfl 0 1 rfl rfl firstLease firstRetired hrun
  have hnot : NotCreating firstRetired.shared := by
    intro k hk
    cases hk
    exact .inl ⟨[], [], 0, rfl⟩
  exact ⟨hrun, (haccounts 0 _ rfl).2.2 (by decide), _, rfl,
    hdropped 0 hnot (by decide) secondPool _ rfl (by decide) (by decide)⟩

end Xhttp.Xmux
