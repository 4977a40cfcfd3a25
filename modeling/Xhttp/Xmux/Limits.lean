import Xhttp.Xmux.Model

/- The limits of a pool: `max_concurrency` leases at a time, `h_max_request_times` requests in all.

   `pick` tests both, but the call that got the pool counts itself in a later section, and other calls may have
   counted themselves on the same pool in between. The limits hold throughout a schedule if and only if the
   test of `pick` still holds at each of those sections. -/
namespace Xhttp.Xmux
open Xhttp.Lib

/-- The test of `pick` for a connection: another lease is allowed. -/
def Pool.hasLease (maxConcurrency : Nat) (pool : Pool) : Bool := maxConcurrency = 0 || pool.running < maxConcurrency

/-- The test of `pick` for any use: the request budget is not used up. -/
def Pool.hasRequest (pool : Pool) : Bool := pool.remainingRequests != some 0

/-- A section that counts a call on a pool finds the room that `pick` saw. -/
def stillFits (p : Lib.Pool Manager Thread) : Lib.Pool.Event Thread Choice → Bool
  | .spawn _ => true
  | .act j _ =>
    match p.threads[j]? with
    | some (.count i) => (p.shared.pools[i]?).all fun pool => pool.hasLease p.shared.maxConcurrency && pool.hasRequest
    | some (.charge _ _ i) => (p.shared.pools[i]?).all Pool.hasRequest
    | _ => true

/-- The leases and the requests of a pool are within its limits. -/
def Pool.Within (maxConcurrency : Nat) (pool : Pool) : Prop :=
  (0 < maxConcurrency → pool.running ≤ maxConcurrency) ∧ (0 < pool.requestBudget → pool.charged ≤ pool.requestBudget)

def AllPools (P : Pool → Prop) (s : Manager) : Prop := ∀ (i : Nat) (pool : Pool), s.pools[i]? = some pool → P pool

/-! ## What one section does to a pool -/

/-- The request budget that is left is what was sampled less the charges, and stays at zero. -/
def Pool.Charged (pool : Pool) : Prop :=
  pool.remainingRequests = if pool.requestBudget = 0 then none else some (pool.requestBudget - pool.charged)

section
variable {s s' : Manager} {k : Picking} {c : Choice} {o : Outcome} {t : Thread} {ts : List Thread}
  {P : Pool → Prop} {pool : Pool} {f : Pool → Pool} {i n : Nat}

theorem Pool.Charged.consumeRequest (h : pool.Charged) : pool.consumeRequest.Charged := by
  grind [Pool.Charged, Pool.consumeRequest]

theorem Pool.charged_fresh (now : Nat) (c : Choice) : (Pool.fresh now c).Charged := by
  simp [Pool.Charged, Pool.fresh, nonzeroBudget]

theorem Pool.within_fresh (n now : Nat) (c : Choice) : (Pool.fresh now c).Within n :=
  ⟨fun _ => Nat.zero_le n, fun _ => Nat.zero_le c.requests⟩

theorem Pool.hasLease_iff : pool.hasLease n = true ↔ (0 < n → pool.running + 1 ≤ n) := by
  simp only [Pool.hasLease, Bool.or_eq_true, decide_eq_true_eq]
  omega

/-- One more charge is within the budget exactly where it is not used up. -/
theorem Pool.Charged.hasRequest_iff (h : pool.Charged) :
    pool.hasRequest = true ↔ (0 < pool.requestBudget → pool.charged + 1 ≤ pool.requestBudget) := by
  unfold Pool.hasRequest
  rw [h]
  by_cases hzero : pool.requestBudget = 0
  · simp [hzero]
  · simp only [hzero, if_false, bne_iff_ne, ne_eq, Option.some.injEq]
    omega

theorem Pool.Charged.within_countLease_iff (h : pool.Charged) :
    pool.countLease.Within n ↔ (pool.hasLease n && pool.hasRequest) = true := by
  rw [Bool.and_eq_true, Pool.hasLease_iff, h.hasRequest_iff]
  rfl

theorem Pool.Charged.within_consumeRequest_iff (h : pool.Charged) (hwithin : pool.Within n) :
    pool.consumeRequest.Within n ↔ pool.hasRequest = true := by
  rw [h.hasRequest_iff]
  exact ⟨fun hcharge => hcharge.2, fun hcharge => ⟨hwithin.1, hcharge⟩⟩

theorem Pool.hasRequest_of_usable {now : Nat} (h : pool.unusable now = false) : pool.hasRequest = true := by
  simp only [Pool.unusable, Bool.or_eq_false_iff] at h
  simp [Pool.hasRequest, bne, h.1]

theorem AllPools.modify (h : AllPools P s) (hf : ∀ pool, s.pools[i]? = some pool → P (f pool)) :
    AllPools P (s.modify i f) := by
  intro j pool hpool
  obtain ⟨old, hold, rfl⟩ := Numbered.get_modify hpool
  split
  · next hj =>
    subst hj
    exact hf old hold
  · exact h j old hold

/-- A change of one pool keeps `P` of all pools exactly if it gives it of that one. -/
theorem AllPools.modify_iff (h : AllPools P s) :
    AllPools P (s.modify i f) ↔ ∀ pool, s.pools[i]? = some pool → P (f pool) := by
  refine ⟨fun hmodify pool hpool => hmodify i (f pool) ?_, h.modify⟩
  show (s.pools.modify i f)[i]? = some (f pool)
  rw [List.getElem?_modify_eq, hpool]
  rfl

theorem AllPools.pick (hretire : ∀ pool, P pool → P pool.retire) (hreuse : ∀ pool, P pool → P pool.consumeReuse)
    (hfresh : ∀ now c, P (.fresh now c)) (h : AllPools P s) (hpick : PickStep s k c s' o) : AllPools P s' := by
  cases hpick with
  | @retire i =>
    have hmodify : AllPools P (s.modify i Pool.retire) := h.modify fun pool hpool => hretire pool (h i pool hpool)
    exact hmodify
  | create =>
    intro i pool hpool
    obtain hold | ⟨-, rfl⟩ := Numbered.get_concat_cases hpool
    · exact h i pool hold
    · exact hfresh k.now c
  | @selectConnection i =>
    have hmodify : AllPools P (s.modify i Pool.consumeReuse) := h.modify fun pool hpool => hreuse pool (h i pool hpool)
    exact hmodify
  | _ => exact h

theorem AllPools.charged_act (h : AllPools Pool.Charged s) (hact : Act s c t s' ts) : AllPools Pool.Charged s' := by
  cases hact with
  | lockConnection | lockRequest => exact h
  | pickConnection _ _ hpick | pickRequest _ _ hpick =>
    exact h.pick (fun _ hc => hc) (fun _ hc => hc) Pool.charged_fresh hpick
  | count =>
    refine h.modify fun pool hpool => ?_
    have hsame : Pool.Charged { pool with running := pool.running + 1 } := h _ pool hpool
    exact hsame.consumeRequest
  | drop | unusable => exact h.modify (h _)
  | packet | charge => exact h.modify fun pool hpool => (h _ pool hpool).consumeRequest

end

/-! ## Schedules -/

section
variable {config : XmuxConfig} {n : Nat} {p p' : Lib.Pool Manager Thread} {e : Lib.Pool.Event Thread Choice}

/-- What every section keeps. -/
structure Sampled (n : Nat) (s : Manager) : Prop where
  limit : s.maxConcurrency = n
  charged : AllPools Pool.Charged s

theorem Sampled.step (h : Sampled n p.shared) (hstep : step config p e = some p') : Sampled n p'.shared :=
  keeps_of_act (fun _ _ _ _ hact => ⟨hact.limits.1.trans h.limit, h.charged.charged_act hact⟩) h hstep

theorem stillFits_iff (h : Sampled n p.shared) (hwithin : AllPools (Pool.Within n) p.shared)
    (hstep : step config p e = some p') : stillFits p e = true ↔ AllPools (Pool.Within n) p'.shared := by
  rcases Lib.Pool.step_eq_some hstep with ⟨t, rfl, -, rfl⟩ | ⟨j, c, t, s', ts, rest, rfl, ht, -, ha, rfl⟩
  · exact iff_of_true rfl hwithin
  · have hact := act_spec ha
    simp only [stillFits, ht]
    cases hact with
    | lockConnection | lockRequest => exact iff_of_true rfl hwithin
    | pickConnection _ _ hpick | pickRequest _ _ hpick =>
      exact iff_of_true rfl (hwithin.pick (fun _ hw => hw) (fun _ hw => hw) (Pool.within_fresh n) hpick)
    | count =>
      rw [hwithin.modify_iff, Option.all_eq_true, h.limit]
      exact forall₂_congr fun pool hpool => (h.charged _ pool hpool).within_countLease_iff.symm
    | drop =>
      refine iff_of_true rfl (hwithin.modify fun pool hpool => ?_)
      have hw := hwithin _ pool hpool
      exact ⟨fun hpos => (Nat.sub_le _ 1).trans (hw.1 hpos), hw.2⟩
    | @packet _ _ pool hpool _ husable =>
      -- the test and the charge are one section here
      refine iff_of_true rfl (hwithin.modify fun pool' hpool' => ?_)
      obtain rfl := Option.some.inj (hpool.symm.trans hpool')
      exact ((h.charged _ pool hpool).within_consumeRequest_iff (hwithin _ pool hpool)).mpr
        (Pool.hasRequest_of_usable husable)
    | unusable => exact iff_of_true rfl (hwithin.modify (hwithin _))
    | charge =>
      rw [hwithin.modify_iff, Option.all_eq_true]
      exact forall₂_congr fun pool hpool =>
        ((h.charged _ pool hpool).within_consumeRequest_iff (hwithin _ pool hpool)).symm

end

/-- **The limits of all pools hold in every state of a schedule exactly if every section that counts a call on a
    pool finds the room that `pick` saw.** -/
theorem limits_kept_iff (config : XmuxConfig) (maxConcurrency maxConnections : Nat)
    (es : List (Lib.Pool.Event Thread Choice)) (p : Lib.Pool Manager Thread)
    (hrun : run (step config) ⟨.new maxConcurrency maxConnections, []⟩ es = some p) :
    Along (step config) (fun q e => stillFits q e = true) ⟨.new maxConcurrency maxConnections, []⟩ es ↔
      ∀ es₁ es₂ q, es = es₁ ++ es₂ → run (step config) ⟨.new maxConcurrency maxConnections, []⟩ es₁ = some q →
        ∀ (i : Nat) (pool : Pool), q.shared.pools[i]? = some pool →
          (0 < maxConcurrency → pool.running ≤ maxConcurrency) ∧
          (0 < pool.requestBudget → pool.charged ≤ pool.requestBudget) := by
  have hnone : ∀ P : Pool → Prop, AllPools P (.new maxConcurrency maxConnections) := nofun
  exact along_iff_forall_states (fun q => Sampled maxConcurrency q.shared)
    (fun q => AllPools (Pool.Within maxConcurrency) q.shared) (fun q e => stillFits q e = true)
    (fun _ _ _ hs hstep => hs.step hstep) (fun _ _ _ hs hwithin hstep => stillFits_iff hs hwithin hstep)
    ⟨rfl, hnone _⟩ (hnone _) hrun

/-! Two calls and one pool that has room for one of them. -/

def oneLease : XmuxConfig where
  maxConcurrency := ⟨1, 1⟩
  maxConnections := ⟨0, 0⟩
  cMaxReuseTimes := ⟨0, 0⟩
  hMaxRequestTimes := ⟨1, 1⟩
  hMaxReusableSecs := ⟨0, 0⟩

/-- The first call picks: it locks, finds no pool, keeps none, and creates one. -/
def firstPick : List (Lib.Pool.Event Thread Choice) :=
  [.spawn .acquire, .act 0 {}, .act 0 {}, .act 0 {}, .act 0 { requests := 1 }, .act 0 {}]

/-- The second call picks the same pool before the first has counted itself on it. -/
def secondPick : List (Lib.Pool.Event Thread Choice) := [.spawn .acquire, .act 0 {}, .act 0 {}, .act 0 {}, .act 0 {}]

/-- With room for two, both calls count themselves on the pool. -/
def bothFit : List (Lib.Pool.Event Thread Choice) :=
  [.spawn .acquire, .act 0 {}, .act 0 {}, .act 0 {}, .act 0 { requests := 2 }, .act 0 {}] ++ secondPick ++
    [.act 0 {}, .act 1 {}]

def twoLeases : XmuxConfig := { oneLease with maxConcurrency := ⟨2, 2⟩, hMaxRequestTimes := ⟨2, 2⟩ }

theorem limits_kept_two_calls : ∃ p, run (step twoLeases) ⟨.new 2 0, []⟩ bothFit = some p ∧
    (∃ pool, p.shared.pools[0]? = some pool ∧ pool.running = 2 ∧ pool.charged = 2) ∧
    ∀ (i : Nat) (pool : Pool), p.shared.pools[i]? = some pool →
      (0 < 2 → pool.running ≤ 2) ∧ (0 < pool.requestBudget → pool.charged ≤ pool.requestBudget) :=
  ⟨_, rfl, ⟨_, rfl, rfl, rfl⟩, (limits_kept_iff twoLeases 2 0 bothFit _ rfl).mp (by decide) _ [] _
    (List.append_nil _).symm rfl⟩

/-- Both calls saw the room for one: the pool ends with two leases and two charges. -/
theorem both_calls_counted : samples oneLease.maxConcurrency 1 = true ∧ oneLease.validate = .ok () ∧
    ∃ p, run (step oneLease) ⟨.new 1 0, []⟩ (firstPick ++ secondPick ++ [.act 0 {}, .act 1 {}]) = some p ∧
      ∃ pool, p.shared.pools[0]? = some pool ∧ pool.running = 2 ∧ pool.requestBudget = 1 ∧ pool.charged = 2 :=
  ⟨rfl, rfl, _, rfl, _, rfl, rfl, rfl, rfl⟩

end Xhttp.Xmux
