import Xhttp.Config
import Xhttp.Lib.Map
import Xhttp.Lib.Pool

/- The HTTP client pools of the XHTTP client (`src/xmux.rs`).

   A pool is an `Arc<Mutex<Pool>>`, told by its number in the list of all that were made; `state.pools` is a list of
   such numbers. A thread is the life of one `acquire_connection` call and of the lease it returns. Each section under
   the lock of a pool is one step. `pick` holds the lock of `state` from its first line to its last and locks the
   pools one after the other, so a pick is a series of steps (`Phase`) between which other calls may lock a pool but
   no other pick runs.

   The HTTP clients are left out. A deadline that `Instant` cannot hold panics under the lock of `state`, and no pick
   gets past it. Times are nanoseconds. -/
namespace Xhttp.Xmux
open Xhttp.Lib

/-- `struct Pool`. The last three fields only record what happened: the two budgets that were sampled, and
    how many requests were charged. -/
structure Pool where
  running : Nat
  remainingReuse : Option Nat
  remainingRequests : Option Nat
  unusableAt : Option Nat
  retired : Bool
  reuseBudget : Nat
  requestBudget : Nat
  charged : Nat
  deriving DecidableEq, Repr

def nonzeroBudget (value : Nat) : Option Nat := if value ≠ 0 then some value else none

def Pool.consumeRequest (pool : Pool) : Pool :=
  { pool with remainingRequests := pool.remainingRequests.map (· - 1), charged := pool.charged + 1 }

def Pool.consumeReuse (pool : Pool) : Pool := { pool with remainingReuse := pool.remainingReuse.map (· - 1) }

/-- No request is left, or the deadline has passed. -/
def Pool.unusable (now : Nat) (pool : Pool) : Bool :=
  pool.remainingRequests == some 0 || pool.unusableAt.any (· ≤ now)

/-- The values `RangeConfig::sample` can return. -/
def samples (range : RangeConfig) (value : Nat) : Bool :=
  if range.hi = 0 then value = 0 else range.lo ≤ value && value ≤ range.hi

/-! ## The manager -/

inductive Phase where
  /-- The loop over `state.pools`, with the entries that are left. -/
  | scan (rest active : List Nat) (activeCount : Nat)
  /-- `state.pools.retain`, with the entries that are left and those that stay. -/
  | retain (rest kept : List Nat)
  | create
  /-- A pool is chosen; its reuse budget is charged next if the pick is for a connection. -/
  | selected (pool : Nat)
  deriving DecidableEq, Repr

structure Picking where
  connection : Bool
  now : Nat
  phase : Phase
  deriving DecidableEq, Repr

/-- `struct Manager` with its `State`. `picking` is the call that holds the lock of `state`. -/
structure Manager where
  maxConcurrency : Nat
  maxConnections : Nat
  /-- The client made by `new` has not been taken yet. -/
  initial : Bool
  pools : List Pool
  table : List Nat
  picking : Option Picking
  deriving DecidableEq, Repr

def Manager.new (maxConcurrency maxConnections : Nat) : Manager :=
  { maxConcurrency, maxConnections, initial := true, pools := [], table := [], picking := none }

def Manager.modify (s : Manager) (i : Nat) (f : Pool → Pool) : Manager := { s with pools := s.pools.modify i f }

@[simp] theorem Manager.length_modify (s : Manager) (i : Nat) (f : Pool → Pool) :
    (s.modify i f).pools.length = s.pools.length := List.length_modify ..

/-- What a step cannot decide by itself: the clock, the random index, whether `build` succeeds, the sampled
    values, and whether the lease is dropped or used for a packet. -/
structure Choice where
  now : Nat := 0
  index : Nat := 0
  built : Bool := true
  reuse : Nat := 0
  requests : Nat := 0
  secs : Nat := 0
  drop : Bool := false
  deriving DecidableEq, Repr

inductive Outcome where
  | going
  | returned (pool : Nat)
  | failed
  deriving DecidableEq, Repr

def Manager.lock (s : Manager) (connection : Bool) (c : Choice) : Option Manager :=
  match s.picking with
  | some _ => none
  | none => some { s with picking := some ⟨connection, c.now, .scan s.table [] 0⟩ }

def Manager.next (s : Manager) (k : Picking) (phase : Phase) : Manager := { s with picking := some { k with phase } }

def Pool.fresh (now : Nat) (c : Choice) : Pool where
  running := 0
  remainingReuse := nonzeroBudget c.reuse
  remainingRequests := nonzeroBudget c.requests
  unusableAt := (nonzeroBudget c.secs).map fun seconds => now + seconds * 1000000000
  retired := false
  reuseBudget := c.reuse
  requestBudget := c.requests
  charged := 0

variable (config : XmuxConfig)

def pickStep (s : Manager) (k : Picking) (c : Choice) : Option (Manager × Outcome) :=
  match k.phase with
  | .scan (i :: rest) active activeCount =>
    match s.pools[i]? with
    | none => none
    | some pool =>
      if pool.retired || (pool.remainingReuse == some 0 || pool.unusable k.now) then
        some ((s.modify i fun pool => { pool with retired := true }).next k (.scan rest active activeCount), .going)
      else if !k.connection || s.maxConcurrency == 0 || pool.running < s.maxConcurrency then
        some (s.next k (.scan rest (active ++ [i]) (activeCount + 1)), .going)
      else some (s.next k (.scan rest active (activeCount + 1)), .going)
  | .scan [] active activeCount =>
    if active.isEmpty || (0 < s.maxConnections && activeCount < s.maxConnections) then
      some (s.next k (.retain s.table []), .going)
    else
      match active[c.index]? with
      | none => none
      | some i => some (s.next k (.selected i), .going)
  | .retain (i :: rest) kept =>
    match s.pools[i]? with
    | none => none
    | some pool =>
      if pool.retired && pool.running == 0 then some (s.next k (.retain rest kept), .going)
      else some (s.next k (.retain rest (kept ++ [i])), .going)
  | .retain [] kept => some ({ s with table := kept }.next k .create, .going)
  | .create =>
    if !s.initial && !c.built then some ({ s with picking := none }, .failed)
    else if samples config.cMaxReuseTimes c.reuse && samples config.hMaxRequestTimes c.requests &&
        samples config.hMaxReusableSecs c.secs then
      some ({ s with
        initial := false
        pools := s.pools ++ [.fresh k.now c]
        table := s.table ++ [s.pools.length]
        picking := some { k with phase := .selected s.pools.length } }, .going)
    else none
  | .selected i =>
    let s := if k.connection then s.modify i Pool.consumeReuse else s
    some ({ s with picking := none }, .returned i)

/-! ## Calls -/

inductive Thread where
  /-- `acquire_connection`, before the lock of `state`. -/
  | acquire
  /-- `acquire_connection` in `pick(true)`. -/
  | acquiring
  /-- `acquire_connection` with its pool, before `running += 1`. -/
  | count (pool : Nat)
  /-- A lease between calls: its `connection_pool` and its `request_pool`. -/
  | lease (connection request : Nat)
  /-- `http_for_packet` in `acquire_request`, before the lock of `state`. -/
  | rotate (connection request : Nat)
  /-- `acquire_request` in `pick(false)`. -/
  | rotating (connection request : Nat)
  /-- `acquire_request` with its pool, before `consume_request`. -/
  | charge (connection request pool : Nat)
  | dropped (connection : Nat)
  deriving DecidableEq, Repr

/-- What is left of `acquire_connection` after a step of its pick. -/
def afterAcquire : Outcome → List Thread
  | .going => [.acquiring]
  | .returned i => [.count i]
  | .failed => []

/-- What is left of `acquire_request` after a step of its pick. -/
def afterRequest (connection request : Nat) : Outcome → List Thread
  | .going => [.rotating connection request]
  | .returned i => [.charge connection request i]
  | .failed => [.lease connection request]

/-- The first section of `http_for_packet`: whether the request pool can still be used. -/
def packetStep (s : Manager) (connection request now : Nat) : Option (Manager × List Thread) :=
  match s.pools[request]? with
  | none => none
  | some pool =>
    if pool.retired || pool.unusable now then
      some (s.modify request fun pool => { pool with retired := true }, [.rotate connection request])
    else some (s.modify request Pool.consumeRequest, [.lease connection request])

def act (s : Manager) : Thread → Choice → Option (Manager × List Thread)
  | .acquire, c => (s.lock true c).map fun s => (s, [.acquiring])
  | .acquiring, c =>
    match s.picking with
    | none => none
    | some k =>
      if k.connection then (pickStep config s k c).map fun r => (r.1, afterAcquire r.2) else none
  | .count i, _ => some (s.modify i fun pool => { pool with running := pool.running + 1 }.consumeRequest, [.lease i i])
  | .lease connection request, c =>
    if c.drop then
      some (s.modify connection fun pool => { pool with running := pool.running - 1 }, [.dropped connection])
    else packetStep s connection request c.now
  | .rotate connection request, c => (s.lock false c).map fun s => (s, [.rotating connection request])
  | .rotating connection request, c =>
    match s.picking with
    | none => none
    | some k =>
      if k.connection then none else (pickStep config s k c).map fun r => (r.1, afterRequest connection request r.2)
  | .charge connection _ i, _ => some (s.modify i Pool.consumeRequest, [.lease connection i])
  | .dropped _, _ => none

/-- The environment starts `acquire_connection` calls. -/
def starts (t : Thread) : Bool := t = .acquire

abbrev step : Lib.Pool Manager Thread → Lib.Pool.Event Thread Choice → Option (Lib.Pool Manager Thread) :=
  Lib.Pool.step starts (act config)

/-! ## All that a step can do -/

def Pool.retire (pool : Pool) : Pool := { pool with retired := true }

/-- `running += 1` and `consume_request`. -/
def Pool.countLease (pool : Pool) : Pool := { pool with running := pool.running + 1 }.consumeRequest

def Pool.dropLease (pool : Pool) : Pool := { pool with running := pool.running - 1 }

/-- The steps of a pick, one for each way through `pickStep`. -/
inductive PickStep (s : Manager) (k : Picking) (c : Choice) : Manager → Outcome → Prop
  | retire {i rest active n pool} (hphase : k.phase = .scan (i :: rest) active n) (hpool : s.pools[i]? = some pool) :
      PickStep s k c ((s.modify i Pool.retire).next k (.scan rest active n)) .going
  | accept {i rest active n pool} (hphase : k.phase = .scan (i :: rest) active n) (hpool : s.pools[i]? = some pool)
      (hlive : pool.retired = false) (hreuse : pool.remainingReuse ≠ some 0) (husable : pool.unusable k.now = false)
      (hroom : k.connection = true → s.maxConcurrency ≠ 0 → pool.running < s.maxConcurrency) :
      PickStep s k c (s.next k (.scan rest (active ++ [i]) (n + 1))) .going
  | full {i rest active n pool} (hphase : k.phase = .scan (i :: rest) active n) (hpool : s.pools[i]? = some pool)
      (hlimit : s.maxConcurrency ≠ 0) : PickStep s k c (s.next k (.scan rest active (n + 1))) .going
  | replace {active n} (hphase : k.phase = .scan [] active n)
      (hroom : active = [] ∨ 0 < s.maxConnections ∧ n < s.maxConnections) :
      PickStep s k c (s.next k (.retain s.table [])) .going
  | choose {i active n} (hphase : k.phase = .scan [] active n) (hi : active[c.index]? = some i) :
      PickStep s k c (s.next k (.selected i)) .going
  | discard {i rest kept pool} (hphase : k.phase = .retain (i :: rest) kept) (hpool : s.pools[i]? = some pool)
      (hretired : pool.retired = true) (hrunning : pool.running = 0) :
      PickStep s k c (s.next k (.retain rest kept)) .going
  | keep {i rest kept pool} (hphase : k.phase = .retain (i :: rest) kept) (hpool : s.pools[i]? = some pool)
      (hused : pool.retired = true → pool.running ≠ 0) : PickStep s k c (s.next k (.retain rest (kept ++ [i]))) .going
  | retained {kept} (hphase : k.phase = .retain [] kept) :
      PickStep s k c ({ s with table := kept }.next k .create) .going
  | fail (hphase : k.phase = .create) : PickStep s k c { s with picking := none } .failed
  | create (hphase : k.phase = .create) : PickStep s k c
      { s with
        initial := false
        pools := s.pools ++ [.fresh k.now c]
        table := s.table ++ [s.pools.length]
        picking := some { k with phase := .selected s.pools.length } } .going
  | selectConnection {i} (hphase : k.phase = .selected i) (hconnection : k.connection = true) :
      PickStep s k c { s.modify i Pool.consumeReuse with picking := none } (.returned i)
  | selectRequest {i} (hphase : k.phase = .selected i) (hrequest : k.connection = false) :
      PickStep s k c { s with picking := none } (.returned i)

variable {config} {s s' : Manager} {k : Picking} {c : Choice} {o : Outcome}

theorem pickStep_spec (h : pickStep config s k c = some (s', o)) : PickStep s k c s' o := by
  unfold pickStep at h
  split at h
  · next i rest active n hphase =>
    split at h
    · cases h
    · next pool hpool =>
      split at h
      · cases h
        exact .retire hphase hpool
      · next husable =>
        simp only [Bool.or_eq_true, beq_iff_eq, not_or, Bool.not_eq_true] at husable
        split at h
        · next hroom =>
          cases h
          refine .accept hphase hpool husable.1 husable.2.1 husable.2.2 fun hconnection hlimit => ?_
          simpa [hconnection, hlimit] using hroom
        · next hfull =>
          cases h
          simp only [Bool.or_eq_true, beq_iff_eq, not_or] at hfull
          exact .full hphase hpool hfull.1.2
  · next active n hphase =>
    split at h
    · next hroom =>
      cases h
      refine .replace hphase ?_
      simpa using hroom
    · split at h
      · cases h
      · next i hi =>
        cases h
        exact .choose hphase hi
  · next i rest kept hphase =>
    split at h
    · cases h
    · next pool hpool =>
      split at h
      · next hidle =>
        cases h
        simp only [Bool.and_eq_true, beq_iff_eq] at hidle
        exact .discard hphase hpool hidle.1 hidle.2
      · next hused =>
        cases h
        refine .keep hphase hpool fun hretired => ?_
        simpa [hretired] using hused
  · next kept hphase =>
    cases h
    exact .retained hphase
  · next hphase =>
    split at h
    · cases h
      exact .fail hphase
    · split at h
      · cases h
        exact .create hphase
      · cases h
  · next i hphase =>
    cases hconnection : k.connection with
    | true =>
      simp only [hconnection, if_true] at h
      cases h
      exact .selectConnection hphase hconnection
    | false =>
      simp only [hconnection, Bool.false_eq_true, if_false] at h
      cases h
      exact .selectRequest hphase hconnection

inductive Act (s : Manager) (c : Choice) : Thread → Manager → List Thread → Prop
  | lockConnection (hfree : s.picking = none) :
      Act s c .acquire { s with picking := some ⟨true, c.now, .scan s.table [] 0⟩ } [.acquiring]
  | lockRequest {connection request} (hfree : s.picking = none) :
      Act s c (.rotate connection request) { s with picking := some ⟨false, c.now, .scan s.table [] 0⟩ }
        [.rotating connection request]
  | pickConnection {k : Picking} {s' : Manager} {o : Outcome} (hpicking : s.picking = some k)
      (hconnection : k.connection = true)
      (hpick : PickStep s k c s' o) : Act s c .acquiring s' (afterAcquire o)
  | pickRequest {connection request : Nat} {k : Picking} {s' : Manager} {o : Outcome} (hpicking : s.picking = some k)
      (hrequest : k.connection = false) (hpick : PickStep s k c s' o) :
      Act s c (.rotating connection request) s' (afterRequest connection request o)
  | count {i} : Act s c (.count i) (s.modify i Pool.countLease) [.lease i i]
  | drop {connection request} :
      Act s c (.lease connection request) (s.modify connection Pool.dropLease) [.dropped connection]
  | packet {connection request pool} (hpool : s.pools[request]? = some pool) (hlive : pool.retired = false)
      (husable : pool.unusable c.now = false) :
      Act s c (.lease connection request) (s.modify request Pool.consumeRequest) [.lease connection request]
  | unusable {connection request} :
      Act s c (.lease connection request) (s.modify request Pool.retire) [.rotate connection request]
  | charge {connection request i} :
      Act s c (.charge connection request i) (s.modify i Pool.consumeRequest) [.lease connection i]

theorem lock_eq_some {connection : Bool} (h : s.lock connection c = some s') :
    s.picking = none ∧ s' = { s with picking := some ⟨connection, c.now, .scan s.table [] 0⟩ } := by
  grind [Manager.lock]

variable {ts : List Thread} {t : Thread}

theorem act_spec (h : act config s t c = some (s', ts)) : Act s c t s' ts := by
  cases t with
  | acquire =>
    obtain ⟨m, hlock, heq⟩ := Option.map_eq_some_iff.mp h
    obtain ⟨hfree, rfl⟩ := lock_eq_some hlock
    cases heq
    exact .lockConnection hfree
  | acquiring =>
    simp only [act] at h
    split at h
    · cases h
    · next k hpicking =>
      split at h
      · next hconnection =>
        obtain ⟨⟨m, o⟩, hpick, heq⟩ := Option.map_eq_some_iff.mp h
        cases heq
        exact .pickConnection hpicking hconnection (pickStep_spec hpick)
      · cases h
  | count i =>
    cases h
    exact .count
  | lease connection request =>
    simp only [act] at h
    split at h
    · cases h
      exact .drop
    · unfold packetStep at h
      split at h
      · cases h
      · next pool hpool =>
        split at h
        · cases h
          exact .unusable
        · next husable =>
          cases h
          simp only [Bool.or_eq_true, not_or, Bool.not_eq_true] at husable
          exact .packet hpool husable.1 husable.2
  | rotate connection request =>
    obtain ⟨m, hlock, heq⟩ := Option.map_eq_some_iff.mp h
    obtain ⟨hfree, rfl⟩ := lock_eq_some hlock
    cases heq
    exact .lockRequest hfree
  | rotating connection request =>
    simp only [act] at h
    split at h
    · cases h
    · next k hpicking =>
      split at h
      · cases h
      · next hrequest =>
        obtain ⟨⟨m, o⟩, hpick, heq⟩ := Option.map_eq_some_iff.mp h
        cases heq
        exact .pickRequest hpicking (Bool.not_eq_true _ ▸ hrequest) (pickStep_spec hpick)
  | charge connection request i =>
    cases h
    exact .charge
  | dropped connection => cases h

theorem Act.limits (h : Act s c t s' ts) :
    s'.maxConcurrency = s.maxConcurrency ∧ s'.maxConnections = s.maxConnections := by
  cases h with
  | pickConnection _ _ hpick | pickRequest _ _ hpick => cases hpick <;> exact ⟨rfl, rfl⟩
  | _ => exact ⟨rfl, rfl⟩

/-- What a step of any thread keeps is kept by every event. -/
theorem keeps_of_act {I : Manager → Prop} {p p' : Lib.Pool Manager Thread} {e : Lib.Pool.Event Thread Choice}
    (hact : ∀ c t s' ts, Act p.shared c t s' ts → I s') (hI : I p.shared) (h : step config p e = some p') :
    I p'.shared := by
  rcases Lib.Pool.step_eq_some h with ⟨t, -, -, rfl⟩ | ⟨j, c, t, s', ts, rest, -, -, -, ha, rfl⟩
  · exact hI
  · exact hact c t s' ts (act_spec ha)

theorem limits_run {p p' : Lib.Pool Manager Thread} {es : List (Lib.Pool.Event Thread Choice)}
    (h : run (step config) p es = some p') :
    p'.shared.maxConcurrency = p.shared.maxConcurrency ∧ p'.shared.maxConnections = p.shared.maxConnections :=
  run_inv (fun q => q.shared.maxConcurrency = p.shared.maxConcurrency ∧
    q.shared.maxConnections = p.shared.maxConnections)
    (fun _ => True)
    (fun _ _ _ _ hI hstep => keeps_of_act
      (I := fun s => s.maxConcurrency = p.shared.maxConcurrency ∧ s.maxConnections = p.shared.maxConnections)
      (fun _ _ _ _ ha => ⟨ha.limits.1.trans hI.1, ha.limits.2.trans hI.2⟩) hI hstep)
    (fun _ _ => trivial) ⟨rfl, rfl⟩ h

end Xhttp.Xmux
