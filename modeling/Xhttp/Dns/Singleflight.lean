import Xhttp.Dns.Cache
import Xhttp.Lib.Pool

/- One load for many lookups (`DnsResolver::cached` in `src/dns/mod.rs`, `Flight` in `src/dns/cache.rs`): the first
   call for a key becomes the leader of a flight and runs `load`, the calls that come while it does wait for its
   result. Every access to the cache, to `flights` and to a flight is one atomic step of a thread.

   `tokio::sync::Notify` is modelled as it is documented: a `Notified` future is ready once `notify_waiters` was
   called after its creation, so a flight counts these calls and a waiter remembers the count it has seen. What
   `load` returns is a choice of the schedule; an error is the text `format!("{error:#}")`. -/
namespace Xhttp.Dns.Singleflight
open Xhttp.Lib List

abbrev Shared := Except Str CacheValue

/-- `struct Flight`; `notified` counts the calls of `notify_waiters`. -/
structure Flight where
  result : Option Shared
  notified : Nat

/-- The resolver's shared state. Flights are told apart by number. The last two fields only
    record what happened: the result of each flight's `load`, and what the calls that went
    through a flight returned. -/
structure Inner where
  cache : DnsCache
  flights : AList (fun _ : CacheKey => Nat)
  objects : List Flight
  loaded : List (Nat × Shared)
  returned : List (Nat × Shared)

inductive Thread where
  /-- `cache.lock().get(&key)`. -/
  | start (key : CacheKey)
  /-- `flights.lock()`: join the flight of the key, or lead a new one. -/
  | enter (key : CacheKey)
  /-- `self.ready.notified()`. -/
  | wait (flight : Nat)
  /-- `self.result.lock()`. -/
  | check (flight : Nat) (seen : Nat)
  /-- `notified.await`. -/
  | sleep (flight : Nat) (seen : Nat)
  /-- `load().await`. -/
  | load (key : CacheKey) (flight : Nat)
  /-- `cache.lock().insert(..)`, if there is something to insert. -/
  | store (key : CacheKey) (flight : Nat) (shared : Shared) (ttl : Nat)
  /-- `*self.result.lock() = Some(result)`. -/
  | complete (key : CacheKey) (flight : Nat) (shared : Shared)
  /-- `self.ready.notify_waiters()`. -/
  | notify (key : CacheKey) (flight : Nat) (shared : Shared)
  /-- `flights.lock().remove(&key)`. -/
  | leave (key : CacheKey) (flight : Nat) (shared : Shared)

inductive Choice where
  | go (now : Nat)
  /-- `load` ends with a value and its time to live, or with an error. -/
  | loaded (result : Except Str (CacheValue × Nat))
  | dropped

def Inner.start (cache : DnsCache) : Inner :=
  { cache, flights := ∅, objects := [], loaded := [], returned := [] }

def Inner.update (s : Inner) (flight : Nat) (f : Flight → Flight) : Inner :=
  { s with objects := s.objects.modify flight f }

/-- `if cache_enabled && !ttl.is_zero()`, for a value. -/
def Inner.store (cacheEnabled : Bool) (s : Inner) (now : Nat) (key : CacheKey) (shared : Shared) (ttl : Nat) : Inner :=
  match shared with
  | .ok value =>
    if cacheEnabled ∧ ttl ≠ 0 then { s with cache := s.cache.insert now key value ttl } else s
  | .error _ => s

theorem Inner.store_frame (cacheEnabled : Bool) (s : Inner) (now : Nat) (key : CacheKey) (shared : Shared) (ttl : Nat) :
    (s.store cacheEnabled now key shared ttl).flights = s.flights ∧
    (s.store cacheEnabled now key shared ttl).objects = s.objects ∧
    (s.store cacheEnabled now key shared ttl).loaded = s.loaded ∧
    (s.store cacheEnabled now key shared ttl).returned = s.returned := by
  unfold Inner.store
  grind

def act (cacheEnabled : Bool) (s : Inner) : Thread → Choice → Option (Inner × List Thread)
  | .start key, .go now =>
    if cacheEnabled then
      match s.cache.get now key with
      | (some _, cache) => some ({ s with cache }, [])
      | (none, cache) => some ({ s with cache }, [.enter key])
    else some (s, [.enter key])
  | .enter key, .go _ =>
    match s.flights.lookup key with
    | some flight => some (s, [.wait flight])
    | none =>
      some ({ s with flights := s.flights.insert key s.objects.length,
                     objects := s.objects ++ [⟨none, 0⟩] },
        [.load key s.objects.length])
  | .wait flight, .go _ => s.objects[flight]?.map fun f => (s, [.check flight f.notified])
  | .check flight seen, .go _ =>
    s.objects[flight]?.map fun f =>
      match f.result with
      | some result => ({ s with returned := s.returned ++ [(flight, result)] }, [])
      | none => (s, [.sleep flight seen])
  | .sleep flight seen, .go _ =>
    match s.objects[flight]? with
    | some f => if seen < f.notified then some (s, [.wait flight]) else none
    | none => none
  | .sleep _ _, .dropped => some (s, [])
  | .load key flight, .loaded (.ok (value, ttl)) =>
    some ({ s with loaded := s.loaded ++ [(flight, .ok value)] }, [.store key flight (.ok value) ttl])
  | .load key flight, .loaded (.error text) =>
    some ({ s with loaded := s.loaded ++ [(flight, .error text)] }, [.store key flight (.error text) 0])
  | .load _ _, .dropped => some (s, [])
  | .store key flight shared ttl, .go now =>
    some (s.store cacheEnabled now key shared ttl, [.complete key flight shared])
  | .complete key flight shared, .go _ =>
    some (s.update flight fun f => { f with result := some shared }, [.notify key flight shared])
  | .notify key flight shared, .go _ =>
    some (s.update flight fun f => { f with notified := f.notified + 1 }, [.leave key flight shared])
  | .leave key flight shared, .go _ =>
    some ({ s with flights := s.flights.erase key, returned := s.returned ++ [(flight, shared)] }, [])
  | _, _ => none

def starts : Thread → Bool
  | .start _ => true
  | _ => false

/-- The flight a call leads, with its key. -/
def Thread.leads : Thread → Option (Σ _ : CacheKey, Nat)
  | .load key flight | .store key flight _ _ | .complete key flight _ | .notify key flight _
  | .leave key flight _ => some ⟨key, flight⟩
  | _ => none

/-- The key whose `load` the call is running. -/
def Thread.loads : Thread → Option CacheKey
  | .load key _ => some key
  | _ => none

abbrev Calls := Pool Inner Thread

def Calls.step (cacheEnabled : Bool) : Calls → Pool.Event Thread Choice → Option Calls :=
  Pool.step starts (act cacheEnabled)

def Calls.start (cache : DnsCache) : Calls := ⟨.start cache, []⟩

/-! ## What a step can do -/

inductive Acts (cacheEnabled : Bool) (s : Inner) : Thread → Choice → Inner → List Thread → Prop where
  | hit {key now cache} : Acts cacheEnabled s (.start key) (.go now) { s with cache } []
  | miss {key now cache} : Acts cacheEnabled s (.start key) (.go now) { s with cache } [.enter key]
  | joins {key now flight} (hlookup : s.flights.lookup key = some flight) :
      Acts cacheEnabled s (.enter key) (.go now) s [.wait flight]
  | leads {key now} (hlookup : s.flights.lookup key = none) :
      Acts cacheEnabled s (.enter key) (.go now)
        { s with flights := s.flights.insert key s.objects.length, objects := s.objects ++ [⟨none, 0⟩] }
        [.load key s.objects.length]
  | listens {flight now f} (hf : s.objects[flight]? = some f) :
      Acts cacheEnabled s (.wait flight) (.go now) s [.check flight f.notified]
  | returns {flight seen now f result} (hf : s.objects[flight]? = some f)
      (hresult : f.result = some result) :
      Acts cacheEnabled s (.check flight seen) (.go now)
        { s with returned := s.returned ++ [(flight, result)] } []
  | sleeps {flight seen now f} (hf : s.objects[flight]? = some f) (hresult : f.result = none) :
      Acts cacheEnabled s (.check flight seen) (.go now) s [.sleep flight seen]
  | wakes {flight seen now f} (hf : s.objects[flight]? = some f) (hseen : seen < f.notified) :
      Acts cacheEnabled s (.sleep flight seen) (.go now) s [.wait flight]
  | dropsWaiter {flight seen} : Acts cacheEnabled s (.sleep flight seen) .dropped s []
  | loads {key flight result shared ttl} :
      Acts cacheEnabled s (.load key flight) (.loaded result)
        { s with loaded := s.loaded ++ [(flight, shared)] } [.store key flight shared ttl]
  | dropsLeader {key flight} : Acts cacheEnabled s (.load key flight) .dropped s []
  | stores {key flight shared ttl now} :
      Acts cacheEnabled s (.store key flight shared ttl) (.go now)
        (s.store cacheEnabled now key shared ttl) [.complete key flight shared]
  | completes {key flight shared now} :
      Acts cacheEnabled s (.complete key flight shared) (.go now)
        (s.update flight fun f => { f with result := some shared }) [.notify key flight shared]
  | notifies {key flight shared now} :
      Acts cacheEnabled s (.notify key flight shared) (.go now)
        (s.update flight fun f => { f with notified := f.notified + 1 }) [.leave key flight shared]
  | leaves {key flight shared now} :
      Acts cacheEnabled s (.leave key flight shared) (.go now)
        { s with flights := s.flights.erase key, returned := s.returned ++ [(flight, shared)] } []

variable {cacheEnabled : Bool} {c : Choice} {e : Pool.Event Thread Choice} {t : Thread} {ts : List Thread}
  {g : Flight → Flight} {flight : Nat}

theorem acts_of_act {s s' : Inner}
    (h : act cacheEnabled s t c = some (s', ts)) : Acts cacheEnabled s t c s' ts := by
  unfold act at h
  split at h
  · split at h
    · split at h
      · cases h; exact .hit
      · cases h; exact .miss
    · cases h; exact .miss
  · split at h
    · next hlookup => cases h; exact .joins hlookup
    · next hlookup => cases h; exact .leads hlookup
  · obtain ⟨f, hf, heq⟩ := Option.map_eq_some_iff.mp h
    cases heq
    exact .listens hf
  · obtain ⟨f, hf, heq⟩ := Option.map_eq_some_iff.mp h
    split at heq
    · next hresult => cases heq; exact .returns hf hresult
    · next hresult => cases heq; exact .sleeps hf hresult
  · split at h
    · next hf =>
      split at h
      · next hseen => cases h; exact .wakes hf hseen
      · cases h
    · cases h
  · cases h; exact .dropsWaiter
  · cases h; exact .loads
  · cases h; exact .loads
  · cases h; exact .dropsLeader
  · cases h; exact .stores
  · cases h; exact .completes
  · cases h; exact .notifies
  · cases h; exact .leaves
  · cases h

/-! ## What all calls keep together -/

/-- What a call can rely on, among the calls `ts`. -/
def Fits (objects : List Flight) (loaded : List (Nat × Shared)) (ts : List Thread) : Thread → Prop
  | .start _ | .enter _ => True
  | .wait flight => flight < objects.length
  | .check flight seen => ∃ f, objects[flight]? = some f ∧ seen ≤ f.notified
  | .sleep flight seen => ∃ f, objects[flight]? = some f ∧ seen ≤ f.notified ∧
      (f.result.isSome = true → seen < f.notified ∨ ∃ key shared, .notify key flight shared ∈ ts)
  | .load _ flight => (∃ f, objects[flight]? = some f ∧ f.result = none) ∧ ∀ r, (flight, r) ∉ loaded
  | .store _ flight shared _ | .complete _ flight shared =>
    (∃ f, objects[flight]? = some f ∧ f.result = none) ∧ (flight, shared) ∈ loaded
  | .notify _ flight shared | .leave _ flight shared =>
    flight < objects.length ∧ (flight, shared) ∈ loaded

structure Sound (s : Inner) (ts : List Thread) : Prop where
  /-- The entries of `flights` are the flights that are led. -/
  leaders : (ts.filterMap Thread.leads).Perm s.flights.entries
  distinct : ((ts.filterMap Thread.leads).map Sigma.snd).Nodup
  fits : ∀ t ∈ ts, Fits s.objects s.loaded ts t
  known : ∀ x ∈ s.loaded, x.1 < s.objects.length
  single : ∀ flight r r', (flight, r) ∈ s.loaded → (flight, r') ∈ s.loaded → r = r'
  results : ∀ flight f r, s.objects[flight]? = some f → f.result = some r → (flight, r) ∈ s.loaded
  returned : ∀ x ∈ s.returned, x ∈ s.loaded

section Fits
variable {objects objects' : List Flight} {loaded loaded' : List (Nat × Shared)}
  {ts' : List Thread}

variable (h : Fits objects loaded ts t)
include h

theorem Fits.flight_lt {key : CacheKey}
    (hleads : t.leads = some ⟨key, flight⟩) : flight < objects.length := by
  cases t with
  | load | store | complete =>
    cases hleads
    obtain ⟨⟨f, hf, -⟩, -⟩ := h
    exact Numbered.lt_length hf
  | notify | leave =>
    cases hleads
    exact h.1
  | start | enter | wait | check | sleep => cases hleads

/-- More flights, more results and other calls do not disturb a call, as long as the
    result it loads itself is still to come and no wake-up is lost. -/
theorem Fits.mono
    (hobjects : ∀ {flight : Nat} {f : Flight}, objects[flight]? = some f → objects'[flight]? = some f)
    (hloaded : ∀ x ∈ loaded, x ∈ loaded')
    (hfresh : ∀ key flight r, t = .load key flight → (flight, r) ∈ loaded' → (flight, r) ∈ loaded)
    (hts : ∀ key flight shared, .notify key flight shared ∈ ts → .notify key flight shared ∈ ts') :
    Fits objects' loaded' ts' t := by
  have hlt : ∀ {flight}, flight < objects.length → flight < objects'.length :=
    fun hlt => Numbered.lt_length (hobjects (getElem?_eq_getElem hlt))
  cases t with
  | start | enter => trivial
  | wait => exact hlt h
  | check =>
    obtain ⟨f, hf, hle⟩ := h
    exact ⟨f, hobjects hf, hle⟩
  | sleep flight =>
    obtain ⟨f, hf, hle, hwake⟩ := h
    refine ⟨f, hobjects hf, hle, fun hresult => (hwake hresult).imp_right ?_⟩
    grind
  | load key flight =>
    obtain ⟨⟨f, hf, hnone⟩, hnot⟩ := h
    exact ⟨⟨f, hobjects hf, hnone⟩, fun r hr => hnot r (hfresh key flight r rfl hr)⟩
  | store | complete =>
    obtain ⟨⟨f, hf, hnone⟩, hmem⟩ := h
    exact ⟨⟨f, hobjects hf, hnone⟩, hloaded _ hmem⟩
  | notify | leave => exact ⟨hlt h.1, hloaded _ h.2⟩

/-- The leader's update of its flight does not disturb the other calls, as long as those
    that sleep on it are woken. -/
theorem Fits.modify {led : Nat}
    (hnotified : ∀ f, f.notified ≤ (g f).notified) (hleads : ∀ key, t.leads ≠ some ⟨key, led⟩)
    (hwake : ∀ f seen, seen ≤ f.notified →
      seen < (g f).notified ∨ ∃ key shared, .notify key led shared ∈ ts')
    (hts : ∀ key flight shared, flight ≠ led → .notify key flight shared ∈ ts →
      .notify key flight shared ∈ ts') : Fits (objects.modify led g) loaded ts' t := by
  have hsame : ∀ {flight : Nat} {f : Flight}, flight ≠ led → objects[flight]? = some f →
      (objects.modify led g)[flight]? = some f := by
    intro flight f hne hf
    rw [getElem?_modify_ne _ _ hne.symm]
    exact hf
  have hled : ∀ {f}, objects[led]? = some f → (objects.modify led g)[led]? = some (g f) := by
    intro f hf
    rw [getElem?_modify_eq, hf]
    rfl
  have hlt : ∀ {flight}, flight < objects.length → flight < (objects.modify led g).length := by
    intro flight hlt
    rwa [length_modify]
  cases t with
  | start | enter => trivial
  | wait => exact hlt h
  | check flight =>
    obtain ⟨f, hf, hle⟩ := h
    by_cases hflight : flight = led
    · subst hflight
      exact ⟨g f, hled hf, hle.trans (hnotified f)⟩
    · exact ⟨f, hsame hflight hf, hle⟩
  | sleep flight =>
    obtain ⟨f, hf, hle, hold⟩ := h
    by_cases hflight : flight = led
    · subst hflight
      exact ⟨g f, hled hf, hle.trans (hnotified f), fun _ => hwake f _ hle⟩
    · refine ⟨f, hsame hflight hf, hle, fun hresult => (hold hresult).imp_right ?_⟩
      grind
  | load key flight | store key flight | complete key flight =>
    obtain ⟨⟨f, hf, hnone⟩, hrest⟩ := h
    have hflight : flight ≠ led := by
      rintro rfl
      exact hleads key rfl
    exact ⟨⟨f, hsame hflight hf, hnone⟩, hrest⟩
  | notify | leave => exact ⟨hlt h.1, h.2⟩

end Fits

section Sound
variable {s s' : Inner} {ts' rest : List Thread} {key : CacheKey}

theorem Sound.perm (hp : ts.Perm ts') (h : Sound s ts) : Sound s ts' := by
  have hleads := hp.filterMap Thread.leads
  refine ⟨hleads.symm.trans h.leaders, (hleads.map Sigma.snd).nodup_iff.mp h.distinct, fun u hu => ?_,
    h.known, h.single, h.results, h.returned⟩
  exact (h.fits u (hp.mem_iff.mpr hu)).mono id (fun _ => id) (fun _ _ _ _ => id)
    fun _ _ _ => hp.mem_iff.mp

theorem Sound.exists_leader (h : Sound s ts) (hlookup : s.flights.lookup key = some flight) :
    ∃ t ∈ ts, t.leads = some ⟨key, flight⟩ :=
  mem_filterMap.mp (h.leaders.mem_iff.mpr (AList.mem_lookup_iff.mp hlookup))

variable {u : Thread}

section
variable (h : Sound s (t :: rest))
include h

theorem Sound.flight_ne (hleads : t.leads = some ⟨key, flight⟩)
    (hu : u ∈ rest) {key' : CacheKey} {flight' : Nat} (hleads' : u.leads = some ⟨key', flight'⟩) :
    flight' ≠ flight := by
  rintro rfl
  have hnodup := h.distinct
  simp_all

/-- A step after which the same flights are led. -/
theorem Sound.same_leaders (hflights : s'.flights = s.flights)
    (hleads : ts'.filterMap Thread.leads = [t].filterMap Thread.leads) :
    ((ts' ++ rest).filterMap Thread.leads).Perm s'.flights.entries ∧
      (((ts' ++ rest).filterMap Thread.leads).map Sigma.snd).Nodup := by
  have hall : (ts' ++ rest).filterMap Thread.leads = (t :: rest).filterMap Thread.leads := by
    rw [filterMap_append, hleads, ← filterMap_append]
    rfl
  rw [hall, hflights]
  exact ⟨h.leaders, h.distinct⟩

theorem Sound.aside (hflights : s'.flights = s.flights)
    (hobjects : s'.objects = s.objects) (hloaded : s'.loaded = s.loaded) (hreturned : ∀ x ∈ s'.returned, x ∈ s.loaded)
    (hleads : ts'.filterMap Thread.leads = [t].filterMap Thread.leads)
    (hnotify : ∀ key flight shared, t ≠ .notify key flight shared)
    (hfits : ∀ u ∈ ts', Fits s.objects s.loaded (ts' ++ rest) u) : Sound s' (ts' ++ rest) := by
  obtain ⟨hleaders, hdistinct⟩ := h.same_leaders hflights hleads
  refine ⟨hleaders, hdistinct, fun u hu => ?_, ?_, ?_, ?_, ?_⟩
  · rw [hobjects, hloaded]
    rcases mem_append.mp hu with hu | hu
    · exact hfits u hu
    · refine (h.fits u (mem_cons_of_mem t hu)).mono id (fun _ => id) (fun _ _ _ _ => id) ?_
      grind
  · rw [hobjects, hloaded]
    exact h.known
  · rw [hloaded]
    exact h.single
  · rw [hobjects, hloaded]
    exact h.results
  · rw [hloaded]
    exact hreturned

theorem Sound.next (hleads : u.leads = t.leads)
    (hnotify : ∀ key flight shared, t ≠ .notify key flight shared)
    (hfits : Fits s.objects s.loaded (u :: rest) u) : Sound s (u :: rest) := by
  have hsame : [u].filterMap Thread.leads = [t].filterMap Thread.leads := by
    simp only [filterMap_cons, filterMap_nil, hleads]
  refine h.aside rfl rfl rfl h.returned hsame hnotify fun v hv => ?_
  cases mem_singleton.mp hv
  exact hfits

end

theorem Sound.lead (h : Sound s (.enter key :: rest)) (hlookup : s.flights.lookup key = none) :
    Sound { s with flights := s.flights.insert key s.objects.length, objects := s.objects ++ [⟨none, 0⟩] }
      (.load key s.objects.length :: rest) := by
  have hleads : (.load key s.objects.length :: rest).filterMap Thread.leads =
      ⟨key, s.objects.length⟩ :: rest.filterMap Thread.leads := rfl
  refine ⟨?_, ?_, fun u hu => ?_, fun x hx => ?_, h.single, ?_, h.returned⟩
  · rw [hleads, AList.entries_insert_of_notMem (AList.lookup_eq_none.mp hlookup)]
    exact h.leaders.cons _
  · rw [hleads, map_cons, nodup_cons]
    refine ⟨fun hmem => ?_, h.distinct⟩
    obtain ⟨⟨key', flight⟩, hin, hflight⟩ := mem_map.mp hmem
    obtain ⟨u, hu, hled⟩ := mem_filterMap.mp hin
    have hlt := (h.fits u (mem_cons_of_mem _ hu)).flight_lt hled
    exact hlt.ne hflight
  · rcases mem_cons.mp hu with rfl | hu
    · exact ⟨⟨⟨none, 0⟩, getElem?_concat_length, rfl⟩, fun r hr => (h.known _ hr).ne rfl⟩
    · refine (h.fits u (mem_cons_of_mem _ hu)).mono Numbered.get_concat (fun _ => id)
        (fun _ _ _ _ => id) ?_
      simp_all
  · have hlt := h.known x hx
    rw [length_append]
    omega
  · intro flight f r hf hresult
    rcases Numbered.get_concat_cases hf with hold | ⟨-, rfl⟩
    · exact h.results flight f r hold hresult
    · cases hresult

theorem Sound.load (h : Sound s (.load key flight :: rest)) (shared : Shared) (ttl : Nat) :
    Sound { s with loaded := s.loaded ++ [(flight, shared)] } (.store key flight shared ttl :: rest) := by
  obtain ⟨hobject, hnot⟩ := h.fits _ mem_cons_self
  have hold : ∀ x ∈ s.loaded, x ∈ s.loaded ++ [(flight, shared)] := fun x => mem_append_left _
  refine ⟨h.leaders, h.distinct, fun u hu => ?_, fun x hx => ?_, ?_, ?_, fun x hx => hold x (h.returned x hx)⟩
  · rcases mem_cons.mp hu with rfl | hu
    · exact ⟨hobject, mem_append_right _ mem_cons_self⟩
    · refine (h.fits u (mem_cons_of_mem _ hu)).mono id hold ?_ ?_
      · -- another call that loads leads another flight
        rintro key' flight' r rfl hr
        rcases mem_append.mp hr with hr | hr
        · exact hr
        · cases mem_singleton.mp hr
          exact absurd rfl (h.flight_ne rfl hu rfl)
      simp_all
  · rcases mem_append.mp hx with hx | hx
    · exact h.known x hx
    grind
  · intro flight' r r' hr hr'
    rcases mem_append.mp hr with hr | hr <;> rcases mem_append.mp hr' with hr' | hr'
    · exact h.single flight' r r' hr hr'
    · cases mem_singleton.mp hr'
      exact absurd hr (hnot r)
    · cases mem_singleton.mp hr
      exact absurd hr' (hnot r')
    simp_all
  · intro flight f r hf hresult
    exact hold _ (h.results flight f r hf hresult)

theorem Sound.update (h : Sound s (t :: rest))
    (hleads : t.leads = some ⟨key, flight⟩) (hleads' : u.leads = some ⟨key, flight⟩)
    (hnotified : ∀ f, f.notified ≤ (g f).notified) (hwake : ∀ f seen, seen ≤ f.notified →
      seen < (g f).notified ∨ ∃ key shared, .notify key flight shared ∈ u :: rest)
    (hnotify : ∀ key' flight' shared, flight' ≠ flight → t ≠ .notify key' flight' shared)
    (hresults : ∀ f r, s.objects[flight]? = some f → (g f).result = some r → (flight, r) ∈ s.loaded)
    (hfits : Fits (s.objects.modify flight g) s.loaded (u :: rest) u) : Sound (s.update flight g) (u :: rest) := by
  have hsame : [u].filterMap Thread.leads = [t].filterMap Thread.leads := by
    simp only [filterMap_cons_some hleads, filterMap_cons_some hleads', filterMap_nil]
  have hflights : (s.update flight g).flights = s.flights := rfl
  obtain ⟨hleaders, hdistinct⟩ := h.same_leaders hflights hsame
  refine ⟨hleaders, hdistinct, fun v hv => ?_, fun x hx => ?_, h.single, ?_, h.returned⟩
  · rcases mem_cons.mp hv with rfl | hv
    · exact hfits
    · refine (h.fits v (mem_cons_of_mem _ hv)).modify hnotified ?_ hwake ?_
      · intro key' hkey'
        exact h.flight_ne hleads hv hkey' rfl
      grind
  · exact (length_modify ..).symm ▸ h.known x hx
  · intro flight' f r hf hresult
    obtain ⟨f', hf', rfl | ⟨rfl, rfl⟩⟩ := Numbered.get_modify_cases hf
    · exact h.results flight' f r hf' hresult
    · exact hresults f' r hf' hresult

theorem Sound.leave {shared : Shared} (h : Sound s (.leave key flight shared :: rest)) :
    Sound { s with flights := s.flights.erase key, returned := s.returned ++ [(flight, shared)] } rest := by
  have hleaders := h.leaders
  have hdistinct := h.distinct
  refine ⟨?_, (nodup_cons.mp hdistinct).2, fun u hu => ?_, h.known, h.single, h.results, fun x hx => ?_⟩
  · have hkeys : (⟨key, flight⟩ :: rest.filterMap Thread.leads).NodupKeys :=
      (perm_nodupKeys hleaders).mpr s.flights.nodupKeys
    have herase := hleaders.kerase (a := key) hkeys
    rwa [kerase_cons_eq (a := key) rfl] at herase
  · refine (h.fits u (mem_cons_of_mem _ hu)).mono id (fun _ => id) (fun _ _ _ _ => id) ?_
    simp_all
  · rcases mem_append.mp hx with hx | hx
    · exact h.returned x hx
    · rw [mem_singleton.mp hx]
      exact (h.fits _ mem_cons_self).2

/-- The step of a call, other than the end of a leader that still loads. -/
theorem Sound.act (h : Sound s (t :: rest))
    (ha : Acts cacheEnabled s t c s' ts) (hkept : c = .dropped → t.loads = none) : Sound s' (ts ++ rest) := by
  have hfit := h.fits t mem_cons_self
  cases ha with
  | hit | dropsWaiter => exact h.aside rfl rfl rfl h.returned rfl nofun nofun
  | miss =>
    refine h.aside rfl rfl rfl h.returned rfl nofun fun u hu => ?_
    cases mem_singleton.mp hu
    trivial
  | joins hlookup =>
    obtain ⟨u, hu, hleads⟩ := h.exists_leader hlookup
    exact h.next rfl nofun ((h.fits u hu).flight_lt hleads)
  | leads hlookup => exact h.lead hlookup
  | listens hf => exact h.next rfl nofun ⟨_, hf, le_rfl⟩
  | returns hf hresult =>
    refine h.aside rfl rfl rfl (fun x hx => ?_) rfl nofun nofun
    rcases mem_append.mp hx with hx | hx
    · exact h.returned x hx
    · rw [mem_singleton.mp hx]
      exact h.results _ _ _ hf hresult
  | sleeps hf hresult =>
    obtain ⟨f', hf', hle⟩ := hfit
    cases hf.symm.trans hf'
    refine h.next rfl nofun ⟨_, hf, hle, fun hsome => ?_⟩
    rw [hresult] at hsome
    cases hsome
  | wakes hf => exact h.next rfl nofun (Numbered.lt_length hf)
  | loads => exact h.load _ _
  | dropsLeader => cases hkept rfl
  | @stores key flight shared ttl now =>
    obtain ⟨hflights, hobjects, hloaded, hreturned⟩ := Inner.store_frame cacheEnabled s now key shared ttl
    refine h.aside hflights hobjects hloaded (hreturned.symm ▸ h.returned) rfl nofun fun u hu => ?_
    cases mem_singleton.mp hu
    exact hfit
  | @completes key flight shared =>
    -- from here on the leader owes a wake-up to all who sleep on its flight
    refine h.update rfl rfl (fun _ => le_rfl) (fun _ _ _ => .inr ⟨key, shared, mem_cons_self⟩)
      nofun ?_ ?_
    · rintro f r - ⟨⟩
      exact hfit.2
    · obtain ⟨⟨f, hf, -⟩, hmem⟩ := hfit
      exact ⟨by rw [length_modify]; exact Numbered.lt_length hf, hmem⟩
  | @notifies key flight shared =>
    -- every waiter has seen fewer notifications than there are now
    refine h.update rfl rfl (fun f => Nat.le_succ _) (fun f seen hle => .inl (Nat.lt_succ_of_le hle))
      ?_ (h.results flight) ?_
    · rintro key' flight' shared' hne ⟨⟩
      exact hne rfl
    · exact ⟨by rw [length_modify]; exact hfit.1, hfit.2⟩
  | leaves => exact h.leave

end Sound

/-- The step does not drop a call that leads a flight while it loads. -/
def LeaderKept (p : Calls) : Pool.Event Thread Choice → Prop
  | .act i .dropped => p.threads[i]?.bind Thread.loads = none
  | _ => True

instance (p : Calls) : ∀ e, Decidable (LeaderKept p e)
  | .spawn _ | .act _ (.go _) | .act _ (.loaded _) => .isTrue trivial
  | .act i .dropped => inferInstanceAs (Decidable (p.threads[i]?.bind Thread.loads = none))

theorem sound_step {p p' : Calls}
    (hkept : LeaderKept p e) (h : Sound p.shared p.threads) (hstep : Calls.step cacheEnabled p e = some p') :
    Sound p'.shared p'.threads := by
  refine Pool.inv_step (fun _ _ _ => Sound.perm) (fun t ht h => ?_)
    (fun i c t s' ts rest he hi _ h hact => ?_) h hstep
  · cases t with
    | start key =>
      refine ⟨h.leaders, h.distinct, fun u hu => ?_, h.known, h.single, h.results, h.returned⟩
      rcases mem_cons.mp hu with rfl | hu
      · trivial
      · exact (h.fits u hu).mono id (fun _ => id) (fun _ _ _ _ => id) fun _ _ _ => mem_cons_of_mem _
    | _ => cases ht
  · refine h.act (acts_of_act hact) ?_
    grind [LeaderKept]

theorem sound_start (cache : DnsCache) : Sound (Inner.start cache) [] :=
  ⟨.nil, .nil, nofun, nofun, nofun, nofun, nofun⟩

theorem sound_run {cache : DnsCache} {es : List (Pool.Event Thread Choice)} {p : Calls}
    (hkept : Along (Calls.step cacheEnabled) LeaderKept (.start cache) es)
    (hrun : run (Calls.step cacheEnabled) (.start cache) es = some p) : Sound p.shared p.threads :=
  run_inv_along (fun p => Sound p.shared p.threads) LeaderKept (fun _ _ _ => sound_step) es hkept
    (sound_start cache) hrun

/-! ## Without cancellation -/

section
variable {s : Inner}

/-- A call that loads leads a flight of the same key. -/
theorem Thread.exists_leads {key : CacheKey} (h : t.loads = some key) : ∃ flight, t.leads = some ⟨key, flight⟩ := by
  cases t with
  | load key' flight =>
    cases h
    exact ⟨flight, rfl⟩
  | start | enter | wait | check | sleep | store | complete | notify | leave => cases h

/-- The leaders of a key are at most as many as its flights, and those are at most one. -/
theorem Sound.countP_loads_le_one (h : Sound s ts) (key : CacheKey) : ts.countP (fun t => t.loads = some key) ≤ 1 := by
  have hkeys : (ts.filterMap Thread.leads).NodupKeys :=
    (perm_nodupKeys h.leaders).mpr s.flights.nodupKeys
  calc ts.countP (fun t => t.loads = some key)
      ≤ ts.countP (fun t => t.leads.map Sigma.fst == some key) := by
        simp_all [countP_mono_left, Thread.exists_leads, of_decide_eq_true]
    _ = (ts.filterMap Thread.leads).keys.count key := by
        rw [List.keys, map_filterMap, count_filterMap]
    _ ≤ 1 := nodup_iff_count_le_one.mp hkeys key

theorem Sound.wake_up (h : Sound s ts) {seen : Nat} (ht : .sleep flight seen ∈ ts) {f : Flight}
    (hf : s.objects[flight]? = some f) (hresult : f.result.isSome = true) :
    seen < f.notified ∨ ∃ key shared, .notify key flight shared ∈ ts := by
  obtain ⟨f', hf', -, hwake⟩ := h.fits _ ht
  cases hf.symm.trans hf'
  exact hwake hresult

theorem Sound.flights_eq_empty (h : Sound s []) : s.flights = ∅ :=
  AList.ext (nil_perm.mp h.leaders)

end

/-- As long as no call is dropped: at most one `load` of a key runs at a time; a call that
    went through a flight returns what the flight's one `load` gave; a waiter that sleeps
    while the result is there has been notified, or the leader notifies it next; and once
    all calls have returned, no flight is left. -/
theorem singleflight (cacheEnabled : Bool) (cache : DnsCache) (es : List (Pool.Event Thread Choice))
    (p : Calls) (hdropped : ∀ i, .act i .dropped ∉ es)
    (hrun : run (Calls.step cacheEnabled) (.start cache) es = some p) :
    (∀ key, p.threads.countP (fun t => t.loads = some key) ≤ 1) ∧
    (∀ flight r, (flight, r) ∈ p.shared.returned →
      (flight, r) ∈ p.shared.loaded ∧ ∀ r', (flight, r') ∈ p.shared.loaded → r' = r) ∧
    (∀ flight seen f, .sleep flight seen ∈ p.threads → p.shared.objects[flight]? = some f →
      f.result.isSome = true →
      seen < f.notified ∨ ∃ key shared, .notify key flight shared ∈ p.threads) ∧
    (p.threads = [] → p.shared.flights = ∅) := by
  have hkept : Along (Calls.step cacheEnabled) LeaderKept (.start cache) es := by
    refine along_of_forall _ fun e he q => ?_
    match e with
    | .spawn _ | .act _ (.go _) | .act _ (.loaded _) => trivial
    | .act i .dropped => exact absurd he (hdropped i)
  have h := sound_run hkept hrun
  refine ⟨h.countP_loads_le_one, fun flight r hr => ?_, fun flight seen f ht hf => h.wake_up ht hf, ?_⟩
  · have hloaded := h.returned _ hr
    exact ⟨hloaded, fun r' hr' => h.single flight r' r hr' hloaded⟩
  · intro hnil
    rw [hnil] at h
    exact h.flights_eq_empty

/-- Two calls for one key: the second joins the flight of the first, sleeps, and is woken. -/
def joined : List (Pool.Event Thread Choice) :=
  [.spawn (.start (.ech [])), .act 0 (.go 0), .act 0 (.go 0),
   .spawn (.start (.ech [])), .act 0 (.go 1), .act 0 (.go 1), .act 0 (.go 1), .act 0 (.go 1),
   .act 1 (.loaded (.ok (.addresses [], 60))), .act 0 (.go 2), .act 0 (.go 2), .act 0 (.go 2), .act 0 (.go 2),
   .act 0 (.go 3), .act 0 (.go 3), .act 0 (.go 3)]

theorem singleflight_joined :
    ∃ p, run (Calls.step true) (.start (.new 8 false)) joined = some p ∧
      p.shared.returned.length = 2 ∧ p.threads = [] ∧ p.shared.flights = ∅ := by
  obtain ⟨p, hrun, hreturned, hthreads⟩ : ∃ p, run (Calls.step true) (.start (.new 8 false)) joined = some p ∧
      p.shared.returned.length = 2 ∧ p.threads = [] := ⟨_, rfl, rfl, rfl⟩
  have hdropped : ∀ i, .act i .dropped ∉ joined := by
    intro i hi
    simp [joined] at hi
  exact ⟨p, hrun, hreturned, hthreads, (singleflight true (.new 8 false) joined p hdropped hrun).2.2.2 hthreads⟩

/-! ## Cancellation -/

/-- Every entry of `flights` has a leader among the calls that are neither finished nor
    dropped. -/
def Calls.Owned (p : Calls) : Prop :=
  ∀ key flight, p.shared.flights.lookup key = some flight → ∃ t ∈ p.threads, t.leads = some ⟨key, flight⟩

/-- The end of a leader that still loads leaves its entry without an owner. -/
theorem not_owned_of_leader_dropped {p p' : Calls}
    (hkept : ¬ LeaderKept p e) (h : Sound p.shared p.threads) (hstep : Calls.step cacheEnabled p e = some p') :
    ¬ p'.Owned := by
  rcases Pool.step_eq_some hstep with ⟨t, rfl, -, -⟩ | ⟨i, c, t, s', ts, rest, rfl, hi, hp, hact, rfl⟩
  · exact absurd trivial hkept
  · cases acts_of_act hact with
    | @dropsLeader key flight =>
      intro howned
      have h := h.perm hp
      have hled : ⟨key, flight⟩ ∈ p.shared.flights.entries := h.leaders.mem_iff.mp mem_cons_self
      obtain ⟨u, hu, hleads⟩ := howned key flight (AList.mem_lookup_iff.mpr hled)
      exact h.flight_ne rfl hu hleads rfl
    | dropsWaiter =>
      refine absurd ?_ hkept
      simp only [LeaderKept, hi, Option.bind_some, Thread.loads]
    | _ => exact absurd trivial hkept

/-- Calls may be dropped. As long as none is dropped while it leads a flight and awaits its
    `load`, every entry of `flights` has its leader; the first one that is leaves an entry
    without. -/
theorem flights_have_leaders (cacheEnabled : Bool) (cache : DnsCache) (es : List (Pool.Event Thread Choice))
    (p : Calls) (hkept : Along (Calls.step cacheEnabled) LeaderKept (.start cache) es)
    (hrun : run (Calls.step cacheEnabled) (.start cache) es = some p) :
    p.Owned ∧ ∀ e p', Calls.step cacheEnabled p e = some p' → ¬ LeaderKept p e → ¬ p'.Owned := by
  have h := sound_run hkept hrun
  exact ⟨fun key flight => h.exists_leader, fun e p' hstep hdropped =>
    not_owned_of_leader_dropped hdropped h hstep⟩

/-- In the schedule above the second call is dropped while it sleeps. -/
theorem flights_have_leaders_waiter_dropped :
    ∃ p, run (Calls.step true) (.start (.new 8 false)) (joined.take 8 ++ [.act 0 .dropped]) = some p ∧
      p.shared.flights.lookup (.ech []) = some 0 ∧ p.Owned := by
  obtain ⟨p, hrun, hlookup⟩ :
      ∃ p, run (Calls.step true) (.start (.new 8 false)) (joined.take 8 ++ [.act 0 .dropped]) = some p ∧
        p.shared.flights.lookup (.ech []) = some 0 := ⟨_, rfl, by rfl⟩
  have hkept : Along (Calls.step true) LeaderKept (.start (.new 8 false)) (joined.take 8 ++ [.act 0 .dropped]) := by
    decide
  exact ⟨p, hrun, hlookup, (flights_have_leaders true _ _ p hkept hrun).1⟩

/-- The leader of a flight is dropped while it loads; the next call for the key joins. -/
def abandoned : List (Pool.Event Thread Choice) :=
  [.spawn (.start (.ech [])), .act 0 (.go 0), .act 0 (.go 0), .act 0 .dropped,
   .spawn (.start (.ech [])), .act 0 (.go 1), .act 0 (.go 1), .act 0 (.go 1), .act 0 (.go 1)]

/-- The entry of the dropped leader stays. The later call is the only one left, and it
    sleeps on a flight that nobody completes. -/
theorem dropped_leader_orphans_flight :
    ∃ p, run (Calls.step true) (.start (.new 8 false)) abandoned = some p ∧ ¬ p.Owned ∧
      p.threads = [.sleep 0 0] ∧ ∀ now, Calls.step true p (.act 0 (.go now)) = none := by
  refine ⟨_, rfl, fun howned => ?_, rfl, fun now => rfl⟩
  obtain ⟨t, ht, hleads⟩ := howned (.ech []) 0 rfl
  cases mem_singleton.mp ht
  cases hleads

end Xhttp.Dns.Singleflight
