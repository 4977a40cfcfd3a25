import Xhttp.Dns.Resolver
import Xhttp.Dns.Singleflight

/- Calls of the resolver that share its cache and its flights (`exchange` and `lookup_type` in
   `src/dns/mod.rs`). A call that no rule answers is forwarded: it takes its value from the
   cache, from the flight of another call, or from its own `load`, and makes its answer of that value.
   Calls run concurrently, and the rule-sets may be replaced between any two steps.

   `cached_ech_config` is left out: it keeps its values under keys of its own, and what it loads
   is an answer of `exchange`. A `load` that panics ends its call where it is, as if it were
   dropped. -/
namespace Xhttp.Dns.Singleflight
open Xhttp.Lib List

/-! ## What a cached call returns -/

/-- What `cached` returns with this step, if it returns. -/
def gives (cacheEnabled : Bool) (s : Inner) : Thread → Choice → Option Shared
  | .start key, .go now => if cacheEnabled then (s.cache.get now key).1.map .ok else none
  | .check flight _, .go _ => s.objects[flight]?.bind Flight.result
  | .leave _ _ shared, .go _ => some shared
  | _, _ => none

/-- Every value is known under the key it is kept for; `keyOf` is the key of a flight. -/
structure Holds (Known : CacheKey → CacheValue → Prop) (keyOf : Nat → CacheKey) (s : Inner) : Prop where
  coherent : s.cache.Coherent
  entries : ∀ key e, s.cache.entries.lookup key = some e → Known key e.value
  flights : ∀ key flight, s.flights.lookup key = some flight → flight < s.objects.length ∧ keyOf flight = key
  results : ∀ flight f v, s.objects[flight]? = some f → f.result = some (.ok v) → Known (keyOf flight) v

/-- What holds for a call of `cached` with a key, among the first `count` flights. -/
def Keeps (Known : CacheKey → CacheValue → Prop) (keyOf : Nat → CacheKey) (count : Nat) (key : CacheKey) : Thread → Prop
  | .start k | .enter k => k = key
  | .wait flight | .check flight _ | .sleep flight _ => flight < count ∧ keyOf flight = key
  | .load k flight => k = key ∧ flight < count ∧ keyOf flight = key
  | .store k flight shared _ | .complete k flight shared | .notify k flight shared | .leave k flight shared =>
    k = key ∧ (flight < count ∧ keyOf flight = key) ∧ ∀ v, shared = .ok v → Known key v

/-- A value that is known, or one with its TTLs aged. -/
def Aged (Known : CacheKey → CacheValue → Prop) (key : CacheKey) (v : CacheValue) : Prop :=
  ∃ w, Known key w ∧ (v = w ∨ ∃ elapsed, v = w.aged elapsed)

section
variable {Known Known' : CacheKey → CacheValue → Prop} {keyOf keyOf' : Nat → CacheKey} {count count' : Nat}
  {key : CacheKey} {t : Thread} {s s' : Inner}

theorem Keeps.mono (h : Keeps Known keyOf count key t) (hcount : count ≤ count')
    (hkey : ∀ flight < count, keyOf' flight = keyOf flight) (hknown : ∀ v, Known key v → Known' key v) :
    Keeps Known' keyOf' count' key t := by
  have hflight : ∀ {flight}, flight < count ∧ keyOf flight = key → flight < count' ∧ keyOf' flight = key :=
    fun hf => ⟨Nat.lt_of_lt_of_le hf.1 hcount, (hkey _ hf.1).trans hf.2⟩
  cases t with
  | start | enter => exact h
  | wait | check | sleep => exact hflight h
  | load => exact ⟨h.1, hflight h.2⟩
  | store | complete | notify | leave => exact ⟨h.1, hflight h.2.1, fun v hv => hknown v (h.2.2 v hv)⟩

theorem Holds.mono (h : Holds Known keyOf s) (hknown : ∀ key v, Known key v → Known' key v) : Holds Known' keyOf s :=
  ⟨h.coherent, fun key e he => hknown key _ (h.entries key e he), h.flights,
    fun flight f v hf hv => hknown _ v (h.results flight f v hf hv)⟩

theorem Holds.start (capacity : Nat) (disableExpire : Bool) :
    Holds Known keyOf (.start (.new capacity disableExpire)) :=
  ⟨DnsCache.coherent_new capacity disableExpire, nofun, nofun, nofun⟩

variable (h : Holds Known keyOf s)
include h

theorem Holds.get_fst {now : Nat} {v : CacheValue}
    (hget : (s.cache.get now key).1 = some v) : Aged Known key v := by
  unfold DnsCache.get at hget
  split at hget
  · cases hget
  · next entry hlookup =>
    split at hget
    · cases hget
    · exact ⟨entry.value, h.entries key entry hlookup, Or.inr ⟨_, (Option.some.inj hget).symm⟩⟩

theorem Holds.get_snd (now : Nat) :
    Holds Known keyOf { s with cache := (s.cache.get now key).2 } where
  coherent := h.coherent.get now key
  entries k e he := by
    obtain ⟨e', he', hvalue, -⟩ := DnsCache.lookup_get he
    rw [hvalue]
    exact h.entries k e' he'
  flights := h.flights
  results := h.results

theorem Holds.store (cacheEnabled : Bool) (now : Nat) {shared : Shared} (ttl : Nat)
    (hshared : ∀ v, shared = .ok v → Known key v) : Holds Known keyOf (s.store cacheEnabled now key shared ttl) := by
  unfold Inner.store
  split
  · next value =>
    split
    · refine ⟨h.coherent.insert now key value ttl, fun k e he => ?_, h.flights, h.results⟩
      rcases h.coherent.lookup_insert he with ⟨rfl, hvalue, -, -⟩ | ⟨-, hold⟩
      · rw [hvalue]
        exact hshared value rfl
      · exact h.entries k e hold
    · exact h
  · exact h

theorem Holds.lead (key : CacheKey) : Holds Known (Function.update keyOf s.objects.length key)
      { s with flights := s.flights.insert key s.objects.length, objects := s.objects ++ [⟨none, 0⟩] } where
  coherent := h.coherent
  entries := h.entries
  flights k flight hk := by
    simp only [length_append, length_singleton]
    obtain ⟨rfl, rfl⟩ | ⟨-, hk⟩ := Map.lookup_insert_cases hk
    · exact ⟨Nat.lt_succ_self _, Function.update_self ..⟩
    · obtain ⟨hlt, hkey⟩ := h.flights k flight hk
      exact ⟨by omega, by rw [Function.update_of_ne (by omega), hkey]⟩
  results flight f v hf hv := by
    rcases Numbered.get_concat_cases hf with hold | ⟨-, rfl⟩
    · rw [Function.update_of_ne (Numbered.lt_length hold).ne]
      exact h.results flight f v hold hv
    · cases hv

theorem Holds.update {led : Nat} {g : Flight → Flight}
    (hg : ∀ f v, (g f).result = some (.ok v) → f.result = some (.ok v) ∨ Known (keyOf led) v) :
    Holds Known keyOf (s.update led g) where
  coherent := h.coherent
  entries := h.entries
  flights k flight hk := by
    simp only [Inner.update, length_modify]
    exact h.flights k flight hk
  results flight f v hf hv := by
    obtain ⟨f', hf', rfl | ⟨rfl, rfl⟩⟩ := Numbered.get_modify_cases hf
    · exact h.results flight f v hf' hv
    · exact (hg f' v hv).elim (h.results flight f' v hf') id

theorem Holds.erase (key : CacheKey) (returned : List (Nat × Shared)) :
    Holds Known keyOf { s with flights := s.flights.erase key, returned } :=
  ⟨h.coherent, h.entries, fun k flight hk => h.flights k flight (Map.lookup_of_lookup_erase hk), h.results⟩

theorem Holds.log (loaded returned : List (Nat × Shared)) :
    Holds Known keyOf { s with loaded, returned } :=
  ⟨h.coherent, h.entries, h.flights, h.results⟩

/-- **One step of a cached call.** A known value stays known under its key, and what the call returns is
    known under its own, perhaps aged. -/
theorem Holds.act {cacheEnabled : Bool} {c : Choice} {ts : List Thread}
    (ht : Keeps Known keyOf s.objects.length key t) (hload : ∀ v ttl, c = .loaded (.ok (v, ttl)) → Known key v)
    (hact : act cacheEnabled s t c = some (s', ts)) :
    (∃ keyOf', (∀ flight < s.objects.length, keyOf' flight = keyOf flight) ∧
      s.objects.length ≤ s'.objects.length ∧ Holds Known keyOf' s' ∧
      ∀ u ∈ ts, Keeps Known keyOf' s'.objects.length key u) ∧
    ∀ v, gives cacheEnabled s t c = some (.ok v) → Aged Known key v := by
  -- most steps add no flight
  have hsame : Holds Known keyOf s' → s.objects.length = s'.objects.length →
      (∀ u ∈ ts, Keeps Known keyOf s.objects.length key u) →
      ∃ keyOf', (∀ flight < s.objects.length, keyOf' flight = keyOf flight) ∧
        s.objects.length ≤ s'.objects.length ∧ Holds Known keyOf' s' ∧
        ∀ u ∈ ts, Keeps Known keyOf' s'.objects.length key u :=
    fun hs hlength hts => ⟨keyOf, fun _ _ => rfl, hlength.le, hs, hlength ▸ hts⟩
  unfold Singleflight.act at hact
  split at hact
  case h_1 k now =>
    obtain rfl : k = key := ht
    split at hact
    · next henabled =>
      constructor
      · split at hact
        · next cache hget =>
          cases hact
          obtain rfl : (s.cache.get now k).2 = cache := by rw [hget]
          exact hsame (h.get_snd now) rfl nofun
        · next cache hget =>
          cases hact
          obtain rfl : (s.cache.get now k).2 = cache := by rw [hget]
          exact hsame (h.get_snd now) rfl (forall_mem_singleton.mpr rfl)
      · intro v hv
        rw [gives, if_pos henabled] at hv
        obtain ⟨w, hw, heq⟩ := Option.map_eq_some_iff.mp hv
        cases heq
        exact h.get_fst hw
    · next hdisabled =>
      cases hact
      refine ⟨hsame h rfl (forall_mem_singleton.mpr rfl), fun v hv => ?_⟩
      rw [gives, if_neg hdisabled] at hv
      cases hv
  case h_2 k now =>
    obtain rfl : k = key := ht
    refine ⟨?_, nofun⟩
    split at hact
    · next flight hlookup =>
      cases hact
      exact hsame h rfl (forall_mem_singleton.mpr (h.flights k flight hlookup))
    · cases hact
      refine ⟨_, fun flight hlt => Function.update_of_ne hlt.ne _ _, ?_, h.lead k, ?_⟩
      · simp
      · refine forall_mem_singleton.mpr ⟨rfl, ?_, Function.update_self ..⟩
        simp
  case h_3 flight now =>
    obtain ⟨f, -, heq⟩ := Option.map_eq_some_iff.mp hact
    cases heq
    exact ⟨hsame h rfl (forall_mem_singleton.mpr ht), nofun⟩
  case h_4 flight seen now =>
    obtain ⟨f, hf, heq⟩ := Option.map_eq_some_iff.mp hact
    refine ⟨?_, fun v hv => ?_⟩
    · split at heq
      · cases heq
        exact hsame (h.log _ _) rfl nofun
      · cases heq
        exact hsame h rfl (forall_mem_singleton.mpr ht)
    · rw [gives, hf] at hv
      have hknown := h.results flight f v hf hv
      rw [ht.2] at hknown
      exact ⟨v, hknown, Or.inl rfl⟩
  case h_5 flight seen now =>
    refine ⟨?_, nofun⟩
    split at hact
    · split at hact
      · cases hact
        exact hsame h rfl (forall_mem_singleton.mpr ht)
      · cases hact
    · cases hact
  case h_6 =>
    cases hact
    exact ⟨hsame h rfl nofun, nofun⟩
  case h_7 k flight value ttl =>
    cases hact
    refine ⟨hsame (h.log _ _) rfl (forall_mem_singleton.mpr ⟨ht.1, ht.2, ?_⟩), nofun⟩
    rintro v hv
    cases hv
    exact hload value ttl rfl
  case h_8 k flight text =>
    cases hact
    exact ⟨hsame (h.log _ _) rfl (forall_mem_singleton.mpr ⟨ht.1, ht.2, nofun⟩), nofun⟩
  case h_9 =>
    cases hact
    exact ⟨hsame h rfl nofun, nofun⟩
  case h_10 k flight shared ttl now =>
    cases hact
    obtain ⟨rfl, hflight, hshared⟩ := ht
    refine ⟨hsame (h.store cacheEnabled now ttl hshared) ?_
      (forall_mem_singleton.mpr ⟨rfl, hflight, hshared⟩), nofun⟩
    rw [(s.store_frame cacheEnabled now k shared ttl).2.1]
  case h_11 k flight shared now =>
    cases hact
    obtain ⟨rfl, hflight, hshared⟩ := ht
    refine ⟨hsame (h.update fun f v hv => Or.inr ?_) ?_
      (forall_mem_singleton.mpr ⟨rfl, hflight, hshared⟩), nofun⟩
    · rw [hflight.2]
      exact hshared v (Option.some.inj hv)
    · simp [Inner.update]
  case h_12 k flight shared now =>
    cases hact
    refine ⟨hsame (h.update fun f v hv => Or.inl hv) ?_ (forall_mem_singleton.mpr ht), nofun⟩
    simp [Inner.update]
  case h_13 k flight shared now =>
    cases hact
    refine ⟨hsame (h.erase k _) rfl nofun, fun v hv => ?_⟩
    exact ⟨v, ht.2.2 v (Option.some.inj hv), Or.inl rfl⟩
  case h_14 => cases hact

end

end Xhttp.Dns.Singleflight

namespace Xhttp.Dns
open Xhttp.Lib Xhttp.Routing

/-! ## Calls -/

/-- A value that `load` made of what came from outside. -/
structure Reply where
  forward : Forward
  ruleSets : Option CompiledRuleSetMap
  outcome : Outcome
  value : CacheValue
  ttl : Nat

/-- A call that has its value, with the rule-sets its answer is made under. -/
structure Served where
  forward : Forward
  ruleSets : Option CompiledRuleSetMap
  value : CacheValue

def Served.answer (x : Served) : Except Failure Answer := x.forward.finish x.ruleSets x.value

namespace Calls

/-- What the calls share. The last two fields only record what happened. -/
structure Shared where
  inner : Singleflight.Inner
  ruleSets : Option CompiledRuleSetMap
  replies : List Reply
  served : List Served

inductive Thread where
  | call (call : DnsCall)
  /-- `load().await` of a call that does not use the cache. -/
  | direct (f : Forward)
  /-- `self.cached(key, load).await`. -/
  | cached (f : Forward) (t : Singleflight.Thread)
  | finish (f : Forward) (value : CacheValue)
  | replace (ruleSets : Option CompiledRuleSetMap)

inductive Choice where
  | go (now : Nat)
  /-- `load` is given what it waits for. -/
  | loaded (o : Outcome)
  | dropped

def starts : Thread → Bool
  | .call _ | .replace _ => true
  | _ => false

def Shared.start (capacity : Nat) (disableExpire : Bool) (ruleSets : Option CompiledRuleSetMap) : Shared :=
  { inner := .start (.new capacity disableExpire), ruleSets, replies := [], served := [] }

def errorText : Failure → Str
  | .message text => text.toList
  | .utf8 => "invalid UTF-8"
  | .panic => []

section
variable (r : DnsResolver) (parsers : Parsers)

/-- What `load` makes of an outcome is recorded. -/
def Shared.receive (s : Shared) (f : Forward) (o : Outcome) : Shared :=
  match f.load r parsers s.ruleSets o with
  | .ok (value, ttl) =>
    { s with replies := s.replies ++ [{ forward := f, ruleSets := s.ruleSets, outcome := o, value, ttl }] }
  | .error _ => s

/-- The end of `load` as the flight sees it. -/
def Shared.loadChoice (s : Shared) (f : Forward) (o : Outcome) : Singleflight.Choice :=
  match f.load r parsers s.ruleSets o with
  | .ok result => .loaded (.ok result)
  | .error .panic => .dropped
  | .error error => .loaded (.error (errorText error))

/-- One step of `cached`, and on with its result if it returns. -/
def Shared.cached (s : Shared) (f : Forward) (t : Singleflight.Thread) (c : Singleflight.Choice) :
    Option (Shared × List Thread) :=
  (Singleflight.act r.cacheEnabled s.inner t c).map fun x =>
    ({ s with inner := x.1 }, match Singleflight.gives r.cacheEnabled s.inner t c with
      | some (.ok value) => [.finish f value]
      | some (.error _) => []
      | none => x.2.map (.cached f))

def act (s : Shared) : Thread → Choice → Option (Shared × List Thread)
  | .call call, .go _ =>
    match r.start parsers s.ruleSets call with
    | .ok (.inr f) => some (s, [if f.disableCache then .direct f else .cached f (.start f.key)])
    | _ => some (s, [])
  | .direct f, .loaded o =>
    some (s.receive r parsers f o, match f.load r parsers s.ruleSets o with
      | .ok (value, _) => [.finish f value]
      | .error _ => [])
  | .direct _, .dropped => some (s, [])
  | .cached f t, .go now => s.cached r f t (.go now)
  | .cached f (.load key flight), .loaded o =>
    (s.receive r parsers f o).cached r f (.load key flight) (s.loadChoice r parsers f o)
  | .cached f t, .dropped => s.cached r f t .dropped
  | .finish f value, .go _ =>
    some ({ s with served := s.served ++ [{ forward := f, ruleSets := s.ruleSets, value }] }, [])
  | .replace ruleSets, .go _ => some ({ s with ruleSets }, [])
  | _, _ => none

def step : Pool Shared Thread → Pool.Event Thread Choice → Option (Pool Shared Thread) :=
  Pool.step starts (act r parsers)

/-- Some call is forwarded like this. -/
def Started (f : Forward) : Prop := ∃ ruleSets call, r.start parsers ruleSets call = .ok (.inr f)

/-! ## Where values come from -/

/-- The value of a load for the key. -/
def Loaded (replies : List Reply) (key : CacheKey) (v : CacheValue) : Prop :=
  ∃ reply ∈ replies, reply.forward.key = key ∧ reply.value = v

variable {replies replies' : List Reply}

theorem Loaded.mono {key : CacheKey} {v : CacheValue} (h : Loaded replies key v)
    (hsub : ∀ reply ∈ replies, reply ∈ replies') : Loaded replies' key v := by
  obtain ⟨reply, hmem, hreply⟩ := h
  exact ⟨reply, hsub reply hmem, hreply⟩

/-- What holds for a call among the first `count` flights. -/
def Fits (replies : List Reply) (keyOf : Nat → CacheKey) (count : Nat) : Thread → Prop
  | .call _ | .replace _ => True
  | .direct f => Started r parsers f
  | .cached f t => Started r parsers f ∧ Singleflight.Keeps (Loaded replies) keyOf count f.key t
  | .finish f value => Started r parsers f ∧ Singleflight.Aged (Loaded replies) f.key value

/-- The record tells where every value comes from. -/
structure Traced (s : Shared) : Prop where
  replies : ∀ reply ∈ s.replies, Started r parsers reply.forward ∧
    reply.forward.load r parsers reply.ruleSets reply.outcome = .ok (reply.value, reply.ttl)
  entries : ∀ key e, s.inner.cache.entries.lookup key = some e → Loaded s.replies key e.value
  served : ∀ x ∈ s.served, Started r parsers x.forward ∧ Singleflight.Aged (Loaded s.replies) x.forward.key x.value

/-- The invariant of all calls together. -/
def Inv (s : Shared) (ts : List Thread) : Prop :=
  Traced r parsers s ∧ ∃ keyOf, Singleflight.Holds (Loaded s.replies) keyOf s.inner ∧
    ∀ t ∈ ts, Fits r parsers s.replies keyOf s.inner.objects.length t

end

section
variable {r : DnsResolver} {parsers : Parsers} {s s' : Shared} {f : Forward} {ts rest : List Thread}
  {t : Thread} {replies' : List Reply} {o : Outcome} {ttl : Nat}

theorem Fits.mono {replies : List Reply} {keyOf keyOf' : Nat → CacheKey} {count count' : Nat}
    (h : Fits r parsers replies keyOf count t) (hsub : ∀ reply ∈ replies, reply ∈ replies')
    (hcount : count ≤ count') (hkey : ∀ flight < count, keyOf' flight = keyOf flight) :
    Fits r parsers replies' keyOf' count' t := by
  have hloaded : ∀ key v, Loaded replies key v → Loaded replies' key v := fun _ _ hv => hv.mono hsub
  cases t with
  | call | replace => trivial
  | direct => exact h
  | cached f t => exact ⟨h.1, h.2.mono hcount hkey (hloaded f.key)⟩
  | finish f value =>
    obtain ⟨hstarted, w, hw, hvalue⟩ := h
    exact ⟨hstarted, w, hw.mono hsub, hvalue⟩

theorem Traced.mono_served {x : Served} (h : Traced r parsers s) (hx : x ∈ s.served)
    (hsub : ∀ reply ∈ s.replies, reply ∈ replies') :
    Started r parsers x.forward ∧ Singleflight.Aged (Loaded replies') x.forward.key x.value := by
  obtain ⟨hstarted, w, hw, hvalue⟩ := h.served x hx
  exact ⟨hstarted, w, hw.mono hsub, hvalue⟩

theorem Shared.receive_sub (s : Shared) (f : Forward) (o : Outcome) :
    ∀ reply ∈ s.replies, reply ∈ (s.receive r parsers f o).replies := by
  grind [Shared.receive, List.mem_append_left]

@[simp] theorem Shared.receive_inner (s : Shared) (f : Forward) (o : Outcome) :
    (s.receive r parsers f o).inner = s.inner := by
  unfold Shared.receive
  split <;> rfl

@[simp] theorem Shared.receive_served (s : Shared) (f : Forward) (o : Outcome) :
    (s.receive r parsers f o).served = s.served := by
  unfold Shared.receive
  split <;> rfl

theorem Shared.loaded_receive {value : CacheValue} (h : f.load r parsers s.ruleSets o = .ok (value, ttl)) :
    Loaded (s.receive r parsers f o).replies f.key value := by
  simp only [Shared.receive, h]
  exact ⟨_, List.mem_concat_self, rfl, rfl⟩

theorem Inv.receive (h : Inv r parsers s ts) (hf : Started r parsers f) (o : Outcome) :
    Inv r parsers (s.receive r parsers f o) ts := by
  obtain ⟨htraced, keyOf, hholds, hfits⟩ := h
  have hsub : ∀ reply ∈ s.replies, reply ∈ (s.receive r parsers f o).replies := s.receive_sub f o
  refine ⟨⟨?_, ?_, ?_⟩, keyOf, ?_, ?_⟩
  · intro reply hmem
    unfold Shared.receive at hmem
    split at hmem
    · next value ttl hload =>
      rcases List.mem_append.mp hmem with hmem | hmem
      · exact htraced.replies reply hmem
      · obtain rfl := List.mem_singleton.mp hmem
        exact ⟨hf, hload⟩
    · exact htraced.replies reply hmem
  · intro key e he
    rw [Shared.receive_inner] at he
    exact (htraced.entries key e he).mono hsub
  · intro x hx
    rw [Shared.receive_served] at hx
    exact htraced.mono_served hx hsub
  · rw [Shared.receive_inner]
    exact hholds.mono fun _ _ hv => hv.mono hsub
  · intro t ht
    rw [Shared.receive_inner]
    exact (hfits t ht).mono hsub (Nat.le_refl _) fun _ _ => rfl

theorem Inv.cached {t : Singleflight.Thread} {c : Singleflight.Choice} (h : Inv r parsers s (.cached f t :: rest))
    (hload : ∀ v ttl, c = .loaded (.ok (v, ttl)) → Loaded s.replies f.key v)
    (hact : s.cached r f t c = some (s', ts)) : Inv r parsers s' (ts ++ rest) := by
  obtain ⟨htraced, keyOf, hholds, hfits⟩ := h
  obtain ⟨hthis, hrest⟩ := List.forall_mem_cons.mp hfits
  obtain ⟨hstarted, hkeeps⟩ := hthis
  obtain ⟨⟨inner, us⟩, hinner, heq⟩ := Option.map_eq_some_iff.mp hact
  obtain ⟨rfl, rfl⟩ := Prod.mk.inj heq
  obtain ⟨⟨keyOf', hkey, hcount, hholds', hus⟩, hgives⟩ := hholds.act hkeeps hload hinner
  refine ⟨⟨htraced.replies, hholds'.entries, htraced.served⟩, keyOf', hholds', ?_⟩
  intro u hu
  rcases List.mem_append.mp hu with hu | hu
  · split at hu
    · next value hvalue =>
      obtain rfl := List.mem_singleton.mp hu
      exact ⟨hstarted, hgives value hvalue⟩
    · cases hu
    · obtain ⟨t', ht', rfl⟩ := List.mem_map.mp hu
      exact ⟨hstarted, hus t' ht'⟩
  · exact (hrest u hu).mono (fun _ => id) hcount hkey

theorem Inv.next (h : Inv r parsers s (t :: rest)) (hts : ∀ keyOf count, Fits r parsers s.replies keyOf count t →
      ∀ u ∈ ts, Fits r parsers s.replies keyOf count u) : Inv r parsers s (ts ++ rest) := by
  obtain ⟨htraced, keyOf, hholds, hfits⟩ := h
  obtain ⟨hthis, hrest⟩ := List.forall_mem_cons.mp hfits
  exact ⟨htraced, keyOf, hholds, List.forall_mem_append.mpr ⟨hts keyOf _ hthis, hrest⟩⟩

theorem Inv.done (h : Inv r parsers s (t :: rest)) : Inv r parsers s rest := by
  obtain ⟨htraced, keyOf, hholds, hfits⟩ := h
  exact ⟨htraced, keyOf, hholds, (List.forall_mem_cons.mp hfits).2⟩

theorem Inv.replace (h : Inv r parsers s ts) (ruleSets : Option CompiledRuleSetMap) :
    Inv r parsers { s with ruleSets } ts :=
  ⟨⟨h.1.replies, h.1.entries, h.1.served⟩, h.2⟩

theorem Inv.serve {value : CacheValue} (h : Inv r parsers s (.finish f value :: rest)) :
    Inv r parsers { s with served := s.served ++ [{ forward := f, ruleSets := s.ruleSets, value }] } rest := by
  obtain ⟨htraced, keyOf, hholds, hfits⟩ := h
  obtain ⟨hthis, hrest⟩ := List.forall_mem_cons.mp hfits
  refine ⟨⟨htraced.replies, htraced.entries, ?_⟩, keyOf, hholds, hrest⟩
  exact List.forall_mem_append.mpr ⟨htraced.served, List.forall_mem_singleton.mpr hthis⟩

/-- The value that `load` hands to the flight is on record. -/
theorem Shared.loadChoice_ok {v : CacheValue} (h : s.loadChoice r parsers f o = .loaded (.ok (v, ttl))) :
    f.load r parsers s.ruleSets o = .ok (v, ttl) := by
  grind [Shared.loadChoice]

theorem Inv.started (h : Inv r parsers s (t :: rest))
    (hf : ∀ keyOf count, Fits r parsers s.replies keyOf count t → Started r parsers f) : Started r parsers f := by
  obtain ⟨-, keyOf, -, hfits⟩ := h
  exact hf keyOf _ (hfits t List.mem_cons_self)

theorem Inv.direct (h : Inv r parsers s (.direct f :: rest)) (o : Outcome) : Inv r parsers (s.receive r parsers f o)
      ((match f.load r parsers s.ruleSets o with
        | .ok (value, _) => [.finish f value]
        | .error _ => []) ++ rest) := by
  have hstarted : Started r parsers f := h.started fun _ _ hf => hf
  have hnext := h.receive hstarted o
  split
  · next value _ hload =>
    exact hnext.next fun _ _ _ => List.forall_mem_singleton.mpr
      ⟨hstarted, value, Shared.loaded_receive hload, Or.inl rfl⟩
  · exact hnext.done

theorem Inv.loaded {key : CacheKey} {flight : Nat} (h : Inv r parsers s (.cached f (.load key flight) :: rest))
    (hact : (s.receive r parsers f o).cached r f (.load key flight) (s.loadChoice r parsers f o) = some (s', ts)) :
    Inv r parsers s' (ts ++ rest) := by
  have hstarted : Started r parsers f := h.started fun _ _ hf => hf.1
  have hnext := h.receive hstarted o
  exact hnext.cached (fun v ttl hc => Shared.loaded_receive (Shared.loadChoice_ok hc)) hact

theorem Inv.act {t : Thread} {c : Choice} (h : Inv r parsers s (t :: rest))
    (hact : act r parsers s t c = some (s', ts)) : Inv r parsers s' (ts ++ rest) := by
  unfold Calls.act at hact
  split at hact
  · next call _ =>
    split at hact
    · next f hstart =>
      cases hact
      have hstarted : Started r parsers f := ⟨_, _, hstart⟩
      cases hcache : f.disableCache with
      | true => exact h.next fun _ _ _ => List.forall_mem_singleton.mpr hstarted
      | false => exact h.next fun _ _ _ => List.forall_mem_singleton.mpr ⟨hstarted, rfl⟩
    · cases hact
      exact h.done
  · cases hact
    exact h.direct _
  · cases hact
    exact h.done
  · next f t now => exact h.cached (c := .go now) nofun hact
  · exact h.loaded hact
  · exact h.cached (c := .dropped) nofun hact
  · cases hact
    exact h.serve
  · cases hact
    exact h.done.replace _
  · cases hact

theorem Inv.start (capacity : Nat) (disableExpire : Bool) (ruleSets : Option CompiledRuleSetMap) :
    Inv r parsers (.start capacity disableExpire ruleSets) [] := by
  have hholds : Singleflight.Holds (Loaded []) (fun _ => .ech []) (.start (.new capacity disableExpire)) :=
    .start capacity disableExpire
  refine ⟨⟨?_, hholds.entries, ?_⟩, _, hholds, ?_⟩
  · exact fun reply hmem => (List.not_mem_nil hmem).elim
  · exact fun x hmem => (List.not_mem_nil hmem).elim
  · exact fun t hmem => (List.not_mem_nil hmem).elim

variable {ruleSets : Option CompiledRuleSetMap} {disableExpire : Bool}

/-- **Every schedule.** From an empty cache on, every value in the cache is the value of a load for its key, and
    the value behind every answer is that of a load for the key of its call, perhaps aged. -/
theorem traced {capacity : Nat}
    {es : List (Pool.Event Thread Choice)} {p : Pool Shared Thread}
    (h : run (step r parsers) ⟨.start capacity disableExpire ruleSets, []⟩ es = some p) :
    Traced r parsers p.shared := by
  refine (Pool.inv_run (I := Inv r parsers) ?_ ?_ ?_ (Inv.start capacity disableExpire ruleSets) h).1
  · intro s ts us hperm hinv
    obtain ⟨htraced, keyOf, hholds, hfits⟩ := hinv
    exact ⟨htraced, keyOf, hholds, fun t ht => hfits t (hperm.mem_iff.mpr ht)⟩
  · intro s ts t hstarts hinv
    obtain ⟨htraced, keyOf, hholds, hfits⟩ := hinv
    refine ⟨htraced, keyOf, hholds, List.forall_mem_cons.mpr ⟨?_, hfits⟩⟩
    cases t with
    | call | replace => trivial
    | direct | cached | finish => cases hstarts
  · intro s t c s' ts rest hinv hact
    exact hinv.act hact

end

/-! ## A call by itself -/

section
variable {r : DnsResolver} {parsers : Parsers} {s s' : Shared} {f : Forward} {value : CacheValue} {ttl : Nat}

theorem run_alone {t : Thread} {ts : List Thread} {c : Choice} (es : List (Pool.Event Thread Choice))
    (h : act r parsers s t c = some (s', ts)) :
    run (step r parsers) ⟨s, [t]⟩ (.act 0 c :: es) = run (step r parsers) ⟨s', ts⟩ es := by
  simp [run, step, Pool.step, h]

theorem run_loaded (r : DnsResolver) (parsers : Parsers) (s : Shared) (f : Forward) (flight : Nat)
    (value : CacheValue) (ttl : Nat) :
    ∃ s', run (step r parsers) ⟨s, [.cached f (.store f.key flight (.ok value) ttl)]⟩
      (List.replicate 5 (.act 0 (.go 0))) =
        some ⟨s', []⟩ ∧
      s'.served = s.served ++ [⟨f, s.ruleSets, value⟩] ∧ s'.replies = s.replies ∧
      s'.inner.cache = (s.inner.store r.cacheEnabled 0 f.key (.ok value) ttl).cache := by
  have hcached : ∀ (s : Shared) t (inner : Singleflight.Inner) t',
      Singleflight.act r.cacheEnabled s.inner t (.go 0) = some (inner, [t']) →
      Singleflight.gives r.cacheEnabled s.inner t (.go 0) = none →
      act r parsers s (.cached f t) (.go 0) = some ({ s with inner }, [.cached f t']) := by
    intro s t inner t' hact hgives
    simp only [act, Shared.cached, hact, hgives]
    rfl
  have hleave : ∀ s : Shared, act r parsers s (.cached f (.leave f.key flight (.ok value))) (.go 0) =
      some ({ s with inner := { s.inner with
        flights := s.inner.flights.erase f.key
        returned := s.inner.returned ++ [(flight, .ok value)] } }, [.finish f value]) := fun _ => rfl
  have hfinish : ∀ s : Shared, act r parsers s (.finish f value) (.go 0) =
      some ({ s with served := s.served ++ [⟨f, s.ruleSets, value⟩] }, []) := fun _ => rfl
  have hstore := hcached s (.store f.key flight (.ok value) ttl) _ _ rfl rfl
  have hcomplete := fun s => hcached s (.complete f.key flight (.ok value)) _ _ rfl rfl
  have hnotify := fun s => hcached s (.notify f.key flight (.ok value)) _ _ rfl rfl
  have hrun := (run_alone (List.replicate 4 (.act 0 (.go 0))) hstore).trans ((run_alone _ (hcomplete _)).trans
    ((run_alone _ (hnotify _)).trans ((run_alone _ (hleave _)).trans ((run_alone _ (hfinish _)).trans (run_nil _)))))
  exact ⟨_, hrun, rfl, rfl, rfl⟩

def answeredCall (call : DnsCall) (o : Outcome) : List (Pool.Event Thread Choice) :=
  [.spawn (.call call), .act 0 (.go 0), .act 0 (.go 0), .act 0 (.go 0), .act 0 (.loaded o)] ++
    List.replicate 5 (.act 0 (.go 0))

theorem run_answeredCall {capacity : Nat} {call : DnsCall} {o : Outcome}
    (hstart : r.start parsers ruleSets call = .ok (.inr f)) (hcache : f.disableCache = false)
    (hload : f.load r parsers ruleSets o = .ok (value, ttl)) :
    ∃ p, run (step r parsers) ⟨.start capacity disableExpire ruleSets, []⟩ (answeredCall call o) = some p ∧
      p.shared.served = [⟨f, ruleSets, value⟩] ∧ p.shared.replies = [⟨f, ruleSets, o, value, ttl⟩] ∧
      p.shared.inner.cache =
        ((Singleflight.Inner.start (.new capacity disableExpire)).store r.cacheEnabled 0 f.key
          (.ok value) ttl).cache := by
  have hcall : act r parsers (.start capacity disableExpire ruleSets) (.call call) (.go 0) =
      some (.start capacity disableExpire ruleSets, [.cached f (.start f.key)]) := by
    have hsets : (Shared.start capacity disableExpire ruleSets).ruleSets = ruleSets := rfl
    simp only [act, hsets, hstart, hcache]
    rfl
  have hmiss : act r parsers (.start capacity disableExpire ruleSets) (.cached f (.start f.key)) (.go 0) =
      some (.start capacity disableExpire ruleSets, [.cached f (.enter f.key)]) := by
    cases henabled : r.cacheEnabled with
    | false | true =>
      simp only [act, Shared.cached, Singleflight.act, Singleflight.gives, henabled]
      rfl
  have hload' : ∀ s : Shared, s.ruleSets = ruleSets → act r parsers s (.cached f (.load f.key 0)) (.loaded o) =
      some ({ s with
          replies := s.replies ++ [⟨f, ruleSets, o, value, ttl⟩]
          inner := { s.inner with loaded := s.inner.loaded ++ [(0, .ok value)] } },
        [.cached f (.store f.key 0 (.ok value) ttl)]) := by
    intro s hs
    simp only [act, Shared.receive, Shared.loadChoice, hs, hload]
    rfl
  have hlead : act r parsers (.start capacity disableExpire ruleSets) (.cached f (.enter f.key)) (.go 0) =
      some ({ Shared.start capacity disableExpire ruleSets with
        inner := { Singleflight.Inner.start (.new capacity disableExpire) with
          flights := AList.insert f.key 0 ∅
          objects := [⟨none, 0⟩] } }, [.cached f (.load f.key 0)]) := rfl
  have hspawn : step r parsers ⟨.start capacity disableExpire ruleSets, []⟩ (.spawn (.call call)) =
      some ⟨.start capacity disableExpire ruleSets, [.call call]⟩ := rfl
  have hfirst := (run_alone _ hcall).trans ((run_alone _ hmiss).trans ((run_alone _ hlead).trans
    (run_alone (List.replicate 5 (.act 0 (.go 0))) (hload' _ rfl))))
  obtain ⟨s', hrun, hserved, hreplies, hcache'⟩ := run_loaded r parsers _ f 0 value ttl
  refine ⟨⟨s', []⟩, run_cons_eq_some.mpr ⟨_, hspawn, hfirst.trans hrun⟩, hserved, hreplies, ?_⟩
  rw [hcache']
  unfold Singleflight.Inner.store
  simp only
  split <;> rfl

end

end Calls

end Xhttp.Dns
