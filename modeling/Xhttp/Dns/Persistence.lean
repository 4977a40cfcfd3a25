import Xhttp.Dns.Cache
import Xhttp.Lib.Run

/- What record TTLs the DNS cache hands out, across `cache_file` (`src/dns/cache.rs`). A
   `get` reduces the TTLs of a response by the time since `inserted`. A snapshot keeps the
   response as it was stored, without that time, and a restore stores it as if it had just
   been received, so that its records live on with their full TTLs
   (`restore_renews_ttls`).

   `SystemTime` and `Instant` are one clock here, in nanoseconds since the Unix epoch; a
   snapshot and a restore happen at one moment. -/
namespace Xhttp.Dns
open Xhttp.Lib List

/-- `PersistentEntry`; its key and value are copies of those of the cache. -/
structure PersistentEntry where
  key : CacheKey
  value : CacheValue
  /-- In seconds since the Unix epoch. -/
  expiresAt : Nat

def DnsCache.snapshot (c : DnsCache) (now : Nat) : List PersistentEntry :=
  c.entries.entries.filterMap fun e =>
    if (e.2.expires - now) / 1000000000 = 0 then none
    else some ⟨e.1, e.2.value, now / 1000000000 + (e.2.expires - now) / 1000000000⟩

/-- The body of the loop of `restore`; `checked_sub` and the test for zero are one here. -/
def DnsCache.restoreEntry (now : Nat) (c : DnsCache) (entry : PersistentEntry) : DnsCache :=
  if entry.expiresAt - now / 1000000000 = 0 then c
  else c.insert now entry.key entry.value ((entry.expiresAt - now / 1000000000) * 1000000000)

def DnsCache.restore (c : DnsCache) (now : Nat) (snapshot : List PersistentEntry) : DnsCache :=
  snapshot.foldl (DnsCache.restoreEntry now) c

/-! ## Runs -/

/-- Where a cached response comes from. Only recorded. -/
structure Origin where
  response : Bytes
  inserted : Nat
  /-- How often it went through a snapshot and a restore. -/
  restores : Nat
  deriving DecidableEq

structure Returned where
  time : Nat
  origin : Option Origin
  response : Bytes

/-- The resolver's cache over time, and the files its snapshots were written to. -/
structure System where
  now : Nat
  cache : DnsCache
  origins : CacheKey → Option Origin
  saved : List (List PersistentEntry × (CacheKey → Option Origin))
  returned : List Returned

def System.start (now capacity : Nat) (disableExpire : Bool) : System :=
  { now, cache := .new capacity disableExpire, origins := fun _ => none, saved := [], returned := [] }

inductive CacheEvent where
  | pass (duration : Nat)
  | insert (key : CacheKey) (value : CacheValue) (ttl : Nat)
  | get (key : CacheKey)
  | snapshot
  /-- A new process restores the snapshot with this number. -/
  | restore (number : Nat) (capacity : Nat) (disableExpire : Bool)

def CacheValue.origin (now : Nat) : CacheValue → Option Origin
  | .addresses _ => none
  | .wire response => some ⟨response, now, 0⟩

def Origin.again (o : Origin) : Origin := { o with restores := o.restores + 1 }

def System.step (s : System) : CacheEvent → Option System
  | .pass duration => some { s with now := s.now + duration }
  | .insert key value ttl =>
    some { s with cache := s.cache.insert s.now key value ttl,
                  origins := fun k => if k = key then value.origin s.now else s.origins k }
  | .get key =>
    match s.cache.get s.now key with
    | (some (.wire response), cache) =>
      some { s with cache, returned := s.returned ++ [⟨s.now, s.origins key, response⟩] }
    | (_, cache) => some { s with cache }
  | .snapshot => some { s with saved := s.saved ++ [(s.cache.snapshot s.now, s.origins)] }
  | .restore number capacity disableExpire =>
    match s.saved[number]? with
    | none => none
    | some (snapshot, origins) =>
      some { s with cache := (DnsCache.new capacity disableExpire).restore s.now snapshot,
                    origins := fun k => (origins k).map Origin.again }

/-- The TTL `f'` that is returned is what is left of `f` after `elapsed` seconds, up to a
    second for each restore. -/
def Left (elapsed restores : Nat) (f f' : TtlField) : Prop :=
  f'.offset = f.offset ∧ f'.recordType = f.recordType ∧
    (f.recordType ≠ 41 → f'.ttl.toNat ≤ f.ttl.toNat - elapsed + restores)

/-- A response has the records of its origin, with no TTL above what is left of it. -/
def Returned.Honest (x : Returned) : Prop :=
  ∃ o, x.origin = some o ∧ ∀ fields, ttlOffsets o.response = .ok fields →
    ∃ fields', ttlOffsets x.response = .ok fields' ∧
      List.Forall₂ (Left ((x.time - o.inserted) / 1000000000) o.restores) fields fields'

def System.Honest (s : System) : Prop := ∀ x ∈ s.returned, x.Honest

/-- All TTLs of the response are at most `k`. -/
def ttlsAtMost (k : Nat) (response : Bytes) : Bool :=
  match ttlOffsets response with
  | .error _ => true
  | .ok fields => fields.all fun f => f.recordType == 41 || f.ttl.toNat ≤ k

/-- At time `now` the origin is no older in seconds than it was restored, or has no TTL
    above that. -/
def Origin.Close (o : Origin) (now : Nat) : Prop :=
  now - o.inserted ≤ o.restores * 1000000000 ∨ ttlsAtMost o.restores o.response = true

instance (o : Origin) (now : Nat) : Decidable (o.Close now) :=
  inferInstanceAs (Decidable (_ ∨ _))

/-- Whatever a restore puts into the cache is still close to its origin. -/
def Timely (s : System) : CacheEvent → Prop
  | .restore number capacity disableExpire =>
    ∀ q ∈ s.saved[number]?, ∀ x ∈ ((DnsCache.new capacity disableExpire).restore s.now q.1).entries.entries,
        ∀ o ∈ q.2 x.1, x.2.value = .wire o.response → o.again.Close s.now
  | _ => True

instance (s : System) : ∀ e, Decidable (Timely s e)
  | .restore number capacity disableExpire =>
    inferInstanceAs (Decidable (∀ q ∈ s.saved[number]?,
      ∀ x ∈ ((DnsCache.new capacity disableExpire).restore s.now q.1).entries.entries,
        ∀ o ∈ q.2 x.1, x.2.value = .wire o.response → o.again.Close s.now))
  | .pass _ | .insert _ _ _ | .get _ | .snapshot => isTrue trivial

/-! ## Snapshots and restores -/

section
variable {c : DnsCache} {now : Nat} {k : CacheKey} {e : CacheEntry} {snapshot : List PersistentEntry}

theorem mem_snapshot {p : PersistentEntry} (h : p ∈ c.snapshot now) :
    ∃ e, c.entries.lookup p.key = some e ∧ p.value = e.value := by
  obtain ⟨⟨k, e⟩, hmem, hp⟩ := mem_filterMap.mp h
  split at hp
  · cases hp
  · cases hp
    exact ⟨e, AList.mem_lookup_iff.mpr hmem, rfl⟩

theorem DnsCache.Coherent.restore (snapshot : List PersistentEntry) :
    ∀ {c : DnsCache}, c.Coherent → (c.restore now snapshot).Coherent := by
  induction snapshot with
  | nil => exact id
  | cons p snapshot ih =>
    intro c h
    refine ih ?_
    unfold DnsCache.restoreEntry
    split
    · exact h
    · exact h.insert now _ _ _

theorem lookup_restore (snapshot : List PersistentEntry) :
    ∀ {c : DnsCache}, c.Coherent → (c.restore now snapshot).entries.lookup k = some e →
      c.entries.lookup k = some e ∨
      ∃ p ∈ snapshot, p.key = k ∧ e.value = p.value ∧ e.inserted = now ∧ now + 1000000000 ≤ e.expires := by
  induction snapshot with
  | nil => exact fun _ he => Or.inl he
  | cons p snapshot ih =>
    intro c h he
    have hc : (c.restoreEntry now p).Coherent := (DnsCache.Coherent.restore [p] h : _)
    rcases ih hc he with hfound | ⟨p', hp', hrest⟩
    · unfold DnsCache.restoreEntry at hfound
      split at hfound
      · exact Or.inl hfound
      · next hremaining =>
        rcases h.lookup_insert hfound with ⟨rfl, hvalue, hinserted, hexpires⟩ | ⟨-, hold⟩
        · grind
        · exact Or.inl hold
    · exact Or.inr ⟨p', mem_cons_of_mem _ hp', hrest⟩

variable {disableExpire : Bool}

theorem lookup_restore_new {capacity : Nat}
    (he : ((DnsCache.new capacity disableExpire).restore now snapshot).entries.lookup k = some e) :
    ∃ p ∈ snapshot, p.key = k ∧ e.value = p.value ∧ e.inserted = now ∧ now + 1000000000 ≤ e.expires :=
  (lookup_restore snapshot (DnsCache.coherent_new _ _) he).resolve_left nofun

end

/-! ## What is left of a TTL -/

theorem elapsedSecs_toNat (elapsed : Nat) : (elapsedSecs elapsed).toNat = min (elapsed / 1000000000) 4294967295 := by
  rw [elapsedSecs, UInt32.toNat_ofNat']
  omega

theorem ttlsAtMost_iff {k : Nat} {response : Bytes} {fields : List TtlField} (h : ttlOffsets response = .ok fields) :
    ttlsAtMost k response = true ↔ ∀ f ∈ fields, f.recordType ≠ 41 → f.ttl.toNat ≤ k := by
  rw [ttlsAtMost, h, all_eq_true]
  simp [or_iff_not_imp_left]

theorem ttlOffsets_age {response : Bytes} {fields : List TtlField} (elapsed : Nat)
    (h : ttlOffsets response = .ok fields) : ttlOffsets (ageResponseTtls response (elapsedSecs elapsed)) =
      .ok (fields.map (TtlField.update fun ttl => saturatingSub ttl (elapsedSecs elapsed))) :=
  ttlOffsets_overwriteTtls _ h

theorem update_ttl_toNat {f : TtlField} (h : f.recordType ≠ 41) (elapsed : Nat) :
    (f.update fun ttl => saturatingSub ttl (elapsedSecs elapsed)).ttl.toNat =
      f.ttl.toNat - min (elapsed / 1000000000) 4294967295 := by
  rw [TtlField.update, if_pos h, saturatingSub_toNat, elapsedSecs_toNat]

/-- A response aged since `inserted` is honest while that time is close to its origin. -/
theorem honest_of_close {o : Origin} {inserted now : Nat} (hinserted : o.inserted ≤ inserted)
    (hnow : inserted ≤ now) (hclose : o.Close inserted) :
    Returned.Honest ⟨now, some o, ageResponseTtls o.response (elapsedSecs (now - inserted))⟩ := by
  refine ⟨o, rfl, fun fields hfields => ⟨_, ttlOffsets_age _ hfields, ?_⟩⟩
  rw [forall₂_map_right_iff, forall₂_same]
  intro f hf
  refine ⟨TtlField.update_offset _ f, TtlField.update_recordType _ f, fun htype => ?_⟩
  rw [update_ttl_toNat htype]
  have hmax : f.ttl.toNat < 4294967296 := f.ttl.toNat_lt
  rcases hclose with hclose | hsmall
  · simp only
    omega
  · have hle := (ttlsAtMost_iff hfields).mp hsmall f hf htype
    omega

/-! ## Runs -/

/-- Every cached response has an origin that it is close to, and every saved one has an
    origin. -/
structure System.Tracked (s : System) : Prop where
  coherent : s.cache.Coherent
  cached : ∀ k e r, s.cache.entries.lookup k = some e → e.value = .wire r →
    ∃ o, s.origins k = some o ∧ o.response = r ∧ o.inserted ≤ e.inserted ∧ e.inserted ≤ s.now ∧
      o.Close e.inserted
  saved : ∀ q ∈ s.saved, ∀ p ∈ q.1, ∀ r, p.value = .wire r →
    ∃ o, q.2 p.key = some o ∧ o.response = r ∧ o.inserted ≤ s.now
  honest : s.Honest

section
variable {s s' : System} {e : CacheEvent}

theorem get_wire {c : DnsCache} {now : Nat} {key : CacheKey} {response : Bytes}
    (h : (c.get now key).1 = some (.wire response)) : ∃ e r, c.entries.lookup key = some e ∧ e.value = .wire r ∧
      response = ageResponseTtls r (elapsedSecs (now - e.inserted)) := by
  unfold DnsCache.get at h
  split at h
  · cases h
  · next entry hlookup =>
    split at h
    · cases h
    · have haged := Option.some.inj h
      cases hvalue : entry.value with
      | addresses ips =>
        rw [hvalue] at haged
        cases haged
      | wire r =>
        rw [hvalue] at haged
        exact ⟨entry, r, hlookup, hvalue, (CacheValue.wire.inj haged).symm⟩

section
variable (h : s.Tracked)
include h

theorem System.Tracked.pass (duration : Nat) : System.Tracked { s with now := s.now + duration } := by
  refine ⟨h.coherent, fun k e r hk hr => ?_, fun q hq p hp r hr => ?_, h.honest⟩
  · obtain ⟨o, ho, hresponse, hle, hnow, hclose⟩ := h.cached k e r hk hr
    exact ⟨o, ho, hresponse, hle, Nat.le_add_right_of_le hnow, hclose⟩
  · obtain ⟨o, ho, hresponse, hnow⟩ := h.saved q hq p hp r hr
    exact ⟨o, ho, hresponse, Nat.le_add_right_of_le hnow⟩

theorem System.Tracked.insert (key : CacheKey) (value : CacheValue) (ttl : Nat)
    (hcache : s'.cache = s.cache.insert s.now key value ttl)
    (horigins : s'.origins = fun k => if k = key then value.origin s.now else s.origins k)
    (hnow : s'.now = s.now) (hsaved : s'.saved = s.saved) (hreturned : s'.returned = s.returned) : s'.Tracked := by
  constructor
  · rw [hcache]
    exact h.coherent.insert _ _ _ _
  · intro k e r hk hr
    rw [hcache] at hk
    rw [horigins, hnow]
    rcases h.coherent.lookup_insert hk with ⟨rfl, rfl, hinserted, -⟩ | ⟨hkey, hold⟩
    · simp only [if_true, hr]
      exact ⟨_, rfl, rfl, hinserted.ge, hinserted.le, Or.inl (by simp [hinserted])⟩
    · simp only [if_neg hkey]
      exact h.cached k e r hold hr
  · rw [hsaved, hnow]
    exact h.saved
  · rw [System.Honest, hreturned]
    exact h.honest

theorem System.Tracked.get (key : CacheKey) (returned : List Returned)
    (hreturned : ∀ x ∈ returned, x.Honest) :
    System.Tracked { s with cache := (s.cache.get s.now key).2, returned := s.returned ++ returned } := by
  refine ⟨h.coherent.get _ _, fun k e r hk hr => ?_, h.saved, fun x hx => ?_⟩
  · obtain ⟨e', hold, hvalue, hinserted⟩ := DnsCache.lookup_get hk
    rw [hinserted]
    exact h.cached k e' r hold (hvalue ▸ hr)
  · rcases mem_append.mp hx with hx | hx
    · exact h.honest x hx
    · exact hreturned x hx

theorem System.Tracked.snapshot :
    System.Tracked { s with saved := s.saved ++ [(s.cache.snapshot s.now, s.origins)] } := by
  refine ⟨h.coherent, h.cached, fun q hq p hp r hr => ?_, h.honest⟩
  rcases mem_append.mp hq with hq | hq
  · exact h.saved q hq p hp r hr
  · obtain rfl := mem_singleton.mp hq
    obtain ⟨e, he, hvalue⟩ := mem_snapshot hp
    obtain ⟨o, ho, hresponse, hle, hnow, -⟩ := h.cached p.key e r he (hvalue ▸ hr)
    exact ⟨o, ho, hresponse, hle.trans hnow⟩

theorem System.Tracked.restore {snapshot : List PersistentEntry}
    {origins : CacheKey → Option Origin} (hmem : (snapshot, origins) ∈ s.saved) {capacity : Nat}
    (htimely : ∀ x ∈ ((DnsCache.new capacity disableExpire).restore s.now snapshot).entries.entries,
      ∀ o ∈ origins x.1, x.2.value = .wire o.response → o.again.Close s.now) : System.Tracked
      { s with cache := (DnsCache.new capacity disableExpire).restore s.now snapshot,
               origins := fun k => (origins k).map Origin.again } := by
  refine ⟨(DnsCache.coherent_new _ _).restore snapshot, fun k e r hk hr => ?_, h.saved, h.honest⟩
  obtain ⟨p, hp, rfl, hvalue, hinserted, -⟩ := lookup_restore_new hk
  obtain ⟨o, ho, hresponse, hle⟩ := h.saved _ hmem p hp r (hvalue ▸ hr)
  have hclose := htimely ⟨p.key, e⟩ (AList.mem_lookup_iff.mp hk) o ho (hresponse ▸ hr)
  simp_all [Option.map, Origin.again]

/-- **One step.** -/
theorem tracked_step (htimely : Timely s e) (hstep : s.step e = some s') : s'.Tracked := by
  cases e with
  | pass duration =>
    cases hstep
    exact h.pass duration
  | insert key value ttl =>
    cases hstep
    exact h.insert key value ttl rfl rfl rfl rfl rfl
  | get key =>
    simp only [System.step] at hstep
    split at hstep
    · next response cache hget =>
      cases hstep
      have hfst : (s.cache.get s.now key).1 = some (.wire response) := by rw [hget]
      obtain ⟨e, r, hlookup, hvalue, rfl⟩ := get_wire hfst
      obtain ⟨o, ho, rfl, hle, hnow, hclose⟩ := h.cached key e r hlookup hvalue
      have hhonest := honest_of_close hle hnow hclose
      have hT := h.get key [⟨s.now, s.origins key, _⟩] fun x hx => by
        obtain rfl := mem_singleton.mp hx
        rw [ho]
        exact hhonest
      rw [hget] at hT
      exact hT
    · next found cache _ hget =>
      cases hstep
      have hT := h.get key [] nofun
      rw [hget, append_nil] at hT
      exact hT
  | snapshot =>
    cases hstep
    exact h.snapshot
  | restore number capacity disableExpire =>
    simp only [System.step] at hstep
    split at hstep
    · cases hstep
    · next snapshot origins hsaved =>
      cases hstep
      exact h.restore (mem_of_getElem? hsaved) (htimely _ hsaved)

end

theorem tracked_start (now capacity : Nat) (disableExpire : Bool) : (System.start now capacity disableExpire).Tracked :=
  ⟨DnsCache.coherent_new _ _, nofun, nofun, nofun⟩

/-! ## A late restore -/

theorem step_get_wire {key : CacheKey} {e : CacheEntry} {r : Bytes}
    (hlookup : s.cache.entries.lookup key = some e) (hvalue : e.value = .wire r) (hlive : s.now < e.expires) :
    ∃ s', s.step (.get key) = some s' ∧
      ⟨s.now, s.origins key, ageResponseTtls r (elapsedSecs (s.now - e.inserted))⟩ ∈ s'.returned := by
  have hget : s.cache.get s.now key =
      (some (.wire (ageResponseTtls r (elapsedSecs (s.now - e.inserted)))), (s.cache.touch key e).compactLru) := by
    rw [DnsCache.get, hlookup]
    simp [Nat.not_le.mpr hlive, hvalue, CacheValue.aged]
  simp_all [System.step]

/-- A response stored again when it was no longer close to its origin can be returned with
    a TTL that is too high, in the second after. -/
theorem exists_dishonest {key : CacheKey} {e : CacheEntry} {o : Origin}
    (hlookup : s.cache.entries.lookup key = some e) (hvalue : e.value = .wire o.response)
    (hinserted : e.inserted = s.now) (hexpires : s.now + 1000000000 ≤ e.expires)
    (horigin : s.origins key = some o) (hle : o.inserted ≤ s.now) (hfar : ¬ o.Close s.now) :
    ∃ s', Reaches System.step s s' ∧ ¬ s'.Honest := by
  obtain ⟨hlate, hlarge⟩ := not_or.mp hfar
  -- wait until one more second than the response was restored has passed
  obtain ⟨duration, hsoon, hsecs⟩ : ∃ duration, duration < 1000000000 ∧
      o.restores + 1 ≤ (s.now + duration - o.inserted) / 1000000000 :=
    ⟨o.inserted + (o.restores + 1) * 1000000000 - s.now, by omega, by omega⟩
  have hpass : s.step (.pass duration) = some { s with now := s.now + duration } := rfl
  obtain ⟨s₂, hget, hmem⟩ := step_get_wire (s := { s with now := s.now + duration }) hlookup hvalue
    (show s.now + duration < e.expires by omega)
  refine ⟨s₂, .head hpass (.single hget), fun hhonest => ?_⟩
  obtain ⟨o', ho', hfields⟩ := hhonest _ hmem
  obtain rfl : o = o' := Option.some.inj (horigin.symm.trans ho')
  -- its records, among them one that is too large
  cases hparse : ttlOffsets o.response with
  | error f => simp [ttlsAtMost, hparse] at hlarge
  | ok fields =>
    rw [ttlsAtMost_iff hparse] at hlarge
    push Not at hlarge
    obtain ⟨f, hf, htype, hlarge⟩ := hlarge
    obtain ⟨fields', hparse', hleft⟩ := hfields fields hparse
    rw [ttlOffsets_age _ hparse] at hparse'
    obtain rfl := Except.ok.inj hparse'
    rw [forall₂_map_right_iff, forall₂_same] at hleft
    have hbound := (hleft f hf).2.2 htype
    rw [update_ttl_toNat htype] at hbound
    have helapsed : (s.now + duration - e.inserted) / 1000000000 = 0 := by omega
    simp only [helapsed] at hbound
    omega

theorem exists_dishonest_of_late (h : s.Tracked) (hlate : ¬ Timely s e) (hstep : s.step e = some s') :
    ∃ later, Reaches System.step s' later ∧ ¬ later.Honest := by
  cases e with
  | restore number capacity disableExpire =>
    simp only [Timely] at hlate
    push Not at hlate
    obtain ⟨⟨snapshot, origins⟩, hq, ⟨key, entry⟩, hx, o, ho, hvalue, hfar⟩ := hlate
    have hk := AList.mem_lookup_iff.mpr hx
    obtain ⟨p, hp, rfl, hpvalue, hinserted, hexpires⟩ := lookup_restore_new hk
    obtain ⟨o', ho', -, hle⟩ := h.saved _ (mem_of_getElem? hq) p hp o.response (hpvalue ▸ hvalue)
    obtain rfl : o = o' := Option.some.inj (Option.mem_def.mp ho |>.symm.trans ho')
    simp only [System.step, Option.mem_def.mp hq] at hstep
    cases hstep
    exact exists_dishonest (o := o.again) hk hvalue hinserted hexpires
      (congrArg (Option.map Origin.again) ho') hle hfar
  | pass | insert | get | snapshot => exact absurd trivial hlate

end

def oneRecord : Bytes :=
  [0, 0, 0x81, 0x80, 0, 0, 0, 1, 0, 0, 0, 0, 0xc0, 0x0c, 0, 1, 0, 1, 0, 0, 0, 100, 0, 4, 1, 2, 3, 4]

/-- It is cached, saved half a minute later and restored at once. -/
def restart : List CacheEvent :=
  [.insert (.wire [] []) (.wire oneRecord) 60000000000, .pass 30000000000, .snapshot,
   .restore 0 16 false, .get (.wire [] [])]

def quickRestart : List CacheEvent :=
  [.insert (.wire [] []) (.wire oneRecord) 60000000000, .pass 900000000, .snapshot,
   .restore 0 16 false, .pass 5000000000, .get (.wire [] [])]

end Xhttp.Dns
