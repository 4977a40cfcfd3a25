import Xhttp.Dns.Codec
import Xhttp.Dns.Ech
import Xhttp.Dns.Resolver
import Xhttp.Lib.Pool

/- The two caches of ECH configs (`src/dns/mod.rs`).

   `cached_ech_config` keeps a config in the DNS cache, in the place of a wire response, where a hit ages what
   can be read as a DNS message (`ech_hits_verbatim_iff`). `EchCache` keeps it beside its expiry and lets one call
   at a time refresh it (`ech_cache_single_refresh`). -/
namespace Xhttp.Dns
open Xhttp.Lib List

/-! ## The DNS cache -/

/-- `cached_ech_config` by itself, with what `parse_https_ech` finds in the response to its query. -/
def cachedEchConfig (c : DnsCache) (now : Nat) (domain : Str) (discovered : Except Failure (Bytes × UInt32)) :
    Except Failure Bytes × DnsCache :=
  match c.get now (.ech (normalize domain)) with
  | (some (.wire config), c) => (.ok config, c)
  | (some (.addresses _), c) => (.error (.message "invalid DNS ECH cache entry"), c)
  | (none, c) =>
    match discovered with
    | .error e => (.error e, c)
    | .ok (config, ttl) => (.ok config, c.insert now (.ech (normalize domain)) (.wire config) (cacheTtl ttl))

/-- Calls one after the other, each at its time. -/
def echCalls (domain : Str) : DnsCache → List (Nat × Except Failure (Bytes × UInt32)) → List (Except Failure Bytes)
  | _, [] => []
  | c, call :: calls =>
    let (result, c) := cachedEchConfig c call.1 domain call.2
    result :: echCalls domain c calls

/-- No TTL would be aged in these bytes: they are no DNS message, or one whose TTLs are zero already. -/
def NothingToAge (config : Bytes) : Prop :=
  match ttlOffsets config with
  | .error _ => True
  | .ok fields => ∀ f ∈ fields, f.recordType = 41 ∨ f.ttl = 0

theorem overwriteTtls_eq_self_iff {g : UInt32 → UInt32} {m : Bytes} :
    overwriteTtls g m = m ↔
      ∀ fields, ttlOffsets m = .ok fields → ∀ f ∈ fields, f.recordType ≠ 41 → g f.ttl = f.ttl := by
  constructor
  · intro h fields hfields f hf hkind
    have hval := u32At_overwriteTtls (g := g) hfields hf
    rw [h, ((ttlOffsets_placed hfields).1 f hf).2, TtlField.update, if_pos hkind] at hval
    exact (Except.ok.inj hval).symm
  · intro h
    cases hfields : ttlOffsets m with
    | error e => rw [overwriteTtls, hfields]
    | ok fields =>
      refine overwriteTtls_eq hfields (fun _ _ => rfl) fun f hf hkind => ?_
      rw [h fields hfields f hf hkind, ((ttlOffsets_placed hfields).1 f hf).2]

theorem ageResponseTtls_eq_self_iff {config : Bytes} {elapsed : UInt32} :
    ageResponseTtls config elapsed = config ↔ elapsed = 0 ∨ NothingToAge config := by
  have hsub : ∀ ttl : UInt32, saturatingSub ttl elapsed = ttl ↔ elapsed = 0 ∨ ttl = 0 := by
    intro ttl
    rw [← UInt32.toNat_inj, saturatingSub_toNat, ← UInt32.toNat_inj, ← UInt32.toNat_inj (a := ttl)]
    show _ ↔ elapsed.toNat = 0 ∨ ttl.toNat = 0
    omega
  rw [ageResponseTtls, overwriteTtls_eq_self_iff, NothingToAge]
  cases ttlOffsets config <;> grind

theorem cachedEchConfig_hit {c : DnsCache} {now : Nat} {domain : Str} {e : CacheEntry} {config : Bytes}
    (discovered : Except Failure (Bytes × UInt32)) (hentry : c.entries.lookup (.ech (normalize domain)) = some e)
    (hvalue : e.value = .wire config) (hnow : now < e.expires) :
    ∃ e', (cachedEchConfig c now domain discovered).1 = .ok (ageResponseTtls config (elapsedSecs (now - e.inserted))) ∧
      (cachedEchConfig c now domain discovered).2.entries.lookup (.ech (normalize domain)) = some e' ∧
      e'.value = .wire config ∧ e'.inserted = e.inserted ∧ e'.expires = e.expires := by
  have hget : c.get now (.ech (normalize domain)) =
      (some (.wire (ageResponseTtls config (elapsedSecs (now - e.inserted)))),
        (c.touch (.ech (normalize domain)) e).compactLru) := by
    rw [DnsCache.get, hentry]
    simp only [Nat.not_le.mpr hnow, and_false, if_false, hvalue]
    rfl
  rw [cachedEchConfig, hget]
  refine ⟨{ e with lastAccess := c.clock + 1 }, rfl, ?_, hvalue, rfl, rfl⟩
  rw [DnsCache.compactLru_entries]
  exact AList.lookup_insert _

/-- **Cached configs.** Every hit within the TTL returns the bytes that were discovered, exactly if less than
    a second has passed or there is nothing to age in them. -/
theorem ech_hits_verbatim_iff (c : DnsCache) (domain : Str) (e : CacheEntry) (config : Bytes)
    (calls : List (Nat × Except Failure (Bytes × UInt32)))
    (hentry : c.entries.lookup (.ech (normalize domain)) = some e)
    (hvalue : e.value = .wire config) (hcalls : ∀ call ∈ calls, e.inserted ≤ call.1 ∧ call.1 < e.expires) :
    (∀ result ∈ echCalls domain c calls, result = .ok config) ↔
      ∀ call ∈ calls, call.1 - e.inserted < 1000000000 ∨ NothingToAge config := by
  induction calls generalizing c e with
  | nil => exact ⟨fun _ => nofun, fun _ => nofun⟩
  | cons call calls ih =>
    obtain ⟨⟨hlo, hhi⟩, hrest⟩ := forall_mem_cons.mp hcalls
    obtain ⟨e', hresult, hentry', hvalue', hinserted, hexpires⟩ := cachedEchConfig_hit call.2 hentry hvalue hhi
    have hsecs : elapsedSecs (call.1 - e.inserted) = 0 ↔ call.1 - e.inserted < 1000000000 := by
      rw [← UInt32.toNat_inj, elapsedSecs, UInt32.toNat_ofNat']
      show _ = 0 ↔ _
      omega
    rw [echCalls, forall_mem_cons, forall_mem_cons, ih _ e' hentry' hvalue' (by rwa [hinserted, hexpires]), hinserted,
      hresult, Except.ok.injEq, ageResponseTtls_eq_self_iff, hsecs]

/-- A config that reads as a DNS message with one record, whose TTL is 60. -/
def messageConfig : Bytes := [0, 21, 0, 0, 0, 0, 0, 1, 0, 0, 0, 0, 0, 0, 1, 0, 1, 0, 0, 0, 60, 0, 0]

theorem ech_hits_verbatim_iff_at_once :
    echCalls ['a'] (.new 8 false) [(0, .ok (messageConfig, 300)), (999999999, .ok ([], 0))] =
      [.ok messageConfig, .ok messageConfig] ∧
      ∀ result ∈ echCalls ['a'] ((cachedEchConfig (.new 8 false) 0 ['a'] (.ok (messageConfig, 300))).2)
        [(999999999, .ok ([], 0))], result = .ok messageConfig :=
  ⟨by decide +kernel,
    (ech_hits_verbatim_iff _ ['a'] ⟨.wire messageConfig, 300000000000, 0, 1, 1⟩ messageConfig _ (by decide +kernel) rfl
    (by decide)).mpr (forall_mem_singleton.mpr (.inl (by decide)))⟩

/-- A second later, the TTL in it has gone down. -/
theorem ech_config_aged :
    echCalls ['a'] (.new 8 false) [(0, .ok (messageConfig, 300)), (1000000000, .ok ([], 0))] =
      [.ok messageConfig, .ok (messageConfig.set 20 59)] := by
  decide +kernel

/-! ## The shared cache -/

namespace EchCache

/-- What a call of `config` returned: what it found in `state` at a time, or what its own query was answered with. -/
inductive Returned where
  | found (config : Bytes) (expires now : Nat)
  | fetched (config : Bytes)
  | failed
  deriving DecidableEq

/-- `state` and whether `flight` is locked; what calls returned is only recorded. -/
structure Shared where
  state : Option (Bytes × Nat)
  locked : Bool
  returned : List Returned

/-- Where a call is. It can be dropped where it waits: for `flight`, and for the answer to its query. -/
inductive Thread where
  | start
  | waits
  /-- Holds `flight` and looks at `state` once more. -/
  | holds
  | queries
  | fetched (config : Bytes) (ttl : Nat)
  deriving DecidableEq

inductive Choice where
  | go (now : Nat)
  | answer (result : Option (Bytes × Nat))
  | dropped

def Thread.locks : Thread → Bool
  | .start | .waits => false
  | .holds | .queries | .fetched _ _ => true

def Shared.fresh (s : Shared) (now : Nat) : Option Returned :=
  s.state.bind fun (config, expires) => if now < expires then some (.found config expires now) else none

/-- The guard of `flight` is dropped with the call. -/
def Shared.ends (s : Shared) (returned : List Returned) : Shared :=
  { s with locked := false, returned := returned ++ s.returned }

def act (s : Shared) : Thread → Choice → Option (Shared × List Thread)
  | .start, .go now =>
    match s.fresh now with
    | some r => some ({ s with returned := r :: s.returned }, [])
    | none => some (s, [.waits])
  | .waits, .go _ => if s.locked then none else some ({ s with locked := true }, [.holds])
  | .waits, .dropped => some (s, [])
  | .holds, .go now =>
    match s.fresh now with
    | some r => some (s.ends [r], [])
    | none => some (s, [.queries])
  | .queries, .answer (some (config, ttl)) => some (s, [.fetched config ttl])
  | .queries, .answer none => some (s.ends [.failed], [])
  | .queries, .dropped => some (s.ends [], [])
  | .fetched config ttl, .go now =>
    some ({ s.ends [.fetched config] with state := some (config, now + max ttl 1000000000) }, [])
  | _, _ => none

def step : Pool Shared Thread → Pool.Event Thread Choice → Option (Pool Shared Thread) := Pool.step (· = .start) act

variable {s s' : Shared} {t : Thread} {c : Choice} {ts rest : List Thread} {r : Returned}

theorem Shared.fresh_found {now : Nat} (h : s.fresh now = some r) :
    ∃ config expires, r = .found config expires now ∧ s.state = some (config, expires) ∧ now < expires := by
  obtain ⟨⟨config, expires⟩, hstate, h⟩ := Option.bind_eq_some_iff.mp h
  dsimp only at h
  split at h
  · next hlt =>
    cases h
    exact ⟨config, expires, rfl, hstate, hlt⟩
  · cases h

/-- The lock is taken and given back by the call that holds it. -/
theorem act_locked (hlocked : t.locks = true → s.locked = true) (h : act s t c = some (s', ts)) :
    s'.locked.toNat + t.locks.toNat = s.locked.toNat + ts.countP Thread.locks := by
  unfold act at h
  split at h <;> grind [Thread.locks, Shared.ends]

/-- What a step may return. -/
theorem act_returned (h : act s t c = some (s', ts)) (hr : r ∈ s'.returned) :
    r ∈ s.returned ∨ r = .failed ∨ (∃ config ttl, r = .fetched config ∧ t = .fetched config ttl) ∨
      ∃ config expires now, r = .found config expires now ∧ s.state = some (config, expires) ∧ now < expires := by
  unfold act at h
  split at h <;> grind [Shared.fresh_found, Shared.ends]

/-- The lock is held by one call, or it is free. -/
def Held (s : Shared) (ts : List Thread) : Prop := ts.countP Thread.locks = s.locked.toNat

theorem Held.act (h : Held s (t :: rest)) (hact : act s t c = some (s', ts)) : Held s' (ts ++ rest) := by
  have hheld : rest.countP Thread.locks + t.locks.toNat = s.locked.toNat := by
    rw [← h, countP_cons]
    cases t.locks <;> rfl
  have hone := act_locked (by grind) hact
  rw [Held, countP_append]
  omega

theorem held_run {es : List (Pool.Event Thread Choice)} {p : Pool Shared Thread}
    (h : run step ⟨⟨none, false, []⟩, []⟩ es = some p) : Held p.shared p.threads := by
  have hperm : ∀ s ts us, ts.Perm us → Held s ts → Held s us := fun s ts us hp hts => by
    rw [Held, ← hp.countP_eq]
    exact hts
  have hspawn : ∀ s ts t, decide (t = .start) = true → Held s ts → Held s (t :: ts) := fun s ts t ht hts => by
    rw [Held, countP_cons, hts, of_decide_eq_true ht]
    rfl
  have hstart : Held ⟨none, false, []⟩ [] := rfl
  exact Pool.inv_run hperm hspawn (fun _ _ _ _ _ _ => Held.act) hstart h

end EchCache

end Xhttp.Dns
