import Mathlib.Data.List.Count
import Xhttp.Dns.Cache

/- How much the DNS cache holds (`src/dns/cache.rs`). `entries` stays within the
   capacity and `lru` is rebuilt when it has become too long, but nothing shortens
   `expiry`: a tuple leaves it only when an insert finds its time has come, long after
   its entry was replaced or evicted, and never if expiry is disabled
   (`heap_outgrows_capacity`). -/
namespace Xhttp.Dns
open Xhttp.Lib List

def DnsCache.held (c : DnsCache) : Nat := Map.size c.entries + c.lru.length + c.expiry.length

/-- An insert that purges the tuples of time `expires`. -/
def Call.reaches (expires : Nat) : Call → Bool
  | .get _ _ => false
  | .insert now _ _ _ => expires ≤ now

/-- The inserts whose time no later insert has reached; with expiry disabled, all. -/
def outstanding (disableExpire : Bool) : List Call → Nat
  | [] => 0
  | .get _ _ :: calls => outstanding disableExpire calls
  | .insert now _ _ ttl :: calls =>
    outstanding disableExpire calls +
      if disableExpire || !calls.any (Call.reaches (now + ttl)) then 1 else 0

/-- The tuple is still there after the calls. -/
def Expiry.stays (disableExpire : Bool) (calls : List Call) (x : Expiry) : Bool :=
  disableExpire || !calls.any (Call.reaches x.expires)

section
variable {c : DnsCache}

theorem get_expiry (now : Nat) (key : CacheKey) : (c.get now key).2.expiry = c.expiry := by
  unfold DnsCache.get
  split
  · rfl
  · split
    · rfl
    · rw [DnsCache.compactLru_expiry]
      rfl

theorem insert_expiry (h : c.Coherent) (now : Nat) (key : CacheKey) (value : CacheValue) (ttl : Nat) :
    ∃ x : Expiry, x.expires = now + ttl ∧
      (c.insert now key value ttl).expiry.Perm (x :: c.expiry.filter fun y => c.disableExpire || now < y.expires) := by
  refine ⟨⟨now + ttl, (c.purgeExpired now).clock + 1, key⟩, rfl, ?_⟩
  have hpurge : (c.purgeExpired now).expiry =
      c.expiry.filter fun y => c.disableExpire || now < y.expires := by
    unfold DnsCache.purgeExpired
    split
    · next hd => simp [hd]
    · next hd =>
      have hsnd : (purgeLoop now c.expiry c.entries).2 = _ := purgeLoop_snd now c.expiry h.sorted
      simpa [hd] using hsnd
  rw [DnsCache.insert, DnsCache.compactLru_expiry, ← hpurge]
  exact perm_orderedInsert Expiry.before _ _

/-- The heap after some calls: what stays of it, and what is outstanding of them. -/
theorem foldl_expiry_length (calls : List Call) : ∀ {c : DnsCache}, c.Coherent →
    (calls.foldl DnsCache.after c).expiry.length =
      c.expiry.countP (Expiry.stays c.disableExpire calls) + outstanding c.disableExpire calls := by
  induction calls with
  | nil =>
    intro c _
    have hall : c.expiry.countP (Expiry.stays c.disableExpire []) = c.expiry.length :=
      countP_eq_length.mpr fun x _ => by simp [Expiry.stays]
    rw [hall]
    rfl
  | cons call calls ih =>
    intro c h
    rw [foldl_cons, ih (h.after call), DnsCache.after_disableExpire]
    cases call with
    | get now key =>
      rw [DnsCache.after, get_expiry]
      rfl
    | insert now key value ttl =>
      obtain ⟨x, hx, hperm⟩ := insert_expiry h now key value ttl
      have hstays : Expiry.stays c.disableExpire (.insert now key value ttl :: calls) = fun y =>
          Expiry.stays c.disableExpire calls y && (c.disableExpire || decide (now < y.expires)) := by
        funext y
        cases c.disableExpire
        · by_cases hy : now < y.expires
          · simp [Expiry.stays, Call.reaches, hy]
          · simp [Expiry.stays, Call.reaches, hy]
        · simp [Expiry.stays]
      rw [DnsCache.after, hperm.countP_eq, countP_cons, countP_filter, hstays, outstanding, ← hx]
      rw [show Expiry.stays c.disableExpire calls x =
        (c.disableExpire || !calls.any (Call.reaches x.expires)) from rfl]
      omega

/-- **The heap.** -/
theorem expiry_length (capacity : Nat) (disableExpire : Bool) (calls : List Call) :
    (calls.foldl DnsCache.after (.new capacity disableExpire)).expiry.length = outstanding disableExpire calls := by
  rw [foldl_expiry_length calls (DnsCache.coherent_new capacity disableExpire)]
  exact Nat.zero_add _

theorem foldl_after_capacity (calls : List Call) :
    ∀ {c : DnsCache}, (calls.foldl DnsCache.after c).capacity = c.capacity := by
  induction calls with
  | nil => exact fun {c} => rfl
  | cons call calls ih => exact fun {c} => ih.trans (DnsCache.after_capacity call)

theorem entries_lru_bounded (capacity : Nat) (disableExpire : Bool) (calls : List Call) :
    Map.size (calls.foldl DnsCache.after (.new capacity disableExpire)).entries ≤ capacity ∧
      (calls.foldl DnsCache.after (.new capacity disableExpire)).lru.length ≤ max (8 * capacity) 64 := by
  have h := (DnsCache.coherent_new capacity disableExpire).foldl_after calls
  have hcap : (calls.foldl DnsCache.after (.new capacity disableExpire)).capacity = capacity :=
    foldl_after_capacity calls
  obtain ⟨-, -, -, hroom, hshort⟩ := h
  rw [hcap] at hroom hshort
  exact ⟨hroom, hshort⟩

end

/-- **Size.** `entries` and `lru` are bounded after all calls. Whatever sequences of calls
    are considered, there is a bound for all that is held that depends on the capacity
    only exactly if there is one for the outstanding inserts. -/
theorem size_bounded_iff (considered : Nat → Bool → List Call → Prop) :
    (∀ capacity disableExpire (calls : List Call),
      Map.size (calls.foldl DnsCache.after (.new capacity disableExpire)).entries ≤ capacity ∧
      (calls.foldl DnsCache.after (.new capacity disableExpire)).lru.length ≤ max (8 * capacity) 64) ∧
    ((∃ bound : Nat → Nat, ∀ capacity disableExpire (calls : List Call), considered capacity disableExpire calls →
        (calls.foldl DnsCache.after (.new capacity disableExpire)).held ≤ bound capacity) ↔
      ∃ bound : Nat → Nat, ∀ capacity disableExpire (calls : List Call), considered capacity disableExpire calls →
        outstanding disableExpire calls ≤ bound capacity) := by
  refine ⟨entries_lru_bounded, ?_, ?_⟩
  · rintro ⟨bound, h⟩
    refine ⟨bound, fun capacity disableExpire calls hcalls => ?_⟩
    rw [← expiry_length capacity disableExpire calls]
    exact (Nat.le_add_left _ _).trans (h capacity disableExpire calls hcalls)
  · rintro ⟨bound, h⟩
    refine ⟨fun capacity => capacity + max (8 * capacity) 64 + bound capacity,
      fun capacity disableExpire calls hcalls => ?_⟩
    obtain ⟨hentries, hlru⟩ := entries_lru_bounded capacity disableExpire calls
    have hexpiry := h capacity disableExpire calls hcalls
    rw [← expiry_length capacity disableExpire calls] at hexpiry
    exact Nat.add_le_add (Nat.add_le_add hentries hlru) hexpiry

theorem outstanding_le_length (disableExpire : Bool) (calls : List Call) :
    outstanding disableExpire calls ≤ calls.length := by
  induction calls with
  | nil => exact Nat.le_refl 0
  | cons call calls ih =>
    cases call with
    | get now key => exact ih.trans (Nat.le_succ _)
    | insert now key value ttl =>
      rw [outstanding, length_cons]
      split <;> omega

theorem size_bounded_three_calls :
    ∃ bound : Nat → Nat, ∀ capacity disableExpire (calls : List Call), calls.length ≤ 3 →
      (calls.foldl DnsCache.after (.new capacity disableExpire)).held ≤ bound capacity :=
  (size_bounded_iff fun _ _ calls => calls.length ≤ 3).2.mpr
    ⟨fun _ => 3, fun _ disableExpire calls h => (outstanding_le_length disableExpire calls).trans h⟩

/-- A key inserted again, for an hour each time. -/
def reinsert : Call := .insert 0 (.ech []) (.addresses []) 3600000000000

theorem outstanding_reinsert (n : Nat) : outstanding false (List.replicate n reinsert) = n := by
  induction n with
  | zero => rfl
  | succ n ih =>
    have hnone : (List.replicate n reinsert).any (Call.reaches (0 + 3600000000000)) = false := by
      rw [any_eq_false]
      intro call hcall
      rw [eq_of_mem_replicate hcall]
      decide
    rw [replicate_succ, reinsert, outstanding, ← reinsert, ih, hnone]
    rfl

/-- Even for a single entry there is no bound. -/
theorem heap_outgrows_capacity :
    ¬ ∃ bound : Nat, ∀ calls : List Call, (calls.foldl DnsCache.after (.new 1 false)).held ≤ bound := by
  rintro ⟨bound, h⟩
  have hle := h (List.replicate (bound + 1) reinsert)
  rw [DnsCache.held, expiry_length, outstanding_reinsert] at hle
  omega

end Xhttp.Dns
