import Mathlib.Data.List.Sort
import Xhttp.Dns.Message
import Xhttp.Lib.Map
import Xhttp.Vless.Handshake

/- The DNS cache (`src/dns/cache.rs`): a map of entries, a heap of their expiry times and a queue of their uses. A tuple
   that no longer speaks of the entry as it is stays there until it comes up and is skipped, and the queue is rebuilt
   when it has grown too long. At all times, also when the clock of uses wraps around, every entry has its tuple in the
   heap and in the queue, and there are never more entries than the capacity (`Coherent`).

   `Instant` and `Duration` are nanoseconds. The heap is the list of its elements in the order they are popped. -/
namespace Xhttp.Dns
open Xhttp.Lib Xhttp.Vless List

inductive CacheKey where
  | lookup (name : Str) (qtype : UInt16) (server : Option Str) (clientSubnet : Option Str)
  | wire (query : Bytes) (server : Str)
  | ech (name : Str)
  deriving DecidableEq, Ord

inductive CacheValue where
  | addresses (addresses : List IpAddr)
  | wire (response : Bytes)
  deriving DecidableEq

structure CacheEntry where
  value : CacheValue
  expires : Nat
  inserted : Nat
  version : UInt64
  lastAccess : UInt64
  deriving DecidableEq

/-- An element of `expiry`. -/
structure Expiry where
  expires : Nat
  version : UInt64
  key : CacheKey

/-- An element of `lru`. -/
structure Use where
  access : UInt64
  version : UInt64
  key : CacheKey
  deriving DecidableEq

structure DnsCache where
  entries : AList (fun _ : CacheKey => CacheEntry)
  expiry : List Expiry
  lru : List Use
  capacity : Nat
  clock : UInt64
  disableExpire : Bool

def DnsCache.new (capacity : Nat) (disableExpire : Bool) : DnsCache :=
  { entries := ∅, expiry := [], lru := [], capacity, clock := 0, disableExpire }

/-- The order of tuples: by time, then by version, then by key. -/
def Expiry.before (x y : Expiry) : Prop :=
  x.expires < y.expires ∨ x.expires = y.expires ∧
    (x.version < y.version ∨ x.version = y.version ∧ (compare x.key y.key).isLE = true)

instance : DecidableRel Expiry.before := fun _ _ =>
  inferInstanceAs (Decidable (_ ∨ _ ∧ (_ ∨ _ ∧ _)))

/-- The use that a tuple of `lru` speaks of is the entry's last. -/
def Use.Current (entries : AList (fun _ : CacheKey => CacheEntry)) (u : Use) : Prop :=
  ∃ entry ∈ entries.lookup u.key, entry.version = u.version ∧ entry.lastAccess = u.access

instance (entries : AList (fun _ : CacheKey => CacheEntry)) (u : Use) : Decidable (u.Current entries) :=
  inferInstanceAs (Decidable (∃ entry ∈ entries.lookup u.key, entry.version = u.version ∧ entry.lastAccess = u.access))

/-- The entry a popped tuple of `expiry` takes with it. -/
def Expiry.Ends (now : Nat) (entries : AList (fun _ : CacheKey => CacheEntry)) (x : Expiry) : Prop :=
  ∃ entry ∈ entries.lookup x.key, entry.version = x.version ∧ entry.expires ≤ now

instance (now : Nat) (entries : AList (fun _ : CacheKey => CacheEntry)) (x : Expiry) : Decidable (x.Ends now entries) :=
  inferInstanceAs (Decidable (∃ entry ∈ entries.lookup x.key, entry.version = x.version ∧ entry.expires ≤ now))

def purgeLoop (now : Nat) : List Expiry → AList (fun _ : CacheKey => CacheEntry) →
    AList (fun _ : CacheKey => CacheEntry) × List Expiry
  | [], entries => (entries, [])
  | x :: rest, entries =>
    if x.expires ≤ now then
      purgeLoop now rest (if x.Ends now entries then entries.erase x.key else entries)
    else (entries, x :: rest)

def DnsCache.purgeExpired (c : DnsCache) (now : Nat) : DnsCache :=
  if c.disableExpire then c
  else
    let (entries, expiry) := purgeLoop now c.expiry c.entries
    { c with entries, expiry }

def evictLoop (capacity : Nat) : List Use → AList (fun _ : CacheKey => CacheEntry) →
    AList (fun _ : CacheKey => CacheEntry) × List Use
  | [], entries => (entries, [])
  | u :: rest, entries =>
    if capacity < Map.size entries then
      evictLoop capacity rest (if u.Current entries then entries.erase u.key else entries)
    else (entries, u :: rest)

def DnsCache.evictLru (c : DnsCache) : DnsCache :=
  let (entries, lru) := evictLoop c.capacity c.lru c.entries
  { c with entries, lru }

def CacheEntry.use (key : CacheKey) (entry : CacheEntry) : Use := ⟨entry.lastAccess, entry.version, key⟩

/-- `capacity.saturating_mul(8).max(64)`. -/
def lruLimit (capacity : Nat) : Nat := max (min (capacity * 8) 18446744073709551615) 64

def DnsCache.compactLru (c : DnsCache) : DnsCache :=
  if c.lru.length ≤ lruLimit c.capacity then c
  else
    { c with lru := (c.entries.entries.map fun e => e.2.use e.1).insertionSort
                      fun u v => u.access ≤ v.access }

/-- `elapsed.as_secs().min(u32::MAX as u64) as u32`. -/
def elapsedSecs (elapsed : Nat) : UInt32 := UInt32.ofNat (min (elapsed / 1000000000) 4294967295)

def CacheValue.aged (value : CacheValue) (elapsed : Nat) : CacheValue :=
  match value with
  | .addresses ips => .addresses ips
  | .wire response => .wire (ageResponseTtls response (elapsedSecs elapsed))

/-- The entry is used: a new tuple at the end of `lru`. -/
def DnsCache.touch (c : DnsCache) (key : CacheKey) (entry : CacheEntry) : DnsCache :=
  { c with
    clock := c.clock + 1
    entries := c.entries.insert key { entry with lastAccess := c.clock + 1 }
    lru := c.lru ++ [⟨c.clock + 1, entry.version, key⟩] }

def DnsCache.get (c : DnsCache) (now : Nat) (key : CacheKey) : Option CacheValue × DnsCache :=
  match c.entries.lookup key with
  | none => (none, c)
  | some entry =>
    if c.disableExpire = false ∧ entry.expires ≤ now then
      (none, { c with entries := c.entries.erase key })
    else (some (entry.value.aged (now - entry.inserted)), (c.touch key entry).compactLru)

/-- A new entry under a version of its own, which is also its first use. -/
def DnsCache.put (c : DnsCache) (now : Nat) (key : CacheKey) (value : CacheValue) (ttl : Nat) : DnsCache :=
  { c.touch key { value, expires := now + ttl, inserted := now, version := c.clock + 1,
                  lastAccess := c.clock + 1 } with
    expiry := c.expiry.orderedInsert Expiry.before ⟨now + ttl, c.clock + 1, key⟩ }

def DnsCache.insert (c : DnsCache) (now : Nat) (key : CacheKey) (value : CacheValue) (ttl : Nat) : DnsCache :=
  ((c.purgeExpired now).put now key value ttl).evictLru.compactLru

inductive Call where
  | get (now : Nat) (key : CacheKey)
  | insert (now : Nat) (key : CacheKey) (value : CacheValue) (ttl : Nat)

def DnsCache.after (c : DnsCache) : Call → DnsCache
  | .get now key => (c.get now key).2
  | .insert now key value ttl => c.insert now key value ttl

/-! ## The coupling of the three structures -/

/-- Every entry has the tuple of its last use in the queue. -/
def Listed (entries : AList (fun _ : CacheKey => CacheEntry)) (lru : List Use) : Prop :=
  ∀ k e, entries.lookup k = some e → e.use k ∈ lru

/-- Every entry has the tuple of its expiry in the heap. -/
def Timed (entries : AList (fun _ : CacheKey => CacheEntry)) (expiry : List Expiry) : Prop :=
  ∀ k e, entries.lookup k = some e → ⟨e.expires, e.version, k⟩ ∈ expiry

def Sorted (expiry : List Expiry) : Prop := expiry.Pairwise fun x y => x.expires ≤ y.expires

section
variable {entries : AList (fun _ : CacheKey => CacheEntry)} {lru : List Use}
  {expiry : List Expiry} {now : Nat} {k : CacheKey} {e : CacheEntry}

theorem Use.current_iff {u : Use} : u.Current entries ↔ ∃ e, entries.lookup u.key = some e ∧ e.use u.key = u := by
  constructor
  · rintro ⟨e, he, hversion, haccess⟩
    exact ⟨e, he, by rw [CacheEntry.use, hversion, haccess]⟩
  · rintro ⟨e, he, hu⟩
    refine ⟨e, he, ?_, ?_⟩
    · rw [← hu, CacheEntry.use]
    · rw [← hu, CacheEntry.use]

theorem current_use (h : entries.lookup k = some e) : (e.use k).Current entries :=
  Use.current_iff.mpr ⟨e, h, rfl⟩

/-! ### Popping uses -/

theorem Listed.pop {u : Use} {rest : List Use} (h : Listed entries (u :: rest)) :
    Listed (if u.Current entries then entries.erase u.key else entries) rest := by
  intro k e he
  have hold : entries.lookup k = some e := by
    split at he
    · exact Map.lookup_of_lookup_erase he
    · exact he
  refine (mem_cons.mp (h k e hold)).resolve_left ?_
  rintro rfl
  rw [if_pos (current_use hold)] at he
  simp [CacheEntry.use] at he

theorem evictLoop_of_le {capacity : Nat} (h : Map.size entries ≤ capacity) :
    evictLoop capacity lru entries = (entries, lru) := by
  cases lru with
  | nil => rfl
  | cons u rest => rw [evictLoop, if_neg (by omega)]

theorem evictLoop_spec (capacity : Nat) (lru : List Use) :
    ∀ {entries : AList (fun _ : CacheKey => CacheEntry)}, Listed entries lru →
      Listed (evictLoop capacity lru entries).1 (evictLoop capacity lru entries).2 ∧
      Map.size (evictLoop capacity lru entries).1 ≤ capacity ∧
      (evictLoop capacity lru entries).2 <:+ lru ∧
      ∀ k e, (evictLoop capacity lru entries).1.lookup k = some e → entries.lookup k = some e := by
  induction lru with
  | nil =>
    intro entries h
    refine ⟨h, ?_, suffix_rfl, fun _ _ => id⟩
    -- without tuples there are no entries
    have hnone : ∀ k, entries.lookup k = none := by
      intro k
      cases hk : entries.lookup k with
      | none => rfl
      | some e => exact nomatch h k e hk
    rw [evictLoop, Map.size_eq_zero hnone]
    exact Nat.zero_le _
  | cons u rest ih =>
    intro entries h
    by_cases hsize : capacity < Map.size entries
    · rw [evictLoop, if_pos hsize]
      obtain ⟨hlisted, hle, hsuffix, hsub⟩ := ih h.pop
      grind [suffix_cons, Map.lookup_of_lookup_erase]
    simp_all [evictLoop_of_le, suffix_rfl]

/-! ### Popping expiries -/

/-- The heap loses exactly the tuples whose time has come. -/
theorem purgeLoop_snd (now : Nat) (expiry : List Expiry) :
    ∀ {entries : AList (fun _ : CacheKey => CacheEntry)}, Sorted expiry →
      (purgeLoop now expiry entries).2 = expiry.filter fun x => now < x.expires := by
  induction expiry with
  | nil => exact fun _ => rfl
  | cons x rest ih =>
    intro entries hs
    obtain ⟨hfirst, hrest⟩ := pairwise_cons.mp hs
    by_cases hx : x.expires ≤ now
    · rw [purgeLoop, if_pos hx, ih hrest, filter_cons_of_neg (by simpa using hx)]
    · rw [purgeLoop, if_neg hx]
      refine (filter_eq_self.mpr fun y hy => ?_).symm
      grind

/-- The map loses exactly the entries whose time has come. -/
theorem purgeLoop_lookup (now : Nat) (k : CacheKey) (expiry : List Expiry) :
    ∀ {entries : AList (fun _ : CacheKey => CacheEntry)}, Sorted expiry → Timed entries expiry →
      (purgeLoop now expiry entries).1.lookup k = (entries.lookup k).filter fun e => now < e.expires := by
  induction expiry with
  | nil =>
    intro entries _ ht
    cases hk : entries.lookup k with
    | none => rw [purgeLoop, hk]; rfl
    | some e => exact nomatch ht k e hk
  | cons x rest ih =>
    intro entries hs ht
    obtain ⟨hfirst, hrest⟩ := pairwise_cons.mp hs
    by_cases hx : x.expires ≤ now
    · rw [purgeLoop, if_pos hx]
      -- the popped tuple takes its entry with it, if there is one
      have ht' : Timed (if x.Ends now entries then entries.erase x.key else entries) rest := by
        intro k e he
        have hold : entries.lookup k = some e := by
          split at he
          · exact Map.lookup_of_lookup_erase he
          · exact he
        refine (mem_cons.mp (ht k e hold)).resolve_left ?_
        rintro rfl
        rw [if_pos ⟨e, hold, rfl, hx⟩] at he
        simp at he
      rw [ih hrest ht']
      split
      · next hends =>
        obtain ⟨e, he, -, hexpired⟩ := hends
        by_cases hk : k = x.key
        · grind [AList.lookup_erase, Option.mem_def, Option.filter, Nat.not_lt]
        · rw [AList.lookup_erase_ne hk]
      · rfl
    · rw [purgeLoop, if_neg hx]
      cases hk : entries.lookup k with
      | none => rfl
      | some e =>
        have hlt : now < e.expires := by
          rcases mem_cons.mp (ht k e hk) with heq | hmem
          · have : x.expires = e.expires := by rw [← heq]
            omega
          · have hle := hfirst _ hmem
            simp only at hle
            omega
        simp [Option.filter, hlt]

/-! ### Whole calls -/

theorem sorted_push (x : Expiry) (h : Sorted expiry) : Sorted (expiry.orderedInsert Expiry.before x) := by
  induction expiry with
  | nil => exact pairwise_singleton _ _
  | cons y rest ih =>
    obtain ⟨hfirst, hrest⟩ := pairwise_cons.mp h
    rw [orderedInsert_cons]
    split
    · next hbefore =>
      have hxy : x.expires ≤ y.expires := by
        rcases hbefore with hlt | ⟨heq, -⟩
        · exact Nat.le_of_lt hlt
        · exact Nat.le_of_eq heq
      refine .cons (fun z hz => ?_) h
      grind
    · next hafter =>
      refine .cons (fun z hz => ?_) (ih hrest)
      grind [mem_orderedInsert, Expiry.before]

end

/-- What every call preserves. -/
structure DnsCache.Coherent (c : DnsCache) : Prop where
  listed : Listed c.entries c.lru
  timed : Timed c.entries c.expiry
  sorted : Sorted c.expiry
  room : Map.size c.entries ≤ c.capacity
  short : c.lru.length ≤ max (8 * c.capacity) 64

theorem DnsCache.coherent_new (capacity : Nat) (disableExpire : Bool) :
    (DnsCache.new capacity disableExpire).Coherent :=
  ⟨nofun, nofun, .nil, Nat.zero_le _, Nat.zero_le _⟩

section
variable {c : DnsCache} {now : Nat} {key : CacheKey} {entry : CacheEntry}

theorem DnsCache.Coherent.purge (h : c.Coherent) (now : Nat) : (c.purgeExpired now).Coherent := by
  unfold DnsCache.purgeExpired
  split
  · exact h
  · have hlookup := fun k => purgeLoop_lookup now k c.expiry h.sorted h.timed
    have hsub : ∀ k e, (purgeLoop now c.expiry c.entries).1.lookup k = some e →
        c.entries.lookup k = some e ∧ now < e.expires := by
      intro k e he
      rw [hlookup k, Option.filter_eq_some_iff] at he
      exact ⟨he.1, by simpa using he.2⟩
    refine ⟨fun k e he => h.listed k e (hsub k e he).1, fun k e he => ?_, ?_, ?_, h.short⟩
    · show _ ∈ (purgeLoop now c.expiry c.entries).2
      rw [purgeLoop_snd now c.expiry h.sorted]
      obtain ⟨hold, hlive⟩ := hsub k e he
      exact mem_filter.mpr ⟨h.timed k e hold, by simpa using hlive⟩
    · show Sorted (purgeLoop now c.expiry c.entries).2
      rw [purgeLoop_snd now c.expiry h.sorted]
      exact List.Pairwise.filter _ h.sorted
    · exact (Map.size_le_of_lookup fun k e he => (hsub k e he).1).trans h.room

@[simp] theorem DnsCache.compactLru_entries (c : DnsCache) : c.compactLru.entries = c.entries := by
  unfold DnsCache.compactLru
  split <;> rfl

@[simp] theorem DnsCache.compactLru_expiry (c : DnsCache) : c.compactLru.expiry = c.expiry := by
  unfold DnsCache.compactLru
  split <;> rfl

@[simp] theorem DnsCache.compactLru_capacity (c : DnsCache) : c.compactLru.capacity = c.capacity := by
  unfold DnsCache.compactLru
  split <;> rfl

@[simp] theorem DnsCache.compactLru_clock (c : DnsCache) : c.compactLru.clock = c.clock := by
  unfold DnsCache.compactLru
  split <;> rfl

@[simp] theorem DnsCache.compactLru_disableExpire (c : DnsCache) : c.compactLru.disableExpire = c.disableExpire := by
  unfold DnsCache.compactLru
  split <;> rfl

theorem DnsCache.mem_rebuilt {u : Use} :
    u ∈ (c.entries.entries.map fun e => e.2.use e.1).insertionSort (fun u v => u.access ≤ v.access) ↔
      u.Current c.entries := by
  rw [mem_insertionSort, mem_map, Use.current_iff]
  constructor
  · rintro ⟨⟨k, e⟩, hmem, rfl⟩
    exact ⟨e, AList.mem_lookup_iff.mpr hmem, rfl⟩
  · rintro ⟨e, he, hu⟩
    exact ⟨⟨u.key, e⟩, AList.mem_lookup_iff.mp he, hu⟩

theorem DnsCache.compactLru_listed (h : Listed c.entries c.lru) : Listed c.compactLru.entries c.compactLru.lru := by
  unfold DnsCache.compactLru
  split
  · exact h
  · exact fun k e he => DnsCache.mem_rebuilt.mpr (current_use he)

theorem DnsCache.compactLru_short (h : Map.size c.entries ≤ c.capacity) :
    c.compactLru.lru.length ≤ max (8 * c.capacity) 64 := by
  unfold DnsCache.compactLru
  split
  · next hle =>
    rw [lruLimit] at hle
    omega
  · rw [length_insertionSort, length_map]
    have hsize : c.entries.entries.length = Map.size c.entries := by
      rw [Map.size, AList.keys, List.keys, length_map]
    omega

theorem DnsCache.touch_listed (h : Listed c.entries c.lru) :
    Listed (c.touch key entry).entries (c.touch key entry).lru := by
  intro k e he
  obtain ⟨rfl, rfl⟩ | ⟨-, he⟩ := Map.lookup_insert_cases he
  · exact mem_append_right _ (mem_singleton.mpr rfl)
  · exact mem_append_left _ (h k e he)

theorem DnsCache.Coherent.get (h : c.Coherent) (now : Nat) (key : CacheKey) : (c.get now key).2.Coherent := by
  unfold DnsCache.get
  split
  · exact h
  · next entry hlookup =>
    split
    · -- the entry goes, its tuples stay behind
      have hsub : ∀ k e, (c.entries.erase key).lookup k = some e → c.entries.lookup k = some e :=
        fun k e => Map.lookup_of_lookup_erase
      exact ⟨fun k e he => h.listed k e (hsub k e he), fun k e he => h.timed k e (hsub k e he), h.sorted,
        (Map.size_le_of_lookup hsub).trans h.room, h.short⟩
    · have hroom : Map.size (c.touch key entry).entries ≤ c.capacity := by
        show Map.size (c.entries.insert key _) ≤ c.capacity
        rw [Map.size_insert_of_mem _ (Map.mem_of_lookup hlookup)]
        exact h.room
      refine ⟨DnsCache.compactLru_listed (DnsCache.touch_listed h.listed), ?_, ?_, ?_, ?_⟩
      · rw [DnsCache.compactLru_entries, DnsCache.compactLru_expiry]
        intro k e he
        obtain ⟨rfl, rfl⟩ | ⟨-, he⟩ := Map.lookup_insert_cases he
        · exact h.timed k entry hlookup
        · exact h.timed k e he
      · rw [DnsCache.compactLru_expiry]
        exact h.sorted
      · rw [DnsCache.compactLru_entries, DnsCache.compactLru_capacity]
        exact hroom
      · rw [DnsCache.compactLru_capacity]
        exact DnsCache.compactLru_short hroom

theorem DnsCache.put_timed (value : CacheValue) (ttl : Nat) (h : Timed c.entries c.expiry) :
    Timed (c.put now key value ttl).entries (c.put now key value ttl).expiry := by
  intro k e he
  refine (mem_orderedInsert Expiry.before).mpr ?_
  obtain ⟨rfl, rfl⟩ | ⟨-, he⟩ := Map.lookup_insert_cases he
  · exact Or.inl rfl
  · exact Or.inr (h k e he)

theorem DnsCache.Coherent.insert (h : c.Coherent) (now : Nat) (key : CacheKey) (value : CacheValue)
    (ttl : Nat) : (c.insert now key value ttl).Coherent := by
  have hp := h.purge now
  have hlisted : Listed ((c.purgeExpired now).put now key value ttl).entries
      ((c.purgeExpired now).put now key value ttl).lru :=
    DnsCache.touch_listed hp.listed
  obtain ⟨hlisted', hroom, hsuffix, hsub⟩ :=
    evictLoop_spec (c.purgeExpired now).capacity _ hlisted
  have htimed : Timed ((c.purgeExpired now).put now key value ttl).evictLru.entries
      ((c.purgeExpired now).put now key value ttl).expiry :=
    fun k e he => DnsCache.put_timed value ttl hp.timed k e (hsub k e he)
  refine ⟨DnsCache.compactLru_listed hlisted', ?_, ?_, ?_, ?_⟩
  · rw [DnsCache.insert, DnsCache.compactLru_entries, DnsCache.compactLru_expiry]
    exact htimed
  · rw [DnsCache.insert, DnsCache.compactLru_expiry]
    exact sorted_push _ hp.sorted
  · rw [DnsCache.insert, DnsCache.compactLru_entries, DnsCache.compactLru_capacity]
    exact hroom
  · rw [DnsCache.insert, DnsCache.compactLru_capacity]
    exact DnsCache.compactLru_short hroom

variable {e : CacheEntry}

/-- After an insert there is the new entry, and nothing else that was not there before. -/
theorem DnsCache.Coherent.lookup_insert (h : c.Coherent) {now : Nat} {key k : CacheKey} {value : CacheValue} {ttl : Nat}
    (he : (c.insert now key value ttl).entries.lookup k = some e) :
    (k = key ∧ e.value = value ∧ e.inserted = now ∧ e.expires = now + ttl) ∨
      (k ≠ key ∧ c.entries.lookup k = some e) := by
  have hlisted : Listed ((c.purgeExpired now).put now key value ttl).entries
      ((c.purgeExpired now).put now key value ttl).lru :=
    DnsCache.touch_listed (h.purge now).listed
  have hsub := (evictLoop_spec (c.purgeExpired now).capacity _ hlisted).2.2.2
  rw [DnsCache.insert, DnsCache.compactLru_entries] at he
  obtain ⟨rfl, rfl⟩ | ⟨hk, hput⟩ := Map.lookup_insert_cases (hsub k e he)
  · exact Or.inl ⟨rfl, rfl, rfl, rfl⟩
  · refine Or.inr ⟨hk, ?_⟩
    unfold DnsCache.purgeExpired at hput
    split at hput
    · exact hput
    · rw [show DnsCache.entries _ = (purgeLoop now c.expiry c.entries).1 from rfl,
        purgeLoop_lookup now k c.expiry h.sorted h.timed, Option.filter_eq_some_iff] at hput
      exact hput.1

theorem DnsCache.lookup_get {now : Nat} {key k : CacheKey} (he : (c.get now key).2.entries.lookup k = some e) :
    ∃ e', c.entries.lookup k = some e' ∧ e.value = e'.value ∧ e.inserted = e'.inserted := by
  unfold DnsCache.get at he
  split at he
  · exact ⟨e, he, rfl, rfl⟩
  · next entry hlookup =>
    split at he
    · exact ⟨e, Map.lookup_of_lookup_erase he, rfl, rfl⟩
    · rw [DnsCache.compactLru_entries] at he
      obtain ⟨rfl, rfl⟩ | ⟨-, he⟩ := Map.lookup_insert_cases he
      · exact ⟨entry, hlookup, rfl, rfl⟩
      · exact ⟨e, he, rfl, rfl⟩

theorem DnsCache.Coherent.after (h : c.Coherent) (call : Call) : (c.after call).Coherent := by
  cases call with
  | get now key => exact h.get now key
  | insert now key value ttl => exact h.insert now key value ttl

/-- **Whole runs.** -/
theorem DnsCache.Coherent.foldl_after (calls : List Call) :
    ∀ {c : DnsCache}, c.Coherent → (calls.foldl DnsCache.after c).Coherent := by
  induction calls with
  | nil => exact id
  | cons call calls ih => exact fun h => ih (h.after call)

/-! ### What a call leaves alone -/

theorem DnsCache.after_settings (call : Call) :
    (c.after call).capacity = c.capacity ∧ (c.after call).disableExpire = c.disableExpire := by
  cases call with
  | get now key =>
    rw [DnsCache.after, DnsCache.get]
    split
    · exact ⟨rfl, rfl⟩
    · split
      · exact ⟨rfl, rfl⟩
      · exact ⟨DnsCache.compactLru_capacity _, DnsCache.compactLru_disableExpire _⟩
  | insert now key value ttl =>
    rw [DnsCache.after, DnsCache.insert, DnsCache.compactLru_capacity, DnsCache.compactLru_disableExpire]
    unfold DnsCache.purgeExpired
    split <;> exact ⟨rfl, rfl⟩

@[simp] theorem DnsCache.after_capacity (call : Call) : (c.after call).capacity = c.capacity := (after_settings call).1

@[simp] theorem DnsCache.after_disableExpire (call : Call) : (c.after call).disableExpire = c.disableExpire :=
  (after_settings call).2

end

end Xhttp.Dns
