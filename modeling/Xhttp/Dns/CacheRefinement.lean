import Xhttp.Dns.Cache
import Xhttp.Lib.TtlLru

/- The DNS cache (`src/dns/cache.rs`) is the ideal cache of `Xhttp.Lib.TtlLru`. The
   ideal cache is read off the queue of uses: the tuples that are current, in order
   (`DnsCache.items`). A tuple that is no longer current has no place in it, so popping
   one changes nothing; the first current one is the least recently used entry. -/
namespace Xhttp.Dns
open Xhttp.Lib List

/-- What the ideal cache stores: the value and when it was stored. -/
abbrev Item := TtlLru.Item CacheKey (CacheValue × Nat)

def CacheEntry.item (key : CacheKey) (e : CacheEntry) : Item := ⟨key, (e.value, e.inserted), e.expires⟩

@[simp] theorem CacheEntry.item_key (key : CacheKey) (e : CacheEntry) : (e.item key).key = key := rfl

@[simp] theorem CacheEntry.item_expires (key : CacheKey) (e : CacheEntry) : (e.item key).expires = e.expires := rfl

/-- The item a tuple of `lru` stands for, if it is current. -/
def Use.item? (entries : AList (fun _ : CacheKey => CacheEntry)) (u : Use) : Option Item :=
  (entries.lookup u.key).bind fun e => if e.use u.key = u then some (e.item u.key) else none

/-- The ideal cache that the code's structures stand for. -/
def DnsCache.items (c : DnsCache) : List Item := c.lru.filterMap (Use.item? c.entries)

/-- A call of the code: what it returns, and the cache afterwards. -/
def DnsCache.call (c : DnsCache) : Call → Option CacheValue × DnsCache
  | .get now key => c.get now key
  | .insert now key value ttl => (none, c.insert now key value ttl)

/-- A call of the ideal cache; the value found is aged for comparison. -/
def idealCall (capacity : Nat) (s : List Item) : Call → Option CacheValue × List Item
  | .get now key =>
    ((TtlLru.get now key s).1.map fun i => i.value.1.aged (now - i.value.2), (TtlLru.get now key s).2)
  | .insert now key value ttl => (none, TtlLru.insert capacity now ⟨key, (value, now), now + ttl⟩ s)

def results {σ : Type} (step : σ → Call → Option CacheValue × σ) : σ → List Call → List (Option CacheValue)
  | _, [] => []
  | s, call :: calls => (step s call).1 :: results step (step s call).2 calls

def Call.now : Call → Nat
  | .get now _ => now
  | .insert now _ _ _ => now

/-! ## Items of a queue -/

/-- The tuples of a queue come in the order of their uses. -/
def Increasing (lru : List Use) : Prop := lru.Pairwise fun u v => u.access < v.access

section
variable {entries entries' : AList (fun _ : CacheKey => CacheEntry)} {lru : List Use} {u : Use} {i : Item}

theorem Use.item?_eq_some_iff : u.item? entries = some i ↔
      ∃ e, entries.lookup u.key = some e ∧ e.use u.key = u ∧ e.item u.key = i := by
  rw [Use.item?, Option.bind_eq_some_iff]
  simp_all

theorem Use.item?_of_not_current (h : ¬ u.Current entries) : u.item? entries = none := by
  cases hi : u.item? entries with
  | none => rfl
  | some i =>
    grind [Use.item?_eq_some_iff, Use.current_iff]

theorem Use.item?_filter {key : CacheKey} :
    (u.item? entries).filter (fun i => i.key ≠ key) = if u.key = key then none else u.item? entries := by
  cases hi : u.item? entries with
  | none => simp
  | some i =>
    obtain ⟨e, -, -, rfl⟩ := Use.item?_eq_some_iff.mp hi
    by_cases hkey : u.key = key <;> simp [Option.filter, hkey]

theorem mem_items_iff (h : Listed entries lru) :
    i ∈ lru.filterMap (Use.item? entries) ↔ ∃ e, entries.lookup i.key = some e ∧ e.item i.key = i := by
  rw [mem_filterMap]
  constructor
  · rintro ⟨u, -, hu⟩
    obtain ⟨e, he, -, rfl⟩ := Use.item?_eq_some_iff.mp hu
    exact ⟨e, he, rfl⟩
  · rintro ⟨e, he, hi⟩
    exact ⟨e.use i.key, h _ e he, Use.item?_eq_some_iff.mpr ⟨e, he, rfl, hi⟩⟩

theorem items_filter (p : Item → Bool) (h : ∀ k, entries'.lookup k = (entries.lookup k).filter fun e => p (e.item k)) :
    lru.filterMap (Use.item? entries') = (lru.filterMap (Use.item? entries)).filter p := by
  rw [filter_filterMap]
  refine filterMap_congr fun u _ => ?_
  rw [Use.item?, Use.item?, h u.key]
  cases entries.lookup u.key with
  | none => rfl
  | some e =>
    by_cases hp : p (e.item u.key) = true
    · by_cases huse : e.use u.key = u
      · simp [Option.filter, hp, huse]
      · simp [Option.filter, hp, huse]
    grind

theorem items_keys_nodup (h : Increasing lru) : ((lru.filterMap (Use.item? entries)).map TtlLru.Item.key).Nodup := by
  rw [List.Nodup, pairwise_map, pairwise_filterMap]
  refine h.imp fun {u v} huv i hi j hj heq => ?_
  obtain ⟨e, he, huse, rfl⟩ := Use.item?_eq_some_iff.mp hi
  obtain ⟨e', he', huse', rfl⟩ := Use.item?_eq_some_iff.mp hj
  have hkey : u.key = v.key := heq
  rw [← hkey, he] at he'
  simp_all

theorem items_length (hlisted : Listed entries lru) (hinc : Increasing lru) :
    (lru.filterMap (Use.item? entries)).length = Map.size entries := by
  have hperm : ((lru.filterMap (Use.item? entries)).map TtlLru.Item.key).Perm entries.keys := by
    refine (perm_ext_iff_of_nodup (items_keys_nodup hinc) entries.nodupKeys).mpr fun k => ?_
    rw [mem_map]
    constructor
    · rintro ⟨i, hi, rfl⟩
      obtain ⟨e, he, -⟩ := (mem_items_iff hlisted).mp hi
      exact Map.mem_of_lookup he
    · intro hk
      obtain ⟨e, he⟩ := Option.isSome_iff_exists.mp (AList.lookup_isSome.mpr (AList.mem_keys.mpr hk))
      exact ⟨e.item k, (mem_items_iff hlisted).mpr ⟨e, he, rfl⟩, rfl⟩
  rw [← length_map (f := TtlLru.Item.key), hperm.length_eq]
  rfl

theorem find_items (h : Listed entries lru) (now : Nat) (k : CacheKey) :
    TtlLru.find k (TtlLru.live now (lru.filterMap (Use.item? entries))) =
      ((entries.lookup k).filter fun e => now < e.expires).map (CacheEntry.item k) := by
  have hmem : ∀ i ∈ TtlLru.live now (lru.filterMap (Use.item? entries)), i.key = k →
      ∃ e, entries.lookup k = some e ∧ now < e.expires ∧ e.item k = i := by
    rintro i hi rfl
    obtain ⟨hi, hlive⟩ := mem_filter.mp hi
    obtain ⟨e, he, hitem⟩ := (mem_items_iff h).mp hi
    rw [← hitem] at hlive
    exact ⟨e, he, of_decide_eq_true hlive, hitem⟩
  cases hfind : TtlLru.find k (TtlLru.live now (lru.filterMap (Use.item? entries))) with
  | some i =>
    obtain ⟨e, he, hlive, hitem⟩ := hmem i (mem_of_find?_eq_some hfind)
      (by simpa using find?_some hfind)
    rw [he]
    simp [Option.filter, hlive, hitem]
  | none =>
    cases he : entries.lookup k with
    | none => rfl
    | some e =>
      by_cases hlive : now < e.expires
      · have hin : e.item k ∈ TtlLru.live now (lru.filterMap (Use.item? entries)) :=
          mem_filter.mpr ⟨(mem_items_iff h).mpr ⟨e, he, rfl⟩, decide_eq_true hlive⟩
        have hne := find?_eq_none.mp hfind _ hin
        simp at hne
      · simp [Option.filter, hlive]

/-! ### Popping, pushing, rebuilding -/

theorem evictLoop_items (capacity : Nat) (lru : List Use) :
    ∀ {entries : AList (fun _ : CacheKey => CacheEntry)}, Listed entries lru → Increasing lru →
      Map.size entries ≤ capacity + 1 →
      (evictLoop capacity lru entries).2.filterMap (Use.item? (evictLoop capacity lru entries).1) =
        if capacity < Map.size entries then (lru.filterMap (Use.item? entries)).tail
        else lru.filterMap (Use.item? entries) := by
  induction lru with
  | nil =>
    simp [evictLoop]
  | cons u rest ih =>
    intro entries hlisted hinc hsize
    by_cases hfull : capacity < Map.size entries
    · obtain ⟨hfirst, hinc'⟩ := pairwise_cons.mp hinc
      rw [evictLoop, if_pos hfull, if_pos hfull]
      have hpop := hlisted.pop
      by_cases hcur : u.Current entries
      · -- the entry goes; the other tuples of its key are older uses
        obtain ⟨e, he, huse⟩ := Use.current_iff.mp hcur
        have hmem : u.key ∈ entries := Map.mem_of_lookup he
        have hroom : Map.size (entries.erase u.key) ≤ capacity := by
          have := Map.size_erase_of_mem hmem
          omega
        have hhead : u.item? entries = some (e.item u.key) :=
          Use.item?_eq_some_iff.mpr ⟨e, he, huse, rfl⟩
        rw [if_pos hcur, evictLoop_of_le hroom, filterMap_cons_some hhead, tail_cons]
        refine filterMap_congr fun v hv => ?_
        by_cases hkey : v.key = u.key
        · have hstale : ¬ v.Current entries := by
            intro hv'
            obtain ⟨e', he', huse'⟩ := Use.current_iff.mp hv'
            rw [hkey, he] at he'
            obtain rfl := Option.some.inj he'
            have hlt := hfirst v hv
            rw [← huse, ← huse', hkey] at hlt
            exact UInt64.lt_irrefl _ hlt
          rw [Use.item?_of_not_current hstale, Use.item?, hkey, AList.lookup_erase]
          rfl
        · rw [Use.item?, Use.item?, AList.lookup_erase_ne hkey]
      · rw [if_neg hcur] at hpop
        rw [if_neg hcur, ih hpop hinc' hsize, if_pos hfull, filterMap_cons_none (Use.item?_of_not_current hcur)]
    · rw [evictLoop_of_le (Nat.le_of_not_lt hfull), if_neg hfull]

end

section
variable {c : DnsCache} {key : CacheKey} {entry : CacheEntry} {s : List Item}

theorem clock_succ (h : c.clock.toNat + 1 < 18446744073709551616) : (c.clock + 1).toNat = c.clock.toNat + 1 :=
  Nat.mod_eq_of_lt h

/-- The queue of uses is in order, and no use is later than the clock. -/
structure DnsCache.Ordered (c : DnsCache) : Prop where
  increasing : Increasing c.lru
  past : ∀ u ∈ c.lru, u.access.toNat ≤ c.clock.toNat

theorem DnsCache.Ordered.touch (h : c.Ordered) (hclock : c.clock.toNat + 1 < 18446744073709551616) :
    (c.touch key entry).Ordered := by
  have hsucc := clock_succ hclock
  constructor
  · refine pairwise_append.mpr ⟨h.increasing, pairwise_singleton _ _, fun u hu v hv => ?_⟩
    obtain rfl := mem_singleton.mp hv
    have hle := h.past u hu
    rw [UInt64.lt_iff_toNat_lt, hsucc]
    omega
  · intro u hu
    show u.access.toNat ≤ (c.clock + 1).toNat
    rw [hsucc]
    rcases mem_append.mp hu with hu | hu
    · have hle := h.past u hu
      omega
    · obtain rfl := mem_singleton.mp hu
      exact hsucc.le

theorem items_touch (h : c.Ordered) (hclock : c.clock.toNat + 1 < 18446744073709551616)
    (key : CacheKey) (entry : CacheEntry) :
    (c.touch key entry).items = TtlLru.others key c.items ++ [entry.item key] := by
  have hlast : Use.item? (c.touch key entry).entries ⟨c.clock + 1, entry.version, key⟩ =
      some (entry.item key) := by
    refine Use.item?_eq_some_iff.mpr ⟨{ entry with lastAccess := c.clock + 1 }, ?_, rfl, rfl⟩
    exact AList.lookup_insert _
  have hrest : c.lru.filterMap (Use.item? (c.touch key entry).entries) = TtlLru.others key c.items := by
    rw [DnsCache.items, TtlLru.others, filter_filterMap]
    refine filterMap_congr fun u hu => ?_
    by_cases hkey : u.key = key
    · -- the tuple is from before the use
      have hstale : ¬ u.Current (c.touch key entry).entries := by
        rintro ⟨e, he, -, haccess⟩
        rw [hkey, Option.mem_def, show (c.touch key entry).entries.lookup key = _ from
          AList.lookup_insert _] at he
        obtain rfl := Option.some.inj he
        have hle := h.past u hu
        rw [← haccess, clock_succ hclock] at hle
        omega
      rw [Use.item?_of_not_current hstale, Use.item?_filter, if_pos hkey]
    · have hlookup : (c.touch key entry).entries.lookup u.key = c.entries.lookup u.key :=
        AList.lookup_insert_ne hkey
      rw [Use.item?, hlookup, ← Use.item?, Use.item?_filter, if_neg hkey]
  show (c.lru ++ [(⟨c.clock + 1, entry.version, key⟩ : Use)]).filterMap
    (Use.item? (c.touch key entry).entries) = _
  rw [filterMap_append, hrest, filterMap_cons_some hlast]
  rfl

theorem items_eq_current (c : DnsCache) :
    c.items = (c.lru.filter fun u => u.Current c.entries).filterMap (Use.item? c.entries) := by
  rw [DnsCache.items, filterMap_filter]
  grind [filterMap_congr, Use.item?_of_not_current]

theorem Increasing.inj {lru : List Use} (h : Increasing lru) {u v : Use} (hu : u ∈ lru) (hv : v ∈ lru)
    (haccess : u.access = v.access) : u = v := by
  have hnodup : (lru.map Use.access).Nodup := by
    rw [List.Nodup, pairwise_map]
    exact h.imp UInt64.ne_of_lt
  exact inj_on_of_nodup_map hnodup hu hv haccess

theorem sorted_rebuilt (c : DnsCache) :
    ((c.entries.entries.map fun e => e.2.use e.1).insertionSort fun u v => u.access ≤ v.access).Pairwise
      fun u v => u.access ≤ v.access := by
  exact pairwise_insertionSort (fun u v : Use => u.access ≤ v.access) _

theorem nodup_rebuilt (c : DnsCache) :
    ((c.entries.entries.map fun e => e.2.use e.1).insertionSort fun u v => u.access ≤ v.access).Nodup := by
  rw [(perm_insertionSort _ _).nodup_iff]
  refine List.Nodup.of_map Use.key ?_
  rw [map_map]
  exact c.entries.nodupKeys

/-- A rebuilt queue is the old one without what was not current. -/
theorem rebuilt_eq (hlisted : Listed c.entries c.lru) (hinc : Increasing c.lru) :
    ((c.entries.entries.map fun e => e.2.use e.1).insertionSort fun u v => u.access ≤ v.access) =
      c.lru.filter fun u => u.Current c.entries := by
  have hmem : ∀ u, (u ∈ c.lru.filter fun u => u.Current c.entries) ↔ u.Current c.entries := by
    intro u
    rw [mem_filter]
    constructor
    · exact fun h => by simpa using h.2
    · intro hcur
      obtain ⟨e, he, huse⟩ := Use.current_iff.mp hcur
      exact ⟨huse ▸ hlisted _ e he, by simpa using hcur⟩
  refine List.Pairwise.eq_of_mem_iff (r := fun u v : Use => u.access < v.access) ?_
    (hinc.filter _) fun u => ?_
  · -- sorted, without duplicates, and with one use at a time
    refine ((sorted_rebuilt c).and (nodup_rebuilt c)).imp_of_mem fun {u v} hu hv huv => ?_
    rw [DnsCache.mem_rebuilt, ← hmem] at hu hv
    refine UInt64.lt_of_le_of_ne huv.1 fun haccess => huv.2 ?_
    exact hinc.inj (mem_of_mem_filter hu) (mem_of_mem_filter hv) haccess
  · rw [DnsCache.mem_rebuilt, hmem]

theorem items_compact (hlisted : Listed c.entries c.lru) (hinc : Increasing c.lru) : c.compactLru.items = c.items := by
  rw [DnsCache.items, DnsCache.compactLru_entries, items_eq_current]
  unfold DnsCache.compactLru
  split
  · rw [← items_eq_current]
    rfl
  · rw [← rebuilt_eq hlisted hinc]

theorem DnsCache.Ordered.compact (h : c.Ordered) (hlisted : Listed c.entries c.lru) : c.compactLru.Ordered := by
  unfold DnsCache.compactLru
  split
  · exact h
  · constructor
    · rw [rebuilt_eq hlisted h.increasing]
      exact h.increasing.filter _
    · intro u hu
      have hu' : u ∈ List.insertionSort _ _ := hu
      rw [rebuilt_eq hlisted h.increasing] at hu'
      exact h.past u (mem_of_mem_filter hu')

theorem DnsCache.Ordered.evict (h : c.Ordered) (hlisted : Listed c.entries c.lru) : c.evictLru.Ordered := by
  obtain ⟨-, -, hsuffix, -⟩ := evictLoop_spec c.capacity c.lru hlisted
  exact ⟨h.increasing.sublist hsuffix.sublist, fun u hu => h.past u (hsuffix.subset hu)⟩

theorem items_evict (h : c.Ordered) (hlisted : Listed c.entries c.lru) (hroom : Map.size c.entries ≤ c.capacity + 1) :
    c.evictLru.items = if c.capacity < c.items.length then c.items.tail else c.items := by
  have hlength : c.items.length = Map.size c.entries := items_length hlisted h.increasing
  rw [hlength]
  exact evictLoop_items c.capacity c.lru hlisted h.increasing hroom

/-! ## One call -/

/-- The code's cache stands for the ideal one, as far as it has not expired. -/
structure Simulates (now : Nat) (c : DnsCache) (s : List Item) : Prop where
  coherent : c.Coherent
  enabled : c.disableExpire = false
  ordered : c.Ordered
  items : TtlLru.live now c.items = TtlLru.live now s

theorem Simulates.later {now later : Nat} (h : Simulates now c s) (hle : now ≤ later) :
    Simulates later c s :=
  ⟨h.coherent, h.enabled, h.ordered, by
    rw [← TtlLru.live_live hle c.items, h.items, TtlLru.live_live hle]⟩

theorem items_purge (h : c.Coherent) (henabled : c.disableExpire = false) (now : Nat) :
    (c.purgeExpired now).items = TtlLru.live now c.items := by
  rw [DnsCache.purgeExpired, if_neg (by simp [henabled])]
  exact items_filter _ fun k => purgeLoop_lookup now k c.expiry h.sorted h.timed

theorem purge_aside (henabled : c.disableExpire = false) (now : Nat) :
    (c.purgeExpired now).capacity = c.capacity ∧ (c.purgeExpired now).clock = c.clock ∧
      (c.purgeExpired now).lru = c.lru := by
  rw [DnsCache.purgeExpired, if_neg (by simp [henabled])]
  exact ⟨rfl, rfl, rfl⟩

theorem Simulates.insert {now : Nat} (h : Simulates now c s)
    (hclock : c.clock.toNat + 1 < 18446744073709551616) (key : CacheKey) (value : CacheValue) (ttl : Nat) :
    Simulates now (c.insert now key value ttl) (TtlLru.insert c.capacity now ⟨key, (value, now), now + ttl⟩ s) := by
  obtain ⟨hcapacity, hclock', hlru⟩ := purge_aside h.enabled now
  have hp := h.coherent.purge now
  have hpo : (c.purgeExpired now).Ordered := by
    constructor
    · rw [hlru]
      exact h.ordered.increasing
    · rw [hlru, hclock']
      exact h.ordered.past
  rw [← hclock'] at hclock
  -- the new entry
  have hlisted : Listed ((c.purgeExpired now).put now key value ttl).entries
      ((c.purgeExpired now).put now key value ttl).lru := DnsCache.touch_listed hp.listed
  have hordered : ((c.purgeExpired now).put now key value ttl).Ordered :=
    ⟨(hpo.touch hclock).increasing, (hpo.touch hclock).past⟩
  have hitems : ((c.purgeExpired now).put now key value ttl).items =
      TtlLru.others key (TtlLru.live now s) ++ [⟨key, (value, now), now + ttl⟩] := by
    rw [← h.items, ← items_purge h.coherent h.enabled]
    exact items_touch hpo hclock key _
  -- eviction
  have hroom : Map.size ((c.purgeExpired now).put now key value ttl).entries ≤
      (c.purgeExpired now).capacity + 1 :=
    (Map.size_insert_le _).trans (Nat.succ_le_succ hp.room)
  have hlisted' := (evictLoop_spec (c.purgeExpired now).capacity _ hlisted).1
  have hordered' := hordered.evict hlisted
  have hevict : ((c.purgeExpired now).put now key value ttl).evictLru.items =
      TtlLru.insert c.capacity now ⟨key, (value, now), now + ttl⟩ s := by
    rw [items_evict hordered hlisted hroom, hitems,
      show ((c.purgeExpired now).put now key value ttl).capacity = c.capacity from hcapacity]
    rfl
  refine ⟨h.coherent.insert now key value ttl, ?_, hordered'.compact hlisted', ?_⟩
  · exact (DnsCache.after_disableExpire (.insert now key value ttl)).trans h.enabled
  · rw [DnsCache.insert, items_compact hlisted' hordered'.increasing, hevict]

theorem Simulates.get {now : Nat} (h : Simulates now c s)
    (hclock : c.clock.toNat + 1 < 18446744073709551616) (key : CacheKey) :
    (c.get now key).1 = (TtlLru.get now key s).1.map (fun i => i.value.1.aged (now - i.value.2)) ∧
      Simulates now (c.get now key).2 (TtlLru.get now key s).2 := by
  have hcoherent := h.coherent.get now key
  have henabled : (c.get now key).2.disableExpire = false :=
    (DnsCache.after_disableExpire (.get now key)).trans h.enabled
  have hfind : TtlLru.find key (TtlLru.live now s) =
      ((c.entries.lookup key).filter fun e => now < e.expires).map (CacheEntry.item key) := by
    rw [← h.items]
    exact find_items h.coherent.listed now key
  have hidem : TtlLru.live now (TtlLru.live now s) = TtlLru.live now s :=
    TtlLru.live_live (Nat.le_refl now) s
  cases hlookup : c.entries.lookup key with
  | none =>
    have hget : c.get now key = (none, c) := by rw [DnsCache.get, hlookup]
    rw [hlookup] at hfind
    rw [hget, TtlLru.get, hfind]
    exact ⟨rfl, h.coherent, h.enabled, h.ordered, h.items.trans hidem.symm⟩
  | some e =>
    by_cases hlive : now < e.expires
    · have hget : c.get now key = (some (e.value.aged (now - e.inserted)), (c.touch key e).compactLru) := by
        rw [DnsCache.get, hlookup]
        simp [Nat.not_le.mpr hlive]
      rw [hget] at hcoherent henabled ⊢
      have hfind' : TtlLru.find key (TtlLru.live now s) = some (e.item key) := by
        rw [hfind, hlookup]
        simp [Option.filter, hlive]
      have hlisted : Listed (c.touch key e).entries (c.touch key e).lru :=
        DnsCache.touch_listed h.coherent.listed
      have hordered : (c.touch key e).Ordered := h.ordered.touch hclock
      rw [TtlLru.get, hfind']
      refine ⟨rfl, hcoherent, henabled, hordered.compact hlisted, ?_⟩
      rw [items_compact hlisted hordered.increasing, items_touch h.ordered hclock, TtlLru.live_append,
        TtlLru.live_append, TtlLru.live_others, TtlLru.live_others, h.items, hidem]
    · have hget : c.get now key = (none, { c with entries := c.entries.erase key }) := by
        rw [DnsCache.get, hlookup]
        simp [h.enabled, Nat.not_lt.mp hlive]
      rw [hget] at hcoherent henabled ⊢
      have hfind' : TtlLru.find key (TtlLru.live now s) = none := by
        rw [hfind, hlookup]
        simp [Option.filter, hlive]
      rw [TtlLru.get, hfind']
      refine ⟨rfl, hcoherent, henabled, ⟨h.ordered.increasing, h.ordered.past⟩, ?_⟩
      have herase : DnsCache.items { c with entries := c.entries.erase key } = TtlLru.others key c.items := by
        refine items_filter _ fun k => ?_
        by_cases hk : k = key
        · subst hk
          rw [AList.lookup_erase, hlookup]
          simp [Option.filter]
        · rw [AList.lookup_erase_ne hk]
          cases c.entries.lookup k with
          | none => rfl
          | some e => simp [Option.filter, hk]
      rw [herase, TtlLru.live_others, h.items, TtlLru.others_of_find_none hfind', hidem]

theorem call_clock_le (call : Call) (h : c.clock.toNat + 1 < 18446744073709551616)
    (henabled : c.disableExpire = false) : (c.call call).2.clock.toNat ≤ c.clock.toNat + 1 := by
  cases call with
  | get now key =>
    rw [DnsCache.call, DnsCache.get]
    split
    · exact Nat.le_succ _
    · split
      · exact Nat.le_succ _
      · rw [DnsCache.compactLru_clock]
        exact (clock_succ h).le
  | insert now key value ttl =>
    have hclock := (purge_aside henabled now).2.1
    rw [DnsCache.call, DnsCache.insert, DnsCache.compactLru_clock]
    show ((c.purgeExpired now).clock + 1).toNat ≤ _
    rw [hclock]
    exact (clock_succ h).le

/-- **One call.** -/
theorem Simulates.call {now : Nat} (h : Simulates now c s) (call : Call)
    (hnow : now ≤ call.now) (hclock : c.clock.toNat + 1 < 18446744073709551616) :
    (c.call call).1 = (idealCall c.capacity s call).1 ∧
      Simulates call.now (c.call call).2 (idealCall c.capacity s call).2 := by
  have h' := h.later hnow
  cases call with
  | get now key => exact h'.get hclock key
  | insert now key value ttl => exact ⟨rfl, h'.insert hclock key value ttl⟩

/-- **A run.** -/
theorem Simulates.results (calls : List Call) : ∀ {now : Nat} {c : DnsCache} {s : List Item},
    Simulates now c s → (∀ call ∈ calls, now ≤ call.now) →
      calls.Pairwise (fun a b => a.now ≤ b.now) →
      c.clock.toNat + calls.length < 18446744073709551616 →
      Dns.results DnsCache.call c calls = Dns.results (idealCall c.capacity) s calls := by
  induction calls with
  | nil => exact fun _ _ _ _ => rfl
  | cons call calls ih =>
    intro now c s h hnow hpaced hclock
    obtain ⟨hfirst, hrest⟩ := pairwise_cons.mp hpaced
    rw [length_cons] at hclock
    obtain ⟨hresult, hsim⟩ := h.call call (hnow call mem_cons_self) (by omega)
    have hcapacity : (c.call call).2.capacity = c.capacity := by
      cases call with
      | get now key => exact DnsCache.after_capacity (.get now key)
      | insert now key value ttl => exact DnsCache.after_capacity (.insert now key value ttl)
    have hstep := call_clock_le call (by omega) h.enabled
    rw [Dns.results, Dns.results, hresult, ih hsim hfirst hrest (by omega), hcapacity]

theorem simulates_new (capacity : Nat) : Simulates 0 (.new capacity false) [] :=
  ⟨DnsCache.coherent_new capacity false, rfl, ⟨.nil, nofun⟩, rfl⟩

end

theorem ideal_results_insert_get {capacity : Nat} (hcapacity : 1 ≤ capacity) {now later ttl : Nat}
    {key : CacheKey} {value : CacheValue} (hlater : later < now + ttl) (rest : List Call) :
    ∀ (before : List Call) (s : List Item), (results (idealCall capacity) s
        (before ++ .insert now key value ttl :: .get later key :: rest))[before.length + 1]? =
          some (some (value.aged (later - now))) := by
  intro before
  induction before with
  | nil =>
    intro s
    let i : Item := ⟨key, (value, now), now + ttl⟩
    have hget : (TtlLru.get later i.key (TtlLru.insert capacity now i s)).1 = some i :=
      TtlLru.get_insert_self hcapacity hlater
    show some ((TtlLru.get later i.key (TtlLru.insert capacity now i s)).1.map _) = _
    rw [hget]
    rfl
  | cons call before ih => exact fun s => ih _

/-- **Refinement.** Fewer than 2^64 calls at times that do not decrease are answered as
    the ideal cache answers them, whatever the capacity. A key that was just inserted is
    found. -/
theorem results_eq_ideal (capacity : Nat) (hcapacity : 1 ≤ capacity) (calls : List Call)
    (hpaced : calls.Pairwise fun a b => a.now ≤ b.now) (hfew : calls.length < 18446744073709551616) :
    results DnsCache.call (.new capacity false) calls = results (idealCall capacity) [] calls ∧
    ∀ before now key value ttl later rest,
      calls = before ++ .insert now key value ttl :: .get later key :: rest → later < now + ttl →
      (results DnsCache.call (.new capacity false) calls)[before.length + 1]? =
        some (some (value.aged (later - now))) := by
  have heq := (simulates_new capacity).results calls (fun _ _ => Nat.zero_le _) hpaced
    (by simpa [DnsCache.new] using hfew)
  refine ⟨heq, fun before now key value ttl later rest hcalls hlater => ?_⟩
  rw [heq, hcalls]
  exact ideal_results_insert_get hcapacity hlater rest before []

/-- The keys `a`, `b` and `c` in a cache for two: `b` is evicted, and `a` expires. -/
def threeKeys : List Call :=
  [.insert 0 (.ech ['a']) (.addresses []) 5, .insert 1 (.ech ['b']) (.addresses []) 5,
   .get 2 (.ech ['a']), .insert 3 (.ech ['c']) (.wire [7]) 5, .get 3 (.ech ['c']), .get 4 (.ech ['b']),
   .get 4 (.ech ['a']), .get 5 (.ech ['a'])]

theorem results_eq_ideal_three_keys :
    results DnsCache.call (.new 2 false) threeKeys = results (idealCall 2) [] threeKeys ∧
      results (idealCall 2) [] threeKeys =
        [none, none, some (.addresses []), none, some (.wire [7]), none, some (.addresses []), none] :=
  ⟨(results_eq_ideal 2 (by decide) threeKeys (by decide) (by decide)).1, by decide⟩

end Xhttp.Dns
