import Mathlib.Data.List.Chain
import Xhttp.Lib.Checked
import Xhttp.Lib.Text

/- Groups of outbounds (`Group`, `resolve_grouped_dialer` and `run_url_test` in `src/proxy/mod.rs`, the checks of
   `validate_runtime` in `src/singbox.rs`).

   A group forwards to the member that is selected. Validation asks that every member is an outbound, not that the
   groups below a group come to an end: `dialer_for` gives up after eight (`group_cycle`). The sum of a measured delay
   and the tolerance is one of `u16` (`urltest_overflow`). -/
namespace Xhttp.Proxy.Groups
open Xhttp.Lib List Checked

-- names are compared by their decidable equality
local instance : BEq Str := instBEqOfDecidableEq

structure Outbound where
  type : Str
  tag : Option Str
  outbounds : List Str
  default : Option Str

def Outbound.name (o : Outbound) : Str := o.tag.getD o.type

def Outbound.isGroup (o : Outbound) : Bool := o.type = "selector" ∨ o.type = "urltest"

/-- The first loop over the outbounds; `check` is `validate_outbound`, if an inbound needs one. -/
def collectTags (check : Outbound → Except Failure Unit) : List Outbound → List Str → Except Failure (List Str)
  | [], tags => .ok tags
  | o :: outbounds, tags => do
    bailIf (o.name ∈ tags) ("duplicate outbound tag: " ++ String.ofList o.name)
    check o
    collectTags check outbounds (o.name :: tags)

def checkGroup (tags : List Str) (o : Outbound) : Except Failure Unit := do
  bailIf (o.outbounds = []) (String.ofList o.name ++ " outbound requires at least one member")
  bailIf (∃ d ∈ o.default.toList, d ∉ o.outbounds) (String.ofList o.name ++ " outbound default " ++
    String.ofList (o.default.getD []) ++ " is not a member")
  bailIf (∃ m ∈ o.outbounds, m ∉ tags) (String.ofList o.name ++ " outbound references unknown outbound: " ++
    String.ofList ((o.outbounds.find? (· ∉ tags)).getD []))

def validateOutbounds (check : Outbound → Except Failure Unit) (outbounds : List Outbound) : Except Failure Unit := do
  let tags ← collectTags check outbounds []
  let _ ← (outbounds.filter Outbound.isGroup).mapM (checkGroup tags)
  pure ()

def direct : Outbound := ⟨"direct", none, [], none⟩

/-- The outbound that a tag stands for; there is a direct one in any case. -/
def outboundOf (outbounds : List Outbound) (tag : Str) : Option Outbound := (outbounds ++ [direct]).find? (·.name = tag)

/-- `Group::new`: what is selected at first, which no group of a valid configuration lacks. -/
def initiallySelected (outbounds : List Outbound) (tag : Str) : Str :=
  ((outboundOf outbounds tag).bind fun o => o.default.or o.outbounds.head?).getD []

def select (outbounds : List Outbound) (selected : Str → Str) (call : Str × Str) : Str → Str :=
  if ∃ o ∈ outboundOf outbounds call.1, call.2 ∈ o.outbounds then Function.update selected call.1 call.2 else selected

/-- The loop of `resolve_grouped_dialer`, with the rounds that are left. -/
def resolveGroupedDialer (outbounds : List Outbound) (selected : Str → Str) : Nat → Str → Option Outbound
  | 0, _ => none
  | rounds + 1, current =>
    match outboundOf outbounds current with
    | none => none
    | some o => if o.isGroup then resolveGroupedDialer outbounds selected rounds (selected current) else some o

def dialerFor (outbounds : List Outbound) (selected : Str → Str) (tag : Str) : Option Outbound :=
  resolveGroupedDialer outbounds selected 8 tag

def Refers (outbounds : List Outbound) (tag member : Str) : Prop :=
  ∃ o, outboundOf outbounds tag = some o ∧ o.isGroup = true ∧ member ∈ o.outbounds

section
variable {outbounds : List Outbound} {selected : Str → Str} {check : Outbound → Except Failure Unit}
  {tag m : Str} {o : Outbound}

theorem collectTags_mem {tags found : List Str} (h : collectTags check outbounds tags = .ok found) :
    ∀ t ∈ found, t ∈ tags ∨ ∃ o ∈ outbounds, o.name = t := by
  induction outbounds generalizing tags with
  | nil =>
    cases h
    exact fun t => .inl
  | cons o outbounds ih =>
    simp only [collectTags, bind_ok_iff] at h
    grind

theorem exists_outboundOf (ho : o ∈ outbounds) : ∃ found, outboundOf outbounds o.name = some found := by
  refine Option.isSome_iff_exists.mp (find?_isSome.mpr ⟨o, mem_append_left _ ho, decide_eq_true rfl⟩)

theorem name_of_outboundOf (ho : outboundOf outbounds tag = some o) : o.name = tag := by
  simpa using find?_some ho

theorem mem_of_group (ho : outboundOf outbounds tag = some o) (hgroup : o.isGroup = true) : o ∈ outbounds := by
  rcases mem_append.mp (mem_of_find?_eq_some ho) with hin | hin
  · exact hin
  · rw [mem_singleton.mp hin] at hgroup
    cases hgroup

/-- What validation says of a group: a member is selected at first, and every member is an outbound. -/
theorem validate_group (h : validateOutbounds check outbounds = .ok ()) (ho : outboundOf outbounds tag = some o)
    (hgroup : o.isGroup = true) :
    initiallySelected outbounds tag ∈ o.outbounds ∧
      ∀ m ∈ o.outbounds, ∃ found, outboundOf outbounds m = some found := by
  simp only [validateOutbounds, bind_ok_iff] at h
  obtain ⟨tags, htags, _, hgroups, -⟩ := h
  obtain ⟨u, hu⟩ := mapM_ok_iff_exists.mp ⟨_, hgroups⟩ o (mem_filter.mpr ⟨mem_of_group ho hgroup, hgroup⟩)
  simp only [checkGroup, bind_ok_iff, bailIf_ok_iff] at hu
  obtain ⟨-, hsome, -, hdefault, hknown⟩ := hu
  push Not at hdefault hknown
  refine ⟨?_, fun m hm => ?_⟩
  · rw [initiallySelected, ho, Option.bind_some]
    cases hd : o.default with
    | some d => exact hdefault d (by simp [hd])
    | none =>
      obtain ⟨first, rest, hcons⟩ := exists_cons_of_ne_nil hsome
      simp [hcons]
  · rcases collectTags_mem htags m (hknown m hm) with hm | ⟨o', ho', rfl⟩
    · cases hm
    · exact exists_outboundOf ho'

variable {rounds : Nat}

/-- A search that finds no leaf has gone along so many groups. -/
theorem walk_of_none (hvalid : validateOutbounds check outbounds = .ok ())
    (hsel : ∀ tag o, outboundOf outbounds tag = some o → o.isGroup = true → selected tag ∈ o.outbounds)
    (htag : ∃ found, outboundOf outbounds tag = some found)
    (hnone : ∀ o, resolveGroupedDialer outbounds selected rounds tag = some o → o.isGroup = true) :
    ∃ walk, (tag :: walk).IsChain (Refers outbounds) ∧ walk.length = rounds := by
  induction rounds generalizing tag with
  | zero => exact ⟨[], .singleton _, rfl⟩
  | succ rounds ih =>
    obtain ⟨o, ho⟩ := htag
    simp only [resolveGroupedDialer, ho] at hnone
    by_cases hgroup : o.isGroup = true
    · rw [if_pos hgroup] at hnone
      have hin := hsel tag o ho hgroup
      obtain ⟨walk, hwalk, rfl⟩ := ih ((validate_group hvalid ho hgroup).2 _ hin) hnone
      exact ⟨selected tag :: walk, .cons_cons ⟨o, ho, hgroup, hin⟩ hwalk, rfl⟩
    · rw [if_neg hgroup] at hnone
      exact absurd (hnone o rfl) hgroup

/-- Every call selects a member. -/
theorem select_mem (h : ∀ tag o, outboundOf outbounds tag = some o → o.isGroup = true → selected tag ∈ o.outbounds)
    (calls : List (Str × Str)) (ho : outboundOf outbounds tag = some o) (hgroup : o.isGroup = true) :
    calls.foldl (select outbounds) selected tag ∈ o.outbounds := by
  induction calls generalizing selected with
  | nil => exact h tag o ho hgroup
  | cons call calls ih =>
    refine ih fun tag o ho hgroup => ?_
    rw [select]
    split
    · next hcall =>
      by_cases htag : tag = call.1
      · subst htag
        simpa [ho] using hcall
      · rw [Function.update_of_ne htag]
        exact h tag o ho hgroup
    · exact h tag o ho hgroup

/-- Calls that select along a walk: from where it comes by a group first, so that at least as much of it is left. -/
theorem exists_calls (selected : Str → Str) {walk : List Str} (hwalk : walk.IsChain (Refers outbounds)) :
    ∃ calls : List (Str × Str), ∀ tag m rest, tag :: m :: rest <:+ walk → ∃ rest', rest.length ≤ rest'.length ∧
      calls.foldl (select outbounds) selected tag :: rest' <:+ walk := by
  induction hwalk with
  | nil => exact ⟨[], by simp⟩
  | singleton => exact ⟨[], by simp [suffix_cons_iff]⟩
  | @cons_cons first second rest hrefers hwalk ih =>
    obtain ⟨calls, hcalls⟩ := ih
    obtain ⟨o, ho, -, hin⟩ := hrefers
    refine ⟨calls ++ [(first, second)], fun tag m left hsuffix => ?_⟩
    rw [foldl_append, foldl_cons, foldl_nil, select, if_pos ⟨o, ho, hin⟩]
    by_cases htag : tag = first
    · subst htag
      refine ⟨rest, ?_, by simp⟩
      simpa using hsuffix.length_le
    · rw [Function.update_of_ne htag]
      obtain ⟨rest', hle, hrest'⟩ := hcalls tag m left ((suffix_cons_iff.mp hsuffix).resolve_left (by simp [htag]))
      exact ⟨rest', hle, hrest'.trans (suffix_cons first _)⟩

theorem resolve_along {walk : List Str} (hwalk : walk.IsChain (Refers outbounds))
    (hsel : ∀ tag m rest, tag :: m :: rest <:+ walk → ∃ rest', rest.length ≤ rest'.length ∧
      selected tag :: rest' <:+ walk)
    {rest : List Str} (hrest : tag :: rest <:+ walk) (hrounds : rounds ≤ rest.length) :
    resolveGroupedDialer outbounds selected rounds tag = none := by
  induction rounds generalizing tag rest with
  | zero => rfl
  | succ rounds ih =>
    obtain ⟨m, left, rfl⟩ := exists_cons_of_length_pos (Nat.zero_lt_of_lt hrounds)
    obtain ⟨o, ho, hgroup, -⟩ := (isChain_cons_cons.mp (hwalk.suffix hrest)).1
    obtain ⟨rest', hle, hrest'⟩ := hsel tag m left hrest
    rw [resolveGroupedDialer, ho]
    exact (if_pos hgroup).trans (ih hrest' ((Nat.le_of_succ_le_succ hrounds).trans hle))

/-- **Groups.** Every outbound of a valid configuration leads to a leaf, whatever is selected, exactly if no walk from
    groups to their members goes through eight groups. -/
theorem groups_resolve (hvalid : validateOutbounds check outbounds = .ok ()) :
    (∀ calls : List (Str × Str), ∀ o ∈ outbounds, ∃ leaf, leaf.isGroup = false ∧
      dialerFor outbounds (calls.foldl (select outbounds) (initiallySelected outbounds)) o.name = some leaf) ↔
    ¬∃ walk : List Str, walk.length = 9 ∧ walk.IsChain (Refers outbounds) := by
  constructor
  · rintro hresolve ⟨walk, hlength, hwalk⟩
    obtain ⟨first, rest, rfl⟩ := exists_cons_of_length_eq_add_one hlength
    obtain ⟨calls, hcalls⟩ := exists_calls (initiallySelected outbounds) hwalk
    have hrest : 8 ≤ rest.length := (Nat.succ.inj hlength).ge
    have hnone := resolve_along hwalk hcalls suffix_rfl hrest
    obtain ⟨m, left, rfl⟩ := exists_cons_of_length_pos (Nat.zero_lt_of_lt hrest)
    -- the walk starts at a group, which is one of the outbounds
    obtain ⟨o, ho, hgroup, -⟩ := (isChain_cons_cons.mp hwalk).1
    obtain ⟨leaf, -, hleaf⟩ := hresolve calls o (mem_of_group ho hgroup)
    rw [name_of_outboundOf ho, dialerFor, hnone] at hleaf
    cases hleaf
  · intro hwalk calls o ho
    by_contra hnone
    push Not at hnone
    obtain ⟨walk, hchain, hlength⟩ := walk_of_none hvalid
      (fun _ _ => select_mem (fun _ _ ho hgroup => (validate_group hvalid ho hgroup).1) calls) (exists_outboundOf ho)
      fun leaf hleaf => by_contra fun hgroup => hnone leaf (eq_false_of_ne_true hgroup) hleaf
    exact hwalk ⟨o.name :: walk, by rw [length_cons, hlength], hchain⟩

end

def selector (tag : Str) (members : List Str) : Outbound := ⟨"selector", some tag, members, none⟩

/-- Two groups, each a member of the other. -/
theorem group_cycle : validateOutbounds (fun _ => .ok ()) [selector ['a'] [['b']], selector ['b'] [['a']]] = .ok () ∧
      dialerFor [selector ['a'] [['b']], selector ['b'] [['a']]]
        (initiallySelected [selector ['a'] [['b']], selector ['b'] [['a']]]) ['a'] = none := by
  decide +kernel

/-- A group with another one as a member. -/
def nested : List Outbound :=
  [selector ['a'] [['d'], ['b']], selector ['b'] [['d']], ⟨"direct", some ['d'], [], none⟩]

theorem groups_resolve_nested : ∃ leaf, leaf.isGroup = false ∧
    dialerFor nested ([(['a'], ['b'])].foldl (select nested) (initiallySelected nested)) ['a'] = some leaf := by
  have hvalid : validateOutbounds (fun _ => .ok ()) nested = .ok () := by decide +kernel
  refine (groups_resolve hvalid).mpr ?_ [(['a'], ['b'])] (selector ['a'] [['d'], ['b']]) mem_cons_self
  have hrefers : ∀ {tag m}, Refers nested tag m → tag = ['a'] ∧ m ≠ ['a'] ∨ tag = ['b'] ∧ m = ['d'] := by
    rintro tag m ⟨o, ho, hgroup, hin⟩
    rw [← name_of_outboundOf ho]
    rcases mem_cons.mp (mem_of_group ho hgroup) with rfl | ho
    · exact .inl ⟨rfl, fun hm => absurd (hm ▸ hin) (by decide)⟩
    rcases mem_cons.mp ho with rfl | ho
    · exact .inr ⟨rfl, mem_singleton.mp hin⟩
    · rw [mem_singleton.mp ho] at hgroup
      exact absurd hgroup (by decide)
  rintro ⟨walk, hlength, hwalk⟩
  match walk, hlength, hwalk with
  | _ :: _ :: _ :: _ :: _, _, .cons_cons h₁ (.cons_cons h₂ (.cons_cons h₃ _)) => grind

/-! ## Any map of dialers -/

/-- A group is what it has selected now; `δ` stands for the dialers that connect. -/
inductive Dialer (δ : Type) where
  | leaf (d : δ)
  | group (now : Str)

section
variable {δ : Type} {dialers : Str → Option (Dialer δ)} {tag : Str}

/-- The loop of `resolve_grouped_dialer` over any map, with the rounds that are left. -/
def Dialer.resolve (dialers : Str → Option (Dialer δ)) : Nat → Str → Option (Dialer δ)
  | 0, _ => none
  | rounds + 1, current =>
    match dialers current with
    | none => none
    | some (.group now) => resolve dialers rounds now
    | some (.leaf d) => some (.leaf d)

/-- How the relays come to a dialer, up to the arm of `match` for it. -/
def relayDialer (dialers : Str → Option (Dialer δ)) (tag : Str) : Except Failure δ := do
  match ← okOr (Dialer.resolve dialers 8 tag) (.message ("unknown outbound: " ++ String.ofList tag)) with
  | .leaf d => pure d
  | .group _ => .error .panic

def follow (dialers : Str → Option (Dialer δ)) : Nat → Str → Option Str
  | 0, tag => some tag
  | n + 1, tag =>
    match dialers tag with
    | some (.group now) => follow dialers n now
    | _ => none

theorem resolve_eq_some_iff {found : Dialer δ} : Dialer.resolve dialers rounds tag = some found ↔
    ∃ n < rounds, ∃ last d, follow dialers n tag = some last ∧ dialers last = some (.leaf d) ∧ found = .leaf d := by
  induction rounds generalizing tag with
  | zero => simp [Dialer.resolve]
  | succ rounds ih =>
    rw [Dialer.resolve, Nat.exists_lt_succ_left]
    match h : dialers tag with
    | none => simp [follow, h]
    | some (.leaf d) => simp [follow, h, eq_comm]
    | some (.group now) => simp [follow, h, ih]

theorem resolve_eq_none_iff : Dialer.resolve dialers rounds tag = none ↔
    (∃ n last, follow dialers n tag = some last ∧ dialers last = none) ∨
      ∃ last, follow dialers rounds tag = some last := by
  induction rounds generalizing tag with
  | zero => simp [Dialer.resolve, follow]
  | succ rounds ih =>
    rw [Dialer.resolve, ← Nat.or_exists_add_one]
    match h : dialers tag with
    | none => simp [follow, h]
    | some (.leaf d) => simp [follow, h]
    | some (.group now) => simp [follow, h, ih]

theorem resolveGroupedDialer_eq (outbounds : List Outbound) (selected : Str → Str) (rounds : Nat) (tag : Str) :
    (resolveGroupedDialer outbounds selected rounds tag).map .leaf = Dialer.resolve
    (fun tag => (outboundOf outbounds tag).map
      fun o => if o.isGroup then .group (selected tag) else .leaf o) rounds tag := by
  induction rounds generalizing tag with
  | zero => rfl
  | succ rounds ih =>
    rw [resolveGroupedDialer, Dialer.resolve]
    cases outboundOf outbounds tag with
    | none => rfl
    | some o =>
      by_cases ho : o.isGroup = true
      · simp [ho, ih]
      · simp [ho]

end

/-- **Leaves.** Over any map and any selections, the search returns the dialer that is reached over at most
    seven groups, and nothing exactly if the path leaves the map or goes through more; no relay comes to the
    arm for groups. -/
theorem resolve_yields_leaf {δ : Type} (dialers : Str → Option (Dialer δ)) (tag : Str) :
    (∀ found, Dialer.resolve dialers 8 tag = some found ↔
      ∃ n < 8, ∃ last d, follow dialers n tag = some last ∧ dialers last = some (.leaf d) ∧ found = .leaf d) ∧
    (Dialer.resolve dialers 8 tag = none ↔ (∃ n last, follow dialers n tag = some last ∧ dialers last = none) ∨
      ∃ last, follow dialers 8 tag = some last) ∧
    relayDialer dialers tag ≠ .error .panic := by
  refine ⟨fun found => resolve_eq_some_iff, resolve_eq_none_iff, ?_⟩
  rw [relayDialer]
  cases h : Dialer.resolve dialers 8 tag with
  | none => nofun
  | some found =>
    obtain ⟨n, -, last, d, -, -, rfl⟩ := resolve_eq_some_iff.mp h
    nofun

/-! ## Tests of latency -/

/-- The loop of `run_url_test` over the members and what `probe_delay` returned for each; `delay + tolerance`
    panics when it does not fit in 16 bits. -/
def fastest (tolerance : UInt16) :
    List (Str × Option UInt16) → Option (Str × UInt16) → Except Failure (Option (Str × UInt16))
  | [], best => .ok best
  | (_, none) :: probes, best => fastest tolerance probes best
  | (member, some delay) :: probes, none => fastest tolerance probes (some (member, delay))
  | (member, some delay) :: probes, some best =>
    if delay.toNat + tolerance.toNat < 2 ^ 16 then
      fastest tolerance probes (some (if best.2.toNat ≤ delay.toNat + tolerance.toNat then best else (member, delay)))
    else .error .panic

def runUrlTest (tolerance : UInt16) (probes : List (Str × Option UInt16)) (selected : Str) : Except Failure Str := do
  let best ← fastest tolerance probes none
  match best with
  | some (member, _) => pure (if member ∈ probes.map Prod.fst then member else selected)
  | none => pure selected

/-- The delay of the member is within the tolerance of all delays that were measured. -/
def Within (tolerance : UInt16) (probes : List (Str × Option UInt16)) (best : Str × UInt16) : Prop :=
  (best.1, some best.2) ∈ probes ∧
    ∀ p ∈ probes, ∀ delay, p.2 = some delay → best.2.toNat ≤ delay.toNat + tolerance.toNat

def Fits (tolerance delay : UInt16) : Prop := delay.toNat + tolerance.toNat < 2 ^ 16

section
variable {tolerance : UInt16} {probes : List (Str × Option UInt16)}

theorem fastest_some (seen : List (Str × Option UInt16)) {best : Str × UInt16} (hbest : Within tolerance seen best) :
    ((∀ d ∈ probes.filterMap Prod.snd, Fits tolerance d) →
      ∃ b, fastest tolerance probes (some best) = .ok (some b) ∧ Within tolerance (seen ++ probes) b) ∧
    ((¬∀ d ∈ probes.filterMap Prod.snd, Fits tolerance d) → fastest tolerance probes (some best) = .error .panic) := by
  induction probes generalizing seen best with
  | nil => exact ⟨fun _ => ⟨best, rfl, by rwa [append_nil]⟩, fun h => absurd (by simp) h⟩
  | cons p probes ih =>
    rw [append_cons]
    obtain ⟨member, _ | delay⟩ := p
    · exact ih _ (by grind [Within])
    have hcons : ((member, some delay) :: probes).filterMap Prod.snd = delay :: probes.filterMap Prod.snd := rfl
    rw [fastest, hcons, forall_mem_cons]
    by_cases hfits : delay.toNat + tolerance.toNat < 2 ^ 16
    · rw [if_pos hfits, and_iff_right (show Fits tolerance delay from hfits)]
      exact ih _ (by grind [Within])
    · rw [if_neg hfits]
      exact ⟨fun h => absurd h.1 hfits, fun _ => rfl⟩

theorem fastest_none (seen : List (Str × Option UInt16)) (hseen : ∀ p ∈ seen, p.2 = none)
    (h : probes.filterMap Prod.snd ≠ []) :
    ((∀ d ∈ (probes.filterMap Prod.snd).tail, Fits tolerance d) →
      ∃ b, fastest tolerance probes none = .ok (some b) ∧ Within tolerance (seen ++ probes) b) ∧
    ((¬∀ d ∈ (probes.filterMap Prod.snd).tail, Fits tolerance d) → fastest tolerance probes none = .error .panic) := by
  induction probes generalizing seen with
  | nil => exact absurd rfl h
  | cons p probes ih =>
    rw [append_cons]
    obtain ⟨member, _ | delay⟩ := p
    · exact ih _ (by grind) h
    · exact fastest_some _ (by grind [Within])

end

/-- **Latency.** If a delay was measured, the run ends and the delay of the selected member is within the
    tolerance of all others, exactly if none but the first overflows with the tolerance. -/
theorem urltest_within_tolerance_iff (tolerance : UInt16) (probes : List (Str × Option UInt16)) (selected : Str)
    (h : probes.filterMap Prod.snd ≠ []) :
    (∃ best, runUrlTest tolerance probes selected = .ok best.1 ∧ Within tolerance probes best) ↔
      ∀ d ∈ (probes.filterMap Prod.snd).tail, d.toNat + tolerance.toNat < 2 ^ 16 := by
  by_cases hfits : ∀ d ∈ (probes.filterMap Prod.snd).tail, Fits tolerance d
  · obtain ⟨best, hbest, hwithin⟩ := (fastest_none [] nofun h).1 hfits
    refine iff_of_true ⟨best, ?_, hwithin⟩ hfits
    rw [runUrlTest, hbest]
    exact congrArg Except.ok (if_pos (mem_map_of_mem hwithin.1))
  · refine iff_of_false ?_ hfits
    rintro ⟨best, hrun, -⟩
    rw [runUrlTest, (fastest_none [] nofun h).2 hfits] at hrun
    cases hrun

theorem urltest_within_tolerance_iff_two :
    ∃ best, runUrlTest 50 [(['a'], some 120), (['b'], none), (['c'], some 60)] [] = .ok best.1 ∧
      Within 50 [(['a'], some 120), (['b'], none), (['c'], some 60)] best :=
  (urltest_within_tolerance_iff 50 [(['a'], some 120), (['b'], none), (['c'], some 60)] [] (by simp)).mpr
    (forall_mem_singleton.mpr (by decide))

/-- The second member is as slow as can be measured. -/
theorem urltest_overflow : runUrlTest 50 [(['a'], some 100), (['b'], some 65535)] [] = .error .panic := by
  decide

end Xhttp.Proxy.Groups
