import Mathlib.Algebra.Order.BigOperators.Group.List
import Mathlib.Algebra.Order.Group.Nat
import Mathlib.Data.Set.List
import Xhttp.Routing.Matching
import Xhttp.Srs.Reader

/- The domain matcher of a binary rule-set, from the bytes of a stored set of keys to the domains that the compiled rule
   matches.

   sing-box stores an exact name as it is, a suffix that a name and its subdomains have after the marker `\n`, and a
   suffix that only subdomains have, with its dot, after the marker `\r`, all back to front. `domain_matcher` sorts the
   keys into the two fields `domain` and `domain_suffix` of one rule, and a rule matches if all of its fields do:
   `domain_matcher_meaning` says for which sets the rule still matches what some key accepts. -/
namespace Xhttp.Srs
open Xhttp.Lib Xhttp.Routing List

/-! ## Keys -/

/-- A name: something is left of it when case and trailing dots are dropped, and it does not start
    with a marker. -/
structure Name where
  text : Str
  normalized_ne_nil : normalizeDomain text ≠ []
  unmarked : text.head? ≠ some '\r' ∧ text.head? ≠ some '\n'

inductive Key where
  | exact (name : Name)
  | root (name : Name)
  | dot (name : Name)

/-- The key as it is stored, before it is turned around. -/
def Key.text : Key → Str
  | .exact name => name.text
  | .root name => '\n' :: name.text
  | .dot name => '\r' :: '.' :: name.text

def Key.stored (key : Key) : Bytes := (Str.asBytes key.text).reverse

/-- What the key means. Names are compared without regard to case and trailing dots. -/
def Key.Accepts (d : Str) : Key → Prop
  | .exact name => d = normalizeDomain name.text
  | .root name => d = normalizeDomain name.text ∨ '.' :: normalizeDomain name.text <:+ d
  | .dot name => '.' :: normalizeDomain name.text <:+ d ∧ d ≠ '.' :: normalizeDomain name.text

/-- The trie holds these keys. -/
def StoredTrie.Holds (trie : StoredTrie) (keys : List Key) : Prop :=
  ∀ word, Louds.Language trie.nodes word ↔ ∃ key ∈ keys, word = key.stored

theorem Key.text_injective {a b : Key} (h : a.text = b.text) : a = b := by
  have hmarked : ∀ {name : Name} {c : Char} {rest : Str}, name.text = c :: rest → c ≠ '\r' ∧ c ≠ '\n' := by
    intro name c rest hname
    have := name.unmarked
    rw [hname] at this
    exact ⟨fun hc => this.1 (congrArg some hc), fun hc => this.2 (congrArg some hc)⟩
  have hname : ∀ {n m : Name}, n.text = m.text → n = m := by
    rintro ⟨n, _, _⟩ ⟨m, _, _⟩ rfl
    rfl
  cases a with
  | exact n =>
    cases b with
    | exact m => rw [hname h]
    | root m => exact absurd rfl (hmarked h).2
    | dot m => exact absurd rfl (hmarked h).1
  | root n =>
    cases b with
    | exact m => exact absurd rfl (hmarked h.symm).2
    | root m => rw [hname (List.cons.inj h).2]
    | dot m => exact absurd (List.cons.inj h).1 (by decide)
  | dot n =>
    cases b with
    | exact m => exact absurd rfl (hmarked h.symm).1
    | root m => exact absurd (List.cons.inj h).1 (by decide)
    | dot m => rw [hname (List.cons.inj (List.cons.inj h).2).2]

theorem Key.stored_injective {a b : Key} (h : a.stored = b.stored) : a = b :=
  text_injective (Str.asBytes_injective (reverse_injective h))

/-! ## Normal forms of names -/

theorem toAsciiLowercase_normalizeDomain (s : Str) : Str.toAsciiLowercase (normalizeDomain s) = normalizeDomain s :=
  Str.toAsciiLowercase_idem _

theorem endsWith_normalizeDomain (s : Str) : Str.endsWith '.' (normalizeDomain s) = false := by
  have htrim := Str.endsWith_trimEndMatches '.' s
  simp only [Str.endsWith, normalizeDomain, Str.toAsciiLowercase, getLast?_map] at htrim ⊢
  cases hlast : (Str.trimEndMatches '.' s).getLast? with
  | none => rfl
  | some c =>
    rw [hlast] at htrim
    have hc : c ≠ '.' := by simpa using htrim
    rcases (Str.lowercase_char c).2 with hsame | hletter
    · simpa [hsame] using hc
    · have hdot : ('.' : Char).toNat = 46 := rfl
      simp only [Option.map_some, beq_eq_false_iff_ne, ne_eq, Option.some.injEq]
      intro heq
      rw [heq, hdot] at hletter
      omega

variable {s : Str}

theorem normalizeDomain_dot (h : normalizeDomain s ≠ []) : normalizeDomain ('.' :: s) = '.' :: normalizeDomain s := by
  have htrim : Str.trimEndMatches '.' s ≠ [] := fun hnil => h (by rw [normalizeDomain, hnil]; rfl)
  rw [normalizeDomain, Str.trimEndMatches_cons '.' htrim]
  rfl

/-! ## Reading the rule -/

/-- The texts a key adds to the names and to the suffixes of the rule. -/
def Key.fields : Key → List Str × List Str
  | .exact name => ([name.text], [])
  | .root name => ([], [name.text])
  | .dot name => ([], ['.' :: name.text])

theorem addKey_stored (found : List Str × List Str) (key : Key) :
    addKey found key.stored = .ok (found.1 ++ key.fields.1, found.2 ++ key.fields.2) := by
  rw [addKey, Key.stored, reverse_reverse]
  have hutf8 : ∀ s : Str, fromUtf8 (Str.asBytes s) = .ok s := fun s => by
    rw [fromUtf8, Str.fromUtf8_asBytes]
    rfl
  cases key with
  | root name =>
    have htext : Str.asBytes (Key.root name).text = rootMarker :: Str.asBytes name.text := rfl
    rw [htext]
    simp only [or_true, if_true, hutf8, Key.fields, append_nil]
    rfl
  | dot name =>
    have htext : Str.asBytes (Key.dot name).text = dotMarker :: Str.asBytes ('.' :: name.text) := rfl
    rw [htext]
    simp only [true_or, if_true, hutf8, Key.fields, append_nil]
    rfl
  | exact name =>
    have htext : Str.asBytes (Key.exact name).text = Str.asBytes name.text := rfl
    rw [htext]
    cases hbytes : Str.asBytes name.text with
    | nil =>
      have hnil : name.text = [] := Str.asBytes_injective hbytes
      exact absurd (by rw [hnil]; rfl) name.normalized_ne_nil
    | cons b rest =>
      have hfirst : ¬ (b = dotMarker ∨ b = rootMarker) := by
        intro hmarker
        cases htext : name.text with
        | nil => rw [htext] at hbytes; cases hbytes
        | cons c more =>
          have hunmarked := name.unmarked
          rw [htext] at hbytes hunmarked
          have hchar := Str.toNat_of_asBytes hbytes
          rcases hmarker with rfl | rfl
          · exact hunmarked.1 (congrArg some (Char.toNat_inj.mp (hchar (by decide))))
          · exact hunmarked.2 (congrArg some (Char.toNat_inj.mp (hchar (by decide))))
      simp only [if_neg hfirst, ← hbytes, hutf8, Key.fields, append_nil]
      rfl

theorem foldlM_addKey : ∀ (keys : List Key) (found : List Str × List Str), (keys.map Key.stored).foldlM addKey found =
      .ok (found.1 ++ keys.flatMap (fun k => k.fields.1), found.2 ++ keys.flatMap fun k => k.fields.2)
  | [], found => by simp only [map_nil, foldlM_nil, flatMap_nil, append_nil]; rfl
  | key :: keys, found => by
    rw [map_cons, foldlM_cons, addKey_stored]
    show List.foldlM addKey _ _ = _
    rw [foldlM_addKey keys]
    simp only [flatMap_cons, append_assoc]

/-- The payload of a rule-set with one default rule, whose only item is the domain matcher. -/
def matcherPayload (trie : StoredTrie) : Bytes := 1 :: 0 :: 2 :: (trie.bytes ++ [0xff, 0])

variable {keys : List Key}

theorem StoredTrie.Holds.words {trie : StoredTrie} (h : trie.Holds keys) {words : List Bytes}
    (hwords : ∀ word, word ∈ words ↔ Louds.Language trie.nodes word) :
    ∃ found : List Key, found.map Key.stored = words ∧ ∀ key, key ∈ found ↔ key ∈ keys := by
  have hmem : words ∈ Set.range (List.map Key.stored) := by
    rw [Set.range_list_map]
    intro word hword
    obtain ⟨key, -, rfl⟩ := (h word).mp ((hwords word).mp hword)
    exact ⟨key, rfl⟩
  obtain ⟨found, rfl⟩ := hmem
  refine ⟨found, rfl, fun key => ?_⟩
  calc key ∈ found ↔ key.stored ∈ found.map Key.stored := by
        grind [mem_map_of_mem, Key.stored_injective]
    _ ↔ ∃ other ∈ keys, key.stored = other.stored := (hwords _).trans (h _)
    _ ↔ key ∈ keys := by
        grind [Key.stored_injective]

section
variable {escape : Str → Str} {bs : Bytes} {names suffixes : List Str}

theorem readRule_matcher (h : Runs domainMatcher bs (names, suffixes) []) (depth : Nat) :
    Runs (readRule escape (depth + 1)) (0 :: 2 :: (bs ++ [0xff, 0]))
      (.mk { domain := names, domainSuffix := suffixes } []) [] := by
  have hitem : Runs (readItem escape {} 2) bs { domain := names, domainSuffix := suffixes } [] :=
    h.last_bind (Runs.pure _)
  have hend : ∀ rule bound, rule.invert = false → Runs (defaultItems escape (bound + 1) rule) [0xff, 0] rule [] := by
    intro rule bound hrule
    refine (Runs.readU8 0xff).read_bind ?_
    refine (Runs.readU8 0).last_bind ?_
    rw [show ((0 : UInt8) != 0) = rule.invert from hrule.symm]
    exact Runs.pure rule
  have hitems : ∀ bound, Runs (defaultItems escape (bound + 2) {}) (2 :: (bs ++ [0xff, 0]))
      { domain := names, domainSuffix := suffixes } [] := by
    intro bound
    exact hitem.read_bind (hend _ bound rfl)
  intro rest out
  have hmk := fun bound => (hitems bound).last_bind
    (f := fun items => pure (RouteRule.mk items [])) (Runs.pure _)
  exact hmk _ rest out

end

variable {trie : StoredTrie} {d : Str} {c : RouteContext}

/-- The rule that is decoded from a stored set whose keys are read in this order. -/
theorem decodePayload_of_read {found : List Key}
    (hread : Runs succinctKeys trie.bytes (found.map Key.stored) []) (escape : Str → Str) :
    decodePayload escape (matcherPayload trie) =
      .ok [.mk { domain := found.flatMap (·.fields.1), domainSuffix := found.flatMap (·.fields.2) } []] := by
  have hmatcher : Runs domainMatcher trie.bytes
      (found.flatMap (fun k => k.fields.1), found.flatMap fun k => k.fields.2) [] :=
    hread.last_bind (Runs.lift (foldlM_addKey found ([], [])))
  have hone : Runs size [1] 1 [] := size_leb128 (n := 1) (by decide)
  have hrules : Runs (counted (readRule escape ((matcherPayload trie).length + 1))) (matcherPayload trie)
      [.mk { domain := found.flatMap (·.fields.1), domainSuffix := found.flatMap (·.fields.2) } []] [] :=
    hone.read_bind ((readRule_matcher hmatcher _).last_bind ((Runs.pure _).last_bind (Runs.pure _)))
  have hrun := hrules [] []
  rw [append_nil] at hrun
  rw [decodePayload, hrun]

theorem decodePayload_matcher (h : trie.Holds keys) (escape : Str → Str) :
    ∃ names suffixes, decodePayload escape (matcherPayload trie) =
        .ok [.mk { domain := names, domainSuffix := suffixes } []] ∧
      (∀ s, s ∈ names ↔ ∃ key ∈ keys, s ∈ key.fields.1) ∧ ∀ s, s ∈ suffixes ↔ ∃ key ∈ keys, s ∈ key.fields.2 := by
  obtain ⟨words, hread, hwords⟩ := trie.succinctKeys
  obtain ⟨found, rfl, hfound⟩ := h.words hwords
  refine ⟨_, _, decodePayload_of_read hread escape, fun s => ?_, fun s => ?_⟩
  · simp only [mem_flatMap, hfound]
  · simp only [mem_flatMap, hfound]

/-! ## Matching the compiled rule -/

theorem suffixMatches_iff : suffixMatches d s = true ↔ d = s ∨ '.' :: s <:+ d := by
  rw [suffixMatches, Bool.or_eq_true, beq_iff_eq]
  refine or_congr_right ?_
  constructor
  · intro h
    cases hstrip : List.isSuffixOf? s d with
    | none => simp [hstrip] at h
    | some rest =>
      rw [hstrip] at h
      rw [isSuffixOf?_eq_some_iff_append_eq] at hstrip
      obtain ⟨start, rfl⟩ := getLast?_eq_some_iff.mp (beq_iff_eq.mp h)
      exact ⟨start, by rw [← hstrip, append_assoc]; rfl⟩
  · rintro ⟨start, rfl⟩
    have hstrip : List.isSuffixOf? s (start ++ '.' :: s) = some (start ++ ['.']) := by
      rw [isSuffixOf?_eq_some_iff_append_eq, append_assoc]
      rfl
    rw [hstrip, Option.any_some, Str.endsWith, getLast?_concat]
    rfl

def matcherRule (names suffixes : List Str) : CompiledRule :=
  .node { domains := names.map normalizeDomain, suffixes := suffixes.map normalizeDomain } none [] []

theorem compileAll_matcher (crates : Crates) (names suffixes : List Str) :
    CompiledRule.compileAll crates ∅ [.mk { domain := names, domainSuffix := suffixes } []] =
      .ok [matcherRule names suffixes] := rfl

/-- It matches a domain that is in both fields, where a field without entries does not count. -/
theorem matcherRule_matches {names suffixes : List Str} :
    CompiledRule.matches (matcherRule names suffixes) c (some d) = true ↔
      (names = [] ∨ ∃ s ∈ names, normalizeDomain s = d) ∧
        (suffixes = [] ∨ ∃ s ∈ suffixes, d = normalizeDomain s ∨ '.' :: normalizeDomain s <:+ d) := by
  rw [CompiledRule.matches, matcherRule, Condition.eval]
  simp [matching, RuleFields.domainMatches, RuleFields.addressMatches, RuleFields.metadataMatches, matchField, meets,
    clashModeMatches, addressMapMatches, suffixMatches_iff]

/-! ## Which sets keep their meaning -/

/-- A lower-case domain without a trailing dot. -/
def IsDomain (d : Str) : Prop := Str.toAsciiLowercase d = d ∧ Str.endsWith '.' d = false

def Name.normal (name : Name) : Str := normalizeDomain name.text

def Key.name : Key → Name
  | .exact name | .root name | .dot name => name

def Key.isExact : Key → Bool
  | .exact _ => true
  | _ => false

/-- What the rule makes of a suffix: the dot of a suffix for subdomains is taken as part of the name. -/
def Key.SuffixMatches (d : Str) : Key → Prop
  | .exact _ => False
  | .root name => d = name.normal ∨ '.' :: name.normal <:+ d
  | .dot name => d = '.' :: name.normal ∨ '.' :: '.' :: name.normal <:+ d

/-- What the rule matches, in terms of the keys. -/
def Matched (keys : List Key) (d : Str) : Prop :=
  ((∀ key ∈ keys, key.isExact = false) ∨ ∃ key ∈ keys, key.isExact = true ∧ key.name.normal = d) ∧
    ((∀ key ∈ keys, key.isExact = true) ∨ ∃ key ∈ keys, key.SuffixMatches d)

theorem matched_iff {names suffixes : List Str} (hnames : ∀ s, s ∈ names ↔ ∃ key ∈ keys, s ∈ key.fields.1)
    (hsuffixes : ∀ s, s ∈ suffixes ↔ ∃ key ∈ keys, s ∈ key.fields.2) :
    CompiledRule.matches (matcherRule names suffixes) c (some d) = true ↔ Matched keys d := by
  have hfields : ∀ {names : List Str} {fields : Key → List Str}, (∀ s, s ∈ names ↔ ∃ key ∈ keys, s ∈ fields key) →
      (names = [] ↔ ∀ key ∈ keys, fields key = []) ∧
        ∀ p : Str → Prop, (∃ s ∈ names, p s) ↔ ∃ key ∈ keys, ∃ s ∈ fields key, p s := by
    intro names fields h
    refine ⟨?_, fun p => ?_⟩
    · simp only [eq_nil_iff_forall_not_mem, h]
      grind
    · grind
  rw [matcherRule_matches, Matched, (hfields hnames).1, (hfields hnames).2, (hfields hsuffixes).1,
    (hfields hsuffixes).2]
  have hdot := fun name : Name => normalizeDomain_dot name.normalized_ne_nil
  refine and_congr (or_congr ?_ ?_) (or_congr ?_ ?_)
  · refine forall₂_congr fun key _ => ?_
    cases key <;> simp [Key.fields, Key.isExact]
  · refine exists_congr fun key => and_congr_right fun _ => ?_
    cases key <;> simp [Key.fields, Key.isExact, Key.name, Name.normal]
  · refine forall₂_congr fun key _ => ?_
    cases key <;> simp [Key.fields, Key.isExact]
  · refine exists_congr fun key => and_congr_right fun _ => ?_
    cases key <;> simp [Key.fields, Key.SuffixMatches, Name.normal, hdot]

/-- The name is one that a suffix for a name and its subdomains accepts. -/
def Covered (keys : List Key) (name : Name) : Prop := ∃ r, Key.root r ∈ keys ∧ Key.Accepts name.normal (.root r)

/-- Exact names only, or suffixes only with every name under a suffix for subdomains accepted by a suffix
    for a name and its subdomains. -/
def Uniform (keys : List Key) : Prop :=
  keys ≠ [] ∧ ((∀ key ∈ keys, key.isExact = true) ∨
    ((∀ key ∈ keys, key.isExact = false) ∧ ∀ name, Key.dot name ∈ keys → Covered keys name))

theorem accepts_below {r : Name} (h : Key.Accepts s (.root r)) (hd : '.' :: s <:+ d) :
    '.' :: r.normal <:+ d := by
  rcases h with rfl | h
  · exact hd
  · exact (h.trans (suffix_cons '.' s)).trans hd

theorem matched_of_uniform (h : Uniform keys) (d : Str) : Matched keys d ↔ ∃ key ∈ keys, key.Accepts d := by
  obtain ⟨hne, hexact | ⟨hsuffix, hcovered⟩⟩ := h
  · obtain ⟨first, hfirst⟩ := exists_mem_of_ne_nil keys hne
    have hsome : ¬ ∀ key ∈ keys, key.isExact = false := fun hno => by
      have := hno first hfirst
      rw [hexact first hfirst] at this
      cases this
    rw [Matched, or_iff_right hsome, and_iff_left (.inl hexact)]
    refine exists_congr fun key => and_congr_right fun hkey => ?_
    have hkind := hexact key hkey
    cases key with
    | exact name => exact ⟨fun ⟨_, hd⟩ => hd.symm, fun hd => ⟨rfl, hd.symm⟩⟩
    | root | dot => cases hkind
  · obtain ⟨first, hfirst⟩ := exists_mem_of_ne_nil keys hne
    have hsome : ¬ ∀ key ∈ keys, key.isExact = true := fun hall => by
      have := hall first hfirst
      rw [hsuffix first hfirst] at this
      cases this
    rw [Matched, and_iff_right (.inl hsuffix), or_iff_right hsome]
    -- a suffix for a name and its subdomains is matched as it should be, and stands in for those for subdomains
    constructor
    · rintro ⟨key, hkey, hmatch⟩
      cases key with
      | exact => cases hmatch
      | root name => exact ⟨_, hkey, hmatch⟩
      | dot name =>
        obtain ⟨r, hr, hname⟩ := hcovered name hkey
        have hbelow : '.' :: name.normal <:+ d := by
          rcases hmatch with rfl | hd
          · exact suffix_rfl
          · exact (suffix_cons '.' _).trans hd
        exact ⟨_, hr, .inr (accepts_below hname hbelow)⟩
    · rintro ⟨key, hkey, haccepts⟩
      cases key with
      | exact => cases hsuffix _ hkey
      | root name => exact ⟨_, hkey, haccepts⟩
      | dot name =>
        obtain ⟨r, hr, hname⟩ := hcovered name hkey
        exact ⟨_, hr, .inr (accepts_below hname haccepts.1)⟩

/-- A domain below the name, under a label longer than all the names of the keys. -/
def fresh (keys : List Key) (name : Name) : Str :=
  List.replicate ((keys.map fun key => key.name.normal.length).sum + 1) 'x' ++ '.' :: name.normal

section
variable (keys : List Key) (name : Name)

theorem isDomain_fresh : IsDomain (fresh keys name) := by
  constructor
  · have hname := toAsciiLowercase_normalizeDomain name.text
    simp only [Str.toAsciiLowercase] at hname
    simp only [fresh, Name.normal, Str.toAsciiLowercase, map_append, map_replicate, map_cons, hname]
    rfl
  · have hlast := endsWith_normalizeDomain name.text
    have hsome : ('.' :: normalizeDomain name.text).getLast? = (normalizeDomain name.text).getLast? := by
      rw [getLast?_cons, getLast?_eq_getLast_of_ne_nil name.normalized_ne_nil, Option.getD_some]
    rw [Str.endsWith, fresh, Name.normal, getLast?_append, hsome,
      getLast?_eq_getLast_of_ne_nil name.normalized_ne_nil, Option.some_or,
      ← getLast?_eq_getLast_of_ne_nil name.normalized_ne_nil]
    exact hlast

variable {keys name}

/-- It is below a name of the keys only if the name under it is that name or below it. -/
theorem suffix_fresh (h : '.' :: s <:+ fresh keys name) : '.' :: s <:+ '.' :: name.normal := by
  have hdrop :
      ∀ k : Nat, '.' :: s <:+ List.replicate k 'x' ++ '.' :: name.normal → '.' :: s <:+ '.' :: name.normal := by
    intro k
    induction k with
    | zero => exact id
    | succ k ih =>
      grind [suffix_cons_iff, List.cons.inj]
  exact hdrop _ h

theorem length_lt_fresh {key : Key} (hkey : key ∈ keys) : key.name.normal.length + 1 < (fresh keys name).length := by
  have hle := le_sum_of_mem (mem_map_of_mem (f := fun key => key.name.normal.length) hkey)
  rw [fresh, length_append, length_replicate, length_cons]
  omega

theorem accepts_fresh (keys : List Key) {key : Key} (hkey : key.isExact = false) :
    key.Accepts (fresh keys key.name) := by
  have hbelow : '.' :: key.name.normal <:+ fresh keys key.name := suffix_append _ _
  cases key with
  | exact => cases hkey
  | root name => exact .inr hbelow
  | dot name =>
    refine ⟨hbelow, fun heq => ?_⟩
    -- the label in front is not empty
    have := congrArg List.length heq
    simp only [Key.name, fresh, Name.normal, length_append, length_replicate, length_cons] at this
    omega

end

section
variable (h : ∀ d, IsDomain d → (Matched keys d ↔ ∃ key ∈ keys, key.Accepts d))
include h

theorem not_mixed {key : Key} (hkey : key ∈ keys) (hsuffix : key.isExact = false) :
    ∀ other ∈ keys, other.isExact = false := by
  obtain ⟨hnames, -⟩ := (h _ (isDomain_fresh keys key.name)).mpr ⟨key, hkey, accepts_fresh keys hsuffix⟩
  rcases hnames with hall | ⟨other, hother, -, heq⟩
  · exact hall
  · have hlt : other.name.normal.length + 1 < (fresh keys key.name).length := length_lt_fresh hother
    rw [heq] at hlt
    omega

theorem covered_of_matched (hsuffix : ∀ key ∈ keys, key.isExact = false) {name : Name} (hname : Key.dot name ∈ keys) :
    Covered keys name := by
  -- a shorter suffix for subdomains under which the name lies is covered already
  induction hlen : name.normal.length using Nat.strong_induction_on generalizing name with
  | _ n ih =>
    have hmatched : Matched keys (fresh keys name) :=
      (h _ (isDomain_fresh keys name)).mpr ⟨_, hname, accepts_fresh keys (rfl : (Key.dot name).isExact = false)⟩
    rcases hmatched.2 with hall | ⟨key, hkey, hmatch⟩
    · cases (hall _ hname).symm.trans (hsuffix _ hname)
    · have hlt : key.name.normal.length + 1 < (fresh keys name).length := length_lt_fresh hkey
      cases key with
      | exact => cases hmatch
      | root r =>
        rcases hmatch with heq | hbelow
        · rw [heq] at hlt
          exact absurd hlt (by simp [Key.name])
        · refine ⟨r, hkey, ?_⟩
          rcases suffix_cons_iff.mp (suffix_fresh hbelow) with heq | hbelow
          · exact .inl (List.cons.inj heq).2.symm
          · exact .inr hbelow
      | dot m =>
        rcases hmatch with heq | hbelow
        · rw [heq] at hlt
          exact absurd hlt (by simp [Key.name])
        · have hbelow := suffix_fresh hbelow
          have hshort : m.normal.length < n := by
            have := hbelow.length_le
            simp only [length_cons] at this
            omega
          obtain ⟨r, hr, hm⟩ := ih _ hshort hkey rfl
          have hname : '.' :: m.normal <:+ name.normal := by
            rcases suffix_cons_iff.mp hbelow with heq | hbelow
            · exact (List.cons.inj heq).2 ▸ suffix_rfl
            · exact (suffix_cons '.' _).trans hbelow
          exact ⟨r, hr, .inr (accepts_below hm hname)⟩

theorem uniform_of_matched : Uniform keys := by
  refine ⟨?_, ?_⟩
  · rintro rfl
    have hx : Matched [] ['x'] := ⟨.inl nofun, .inl nofun⟩
    obtain ⟨_, hkey, -⟩ := (h ['x'] ⟨rfl, rfl⟩).mp hx
    cases hkey
  · by_cases hexact : ∀ key ∈ keys, key.isExact = true
    · exact .inl hexact
    · push Not at hexact
      obtain ⟨key, hkey, hsuffix⟩ := hexact
      have hall := not_mixed h hkey (Bool.eq_false_of_not_eq_true hsuffix)
      exact .inr ⟨hall, fun name hname => covered_of_matched h hall hname⟩

end

/-- The rule that is read from a stored set matches the domains that some key of it accepts exactly if
    the set is uniform. -/
theorem domain_matcher_meaning {trie : StoredTrie} {keys : List Key} (h : trie.Holds keys) (escape : Str → Str)
    (crates : Crates) (c : RouteContext) :
    ∃ rules rule, decodePayload escape (matcherPayload trie) = .ok rules ∧
      CompiledRule.compileAll crates ∅ rules = .ok [rule] ∧
      ((∀ d, IsDomain d → (rule.matches c (some d) = true ↔ ∃ key ∈ keys, key.Accepts d)) ↔ Uniform keys) := by
  obtain ⟨names, suffixes, hdecode, hnames, hsuffixes⟩ := decodePayload_matcher h escape
  refine ⟨_, _, hdecode, compileAll_matcher crates names suffixes, ?_⟩
  simp only [matched_iff hnames hsuffixes]
  exact ⟨uniform_of_matched, fun huniform d _ => matched_of_uniform huniform d⟩

def exactTrie : StoredTrie where
  reserved := 0
  leaves := [6]
  bitmap := [28]
  nodes := [⟨false, [97, 98]⟩, ⟨true, []⟩, ⟨true, []⟩]
  formed := by decide
  leavesStored := by decide
  bitmapStored := by decide
  leavesLength := by decide
  bitmapLength := by decide
  labelsLength := by decide

def exactKeys : List Key := [.exact ⟨['a'], by decide, by decide⟩, .exact ⟨['b'], by decide, by decide⟩]

/-- What a trie holds can be found out by reading it. -/
theorem holds_of_read (h : (succinctKeys ⟨trie.bytes, []⟩).1 = .ok (keys.map Key.stored)) :
    Runs succinctKeys trie.bytes (keys.map Key.stored) [] ∧ trie.Holds keys := by
  obtain ⟨words, hread, hwords⟩ := trie.succinctKeys
  have hrun := congrArg Prod.fst (hread [] [])
  rw [append_nil, h] at hrun
  obtain rfl : keys.map Key.stored = words := Except.ok.inj hrun
  refine ⟨hread, fun word => ?_⟩
  grind

theorem domain_matcher_meaning_exact :
    exactTrie.Holds exactKeys ∧ ∃ rules rule, decodePayload id (matcherPayload exactTrie) = .ok rules ∧
      CompiledRule.compileAll ⟨fun _ => none, fun _ => none⟩ ∅ rules = .ok [rule] ∧
      ((∀ d, IsDomain d → (rule.matches {} (some d) = true ↔ ∃ key ∈ exactKeys, key.Accepts d)) ↔
        Uniform exactKeys) := by
  have hholds : exactTrie.Holds exactKeys := (holds_of_read rfl).2
  exact ⟨hholds, domain_matcher_meaning hholds id ⟨fun _ => none, fun _ => none⟩ {}⟩

/-- The name `a` and the suffix `b` with its subdomains. -/
def mixedTrie : StoredTrie where
  reserved := 0
  leaves := [10]
  bitmap := [108]
  nodes := [⟨false, [97, 98]⟩, ⟨true, []⟩, ⟨false, [10]⟩, ⟨true, []⟩]
  formed := by decide
  leavesStored := by decide
  bitmapStored := by decide
  leavesLength := by decide
  bitmapLength := by decide
  labelsLength := by decide

def mixedKeys : List Key := [.exact ⟨['a'], by decide, by decide⟩, .root ⟨['b'], by decide, by decide⟩]

/-- The name `a` is in the set, and the rule does not match it: it is not under the suffix `b`. -/
theorem mixed_set_misses : mixedTrie.Holds mixedKeys ∧ IsDomain ['a'] ∧ (∃ key ∈ mixedKeys, key.Accepts ['a']) ∧
    decodePayload id (matcherPayload mixedTrie) = .ok [.mk { domain := [['a']], domainSuffix := [['b']] } []] ∧
      CompiledRule.compileAll ⟨fun _ => none, fun _ => none⟩ ∅ [.mk { domain := [['a']], domainSuffix := [['b']] } []] =
        .ok [matcherRule [['a']] [['b']]] ∧
      (matcherRule [['a']] [['b']]).matches {} (some ['a']) = false := by
  obtain ⟨hread, hholds⟩ : _ ∧ mixedTrie.Holds mixedKeys := holds_of_read rfl
  exact ⟨hholds, ⟨rfl, rfl⟩, ⟨_, mem_cons_self, rfl⟩, decodePayload_of_read hread id, rfl, rfl⟩

end Xhttp.Srs
