import Mathlib.Data.List.Basic

/- Conditions built from tests: a condition is the conjunction or the disjunction of others, or a test that holds
   together with one condition out of several sets, and any of these may be inverted. What a test asks is a parameter
   (`Reading`), so one condition can be read in several ways.

   `eval_congr` is for readings that agree on every test. When a reading lies between two others on every test,
   `signed` takes each test the one way or the other, by the number of inversions above it, and bounds the condition
   from below or from above (`eval_signed`). Where the tests on which the outer readings differ all stand under an even
   number of inversions, or all under an odd one (`Polar`), the bounds are the outer readings themselves. -/
namespace Xhttp.Lib.Condition

/-- How the nested conditions of a logical one are joined. -/
inductive Mode where
  | and
  | or
  deriving DecidableEq, Repr

end Condition

/-- A condition. Without a mode it is the test `own`, and one condition out of `sets` if there are
    sets; otherwise its nested conditions are joined. -/
inductive Condition (φ : Type) where
  | node (own : φ) (mode : Option Condition.Mode) (nested : List (Condition φ)) (sets : List (List (Condition φ)))

namespace Condition
variable {φ σ τ υ : Type} {q : φ → Prop} {c : Condition φ}

def own : Condition φ → φ
  | .node own _ _ _ => own

def mode : Condition φ → Option Mode
  | .node _ mode _ _ => mode

def nested : Condition φ → List (Condition φ)
  | .node _ _ nested _ => nested

def sets : Condition φ → List (List (Condition φ))
  | .node _ _ _ sets => sets

/-- A property of conditions holds if it passes from the parts of a condition to the condition. -/
@[elab_as_elim]
theorem induct {P : Condition φ → Prop}
    (node : ∀ own mode nested sets, (∀ c ∈ nested, P c) → (∀ cs ∈ sets, ∀ c ∈ cs, P c) →
      P (.node own mode nested sets)) (c : Condition φ) : P c :=
  @Condition.rec φ P (fun cs => ∀ c ∈ cs, P c) (fun css => ∀ cs ∈ css, ∀ c ∈ cs, P c) node
    nofun (fun _ _ hc hcs => List.forall_mem_cons.mpr ⟨hc, hcs⟩)
    nofun (fun _ _ hcs hcss => List.forall_mem_cons.mpr ⟨hcs, hcss⟩) c

mutual

/-- The tests of a condition and of all its parts. -/
def tests : Condition φ → List φ
  | .node own _ nested sets => own :: (testsAll nested ++ testsSets sets)

def testsAll : List (Condition φ) → List φ
  | [] => []
  | c :: cs => tests c ++ testsAll cs

def testsSets : List (List (Condition φ)) → List φ
  | [] => []
  | cs :: css => testsAll cs ++ testsSets css

end

theorem testsAll_eq : ∀ cs : List (Condition φ), testsAll cs = cs.flatMap tests
  | [] => rfl
  | c :: cs => by rw [testsAll, testsAll_eq cs, List.flatMap_cons]

theorem testsSets_eq : ∀ css : List (List (Condition φ)), testsSets css = css.flatten.flatMap tests
  | [] => rfl
  | cs :: css => by rw [testsSets, testsSets_eq css, testsAll_eq, List.flatten_cons, List.flatMap_append]

section
variable {own : φ} {mode : Option Mode} {nested : List (Condition φ)} {sets : List (List (Condition φ))}
variable (h : ∀ x ∈ tests (.node own mode nested sets), q x)
include h

theorem tests_own : q own := h own List.mem_cons_self

theorem tests_nested : ∀ c ∈ nested, ∀ x ∈ tests c, q x := by
  intro c hc x hx
  refine h x ?_
  rw [tests, testsAll_eq]
  grind

theorem tests_sets : ∀ cs ∈ sets, ∀ c ∈ cs, ∀ x ∈ tests c, q x := by
  intro cs hcs c hc x hx
  refine h x ?_
  rw [tests, testsSets_eq]
  grind [List.mem_cons_of_mem, List.mem_append_right, List.mem_flatten]

end

/-! ## Reading a condition -/

/-- What a test asks of a state, and in which state the nested conditions and the sets are read. -/
structure Reading (φ σ : Type) where
  own : σ → φ → Bool
  part : σ → φ → σ := fun s _ => s
  down : σ → φ → σ
  inverted : φ → Bool

mutual

def eval (r : Reading φ σ) (s : σ) : Condition φ → Bool
  | .node own mode nested sets =>
    let matched :=
      match mode with
      | some .and => evalAll r (r.part s own) nested
      | some .or => evalAny r (r.part s own) nested
      | none => r.own s own && (sets.isEmpty || evalSets r (r.down s own) sets)
    if r.inverted own then !matched else matched

def evalAll (r : Reading φ σ) (s : σ) : List (Condition φ) → Bool
  | [] => true
  | c :: cs => eval r s c && evalAll r s cs

def evalAny (r : Reading φ σ) (s : σ) : List (Condition φ) → Bool
  | [] => false
  | c :: cs => eval r s c || evalAny r s cs

def evalSets (r : Reading φ σ) (s : σ) : List (List (Condition φ)) → Bool
  | [] => false
  | cs :: css => evalAny r s cs || evalSets r s css

end

variable (r : Reading φ σ) (s : σ)

theorem evalAll_eq : ∀ cs : List (Condition φ), evalAll r s cs = cs.all (eval r s)
  | [] => rfl
  | c :: cs => by rw [evalAll, evalAll_eq cs, List.all_cons]

theorem evalAny_eq : ∀ cs : List (Condition φ), evalAny r s cs = cs.any (eval r s)
  | [] => rfl
  | c :: cs => by rw [evalAny, evalAny_eq cs, List.any_cons]

theorem evalSets_eq :
    ∀ css : List (List (Condition φ)), evalSets r s css = css.any fun cs => cs.any (eval r s)
  | [] => rfl
  | cs :: css => by rw [evalSets, evalSets_eq css, evalAny_eq, List.any_cons]

/-- What a condition makes of its test, its nested conditions and the members of its sets, before
    it is inverted. -/
def join (c : Condition φ) (own : Bool) (part member : Condition φ → Bool) : Bool :=
  match c.mode with
  | some .and => c.nested.all part
  | some .or => c.nested.any part
  | none => own && (c.sets.isEmpty || c.sets.any fun cs => cs.any member)

/-- A condition is read through its test and its parts. -/
theorem eval_eq (c : Condition φ) : eval r s c =
      (r.inverted c.own ^^ join c (r.own s c.own) (eval r (r.part s c.own)) (eval r (r.down s c.own))) := by
  obtain ⟨own, mode, nested, sets⟩ := c
  rcases mode with _ | _ | _ <;>
    simp only [eval, evalAll_eq, evalAny_eq, evalSets_eq, join, Condition.own, Condition.mode, Condition.nested,
      Condition.sets] <;>
    cases r.inverted own <;> simp

section
variable {own own' : Bool} {part part' member member' : Condition φ → Bool}

theorem join_mono (hown : c.mode = none → own = true → own' = true)
    (hpart : c.mode ≠ none → ∀ n ∈ c.nested, part n = true → part' n = true)
    (hmember : c.mode = none → ∀ cs ∈ c.sets, ∀ n ∈ cs, member n = true → member' n = true) :
    join c own part member = true → join c own' part' member' = true := by
  obtain ⟨test, mode, nested, sets⟩ := c
  rcases mode with _ | _ | _
  · simp only [join, Condition.mode, Condition.sets, Bool.and_eq_true, Bool.or_eq_true, List.any_eq_true]
    rintro ⟨htest, hempty | ⟨cs, hcs, n, hn, hmatch⟩⟩
    · exact ⟨hown rfl htest, .inl hempty⟩
    · exact ⟨hown rfl htest, .inr ⟨cs, hcs, n, hn, hmember rfl cs hcs n hn hmatch⟩⟩
  · simp_all [join, Condition.mode, Condition.nested, List.all_eq_true]
  grind [join, Condition.mode, Condition.nested, List.any_eq_true]

theorem join_congr (hown : c.mode = none → own = own') (hpart : c.mode ≠ none → ∀ n ∈ c.nested, part n = part' n)
    (hmember : c.mode = none → ∀ cs ∈ c.sets, ∀ n ∈ cs, member n = member' n) :
    join c own part member = join c own' part' member' := by
  rw [Bool.eq_iff_iff]
  constructor
  · exact join_mono (fun hm => (hown hm).symm.trans) (fun hm n hn => (hpart hm n hn).symm.trans)
      fun hm cs hcs n hn => (hmember hm cs hcs n hn).symm.trans
  · exact join_mono (fun hm => (hown hm).trans) (fun hm n hn => (hpart hm n hn).trans)
      fun hm cs hcs n hn => (hmember hm cs hcs n hn).trans

end

/-! ## Comparing readings -/

variable {b : Reading φ τ} {s : σ} {a : Reading φ σ} {p : Reading φ υ}

/-- Readings agree on a condition if a relation between their states makes them agree on its test
    and passes on to its parts. -/
theorem eval_sim {R : Condition φ → σ → τ → Prop} (hinverted : ∀ x, a.inverted x = b.inverted x)
    (hown : ∀ c s t, R c s t → c.mode = none → a.own s c.own = b.own t c.own)
    (hpart : ∀ c s t, R c s t → c.mode ≠ none → ∀ n ∈ c.nested, R n (a.part s c.own) (b.part t c.own))
    (hdown : ∀ c s t, R c s t → c.mode = none → ∀ cs ∈ c.sets, ∀ n ∈ cs, R n (a.down s c.own) (b.down t c.own))
    (c : Condition φ) : ∀ s t, R c s t → eval a s c = eval b t c := by
  induction c using induct with
  | node own mode nested sets hnested hsets =>
    intro s t h
    rw [eval_eq, eval_eq, hinverted]
    congr 1
    exact join_congr (hown _ s t h) (fun hm n hn => hnested n hn _ _ (hpart _ s t h hm n hn))
      fun hm cs hcs n hn => hsets cs hcs n hn _ _ (hdown _ s t h hm cs hcs n hn)

theorem eval_congr {R : σ → τ → Prop} (hinverted : ∀ x, a.inverted x = b.inverted x)
    (hown : ∀ s t x, R s t → q x → a.own s x = b.own t x) (hpart : ∀ s t x, R s t → q x → R (a.part s x) (b.part t x))
    (hdown : ∀ s t x, R s t → q x → R (a.down s x) (b.down t x)) (c : Condition φ)
    (hq : ∀ x ∈ tests c, q x) {t : τ} (h : R s t) : eval a s c = eval b t c := by
  refine eval_sim (R := fun c s t => (∀ x ∈ tests c, q x) ∧ R s t) hinverted ?_ ?_ ?_ c s t ⟨hq, h⟩
  · rintro ⟨own, mode, nested, sets⟩ s t ⟨hq, h⟩ -
    exact hown s t own h (tests_own hq)
  · rintro ⟨own, mode, nested, sets⟩ s t ⟨hq, h⟩ - n hn
    exact ⟨tests_nested hq n hn, hpart s t own h (tests_own hq)⟩
  · rintro ⟨own, mode, nested, sets⟩ s t ⟨hq, h⟩ - cs hcs n hn
    exact ⟨tests_sets hq cs hcs n hn, hdown s t own h (tests_own hq)⟩

/-! ## Bounds -/

/-- Reads a test as `a` does under an even number of inversions and as `p` does under an odd one, if
    the sign is true, and the other way round if it is false. -/
def signed (a : Reading φ σ) (p : Reading φ υ) : Reading φ (Bool × σ × υ) where
  own s x := if s.1 ^^ a.inverted x then a.own s.2.1 x else p.own s.2.2 x
  part s x := (s.1 ^^ a.inverted x, a.part s.2.1 x, p.part s.2.2 x)
  down s x := (s.1 ^^ a.inverted x, a.down s.2.1 x, p.down s.2.2 x)
  inverted := a.inverted

/-- The signed readings bound every reading that is between `a` and `p` on each test. -/
theorem eval_signed {R : σ → τ → υ → Prop} (hinverted : ∀ x, b.inverted x = a.inverted x)
    (hown : ∀ s t u x, R s t u →
      (a.own s x = true → b.own t x = true) ∧ (b.own t x = true → p.own u x = true))
    (hpart : ∀ s t u x, R s t u → R (a.part s x) (b.part t x) (p.part u x))
    (hdown : ∀ s t u x, R s t u → R (a.down s x) (b.down t x) (p.down u x)) (c : Condition φ) : ∀ s t u, R s t u →
      (eval (signed a p) (true, s, u) c = true → eval b t c = true) ∧
        (eval b t c = true → eval (signed a p) (false, s, u) c = true) := by
  induction c using induct with
  | node own mode nested sets hnested hsets =>
    intro s t u h
    have hparts := fun n hn => hnested n hn _ _ _ (hpart s t u own h)
    have hin := fun cs hcs n hn => hsets cs hcs n hn _ _ _ (hdown s t u own h)
    have htest := hown s t u own h
    rw [eval_eq (signed a p), eval_eq (signed a p), eval_eq b, hinverted]
    simp only [signed, Condition.own]
    -- under an inversion the bounds change places
    cases a.inverted own with
    | false =>
      simp only [Bool.xor_false, Bool.false_xor]
      constructor
      · exact join_mono (fun _ => htest.1) (fun _ n hn => (hparts n hn).1) fun _ cs hcs n hn => (hin cs hcs n hn).1
      · exact join_mono (fun _ => htest.2) (fun _ n hn => (hparts n hn).2) fun _ cs hcs n hn => (hin cs hcs n hn).2
    | true =>
      simp only [Bool.xor_true, Bool.true_xor, Bool.not_true, Bool.not_false, Bool.not_eq_true', ← Bool.not_eq_true]
      constructor
      · exact mt (join_mono (fun _ => htest.2) (fun _ n hn => (hparts n hn).2)
          fun _ cs hcs n hn => (hin cs hcs n hn).2)
      · exact mt (join_mono (fun _ => htest.1) (fun _ n hn => (hparts n hn).1)
          fun _ cs hcs n hn => (hin cs hcs n hn).1)

/-- The tests with `q` that are read all stand under an even number of inversions, if `even` is true,
    and under an odd one if it is false. -/
inductive Polar (inverted : φ → Bool) (q : φ → Prop) : Bool → Condition φ → Prop where
  | logical {even own mode nested sets}
      (hnested : ∀ c ∈ nested, Polar inverted q (even ^^ inverted own) c) :
      Polar inverted q even (.node own (some mode) nested sets)
  | test {even own nested sets} (hown : q own → (even ^^ inverted own) = true)
      (hsets : ∀ cs ∈ sets, ∀ c ∈ cs, Polar inverted q (even ^^ inverted own) c) :
      Polar inverted q even (.node own none nested sets)

theorem polar_of_uninverted {inverted : φ → Bool} (c : Condition φ) :
    (∀ x ∈ tests c, inverted x = false) → Polar inverted q true c := by
  induction c using induct with
  | node own mode nested sets hnested hsets =>
    intro h
    have hsign : (true ^^ inverted own) = true := by
      rw [tests_own (q := fun x => inverted x = false) h, Bool.xor_false]
    cases mode with
    | none =>
      refine .test (fun _ => hsign) fun cs hcs c hc => ?_
      rw [hsign]
      exact hsets cs hcs c hc (tests_sets h cs hcs c hc)
    | some mode =>
      refine .logical fun c hc => ?_
      rw [hsign]
      exact hnested c hc (tests_nested h c hc)

variable {R : σ → υ → Prop}
variable (hinverted : ∀ x, p.inverted x = a.inverted x)
variable (hown : ∀ s u x, R s u → ¬ q x → a.own s x = p.own u x)
variable (hpart : ∀ s u x, R s u → R (a.part s x) (p.part u x))
variable (hdown : ∀ s u x, R s u → R (a.down s x) (p.down u x))
include hown hpart hdown

variable {even : Bool} {u : υ}

/-- With the sign of the tests that matter, the signed reading is the first one. -/
theorem signed_of_polar (hpolar : Polar a.inverted q even c)
    (h : R s u) : eval (signed a p) (even, s, u) c = eval a s c := by
  refine eval_sim (R := fun c (x : Bool × σ × υ) s => Polar a.inverted q x.1 c ∧ x.2.1 = s ∧ R s x.2.2) (fun _ => rfl)
    ?_ ?_ ?_ c _ _ ⟨hpolar, rfl, h⟩
  · rintro c ⟨even, s, u⟩ _ ⟨hpolar, rfl, h⟩ hmode
    cases hpolar with
    | logical => cases hmode
    | @test _ own _ _ htest =>
      simp only [signed, Condition.own]
      grind
  · rintro c ⟨even, s, u⟩ _ ⟨hpolar, rfl, h⟩ hmode n hn
    cases hpolar with
    | logical hnested => exact ⟨hnested n hn, rfl, hpart s u _ h⟩
    | test => exact absurd rfl hmode
  · rintro c ⟨even, s, u⟩ _ ⟨hpolar, rfl, h⟩ hmode cs hcs n hn
    cases hpolar with
    | logical => cases hmode
    | test _ hsets => exact ⟨hsets cs hcs n hn, rfl, hdown s u _ h⟩

include hinverted

/-- With the opposite sign it is the second one. -/
theorem signed_of_polar_not (hpolar : Polar a.inverted q even c)
    (h : R s u) : eval (signed a p) (!even, s, u) c = eval p u c := by
  refine eval_sim (R := fun c (x : Bool × σ × υ) u => Polar a.inverted q (!x.1) c ∧ x.2.2 = u ∧ R x.2.1 u)
    (fun x => (hinverted x).symm) ?_ ?_ ?_ c _ _ ⟨by rwa [Bool.not_not], rfl, h⟩
  · rintro c ⟨odd, s, u⟩ _ ⟨hpolar, rfl, h⟩ hmode
    cases hpolar with
    | logical => cases hmode
    | @test _ own _ _ htest =>
      simp only [signed, Condition.own]
      grind
  · rintro c ⟨odd, s, u⟩ _ ⟨hpolar, rfl, h⟩ hmode n hn
    cases hpolar with
    | @logical _ own _ _ _ hnested =>
      refine ⟨?_, rfl, hpart s u _ h⟩
      have := hnested n hn
      rwa [Bool.not_xor] at this
    | test => exact absurd rfl hmode
  · rintro c ⟨odd, s, u⟩ _ ⟨hpolar, rfl, h⟩ hmode cs hcs n hn
    cases hpolar with
    | logical => cases hmode
    | test _ hsets =>
      refine ⟨?_, rfl, hdown s u _ h⟩
      have := hsets cs hcs n hn
      rwa [Bool.not_xor] at this

end Xhttp.Lib.Condition
