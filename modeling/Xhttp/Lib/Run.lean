import Mathlib.Data.List.Basic

/- Runs of a partial transition function. A component is a `step` that takes a
   state and an event to the next state, or refuses the event (`none`); a run
   feeds it a list of events. `run_inv`, `run_history` and `run_inv_along` are the
   induction rules every invariant of this development goes through: an
   invariant of the state alone, one that also reads the events handled so far,
   and one kept only by steps that meet a condition on the state before them.
   `Reaches` is for the other direction, where a run has to be built. -/
namespace Xhttp.Lib
open List

variable {σ ε : Type}

/-- Feed `es` to the machine, oldest first; `none` if an event is refused. -/
def run (step : σ → ε → Option σ) : σ → List ε → Option σ
  | s, [] => some s
  | s, e :: es => (step s e).bind fun s' => run step s' es

variable {step : σ → ε → Option σ}

@[simp] theorem run_nil (s : σ) : run step s [] = some s := rfl

variable {e : ε} {es : List ε} {s' : σ} {s : σ} {P : σ → ε → Prop}

theorem run_cons_eq_some :
    run step s (e :: es) = some s' ↔ ∃ m, step s e = some m ∧ run step m es = some s' := by
  simp only [run, Option.bind_eq_some_iff]

theorem run_append_eq_some {es' : List ε} : ∀ {s s' : σ},
    run step s (es ++ es') = some s' ↔ ∃ m, run step s es = some m ∧ run step m es' = some s' := by
  induction es with
  | nil => simp
  | cons e es ih =>
    grind [run_cons_eq_some]

/-- An invariant of the state and of the events handled so far, kept by every
    step whose event is allowed by `P`, holds at the end of every run of allowed
    events. -/
theorem run_history (I : List ε → σ → Prop) (P : ε → Prop)
    (hstep : ∀ h s e s', P e → I h s → step s e = some s' → I (h ++ [e]) s') :
    ∀ (es h : List ε) (s s' : σ), (∀ e ∈ es, P e) → I h s → run step s es = some s' →
      I (h ++ es) s'
  | [], h, s, s', _, hI, hr => by
    simp only [run_nil, Option.some.injEq] at hr
    subst hr
    simpa using hI
  | e :: es, h, s, s', hP, hI, hr => by
    obtain ⟨m, hm, hrest⟩ := run_cons_eq_some.mp hr
    have hIm := hstep h s e m (hP e mem_cons_self) hI hm
    have := run_history I P hstep es (h ++ [e]) m s'
      (fun x hx => hP x (mem_cons_of_mem e hx)) hIm hrest
    simpa using this

/-- An invariant of the state kept by every allowed step holds at the end of
    every run of allowed events. -/
theorem run_inv (I : σ → Prop) (P : ε → Prop)
    (hstep : ∀ s e s', P e → I s → step s e = some s' → I s') (hP : ∀ e ∈ es, P e) (hI : I s)
    (hr : run step s es = some s') :
    I s' :=
  run_history (fun _ => I) P (fun _ s e m => hstep s e m) es [] s s' hP hI hr

/-- `P` holds of every event of the run, at the state the event is handled in. -/
def Along (step : σ → ε → Option σ) (P : σ → ε → Prop) : σ → List ε → Prop
  | _, [] => True
  | s, e :: es => P s e ∧ ∀ s', step s e = some s' → Along step P s' es

instance decidableAlong (P : σ → ε → Prop) [∀ s e, Decidable (P s e)] : ∀ s es, Decidable (Along step P s es)
  | _, [] => isTrue trivial
  | s, e :: es =>
    have : Decidable (∀ s', step s e = some s' → Along step P s' es) :=
      match step s e with
      | none => isTrue nofun
      | some m =>
        have := decidableAlong P m es
        decidable_of_iff (Along step P m es) ⟨fun h _ hs => Option.some.inj hs ▸ h, fun h => h m rfl⟩
    inferInstanceAs (Decidable (P s e ∧ _))

theorem along_of_forall : ∀ {es : List ε} (s : σ), (∀ e ∈ es, ∀ s, P s e) → Along step P s es
  | [], _, _ => trivial
  | e :: _, s, h =>
    ⟨h e mem_cons_self s, fun s' _ => along_of_forall s' fun x hx => h x (mem_cons_of_mem e hx)⟩

theorem forall_of_along {P : ε → Prop} : ∀ {es : List ε} {s s' : σ}, Along step (fun _ => P) s es →
    run step s es = some s' → ∀ e ∈ es, P e
  | [], _, _, _, _ => nofun
  | _ :: _, _, _, hP, hr => by
    obtain ⟨m, hm, hrest⟩ := run_cons_eq_some.mp hr
    exact forall_mem_cons.mpr ⟨hP.1, forall_of_along (hP.2 m hm) hrest⟩

theorem Along.and {Q : σ → ε → Prop} : ∀ {es : List ε} {s : σ}, Along step P s es → Along step Q s es →
    Along step (fun s e => P s e ∧ Q s e) s es
  | [], _, _, _ => trivial
  | _ :: _, _, hP, hQ => ⟨⟨hP.1, hQ.1⟩, fun s' h => (hP.2 s' h).and (hQ.2 s' h)⟩

/-- A run along which `P` holds, up to an event: `P` holds before it and of it. -/
theorem Along.of_append {after : List ε} : ∀ {es : List ε} {s m : σ},
    Along step P s (es ++ e :: after) → run step s es = some m → Along step P s es ∧ P m e
  | [], s, m, h, hr => by
    cases hr
    exact ⟨trivial, h.1⟩
  | x :: es, s, m, h, hr => by
    obtain ⟨n, hn, hrest⟩ := run_cons_eq_some.mp hr
    obtain ⟨halong, hP⟩ := Along.of_append (h.2 n hn) hrest
    refine ⟨⟨h.1, fun s' hs' => ?_⟩, hP⟩
    cases hn.symm.trans hs'
    exact halong

/-- An invariant kept by the steps that satisfy `P` holds at the end of every run
    along which `P` holds. -/
theorem run_inv_along (I : σ → Prop) (P : σ → ε → Prop) (hstep : ∀ s e s', P s e → I s → step s e = some s' → I s') :
    ∀ (es : List ε) {s s' : σ}, Along step P s es → I s → run step s es = some s' → I s'
  | [], s, s', _, hI, hr => by
    simp only [run_nil, Option.some.injEq] at hr
    exact hr ▸ hI
  | e :: es, s, s', ⟨hP, hrest⟩, hI, hr => by
    obtain ⟨m, hm, hr'⟩ := run_cons_eq_some.mp hr
    exact run_inv_along I P hstep es (hrest m hm) (hstep s e m hP hI hm) hr'

/-- Where a step keeps `I` exactly when it satisfies `P`, `I` holds in all states of a run
    exactly when `P` holds along it. `J` is what all steps keep. -/
theorem along_iff_forall_states (J I : σ → Prop) (P : σ → ε → Prop) (hJ : ∀ s e s', J s → step s e = some s' → J s')
    (hP : ∀ s e s', J s → I s → step s e = some s' → (P s e ↔ I s')) :
    ∀ {es : List ε} {s s' : σ}, J s → I s → run step s es = some s' →
      (Along step P s es ↔ ∀ es₁ es₂ m, es = es₁ ++ es₂ → run step s es₁ = some m → I m)
  | [], s, s', _, hI, _ => by
    refine iff_of_true trivial fun es₁ es₂ m heq hm => ?_
    simp_all
  | e :: es, s, s', hs, hI, hr => by
    obtain ⟨n, hn, hrest⟩ := run_cons_eq_some.mp hr
    have hstep := hP s e n hs hI hn
    constructor
    · rintro ⟨he, halong⟩ es₁ es₂ m heq hm
      cases es₁ with
      | nil =>
        cases hm
        exact hI
      | cons e' es₁ =>
        cases heq
        obtain ⟨n', hn', hm⟩ := run_cons_eq_some.mp hm
        cases hn.symm.trans hn'
        have hiff := along_iff_forall_states J I P hJ hP (hJ s e n hs hn) (hstep.mp he) hrest
        exact hiff.mp (halong n hn) es₁ es₂ m rfl hm
    · intro hall
      have hnext : I n := hall [e] es n rfl (run_cons_eq_some.mpr ⟨n, hn, rfl⟩)
      refine ⟨hstep.mpr hnext, fun n' hn' => ?_⟩
      cases hn.symm.trans hn'
      refine (along_iff_forall_states J I P hJ hP (hJ s e n hs hn) hnext hrest).mpr ?_
      grind [run_cons_eq_some]

/-- Some run leads from `s` to `s'`. -/
def Reaches (step : σ → ε → Option σ) (s s' : σ) : Prop := ∃ es, run step s es = some s'

theorem Reaches.refl (s : σ) : Reaches step s s := ⟨[], rfl⟩

theorem Reaches.head {m : σ} (h : step s e = some m) (hm : Reaches step m s') : Reaches step s s' := by
  obtain ⟨es, hes⟩ := hm
  exact ⟨e :: es, run_cons_eq_some.mpr ⟨m, h, hes⟩⟩

theorem Reaches.single (h : step s e = some s') : Reaches step s s' :=
  .head h (.refl s')

theorem Reaches.trans {m : σ} (h : Reaches step s m) (hm : Reaches step m s') : Reaches step s s' := by
  obtain ⟨es, hes⟩ := h
  induction es generalizing s with
  | nil =>
    cases hes
    exact hm
  | cons e es ih =>
    obtain ⟨n, hn, hrest⟩ := run_cons_eq_some.mp hes
    exact .head hn (ih hrest)

theorem Reaches.inv {I : σ → Prop} (hstep : ∀ s e s', I s → step s e = some s' → I s')
    (h : Reaches step s s') (hI : I s) : I s' := by
  obtain ⟨es, hes⟩ := h
  exact run_inv I (fun _ => True) (fun s e s' _ => hstep s e s') (fun _ _ => trivial) hI hes

end Xhttp.Lib
