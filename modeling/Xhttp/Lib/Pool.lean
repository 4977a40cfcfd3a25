import Mathlib.Data.List.Count
import Mathlib.Data.List.Perm.Basic
import Xhttp.Lib.Run

/- Threads that share a state. A thread is what is left of its program; `act` says what its next atomic step does to
   the shared state and which threads it leaves behind, and refuses a step that is blocked. A schedule is a list of
   events: the environment starts a thread, or the `i`-th thread takes a step, the choice `c` standing for what the
   step cannot decide by itself. Every interleaving is the run of some schedule. -/
namespace Xhttp.Lib
open List

structure Pool (σ τ : Type) where
  shared : σ
  threads : List τ

namespace Pool
variable {σ τ χ : Type}

inductive Event (τ χ : Type) where
  | spawn (t : τ)
  | act (i : Nat) (c : χ)

/-- One event of a schedule; `starts` are the threads the environment may start. -/
def step (starts : τ → Bool) (act : σ → τ → χ → Option (σ × List τ)) (p : Pool σ τ) : Event τ χ → Option (Pool σ τ)
  | .spawn t => if starts t then some { p with threads := t :: p.threads } else none
  | .act i c =>
    match p.threads[i]? with
    | none => none
    | some t => (act p.shared t c).map fun r => ⟨r.1, r.2 ++ p.threads.eraseIdx i⟩

variable {starts : τ → Bool} {act : σ → τ → χ → Option (σ × List τ)} {e : Event τ χ} {p : Pool σ τ}
  {I : σ → List τ → Prop} {p' : Pool σ τ}

/-- What one event does: a thread is started, or some thread of the pool takes a
    step and its remainder joins the others. -/
theorem step_eq_some (h : step starts act p e = some p') :
    (∃ t, e = .spawn t ∧ starts t = true ∧ p' = ⟨p.shared, t :: p.threads⟩) ∨
    (∃ i c t s' ts rest, e = .act i c ∧ p.threads[i]? = some t ∧ p.threads.Perm (t :: rest) ∧
      act p.shared t c = some (s', ts) ∧ p' = ⟨s', ts ++ rest⟩) := by
  cases e with
  | spawn t =>
    simp only [step] at h
    split at h
    · rename_i hs
      cases h
      exact Or.inl ⟨t, rfl, hs, rfl⟩
    · cases h
  | act i c =>
    simp only [step] at h
    split at h
    · cases h
    · rename_i t ht
      obtain ⟨⟨s', ts⟩, hact, rfl⟩ := Option.map_eq_some_iff.mp h
      obtain ⟨hi, rfl⟩ := List.getElem?_eq_some_iff.mp ht
      exact Or.inr ⟨i, c, _, s', ts, _, rfl, ht, (List.getElem_cons_eraseIdx_perm hi).symm, hact, rfl⟩

/-- Any thread of the pool can be the next to act, and a schedule that goes on from
    there is a schedule from here. -/
theorem exists_run_of_act {t : τ} (ht : t ∈ p.threads) {c : χ} {s' : σ} {ts : List τ}
    (hact : act p.shared t c = some (s', ts)) {P : Pool σ τ → Prop}
    (hnext : ∀ p' : Pool σ τ, p'.shared = s' → (∀ u ∈ ts, u ∈ p'.threads) →
      ∃ es q, run (step starts act) p' es = some q ∧ P q) : ∃ es q, run (step starts act) p es = some q ∧ P q := by
  obtain ⟨i, hi, rfl⟩ := getElem_of_mem ht
  have hstep : step starts act p (.act i c) = some ⟨s', ts ++ p.threads.eraseIdx i⟩ := by
    simp [step, getElem?_eq_getElem hi, hact]
  obtain ⟨es, q, hr, hq⟩ := hnext ⟨s', ts ++ p.threads.eraseIdx i⟩ rfl
    (fun u hu => mem_append_left _ hu)
  exact ⟨.act i c :: es, q, run_cons_eq_some.mpr ⟨_, hstep, hr⟩, hq⟩

variable (hperm : ∀ s ts us, ts.Perm us → I s ts → I s us)
include hperm

/-- An assertion on a pool that does not depend on the order of the threads and
    is kept by each thread's own step is kept by every event. -/
theorem inv_step
    (hspawn : ∀ t, starts t = true → I p.shared p.threads → I p.shared (t :: p.threads))
    (hact : ∀ i c t s' ts rest, e = .act i c → p.threads[i]? = some t →
      p.threads.Perm (t :: rest) → I p.shared (t :: rest) →
      act p.shared t c = some (s', ts) → I s' (ts ++ rest))
    (hI : I p.shared p.threads) (h : step starts act p e = some p') : I p'.shared p'.threads := by
  rcases step_eq_some h with ⟨t, -, hs, rfl⟩ | ⟨i, c, t, s', ts, rest, he, hi, hp, ha, rfl⟩
  · exact hspawn t hs hI
  · exact hact i c t s' ts rest he hi hp (hperm _ _ _ hp hI) ha

theorem inv_run
    (hspawn : ∀ s ts t, starts t = true → I s ts → I s (t :: ts))
    (hact : ∀ s t c s' ts rest, I s (t :: rest) → act s t c = some (s', ts) → I s' (ts ++ rest))
    {es : List (Event τ χ)} (hI : I p.shared p.threads)
    (hr : run (step starts act) p es = some p') : I p'.shared p'.threads :=
  run_inv (fun p => I p.shared p.threads) (fun _ => True)
    (fun p _ _ _ hI h => inv_step hperm (hspawn p.shared p.threads)
      (fun _ c t s' ts rest _ _ _ => hact p.shared t c s' ts rest) hI h)
    (fun _ _ => trivial) hI hr

end Pool

end Xhttp.Lib
