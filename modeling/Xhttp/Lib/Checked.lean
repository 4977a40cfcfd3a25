import Mathlib.Data.List.Forall2
import Xhttp.Lib.Bytes

/- Computations that can stop short, and indexing that can panic. An index out of
   bounds is a value of the model, so that its absence is a statement about the
   code: a function `f` is free of panics if `f x ≠ .error .panic` for all `x`,
   and an action is `Safe` if it panics on no stream. -/
namespace Xhttp.Lib

/-- How a Rust computation stops short: with the message of a `bail!` or a
    `context`, on bytes that are not UTF-8, or by a panic. A sum that overflows is a
    panic: all of this is about the `dev` profile, which has overflow checks. -/
inductive Failure where
  | message (text : String)
  | utf8
  | panic
  deriving DecidableEq, Repr

namespace Checked
variable {α : Type}

/-- `if c { bail!(text) }`. -/
def bailIf (c : Prop) [Decidable c] (text : String) : Except Failure Unit :=
  if c then .error (.message text) else .ok ()

/-- `Option::ok_or`, and the `?` on a fallible call whose failure is `e`. -/
def okOr (o : Option α) (e : Failure) : Except Failure α :=
  match o with
  | some a => .ok a
  | none => .error e

/-- `n.try_into::<u16>()` with a `context`. -/
def tryIntoU16 (n : Nat) (e : Failure) : Except Failure UInt16 :=
  if n < 2^16 then .ok (UInt16.ofNat n) else .error e

/-- `xs[i]`. -/
def index (xs : List α) (i : Nat) : Except Failure α :=
  match xs[i]? with
  | some x => .ok x
  | none => .error .panic

/-- `&xs[i..j]`. -/
def slice (xs : List α) (i j : Nat) : Except Failure (List α) :=
  if i ≤ j ∧ j ≤ xs.length then .ok ((xs.drop i).take (j - i)) else .error .panic

/-- `&xs[i..]`. -/
def sliceFrom (xs : List α) (i : Nat) : Except Failure (List α) := slice xs i xs.length

/-- `copy_from_slice` into a `[T; n]`. -/
def copyFromSlice (n : Nat) (xs : List α) : Except Failure (Vector α n) :=
  if h : xs.length = n then .ok ⟨xs.toArray, by simp [h]⟩ else .error .panic

/-- `xs[..].try_into::<[T; n]>().ok()`. -/
def vectorOf (n : Nat) (xs : List α) : Option (Vector α n) :=
  if h : xs.length = n then some ⟨xs.toArray, by simp [h]⟩ else none

variable {xs : List α} {n i : Nat} {β : Type} {x : Except Failure α} {c : Prop} {a : α} {e : Failure}

theorem vectorOf_of_length (h : xs.length = n) : ∃ v : Vector α n, vectorOf n xs = some v :=
  ⟨_, dif_pos h⟩

theorem toList_of_vectorOf {v : Vector α n} (h : vectorOf n xs = some v) : v.toList = xs := by
  unfold vectorOf at h
  split at h
  · cases h
    rfl
  · cases h

theorem bind_ok_iff {f : α → Except Failure β} {b : β} : (x >>= f) = .ok b ↔ ∃ a, x = .ok a ∧ f a = .ok b := by
  cases x with
  | error e => exact ⟨nofun, fun ⟨_, h, _⟩ => nomatch h⟩
  | ok a =>
    constructor
    · intro h
      exact ⟨a, rfl, h⟩
    · rintro ⟨a', h, hf⟩
      cases h
      exact hf

theorem bailIf_ok_iff [Decidable c] {text : String} {u : Unit} : bailIf c text = .ok u ↔ ¬c := by
  unfold bailIf
  split <;> simp [*]

theorem toOption_eq_some_iff : x.toOption = some a ↔ x = .ok a := by
  cases x with
  | ok b | error e => simp [Except.toOption]

theorem okOr_ok_iff {o : Option α} : okOr o e = .ok a ↔ o = some a := by
  cases o <;> simp [okOr]

/-- `collect` into a `Result`: every element succeeds, and the results are in its order. -/
theorem mapM_ok_iff {β : Type} {f : α → Except Failure β} :
    ∀ {xs : List α} {ys : List β}, xs.mapM f = .ok ys ↔ List.Forall₂ (fun x y => f x = .ok y) xs ys
  | [], ys => by
    rw [List.mapM_nil, List.forall₂_nil_left_iff]
    exact ⟨fun h => (Except.ok.inj h).symm, fun h => h ▸ rfl⟩
  | x :: xs, ys => by
    rw [List.mapM_cons, bind_ok_iff, List.forall₂_cons_left_iff]
    constructor
    · rintro ⟨y, hy, hrest⟩
      obtain ⟨ys', hys', heq⟩ := bind_ok_iff.mp hrest
      exact ⟨y, ys', hy, mapM_ok_iff.mp hys', (Except.ok.inj heq).symm⟩
    · rintro ⟨y, ys', hy, hrest, rfl⟩
      exact ⟨y, hy, bind_ok_iff.mpr ⟨ys', mapM_ok_iff.mpr hrest, rfl⟩⟩

theorem mapM_ok_map {f : α → Except Failure β} {g : α → β} (h : ∀ x ∈ xs, f x = .ok (g x)) :
    xs.mapM f = .ok (xs.map g) :=
  mapM_ok_iff.mpr (List.forall₂_map_right_iff.mpr (List.forall₂_same.mpr h))

theorem mapM_ok_iff_exists {f : α → Except Failure β} : (∃ ys, xs.mapM f = .ok ys) ↔ ∀ x ∈ xs, ∃ y, f x = .ok y := by
  induction xs with
  | nil => exact ⟨fun _ x hx => absurd hx List.not_mem_nil, fun _ => ⟨[], rfl⟩⟩
  | cons x xs ih =>
    rw [List.forall_mem_cons, ← ih]
    simp only [List.mapM_cons, bind_ok_iff]
    constructor
    · rintro ⟨_, y, hy, ys, hys, -⟩
      exact ⟨⟨y, hy⟩, ys, hys⟩
    · rintro ⟨⟨y, hy⟩, ys, hys⟩
      exact ⟨y :: ys, y, hy, ys, hys, rfl⟩

theorem mapM_ok_mem {f : α → Except Failure β} {ys : List β} (h : xs.mapM f = .ok ys) :
    ∀ y ∈ ys, ∃ x ∈ xs, f x = .ok y := by
  induction mapM_ok_iff.mp h with
  | nil => exact nofun
  | @cons x y xs ys hxy hrest ih =>
    simp_all [mapM_ok_iff]

theorem foldlM_ok_inv {σ : Type} {f : σ → α → Except Failure σ} (I : σ → Prop)
    (hstep : ∀ s a s', I s → f s a = .ok s' → I s') : ∀ {xs : List α} {s s' : σ}, I s → xs.foldlM f s = .ok s' → I s'
  | [], s, s', hI, h => by
    cases h
    exact hI
  | x :: xs, s, s', hI, h => by
    obtain ⟨m, hm, hrest⟩ := bind_ok_iff.mp h
    exact foldlM_ok_inv I hstep (hstep s x m hI hm) hrest

theorem tryIntoU16_of_lt (h : n < 2^16) (e : Failure) : tryIntoU16 n e = .ok (UInt16.ofNat n) := by
  rw [tryIntoU16, if_pos h]

theorem index_of_lt (h : i < xs.length) : index xs i = .ok xs[i] := by
  simp [index, h]

theorem slice_of_le {j : Nat} (hi : i ≤ j) (hj : j ≤ xs.length) : slice xs i j = .ok ((xs.drop i).take (j - i)) := by
  rw [slice, if_pos ⟨hi, hj⟩]

theorem sliceFrom_of_le (h : i ≤ xs.length) : sliceFrom xs i = .ok (xs.drop i) := by
  rw [sliceFrom, slice_of_le h (Nat.le_refl _), List.take_of_length_le (by simp)]

theorem copyFromSlice_toList (v : Vector α n) : copyFromSlice n v.toList = .ok v := by
  rw [copyFromSlice, dif_pos v.length_toList]
  rfl

theorem copyFromSlice_of_length (h : xs.length = n) : copyFromSlice n xs = .ok ⟨xs.toArray, by simp [h]⟩ := by
  rw [copyFromSlice, dif_pos h]

theorem sliceFrom_ne_panic (h : i ≤ xs.length) : sliceFrom xs i ≠ .error .panic := by
  rw [sliceFrom_of_le h]
  exact nofun

theorem okOr_ne_panic (o : Option α) (h : e ≠ .panic) : okOr o e ≠ .error .panic := by
  cases o with
  | none => exact fun heq => h (Except.error.inj heq)
  | some => nofun

theorem bind_ne_panic {f : α → Except Failure β}
    (hx : x ≠ .error .panic) (hf : ∀ a, f a ≠ .error .panic) : (x >>= f) ≠ .error .panic := by
  cases x with
  | error e => exact fun h => hx (congrArg _ (Except.error.inj h))
  | ok a => exact hf a

theorem ok_bind_ne_panic {f : α → Except Failure β} (hx : x = .ok a)
    (hf : f a ≠ .error .panic) : (x >>= f) ≠ .error .panic := by
  subst hx
  exact hf

theorem bailIf_bind_ne_panic [Decidable c] {text : String} {f : Unit → Except Failure β}
    (hf : ¬c → f () ≠ .error .panic) : (bailIf c text >>= f) ≠ .error .panic := by
  unfold bailIf
  split
  · exact nofun
  · next hc => exact hf hc

end Checked

/-- The action panics on no stream. -/
def Safe {α : Type} (x : Io Failure α) : Prop := ∀ s, (x s).1 ≠ .error (.bail .panic)

namespace Safe
variable {α β : Type}

theorem pure (a : α) : Safe (Pure.pure a : Io Failure α) := nofun

theorem bind {x : Io Failure α} {f : α → Io Failure β} (hx : Safe x) (hf : ∀ a, Safe (f a)) : Safe (x >>= f) := by
  intro s
  have hs := hx s
  rw [Io.bind_apply]
  cases hr : x s with
  | mk r m =>
    rw [hr] at hs
    cases r with
    | error e => exact fun h => hs (congrArg _ (Except.error.inj h))
    | ok a => exact hf a m

theorem bailIf_bind {c : Prop} [Decidable c] {text : String} {f : Unit → Io Failure β}
    (hf : ¬c → Safe (f ())) : Safe (Io.bailIf c (.message text) >>= f) := by
  unfold Io.bailIf
  split
  · exact fun s => nofun
  · next hc => exact bind (pure ()) fun _ => hf hc

theorem lift {r : Except Failure α} (h : r ≠ .error .panic) : Safe (Io.lift r) := by
  cases r with
  | ok a => exact pure a
  | error e => exact fun s hs => h (congrArg _ (Fault.bail.inj (Except.error.inj hs)))

theorem readU8 : Safe Io.readU8 := by
  intro s
  unfold Io.readU8
  split <;> exact nofun

theorem readU16 : Safe Io.readU16 := by
  intro s
  unfold Io.readU16
  split <;> exact nofun

theorem readExact (n : Nat) : Safe (Io.readExact n) := by
  intro s
  unfold Io.readExact
  split <;> exact nofun

end Safe

end Xhttp.Lib
