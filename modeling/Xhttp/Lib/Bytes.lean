import Mathlib.Algebra.GroupWithZero.Nat
import Mathlib.Data.List.Basic
import Mathlib.Data.List.Induction

/- Byte strings and the duplex streams protocol code runs on. An `Io` action sees the bytes that are still to arrive and
   the bytes it has written; a failure keeps the stream as the failing operation left it.

   1. `Runs x bs a ws` — on any stream that starts with `bs`, the action `x` consumes exactly `bs`, returns `a` and
      writes exactly `ws`. The relation composes along `bind`.
   2. `bind_ok_iff` and the `_ok_iff` lemma of each primitive — what a successful action did on an arbitrary stream.
   `Fails x s` says that `x` fails on `s` with nothing written. -/
namespace Xhttp.Lib

abbrev Bytes := List UInt8

/-- `u16::to_be_bytes`. -/
def beU16 (n : UInt16) : Bytes := [UInt8.ofNat (n.toNat / 256), UInt8.ofNat (n.toNat % 256)]

/-- `u16::from_be_bytes`. -/
def ofBeU16 (hi lo : UInt8) : UInt16 := UInt16.ofNat (hi.toNat * 256 + lo.toNat)

theorem ofBeU16_beU16 (n : UInt16) : ofBeU16 (UInt8.ofNat (n.toNat / 256)) (UInt8.ofNat (n.toNat % 256)) = n := by
  have hn : n.toNat < 65536 := n.toNat_lt
  apply UInt16.toNat_inj.mp
  simp only [ofBeU16, UInt16.toNat_ofNat', UInt8.toNat_ofNat']
  omega

theorem beU16_ofBeU16 (hi lo : UInt8) : beU16 (ofBeU16 hi lo) = [hi, lo] := by
  have hhi : hi.toNat < 256 := hi.toNat_lt
  have hlo : lo.toNat < 256 := lo.toNat_lt
  have hn : (ofBeU16 hi lo).toNat = hi.toNat * 256 + lo.toNat := by
    rw [ofBeU16, UInt16.toNat_ofNat']
    omega
  rw [beU16, hn, show (hi.toNat * 256 + lo.toNat) / 256 = hi.toNat by omega,
    show (hi.toNat * 256 + lo.toNat) % 256 = lo.toNat by omega, UInt8.ofNat_toNat, UInt8.ofNat_toNat]

@[simp] theorem beU16_length (n : UInt16) : (beU16 n).length = 2 := rfl

/-- `u32::to_be_bytes`. -/
def beU32 (n : UInt32) : Bytes :=
  [UInt8.ofNat (n.toNat / 16777216), UInt8.ofNat (n.toNat / 65536 % 256),
   UInt8.ofNat (n.toNat / 256 % 256), UInt8.ofNat (n.toNat % 256)]

/-- `u32::from_be_bytes`. -/
def ofBeU32 (a b c d : UInt8) : UInt32 :=
  UInt32.ofNat (((a.toNat * 256 + b.toNat) * 256 + c.toNat) * 256 + d.toNat)

theorem ofBeU32_beU32 (n : UInt32) : ofBeU32 (UInt8.ofNat (n.toNat / 16777216)) (UInt8.ofNat (n.toNat / 65536 % 256))
      (UInt8.ofNat (n.toNat / 256 % 256)) (UInt8.ofNat (n.toNat % 256)) = n := by
  have hn : n.toNat < 4294967296 := n.toNat_lt
  apply UInt32.toNat_inj.mp
  simp only [ofBeU32, UInt32.toNat_ofNat', UInt8.toNat_ofNat']
  omega

@[simp] theorem beU32_length (n : UInt32) : (beU32 n).length = 4 := rfl

/-- The number whose digits to the base 256 are the bytes, the highest first. -/
def beNat (bs : Bytes) : Nat := bs.foldl (fun n b => n * 256 + b.toNat) 0

/-- The last `k` digits of a number to the base 256, the highest first. -/
def beBytes : Nat → Nat → Bytes
  | 0, _ => []
  | k + 1, n => beBytes k (n / 256) ++ [UInt8.ofNat (n % 256)]

@[simp] theorem beBytes_length : ∀ k n, (beBytes k n).length = k
  | 0, _ => rfl
  | k + 1, n => by rw [beBytes, List.length_append, beBytes_length k, List.length_singleton]

theorem beNat_concat (bs : Bytes) (b : UInt8) : beNat (bs ++ [b]) = beNat bs * 256 + b.toNat := by
  rw [beNat, List.foldl_append]
  rfl

theorem beNat_beBytes : ∀ {k n : Nat}, n < 256 ^ k → beNat (beBytes k n) = n
  | 0, n, h => (Nat.lt_one_iff.mp h).symm
  | k + 1, n, h => by
    have hdiv : n / 256 < 256 ^ k := Nat.div_lt_of_lt_mul (by rwa [Nat.mul_comm, ← Nat.pow_succ])
    rw [beBytes, beNat_concat, beNat_beBytes hdiv, UInt8.toNat_ofNat']
    omega

theorem beBytes_beNat (bs : Bytes) : beBytes bs.length (beNat bs) = bs := by
  induction bs using List.reverseRecOn with
  | nil => rfl
  | append_singleton bs b ih =>
    have hb : b.toNat < 256 := b.toNat_lt
    rw [List.length_append, List.length_singleton, beNat_concat, beBytes,
      show (beNat bs * 256 + b.toNat) / 256 = beNat bs by omega,
      show (beNat bs * 256 + b.toNat) % 256 = b.toNat by omega, ih, UInt8.ofNat_toNat]

theorem beNat_lt (bs : Bytes) : beNat bs < 256 ^ bs.length := by
  induction bs using List.reverseRecOn with
  | nil => exact Nat.one_pos
  | append_singleton bs b ih =>
    have hb : b.toNat < 256 := b.toNat_lt
    rw [beNat_concat, List.length_append, List.length_singleton, Nat.pow_succ]
    omega

variable {bs : Bytes} {n : Nat} {c : Prop}

theorem take_drop_congr {bs' : Bytes} {i : Nat} (h : ∀ j, i ≤ j → j < i + n → bs'[j]? = bs[j]?) :
    (bs'.drop i).take n = (bs.drop i).take n := by
  refine List.ext_getElem? fun j => ?_
  by_cases hj : j < n
  · rw [List.getElem?_take_of_lt hj, List.getElem?_take_of_lt hj, List.getElem?_drop, List.getElem?_drop]
    exact h _ (by omega) (by omega)
  grind

/-- `bs[i..i + new.len()].copy_from_slice(new)`, where the range is in `bs`. -/
def overwrite (bs : Bytes) (i : Nat) (new : Bytes) : Bytes :=
  bs.take i ++ (new ++ bs.drop (i + new.length))

section
variable {bs new : Bytes} {i : Nat}

variable (h : i + new.length ≤ bs.length)
include h

theorem overwrite_length : (overwrite bs i new).length = bs.length := by
  simp only [overwrite, List.length_append, List.length_take, List.length_drop]
  omega

theorem overwrite_get_in {j : Nat} (hj : j < new.length) :
    (overwrite bs i new)[i + j]? = new[j]? := by
  have hlen : (bs.take i).length = i := by rw [List.length_take]; omega
  rw [overwrite, List.getElem?_append_right (by omega), hlen, Nat.add_sub_cancel_left, List.getElem?_append_left hj]

theorem overwrite_get_out {j : Nat} (hj : j < i ∨ i + new.length ≤ j) :
    (overwrite bs i new)[j]? = bs[j]? := by
  have hlen : (bs.take i).length = i := by rw [List.length_take]; omega
  rcases hj with hj | hj
  · rw [overwrite, List.getElem?_append_left (by omega), List.getElem?_take_of_lt hj]
  · rw [overwrite, List.getElem?_append_right (by omega), List.getElem?_append_right (by omega),
      List.getElem?_drop, hlen]
    congr 1
    omega

end

/-- A duplex stream: the bytes still to arrive, and the bytes written so far. -/
structure Stream where
  input : Bytes
  output : Bytes
  deriving DecidableEq, Repr

/-- Why an action failed: the input ended, or the code gave up with `e`. -/
inductive Fault (ε : Type) where
  | eof
  | bail (e : ε)
  deriving DecidableEq, Repr

def Io (ε α : Type) : Type := Stream → Except (Fault ε) α × Stream

namespace Io
variable {ε α β : Type} {s' : Stream}

instance : Monad (Io ε) where
  pure a := fun s => (.ok a, s)
  bind x f := fun s =>
    match x s with
    | (.ok a, s') => f a s'
    | (.error e, s') => (.error e, s')

theorem bind_apply (x : Io ε α) (f : α → Io ε β) (s : Stream) : (x >>= f) s = match x s with
      | (.ok a, s') => f a s'
      | (.error e, s') => (.error e, s') := rfl

def bail (e : ε) : Io ε α := fun s => (.error (.bail e), s)

/-- `if c { bail!(e) }`. -/
def bailIf (c : Prop) [Decidable c] (e : ε) : Io ε Unit := if c then bail e else pure ()

def lift : Except ε α → Io ε α
  | .ok a => pure a
  | .error e => bail e

/-- `AsyncReadExt::read_exact` into a buffer of `n` bytes. A short input is
    consumed before the read fails. -/
def readExact (n : Nat) : Io ε Bytes := fun s =>
  if n ≤ s.input.length then (.ok (s.input.take n), { s with input := s.input.drop n })
  else (.error .eof, { s with input := [] })

/-- `AsyncReadExt::read_exact` into a `[u8; n]`. -/
def readArray (n : Nat) : Io ε (Vector UInt8 n) := fun s =>
  if h : n ≤ s.input.length then
    (.ok ⟨(s.input.take n).toArray, by simp [h]⟩, { s with input := s.input.drop n })
  else (.error .eof, { s with input := [] })

def readU8 : Io ε UInt8 := fun s =>
  match s.input with
  | b :: rest => (.ok b, { s with input := rest })
  | [] => (.error .eof, s)

/-- `AsyncReadExt::read_u16`: big-endian. -/
def readU16 : Io ε UInt16 := fun s =>
  match s.input with
  | hi :: lo :: rest => (.ok (ofBeU16 hi lo), { s with input := rest })
  | _ => (.error .eof, { s with input := [] })

def writeAll (bs : Bytes) : Io ε Unit := fun s => (.ok (), { s with output := s.output ++ bs })

def writeU16 (n : UInt16) : Io ε Unit := writeAll (beU16 n)

/-! What a successful action did. -/

theorem pure_ok_iff {a b : α} {s : Stream} : (pure a : Io ε α) s = (.ok b, s') ↔ a = b ∧ s = s' := by
  show ((.ok a, s) : Except (Fault ε) α × Stream) = _ ↔ _
  simp

theorem bind_ok_iff {x : Io ε α} {f : α → Io ε β} {s : Stream} {b : β} :
    (x >>= f) s = (.ok b, s') ↔ ∃ a m, x s = (.ok a, m) ∧ f a m = (.ok b, s') := by
  rw [bind_apply]
  rcases x s with ⟨e | a, m⟩ <;> simp

theorem bailIf_ok_iff [Decidable c] {e : ε} {u : Unit} {s : Stream} :
    bailIf c e s = (.ok u, s') ↔ ¬c ∧ s = s' := by
  unfold bailIf
  split
  · next hc => simp [bail, hc]
  · next hc => simp [pure_ok_iff, hc]

theorem lift_ok_iff {r : Except ε α} {a : α} {s : Stream} : lift r s = (.ok a, s') ↔ r = .ok a ∧ s = s' := by
  cases r with
  | error e => simp [lift, bail]
  | ok v => simp only [lift, pure_ok_iff, Except.ok.injEq]

theorem readU8_ok_iff {b : UInt8} {s : Stream} :
    (readU8 : Io ε UInt8) s = (.ok b, s') ↔ s = ⟨b :: s'.input, s'.output⟩ := by
  obtain ⟨input, output⟩ := s
  obtain ⟨input', output'⟩ := s'
  cases input <;> simp [readU8, and_assoc]

theorem readU16_ok_iff {n : UInt16} {s : Stream} : (readU16 : Io ε UInt16) s = (.ok n, s') ↔
      ∃ hi lo, n = ofBeU16 hi lo ∧ s = ⟨hi :: lo :: s'.input, s'.output⟩ := by
  obtain ⟨input, output⟩ := s
  obtain ⟨input', output'⟩ := s'
  grind [readU16, Prod.mk.injEq, Except.ok.injEq, Stream.mk.injEq, List.cons.injEq]

theorem readExact_ok_iff {s : Stream} : (readExact n : Io ε Bytes) s = (.ok bs, s') ↔
      bs.length = n ∧ s = ⟨bs ++ s'.input, s'.output⟩ := by
  unfold readExact
  constructor
  · intro h
    split at h
    · rename_i hn
      obtain ⟨rfl, rfl, rfl⟩ := h
      exact ⟨List.length_take_of_le hn, by simp⟩
    · simp at h
  simp_all

theorem readArray_ok_iff {v : Vector UInt8 n} {s : Stream} :
    (readArray n : Io ε (Vector UInt8 n)) s = (.ok v, s') ↔ s = ⟨v.toList ++ s'.input, s'.output⟩ := by
  obtain ⟨input', output'⟩ := s'
  have hv : v.toList.length = n := v.length_toList
  unfold readArray
  constructor
  · intro h
    split at h
    · obtain ⟨rfl, rfl, rfl⟩ := h
      simp [Vector.toList]
    · simp at h
  · intro h
    obtain ⟨rfl, rfl⟩ := h
    have hn : n ≤ (v.toList ++ input').length := by simp
    rw [dif_pos hn]
    congr 1
    · congr 1
      apply Vector.toList_inj.mp
      simp_all
    · congr 1
      exact List.drop_left' hv

theorem writeAll_ok_iff {u : Unit} {s : Stream} :
    (writeAll bs : Io ε Unit) s = (.ok u, s') ↔ s' = ⟨s.input, s.output ++ bs⟩ := by
  simp only [writeAll, Prod.mk.injEq, true_and]
  exact eq_comm

end Io

/-! Exact runs. -/

/-- On every stream that starts with `bs`, `x` consumes exactly `bs`, returns
    `a` and writes exactly `ws`. -/
def Runs {ε α : Type} (x : Io ε α) (bs : Bytes) (a : α) (ws : Bytes) : Prop :=
  ∀ rest out, x ⟨bs ++ rest, out⟩ = (.ok a, ⟨rest, out ++ ws⟩)

namespace Runs
variable {ε α β : Type}

theorem pure (a : α) : Runs (Pure.pure a : Io ε α) [] a [] := by
  intro rest out
  show ((.ok a, _) : Except (Fault ε) α × Stream) = _
  simp

variable {f : α → Io ε β} {x : Io ε α} {a : α} {b : β}

theorem bind {cs ws vs : Bytes}
    (hx : Runs x bs a ws) (hf : Runs (f a) cs b vs) : Runs (x >>= f) (bs ++ cs) b (ws ++ vs) := by
  intro rest out
  apply Io.bind_ok_iff.mpr
  refine ⟨a, ⟨cs ++ rest, out ++ ws⟩, ?_, ?_⟩
  · rw [List.append_assoc]; exact hx (cs ++ rest) out
  · rw [hf rest (out ++ ws), List.append_assoc]

theorem read_bind {cs vs : Bytes} (hx : Runs x bs a []) (hf : Runs (f a) cs b vs) : Runs (x >>= f) (bs ++ cs) b vs :=
  bind hx hf

theorem pass_bind {cs vs : Bytes} (hx : Runs x [] a []) (hf : Runs (f a) cs b vs) : Runs (x >>= f) cs b vs :=
  bind hx hf

theorem last_bind {vs : Bytes} (hx : Runs x bs a []) (hf : Runs (f a) [] b vs) : Runs (x >>= f) bs b vs := by
  have := hx.read_bind hf
  rwa [List.append_nil] at this

theorem bailIf [Decidable c] {e : ε} (h : ¬c) : Runs (Io.bailIf c e) [] () [] := by
  rw [Io.bailIf, if_neg h]
  exact pure ()

theorem lift {r : Except ε α} (h : r = .ok a) : Runs (Io.lift r) [] a [] := by
  subst h; exact pure a

theorem readU8 (b : UInt8) : Runs (Io.readU8 : Io ε UInt8) [b] b [] := by
  intro rest out
  exact Io.readU8_ok_iff.mpr (by simp)

theorem readU16 (n : UInt16) : Runs (Io.readU16 : Io ε UInt16) (beU16 n) n [] := by
  intro rest out
  exact Io.readU16_ok_iff.mpr ⟨_, _, (ofBeU16_beU16 n).symm, by simp [beU16]⟩

theorem readExact (bs : Bytes) : Runs (Io.readExact bs.length : Io ε Bytes) bs bs [] := by
  intro rest out
  exact Io.readExact_ok_iff.mpr ⟨rfl, by simp⟩

theorem readArray (v : Vector UInt8 n) : Runs (Io.readArray n : Io ε (Vector UInt8 n)) v.toList v [] := by
  intro rest out
  exact Io.readArray_ok_iff.mpr (by simp)

theorem writeAll (ws : Bytes) : Runs (Io.writeAll ws : Io ε Unit) [] () ws := by
  intro rest out
  exact Io.writeAll_ok_iff.mpr rfl

end Runs

/-! Failures that write nothing. -/

/-- `x` writes nothing, whether it succeeds or fails. -/
def Quiet {ε α : Type} (x : Io ε α) : Prop := ∀ s, (x s).2.output = s.output

/-- On `s` the action fails, and it has written nothing. -/
def Fails {ε α : Type} (x : Io ε α) (s : Stream) : Prop :=
  ∃ e s', x s = (.error e, s') ∧ s'.output = s.output

section
variable {ε α β : Type}

theorem Quiet.readU8 : Quiet (Io.readU8 : Io ε UInt8) := by
  intro s
  unfold Io.readU8
  split <;> rfl

theorem Quiet.readArray (n : Nat) : Quiet (Io.readArray n : Io ε (Vector UInt8 n)) := by
  intro s
  unfold Io.readArray
  split <;> rfl

theorem Quiet.bailIf (c : Prop) [Decidable c] (e : ε) : Quiet (Io.bailIf c e) := by
  intro s
  unfold Io.bailIf
  split <;> rfl

theorem Fails.bind {x : Io ε α} {f : α → Io ε β} {s : Stream} (hx : Quiet x)
    (hf : ∀ a m, x s = (.ok a, m) → Fails (f a) m) : Fails (x >>= f) s := by
  have hs := hx s
  unfold Fails
  rw [Io.bind_apply]
  cases hr : x s with
  | mk r m =>
    rw [hr] at hs
    cases r with
    | error e => exact ⟨e, m, rfl, hs⟩
    | ok a =>
      obtain ⟨e, s', he, hs'⟩ := hf a m hr
      exact ⟨e, s', he, hs'.trans hs⟩

theorem Fails.bailIf [Decidable c] {e : ε} {f : Unit → Io ε β} {s : Stream} (h : c) :
    Fails (Io.bailIf c e >>= f) s := by
  rw [Io.bailIf, if_pos h]
  exact ⟨.bail e, s, rfl, rfl⟩

end

end Xhttp.Lib
