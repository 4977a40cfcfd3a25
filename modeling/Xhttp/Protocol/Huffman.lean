import Xhttp.Http.Stack

/- The generator of `tokenish` padding (`padding_value`, `src/protocol.rs`): it walks over the letters and digits in
   steps of 37 and stops as soon as the Huffman encoding of what it has is as long as asked for, within a bound on the
   number of characters. That the bound is always enough needs an average: 62 characters in a row are all letters and
   digits, 397 bits together (`bits_period`), and the characters left over have at least five bits each (`bits_ge`).

   The crate `httlib_huffman` is a parameter: the length of its output on letters and digits is that of the code of
   HPACK, rounded up to whole bytes. -/
namespace Xhttp.Protocol
open Lib List

def alphabet : Bytes :=
  "0123456789ABCDEFGHIJKLMNOPQRSTUVWXYZabcdefghijklmnopqrstuvwxyz".toList.map fun c => UInt8.ofNat c.toNat

/-- The length of the HPACK code of a letter or digit, in bits. -/
def codeLength (b : UInt8) : Nat :=
  let c := Char.ofNat b.toNat
  if c ∈ "012aceiost".toList then 5
  else if c ∈ "3456789Abdfghlmnpru".toList then 6
  else if c ∈ "XZ".toList then 8
  else 7

structure Huffman where
  /-- The length of what `httlib_huffman::encode` writes, if it succeeds. -/
  encodedLen : Bytes → Option Nat
  /-- The capacity of a vector that was asked to have one. -/
  withCapacity : Nat → Nat
  encodedLen_alphabet : ∀ bytes, (∀ b ∈ bytes, b ∈ alphabet) →
    encodedLen bytes = some (((bytes.map codeLength).sum + 7) / 8)
  le_withCapacity : ∀ n, n ≤ withCapacity n

def huffmanLength (F : Huffman) (value : Bytes) : Nat := (F.encodedLen value).getD value.length

/-- `ALPHABET[(index * 37 + length * 17) % ALPHABET.len()]`. -/
def walk (length index : Nat) : UInt8 :=
  alphabet.getD ((index * 37 + length * 17) % alphabet.length) 0

/-- The loop over the indices left; a `break` leaves it. -/
def paddingLoop (F : Huffman) (length : Nat) : Nat → Nat → Bytes → Bytes
  | 0, _, value => value
  | rest + 1, index, value =>
    if length ≤ huffmanLength F (value ++ [walk length index]) then value ++ [walk length index]
    else paddingLoop F length rest (index + 1) (value ++ [walk length index])

def paddingValue (F : Huffman) (method : Str) (length : Nat) : Str :=
  if method ≠ "tokenish" then List.replicate length 'X'
  else
    let value := paddingLoop F length (F.withCapacity (length + length / 2 + 8)) 0 []
    (Str.fromUtf8 value).getD []

/-! ## Bits -/

def weights : List Nat :=
  [5, 5, 5, 6, 6, 6, 6, 6, 6, 6, 6, 7, 7, 7, 7, 7, 7, 7, 7, 7, 7, 7, 7, 7, 7, 7, 7, 7, 7, 7, 7, 7, 7, 8,
    7, 8, 5, 6, 5, 6, 5, 6, 6, 6, 5, 7, 7, 6, 6, 6, 5, 6, 7, 6, 5, 5, 6, 7, 7, 7, 7, 7]

theorem walk_eq (length index : Nat) : walk length index ∈ alphabet ∧
      codeLength (walk length index) = weights.getD ((index * 37 + length * 17) % 62) 0 := by
  have hall : ∀ j < 62, alphabet.getD j 0 ∈ alphabet ∧
      codeLength (alphabet.getD j 0) = weights.getD j 0 := by
    decide +kernel
  exact hall _ (Nat.mod_lt _ (by decide))

/-- The bits of the first `n` characters of the walk that starts at `start`. -/
def bits (start n : Nat) : Nat := ((List.range n).map fun i => weights.getD ((i * 37 + start) % 62) 0).sum

theorem weight_bounds (j : Nat) : 5 ≤ weights.getD (j % 62) 0 ∧ weights.getD (j % 62) 0 ≤ 8 := by
  have hall : ∀ k < 62, 5 ≤ weights.getD k 0 ∧ weights.getD k 0 ≤ 8 := by decide
  exact hall _ (Nat.mod_lt _ (by decide))

theorem bits_succ (start n : Nat) : bits start (n + 1) = bits start n + weights.getD ((n * 37 + start) % 62) 0 := by
  rw [bits, range_succ, map_append, sum_append]
  simp [bits]

/-- Once around: 37 and 62 have no common factor, so every letter and digit comes up. -/
theorem bits_period (start : Nat) : bits start 62 = 397 := by
  have hall : ∀ s < 62, bits s 62 = 397 := by decide +kernel
  have hmod : bits (start % 62) 62 = bits start 62 := by
    apply congrArg List.sum
    apply map_congr_left
    intro i _
    rw [show (i * 37 + start % 62) % 62 = (i * 37 + start) % 62 by omega]
  rw [← hmod]
  exact hall _ (Nat.mod_lt _ (by decide))

theorem bits_add_period (start n : Nat) : bits start (62 + n) = 397 + bits start n := by
  induction n with
  | zero => exact bits_period start
  | succ n ih =>
    have hsame : ((62 + n) * 37 + start) % 62 = (n * 37 + start) % 62 := by omega
    grind [bits, weights, bits_succ, Nat.add_assoc]

theorem bits_ge_five (start n : Nat) : 5 * n ≤ bits start n := by
  induction n with
  | zero => exact Nat.zero_le _
  | succ n ih =>
    have hw := (weight_bounds (n * 37 + start)).1
    rw [bits_succ]
    omega

/-- Full rounds at their average, the rest at the shortest code. -/
theorem bits_ge (start q r : Nat) : 397 * q + 5 * r ≤ bits start (62 * q + r) := by
  induction q with
  | zero =>
    rw [Nat.mul_zero, Nat.zero_add, Nat.zero_add]
    exact bits_ge_five start r
  | succ q ih =>
    calc 397 * (q + 1) + 5 * r
        = 397 + (397 * q + 5 * r) := by omega
      _ ≤ 397 + bits start (62 * q + r) := Nat.add_le_add_left ih 397
      _ = bits start (62 * (q + 1) + r) := by
          rw [← bits_add_period, show 62 + (62 * q + r) = 62 * (q + 1) + r by omega]

/-- The characters the loop may use have more bits than it needs. -/
theorem bits_budget (start length : Nat) : length ≤ (bits start (length + length / 2 + 8) + 7) / 8 := by
  have hge := bits_ge start ((length + length / 2 + 8) / 62) ((length + length / 2 + 8) % 62)
  rw [Nat.div_add_mod] at hge
  -- 16/3 bits a character are needed and a full round gives 397/62; the eight characters
  -- more make up for the at most 61 left over, which are only sure of five bits each
  omega

/-! ## The loop -/

/-- What the loop has after `n` rounds. -/
def walked (length n : Nat) : Bytes := (List.range n).map (walk length)

theorem walked_succ (length n : Nat) : walked length (n + 1) = walked length n ++ [walk length n] := by
  rw [walked, range_succ, map_append]
  rfl

theorem mem_alphabet_of_mem_walked {length n : Nat} : ∀ b ∈ walked length n, b ∈ alphabet := by
  intro b hb
  obtain ⟨i, -, rfl⟩ := mem_map.mp hb
  exact (walk_eq length i).1

theorem huffmanLength_walked (F : Huffman) (length n : Nat) :
    huffmanLength F (walked length n) = (bits (length * 17) n + 7) / 8 := by
  have hsum : ((walked length n).map codeLength).sum = bits (length * 17) n := by
    rw [walked, map_map, bits]
    apply congrArg List.sum
    apply map_congr_left
    intro i _
    rw [Function.comp_apply, (walk_eq length i).2]
  calc huffmanLength F (walked length n)
      = (((walked length n).map codeLength).sum + 7) / 8 := by
        rw [huffmanLength, F.encodedLen_alphabet _ mem_alphabet_of_mem_walked, Option.getD_some]
    _ = (bits (length * 17) n + 7) / 8 := by rw [hsum]

/-- The loop stops at the first number of characters that is enough. -/
theorem paddingLoop_stops (F : Huffman) (length : Nat) {rest n : Nat}
    (henough : ∃ m, n < m ∧ m ≤ n + rest ∧ length ≤ huffmanLength F (walked length m)) :
    ∃ m, n < m ∧ paddingLoop F length rest n (walked length n) = walked length m ∧
      length ≤ huffmanLength F (walked length m) ∧
      ∀ k, n < k → k < m → huffmanLength F (walked length k) < length := by
  -- induction on the indices left; the value so far is `walked length n` throughout
  induction rest generalizing n with
  | zero =>
    omega
  | succ rest ih =>
    rw [paddingLoop, ← walked_succ]
    split
    · grind
    · next hgo =>
      obtain ⟨m, hlt, hle, hm⟩ := henough
      -- the first round was not enough, so the number of rounds that is lies behind it
      have hne : m ≠ n + 1 := by
        rintro rfl
        exact hgo hm
      obtain ⟨m', hlt', heq, hm', hfirst⟩ := ih (n := n + 1) ⟨m, by omega, by omega, hm⟩
      grind

theorem huffmanLength_walked_succ (F : Huffman) (length n : Nat) :
    huffmanLength F (walked length (n + 1)) ≤ huffmanLength F (walked length n) + 1 := by
  have hw := (weight_bounds (n * 37 + length * 17)).2
  rw [huffmanLength_walked, huffmanLength_walked, bits_succ]
  omega

/-- The result of the loop is exactly as long as asked for; the shortest is one byte. -/
theorem paddingLoop_length (F : Huffman) (length : Nat) {capacity : Nat} (hcap : length + length / 2 + 8 ≤ capacity) :
    (∀ b ∈ paddingLoop F length capacity 0 [], b ∈ alphabet) ∧
      huffmanLength F (paddingLoop F length capacity 0 []) = max length 1 := by
  have henough : ∃ m, 0 < m ∧ m ≤ 0 + capacity ∧ length ≤ huffmanLength F (walked length m) := by
    refine ⟨length + length / 2 + 8, by omega, by omega, ?_⟩
    rw [huffmanLength_walked]
    exact bits_budget (length * 17) length
  obtain ⟨m, hpos, heq, hge, hfirst⟩ := paddingLoop_stops F length henough
  have heq' : paddingLoop F length capacity 0 [] = walked length m := heq
  obtain ⟨n, rfl⟩ : ∃ n, m = n + 1 := ⟨m - 1, by omega⟩
  refine ⟨heq' ▸ mem_alphabet_of_mem_walked, ?_⟩
  rw [heq']
  have hstep := huffmanLength_walked_succ F length n
  by_cases hn : n = 0
  · -- one character: between five and eight bits
    subst hn
    have hone : huffmanLength F (walked length 1) = 1 := by
      have hw := weight_bounds (0 * 37 + length * 17)
      have hzero : bits (length * 17) 0 = 0 := rfl
      rw [huffmanLength_walked, bits_succ, hzero]
      omega
    rw [Nat.zero_add] at hge ⊢
    omega
  · -- one character less was too short, and the last one added at most a byte
    have hshort := hfirst n (by omega) (by omega)
    omega

/-! ## The value -/

/-- How `valid_padding` measures a value. -/
def paddedLength (F : Huffman) (method value : Str) : Nat :=
  if method = "tokenish" then huffmanLength F value.asBytes else value.len

theorem alphabet_chars : ∀ b ∈ alphabet, b.toNat < 128 ∧ tokenChar (Char.ofNat b.toNat) = true := by
  decide +kernel

/-- The generated value consists of letters and digits, and is measured at the length
    asked for. Only `tokenish` cannot give less than one byte. -/
theorem paddingValue_spec (F : Huffman) (method : Str) (length : Nat) :
    (∀ c ∈ paddingValue F method length, tokenChar c = true) ∧
      paddedLength F method (paddingValue F method length) = if method = "tokenish" then max length 1 else length := by
  unfold paddingValue paddedLength
  by_cases hm : method = "tokenish"
  · obtain ⟨hmem, hlen⟩ := paddingLoop_length F length (F.le_withCapacity (length + length / 2 + 8))
    generalize paddingLoop F length (F.withCapacity (length + length / 2 + 8)) 0 [] = value at hmem hlen ⊢
    have hascii : ∀ b ∈ value, b.toNat < 128 := fun b hb => (alphabet_chars b (hmem b hb)).1
    simp only [hm, ne_eq, not_true_eq_false, if_false, if_true, Str.fromUtf8_ascii hascii, Option.getD_some,
      Str.asBytes_ascii hascii, hlen, and_true]
    simp_all [mem_map, alphabet_chars]
  · simp only [hm, ne_eq, not_false_eq_true, if_true, if_false]
    constructor
    · intro c hc
      rw [eq_of_mem_replicate hc]
      decide
    · show (List.map Char.utf8Size (List.replicate length 'X')).sum = length
      rw [map_replicate, sum_replicate_nat]
      exact Nat.mul_one length

/-- The code on letters and digits, and vectors of exactly the capacity asked for. -/
def Huffman.reference : Huffman where
  encodedLen bytes :=
    if bytes.all fun b => b ∈ alphabet then some (((bytes.map codeLength).sum + 7) / 8) else none
  withCapacity n := n
  encodedLen_alphabet _ h := if_pos (all_eq_true.mpr fun b hb => decide_eq_true (h b hb))
  le_withCapacity := Nat.le_refl

end Xhttp.Protocol
