import Mathlib.Data.List.Basic
import Mathlib.Data.List.DropRight
import Xhttp.Lib.Bytes

/- Strings as lists of Unicode scalar values, with the operations of Rust's
   `str` that protocol code uses: cutting at separators, trimming, prefixes,
   decimal numbers. `fields c s` is `s` cut at `c` with the empty pieces left
   out; cutting does not see leading, trailing or doubled separators, so it
   absorbs `trimMatches` and distributes over concatenation at a separator. -/
namespace Xhttp.Lib
open List

/-- `str` and `String`: every Rust string is a sequence of scalar values. -/
abbrev Str := List Char

instance : Coe String Str := ⟨String.toList⟩

namespace Str

/-- A test of every character of a string looks at the string only; the instance
    for quantifiers over `Char` would go through all scalar values. -/
instance decidableForallMem (p : Char → Prop) [DecidablePred p] (s : Str) :
    Decidable (∀ c ∈ s, p c) := List.decidableBAll p s

/-- `str::len`: the length in UTF-8 bytes. -/
def len (s : Str) : Nat := (s.map Char.utf8Size).sum

def stripPrefix (p s : Str) : Option Str := List.isPrefixOf? p s

def startsWith (c : Char) (s : Str) : Bool := s.head? == some c

def endsWith (c : Char) (s : Str) : Bool := s.getLast? == some c

def trimEndMatches (c : Char) (s : Str) : Str := s.rdropWhile (· == c)

def trimStartMatches (c : Char) (s : Str) : Str := s.dropWhile (· == c)

def trimMatches (c : Char) (s : Str) : Str := trimEndMatches c (s.dropWhile (· == c))

/-- `char::is_whitespace`: the Unicode `White_Space` property. -/
def isWhitespace (c : Char) : Bool :=
  let n := c.toNat
  (9 ≤ n && n ≤ 13) || n == 0x20 || n == 0x85 || n == 0xA0 || n == 0x1680 ||
    (0x2000 ≤ n && n ≤ 0x200A) || n == 0x2028 || n == 0x2029 || n == 0x202F || n == 0x205F ||
    n == 0x3000

def trim (s : Str) : Str := (s.dropWhile isWhitespace).rdropWhile isWhitespace

def splitWhitespace (s : Str) : List Str := (s.splitOnP isWhitespace).filter (· ≠ [])

def split (c : Char) (s : Str) : List Str := List.splitOn c s

/-- `str::split_once` at a character: cut at its first occurrence. -/
def splitOnce (c : Char) : Str → Option (Str × Str)
  | [] => none
  | x :: s => if x = c then some ([], s) else (splitOnce c s).map fun ab => (x :: ab.1, ab.2)

def toAsciiLowercase (s : Str) : Str :=
  s.map fun c => if 'A' ≤ c ∧ c ≤ 'Z' then Char.ofNat (c.toNat + 32) else c

def toAsciiUppercase (s : Str) : Str :=
  s.map fun c => if 'a' ≤ c ∧ c ≤ 'z' then Char.ofNat (c.toNat - 32) else c

/-- The pieces of `s` between occurrences of `c`, the empty ones left out. -/
def fields (c : Char) (s : Str) : List Str := (split c s).filter (· ≠ [])

/-! ## UTF-8 -/

def asBytes (s : Str) : Bytes := s.flatMap String.utf8EncodeChar

/-- `String::from_utf8`. -/
def fromUtf8 (bs : Bytes) : Option Str := bs.toByteArray.utf8Decode?.map Array.toList

def chunks (n : Nat) (s : Str) : List Str :=
  (List.range ((s.length + n - 1) / n)).map fun i => (s.drop (n * i)).take n

variable {n : Nat} {s : Str} {bs : Bytes} {c : Char} {b : UInt8}

theorem chunks_flatten (hn : 0 < n) (s : Str) : (chunks n s).flatten = s := by
  have hstep : ∀ k, ((List.range k).map fun i => (s.drop (n * i)).take n).flatten = s.take (n * k) := by
    intro k
    induction k with
    | zero => simp
    | succ k ih =>
      rw [range_succ, map_append, flatten_append, ih, Nat.mul_succ, take_add]
      simp
  -- enough chunks to cover the string
  have hcover : s.length ≤ n * ((s.length + n - 1) / n) := by
    have := Nat.div_add_mod (s.length + n - 1) n
    have := Nat.mod_lt (s.length + n - 1) hn
    omega
  simp_all [chunks, take_of_length_le]

theorem mem_of_mem_chunks {chunk : Str} (h : chunk ∈ chunks n s) : ∀ c ∈ chunk, c ∈ s := by
  obtain ⟨i, -, rfl⟩ := mem_map.mp h
  intro c hc
  exact mem_of_mem_drop (mem_of_mem_take hc)

theorem asBytes_length (s : Str) : (asBytes s).length = len s := by
  simp [asBytes, len, length_flatMap]

theorem fromUtf8_asBytes (s : Str) : fromUtf8 (asBytes s) = some s := by
  have h : (asBytes s).toByteArray = s.utf8Encode := rfl
  rw [fromUtf8, h, utf8Decode?_utf8Encode]
  simp

theorem asBytes_injective {t : Str} (h : asBytes s = asBytes t) : s = t := by
  have hs := fromUtf8_asBytes s
  rw [h, fromUtf8_asBytes] at hs
  exact (Option.some.inj hs).symm

theorem asBytes_of_fromUtf8 (h : fromUtf8 bs = some s) : asBytes s = bs := by
  have hvalid : bs.toByteArray.IsValidUTF8 := by
    rw [← ByteArray.isSome_utf8Decode?_iff]
    obtain ⟨chars, hchars, -⟩ := Option.map_eq_some_iff.mp h
    rw [hchars]
    rfl
  obtain ⟨chars, hchars⟩ := hvalid
  have hbytes : bs = asBytes chars := by
    have hdata := congrArg (fun x : ByteArray => x.data.toList) (hchars.trans (rfl : _ = (asBytes chars).toByteArray))
    simpa using hdata
  rw [hbytes, fromUtf8_asBytes] at h
  rw [hbytes, Option.some.inj h]

theorem toNat_of_asBytes {rest : Bytes} (h : asBytes (c :: s) = b :: rest)
    (hb : b.toNat < 128) : c.toNat = b.toNat := by
  rw [asBytes, flatMap_cons, String.utf8EncodeChar] at h
  have hval : c.val.toNat = c.toNat := rfl
  grind [List.cons.inj, UInt8.toNat_ofNat']

theorem utf8EncodeChar_ascii (h : b.toNat < 128) : String.utf8EncodeChar (Char.ofNat b.toNat) = [b] := by
  have hall : ∀ n < 128, (Char.ofNat n).val.toNat = n := by decide
  have hval := hall b.toNat h
  rw [String.utf8EncodeChar, if_pos (by omega), hval, UInt8.ofNat_toNat]

theorem asBytes_ascii (h : ∀ b ∈ bs, b.toNat < 128) : asBytes (bs.map fun b => Char.ofNat b.toNat) = bs := by
  induction bs with
  | nil => rfl
  | cons b bs ih =>
    have hb := utf8EncodeChar_ascii (h b mem_cons_self)
    have hrest := ih fun x hx => h x (mem_cons_of_mem b hx)
    rw [asBytes] at hrest ⊢
    rw [map_cons, flatMap_cons, hb, hrest]
    rfl

theorem fromUtf8_ascii (h : ∀ b ∈ bs, b.toNat < 128) : fromUtf8 bs = some (bs.map fun b => Char.ofNat b.toNat) := by
  have hsome := fromUtf8_asBytes (bs.map fun b => Char.ofNat b.toNat)
  rwa [asBytes_ascii h] at hsome

/-! ## Decimal numbers -/

def decimal (n : Nat) : Str := Nat.toDigits 10 n

/-- `str::parse` of an unsigned integer below `bound`: decimal digits after an optional `+`. -/
def parseUnsigned (bound : Nat) (s : Str) : Option Nat :=
  let digits := if s.head? = some '+' then s.tail else s
  if digits ≠ [] ∧ digits.all Char.isDigit ∧ Nat.ofDigitChars 10 digits 0 < bound then
    some (Nat.ofDigitChars 10 digits 0)
  else none

def parseU64 (s : Str) : Option UInt64 := (parseUnsigned (2 ^ 64) s).map UInt64.ofNat

/-- `char::to_digit(16)`. -/
def hexDigit (c : Char) : Option Nat :=
  if c.isDigit then some (c.toNat - 48)
  else if 'a' ≤ c ∧ c ≤ 'f' then some (c.toNat - 87)
  else if 'A' ≤ c ∧ c ≤ 'F' then some (c.toNat - 55)
  else none

theorem isDigit_of_mem_decimal (h : c ∈ decimal n) : c.isDigit :=
  Nat.isDigit_of_mem_toDigits (by decide) (by decide) h

theorem toAsciiLowercase_append (a b : Str) :
    (a ++ b).toAsciiLowercase = a.toAsciiLowercase ++ b.toAsciiLowercase := map_append

/-- Lower case leaves a character alone or makes it a lower-case letter. -/
theorem lowercase_char (c : Char) : let lower := if 'A' ≤ c ∧ c ≤ 'Z' then Char.ofNat (c.toNat + 32) else c
    ¬ ('A' ≤ lower ∧ lower ≤ 'Z') ∧ (lower = c ∨ 97 ≤ lower.toNat) := by
  split
  · next h =>
    have hA : 65 ≤ c.toNat := h.1
    have hZ : c.toNat ≤ 90 := h.2
    have hval : (Char.ofNat (c.toNat + 32)).toNat = c.toNat + 32 := by
      have hall : ∀ n < 128, (Char.ofNat n).toNat = n := by decide
      exact hall _ (by omega)
    refine ⟨fun hupper => ?_, .inr (by omega)⟩
    have : (Char.ofNat (c.toNat + 32)).toNat ≤ 90 := hupper.2
    omega
  · next h => exact ⟨h, .inl rfl⟩

theorem toAsciiLowercase_idem (s : Str) : toAsciiLowercase (toAsciiLowercase s) = toAsciiLowercase s := by
  rw [toAsciiLowercase, toAsciiLowercase, map_map]
  refine map_congr_left fun c _ => ?_
  rw [Function.comp_apply, if_neg (lowercase_char c).1]

theorem toAsciiLowercase_decimal (n : Nat) : (decimal n).toAsciiLowercase = decimal n := by
  refine (map_congr_left ?_).trans (map_id _)
  intro c hc
  have hd := isDigit_of_mem_decimal hc
  simp only [Char.isDigit, Bool.and_eq_true, decide_eq_true_eq] at hd
  have hle : c.toNat ≤ 57 := UInt32.le_iff_toNat_le.mp hd.2
  apply if_neg
  intro hA
  have hge : 65 ≤ c.toNat := UInt32.le_iff_toNat_le.mp hA.1
  omega

theorem decimal_ne_nil (n : Nat) : decimal n ≠ [] := Nat.toDigits_ne_nil

theorem decimal_injective {m : Nat} (h : decimal m = decimal n) : m = n := by
  have h' := congrArg (fun l => Nat.ofDigitChars 10 l 0) h
  simpa [decimal] using h'

theorem head?_decimal_ne_plus (n : Nat) : (decimal n).head? ≠ some '+' := by
  intro h
  exact absurd (isDigit_of_mem_decimal (mem_of_mem_head? h)) (by decide)

theorem parseUnsigned_decimal {bound : Nat} (h : n < bound) : parseUnsigned bound (decimal n) = some n := by
  have hv : Nat.ofDigitChars 10 (decimal n) 0 = n := Nat.ofDigitChars_ten_toDigits
  have hall : (decimal n).all Char.isDigit = true := all_eq_true.mpr fun _ hc => isDigit_of_mem_decimal hc
  simp only [parseUnsigned, head?_decimal_ne_plus, if_false, hv, hall, decimal_ne_nil, h, ne_eq,
    not_false_eq_true, and_self, if_true]

theorem parseU64_decimal (n : UInt64) : parseU64 (decimal n.toNat) = some n := by
  rw [parseU64, parseUnsigned_decimal n.toNat_lt, Option.map_some, UInt64.ofNat_toNat]

/-! ## Cutting at a separator -/

theorem splitOnce_append {a : Str} (h : c ∉ a) (b : Str) : splitOnce c (a ++ c :: b) = some (a, b) := by
  induction a with
  | nil => simp [splitOnce]
  | cons x a ih =>
    simp only [mem_cons, not_or] at h
    simp [splitOnce, Ne.symm h.1, ih h.2]

theorem splitOnce_of_notMem (h : c ∉ s) : splitOnce c s = none := by
  induction s with
  | nil => rfl
  | cons x s ih =>
    simp only [mem_cons, not_or] at h
    simp [splitOnce, Ne.symm h.1, ih h.2]

theorem split_of_notMem (h : c ∉ s) : split c s = [s] :=
  splitOn_eq_singleton h

theorem fields_of_notMem (h : c ∉ s) (hne : s ≠ []) : fields c s = [s] := by
  simp [fields, split_of_notMem h, hne]

@[simp] theorem fields_nil (c : Char) : fields c [] = [] := by
  simp [fields, split]

theorem fields_append_cons (c : Char) (a b : Str) : fields c (a ++ c :: b) = fields c a ++ fields c b := by
  simp [fields, split, splitOn_append_cons_self]

@[simp] theorem fields_cons_self (c : Char) (s : Str) : fields c (c :: s) = fields c s := by
  simpa using fields_append_cons c [] s

@[simp] theorem fields_append_self (c : Char) (s : Str) : fields c (s ++ [c]) = fields c s := by
  simpa using fields_append_cons c s []

theorem fields_dropWhile (c : Char) (s : Str) : fields c (s.dropWhile (· == c)) = fields c s := by
  induction s with
  | nil => rfl
  | cons x s ih =>
    by_cases hx : x = c
    · subst hx
      simp [ih]
    · simp [hx]

theorem fields_trimEndMatches (c : Char) (s : Str) : fields c (trimEndMatches c s) = fields c s := by
  induction s using List.reverseRecOn with
  | nil => rfl
  | append_singleton s x ih =>
    rw [trimEndMatches, rdropWhile_concat]
    split
    · rename_i hx
      rw [eq_of_beq hx, fields_append_self]
      exact ih
    · rfl

theorem fields_trimMatches (c : Char) (s : Str) : fields c (trimMatches c s) = fields c s := by
  rw [trimMatches, fields_trimEndMatches, fields_dropWhile]

/-! ## Trimming -/

theorem trimEndMatches_append (t : Str) (hne : s ≠ []) (h : c ∉ s) : trimEndMatches c (t ++ s) = t ++ s := by
  rw [trimEndMatches, rdropWhile_eq_self_iff]
  grind

theorem trimEndMatches_append_self (c : Char) (s : Str) : trimEndMatches c (s ++ [c]) = trimEndMatches c s := by
  simp [trimEndMatches]

theorem trimEndMatches_cons (x : Char) (h : trimEndMatches c s ≠ []) :
    trimEndMatches c (x :: s) = x :: trimEndMatches c s := by
  induction s using List.reverseRecOn with
  | nil => exact absurd rfl h
  | append_singleton s y ih =>
    simp only [trimEndMatches] at *
    rw [← cons_append, rdropWhile_concat, rdropWhile_concat]
    rw [rdropWhile_concat] at h
    split
    · next hy => exact ih (by rwa [if_pos hy] at h)
    · rfl

theorem endsWith_trimEndMatches (c : Char) (s : Str) : endsWith c (trimEndMatches c s) = false := by
  have hlast := rdropWhile_last_not (· == c) s
  rw [endsWith, trimEndMatches]
  cases hne : List.rdropWhile (· == c) s with
  | nil => rfl
  | cons x t =>
    have hnil : List.rdropWhile (· == c) s ≠ [] := by rw [hne]; exact cons_ne_nil x t
    have := hlast hnil
    rw [← hne, getLast?_eq_some_getLast hnil]
    simpa using this

theorem trimEndMatches_of_endsWith_eq_false (h : endsWith c s = false) : trimEndMatches c s = s := by
  rw [trimEndMatches, rdropWhile_eq_self_iff]
  grind [endsWith, getLast?_eq_some_getLast]

theorem trimEndMatches_eq_nil_or_head? (c : Char) (s : Str) :
    trimEndMatches c s = [] ∨ (trimEndMatches c s).head? = s.head? := by
  obtain ⟨t, ht⟩ := rdropWhile_prefix (p := (· == c)) s
  cases hp : trimEndMatches c s with
  | nil => exact Or.inl rfl
  | cons x rest =>
    right
    rw [trimEndMatches] at hp
    rw [hp] at ht
    rw [← ht]
    rfl

theorem trim_eq_self (hhead : ∀ c, s.head? = some c → isWhitespace c = false)
    (hlast : ∀ c, s.getLast? = some c → isWhitespace c = false) : trim s = s := by
  have hd : s.dropWhile isWhitespace = s := by
    cases s with
    | nil => rfl
    | cons x s => simp [hhead x rfl]
  rw [trim, hd, rdropWhile_eq_self_iff]
  intro hl
  simp [hlast _ (getLast?_eq_some_getLast hl)]

theorem getLast?_trim (s : Str) : ∀ c, (trim s).getLast? = some c → isWhitespace c = false := by
  intro c hc
  have hne : trim s ≠ [] := fun hnil => by simp [hnil] at hc
  have hlast := rdropWhile_last_not isWhitespace (s.dropWhile isWhitespace) hne
  rw [getLast?_eq_some_getLast hne] at hc
  rw [← Option.some.inj hc]
  exact Bool.eq_false_iff.mpr hlast

theorem head?_trim (s : Str) : ∀ c, (trim s).head? = some c → isWhitespace c = false := by
  intro c hc
  obtain ⟨rest, hrest⟩ : trim s <+: s.dropWhile isWhitespace := rdropWhile_prefix isWhitespace _
  have hhead : (s.dropWhile isWhitespace).head? = some c := by
    rw [← hrest, head?_append, hc]
    rfl
  have hnot := head?_dropWhile_not isWhitespace s
  rw [hhead] at hnot
  simpa using hnot

theorem trim_trim (s : Str) : trim (trim s) = trim s := trim_eq_self (head?_trim s) (getLast?_trim s)

theorem trim_concat (hc : isWhitespace c = true) (s : Str) : trim (s ++ [c]) = trim s := by
  simp only [trim, dropWhile_append]
  split
  · next hempty =>
    rw [isEmpty_iff.mp hempty]
    simp [hc]
  · exact rdropWhile_concat_pos isWhitespace _ _ hc

theorem stripPrefix_append (p s : Str) : stripPrefix p (p ++ s) = some s := by
  simp [stripPrefix]

end Str

end Xhttp.Lib
