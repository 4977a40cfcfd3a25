import Xhttp.Http.Stack

/- The crate `base64` with its engine `URL_SAFE_NO_PAD`, as a parameter: decoding
   inverts encoding, and an encoding has letters, digits, `-` and `_` only. The
   encoding is ASCII, so a chunk of its bytes is a chunk of its characters.
   `Base64.urlSafeNoPad` is the encoding of the standard, group by group, and obeys
   both laws. -/
namespace Xhttp
open Lib

structure Base64 where
  encode : Bytes → Str
  decode : Str → Option Bytes
  decode_encode : ∀ bytes, decode (encode bytes) = some bytes
  encode_chars : ∀ bytes, ∀ c ∈ encode bytes, tokenChar c = true

namespace Base64

def digit (n : Nat) : Char :=
  if n < 26 then Char.ofNat (65 + n)
  else if n < 52 then Char.ofNat (71 + n)
  else if n < 62 then Char.ofNat (n - 4)
  else if n = 62 then '-' else '_'

def value (c : Char) : Option Nat :=
  let n := c.toNat
  if 65 ≤ n ∧ n ≤ 90 then some (n - 65)
  else if 97 ≤ n ∧ n ≤ 122 then some (n - 71)
  else if 48 ≤ n ∧ n ≤ 57 then some (n + 4)
  else if n = 45 then some 62
  else if n = 95 then some 63
  else none

/-- The six bits that end one byte and start the next. -/
def second (a b : UInt8) : Nat := a.toNat % 4 * 16 + b.toNat / 16

def third (b c : UInt8) : Nat := b.toNat % 16 * 4 + c.toNat / 64

def encodeGroups : Bytes → Str
  | a :: b :: c :: rest =>
    digit (a.toNat / 4) :: digit (second a b) :: digit (third b c) :: digit (c.toNat % 64) ::
      encodeGroups rest
  | [a, b] => [digit (a.toNat / 4), digit (second a b), digit (third b 0)]
  | [a] => [digit (a.toNat / 4), digit (second a 0)]
  | [] => []

def firstByte (w x : Nat) : UInt8 := UInt8.ofNat (w * 4 + x / 16)

def secondByte (x y : Nat) : UInt8 := UInt8.ofNat (x % 16 * 16 + y / 4)

def thirdByte (y z : Nat) : UInt8 := UInt8.ofNat (y % 4 * 64 + z)

/-- The last group has to have zeros behind its last byte. -/
def decodeGroups : Str → Option Bytes
  | w :: x :: y :: z :: rest => do
    let w ← value w
    let x ← value x
    let y ← value y
    let z ← value z
    let bytes ← decodeGroups rest
    pure (firstByte w x :: secondByte x y :: thirdByte y z :: bytes)
  | [w, x, y] => do
    let w ← value w
    let x ← value x
    let y ← value y
    if y % 4 = 0 then pure [firstByte w x, secondByte x y] else none
  | [w, x] => do
    let w ← value w
    let x ← value x
    if x % 16 = 0 then pure [firstByte w x] else none
  | [_] => none
  | [] => some []

theorem value_digit : ∀ n < 64, value (digit n) = some n := by decide +kernel

theorem tokenChar_digit (n : Nat) : tokenChar (digit n) = true := by
  have hlow : ∀ m < 63, tokenChar (digit m) = true := by decide +kernel
  by_cases h : n < 63
  · exact hlow n h
  · have hlast : digit n = '_' := by
      unfold digit
      rw [if_neg (by omega), if_neg (by omega), if_neg (by omega), if_neg (by omega)]
    rw [hlast]
    decide

theorem value_first (a : UInt8) : value (digit (a.toNat / 4)) = some (a.toNat / 4) := by
  have := a.toNat_lt
  exact value_digit _ (by omega)

theorem value_second (a b : UInt8) : value (digit (second a b)) = some (second a b) := by
  have := b.toNat_lt
  exact value_digit _ (by unfold second; omega)

theorem value_third (b c : UInt8) : value (digit (third b c)) = some (third b c) := by
  have := c.toNat_lt
  exact value_digit _ (by unfold third; omega)

theorem ofNat_eq {a : UInt8} {n : Nat} (h : n = a.toNat) : UInt8.ofNat n = a := by
  rw [h, UInt8.ofNat_toNat]

theorem firstByte_eq (a b : UInt8) : firstByte (a.toNat / 4) (second a b) = a := by
  have := b.toNat_lt
  exact ofNat_eq (by unfold second; omega)

theorem secondByte_eq (a b c : UInt8) : secondByte (second a b) (third b c) = b := by
  have hb := b.toNat_lt
  have hc := c.toNat_lt
  exact ofNat_eq (by unfold second third; omega)

theorem thirdByte_eq (b c : UInt8) : thirdByte (third b c) (c.toNat % 64) = c := by
  have := c.toNat_lt
  exact ofNat_eq (by unfold third; omega)

theorem decodeGroups_encodeGroups (bytes : Bytes) : decodeGroups (encodeGroups bytes) = some bytes := by
  fun_induction encodeGroups bytes with
  | case1 a b c rest ih =>
    have hlast : value (digit (c.toNat % 64)) = some (c.toNat % 64) := value_digit _ (by omega)
    simp [decodeGroups, value_first, value_second, value_third, hlast, ih, firstByte_eq, secondByte_eq, thirdByte_eq]
  | case2 a b =>
    have hzero : third b 0 % 4 = 0 := by
      simp only [third, UInt8.toNat_zero]
      omega
    simp [decodeGroups, value_first, value_second, value_third, firstByte_eq, secondByte_eq, hzero]
  | case3 a =>
    have hzero : second a 0 % 16 = 0 := by
      simp only [second, UInt8.toNat_zero]
      omega
    simp [decodeGroups, value_first, value_second, firstByte_eq, hzero]
  | case4 => rfl

theorem tokenChar_of_mem_encodeGroups (bytes : Bytes) : ∀ c ∈ encodeGroups bytes, tokenChar c = true := by
  fun_induction encodeGroups bytes with
  | case1 a b c rest ih =>
    simp only [List.forall_mem_cons, tokenChar_digit, true_and]
    exact ih
  | _ => simp [tokenChar_digit]

def urlSafeNoPad : Base64 := ⟨encodeGroups, decodeGroups, decodeGroups_encodeGroups, tokenChar_of_mem_encodeGroups⟩

end Base64

end Xhttp
