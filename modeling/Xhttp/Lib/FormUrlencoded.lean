import Xhttp.Lib.Text

/- `application/x-www-form-urlencoded`: names and values as bytes, with `+` for a
   space and `%XX` for every other byte that is not a letter, a digit or one of
   `*-._`. `parse_append` is the round trip: a pair appended to a query is parsed
   behind the pairs of the query, whatever characters it has. Bytes that are not
   UTF-8 decode to the empty string here. -/
namespace Xhttp.Lib.FormUrlencoded
open List

/-- The bytes that stand for themselves. -/
def unreserved (b : UInt8) : Bool :=
  let n := b.toNat
  (48 ≤ n && n ≤ 57) || (65 ≤ n && n ≤ 90) || (97 ≤ n && n ≤ 122) || n == 42 || n == 45 || n == 46 ||
    n == 95

def upperHex (n : Nat) : Char := if n < 10 then Char.ofNat (48 + n) else Char.ofNat (55 + n)

def encodeByte (b : UInt8) : Str :=
  if unreserved b then [Char.ofNat b.toNat]
  else if b = 32 then ['+']
  else ['%', upperHex (b.toNat / 16), upperHex (b.toNat % 16)]

def encode (s : Str) : Str := s.asBytes.flatMap encodeByte

/-- A character outside an escape. -/
def decodeChar (c : Char) : Bytes := if c = '+' then [32] else String.utf8EncodeChar c

def decodeBytes : Str → Bytes
  | [] => []
  | c :: hi :: lo :: rest =>
    match c == '%', Str.hexDigit hi, Str.hexDigit lo with
    | true, some h, some l => UInt8.ofNat (16 * h + l) :: decodeBytes rest
    | _, _, _ => decodeChar c ++ decodeBytes (hi :: lo :: rest)
  | c :: rest => decodeChar c ++ decodeBytes rest

def decode (s : Str) : Str := (Str.fromUtf8 (decodeBytes s)).getD []

def parsePair (part : Str) : Str × Str :=
  match part.splitOnce '=' with
  | some (name, value) => (decode name, decode value)
  | none => (decode part, [])

def parse (query : Str) : List (Str × Str) := (query.fields '&').map parsePair

/-- The query with one more pair. -/
def append (query name value : Str) : Str :=
  (if query = [] then [] else query ++ ['&']) ++ encode name ++ '=' :: encode value

/-! ## Round trip -/

theorem hexDigit_upperHex : ∀ n < 16, Str.hexDigit (upperHex n) = some n := by decide

/-- The characters of an encoded byte: visible, and none of the separators. -/
def plain (c : Char) : Bool := 33 ≤ c.toNat && c.toNat ≤ 126 && c != '&' && c != '=' && c != '#'

theorem plain_upperHex : ∀ n < 16, plain (upperHex n) = true := by decide

theorem unreserved_char : ∀ n < 256, unreserved (UInt8.ofNat n) = true →
    Char.ofNat n ≠ '+' ∧ Char.ofNat n ≠ '%' ∧ n < 128 ∧ plain (Char.ofNat n) = true := by
  decide +kernel

theorem unreserved_toNat {b : UInt8} (h : unreserved b = true) :
    Char.ofNat b.toNat ≠ '+' ∧ Char.ofNat b.toNat ≠ '%' ∧ b.toNat < 128 ∧
      plain (Char.ofNat b.toNat) = true :=
  unreserved_char b.toNat b.toNat_lt (by rwa [UInt8.ofNat_toNat])

theorem plain_of_mem_encode {s : Str} : ∀ c ∈ encode s, plain c = true := by
  intro c hc
  obtain ⟨b, -, hb⟩ := mem_flatMap.mp hc
  have hlt := b.toNat_lt
  unfold encodeByte at hb
  split at hb
  · next h => exact mem_singleton.mp hb ▸ (unreserved_toNat h).2.2.2
  · split at hb
    · rw [mem_singleton.mp hb]
      decide
    · simp only [mem_cons, not_mem_nil, or_false] at hb
      rcases hb with rfl | rfl | rfl
      · decide
      · exact plain_upperHex _ (by omega)
      · exact plain_upperHex _ (by omega)

theorem decodeBytes_cons {c : Char} (h : c ≠ '%') (rest : Str) :
    decodeBytes (c :: rest) = decodeChar c ++ decodeBytes rest := by
  have hc : (c == '%') = false := by simpa using h
  match rest with
  | [] => rfl
  | [x] => rfl
  | hi :: lo :: rest => simp only [decodeBytes, hc]

theorem decodeBytes_encodeByte (b : UInt8) (rest : Str) :
    decodeBytes (encodeByte b ++ rest) = b :: decodeBytes rest := by
  have hlt := b.toNat_lt
  unfold encodeByte
  split
  · simp_all [unreserved_toNat, decodeBytes_cons, decodeChar, Str.utf8EncodeChar_ascii]
  · split
    · next h =>
      rw [singleton_append, decodeBytes_cons (by decide), h]
      rfl
    · -- the two digits give the byte back
      have hhi := hexDigit_upperHex (b.toNat / 16) (by omega)
      have hlo := hexDigit_upperHex (b.toNat % 16) (by omega)
      simp only [cons_append, nil_append, decodeBytes, hhi, hlo, beq_self_eq_true,
        Nat.div_add_mod, UInt8.ofNat_toNat]

theorem decode_encode (s : Str) : decode (encode s) = s := by
  have hbytes : ∀ bs : Bytes, decodeBytes (bs.flatMap encodeByte) = bs := by
    intro bs
    induction bs with
    | nil => rfl
    | cons b bs ih => rw [flatMap_cons, decodeBytes_encodeByte, ih]
  rw [decode, encode, hbytes, Str.fromUtf8_asBytes]
  rfl

theorem parse_append (query name value : Str) : parse (append query name value) = parse query ++ [(name, value)] := by
  have hname : '=' ∉ encode name := fun h => absurd (plain_of_mem_encode _ h) (by decide)
  have hpart : '&' ∉ encode name ++ '=' :: encode value := by
    simp only [mem_append, mem_cons, not_or]
    exact ⟨fun h => absurd (plain_of_mem_encode _ h) (by decide), by decide,
      fun h => absurd (plain_of_mem_encode _ h) (by decide)⟩
  have hpair : parsePair (encode name ++ '=' :: encode value) = (name, value) := by
    simp only [parsePair, Str.splitOnce_append hname, decode_encode]
  have hlast : (Str.fields '&' (encode name ++ '=' :: encode value)).map parsePair = [(name, value)] := by
    rw [Str.fields_of_notMem hpart (by simp), map_singleton, hpair]
  unfold append parse
  split
  · next h =>
    subst h
    simpa using hlast
  · calc (Str.fields '&' (query ++ ['&'] ++ encode name ++ '=' :: encode value)).map parsePair
        = (Str.fields '&' (query ++ '&' :: (encode name ++ '=' :: encode value))).map parsePair := by
          rw [append_assoc, append_assoc, singleton_append]
      _ = (Str.fields '&' query).map parsePair ++
            (Str.fields '&' (encode name ++ '=' :: encode value)).map parsePair := by
          rw [Str.fields_append_cons, map_append]
      _ = (Str.fields '&' query).map parsePair ++ [(name, value)] := by rw [hlast]

end Xhttp.Lib.FormUrlencoded
