import Xhttp.Net

/- `str::parse::<IpAddr>` of the standard library (`core::net::parser`), and that it reads back what `Display` writes
   (`IpAddr.parse_text`). So two addresses with one text are equal, and a text that is not read is not the text of an
   address.

   A reader gives a value and the rest of the text, or nothing, and then the text is as it was (`read_atomically`).
   `read_groups` reads up to so many groups of an IPv6 address, of which the last two may be written as an IPv4
   address. -/
namespace Xhttp
open Xhttp.Lib Vless List

namespace IpText

/-! ## Reading -/

abbrev Read (α : Type) := Str → Option (α × Str)

def toDigit (radix : Nat) (c : Char) : Option Nat := (Str.hexDigit c).filter (· < radix)

def isDigitOf (radix : Nat) (c : Char) : Bool := (toDigit radix c).isSome

def valueOf (radix : Nat) (digits : Str) : Nat :=
  digits.foldl (fun value c => value * radix + (toDigit radix c).getD 0) 0

/-- `read_number`, for a number below `bound`. -/
def readNumber (radix maxDigits : Nat) (allowZeroFirst : Bool) (bound : Nat) : Read Nat := fun s =>
  let digits := s.takeWhile (isDigitOf radix)
  if digits = [] ∨ maxDigits < digits.length ∨
      (allowZeroFirst = false ∧ digits.head? = some '0' ∧ 1 < digits.length) then none
  else if valueOf radix digits < bound then some (valueOf radix digits, s.dropWhile (isDigitOf radix))
  else none

def readSeparator {α : Type} (separator : Char) (index : Nat) (inner : Read α) : Read α := fun s =>
  if index = 0 then inner s
  else match s with
    | [] => none
    | c :: rest => if c = separator then inner rest else none

def readOctets : Nat → Nat → Read Bytes
  | 0, _ => fun s => some ([], s)
  | count + 1, index => fun s =>
    match readSeparator '.' index (readNumber 10 3 false 256) s with
    | none => none
    | some (octet, rest) =>
      (readOctets count (index + 1) rest).map fun (octets, rest) => (UInt8.ofNat octet :: octets, rest)

def readIpv4 : Read Bytes := readOctets 4 0

/-- `read_groups`, with the groups left and the index of the next: the groups, whether they end in an IPv4 address, and
    the rest of the text. -/
def readGroups : Nat → Nat → Str → List Nat × Bool × Str
  | 0, _, s => ([], false, s)
  | left + 1, index, s =>
    match if 0 < left then readSeparator ':' index readIpv4 s else none with
    | some (octets, rest) => (ipv6Segments octets, true, rest)
    | none =>
      match readSeparator ':' index (readNumber 16 4 true 65536) s with
      | none => ([], false, s)
      | some (group, rest) =>
        let (groups, ipv4, rest) := readGroups left (index + 1) rest
        (group :: groups, ipv4, rest)

/-- `read_ipv6_addr`: the segments. -/
def readIpv6 : Read (List Nat) := fun s =>
  let (head, ipv4, rest) := readGroups 8 0 s
  if head.length = 8 then some (head, rest)
  else if ipv4 then none
  else match rest with
    | ':' :: ':' :: rest =>
      let (tail, _, rest) := readGroups (8 - (head.length + 1)) 0 rest
      some (head ++ List.replicate (8 - head.length - tail.length) 0 ++ tail, rest)
    | _ => none

def ipv6Octets (segments : List Nat) : Bytes :=
  segments.flatMap fun segment => [UInt8.ofNat (segment / 256), UInt8.ofNat (segment % 256)]

def readIp : Read IpAddr := fun s =>
  match readIpv4 s with
  | some (octets, rest) => some (.ofBits true (beNat octets), rest)
  | none => (readIpv6 s).map fun (segments, rest) => (.ofBits false (beNat (ipv6Octets segments)), rest)

end IpText

def Vless.IpAddr.parse (s : Str) : Option IpAddr :=
  match IpText.readIp s with
  | some (address, []) => some address
  | _ => none

def Vless.parseDestination (host : Str) (port : UInt16) : Destination :=
  match IpAddr.parse host with
  | some ip => .ip ip port
  | none => .domain host port

namespace IpText

/-! ## Numbers -/

section
variable {radix n : Nat}

theorem hexDigit_digitChar (h : n < 16) : Str.hexDigit (Nat.digitChar n) = some n := by
  have hall : ∀ n < 16, Str.hexDigit (Nat.digitChar n) = some n := by decide
  exact hall n h

theorem toDigit_digitChar (hle : radix ≤ 16) (h : n < radix) : toDigit radix (Nat.digitChar n) = some n := by
  simp [toDigit, hexDigit_digitChar (h.trans_le hle), h]

/-- The digits of a number are digits, and give the number. By induction on the number of digits. -/
theorem toDigits_digits (hlt : 1 < radix) (hle : radix ≤ 16) (n : Nat) :
    (∀ c ∈ Nat.toDigits radix n, isDigitOf radix c = true) ∧ valueOf radix (Nat.toDigits radix n) = n := by
  induction n using Nat.strong_induction_on with
  | _ n ih =>
    rw [Nat.toDigits_eq_if hlt]
    split
    · next hsmall => simp [isDigitOf, valueOf, toDigit_digitChar hle hsmall]
    · next hlarge =>
      have hmod : n % radix < radix := Nat.mod_lt n (by omega)
      obtain ⟨hdigits, hvalue⟩ := ih (n / radix) (Nat.div_lt_self (by omega) hlt)
      constructor
      · grind [mem_singleton, isDigitOf, toDigit_digitChar]
      · rw [valueOf] at hvalue
        rw [valueOf, foldl_append, hvalue]
        simp only [foldl_cons, foldl_nil, toDigit_digitChar hle hmod, Option.getD_some]
        exact Nat.div_add_mod' n radix

theorem toDigits_head_zero (hlt : 1 < radix) (n : Nat) (h : (Nat.toDigits radix n).head? = some '0') : n = 0 := by
  induction n using Nat.strong_induction_on with
  | _ n ih =>
    rw [Nat.toDigits_eq_if hlt] at h
    split at h
    · simpa using h
    · next hlarge =>
      rw [head?_append_of_ne_nil _ Nat.toDigits_ne_nil] at h
      have hzero := ih (n / radix) (Nat.div_lt_self (by omega) hlt) h
      have := (Nat.div_eq_zero_iff.mp hzero)
      omega

variable {allowZeroFirst : Bool}

theorem readNumber_toDigits {maxDigits bound : Nat} {rest : Str} (hlt : 1 < radix)
    (hle : radix ≤ 16) (hmax : 0 < maxDigits) (hdigits : n < radix ^ maxDigits) (hbound : n < bound)
    (hrest : ∀ c, rest.head? = some c → isDigitOf radix c = false) :
    readNumber radix maxDigits allowZeroFirst bound (Nat.toDigits radix n ++ rest) = some (n, rest) := by
  obtain ⟨hall, hvalue⟩ := toDigits_digits hlt hle n
  have htake : (Nat.toDigits radix n ++ rest).takeWhile (isDigitOf radix) = Nat.toDigits radix n := by
    rw [takeWhile_append_of_pos hall]
    cases rest with
    | nil => simp
    | cons c rest => simp [hrest c rfl]
  have hdrop : (Nat.toDigits radix n ++ rest).dropWhile (isDigitOf radix) = rest := by
    rw [dropWhile_append_of_pos hall]
    cases rest with
    | nil => rfl
    | cons c rest => simp [hrest c rfl]
  have hlength : (Nat.toDigits radix n).length ≤ maxDigits := (Nat.length_toDigits_le_iff hlt hmax).mpr hdigits
  have hzero : ¬((Nat.toDigits radix n).head? = some '0' ∧ 1 < (Nat.toDigits radix n).length) := by
    rintro ⟨hhead, hlong⟩
    rw [toDigits_head_zero hlt n hhead, Nat.toDigits_zero] at hlong
    exact absurd hlong (by decide)
  rw [readNumber]
  simp only [htake, hdrop, hvalue, Nat.toDigits_ne_nil, false_or, Nat.not_lt.mpr hlength, hzero, and_false, if_false,
    if_pos hbound]

end

variable {s : Str} {segments : List Nat} {zeroes : Nat × Nat}

theorem readNumber_none {radix maxDigits bound : Nat}
    (h : ∀ c, s.head? = some c → isDigitOf radix c = false) :
    readNumber radix maxDigits allowZeroFirst bound s = none := by
  have htake : s.takeWhile (isDigitOf radix) = [] := by
    cases s with
    | nil => rfl
    | cons c s => simp [h c rfl]
  simp [readNumber, htake]

section
variable {α : Type} {separator : Char} {inner : Read α}

@[simp] theorem readSeparator_zero (s : Str) : readSeparator separator 0 inner s = inner s := rfl

@[simp] theorem readSeparator_succ_self (index : Nat) (s : Str) :
    readSeparator separator (index + 1) inner (separator :: s) = inner s := by
  simp [readSeparator]

theorem readSeparator_succ_none (index : Nat) (h : s.head? ≠ some separator) :
    readSeparator separator (index + 1) inner s = none := by
  cases s with
  | nil => rfl
  | cons c s =>
    have hc : c ≠ separator := fun heq => h (by simp [heq])
    simp [readSeparator, hc]

end

/-! ## IPv4 -/

theorem readNumber_rest {radix maxDigits bound n : Nat} {rest : Str}
    (h : readNumber radix maxDigits allowZeroFirst bound s = some (n, rest)) : rest <:+ s := by
  grind [readNumber, dropWhile_suffix]

theorem readIpv4_of_readNumber (h : readNumber 10 3 false 256 s = none) : readIpv4 s = none := by
  simp only [readIpv4, readOctets, readSeparator_zero, h]

theorem readIpv4_none (h : '.' ∉ s) : readIpv4 s = none := by
  cases hread : readNumber 10 3 false 256 s with
  | none => exact readIpv4_of_readNumber hread
  | some result =>
    obtain ⟨octet, rest⟩ := result
    have hrest : '.' ∉ rest := fun hmem => h ((readNumber_rest hread).subset hmem)
    have hnext : readSeparator '.' (0 + 1) (readNumber 10 3 false 256) rest = none :=
      readSeparator_succ_none 0 fun hhead => hrest (mem_of_mem_head? hhead)
    simp only [readIpv4, readOctets, readSeparator_zero, hread, hnext, Option.map_none]

theorem readNumber_octet (b : UInt8) {rest : Str} (hrest : ∀ c, rest.head? = some c → isDigitOf 10 c = false) :
    readNumber 10 3 false 256 (Str.decimal b.toNat ++ rest) = some (b.toNat, rest) :=
  readNumber_toDigits (by decide) (by decide) (by decide) (b.toNat_lt.trans (by decide)) b.toNat_lt hrest

theorem readIpv4_text {octets : Bytes} (hlength : octets.length = 4) (rest : Str)
    (hrest : ∀ c, rest.head? = some c → isDigitOf 10 c = false) :
    readIpv4 (ipv4Text octets ++ rest) = some (octets, rest) := by
  obtain ⟨a, b, c, d, rfl⟩ : ∃ a b c d, octets = [a, b, c, d] := by
    match octets, hlength with
    | [a, b, c, d], _ => exact ⟨a, b, c, d, rfl⟩
  have hdot : ∀ s : Str, ∀ c, ('.' :: s).head? = some c → isDigitOf 10 c = false := by
    intro s c hc
    obtain rfl := Option.some.inj hc
    decide
  simp only [ipv4Text, map_cons, map_nil, List.intercalate, List.intersperse, flatten_cons,
    flatten_nil, append_nil, append_assoc, cons_append, nil_append]
  simp only [readIpv4, readOctets, readSeparator_zero, readSeparator_succ_self, readNumber_octet _ (hdot _),
    readNumber_octet d hrest, Option.map_some, UInt8.ofNat_toNat]

/-! ## IPv6 -/

def groupsText (segments : List Nat) : Str := segments.flatMap fun segment => ':' :: Nat.toDigits 16 segment

theorem ipv6Subslice_cons (segment : Nat) (segments : List Nat) :
    ipv6Subslice (segment :: segments) = Nat.toDigits 16 segment ++ groupsText segments := by
  induction segments generalizing segment with
  | nil => simp [ipv6Subslice, groupsText, List.intercalate]
  | cons next segments ih =>
    have hcons : ipv6Subslice (segment :: next :: segments) =
        Nat.toDigits 16 segment ++ ':' :: ipv6Subslice (next :: segments) := by
      simp [ipv6Subslice, List.intercalate]
    rw [hcons, ih]
    simp [groupsText]

/-- Here the groups end: at the end of the text, or before `::`. -/
def Stops (s : Str) : Prop := s = [] ∨ ∃ rest, s = ':' :: ':' :: rest

theorem isDigitOf_colon (radix : Nat) : isDigitOf radix ':' = false := by
  have h : Str.hexDigit ':' = none := by decide
  simp [isDigitOf, toDigit, h]

theorem head_groupsText (segments : List Nat) {rest : Str} (h : Stops rest) (radix : Nat) :
    ∀ c, (groupsText segments ++ rest).head? = some c → isDigitOf radix c = false := by
  have hcolon : ∀ s : Str, ∀ c, (':' :: s).head? = some c → isDigitOf radix c = false := by
    intro s c hc
    obtain rfl := Option.some.inj hc
    exact isDigitOf_colon radix
  cases segments with
  | nil =>
    rcases h with rfl | ⟨rest, rfl⟩
    · exact nofun
    · exact hcolon _
  | cons segment segments => exact hcolon _

theorem dot_notMem_toDigits (n : Nat) : '.' ∉ Nat.toDigits 16 n := by
  intro h
  have hdigit := (toDigits_digits (by decide) (Nat.le_refl 16) n).1 '.' h
  exact absurd hdigit (by decide)

theorem dot_notMem_groupsText (segments : List Nat) : '.' ∉ groupsText segments := by
  simp [groupsText, dot_notMem_toDigits]

theorem dot_notMem_ipv6Subslice (segments : List Nat) : '.' ∉ ipv6Subslice segments := by
  cases segments with
  | nil => simp [ipv6Subslice, List.intercalate]
  | cons segment segments =>
    rw [ipv6Subslice_cons]
    simp [dot_notMem_toDigits, dot_notMem_groupsText]

theorem readNumber_group {segment : Nat} {rest : Str} (hsmall : segment < 65536)
    (hrest : ∀ c, rest.head? = some c → isDigitOf 16 c = false) :
    readNumber 16 4 true 65536 (Nat.toDigits 16 segment ++ rest) = some (segment, rest) :=
  readNumber_toDigits (by decide) (by decide) (by decide) hsmall hsmall hrest

theorem readGroups_stop {rest : Str} (h : Stops rest) (hdot : '.' ∉ rest) (left index : Nat) :
    readGroups left index rest = ([], false, rest) := by
  cases left with
  | zero => rfl
  | succ left =>
    have hnumber : ∀ s, Stops s ∨ s.head? = some ':' → readNumber 16 4 true 65536 s = none := by
      rintro s (hs | hs) <;> refine readNumber_none fun c hc => ?_
      · exact head_groupsText [] hs 16 c hc
      · simp_all [isDigitOf_colon]
    have hboth : readSeparator ':' index readIpv4 rest = none ∧
        readSeparator ':' index (readNumber 16 4 true 65536) rest = none := by
      cases index with
      | zero => exact ⟨readIpv4_none hdot, hnumber rest (.inl h)⟩
      | succ index =>
        rcases h with rfl | ⟨rest, rfl⟩
        · exact ⟨rfl, rfl⟩
        simp_all [readSeparator_succ_self, readIpv4_none]
    rw [readGroups, hboth.1, hboth.2]
    simp

theorem readIpv4_groups (segment : Nat) (segments : List Nat) {rest : Str} (hdot : '.' ∉ rest) :
    readIpv4 (Nat.toDigits 16 segment ++ (groupsText segments ++ rest)) = none := by
  refine readIpv4_none ?_
  simp [dot_notMem_toDigits, dot_notMem_groupsText, hdot]

/-- Groups that follow another are read to their end; by induction on the groups. -/
theorem readGroups_groupsText {rest : Str} (hstop : Stops rest) (hdot : '.' ∉ rest)
    (hsmall : ∀ segment ∈ segments, segment < 65536) : ∀ {left index : Nat}, segments.length ≤ left →
      readGroups left (index + 1) (groupsText segments ++ rest) = (segments, false, rest) := by
  induction segments with
  | nil => exact fun {left index} _ => readGroups_stop hstop hdot left (index + 1)
  | cons segment segments ih =>
    intro left index hleft
    cases left with
    | zero => simp at hleft
    | succ left =>
      have htext : groupsText (segment :: segments) ++ rest =
          ':' :: (Nat.toDigits 16 segment ++ (groupsText segments ++ rest)) := by simp [groupsText]
      have hipv4 := readIpv4_groups segment segments hdot
      have hgroup := readNumber_group (hsmall segment mem_cons_self) (head_groupsText segments hstop 16)
      rw [htext, readGroups]
      simp_all

theorem readGroups_text (left : Nat) (rest : Str) (hstop : Stops rest) (hdot : '.' ∉ rest)
    (hsmall : ∀ segment ∈ segments, segment < 65536) (hleft : segments.length ≤ left) :
    readGroups left 0 (ipv6Subslice segments ++ rest) = (segments, false, rest) := by
  cases segments with
  | nil => exact readGroups_stop hstop hdot left 0
  | cons segment segments =>
    cases left with
    | zero => simp at hleft
    | succ left =>
      have hipv4 := readIpv4_groups segment segments hdot
      have hgroup := readNumber_group (hsmall segment mem_cons_self) (head_groupsText segments hstop 16)
      rw [ipv6Subslice_cons, append_assoc, readGroups]
      simp_all [readSeparator_zero, ite_self, readGroups_groupsText]

/-- A run: where it starts, and its length. -/
def IsZeros (segments : List Nat) (zeroes : Nat × Nat) : Prop :=
  zeroes.1 + zeroes.2 ≤ segments.length ∧ ∀ i, zeroes.1 ≤ i → i < zeroes.1 + zeroes.2 → segments[i]? = some 0

theorem IsZeros.concat (h : IsZeros segments zeroes) (segment : Nat) : IsZeros (segments ++ [segment]) zeroes := by
  refine ⟨h.1.trans (by simp), fun i hstart hend => ?_⟩
  rw [getElem?_append_left (hend.trans_le h.1)]
  exact h.2 i hstart hend

/-- What the scan knows after a part of the segments. -/
structure Scanned (segments : List Nat) (state : (Nat × Nat) × (Nat × Nat) × Nat) : Prop where
  index : state.2.2 = segments.length
  longest : IsZeros segments state.1
  current : IsZeros segments state.2.1
  ends : state.2.1.2 ≠ 0 → state.2.1.1 + state.2.1.2 = segments.length

theorem Scanned.step {state : (Nat × Nat) × (Nat × Nat) × Nat} (h : Scanned segments state)
    (segment : Nat) : Scanned (segments ++ [segment]) (scanZeros state segment) := by
  obtain ⟨longest, current, i⟩ := state
  obtain ⟨hindex, hlongest, hcurrent, hends⟩ := h
  simp only at hindex hlongest hcurrent hends
  unfold scanZeros
  simp only
  split
  · next hzero =>
    subst hzero
    -- the run that ends here, begun anew or one longer
    have hnew : IsZeros (segments ++ [0]) (if current.2 = 0 then (i, 1) else (current.1, current.2 + 1)) ∧
        (if current.2 = 0 then (i, 1) else (current.1, current.2 + 1)).1 +
          (if current.2 = 0 then (i, 1) else (current.1, current.2 + 1)).2 = (segments ++ [0]).length := by
      split
      · refine ⟨⟨by simp [hindex], fun j hstart hend => ?_⟩, by simp [hindex]⟩
        simp_all
      · next hpos =>
        refine ⟨⟨by simp; omega, fun j hstart hend => ?_⟩, by simp; omega⟩
        rcases Nat.lt_or_ge j segments.length with hold | hlater
        · rw [getElem?_append_left hold]
          exact hcurrent.2 j hstart (by omega)
        grind
    generalize (if current.2 = 0 then (i, 1) else (current.1, current.2 + 1)) = run at hnew ⊢
    refine ⟨by simp [hindex], ?_, hnew.1, fun _ => hnew.2⟩
    split
    · exact hnew.1
    · exact hlongest.concat 0
  · refine ⟨by simp [hindex], hlongest.concat segment, ⟨by simp, fun j _ hend => ?_⟩, absurd rfl⟩
    simp at hend

theorem scanned_foldl (rest : List Nat) : ∀ {segments : List Nat} {state : (Nat × Nat) × (Nat × Nat) × Nat},
    Scanned segments state → Scanned (segments ++ rest) (rest.foldl scanZeros state) := by
  induction rest with
  | nil => simp
  | cons segment rest ih =>
    intro segments state h
    have hnext := ih (h.step segment)
    simpa using hnext

theorem longestZeros_isZeros (segments : List Nat) : IsZeros segments (longestZeros segments) := by
  have hstart : Scanned [] ((0, 0), (0, 0), 0) :=
    ⟨rfl, ⟨Nat.le_refl 0, fun i _ h => absurd h (Nat.not_lt_zero i)⟩,
      ⟨Nat.le_refl 0, fun i _ h => absurd h (Nat.not_lt_zero i)⟩, absurd rfl⟩
  rw [longestZeros]
  have hall := scanned_foldl segments hstart
  simpa using hall.longest

theorem IsZeros.split (h : IsZeros segments zeroes) :
    segments.take zeroes.1 ++ List.replicate zeroes.2 0 ++ segments.drop (zeroes.1 + zeroes.2) = segments := by
  have hmiddle : (segments.drop zeroes.1).take zeroes.2 = List.replicate zeroes.2 0 := by
    refine eq_replicate_iff.mpr ⟨?_, fun segment hmem => ?_⟩
    · have := h.1
      simp
      omega
    · obtain ⟨i, hi⟩ := mem_iff_getElem?.mp hmem
      have hlt : i < zeroes.2 := by
        have := (List.getElem?_eq_some_iff.mp hi).1
        simp at this
        omega
      rw [getElem?_take_of_lt hlt, getElem?_drop, h.2 (zeroes.1 + i) (by omega) (by omega)] at hi
      exact (Option.some.inj hi).symm
  rw [← hmiddle, append_assoc, ← drop_drop, take_append_drop, take_append_drop]

/-! ## Reading back -/

theorem ipv6Octets_segments : ∀ (octets : Bytes), 2 ∣ octets.length → ipv6Octets (ipv6Segments octets) = octets
  | [], _ => rfl
  | [_], h => by simp at h
  | hi :: lo :: rest, h => by
    have hrest : 2 ∣ rest.length := by simpa [Nat.dvd_add_left] using h
    have hlo := lo.toNat_lt
    have hdiv : (hi.toNat * 256 + lo.toNat) / 256 = hi.toNat := by omega
    have hmod : (hi.toNat * 256 + lo.toNat) % 256 = lo.toNat := by omega
    have ih := ipv6Octets_segments rest hrest
    rw [ipv6Octets] at ih ⊢
    simp [ipv6Segments, hdiv, hmod, ih]

theorem ipv6Segments_small : ∀ (octets : Bytes), ∀ segment ∈ ipv6Segments octets, segment < 65536
  | [], _, h => by cases h
  | [_], _, h => by cases h
  | hi :: lo :: rest, segment, h => by
    rcases mem_cons.mp h with rfl | h
    · have hhi := hi.toNat_lt
      have hlo := lo.toNat_lt
      omega
    · exact ipv6Segments_small rest segment h

theorem ipv6Segments_length : ∀ (octets : Bytes), 2 ∣ octets.length → (ipv6Segments octets).length * 2 = octets.length
  | [], _ => rfl
  | [_], h => by simp at h
  | hi :: lo :: rest, h => by
    have hrest : 2 ∣ rest.length := by simpa [Nat.dvd_add_left] using h
    have ih := ipv6Segments_length rest hrest
    simp only [ipv6Segments, length_cons]
    omega

theorem readIpv6_mapped {octets : Bytes} (hlength : octets.length = 4) :
    readIpv6 ("::ffff:" ++ ipv4Text octets) = some (List.replicate 5 0 ++ 65535 :: ipv6Segments octets, []) := by
  have htext :
      "::ffff:" ++ ipv4Text octets = ':' :: ':' :: (Nat.toDigits 16 65535 ++ ':' :: ipv4Text octets) := rfl
  have hcolon : ∀ (radix : Nat) (s : Str), ∀ c, (':' :: s).head? = some c → isDigitOf radix c = false := by
    intro radix s c hc
    obtain rfl := Option.some.inj hc
    exact isDigitOf_colon radix
  have hhead : readGroups 8 0 (':' :: ':' :: (Nat.toDigits 16 65535 ++ ':' :: ipv4Text octets)) =
      ([], false, ':' :: ':' :: (Nat.toDigits 16 65535 ++ ':' :: ipv4Text octets)) := by
    rw [readGroups]
    simp only [readSeparator_zero, readIpv4_of_readNumber (readNumber_none (hcolon 10 _)),
      readNumber_none (hcolon 16 _), ite_self]
  have hffff : readIpv4 (Nat.toDigits 16 65535 ++ ':' :: ipv4Text octets) = none := by
    refine readIpv4_of_readNumber (readNumber_none fun c hc => ?_)
    obtain rfl : 'f' = c := Option.some.inj hc
    decide
  have hlast : readIpv4 (ipv4Text octets) = some (octets, []) := by
    simpa using readIpv4_text hlength [] nofun
  have htail : readGroups 7 0 (Nat.toDigits 16 65535 ++ ':' :: ipv4Text octets) =
      (65535 :: ipv6Segments octets, true, []) := by
    rw [readGroups]
    simp only [readSeparator_zero, hffff, readNumber_group (by decide : 65535 < 65536) (hcolon 16 _), ite_self]
    rw [readGroups]
    simp only [readSeparator_succ_self, hlast, Nat.zero_lt_succ, if_true]
  have hsegments : (ipv6Segments octets).length = 2 := by
    have h := ipv6Segments_length octets (by rw [hlength]; decide)
    omega
  rw [htext, readIpv6]
  simp_all

/-- An address whose longest run of zeros is written as `::`, or one without. -/
theorem readIpv6_segments (hlength : segments.length = 8) (hsmall : ∀ segment ∈ segments, segment < 65536) :
    readIpv6 (if 1 < (longestZeros segments).2 then
        ipv6Subslice (segments.take (longestZeros segments).1) ++ "::" ++
          ipv6Subslice (segments.drop ((longestZeros segments).1 + (longestZeros segments).2))
      else ipv6Subslice segments) = some (segments, []) := by
  have hzeros := longestZeros_isZeros segments
  generalize longestZeros segments = zeroes at hzeros ⊢
  have hbound := hzeros.1
  split
  · next hlong =>
    have htakeLength : (segments.take zeroes.1).length = zeroes.1 := by simp; omega
    have hdropLength : (segments.drop (zeroes.1 + zeroes.2)).length = 8 - (zeroes.1 + zeroes.2) := by
      simp [hlength]
    have hdot : '.' ∉ ':' :: ':' :: ipv6Subslice (segments.drop (zeroes.1 + zeroes.2)) := by
      simp [dot_notMem_ipv6Subslice]
    have hhead := readGroups_text 8 _ (.inr ⟨_, rfl⟩) hdot
      (fun s hs => hsmall s (mem_of_mem_take hs)) (by rw [htakeLength]; omega)
    have htail := readGroups_text (8 - (zeroes.1 + 1)) [] (.inl rfl) (by simp)
      (fun s hs => hsmall s (mem_of_mem_drop hs)) (by rw [hdropLength]; omega)
    rw [append_nil] at htail
    have hne : ¬ zeroes.1 = 8 := by omega
    have hfill : 8 - zeroes.1 - (8 - (zeroes.1 + zeroes.2)) = zeroes.2 := by omega
    have htext : "::" ++ ipv6Subslice (segments.drop (zeroes.1 + zeroes.2)) =
        ':' :: ':' :: ipv6Subslice (segments.drop (zeroes.1 + zeroes.2)) := rfl
    rw [append_assoc, htext, readIpv6]
    simp only [hhead, htakeLength, hne, if_false, Bool.false_eq_true, htail, hdropLength, hfill, hzeros.split]
  · have hall := readGroups_text 8 [] (.inl rfl) (by simp) hsmall hlength.le
    rw [append_nil] at hall
    rw [readIpv6]
    simp only [hall, hlength, if_true]

theorem ofBits_beNat (a : IpAddr) : IpAddr.ofBits a.isIpv4 (beNat a.octets) = a :=
  IpAddr.eq_of_bits (by simp) (IpAddr.bits_ofBits a.bits_lt)

end IpText

/-- `Display` is read back. -/
theorem Vless.IpAddr.parse_text (a : IpAddr) : IpAddr.parse a.text = some a := by
  cases a with
  | v4 octets =>
    have hread : IpText.readIpv4 (ipv4Text octets.toList) = some (octets.toList, []) := by
      have hlength : octets.toList.length = 4 := by simp
      simpa using IpText.readIpv4_text hlength [] nofun
    have hsame := IpText.ofBits_beNat (.v4 octets)
    simp only [parse, text, IpText.readIp, hread]
    exact congrArg some hsame
  | v6 octets =>
    have hlength : octets.toList.length = 16 := by simp
    have heven : 2 ∣ octets.toList.length := by rw [hlength]; decide
    have hsame := IpText.ofBits_beNat (.v6 octets)
    have hparse : ∀ segments, IpText.readIpv4 (ipv6Text octets.toList) = none →
        IpText.readIpv6 (ipv6Text octets.toList) = some (segments, []) →
        IpText.ipv6Octets segments = octets.toList → parse (ipv6Text octets.toList) = some (.v6 octets) := by
      intro segments hipv4 hipv6 hoctets
      simp only [parse, IpText.readIp, hipv4, hipv6, Option.map_some, hoctets]
      exact congrArg some hsame
    by_cases hmapped : octets.toList.take 12 = List.replicate 10 0 ++ [0xff, 0xff]
    · have hdrop : (octets.toList.drop 12).length = 4 := by simp
      have htext : ipv6Text octets.toList = "::ffff:" ++ ipv4Text (octets.toList.drop 12) := by
        rw [ipv6Text, if_pos hmapped]
      refine hparse (List.replicate 5 0 ++ 65535 :: ipv6Segments (octets.toList.drop 12)) ?_ ?_ ?_
      · grind [IpText.readIpv4_of_readNumber, IpText.readNumber_none, IpText.isDigitOf_colon]
      · rw [htext]
        exact IpText.readIpv6_mapped hdrop
      · have hlast := IpText.ipv6Octets_segments (octets.toList.drop 12) (by rw [hdrop]; decide)
        calc IpText.ipv6Octets (List.replicate 5 0 ++ 65535 :: ipv6Segments (octets.toList.drop 12))
            = List.replicate 10 0 ++ [0xff, 0xff] ++ IpText.ipv6Octets (ipv6Segments (octets.toList.drop 12)) := rfl
          _ = octets.toList.take 12 ++ octets.toList.drop 12 := by rw [hlast, hmapped]
          _ = octets.toList := take_append_drop _ _
    · have hcount : (ipv6Segments octets.toList).length = 8 := by
        have h := IpText.ipv6Segments_length octets.toList heven
        omega
      have hread := IpText.readIpv6_segments hcount (IpText.ipv6Segments_small octets.toList)
      refine hparse (ipv6Segments octets.toList) ?_ ?_ (IpText.ipv6Octets_segments octets.toList heven)
      · refine IpText.readIpv4_none ?_
        rw [ipv6Text, if_neg hmapped]
        dsimp only
        split <;> simp [IpText.dot_notMem_ipv6Subslice]
      · rw [ipv6Text, if_neg hmapped]
        exact hread

end Xhttp
