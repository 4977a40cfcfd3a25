import Xhttp.Lib.Louds
import Xhttp.Routing.Rule
import Xhttp.Srs.Ranges

/- The reader of binary rule-sets (`Reader` and `decode` in `src/srs.rs`), as actions on a stream of the payload's
   bytes.

   What is proved: which bytes are read as a number (`uvarint_ok_iff`), that the words and the bytes of a set of keys
   are read back (`u64s_u64sBytes`, `bytes_self`), and that the keys collected from a stored trie are exactly the
   words of its language (`StoredTrie.succinctKeys`).

   `decode` takes the payload as decompressed by `flate2`; `regex::escape` is the parameter `escape`. A buffer of more
   than `isize::MAX` bytes is a panic; one that memory cannot hold is not modelled. The loops that read until a
   marker, and the recursion, count down a bound on their rounds. -/
namespace Xhttp.Srs
open Xhttp.Lib Xhttp.Routing Vless List Checked

/-! ## Numbers and lists -/

def byte : Io Failure UInt8 := Io.readU8

/-- `vec![0; length]`, and `read_exact` into it. -/
def bytes (length : Nat) : Io Failure Bytes := do
  Io.bailIf (2 ^ 63 ≤ length) .panic
  Io.readExact length

/-- The loop over the shifts that are left. -/
def uvarintLoop : Nat → UInt64 → UInt64 → Io Failure UInt64
  | 0, _, _ => Io.bail (.message "SRS integer overflow")
  | rounds + 1, shift, value => do
    let b ← byte
    if b < 0x80 then
      if shift = 63 ∧ 1 < b then Io.bail (.message "SRS integer overflow")
      else pure (value ||| b.toUInt64 <<< shift)
    else uvarintLoop rounds (shift + 7) (value ||| (b &&& 0x7f).toUInt64 <<< shift)

def uvarint : Io Failure UInt64 := uvarintLoop 10 0 0

/-- `self.uvarint()? as usize`. -/
def size : Io Failure Nat := do
  let value ← uvarint
  pure value.toNat

/-- `(0..count).map(|_| read()).collect()`. -/
def readMany {α : Type} (read : Io Failure α) : Nat → Io Failure (List α)
  | 0 => pure []
  | count + 1 => do
    let first ← read
    let rest ← readMany read count
    pure (first :: rest)

def counted {α : Type} (read : Io Failure α) : Io Failure (List α) := do
  let count ← size
  readMany read count

def string : Io Failure Str := do
  let length ← size
  let text ← bytes length
  Io.lift (okOr (Str.fromUtf8 text) (.message "invalid UTF-8 in SRS"))

def strings : Io Failure (List Str) := counted string

def u8s : Io Failure Bytes := do
  let count ← size
  bytes count

def u16s : Io Failure (List UInt16) := counted do
  let two ← bytes 2
  pure (UInt16.ofNat (beNat two))

def u64 : Io Failure UInt64 := do
  let eight ← bytes 8
  pure (UInt64.ofNat (beNat eight))

def u64s : Io Failure (List UInt64) := counted u64

/-! ## Sets of keys -/

/-- The bit of a sequence of words; those past the end are not set. -/
def bit (words : List UInt64) (index : Nat) : Bool :=
  (words[index / 64]?).any fun word => word.toNat.testBit (index % 64)

/-- The inner loop: the edges of a node up to a set bit, and the labels that are left. -/
def readChildren (bitmap : List UInt64) : Bytes → Nat → Nat → Except Failure (List (UInt8 × Nat) × Bytes)
  | [], bitIndex, _ =>
    if bit bitmap bitIndex then .ok ([], []) else .error (.message "invalid SRS domain labels")
  | label :: labels, bitIndex, child =>
    if bit bitmap bitIndex then .ok ([], label :: labels)
    else do
      let (edges, rest) ← readChildren bitmap labels (bitIndex + 1) (child + 1)
      pure ((label, child) :: edges, rest)

/-- The outer loop, from the node `node` on, when `count` nodes are known. -/
def readNodes (bitmap : List UInt64) :
    Nat → Bytes → Nat → Nat → Nat → Except Failure (List (List (UInt8 × Nat)) × Bytes)
  | 0, labels, _, node, count => if node < count then .error .panic else .ok ([], labels)
  | bound + 1, labels, bitIndex, node, count =>
    if node < count then do
      let (edges, rest) ← readChildren bitmap labels bitIndex count
      let (nodes, rest) ←
        readNodes bitmap bound rest (bitIndex + edges.length + 1) (node + 1) (count + edges.length)
      pure (edges :: nodes, rest)
    else .ok ([], labels)

def collectKeys (children : List (List (UInt8 × Nat))) (leaves : List UInt64) :
    Nat → Nat → Bytes → Except Failure (List Bytes)
  | 0, _, _ => .error .panic
  | bound + 1, node, key => do
    let edges ← index children node
    let below ← edges.mapM fun edge => collectKeys children leaves bound edge.2 (key ++ [edge.1])
    pure ((if bit leaves node then [key] else []) ++ below.flatten)

def succinctKeys : Io Failure (List Bytes) := do
  let _reserved ← byte
  let leaves ← u64s
  let bitmap ← u64s
  let labelsLength ← size
  let labels ← bytes labelsLength
  let (children, rest) ← Io.lift (readNodes bitmap (labels.length + 1) labels 0 0 1)
  Io.bailIf (rest ≠ []) (.message "invalid SRS domain tree")
  Io.lift (collectKeys children leaves children.length 0 [])

/-- The markers of suffixes, at the start of a key. -/
def dotMarker : UInt8 := 13
def rootMarker : UInt8 := 10

def fromUtf8 (text : Bytes) : Except Failure Str := okOr (Str.fromUtf8 text) .utf8

def addKey (found : List Str × List Str) (key : Bytes) : Except Failure (List Str × List Str) :=
  match key.reverse with
  | [] => do
    let name ← fromUtf8 []
    pure (found.1 ++ [name], found.2)
  | first :: text =>
    if first = dotMarker ∨ first = rootMarker then do
      let suffix ← fromUtf8 text
      pure (found.1, found.2 ++ [suffix])
    else do
      let name ← fromUtf8 (first :: text)
      pure (found.1 ++ [name], found.2)

def domainMatcher : Io Failure (List Str × List Str) := do
  let keys ← succinctKeys
  Io.lift (keys.foldlM addKey ([], []))

/-- The expression for one key of an AdGuard matcher. -/
def adguardKey (escape : Str → Str) (key : Bytes) : Except Failure Str := do
  let key := key.reverse
  let (start, key) :=
    if key.head? = some dotMarker then ([], key.tail)
    else if key.head? = some rootMarker then ("(?:^|\\.)".toList, key.tail)
    else ("^".toList, key)
  let (stop, key) := if key.getLast? = some 8 then ([], key.dropLast) else ("$".toList, key)
  let raw ← fromUtf8 key
  pure (start ++ List.intercalate ".*" ((Str.split '*' raw).map escape) ++ stop)

def adguardMatcher (escape : Str → Str) : Io Failure (List Str) := do
  let keys ← succinctKeys
  Io.lift (keys.mapM (adguardKey escape))

/-! ## Addresses -/

def parseIp (octets : Bytes) : Except Failure IpAddr :=
  if octets.length = 4 then .ok (.ofBits true (beNat octets))
  else if octets.length = 16 then .ok (.ofBits false (beNat octets))
  else .error (.message "invalid IP address length in SRS")

def address : Io Failure IpAddr := do
  let length ← size
  let octets ← bytes length
  Io.lift (parseIp octets)

def ipSet : Io Failure (List Str) := do
  let version ← byte
  Io.bailIf (version ≠ 1) (.message "unsupported SRS IP set version")
  let count ← u64
  let ranges ← readMany (do
    let first ← address
    let last ← address
    Io.lift (rangeToCidrs first last)) count.toNat
  pure ranges.flatten

def addressPrefix : Io Failure Str := do
  let ip ← address
  let bits ← byte
  pure (ip.text ++ '/' :: Str.decimal bits.toNat)

def prefixes : Io Failure (List Str) := counted addressPrefix

def networkTypeName (value : UInt8) : Str :=
  if value = 0 then "wifi"
  else if value = 1 then "cellular"
  else if value = 2 then "ethernet"
  else if value = 3 then "other"
  else Str.decimal value.toNat

def interfaceAddressMap : Io Failure (AList (fun _ : Str => List Str)) := do
  let entries ← counted (do
    let type ← byte
    let nets ← prefixes
    pure (networkTypeName type, nets))
  pure (entries.foldl (fun map entry => map.insert entry.1 entry.2) ∅)

/-! ## Rules -/

section
variable (escape : Str → Str)

def readItem (rule : RouteItems) (kind : UInt8) : Io Failure RouteItems :=
  match kind.toNat with
  | 0 => do
    let _queryTypes ← u16s
    pure rule
  | 1 => return { rule with network := ← strings }
  | 2 => do
    let (domain, suffix) ← domainMatcher
    pure { rule with domain := domain, domainSuffix := suffix }
  | 3 => return { rule with domainKeyword := ← strings }
  | 4 => return { rule with domainRegex := ← strings }
  | 5 => return { rule with sourceIpCidr := ← ipSet }
  | 6 => return { rule with ipCidr := ← ipSet }
  | 7 => return { rule with sourcePort := ← u16s }
  | 8 => return { rule with sourcePortRange := ← strings }
  | 9 => return { rule with port := ← u16s }
  | 10 => return { rule with portRange := ← strings }
  | 11 => return { rule with processName := ← strings }
  | 12 => return { rule with processPath := ← strings }
  | 13 => return { rule with packageName := ← strings }
  | 14 => return { rule with wifiSsid := ← strings }
  | 15 => return { rule with wifiBssid := ← strings }
  | 16 => return { rule with domainRegex := rule.domainRegex ++ (← adguardMatcher escape) }
  | 17 => return { rule with processPathRegex := ← strings }
  | 18 => return { rule with networkType := (← u8s).map networkTypeName }
  | 19 => return { rule with networkIsExpensive := true }
  | 20 => return { rule with networkIsConstrained := true }
  | 21 => return { rule with networkInterfaceAddress := ← interfaceAddressMap }
  | 22 => return { rule with defaultInterfaceAddress := ← prefixes }
  | 23 => return { rule with packageNameRegex := ← strings }
  | value => Io.bail (.message ("unknown SRS rule item: " ++ String.ofList (Str.decimal value)))

/-- The loop over the items. Every item is at least a byte, so a bound above the number of bytes
    that are left is never reached. -/
def defaultItems : Nat → RouteItems → Io Failure RouteItems
  | 0, _ => Io.bail .panic
  | bound + 1, rule => do
    let kind ← byte
    if kind = 0xff then do
      let invert ← byte
      pure { rule with invert := invert != 0 }
    else do
      let rule ← readItem escape rule kind
      defaultItems bound rule

def defaultRule : Io Failure RouteRule := fun s =>
  (defaultItems escape (s.input.length + 1) {} >>= fun items => pure (RouteRule.mk items [])) s

/-- A rule, nested at most so deep. -/
def readRule : Nat → Io Failure RouteRule
  | 0 => Io.bail .panic
  | depth + 1 => do
    let kind ← byte
    if kind = 0 then defaultRule escape
    else if kind = 1 then do
      let mode ← byte
      Io.bailIf (1 < mode.toNat) (.message ("unknown SRS logical mode: " ++ String.ofList (Str.decimal mode.toNat)))
      let rules ← counted (readRule depth)
      let invert ← byte
      let modeName := if mode = 0 then "and".toList else "or".toList
      pure (.mk { type := "logical", mode := some modeName, invert := invert != 0 } rules)
    else Io.bail (.message ("unknown SRS rule type: " ++ String.ofList (Str.decimal kind.toNat)))

/-- The rules of a payload. A nested rule is shorter than the rule around it. -/
def decodePayload (payload : Bytes) : Except (Fault Failure) (List RouteRule) :=
  (counted (readRule escape (payload.length + 1)) ⟨payload, []⟩).1

/-- `decode`, with the decompression of the rest of the data as a parameter. -/
def decode (inflate : Bytes → Option Bytes) (data : Bytes) : Except (Fault Failure) (List RouteRule) :=
  if data.take 3 ≠ [83, 82, 83] then .error (.bail (.message "invalid sing-box rule-set magic"))
  else
    match data[3]? with
    | none => .error (.bail (.message "missing sing-box rule-set version"))
    | some version =>
      if 4 < version.toNat then
        .error (.bail (.message ("unsupported sing-box rule-set version: " ++
          String.ofList (Str.decimal version.toNat))))
      else
        match inflate (data.drop 4) with
        | none => .error (.bail (.message "decompress sing-box rule-set"))
        | some payload => decodePayload escape payload

end

/-! ## Reading what was written -/

/-- The bytes of a number in LEB128, at most so many. -/
def lebBytes : Nat → Nat → Bytes
  | 0, _ => []
  | rounds + 1, n => if n < 0x80 then [UInt8.ofNat n] else UInt8.ofNat (n % 0x80 + 0x80) :: lebBytes rounds (n / 0x80)

def leb128 (n : Nat) : Bytes := lebBytes 10 n

/-- The bytes of one number: the last, and only the last, is below 0x80. -/
inductive Terminated : Bytes → Prop
  | last {b : UInt8} (h : b.toNat < 0x80) : Terminated [b]
  | more {b : UInt8} {bs : Bytes} (h : 0x80 ≤ b.toNat) (hbs : Terminated bs) : Terminated (b :: bs)

/-- What the groups of seven bits amount to, the lowest first. -/
def groups : Bytes → Nat
  | [] => 0
  | b :: bs => b.toNat % 0x80 + 0x80 * groups bs

theorem or_shift {value shift : UInt64} {b : UInt8} (hshift : shift.toNat < 64) (hvalue : value.toNat < 2 ^ shift.toNat)
    (hb : b.toNat * 2 ^ shift.toNat < 2 ^ 64) :
    (value ||| b.toUInt64 <<< shift).toNat = value.toNat + b.toNat * 2 ^ shift.toNat := by
  have hshifted : (b.toUInt64 <<< shift).toNat = b.toNat <<< shift.toNat := by
    rw [UInt64.toNat_shiftLeft, UInt8.toNat_toUInt64, Nat.mod_eq_of_lt hshift, Nat.mod_eq_of_lt]
    rwa [Nat.shiftLeft_eq]
  rw [UInt64.toNat_or, hshifted, Nat.or_comm, ← Nat.shiftLeft_add_eq_or_of_lt hvalue, Nat.shiftLeft_eq, Nat.add_comm]

theorem lt_of_fits {shift : UInt64} {b : UInt8} (hsmall : b.toNat < 0x80) (hshift : shift.toNat ≤ 56 ∨ shift.toNat = 63)
    (h : ¬(shift = 63 ∧ 1 < b)) : b.toNat * 2 ^ shift.toNat < 2 ^ 64 := by
  rcases hshift with hle | heq
  · have hle : 2 ^ shift.toNat ≤ 2 ^ 56 := Nat.pow_le_pow_right (by decide) hle
    have hmul : b.toNat * 2 ^ shift.toNat ≤ 0x7f * 2 ^ shift.toNat := Nat.mul_le_mul_right _ (by omega)
    omega
  · have hb : ¬1 < b.toNat := fun hb => h ⟨UInt64.toNat_inj.mp heq, UInt8.lt_iff_toNat_lt.mpr hb⟩
    rw [heq]
    omega

/-- The loop ends well on the bytes of one number that fits in 64 bits, and on nothing else; bits are lost only before
    the error. -/
theorem uvarintLoop_ok_iff {v : UInt64} {s' : Stream} {out : Bytes} :
    ∀ {rounds : Nat} {shift value : UInt64} {input : Bytes},
    shift.toNat + 7 * rounds = 70 → value.toNat < 2 ^ shift.toNat →
    (uvarintLoop rounds shift value ⟨input, out⟩ = (.ok v, s') ↔ ∃ bs rest, Terminated bs ∧ bs.length ≤ rounds ∧
      input = bs ++ rest ∧ v.toNat = value.toNat + groups bs * 2 ^ shift.toNat ∧ s' = ⟨rest, out⟩) := by
  intro rounds
  induction rounds with
  | zero =>
    intro shift value input hshift hvalue
    refine iff_of_false nofun ?_
    rintro ⟨bs, rest, hbs, hlength, -⟩
    cases hbs <;> simp at hlength
  | succ rounds ih =>
    intro shift value input hshift hvalue
    cases input with
    | nil =>
      refine iff_of_false nofun ?_
      rintro ⟨bs, rest, hbs, -, hinput, -⟩
      cases hbs <;> simp at hinput
    | cons b input =>
      have hread : uvarintLoop (rounds + 1) shift value ⟨b :: input, out⟩ = (if b < 0x80 then
          if shift = 63 ∧ 1 < b then Io.bail (.message "SRS integer overflow")
          else pure (value ||| b.toUInt64 <<< shift)
        else uvarintLoop rounds (shift + 7) (value ||| (b &&& 0x7f).toUInt64 <<< shift)) ⟨input, out⟩ := rfl
      rw [hread]
      by_cases hb : b < 0x80
      · have hsmall : b.toNat < 0x80 := UInt8.lt_iff_toNat_lt.mp hb
        have hone : ∀ bs rest, Terminated bs → b :: input = bs ++ rest → bs = [b] ∧ rest = input := by
          intro bs rest hbs hinput
          cases hbs <;> grind
        have hgroups : groups [b] = b.toNat := by simp [groups, Nat.mod_eq_of_lt hsmall]
        rw [if_pos hb]
        by_cases hcheck : shift = 63 ∧ 1 < b
        · -- the last group has more than the one bit that is left
          rw [if_pos hcheck]
          refine iff_of_false nofun ?_
          rintro ⟨bs, rest, hbs, -, hinput, hv, -⟩
          obtain ⟨rfl, rfl⟩ := hone bs rest hbs hinput
          obtain ⟨rfl, htwo⟩ := hcheck
          have htwo : 1 < b.toNat := UInt8.lt_iff_toNat_lt.mp htwo
          have hlt := v.toNat_lt
          have hshift : (63 : UInt64).toNat = 63 := rfl
          rw [hv, hgroups, hshift] at hlt
          omega
        · rw [if_neg hcheck]
          have hv := or_shift (by omega) hvalue (lt_of_fits hsmall (by omega) hcheck)
          constructor
          · intro h
            obtain ⟨rfl, rfl⟩ := Io.pure_ok_iff.mp h
            exact ⟨[b], input, .last hsmall, by simp, rfl, by rw [hv, hgroups], rfl⟩
          · rintro ⟨bs, rest, hbs, -, hinput, hvalue', rfl⟩
            obtain ⟨rfl, rfl⟩ := hone bs rest hbs hinput
            exact Io.pure_ok_iff.mpr ⟨UInt64.toNat_inj.mp (by rw [hv, hvalue', hgroups]), rfl⟩
      · have hlarge : 0x80 ≤ b.toNat := by simpa [UInt8.lt_iff_toNat_lt] using hb
        rw [if_neg hb]
        cases rounds with
        | zero =>
          refine iff_of_false nofun ?_
          rintro ⟨bs, rest, hbs, hlength, hinput, -⟩
          cases hbs with
          | last h => grind
          | more h hbs => cases hbs <;> simp at hlength
        | succ rounds =>
          have hseven : (b &&& 0x7f).toNat = b.toNat % 0x80 := by
            rw [UInt8.toNat_and]
            exact Nat.and_two_pow_sub_one_eq_mod b.toNat 7
          have hnext : (shift + 7).toNat = shift.toNat + 7 := by
            have hstep : (7 : UInt64).toNat = 7 := rfl
            rw [UInt64.toNat_add, hstep]
            omega
          have hle : 2 ^ shift.toNat ≤ 2 ^ 56 := Nat.pow_le_pow_right (by decide) (by omega)
          have hmul : b.toNat % 0x80 * 2 ^ shift.toNat ≤ 0x7f * 2 ^ shift.toNat := Nat.mul_le_mul_right _ (by omega)
          have hv := @or_shift value shift (b &&& 0x7f) (by omega) hvalue (by rw [hseven]; omega)
          rw [hseven] at hv
          rw [ih (by omega) (by rw [hv, hnext, Nat.pow_add]; omega), hv, hnext]
          have hgroups : ∀ bs, value.toNat + b.toNat % 0x80 * 2 ^ shift.toNat + groups bs * 2 ^ (shift.toNat + 7) =
              value.toNat + groups (b :: bs) * 2 ^ shift.toNat := by
            intro bs
            rw [groups, Nat.pow_add]
            grind
          simp only [hgroups]
          constructor
          · rintro ⟨bs, rest, hbs, hlength, rfl, hv⟩
            exact ⟨b :: bs, rest, .more hlarge hbs, by simpa using hlength, rfl, hv⟩
          · rintro ⟨bs, rest, hbs, hlength, hinput, hv⟩
            cases hbs with
            | last h | more h hbs => grind

/-- A number in LEB128 with so many more groups than one; those past its highest bit are redundant. -/
def lebGroups : Nat → Nat → Bytes
  | 0, n => [UInt8.ofNat n]
  | more + 1, n => UInt8.ofNat (n % 0x80 + 0x80) :: lebGroups more (n / 0x80)

theorem lebGroups_spec {more n : Nat} (h : n < 2 ^ (7 * (more + 1))) :
    Terminated (lebGroups more n) ∧ groups (lebGroups more n) = n ∧ (lebGroups more n).length = more + 1 := by
  induction more generalizing n with
  | zero =>
    have hn : (UInt8.ofNat n).toNat = n := by rw [UInt8.toNat_ofNat']; omega
    exact ⟨.last (by omega), by simp only [lebGroups, groups]; omega, rfl⟩
  | succ more ih =>
    have hb : (UInt8.ofNat (n % 0x80 + 0x80)).toNat = n % 0x80 + 0x80 := by rw [UInt8.toNat_ofNat']; omega
    obtain ⟨hterm, hgroups, hlength⟩ := @ih (n / 0x80) (by rw [Nat.mul_add, Nat.pow_add] at h; omega)
    refine ⟨.more (by omega) hterm, ?_, by rw [lebGroups, length_cons, hlength]⟩
    rw [lebGroups, groups, hb, hgroups]
    omega

theorem lebBytes_eq {rounds n : Nat} (h : n < 2 ^ (7 * (rounds + 1))) :
    ∃ more ≤ rounds, lebBytes (rounds + 1) n = lebGroups more n ∧ n < 2 ^ (7 * (more + 1)) := by
  induction rounds generalizing n with
  | zero => exact ⟨0, le_rfl, if_pos h, h⟩
  | succ rounds ih =>
    rw [lebBytes]
    split
    · next hn => exact ⟨0, Nat.zero_le _, rfl, hn⟩
    · obtain ⟨more, hmore, heq, hlt⟩ := @ih (n / 0x80) (by rw [Nat.mul_add, Nat.pow_add] at h; omega)
      exact ⟨more + 1, by omega, by rw [heq, lebGroups], by rw [Nat.mul_add, Nat.pow_add]; omega⟩

theorem uvarint_ok_iff {input out : Bytes} {v : UInt64} {s' : Stream} : uvarint ⟨input, out⟩ = (.ok v, s') ↔
    ∃ bs rest, Terminated bs ∧ bs.length ≤ 10 ∧ input = bs ++ rest ∧ v.toNat = groups bs ∧ s' = ⟨rest, out⟩ := by
  rw [uvarint, uvarintLoop_ok_iff rfl (by decide)]
  simp

theorem uvarint_lebGroups {n : UInt64} {more : Nat} (hmore : more < 10) (hn : n.toNat < 2 ^ (7 * (more + 1))) :
    Runs uvarint (lebGroups more n.toNat) n [] := by
  obtain ⟨hterm, hgroups, hlength⟩ := lebGroups_spec hn
  exact fun rest out => uvarint_ok_iff.mpr ⟨_, rest, hterm, by omega, rfl, hgroups.symm, by rw [append_nil]⟩

theorem uvarint_leb128 (n : UInt64) : Runs uvarint (leb128 n.toNat) n [] := by
  obtain ⟨more, hmore, heq, hn⟩ := @lebBytes_eq 9 n.toNat (n.toNat_lt.trans (by decide))
  rw [leb128, heq]
  exact uvarint_lebGroups (by omega) hn

theorem size_leb128 {n : Nat} (h : n < 2 ^ 64) : Runs size (leb128 n) n [] := by
  have hrun : Runs size _ (UInt64.ofNat n).toNat [] := (uvarint_leb128 (UInt64.ofNat n)).last_bind (Runs.pure _)
  rwa [UInt64.toNat_ofNat_of_lt' h] at hrun

/-- **Numbers.** A number is read from any of its encodings of up to ten groups, and nothing else is read as a
    number. -/
theorem uvarint_reads_leb128 :
    (∀ n : UInt64, Runs uvarint (leb128 n.toNat) n [] ∧
      ∀ more < 10, n.toNat < 2 ^ (7 * (more + 1)) → Runs uvarint (lebGroups more n.toNat) n []) ∧
    ∀ input out v s', uvarint ⟨input, out⟩ = (.ok v, s') ↔ ∃ bs rest, Terminated bs ∧ bs.length ≤ 10 ∧
      input = bs ++ rest ∧ v.toNat = groups bs ∧ s' = ⟨rest, out⟩ :=
  ⟨fun n => ⟨uvarint_leb128 n, fun _ => uvarint_lebGroups⟩, fun _ _ _ _ => uvarint_ok_iff⟩

theorem bytes_self (bs : Bytes) (h : bs.length < 2 ^ 63) : Runs (bytes bs.length) bs bs [] :=
  (Runs.bailIf (by omega)).pass_bind (Runs.readExact bs)

section
variable {α : Type} {read : Io Failure α} {write : α → Bytes}

theorem readMany_flatMap : ∀ {xs : List α}, (∀ x ∈ xs, Runs read (write x) x []) →
    Runs (readMany read xs.length) (xs.flatMap write) xs []
  | [], _ => Runs.pure []
  | x :: xs, h => by
    have hrest := readMany_flatMap fun y hy => h y (mem_cons_of_mem x hy)
    exact (h x mem_cons_self).read_bind (hrest.last_bind (Runs.pure _))

theorem counted_flatMap {xs : List α} (hlength : xs.length < 2 ^ 64) (h : ∀ x ∈ xs, Runs read (write x) x []) :
    Runs (counted read) (leb128 xs.length ++ xs.flatMap write) xs [] :=
  (size_leb128 hlength).read_bind (readMany_flatMap h)

end

def u64Bytes (word : UInt64) : Bytes := beBytes 8 word.toNat

theorem u64_u64Bytes (word : UInt64) : Runs u64 (u64Bytes word) word [] := by
  have hlength : (u64Bytes word).length = 8 := beBytes_length 8 _
  have hread : Runs (bytes 8) (u64Bytes word) (u64Bytes word) [] := by
    have hself := bytes_self (u64Bytes word) (by rw [hlength]; decide)
    rwa [hlength] at hself
  have hvalue : UInt64.ofNat (beNat (u64Bytes word)) = word := by
    rw [u64Bytes, beNat_beBytes word.toNat_lt, UInt64.ofNat_toNat]
  refine hread.last_bind ?_
  rw [hvalue]
  exact Runs.pure word

def u64sBytes (words : List UInt64) : Bytes := leb128 words.length ++ words.flatMap u64Bytes

theorem u64s_u64sBytes {words : List UInt64} (h : words.length < 2 ^ 64) : Runs u64s (u64sBytes words) words [] :=
  counted_flatMap h fun word _ => u64_u64Bytes word

/-! ## The keys of a stored trie -/

/-- The words hold these bits from a position on. -/
def Stored (words : List UInt64) (start : Nat) (bits : List Bool) : Prop :=
  ∀ i b, bits[i]? = some b → bit words (start + i) = b

instance (words : List UInt64) (start : Nat) (bits : List Bool) : Decidable (Stored words start bits) :=
  decidable_of_iff (∀ i : Fin bits.length, bit words (start + i) = bits[i]) (by
    refine ⟨fun h i b hb => ?_, fun h i => h i _ (List.getElem?_eq_getElem i.isLt)⟩
    obtain ⟨hi, rfl⟩ := List.getElem?_eq_some_iff.mp hb
    exact h ⟨i, hi⟩)

section
variable {words : List UInt64} {start : Nat} {b : Bool} {bits more : List Bool}

theorem Stored.left (h : Stored words start (bits ++ more)) : Stored words start bits :=
  fun i b hb => h i b (by rw [List.getElem?_append_left (List.getElem?_eq_some_iff.mp hb).1, hb])

theorem Stored.right (h : Stored words start (bits ++ more)) : Stored words (start + bits.length) more := by
  intro i b hb
  rw [Nat.add_assoc]
  refine h _ b ?_
  grind

theorem Stored.head (h : Stored words start (b :: bits)) : bit words start = b := h 0 b rfl

theorem Stored.tail (h : Stored words start (b :: bits)) : Stored words (start + 1) bits :=
  (show Stored words start ([b] ++ bits) from h).right

end

theorem readChildren_stored {bitmap : List UInt64} {rest : Bytes} : ∀ {labels : Bytes} {bitIndex child : Nat},
      Stored bitmap bitIndex (List.replicate labels.length false ++ [true]) →
      readChildren bitmap (labels ++ rest) bitIndex child = .ok (labels.zipIdx child, rest)
  | [], bitIndex, child, h => by
    have hbit : bit bitmap bitIndex = true := h.head
    cases rest <;> simp [readChildren, hbit]
  | label :: labels, bitIndex, child, h => by
    have hbit : bit bitmap bitIndex = false := Stored.head h
    have hrest : Stored bitmap (bitIndex + 1) (List.replicate labels.length false ++ [true]) := Stored.tail h
    rw [cons_append, readChildren, hbit, readChildren_stored hrest]
    rfl

theorem readNodes_stored {bitmap : List UInt64} : ∀ {nodes : List (Louds.Node UInt8)} {bound bitIndex node count : Nat},
      Louds.Grows node count nodes → Stored bitmap bitIndex (Louds.bits nodes) → nodes.length ≤ bound →
      readNodes bitmap bound (Louds.labels nodes) bitIndex node count = .ok (Louds.numbered count nodes, [])
  | [], bound, bitIndex, node, count, hgrows, _, _ => by
    obtain rfl : node = count := hgrows
    cases bound <;> simp [readNodes, Louds.labels, Louds.numbered]
  | n :: nodes, 0, _, _, _, _, _, hbound => absurd hbound (Nat.not_succ_le_zero _)
  | n :: nodes, bound + 1, bitIndex, node, count, hgrows, hstored, hbound => by
    have hnext : bitIndex + (List.replicate n.labels.length false ++ [true]).length =
        bitIndex + n.labels.length + 1 := by
      simp only [length_append, length_replicate, length_singleton]
      omega
    have hrest := readNodes_stored hgrows.2 (hnext ▸ hstored.right) (Nat.le_of_succ_le_succ hbound)
    rw [Louds.labels] at hrest
    rw [Louds.labels, flatMap_cons, readNodes, if_pos hgrows.1, readChildren_stored hstored.left]
    simp only [bind, Except.bind, length_zipIdx, hrest]
    rfl

/-- The keys are those of the nodes that a walk comes to and that are marked. -/
theorem collectKeys_walk {children : List (List (UInt8 × Nat))} {leaves : List UInt64} (h : Louds.Tree children) :
    ∀ {bound node : Nat} {key : Bytes}, node < children.length → children.length ≤ node + bound →
      collectKeys children leaves bound node key =
        .ok (((Louds.walk children bound node key).filter fun visit => bit leaves visit.1).map Prod.snd) := by
  intro bound
  induction bound with
  | zero => omega
  | succ bound ih =>
    intro node key hnode hbound
    obtain ⟨edges, hedges⟩ : ∃ edges, children[node]? = some edges := ⟨_, getElem?_eq_getElem hnode⟩
    have hindex : index children node = .ok edges := by
      rw [index, hedges]
    have hbelow := mapM_ok_map fun edge (hedge : edge ∈ edges) => by
      obtain ⟨hlater, hlt⟩ := h.child_lt hedges hedge
      exact @ih edge.2 (key ++ [edge.1]) hlt (by omega)
    rw [collectKeys, hindex]
    simp only [bind, Except.bind, hbelow, pure, Except.pure]
    rw [Louds.walk, hedges, Option.getD_some, filter_cons, filter_flatMap, ← flatMap_def]
    by_cases hleaf : bit leaves node = true
    · simp [hleaf, map_flatMap]
    · simp [hleaf, map_flatMap]

/-- The keys of a stored trie are the words it accepts. -/
theorem collectKeys_stored {nodes : List (Louds.Node UInt8)} {leaves : List UInt64} (hformed : Louds.WellFormed nodes)
    (hleaves : Stored leaves 0 (Louds.leaves nodes)) (hpos : 0 < nodes.length) :
    ∃ keys, collectKeys (Louds.children nodes) leaves (Louds.children nodes).length 0 [] = .ok keys ∧
      ∀ word, word ∈ keys ↔ Louds.Language nodes word := by
  have htree := Louds.tree_of_wellFormed hformed
  have hlength : (Louds.children nodes).length = nodes.length := Louds.numbered_length 1 nodes
  have hroot : 0 < (Louds.children nodes).length := hlength ▸ hpos
  have hmarked : ∀ {v : Nat} {n : Louds.Node UInt8}, nodes[v]? = some n → bit leaves v = n.leaf := by
    intro v n hn
    have := hleaves v n.leaf (by rw [Louds.leaves, getElem?_map, hn]; rfl)
    rwa [Nat.zero_add] at this
  refine ⟨_, collectKeys_walk htree hroot (by omega), fun word => ?_⟩
  rw [mem_map]
  constructor
  · rintro ⟨⟨v, _⟩, hvisit, rfl⟩
    obtain ⟨hmem, hbit⟩ := mem_filter.mp hvisit
    obtain ⟨rest, hpath, rfl⟩ := (Louds.mem_walk_iff htree hroot (by omega)).mp hmem
    have hv : v < nodes.length := hlength ▸ htree.path_lt hroot hpath
    obtain ⟨n, hn⟩ : ∃ n, nodes[v]? = some n := ⟨_, getElem?_eq_getElem hv⟩
    exact ⟨v, n, hpath, hn, (hmarked hn).symm.trans hbit⟩
  · rintro ⟨v, n, hpath, hn, hleaf⟩
    have hmem : (v, word) ∈ Louds.walk (Louds.children nodes) (Louds.children nodes).length 0 [] :=
      (Louds.mem_walk_iff htree hroot (by omega)).mpr ⟨word, hpath, rfl⟩
    exact ⟨(v, word), mem_filter.mpr ⟨hmem, (hmarked hn).trans hleaf⟩, rfl⟩

def keysBytes (reserved : UInt8) (leaves bitmap : List UInt64) (labels : Bytes) : Bytes :=
  reserved :: (u64sBytes leaves ++ (u64sBytes bitmap ++ (leb128 labels.length ++ labels)))

/-- The loops, and the check that no label is left. -/
def readTree (bitmap : List UInt64) (labels : Bytes) : Except Failure (List (List (UInt8 × Nat))) := do
  let (children, rest) ← readNodes bitmap (labels.length + 1) labels 0 0 1
  bailIf (rest ≠ []) "invalid SRS domain tree"
  pure children

/-- What `succinct_keys` does with the words and labels it has read. -/
def trieKeys (leaves bitmap : List UInt64) (labels : Bytes) : Except Failure (List Bytes) := do
  let children ← readTree bitmap labels
  collectKeys children leaves children.length 0 []

theorem succinctKeys_eq : succinctKeys = (do
    let _reserved ← byte
    let leaves ← u64s
    let bitmap ← u64s
    let labelsLength ← size
    let labels ← bytes labelsLength
    Io.lift (trieKeys leaves bitmap labels)) := by
  have hlast : ∀ (leaves bitmap : List UInt64) (labels : Bytes), (do
      let (children, rest) ← Io.lift (readNodes bitmap (labels.length + 1) labels 0 0 1)
      Io.bailIf (rest ≠ []) (.message "invalid SRS domain tree")
      Io.lift (collectKeys children leaves children.length 0 [])) = Io.lift (trieKeys leaves bitmap labels) := by
    intro leaves bitmap labels
    rw [trieKeys, readTree]
    cases readNodes bitmap (labels.length + 1) labels 0 0 1 with
    | error e => rfl
    | ok read =>
      obtain ⟨children, rest⟩ := read
      cases rest with
      | nil | cons label rest => rfl
  simp only [succinctKeys, hlast]

theorem runs_succinctKeys {leaves bitmap : List UInt64} {labels : Bytes} {found : List Bytes} (reserved : UInt8)
    (hleaves : leaves.length < 2 ^ 64) (hbitmap : bitmap.length < 2 ^ 64) (hlabels : labels.length < 2 ^ 63)
    (hfound : trieKeys leaves bitmap labels = .ok found) :
    Runs succinctKeys (keysBytes reserved leaves bitmap labels) found [] := by
  rw [succinctKeys_eq]
  refine (u64s_u64sBytes hleaves).read_bind ?_
  refine (u64s_u64sBytes hbitmap).read_bind ?_
  refine (size_leb128 (Nat.lt_trans hlabels (by decide))).read_bind ?_
  exact (bytes_self _ hlabels).last_bind (Runs.lift hfound)

/-- A trie, stored in so few words and labels that their numbers can be written. -/
structure StoredTrie where
  reserved : UInt8
  leaves : List UInt64
  bitmap : List UInt64
  nodes : List (Louds.Node UInt8)
  formed : Louds.WellFormed nodes
  leavesStored : Stored leaves 0 (Louds.leaves nodes)
  bitmapStored : Stored bitmap 0 (Louds.bits nodes)
  leavesLength : leaves.length < 2 ^ 64
  bitmapLength : bitmap.length < 2 ^ 64
  labelsLength : (Louds.labels nodes).length < 2 ^ 63

def StoredTrie.bytes (trie : StoredTrie) : Bytes :=
  keysBytes trie.reserved trie.leaves trie.bitmap (Louds.labels trie.nodes)

theorem StoredTrie.nodes_ne_nil (trie : StoredTrie) : trie.nodes ≠ [] := by
  intro h
  have hformed := trie.formed
  rw [h] at hformed
  exact absurd hformed (by decide)

/-- The keys that are read are the words of the trie. -/
theorem StoredTrie.succinctKeys (trie : StoredTrie) :
    ∃ keys, Runs Srs.succinctKeys trie.bytes keys [] ∧ ∀ word, word ∈ keys ↔ Louds.Language trie.nodes word := by
  have hpos : 0 < trie.nodes.length := length_pos_iff.mpr trie.nodes_ne_nil
  have htotal := Louds.Grows.total trie.formed
  have hnodes : readNodes trie.bitmap ((Louds.labels trie.nodes).length + 1) (Louds.labels trie.nodes) 0 0 1 =
      .ok (Louds.children trie.nodes, []) := readNodes_stored trie.formed trie.bitmapStored (by omega)
  obtain ⟨keys, hcollect, hkeys⟩ := collectKeys_stored trie.formed trie.leavesStored hpos
  refine ⟨keys, runs_succinctKeys trie.reserved trie.leavesLength trie.bitmapLength trie.labelsLength ?_, hkeys⟩
  rw [trieKeys, readTree, hnodes]
  exact hcollect

end Xhttp.Srs
