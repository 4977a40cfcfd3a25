import Xhttp.Lib.Dyadic
import Xhttp.Lib.Text
import Xhttp.Vless.Handshake

/- IP addresses as numbers and as text, and prefixes (`std::net::IpAddr`, `ipnet::IpNet`).
   An address is told by its family and its number; a prefix contains an address of its
   family that agrees with it on the leading bits. -/
namespace Xhttp
open Xhttp.Lib Vless

/-! ## Addresses -/

def Vless.IpAddr.isIpv4 : IpAddr → Bool
  | .v4 _ => true
  | .v6 _ => false

def Vless.IpAddr.isIpv6 (a : IpAddr) : Bool := !a.isIpv4

def Vless.IpAddr.octets : IpAddr → Bytes
  | .v4 octets => octets.toList
  | .v6 octets => octets.toList

def ipWidth (ipv4 : Bool) : Nat := if ipv4 then 32 else 128

def Vless.IpAddr.width (a : IpAddr) : Nat := ipWidth a.isIpv4

/-- `u32::from(Ipv4Addr)` and `u128::from(Ipv6Addr)`. -/
def Vless.IpAddr.bits (a : IpAddr) : Nat := beNat a.octets

/-- `Ipv4Addr::from(u32)` and `Ipv6Addr::from(u128)`. -/
def Vless.IpAddr.ofBits : Bool → Nat → IpAddr
  | true, n => .v4 ⟨(beBytes 4 n).toArray, by simp⟩
  | false, n => .v6 ⟨(beBytes 16 n).toArray, by simp⟩

theorem two_pow_ipWidth (ipv4 : Bool) : 2 ^ ipWidth ipv4 = 256 ^ (if ipv4 then 4 else 16) := by
  cases ipv4 <;> decide

theorem Vless.IpAddr.octets_length (a : IpAddr) : a.octets.length = if a.isIpv4 then 4 else 16 := by
  cases a <;> simp [octets, isIpv4]

theorem Vless.IpAddr.bits_lt (a : IpAddr) : a.bits < 2 ^ a.width := by
  rw [width, two_pow_ipWidth, ← a.octets_length]
  exact beNat_lt a.octets

@[simp] theorem Vless.IpAddr.isIpv4_ofBits (ipv4 : Bool) (n : Nat) : (ofBits ipv4 n).isIpv4 = ipv4 := by
  cases ipv4 <;> rfl

theorem Vless.IpAddr.bits_ofBits {ipv4 : Bool} {n : Nat} (h : n < 2 ^ ipWidth ipv4) : (ofBits ipv4 n).bits = n := by
  cases ipv4 <;> exact beNat_beBytes h

theorem Vless.IpAddr.eq_of_bits {a b : IpAddr} (hfamily : a.isIpv4 = b.isIpv4) (hbits : a.bits = b.bits) : a = b := by
  have hoctets : a.octets = b.octets := by
    rw [← beBytes_beNat a.octets, ← beBytes_beNat b.octets, octets_length, octets_length, hfamily]
    exact congrArg _ hbits
  cases a with
  | v4 x =>
    cases b with
    | v4 y => exact congrArg _ (Vector.toList_inj.mp hoctets)
    | v6 y => cases hfamily
  | v6 x =>
    cases b with
    | v4 y => cases hfamily
    | v6 y => exact congrArg _ (Vector.toList_inj.mp hoctets)

/-! ## Text -/

def ipv4Text (octets : Bytes) : Str := List.intercalate ['.'] (octets.map fun b => Str.decimal b.toNat)

def ipv6Segments : Bytes → List Nat
  | hi :: lo :: rest => (hi.toNat * 256 + lo.toNat) :: ipv6Segments rest
  | _ => []

def scanZeros (state : (Nat × Nat) × (Nat × Nat) × Nat) (segment : Nat) : (Nat × Nat) × (Nat × Nat) × Nat :=
  let (longest, current, i) := state
  if segment = 0 then
    let current : Nat × Nat := if current.2 = 0 then (i, 1) else (current.1, current.2 + 1)
    (if longest.2 < current.2 then current else longest, current, i + 1)
  else (longest, (0, 0), i + 1)

/-- The first of the longest runs of zeros: where it starts, and its length. -/
def longestZeros (segments : List Nat) : Nat × Nat := (segments.foldl scanZeros ((0, 0), (0, 0), 0)).1

def ipv6Subslice (segments : List Nat) : Str := List.intercalate [':'] (segments.map (Nat.toDigits 16))

def ipv6Text (octets : Bytes) : Str :=
  if octets.take 12 = List.replicate 10 0 ++ [0xff, 0xff] then "::ffff:" ++ ipv4Text (octets.drop 12)
  else
    let segments := ipv6Segments octets
    let zeroes := longestZeros segments
    if 1 < zeroes.2 then
      ipv6Subslice (segments.take zeroes.1) ++ "::" ++ ipv6Subslice (segments.drop (zeroes.1 + zeroes.2))
    else ipv6Subslice segments

def Vless.IpAddr.text : IpAddr → Str
  | .v4 octets => ipv4Text octets.toList
  | .v6 octets => ipv6Text octets.toList

/-! ## Prefixes -/

structure IpNet where
  addr : IpAddr
  prefixLen : Nat
  deriving DecidableEq

def IpNet.text (n : IpNet) : Str := n.addr.text ++ "/" ++ Str.decimal n.prefixLen

/-- `IpNet::network`: the address with its host bits cleared. -/
def IpNet.network (n : IpNet) : IpAddr :=
  .ofBits n.addr.isIpv4 (n.addr.bits / 2 ^ (n.addr.width - n.prefixLen) * 2 ^ (n.addr.width - n.prefixLen))

/-- The addresses of the prefix, as numbers, if its host bits are zero. -/
def IpNet.block (n : IpNet) : Dyadic.Block := ⟨n.addr.bits, n.addr.width - n.prefixLen⟩

/-- `IpNet::contains` of an address: the same family, and the same bits down to the prefix length. -/
def IpNet.contains (n : IpNet) (a : IpAddr) : Bool :=
  n.addr.isIpv4 == a.isIpv4 &&
    a.bits / 2 ^ (n.addr.width - n.prefixLen) == n.addr.bits / 2 ^ (n.addr.width - n.prefixLen)

theorem IpNet.contains_iff {n : IpNet} {a : IpAddr} (h : n.block.Aligned) :
    n.contains a = true ↔ n.addr.isIpv4 = a.isIpv4 ∧ n.block.start ≤ a.bits ∧ a.bits < n.block.stop := by
  rw [contains, Bool.and_eq_true, beq_iff_eq, beq_iff_eq]
  exact and_congr_right' h.div_eq_iff

end Xhttp
