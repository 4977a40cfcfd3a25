import Xhttp.Lib.Checked
import Xhttp.Net

/- The address ranges of a binary rule-set (`range_to_cidrs` in `src/srs.rs`). A range is cut
   into prefixes from its start on, each the largest that is aligned there and does not pass
   the end.

   An overflow of `start += 1u128 << host_bits` is a panic here, as in a build that checks it; a
   build that does not check it goes on from 0 and adds the prefix `::/0`. -/
namespace Xhttp.Srs
open Xhttp.Lib Dyadic Vless List

def u128Max : Nat := 2 ^ 128 - 1

/-- `host_bits`: the bits of the next prefix. -/
def hostBits (width stop start : Nat) : Nat :=
  let alignment := min (trailingZeros 128 start) width
  let remainingBits := if stop = u128Max then 128 else 127 - leadingZeros 128 (stop - start + 1)
  min alignment remainingBits

def splitRange (ipv4 : Bool) (stop start : Nat) : Except Failure (List IpNet) :=
  if start ≤ stop then
    let bits := hostBits (ipWidth ipv4) stop start
    let net : IpNet := ⟨.ofBits ipv4 start, ipWidth ipv4 - bits⟩
    if bits = 128 then .ok [net]
    else if start + 2 ^ bits ≤ u128Max then
      (splitRange ipv4 stop (start + 2 ^ bits)).map (net :: ·)
    else .error .panic
  else .ok []
termination_by stop + 1 - start
decreasing_by
  have hpos := Nat.two_pow_pos (hostBits (ipWidth ipv4) stop start)
  omega

def rangeToCidrs (first last : IpAddr) : Except Failure (List Str) :=
  if first.isIpv4 ≠ last.isIpv4 then .error (.message "mixed address families in SRS IP range")
  else if last.bits < first.bits then .error (.message "invalid descending SRS IP range")
  else (splitRange first.isIpv4 last.bits first.bits).map (List.map IpNet.text)

theorem rangeToCidrs_of_le {first last : IpAddr} (hfamily : first.isIpv4 = last.isIpv4) (hle : first.bits ≤ last.bits) :
    rangeToCidrs first last = (splitRange first.isIpv4 last.bits first.bits).map (List.map IpNet.text) := by
  rw [rangeToCidrs, if_neg (not_not_intro hfamily), if_neg (Nat.not_lt_of_le hle)]

/-! ## One prefix -/

theorem hostBits_le_width (width stop start : Nat) : hostBits width stop start ≤ width :=
  Nat.le_trans (Nat.min_le_left _ _) (Nat.min_le_right _ _)

theorem hostBits_aligned (width stop start : Nat) : Block.Aligned ⟨start, hostBits width stop start⟩ :=
  aligned_of_le_trailingZeros (Nat.le_trans (Nat.min_le_left _ _) (Nat.min_le_left _ _))

theorem start_add_hostBits_le (width : Nat) {stop start : Nat} (hstop : stop < u128Max) (h : start ≤ stop) :
    start + 2 ^ hostBits width stop start ≤ stop + 1 := by
  have hmax : u128Max < 2 ^ 128 := Nat.sub_lt (Nat.two_pow_pos 128) Nat.one_pos
  have hremaining : hostBits width stop start ≤ Nat.log2 (stop - start + 1) := by
    rw [← sub_leadingZeros (w := 128) (Nat.succ_ne_zero _) (by omega), hostBits, if_neg hstop.ne]
    exact Nat.min_le_right _ _
  have hle := two_pow_le_of_le_log2 (Nat.succ_ne_zero (stop - start)) hremaining
  omega

/-- At the end of the address space, the alignment alone decides. -/
theorem hostBits_of_last (start : Nat) : hostBits 128 u128Max start = trailingZeros 128 start := by
  have hle := trailingZeros_le 128 start
  rw [hostBits, if_pos rfl]
  omega

variable {ipv4 : Bool}

theorem block_ofBits {stop start : Nat} (h : start < 2 ^ ipWidth ipv4) :
    IpNet.block ⟨.ofBits ipv4 start, ipWidth ipv4 - hostBits (ipWidth ipv4) stop start⟩ =
      ⟨start, hostBits (ipWidth ipv4) stop start⟩ := by
  have hle := hostBits_le_width (ipWidth ipv4) stop start
  rw [IpNet.block, IpAddr.bits_ofBits h, IpAddr.width, IpAddr.isIpv4_ofBits, Nat.sub_sub_self hle]

/-! ## All prefixes -/

/-- The prefixes are of the family, aligned, and follow each other from `start` to `stop`. -/
structure Splits (ipv4 : Bool) (stop start : Nat) (nets : List IpNet) : Prop where
  family : ∀ n ∈ nets, n.addr.isIpv4 = ipv4
  prefixLen : ∀ n ∈ nets, n.prefixLen ≤ ipWidth ipv4
  aligned : ∀ n ∈ nets, n.block.Aligned
  tiles : Tiles start (nets.map IpNet.block) (stop + 1)

theorem Splits.cons {stop start : Nat} {nets : List IpNet} (h : start < 2 ^ ipWidth ipv4)
    (hrest : Splits ipv4 stop (start + 2 ^ hostBits (ipWidth ipv4) stop start) nets) :
    Splits ipv4 stop start (⟨.ofBits ipv4 start, ipWidth ipv4 - hostBits (ipWidth ipv4) stop start⟩ :: nets) where
  family := forall_mem_cons.mpr ⟨IpAddr.isIpv4_ofBits _ _, hrest.family⟩
  prefixLen := forall_mem_cons.mpr ⟨Nat.sub_le _ _, hrest.prefixLen⟩
  aligned := forall_mem_cons.mpr ⟨by rw [block_ofBits h]; exact hostBits_aligned _ _ _, hrest.aligned⟩
  tiles := by
    rw [map_cons, block_ofBits h]
    exact ⟨rfl, hrest.tiles⟩

/-- A range that ends below the last IPv6 address is cut without overflow. -/
theorem splitRange_splits {stop start : Nat} (hstop : stop < u128Max)
    (hwidth : stop < 2 ^ ipWidth ipv4) (hstart : start ≤ stop + 1) :
    ∃ nets, splitRange ipv4 stop start = .ok nets ∧ Splits ipv4 stop start nets := by
  induction hn : stop + 1 - start using Nat.strongRecOn generalizing start with
  | ind n ih =>
    rw [splitRange]
    by_cases hle : start ≤ stop
    · have hadd := start_add_hostBits_le (ipWidth ipv4) hstop hle
      have hpos := Nat.two_pow_pos (hostBits (ipWidth ipv4) stop start)
      have hbits : hostBits (ipWidth ipv4) stop start ≠ 128 := by
        intro heq
        rw [heq] at hadd
        have hmax : u128Max < 2 ^ 128 := Nat.sub_lt (Nat.two_pow_pos 128) Nat.one_pos
        omega
      obtain ⟨nets, hsplit, hsplits⟩ := ih _ (by omega) hadd rfl
      rw [if_pos hle, if_neg hbits, if_pos (by omega), hsplit]
      exact ⟨_, rfl, hsplits.cons (by omega)⟩
    · rw [if_neg hle]
      exact ⟨[], rfl, nofun, nofun, nofun, by rw [map_nil, Tiles]; omega⟩

/-- The whole IPv6 space is one prefix. -/
theorem splitRange_all : ∃ nets, splitRange false u128Max 0 = .ok nets ∧ Splits false u128Max 0 nets := by
  have hbits : hostBits (ipWidth false) u128Max 0 = 128 := (hostBits_of_last 0).trans (trailingZeros_zero 128)
  refine ⟨_, by rw [splitRange, if_pos (Nat.zero_le _), if_pos hbits], Splits.cons (by decide) ?_⟩
  refine ⟨nofun, nofun, nofun, ?_⟩
  rw [hbits]
  rfl

/-- Up to the last IPv6 address, but not from the first: the start passes the last address. -/
theorem splitRange_overflows {start : Nat} (hpos : start ≠ 0) (hstart : start ≤ u128Max) :
    splitRange false u128Max start = .error .panic := by
  induction hn : u128Max + 1 - start using Nat.strongRecOn generalizing start with
  | ind n ih =>
    have hlt : start < 2 ^ 128 := Nat.lt_of_le_of_lt hstart (Nat.sub_lt (Nat.two_pow_pos 128) Nat.one_pos)
    have hbits : hostBits (ipWidth false) u128Max start ≠ 128 := by
      rw [ipWidth, if_neg Bool.false_ne_true, hostBits_of_last]
      exact (trailingZeros_lt hpos hlt).ne
    have htwo := Nat.two_pow_pos (hostBits (ipWidth false) u128Max start)
    rw [splitRange, if_pos hstart, if_neg hbits]
    by_cases hnext : start + 2 ^ hostBits (ipWidth false) u128Max start ≤ u128Max
    · rw [if_pos hnext, ih _ (by omega) (by omega) hnext rfl]
      rfl
    · rw [if_neg hnext]

/-- The result is the text of aligned prefixes of the family, in increasing order, that contain
    exactly the addresses from `first` to `last`. -/
def ExactCidrs (first last : IpAddr) (result : Except Failure (List Str)) : Prop :=
  ∃ nets : List IpNet, result = .ok (nets.map IpNet.text) ∧
    (∀ n ∈ nets, n.addr.isIpv4 = first.isIpv4 ∧ n.prefixLen ≤ first.width ∧ n.block.Aligned) ∧
    nets.Pairwise (fun m n => ∀ x y, m.contains x = true → n.contains y = true → x.bits < y.bits) ∧
    ∀ x, (∃ n ∈ nets, n.contains x = true) ↔
      x.isIpv4 = first.isIpv4 ∧ first.bits ≤ x.bits ∧ x.bits ≤ last.bits

theorem Splits.exact {first last : IpAddr} {nets : List IpNet}
    (h : Splits first.isIpv4 last.bits first.bits nets) : ExactCidrs first last (.ok (nets.map IpNet.text)) := by
  refine ⟨nets, rfl, fun n hn => ⟨h.family n hn, h.prefixLen n hn, h.aligned n hn⟩, ?_, fun x => ?_⟩
  · refine (pairwise_map.mp h.tiles.pairwise).imp_of_mem fun {m n} hm hn hle x y hx hy => ?_
    obtain ⟨-, -, hx⟩ := (IpNet.contains_iff (h.aligned m hm)).mp hx
    obtain ⟨-, hy, -⟩ := (IpNet.contains_iff (h.aligned n hn)).mp hy
    omega
  · have hcover := h.tiles.cover (x := x.bits)
    constructor
    · rintro ⟨n, hn, hx⟩
      obtain ⟨hfamily, hlo, hhi⟩ := (IpNet.contains_iff (h.aligned n hn)).mp hx
      obtain ⟨hfirst, hlast⟩ := hcover.mp ⟨n.block, mem_map_of_mem hn, hlo, hhi⟩
      exact ⟨hfamily.symm.trans (h.family n hn), hfirst, Nat.le_of_lt_succ hlast⟩
    · rintro ⟨hfamily, hfirst, hlast⟩
      obtain ⟨b, hb, hlo, hhi⟩ := hcover.mpr ⟨hfirst, Nat.lt_succ_of_le hlast⟩
      obtain ⟨n, hn, rfl⟩ := mem_map.mp hb
      exact ⟨n, hn, (IpNet.contains_iff (h.aligned n hn)).mpr ⟨(h.family n hn).trans hfamily.symm, hlo, hhi⟩⟩

/-- The range is one of IPv6 addresses that ends at the last one and does not start at the first. -/
def EndsAtLast (first last : IpAddr) : Prop := first.isIpv4 = false ∧ first.bits ≠ 0 ∧ last.bits = u128Max

instance (first last : IpAddr) : Decidable (EndsAtLast first last) :=
  inferInstanceAs (Decidable (first.isIpv4 = false ∧ first.bits ≠ 0 ∧ last.bits = u128Max))

theorem splitRange_exact {first last : IpAddr} (hfamily : first.isIpv4 = last.isIpv4)
    (hle : first.bits ≤ last.bits) (h : ¬ EndsAtLast first last) :
    ∃ nets, splitRange first.isIpv4 last.bits first.bits = .ok nets ∧
      Splits first.isIpv4 last.bits first.bits nets := by
  have hlast := last.bits_lt
  rw [IpAddr.width, ← hfamily] at hlast
  by_cases hmax : last.bits < u128Max
  · exact splitRange_splits hmax hlast (Nat.le_succ_of_le hle)
  · -- only an IPv6 address is as large as that
    have hv6 : first.isIpv4 = false := by
      cases hv4 : first.isIpv4 with
      | false => rfl
      | true =>
        rw [hv4] at hlast
        exact absurd (Nat.lt_of_lt_of_le hlast (by decide)) hmax
    rw [hv6] at hlast
    have hend : last.bits = u128Max := Nat.le_antisymm (Nat.le_pred_of_lt hlast) (Nat.le_of_not_lt hmax)
    have hzero : first.bits = 0 := by
      by_contra hne
      exact h ⟨hv6, hne, hend⟩
    rw [hv6, hend, hzero]
    exact splitRange_all

/-- For addresses of one family in order, the result is exact if and only if the range is not one
    of IPv6 addresses that ends at the last one and does not start at the first. -/
theorem range_to_cidrs_exact_iff (first last : IpAddr) (hfamily : first.isIpv4 = last.isIpv4)
    (hle : first.bits ≤ last.bits) :
    ExactCidrs first last (rangeToCidrs first last) ↔ ¬ EndsAtLast first last := by
  rw [rangeToCidrs_of_le hfamily hle]
  constructor
  · rintro ⟨nets, hok, -⟩ ⟨hv6, hpos, hend⟩
    rw [hv6, hend, splitRange_overflows hpos (hend ▸ hle)] at hok
    cases hok
  · intro h
    obtain ⟨nets, hsplit, hsplits⟩ := splitRange_exact hfamily hle h
    rw [hsplit]
    exact hsplits.exact

/-- 192.0.2.1 and 192.0.2.6. -/
theorem range_to_cidrs_exact_v4 :
    ExactCidrs (.ofBits true 3221225985) (.ofBits true 3221225990)
      (rangeToCidrs (.ofBits true 3221225985) (.ofBits true 3221225990)) :=
  (range_to_cidrs_exact_iff _ _ (by decide) (by decide)).mpr (by decide)

/-- The upper half of the IPv6 space, `8000::` to `ffff:…:ffff`. -/
theorem last_range_overflows :
    (IpAddr.ofBits false (2 ^ 127)).bits ≤ (IpAddr.ofBits false u128Max).bits ∧
    rangeToCidrs (.ofBits false (2 ^ 127)) (.ofBits false u128Max) = .error .panic ∧
    ¬ ExactCidrs (.ofBits false (2 ^ 127)) (.ofBits false u128Max)
      (rangeToCidrs (.ofBits false (2 ^ 127)) (.ofBits false u128Max)) := by
  have hfirst : (IpAddr.ofBits false (2 ^ 127)).bits = 2 ^ 127 := IpAddr.bits_ofBits (by decide)
  have hlast : (IpAddr.ofBits false u128Max).bits = u128Max := IpAddr.bits_ofBits (by decide)
  have hle : (IpAddr.ofBits false (2 ^ 127)).bits ≤ (IpAddr.ofBits false u128Max).bits := by
    decide
  have hpanic : rangeToCidrs (.ofBits false (2 ^ 127)) (.ofBits false u128Max) = .error .panic := by
    rw [rangeToCidrs_of_le (by decide) hle, hfirst, hlast, IpAddr.isIpv4_ofBits,
      splitRange_overflows (by decide) (by decide)]
    rfl
  refine ⟨hle, hpanic, ?_⟩
  rintro ⟨nets, hok, -⟩
  cases hpanic.symm.trans hok

end Xhttp.Srs
