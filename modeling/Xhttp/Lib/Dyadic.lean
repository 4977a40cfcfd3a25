import Mathlib.Algebra.GroupWithZero.Nat
import Mathlib.Data.List.Basic
import Mathlib.Data.Nat.Log

/- Intervals of numbers cut into aligned blocks of `2^k` numbers, the prefixes of an
   address space. A list of blocks `Tiles` an interval when each starts where the one before
   it stops; from this follow what the blocks cover, that they are disjoint, and their order.
   A block that starts at a number is aligned if it has no more bits than the number has
   trailing zeros, and stays in what remains of an interval if it has no more bits than the
   binary logarithm of it. -/
namespace Xhttp.Lib.Dyadic

/-- `trailing_zeros` of a number of `w` bits; that of zero is `w`. -/
def trailingZeros : Nat → Nat → Nat
  | 0, _ => 0
  | w + 1, n => if n % 2 = 0 then trailingZeros w (n / 2) + 1 else 0

/-- `leading_zeros` of a number of `w` bits; that of zero is `w`. -/
def leadingZeros (w n : Nat) : Nat := if n = 0 then w else w - 1 - Nat.log2 n

theorem trailingZeros_le : ∀ w n, trailingZeros w n ≤ w
  | 0, _ => Nat.le_refl 0
  | w + 1, n => by
    rw [trailingZeros]
    split
    · exact Nat.succ_le_succ (trailingZeros_le w (n / 2))
    · exact Nat.zero_le _

theorem trailingZeros_zero : ∀ w, trailingZeros w 0 = w
  | 0 => rfl
  | w + 1 => by rw [trailingZeros, if_pos (Nat.zero_mod 2), Nat.zero_div, trailingZeros_zero w]

theorem two_pow_trailingZeros_dvd : ∀ w n, 2 ^ trailingZeros w n ∣ n
  | 0, n => Nat.one_dvd n
  | w + 1, n => by
    rw [trailingZeros]
    split
    · next heven =>
      obtain ⟨m, hm⟩ := two_pow_trailingZeros_dvd w (n / 2)
      refine ⟨m, ?_⟩
      calc n = 2 * (n / 2) := (Nat.mul_div_cancel' (Nat.dvd_of_mod_eq_zero heven)).symm
        _ = 2 * (2 ^ trailingZeros w (n / 2) * m) := by rw [← hm]
        _ = 2 ^ (trailingZeros w (n / 2) + 1) * m := by rw [Nat.pow_succ, ← Nat.mul_assoc, Nat.mul_comm 2]
    · exact Nat.one_dvd n

theorem trailingZeros_lt {w n : Nat} (h : n ≠ 0) (hn : n < 2 ^ w) : trailingZeros w n < w := by
  refine lt_of_le_of_ne (trailingZeros_le w n) fun heq => ?_
  have hle := Nat.le_of_dvd (Nat.pos_of_ne_zero h) (two_pow_trailingZeros_dvd w n)
  rw [heq] at hle
  omega

theorem sub_leadingZeros {w n : Nat} (h : n ≠ 0) (hn : n < 2 ^ w) : w - 1 - leadingZeros w n = Nat.log2 n := by
  have hlog : Nat.log2 n < w := (Nat.log2_lt h).mpr hn
  rw [leadingZeros, if_neg h]
  omega

/-! ## Blocks -/

/-- The numbers from `start` on, `2^bits` of them. -/
structure Block where
  start : Nat
  bits : Nat
  deriving DecidableEq, Repr

def Block.stop (b : Block) : Nat := b.start + 2 ^ b.bits

def Block.Aligned (b : Block) : Prop := 2 ^ b.bits ∣ b.start

theorem Block.start_lt_stop (b : Block) : b.start < b.stop :=
  Nat.lt_add_of_pos_right (Nat.two_pow_pos b.bits)

/-- The numbers of an aligned block are those that agree with its start above its bits. -/
theorem Block.Aligned.div_eq_iff {b : Block} (h : b.Aligned) {x : Nat} :
    x / 2 ^ b.bits = b.start / 2 ^ b.bits ↔ b.start ≤ x ∧ x < b.stop := by
  obtain ⟨q, hq⟩ := h
  have hpos := Nat.two_pow_pos b.bits
  rw [Block.stop, hq, Nat.mul_div_cancel_left q hpos, Nat.div_eq_iff hpos, Nat.mul_comm q]
  omega

/-- Each block starts where the one before it stops, from `lo` to `hi`. -/
def Tiles : Nat → List Block → Nat → Prop
  | lo, [], hi => lo = hi
  | lo, b :: bs, hi => b.start = lo ∧ Tiles b.stop bs hi

theorem Tiles.le : ∀ {bs : List Block} {lo hi : Nat}, Tiles lo bs hi → lo ≤ hi
  | [], _, _, h => Nat.le_of_eq h
  | b :: _, _, _, ⟨hstart, hrest⟩ => by
    have hlt := b.start_lt_stop
    have hle := hrest.le
    omega

theorem Tiles.mem_bounds : ∀ {bs : List Block} {lo hi : Nat}, Tiles lo bs hi →
    ∀ b ∈ bs, lo ≤ b.start ∧ b.stop ≤ hi
  | b :: bs, lo, hi, ⟨hstart, hrest⟩, c, hc => by
    have hlt := b.start_lt_stop
    rcases List.mem_cons.mp hc with rfl | hc
    · exact ⟨hstart.ge, hrest.le⟩
    · obtain ⟨hlo, hhi⟩ := hrest.mem_bounds c hc
      exact ⟨by omega, hhi⟩

theorem Tiles.cover {x : Nat} : ∀ {bs : List Block} {lo hi : Nat}, Tiles lo bs hi →
    ((∃ b ∈ bs, b.start ≤ x ∧ x < b.stop) ↔ lo ≤ x ∧ x < hi)
  | [], lo, hi, h => by
    rw [Tiles] at h
    constructor
    · rintro ⟨b, hb, -⟩
      cases hb
    · omega
  | b :: bs, lo, hi, ⟨hstart, hrest⟩ => by
    have hlt := b.start_lt_stop
    have hle := hrest.le
    have ih := hrest.cover (x := x)
    simp only [List.mem_cons, exists_eq_or_imp]
    rw [ih]
    omega

theorem Tiles.pairwise : ∀ {bs : List Block} {lo hi : Nat}, Tiles lo bs hi →
    bs.Pairwise fun b c => b.stop ≤ c.start
  | [], _, _, _ => .nil
  | _ :: _, _, _, ⟨_, hrest⟩ => .cons (fun c hc => (hrest.mem_bounds c hc).1) hrest.pairwise

/-! ## Blocks that fit -/

theorem aligned_of_le_trailingZeros {w start bits : Nat} (h : bits ≤ trailingZeros w start) :
    Block.Aligned ⟨start, bits⟩ :=
  Nat.dvd_trans (Nat.pow_dvd_pow 2 h) (two_pow_trailingZeros_dvd w start)

theorem two_pow_le_of_le_log2 {bits remaining : Nat} (hne : remaining ≠ 0) (h : bits ≤ Nat.log2 remaining) :
    2 ^ bits ≤ remaining :=
  Nat.le_trans (Nat.pow_le_pow_right (Nat.succ_pos 1) h) (Nat.log2_self_le hne)

end Xhttp.Lib.Dyadic
