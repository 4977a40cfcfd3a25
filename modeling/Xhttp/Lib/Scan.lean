import Mathlib.Data.List.Basic

/- Going through a list from one element that passes a test to the next, by an index. A search
   from an index finds the head of `passing`, and a search that goes on after what was found has
   the tail before it (`passing_tail`), so a loop of searches runs over the elements that pass. -/
namespace Xhttp.Lib
open List
variable {α : Type}

/-- The elements from an index on that pass a test, with their index. -/
def passing (p : α → Bool) (xs : List α) (start : Nat) : List (α × Nat) :=
  (xs.zipIdx.drop start).filter fun entry => p entry.1

section
variable {p : α → Bool} {xs : List α} {start i : Nat} {x : α} {rest : List (α × Nat)}

theorem passing_tail (h : passing p xs start = (x, i) :: rest) : passing p xs (i + 1) = rest := by
  obtain ⟨before, after, hsplit, -, -, hrest⟩ := filter_eq_cons_iff.mp h
  have hindex : i = start + before.length := by
    have hget : (xs.zipIdx.drop start)[before.length]? = some (x, i) := by
      rw [hsplit, getElem?_append_right (Nat.le_refl _), Nat.sub_self, getElem?_cons_zero]
    rw [getElem?_drop, getElem?_zipIdx] at hget
    obtain ⟨y, -, heq⟩ := Option.map_eq_some_iff.mp hget
    have hsnd := congrArg Prod.snd heq
    simp only [Nat.zero_add] at hsnd
    exact hsnd.symm
  have hdrop : xs.zipIdx.drop (i + 1) = after := by
    rw [hindex, Nat.add_assoc, ← drop_drop, hsplit, ← drop_drop, drop_left, drop_succ_cons, drop_zero]
  rw [passing, hdrop, hrest]

theorem passing_zero : (passing p xs 0).map Prod.fst = xs.filter p :=
  calc (passing p xs 0).map Prod.fst = (xs.zipIdx.map Prod.fst).filter p := filter_map.symm
    _ = xs.filter p := by rw [zipIdx_map_fst]

theorem length_passing_le : (passing p xs start).length ≤ xs.length := by
  refine Nat.le_trans (length_filter_le ..) ?_
  rw [length_drop, length_zipIdx]
  exact Nat.sub_le ..

theorem mem_of_mem_passing {entry : α × Nat} (h : entry ∈ passing p xs start) : entry.1 ∈ xs :=
  fst_mem_of_mem_zipIdx (mem_of_mem_drop (mem_of_mem_filter h))

end

end Xhttp.Lib
