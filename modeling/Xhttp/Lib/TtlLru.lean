import Mathlib.Data.List.Basic

/- The ideal bounded cache with expiry: a list of items, least recently used first.
   Every operation first drops what has expired; a successful `get` and every `insert`
   put their item at the end; an `insert` that leaves too many drops the first. -/
namespace Xhttp.Lib.TtlLru
open List

structure Item (κ β : Type) where
  key : κ
  value : β
  expires : Nat
  deriving DecidableEq

variable {κ β : Type}

/-- What has not expired. -/
def live (now : Nat) (s : List (Item κ β)) : List (Item κ β) := s.filter fun i => now < i.expires

theorem live_live {now later : Nat} (h : now ≤ later) (s : List (Item κ β)) :
    live later (live now s) = live later s := by
  rw [live, live, filter_filter]
  refine filter_congr fun i _ => ?_
  by_cases hi : later < i.expires
  · simp [hi, Nat.lt_of_le_of_lt h hi]
  · simp [hi]

theorem live_append (now : Nat) (s s' : List (Item κ β)) : live now (s ++ s') = live now s ++ live now s' :=
  filter_append ..

variable [DecidableEq κ]

def others (k : κ) (s : List (Item κ β)) : List (Item κ β) := s.filter fun i => i.key ≠ k

theorem live_others (now : Nat) (k : κ) (s : List (Item κ β)) : live now (others k s) = others k (live now s) := by
  simp only [live, others, filter_filter, Bool.and_comm]

def find (k : κ) (s : List (Item κ β)) : Option (Item κ β) := s.find? fun i => i.key = k

/-- The item asked for, and the cache with the item used. -/
def get (now : Nat) (k : κ) (s : List (Item κ β)) : Option (Item κ β) × List (Item κ β) :=
  match find k (live now s) with
  | none => (none, live now s)
  | some i => (some i, others k (live now s) ++ [i])

/-- The cache with a new item; the least recently used one makes room for it. -/
def insert (capacity now : Nat) (i : Item κ β) (s : List (Item κ β)) : List (Item κ β) :=
  if capacity < (others i.key (live now s) ++ [i]).length then (others i.key (live now s) ++ [i]).tail
  else others i.key (live now s) ++ [i]

section
variable {k : κ} {now later capacity : Nat} {s : List (Item κ β)} {i : Item κ β}

theorem others_of_find_none (h : find k s = none) : others k s = s := by
  refine filter_eq_self.mpr fun i hi => ?_
  have hne := find?_eq_none.mp h i hi
  simpa using hne

theorem find_others_append (h : i.key = k) : find k (others k s ++ [i]) = some i := by
  have hnone : (others k s).find? (fun i => decide (i.key = k)) = none := by
    refine find?_eq_none.mpr fun j hj => ?_
    have hne := (mem_filter.mp hj).2
    simpa using hne
  rw [find, find?_append, hnone]
  simp [h]

/-- An item that was just inserted is found until it expires: it is the last to be
    dropped. -/
theorem get_insert_self (hcapacity : 1 ≤ capacity) (hlater : later < i.expires) :
    (get later i.key (insert capacity now i s)).1 = some i := by
  have hlast : ∃ s', insert capacity now i s = others i.key s' ++ [i] := by
    unfold insert
    split
    · next hfull =>
      cases hrest : others i.key (live now s) with
      | nil =>
        rw [hrest] at hfull
        simp at hfull
        omega
      | cons j rest =>
        refine ⟨rest, ?_⟩
        have hrest' : others i.key rest = rest := by
          refine filter_eq_self.mpr fun x hx => ?_
          have hx' : x ∈ others i.key (live now s) := hrest ▸ mem_cons_of_mem j hx
          exact (mem_filter.mp hx').2
        rw [hrest']
        rfl
    · exact ⟨live now s, rfl⟩
  obtain ⟨s', hs'⟩ := hlast
  have hlive : live later [i] = [i] := by simp [live, hlater]
  have hfind : find i.key (live later (insert capacity now i s)) = some i := by
    rw [hs', live_append, live_others, hlive]
    exact find_others_append rfl
  rw [get, hfind]

end

end Xhttp.Lib.TtlLru
