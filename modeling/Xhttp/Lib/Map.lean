import Mathlib.Data.List.AList

/- Finite maps as association lists with distinct keys (Mathlib's `AList`):
   which entries `retain` or a removal leaves, and how many an insertion or a removal leaves, the
   facts about `len()` that a capacity check of a `BTreeMap`, `HashMap` or `DashMap` rests on.
   Objects that are told apart by their number in a list (`Numbered`): one is added at the
   end, or one is changed in its place. -/
namespace Xhttp.Lib.Map
open List

variable {κ β : Type} {m : AList (fun _ : κ => β)} {k : κ} {v : β}

def size (m : AList (fun _ : κ => β)) : Nat := m.keys.length

@[simp] theorem size_empty : size (∅ : AList (fun _ : κ => β)) = 0 := rfl

def retain (p : κ → β → Bool) (m : AList (fun _ : κ => β)) : AList (fun _ : κ => β) :=
  ⟨m.entries.filter fun e => p e.1 e.2, m.nodupKeys.sublist filter_sublist⟩

theorem size_pos_of_mem (h : k ∈ m) : 0 < size m := length_pos_of_mem h

variable [DecidableEq κ]

theorem mem_of_lookup (h : m.lookup k = some v) : k ∈ m :=
  AList.lookup_isSome.mp (by rw [h]; rfl)

theorem lookup_retain_eq_some {p : κ → β → Bool} :
    (retain p m).lookup k = some v ↔ m.lookup k = some v ∧ p k v = true := by
  rw [← Option.mem_def, ← Option.mem_def, AList.mem_lookup_iff, AList.mem_lookup_iff]
  exact mem_filter

theorem lookup_of_lookup_erase {k' : κ} (h : (m.erase k).lookup k' = some v) : m.lookup k' = some v := by
  by_cases hk : k' = k
  · subst hk
    simp at h
  · rwa [AList.lookup_erase_ne hk] at h

theorem lookup_insert_cases {k' : κ} {v' : β} (h : (m.insert k' v').lookup k = some v) :
    (k = k' ∧ v = v') ∨ (k ≠ k' ∧ m.lookup k = some v) := by
  by_cases hk : k = k'
  · subst hk
    rw [AList.lookup_insert] at h
    exact .inl ⟨rfl, (Option.some.inj h).symm⟩
  · rw [AList.lookup_insert_ne hk] at h
    exact .inr ⟨hk, h⟩

theorem size_insert_of_notMem (v : β) (h : k ∉ m) : size (m.insert k v) = size m + 1 := by
  rw [size, AList.keys_insert, length_cons, erase_of_not_mem h, size]

theorem size_insert_of_mem (v : β) (h : k ∈ m) : size (m.insert k v) = size m := by
  have hpos := size_pos_of_mem h
  rw [size] at hpos
  rw [size, AList.keys_insert, length_cons, length_erase_of_mem h, size]
  omega

theorem size_erase_of_mem (h : k ∈ m) : size (m.erase k) + 1 = size m := by
  have hpos := size_pos_of_mem h
  rw [size] at hpos
  rw [size, AList.keys_erase, length_erase_of_mem h, size]
  omega

theorem size_insert_le (v : β) : size (m.insert k v) ≤ size m + 1 := by
  by_cases h : k ∈ m
  · rw [size_insert_of_mem v h]
    exact Nat.le_succ _
  · rw [size_insert_of_notMem v h]

theorem size_le_of_lookup {m' : AList (fun _ : κ => β)}
    (h : ∀ k v, m'.lookup k = some v → m.lookup k = some v) : size m' ≤ size m := by
  refine (subperm_of_subset m'.nodupKeys fun k hk => ?_).length_le
  obtain ⟨v, hv⟩ := Option.isSome_iff_exists.mp (AList.lookup_isSome.mpr (AList.mem_keys.mpr hk))
  exact mem_of_lookup (h k v hv)

theorem size_eq_zero (h : ∀ k, m.lookup k = none) : size m = 0 := by
  rw [size, length_eq_zero_iff, eq_nil_iff_forall_not_mem]
  exact fun k hk => AList.lookup_eq_none.mp (h k) hk

theorem entries_perm_erase (h : m.lookup k = some v) : m.entries.Perm (⟨k, v⟩ :: (m.erase k).entries) := by
  obtain ⟨v', l₁, l₂, hnot, hentries, herase⟩ := exists_of_kerase (mem_of_lookup h)
  have hv : v' = v := by
    have hmem : (⟨k, v'⟩ : Sigma fun _ : κ => β) ∈ m.entries := by
      rw [hentries]
      exact mem_append_right _ mem_cons_self
    have hlookup : m.lookup k = some v' := AList.mem_lookup_iff.mpr hmem
    exact Option.some.inj (hlookup.symm.trans h)
  subst hv
  have hrest : (m.erase k).entries = l₁ ++ l₂ := herase
  rw [hentries, hrest]
  exact perm_middle

end Xhttp.Lib.Map

namespace Xhttp.Lib.Numbered

variable {α : Type} {xs : List α} {x y : α} {i j : Nat}

theorem lt_length (h : xs[i]? = some x) : i < xs.length := (getElem?_eq_some_iff.mp h).1

theorem get_concat (h : xs[i]? = some x) : (xs ++ [y])[i]? = some x := by
  rw [List.getElem?_append_left (lt_length h)]
  exact h

theorem get_concat_cases (h : (xs ++ [y])[i]? = some x) : xs[i]? = some x ∨ i = xs.length ∧ x = y := by
  grind

theorem get_set_cases {z : α} (hx : xs[j]? = some x) (h : (xs.set j y)[i]? = some z) :
    (i = j ∧ z = y) ∨ (i ≠ j ∧ xs[i]? = some z) := by
  by_cases hij : j = i
  · grind
  · rw [List.getElem?_set_ne hij] at h
    exact .inr ⟨Ne.symm hij, h⟩

theorem get_set_of_eq {β : Type} (f : α → β) {z : α} (hx : xs[j]? = some x) (hf : f y = f x) (h : xs[i]? = some z) :
    ∃ z', (xs.set j y)[i]? = some z' ∧ f z' = f z := by
  by_cases hij : j = i
  · grind
  · exact ⟨z, by rw [List.getElem?_set_ne hij, h], rfl⟩

variable {f : α → α}

theorem get_modify (h : (xs.modify j f)[i]? = some x) : ∃ y, xs[i]? = some y ∧ x = if i = j then f y else y := by
  grind

theorem get_modify_cases (h : (xs.modify j f)[i]? = some x) : ∃ y, xs[i]? = some y ∧ (x = y ∨ i = j ∧ x = f y) := by
  grind

end Xhttp.Lib.Numbered
