import Mathlib.Data.Finset.Dedup
import Mathlib.Data.Nat.Bitwise
import Xhttp.Srs.Reader

/- The decoding of a succinct set of keys (`succinct_keys` in `src/srs.rs`), for every set and for every input.

   Whatever the words and labels are, the loop stops after at most one round for a label and one for the root, and
   what it has built is a tree (`readTree_cases`), so no index is out of bounds. For a stored trie of a set of keys the
   keys are those of the set (`Encodes.trieKeys`), and each set has such a trie (`exists_encodes`).

   The depth that the recursion of `collect_keys` takes on the machine's stack is not modelled. -/
namespace Xhttp.Srs
open Xhttp.Lib Xhttp.Routing Vless List

/-! ## Any words and labels -/

theorem readChildren_cases (bitmap : List UInt64) : ∀ (labels : Bytes) (bitIndex child : Nat),
    readChildren bitmap labels bitIndex child = .error (.message "invalid SRS domain labels") ∨
      ∃ front rest, labels = front ++ rest ∧ readChildren bitmap labels bitIndex child = .ok (front.zipIdx child, rest)
  | [], bitIndex, child => by
    rw [readChildren]
    split
    · exact .inr ⟨[], [], rfl, rfl⟩
    · exact .inl rfl
  | label :: labels, bitIndex, child => by
    rw [readChildren]
    split
    · exact .inr ⟨[], label :: labels, rfl, rfl⟩
    · rcases readChildren_cases bitmap labels (bitIndex + 1) (child + 1) with herror | ⟨front, rest, rfl, hok⟩
      · rw [herror]
        exact .inl rfl
      · rw [hok]
        exact .inr ⟨label :: front, rest, rfl, rfl⟩

/-- The outer loop lists nodes of a trie. A round takes one node from those that are known, and adds one for each
    label it takes, so the bound is not reached. -/
theorem readNodes_cases (bitmap : List UInt64) :
    ∀ {bound node count : Nat} {labels : Bytes} (bitIndex : Nat), node ≤ count →
    labels.length + count ≤ node + bound →
      readNodes bitmap bound labels bitIndex node count = .error (.message "invalid SRS domain labels") ∨
        ∃ nodes rest, Louds.Grows node count nodes ∧ labels = Louds.labels nodes ++ rest ∧
          readNodes bitmap bound labels bitIndex node count = .ok (Louds.numbered count nodes, rest)
  | 0, node, count, labels, bitIndex, hle, hbound => by
    obtain rfl : node = count := by omega
    rw [readNodes, if_neg (Nat.lt_irrefl node)]
    exact .inr ⟨[], labels, rfl, rfl, rfl⟩
  | bound + 1, node, count, labels, bitIndex, hle, hbound => by
    rw [readNodes]
    split
    case isFalse hdone =>
      obtain rfl : node = count := by omega
      exact .inr ⟨[], labels, rfl, rfl, rfl⟩
    case isTrue hlt =>
      rcases readChildren_cases bitmap labels bitIndex count with herror | ⟨front, rest, rfl, hok⟩
      · rw [herror]
        exact .inl rfl
      · rw [hok]
        simp only [bind, Except.bind, length_zipIdx]
        rw [length_append] at hbound
        have hknown : node + 1 ≤ count + front.length := by omega
        have hleft : rest.length + (count + front.length) ≤ node + 1 + bound := by omega
        rcases readNodes_cases bitmap (bitIndex + front.length + 1) hknown hleft with
          herror | ⟨nodes, left, hgrows, rfl, hread⟩
        · rw [herror]
          exact .inl rfl
        · rw [hread]
          exact .inr ⟨⟨false, front⟩ :: nodes, left, ⟨hlt, hgrows⟩, (append_assoc front _ left).symm, rfl⟩

theorem readTree_cases (bitmap : List UInt64) (labels : Bytes) :
    readTree bitmap labels = .error (.message "invalid SRS domain labels") ∨
      readTree bitmap labels = .error (.message "invalid SRS domain tree") ∨
        ∃ nodes, Louds.WellFormed nodes ∧ readTree bitmap labels = .ok (Louds.children nodes) := by
  rw [readTree]
  have hbound : labels.length + 1 ≤ 0 + (labels.length + 1) := by omega
  rcases readNodes_cases bitmap 0 (Nat.zero_le 1) hbound with herror | ⟨nodes, rest, hgrows, -, hread⟩
  · rw [herror]
    exact .inl rfl
  · rw [hread]
    cases rest with
    | nil => exact .inr (.inr ⟨nodes, hgrows, rfl⟩)
    | cons label rest => exact .inr (.inl rfl)

variable {nodes : List (Louds.Node UInt8)}

theorem wellFormed_pos (h : Louds.WellFormed nodes) : 0 < nodes.length := by
  have := h.total
  omega

section
variable {bitmap : List UInt64} {labels : Bytes} {children : List (List (UInt8 × Nat))}

theorem tree_of_readTree (h : readTree bitmap labels = .ok children) : Louds.Tree children ∧ 0 < children.length := by
  rcases readTree_cases bitmap labels with herror | herror | ⟨nodes, hformed, hread⟩
  · cases h.symm.trans herror
  · cases h.symm.trans herror
  · cases h.symm.trans hread
    exact ⟨Louds.tree_of_wellFormed hformed, (Louds.numbered_length 1 nodes).symm ▸ wellFormed_pos hformed⟩

/-- The keys are those of the marked nodes of the tree, in the order of a walk through all of its nodes. -/
theorem trieKeys_of_readTree (leaves : List UInt64) (h : readTree bitmap labels = .ok children) :
    trieKeys leaves bitmap labels = .ok
      (((Louds.walk children children.length 0 []).filter fun visit => bit leaves visit.1).map Prod.snd) := by
  obtain ⟨htree, hpos⟩ := tree_of_readTree h
  rw [trieKeys, h]
  exact collectKeys_walk htree hpos (Nat.le_of_eq (Nat.zero_add _).symm)

end

theorem trieKeys_ne_panic (leaves bitmap : List UInt64) (labels : Bytes) :
    trieKeys leaves bitmap labels ≠ .error .panic := by
  rcases readTree_cases bitmap labels with herror | herror | ⟨nodes, hformed, hread⟩
  · rw [trieKeys, herror]
    rintro ⟨⟩
  · rw [trieKeys, herror]
    rintro ⟨⟩
  · rw [trieKeys_of_readTree leaves hread]
    rintro ⟨⟩

/-! ## The encodings of a set -/

/-- The words and labels store the breadth-first listing of a trie of the keys. -/
structure Encodes (keys : Finset Bytes) (nodes : List (Louds.Node UInt8)) (leaves bitmap : List UInt64)
    (labels : Bytes) :
    Prop where
  formed : Louds.WellFormed nodes
  distinct : ∀ n ∈ nodes, n.labels.Nodup
  language : ∀ key, Louds.Language nodes key ↔ key ∈ keys
  leaves : Stored leaves 0 (Louds.leaves nodes)
  bitmap : Stored bitmap 0 (Louds.bits nodes)
  labels : labels = Louds.labels nodes

/-- A number of which the bits are given, from the lowest on. -/
def ofBits : List Bool → Nat
  | [] => 0
  | b :: bs => Nat.bit b (ofBits bs)

theorem testBit_ofBits : ∀ (bs : List Bool) (i : Nat), (ofBits bs).testBit i = (bs[i]?).getD false
  | [], i => by rw [ofBits, Nat.zero_testBit, getElem?_nil, Option.getD_none]
  | b :: bs, 0 => by rw [ofBits, Nat.testBit_bit_zero]; rfl
  | b :: bs, i + 1 => by rw [ofBits, Nat.testBit_bit_succ, testBit_ofBits bs i]; rfl

def packBits (bs : List Bool) : List UInt64 :=
  (List.range (bs.length / 64 + 1)).map fun i => UInt64.ofNat (ofBits (bs.drop (64 * i)))

theorem stored_packBits (bs : List Bool) : Stored (packBits bs) 0 bs := by
  intro i b hb
  have hi := (List.getElem?_eq_some_iff.mp hb).1
  have hword : i / 64 < bs.length / 64 + 1 := Nat.lt_succ_of_le (Nat.div_le_div_right (Nat.le_of_lt hi))
  have hsplit : 64 * (i / 64) + i % 64 = i := Nat.div_add_mod i 64
  rw [Nat.zero_add, bit, packBits, getElem?_map, getElem?_range hword]
  simp only [Option.map_some, Option.any_some, UInt64.toNat_ofNat']
  rw [Nat.testBit_mod_two_pow, testBit_ofBits, getElem?_drop, hsplit, hb]
  simp [Nat.mod_lt]

theorem exists_encodes (keys : Finset Bytes) :
    ∃ nodes leaves bitmap labels, Encodes keys nodes leaves bitmap labels := by
  refine ⟨Louds.encode keys.toList, packBits (Louds.leaves (Louds.encode keys.toList)),
    packBits (Louds.bits (Louds.encode keys.toList)), Louds.labels (Louds.encode keys.toList), ?_⟩
  exact {
    formed := Louds.encode_wellFormed _
    distinct := Louds.encode_nodup _
    language := fun key => (Louds.language_encode _ key).trans Finset.mem_toList
    leaves := stored_packBits _
    bitmap := stored_packBits _
    labels := rfl }

section
variable {keys : Finset Bytes} {leaves bitmap : List UInt64} {labels : Bytes}

theorem Encodes.readTree (h : Encodes keys nodes leaves bitmap labels) :
    readTree bitmap labels = .ok (Louds.children nodes) := by
  have htotal := h.formed.total
  have hread := readNodes_stored h.formed h.bitmap (show nodes.length ≤ labels.length + 1 by rw [h.labels]; omega)
  rw [← h.labels] at hread
  rw [Srs.readTree, hread]
  rfl

theorem nodup_words {children : List (List (UInt8 × Nat))} (htree : Louds.Tree children) (hpos : 0 < children.length)
    (hdistinct : ∀ out ∈ children, (out.map Prod.fst).Nodup) :
    ((Louds.walk children children.length 0 []).map Prod.snd).Nodup := by
  have hfirst : ((Louds.walk children children.length 0 []).map Prod.fst).Nodup :=
    Louds.nodup_walk htree hpos (Nat.le_of_eq (Nat.zero_add _).symm)
  refine (List.Nodup.of_map _ hfirst).map_on fun visit hvisit other hother heq => ?_
  obtain ⟨word, hpath, hword⟩ := (Louds.mem_walk_iff htree hpos (Nat.le_of_eq (Nat.zero_add _).symm)).mp hvisit
  obtain ⟨word', hpath', hword'⟩ := (Louds.mem_walk_iff htree hpos (Nat.le_of_eq (Nat.zero_add _).symm)).mp hother
  obtain rfl : word = word' := hword.symm.trans (heq.trans hword')
  exact Prod.ext (hpath.unique hdistinct hpath') heq

/-- An encoding of a set of keys is decoded to its keys, each once. -/
theorem Encodes.trieKeys (h : Encodes keys nodes leaves bitmap labels) :
    ∃ found, trieKeys leaves bitmap labels = .ok found ∧ found.Nodup ∧ ∀ key, key ∈ found ↔ key ∈ keys := by
  obtain ⟨htree, hpos⟩ := tree_of_readTree h.readTree
  obtain ⟨found, hcollect, hfound⟩ := collectKeys_stored h.formed h.leaves (wellFormed_pos h.formed)
  have hok : Srs.trieKeys leaves bitmap labels = .ok found := by
    rw [Srs.trieKeys, h.readTree]
    exact hcollect
  have hwalk := Except.ok.inj (hok.symm.trans (trieKeys_of_readTree leaves h.readTree))
  refine ⟨found, hok, ?_, fun key => (hfound key).trans (h.language key)⟩
  have hnodup := nodup_words htree hpos (Louds.children_distinct h.distinct)
  rw [hwalk]
  exact hnodup.sublist (filter_sublist.map _)

end

/-- Every set of keys has an encoding, and each encoding of it is decoded to its keys, each once. On any words and
    labels, decoding does not panic: the nodes make up a tree, and there is a key for each marked node. -/
theorem succinct_trie :
    (∀ keys : Finset Bytes, (∃ nodes leaves bitmap labels, Encodes keys nodes leaves bitmap labels) ∧
      ∀ nodes leaves bitmap labels, Encodes keys nodes leaves bitmap labels →
        ∃ found, trieKeys leaves bitmap labels = .ok found ∧ found.Nodup ∧ (∀ key, key ∈ found ↔ key ∈ keys) ∧
          (leaves.length < 2 ^ 64 → bitmap.length < 2 ^ 64 → labels.length < 2 ^ 63 → ∀ reserved,
            Runs succinctKeys (keysBytes reserved leaves bitmap labels) found [])) ∧
    ∀ (leaves bitmap : List UInt64) (labels : Bytes), trieKeys leaves bitmap labels ≠ .error .panic ∧
      ∀ children, readTree bitmap labels = .ok children →
        (∀ v, 0 < v → v < children.length → ∃! parent : Nat × UInt8, Louds.Edge children parent.1 parent.2 v) ∧
        (∀ u label v, Louds.Edge children u label v → u < v ∧ v < children.length) ∧
        ∃ visits : List (Nat × Bytes), (visits.map Prod.fst).Perm (List.range children.length) ∧
          (∀ visit ∈ visits, Louds.Path children 0 visit.2 visit.1) ∧
          trieKeys leaves bitmap labels = .ok ((visits.filter fun visit => bit leaves visit.1).map Prod.snd) := by
  refine ⟨fun keys => ⟨exists_encodes keys, ?_⟩, fun leaves bitmap labels =>
    ⟨trieKeys_ne_panic leaves bitmap labels, ?_⟩⟩
  · intro nodes leaves bitmap labels h
    obtain ⟨found, hfound, hnodup, hkeys⟩ := h.trieKeys
    simp_all [runs_succinctKeys]
  · intro children hread
    obtain ⟨htree, hpos⟩ := tree_of_readTree hread
    refine ⟨fun v hv hlt => htree.existsUnique_parent hv hlt, fun u label v hedge => htree.edge_lt hedge, ?_⟩
    refine ⟨_, Louds.walk_perm htree hpos, fun visit hvisit => ?_, trieKeys_of_readTree leaves hread⟩
    obtain ⟨word, hpath, hword⟩ := (Louds.mem_walk_iff htree hpos (Nat.le_of_eq (Nat.zero_add _).symm)).mp hvisit
    rw [hword]
    exact hpath

end Xhttp.Srs
