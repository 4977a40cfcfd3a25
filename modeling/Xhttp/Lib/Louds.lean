import Mathlib.Algebra.Group.Action.Defs
import Mathlib.Algebra.Order.BigOperators.Group.List
import Mathlib.Algebra.Order.Ring.Nat
import Mathlib.Data.List.Dedup
import Mathlib.Data.List.Nodup

/- Tries listed level by level. A node is given by whether a key ends there and by the labels of its edges; the nodes
   below it follow in the list in the order of the edges. The list is stored as three sequences: the labels, a bit per
   node for the keys that end there, and for every node a 0 per edge and then a 1 (`labels`, `leaves`, `bits`).

   `Language` is the set of words along paths from the root to a node where a key ends. Edges lead to later nodes of the
   list (`children_lt`) and make up a tree (`Tree`), so a traversal by depth comes to every node once (`walk_perm`).
   `encode` lists the trie of a set of words (`language_encode`). -/
namespace Xhttp.Lib.Louds
open List

structure Node (α : Type) where
  leaf : Bool
  labels : List α

variable {α : Type}

def labels (nodes : List (Node α)) : List α := nodes.flatMap Node.labels

def leaves (nodes : List (Node α)) : List Bool := nodes.map Node.leaf

def bits (nodes : List (Node α)) : List Bool :=
  nodes.flatMap fun n => List.replicate n.labels.length false ++ [true]

/-- The edges of nodes, whose first one leads to the node `first`. -/
def numbered : Nat → List (Node α) → List (List (α × Nat))
  | _, [] => []
  | first, n :: rest => n.labels.zipIdx first :: numbered (first + n.labels.length) rest

def children (nodes : List (Node α)) : List (List (α × Nat)) := numbered 1 nodes

/-- Nodes from number `node` on, when those below `count` are known: each is the child of an earlier
    one, and none is missing at the end. -/
def Grows : Nat → Nat → List (Node α) → Prop
  | node, count, [] => node = count
  | node, count, n :: rest => node < count ∧ Grows (node + 1) (count + n.labels.length) rest

/-- The list is that of one trie. -/
def WellFormed (nodes : List (Node α)) : Prop := Grows 0 1 nodes

instance decidableGrows : ∀ (node count : Nat) (nodes : List (Node α)), Decidable (Grows node count nodes)
  | node, count, [] => inferInstanceAs (Decidable (node = count))
  | node, count, n :: rest =>
    have := decidableGrows (node + 1) (count + n.labels.length) rest
    inferInstanceAs (Decidable (node < count ∧ Grows (node + 1) (count + n.labels.length) rest))

instance (nodes : List (Node α)) : Decidable (WellFormed nodes) := decidableGrows 0 1 nodes

/-- A path along edges, and its labels. -/
inductive Path (edges : List (List (α × Nat))) : Nat → List α → Nat → Prop where
  | nil (u : Nat) : Path edges u [] u
  | cons {u v w : Nat} {label : α} {word : List α} {out : List (α × Nat)} (hout : edges[u]? = some out)
      (hedge : (label, v) ∈ out) (hrest : Path edges v word w) : Path edges u (label :: word) w

/-- The words that end at a leaf, from the node `u` on. -/
def Accepts (nodes : List (Node α)) (u : Nat) (word : List α) : Prop :=
  ∃ v n, Path (children nodes) u word v ∧ nodes[v]? = some n ∧ n.leaf = true

def Language (nodes : List (Node α)) (word : List α) : Prop := Accepts nodes 0 word

@[simp] theorem numbered_length : ∀ (first : Nat) (nodes : List (Node α)), (numbered first nodes).length = nodes.length
  | _, [] => rfl
  | first, n :: rest => by rw [numbered, length_cons, length_cons, numbered_length]

theorem labels_length_cons (n : Node α) (rest : List (Node α)) :
    (labels (n :: rest)).length = n.labels.length + (labels rest).length := by
  simp [labels]

theorem numbered_append : ∀ (first : Nat) (nodes more : List (Node α)),
    numbered first (nodes ++ more) = numbered first nodes ++ numbered (first + (labels nodes).length) more
  | _, [], _ => rfl
  | first, n :: rest, more => by
    rw [cons_append, numbered, numbered, numbered_append, labels_length_cons, Nat.add_assoc]
    rfl

theorem Grows.total : ∀ {node count : Nat} {nodes : List (Node α)}, Grows node count nodes →
    node + nodes.length = count + (labels nodes).length
  | _, _, [], h => h
  | node, count, n :: rest, h => by
    have := Grows.total h.2
    rw [labels_length_cons, length_cons]
    omega

theorem numbered_lt : ∀ {node count i : Nat} {nodes : List (Node α)} {out : List (α × Nat)} {label : α} {v : Nat},
    Grows node count nodes → (numbered count nodes)[i]? = some out → (label, v) ∈ out →
      node + i < v ∧ v < node + nodes.length
  | _, _, _, [], _, _, _, _, hout, _ => by cases hout
  | node, count, 0, n :: rest, out, label, v, h, hout, hedge => by
    have htotal := h.2.total
    obtain rfl : n.labels.zipIdx count = out := Option.some.inj hout
    obtain ⟨hle, hlt, -⟩ := mem_zipIdx hedge
    have := h.1
    rw [length_cons]
    omega
  | node, count, i + 1, n :: rest, out, label, v, h, hout, hedge => by
    have hrest : (numbered (count + n.labels.length) rest)[i]? = some out := hout
    have := numbered_lt h.2 hrest hedge
    rw [length_cons]
    omega

variable {out : List (α × Nat)} {nodes : List (Node α)} {v u : Nat}
  {queue : List (List (List α))} {edges : List (List (α × Nat))} {word : List α} {label' : α} {label : α}

theorem children_lt (h : WellFormed nodes)
    (hout : (children nodes)[u]? = some out) (hedge : (label, v) ∈ out) : u < v ∧ v < nodes.length := by
  have := numbered_lt h hout hedge
  omega

theorem accepts_iff {n : Node α} (hn : nodes[u]? = some n) (hout : (children nodes)[u]? = some out) (word : List α) :
    Accepts nodes u word ↔
      (word = [] ∧ n.leaf = true) ∨
        ∃ label v rest, (label, v) ∈ out ∧ word = label :: rest ∧ Accepts nodes v rest := by
  constructor
  · rintro ⟨w, m, hpath, hm, hleaf⟩
    cases hpath with
    | nil =>
      cases hn.symm.trans hm
      exact .inl ⟨rfl, hleaf⟩
    | @cons _ v _ label rest out' hout' hedge hrest =>
      cases hout.symm.trans hout'
      exact .inr ⟨label, v, rest, hedge, rfl, w, m, hrest, hm, hleaf⟩
  · rintro (⟨rfl, hleaf⟩ | ⟨label, v, rest, hedge, rfl, w, m, hrest, hm, hleaf⟩)
    · exact ⟨u, n, .nil u, hn, hleaf⟩
    · exact ⟨w, m, .cons hout hedge hrest, hm, hleaf⟩

/-! ## The edges as a tree -/

def Edge (edges : List (List (α × Nat))) (u : Nat) (label : α) (v : Nat) : Prop :=
  ∃ out, edges[u]? = some out ∧ (label, v) ∈ out

/-- The nodes that edges lead to. -/
def targets (edges : List (List (α × Nat))) : List Nat := edges.flatMap fun out => out.map Prod.snd

/-- Every node but the first has one edge that leads to it, and it comes from an earlier node. -/
structure Tree (edges : List (List (α × Nat))) : Prop where
  targets : targets edges = List.range' 1 (edges.length - 1)
  down : ∀ {u v : Nat} {out : List (α × Nat)} {label : α}, edges[u]? = some out → (label, v) ∈ out → u < v

theorem targets_numbered : ∀ (first : Nat) (nodes : List (Node α)),
    targets (numbered first nodes) = List.range' first (labels nodes).length
  | _, [] => rfl
  | first, n :: rest => by
    have ih := targets_numbered (first + n.labels.length) rest
    rw [targets] at ih
    rw [numbered, targets, flatMap_cons, ih, zipIdx_map_snd, labels_length_cons, range'_append_1]

theorem numbered_distinct : ∀ {first : Nat} {nodes : List (Node α)}, (∀ n ∈ nodes, n.labels.Nodup) →
    ∀ out ∈ numbered first nodes, (out.map Prod.fst).Nodup
  | _, [], _, _, hout => absurd hout not_mem_nil
  | first, n :: rest, h, out, hout => by
    rcases mem_cons.mp hout with rfl | hrest
    · rw [zipIdx_map_fst]
      exact h n mem_cons_self
    · exact numbered_distinct (fun m hm => h m (mem_cons_of_mem n hm)) out hrest

theorem children_distinct (h : ∀ n ∈ nodes, n.labels.Nodup) :
    ∀ out ∈ children nodes, (out.map Prod.fst).Nodup := numbered_distinct h

theorem tree_of_wellFormed (h : WellFormed nodes) : Tree (children nodes) where
  targets := by
    have htotal := h.total
    rw [children, targets_numbered, numbered_length]
    congr 1
    omega
  down hout hedge := (children_lt h hout hedge).1

section
variable (h : Tree edges)
include h

theorem Tree.mem_targets : (∃ (u : Nat) (out : List (α × Nat)) (label : α), edges[u]? = some out ∧ (label, v) ∈ out) ↔
    0 < v ∧ v < edges.length := by
  have hmem : v ∈ Louds.targets edges ↔ 0 < v ∧ v < edges.length := by
    rw [h.targets, mem_range'_1]
    omega
  rw [← hmem, Louds.targets, mem_flatMap]
  constructor
  · rintro ⟨u, out, label, hout, hedge⟩
    exact ⟨out, mem_of_getElem? hout, mem_map.mpr ⟨(label, v), hedge, rfl⟩⟩
  grind [mem_iff_getElem?]

theorem Tree.nodup_targets : (Louds.targets edges).Nodup := by
  rw [h.targets]
  exact nodup_range'

theorem Tree.parent_unique {u' : Nat} {out' : List (α × Nat)} (hout : edges[u]? = some out)
    (hedge : (label, v) ∈ out) (hout' : edges[u']? = some out') (hedge' : (label', v) ∈ out') :
    u = u' ∧ label = label' := by
  have hnodup := h.nodup_targets
  rw [Louds.targets, nodup_flatMap] at hnodup
  obtain ⟨hin, hapart⟩ := hnodup
  have hv : ∀ {label : α} {out : List (α × Nat)}, (label, v) ∈ out → v ∈ out.map Prod.snd := fun hedge =>
    mem_map.mpr ⟨_, hedge, rfl⟩
  have hsame : u = u' := by
    obtain ⟨hu, rfl⟩ := List.getElem?_eq_some_iff.mp hout
    obtain ⟨hu', rfl⟩ := List.getElem?_eq_some_iff.mp hout'
    rw [pairwise_iff_getElem] at hapart
    rcases Nat.lt_trichotomy u u' with hlt | heq | hgt
    · exact (hapart u u' hu hu' hlt (hv hedge) (hv hedge')).elim
    · exact heq
    · exact (hapart u' u hu' hu hgt (hv hedge') (hv hedge)).elim
  grind [inj_on_of_nodup_map, mem_of_getElem?, Prod.mk.inj]

theorem Tree.path_le (hpath : Path edges u word v) : u ≤ v := by
  induction hpath with
  | nil => exact Nat.le_refl _
  | cons hout hedge _ ih =>
    have := h.down hout hedge
    omega

end

theorem Path.last (h : Path edges u word v) :
    (u = v ∧ word = []) ∨ ∃ x front label out, Path edges u front x ∧ edges[x]? = some out ∧ (label, v) ∈ out ∧
      word = front ++ [label] := by
  induction h with
  | nil u => exact .inl ⟨rfl, rfl⟩
  | @cons u v w label word out hout hedge hrest ih =>
    right
    rcases ih with ⟨rfl, rfl⟩ | ⟨x, front, label', out', hfront, hout', hedge', rfl⟩
    · exact ⟨u, [], label, out, .nil u, hout, hedge, rfl⟩
    · exact ⟨x, label :: front, label', out', .cons hout hedge hfront, hout', hedge', rfl⟩

theorem Path.snoc {w : Nat}
    (h : Path edges u word v) (hout : edges[v]? = some out) (hedge : (label, w) ∈ out) :
    Path edges u (word ++ [label]) w := by
  induction h with
  | nil u => exact .cons hout hedge (.nil w)
  | cons hout' hedge' _ ih => exact .cons hout' hedge' (ih hout)

theorem Path.unique (hlabels : ∀ out ∈ edges, (out.map Prod.fst).Nodup) {v' : Nat} (h : Path edges u word v)
    (h' : Path edges u word v') : v = v' := by
  induction h with
  | nil u =>
    cases h'
    rfl
  | @cons u x w label word out hout hedge _ ih =>
    cases h' with
    | @cons _ x' _ _ _ out' hout' hedge' hrest' =>
      cases hout.symm.trans hout'
      have heq := inj_on_of_nodup_map (hlabels out (mem_of_getElem? hout)) hedge hedge' rfl
      obtain rfl : x = x' := (Prod.mk.inj heq).2
      exact ih hrest'

section
variable (h : Tree edges)
include h

/-- Of two nodes above a third, one is above the other. -/
theorem Tree.linear : ∀ {v a b : Nat} {word word' : List α}, Path edges a word v → Path edges b word' v →
    (∃ w, Path edges a w b) ∨ ∃ w, Path edges b w a := by
  intro v
  induction v using Nat.strongRecOn with
  | _ v ih =>
    intro a b word word' ha hb
    rcases ha.last with ⟨rfl, -⟩ | ⟨x, front, label, out, hfront, hout, hedge, -⟩
    · exact .inr ⟨_, hb⟩
    · rcases hb.last with ⟨rfl, -⟩ | ⟨x', front', label', out', hfront', hout', hedge', -⟩
      · exact .inl ⟨_, ha⟩
      · obtain ⟨rfl, -⟩ := h.parent_unique hout hedge hout' hedge'
        exact ih x (h.down hout hedge) hfront hfront'

theorem Tree.siblings_apart {a b : Nat} {word' : List α}
    (hout : edges[u]? = some out) (ha : (label, a) ∈ out) (hb : (label', b) ∈ out) (hav : Path edges a word v)
    (hbv : Path edges b word' v) : a = b := by
  -- a path from one child to another would come back to their parent
  have hno : ∀ {a b : Nat} {label label' : α} {w : List α}, (label, a) ∈ out → (label', b) ∈ out →
      Path edges a w b → a = b := by
    intro a b label label' w ha hb hpath
    rcases hpath.last with ⟨heq, -⟩ | ⟨x, front, l, out', hfront, hout', hedge', -⟩
    · exact heq
    · obtain ⟨rfl, -⟩ := h.parent_unique hout' hedge' hout hb
      have hle := h.path_le hfront
      have hlt := h.down hout ha
      omega
  rcases h.linear hav hbv with ⟨w, hpath⟩ | ⟨w, hpath⟩
  · exact hno ha hb hpath
  · exact (hno hb ha hpath).symm

theorem Tree.reached : ∀ {v : Nat}, v < edges.length → ∃ word, Path edges 0 word v := by
  intro v
  induction v using Nat.strongRecOn with
  | _ v ih =>
    intro hv
    rcases Nat.eq_zero_or_pos v with rfl | hpos
    · exact ⟨[], .nil 0⟩
    · obtain ⟨u, out, label, hout, hedge⟩ := h.mem_targets.mpr ⟨hpos, hv⟩
      obtain ⟨word, hpath⟩ := ih u (h.down hout hedge) (List.getElem?_eq_some_iff.mp hout).1
      exact ⟨word ++ [label], hpath.snoc hout hedge⟩

end

/-! ## Walking through a tree -/

/-- The nodes from `u` on, by depth, each with the word that leads to it. The first argument bounds the depth. -/
def walk (edges : List (List (α × Nat))) : Nat → Nat → List α → List (Nat × List α)
  | 0, _, _ => []
  | bound + 1, u, word =>
    (u, word) :: ((edges[u]?).getD []).flatMap fun edge => walk edges bound edge.2 (word ++ [edge.1])

section
variable (h : Tree edges)
include h

theorem Tree.child_lt (hout : edges[u]? = some out) (hedge : (label, v) ∈ out) : u < v ∧ v < edges.length :=
  ⟨h.down hout hedge, (h.mem_targets.mp ⟨u, out, label, hout, hedge⟩).2⟩

theorem Tree.edge_lt : Edge edges u label v → u < v ∧ v < edges.length
  | ⟨_, hout, hedge⟩ => h.child_lt hout hedge

theorem Tree.existsUnique_parent (hpos : 0 < v) (hv : v < edges.length) :
    ∃! parent : Nat × α, Edge edges parent.1 parent.2 v := by
  obtain ⟨u, out, label, hout, hedge⟩ := h.mem_targets.mpr ⟨hpos, hv⟩
  refine ⟨(u, label), ⟨out, hout, hedge⟩, ?_⟩
  rintro ⟨u', label'⟩ ⟨out', hout', hedge'⟩
  obtain ⟨rfl, rfl⟩ := h.parent_unique hout' hedge' hout hedge
  rfl

theorem Tree.path_lt (hu : u < edges.length) (hpath : Path edges u word v) : v < edges.length := by
  rcases hpath.last with ⟨rfl, -⟩ | ⟨x, _, label, out, -, hout, hedge, -⟩
  · exact hu
  · exact (h.child_lt hout hedge).2

theorem mem_walk_iff : ∀ {bound u : Nat} {start : List α}, u < edges.length → edges.length ≤ u + bound →
    ∀ {v : Nat} {word : List α}, (v, word) ∈ walk edges bound u start ↔
      ∃ rest, Path edges u rest v ∧ word = start ++ rest := by
  intro bound
  induction bound with
  | zero => omega
  | succ bound ih =>
    intro u start hu hbound v word
    obtain ⟨out, hout⟩ : ∃ out, edges[u]? = some out := ⟨_, getElem?_eq_getElem hu⟩
    rw [walk, hout, Option.getD_some, mem_cons, mem_flatMap]
    constructor
    · rintro (heq | ⟨⟨label, c⟩, hedge, hmem⟩)
      · cases heq
        exact ⟨[], .nil u, (append_nil start).symm⟩
      · obtain ⟨hlt, hc⟩ := h.child_lt hout hedge
        obtain ⟨rest, hpath, rfl⟩ := (ih hc (by omega)).mp hmem
        exact ⟨label :: rest, .cons hout hedge hpath, by simp⟩
    · rintro ⟨rest, hpath, rfl⟩
      cases hpath with
      | nil => exact .inl (by rw [append_nil])
      | @cons _ c _ label rest out' hout' hedge hrest =>
        cases hout.symm.trans hout'
        obtain ⟨hlt, hc⟩ := h.child_lt hout hedge
        grind

theorem nodup_walk : ∀ {bound u : Nat} {start : List α}, u < edges.length → edges.length ≤ u + bound →
    ((walk edges bound u start).map Prod.fst).Nodup := by
  intro bound
  induction bound with
  | zero => omega
  | succ bound ih =>
    intro u start hu hbound
    obtain ⟨out, hout⟩ : ∃ out, edges[u]? = some out := ⟨_, getElem?_eq_getElem hu⟩
    have hbelow : ∀ edge ∈ out, ∀ v, v ∈ (walk edges bound edge.2 (start ++ [edge.1])).map Prod.fst →
        ∃ word, Path edges edge.2 word v := by
      intro edge hedge v hv
      obtain ⟨hlt, hc⟩ := h.child_lt hout hedge
      obtain ⟨⟨_, word⟩, hmem, rfl⟩ := mem_map.mp hv
      obtain ⟨rest, hpath, -⟩ := (mem_walk_iff h hc (by omega)).mp hmem
      exact ⟨rest, hpath⟩
    rw [walk, hout, Option.getD_some, map_cons, map_flatMap, nodup_cons, nodup_flatMap]
    refine ⟨?_, ?_, ?_⟩
    · intro hmem
      obtain ⟨edge, hedge, hv⟩ := mem_flatMap.mp hmem
      obtain ⟨word, hpath⟩ := hbelow edge hedge u hv
      have := h.path_le hpath
      have := h.down hout hedge
      omega
    · intro edge hedge
      obtain ⟨hlt, hc⟩ := h.child_lt hout hedge
      exact ih hc (by omega)
    · have hdistinct : out.Pairwise fun e e' => e.2 ≠ e'.2 := by
        have hnodup := h.nodup_targets
        rw [Louds.targets, nodup_flatMap] at hnodup
        exact pairwise_map.mp (hnodup.1 out (mem_of_getElem? hout))
      refine hdistinct.imp_of_mem fun {e e'} he he' hne => ?_
      intro v hv hv'
      obtain ⟨word, hpath⟩ := hbelow e he v hv
      obtain ⟨word', hpath'⟩ := hbelow e' he' v hv'
      exact hne (h.siblings_apart hout he he' hpath hpath')

theorem walk_perm (hpos : 0 < edges.length) :
    ((walk edges edges.length 0 []).map Prod.fst).Perm (List.range edges.length) := by
  refine (perm_ext_iff_of_nodup (nodup_walk h hpos (by omega)) nodup_range).mpr fun v => ?_
  rw [mem_range]
  constructor
  · intro hv
    obtain ⟨⟨_, word⟩, hmem, rfl⟩ := mem_map.mp hv
    obtain ⟨rest, hpath, -⟩ := (mem_walk_iff h hpos (by omega)).mp hmem
    exact h.path_lt hpos hpath
  · intro hv
    obtain ⟨word, hpath⟩ := h.reached hv
    exact mem_map.mpr ⟨(v, word), (mem_walk_iff h hpos (by omega)).mpr ⟨word, hpath, rfl⟩, rfl⟩

end

/-! ## The listing of a set of words -/

/-- A bound on the nodes of a set of words. -/
def size (words : List (List α)) : Nat := 1 + (words.map List.length).sum

theorem queue_eq_nil (h : (queue.map size).sum ≤ 0) : queue = [] := by
  cases queue with
  | nil => rfl
  | cons words queue =>
    simp only [map_cons, sum_cons, size] at h
    omega

section
variable [DecidableEq α]

/-- What follows a label in the words that start with it. -/
def below (label : α) : List (List α) → List (List α)
  | [] => []
  | [] :: words => below label words
  | (first :: rest) :: words => if first = label then rest :: below label words else below label words

def heads (words : List (List α)) : List α := (words.filterMap List.head?).dedup

/-- The node that a set of words leads on from. -/
def node (words : List (List α)) : Node α := ⟨words.any List.isEmpty, heads words⟩

/-- The sets below it, in the order of the labels. -/
def parts (words : List (List α)) : List (List (List α)) := (heads words).map fun label => below label words

/-- The nodes of the sets in a queue, and then of those below them. The first argument bounds their number. -/
def listing : Nat → List (List (List α)) → List (Node α)
  | 0, _ => []
  | _ + 1, [] => []
  | bound + 1, words :: queue => node words :: listing bound (queue ++ parts words)

def encode (words : List (List α)) : List (Node α) := listing (size words) [words]

theorem mem_below {rest : List α} : ∀ {words : List (List α)}, rest ∈ below label words ↔ label :: rest ∈ words
  | [] => by simp [below]
  | [] :: words => by simp [below, mem_below]
  | (first :: tail) :: words => by
    by_cases h : first = label
    · simp [below, h, mem_below]
    · have hne : label ≠ first := fun heq => h heq.symm
      simp [below, h, hne, mem_below]

theorem mem_heads {words : List (List α)} : label ∈ heads words ↔ ∃ rest, label :: rest ∈ words := by
  rw [heads, mem_dedup, mem_filterMap]
  simp [head?_eq_some_iff]

theorem node_leaf {words : List (List α)} : (node words).leaf = true ↔ [] ∈ words := by
  simp [node]

/-- The letters of the words that start with a label. -/
private def letters (label : α) (words : List (List α)) : Nat :=
  ((below label words).map fun rest => rest.length + 1).sum

private theorem letters_cons (label : α) (word : List α) (words : List (List α)) :
    letters label (word :: words) = (if word.head? = some label then word.length else 0) + letters label words := by
  cases word with
  | nil => simp [letters, below]
  | cons first rest =>
    by_cases h : first = label
    · simp [letters, below, h]
    · simp [letters, below, h]

/-- A word starts with one label, so its letters are counted for one. -/
private theorem sum_letters {ls : List α} (hls : ls.Nodup) : ∀ (words : List (List α)),
    (ls.map fun label => letters label words).sum ≤ (words.map List.length).sum
  | [] => by simp [letters, below]
  | word :: words => by
    have ih := sum_letters hls words
    have hone : (ls.map fun label => if word.head? = some label then word.length else 0).sum ≤ word.length := by
      cases word with
      | nil => simp
      | cons first rest =>
        have hcount := nodup_iff_count_le_one.mp hls first
        rw [sum_map_eq_nsmul_single first]
        · rw [head?_cons, if_pos rfl, smul_eq_mul]
          exact mul_le_of_le_one_left (Nat.zero_le _) hcount
        grind
    simp only [letters_cons, sum_map_add, map_cons, sum_cons]
    omega

private theorem size_below_le {words : List (List α)} (h : label ∈ heads words) :
    size (below label words) ≤ letters label words := by
  obtain ⟨rest, hword⟩ := mem_heads.mp h
  have hpos : 0 < (below label words).length := length_pos_of_mem (mem_below.mpr hword)
  have hsum : letters label words = ((below label words).map List.length).sum + (below label words).length := by
    rw [letters, sum_map_add, map_const', sum_replicate, smul_eq_mul, Nat.mul_one]
  rw [size, hsum]
  omega

theorem size_parts (words : List (List α)) : ((parts words).map size).sum + 1 ≤ size words := by
  have hle : ((parts words).map size).sum ≤ ((heads words).map fun label => letters label words).sum := by
    rw [parts, map_map]
    exact sum_le_sum fun label hlabel => size_below_le hlabel
  have hsum := sum_letters (nodup_dedup (words.filterMap List.head?)) words
  have htotal := Nat.le_trans hle hsum
  rw [size]
  omega

theorem size_queue {bound : Nat} {words : List (List α)}
    (h : ((words :: queue).map size).sum ≤ bound + 1) : ((queue ++ parts words).map size).sum ≤ bound := by
  have hparts := size_parts words
  grind

theorem parts_length (words : List (List α)) : (parts words).length = (node words).labels.length := length_map _

/-- With the bound large enough, every set of the queue and those below are listed. -/
theorem listing_grows : ∀ {bound : Nat} {queue : List (List (List α))} (first : Nat), (queue.map size).sum ≤ bound →
    Grows first (first + queue.length) (listing bound queue)
  | 0, queue, first, h => by
    rw [queue_eq_nil h]
    rfl
  | _ + 1, [], first, _ => rfl
  | bound + 1, words :: queue, first, h => by
    have hcount : first + 1 + (queue ++ parts words).length =
        first + (words :: queue).length + (node words).labels.length := by
      rw [length_append, parts_length, length_cons]
      omega
    refine ⟨?_, hcount ▸ listing_grows (first + 1) (size_queue h)⟩
    rw [length_cons]
    omega

theorem listing_nodup : ∀ {bound : Nat} {queue : List (List (List α))}, ∀ n ∈ listing bound queue, n.labels.Nodup
  | 0, _, _, h => absurd h not_mem_nil
  | _ + 1, [], _, h => absurd h not_mem_nil
  | bound + 1, words :: queue, n, h => by
    rcases mem_cons.mp h with rfl | hrest
    · exact nodup_dedup _
    · exact listing_nodup n hrest

/-- The node of a set accepts the set, when its edges lead to nodes that accept the sets below. -/
theorem accepts_node {start : Nat} {words : List (List α)} (hn : nodes[u]? = some (node words))
    (hout : (children nodes)[u]? = some ((heads words).zipIdx start))
    (hparts : ∀ {j : Nat} {part : List (List α)}, (parts words)[j]? = some part →
      ∀ rest, Accepts nodes (start + j) rest ↔ rest ∈ part)
    (word : List α) : Accepts nodes u word ↔ word ∈ words := by
  -- the node at the end of an edge accepts what follows its label
  have hchild : ∀ {label : α} {v : Nat}, (label, v) ∈ (heads words).zipIdx start →
      ∀ rest, Accepts nodes v rest ↔ label :: rest ∈ words := by
    intro label v hedge rest
    obtain ⟨hle, hlabel⟩ := mk_mem_zipIdx_iff_le_and_getElem?_sub.mp hedge
    have hpart : (parts words)[v - start]? = some (below label words) := by
      rw [parts, getElem?_map, hlabel]
      rfl
    have h := hparts hpart rest
    rwa [Nat.add_sub_cancel' hle, mem_below] at h
  rw [accepts_iff hn hout]
  constructor
  · grind [node_leaf]
  · intro hword
    cases word with
    | nil => exact .inl ⟨rfl, node_leaf.mpr hword⟩
    | cons label rest =>
      obtain ⟨j, hlabel⟩ := mem_iff_getElem?.mp (mem_heads.mpr ⟨rest, hword⟩)
      have hedge : (label, start + j) ∈ (heads words).zipIdx start := by
        rw [mk_mem_zipIdx_iff_le_and_getElem?_sub, Nat.add_sub_cancel_left]
        exact ⟨Nat.le_add_right .., hlabel⟩
      exact .inr ⟨label, _, rest, hedge, rfl, (hchild hedge rest).mpr hword⟩

/-- After the nodes `listed`, whose edges lead as far as the queue reaches, the node of a set of the queue
    accepts the set. -/
theorem listing_accepts : ∀ {bound : Nat} {queue : List (List (List α))} {listed : List (Node α)},
    (queue.map size).sum ≤ bound → 1 + (labels listed).length = listed.length + queue.length →
      ∀ (i : Nat) (words : List (List α)), queue[i]? = some words →
        ∀ word, Accepts (listed ++ listing bound queue) (listed.length + i) word ↔ word ∈ words
  | 0, queue, _, hbound, _, i, words, hi => by
    rw [queue_eq_nil hbound] at hi
    cases hi
  | _ + 1, [], _, _, _, i, words, hi => by cases hi
  | bound + 1, first :: queue, listed, hbound, hcount, i, words, hi => by
    have hlength : (listed ++ [node first]).length = listed.length + 1 := length_append
    have hlabels : (labels (listed ++ [node first])).length = (labels listed).length + (parts first).length := by
      simp [labels, parts_length]
    rw [length_cons] at hcount
    have hnext := listing_accepts (size_queue hbound)
      (show 1 + (labels (listed ++ [node first])).length =
          (listed ++ [node first]).length + (queue ++ parts first).length by
        rw [hlabels, hlength, length_append]
        omega)
    rw [hlength, append_assoc] at hnext
    show ∀ word, Accepts (listed ++ ([node first] ++ listing bound (queue ++ parts first)))
      (listed.length + i) word ↔ word ∈ words
    cases i with
    | succ i =>
      have hrest : (queue ++ parts first)[i]? = some words := by
        have hi' : queue[i]? = some words := hi
        rw [List.getElem?_append_left (List.getElem?_eq_some_iff.mp hi').1, hi']
      have h := hnext i words hrest
      rwa [Nat.add_assoc, Nat.add_comm 1 i] at h
    | zero =>
      obtain rfl : first = words := Option.some.inj hi
      have hstart : 1 + (labels listed).length = listed.length + 1 + queue.length := by omega
      refine accepts_node (by simp) (show _ = some ((heads first).zipIdx (listed.length + 1 + queue.length)) from ?_) ?_
      · rw [children, numbered_append, getElem?_append_right (by simp), numbered_length, hstart]
        simp [numbered, node]
      grind

theorem encode_wellFormed (words : List (List α)) : WellFormed (encode words) :=
  listing_grows 0 (show ([words].map size).sum ≤ size words by simp)

theorem encode_nodup (words : List (List α)) : ∀ n ∈ encode words, n.labels.Nodup := listing_nodup

/-- The listing of a set of words is that of a trie of these words. -/
theorem language_encode (words : List (List α)) (word : List α) : Language (encode words) word ↔ word ∈ words := by
  have hbound : ([words].map size).sum ≤ size words := by simp
  have hstart : 1 + (labels ([] : List (Node α))).length = ([] : List (Node α)).length + [words].length := rfl
  exact listing_accepts hbound hstart 0 words rfl word

end

end Xhttp.Lib.Louds
