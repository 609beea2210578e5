import LoadEngine.Proofs.BranchBudget
import Mathlib.Data.List.Lattice
import Mathlib.Data.List.Nodup
import Mathlib.Data.List.Perm.Subperm

/-! The unfolding of a scenario: a forest with a node for each initial sequence and, under each
node, one for each sequence that it forks. A node is told by the way to it. When all the branches of
a session have forked what they can, they are these nodes. -/

namespace LoadEngine

/-- A node of an unfolding: its place among its siblings and those of the nodes above it, the lowest
first, and the sequence that it stands for. -/
structure Unfolding.Node where
  path : List Nat
  sequence : Nat
deriving DecidableEq, Repr

namespace Scenario

def shoots (above : List Nat) (ids : List Nat) : List Unfolding.Node :=
  ids.zipIdx.map fun x => ⟨x.2 :: above, x.1⟩

def level (s : Scenario) : Nat → List Unfolding.Node
  | 0 => shoots [] s.initial
  | depth + 1 => (s.level depth).flatMap fun node => shoots node.path (s.forksOf node.sequence)

/-- All nodes. There are none deeper, see `level_eq_nil`. -/
def unfolding (s : Scenario) : List Unfolding.Node := (List.range s.maxBranches).flatMap s.level

section Shoots

variable {above ids : List Nat} {node : Unfolding.Node}

lemma mem_shoots :
    node ∈ shoots above ids ↔ ∃ i, node.path = i :: above ∧ ids[i]? = some node.sequence := by
  unfold shoots
  rw [List.mem_map]
  constructor
  · rintro ⟨⟨id, i⟩, hmem, rfl⟩
    exact ⟨i, rfl, List.mem_zipIdx_iff_getElem?.mp hmem⟩
  · rintro ⟨i, hpath, hid⟩
    refine ⟨(node.sequence, i), List.mem_zipIdx_iff_getElem?.mpr hid, ?_⟩
    rw [← hpath]

lemma shoots_paths (above ids : List Nat) : ((shoots above ids).map Unfolding.Node.path).Nodup := by
  have hplaces : (shoots above ids).map Unfolding.Node.path =
      (ids.zipIdx.map Prod.snd).map (· :: above) := by
    unfold shoots
    rw [List.map_map, List.map_map]
    rfl
  rw [hplaces, List.zipIdx_map_snd]
  exact List.Nodup.map (fun i j h => (List.cons.inj h).1) List.nodup_range'

lemma shoots_sequences (above ids : List Nat) :
    (shoots above ids).map Unfolding.Node.sequence = ids := by
  unfold shoots
  rw [List.map_map]
  exact List.zipIdx_map_fst 0 ids

end Shoots

lemma path_length {s : Scenario} {depth : Nat} {node : Unfolding.Node}
    (h : node ∈ s.level depth) : node.path.length = depth + 1 := by
  induction depth generalizing node with
  | zero =>
    obtain ⟨i, hpath, -⟩ := mem_shoots.mp h
    rw [hpath]
    rfl
  | succ depth ih =>
    obtain ⟨above, habove, hnode⟩ := List.mem_flatMap.mp h
    obtain ⟨i, hpath, -⟩ := mem_shoots.mp hnode
    rw [hpath, List.length_cons, ih habove]

lemma level_paths (s : Scenario) (depth : Nat) :
    ((s.level depth).map Unfolding.Node.path).Nodup := by
  induction depth with
  | zero => exact shoots_paths [] s.initial
  | succ depth ih =>
    unfold level
    rw [List.map_flatMap]
    refine List.nodup_flatMap.mpr ⟨fun node _ => shoots_paths _ _, ?_⟩
    refine (List.pairwise_map.mp ih).imp fun {a b} hne => ?_
    change List.Disjoint _ _
    rw [List.disjoint_iff_ne]
    rintro path hpath _ hpath' rfl
    obtain ⟨node, hnode, rfl⟩ := List.mem_map.mp hpath
    obtain ⟨node', hnode', hsame⟩ := List.mem_map.mp hpath'
    obtain ⟨i, heq, -⟩ := mem_shoots.mp hnode
    obtain ⟨j, heq', -⟩ := mem_shoots.mp hnode'
    rw [heq, heq', List.cons.injEq] at hsame
    exact hne hsame.2.symm

lemma unfolding_paths (s : Scenario) : (s.unfolding.map Unfolding.Node.path).Nodup := by
  unfold unfolding
  rw [List.map_flatMap]
  refine List.nodup_flatMap.mpr ⟨fun depth _ => s.level_paths depth, ?_⟩
  refine List.nodup_range.imp fun {i j} hne => ?_
  change List.Disjoint _ _
  rw [List.disjoint_iff_ne]
  rintro path hpath _ hpath' rfl
  obtain ⟨node, hnode, rfl⟩ := List.mem_map.mp hpath
  obtain ⟨node', hnode', hsame⟩ := List.mem_map.mp hpath'
  have hlength := path_length hnode
  have hlength' := path_length hnode'
  rw [hsame] at hlength'
  omega

section Weights

variable {s : Scenario} {reached : Nat → Prop} {weight : Nat → Nat}

def levelWeight (s : Scenario) (weight : Nat → Nat) (depth : Nat) : Nat :=
  ((s.level depth).map fun node => weight node.sequence).sum

lemma sum_shoots (weight : Nat → Nat) (above ids : List Nat) :
    ((shoots above ids).map fun node => weight node.sequence).sum = (ids.map weight).sum := by
  have hsequences := congrArg (List.map weight) (shoots_sequences above ids)
  rw [List.map_map] at hsequences
  exact congrArg List.sum hsequences

lemma level_reached (h : s.Budget reached weight) (depth : Nat) :
    ∀ node ∈ s.level depth, reached node.sequence := by
  induction depth with
  | zero =>
    intro node hnode
    obtain ⟨i, -, hid⟩ := mem_shoots.mp hnode
    exact h.initial _ (List.mem_of_getElem? hid)
  | succ depth ih =>
    intro node hnode
    obtain ⟨above, habove, hnode⟩ := List.mem_flatMap.mp hnode
    obtain ⟨i, -, hid⟩ := mem_shoots.mp hnode
    exact h.forks _ (ih above habove) _ (List.mem_of_getElem? hid)

lemma levelWeight_eq (h : s.Budget reached weight) (depth : Nat) :
    s.levelWeight weight depth = (s.level depth).length + s.levelWeight weight (depth + 1) := by
  have hreached := level_reached h depth
  unfold levelWeight
  rw [level, sum_flatMap]
  simp only [sum_shoots]
  generalize s.level depth = nodes at hreached
  induction nodes with
  | nil => rfl
  | cons node rest ih =>
    obtain ⟨hnode, hrest⟩ := List.forall_mem_cons.mp hreached
    have hweight := h.weight_eq node.sequence hnode
    have hothers := ih hrest
    simp only [List.map_cons, List.sum_cons, List.length_cons] at hothers ⊢
    omega

lemma levelWeight_zero (h : s.Budget reached weight) :
    s.levelWeight weight 0 = s.maxBranches := by
  rw [h.maxBranches]
  exact sum_shoots weight [] s.initial

lemma level_length_le (h : s.Budget reached weight) (depth : Nat) :
    (s.level depth).length ≤ s.levelWeight weight depth := by
  rw [levelWeight_eq h]
  exact Nat.le_add_right _ _

lemma level_eq_nil_or (h : s.Budget reached weight) (depth : Nat) :
    s.level depth = [] ∨ s.levelWeight weight depth + depth ≤ s.maxBranches := by
  induction depth with
  | zero => exact .inr (levelWeight_zero h).le
  | succ depth ih =>
    cases hnodes : s.level depth with
    | nil => exact .inl (by rw [level, hnodes, List.flatMap_nil])
    | cons node rest =>
      have hweight := levelWeight_eq h depth
      rw [hnodes, List.length_cons] at hweight
      rcases ih with hnil | hle
      · rw [hnil] at hnodes
        cases hnodes
      · exact .inr (by omega)

theorem level_eq_nil (h : s.Budget reached weight) {depth : Nat} (hdepth : s.maxBranches ≤ depth) :
    s.level depth = [] := by
  rcases level_eq_nil_or h depth with hnil | hle
  · exact hnil
  · have hlength := level_length_le h depth
    exact List.eq_nil_of_length_eq_zero (by omega)

lemma mem_unfolding (h : s.Budget reached weight) {node : Unfolding.Node} :
    node ∈ s.unfolding ↔ ∃ depth, node ∈ s.level depth := by
  unfold unfolding
  rw [List.mem_flatMap]
  constructor
  · rintro ⟨depth, -, hnode⟩
    exact ⟨depth, hnode⟩
  · rintro ⟨depth, hnode⟩
    refine ⟨depth, List.mem_range.mpr ?_, hnode⟩
    by_contra hdeep
    rw [level_eq_nil h (Nat.le_of_not_lt hdeep)] at hnode
    cases hnode

/-- The bound on the branches of a session is the number of nodes. -/
theorem unfolding_length (h : s.Budget reached weight) : s.unfolding.length = s.maxBranches := by
  have hsum : ∀ depth, ((List.range depth).flatMap s.level).length + s.levelWeight weight depth =
      s.maxBranches := by
    intro depth
    induction depth with
    | zero => exact (Nat.zero_add _).trans (levelWeight_zero h)
    | succ depth ih =>
      rw [levelWeight_eq h] at ih
      rw [List.range_succ, List.flatMap_append, List.length_append, List.flatMap_singleton]
      omega
  have hlast : s.levelWeight weight s.maxBranches = 0 := by
    rw [levelWeight, level_eq_nil h (Nat.le_refl _)]
    rfl
  exact (Nat.add_zero _).symm.trans (hlast ▸ hsum s.maxBranches)

end Weights

end Scenario

section Places

variable {l : List Branch} {k : Nat} {b : Branch}

def rank (l : List Branch) (k : Nat) : Nat :=
  (l.take k).countP fun c => c.parent == (l[k]? >>= Branch.parent)

/-- The way to a branch, by its rank and those of the branches above it, the lowest first. -/
def place (l : List Branch) (k : Nat) : List Nat :=
  rank l k :: match l[k]? >>= Branch.parent with
    | none => []
    | some p => if p < k then place l p else []
termination_by k

def nodesOf (l : List Branch) : List Unfolding.Node :=
  l.zipIdx.map fun x => ⟨place l x.2, x.1.sequence⟩

lemma place_of_root (hb : l[k]? = some b) (hp : b.parent = none) : place l k = [rank l k] := by
  rw [place, hb]
  simp only [Option.bind_eq_bind, Option.bind_some, hp]

lemma place_of_parent {p : Nat} (hb : l[k]? = some b) (hp : b.parent = some p) (hlt : p < k) :
    place l k = rank l k :: place l p := by
  rw [place, hb]
  simp only [Option.bind_eq_bind, Option.bind_some, hp, if_pos hlt]

lemma rank_eq (hb : l[k]? = some b) :
    rank l k = (l.take k).countP fun c => c.parent == b.parent := by
  rw [rank, hb]
  rfl

lemma eq_of_rank {k' : Nat} {b' : Branch} (hb : l[k]? = some b) (hb' : l[k']? = some b')
    (hparent : b.parent = b'.parent) (hrank : rank l k = rank l k') : k = k' := by
  rw [rank_eq hb, rank_eq hb', ← hparent] at hrank
  exact eq_of_countP_take (P := fun c : Branch => c.parent == b.parent) hb (beq_self_eq_true _) hb'
    (beq_iff_eq.mpr hparent.symm) hrank

end Places

section Nodes

variable {l : List Branch} {node : Unfolding.Node}

lemma mem_nodesOf :
    node ∈ nodesOf l ↔ ∃ k b, l[k]? = some b ∧ node = ⟨place l k, b.sequence⟩ := by
  unfold nodesOf
  rw [List.mem_map]
  constructor
  · rintro ⟨⟨b, k⟩, hbk, rfl⟩
    exact ⟨k, b, List.mem_zipIdx_iff_getElem?.mp hbk, rfl⟩
  · rintro ⟨k, b, hb, rfl⟩
    exact ⟨(b, k), List.mem_zipIdx_iff_getElem?.mpr hb, rfl⟩

lemma nodesOf_sequences (l : List Branch) :
    (nodesOf l).map Unfolding.Node.sequence = l.map Branch.sequence := by
  have hbranches := congrArg (List.map Branch.sequence) (List.zipIdx_map_fst 0 l)
  rw [List.map_map] at hbranches
  unfold nodesOf
  rw [List.map_map]
  exact hbranches

lemma getElem?_siblings {parent : Option Nat} {ids : List Nat}
    (h : (l.filter fun c => c.parent == parent).map Branch.sequence = ids) {i id : Nat} :
    ids[i]? = some id ↔
      ∃ k b, l[k]? = some b ∧ b.parent = parent ∧ b.sequence = id ∧ rank l k = i := by
  rw [← h, List.getElem?_map, Option.map_eq_some_iff]
  constructor
  · rintro ⟨b, hb, rfl⟩
    obtain ⟨k, hk, hparent, hcount⟩ := getElem?_filter_iff.mp hb
    rw [beq_iff_eq] at hparent
    exact ⟨k, b, hk, hparent, rfl, by rw [rank_eq hk, hparent, hcount]⟩
  · rintro ⟨k, b, hk, rfl, rfl, rfl⟩
    exact ⟨b, getElem?_filter_iff.mpr ⟨k, hk, beq_self_eq_true _, (rank_eq hk).symm⟩, rfl⟩

end Nodes

structure Growing (sc : Scenario) (l : List Branch) : Prop where
  parent : ∀ (k : Nat) (b : Branch) (p : Nat), l[k]? = some b → b.parent = some p → p < k
  roots : (l.filter fun c => c.parent == none).map Branch.sequence <+: sc.initial
  forks : ∀ (k : Nat) (b : Branch), l[k]? = some b →
    (offspring l k).map Branch.sequence <+: sc.forksOf b.sequence

namespace Growing

variable {sc : Scenario} {reached : Nat → Prop} {weight : Nat → Nat} {l : List Branch}

lemma mem_level (h : Growing sc l) {depth k : Nat} {b : Branch} (hb : l[k]? = some b)
    (hlength : (place l k).length = depth + 1) : ⟨place l k, b.sequence⟩ ∈ sc.level depth := by
  induction depth generalizing k b with
  | zero =>
    cases hp : b.parent with
    | none =>
      have hroot := (getElem?_siblings rfl).mpr ⟨k, b, hb, hp, rfl, rfl⟩
      exact Scenario.mem_shoots.mpr
        ⟨rank l k, place_of_root hb hp, getElem?_of_prefix h.roots hroot⟩
    | some p =>
      rw [place_of_parent hb hp (h.parent k b p hb hp), List.length_cons, place,
        List.length_cons] at hlength
      omega
  | succ depth ih =>
    cases hp : b.parent with
    | none =>
      rw [place_of_root hb hp] at hlength
      cases hlength
    | some p =>
      have hlt := h.parent k b p hb hp
      have hplace := place_of_parent hb hp hlt
      rw [hplace, List.length_cons, Nat.add_right_cancel_iff] at hlength
      have hplt : p < l.length := hlt.trans (List.getElem?_eq_some_iff.mp hb).1
      have hparent := List.getElem?_eq_getElem hplt
      have hchild := (getElem?_siblings rfl).mpr ⟨k, b, hb, hp, rfl, rfl⟩
      rw [Scenario.level]
      refine List.mem_flatMap.mpr ⟨_, ih hparent hlength, Scenario.mem_shoots.mpr ?_⟩
      exact ⟨rank l k, hplace, getElem?_of_prefix (h.forks p _ hparent) hchild⟩

lemma place_inj (h : Growing sc l) {k k' : Nat} {b b' : Branch} (hb : l[k]? = some b)
    (hb' : l[k']? = some b') (hsame : place l k = place l k') : k = k' := by
  induction k using Nat.strong_induction_on generalizing k' b b' with
  | _ k ih =>
    cases hp : b.parent with
    | none =>
      cases hp' : b'.parent with
      | none =>
        rw [place_of_root hb hp, place_of_root hb' hp', List.cons.injEq] at hsame
        exact eq_of_rank hb hb' (hp.trans hp'.symm) hsame.1
      | some q =>
        rw [place_of_root hb hp, place_of_parent hb' hp' (h.parent k' b' q hb' hp'), place,
          List.cons.injEq] at hsame
        cases hsame.2
    | some p =>
      have hlt := h.parent k b p hb hp
      cases hp' : b'.parent with
      | none =>
        rw [place_of_root hb' hp', place_of_parent hb hp hlt, place, List.cons.injEq] at hsame
        cases hsame.2
      | some q =>
        have hlt' := h.parent k' b' q hb' hp'
        rw [place_of_parent hb hp hlt, place_of_parent hb' hp' hlt', List.cons.injEq] at hsame
        have hplt : p < l.length := hlt.trans (List.getElem?_eq_some_iff.mp hb).1
        have hqlt : q < l.length := hlt'.trans (List.getElem?_eq_some_iff.mp hb').1
        obtain rfl : p = q := ih p hlt (List.getElem?_eq_getElem hplt)
          (List.getElem?_eq_getElem hqlt) hsame.2
        exact eq_of_rank hb hb' (hp.trans hp'.symm) hsame.1

lemma nodesOf_nodup (h : Growing sc l) : (nodesOf l).Nodup := by
  refine List.Nodup.map_on ?_ (List.Nodup.of_map Prod.snd ?_)
  · rintro ⟨b, k⟩ hbk ⟨b', k'⟩ hbk' hsame
    rw [Unfolding.Node.mk.injEq] at hsame
    have hb := List.mem_zipIdx_iff_getElem?.mp hbk
    have hb' := List.mem_zipIdx_iff_getElem?.mp hbk'
    obtain rfl : k = k' := h.place_inj hb hb' hsame.1
    obtain rfl : b = b' := Option.some.inj (hb.symm.trans hb')
    rfl
  · rw [List.zipIdx_map_snd]
    exact List.nodup_range'

theorem nodesOf_subperm (h : Growing sc l) (hbudget : sc.Budget reached weight) :
    (nodesOf l).Subperm sc.unfolding := by
  apply h.nodesOf_nodup.subperm
  intro node hnode
  obtain ⟨k, b, hb, rfl⟩ := mem_nodesOf.mp hnode
  refine (Scenario.mem_unfolding hbudget).mpr ⟨(place l k).length - 1, h.mem_level hb ?_⟩
  rw [place]
  rfl

end Growing

structure Grown (sc : Scenario) (l : List Branch) : Prop where
  parent : ∀ (k : Nat) (b : Branch) (p : Nat), l[k]? = some b → b.parent = some p → p < k
  roots : (l.filter fun c => c.parent == none).map Branch.sequence = sc.initial
  forks : ∀ (k : Nat) (b : Branch), l[k]? = some b →
    (offspring l k).map Branch.sequence = sc.forksOf b.sequence

namespace Grown

variable {sc : Scenario} {reached : Nat → Prop} {weight : Nat → Nat} {l : List Branch}

lemma growing (h : Grown sc l) : Growing sc l where
  parent := h.parent
  roots := ⟨[], (List.append_nil _).trans h.roots⟩
  forks k b hb := ⟨[], (List.append_nil _).trans (h.forks k b hb)⟩

lemma exists_branch (h : Grown sc l) {depth : Nat} {node : Unfolding.Node}
    (hnode : node ∈ sc.level depth) :
    ∃ k b, l[k]? = some b ∧ node = ⟨place l k, b.sequence⟩ := by
  induction depth generalizing node with
  | zero =>
    obtain ⟨i, hpath, hid⟩ := Scenario.mem_shoots.mp hnode
    obtain ⟨k, b, hb, hroot, hseq, hrank⟩ := (getElem?_siblings h.roots).mp hid
    refine ⟨k, b, hb, ?_⟩
    rw [place_of_root hb hroot, hseq, hrank, ← hpath]
  | succ depth ih =>
    obtain ⟨above, habove, hnode⟩ := List.mem_flatMap.mp hnode
    obtain ⟨p, c, hc, rfl⟩ := ih habove
    obtain ⟨i, hpath, hid⟩ := Scenario.mem_shoots.mp hnode
    obtain ⟨k, b, hb, hp, hseq, hrank⟩ := (getElem?_siblings (h.forks p c hc)).mp hid
    refine ⟨k, b, hb, ?_⟩
    rw [place_of_parent hb hp (h.parent k b p hb hp), hseq, hrank, ← hpath]

theorem nodesOf_perm (h : Grown sc l) (hbudget : sc.Budget reached weight) :
    (nodesOf l).Perm sc.unfolding := by
  have hsub := h.growing.nodesOf_subperm hbudget
  refine (List.perm_ext_iff_of_nodup h.growing.nodesOf_nodup
    (sc.unfolding_paths.of_map _)).mpr fun node => ⟨fun hnode => hsub.subset hnode, fun hnode => ?_⟩
  obtain ⟨depth, hnode⟩ := (Scenario.mem_unfolding hbudget).mp hnode
  exact mem_nodesOf.mpr (h.exists_branch hnode)

end Grown

end LoadEngine
