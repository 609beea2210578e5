import LoadEngine.Proofs.ForkWeights
import Mathlib.Algebra.Order.BigOperators.Group.List
import Mathlib.Algebra.Order.Ring.Nat
import Mathlib.Data.Finset.Card
import Mathlib.Data.Finset.Range
import Mathlib.Data.List.Chain
import Mathlib.Logic.Relation

/-! What a search of a graph says of its cycles. If it fails, it names one that can be reached,
whose nodes are all different but for the last; and if it does not, there is none, as weights that
are positive get less along every edge. -/

namespace LoadEngine

lemma bind_eq_error {ε α β : Type} {x : Except ε α} {f : α → Except ε β} {e : ε} :
    (x >>= f) = .error e ↔ x = .error e ∨ ∃ a, x = .ok a ∧ f a = .error e := by
  cases x with
  | error e' =>
    constructor
    · intro h
      cases h
      exact .inl rfl
    · rintro (h | ⟨a, h, -⟩)
      · cases h
        rfl
      · cases h
  | ok a =>
    constructor
    · intro h
      exact .inr ⟨a, rfl, h⟩
    · rintro (h | ⟨a', h, hf⟩)
      · cases h
      · cases h
        exact hf

lemma foldlM_error {ε α β : Type} {f : β → α → Except ε β} {l : List α} {b : β} {e : ε}
    (h : l.foldlM f b = .error e) : ∃ b', ∃ a ∈ l, f b' a = .error e := by
  induction l generalizing b with
  | nil => cases h
  | cons a rest ih =>
    rw [List.foldlM_cons] at h
    rcases bind_eq_error.mp h with h | ⟨b', -, h⟩
    · exact ⟨b, a, List.mem_cons_self, h⟩
    · obtain ⟨b'', a', ha', hf⟩ := ih h
      exact ⟨b'', a', List.mem_cons_of_mem _ ha', hf⟩

namespace Graph

def Edge (g : Graph) (a b : Nat) : Prop := b ∈ g.next a

def Within (g : Graph) : Prop := ∀ a b, g.Edge a b → b < g.size

def IsCycle (g : Graph) (path : List Nat) : Prop :=
  ∃ node between, path = node :: between ++ [node] ∧ (node :: between).Nodup ∧ path.IsChain g.Edge

variable {g : Graph} {cost : Nat → Nat} {path : List Nat} {node : Nat}

lemma transGen_of_isChain {α : Type} {r : α → α → Prop} {a b : α} {l : List α}
    (h : (a :: l ++ [b]).IsChain r) : Relation.TransGen r a b := by
  induction l generalizing a with
  | nil => exact .single (List.isChain_cons_cons.mp h).1
  | cons c rest ih =>
    obtain ⟨hfirst, hrest⟩ := List.isChain_cons_cons.mp h
    exact (ih hrest).head hfirst

lemma length_le_of_nodup {n : Nat} (hnodup : path.Nodup) (hbound : ∀ p ∈ path, p < n) :
    path.length ≤ n := by
  rw [← List.toFinset_card_of_nodup hnodup, ← Finset.card_range n]
  apply Finset.card_le_card
  intro p hp
  exact Finset.mem_range.mpr (hbound p (List.mem_toFinset.mp hp))

structure Trail (g : Graph) (start : Nat) (path : List Nat) (node : Nat) : Prop where
  chain : (path ++ [node]).IsChain g.Edge
  nodup : path.Nodup
  bound : ∀ p ∈ path ++ [node], p < g.size
  reached : ∀ p ∈ path ++ [node], Relation.ReflTransGen g.Edge start p

variable {start : Nat}

lemma Trail.nil (h : start < g.size) : g.Trail start [] start := by
  refine ⟨List.isChain_singleton _, List.nodup_nil, ?_, ?_⟩
  · exact List.forall_mem_singleton.mpr h
  · exact List.forall_mem_singleton.mpr .refl

lemma Trail.nodup_concat (h : g.Trail start path node) (hnew : node ∉ path) :
    (path ++ [node]).Nodup := by
  rw [← List.concat_eq_append]
  exact h.nodup.concat hnew

lemma Trail.extend (h : g.Trail start path node) (hg : g.Within) (hnew : node ∉ path) {m : Nat}
    (hm : m ∈ g.next node) : g.Trail start (path ++ [node]) m := by
  refine ⟨?_, h.nodup_concat hnew, ?_, ?_⟩
  · refine h.chain.append (List.isChain_singleton m) ?_
    intro x hx y hy
    rw [List.getLast?_concat, Option.mem_some_iff] at hx
    rw [List.head?_cons, Option.mem_some_iff] at hy
    rw [← hx, ← hy]
    exact hm
  · exact List.forall_mem_append.mpr ⟨h.bound, List.forall_mem_singleton.mpr (hg node m hm)⟩
  · refine List.forall_mem_append.mpr ⟨h.reached, List.forall_mem_singleton.mpr ?_⟩
    exact (h.reached node (by simp)).tail hm

lemma Trail.length_lt (h : g.Trail start path node) (hnew : node ∉ path) :
    path.length < g.size := by
  have hle := length_le_of_nodup (h.nodup_concat hnew) h.bound
  rwa [List.length_append, List.length_singleton] at hle

lemma Trail.closes (h : g.Trail start path node) (hmem : node ∈ path) :
    g.IsCycle (closeCycle path node) ∧
      ∀ n ∈ closeCycle path node, Relation.ReflTransGen g.Edge start n := by
  obtain ⟨before, between, rfl, hbefore⟩ := List.eq_append_cons_of_mem hmem
  have hdrop : closeCycle (before ++ node :: between) node = node :: between ++ [node] := by
    have hpos : ∀ p ∈ before, (p != node) = true := by
      intro p hp
      rw [bne_iff_ne]
      rintro rfl
      exact hbefore hp
    rw [closeCycle, List.dropWhile_append_of_pos hpos, List.dropWhile_cons_of_neg (by simp)]
  have hsuffix : node :: between ++ [node] <:+ before ++ node :: between ++ [node] :=
    ⟨before, by simp⟩
  rw [hdrop]
  refine ⟨⟨node, between, rfl, h.nodup.of_append_right, h.chain.suffix hsuffix⟩, ?_⟩
  intro n hn
  exact h.reached n (hsuffix.subset hn)

lemma Within.lt_of_reached (hg : g.Within) (hstart : start < g.size)
    (h : Relation.ReflTransGen g.Edge start node) : node < g.size := by
  cases h with
  | refl => exact hstart
  | tail _ hedge => exact hg _ _ hedge

def Closes (g : Graph) (start : Nat) (cycle : List Nat) : Prop :=
  g.IsCycle cycle ∧ ∀ n ∈ cycle, Relation.ReflTransGen g.Edge start n

lemma visit_error (hg : g.Within) {room : Nat} {known : Weights} {cycle : List Nat}
    (htrail : g.Trail start path node) (hroom : g.size ≤ room + path.length)
    (h : g.visit cost room path known node = .error cycle) : g.Closes start cycle := by
  -- A path without repetition is no longer than the graph, so only a node met again is an error.
  induction room generalizing path known node with
  | zero =>
    unfold visit at h
    split at h
    · cases h
    · split at h
      · rename_i hmem
        cases h
        exact htrail.closes hmem
      · rename_i hnew
        have hlt := htrail.length_lt hnew
        omega
  | succ room ih =>
    unfold visit at h
    split at h
    · cases h
    · split at h
      · rename_i hmem
        cases h
        exact htrail.closes hmem
      · rename_i hnew
        rcases bind_eq_error.mp h with hfold | ⟨found, -, h⟩
        · obtain ⟨⟨sum, known'⟩, m, hm, hstep⟩ := foldlM_error hfold
          rcases bind_eq_error.mp hstep with hvisit | ⟨found, -, h⟩
          · refine ih (htrail.extend hg hnew hm) ?_ hvisit
            rw [List.length_append, List.length_singleton]
            omega
          · cases h
        · cases h

lemma weigh_error (hg : g.Within) {nodes cycle : List Nat} (hnodes : ∀ n ∈ nodes, n < g.size)
    (h : g.weigh cost nodes = .error cycle) : ∃ start ∈ nodes, g.Closes start cycle := by
  obtain ⟨⟨sum, known⟩, start, hstart, hstep⟩ := foldlM_error h
  rcases bind_eq_error.mp hstep with hvisit | ⟨found, -, h⟩
  · exact ⟨start, hstart, visit_error hg (.nil (hnodes start hstart)) (Nat.le_refl _) hvisit⟩
  · cases h

namespace Weights

variable {known : Weights}

lemma Closed.reached (h : Closed g cost known) {a b : Nat} (ha : (known.get? a).isSome)
    (hab : Relation.ReflTransGen g.Edge a b) : (known.get? b).isSome := by
  induction hab with
  | refl => exact ha
  | tail _ hedge ih => exact h.next _ ih _ hedge

lemma Closed.lt_of_transGen (h : Closed g cost known) (hcost : ∀ n, 0 < cost n) {a b : Nat}
    (ha : (known.get? a).isSome) (hab : Relation.TransGen g.Edge a b) :
    known.of b < known.of a := by
  have hedge : ∀ m n, (known.get? m).isSome → g.Edge m n → known.of n < known.of m := by
    intro m n hm hmn
    have hle : known.of n ≤ ((g.next m).map known.of).sum :=
      List.single_le_sum (fun _ _ => Nat.zero_le _) _ (List.mem_map_of_mem hmn)
    have hweight := h.weight m hm
    have hpos := hcost m
    omega
  induction hab with
  | single hab => exact hedge _ _ ha hab
  | tail hab hbc ih => exact (hedge _ _ (h.reached ha hab.to_reflTransGen) hbc).trans ih

end Weights

lemma acyclic_of_weigh {nodes : List Nat} {found : Nat × Weights} (hcost : ∀ n, 0 < cost n)
    (h : g.weigh cost nodes = .ok found) {a b : Nat} (ha : a ∈ nodes)
    (hab : Relation.ReflTransGen g.Edge a b) : ¬ Relation.TransGen g.Edge b b := by
  obtain ⟨hclosed, hbound, -⟩ := weigh_closed h
  intro hbb
  exact Nat.lt_irrefl _ (hclosed.lt_of_transGen hcost (hclosed.reached (hbound a ha) hab) hbb)

end Graph

end LoadEngine
