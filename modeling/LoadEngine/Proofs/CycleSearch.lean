import LoadEngine.Proofs.GraphSearch

/-! The search for any cycle of a graph. It costs nothing, so weights do not tell that there is
none. What tells it are the marks: whatever was left with a mark reaches marked nodes only, and the
nodes on the way are not marked yet, so no marked node can lead back to them. The same search with
every look at the graph checked never looks outside it, and never runs out of room. -/

namespace LoadEngine

lemma foldlM_keeps {ε α β : Type} {P : β → Prop} {f : β → α → Except ε β} {l : List α} {b b' : β}
    (hstep : ∀ b a b', P b → f b a = .ok b' → P b') (hb : P b) (h : l.foldlM f b = .ok b') :
    P b' := by
  induction l generalizing b with
  | nil =>
    cases h
    exact hb
  | cons a rest ih =>
    rw [List.foldlM_cons] at h
    obtain ⟨c, hfirst, hrest⟩ := bind_eq_ok.mp h
    exact ih (hstep b a c hb hfirst) hrest

lemma run_bind_checked {ε α β : Type} {x : ExceptT ε Option α} {y : Except ε α}
    {f : α → ExceptT ε Option β} {k : α → Except ε β} (hx : x.run = some y)
    (hf : ∀ a, (f a).run = some (k a)) : (x >>= f).run = some (y >>= k) := by
  rw [ExceptT.run_bind, hx]
  cases y with
  | error e => rfl
  | ok a => exact hf a

lemma foldlM_checked {ε α β : Type} {checked : β → α → ExceptT ε Option β}
    {plain : β → α → Except ε β} {l : List α}
    (hstep : ∀ a ∈ l, ∀ b, (checked b a).run = some (plain b a)) (b : β) :
    (l.foldlM checked b).run = some (l.foldlM plain b) := by
  induction l generalizing b with
  | nil => rfl
  | cons a rest ih =>
    rw [List.foldlM_cons, List.foldlM_cons]
    refine run_bind_checked (hstep a List.mem_cons_self b) fun c => ?_
    exact ih (fun a ha => hstep a (List.mem_cons_of_mem _ ha)) c

namespace Graph

open Weights

variable {g : Graph} {cost : Nat → Nat}

/-- The state of the marks when the search stands at the end of `path`. -/
structure Marks (g : Graph) (cost : Nat → Nat) (path : List Nat) (known : Weights) : Prop where
  closed : Closed g cost known
  avoids : ∀ p ∈ path, known.get? p = none
  acyclic : ∀ n, (known.get? n).isSome → ¬ Relation.TransGen g.Edge n n

lemma marks_empty : g.Marks cost [] ∅ := by
  refine ⟨closed_empty, ?_, ?_⟩
  · exact nofun
  · exact nofun

variable {path : List Nat} {known : Weights} {node : Nat}

lemma Marks.enter (h : g.Marks cost path known) (hnew : known.get? node = none) :
    g.Marks cost (path ++ [node]) known :=
  ⟨h.closed, List.forall_mem_append.mpr ⟨h.avoids, List.forall_mem_singleton.mpr hnew⟩, h.acyclic⟩

lemma Marks.leave (h : g.Marks cost (path ++ [node]) known) (hnode : node ∉ path)
    (hnext : ∀ m ∈ g.next node, (known.get? m).isSome) :
    g.Marks cost path (known.insert node (cost node + ((g.next node).map known.of).sum)) := by
  have hself : ¬ Relation.TransGen g.Edge node node := by
    intro hcycle
    obtain ⟨m, hm, hback⟩ := Relation.TransGen.head'_iff.mp hcycle
    have hmarked := h.closed.reached (hnext m hm) hback
    rw [h.avoids node (by simp)] at hmarked
    cases hmarked
  refine ⟨(h.closed.insert hnext).1, fun p hp => ?_, fun n hn => ?_⟩
  · have hne : p ≠ node := by
      rintro rfl
      exact hnode hp
    rw [OrderedMap.get?_insert_ne _ _ hne]
    exact h.avoids p (List.mem_append_left _ hp)
  · by_cases he : n = node
    · rw [he]
      exact hself
    · rw [OrderedMap.get?_insert_ne _ _ he] at hn
      exact h.acyclic n hn

lemma Marks.visit (h : g.Marks cost path known) {room : Nat} {found : Nat × Weights}
    (hfound : g.visit cost room path known node = .ok found) : g.Marks cost path found.2 := by
  -- Between entering a node and leaving it every visit of a successor keeps the marks.
  induction room generalizing path known node found with
  | zero =>
    unfold Graph.visit at hfound
    split at hfound
    · cases hfound
      exact h
    · split at hfound <;> cases hfound
  | succ room ih =>
    unfold Graph.visit at hfound
    split at hfound
    · cases hfound
      exact h
    · rename_i hnew
      split at hfound
      · cases hfound
      · rename_i hnode
        obtain ⟨⟨weight, after⟩, hfold, hbind⟩ := bind_eq_ok.mp hfound
        cases hbind
        have hentered := h.enter hnew
        obtain ⟨-, -, hbound, hsum⟩ :=
          foldlM_weighs (fun _ _ _ hk hv => visit_weighs hk hv) hentered.closed hfold
        have hafter : g.Marks cost (path ++ [node]) after := by
          refine foldlM_keeps (P := fun s => g.Marks cost (path ++ [node]) s.2) ?_ hentered hfold
          intro s successor s' hs hvisit
          obtain ⟨found, hsub, hpure⟩ := bind_eq_ok.mp hvisit
          have hkept := ih hs hsub
          cases hpure
          exact hkept
        simp only at hsum
        rw [hsum]
        exact hafter.leave hnode hbound

lemma weigh_marks {nodes : List Nat} {found : Nat × Weights}
    (h : g.weigh cost nodes = .ok found) : g.Marks cost [] found.2 := by
  refine foldlM_keeps (P := fun s => g.Marks cost [] s.2) ?_ marks_empty h
  intro s node s' hs hvisit
  obtain ⟨found, hsub, hpure⟩ := bind_eq_ok.mp hvisit
  have hkept := hs.visit hsub
  cases hpure
  exact hkept

lemma successors_of_lt (h : node < g.size) : g.successors[node]? = some (g.next node) := by
  rw [next, List.getD_eq_getElem?_getD, List.getElem?_eq_getElem h]
  rfl

lemma Edge.lt {a b : Nat} (h : g.Edge a b) : a < g.size := by
  by_contra hge
  rw [Edge, next, List.getD_eq_getElem?_getD, List.getElem?_eq_none (Nat.le_of_not_lt hge)] at h
  cases h

lemma TransGen.lt {a b : Nat} (h : Relation.TransGen g.Edge a b) : a < g.size := by
  obtain ⟨m, hm, -⟩ := Relation.TransGen.head'_iff.mp h
  exact hm.lt

lemma findCycle_eq_none (h : g.findCycle = none) (a : Nat) : ¬ Relation.TransGen g.Edge a a := by
  intro hcycle
  unfold findCycle at h
  split at h
  · rename_i found hw
    obtain ⟨-, hknown, -⟩ := weigh_closed hw
    have hmem : a ∈ List.range g.size := List.mem_range.mpr (TransGen.lt hcycle)
    exact (weigh_marks hw).acyclic a (hknown a hmem) hcycle
  · cases h

lemma findCycle_eq_some (hg : g.Within) {cycle : List Nat} (h : g.findCycle = some cycle) :
    g.IsCycle cycle ∧ ∀ n ∈ cycle, n < g.size := by
  have hnodes : ∀ n ∈ List.range g.size, n < g.size := fun n hn => List.mem_range.mp hn
  unfold findCycle at h
  split at h
  · cases h
  · rename_i cycle' hw
    cases h
    obtain ⟨start, hstart, hcycle, hreach⟩ := weigh_error hg hnodes hw
    exact ⟨hcycle, fun n hn => hg.lt_of_reached (hnodes start hstart) (hreach n hn)⟩

/-- A search from a node which gives no answer if it has to look at a node that the graph does not
have, or if there is no room for one more node on the path. -/
def visitChecked (g : Graph) (cost : Nat → Nat) :
    Nat → List Nat → Weights → Nat → ExceptT (List Nat) Option (Nat × Weights)
  | room, path, known, node =>
    match g.successors[node]? with
    | none => ExceptT.mk none
    | some successors =>
      match known.get? node with
      | some weight => pure (weight, known)
      | none =>
        if node ∈ path then throw (closeCycle path node)
        else
          match room with
          | 0 => ExceptT.mk none
          | room + 1 => do
            let (weight, known) ← successors.foldlM (fun (sum, known) successor => do
              let (weight, known) ← visitChecked g cost room (path ++ [node]) known successor
              pure (sum + weight, known)) (cost node, known)
            pure (weight, known.insert node weight)

def weighChecked (g : Graph) (cost : Nat → Nat) (nodes : List Nat) :
    ExceptT (List Nat) Option (Nat × Weights) :=
  nodes.foldlM (fun (sum, known) node => do
    let (weight, known) ← g.visitChecked cost g.size [] known node
    pure (sum + weight, known)) (0, ∅)

def findCycleChecked (g : Graph) : Option (Option (List Nat)) :=
  (g.weighChecked (fun _ => 0) (List.range g.size)).run.map fun
    | .ok _ => none
    | .error cycle => some cycle

lemma visitChecked_eq (hg : g.Within) {room start : Nat} (htrail : g.Trail start path node)
    (hroom : g.size ≤ room + path.length) (known : Weights) :
    (g.visitChecked cost room path known node).run = some (g.visit cost room path known node) := by
  -- The path has only nodes of the graph, each once, so there is room for all of them.
  induction room generalizing path known node with
  | zero =>
    have hlt : node < g.size := htrail.bound node (by simp)
    unfold visitChecked visit
    rw [successors_of_lt hlt]
    cases known.get? node with
    | some weight => rfl
    | none =>
      by_cases hnode : node ∈ path
      · simp only [if_pos hnode]
        rfl
      · have hlength := htrail.length_lt hnode
        omega
  | succ room ih =>
    have hlt : node < g.size := htrail.bound node (by simp)
    unfold visitChecked visit
    rw [successors_of_lt hlt]
    cases known.get? node with
    | some weight => rfl
    | none =>
      by_cases hnode : node ∈ path
      · simp only [if_pos hnode]
        rfl
      · have hlonger : g.size ≤ room + (path ++ [node]).length := by
          rw [List.length_append, List.length_singleton]
          omega
        simp only [if_neg hnode]
        refine run_bind_checked (foldlM_checked ?_ _) fun _ => rfl
        intro m hm s
        exact run_bind_checked (ih (htrail.extend hg hnode hm) hlonger s.2) fun _ => rfl

lemma findCycleChecked_eq (hg : g.Within) : g.findCycleChecked = some g.findCycle := by
  have hweigh : (g.weighChecked (fun _ => 0) (List.range g.size)).run =
      some (g.weigh (fun _ => 0) (List.range g.size)) := by
    refine foldlM_checked ?_ (0, ∅)
    intro n hn s
    have htrail : g.Trail n [] n := .nil (List.mem_range.mp hn)
    exact run_bind_checked (visitChecked_eq hg htrail (Nat.le_refl _) s.2) fun _ => rfl
  rw [findCycleChecked, findCycle, hweigh]
  cases g.weigh (fun _ => 0) (List.range g.size) with
  | error e => rfl
  | ok found => rfl

end Graph

end LoadEngine
