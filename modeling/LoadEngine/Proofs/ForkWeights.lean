import LoadEngine.Proofs.OrderedMap
import LoadEngine.Proofs.Validity
import LoadEngine.Scenario.Resolve
import LoadEngine.Session.Effort
import Mathlib.Algebra.BigOperators.Group.List.Basic

/-! What the weights of a graph are worth. A search that finds no cycle has weighed every node it
met, and the weight of each is its own cost with the weights of its successors. -/

namespace LoadEngine

namespace Graph

namespace Weights

def of (known : Weights) (node : Nat) : Nat := (known.get? node).getD 0

structure Closed (g : Graph) (cost : Nat → Nat) (known : Weights) : Prop where
  next : ∀ node, (known.get? node).isSome → ∀ m ∈ g.next node, (known.get? m).isSome
  weight : ∀ node, (known.get? node).isSome →
    known.of node = cost node + ((g.next node).map known.of).sum

def Extends (a b : Weights) : Prop := ∀ node w, a.get? node = some w → b.get? node = some w

variable {g : Graph} {cost : Nat → Nat} {a b c : Weights}

lemma Extends.refl (a : Weights) : Extends a a := fun _ _ h => h

lemma Extends.trans (h : Extends a b) (h' : Extends b c) : Extends a c :=
  fun node w hw => h' node w (h node w hw)

lemma Extends.isSome (h : Extends a b) {node : Nat} (hn : (a.get? node).isSome) :
    (b.get? node).isSome := by
  obtain ⟨w, hw⟩ := Option.isSome_iff_exists.mp hn
  rw [h node w hw]
  rfl

lemma Extends.of_eq (h : Extends a b) {node : Nat} (hn : (a.get? node).isSome) :
    b.of node = a.of node := by
  obtain ⟨w, hw⟩ := Option.isSome_iff_exists.mp hn
  rw [of, of, hw, h node w hw]

lemma Extends.sum_eq (h : Extends a b) {nodes : List Nat}
    (hn : ∀ n ∈ nodes, (a.get? n).isSome) : (nodes.map b.of).sum = (nodes.map a.of).sum := by
  have hmap : nodes.map b.of = nodes.map a.of :=
    List.map_congr_left fun n hmem => h.of_eq (hn n hmem)
  rw [hmap]

lemma closed_empty : Closed g cost ∅ := by
  constructor <;> intro node h <;> cases h

lemma Closed.insert (h : Closed g cost a) {node : Nat}
    (hnext : ∀ m ∈ g.next node, (a.get? m).isSome) :
    Closed g cost (a.insert node (cost node + ((g.next node).map a.of).sum)) ∧
      Extends a (a.insert node (cost node + ((g.next node).map a.of).sum)) := by
  have hext : Extends a (a.insert node (cost node + ((g.next node).map a.of).sum)) := by
    intro m w hm
    by_cases he : m = node
    · subst he
      have hw := h.weight m (by rw [hm]; rfl)
      rw [of, hm, Option.getD_some] at hw
      rw [OrderedMap.get?_insert_self, hw]
    · rw [OrderedMap.get?_insert_ne _ _ he, hm]
  refine ⟨⟨?_, ?_⟩, hext⟩
  · intro n hn m hm
    by_cases he : n = node
    · subst he
      exact hext.isSome (hnext m hm)
    · rw [OrderedMap.get?_insert_ne _ _ he] at hn
      exact hext.isSome (h.next n hn m hm)
  · intro n hn
    by_cases he : n = node
    · subst he
      rw [hext.sum_eq hnext, of, OrderedMap.get?_insert_self]
      rfl
    · rw [OrderedMap.get?_insert_ne _ _ he] at hn
      rw [hext.of_eq hn, hext.sum_eq (h.next n hn)]
      exact h.weight n hn

end Weights

open Weights

variable {g : Graph} {cost : Nat → Nat}

def Weighs (g : Graph) (cost : Nat → Nat) (known : Weights) (node : Nat)
    (found : Nat × Weights) : Prop :=
  Closed g cost found.2 ∧ Extends known found.2 ∧ found.2.get? node = some found.1

lemma foldlM_weighs {search : Weights → Nat → Except (List Nat) (Nat × Weights)}
    (hsearch : ∀ known node found, Closed g cost known → search known node = .ok found →
      Weighs g cost known node found)
    {nodes : List Nat} {sum : Nat} {known : Weights} {found : Nat × Weights}
    (hknown : Closed g cost known)
    (h : nodes.foldlM (fun (sum, known) node => do
      let (weight, known) ← search known node
      pure (sum + weight, known)) (sum, known) = .ok found) :
    Closed g cost found.2 ∧ Extends known found.2 ∧ (∀ n ∈ nodes, (found.2.get? n).isSome) ∧
      found.1 = sum + (nodes.map found.2.of).sum := by
  induction nodes generalizing sum known with
  | nil =>
    cases h
    exact ⟨hknown, .refl known, by simp, by simp⟩
  | cons node rest ih =>
    rw [List.foldlM_cons] at h
    obtain ⟨⟨sum', known'⟩, hfirst, hrest⟩ := bind_eq_ok.mp h
    obtain ⟨⟨weight, after⟩, hnode, hsum⟩ := bind_eq_ok.mp hfirst
    cases hsum
    obtain ⟨hclosed, hext, hweight⟩ := hsearch known node _ hknown hnode
    obtain ⟨hc, he, hbound, hs⟩ := ih hclosed hrest
    have hnodeweight := he node weight hweight
    refine ⟨hc, hext.trans he, ?_, ?_⟩
    · refine List.forall_mem_cons.mpr ⟨?_, hbound⟩
      rw [hnodeweight]
      rfl
    · have hof : found.2.of node = weight := by
        rw [of, hnodeweight]
        rfl
      rw [hs, List.map_cons, List.sum_cons, hof]
      omega

lemma visit_weighs {room : Nat} {path : List Nat} {known : Weights} {node : Nat}
    {found : Nat × Weights} (hknown : Closed g cost known)
    (h : g.visit cost room path known node = .ok found) : Weighs g cost known node found := by
  induction room generalizing path known node found with
  | zero =>
    unfold visit at h
    split at h
    · rename_i weight hw
      cases h
      exact ⟨hknown, .refl known, hw⟩
    · split at h <;> cases h
  | succ room ih =>
    unfold visit at h
    split at h
    · rename_i weight hw
      cases h
      exact ⟨hknown, .refl known, hw⟩
    · rename_i hnew
      split at h
      · cases h
      · obtain ⟨⟨weight, after⟩, hfold, hbind⟩ := bind_eq_ok.mp h
        cases hbind
        obtain ⟨hclosed, hext, hbound, hsum⟩ :=
          foldlM_weighs (fun known node found hk hv => ih hk hv) hknown hfold
        simp only at hsum
        rw [hsum]
        obtain ⟨hc, he⟩ := hclosed.insert hbound
        exact ⟨hc, hext.trans he, OrderedMap.get?_insert_self _ _ _⟩

lemma weigh_closed {nodes : List Nat} {found : Nat × Weights}
    (h : g.weigh cost nodes = .ok found) :
    Closed g cost found.2 ∧ (∀ n ∈ nodes, (found.2.get? n).isSome) ∧
      found.1 = (nodes.map found.2.of).sum := by
  obtain ⟨hclosed, -, hbound, hsum⟩ :=
    foldlM_weighs (fun known node found hk hv => visit_weighs hk hv) closed_empty h
  refine ⟨hclosed, hbound, ?_⟩
  rw [hsum, Nat.zero_add]

end Graph

namespace Scenario

def stepsOf (s : Scenario) (id : Nat) : List (Step Variable) :=
  (s.sequences[id]?.map Sequence.steps).getD []

lemma step?_eq (s : Scenario) (id position : Nat) :
    s.step? id position = (s.stepsOf id)[position]? := by
  unfold step? stepsOf
  cases s.sequences[id]? <;> rfl

lemma effortFrom_eq (s : Scenario) (id position : Nat) :
    s.effortFrom id position = (((s.stepsOf id).drop position).map s.stepEffort).sum + 1 := by
  unfold effortFrom stepsOf
  cases s.sequences[id]? <;> simp

def forksOf (s : Scenario) (id : Nat) : List Nat := (s.stepsOf id).flatMap Step.forks

/-- What a session of a scenario may take in branches and steps. The sequences that can be reached
fork only such. Each has a weight in branches, itself and all that it forks, and an effort. -/
structure Budget (s : Scenario) (reached : Nat → Prop) (weight : Nat → Nat) : Prop where
  initial : ∀ id ∈ s.initial, reached id
  forks : ∀ id, reached id → ∀ target ∈ s.forksOf id, reached target
  weight_eq : ∀ id, reached id → weight id = 1 + ((s.forksOf id).map weight).sum
  maxBranches : s.maxBranches = (s.initial.map weight).sum
  effort_eq : ∀ id, reached id → s.effort id =
    (s.stepsOf id).length + 1 + ((s.forksOf id).map s.effort).sum

end Scenario

lemma weighForks_ok {ρ : Type} {sequences : List (Sequence ρ)} {initial : List Nat}
    {cost : Nat → Nat} {found : Nat × Graph.Weights}
    (h : weighForks sequences initial cost = .ok found) :
    (forkGraph sequences).weigh cost initial = .ok found := by
  unfold weighForks at h
  split at h
  · rename_i weights hw
    cases h
    exact hw
  · cases h

lemma forkGraph_next (s : Scenario) (id : Nat) :
    (forkGraph s.sequences).next id = s.forksOf id := by
  unfold Graph.next forkGraph Scenario.forksOf Scenario.stepsOf Sequence.forks
  rw [List.getD_eq_getElem?_getD, List.getElem?_map]
  cases s.sequences[id]? <;> rfl

structure Draft.Built (d : Draft) (s : Scenario) (placed : List (LoadEngine.Sequence String))
    (layout : ArenaLayout) : Prop where
  place : ArenaLayout.placeSequences d .empty d.sequences = .ok (placed, layout)
  resolve : layout.resolveSequences placed = .ok s.sequences
  sessionSlots : s.sessionSlots = layout.session
  branchSlots : s.branchSlots = layout.branch
  weighed : ∃ weights, (forkGraph s.sequences).weigh (fun _ => 1) s.initial =
    .ok (s.maxBranches, weights)
  measured : ∃ total,
    (forkGraph s.sequences).weigh (fun id => (s.stepsOf id).length + 1) s.initial =
    .ok (total, s.efforts)

lemma Draft.build_ok {d : Draft} {s : Scenario} (h : d.build = .ok s) :
    ∃ placed layout, d.Built s placed layout := by
  unfold Draft.build at h
  cases hinitial : d.initial.isEmpty with
  | true =>
    rw [hinitial] at h
    cases h
  | false =>
    cases hnames : firstRepeated? [] (d.sequences.map Draft.Sequence.name) with
    | some name =>
      rw [hinitial, hnames] at h
      cases h
    | none =>
      rw [hinitial, hnames] at h
      obtain ⟨initial, -, h⟩ := bind_eq_ok.mp h
      obtain ⟨⟨placed, layout⟩, hplaced, h⟩ := bind_eq_ok.mp h
      obtain ⟨sequences, hresolved, h⟩ := bind_eq_ok.mp h
      obtain ⟨⟨maxBranches, weights⟩, hweighed, h⟩ := bind_eq_ok.mp h
      obtain ⟨⟨total, efforts⟩, hmeasured, h⟩ := bind_eq_ok.mp h
      cases h
      have hcost : (fun id : Nat => ((sequences[id]?.map fun q => q.steps.length).getD 0) + 1) =
          fun id => ((sequences[id]?.map LoadEngine.Sequence.steps).getD []).length + 1 := by
        funext id
        cases sequences[id]? <;> rfl
      rw [hcost] at hmeasured
      exact ⟨placed, layout, hplaced, hresolved, rfl, rfl, ⟨weights, weighForks_ok hweighed⟩,
        ⟨total, weighForks_ok hmeasured⟩⟩

theorem Draft.build_budget {d : Draft} {s : Scenario} (h : d.build = .ok s) :
    ∃ reached weight, s.Budget reached weight := by
  obtain ⟨placed, layout, hbuilt⟩ := Draft.build_ok h
  obtain ⟨weights, hweights⟩ := hbuilt.weighed
  obtain ⟨total, hefforts⟩ := hbuilt.measured
  obtain ⟨hclosed, hbound, hsum⟩ := Graph.weigh_closed hweights
  obtain ⟨hclosed', hbound', -⟩ := Graph.weigh_closed hefforts
  refine ⟨fun id => (weights.get? id).isSome ∧ (s.efforts.get? id).isSome, weights.of, ?_⟩
  constructor
  · intro id hid
    exact ⟨hbound id hid, hbound' id hid⟩
  · intro id hid target htarget
    rw [← forkGraph_next] at htarget
    exact ⟨hclosed.next id hid.1 target htarget, hclosed'.next id hid.2 target htarget⟩
  · intro id hid
    rw [hclosed.weight id hid.1, forkGraph_next]
  · exact hsum
  · intro id hid
    have heffort := hclosed'.weight id hid.2
    rw [forkGraph_next] at heffort
    exact heffort

end LoadEngine
