import LoadEngine.Proofs.WellFormedDrafts

/-! The number of branches that a scenario may have. The search with marks gives what counting
without marks would give, a sequence as often as it is forked. It fails only if the sequences that
can be reached fork each other in a circle, and then it names such a circle. -/

namespace LoadEngine

namespace Graph.Weights

variable {g : Graph} {cost : Nat → Nat} {known : Weights}

lemma Closed.eq_of (h : Closed g cost known) (hcost : ∀ n, 0 < cost n) {size : Nat → Nat}
    {start : Nat} (hstart : (known.get? start).isSome)
    (hsize : ∀ n, Relation.ReflTransGen g.Edge start n →
      size n = cost n + ((g.next n).map size).sum) {node : Nat}
    (hnode : Relation.ReflTransGen g.Edge start node) : size node = known.of node := by
  induction hw : known.of node using Nat.strong_induction_on generalizing node with
  | _ weight ih =>
    have hknown := h.reached hstart hnode
    have hnext : (g.next node).map size = (g.next node).map known.of := by
      refine List.map_congr_left fun m hm => ?_
      have hlt := h.lt_of_transGen hcost hknown (.single hm)
      exact ih (known.of m) (hw ▸ hlt) (hnode.tail hm) rfl
    rw [hsize node hnode, hnext, ← h.weight node hknown, hw]

end Graph.Weights

lemma exists_rel_of_isChain {α : Type} {r : α → α → Prop} {a b : α} {l : List α}
    (h : (a :: l).IsChain r) (hb : b ∈ l) : ∃ c, r c b := by
  induction l generalizing a with
  | nil => cases hb
  | cons c rest ih =>
    obtain ⟨hfirst, hrest⟩ := List.isChain_cons_cons.mp h
    rcases List.mem_cons.mp hb with rfl | hb
    · exact ⟨a, hfirst⟩
    · exact ih hrest hb

variable {sequences : List (Sequence Variable)} {initial : List Nat}

def TargetsResolved (sequences : List (Sequence Variable)) : Prop :=
  ∀ sequence ∈ sequences, ∀ step ∈ sequence.steps, ∀ target ∈ step.targets,
    sequences.findIdx? (fun q => q.name == target.name) = some target.id

def ForkReached (sequences : List (Sequence Variable)) (initial : List Nat) (id : Nat) : Prop :=
  ∃ start ∈ initial, Relation.ReflTransGen (forkGraph sequences).Edge start id

/-- A sequence can be reached that forks itself, at however many removes. -/
def ForkCircle (sequences : List (Sequence Variable)) (initial : List Nat) : Prop :=
  ∃ id, ForkReached sequences initial id ∧ Relation.TransGen (forkGraph sequences).Edge id id

/-- Sizes by plain counting: a sequence counts for itself and for each target of each of its forks,
however often that was counted before. -/
def ForkSizes (sequences : List (Sequence Variable)) (initial : List Nat) (size : Nat → Nat) :
    Prop :=
  ∀ id, ForkReached sequences initial id → ∀ sequence, sequences[id]? = some sequence →
    size id = 1 + (sequence.forks.map size).sum

lemma forkGraph_next_eq {id : Nat} {sequence : Sequence Variable}
    (h : sequences[id]? = some sequence) : (forkGraph sequences).next id = sequence.forks := by
  unfold Graph.next forkGraph
  rw [List.getD_eq_getElem?_getD, List.getElem?_map, h]
  rfl

lemma forkGraph_size : (forkGraph sequences).size = sequences.length := by
  rw [Graph.size, forkGraph, List.length_map]

lemma TargetsResolved.found (h : TargetsResolved sequences) {a b : Nat}
    (hab : (forkGraph sequences).Edge a b) :
    sequences.findIdx? (fun q => q.name == (sequences[b]?.map Sequence.name).getD "") = some b := by
  obtain ⟨sequence, hs, step, hstep, target, htarget, rfl⟩ := Draft.edge_iff.mp hab
  have hfound := h sequence (List.mem_of_getElem? hs) step hstep target htarget
  obtain ⟨hlt, hname, -⟩ := List.findIdx?_eq_some_iff_getElem.mp hfound
  rw [List.getElem?_eq_getElem hlt, Option.map_some, Option.getD_some, beq_iff_eq.mp hname]
  exact hfound

lemma TargetsResolved.within (h : TargetsResolved sequences) : (forkGraph sequences).Within := by
  intro a b hab
  rw [forkGraph_size]
  exact (List.findIdx?_eq_some_iff_getElem.mp (h.found hab)).1

lemma ForkReached.lt (h : TargetsResolved sequences)
    (hinitial : ∀ id ∈ initial, id < sequences.length) {id : Nat}
    (hid : ForkReached sequences initial id) : id < sequences.length := by
  obtain ⟨start, hstart, hreach⟩ := hid
  have hlt := hinitial start hstart
  rw [← forkGraph_size] at hlt ⊢
  exact h.within.lt_of_reached hlt hreach

lemma ForkSizes.next (h : TargetsResolved sequences)
    (hinitial : ∀ id ∈ initial, id < sequences.length) {size : Nat → Nat}
    (hsize : ForkSizes sequences initial size) {id : Nat} (hid : ForkReached sequences initial id) :
    size id = 1 + (((forkGraph sequences).next id).map size).sum := by
  have hs := List.getElem?_eq_getElem (hid.lt h hinitial)
  rw [forkGraph_next_eq hs]
  exact hsize id hid _ hs

lemma ForkSizes.bound_eq (h : TargetsResolved sequences)
    (hinitial : ∀ id ∈ initial, id < sequences.length) {size : Nat → Nat}
    (hsize : ForkSizes sequences initial size) {bound : Nat} {weights : Graph.Weights}
    (hw : (forkGraph sequences).weigh (fun _ => 1) initial = .ok (bound, weights)) :
    bound = (initial.map size).sum := by
  obtain ⟨hclosed, hknown, hsum⟩ := Graph.weigh_closed hw
  have hmap : initial.map size = initial.map weights.of := by
    refine List.map_congr_left fun start hstart => ?_
    refine hclosed.eq_of (fun _ => Nat.one_pos) (hknown start hstart) ?_ .refl
    exact fun n hn => hsize.next h hinitial ⟨start, hstart, hn⟩
  rw [hmap]
  exact hsum

lemma TargetsResolved.names_nodup (h : TargetsResolved sequences) {id : Nat} {between : List Nat}
    (hnodup : (id :: between).Nodup)
    (hchain : (id :: between ++ [id]).IsChain (forkGraph sequences).Edge) :
    (forkPath sequences (id :: between)).Nodup := by
  have hfound : ∀ n ∈ id :: between,
      sequences.findIdx? (fun q => q.name == (sequences[n]?.map Sequence.name).getD "") =
        some n := by
    intro n hn
    have hmem : n ∈ between ++ [id] := by
      rcases List.mem_cons.mp hn with rfl | hn
      · exact List.mem_append_right _ List.mem_cons_self
      · exact List.mem_append_left _ hn
    obtain ⟨m, hm⟩ := exists_rel_of_isChain hchain hmem
    exact h.found hm
  refine hnodup.map_on fun i hi j hj hij => ?_
  have hsame := hfound i hi
  rw [hij, hfound j hj] at hsame
  exact (Option.some.inj hsame).symm

/-- The search for the number of branches. If no circle of forks can be reached, it gives the sum
over the initial sequences of their sizes by plain counting. Otherwise it names a circle: a
sequence, others, all of different names, and the first one again, each forking the next, and all
within reach of an initial one. -/
theorem weighForks_counts (h : TargetsResolved sequences)
    (hinitial : ∀ id ∈ initial, id < sequences.length) :
    (¬ ForkCircle sequences initial →
      ∃ bound weights, weighForks sequences initial (fun _ => 1) = .ok (bound, weights) ∧
        (∃ size, ForkSizes sequences initial size) ∧
        ∀ size, ForkSizes sequences initial size → bound = (initial.map size).sum) ∧
    (ForkCircle sequences initial →
      ∃ id between, weighForks sequences initial (fun _ => 1) =
          .error (.forkCycle (forkPath sequences (id :: between ++ [id]))) ∧
        (forkPath sequences (id :: between)).Nodup ∧
        (id :: between ++ [id]).IsChain (forkGraph sequences).Edge ∧
        ∃ start ∈ initial, ∀ n ∈ id :: between,
          Relation.ReflTransGen (forkGraph sequences).Edge start n) := by
  have hsize : ∀ id ∈ initial, id < (forkGraph sequences).size := by
    rw [forkGraph_size]
    exact hinitial
  cases hw : (forkGraph sequences).weigh (fun _ => 1) initial with
  | error path =>
    have herror : weighForks sequences initial (fun _ => 1) =
        .error (.forkCycle (forkPath sequences path)) := by
      rw [weighForks, hw]
    obtain ⟨start, hstart, ⟨id, between, rfl, hnodup, hchain⟩, hreach⟩ :=
      Graph.weigh_error h.within hsize hw
    have hwithin : ∀ n ∈ id :: between, Relation.ReflTransGen (forkGraph sequences).Edge start n :=
      fun n hn => hreach n (List.mem_append_left _ hn)
    refine ⟨fun hnone => ?_, fun _ => ?_⟩
    · exact absurd ⟨id, ⟨start, hstart, hwithin id List.mem_cons_self⟩,
        Graph.transGen_of_isChain hchain⟩ hnone
    · exact ⟨id, between, herror, h.names_nodup hnodup hchain, hchain, start, hstart, hwithin⟩
  | ok found =>
    obtain ⟨bound, weights⟩ := found
    have hok : weighForks sequences initial (fun _ => 1) = .ok (bound, weights) := by
      rw [weighForks, hw]
    obtain ⟨hclosed, hknown, -⟩ := Graph.weigh_closed hw
    refine ⟨fun _ => ⟨bound, weights, hok, ⟨weights.of, ?_⟩, fun size hsizes => ?_⟩, ?_⟩
    · rintro id ⟨start, hstart, hreach⟩ sequence hs
      rw [← forkGraph_next_eq hs]
      exact hclosed.weight id (hclosed.reached (hknown start hstart) hreach)
    · exact hsizes.bound_eq h hinitial hw
    · rintro ⟨id, ⟨start, hstart, hreach⟩, hcircle⟩
      exact absurd hcircle (Graph.acyclic_of_weigh (fun _ => Nat.one_pos) hw hstart hreach)

lemma Draft.Resolved.targetsResolved {d : Draft} {sequences : List (LoadEngine.Sequence Variable)}
    (h : d.Resolved sequences) :
    TargetsResolved sequences := by
  intro sequence hs step hstep target htarget
  have hfound := h.targets step (List.mem_flatMap.mpr ⟨sequence, hs, hstep⟩) target htarget
  rw [Draft.position?, ← h.draft, List.findIdx?_map] at hfound
  exact hfound

lemma Draft.Yields.initial_lt {d : Draft} {s : Scenario} (h : d.Yields s) :
    ∀ id ∈ s.initial, id < s.sequences.length := by
  intro id hid
  have hmem : some id ∈ d.initial.map d.position? := by
    rw [h.initial]
    exact List.mem_map_of_mem hid
  obtain ⟨name, -, hname⟩ := List.mem_map.mp hmem
  rw [h.sequences.length]
  exact Draft.position?_lt hname

lemma Draft.build_maxBranches {d : Draft} {s : Scenario} (h : d.build = .ok s) {size : Nat → Nat}
    (hsize : ForkSizes s.sequences s.initial size) :
    s.maxBranches = (s.initial.map size).sum := by
  have hy := Draft.build_yields h
  obtain ⟨placed, layout, hbuilt⟩ := Draft.build_ok h
  obtain ⟨weights, hweighed⟩ := hbuilt.weighed
  exact hsize.bound_eq hy.sequences.targetsResolved hy.initial_lt hweighed

def diamond : List (Sequence Variable) :=
  [⟨"top", [.fork [⟨"left", 1⟩, ⟨"right", 2⟩], .join, .fork [⟨"left", 1⟩]]⟩,
    ⟨"left", [.fork [⟨"bottom", 3⟩]]⟩, ⟨"right", [.fork [⟨"bottom", 3⟩, ⟨"bottom", 3⟩]]⟩,
    ⟨"bottom", [.delay 1]⟩]

def diamondSize (id : Nat) : Nat := [8, 2, 3, 1].getD id 0

lemma diamond_resolved : TargetsResolved diamond := by
  unfold TargetsResolved
  decide

lemma diamond_sizes : ForkSizes diamond [0, 2, 0] diamondSize := by
  rintro id - sequence hs
  match id with
  | 0 | 1 | 2 | 3 =>
    cases hs
    rfl
  | id + 4 => cases hs

lemma diamond_acyclic : ¬ ForkCircle diamond [0, 2, 0] := by
  rintro ⟨id, ⟨start, hstart, hreach⟩, hcircle⟩
  have hcost : ∀ n, 0 < (fun _ => 1 : Nat → Nat) n := fun _ => Nat.one_pos
  exact Graph.acyclic_of_weigh hcost rfl hstart hreach hcircle

def spiral : List (Sequence Variable) :=
  [⟨"top", [.fork [⟨"left", 1⟩]]⟩, ⟨"left", [.fork [⟨"right", 2⟩], .join]⟩,
    ⟨"right", [.delay 1, .fork [⟨"left", 1⟩]]⟩]

lemma spiral_resolved : TargetsResolved spiral := by
  unfold TargetsResolved
  decide

lemma spiral_circle : ForkCircle spiral [0] := by
  have hedge : ∀ a b, b ∈ (forkGraph spiral).next a → (forkGraph spiral).Edge a b :=
    fun _ _ h => h
  have htop := hedge 0 1 (by decide)
  have hleft := hedge 1 2 (by decide)
  have hright := hedge 2 1 (by decide)
  exact ⟨1, ⟨0, List.mem_cons_self, .single htop⟩, .tail (.single hleft) hright⟩

theorem diamond_counts :
    (∃ weights, weighForks diamond [0, 2, 0] (fun _ => 1) = .ok (19, weights)) ∧
      ∃ id between, weighForks spiral [0] (fun _ => 1) =
          .error (.forkCycle (forkPath spiral (id :: between ++ [id]))) ∧
        forkPath spiral (id :: between ++ [id]) = ["left", "right", "left"] ∧
        (forkPath spiral (id :: between)).Nodup := by
  have hinitial : ∀ id ∈ [0, 2, 0], id < diamond.length := by decide
  have hinitial' : ∀ id ∈ [0], id < spiral.length := by decide
  obtain ⟨bound, weights, hok, -, hbound⟩ :=
    (weighForks_counts diamond_resolved hinitial).1 diamond_acyclic
  obtain rfl : bound = 19 := hbound diamondSize diamond_sizes
  obtain ⟨id, between, herror, hnodup, -⟩ :=
    (weighForks_counts spiral_resolved hinitial').2 spiral_circle
  have hnamed : weighForks spiral [0] (fun _ => 1) =
      .error (.forkCycle ["left", "right", "left"]) := by rfl
  have hpath : forkPath spiral (id :: between ++ [id]) = ["left", "right", "left"] := by
    rw [herror, Except.error.injEq, ConfigError.forkCycle.injEq] at hnamed
    exact hnamed
  exact ⟨⟨weights, hok⟩, id, between, herror, hpath, hnodup⟩

end LoadEngine
