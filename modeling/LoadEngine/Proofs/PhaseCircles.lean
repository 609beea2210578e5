import LoadEngine.Proofs.CycleSearch
import LoadEngine.Proofs.WaitingOrder

/-! Which orders of phases are refused. When the phases are sound by themselves and refer to each
other only, a benchmark is accepted just when neither the order of starts nor that of ends goes in
a circle, and otherwise the error names a circle of the first of the two that has one. -/

namespace LoadEngine

/-- Names in a circle: one, others, all of them different, and the first one again. -/
def IsCircle (r : String → String → Prop) (path : List String) : Prop :=
  ∃ name between, path = name :: between ++ [name] ∧ (name :: between).Nodup ∧ path.IsChain r

def Circular (r : String → String → Prop) : Prop := ∃ name, Relation.TransGen r name name

lemma IsCircle.circular {r : String → String → Prop} {path : List String} (h : IsCircle r path) :
    Circular r := by
  obtain ⟨name, between, rfl, -, hchain⟩ := h
  exact ⟨name, Graph.transGen_of_isChain hchain⟩

namespace Benchmark

variable {b : Benchmark}

def Refers (b : Benchmark) (names : Phase → List String) (x y : String) : Prop :=
  ∃ p ∈ b.phases, p.name = x ∧ y ∈ names p

def DependsOn (b : Benchmark) : String → String → Prop :=
  b.Refers fun p => p.dependsOn.map Dependency.phase

def EndsAfter (b : Benchmark) : String → String → Prop := b.Refers Phase.terminateAfter

/-- Every phase is sound by itself, no two have the same name, and those that a phase refers to are
there. -/
structure SoundParts (b : Benchmark) : Prop where
  valid : ∀ p ∈ b.phases, p.validate = .ok ()
  nodup : (b.phases.map Phase.name).Nodup
  depends : ∀ p ∈ b.phases, ∀ d ∈ p.dependsOn, d.phase ∈ b.phases.map Phase.name
  ends : ∀ p ∈ b.phases, ∀ name ∈ p.terminateAfter, name ∈ b.phases.map Phase.name

lemma checkPhases_eq_ok {before : List String} {phases : List Phase}
    (hvalid : ∀ p ∈ phases, p.validate = .ok ()) (hnodup : (phases.map Phase.name).Nodup)
    (hnew : ∀ p ∈ phases, p.name ∉ before) : checkPhases before phases = .ok () := by
  induction phases generalizing before with
  | nil => rfl
  | cons p rest ih =>
    rw [List.map_cons, List.nodup_cons] at hnodup
    have hrest : checkPhases (p.name :: before) rest = .ok () := by
      refine ih (fun q hq => hvalid q (List.mem_cons_of_mem _ hq)) hnodup.2 fun q hq hmem => ?_
      rcases List.mem_cons.mp hmem with hname | hmem
      · exact hnodup.1 (hname ▸ List.mem_map_of_mem hq)
      · exact hnew q (List.mem_cons_of_mem _ hq) hmem
    unfold checkPhases
    rw [hvalid p List.mem_cons_self, if_neg (hnew p List.mem_cons_self)]
    exact hrest

def nameAt (b : Benchmark) (i : Nat) : String := (b.phases[i]?.map Phase.name).getD ""

lemma nameAt_of_position? {name : String} {i : Nat} (h : b.position? name = some i) :
    b.nameAt i = name := by
  have hlt := position?_lt h
  rw [nameAt, List.getElem?_eq_getElem hlt]
  exact position?_name (j := ⟨i, hlt⟩) h

lemma exists_position? {name : String} (h : name ∈ b.phases.map Phase.name) :
    ∃ i, b.position? name = some i := by
  obtain ⟨p, hp, rfl⟩ := List.mem_map.mp h
  apply Option.isSome_iff_exists.mp
  rw [position?, List.findIdx?_isSome, List.any_eq_true]
  exact ⟨p, hp, beq_iff_eq.mpr rfl⟩

lemma nameAt_inj (hnodup : (b.phases.map Phase.name).Nodup) {i j : Nat} (hi : i < b.phases.length)
    (hj : j < b.phases.length) (h : b.nameAt i = b.nameAt j) : i = j := by
  have hname : ∀ k, k < b.phases.length → (b.phases.map Phase.name)[k]? = some (b.nameAt k) := by
    intro k hk
    simp [nameAt, hk]
  have hlt : i < (b.phases.map Phase.name).length := by simpa using hi
  refine (List.getElem?_inj hlt hnodup).mp ?_
  rw [hname i hi, hname j hj, h]

def Lists (b : Benchmark) (names : Phase → List String) (order : List (List Nat)) : Prop :=
  List.Forall₂ (fun p ids => (names p).map b.position? = ids.map some) b.phases order

lemma resolveNames_known (phase : String) {names : List String}
    (h : ∀ name ∈ names, name ∈ b.phases.map Phase.name) :
    ∃ ids, b.resolveNames phase names = .ok ids ∧ names.map b.position? = ids.map some := by
  induction names with
  | nil => exact ⟨[], rfl, rfl⟩
  | cons name rest ih =>
    obtain ⟨i, hi⟩ := exists_position? (h name List.mem_cons_self)
    obtain ⟨ids, hids, hrest⟩ := ih fun other hother => h other (List.mem_cons_of_mem _ hother)
    refine ⟨i :: ids, ?_, ?_⟩
    · rw [resolveNames_cons, hi, hids]
      rfl
    · rw [List.map_cons, List.map_cons, hi, hrest]

lemma resolveOrder_known {phases : List Phase}
    (hdepends : ∀ p ∈ phases, ∀ d ∈ p.dependsOn, d.phase ∈ b.phases.map Phase.name)
    (hends : ∀ p ∈ phases, ∀ name ∈ p.terminateAfter, name ∈ b.phases.map Phase.name) :
    ∃ starts terminations, b.resolveOrder phases = .ok (starts, terminations) ∧
      List.Forall₂ (fun p ids => (p.dependsOn.map Dependency.phase).map b.position? = ids.map some)
        phases starts ∧
      List.Forall₂ (fun p ids => p.terminateAfter.map b.position? = ids.map some)
        phases terminations := by
  induction phases with
  | nil => exact ⟨[], [], rfl, .nil, .nil⟩
  | cons p rest ih =>
    obtain ⟨starts, terminations, hrest, hstarts, hterminations⟩ :=
      ih (fun q hq => hdepends q (List.mem_cons_of_mem _ hq))
        (fun q hq => hends q (List.mem_cons_of_mem _ hq))
    have hp : p ∈ p :: rest := List.mem_cons_self
    have hnames : ∀ name ∈ p.dependsOn.map Dependency.phase, name ∈ b.phases.map Phase.name :=
      List.forall_mem_map.mpr (hdepends p hp)
    obtain ⟨start, hstart, hstartIds⟩ := resolveNames_known p.name hnames
    obtain ⟨finish, hfinish, hfinishIds⟩ := resolveNames_known p.name (hends p hp)
    refine ⟨start :: starts, finish :: terminations, ?_, .cons hstartIds hstarts,
      .cons hfinishIds hterminations⟩
    unfold resolveOrder
    rw [hstart, hfinish, hrest]
    rfl

section Order

variable {names : Phase → List String} {order : List (List Nat)} {i j : Nat} {x y : String}

lemma Lists.size (h : b.Lists names order) : (Graph.mk order).size = b.phases.length :=
  h.length_eq.symm

lemma Lists.edge_iff (h : b.Lists names order) : (Graph.mk order).Edge i j ↔
    ∃ p, b.phases[i]? = some p ∧ ∃ name ∈ names p, b.position? name = some j := by
  have hmem : ∀ (p : Phase) (ids : List Nat), (names p).map b.position? = ids.map some →
      (j ∈ ids ↔ ∃ name ∈ names p, b.position? name = some j) := by
    intro p ids hids
    rw [← List.mem_map, hids]
    simp
  rcases Nat.lt_or_ge i b.phases.length with hi | hi
  · have hlt : i < order.length := by rwa [← h.length_eq]
    have hids := (List.forall₂_iff_get.mp h).2 i hi hlt
    have hnext : (Graph.mk order).next i = order[i] := by
      simp [Graph.next, hlt]
    rw [Graph.Edge, hnext, List.getElem?_eq_getElem hi]
    simpa using hmem _ _ hids
  · have hnext : (Graph.mk order).next i = [] := by
      have hge : order.length ≤ i := by rwa [← h.length_eq]
      simp [Graph.next, hge]
    rw [Graph.Edge, hnext, List.getElem?_eq_none hi]
    simp

lemma Lists.within (h : b.Lists names order) : (Graph.mk order).Within := by
  intro i j hij
  obtain ⟨p, -, name, -, hj⟩ := h.edge_iff.mp hij
  rw [h.size]
  exact position?_lt hj

lemma Lists.refers (h : b.Lists names order) (hij : (Graph.mk order).Edge i j) :
    b.Refers names (b.nameAt i) (b.nameAt j) := by
  obtain ⟨p, hp, name, hname, hj⟩ := h.edge_iff.mp hij
  refine ⟨p, List.mem_of_getElem? hp, ?_, ?_⟩
  · rw [nameAt, hp, Option.map_some, Option.getD_some]
  · rw [nameAt_of_position? hj]
    exact hname

lemma Lists.edge (h : b.Lists names order) (hnodup : (b.phases.map Phase.name).Nodup)
    (hknown : ∀ p ∈ b.phases, ∀ name ∈ names p, name ∈ b.phases.map Phase.name)
    (hxy : b.Refers names x y) :
    (Graph.mk order).Edge ((b.position? x).getD 0) ((b.position? y).getD 0) := by
  obtain ⟨p, hp, rfl, hy⟩ := hxy
  obtain ⟨i, hi, rfl⟩ := List.mem_iff_getElem.mp hp
  obtain ⟨k, hk⟩ := exists_position? (List.mem_map_of_mem hp)
  obtain ⟨j, hj⟩ := exists_position? (hknown _ hp y hy)
  have hname : b.nameAt k = b.nameAt i := by
    rw [nameAt_of_position? hk]
    simp [nameAt, hi]
  obtain rfl := nameAt_inj hnodup (position?_lt hk) hi hname
  rw [hk, hj]
  exact h.edge_iff.mpr ⟨_, List.getElem?_eq_getElem hi, y, hy, hj⟩

lemma Lists.checkOrder (h : b.Lists names order) (hnodup : (b.phases.map Phase.name).Nodup)
    (hknown : ∀ p ∈ b.phases, ∀ name ∈ names p, name ∈ b.phases.map Phase.name) :
    (b.checkOrder order = .ok () ∧ ¬ Circular (b.Refers names)) ∨
      ∃ path, b.checkOrder order = .error (.dependencyCycle path) ∧
        IsCircle (b.Refers names) path := by
  cases hfind : (Graph.mk order).findCycle with
  | none =>
    refine .inl ⟨?_, ?_⟩
    · rw [Benchmark.checkOrder, hfind]
    · rintro ⟨name, hcircle⟩
      refine Graph.findCycle_eq_none hfind ((b.position? name).getD 0) ?_
      exact hcircle.lift (fun x => (b.position? x).getD 0) fun _ _ => h.edge hnodup hknown
  | some cycle =>
    obtain ⟨⟨node, between, rfl, hdistinct, hchain⟩, hbound⟩ :=
      Graph.findCycle_eq_some h.within hfind
    refine .inr ⟨(node :: between ++ [node]).map b.nameAt, ?_, b.nameAt node,
      between.map b.nameAt, by simp, ?_, ?_⟩
    · rw [Benchmark.checkOrder, hfind]
      rfl
    · rw [← List.map_cons]
      refine hdistinct.map_on fun i hi j hj hij => ?_
      have hlt : ∀ n ∈ node :: between, n < b.phases.length := by
        intro n hn
        rw [← h.size]
        exact hbound n (List.mem_append_left _ hn)
      exact nameAt_inj hnodup (hlt i hi) (hlt j hj) hij
    · rw [List.isChain_map]
      exact hchain.imp fun _ _ => h.refers

end Order

lemma validate_eq {starts terminations : List (List Nat)}
    (hphases : checkPhases [] b.phases = .ok ())
    (horder : b.resolveOrder b.phases = .ok (starts, terminations)) :
    b.validate = b.checkOrder starts >>= fun _ => b.checkOrder terminations := by
  rw [validate, hphases, horder]
  rfl

/-- The check of the orders is exact. Both searches come to an end without a look outside the
graph; the benchmark is accepted when neither order has a circle, and otherwise the error names one:
of the order of starts if that has one, else of the order of ends. -/
theorem validate_iff_acyclic (h : b.SoundParts) :
    (b.validate = .ok () ↔ ¬ Circular b.DependsOn ∧ ¬ Circular b.EndsAfter) ∧
    (Circular b.DependsOn → ∃ path, b.validate = .error (.dependencyCycle path) ∧
      IsCircle b.DependsOn path) ∧
    (¬ Circular b.DependsOn → Circular b.EndsAfter →
      ∃ path, b.validate = .error (.dependencyCycle path) ∧ IsCircle b.EndsAfter path) ∧
    ∃ starts terminations, b.resolveOrder b.phases = .ok (starts, terminations) ∧
      (Graph.mk starts).findCycleChecked = some (Graph.mk starts).findCycle ∧
      (Graph.mk terminations).findCycleChecked = some (Graph.mk terminations).findCycle := by
  have hphases : checkPhases [] b.phases = .ok () :=
    checkPhases_eq_ok h.valid h.nodup fun p _ => List.not_mem_nil
  obtain ⟨starts, terminations, horder, hstarts, hterminations⟩ :=
    resolveOrder_known h.depends h.ends
  have hstarts : b.Lists (fun p => p.dependsOn.map Dependency.phase) starts := hstarts
  have hterminations : b.Lists Phase.terminateAfter terminations := hterminations
  have hvalidate := validate_eq hphases horder
  have hsearch := Graph.findCycleChecked_eq hstarts.within
  have hsearch' := Graph.findCycleChecked_eq hterminations.within
  have hdepends : ∀ p ∈ b.phases, ∀ name ∈ p.dependsOn.map Dependency.phase,
      name ∈ b.phases.map Phase.name := fun p hp => List.forall_mem_map.mpr (h.depends p hp)
  -- The order of starts is looked at first, so a circle of ends is named only if it has none.
  rcases hstarts.checkOrder h.nodup hdepends with ⟨hok, hnone⟩ | ⟨path, herror, hcircle⟩
  · rcases hterminations.checkOrder h.nodup h.ends with ⟨hok', hnone'⟩ | ⟨path, herror, hcircle⟩
    · rw [hok, hok'] at hvalidate
      refine ⟨⟨fun _ => ⟨hnone, hnone'⟩, fun _ => hvalidate⟩, fun hc => absurd hc hnone,
        fun _ hc => absurd hc hnone', starts, terminations, horder, hsearch, hsearch'⟩
    · rw [hok, herror] at hvalidate
      refine ⟨⟨fun hv => ?_, fun hacyclic => absurd hcircle.circular hacyclic.2⟩,
        fun hc => absurd hc hnone, fun _ _ => ⟨path, hvalidate, hcircle⟩, starts, terminations,
        horder, hsearch, hsearch'⟩
      rw [hvalidate] at hv
      cases hv
  · rw [herror] at hvalidate
    refine ⟨⟨fun hv => ?_, fun hacyclic => absurd hcircle.circular hacyclic.1⟩,
      fun _ => ⟨path, hvalidate, hcircle⟩, fun hnone => absurd hcircle.circular hnone, starts,
      terminations, horder, hsearch, hsearch'⟩
    rw [hvalidate] at hv
    cases hv

def tangled : Benchmark where
  name := "tangled"
  phases := [Controller.crossedFirst,
    { Controller.crossedSecond with
      dependsOn := [⟨"a", .terminated⟩, ⟨"b", .finished⟩]
      terminateAfter := ["a"] }]

lemma tangled_soundParts : tangled.SoundParts where
  valid := by
    intro p hp
    rcases List.mem_cons.mp hp with rfl | hp
    · rfl
    · rw [List.mem_singleton.mp hp]
      rfl
  nodup := by decide
  depends := by decide
  ends := by decide

lemma tangled_circular : Circular tangled.DependsOn := by
  refine ⟨"b", .single ⟨_, List.mem_cons_of_mem _ List.mem_cons_self, rfl, ?_⟩⟩
  decide

theorem tangled_refused :
    ∃ path, tangled.validate = .error (.dependencyCycle path) ∧ IsCircle tangled.DependsOn path :=
  (validate_iff_acyclic tangled_soundParts).2.1 tangled_circular

end Benchmark

end LoadEngine
