import LoadEngine.Proofs.GraphSearch
import LoadEngine.Proofs.ResolvedDraft
import Mathlib.Data.List.Count

/-! Which drafts can be built: those that are well formed, a property of the draft alone; and of any
other the error names a step, a sequence or a path where it is not. -/

namespace LoadEngine

namespace Action

variable {ρ σ : Type}

lemma reference?_map (f : ρ → σ) (a : Action ρ) :
    (a.map f).reference? = a.reference?.map f := by
  cases a <;> rfl

lemma kind?_map (f : ρ → σ) (a : Action ρ) : (a.map f).kind? = a.kind? := by
  cases a <;> rfl

end Action

namespace Draft

def Forks (d : Draft) (a b : String) : Prop :=
  ∃ s ∈ d.sequences, s.name = a ∧ ∃ step ∈ s.steps, b ∈ step.targets

structure WellFormed (d : Draft) : Prop where
  initial : d.initial ≠ []
  names : d.names.Nodup
  initials : ∀ name ∈ d.initial, name ∈ d.names
  forks : ∀ names, .fork names ∈ d.steps → names ≠ [] ∧ ∀ name ∈ names, name ∈ d.names
  operations : ∀ op, .operation op ∈ d.steps → op.metric ≠ "" ∧ 0 < op.timeout
  declared : (d.declarations.map Declaration.name).Nodup
  actions : ∀ a, .action a ∈ d.steps → ∀ var, a.reference? = some var →
    ∃ declaration ∈ d.declarations, declaration.name = var ∧
      ∀ kind, a.kind? = some kind → declaration.kind = kind
  acyclic : ∀ name ∈ d.initial, ∀ other, Relation.ReflTransGen d.Forks name other →
    ¬ Relation.TransGen d.Forks other other

def At (d : Draft) (site : StepSite) (step : Step) : Prop :=
  ∃ s ∈ d.sequences, s.name = site.sequence ∧ s.steps[site.step]? = some step

/-- What an error says is wrong with a draft is. -/
def Explains (d : Draft) : ConfigError → Prop
  | .emptyScenario => d.initial = []
  | .duplicateSequence name => 1 < d.names.count name
  | .unknownSequence site name => name ∉ d.names ∧
      (site = ⟨"(initial)", 0⟩ ∧ name ∈ d.initial ∨ ∃ names, d.At site (.fork names) ∧ name ∈ names)
  | .invalidStep site reason =>
      (∃ op, d.At site (.operation op) ∧
        (op.metric = "" ∧ reason = "operation has no metric name" ∨
          op.timeout = 0 ∧ reason = "operation timeout must be positive")) ∨
      d.At site (.fork []) ∧ reason = "fork without sequences"
  | .duplicateResource site name => 1 < (d.declarations.map Declaration.name).count name ∧
      ∃ declaration, d.At site (.declare declaration) ∧ declaration.name = name
  | .unknownResource site name => name ∉ d.declarations.map Declaration.name ∧
      ∃ a, d.At site (.action a) ∧ a.reference? = some name
  | .resourceKind site name expected => ∃ a kind, d.At site (.action a) ∧
      a.reference? = some name ∧ a.kind? = some kind ∧ kind.name = expected ∧
      ∀ declaration ∈ d.declarations, declaration.name = name → declaration.kind ≠ kind
  | .forkCycle path => ∃ name between, path = name :: between ++ [name] ∧
      (name :: between).Nodup ∧ path.IsChain d.Forks ∧
      ∃ start ∈ d.initial, ∀ other ∈ path, Relation.ReflTransGen d.Forks start other
  | _ => False

variable {d : Draft} {s : Scenario}

lemma At.mem_steps {site : StepSite} {step : Step} (h : d.At site step) : step ∈ d.steps := by
  obtain ⟨s, hs, -, hstep⟩ := h
  exact List.mem_flatMap.mpr ⟨s, hs, List.mem_of_getElem? hstep⟩

lemma Explains.not_wellFormed {e : ConfigError} (h : d.Explains e) : ¬ d.WellFormed := by
  intro hd
  cases e with
  | emptyScenario => exact hd.initial h
  | duplicateSequence name =>
    have hle := List.nodup_iff_count_le_one.mp hd.names name
    exact absurd h (Nat.not_lt.mpr hle)
  | unknownSequence site name =>
    obtain ⟨hname, ⟨-, hinitial⟩ | ⟨names, hat, hmem⟩⟩ := h
    · exact hname (hd.initials name hinitial)
    · exact hname ((hd.forks names hat.mem_steps).2 name hmem)
  | forkCycle path =>
    obtain ⟨name, between, rfl, -, hchain, start, hstart, hreached⟩ := h
    exact hd.acyclic start hstart name (hreached name List.mem_cons_self)
      (Graph.transGen_of_isChain hchain)
  | duplicateResource site name =>
    have hle := List.nodup_iff_count_le_one.mp hd.declared name
    exact absurd h.1 (Nat.not_lt.mpr hle)
  | unknownResource site name =>
    obtain ⟨hname, a, hat, hvar⟩ := h
    obtain ⟨declaration, hmem, rfl, -⟩ := hd.actions a hat.mem_steps name hvar
    exact hname (List.mem_map_of_mem hmem)
  | resourceKind site name expected =>
    obtain ⟨a, kind, hat, hvar, hkind, -, hall⟩ := h
    obtain ⟨declaration, hmem, hname, heq⟩ := hd.actions a hat.mem_steps name hvar
    exact hall declaration hmem hname (heq kind hkind)
  | invalidStep site reason =>
    rcases h with ⟨op, hat, ⟨hmetric, -⟩ | ⟨htimeout, -⟩⟩ | ⟨hat, -⟩
    · exact (hd.operations op hat.mem_steps).1 hmetric
    · exact absurd htimeout (Nat.pos_iff_ne_zero.mp (hd.operations op hat.mem_steps).2)
    · exact (hd.forks [] hat.mem_steps).1 rfl
  | _ => exact h

section Forks

variable {sequences : List (LoadEngine.Sequence Variable)} {a b : Nat} {x y : String}

lemma position?_lt (h : d.position? x = some a) : a < d.sequences.length :=
  (List.findIdx?_eq_some_iff_getElem.mp h).1

lemma Resolved.length (h : d.Resolved sequences) : sequences.length = d.sequences.length := by
  rw [← h.draft, List.length_map]

lemma Resolved.size (h : d.Resolved sequences) :
    (forkGraph sequences).size = d.sequences.length := by
  rw [← h.length, Graph.size, forkGraph, List.length_map]

lemma edge_iff : (forkGraph sequences).Edge a b ↔ ∃ sequence, sequences[a]? = some sequence ∧
    ∃ step ∈ sequence.steps, ∃ target ∈ step.targets, target.id = b := by
  unfold Graph.Edge Graph.next forkGraph
  rw [List.getD_eq_getElem?_getD, List.getElem?_map]
  cases sequences[a]? with
  | none => simp
  | some sequence =>
    simp [LoadEngine.Sequence.forks, Step.forks_eq]

lemma draft_targets (step : LoadEngine.Step Variable) :
    step.draft.targets = step.targets.map Target.name := by
  cases step <;> rfl

lemma Resolved.getElem? (h : d.Resolved sequences) (id : Nat) :
    d.sequences[id]? = sequences[id]?.map LoadEngine.Sequence.draft := by
  rw [← h.draft, List.getElem?_map]

lemma Resolved.target (h : d.Resolved sequences) {sequence : LoadEngine.Sequence Variable}
    (hs : sequences[a]? = some sequence) {step : LoadEngine.Step Variable}
    (hstep : step ∈ sequence.steps) {target : Target} (ht : target ∈ step.targets) :
    d.position? target.name = some target.id :=
  h.targets step (List.mem_flatMap.mpr ⟨sequence, List.mem_of_getElem? hs, hstep⟩) target ht

lemma Resolved.within (h : d.Resolved sequences) : (forkGraph sequences).Within := by
  intro a b hab
  obtain ⟨sequence, hs, step, hstep, target, ht, rfl⟩ := edge_iff.mp hab
  rw [h.size]
  exact position?_lt (h.target hs hstep ht)

lemma Resolved.forks_of_edge (h : d.Resolved sequences) (hab : (forkGraph sequences).Edge a b) :
    d.Forks (d.nameAt a) (d.nameAt b) := by
  obtain ⟨sequence, hs, step, hstep, target, ht, rfl⟩ := edge_iff.mp hab
  have hdraft : d.sequences[a]? = some sequence.draft := by rw [h.getElem?, hs, Option.map_some]
  refine ⟨sequence.draft, List.mem_of_getElem? hdraft, ?_, step.draft,
    List.mem_map_of_mem hstep, ?_⟩
  · rw [nameAt, hdraft, Option.map_some, Option.getD_some]
  · rw [nameAt_of_position? (h.target hs hstep ht), draft_targets]
    exact List.mem_map_of_mem ht

lemma nameAt_inj (hnames : d.names.Nodup) (ha : a < d.sequences.length)
    (hb : b < d.sequences.length) (h : d.nameAt a = d.nameAt b) : a = b := by
  have hname : ∀ i, i < d.sequences.length → d.names[i]? = some (d.nameAt i) := by
    intro i hi
    simp [names, nameAt, hi]
  have hlt : a < d.names.length := by simpa [names] using ha
  refine (List.getElem?_inj hlt hnames).mp ?_
  rw [hname a ha, hname b hb, h]

lemma getElem?_of_name (hnames : d.names.Nodup) {s : Sequence} (hs : s ∈ d.sequences)
    (hx : d.position? s.name = some a) : d.sequences[a]? = some s := by
  obtain ⟨i, hi, rfl⟩ := List.mem_iff_getElem.mp hs
  have hname : d.nameAt a = d.nameAt i := by
    rw [nameAt_of_position? hx]
    simp [nameAt, hi]
  obtain rfl := nameAt_inj hnames (position?_lt hx) hi hname
  exact List.getElem?_eq_getElem hi

lemma Resolved.edge_of_forks (h : d.Resolved sequences) (hnames : d.names.Nodup)
    (hx : d.position? x = some a) (hxy : d.Forks x y) :
    ∃ b, d.position? y = some b ∧ (forkGraph sequences).Edge a b := by
  obtain ⟨s, hs, rfl, step, hstep, hy⟩ := hxy
  have hdraft := getElem?_of_name hnames hs hx
  rw [h.getElem?] at hdraft
  obtain ⟨sequence, hsequence, rfl⟩ := Option.map_eq_some_iff.mp hdraft
  obtain ⟨step', hstep', rfl⟩ := List.mem_map.mp hstep
  rw [draft_targets] at hy
  obtain ⟨target, htarget, rfl⟩ := List.mem_map.mp hy
  exact ⟨target.id, h.target hsequence hstep' htarget,
    edge_iff.mpr ⟨sequence, hsequence, step', hstep', target, htarget, rfl⟩⟩

lemma Resolved.reached (h : d.Resolved sequences) (hnames : d.names.Nodup)
    (hx : d.position? x = some a) (hxy : Relation.ReflTransGen d.Forks x y) :
    ∃ b, d.position? y = some b ∧ Relation.ReflTransGen (forkGraph sequences).Edge a b := by
  induction hxy with
  | refl => exact ⟨a, hx, .refl⟩
  | tail _ hyz ih =>
    obtain ⟨b, hy, hab⟩ := ih
    obtain ⟨c, hz, hbc⟩ := h.edge_of_forks hnames hy hyz
    exact ⟨c, hz, hab.tail hbc⟩

lemma Resolved.transGen (h : d.Resolved sequences) (hnames : d.names.Nodup)
    (hx : d.position? x = some a) (hxy : Relation.TransGen d.Forks x y) :
    ∃ b, d.position? y = some b ∧ Relation.TransGen (forkGraph sequences).Edge a b := by
  obtain ⟨z, hxz, hzy⟩ := Relation.TransGen.tail'_iff.mp hxy
  obtain ⟨c, hz, hac⟩ := h.reached hnames hx hxz
  obtain ⟨b, hy, hcb⟩ := h.edge_of_forks hnames hz hzy
  exact ⟨b, hy, .tail' hac hcb⟩

end Forks

lemma eq_action_of_draft {step : LoadEngine.Step Variable} {a : Action String}
    (h : step.draft = .action a) : ∃ a', step = .action a' ∧ a'.map Variable.name = a := by
  cases step with
  | action a' =>
    cases h
    exact ⟨a', rfl, rfl⟩
  | _ => cases h

lemma Yields.mem_steps (h : d.Yields s) {step : Step} :
    step ∈ d.steps ↔ ∃ step' ∈ s.steps, step'.draft = step := by
  unfold steps Scenario.steps
  rw [← h.sequences.draft, List.flatMap_map, ← List.mem_map, List.map_flatMap]
  rfl

lemma Yields.mem_declarations (h : d.Yields s) {declaration : Declaration} {key : ResourceKey}
    (hmem : .declare declaration key ∈ s.steps) : declaration ∈ d.declarations :=
  List.mem_filterMap.mpr ⟨.declare declaration, h.mem_steps.mpr ⟨_, hmem, rfl⟩, rfl⟩

lemma Yields.acyclic (h : d.Yields s) {cost : Nat → Nat}
    {found : Nat × Graph.Weights} (hcost : ∀ n, 0 < cost n)
    (hweigh : (forkGraph s.sequences).weigh cost s.initial = .ok found) {x y : String}
    (hx : x ∈ d.initial) (hxy : Relation.ReflTransGen d.Forks x y) :
    ¬ Relation.TransGen d.Forks y y := by
  intro hyy
  have hmem : d.position? x ∈ s.initial.map some := by
    rw [← h.initial]
    exact List.mem_map_of_mem hx
  obtain ⟨a, ha, hxa⟩ := List.mem_map.mp hmem
  obtain ⟨b, hyb, hab⟩ := h.sequences.reached h.names hxa.symm hxy
  obtain ⟨c, hyc, hbc⟩ := h.sequences.transGen h.names hyb hyy
  obtain rfl : b = c := Option.some.inj (hyb.symm.trans hyc)
  exact Graph.acyclic_of_weigh hcost hweigh ha hab hbc

lemma wellFormed_of_build (h : d.build = .ok s) : d.WellFormed := by
  have hy := build_yields h
  obtain ⟨placed, layout, hbuilt⟩ := build_ok h
  obtain ⟨weights, hweighed⟩ := hbuilt.weighed
  refine ⟨hy.initial_ne, hy.names, ?_, fun names hnames => hy.admits _ hnames,
    fun op hop => hy.admits _ hop, hy.declared, ?_, ?_⟩
  · intro name hname
    have hmem : d.position? name ∈ s.initial.map some := by
      rw [← hy.initial]
      exact List.mem_map_of_mem hname
    obtain ⟨id, -, hid⟩ := List.mem_map.mp hmem
    exact mem_names_of_position? hid.symm
  · intro a ha var hvar
    obtain ⟨step, hstep, hdraft⟩ := hy.mem_steps.mp ha
    obtain ⟨a', rfl, rfl⟩ := eq_action_of_draft hdraft
    rw [Action.reference?_map] at hvar
    obtain ⟨var', hvar', rfl⟩ := Option.map_eq_some_iff.mp hvar
    obtain ⟨declaration, hdeclare, hname, hkind⟩ := hy.resolves a' hstep var' hvar'
    refine ⟨declaration, hy.mem_declarations hdeclare, hname, ?_⟩
    intro kind hk
    rw [Action.kind?_map] at hk
    exact (hkind kind hk).symm
  · intro x hx y hxy
    exact hy.acyclic (fun _ => Nat.one_pos) hweighed hx hxy

end Draft

namespace ArenaLayout

variable {d : Draft} {l l' : ArenaLayout} {e : ConfigError} {sequence : String} {i : Nat}

lemma placeSteps_error {steps : List Draft.Step} (h : placeSteps d sequence i l steps = .error e) :
    ∃ before step after placed l', steps = before ++ step :: after ∧ Lays d l l' before placed ∧
      placeStep d ⟨sequence, i + before.length⟩ l' step = .error e := by
  induction steps generalizing i l with
  | nil => cases h
  | cons step rest ih =>
    rcases bind_eq_error.mp h with h | ⟨⟨step', l₁⟩, hstep, h⟩
    · exact ⟨[], step, rest, [], l, rfl, .nil d l, h⟩
    · rcases bind_eq_error.mp h with h | ⟨⟨steps', l₂⟩, -, h⟩
      · obtain ⟨before, last, after, placed, l', rfl, hlays, hlast⟩ := ih h
        refine ⟨step :: before, last, after, step' :: placed, l', rfl,
          (placeStep_lays hstep).append hlays, ?_⟩
        rwa [List.length_cons, Nat.add_comm before.length, ← Nat.add_assoc]
      · cases h

lemma placeSequences_error {sequences : List Draft.Sequence}
    (h : placeSequences d l sequences = .error e) :
    ∃ s ∈ sequences, ∃ before step after placed l' site,
      sequences.flatMap Draft.Sequence.steps = before ++ step :: after ∧
      Lays d l l' before placed ∧ s.name = site.sequence ∧ s.steps[site.step]? = some step ∧
      placeStep d site l' step = .error e := by
  induction sequences generalizing l with
  | nil => cases h
  | cons s rest ih =>
    rcases bind_eq_error.mp h with h | ⟨⟨steps, l₁⟩, hsteps, h⟩
    · obtain ⟨before, step, after, placed, l', hs, hlays, hstep⟩ := placeSteps_error h
      refine ⟨s, List.mem_cons_self, before, step, after ++ rest.flatMap Draft.Sequence.steps,
        placed, l', ⟨s.name, before.length⟩, ?_, hlays, rfl, ?_, ?_⟩
      · rw [List.flatMap_cons, hs, List.append_assoc, List.cons_append]
      · simp [hs]
      · rwa [Nat.zero_add] at hstep
    · rcases bind_eq_error.mp h with h | ⟨⟨sequences', l₂⟩, -, h⟩
      · obtain ⟨q, hq, before, step, after, placed, l', site, hrest, hlays, hname, hat, hstep⟩ :=
          ih h
        refine ⟨q, List.mem_cons_of_mem _ hq, s.steps ++ before, step, after, steps ++ placed, l',
          site, ?_, (placeSteps_lays hsteps).append hlays, hname, hat, hstep⟩
        rw [List.flatMap_cons, hrest, List.append_assoc]
      · cases h

lemma resolveSteps_error {steps : List (Step String)}
    (h : l.resolveSteps sequence i steps = .error e) :
    ∃ k step, steps[k]? = some step ∧ l.resolveStep ⟨sequence, i + k⟩ step = .error e := by
  induction steps generalizing i with
  | nil => cases h
  | cons step rest ih =>
    rcases bind_eq_error.mp h with h | ⟨step', -, h⟩
    · exact ⟨0, step, rfl, h⟩
    · rcases bind_eq_error.mp h with h | ⟨rest', -, h⟩
      · obtain ⟨k, last, hlast, hstep⟩ := ih h
        refine ⟨k + 1, last, hlast, ?_⟩
        rwa [Nat.add_comm k, ← Nat.add_assoc]
      · cases h

lemma resolveSequences_error {sequences : List (Sequence String)}
    (h : l.resolveSequences sequences = .error e) :
    ∃ s ∈ sequences, ∃ k step, s.steps[k]? = some step ∧
      l.resolveStep ⟨s.name, k⟩ step = .error e := by
  induction sequences with
  | nil => cases h
  | cons s rest ih =>
    rcases bind_eq_error.mp h with h | ⟨steps, -, h⟩
    · obtain ⟨k, step, hk, hstep⟩ := resolveSteps_error h
      rw [Nat.zero_add] at hstep
      exact ⟨s, List.mem_cons_self, k, step, hk, hstep⟩
    · rcases bind_eq_error.mp h with h | ⟨rest', -, h⟩
      · obtain ⟨q, hq, hstep⟩ := ih h
        exact ⟨q, List.mem_cons_of_mem _ hq, hstep⟩
      · cases h

lemma resolveVariable_error {site : StepSite} {kind : Option VariableKind} {name : String}
    (h : l.resolveVariable site kind name = .error e) :
    (l.declared.lookup name = none ∧ e = .unknownResource site name) ∨
      ∃ key declared expected, l.declared.lookup name = some (key, declared) ∧
        kind = some expected ∧ expected ≠ declared ∧ e = .resourceKind site name expected.name := by
  unfold resolveVariable at h
  split at h
  · rename_i hname
    cases h
    exact .inl ⟨hname, rfl⟩
  · rename_i key declared hname
    split at h
    · cases h
    · rename_i expected
      split at h
      · cases h
      · rename_i hne
        cases h
        exact .inr ⟨key, declared, expected, hname, rfl, hne, rfl⟩

lemma resolveStep_error {site : StepSite} {step : Step String}
    (h : l.resolveStep site step = .error e) :
    ∃ a name, step = .action a ∧ a.reference? = some name ∧
      l.resolveVariable site a.kind? name = .error e := by
  cases step with
  | action a =>
    rcases bind_eq_error.mp h with h | ⟨a', -, h⟩
    · cases a with
      | log message => cases h
      | _ =>
        rcases bind_eq_error.mp h with h | ⟨found, -, h⟩
        · exact ⟨_, _, rfl, rfl, h⟩
        · cases h
    · cases h
  | _ => cases h

end ArenaLayout

namespace Draft

variable {d : Draft} {e : ConfigError}

lemma one_lt_count_of_firstRepeated? {before names : List String} {name : String}
    (h : firstRepeated? before names = some name) : 1 < (before ++ names).count name := by
  induction names generalizing before with
  | nil => cases h
  | cons n rest ih =>
    unfold firstRepeated? at h
    split at h
    · rename_i hmem
      cases h
      have hpos := List.count_pos_iff.mpr hmem
      rw [List.count_append, List.count_cons_self]
      omega
    · have hcount := ih h
      rw [List.cons_append, List.count_cons, List.count_append] at hcount
      rw [List.count_append, List.count_cons]
      omega

lemma resolveTargets_error {site : StepSite} {names : List String}
    (h : d.resolveTargets site names = .error e) :
    ∃ name ∈ names, name ∉ d.names ∧ e = .unknownSequence site name := by
  induction names with
  | nil => cases h
  | cons name rest ih =>
    rw [resolveTargets_cons] at h
    cases hid : d.position? name with
    | none =>
      rw [hid] at h
      cases h
      exact ⟨name, List.mem_cons_self, position?_eq_none.mp hid, rfl⟩
    | some id =>
      rw [hid] at h
      rcases bind_eq_error.mp h with h | ⟨targets, -, h⟩
      · obtain ⟨other, hother, hfault⟩ := ih h
        exact ⟨other, List.mem_cons_of_mem _ hother, hfault⟩
      · cases h

lemma resolveInitial_error {names : List String} (h : d.resolveInitial names = .error e) :
    ∃ name ∈ names, name ∉ d.names ∧ e = .unknownSequence ⟨"(initial)", 0⟩ name := by
  rw [resolveInitial_eq] at h
  cases htargets : d.resolveTargets ⟨"(initial)", 0⟩ names with
  | error fault =>
    rw [htargets] at h
    cases h
    exact resolveTargets_error htargets
  | ok targets =>
    rw [htargets] at h
    cases h

lemma names_declared {l : ArenaLayout} {steps : List Step}
    {placed : List (LoadEngine.Step String)} (h : ArenaLayout.Lays d .empty l steps placed) :
    l.declared.map Prod.fst =
      ((steps.filterMap Step.declaration?).map Declaration.name).reverse := by
  rw [h.declared, ArenaLayout.empty, List.append_nil, List.map_reverse, ← declarations_outline,
    h.outline]

lemma mem_declared {l : ArenaLayout} {steps : List Step} {placed : List (LoadEngine.Step String)}
    (h : ArenaLayout.Lays d .empty l steps placed) {name : String} {key : ResourceKey}
    {kind : VariableKind} (hmem : (name, key, kind) ∈ l.declared) :
    ∃ declaration ∈ steps.filterMap Step.declaration?, declaration.name = name ∧
      declaration.kind = kind := by
  rw [h.declared, ArenaLayout.empty, List.append_nil, List.mem_reverse] at hmem
  obtain ⟨step, hstep, hfound⟩ := List.mem_filterMap.mp hmem
  obtain ⟨declaration, rfl, hname, hkind⟩ := Step.eq_declare_of_declared? hfound
  refine ⟨declaration, List.mem_filterMap.mpr ⟨.declare declaration, ?_, rfl⟩, hname, hkind⟩
  rw [← h.outline]
  exact List.mem_map_of_mem hstep

lemma explains_of_placeStep {site : StepSite} {step : Step} {before after : List Step}
    {l : ArenaLayout} {placed : List (LoadEngine.Step String)}
    (hsteps : d.steps = before ++ step :: after) (hlays : ArenaLayout.Lays d .empty l before placed)
    (hat : d.At site step) (h : ArenaLayout.placeStep d site l step = .error e) :
    d.Explains e := by
  cases step with
  | operation op =>
    simp only [ArenaLayout.placeStep] at h
    split at h
    · rename_i hmetric
      cases h
      exact .inl ⟨op, hat, .inl ⟨hmetric, rfl⟩⟩
    · split at h
      · rename_i htimeout
        cases h
        exact .inl ⟨op, hat, .inr ⟨htimeout, rfl⟩⟩
      · cases h
  | declare declaration =>
    simp only [ArenaLayout.placeStep] at h
    split at h
    · rename_i hfound
      cases h
      refine ⟨?_, declaration, hat, rfl⟩
      obtain ⟨found, hlookup⟩ := Option.isSome_iff_exists.mp hfound
      have hmem : declaration.name ∈ l.declared.map Prod.fst :=
        List.mem_map_of_mem (f := Prod.fst) (OrderedMap.mem_of_lookup hlookup)
      rw [names_declared hlays, List.mem_reverse] at hmem
      have hpos := List.count_pos_iff.mpr hmem
      rw [declarations, hsteps, List.filterMap_append, List.map_append, List.count_append,
        List.filterMap_cons_some (f := Step.declaration?) (b := declaration) rfl, List.map_cons,
        List.count_cons_self]
      omega
    · cases h
  | fork names =>
    simp only [ArenaLayout.placeStep] at h
    split at h
    · rename_i hempty
      cases h
      obtain rfl := List.isEmpty_iff.mp hempty
      exact .inr ⟨hat, rfl⟩
    · rcases bind_eq_error.mp h with h | ⟨targets, -, h⟩
      · obtain ⟨name, hname, hunknown, rfl⟩ := resolveTargets_error h
        exact ⟨hunknown, .inr ⟨names, hat, hname⟩⟩
      · cases h
  | _ => cases h

lemma explains_of_resolveStep {layout : ArenaLayout} {placed : List (LoadEngine.Sequence String)}
    (hplace : ArenaLayout.placeSequences d .empty d.sequences = .ok (placed, layout))
    (h : layout.resolveSequences placed = .error e) : d.Explains e := by
  obtain ⟨houtline, hlays⟩ := ArenaLayout.placeSequences_lays hplace
  obtain ⟨sequence, hs, k, step, hk, hstep⟩ := ArenaLayout.resolveSequences_error h
  obtain ⟨a, name, rfl, hname, hfault⟩ := ArenaLayout.resolveStep_error hstep
  have hat : d.At ⟨sequence.name, k⟩ (.action a) := by
    refine ⟨sequence.outline, ?_, rfl, ?_⟩
    · rw [← houtline]
      exact List.mem_map_of_mem hs
    · simp [LoadEngine.Sequence.outline, hk, Step.outline]
  have hnames := names_declared hlays
  rcases ArenaLayout.resolveVariable_error hfault with ⟨hnone, rfl⟩ |
    ⟨key, declared, expected, hfound, hkind, hne, rfl⟩
  · refine ⟨?_, a, hat, hname⟩
    intro hmem
    have hdeclared : name ∈ layout.declared.map Prod.fst := by
      rw [hnames, List.mem_reverse]
      exact hmem
    obtain ⟨entry, hentry, rfl⟩ := List.mem_map.mp hdeclared
    have hother := List.lookup_eq_none_iff.mp hnone entry hentry
    simp at hother
  · refine ⟨a, expected, hat, hname, hkind, rfl, ?_⟩
    rintro declaration hmem rfl rfl
    obtain ⟨other, hother, hsame, hkind'⟩ := mem_declared hlays (OrderedMap.mem_of_lookup hfound)
    have hnodup := hlays.names List.nodup_nil
    rw [hnames, List.nodup_reverse] at hnodup
    obtain rfl := List.inj_on_of_nodup_map hnodup hother hmem hsame
    exact hne hkind'

lemma explains_of_weighForks {sequences : List (LoadEngine.Sequence Variable)} {initial : List Nat}
    {cost : Nat → Nat} (hnames : d.names.Nodup) (hresolved : d.Resolved sequences)
    (hinitial : d.initial.map d.position? = initial.map some)
    (h : weighForks sequences initial cost = .error e) : d.Explains e := by
  unfold weighForks at h
  split at h
  · cases h
  · rename_i path hweigh
    cases h
    have hstart : ∀ id ∈ initial, ∃ name ∈ d.initial, d.position? name = some id := by
      intro id hid
      have hmem : some id ∈ d.initial.map d.position? := by
        rw [hinitial]
        exact List.mem_map_of_mem hid
      exact List.mem_map.mp hmem
    have hsize : ∀ id ∈ initial, id < (forkGraph sequences).size := by
      intro id hid
      obtain ⟨name, -, hname⟩ := hstart id hid
      rw [hresolved.size]
      exact position?_lt hname
    obtain ⟨start, hmem, ⟨node, between, rfl, hnodup, hchain⟩, hreached⟩ :=
      Graph.weigh_error hresolved.within hsize hweigh
    obtain ⟨name, hname, hposition⟩ := hstart start hmem
    have hpath : forkPath sequences (node :: between ++ [node]) =
        (node :: between ++ [node]).map d.nameAt := hresolved.map_name _
    rw [hpath]
    refine ⟨d.nameAt node, between.map d.nameAt, by simp, ?_, ?_, name, hname, ?_⟩
    · rw [← List.map_cons]
      refine hnodup.map_on fun i hi j hj hij => ?_
      have hlt : ∀ n ∈ node :: between, n < d.sequences.length := by
        intro n hn
        rw [← hresolved.size]
        exact hresolved.within.lt_of_reached (hsize start hmem)
          (hreached n (List.mem_append_left _ hn))
      exact nameAt_inj hnames (hlt i hi) (hlt j hj) hij
    · rw [List.isChain_map]
      exact hchain.imp fun _ _ => hresolved.forks_of_edge
    · intro other hother
      obtain ⟨n, hn, rfl⟩ := List.mem_map.mp hother
      rw [← nameAt_of_position? hposition]
      exact (hreached n hn).lift d.nameAt fun _ _ => hresolved.forks_of_edge

lemma explains_of_build (h : d.build = .error e) : d.Explains e := by
  unfold build at h
  cases hinitial : d.initial.isEmpty with
  | true =>
    rw [hinitial] at h
    cases h
    exact List.isEmpty_iff.mp hinitial
  | false =>
    cases hrepeated : firstRepeated? [] (d.sequences.map Sequence.name) with
    | some name =>
      rw [hinitial, hrepeated] at h
      cases h
      exact one_lt_count_of_firstRepeated? hrepeated
    | none =>
      have hnames : d.names.Nodup := (firstRepeated?_eq_none.mp hrepeated).1
      rw [hinitial, hrepeated] at h
      rcases bind_eq_error.mp h with h | ⟨initial, hids, h⟩
      · obtain ⟨name, hname, hunknown, rfl⟩ := resolveInitial_error h
        exact ⟨hunknown, .inl ⟨rfl, hname⟩⟩
      rcases bind_eq_error.mp h with h | ⟨⟨placed, layout⟩, hplace, h⟩
      · obtain ⟨q, hq, before, step, after, placed, l, site, hsteps, hlays, hname, hk, hstep⟩ :=
          ArenaLayout.placeSequences_error h
        exact explains_of_placeStep hsteps hlays ⟨q, hq, hname, hk⟩ hstep
      rcases bind_eq_error.mp h with h | ⟨sequences, hresolve, h⟩
      · exact explains_of_resolveStep hplace h
      have hresolved := resolved_of_place hplace hresolve
      have hpositions := resolveInitial_ok hids
      rcases bind_eq_error.mp h with h | ⟨⟨maxBranches, weights⟩, -, h⟩
      · exact explains_of_weighForks hnames hresolved hpositions h
      rcases bind_eq_error.mp h with h | ⟨⟨total, efforts⟩, -, h⟩
      · exact explains_of_weighForks hnames hresolved hpositions h
      · cases h

/-- The drafts that can be built are the well-formed ones, and of others the error names a fault. -/
theorem build_iff_wellFormed (d : Draft) : ((∃ s, d.build = .ok s) ↔ d.WellFormed) ∧
    ∀ e, d.build = .error e → d.Explains e := by
  refine ⟨⟨fun ⟨s, hs⟩ => wellFormed_of_build hs, ?_⟩, fun e he => explains_of_build he⟩
  intro hd
  cases hbuild : d.build with
  | ok s => exact ⟨s, rfl⟩
  | error e => exact absurd hd (explains_of_build hbuild).not_wellFormed

end Draft

def echoDraft : Draft where
  initial := ["call"]
  sequences := [⟨"call", [.join, .fork ["answer"]]⟩, ⟨"answer", [.fork ["call", "call"]]⟩,
    ⟨"alone", [.fork ["alone"]]⟩]

lemma echo_build : echoDraft.build = .error (.forkCycle ["call", "answer", "call"]) := rfl

theorem census_and_echo :
    censusDraft.build = .ok census ∧ censusDraft.WellFormed ∧
    echoDraft.build = .error (.forkCycle ["call", "answer", "call"]) ∧
    echoDraft.Explains (.forkCycle ["call", "answer", "call"]) :=
  ⟨census_built, (Draft.build_iff_wellFormed censusDraft).1.mp ⟨census, census_built⟩, echo_build,
    (Draft.build_iff_wellFormed echoDraft).2 _ echo_build⟩

end LoadEngine
