import LoadEngine.Proofs.ArenaPlaces
import LoadEngine.Scenario.Codec

/-! What a draft comes to when it is resolved. The steps are those of the draft, with sequences
looked up and places of the arena given out, each of them to one declaration or one validator; and
the variable of an action is that of the one declaration of its name. -/

namespace LoadEngine

inductive Purpose where
  | var (kind : VariableKind)
  | cursor
deriving DecidableEq, Repr

def Purpose.slot : Purpose → SlotKind
  | var _ => .variable
  | cursor => .cursor

namespace Draft

def Step.declaration? : Step → Option Declaration
  | declare declaration => some declaration
  | _ => none

def Step.targets : Step → List String
  | fork names => names
  | _ => []

variable (d : Draft)

def names : List String := d.sequences.map Sequence.name

def steps : List Step := d.sequences.flatMap Sequence.steps

def declarations : List Declaration := d.steps.filterMap Step.declaration?

def Admits : Step → Prop
  | .operation op => op.metric ≠ "" ∧ 0 < op.timeout
  | .fork names => names ≠ [] ∧ ∀ name ∈ names, name ∈ d.names
  | _ => True

variable {d}

lemma name_of_position? {name : String} {id : Nat} (h : d.position? name = some id) :
    d.sequences[id]?.map Sequence.name = some name := by
  obtain ⟨hlt, hname, -⟩ := List.findIdx?_eq_some_iff_getElem.mp h
  rw [List.getElem?_eq_getElem hlt, Option.map_some, eq_of_beq hname]

def nameAt (d : Draft) (id : Nat) : String := (d.sequences[id]?.map Sequence.name).getD ""

lemma nameAt_of_position? {name : String} {id : Nat} (h : d.position? name = some id) :
    d.nameAt id = name := by
  rw [nameAt, name_of_position? h, Option.getD_some]

lemma position?_eq_none {name : String} : d.position? name = none ↔ name ∉ d.names := by
  unfold position? names
  rw [List.findIdx?_eq_none_iff]
  simp

lemma mem_names_of_position? {name : String} {id : Nat} (h : d.position? name = some id) :
    name ∈ d.names := by
  apply Decidable.of_not_not
  intro hname
  rw [position?_eq_none.mpr hname] at h
  cases h

lemma resolveTargets_cons (d : Draft) (site : StepSite) (name : String) (rest : List String) :
    d.resolveTargets site (name :: rest) =
      match d.position? name with
      | none => .error (.unknownSequence site name)
      | some id => d.resolveTargets site rest >>= fun targets => pure (⟨name, id⟩ :: targets) := rfl

lemma resolveTargets_ok {site : StepSite} {names : List String} {targets : List Target}
    (h : d.resolveTargets site names = .ok targets) :
    targets.map Target.name = names ∧
      ∀ target ∈ targets, d.position? target.name = some target.id := by
  induction names generalizing targets with
  | nil =>
    cases h
    exact ⟨rfl, by simp⟩
  | cons name rest ih =>
    rw [resolveTargets_cons] at h
    cases hid : d.position? name with
    | none =>
      rw [hid] at h
      cases h
    | some id =>
      rw [hid] at h
      obtain ⟨others, hrest, h⟩ := bind_eq_ok.mp h
      cases h
      obtain ⟨hnames, hids⟩ := ih hrest
      exact ⟨congrArg (name :: ·) hnames, List.forall_mem_cons.mpr ⟨hid, hids⟩⟩

lemma resolveInitial_eq (d : Draft) (names : List String) :
    d.resolveInitial names =
      (d.resolveTargets ⟨"(initial)", 0⟩ names).map fun targets => targets.map Target.id := by
  induction names with
  | nil => rfl
  | cons name rest ih =>
    rw [resolveTargets_cons, resolveInitial, ih]
    cases d.position? name with
    | none => rfl
    | some id => cases d.resolveTargets ⟨"(initial)", 0⟩ rest <;> rfl

lemma resolveInitial_ok {names : List String} {ids : List Nat}
    (h : d.resolveInitial names = .ok ids) : names.map d.position? = ids.map some := by
  rw [resolveInitial_eq] at h
  cases htargets : d.resolveTargets ⟨"(initial)", 0⟩ names with
  | error e =>
    rw [htargets] at h
    cases h
  | ok targets =>
    rw [htargets] at h
    cases h
    obtain ⟨rfl, hids⟩ := resolveTargets_ok htargets
    rw [List.map_map, List.map_map]
    exact List.map_congr_left hids

end Draft

namespace Step

variable {ρ σ : Type}

def map (f : ρ → σ) : Step ρ → Step σ
  | action a => .action (a.map f)
  | operation op => .operation op
  | declare declaration key => .declare declaration key
  | fork targets => .fork targets
  | join => .join
  | delay duration => .delay duration

def outline : Step String → Draft.Step
  | action a => .action a
  | operation op => .operation { op with validators := op.validators.map BoundValidator.validator }
  | declare declaration _ => .declare declaration
  | fork targets => .fork (targets.map Target.name)
  | join => .join
  | delay duration => .delay duration

def items : Step ρ → List (ResourceKey × Purpose)
  | operation op => op.validators.map fun v => (v.key, .cursor)
  | declare declaration key => [(key, .var declaration.kind)]
  | _ => []

def declared? : Step ρ → Option (String × ResourceKey × VariableKind)
  | declare declaration key => some (declaration.name, key, declaration.kind)
  | _ => none

def targets : Step ρ → List Target
  | fork targets => targets
  | _ => []

lemma outline_map (step : Step Variable) : (step.map Variable.name).outline = step.draft := by
  cases step <;> rfl

lemma items_map (f : ρ → σ) (step : Step ρ) : (step.map f).items = step.items := by
  cases step <;> rfl

lemma targets_map (f : ρ → σ) (step : Step ρ) : (step.map f).targets = step.targets := by
  cases step <;> rfl

lemma declared?_map (f : ρ → σ) (step : Step ρ) : (step.map f).declared? = step.declared? := by
  cases step <;> rfl

lemma forks_eq (step : Step ρ) : step.forks = step.targets.map Target.id := by
  cases step <;> rfl

lemma declaration?_outline (step : Step String) :
    step.outline.declaration?.map Declaration.name = step.declared?.map Prod.fst := by
  cases step <;> rfl

lemma eq_declare_of_declared? {step : Step ρ} {name : String} {key : ResourceKey}
    {kind : VariableKind} (h : step.declared? = some (name, key, kind)) :
    ∃ declaration, step = .declare declaration key ∧ declaration.name = name ∧
      declaration.kind = kind := by
  cases step with
  | declare declaration key' =>
    cases h
    exact ⟨declaration, rfl, rfl, rfl⟩
  | _ => cases h

end Step

namespace Sequence

def map {ρ σ : Type} (f : ρ → σ) (s : Sequence ρ) : Sequence σ := ⟨s.name, s.steps.map (Step.map f)⟩

def outline (s : Sequence String) : Draft.Sequence := ⟨s.name, s.steps.map Step.outline⟩

lemma outline_map (s : Sequence Variable) : (s.map Variable.name).outline = s.draft := by
  unfold map outline draft
  rw [List.map_map]
  congr 2
  funext step
  exact step.outline_map

end Sequence

namespace ArenaLayout

/-- What is promised of placing the steps of a draft. -/
structure Lays (d : Draft) (l l' : ArenaLayout) (steps : List Draft.Step)
    (placed : List (Step String)) : Prop where
  outline : placed.map Step.outline = steps
  admits : ∀ step ∈ steps, d.Admits step
  targets : ∀ step ∈ placed, ∀ target ∈ step.targets, d.position? target.name = some target.id
  grows : l.Grows l'
  declared : l'.declared = (placed.filterMap Step.declared?).reverse ++ l.declared
  names : (l.declared.map Prod.fst).Nodup → (l'.declared.map Prod.fst).Nodup
  given : ∀ item ∈ placed.flatMap Step.items,
    l.kind? item.1 = none ∧ l'.kind? item.1 = some item.2.slot
  nodup : ((placed.flatMap Step.items).map Prod.fst).Nodup

variable {d : Draft} {l l' l'' : ArenaLayout} {steps steps' : List Draft.Step}
  {placed placed' : List (Step String)}

lemma Grows.kind?_none (h : l.Grows l') {key : ResourceKey} (hk : l'.kind? key = none) :
    l.kind? key = none := by
  cases hl : l.kind? key with
  | none => rfl
  | some kind =>
    rw [h.kind? hl] at hk
    cases hk

lemma Lays.nil (d : Draft) (l : ArenaLayout) : Lays d l l [] [] where
  outline := rfl
  admits := by simp
  targets := by simp
  grows := .refl l
  declared := rfl
  names := id
  given := by simp
  nodup := List.nodup_nil

lemma Lays.append (h : Lays d l l' steps placed) (h' : Lays d l' l'' steps' placed') :
    Lays d l l'' (steps ++ steps') (placed ++ placed') where
  outline := by rw [List.map_append, h.outline, h'.outline]
  admits := List.forall_mem_append.mpr ⟨h.admits, h'.admits⟩
  targets := List.forall_mem_append.mpr ⟨h.targets, h'.targets⟩
  grows := h.grows.trans h'.grows
  declared := by
    rw [h'.declared, h.declared, List.filterMap_append, List.reverse_append, List.append_assoc]
  names := h'.names ∘ h.names
  given := by
    rw [List.flatMap_append]
    refine List.forall_mem_append.mpr ⟨?_, ?_⟩
    · intro item hitem
      obtain ⟨hfree, hkind⟩ := h.given item hitem
      exact ⟨hfree, h'.grows.kind? hkind⟩
    · intro item hitem
      obtain ⟨hfree, hkind⟩ := h'.given item hitem
      exact ⟨h.grows.kind?_none hfree, hkind⟩
  nodup := by
    rw [List.flatMap_append, List.map_append]
    refine List.Nodup.append h.nodup h'.nodup ?_
    intro key hkey hkey'
    obtain ⟨item, hitem, rfl⟩ := List.mem_map.mp hkey
    obtain ⟨item', hitem', heq⟩ := List.mem_map.mp hkey'
    have htaken := (h.given item hitem).2
    rw [← heq, (h'.given item' hitem').1] at htaken
    cases htaken

lemma Lays.keep (l : ArenaLayout) (step : Step String) (hitems : step.items = [])
    (hdeclared : step.declared? = none) (hadmits : d.Admits step.outline)
    (htargets : ∀ target ∈ step.targets, d.position? target.name = some target.id) :
    Lays d l l [step.outline] [step] where
  outline := rfl
  admits := by simpa using hadmits
  targets := by simpa using htargets
  grows := .refl l
  declared := by simp [hdeclared]
  names := id
  given := by simp [hitems]
  nodup := by simp [hitems]

lemma bind_validators (l : ArenaLayout) (vs : List Search.Validator) :
    (l.bind vs).1.map BoundValidator.validator = vs := by
  induction vs generalizing l with
  | nil => rfl
  | cons v rest ih =>
    rw [bind_cons, List.map_cons, ih]

lemma kind?_allocate_none (l : ArenaLayout) (kind : SlotKind) (scope : Scope) :
    l.kind? (l.allocate kind scope).1 = none := by
  cases scope <;> simp [allocate, kind?]

lemma lays_operation (l : ArenaLayout) {op : Operation Search.Validator}
    (hop : op.metric ≠ "" ∧ 0 < op.timeout) :
    Lays d l (l.bind op.validators).2 [.operation op]
      [.operation { op with validators := (l.bind op.validators).1 }] := by
  obtain ⟨hwell, hplaces⟩ := l.bind_wellPlaced op
  obtain ⟨hkeys, hlayout⟩ := l.bind_keys op.validators
  have hcursors : ∀ v ∈ (l.bind op.validators).1,
      (l.bind op.validators).2.kind? v.key = some .cursor := fun v hv => (hwell.2 v hv).2
  have hitems : ([.operation { op with validators := (l.bind op.validators).1 }] :
      List (Step String)).flatMap Step.items =
        (l.bind op.validators).1.map fun v => (v.key, .cursor) := by
    simp [Step.items]
  refine ⟨?_, by simpa [Draft.Admits] using hop, by simp [Step.targets], hplaces.grows, ?_, ?_, ?_,
    ?_⟩
  · simp [Step.outline, bind_validators]
  · simp [hlayout, Step.declared?]
  · rw [hlayout]
    exact id
  · rw [hitems]
    intro item hitem
    obtain ⟨v, hv, rfl⟩ := List.mem_map.mp hitem
    refine ⟨?_, hcursors v hv⟩
    have hkey := List.mem_map_of_mem (f := BoundValidator.key) hv
    rw [hkeys] at hkey
    obtain ⟨i, hi, hkey⟩ := List.mem_map.mp hkey
    rw [List.mem_range'_1] at hi
    rw [← hkey]
    exact List.getElem?_eq_none hi.1
  · rw [hitems, List.map_map]
    exact hwell.1

lemma lays_declare {declaration : Declaration}
    (hfresh : (l.declared.lookup declaration.name).isSome = false) :
    Lays d l
      { (l.allocate .variable declaration.scope).2 with
        declared := (declaration.name, (l.allocate .variable declaration.scope).1,
          declaration.kind) :: (l.allocate .variable declaration.scope).2.declared }
      [.declare declaration]
      [.declare declaration (l.allocate .variable declaration.scope).1] := by
  obtain ⟨hgrows, hkind, hdeclared⟩ := l.allocate_grows .variable declaration.scope
  refine ⟨rfl, by simp [Draft.Admits], by simp [Step.targets], ⟨hgrows.session, hgrows.branch⟩, ?_,
    ?_, ?_, ?_⟩
  · simp [hdeclared, Step.declared?]
  · intro hnodup
    rw [hdeclared, List.map_cons, List.nodup_cons]
    refine ⟨?_, hnodup⟩
    intro hmem
    obtain ⟨⟨name, found⟩, hentry, hname⟩ := List.mem_map.mp hmem
    obtain rfl : name = declaration.name := hname
    have hnone := List.lookup_eq_none_iff.mp (Option.not_isSome_iff_eq_none.mp
      (by simp [hfresh] : ¬ (l.declared.lookup declaration.name).isSome)) _ hentry
    simp at hnone
  · intro item hitem
    obtain rfl : item = ((l.allocate .variable declaration.scope).1,
        .var declaration.kind) := by simpa [Step.items] using hitem
    exact ⟨l.kind?_allocate_none _ _, hkind⟩
  · simp [Step.items]

lemma placeStep_lays {site : StepSite} {step : Draft.Step} {step' : Step String}
    (h : placeStep d site l step = .ok (step', l')) : Lays d l l' [step] [step'] := by
  cases step with
  | action a =>
    cases h
    exact .keep l (.action a) rfl rfl trivial (by simp [Step.targets])
  | operation op =>
    simp only [placeStep] at h
    split at h
    · cases h
    · rename_i hmetric
      split at h
      · cases h
      · rename_i htimeout
        cases h
        exact lays_operation l ⟨hmetric, Nat.pos_of_ne_zero htimeout⟩
  | declare declaration =>
    simp only [placeStep] at h
    split at h
    · cases h
    · rename_i hfresh
      cases h
      exact lays_declare (Bool.not_eq_true _ ▸ hfresh)
  | fork names =>
    simp only [placeStep] at h
    split at h
    · cases h
    · rename_i hnames
      obtain ⟨targets, htargets, h⟩ := bind_eq_ok.mp h
      cases h
      obtain ⟨rfl, hids⟩ := Draft.resolveTargets_ok htargets
      refine .keep l (.fork targets) rfl rfl ⟨by simpa using hnames, ?_⟩ hids
      intro name hname
      obtain ⟨target, htarget, rfl⟩ := List.mem_map.mp hname
      exact Draft.mem_names_of_position? (hids target htarget)
  | join =>
    cases h
    exact .keep l .join rfl rfl trivial (by simp [Step.targets])
  | delay duration =>
    cases h
    exact .keep l (.delay duration) rfl rfl trivial (by simp [Step.targets])

lemma placeSteps_lays {sequence : String} {i : Nat}
    (h : placeSteps d sequence i l steps = .ok (placed, l')) : Lays d l l' steps placed := by
  induction steps generalizing i l placed with
  | nil =>
    cases h
    exact .nil d _
  | cons step rest ih =>
    obtain ⟨⟨step', l₁⟩, hstep, h⟩ := bind_eq_ok.mp h
    obtain ⟨⟨steps', l₂⟩, hsteps, h⟩ := bind_eq_ok.mp h
    cases h
    exact (placeStep_lays hstep).append (ih hsteps)

lemma placeSequences_lays {sequences : List Draft.Sequence} {placed : List (Sequence String)}
    (h : placeSequences d l sequences = .ok (placed, l')) :
    placed.map Sequence.outline = sequences ∧
      Lays d l l' (sequences.flatMap Draft.Sequence.steps) (placed.flatMap Sequence.steps) := by
  induction sequences generalizing l placed with
  | nil =>
    cases h
    exact ⟨rfl, .nil d _⟩
  | cons s rest ih =>
    obtain ⟨⟨steps, l₁⟩, hsteps, h⟩ := bind_eq_ok.mp h
    obtain ⟨⟨sequences', l₂⟩, hrest, h⟩ := bind_eq_ok.mp h
    cases h
    have hfirst := placeSteps_lays hsteps
    obtain ⟨houtline, hothers⟩ := ih hrest
    refine ⟨?_, hfirst.append hothers⟩
    rw [List.map_cons, houtline]
    simp [Sequence.outline, hfirst.outline]

def Resolves (l : ArenaLayout) (step : Step Variable) : Prop :=
  ∀ a var, step = .action a → a.reference? = some var →
    ∃ kind, l.declared.lookup var.name = some (var.key, kind) ∧
      ∀ expected, a.kind? = some expected → expected = kind

lemma resolveVariable_found {site : StepSite} {kind : Option VariableKind} {name : String}
    {var : Variable} (h : l.resolveVariable site kind name = .ok var) :
    var.name = name ∧ ∃ declared, l.declared.lookup name = some (var.key, declared) ∧
      ∀ expected, kind = some expected → expected = declared := by
  unfold resolveVariable at h
  split at h
  · cases h
  · rename_i key declared hname
    split at h
    · cases h
      exact ⟨rfl, declared, hname, nofun⟩
    · rename_i expected
      split at h
      · rename_i heq
        cases h
        refine ⟨rfl, declared, hname, ?_⟩
        rintro e he
        cases he
        exact heq
      · cases h

lemma resolveAction_found {site : StepSite} {a : Action String} {a' : Action Variable}
    (h : l.resolveAction site a = .ok a') :
    a'.map Variable.name = a ∧ l.Resolves (.action a') := by
  cases a with
  | log message =>
    cases h
    refine ⟨rfl, ?_⟩
    rintro b var hb hvar
    cases hb
    cases hvar
  | _ =>
    obtain ⟨found, hfound, h⟩ := bind_eq_ok.mp h
    cases h
    obtain ⟨rfl, declared, hlookup, hkind⟩ := resolveVariable_found hfound
    refine ⟨rfl, ?_⟩
    rintro b var hb hvar
    cases hb
    cases hvar
    exact ⟨declared, hlookup, hkind⟩

lemma resolveStep_found {site : StepSite} {step : Step String} {step' : Step Variable}
    (h : l.resolveStep site step = .ok step') :
    step'.map Variable.name = step ∧ l.Resolves step' := by
  cases step with
  | action a =>
    obtain ⟨a', ha, h⟩ := bind_eq_ok.mp h
    cases h
    obtain ⟨rfl, hfound⟩ := resolveAction_found ha
    exact ⟨rfl, hfound⟩
  | _ =>
    cases h
    exact ⟨rfl, fun a var ha => by cases ha⟩

lemma resolveSteps_found {sequence : String} {i : Nat} {resolved : List (Step Variable)}
    (h : l.resolveSteps sequence i placed = .ok resolved) :
    resolved.map (Step.map Variable.name) = placed ∧ ∀ step ∈ resolved, l.Resolves step := by
  induction placed generalizing i resolved with
  | nil =>
    cases h
    exact ⟨rfl, by simp⟩
  | cons step rest ih =>
    obtain ⟨step', hstep, h⟩ := bind_eq_ok.mp h
    obtain ⟨rest', hrest, h⟩ := bind_eq_ok.mp h
    cases h
    obtain ⟨hfirst, hfound⟩ := resolveStep_found hstep
    obtain ⟨hothers, hall⟩ := ih hrest
    exact ⟨by rw [List.map_cons, hfirst, hothers], List.forall_mem_cons.mpr ⟨hfound, hall⟩⟩

lemma resolveSequences_found {placed : List (Sequence String)}
    {resolved : List (Sequence Variable)} (h : l.resolveSequences placed = .ok resolved) :
    resolved.map (Sequence.map Variable.name) = placed ∧
      ∀ step ∈ resolved.flatMap Sequence.steps, l.Resolves step := by
  induction placed generalizing resolved with
  | nil =>
    cases h
    exact ⟨rfl, by simp⟩
  | cons s rest ih =>
    obtain ⟨steps, hsteps, h⟩ := bind_eq_ok.mp h
    obtain ⟨rest', hrest, h⟩ := bind_eq_ok.mp h
    cases h
    obtain ⟨hfirst, hfound⟩ := resolveSteps_found hsteps
    obtain ⟨hothers, hall⟩ := ih hrest
    refine ⟨?_, List.forall_mem_append.mpr ⟨hfound, hall⟩⟩
    rw [List.map_cons, hothers]
    simp only [Sequence.map, hfirst]

end ArenaLayout

namespace Scenario

def steps (s : Scenario) : List (Step Variable) := s.sequences.flatMap Sequence.steps

def items (s : Scenario) : List (ResourceKey × Purpose) := s.steps.flatMap Step.items

lemma mem_steps_of_stepsOf {s : Scenario} {id : Nat} {step : Step Variable}
    (h : step ∈ s.stepsOf id) : step ∈ s.steps := by
  unfold stepsOf at h
  cases hid : s.sequences[id]? with
  | none => simp [hid] at h
  | some sequence =>
    rw [hid] at h
    exact List.mem_flatMap.mpr ⟨sequence, List.mem_of_getElem? hid, h⟩

end Scenario

lemma firstRepeated?_eq_none {before names : List String} :
    firstRepeated? before names = none ↔ names.Nodup ∧ ∀ name ∈ names, name ∉ before := by
  induction names generalizing before with
  | nil => simp [firstRepeated?]
  | cons name rest ih =>
    unfold firstRepeated?
    split
    · rename_i hmem
      simp [hmem]
    · rename_i hnew
      rw [ih, List.nodup_cons, List.forall_mem_cons]
      constructor
      · rintro ⟨hnodup, hrest⟩
        exact ⟨⟨fun h => hrest name h List.mem_cons_self, hnodup⟩, hnew,
          fun n hn h => hrest n hn (List.mem_cons_of_mem _ h)⟩
      · rintro ⟨⟨hname, hnodup⟩, -, hrest⟩
        refine ⟨hnodup, ?_⟩
        intro n hn h
        rcases List.mem_cons.mp h with rfl | h
        · exact hname hn
        · exact hrest n hn h

namespace Draft

structure Resolved (d : Draft) (sequences : List (LoadEngine.Sequence Variable)) : Prop where
  draft : sequences.map LoadEngine.Sequence.draft = d.sequences
  targets : ∀ step ∈ sequences.flatMap LoadEngine.Sequence.steps, ∀ target ∈ step.targets,
    d.position? target.name = some target.id

structure Yields (d : Draft) (s : Scenario) : Prop where
  initial_ne : d.initial ≠ []
  names : d.names.Nodup
  draft : s.draft = d
  sequences : d.Resolved s.sequences
  initial : d.initial.map d.position? = s.initial.map some
  admits : ∀ step ∈ d.steps, d.Admits step
  declared : (d.declarations.map Declaration.name).Nodup
  resolves : ∀ a, .action a ∈ s.steps → ∀ var, a.reference? = some var →
    ∃ declaration, .declare declaration var.key ∈ s.steps ∧ declaration.name = var.name ∧
      ∀ expected, a.kind? = some expected → expected = declaration.kind
  given : ∀ item ∈ s.items, s.layout.kind? item.1 = some item.2.slot
  nodup : (s.items.map Prod.fst).Nodup

variable {d : Draft} {s : Scenario}

lemma build_initial (h : d.build = .ok s) :
    d.initial ≠ [] ∧ d.names.Nodup ∧ d.resolveInitial d.initial = .ok s.initial := by
  unfold build at h
  cases hinitial : d.initial.isEmpty with
  | true =>
    rw [hinitial] at h
    cases h
  | false =>
    cases hnames : firstRepeated? [] (d.sequences.map Sequence.name) with
    | some name =>
      rw [hinitial, hnames] at h
      cases h
    | none =>
      rw [hinitial, hnames] at h
      obtain ⟨initial, hids, h⟩ := bind_eq_ok.mp h
      obtain ⟨⟨placed, layout⟩, -, h⟩ := bind_eq_ok.mp h
      obtain ⟨sequences, -, h⟩ := bind_eq_ok.mp h
      obtain ⟨⟨maxBranches, weights⟩, -, h⟩ := bind_eq_ok.mp h
      obtain ⟨⟨total, efforts⟩, -, h⟩ := bind_eq_ok.mp h
      cases h
      refine ⟨?_, (firstRepeated?_eq_none.mp hnames).1, hids⟩
      rintro hempty
      rw [hempty] at hinitial
      cases hinitial

lemma declarations_outline (placed : List (LoadEngine.Step String)) :
    ((placed.map Step.outline).filterMap Step.declaration?).map Declaration.name =
      (placed.filterMap Step.declared?).map Prod.fst := by
  induction placed with
  | nil => rfl
  | cons step rest ih =>
    have hstep := step.declaration?_outline
    rw [List.map_cons, List.filterMap_cons, List.filterMap_cons]
    cases hd : step.outline.declaration? with
    | none =>
      rw [hd] at hstep
      rw [Option.map_eq_none_iff.mp hstep.symm]
      exact ih
    | some declaration =>
      rw [hd] at hstep
      obtain ⟨found, hfound, hname⟩ := Option.map_eq_some_iff.mp hstep.symm
      rw [hfound]
      simp only [List.map_cons, ih, hname]

lemma map_nameAt {names : List String} {ids : List Nat}
    (h : names.map d.position? = ids.map some) : ids.map d.nameAt = names := by
  induction names generalizing ids with
  | nil => rw [List.map_eq_nil_iff.mp h.symm, List.map_nil]
  | cons name rest ih =>
    obtain ⟨id, others, rfl, hid, hrest⟩ := List.map_eq_cons_iff.mp h.symm
    rw [List.map_cons, ih hrest.symm, nameAt_of_position? hid.symm]

lemma Resolved.map_name {sequences : List (LoadEngine.Sequence Variable)}
    (h : d.Resolved sequences) (ids : List Nat) :
    ids.map (fun id => (sequences[id]?.map LoadEngine.Sequence.name).getD "") =
      ids.map d.nameAt := by
  congr 1
  funext id
  rw [nameAt, ← h.draft, List.getElem?_map, Option.map_map]
  rfl

lemma steps_of_map {placed : List (LoadEngine.Sequence String)}
    {resolved : List (LoadEngine.Sequence Variable)}
    (h : resolved.map (Sequence.map Variable.name) = placed) :
    placed.flatMap LoadEngine.Sequence.steps =
      (resolved.flatMap LoadEngine.Sequence.steps).map (Step.map Variable.name) := by
  rw [← h, List.flatMap_map, List.map_flatMap]
  rfl

lemma resolved_of_place {placed : List (LoadEngine.Sequence String)} {layout : ArenaLayout}
    {resolved : List (LoadEngine.Sequence Variable)}
    (hplace : ArenaLayout.placeSequences d .empty d.sequences = .ok (placed, layout))
    (hresolve : layout.resolveSequences placed = .ok resolved) : d.Resolved resolved := by
  obtain ⟨houtline, hlays⟩ := ArenaLayout.placeSequences_lays hplace
  obtain ⟨hmap, -⟩ := ArenaLayout.resolveSequences_found hresolve
  constructor
  · rw [← houtline, ← hmap, List.map_map]
    congr 1
    funext sequence
    exact sequence.outline_map.symm
  · intro step hstep target htarget
    refine hlays.targets (step.map Variable.name) ?_ target (by rwa [step.targets_map])
    rw [steps_of_map hmap]
    exact List.mem_map_of_mem hstep

theorem build_yields (h : d.build = .ok s) : d.Yields s := by
  obtain ⟨placed, layout, hbuilt⟩ := build_ok h
  obtain ⟨hne, hnames, hinitial⟩ := build_initial h
  obtain ⟨-, hlays⟩ := ArenaLayout.placeSequences_lays hbuilt.place
  obtain ⟨hmap, hresolves⟩ := ArenaLayout.resolveSequences_found hbuilt.resolve
  have hresolved := resolved_of_place hbuilt.place hbuilt.resolve
  have hids := resolveInitial_ok hinitial
  have hsteps : placed.flatMap LoadEngine.Sequence.steps = s.steps.map (Step.map Variable.name) :=
    steps_of_map hmap
  have hitems : (placed.flatMap LoadEngine.Sequence.steps).flatMap Step.items = s.items := by
    rw [hsteps, List.flatMap_map]
    congr 1
    funext step
    exact step.items_map _
  have hdeclared : layout.declared = (s.steps.filterMap Step.declared?).reverse := by
    rw [hlays.declared, hsteps, List.filterMap_map]
    simp only [ArenaLayout.empty, List.append_nil]
    congr 2
    funext step
    exact step.declared?_map _
  have hlayout : layout.Grows s.layout :=
    ⟨hbuilt.sessionSlots ▸ List.prefix_rfl, hbuilt.branchSlots ▸ List.prefix_rfl⟩
  refine ⟨hne, hnames, ?_, hresolved, hids, hlays.admits, ?_, ?_, ?_, ?_⟩
  · have hinitials := map_nameAt hids
    rw [← hresolved.map_name] at hinitials
    unfold Scenario.draft
    rw [hresolved.draft, hinitials]
  · have hnodup := hlays.names List.nodup_nil
    rw [hlays.declared, ArenaLayout.empty, List.append_nil, List.map_reverse,
      List.nodup_reverse, ← declarations_outline, hlays.outline] at hnodup
    exact hnodup
  · intro a ha var hvar
    obtain ⟨kind, hlookup, hkind⟩ := hresolves _ ha a var rfl hvar
    have hmem := OrderedMap.mem_of_lookup hlookup
    rw [hdeclared, List.mem_reverse] at hmem
    obtain ⟨step, hstep, hfound⟩ := List.mem_filterMap.mp hmem
    obtain ⟨declaration, rfl, hname, rfl⟩ := Step.eq_declare_of_declared? hfound
    exact ⟨declaration, hstep, hname, hkind⟩
  · intro item hitem
    rw [← hitems] at hitem
    exact hlayout.kind? (hlays.given item hitem).2
  · rw [← hitems]
    exact hlays.nodup

end Draft

def censusAsk : Operation Search.Validator :=
  { (Operation.simple "http" "get" : Operation Search.Validator) with
    payload := .obj [("path", .str "/")]
    validators := [.new #[97, 98] (.atLeast 1), .new #[33] (.exactly 0)] }

/-- Two branches that count what they ask, each with a number and a number's cursors of its own, and
leave a note in one place for both, which is declared further behind. -/
def censusDraft : Draft where
  initial := ["count", "count"]
  sequences := [
    ⟨"count", [.declare ⟨"asked", .int, .branch⟩, .action (.setInt "asked" 3),
      .operation censusAsk, .action (.addInt "asked" (-1)), .action (.setText "note" "asked"),
      .fork ["rest"], .join]⟩,
    ⟨"rest", [.declare ⟨"note", .text, .session⟩, .delay 5, .action (.log "rested"),
      .action (.unset "note")]⟩]

def census : Scenario := censusDraft.build.toOption.getD ⟨[], [], [], [], 0, ∅⟩

lemma census_built : censusDraft.build = .ok census := by
  have h : censusDraft.build.toOption.isSome = true := by decide +kernel
  unfold census
  generalize censusDraft.build = built at h
  cases built with
  | ok scenario => rfl
  | error cause => cases h

end LoadEngine
