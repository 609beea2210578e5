import LoadEngine.Proofs.ForkWeights
import LoadEngine.Proofs.Lists
import Mathlib.Data.List.Nodup
import Mathlib.Data.List.Range

/-! Where the resources of a built scenario are kept. Each validator of an operation has a cursor of
its own in every branch, and no variable is kept in the place of a cursor. -/

namespace LoadEngine

namespace ArenaLayout

def kind? (l : ArenaLayout) (key : ResourceKey) : Option SlotKind :=
  match key.scope with
  | .session => l.session[key.index]?
  | .branch => l.branch[key.index]?

structure Grows (l l' : ArenaLayout) : Prop where
  session : l.session <+: l'.session
  branch : l.branch <+: l'.branch

def Declares (l : ArenaLayout) : Prop :=
  ∀ name key kind, l.declared.lookup name = some (key, kind) → l.kind? key = some .variable

variable {l l' l'' : ArenaLayout}

lemma Grows.refl (l : ArenaLayout) : l.Grows l := ⟨List.prefix_rfl, List.prefix_rfl⟩

lemma Grows.trans (h : l.Grows l') (h' : l'.Grows l'') : l.Grows l'' :=
  ⟨h.session.trans h'.session, h.branch.trans h'.branch⟩

lemma Grows.kind? (h : l.Grows l') {key : ResourceKey} {kind : SlotKind}
    (hk : l.kind? key = some kind) : l'.kind? key = some kind := by
  unfold ArenaLayout.kind? at hk ⊢
  cases hs : key.scope with
  | session =>
    rw [hs] at hk
    exact getElem?_of_prefix h.session hk
  | branch =>
    rw [hs] at hk
    exact getElem?_of_prefix h.branch hk

lemma allocate_grows (l : ArenaLayout) (kind : SlotKind) (scope : Scope) :
    l.Grows (l.allocate kind scope).2 ∧
      (l.allocate kind scope).2.kind? (l.allocate kind scope).1 = some kind ∧
      (l.allocate kind scope).2.declared = l.declared := by
  cases scope with
  | session => exact ⟨⟨List.prefix_append _ _, List.prefix_rfl⟩, by simp [allocate, kind?], rfl⟩
  | branch => exact ⟨⟨List.prefix_rfl, List.prefix_append _ _⟩, by simp [allocate, kind?], rfl⟩

lemma bind_cons (l : ArenaLayout) (v : Search.Validator) (rest : List Search.Validator) :
    l.bind (v :: rest) =
      (⟨v, (l.allocate .cursor .branch).1⟩ :: ((l.allocate .cursor .branch).2.bind rest).1,
        ((l.allocate .cursor .branch).2.bind rest).2) := rfl

lemma bind_keys (l : ArenaLayout) (vs : List Search.Validator) :
    ((l.bind vs).1.map BoundValidator.key =
        (List.range' l.branch.length vs.length).map (ResourceKey.mk .branch)) ∧
      (l.bind vs).2 = { l with branch := l.branch ++ List.replicate vs.length .cursor } := by
  induction vs generalizing l with
  | nil => exact ⟨rfl, by simp [bind]⟩
  | cons v rest ih =>
    obtain ⟨hkeys, hlayout⟩ := ih (l.allocate .cursor .branch).2
    rw [bind_cons]
    constructor
    · rw [List.map_cons, hkeys, List.length_cons, List.range'_succ, List.map_cons]
      simp [allocate]
    · rw [hlayout]
      simp [allocate, List.replicate_succ]

def WellPlaced {ρ : Type} (l : ArenaLayout) : Step ρ → Prop
  | .operation op => (op.validators.map BoundValidator.key).Nodup ∧
      ∀ v ∈ op.validators, v.key.scope = .branch ∧ l.kind? v.key = some .cursor
  | .declare _ key => l.kind? key = some .variable
  | _ => True

lemma WellPlaced.grows {ρ : Type} {step : Step ρ} (h : l.WellPlaced step) (hl : l.Grows l') :
    l'.WellPlaced step := by
  cases step with
  | operation op => exact ⟨h.1, fun v hv => ⟨(h.2 v hv).1, hl.kind? (h.2 v hv).2⟩⟩
  | declare declaration key => exact hl.kind? h
  | _ => trivial

structure Places (l l' : ArenaLayout) : Prop where
  grows : l.Grows l'
  declares : l.Declares → l'.Declares

lemma Places.refl (l : ArenaLayout) : l.Places l := ⟨.refl l, id⟩

lemma Places.trans (h : l.Places l') (h' : l'.Places l'') : l.Places l'' :=
  ⟨h.grows.trans h'.grows, fun hl => h'.declares (h.declares hl)⟩

lemma bind_wellPlaced (l : ArenaLayout) (op : Operation Search.Validator) :
    (l.bind op.validators).2.WellPlaced (ρ := String)
        (.operation { op with validators := (l.bind op.validators).1 }) ∧
      l.Places (l.bind op.validators).2 := by
  obtain ⟨hkeys, hlayout⟩ := l.bind_keys op.validators
  have hgrows : l.Grows (l.bind op.validators).2 := by
    rw [hlayout]
    exact ⟨List.prefix_rfl, List.prefix_append _ _⟩
  refine ⟨⟨?_, ?_⟩, hgrows, ?_⟩
  · simp only [hkeys]
    exact List.Nodup.map (fun i j hij => (ResourceKey.mk.inj hij).2) (List.nodup_range' ..)
  · intro v hv
    have hkey : v.key ∈ (l.bind op.validators).1.map BoundValidator.key := List.mem_map_of_mem hv
    rw [hkeys] at hkey
    obtain ⟨i, hi, hv⟩ := List.mem_map.mp hkey
    rw [List.mem_range'_1] at hi
    rw [← hv, hlayout]
    refine ⟨rfl, ?_⟩
    simp only [kind?]
    rw [List.getElem?_append_right hi.1, List.getElem?_replicate, if_pos (by omega)]
  · intro hl name key kind hname
    rw [hlayout] at hname
    exact hgrows.kind? (hl name key kind hname)

lemma placeStep_ok {d : Draft} {site : StepSite} {step : Draft.Step} {placed : Step String}
    (h : placeStep d site l step = .ok (placed, l')) : l'.WellPlaced placed ∧ l.Places l' := by
  cases step with
  | action a =>
    cases h
    exact ⟨trivial, .refl l⟩
  | operation op =>
    simp only [placeStep] at h
    split at h
    · cases h
    · split at h
      · cases h
      · cases h
        exact bind_wellPlaced l op
  | declare declaration =>
    simp only [placeStep] at h
    split at h
    · cases h
    · cases h
      obtain ⟨hgrows, hkind, hdeclared⟩ := l.allocate_grows .variable declaration.scope
      refine ⟨hkind, ⟨hgrows.session, hgrows.branch⟩, ?_⟩
      intro hl name key kind hname
      rw [hdeclared, OrderedMap.lookup_cons_ite] at hname
      split at hname
      · cases hname
        exact hkind
      · exact hgrows.kind? (hl name key kind hname)
  | fork names =>
    simp only [placeStep] at h
    split at h
    · cases h
    · obtain ⟨targets, -, h⟩ := bind_eq_ok.mp h
      cases h
      exact ⟨trivial, .refl l⟩
  | join =>
    cases h
    exact ⟨trivial, .refl l⟩
  | delay duration =>
    cases h
    exact ⟨trivial, .refl l⟩

lemma placeSteps_ok {d : Draft} {sequence : String} {i : Nat} {steps : List Draft.Step}
    {placed : List (Step String)} (h : placeSteps d sequence i l steps = .ok (placed, l')) :
    (∀ step ∈ placed, l'.WellPlaced step) ∧ l.Places l' := by
  induction steps generalizing i l placed with
  | nil =>
    cases h
    exact ⟨by simp, .refl _⟩
  | cons step rest ih =>
    obtain ⟨⟨step', l₁⟩, hstep, h⟩ := bind_eq_ok.mp h
    obtain ⟨⟨steps', l₂⟩, hsteps, h⟩ := bind_eq_ok.mp h
    cases h
    obtain ⟨hplaced, hfirst⟩ := placeStep_ok hstep
    obtain ⟨hrest, hothers⟩ := ih hsteps
    exact ⟨List.forall_mem_cons.mpr ⟨hplaced.grows hothers.grows, hrest⟩, hfirst.trans hothers⟩

lemma placeSequences_ok {d : Draft} {sequences : List Draft.Sequence}
    {placed : List (Sequence String)} (h : placeSequences d l sequences = .ok (placed, l')) :
    (∀ sequence ∈ placed, ∀ step ∈ sequence.steps, l'.WellPlaced step) ∧ l.Places l' := by
  induction sequences generalizing l placed with
  | nil =>
    cases h
    exact ⟨by simp, .refl _⟩
  | cons s rest ih =>
    obtain ⟨⟨steps, l₁⟩, hsteps, h⟩ := bind_eq_ok.mp h
    obtain ⟨⟨sequences', l₂⟩, hrest, h⟩ := bind_eq_ok.mp h
    cases h
    obtain ⟨hplaced, hfirst⟩ := placeSteps_ok hsteps
    obtain ⟨hsequences, hothers⟩ := ih hrest
    exact ⟨List.forall_mem_cons.mpr
      ⟨fun step hstep => (hplaced step hstep).grows hothers.grows, hsequences⟩,
      hfirst.trans hothers⟩

def WellResolved (l : ArenaLayout) (step : Step Variable) : Prop :=
  l.WellPlaced step ∧ ∀ a var, step = .action a → a.reference? = some var →
    l.kind? var.key = some .variable

lemma resolveVariable_ok (hl : l.Declares) {site : StepSite} {kind : Option VariableKind}
    {name : String} {var : Variable} (h : l.resolveVariable site kind name = .ok var) :
    l.kind? var.key = some .variable := by
  unfold resolveVariable at h
  split at h
  · cases h
  · rename_i key declared hname
    have hkind := hl name key declared hname
    split at h
    · cases h
      exact hkind
    · split at h
      · cases h
        exact hkind
      · cases h

lemma resolveAction_ok (hl : l.Declares) {site : StepSite} {a : Action String}
    {a' : Action Variable} (h : l.resolveAction site a = .ok a') {var : Variable}
    (hvar : a'.reference? = some var) : l.kind? var.key = some .variable := by
  cases a with
  | log message =>
    cases h
    cases hvar
  | _ =>
    obtain ⟨var', hvar', h⟩ := bind_eq_ok.mp h
    cases h
    cases hvar
    exact resolveVariable_ok hl hvar'

lemma resolveStep_ok (hl : l.Declares) {site : StepSite} {step : Step String}
    {step' : Step Variable} (h : l.resolveStep site step = .ok step') (hp : l.WellPlaced step) :
    l.WellResolved step' := by
  cases step with
  | action a =>
    obtain ⟨a', ha, h⟩ := bind_eq_ok.mp h
    cases h
    refine ⟨trivial, ?_⟩
    intro b var hb hvar
    cases hb
    exact resolveAction_ok hl ha hvar
  | _ =>
    cases h
    exact ⟨hp, fun a var ha => by cases ha⟩

lemma resolveSteps_ok (hl : l.Declares) {sequence : String} {i : Nat} {steps : List (Step String)}
    {resolved : List (Step Variable)} (h : l.resolveSteps sequence i steps = .ok resolved)
    (hp : ∀ step ∈ steps, l.WellPlaced step) : ∀ step ∈ resolved, l.WellResolved step := by
  induction steps generalizing i resolved with
  | nil =>
    cases h
    simp
  | cons step rest ih =>
    obtain ⟨step', hstep, h⟩ := bind_eq_ok.mp h
    obtain ⟨rest', hrest, h⟩ := bind_eq_ok.mp h
    cases h
    obtain ⟨hfirst, hothers⟩ := List.forall_mem_cons.mp hp
    exact List.forall_mem_cons.mpr ⟨resolveStep_ok hl hstep hfirst, ih hrest hothers⟩

lemma resolveSequences_ok (hl : l.Declares) {sequences : List (Sequence String)}
    {resolved : List (Sequence Variable)} (h : l.resolveSequences sequences = .ok resolved)
    (hp : ∀ sequence ∈ sequences, ∀ step ∈ sequence.steps, l.WellPlaced step) :
    ∀ sequence ∈ resolved, ∀ step ∈ sequence.steps, l.WellResolved step := by
  induction sequences generalizing resolved with
  | nil =>
    cases h
    simp
  | cons s rest ih =>
    obtain ⟨steps, hsteps, h⟩ := bind_eq_ok.mp h
    obtain ⟨rest', hrest, h⟩ := bind_eq_ok.mp h
    cases h
    obtain ⟨hfirst, hothers⟩ := List.forall_mem_cons.mp hp
    exact List.forall_mem_cons.mpr ⟨resolveSteps_ok hl hsteps hfirst, ih hrest hothers⟩

end ArenaLayout

def Scenario.layout (s : Scenario) : ArenaLayout := ⟨s.sessionSlots, s.branchSlots, []⟩

theorem Draft.build_wellResolved {d : Draft} {s : Scenario} (h : d.build = .ok s) :
    ∀ id, ∀ step ∈ s.stepsOf id, s.layout.WellResolved step := by
  obtain ⟨placed, layout, hbuilt⟩ := Draft.build_ok h
  obtain ⟨hplaced, hplaces⟩ := ArenaLayout.placeSequences_ok hbuilt.place
  have hdeclares : layout.Declares := by
    apply hplaces.declares
    intro name key kind hname
    cases hname
  have hresolved := ArenaLayout.resolveSequences_ok hdeclares hbuilt.resolve hplaced
  have hgrows : layout.Grows s.layout := by
    constructor
    · exact hbuilt.sessionSlots ▸ List.prefix_rfl
    · exact hbuilt.branchSlots ▸ List.prefix_rfl
  intro id step hstep
  unfold Scenario.stepsOf at hstep
  cases hid : s.sequences[id]? with
  | none => simp [hid] at hstep
  | some sequence =>
    rw [hid] at hstep
    obtain ⟨hwell, hvars⟩ := hresolved sequence (List.mem_of_getElem? hid) step hstep
    exact ⟨hwell.grows hgrows, fun a var ha hvar => hgrows.kind? (hvars a var ha hvar)⟩

end LoadEngine
