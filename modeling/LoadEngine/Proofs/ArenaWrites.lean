import LoadEngine.Proofs.ArenaPurposes
import LoadEngine.Proofs.TurnBooks

/-! What the steps of a branch write to the arena. A step that can be taken makes its own writes and
no others; and an action can be taken unless it adds to a variable that is unset. -/

namespace LoadEngine

def Action.change {ρ : Type} : Action ρ → Resource → Option Resource
  | setInt _ value, _ => some (.int value)
  | addInt _ delta, .int value => some (.int (Turn.boundedSum value delta))
  | addInt _ _, _ => none
  | setText _ value, _ => some (.text value)
  | unset _, _ => some .unset
  | log _, r => some r

def Resource.onCursor? (f : Search.Cursor → Search.Cursor) : Resource → Option Resource
  | .cursor c => some (.cursor (f c))
  | _ => none

def cursorWrites (sc : Scenario) (validators : List BoundValidator) (branch : Nat)
    (f : Search.Validator → Search.Cursor → Search.Cursor) : List Write :=
  validators.map fun v => ⟨Session.position sc v.key branch, Resource.onCursor? (f v.validator)⟩

def Step.writes (sc : Scenario) (branch : Nat) : Step Variable → List Write
  | action a => a.reference?.toList.map fun var => ⟨Session.position sc var.key branch, a.change⟩
  | operation op => cursorWrites sc op.validators branch fun _ _ => .start
  | declare _ key => [⟨Session.position sc key branch, fun _ => some .unset⟩]
  | _ => []

lemma Scenario.mem_steps_of_step? {sc : Scenario} {id position : Nat} {step : Step Variable}
    (h : sc.step? id position = some step) : step ∈ sc.steps := by
  rw [step?_eq] at h
  exact mem_steps_of_stepsOf (List.mem_of_getElem? h)

section Fits

variable {d : Draft} {sc : Scenario} {branch : Nat}

lemma cursorWrites_fits {validators : List BoundValidator}
    (hitems : ∀ v ∈ validators, (v.key, .cursor) ∈ sc.items) (hbranch : branch < sc.maxBranches)
    (f : Search.Validator → Search.Cursor → Search.Cursor) :
    ∀ w ∈ cursorWrites sc validators branch f, w.Fits sc := by
  intro w hw
  obtain ⟨v, hv, rfl⟩ := List.mem_map.mp hw
  refine ⟨_, hitems v hv, branch, hbranch, rfl, ?_⟩
  intro r r' hr hchange
  cases hr with
  | cursor c =>
    cases hchange
    exact .cursor _

lemma Action.change_allows {a : Action Variable} {kind : VariableKind}
    (hkind : ∀ expected, a.kind? = some expected → expected = kind) {r r' : Resource}
    (hr : (Purpose.var kind).Allows r) (h : a.change r = some r') :
    (Purpose.var kind).Allows r' := by
  cases a with
  | setInt var value =>
    obtain rfl := hkind .int rfl
    cases h
    exact .int value
  | addInt var delta =>
    obtain rfl := hkind .int rfl
    cases hr with
    | unset => cases h
    | int value =>
      cases h
      exact .int _
  | setText var value =>
    obtain rfl := hkind .text rfl
    cases h
    exact .text value
  | unset var =>
    cases h
    exact .unset kind
  | log message =>
    cases h
    exact hr

lemma Action.change_eq_none {a : Action Variable} {kind : VariableKind}
    (hkind : ∀ expected, a.kind? = some expected → expected = kind) {r : Resource}
    (hr : (Purpose.var kind).Allows r) :
    a.change r = none ↔ r = .unset ∧ ∃ var delta, a = .addInt var delta := by
  cases a with
  | addInt var delta =>
    obtain rfl := hkind .int rfl
    cases hr <;> simp [change]
  | _ => simp [change]

lemma items_of_operation {operation : Operation BoundValidator}
    (hstep : .operation operation ∈ sc.steps) :
    ∀ v ∈ operation.validators, (v.key, .cursor) ∈ sc.items :=
  fun _ hv => List.mem_flatMap.mpr ⟨_, hstep, List.mem_map_of_mem hv⟩

lemma Draft.Yields.writes_fits (h : d.Yields sc) {step : LoadEngine.Step Variable}
    (hstep : step ∈ sc.steps) (hbranch : branch < sc.maxBranches) :
    ∀ w ∈ step.writes sc branch, w.Fits sc := by
  cases step with
  | action a =>
    intro w hw
    obtain ⟨var, hvar, rfl⟩ := List.mem_map.mp hw
    obtain ⟨kind, hitem, hkind⟩ := h.exists_variable hstep (Option.mem_toList.mp hvar)
    exact ⟨_, hitem, branch, hbranch, rfl, fun r r' => Action.change_allows hkind⟩
  | operation op => exact cursorWrites_fits (items_of_operation hstep) hbranch fun _ _ => .start
  | declare declaration key =>
    intro w hw
    obtain rfl := List.mem_singleton.mp hw
    refine ⟨_, List.mem_flatMap.mpr ⟨_, hstep, List.mem_cons_self⟩, branch, hbranch, rfl, ?_⟩
    rintro r r' - ⟨⟩
    exact .unset _
  | _ => exact fun w hw => by cases hw

end Fits

namespace Session

variable {sc : Scenario} {s : Session} {branch : Nat}

lemma onCursors_spared (validators : List BoundValidator) (branch : Nat)
    (f : Search.Validator → Search.Cursor → Search.Cursor) (s : Session) {j : Nat}
    (hj : j ∉ (cursorWrites sc validators branch f).map Write.place) :
    (s.onCursors sc validators branch f).arena[j]? = s.arena[j]? := by
  induction validators generalizing s with
  | nil => rfl
  | cons v rest ih =>
    rw [cursorWrites, List.map_cons, List.map_cons, List.mem_cons, not_or] at hj
    rw [onCursors_cons, ih _ hj.2, onResource_arena, if_neg (Ne.symm hj.1)]

lemma onCursors_made (hf : Furnished sc s.arena) {validators : List BoundValidator}
    (hv : Places sc validators) (hitems : ∀ v ∈ validators, (v.key, .cursor) ∈ sc.items)
    (hbranch : branch < sc.maxBranches)
    (f : Search.Validator → Search.Cursor → Search.Cursor) :
    Made (cursorWrites sc validators branch f) s.arena
      (s.onCursors sc validators branch f).arena where
  made := by
    intro w hw
    obtain ⟨v, hmem, rfl⟩ := List.mem_map.mp hw
    obtain ⟨r, hr, hallows⟩ := hf _ (hitems v hmem) branch hbranch
    cases hallows with
    | cursor c =>
      have hafter := cursor?_onCursors s branch hv f hmem
      rw [cursor?_eq_some.mpr hr] at hafter
      exact ⟨_, _, hr, rfl, cursor?_eq_some.mp hafter⟩
  spared j := onCursors_spared validators branch f s

lemma mem_steps_of_current? {step : Step Variable} (h : s.current? sc branch = some step) :
    step ∈ sc.steps := by
  unfold current? at h
  split at h
  · exact Scenario.mem_steps_of_step? h
  · cases h

end Session

namespace Turn

variable {d : Draft} {stage : Stage} {t : Turn} {i : Nat}

lemma execute_eq (stage : Stage) (s : Session) (branch : Nat) (a : Action Variable) {var : Variable}
    (hvar : a.reference? = some var) {r : Resource}
    (hr : s.resource? stage.scenario var.key branch = some r) :
    execute stage s branch a = (a.change r).map fun r' =>
      s.onResource stage.scenario var.key branch fun _ => r' := by
  cases a with
  | addInt var' delta =>
    cases hvar
    simp only [execute, hr]
    cases r <;> rfl
  | log message => cases hvar
  | _ =>
    cases hvar
    rfl

structure Alike (t t' : Turn) : Prop where
  arena : t'.session.arena = t.session.arena
  length : t'.session.branches.length = t.session.branches.length

lemma Alike.refl (t : Turn) : t.Alike t := ⟨rfl, rfl⟩

/-- What a step of a branch does to the arena. It makes the writes of the step and no others, or
none where it cannot be taken; and an action can, unless it adds to a variable that is unset. -/
structure Performs (stage : Stage) (t : Turn) (i : Nat) : Prop where
  made : (t.step stage i).2 = .alive →
    Made ((t.session.current? stage.scenario i).elim [] (Step.writes stage.scenario i))
      t.session.arena (t.step stage i).1.session.arena
  kept : (t.step stage i).2 ≠ .alive → t.Alike (t.step stage i).1
  acts : ∀ a, t.session.current? stage.scenario i = some (.action a) →
    (t.step stage i).2 = .alive ∨ (t.step stage i).2 = .ended .failed
  fails : ∀ a, t.session.current? stage.scenario i = some (.action a) →
    ((t.step stage i).2 = .ended .failed ↔ ∃ var delta, a = .addInt var delta ∧
      t.session.resource? stage.scenario var.key i = some .unset)

lemma abandon_length (requests : Pool Request) (l : List Branch) :
    (abandon requests l).1.length = l.length := by
  induction l generalizing requests with
  | nil => rfl
  | cons b rest ih =>
    unfold abandon
    simp only
    split
    · rfl
    · rw [List.length_cons, List.length_cons, ih]

lemma close_alike (t : Turn) (how : SessionEnd) : t.Alike (t.close how).1 := by
  have hlength := abandon_length t.requests t.session.branches
  unfold close
  generalize abandon t.requests t.session.branches = out at hlength
  obtain ⟨branches, requests, fault⟩ := out
  cases fault <;> exact ⟨rfl, hlength⟩

lemma Performs.goes (t' : Turn) (hs : t.step stage i = (t', .alive))
    (hm : Made ((t.session.current? stage.scenario i).elim [] (Step.writes stage.scenario i))
      t.session.arena t'.session.arena)
    (hset : ∀ var delta, t.session.current? stage.scenario i = some (.action (.addInt var delta)) →
      t.session.resource? stage.scenario var.key i ≠ some .unset) : Performs stage t i where
  made _ := by rwa [hs]
  kept h := absurd (by rw [hs]) h
  acts _ _ := .inl (by rw [hs])
  fails a ha := by
    rw [hs]
    constructor
    · intro h
      cases h
    · rintro ⟨var, delta, rfl, hunset⟩
      exact absurd hunset (hset var delta ha)

lemma Performs.stops {t' : Turn} {verdict : Verdict} (hs : t.step stage i = (t', verdict))
    (hstop : verdict ≠ .alive) (halike : t.Alike t')
    (hunset : ∀ a, t.session.current? stage.scenario i = some (.action a) →
      verdict = .ended .failed ∧ ∃ var delta, a = .addInt var delta ∧
        t.session.resource? stage.scenario var.key i = some .unset) : Performs stage t i where
  made h := by
    rw [hs] at h
    exact absurd h hstop
  kept _ := by rwa [hs]
  acts a ha := by
    rw [hs]
    exact .inr (hunset a ha).1
  fails a ha := by
    rw [hs]
    exact iff_of_true (hunset a ha).1 (hunset a ha).2

lemma Performs.quiet (t' : Turn) (hs : t.step stage i = (t', .alive))
    (harena : t'.session.arena = t.session.arena)
    (hwrites : (t.session.current? stage.scenario i).elim [] (Step.writes stage.scenario i) = [])
    (haction : ∀ a, t.session.current? stage.scenario i ≠ some (.action a)) :
    Performs stage t i := by
  refine .goes t' hs ?_ fun var delta h => absurd h (haction _)
  rw [hwrites, harena]
  exact .refl _

lemma performs_action (hy : d.Yields stage.scenario) (howns : t.Owns)
    (hf : Furnished stage.scenario t.session.arena) (hi : i < stage.scenario.maxBranches)
    {a : Action Variable} (ha : .action a ∈ stage.scenario.steps)
    (hc : t.session.current? stage.scenario i = some (.action a)) : Performs stage t i := by
  have hgoes : ∀ session, execute stage t.session i a = some session →
      t.step stage i = (({ t with session } : Turn).onBranch i .proceed, .alive) := by
    intro session he
    rw [step, hc]
    simp only [he]
  have hfails : execute stage t.session i a = none → t.step stage i = t.close .failed := by
    intro he
    rw [step, hc]
    simp only [he]
  cases hvar : a.reference? with
  | none =>
    cases a with
    | log message =>
      refine .goes _ (hgoes _ rfl) ?_ fun var delta h => ?_
      · rw [hc]
        exact .refl _
      · rw [hc] at h
        cases h
    | _ => cases hvar
  | some var =>
    obtain ⟨kind, hitem, hkind⟩ := hy.exists_variable ha hvar
    obtain ⟨r, hr, hallows⟩ := hf _ hitem i hi
    have hexecute := execute_eq stage t.session i a hvar hr
    have hnone := Action.change_eq_none hkind hallows
    cases hchange : a.change r with
    | some r' =>
      rw [hchange] at hexecute hnone
      refine .goes _ (hgoes _ hexecute) ?_ ?_
      · rw [hc]
        simp only [Option.elim, Step.writes, hvar, Option.toList, List.map_cons, List.map_nil]
        exact .modify hr (fun _ => r') hchange
      · intro var' delta h hunset
        rw [hc] at h
        cases h
        cases hvar
        rw [show t.session.resource? _ _ i = some r from hr] at hunset
        cases hunset
        cases hnone.mpr ⟨rfl, _, _, rfl⟩
    | none =>
      rw [hchange] at hexecute
      obtain ⟨rfl, var', delta, rfl⟩ := hnone.mp hchange
      obtain ⟨t', hclose, -⟩ := howns.close .failed
      have halike := close_alike t .failed
      rw [hclose] at halike
      refine .stops ((hfails hexecute).trans hclose) (by simp) halike ?_
      intro a' ha'
      rw [hc] at ha'
      cases ha'
      cases hvar
      exact ⟨rfl, _, _, rfl, hr⟩

section Coherent

variable {reached : Nat → Prop} {weight : Nat → Nat} {b : Branch}

lemma Coherent.room (h : t.Coherent stage.scenario reached weight)
    (hb : t.session.branches[i]? = some b) : i < stage.scenario.maxBranches :=
  ((List.getElem?_eq_some_iff.mp hb).1).trans_le h.sound.length_le

lemma performs_operation (hf : Furnished stage.scenario t.session.arena)
    (hi : i < stage.scenario.maxBranches) {operation : Operation BoundValidator}
    (hmem : .operation operation ∈ stage.scenario.steps)
    (hplaces : Session.Places stage.scenario operation.validators)
    (hb : t.session.branches[i]? = some b)
    (hc : t.session.current? stage.scenario i = some (.operation operation)) :
    Performs stage t i := by
  have hissue : t.step stage i = t.issue stage i operation := by
    rw [step, hc]
  cases hr : t.requests.acquire with
  | mk slot requests =>
    cases slot with
    | none =>
      have hfull : t.step stage i =
          (t, .broken (.requestOverflow stage.phase requests.capacity)) := by
        rw [hissue]
        simp only [issue, hr]
      exact .stops hfull (by simp) ⟨rfl, rfl⟩ fun a ha => absurd ha (by simp [hc])
    | some request =>
      rw [issue_eq stage hb operation hr] at hissue
      refine .goes _ hissue ?_ fun var delta ha => absurd ha (by simp [hc])
      rw [hc]
      exact Session.onCursors_made hf hplaces (items_of_operation hmem) hi fun _ _ => .start

theorem Coherent.performs (h : t.Coherent stage.scenario reached weight)
    (hsc : stage.scenario.Sound reached weight) (hy : d.Yields stage.scenario)
    (hf : Furnished stage.scenario t.session.arena) (hb : t.session.branches[i]? = some b) :
    Performs stage t i := by
  have hi := h.room hb
  have hcurrent : t.session.current? stage.scenario i =
      stage.scenario.step? b.sequence b.step := by
    rw [Session.current?, hb]
  cases hs : stage.scenario.step? b.sequence b.step with
  | none =>
    rw [hs] at hcurrent
    refine .quiet (t.finishBranch i) ?_ ?_ ?_ ?_
    · rw [step, hcurrent]
    · rw [finishBranch_eq hb]
    · rw [hcurrent]
      rfl
    · simp [hcurrent]
  | some step =>
    rw [hs] at hcurrent
    have hmem := Session.mem_steps_of_current? hcurrent
    cases step with
    | action a => exact performs_action hy h.owns hf hi hmem hcurrent
    | declare declaration key =>
      obtain ⟨r, hr, -⟩ := hf _ (List.mem_flatMap.mpr ⟨_, hmem, List.mem_cons_self⟩) i hi
      refine .goes ((t.onSession fun s =>
        s.onResource stage.scenario key i fun _ => .unset).onBranch i .proceed) ?_ ?_ ?_
      · rw [step, hcurrent]
      · rw [hcurrent]
        exact .modify hr (fun _ => .unset) rfl
      · exact fun var delta hc => absurd hc (by simp [hcurrent])
    | operation operation =>
      have hplaces := Session.places_of_step hsc hs
      exact performs_operation hf hi hmem hplaces hb hcurrent
    | fork targets =>
      refine .quiet ((t.fork i targets).onBranch i .proceed) ?_ rfl ?_ (by simp [hcurrent])
      · rw [step, hcurrent]
      · rw [hcurrent]
        rfl
    | join =>
      have hwrites : (t.session.current? stage.scenario i).elim []
          (Step.writes stage.scenario i) = [] := by
        rw [hcurrent]
        rfl
      by_cases hpos : t.session.branches[i]?.any fun b => 0 < b.children
      · refine .quiet (t.onBranch i fun b => { b with wait := .join }) ?_ rfl hwrites
          (by simp [hcurrent])
        rw [step, hcurrent]
        exact if_pos hpos
      · refine .quiet (t.onBranch i .proceed) ?_ rfl hwrites (by simp [hcurrent])
        rw [step, hcurrent]
        exact if_neg hpos
    | delay duration =>
      refine .quiet (t.delay stage i duration) ?_ rfl ?_ (by simp [hcurrent])
      · rw [step, hcurrent]
      · rw [hcurrent]
        rfl

end Coherent

end Turn

end LoadEngine
