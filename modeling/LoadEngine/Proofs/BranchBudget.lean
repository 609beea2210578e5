import LoadEngine.Proofs.BranchTree

/-! What is left to a session. A step takes from the effort of the session, so it comes to rest; and
a branch that is forked was reckoned with from the start, so there are never more branches than the
scenario allows for. -/

namespace LoadEngine

def Branch.load (sc : Scenario) (cost : Step Variable → Nat) (last : Nat) (b : Branch) : Nat :=
  match b.wait with
  | .done => 0
  | .runnable => (((sc.stepsOf b.sequence).drop b.step).map cost).sum + last
  | .operation _ _ | .join | .delay _ =>
    (((sc.stepsOf b.sequence).drop (b.step + 1)).map cost).sum + last

def loadOf (sc : Scenario) (cost : Step Variable → Nat) (last : Nat) (l : List Branch) : Nat :=
  (l.map (Branch.load sc cost last)).sum

section Load

variable (sc : Scenario) (cost : Step Variable → Nat) (last : Nat) {l m : List Branch} {i : Nat}
  {b : Branch}

lemma load_of_runnable (hb : b.wait = .runnable) : b.load sc cost last =
    (((sc.stepsOf b.sequence).drop b.step).map cost).sum + last := by
  rw [Branch.load, hb]

lemma sum_drop_of_step {step : Step Variable} (hs : sc.step? b.sequence b.step = some step) :
    (((sc.stepsOf b.sequence).drop b.step).map cost).sum =
      cost step + (((sc.stepsOf b.sequence).drop (b.step + 1)).map cost).sum := by
  rw [Scenario.step?_eq] at hs
  obtain ⟨hlt, hs⟩ := List.getElem?_eq_some_iff.mp hs
  rw [List.drop_eq_getElem_cons hlt, hs, List.map_cons, List.sum_cons]

lemma loadOf_set (h : l[i]? = some b) (b' : Branch) :
    loadOf sc cost last (l.set i b') + b.load sc cost last =
      loadOf sc cost last l + b'.load sc cost last :=
  sum_map_set _ h b'

lemma childDone_load (c : Branch) : c.childDone.load sc cost last = c.load sc cost last := by
  unfold Branch.childDone
  simp only
  split
  · rename_i h
    simp only [Branch.load, Branch.proceed, h.2]
  · rfl

lemma loadOf_modify_childDone (l : List Branch) (p : Nat) :
    loadOf sc cost last (l.modify p .childDone) = loadOf sc cost last l := by
  cases hp : l[p]? with
  | none => rw [List.modify_eq_self (List.getElem?_eq_none_iff.mp hp)]
  | some c =>
    have hset := loadOf_set sc cost last hp c.childDone
    rw [childDone_load] at hset
    rw [modify_eq_set hp]
    omega

lemma loadOf_finished (hb : l[i]? = some b) :
    loadOf sc cost last (finished l i b) + b.load sc cost last = loadOf sc cost last l := by
  have hset := loadOf_set sc cost last hb { b with wait := .done }
  have hzero : ({ b with wait := .done } : Branch).load sc cost last = 0 := rfl
  rw [hzero] at hset
  unfold finished
  simp only
  split
  · exact hset
  · rw [loadOf_modify_childDone]
    exact hset

lemma finished_length (l : List Branch) (i : Nat) (b : Branch) :
    (finished l i b).length = l.length := by
  unfold finished
  simp only
  split <;> simp

lemma loadOf_append (l m : List Branch) :
    loadOf sc cost last (l ++ m) = loadOf sc cost last l + loadOf sc cost last m := by
  simp [loadOf]

lemma loadOf_past (hb : l[i]? = some b) (hrun : b.wait = .runnable) {step : Step Variable}
    (hs : sc.step? b.sequence b.step = some step) {b' : Branch}
    (hpast : b'.load sc cost last =
      (((sc.stepsOf b.sequence).drop (b.step + 1)).map cost).sum + last) :
    loadOf sc cost last (l.set i b') + cost step = loadOf sc cost last l := by
  have hload := load_of_runnable sc cost last hrun
  have hset := loadOf_set sc cost last hb b'
  have hdrop := sum_drop_of_step sc cost hs
  omega

lemma step_of_waits {w : Wait} (hw : Branch.Waits sc { b with wait := w }) (hr : w ≠ .runnable)
    (hd : w ≠ .done) :
    ∃ step, sc.step? b.sequence b.step = some step ∧ step.forks = [] ∧
      ({ b with wait := w } : Branch).load sc cost last =
        (((sc.stepsOf b.sequence).drop (b.step + 1)).map cost).sum + last := by
  cases w with
  | runnable => exact absurd rfl hr
  | done => exact absurd rfl hd
  | operation op request =>
    obtain ⟨operation, hs⟩ := hw
    exact ⟨_, hs, rfl, rfl⟩
  | delay op =>
    obtain ⟨duration, hs⟩ := hw
    exact ⟨_, hs, rfl, rfl⟩
  | join => exact ⟨_, hw.1, rfl, rfl⟩

lemma loadOf_step (hb : l[i]? = some b) (hrun : b.wait = .runnable)
    (hstep : BranchStep sc l i b m) :
    (sc.step? b.sequence b.step = none ∧ loadOf sc cost last m + last = loadOf sc cost last l ∧
        m.length = l.length) ∨
      ∃ step, sc.step? b.sequence b.step = some step ∧
        loadOf sc cost last m + cost step = loadOf sc cost last l +
          loadOf sc cost last (step.forks.map fun id => .new id (some i)) ∧
        m.length = l.length + step.forks.length := by
  cases hstep with
  | pass hs hf hj =>
    refine .inr ⟨_, hs, ?_, by simp [hf]⟩
    rw [hf, loadOf_past sc cost last hb hrun hs (load_of_runnable sc cost last rfl)]
    rfl
  | fork hs =>
    rename_i targets
    refine .inr ⟨_, hs, ?_, by simp [Step.forks]⟩
    have hpast : loadOf sc cost last
        (l.set i { b with children := b.children + targets.length }.proceed) +
          cost (.fork targets) = loadOf sc cost last l :=
      loadOf_past sc cost last hb hrun hs (load_of_runnable sc cost last rfl)
    rw [loadOf_append, Step.forks, List.map_map, Function.comp_def]
    omega
  | hold hw hr hd =>
    obtain ⟨step, hs, hforks, hpast⟩ := step_of_waits sc cost last hw hr hd
    refine .inr ⟨step, hs, ?_, by simp [hforks]⟩
    rw [hforks, loadOf_past sc cost last hb hrun hs hpast]
    rfl
  | finish hs =>
    refine .inl ⟨hs, ?_, finished_length l i b⟩
    have hload := load_of_runnable sc cost last hrun
    have hfinished := loadOf_finished sc cost last hb
    rw [Scenario.step?_eq, List.getElem?_eq_none_iff] at hs
    rw [List.drop_eq_nil_of_le hs, List.map_nil, List.sum_nil] at hload
    omega

end Load

section Effort

variable {sc : Scenario} {reached : Nat → Prop} {weight : Nat → Nat} {l m : List Branch} {i : Nat}
  {b : Branch}

lemma effort_eq_load (sc : Scenario) (b : Branch) : b.effort sc = b.load sc sc.stepEffort 1 := by
  unfold Branch.effort Branch.load
  cases b.wait <;> simp [Scenario.effortFrom_eq]

lemma sum_flatMap {α β : Type} (l : List α) (f : α → List β) (g : β → Nat) :
    ((l.flatMap f).map g).sum = (l.map fun a => ((f a).map g).sum).sum := by
  induction l with
  | nil => rfl
  | cons a rest ih =>
    rw [List.flatMap_cons, List.map_append, List.sum_append, ih, List.map_cons, List.sum_cons]

lemma load_new_effort (hbudget : sc.Budget reached weight) {id : Nat} (hid : reached id)
    (parent : Option Nat) : (Branch.new id parent).load sc sc.stepEffort 1 = sc.effort id := by
  have hsum : ((sc.stepsOf id).map sc.stepEffort).sum =
      (sc.stepsOf id).length + ((sc.forksOf id).map sc.effort).sum := by
    rw [Scenario.forksOf, sum_flatMap]
    induction sc.stepsOf id with
    | nil => rfl
    | cons step rest ih =>
      simp only [List.map_cons, List.sum_cons, List.length_cons, Scenario.stepEffort] at ih ⊢
      omega
  have hload : (Branch.new id parent).load sc sc.stepEffort 1 =
      ((sc.stepsOf id).map sc.stepEffort).sum + 1 := by
    simp [Branch.load, Branch.new]
  rw [hload, hbudget.effort_eq id hid, hsum]
  omega

theorem effort_step (hbudget : sc.Budget reached weight) (htree : Tree sc reached l)
    (hb : l[i]? = some b) (hrun : b.wait = .runnable) (hstep : BranchStep sc l i b m) :
    (m.map (Branch.effort sc)).sum < (l.map (Branch.effort sc)).sum := by
  have hmap : ∀ a : List Branch, (a.map (Branch.effort sc)).sum = loadOf sc sc.stepEffort 1 a := by
    intro a
    unfold loadOf
    congr 1
    exact List.map_congr_left fun c _ => effort_eq_load sc c
  rw [hmap, hmap]
  obtain ⟨-, hload, -⟩ | ⟨step, hs, hload, -⟩ :=
    loadOf_step sc sc.stepEffort 1 hb hrun hstep
  · omega
  · have hforked : loadOf sc sc.stepEffort 1 (step.forks.map fun id => .new id (some i)) =
        (step.forks.map sc.effort).sum := by
      unfold loadOf
      rw [List.map_map]
      congr 1
      apply List.map_congr_left
      intro id hid
      refine load_new_effort hbudget (hbudget.forks b.sequence
        (htree.reached b (List.mem_of_getElem? hb)) id ?_) (some i)
      rw [Scenario.step?_eq] at hs
      exact List.mem_flatMap.mpr ⟨step, List.mem_of_getElem? hs, hid⟩
    rw [hforked, Scenario.stepEffort] at hload
    omega

end Effort

def Step.weight (weight : Nat → Nat) (step : Step Variable) : Nat := (step.forks.map weight).sum

def growth (sc : Scenario) (weight : Nat → Nat) (l : List Branch) : Nat :=
  l.length + loadOf sc (Step.weight weight) 0 l

section Growth

variable {sc : Scenario} {reached : Nat → Prop} {weight : Nat → Nat} {l m : List Branch} {i : Nat}
  {b : Branch}

lemma growth_new (hbudget : sc.Budget reached weight) (ids : List Nat)
    (hids : ∀ id ∈ ids, reached id) (parent : Option Nat) :
    growth sc weight (ids.map fun id => .new id parent) = (ids.map weight).sum := by
  induction ids with
  | nil => rfl
  | cons id rest ih =>
    obtain ⟨hid, hrest⟩ := List.forall_mem_cons.mp hids
    have hload : (Branch.new id parent).load sc (Step.weight weight) 0 =
        ((sc.forksOf id).map weight).sum := by
      rw [Scenario.forksOf, sum_flatMap]
      simp only [Branch.load, Branch.new, List.drop_zero, Nat.add_zero]
      rfl
    have hweight := hbudget.weight_eq id hid
    have hothers := ih hrest
    simp only [growth, loadOf, List.map_cons, List.sum_cons, List.length_cons] at hothers ⊢
    omega

theorem growth_step (hbudget : sc.Budget reached weight) (htree : Tree sc reached l)
    (hb : l[i]? = some b) (hrun : b.wait = .runnable) (hstep : BranchStep sc l i b m) :
    growth sc weight m ≤ growth sc weight l := by
  obtain ⟨-, hload, hlength⟩ | ⟨step, hs, hload, hlength⟩ :=
    loadOf_step sc (Step.weight weight) 0 hb hrun hstep
  · simp only [growth]
    omega
  · have hforked := growth_new hbudget step.forks ?_ (some i)
    · simp only [growth, List.length_map, Step.weight] at hforked hload ⊢
      omega
    · intro id hid
      refine hbudget.forks b.sequence (htree.reached b (List.mem_of_getElem? hb)) id ?_
      rw [Scenario.step?_eq] at hs
      exact List.mem_flatMap.mpr ⟨step, List.mem_of_getElem? hs, hid⟩

end Growth

end LoadEngine
