import LoadEngine.Proofs.EventBudget

/-! A session that runs comes to the end of its turn. The loop over its branches needs no bound on
its steps, for each takes from the effort of the session; and a turn that a timer sets off spends at
least as much effort as it sets timers, none of them before the present. -/

namespace LoadEngine

open Rehearsal (issues schedules)

namespace Turn

/-- The loop over the branches of a session, with no bound on its steps, comes to this. -/
inductive Loop (stage : Stage) : Turn → Turn × Verdict → Prop
  | rests {t : Turn} (hnone : t.session.firstRunnable? = none) : Loop stage t t.rest
  | stops {t : Turn} {i : Nat} {out : Turn × Verdict}
      (hfirst : t.session.firstRunnable? = some i) (hstep : t.step stage i = out)
      (hstopped : out.2 ≠ .alive) : Loop stage t out
  | goes {t t' : Turn} {i : Nat} {out : Turn × Verdict}
      (hfirst : t.session.firstRunnable? = some i) (hstep : t.step stage i = (t', .alive))
      (rest : Loop stage t' out) : Loop stage t out

variable {stage : Stage} {reached : Nat → Prop} {weight : Nat → Nat} {cause : Cause}
  {t t' t₁ : Turn} {i : Nat} {b : Branch} {log : List Stride} {out : Turn × Verdict}

lemma effort_takes (hsc : stage.scenario.Sound reached weight)
    (h : t.Coherent stage.scenario reached weight) (hb : t.session.branches[i]? = some b)
    (hrun : b.wait = .runnable) (ht : Takes stage t i b t') :
    t'.session.effort stage.scenario < t.session.effort stage.scenario := by
  unfold Session.effort
  exact effort_step hsc.budget h.sound.tree hb hrun ht.branchStep

lemma Coherent.loop (hsc : stage.scenario.Sound reached weight) (fuel : Nat)
    (h : t.Coherent stage.scenario reached weight)
    (hfuel : t.session.effort stage.scenario ≤ fuel) : Loop stage t (t.steps stage fuel) := by
  -- on the steps that are left; a runnable branch has effort, so that with none left nothing runs
  induction fuel generalizing t with
  | zero =>
    cases hfirst : t.session.firstRunnable? with
    | none =>
      simp only [steps, hfirst]
      exact .rests hfirst
    | some i =>
      obtain ⟨b, hb, hrun⟩ := firstRunnable?_some hfirst
      have hpos := effort_pos stage.scenario hb hrun
      omega
  | succ fuel ih =>
    cases hfirst : t.session.firstRunnable? with
    | none =>
      rw [steps]
      simp only [hfirst]
      exact .rests hfirst
    | some i =>
      obtain ⟨b, hb, hrun⟩ := firstRunnable?_some hfirst
      have hstepped := step_stepped (h.ready hsc hb hrun)
      rw [steps]
      simp only [hfirst]
      generalize hout : t.step stage i = out at hstepped
      cases hstepped with
      | alive ht =>
        have heffort := effort_takes hsc h hb hrun ht
        exact .goes hfirst hout (ih (h.takes hsc hb hrun ht) (by omega))
      | failed =>
        obtain ⟨t', hclose, -⟩ := h.owns.close .failed
        rw [hclose] at hout ⊢
        exact .stops hfirst hout (by simp)
      | full hfull => exact .stops hfirst hout (by simp)

/-- What a cause comes to: the session runs from the turn that was told, and its loop ends; or no
branch takes a step. -/
inductive Comes (stage : Stage) (t : Turn) : Option Turn → Turn × Verdict → Prop
  | runs {t₁ : Turn} {out : Turn × Verdict} (h : Loop stage t₁.running out) :
      Comes stage t (some t₁) out
  | still {out : Turn × Verdict} (h : Still t out.1) : Comes stage t none out

/-- Whatever comes for a session, its turn comes to an end. -/
theorem Coherent.comes (hsc : stage.scenario.Sound reached weight)
    (h : t.Coherent stage.scenario reached weight)
    (hvacant : cause = .start → t.session.branches = []) :
    Comes stage t (cause.begun? stage t) (cause.act stage t) := by
  have hsets := act_sets stage t cause
  generalize hbegun : cause.begun? stage t = begun at hsets
  generalize cause.act stage t = out at hsets
  cases hsets with
  | runs => exact .runs ((h.begun hsc hvacant hbegun).loop hsc _ (Nat.le_refl _))
  | still hstill => exact .still hstill

structure Spends (stage : Stage) (effort : Nat) (timers : List Timer) (left : Nat) : Prop where
  spent : timers.length + left ≤ effort
  due : ∀ timer ∈ timers, stage.now ≤ timer.due

lemma Spends.takes {effort : Nat} (hsc : stage.scenario.Sound reached weight)
    (h : t.Coherent stage.scenario reached weight) (hb : t.session.branches[i]? = some b)
    (hrun : b.wait = .runnable) (ht : Takes stage t i b t')
    (hs : Spends stage effort (schedules t.effects) (t.session.effort stage.scenario)) :
    Spends stage effort (schedules t'.effects) (t'.session.effort stage.scenario) := by
  obtain ⟨hspent, hdue⟩ := hs
  have heffort := effort_takes hsc h hb hrun ht
  obtain ⟨more, hmore, hlength, hlater⟩ : ∃ more,
      schedules t'.effects = schedules t.effects ++ more ∧ more.length ≤ 1 ∧
        ∀ timer ∈ more, stage.now ≤ timer.due := by
    cases ht with
    | move hs hq hw => exact ⟨[], (List.append_nil _).symm, Nat.zero_le _, nofun⟩
    | issue hs hr =>
      refine ⟨_, schedules_append _ _, Nat.le_refl _, fun timer htimer => ?_⟩
      rw [List.mem_singleton.mp htimer]
      exact Nat.le_add_right _ _
    | rest hs =>
      refine ⟨_, schedules_append _ _, Nat.le_refl _, fun timer htimer => ?_⟩
      rw [List.mem_singleton.mp htimer]
      exact Nat.le_add_right _ _
  rw [hmore]
  refine ⟨?_, ?_⟩
  · rw [List.length_append]
    omega
  · exact List.forall_mem_append.mpr ⟨hdue, hlater⟩

lemma run_spends {effort : Nat} (hsc : stage.scenario.Sound reached weight)
    (h : t.running.Coherent stage.scenario reached weight)
    (hs : Spends stage effort (schedules t.effects) (t.session.effort stage.scenario)) :
    Spends stage effort (schedules (t.run stage).1.effects)
      (((t.run stage).2.leaves stage.scenario (t.run stage).1.session).effort
        stage.scenario) := by
  have hrests : Rests stage (fun t' => t'.Coherent stage.scenario reached weight ∧
      Spends stage effort (schedules t'.effects) (t'.session.effort stage.scenario))
      (t.run stage) := by
    refine run_rests hsc (fun _ h => h.1) ?_ ⟨h, hs⟩
    rintro t₁ t₂ i b ⟨hcoherent, hspends⟩ hb hrun ht
    exact ⟨hcoherent.takes hsc hb hrun ht, hspends.takes hsc hcoherent hb hrun ht⟩
  have hcloses : ∀ {t' : Turn} (how : SessionEnd), t'.Coherent stage.scenario reached weight →
      Spends stage effort (schedules t'.effects) (t'.session.effort stage.scenario) →
      Spends stage effort (schedules (t'.close how).1.effects)
        (((t'.close how).2.leaves stage.scenario (t'.close how).1.session).effort
          stage.scenario) := by
    intro t' how hcoherent hspends
    obtain ⟨t'', hclose, hclosed⟩ := hcoherent.owns.close how
    rw [hclose]
    simp only [hclosed.effects]
    exact ⟨(Nat.le_add_right _ _).trans hspends.spent, hspends.due⟩
  generalize t.run stage = out at hrests
  cases hrests with
  | waits hP hnone hlive => exact hP.2
  | completes hP hdone => exact hcloses .completed hP.1 hP.2
  | fails hP => exact hcloses .failed hP.1 hP.2
  | full hP hb hrun hfull => exact hP.2

lemma effort_proceed (sc : Scenario) {s s' : Session} {a : Await} (hb : s.branches[i]? = some b)
    (ha : b.await? = some a) (hset : s'.branches = s.branches.set i b.proceed) :
    s'.effort sc = s.effort sc := by
  have hsum := sum_map_set (Branch.effort sc) hb b.proceed
  rw [effort_eq_load, effort_eq_load, Session.load_of_await ha] at hsum
  simp only [Session.effort, hset]
  omega

variable (stage) in
theorem Coherent.spends (hsc : stage.scenario.Sound reached weight)
    (h : t.Coherent stage.scenario reached weight) (hw : t.session.Logged stage.scenario log)
    (hstart : cause ≠ .start) (heffects : t.effects = []) :
    Spends stage (t.session.effort stage.scenario) (schedules (cause.act stage t).1.effects)
      (((cause.act stage t).2.leaves stage.scenario (cause.act stage t).1.session).effort
        stage.scenario) := by
  cases hbegun : cause.begun? stage t with
  | none =>
    have hhalts := h.halts hbegun
    generalize cause.act stage t = out at hhalts
    cases hhalts with
    | @stays arena verdict ha hgoes =>
      rw [heffects]
      refine ⟨?_, nofun⟩
      cases verdict with
      | ended how => exact absurd rfl (hgoes how)
      | alive | broken => exact (Nat.zero_add _).le
    | closes hhow hseq hsame =>
      simp only [hsame, heffects]
      exact ⟨Nat.zero_le _, nofun⟩
  | some t₁ =>
    have hvacant : cause = .start → t.session.branches = [] := fun hf => absurd hf hstart
    have he : t.session.expects stage.scenario cause = true := by
      by_contra hf
      rw [begun?_of_unexpected hstart (Bool.eq_false_iff.mpr hf)] at hbegun
      cases hbegun
    have hanswers := h.answers he
    have hsets := act_sets stage t cause
    rw [hbegun] at hanswers hsets
    generalize cause.act stage t = out at hanswers hsets
    cases hanswers with
    | proceeds hb ha hset =>
      cases hsets with
      | runs =>
        refine run_spends hsc (h.begun hsc hvacant hbegun) ?_
        rw [(begun_walked hw hvacant hbegun).2, heffects, effort_proceed stage.scenario hb ha hset]
        exact ⟨(Nat.zero_add _).le, nofun⟩

end Turn

end LoadEngine
