import LoadEngine.Proofs.SchedulerRound
import Mathlib.Data.List.Forall2
import Mathlib.Logic.Relation

/-! The order in which phases go through their lives. Whatever the controller does, it takes a phase
by one of a few passages, and none of them goes back. A phase starts when those that it needs are
far enough, and they stay so; and unless it is made to end, it comes to its end behind those it has
to wait for. -/

namespace LoadEngine

namespace PhaseRun

variable {p p' : PhaseRun} {now : Nanos}

lemma finishIfDone_status_cases (h : p.status = .running) (now : Nanos) :
    (p.finishIfDone now).status = .running ∨ (p.finishIfDone now).status = .finished := by
  rcases p.finishIfDone_eq now with he | ⟨-, -, he⟩
  · rw [he]
    exact .inl h
  · rw [he]
    exact .inr rfl

lemma start_status {starts : Starts} (h : p.start now = .ok (p', starts)) :
    p.status = .notStarted ∧ (p'.status = .running ∨ p'.status = .finished) ∧
      p'.startedAt = some now ∧ p'.phase = p.phase := by
  obtain ⟨hstatus, rfl, -⟩ := start_eq_ok h
  obtain ⟨n, m, hi⟩ := issue_eq { p with startedAt := some now, status := .running } p.initialStarts
  refine ⟨hstatus, finishIfDone_status_cases ?_ now, ?_, ?_⟩
  · rw [hi]
  · rw [finishIfDone_startedAt, hi]
  · rw [finishIfDone_phase, hi]

lemma react_status (p : PhaseRun) (now : Nanos) (what : Stimulus) :
    (p.react now what).1.status = p.status ∨
      p.status = .running ∧ (p.react now what).1.status = .finished := by
  by_cases h : p.status = .running
  · rw [h]
    by_cases hlooks : what.looksAtClock = true
    · obtain ⟨q, hq, hstatus, -⟩ := react_eq_finishIfDone h hlooks now
      rw [hq]
      exact (finishIfDone_status_cases hstatus now).imp_right fun hf => ⟨rfl, hf⟩
    · cases what with
      | tick | ended => exact absurd rfl hlooks
      | started => exact .inl h
  · cases what with
    | tick => exact .inl (by rw [react, tick, if_neg h])
    | started started blocked => exact .inl rfl
    | ended shard how => exact .inl (by rw [react, onEnded, if_neg h])

lemma beginTermination_cases (p : PhaseRun) (now : Nanos) :
    (p.beginTermination now).1.phase = p.phase ∧
      (p.beginTermination now).1.startedAt = p.startedAt ∧
      ((p.beginTermination now).1.status = p.status ∨
        p.status = .notStarted ∧ (p.beginTermination now).1.status = .terminated ∨
        (p.status = .running ∨ p.status = .finished) ∧
          (p.beginTermination now).1.status = .terminating) := by
  unfold beginTermination
  cases hs : p.status with
  | notStarted => exact ⟨rfl, rfl, .inr (.inl ⟨rfl, rfl⟩)⟩
  | running => exact ⟨rfl, rfl, .inr (.inr ⟨.inl rfl, rfl⟩)⟩
  | finished => exact ⟨rfl, rfl, .inr (.inr ⟨.inr rfl, rfl⟩)⟩
  | terminating | terminated => exact ⟨rfl, rfl, .inl hs⟩

lemma beginTermination_rank (p : PhaseRun) (now : Nanos) :
    PhaseStatus.terminating.rank ≤ (p.beginTermination now).1.status.rank := by
  unfold beginTermination
  cases hs : p.status with
  | notStarted => exact Nat.le_succ 3
  | running | finished => exact Nat.le_refl 3
  | terminating | terminated =>
    simp only [hs]
    decide

end PhaseRun

namespace Controller

/-- What becomes of a phase at once. Only one that is made to end skips what lies in between. -/
inductive Passage (c : Controller) (forced : Prop) (p p' : PhaseRun) : Prop
  | stays : p'.status = p.status → p'.startedAt = p.startedAt → Passage c forced p p'
  | starts : p.status = .notStarted → c.mayStart p = true →
    p'.status = .running ∨ p'.status = .finished → p'.startedAt.isSome = true →
    Passage c forced p p'
  | finishes : p.status = .running → p'.status = .finished → p'.startedAt = p.startedAt →
    Passage c forced p p'
  | ends : p.status = .finished → c.mayEnd p = true → p'.status = .terminated →
    p'.startedAt = p.startedAt → Passage c forced p p'
  | yields : forced →
    p.status = .notStarted ∧ p'.status = .terminated ∨
      (p.status = .running ∨ p.status = .finished) ∧ p'.status = .terminating →
    p'.startedAt = p.startedAt → Passage c forced p p'
  | settles : p.status = .terminating → p'.status = .terminated → p'.startedAt = p.startedAt →
    Passage c forced p p'

/-- What the controller does at once. Some phases may be made to end. -/
structure Step (forced : Controller → Nat → Prop) (c c' : Controller) : Prop where
  length : c'.phases.length = c.phases.length
  phases : ∀ (i : Nat) (p : PhaseRun), c.phases[i]? = some p →
    ∃ p', c'.phases[i]? = some p' ∧ p'.phase = p.phase ∧ c.Passage (forced c i) p p'

variable {c c' : Controller} {forced forced' : Controller → Nat → Prop} {index : Nat}
  {p p' : PhaseRun} {now : Nanos}

lemma Passage.forward {h : Prop} (hp : c.Passage h p p') : p.status.rank ≤ p'.status.rank := by
  cases hp with
  | stays hstatus => rw [hstatus]
  | starts hold _ hnew =>
    rw [hold]
    exact Nat.zero_le _
  | finishes hold hnew => rw [hold, hnew]; decide
  | ends hold _ hnew => rw [hold, hnew]; decide
  | yields _ h =>
    obtain ⟨hold, hnew⟩ | ⟨hold | hold, hnew⟩ := h <;> rw [hold, hnew] <;> decide
  | settles hold hnew => rw [hold, hnew]; decide

lemma Passage.of_terminated {h : Prop} (hp : c.Passage h p p') (hterm : p.status = .terminated) :
    p'.status = .terminated ∧ p'.startedAt = p.startedAt := by
  cases hp with
  | stays hstatus hstarted => exact ⟨hstatus.trans hterm, hstarted⟩
  | starts hold => exact absurd (hold.symm.trans hterm) (by decide)
  | finishes hold => exact absurd (hold.symm.trans hterm) (by decide)
  | ends hold => exact absurd (hold.symm.trans hterm) (by decide)
  | yields _ hcut =>
    rw [hterm] at hcut
    exact absurd hcut (by simp)
  | settles hold => exact absurd (hold.symm.trans hterm) (by decide)

lemma Passage.mono {h h' : Prop} (himp : h → h') (hp : c.Passage h p p') : c.Passage h' p p' := by
  cases hp with
  | stays hstatus hstarted => exact .stays hstatus hstarted
  | starts hold hmay hnew hstarted => exact .starts hold hmay hnew hstarted
  | finishes hold hnew hstarted => exact .finishes hold hnew hstarted
  | ends hold hmay hnew hstarted => exact .ends hold hmay hnew hstarted
  | yields hforced hstatus hstarted => exact .yields (himp hforced) hstatus hstarted
  | settles hold hnew hstarted => exact .settles hold hnew hstarted

lemma Step.mono (himp : ∀ c i, forced c i → forced' c i) (h : Step forced c c') :
    Step forced' c c' := by
  refine ⟨h.length, fun i p hp => ?_⟩
  obtain ⟨p', hp', hphase, hpassage⟩ := h.phases i p hp
  exact ⟨p', hp', hphase, hpassage.mono (himp c i)⟩

lemma Step.forward (h : Step forced c c') : Forward c c' := by
  refine ⟨h.length, fun i p hp => ?_⟩
  obtain ⟨p', hp', -, hpassage⟩ := h.phases i p hp
  exact ⟨p', hp', hpassage.forward⟩

lemma Step.of_phases_eq (h : c'.phases = c.phases) : Step forced c c' :=
  ⟨congrArg List.length h, fun _ p hp => ⟨p, h ▸ hp, rfl, .stays rfl rfl⟩⟩

lemma Step.of_set (hp : c.phases[index]? = some p) (hc : c'.phases = c.phases.set index p')
    (hphase : p'.phase = p.phase) (h : c.Passage (forced c index) p p') : Step forced c c' := by
  refine ⟨by rw [hc, List.length_set], fun i q hq => ?_⟩
  rw [hc, List.getElem?_set]
  by_cases hi : index = i
  · subst hi
    rw [hp, Option.some.injEq] at hq
    subst hq
    rw [if_pos rfl, if_pos (List.getElem?_eq_some_iff.mp hp).1]
    exact ⟨p', rfl, hphase, h⟩
  · rw [if_neg hi]
    exact ⟨q, hq, rfl, .stays rfl rfl⟩

lemma react_step (hp : c.phases[index]? = some p) (now : Nanos) (what : PhaseRun.Stimulus)
    (hc : c'.phases = c.phases.set index (p.react now what).1) : Step forced c c' := by
  obtain ⟨hphase, hstarted, -⟩ := p.react_kept now what
  refine .of_set hp hc hphase ?_
  rcases p.react_status now what with hsame | ⟨hold, hnew⟩
  · exact .stays hsame hstarted
  · exact .finishes hold hnew hstarted

lemma onNotice_step (c : Controller) (now : Nanos) (notice : Notice) :
    Step forced c (c.onNotice now notice).1 := by
  cases notice with
  | started index shard started blocked =>
    cases hp : c.phases[index]? with
    | none => exact .of_phases_eq (by simp only [onNotice, hp])
    | some p =>
      refine react_step hp now (.started started blocked) ?_
      simp only [onNotice, hp]
      rfl
  | ended index shard how =>
    cases hp : c.phases[index]? with
    | none => exact .of_phases_eq (by simp only [onNotice, hp])
    | some p =>
      refine react_step hp now (.ended shard how) ?_
      simp only [onNotice, hp]
      rfl
  | fault shard cause => exact .of_phases_eq rfl

lemma start_step (hp : c.phases[index]? = some p) (hmay : c.mayStart p = true) (now : Nanos) :
    Step forced c (c.start index now).1 := by
  have hbegin : (c.begin now).phases[index]? = some p := hp
  simp only [start, hbegin]
  cases hs : p.start now with
  | error e => exact .of_phases_eq rfl
  | ok r =>
    obtain ⟨p', starts⟩ := r
    obtain ⟨hold, hnew, hstarted, hphase⟩ := PhaseRun.start_status hs
    exact .of_set hp rfl hphase (.starts hold hmay hnew (by rw [hstarted]; rfl))

lemma startOnDemand_step (c : Controller) (index : Nat) (now : Nanos) :
    Step forced c (c.startOnDemand index now).1 := by
  unfold startOnDemand
  cases hp : c.phases[index]? with
  | none => exact .of_phases_eq rfl
  | some p =>
    simp only
    split
    · rename_i hmay
      exact start_step hp hmay now
    · exact .of_phases_eq rfl

lemma startOnDemand_refused {e : EngineError}
    (h : (c.startOnDemand index now).2 = .error e) :
    (c.startOnDemand index now).1.phases = c.phases := by
  unfold startOnDemand at h ⊢
  split
  · rfl
  · rename_i p hp
    simp only [hp] at h
    split
    · rename_i hmay
      rw [if_pos hmay] at h
      have hbegin : (c.begin now).phases[index]? = some p := hp
      simp only [start, hbegin] at h ⊢
      split at h
      · cases h
      · rfl
    · rfl

lemma advance_step (c : Controller) (index : Nat) (now : Nanos) :
    Step forced c (c.advance index now).1 := by
  unfold advance
  cases hp : c.phases[index]? with
  | none => exact .of_phases_eq rfl
  | some p =>
    cases hs : p.status with
    | notStarted =>
      simp only [hs]
      split
      · rename_i hmay
        exact start_step hp (Bool.and_eq_true_iff.mp hmay).2 now
      · exact .of_phases_eq rfl
    | running =>
      simp only [hs]
      exact react_step hp now .tick rfl
    | finished | terminating | terminated =>
      simp only [hs]
      exact .of_phases_eq rfl

lemma finish_step (c : Controller) (index : Nat) (now : Nanos) :
    Step forced c (c.finish index now).1 := by
  unfold finish
  cases hp : c.phases[index]? with
  | none => exact .of_phases_eq rfl
  | some p =>
    simp only
    cases hf : p.finish now with
    | error e => exact .of_phases_eq rfl
    | ok p' =>
      obtain rfl | ⟨hold, rfl⟩ := PhaseRun.finish_eq_ok hf
      · exact .of_set hp rfl rfl (.stays rfl rfl)
      · exact .of_set hp rfl rfl (.finishes hold rfl rfl)

lemma terminate_step (h : forced c index) (now : Nanos) :
    Step forced c (c.terminate index now).1 := by
  unfold terminate
  cases hp : c.phases[index]? with
  | none => exact .of_phases_eq rfl
  | some p =>
    obtain ⟨hphase, hstarted, hsame | hcut⟩ := p.beginTermination_cases now
    · exact .of_set hp rfl hphase (.stays hsame hstarted)
    · exact .of_set hp rfl hphase (.yields h hcut hstarted)

lemma terminate_length (c : Controller) :
    (c.terminate index now).1.phases.length = c.phases.length := by
  unfold terminate
  split
  · rfl
  · exact List.length_set

lemma Forward.terminating (h : Forward (c.terminate index now).1 c')
    (hopen : c'.isTerminated index = false) (hp' : c'.phases[index]? = some p') :
    p'.status = .terminating := by
  have hlt : index < c.phases.length := by
    rw [← c.terminate_length, ← h.1]
    exact (List.getElem?_eq_some_iff.mp hp').1
  have hp := List.getElem?_eq_getElem hlt
  have hnew : (c.terminate index now).1.phases[index]? =
      some (c.phases[index].beginTermination now).1 := by
    simp only [terminate, hp]
    exact List.getElem?_set_self hlt
  obtain ⟨p'', hp'', hle⟩ := h.2 index _ hnew
  rw [hp', Option.some.injEq] at hp''
  subst hp''
  have hrank := (PhaseRun.beginTermination_rank _ now).trans hle
  have hne : p'.status ≠ .terminated := by
    simpa [isTerminated, hp'] using hopen
  cases hs : p'.status with
  | notStarted | running | finished =>
    rw [hs] at hrank
    exact absurd hrank (by decide)
  | terminating => rfl
  | terminated => exact absurd hs hne

lemma complete_step (hready : c.isReady index = true) (snapshot : PhaseSnapshot) :
    Step forced c (c.complete index snapshot) := by
  unfold complete
  cases hp : c.phases[index]? with
  | none => exact .of_phases_eq rfl
  | some p =>
    refine .of_set hp rfl rfl ?_
    simp only [isReady, hp, Option.any_some, PhaseRun.canTerminate, Bool.and_eq_true,
      Bool.or_eq_true, beq_iff_eq, bne_iff_ne] at hready
    obtain ⟨⟨hold | hold, -⟩, hmay⟩ := hready
    · exact .ends hold (hmay.resolve_left fun hne => hne hold) rfl rfl
    · exact .settles hold rfl rfl

lemma close_step (hold : ∀ p, c.phases[index]? = some p → p.status = .terminating)
    (snapshot : PhaseSnapshot) : Step forced c (c.complete index snapshot) := by
  unfold complete
  cases hp : c.phases[index]? with
  | none => exact .of_phases_eq rfl
  | some p => exact .of_set hp rfl rfl (.settles (hold p hp) rfl rfl)

lemma Step.forall₂ (h : Step forced c c') : List.Forall₂
    (fun p p' => p'.phase = p.phase ∧ p.status.rank ≤ p'.status.rank) c.phases c'.phases := by
  refine List.forall₂_iff_get.mpr ⟨h.length.symm, fun i hi hi' => ?_⟩
  obtain ⟨p', hp', hphase, hpassage⟩ := h.phases i _ (List.getElem?_eq_getElem hi)
  rw [List.getElem?_eq_getElem hi', Option.some.injEq] at hp'
  rw [List.get_eq_getElem, List.get_eq_getElem, hp']
  exact ⟨hphase, hpassage.forward⟩

lemma runs_of_forall₂ {phases phases' : List PhaseRun}
    (h : List.Forall₂ (fun p p' => p'.phase = p.phase ∧ p.status.rank ≤ p'.status.rank)
      phases phases') : phases'.map PhaseRun.phase = phases.map PhaseRun.phase := by
  induction h with
  | nil => rfl
  | cons hp _ ih => exact congrArg₂ List.cons hp.1 ih

lemma find?_forward {phases phases' : List PhaseRun}
    (h : List.Forall₂ (fun p p' => p'.phase = p.phase ∧ p.status.rank ≤ p'.status.rank)
      phases phases') {name : String} (hp : phases.find? (fun p => p.name == name) = some p) :
    ∃ p', phases'.find? (fun p => p.name == name) = some p' ∧
      p.status.rank ≤ p'.status.rank := by
  induction h with
  | nil => cases hp
  | @cons q q' rest rest' hq _ ih =>
    have hname : q'.name = q.name := congrArg Phase.name hq.1
    rw [List.find?_cons] at hp ⊢
    rw [hname]
    split at hp
    · cases hp
      exact ⟨q', rfl, hq.2⟩
    · exact ih hp

lemma isFinished_of_rank {a b : PhaseStatus} (hle : a.rank ≤ b.rank) (h : a.isFinished = true) :
    b.isFinished = true := by
  cases a <;> cases b <;> simp_all [PhaseStatus.isFinished, PhaseStatus.rank]

lemma terminated_of_rank {a b : PhaseStatus} (hle : a.rank ≤ b.rank) (h : a = .terminated) :
    b = .terminated := by
  subst h
  cases b <;> simp_all [PhaseStatus.rank]

lemma Step.progressed (h : Step forced c c') {d : Dependency} (hd : c.progressed d = true) :
    c'.progressed d = true := by
  unfold Controller.progressed at hd ⊢
  cases hp : c.phases.find? fun p => p.name == d.phase with
  | none =>
    rw [hp] at hd
    cases hd
  | some p =>
    obtain ⟨p', hp', hle⟩ := find?_forward h.forall₂ hp
    rw [hp] at hd
    rw [hp']
    cases hprogress : d.progress with
    | finished =>
      simp only [hprogress] at hd ⊢
      exact isFinished_of_rank hle hd
    | terminated =>
      simp only [hprogress, beq_iff_eq] at hd ⊢
      exact terminated_of_rank hle hd

lemma Step.mayStart (h : Step forced c c') (hphase : p'.phase = p.phase)
    (hp : c.mayStart p = true) : c'.mayStart p' = true := by
  rw [Controller.mayStart, List.all_eq_true] at hp ⊢
  rw [hphase]
  exact fun d hd => h.progressed (hp d hd)

structure Ordered (c : Controller) : Prop where
  started : ∀ p ∈ c.phases, p.startedAt.isSome = true → c.mayStart p = true
  unstarted : ∀ p ∈ c.phases, p.startedAt = none →
    p.status = .notStarted ∨ p.status = .terminated

lemma Step.back (h : Step forced c c') (hp' : p' ∈ c'.phases) :
    ∃ (i : Nat) (p : PhaseRun), p ∈ c.phases ∧ p'.phase = p.phase ∧
      c.Passage (forced c i) p p' := by
  obtain ⟨i, hi, rfl⟩ := List.mem_iff_getElem.mp hp'
  rw [h.length] at hi
  obtain ⟨p'', hp'', hphase, hpassage⟩ := h.phases i _ (List.getElem?_eq_getElem hi)
  rw [List.getElem?_eq_getElem (h.length ▸ hi), Option.some.injEq] at hp''
  exact ⟨i, _, List.getElem_mem hi, hp'' ▸ hphase, hp'' ▸ hpassage⟩

lemma Step.ordered (h : Step forced c c') (hc : c.Ordered) : c'.Ordered := by
  constructor
  · intro p' hp' hsome
    obtain ⟨i, p, hp, hphase, hpassage⟩ := h.back hp'
    have hkept (hstarted : p'.startedAt = p.startedAt) : c'.mayStart p' = true :=
      h.mayStart hphase (hc.started p hp (hstarted ▸ hsome))
    cases hpassage with
    | starts _ hmay => exact h.mayStart hphase hmay
    | stays _ hstarted => exact hkept hstarted
    | finishes _ _ hstarted => exact hkept hstarted
    | ends _ _ _ hstarted => exact hkept hstarted
    | yields _ _ hstarted => exact hkept hstarted
    | settles _ _ hstarted => exact hkept hstarted
  · intro p' hp' hnone
    obtain ⟨i, p, hp, -, hpassage⟩ := h.back hp'
    have hbefore (hstarted : p'.startedAt = p.startedAt) :
        p.status = .notStarted ∨ p.status = .terminated := hc.unstarted p hp (hstarted ▸ hnone)
    cases hpassage with
    | stays hsame hstarted =>
      rw [hsame]
      exact hbefore hstarted
    | starts _ _ _ hsome =>
      rw [hnone] at hsome
      cases hsome
    | finishes hold _ hstarted =>
      have hbefore := hbefore hstarted
      rw [hold] at hbefore
      exact absurd hbefore (by decide)
    | ends _ _ hnew => exact .inr hnew
    | settles _ hnew => exact .inr hnew
    | yields _ hcut hstarted =>
      rcases hcut with ⟨-, hnew⟩ | ⟨hold, -⟩
      · exact .inr hnew
      · have hbefore := hbefore hstarted
        rcases hold with hold | hold
        · rw [hold] at hbefore
          exact absurd hbefore (by decide)
        · rw [hold] at hbefore
          exact absurd hbefore (by decide)

abbrev Steps (forced : Controller → Nat → Prop) : Controller → Controller → Prop :=
  Relation.ReflTransGen (Step forced)

lemma Steps.mono (himp : ∀ c i, forced c i → forced' c i) (h : Steps forced c c') :
    Steps forced' c c' :=
  Relation.ReflTransGen.mono (fun _ _ => Step.mono himp) _ _ h

lemma Steps.keeps {P : Controller → Prop} (hstep : ∀ c c', Step forced c c' → P c → P c')
    (h : Steps forced c c') (hc : P c) : P c' := by
  induction h with
  | refl => exact hc
  | tail _ hlast ih => exact hstep _ _ hlast ih

lemma Steps.forward (h : Steps forced c c') : Forward c c' :=
  h.keeps (fun _ _ hstep hc => hc.trans hstep.forward) (.refl c)

lemma Steps.runs (h : Steps forced c c') :
    c'.phases.map PhaseRun.phase = c.phases.map PhaseRun.phase :=
  h.keeps (fun _ _ hstep hc => (runs_of_forall₂ hstep.forall₂).trans hc) rfl

lemma Steps.ordered (h : Steps forced c c') (hc : c.Ordered) : c'.Ordered :=
  h.keeps (fun _ _ hstep => hstep.ordered) hc

/-- A phase of the name that a dependency gives has come as far as the dependency demands. -/
def Meets (c : Controller) (d : Dependency) : Prop :=
  ∃ q ∈ c.phases, q.name = d.phase ∧
    match d.progress with
    | .terminated => q.status = .terminated
    | .finished => q.status = .finished ∨ q.status = .terminating ∨ q.status = .terminated

lemma meets_of_progressed {d : Dependency} (h : c.progressed d = true) : c.Meets d := by
  unfold progressed at h
  cases hq : c.phases.find? fun p => p.name == d.phase with
  | none =>
    rw [hq] at h
    cases h
  | some q =>
    rw [hq] at h
    refine ⟨q, List.mem_of_find?_eq_some hq, by simpa using List.find?_some hq, ?_⟩
    cases hd : d.progress with
    | terminated => simpa [hd] using h
    | finished =>
      simp only [hd] at h ⊢
      cases hs : q.status <;> simp_all [PhaseStatus.isFinished]

/-- Every phase in the list of those that a phase has to wait for with its end has come to its
own. -/
def EndsAfter (c : Controller) (p : PhaseRun) : Prop :=
  ∀ name ∈ p.phase.terminateAfter, ∃ q ∈ c.phases, q.name = name ∧ q.status = .terminated

lemma endsAfter_of_mayEnd (h : c.mayEnd p = true) : c.EndsAfter p := by
  intro name hname
  have hany := List.all_eq_true.mp h name hname
  obtain ⟨q, hq, hqs⟩ := List.any_eq_true.mp hany
  rw [Bool.and_eq_true, beq_iff_eq, beq_iff_eq] at hqs
  exact ⟨q, hq, hqs⟩

lemma Step.endsAfter (h : Step forced c c') (hphase : p'.phase = p.phase) (hp : c.EndsAfter p) :
    c'.EndsAfter p' := by
  intro name hname
  obtain ⟨q, hq, hqname, hqstatus⟩ := hp name (hphase ▸ hname)
  obtain ⟨i, hi, rfl⟩ := List.mem_iff_getElem.mp hq
  obtain ⟨q', hq', hqphase, hpassage⟩ := h.phases i _ (List.getElem?_eq_getElem hi)
  exact ⟨q', List.mem_of_getElem? hq', (congrArg Phase.name hqphase).trans hqname,
    terminated_of_rank hpassage.forward hqstatus⟩

lemma Steps.waited (h : Steps forced c c') (hp : c.phases[index]? = some p)
    (hfinished : p.status = .finished)
    (hfree : ∀ c₁ p₁, c₁.phases[index]? = some p₁ → p₁.phase = p.phase →
      p₁.startedAt = p.startedAt → p₁.status = .finished → ¬ forced c₁ index) :
    ∃ p', c'.phases[index]? = some p' ∧ p'.phase = p.phase ∧ p'.startedAt = p.startedAt ∧
      (p'.status = .finished ∨ p'.status = .terminated ∧ c'.EndsAfter p') := by
  induction h with
  | refl => exact ⟨p, hp, rfl, rfl, .inl hfinished⟩
  | @tail c₁ c₂ _ hlast ih =>
    obtain ⟨p₁, hp₁, hphase₁, hstarted₁, hstatus₁⟩ := ih
    obtain ⟨p₂, hp₂, hphase₂, hpassage⟩ := hlast.phases index p₁ hp₁
    have hphase := hphase₂.trans hphase₁
    have hsame (h : c₁.EndsAfter p₁) : c₂.EndsAfter p₂ := hlast.endsAfter hphase₂ h
    rcases hstatus₁ with hfin | ⟨hterm, hafter⟩
    · cases hpassage with
      | stays hstatus hstarted =>
        exact ⟨p₂, hp₂, hphase, hstarted.trans hstarted₁, .inl (hstatus.trans hfin)⟩
      | ends _ hmay hnew hstarted =>
        exact ⟨p₂, hp₂, hphase, hstarted.trans hstarted₁,
          .inr ⟨hnew, hsame (endsAfter_of_mayEnd hmay)⟩⟩
      | yields hforced => exact absurd hforced (hfree c₁ p₁ hp₁ hphase₁ hstarted₁ hfin)
      | starts hold => exact absurd (hold.symm.trans hfin) (by decide)
      | finishes hold => exact absurd (hold.symm.trans hfin) (by decide)
      | settles hold => exact absurd (hold.symm.trans hfin) (by decide)
    · obtain ⟨hstatus, hstarted⟩ := hpassage.of_terminated hterm
      exact ⟨p₂, hp₂, hphase, hstarted.trans hstarted₁, .inr ⟨hstatus, hsame hafter⟩⟩

end Controller

end LoadEngine
