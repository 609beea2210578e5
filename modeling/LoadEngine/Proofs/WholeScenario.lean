import LoadEngine.Proofs.SessionRuns
import LoadEngine.Proofs.ShardDeeds
import LoadEngine.Proofs.StepLog

/-! A session does its scenario, no more and no less, in whatever order things come for it. At any
time its branches have taken some first steps of their sequences; and when it completes they are the
nodes of the unfolding, and what it has issued are the operations that the unfolding has. -/

namespace LoadEngine

open Rehearsal (issues)

namespace Turn

variable {stage : Stage} {reached : Nat → Prop} {weight : Nat → Nat} {cause : Cause} {t t₁ : Turn}
  {log : List Stride}

inductive Halts (stage : Stage) (t : Turn) : Turn × Verdict → Prop
  | stays {arena : List Resource} {verdict : Verdict} (ha : Typed stage.scenario arena)
      (hgoes : ∀ how, verdict ≠ .ended how) :
      Halts stage t ({ t with session := { t.session with arena } }, verdict)
  | closes {t' : Turn} {how : SessionEnd} (hhow : how ≠ .completed)
      (hseq : t'.session.branches.map Branch.sequence = t.session.branches.map Branch.sequence)
      (heffects : t'.effects = t.effects) : Halts stage t (t', .ended how)

lemma Owns.ends {t' : Turn} (h : t'.Owns) (how : SessionEnd)
    (hseq : t'.session.branches.map Branch.sequence = t.session.branches.map Branch.sequence)
    (heffects : t'.effects = t.effects) :
    ∃ t'', t'.close how = (t'', .ended how) ∧
      t''.session.branches.map Branch.sequence = t.session.branches.map Branch.sequence ∧
      t''.effects = t.effects := by
  obtain ⟨t'', hclose, hclosed⟩ := h.close how
  refine ⟨t'', hclose, ?_, hclosed.effects.trans heffects⟩
  rw [hclosed.session, ← hseq, List.map_map]
  rfl

lemma finishOperation_fails (h : t.Coherent stage.scenario reached weight) {tag : Tag} {p : Pending}
    (hp : t.session.pending? stage.scenario tag = .ok (some p)) {arena : List Resource}
    {outcome : Outcome}
    (hnone :
      settled? stage { t with session := { t.session with arena } } tag.op p outcome = none) :
    ∃ t', finishOperation stage { t with session := { t.session with arena } } tag.op p outcome =
        (t', .ended .failed) ∧
      t'.session.branches.map Branch.sequence = t.session.branches.map Branch.sequence ∧
      t'.effects = t.effects := by
  obtain ⟨-, -, -, hbranch, b, hb, hw, -⟩ := Session.pending?_some hp
  have hawait := awaits_of_request hb hw
  obtain ⟨since, hrecord⟩ := h.keeps.kept _ _ _ _ _ hawait
  obtain ⟨requests, hr⟩ := Pool.release_of_get? (fun _ => Request.blank) hrecord
  have howns : (t.requests.get? p.request).filter (owns { t.session with arena } tag.op) =
      some ⟨some t.session.slot, t.session.generation, tag.op, some since⟩ := by
    rw [hrecord]
    simp [owns]
  unfold settled? at hnone
  unfold finishOperation
  simp only [howns, hr] at hnone ⊢
  split
  · rename_i hgoes
    rw [if_pos hgoes] at hnone
    cases hnone
  · have hrun : ({ b with wait := .runnable } : Branch).await? = none := await?_of_runnable rfl
    have hdrops := Session.Drops.of_set hb hrun t.session.state arena
    rw [hbranch, onBranch_eq (by exact hb)]
    refine Owns.ends ⟨Pool.release_sound hr h.pool, ?_, ?_⟩ .failed ?_ rfl
    · exact h.keeps.drop hdrops hawait h.sound.distinct fun r => Pool.release_get? hr r
    · intro k k' a a' hk hk'
      exact h.sound.distinct k k' a a' (hdrops.awaits_some hk).2 (hdrops.awaits_some hk').2
    · exact map_set_of_eq hb rfl

lemma Coherent.halts_deadline (h : t.Coherent stage.scenario reached weight) {tag : Tag}
    {time : Nanos} (hnone : (Cause.timer ⟨time, tag, .deadline⟩).begun? stage t = none) :
    Halts stage t (t.onDeadline stage tag) := by
  simp only [Cause.begun?] at hnone
  simp only [onDeadline]
  cases hp : t.session.pending? stage.scenario tag with
  | error fault => exact .stays h.sound.typed (by simp)
  | ok found =>
    cases found with
    | none => exact .stays h.sound.typed (by simp)
    | some p =>
      rw [hp] at hnone
      obtain ⟨t', hfails, hseq, heffects⟩ := finishOperation_fails h hp hnone
      have hout : finishOperation stage t tag.op p .timeout = (t', .ended .failed) := hfails
      simp only [hout]
      exact .closes (by decide) hseq heffects

lemma Coherent.halts_wake (h : t.Coherent stage.scenario reached weight) {tag : Tag}
    {time : Nanos} (hnone : (Cause.timer ⟨time, tag, .wake⟩).begun? stage t = none) :
    Halts stage t (t.onWake stage tag) := by
  simp only [Cause.begun?] at hnone
  simp only [onWake]
  cases hcurrent : t.session.isCurrent tag with
  | error fault => exact .stays h.sound.typed (by simp)
  | ok current =>
    cases current with
    | false => exact .stays h.sound.typed (by simp)
    | true =>
      rw [hcurrent] at hnone
      simp only at hnone ⊢
      split
      · rename_i hwait
        rw [if_pos hwait] at hnone
        cases hnone
      · exact .stays h.sound.typed (by simp)

lemma Coherent.halts (h : t.Coherent stage.scenario reached weight)
    (hnone : cause.begun? stage t = none) : Halts stage t (cause.act stage t) := by
  have hstays : ∀ verdict, (∀ how, verdict ≠ .ended how) → Halts stage t (t, verdict) :=
    fun verdict hgoes => Halts.stays h.sound.typed hgoes
  cases cause with
  | start => cases hnone
  | data tag fragment =>
    simp only [Cause.act, onData]
    cases t.session.pending? stage.scenario tag with
    | error fault => exact hstays _ (by simp)
    | ok found =>
      cases found with
      | none => exact hstays _ (by simp)
      | some p =>
        have hframe := Session.onCursors_frame stage.scenario t.session p.operation.validators
          p.branch fun v c => v.feed c fragment
        simp only [onSession]
        rw [hframe]
        exact .stays (Session.typed_onCursors h.sound.typed _ _ _) (by simp)
  | complete tag completion =>
    simp only [Cause.begun?] at hnone
    simp only [Cause.act, onCompletion]
    cases hp : t.session.pending? stage.scenario tag with
    | error fault => exact hstays _ (by simp)
    | ok found =>
      cases found with
      | none => exact hstays _ (by simp)
      | some p =>
        have hframe := Session.onCursors_frame stage.scenario t.session p.operation.validators
          p.branch fun _ _ => .start
        rw [hp] at hnone
        simp only [onSession] at hnone ⊢
        rw [hframe] at hnone ⊢
        obtain ⟨t', hfails, hseq, heffects⟩ := finishOperation_fails h hp hnone
        rw [hfails]
        exact .closes (by decide) hseq heffects
  | timer due =>
    obtain ⟨time, tag, kind⟩ := due
    cases kind with
    | deadline => exact h.halts_deadline hnone
    | wake => exact h.halts_wake hnone
  | terminate =>
    simp only [Cause.act, terminate]
    split
    · obtain ⟨t', hends, hseq, heffects⟩ := h.owns.ends (t := t) .terminated rfl rfl
      rw [hends]
      exact .closes (by decide) hseq heffects
    · exact hstays _ (by simp)

lemma begun_walked (hw : t.session.Logged stage.scenario log)
    (hvacant : cause = .start → t.session.branches = []) (hbegun : cause.begun? stage t = some t₁) :
    Walked stage.scenario t₁.session.branches log ∧ t₁.effects = t.effects := by
  -- Whatever has waited goes on behind its step.
  have hgoes : ∀ {k : Nat} {b : Branch} {a : Await}, t.session.branches[k]? = some b →
      awaits t.session.branches k = some a →
      Walked stage.scenario (t.session.branches.set k b.proceed) log := by
    intro k b a hb ha
    rcases hw with ⟨hnil, -⟩ | hw
    · rw [hnil] at hb
      cases hb
    · exact hw.proceed hb (by rw [← awaits_of_getElem? hb]; exact ha)
  cases begun?_begins hbegun with
  | start =>
    have hnil := hvacant rfl
    refine ⟨?_, rfl⟩
    simp only [onSession, hnil, List.nil_append, hw.vacant hnil]
    exact .opening stage.scenario
  | settles hb hw => exact ⟨hgoes hb (awaits_of_request hb hw), rfl⟩
  | wakes hb hw => exact ⟨hgoes hb (awaits_of_delay hb hw), rfl⟩

end Turn

def Cause.strides (stage : Stage) (t : Turn) (cause : Cause) : List Stride :=
  match cause.begun? stage t with
  | none => []
  | some t₁ => t₁.running.strides stage (t₁.running.session.effort stage.scenario)

namespace Session

/-- How a session of a scenario can come about, with the steps that its branches have taken since it
started and the operations that it has issued. Anything can happen to it, at any time. -/
inductive Story (scenario : Scenario) (phase : Nat) :
    Session → List Stride → List (Operation BoundValidator) → Prop
  | new (slot : Nat) : Story scenario phase (.new scenario slot) [] []
  | act {s : Session} {log : List Stride} {issued : List (Operation BoundValidator)} {cause : Cause}
      {now : Nanos} {requests : Pool Request} {recorder : Recorder} {t : Turn} {verdict : Verdict}
      (h : Story scenario phase s log issued) (hmeets : s.Meets cause requests)
      (hact : cause.act ⟨scenario, phase, now⟩ ⟨s, requests, recorder, []⟩ = (t, verdict))
      (hgoes : ∀ how, verdict ≠ .ended how) :
      Story scenario phase t.session
        (log ++ cause.strides ⟨scenario, phase, now⟩ ⟨s, requests, recorder, []⟩)
        (issued ++ (issues t.effects).map Prod.fst)
  | recycle {s : Session} {log : List Stride} {issued : List (Operation BoundValidator)}
      {cause : Cause} {now : Nanos} {requests : Pool Request} {recorder : Recorder} {t : Turn}
      {how : SessionEnd} (h : Story scenario phase s log issued) (hmeets : s.Meets cause requests)
      (hact : cause.act ⟨scenario, phase, now⟩ ⟨s, requests, recorder, []⟩ = (t, .ended how)) :
      Story scenario phase (t.session.recycle scenario) [] []

end Session

/-- The whole scenario was done. The branches are the nodes of its unfolding, each under the node of
the branch that forked it; they have taken all the steps of their sequences; and the operations that
were issued are those of all nodes. -/
structure Whole (sc : Scenario) (l : List Branch) (log : List Stride)
    (issued : List (Operation BoundValidator)) : Prop where
  nodes : (nodesOf l).Perm sc.unfolding
  distinct : ((nodesOf l).map Unfolding.Node.path).Nodup
  above : ∀ (k : Nat) (b : Branch) (p : Nat), l[k]? = some b → b.parent = some p →
    (place l k).tail = place l p
  length : l.length = sc.maxBranches
  steps : ∀ (k : Nat) (b : Branch), l[k]? = some b → stepsBy log k = sc.stepsOf b.sequence
  issued : issued.Perm (sc.unfolding.flatMap fun node =>
    (sc.stepsOf node.sequence).filterMap Step.operation?)

/-- A session does its scenario in order, whatever happens to it next. -/
structure Turn.Obeys (stage : Stage) (t : Turn) (cause : Cause) (log : List Stride)
    (issued : List (Operation BoundValidator)) : Prop where
  before : Within stage.scenario t.session.branches log
  during : ∀ t₁ : Turn, cause.begun? stage t = some t₁ → ∀ n,
    Within stage.scenario (t₁.running.steps stage n).1.session.branches
      (log ++ t₁.running.strides stage n)
  after : Within stage.scenario (cause.act stage t).1.session.branches
    (log ++ cause.strides stage t)
  completed : (cause.act stage t).2 = .ended .completed →
    Whole stage.scenario (cause.act stage t).1.session.branches (log ++ cause.strides stage t)
      (issued ++ (issues (cause.act stage t).1.effects).map Prod.fst)

section Whole

variable {sc : Scenario} {reached : Nat → Prop} {weight : Nat → Nat} {l : List Branch}
  {log : List Stride}

lemma operationsOf_perm (h : Walked sc l log) (hdone : ∀ b ∈ l, b.isDone = true) :
    (operationsOf log).Perm ((nodesOf l).flatMap fun node =>
      (sc.stepsOf node.sequence).filterMap Step.operation?) := by
  have hnodes : ((nodesOf l).flatMap fun node =>
      (sc.stepsOf node.sequence).filterMap Step.operation?) =
      (List.range l.length).flatMap fun k => (stepsBy log k).filterMap Step.operation? := by
    rw [List.range_eq_range', ← List.zipIdx_map_snd 0 l, nodesOf, List.flatMap_map,
      List.flatMap_map]
    refine List.flatMap_congr fun x hx => ?_
    have hb : l[x.2]? = some x.1 := List.mem_zipIdx_iff_getElem?.mp hx
    have hmem := List.mem_of_getElem? hb
    rw [h.past x.2 x.1 hb, h.whole x.1 hmem (hdone x.1 hmem)]
  have hlog : operationsOf ((List.range l.length).flatMap fun k =>
      log.filter fun x => x.branch == k) =
      (List.range l.length).flatMap fun k => (stepsBy log k).filterMap Step.operation? := by
    rw [operationsOf, List.filterMap_flatMap]
    refine List.flatMap_congr fun k _ => ?_
    rw [stepsBy, List.filterMap_map]
    rfl
  rw [hnodes, ← hlog]
  exact (perm_flatMap_filter h.own).filterMap _

lemma Walked.wholeScenario (h : Walked sc l log) (hbudget : sc.Budget reached weight)
    (htree : Tree sc reached l) (hdone : ∀ b ∈ l, b.isDone = true) :
    Whole sc l log (operationsOf log) := by
  have hgrown := h.grown htree hdone
  have hperm := hgrown.nodesOf_perm hbudget
  refine ⟨hperm, ?_, ?_, ?_, ?_, ?_⟩
  · exact (hperm.map _).nodup_iff.mpr sc.unfolding_paths
  · intro k b p hb hp
    rw [place_of_parent hb hp (htree.parent k b p hb hp)]
    rfl
  · have hlength := hperm.length_eq
    rw [Scenario.unfolding_length hbudget, nodesOf, List.length_map, List.length_zipIdx] at hlength
    exact hlength
  · intro k b hb
    have hmem := List.mem_of_getElem? hb
    rw [h.past k b hb, h.whole b hmem (hdone b hmem)]
  · exact (operationsOf_perm h hdone).trans (hperm.flatMap_right _)

end Whole

namespace Turn

variable {stage : Stage} {reached : Nat → Prop} {weight : Nat → Nat} {cause : Cause} {t : Turn}
  {log : List Stride}

lemma Coherent.act_traced (stage : Stage) (cause : Cause)
    (hsc : stage.scenario.Sound reached weight)
    (h : t.Coherent stage.scenario reached weight) (hw : t.session.Logged stage.scenario log)
    (hvacant : cause = .start → t.session.branches = []) :
    Traced stage.scenario reached weight (log ++ cause.strides stage t) (cause.act stage t) ∧
      (issues (cause.act stage t).1.effects).map Prod.fst =
        (issues t.effects).map Prod.fst ++ operationsOf (cause.strides stage t) := by
  have hsets := act_sets stage t cause
  unfold Cause.strides
  cases hbegun : cause.begun? stage t with
  | some t₁ =>
    rw [hbegun] at hsets
    generalize cause.act stage t = out at hsets
    cases hsets with
    | runs =>
      obtain ⟨hwalked, heffects⟩ := begun_walked hw hvacant hbegun
      rw [← heffects]
      exact steps_traced hsc _ (h.begun hsc hvacant hbegun) hwalked
  | none =>
    have hhalts := h.halts hbegun
    rw [List.append_nil, operationsOf, List.filterMap_nil, List.append_nil]
    generalize cause.act stage t = out at hhalts
    cases hhalts with
    | stays ha hgoes =>
      obtain ⟨htree, hgrowth, -, hbelow, hdistinct⟩ := h.sound
      exact ⟨⟨hw.within h.sound, fun _ => ⟨⟨⟨htree, hgrowth, ha, hbelow, hdistinct⟩, h.pool,
        h.keeps.congr rfl rfl fun _ _ _ _ _ => .rfl⟩, hw⟩, fun hf => absurd hf (hgoes _)⟩, rfl⟩
    | closes hhow hseq heffects =>
      refine ⟨⟨(hw.within h.sound).congr hseq, fun hgoes => absurd rfl (hgoes _), ?_⟩, ?_⟩
      · intro hcompleted
        exact absurd (Verdict.ended.inj hcompleted) hhow
      · simp only [heffects]

theorem Coherent.obeys (hsc : stage.scenario.Sound reached weight)
    (h : t.Coherent stage.scenario reached weight) (hw : t.session.Logged stage.scenario log)
    (hvacant : cause = .start → t.session.branches = []) (heffects : t.effects = []) :
    t.Obeys stage cause log (operationsOf log) := by
  obtain ⟨htraced, hissues⟩ := h.act_traced stage cause hsc hw hvacant
  refine ⟨hw.within h.sound, ?_, htraced.within, ?_⟩
  · intro t₁ hbegun n
    obtain ⟨hwalked, -⟩ := begun_walked hw hvacant hbegun
    exact (steps_traced hsc n (h.begun hsc hvacant hbegun) hwalked).1.within
  · intro hcompleted
    obtain ⟨hwalked, htree, hdone⟩ := htraced.completed hcompleted
    rw [hissues, heffects, issues_nil, List.map_nil, List.nil_append, operationsOf, operationsOf,
      ← List.filterMap_append]
    exact hwalked.wholeScenario hsc.budget htree hdone

end Turn

namespace Session

variable {scenario : Scenario} {phase : Nat} {reached : Nat → Prop} {weight : Nat → Nat}
  {s : Session}
  {log : List Stride} {issued : List (Operation BoundValidator)}

lemma Story.logged (hsc : scenario.Sound reached weight) (h : Story scenario phase s log issued) :
    s.Sound scenario reached weight ∧ s.Logged scenario log ∧ issued = operationsOf log := by
  induction h with
  | new slot => exact ⟨Session.recycle_sound _ _ _ (.new scenario slot), .inl ⟨rfl, rfl⟩, rfl⟩
  | @act s log issued cause now requests recorder t verdict _ hmeets hact hgoes ih =>
    obtain ⟨hsound, hlogged, rfl⟩ := ih
    obtain ⟨htraced, hissues⟩ := Turn.Coherent.act_traced (t := ⟨s, requests, recorder, []⟩)
      ⟨scenario, phase, now⟩ cause hsc ⟨hsound, hmeets.pool, hmeets.keeps⟩ hlogged hmeets.vacant
    rw [hact] at htraced hissues
    obtain ⟨hcoherent, hlogged'⟩ := htraced.going hgoes
    refine ⟨hcoherent.sound, hlogged', ?_⟩
    rw [hissues, issues_nil, List.map_nil, List.nil_append, operationsOf, operationsOf,
      operationsOf, List.filterMap_append]
  | recycle => exact ⟨Session.recycle_sound _ _ _ _, .inl ⟨rfl, rfl⟩, rfl⟩

lemma Story.meets (hsc : scenario.Sound reached weight) (h : Story scenario phase s log issued)
    {cause next : Cause} {now : Nanos} {requests : Pool Request} {recorder : Recorder} {t : Turn}
    {verdict : Verdict} (hmeets : s.Meets cause requests)
    (hact : cause.act ⟨scenario, phase, now⟩ ⟨s, requests, recorder, []⟩ = (t, verdict))
    (hgoes : ∀ how, verdict ≠ .ended how) (hnext : next ≠ .start) :
    t.session.Meets next t.requests := by
  obtain ⟨hsound, hlogged, -⟩ := h.logged hsc
  obtain ⟨htraced, -⟩ := Turn.Coherent.act_traced (t := ⟨s, requests, recorder, []⟩)
    ⟨scenario, phase, now⟩ cause hsc ⟨hsound, hmeets.pool, hmeets.keeps⟩ hlogged hmeets.vacant
  rw [hact] at htraced
  obtain ⟨hcoherent, -⟩ := htraced.going hgoes
  exact ⟨hcoherent.pool, hcoherent.keeps, fun hf => absurd hf hnext⟩

/-- A session has done its scenario as far as it has come, and all of it when it completes. -/
theorem Story.obeysScenario {d : Draft} (hbuilt : d.build = .ok scenario)
    (h : Story scenario phase s log issued) {cause : Cause} {requests : Pool Request}
    (hmeets : s.Meets cause requests) (now : Nanos) (recorder : Recorder) :
    Turn.Obeys ⟨scenario, phase, now⟩ ⟨s, requests, recorder, []⟩ cause log issued := by
  obtain ⟨reached, weight, hsc⟩ := d.build_sound hbuilt
  obtain ⟨hsound, hlogged, rfl⟩ := h.logged hsc
  exact Turn.Coherent.obeys hsc ⟨hsound, hmeets.pool, hmeets.keeps⟩ hlogged hmeets.vacant rfl

end Session

def errandFresh : Turn := ⟨.new errand 0, .new 2 fun _ => .blank, .empty .default, []⟩

def errandData : Cause := .data ⟨0, 0, 0, 0, 0⟩ [98]

def errandAnswer : Cause := .complete ⟨0, 0, 0, 0, 0⟩ .success

def errandWake : Cause := .timer ⟨9, ⟨0, 0, 0, 1, 1⟩, .wake⟩

def errandOut : Turn := (Cause.start.act ⟨errand, 0, 0⟩ errandFresh).1

def errandSeen : Turn :=
  (errandData.act ⟨errand, 0, 3⟩ { errandOut with effects := [] }).1

def errandResting : Turn :=
  (errandAnswer.act ⟨errand, 0, 4⟩ { errandSeen with effects := [] }).1

def errandLog : List Stride :=
  [] ++ Cause.start.strides ⟨errand, 0, 0⟩ errandFresh ++
    errandData.strides ⟨errand, 0, 3⟩ { errandOut with effects := [] } ++
    errandAnswer.strides ⟨errand, 0, 4⟩ { errandSeen with effects := [] }

def errandIssued : List (Operation BoundValidator) :=
  [] ++ (issues errandOut.effects).map Prod.fst ++ (issues errandSeen.effects).map Prod.fst ++
    (issues errandResting.effects).map Prod.fst

theorem errandResting_obeys :
    Session.Story errand 0 errandResting.session errandLog errandIssued ∧
    errandResting.session.Meets errandWake errandResting.requests ∧
    (errandWake.act ⟨errand, 0, 9⟩ { errandResting with effects := [] }).2 = .ended .completed ∧
    errandLog.map Stride.branch = [0, 0, 0, 1] ∧ errand.unfolding = [⟨[0], 0⟩, ⟨[0, 0], 1⟩] ∧
    Turn.Obeys ⟨errand, 0, 9⟩ { errandResting with effects := [] } errandWake errandLog
      errandIssued := by
  obtain ⟨reached, weight, hsc⟩ := errandDraft.build_sound errand_built
  have hnew : Session.Story errand 0 errandFresh.session [] [] := .new 0
  have hmeets : errandFresh.session.Meets .start errandFresh.requests :=
    ⟨Pool.new_sound _ _, ⟨nofun, fun r record hr => by simp [errandFresh, Pool.new_get?] at hr⟩,
      fun _ => rfl⟩
  have hout : Cause.start.act ⟨errand, 0, 0⟩ ⟨errandFresh.session, errandFresh.requests,
      errandFresh.recorder, []⟩ = (errandOut, .alive) := Prod.ext rfl (by decide +kernel)
  have hseen : errandData.act ⟨errand, 0, 3⟩ ⟨errandOut.session, errandOut.requests,
      errandOut.recorder, []⟩ = (errandSeen, .alive) := Prod.ext rfl (by decide +kernel)
  have hresting : errandAnswer.act ⟨errand, 0, 4⟩ ⟨errandSeen.session, errandSeen.requests,
      errandSeen.recorder, []⟩ = (errandResting, .alive) := Prod.ext rfl (by decide +kernel)
  have hseenMeets : errandOut.session.Meets errandData errandOut.requests :=
    hnew.meets hsc hmeets hout nofun nofun
  have hasked := hnew.act hmeets hout nofun
  have hanswerMeets : errandSeen.session.Meets errandAnswer errandSeen.requests :=
    hasked.meets hsc hseenMeets hseen nofun nofun
  have hheard := hasked.act hseenMeets hseen nofun
  have hwakeMeets : errandResting.session.Meets errandWake errandResting.requests :=
    hheard.meets hsc hanswerMeets hresting nofun nofun
  have hrests := hheard.act hanswerMeets hresting nofun
  exact ⟨hrests, hwakeMeets, by decide +kernel, by decide +kernel, by decide +kernel,
    Session.Story.obeysScenario errand_built hrests hwakeMeets 9 errandResting.recorder⟩

/-- The sessions of a shard are none but those with such a story. -/
theorem Shard.Run.stories {s : Shard} {l : Ledger} (h : s.Run l) {phase : Nat} {lane : Lane}
    (hlane : s.lanes.get? phase = some lane) :
    lane.Every (fun scenario phase s => ∃ log issued, Session.Story scenario phase s log issued)
      phase := by
  refine h.every ?_ (fun _ _ slot => ⟨[], [], .new slot⟩) hlane
  rintro scenario phase s cause now requests recorder t verdict ⟨log, issued, hstory⟩ hmeets hact
  cases verdict with
  | ended how => exact ⟨[], [], hstory.recycle hmeets hact⟩
  | alive => exact ⟨_, _, hstory.act hmeets hact nofun⟩
  | broken fault => exact ⟨_, _, hstory.act hmeets hact nofun⟩

end LoadEngine
