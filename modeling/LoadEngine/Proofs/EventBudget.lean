import LoadEngine.Proofs.WholeScenario
import Mathlib.Algebra.Order.BigOperators.Group.List

/-! How much can come for one user. A completion, a deadline or a wake that is not out of date takes
a branch past a step that it waited at, or ends the session. So no more of them come than the
unfolding of the scenario has operations and delays. -/

namespace LoadEngine

def Step.isAwaited {ρ : Type} : Step ρ → Bool
  | operation _ | delay _ => true
  | _ => false

/-- The operations and delays in the unfolding of a scenario. -/
def Scenario.awaited (sc : Scenario) : Nat :=
  (sc.unfolding.map fun node => (sc.stepsOf node.sequence).countP Step.isAwaited).sum

def Branch.met (sc : Scenario) (b : Branch) : Nat :=
  ((sc.stepsOf b.sequence).take b.step).countP Step.isAwaited

def metBy (sc : Scenario) (l : List Branch) : Nat := (l.map (Branch.met sc)).sum

structure Branch.Ahead (b b' : Branch) : Prop where
  sequence : b'.sequence = b.sequence
  step : b.step ≤ b'.step

section Met

variable {sc : Scenario} {reached : Nat → Prop} {weight : Nat → Nat} {l m : List Branch} {i : Nat}
  {b b' : Branch} {log : List Stride}

lemma Branch.Ahead.refl (b : Branch) : b.Ahead b := ⟨rfl, Nat.le_refl _⟩

lemma Branch.Ahead.trans {b'' : Branch} (h : b.Ahead b') (h' : b'.Ahead b'') : b.Ahead b'' :=
  ⟨h'.sequence.trans h.sequence, h.step.trans h'.step⟩

lemma Branch.Ahead.childDone (b : Branch) : b.Ahead b.childDone := by
  simp only [Branch.childDone]
  split
  · exact ⟨rfl, Nat.le_succ _⟩
  · exact ⟨rfl, Nat.le_refl _⟩

lemma Branch.Ahead.met_le (h : b.Ahead b') : b.met sc ≤ b'.met sc := by
  obtain ⟨hsequence, hstep⟩ := h
  rw [Branch.met, Branch.met, hsequence]
  exact (List.take_prefix_take_left hstep).sublist.countP_le

lemma metBy_le_of_ahead (h : List.Forall₂ Branch.Ahead l m) : metBy sc l ≤ metBy sc m := by
  apply List.Forall₂.sum_le_sum
  rw [List.forall₂_map_left_iff, List.forall₂_map_right_iff]
  exact h.imp fun _ _ hb => hb.met_le

lemma finished_ahead (hb : l[i]? = some b) : List.Forall₂ Branch.Ahead l (finished l i b) := by
  have hset : List.Forall₂ Branch.Ahead l (l.set i { b with wait := .done }) :=
    forall₂_set Branch.Ahead.refl hb ⟨rfl, Nat.le_refl _⟩
  unfold finished
  simp only
  split
  · exact hset
  · refine forall₂_trans (R := Branch.Ahead) (fun _ _ _ => Branch.Ahead.trans) hset ?_
    exact forall₂_modify Branch.Ahead.refl Branch.Ahead.childDone _ _

lemma BranchStep.metBy_le (hb : l[i]? = some b) (h : BranchStep sc l i b m) :
    metBy sc l ≤ metBy sc m := by
  cases h with
  | pass hs hf hj =>
    apply metBy_le_of_ahead
    exact forall₂_set Branch.Ahead.refl hb ⟨rfl, Nat.le_succ _⟩
  | @fork targets hs =>
    have hahead : Branch.Ahead b { b with children := b.children + targets.length }.proceed :=
      ⟨rfl, Nat.le_succ _⟩
    rw [metBy, metBy, List.map_append, List.sum_append]
    exact (metBy_le_of_ahead (forall₂_set Branch.Ahead.refl hb hahead)).trans
      (Nat.le_add_right _ _)
  | hold hw hr hd =>
    apply metBy_le_of_ahead
    exact forall₂_set Branch.Ahead.refl hb ⟨rfl, Nat.le_refl _⟩
  | finish hs => exact metBy_le_of_ahead (finished_ahead hb)

lemma Tree.isAwaited (h : Tree sc reached l) (hb : l[i]? = some b) {a : Await}
    (ha : b.await? = some a) :
    ∃ step, sc.step? b.sequence b.step = some step ∧ step.isAwaited = true := by
  obtain ⟨step, hs, ⟨operation, rfl⟩ | ⟨duration, rfl⟩⟩ := h.step_of_await hb ha
  · exact ⟨_, hs, rfl⟩
  · exact ⟨_, hs, rfl⟩

lemma metBy_proceed (h : Tree sc reached l) (hb : l[i]? = some b) {a : Await}
    (ha : b.await? = some a) : metBy sc (l.set i b.proceed) = metBy sc l + 1 := by
  obtain ⟨step, hs, hawaited⟩ := h.isAwaited hb ha
  have hmet : b.proceed.met sc = b.met sc + 1 := by
    change ((sc.stepsOf b.sequence).take (b.step + 1)).countP Step.isAwaited = _
    rw [take_succ hs, List.countP_append]
    simp [Branch.met, hawaited]
  have hset := sum_map_set (Branch.met sc) hb b.proceed
  simp only [metBy]
  omega

lemma Walked.growing (h : Walked sc l log) (htree : Tree sc reached l) : Growing sc l where
  parent := htree.parent
  roots := ⟨[], (List.append_nil _).trans h.roots⟩
  forks k b hb := by
    rw [h.forked k b hb]
    exact (List.take_prefix _ _).flatMap _

lemma Growing.metBy_le (h : Growing sc l) (hbudget : sc.Budget reached weight) :
    metBy sc l ≤ sc.awaited := by
  obtain ⟨nodes, hperm, hsub⟩ := h.nodesOf_subperm hbudget
  have hmet : metBy sc l ≤
      (l.map fun b => (sc.stepsOf b.sequence).countP Step.isAwaited).sum := by
    apply List.sum_le_sum
    intro b _
    exact (List.take_sublist _ _).countP_le
  have hsequences := congrArg (List.map fun id => (sc.stepsOf id).countP Step.isAwaited)
    (nodesOf_sequences l)
  rw [List.map_map, List.map_map] at hsequences
  calc metBy sc l
      ≤ (l.map fun b => (sc.stepsOf b.sequence).countP Step.isAwaited).sum := hmet
    _ = ((nodesOf l).map fun node => (sc.stepsOf node.sequence).countP Step.isAwaited).sum :=
        congrArg List.sum hsequences.symm
    _ = (nodes.map fun node => (sc.stepsOf node.sequence).countP Step.isAwaited).sum :=
        (hperm.map _).sum_eq.symm
    _ ≤ sc.awaited := (hsub.map _).sum_le_sum fun _ _ => Nat.zero_le _

end Met

namespace Session

/-- Something comes that the session waits for. All else that can come is out of date, or says
nothing of an end. -/
def expects (sc : Scenario) (s : Session) : Cause → Bool
  | .complete tag _ | .timer ⟨_, tag, .deadline⟩ =>
    match s.pending? sc tag with
    | .ok (some _) => true
    | _ => false
  | .timer ⟨_, tag, .wake⟩ =>
    match s.isCurrent tag with
    | .ok true => s.branches[tag.branch]?.map Branch.wait = some (.delay tag.op)
    | _ => false
  | .start | .data _ _ | .terminate => false

def heard (sc : Scenario) (s : Session) (n : Nat) : Cause → Nat
  | .start => 0
  | cause => if s.expects sc cause then n + 1 else n

/-- What has come for a user is no more than its branches have got past, and no more than there
is. -/
structure Heeds (sc : Scenario) (n : Nat) (s : Session) : Prop where
  met : s.branches = [] ∨ n ≤ metBy sc s.branches
  bound : n ≤ sc.awaited

end Session

namespace Turn

variable {stage : Stage} {reached : Nat → Prop} {weight : Nat → Nat} {cause : Cause} {t t₁ : Turn}
  {log : List Stride} {n : Nat}

lemma run_metBy_le (hsc : stage.scenario.Sound reached weight)
    (h : t.running.Coherent stage.scenario reached weight) :
    ((t.run stage).2.leaves stage.scenario (t.run stage).1.session).branches = [] ∨
      metBy stage.scenario t.session.branches ≤ metBy stage.scenario
        ((t.run stage).2.leaves stage.scenario (t.run stage).1.session).branches := by
  have hrests : Rests stage (fun t' => t'.Coherent stage.scenario reached weight ∧
      metBy stage.scenario t.session.branches ≤ metBy stage.scenario t'.session.branches)
      (t.run stage) := by
    refine run_rests hsc (fun _ h => h.1) ?_ ⟨h, Nat.le_refl _⟩
    rintro t₁ t₂ i b ⟨hcoherent, hle⟩ hb hrun ht
    exact ⟨hcoherent.takes hsc hb hrun ht, hle.trans (ht.branchStep.metBy_le hb)⟩
  generalize t.run stage = out at hrests
  cases hrests with
  | waits hP hnone hlive => exact .inr hP.2
  | completes hP hdone =>
    obtain ⟨t', hclose, -⟩ := hP.1.owns.close .completed
    rw [hclose]
    exact .inl rfl
  | fails hP =>
    obtain ⟨t', hclose, -⟩ := hP.1.owns.close .failed
    rw [hclose]
    exact .inl rfl
  | full hP hb hrun hfull => exact .inr hP.2

inductive Answers (stage : Stage) (t : Turn) : Option Turn → Turn × Verdict → Prop
  | proceeds {i : Nat} {b : Branch} {a : Await} {t₁ : Turn} {out : Turn × Verdict}
      (hb : t.session.branches[i]? = some b) (ha : b.await? = some a)
      (hset : t₁.session.branches = t.session.branches.set i b.proceed) :
      Answers stage t (some t₁) out
  | ends {i : Nat} {b : Branch} {a : Await} {t' : Turn} (hb : t.session.branches[i]? = some b)
      (ha : b.await? = some a) : Answers stage t none (t', .ended .failed)

lemma finishOperation_answers (h : t.Coherent stage.scenario reached weight) {tag : Tag}
    {p : Pending} (hp : t.session.pending? stage.scenario tag = .ok (some p))
    (arena : List Resource) (outcome : Outcome) :
    Answers stage t
      (settled? stage { t with session := { t.session with arena } } tag.op p outcome)
      (finishOperation stage { t with session := { t.session with arena } } tag.op p outcome) := by
  obtain ⟨-, -, -, hbranch, b, hb, hw, -⟩ := Session.pending?_some hp
  have ha := awaits_of_request hb hw
  rw [awaits_of_getElem? hb] at ha
  cases hs : settled? stage { t with session := { t.session with arena } } tag.op p outcome with
  | none =>
    obtain ⟨t', hfails, -⟩ := finishOperation_fails h hp hs
    rw [hfails]
    exact .ends hb ha
  | some t₁ =>
    obtain ⟨b', requests, recorder, hb', -, -, rfl⟩ := settled?_eq_some hp hs
    obtain rfl : b' = b := Option.some.inj (hb'.symm.trans hb)
    exact .proceeds hb ha rfl

lemma Coherent.answers (h : t.Coherent stage.scenario reached weight)
    (he : t.session.expects stage.scenario cause = true) :
    Answers stage t (cause.begun? stage t) (cause.act stage t) := by
  cases cause with
  | start | data | terminate => cases he
  | complete tag completion =>
    simp only [Session.expects] at he
    split at he
    · rename_i p hp
      have hframe := Session.onCursors_frame stage.scenario t.session p.operation.validators
        p.branch fun _ _ => .start
      simp only [Cause.begun?, Cause.act, onCompletion, hp, onSession]
      rw [hframe]
      exact finishOperation_answers h hp _ _
    · cases he
  | timer due =>
    obtain ⟨time, tag, kind⟩ := due
    cases kind with
    | deadline =>
      simp only [Session.expects] at he
      split at he
      · rename_i p hp
        simp only [Cause.begun?, Cause.act, onTimer, onDeadline, hp]
        exact finishOperation_answers h hp t.session.arena .timeout
      · cases he
    | wake =>
      simp only [Session.expects] at he
      split at he
      · rename_i hcurrent
        rw [decide_eq_true_eq] at he
        obtain ⟨b, hb, hw⟩ := Option.map_eq_some_iff.mp he
        simp only [Cause.begun?, hcurrent, if_pos he]
        refine .proceeds (a := ⟨b.sequence, b.step, .delay tag.op⟩) hb ?_ ?_
        · simp [Branch.await?, hw, Wait.number?]
        · rw [onBranch_eq hb]
      · cases he

lemma begun?_of_unexpected (hstart : cause ≠ .start)
    (he : t.session.expects stage.scenario cause = false) : cause.begun? stage t = none := by
  cases cause with
  | start => exact absurd rfl hstart
  | data | terminate => rfl
  | complete tag completion =>
    simp only [Session.expects] at he
    split at he
    · cases he
    · simp only [Cause.begun?]
  | timer due =>
    obtain ⟨time, tag, kind⟩ := due
    cases kind with
    | deadline =>
      simp only [Session.expects] at he
      split at he
      · cases he
      · simp only [Cause.begun?]
    | wake =>
      simp only [Session.expects] at he
      simp only [Cause.begun?]
      split
      · rename_i hcurrent
        rw [hcurrent] at he
        rw [if_neg (of_decide_eq_false he)]
      · rfl

end Turn

namespace Session

variable {sc : Scenario} {reached : Nat → Prop} {weight : Nat → Nat} {s : Session} {i n : Nat}
  {b : Branch} {a : Await} {log : List Stride}

lemma Heeds.lt (h : s.Heeds sc n) (hbudget : sc.Budget reached weight)
    (hsound : s.Sound sc reached weight) (hw : s.Logged sc log) (hb : s.branches[i]? = some b)
    (ha : b.await? = some a) : n + 1 ≤ metBy sc (s.branches.set i b.proceed) ∧ n < sc.awaited := by
  rcases hw with ⟨hnil, -⟩ | hw
  · rw [hnil] at hb
    cases hb
  have hne : s.branches ≠ [] := List.ne_nil_of_mem (List.mem_of_getElem? hb)
  have hle := h.met.resolve_left hne
  have hmet := metBy_proceed hsound.tree hb ha
  have hgrowing := (hw.proceed hb ha).growing (hsound.proceed hb ha hsound.typed).tree
  have hbound := hgrowing.metBy_le hbudget
  omega

end Session

theorem Turn.Coherent.heeds (stage : Stage) {reached : Nat → Prop} {weight : Nat → Nat}
    {cause : Cause} {t : Turn} {log : List Stride} {n : Nat}
    (hsc : stage.scenario.Sound reached weight) (h : t.Coherent stage.scenario reached weight)
    (hw : t.session.Logged stage.scenario log)
    (hvacant : cause = .start → t.session.branches = [])
    (hn : t.session.Heeds stage.scenario n) :
    Session.Heeds stage.scenario (t.session.heard stage.scenario n cause)
      ((cause.act stage t).2.leaves stage.scenario (cause.act stage t).1.session) := by
  by_cases hstart : cause = .start
  · subst hstart
    exact ⟨.inr (Nat.zero_le _), Nat.zero_le _⟩
  have hheard : t.session.heard stage.scenario n cause =
      if t.session.expects stage.scenario cause then n + 1 else n := by
    cases cause with
    | start => exact absurd rfl hstart
    | _ => rfl
  rw [hheard]
  cases he : t.session.expects stage.scenario cause with
  | false =>
    have hhalts := h.halts (begun?_of_unexpected hstart he)
    generalize cause.act stage t = out at hhalts
    cases hhalts with
    | @stays arena verdict ha hgoes =>
      cases verdict with
      | ended how => exact absurd rfl (hgoes how)
      | alive | broken => exact ⟨hn.met, hn.bound⟩
    | closes => exact ⟨.inl rfl, hn.bound⟩
  | true =>
    have hanswers := h.answers he
    have hsets := act_sets stage t cause
    generalize hbegun : cause.begun? stage t = begun at hanswers hsets
    generalize cause.act stage t = out at hanswers hsets
    cases hanswers with
    | proceeds hb ha hset =>
      obtain ⟨hmet, hlt⟩ := hn.lt hsc.budget h.sound hw hb ha
      cases hsets with
      | runs =>
        have hruns := run_metBy_le hsc (h.begun hsc hvacant hbegun)
        rw [hset] at hruns
        exact ⟨hruns.imp_right hmet.trans, hlt⟩
    | ends hb ha => exact ⟨.inl rfl, (hn.lt hsc.budget h.sound hw hb ha).2⟩

end LoadEngine
