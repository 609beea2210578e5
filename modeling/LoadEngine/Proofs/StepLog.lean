import LoadEngine.Proofs.TurnPasses
import LoadEngine.Proofs.Unfolding

/-! The steps that the branches of a session have taken. Each branch takes those of its sequence in
order; what it has forked so far are the forks among them; and the operations that it has issued are
the operations among them. -/

namespace LoadEngine

open Rehearsal (issues)

structure Stride where
  branch : Nat
  step : Step Variable

def stepsBy (log : List Stride) (k : Nat) : List (Step Variable) :=
  (log.filter fun x => x.branch == k).map Stride.step

namespace Branch

def passed (b : Branch) : Nat :=
  match b.wait with
  | .runnable | .done => b.step
  | .operation _ _ | .join | .delay _ => b.step + 1

def past (sc : Scenario) (b : Branch) : List (Step Variable) :=
  (sc.stepsOf b.sequence).take b.passed

end Branch

def stridesOf (i : Nat) (step : Option (Step Variable)) : List Stride := step.toList.map (⟨i, ·⟩)

/-- The branches of a session have taken the steps in the log, and forked what those fork. -/
structure Walked (sc : Scenario) (l : List Branch) (log : List Stride) : Prop where
  own : ∀ x ∈ log, x.branch < l.length
  past : ∀ (k : Nat) (b : Branch), l[k]? = some b → stepsBy log k = b.past sc
  whole : ∀ b ∈ l, b.isDone = true → b.past sc = sc.stepsOf b.sequence
  forked : ∀ (k : Nat) (b : Branch), l[k]? = some b →
    (offspring l k).map Branch.sequence = (b.past sc).flatMap Step.forks
  roots : (l.filter fun c => c.parent == none).map Branch.sequence = sc.initial

section Past

variable {sc : Scenario} {b : Branch}

lemma past_of_runnable (h : b.wait = .runnable) :
    b.past sc = (sc.stepsOf b.sequence).take b.step := by
  rw [Branch.past, Branch.passed, h]

lemma past_of_await {a : Await} (h : b.await? = some a) : b.past sc = b.proceed.past sc := by
  rw [past_of_runnable (b := b.proceed) rfl, Branch.past, Branch.passed]
  unfold Branch.await? at h
  cases hw : b.wait with
  | operation op request => rfl
  | delay op => rfl
  | _ => simp [hw, Wait.number?] at h

lemma past_childDone (c : Branch) : c.childDone.past sc = c.past sc := by
  unfold Branch.childDone
  simp only
  split
  · rename_i h
    rw [past_of_runnable rfl, Branch.past, Branch.passed, h.2]
    rfl
  · rfl

lemma take_succ {step : Step Variable} (h : sc.step? b.sequence b.step = some step) :
    (sc.stepsOf b.sequence).take (b.step + 1) = (sc.stepsOf b.sequence).take b.step ++ [step] := by
  rw [List.take_add_one, ← Scenario.step?_eq, h]
  rfl

lemma past_of_step {b' : Branch} {step : Step Variable} (hb : b.wait = .runnable)
    (hs : sc.step? b.sequence b.step = some step) (hseq : b'.sequence = b.sequence)
    (hpassed : b'.passed = b.step + 1) : b'.past sc = b.past sc ++ [step] := by
  rw [past_of_runnable hb, Branch.past, hseq, hpassed, take_succ hs]

end Past

section Logs

variable {log log' : List Stride} {i k : Nat}

lemma stepsBy_append (log log' : List Stride) (k : Nat) :
    stepsBy (log ++ log') k = stepsBy log k ++ stepsBy log' k := by
  unfold stepsBy
  rw [List.filter_append, List.map_append]

lemma stepsBy_stridesOf (i : Nat) (step : Option (Step Variable)) (k : Nat) :
    stepsBy (stridesOf i step) k = if k = i then step.toList else [] := by
  cases step with
  | none => simp [stepsBy, stridesOf]
  | some step =>
    by_cases hk : k = i
    · simp [stepsBy, stridesOf, hk]
    · simp [stepsBy, stridesOf, hk, Ne.symm hk]

lemma stepsBy_eq_nil (h : ∀ x ∈ log, x.branch < k) : stepsBy log k = [] := by
  unfold stepsBy
  rw [List.map_eq_nil_iff, List.filter_eq_nil_iff]
  intro x hx hk
  have hlt := h x hx
  rw [beq_iff_eq] at hk
  omega

end Logs

namespace Walked

variable {sc : Scenario} {reached : Nat → Prop} {weight : Nat → Nat} {l m : List Branch}
  {log : List Stride} {i : Nat} {b : Branch}

lemma filter_parent_follows (h : List.Forall₂ Follows l m) (parent : Option Nat) :
    (m.filter fun c => c.parent == parent).map Branch.sequence =
      (l.filter fun c => c.parent == parent).map Branch.sequence := by
  induction h with
  | nil => rfl
  | cons hc _ ih =>
    rw [List.filter_cons, List.filter_cons, hc.parent]
    split
    · rw [List.map_cons, List.map_cons, hc.sequence, ih]
    · exact ih

lemma grow (step : Option (Step Variable)) (new : List Branch) (h : Walked sc l log)
    (htree : Tree sc reached (m ++ new)) (hages : List.Forall₂ Follows l m) (hi : i < l.length)
    (hnew : ∀ c ∈ new, c = .new c.sequence (some i))
    (hforks : new.map Branch.sequence = step.toList.flatMap Step.forks)
    (hpast : ∀ (k : Nat) (c c' : Branch), l[k]? = some c → m[k]? = some c' →
      c'.past sc = c.past sc ++ (if k = i then step.toList else []))
    (hwhole : ∀ c' ∈ m, c'.isDone = true → c'.past sc = sc.stepsOf c'.sequence) :
    Walked sc (m ++ new) (log ++ stridesOf i step) := by
  have hlen := hages.length_eq
  have hyoung : ∀ c ∈ new, c.parent = some i ∧ c.isDone = false := by
    intro c hc
    rw [hnew c hc]
    exact ⟨rfl, rfl⟩
  have hchildless : ∀ (k : Nat) (c : Branch), (m ++ new)[k]? = some c → c ∈ new →
      offspring (m ++ new) k = [] := by
    intro k c hk hc
    have hnone := htree.forked k c hk
    rw [hnew c hc] at hnone
    exact List.eq_nil_of_length_eq_zero (hnone.trans (by simp [Branch.new, Scenario.forkedBefore]))
  have hown : ∀ x ∈ log ++ stridesOf i step, x.branch < l.length := by
    intro x hx
    rcases List.mem_append.mp hx with hx | hx
    · exact h.own x hx
    · obtain ⟨_, -, rfl⟩ := List.mem_map.mp hx
      exact hi
  constructor
  case own =>
    intro x hx
    rw [List.length_append, ← hlen]
    exact (hown x hx).trans_le (Nat.le_add_right _ _)
  case past =>
    intro k c' hk
    obtain ⟨c, hc, hc', -⟩ | ⟨hle, hmem⟩ := getElem?_grown hages hk
    · rw [stepsBy_append, stepsBy_stridesOf, h.past k c hc, hpast k c c' hc hc']
    · rw [stepsBy_eq_nil fun x hx => (hown x hx).trans_le (hlen ▸ hle), hnew c' hmem]
      rfl
  case whole =>
    intro c' hc' hdone
    rcases List.mem_append.mp hc' with hc' | hc'
    · exact hwhole c' hc' hdone
    · rw [(hyoung c' hc').2] at hdone
      cases hdone
  case forked =>
    intro k c' hk
    obtain ⟨c, hc, hc', -⟩ | ⟨hle, hmem⟩ := getElem?_grown hages hk
    · have hsame : (offspring m k).map Branch.sequence = (offspring l k).map Branch.sequence :=
        filter_parent_follows hages (some k)
      rw [offspring_append, List.map_append, hsame, h.forked k c hc,
        hpast k c c' hc hc', List.flatMap_append, Tree.offspring_new hyoung]
      split
      · rw [hforks]
      · rfl
    · rw [hchildless k c' hk hmem, hnew c' hmem]
      rfl
  case roots =>
    have hroots : (new.filter fun c => c.parent == none) = [] := by
      rw [List.filter_eq_nil_iff]
      intro c hc
      simp [(hyoung c hc).1]
    rw [List.filter_append, hroots, List.append_nil, filter_parent_follows hages, h.roots]

lemma set {b' : Branch} {step : Step Variable} (new : List Branch) (h : Walked sc l log)
    (hb : l[i]? = some b) (hrun : b.wait = .runnable)
    (hs : sc.step? b.sequence b.step = some step)
    (htree : Tree sc reached (l.set i b' ++ new)) (hseq : b'.sequence = b.sequence)
    (hparent : b'.parent = b.parent) (hdone : b'.isDone = false)
    (hpassed : b'.passed = b.step + 1) (hnew : ∀ c ∈ new, c = .new c.sequence (some i))
    (hforks : new.map Branch.sequence = step.forks) :
    Walked sc (l.set i b' ++ new) (log ++ stridesOf i (sc.step? b.sequence b.step)) := by
  have hlt := (List.getElem?_eq_some_iff.mp hb).1
  have hages : List.Forall₂ Follows l (l.set i b') := by
    refine forall₂_set Follows.refl hb ⟨hseq, hparent, fun hd => ?_⟩
    rw [Branch.isDone, hrun] at hd
    cases hd
  rw [hs]
  refine h.grow (some step) new htree hages hlt hnew (by simp [hforks]) ?_ ?_
  · intro k c c' hc hc'
    rw [List.getElem?_set] at hc'
    by_cases hk : i = k
    · subst hk
      rw [if_pos rfl, if_pos hlt, Option.some.injEq] at hc'
      rw [hb, Option.some.injEq] at hc
      subst hc hc'
      rw [if_pos rfl]
      exact past_of_step hrun hs hseq hpassed
    · rw [if_neg hk, hc, Option.some.injEq] at hc'
      subst hc'
      rw [if_neg (Ne.symm hk), List.append_nil]
  · refine forall_mem_set (P := fun c : Branch => c.isDone = true →
      c.past sc = sc.stepsOf c.sequence) h.whole fun hd => ?_
    rw [hdone] at hd
    cases hd

lemma set_only {b' : Branch} {step : Step Variable} (h : Walked sc l log)
    (hb : l[i]? = some b) (hrun : b.wait = .runnable)
    (hs : sc.step? b.sequence b.step = some step) (htree : Tree sc reached (l.set i b'))
    (hseq : b'.sequence = b.sequence) (hparent : b'.parent = b.parent) (hdone : b'.isDone = false)
    (hpassed : b'.passed = b.step + 1) (hforks : step.forks = []) :
    Walked sc (l.set i b') (log ++ stridesOf i (sc.step? b.sequence b.step)) := by
  rw [← List.append_nil (l.set i b')] at htree ⊢
  exact h.set [] hb hrun hs htree hseq hparent hdone hpassed (by simp) hforks.symm

lemma finished_past (hb : l[i]? = some b) (hrun : b.wait = .runnable) {k : Nat} {c c' : Branch}
    (hc : l[k]? = some c) (hc' : (finished l i b)[k]? = some c') : c'.past sc = c.past sc := by
  have hlt := (List.getElem?_eq_some_iff.mp hb).1
  have hset : ∀ d : Branch, (l.set i { b with wait := .done })[k]? = some d →
      d.past sc = c.past sc := by
    intro d hd
    rw [List.getElem?_set] at hd
    by_cases hk : i = k
    · subst hk
      rw [if_pos rfl, if_pos hlt, Option.some.injEq] at hd
      rw [hb, Option.some.injEq] at hc
      subst hc hd
      rw [past_of_runnable hrun]
      rfl
    · rw [if_neg hk, hc, Option.some.injEq] at hd
      rw [hd]
  rw [Tree.finished_getElem?] at hc'
  split at hc'
  · obtain ⟨d, hd, rfl⟩ := Option.map_eq_some_iff.mp hc'
    rw [past_childDone, hset d hd]
  · exact hset c' hc'

lemma finish (h : Walked sc l log) (hb : l[i]? = some b) (hrun : b.wait = .runnable)
    (hs : sc.step? b.sequence b.step = none) (htree : Tree sc reached (finished l i b)) :
    Walked sc (finished l i b) log := by
  have hlt := (List.getElem?_eq_some_iff.mp hb).1
  have hgrown := h.grow none [] (by rwa [List.append_nil]) (finished_follows hb) hlt
    (by simp) rfl (fun k c c' hc hc' => by simpa using finished_past hb hrun hc hc') ?_
  · rwa [List.append_nil, stridesOf, Option.toList_none, List.map_nil, List.append_nil] at hgrown
  intro c' hc' hd
  obtain ⟨k, hk⟩ := List.mem_iff_getElem?.mp hc'
  obtain ⟨c, hc, hfollows⟩ := getElem?_of_forall₂ (finished_follows hb) hk
  rw [finished_past hb hrun hc hk, hfollows.sequence]
  by_cases hki : k = i
  · rw [hki, hb, Option.some.injEq] at hc
    rw [Scenario.step?_eq, List.getElem?_eq_none_iff] at hs
    rw [← hc, past_of_runnable hrun, List.take_of_length_le hs]
  · refine h.whole c (List.mem_of_getElem? hc) ?_
    rw [Tree.finished_getElem?, List.getElem?_set, if_neg (Ne.symm hki), hc] at hk
    split at hk
    · obtain rfl : c.childDone = c' := Option.some.inj hk
      rw [← (childDone_follows c).2]
      exact hd
    · obtain rfl : c = c' := Option.some.inj hk
      exact hd

theorem step (h : Walked sc l log) (htree : Tree sc reached l) (hbudget : sc.Budget reached weight)
    (hb : l[i]? = some b) (hrun : b.wait = .runnable) (hstep : BranchStep sc l i b m) :
    Walked sc m (log ++ stridesOf i (sc.step? b.sequence b.step)) := by
  have hgrown := htree.step hbudget hb hrun hstep
  cases hstep with
  | pass hs hf hj => exact h.set_only hb hrun hs hgrown rfl rfl rfl rfl hf
  | @fork targets hs =>
    refine h.set _ hb hrun hs hgrown rfl rfl rfl rfl ?_ ?_
    · intro c hc
      obtain ⟨target, -, rfl⟩ := List.mem_map.mp hc
      rfl
    · rw [List.map_map]
      rfl
  | @hold w hw hr hd =>
    have hwait : ({ b with wait := w } : Branch).isDone = false := by
      rw [Branch.isDone]
      simpa using hd
    cases w with
    | runnable => exact absurd rfl hr
    | done => exact absurd rfl hd
    | operation op request =>
      obtain ⟨operation, hs⟩ := hw
      exact h.set_only hb hrun hs hgrown rfl rfl hwait rfl rfl
    | delay op =>
      obtain ⟨duration, hs⟩ := hw
      exact h.set_only hb hrun hs hgrown rfl rfl hwait rfl rfl
    | join => exact h.set_only hb hrun hw.1 hgrown rfl rfl hwait rfl rfl
  | finish hs =>
    rw [hs, stridesOf, Option.toList_none, List.map_nil, List.append_nil]
    exact h.finish hb hrun hs hgrown

lemma proceed (h : Walked sc l log) (hb : l[i]? = some b) {a : Await} (ha : b.await? = some a) :
    Walked sc (l.set i b.proceed) log := by
  have hdone : b.isDone = false := by
    cases hw : b.wait with
    | done => simp [Branch.await?, hw, Wait.number?] at ha
    | _ => rw [Branch.isDone, hw]; rfl
  have hsame : List.Forall₂ (fun c c' => c'.past sc = c.past sc ∧ c'.isDone = c.isDone ∧
      c'.sequence = c.sequence ∧ c'.parent = c.parent) l (l.set i b.proceed) :=
    forall₂_set (fun _ => ⟨rfl, rfl, rfl, rfl⟩) hb
      ⟨(past_of_await ha).symm, by rw [hdone]; rfl, rfl, rfl⟩
  have hages : List.Forall₂ Follows l (l.set i b.proceed) :=
    hsame.imp fun c c' hc => ⟨hc.2.2.1, hc.2.2.2, fun hd => hc.2.1.trans hd⟩
  refine ⟨?_, ?_, ?_, ?_, ?_⟩
  · rw [List.length_set]
    exact h.own
  · intro k c' hk
    obtain ⟨c, hc, hpast, -⟩ := getElem?_of_forall₂ hsame hk
    rw [h.past k c hc, hpast]
  · intro c' hc' hd
    obtain ⟨k, hk⟩ := List.mem_iff_getElem?.mp hc'
    obtain ⟨c, hc, hpast, hdone, hseq, -⟩ := getElem?_of_forall₂ hsame hk
    rw [hpast, hseq]
    exact h.whole c (List.mem_of_getElem? hc) (hdone.symm.trans hd)
  · intro k c' hk
    obtain ⟨c, hc, hpast, -⟩ := getElem?_of_forall₂ hsame hk
    have hoffspring : (offspring (l.set i b.proceed) k).map Branch.sequence =
        (offspring l k).map Branch.sequence := filter_parent_follows hages (some k)
    rw [hoffspring, h.forked k c hc, hpast]
  · exact (filter_parent_follows hages none).trans h.roots

lemma opening (sc : Scenario) : Walked sc (sc.initial.map fun id => .new id none) [] := by
  have hnew : ∀ b ∈ sc.initial.map fun id => Branch.new id none, b.past sc = [] ∧
      b.isDone = false ∧ b.parent = none := by
    intro b hb
    obtain ⟨id, -, rfl⟩ := List.mem_map.mp hb
    exact ⟨rfl, rfl, rfl⟩
  refine ⟨nofun, ?_, ?_, ?_, ?_⟩
  · intro k b hb
    rw [(hnew b (List.mem_of_getElem? hb)).1]
    rfl
  · intro b hb hd
    rw [(hnew b hb).2.1] at hd
    cases hd
  · intro k b hb
    have hnone : offspring (sc.initial.map fun id => Branch.new id none) k = [] := by
      refine List.filter_eq_nil_iff.mpr fun c hc => ?_
      simp [(hnew c hc).2.2]
    rw [hnone, (hnew b (List.mem_of_getElem? hb)).1]
    rfl
  · have hall : ((sc.initial.map fun id => Branch.new id none).filter fun c => c.parent == none) =
        sc.initial.map fun id => Branch.new id none := by
      refine List.filter_eq_self.mpr fun c hc => ?_
      simp [(hnew c hc).2.2]
    rw [hall, List.map_map]
    exact List.map_id _

lemma grown (h : Walked sc l log) (htree : Tree sc reached l)
    (hdone : ∀ b ∈ l, b.isDone = true) : Grown sc l where
  parent := htree.parent
  roots := h.roots
  forks k b hb := by
    have hmem := List.mem_of_getElem? hb
    rw [h.forked k b hb, h.whole b hmem (hdone b hmem)]
    rfl

end Walked

def operationsOf (log : List Stride) : List (Operation BoundValidator) :=
  log.filterMap fun x => x.step.operation?

/-- The branches of a session are no more than there may be, and each has taken some of the first
steps of its sequence, one after the other. -/
structure Within (sc : Scenario) (l : List Branch) (log : List Stride) : Prop where
  room : l.length ≤ sc.maxBranches
  own : ∀ x ∈ log, x.branch < l.length
  steps : ∀ (k : Nat) (b : Branch), l[k]? = some b → stepsBy log k <+: sc.stepsOf b.sequence

def Session.Logged (sc : Scenario) (s : Session) (log : List Stride) : Prop :=
  s.branches = [] ∧ log = [] ∨ Walked sc s.branches log

section Within

variable {sc : Scenario} {reached : Nat → Prop} {weight : Nat → Nat} {s : Session}
  {l m : List Branch}
  {log : List Stride}

lemma Walked.within (h : Walked sc s.branches log) (hs : s.Sound sc reached weight) :
    Within sc s.branches log where
  room := hs.length_le
  own := h.own
  steps k b hb := by
    rw [h.past k b hb]
    exact List.take_prefix _ _

lemma Session.Logged.within (h : s.Logged sc log) (hs : s.Sound sc reached weight) :
    Within sc s.branches log := by
  rcases h with ⟨hnil, rfl⟩ | hw
  · rw [hnil]
    exact ⟨Nat.zero_le _, nofun, nofun⟩
  · exact hw.within hs

lemma Session.Logged.vacant (h : s.Logged sc log) (hs : s.branches = []) : log = [] := by
  rcases h with ⟨-, hlog⟩ | hw
  · exact hlog
  · refine List.eq_nil_iff_forall_not_mem.mpr fun x hx => ?_
    have hlt := hw.own x hx
    rw [hs] at hlt
    cases hlt

lemma Within.congr (h : Within sc l log)
    (hseq : m.map Branch.sequence = l.map Branch.sequence) : Within sc m log := by
  have hlength : m.length = l.length := by
    rw [← List.length_map (f := Branch.sequence), hseq, List.length_map]
  refine ⟨by rw [hlength]; exact h.room, by rw [hlength]; exact h.own, fun k c hc => ?_⟩
  have hsame := congrArg (·[k]?) hseq
  simp only [List.getElem?_map, hc, Option.map_some] at hsame
  obtain ⟨b, hb, hbc⟩ := Option.map_eq_some_iff.mp hsame.symm
  rw [← hbc]
  exact h.steps k b hb

end Within

namespace Turn

variable {stage : Stage} {reached : Nat → Prop} {weight : Nat → Nat} {t t' : Turn} {i : Nat}
  {b : Branch} {log : List Stride}

def strides (stage : Stage) : Nat → Turn → List Stride
  | 0, _ => []
  | fuel + 1, t =>
    match t.session.firstRunnable? with
    | none => []
    | some branch =>
      match t.step stage branch with
      | (t', .alive) =>
        stridesOf branch (t.session.current? stage.scenario branch) ++ strides stage fuel t'
      | _ => []

lemma close_not_alive (t : Turn) (how : SessionEnd) : (t.close how).2 ≠ .alive := by
  unfold close
  generalize abandon t.requests t.session.branches = out
  obtain ⟨branches, requests, fault⟩ := out
  cases fault <;> simp

lemma step_issues (hb : t.session.branches[i]? = some b) (hstep : t.step stage i = (t', .alive)) :
    (issues t'.effects).map Prod.fst = (issues t.effects).map Prod.fst ++
      operationsOf (stridesOf i (t.session.current? stage.scenario i)) := by
  unfold Turn.step at hstep
  cases hs : t.session.current? stage.scenario i with
  | none =>
    rw [hs] at hstep
    simp only [finishBranch_eq hb, Prod.mk.injEq, and_true] at hstep
    subst hstep
    simp [stridesOf, operationsOf]
  | some step =>
    rw [hs] at hstep
    cases step with
    | action a =>
      simp only at hstep
      split at hstep
      · cases hstep
        simp [stridesOf, operationsOf, Step.operation?, onBranch, onSession]
      · exact absurd (congrArg Prod.snd hstep) (close_not_alive t .failed)
    | declare declaration key =>
      cases hstep
      simp [stridesOf, operationsOf, Step.operation?, onBranch, onSession]
    | operation operation =>
      simp only at hstep
      cases hr : t.requests.acquire with
      | mk request requests =>
        cases request with
        | none =>
          rw [issue, hr] at hstep
          cases hstep
        | some request =>
          rw [issue_eq stage hb operation hr] at hstep
          cases hstep
          simp [stridesOf, operationsOf, Step.operation?, issued]
    | fork targets =>
      cases hstep
      simp [stridesOf, operationsOf, Step.operation?, onBranch, onSession, Turn.fork]
    | join =>
      simp only at hstep
      split at hstep <;>
      · cases hstep
        simp [stridesOf, operationsOf, Step.operation?, onBranch, onSession]
    | delay duration =>
      cases hstep
      rw [delay_eq hb]
      simp [stridesOf, operationsOf, Step.operation?, rested]

structure Traced (sc : Scenario) (reached : Nat → Prop) (weight : Nat → Nat) (log : List Stride)
    (out : Turn × Verdict) : Prop where
  within : Within sc out.1.session.branches log
  going : (∀ how, out.2 ≠ .ended how) →
    out.1.Coherent sc reached weight ∧ out.1.session.Logged sc log
  completed : out.2 = .ended .completed →
    Walked sc out.1.session.branches log ∧ Tree sc reached out.1.session.branches ∧
      ∀ b ∈ out.1.session.branches, b.isDone = true

lemma Coherent.traced (h : t.Coherent stage.scenario reached weight)
    (hw : Walked stage.scenario t.session.branches log) {verdict : Verdict}
    (hgoes : ∀ how, verdict ≠ .ended how) :
    Traced stage.scenario reached weight log (t, verdict) :=
  ⟨hw.within h.sound, fun _ => ⟨h, .inr hw⟩, fun hf => absurd hf (hgoes _)⟩

lemma Coherent.traced_close (h : t.Coherent stage.scenario reached weight)
    (hw : Walked stage.scenario t.session.branches log) (how : SessionEnd)
    (hdone : how = .completed → ∀ b ∈ t.session.branches, b.isDone = true) :
    Traced stage.scenario reached weight log (t.close how) ∧
      (t.close how).1.effects = t.effects := by
  obtain ⟨t', hclose, hclosed⟩ := h.owns.close how
  rw [hclose]
  have hbranches : t'.session.branches =
      t.session.branches.map fun b => { b with wait := .done } := by rw [hclosed.session]
  refine ⟨⟨?_, fun hgoes => absurd rfl (hgoes how), fun hcompleted => ?_⟩, hclosed.effects⟩
  · refine (hw.within h.sound).congr ?_
    rw [hbranches, List.map_map]
    rfl
  · have hall := hdone (Verdict.ended.inj hcompleted)
    have hsame : t'.session.branches = t.session.branches := by
      rw [hbranches]
      refine (List.map_congr_left fun b hb => ?_).trans (List.map_id _)
      have hwait := hall b hb
      rw [Branch.isDone, beq_iff_eq] at hwait
      rw [← hwait]
      rfl
    simp only
    rw [hsame]
    exact ⟨hw, h.sound.tree, hall⟩

lemma Coherent.traced_rest (h : t.Coherent stage.scenario reached weight)
    (hw : Walked stage.scenario t.session.branches log) :
    Traced stage.scenario reached weight log t.rest ∧ t.rest.1.effects = t.effects := by
  unfold rest
  split
  · rename_i hdone
    exact h.traced_close hw .completed fun _ => List.all_eq_true.mp hdone
  · obtain ⟨htree, hgrowth, htyped, hbelow, hdistinct⟩ := h.sound
    have hsound : ({ t.session with state := .suspended } : Session).Sound stage.scenario reached
        weight := ⟨htree, hgrowth, htyped, hbelow, hdistinct⟩
    exact ⟨⟨hw.within h.sound, fun _ =>
      ⟨⟨hsound, h.pool, h.keeps.congr rfl rfl fun _ _ _ _ _ => .rfl⟩, .inr hw⟩, nofun⟩, rfl⟩

theorem steps_traced (hsc : stage.scenario.Sound reached weight) (fuel : Nat)
    (h : t.Coherent stage.scenario reached weight)
    (hw : Walked stage.scenario t.session.branches log) :
    Traced stage.scenario reached weight (log ++ t.strides stage fuel) (t.steps stage fuel) ∧
      (issues (t.steps stage fuel).1.effects).map Prod.fst =
        (issues t.effects).map Prod.fst ++ operationsOf (t.strides stage fuel) := by
  -- The log of the session goes on with the steps of the rounds, whatever ends them.
  induction fuel generalizing t log with
  | zero =>
    rw [strides, List.append_nil, operationsOf, List.filterMap_nil, List.append_nil]
    cases hfirst : t.session.firstRunnable? with
    | none =>
      have hrest : t.steps stage 0 = t.rest := by
        simp only [steps, hfirst]
      obtain ⟨htraced, heffects⟩ := h.traced_rest hw
      rw [hrest, heffects]
      exact ⟨htraced, rfl⟩
    | some i =>
      have hstop : t.steps stage 0 = (t, .alive) := by
        simp only [steps, hfirst]
      rw [hstop]
      exact ⟨h.traced hw (by simp), rfl⟩
  | succ fuel ih =>
    cases hfirst : t.session.firstRunnable? with
    | none =>
      have hrest : t.steps stage (fuel + 1) = t.rest := by
        simp only [steps, hfirst]
      have hnone : t.strides stage (fuel + 1) = [] := by
        simp only [strides, hfirst]
      obtain ⟨htraced, heffects⟩ := h.traced_rest hw
      rw [hrest, heffects, hnone, List.append_nil, operationsOf, List.filterMap_nil,
        List.append_nil]
      exact ⟨htraced, rfl⟩
    | some i =>
      obtain ⟨b, hb, hrun⟩ := firstRunnable?_some hfirst
      have hcurrent : t.session.current? stage.scenario i =
          stage.scenario.step? b.sequence b.step := by
        unfold Session.current?
        rw [hb]
      have hstepped := step_stepped (h.ready hsc hb hrun)
      rw [steps, strides, hfirst]
      simp only
      -- The entry of this step stands in front of those of the rounds that are left.
      generalize hout : t.step stage i = out at hstepped
      cases hstepped with
      | @alive t' ht =>
        have hwalked := hw.step h.sound.tree hsc.budget hb hrun ht.branchStep
        rw [← hcurrent] at hwalked
        obtain ⟨htraced, heffects⟩ := ih (h.takes hsc hb hrun ht) hwalked
        rw [List.append_assoc] at htraced
        refine ⟨htraced, heffects.trans ?_⟩
        rw [step_issues hb hout, operationsOf, operationsOf, operationsOf, List.filterMap_append,
          List.append_assoc]
      | failed =>
        obtain ⟨htraced, heffects⟩ := h.traced_close hw .failed fun h => (by cases h)
        obtain ⟨t', hclose, -⟩ := h.owns.close .failed
        rw [hclose] at htraced heffects ⊢
        simp only at heffects ⊢
        rw [List.append_nil, heffects, operationsOf, List.filterMap_nil, List.append_nil]
        exact ⟨htraced, rfl⟩
      | full hfull =>
        simp only
        rw [List.append_nil, operationsOf, List.filterMap_nil, List.append_nil]
        exact ⟨h.traced hw (by simp), rfl⟩

end Turn

end LoadEngine
