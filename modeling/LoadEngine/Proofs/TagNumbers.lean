import LoadEngine.Proofs.TurnRun

/-! The tags that one session slot hands out over its whole life, whatever happens to it and through
any number of users. Every wait gets the next number, so no tag is ever handed out twice; and what
comes with a tag that is no longer waited for, or not yet, changes nothing. -/

namespace LoadEngine

open Rehearsal (issues schedules)

def waitTags (told : List Effect) : List Tag := (schedules told).map Timer.tag

def callTags (told : List Effect) : List Tag := (issues told).map Prod.snd

@[simp] lemma waitTags_append (a b : List Effect) :
    waitTags (a ++ b) = waitTags a ++ waitTags b := by
  simp [waitTags]

@[simp] lemma callTags_append (a b : List Effect) :
    callTags (a ++ b) = callTags a ++ callTags b := by
  simp [callTags]

namespace Session

def Numbered (s : Session) (op : Nat) : Prop := ∃ b ∈ s.branches, b.wait.number? = some op

structure Handed (phase : Nat) (told : List Effect) (s : Session) : Prop where
  numbers : (waitTags told).map Tag.op = List.range s.nextOp
  own : ∀ tag ∈ waitTags told,
    tag.phase = phase ∧ tag.slot = s.slot ∧ tag.generation ≤ s.generation
  calls : (callTags told).Sublist (waitTags told)
  below : ∀ op, s.Numbered op → op < s.nextOp

lemma numbered_set {s : Session} {op i : Nat} {b : Branch}
    (h : Numbered { s with branches := s.branches.set i b } op) :
    b.wait.number? = some op ∨ s.Numbered op := by
  obtain ⟨c, hc, hop⟩ := h
  rcases List.mem_or_eq_of_mem_set hc with hc | rfl
  · exact .inr ⟨c, hc, hop⟩
  · exact .inl hop

lemma numbered_onBranch {s : Session} {op i : Nat} {f : Branch → Branch}
    (hf : ∀ b, (f b).wait.number? = some op → b.wait.number? = some op)
    (h : (s.onBranch i f).Numbered op) : s.Numbered op := by
  cases hb : s.branches[i]? with
  | none =>
    rw [onBranch, List.modify_eq_self (List.getElem?_eq_none_iff.mp hb)] at h
    exact h
  | some b =>
    rw [onBranch, modify_eq_set hb] at h
    rcases numbered_set h with hnew | hold
    · exact ⟨b, List.mem_of_getElem? hb, hf b hnew⟩
    · exact hold

end Session

namespace Turn

structure Quiet (t t' : Turn) : Prop where
  slot : t'.session.slot = t.session.slot
  generation : t.session.generation ≤ t'.session.generation
  nextOp : t'.session.nextOp = t.session.nextOp
  effects : t'.effects = t.effects
  numbered : ∀ op, t'.session.Numbered op → t.session.Numbered op

variable {stage : Stage} {t t' t'' : Turn} {before : List Effect} {phase : Nat}

lemma Quiet.refl (t : Turn) : Quiet t t := ⟨rfl, Nat.le_refl _, rfl, rfl, fun _ h => h⟩

lemma Quiet.trans (h : Quiet t t') (h' : Quiet t' t'') : Quiet t t'' where
  slot := h'.slot.trans h.slot
  generation := h.generation.trans h'.generation
  nextOp := h'.nextOp.trans h.nextOp
  effects := h'.effects.trans h.effects
  numbered op hop := h.numbered op (h'.numbered op hop)

lemma Quiet.handed (hq : Quiet t t') (h : t.session.Handed phase (before ++ t.effects)) :
    t'.session.Handed phase (before ++ t'.effects) := by
  rw [hq.effects]
  refine ⟨?_, fun tag htag => ?_, h.calls, fun op hop => ?_⟩
  · rw [hq.nextOp]
    exact h.numbers
  · obtain ⟨hphase, hslot, hgeneration⟩ := h.own tag htag
    exact ⟨hphase, hslot.trans hq.slot.symm, hgeneration.trans hq.generation⟩
  · rw [hq.nextOp]
    exact h.below op (hq.numbered op hop)

lemma onBranch_quiet (t : Turn) (i : Nat) {f : Branch → Branch}
    (hf : ∀ b op, (f b).wait.number? = some op → b.wait.number? = some op) :
    Quiet t (t.onBranch i f) :=
  ⟨rfl, Nat.le_refl _, rfl, rfl, fun op => Session.numbered_onBranch fun b => hf b op⟩

lemma proceed_quiet (t : Turn) (i : Nat) : Quiet t (t.onBranch i .proceed) :=
  t.onBranch_quiet i fun _ _ h => by cases h

lemma stop_quiet (t : Turn) (i : Nat) :
    Quiet t (t.onBranch i fun b => { b with wait := .runnable }) :=
  t.onBranch_quiet i fun _ _ h => by cases h

lemma arena_quiet (t : Turn) (arena : List Resource) :
    Quiet t { t with session := { t.session with arena } } :=
  ⟨rfl, Nat.le_refl _, rfl, rfl, fun _ h => h⟩

lemma childDone_number? {b : Branch} {op : Nat} (h : b.childDone.wait.number? = some op) :
    b.wait.number? = some op := by
  unfold Branch.childDone at h
  simp only at h
  split at h
  · cases h
  · exact h

lemma finishBranch_quiet (t : Turn) (i : Nat) : Quiet t (t.finishBranch i) := by
  have hdone : Quiet t (t.onBranch i fun b => { b with wait := .done }) :=
    t.onBranch_quiet i fun _ _ h => by cases h
  unfold finishBranch
  simp only
  cases t.session.branches[i]? >>= Branch.parent with
  | none => exact hdone
  | some parent => exact hdone.trans (onBranch_quiet _ parent fun _ _ h => childDone_number? h)

lemma fork_quiet (t : Turn) (i : Nat) (targets : List Target) : Quiet t (t.fork i targets) := by
  have hcounted : Quiet t
      (t.onBranch i fun b => { b with children := b.children + targets.length }) :=
    t.onBranch_quiet i fun _ _ h => h
  refine hcounted.trans ⟨rfl, Nat.le_refl _, rfl, rfl, ?_⟩
  rintro op ⟨b, hb, hop⟩
  rcases List.mem_append.mp hb with hb | hb
  · exact ⟨b, hb, hop⟩
  · obtain ⟨target, -, rfl⟩ := List.mem_map.mp hb
    cases hop

lemma abandon_numbered (requests : Pool Request) (l : List Branch) {op : Nat}
    (h : ∃ b ∈ (abandon requests l).1, b.wait.number? = some op) :
    ∃ b ∈ l, b.wait.number? = some op := by
  induction l generalizing requests with
  | nil => exact h
  | cons b rest ih =>
    unfold abandon at h
    simp only at h
    split at h
    · exact h
    · rename_i requests' _
      obtain ⟨c, hc, hop⟩ := h
      rcases List.mem_cons.mp hc with rfl | hc
      · cases hop
      · obtain ⟨d, hd, hop⟩ := ih requests' ⟨c, hc, hop⟩
        exact ⟨d, List.mem_cons_of_mem _ hd, hop⟩

lemma close_quiet (t : Turn) (how : SessionEnd) : Quiet t (t.close how).1 := by
  have hnumbered : ∀ op, (∃ b ∈ (abandon t.requests t.session.branches).1,
      b.wait.number? = some op) → ∃ b ∈ t.session.branches, b.wait.number? = some op :=
    fun _ => abandon_numbered t.requests t.session.branches
  unfold close
  generalize abandon t.requests t.session.branches = out at hnumbered
  obtain ⟨branches, requests, fault⟩ := out
  cases fault with
  | none => exact ⟨rfl, Nat.le_succ _, rfl, rfl, hnumbered⟩
  | some fault => exact ⟨rfl, Nat.le_refl _, rfl, rfl, hnumbered⟩

lemma rest_quiet (t : Turn) : Quiet t t.rest.1 := by
  unfold rest
  split
  · exact t.close_quiet .completed
  · exact ⟨rfl, Nat.le_refl _, rfl, rfl, fun _ h => h⟩

lemma onCursors_quiet (t : Turn) (sc : Scenario) (validators : List BoundValidator) (i : Nat)
    (f : Search.Validator → Search.Cursor → Search.Cursor) :
    Quiet t (t.onSession fun s => s.onCursors sc validators i f) := by
  rw [onSession, Session.onCursors_frame]
  exact t.arena_quiet _

lemma execute_quiet {i : Nat} {action : Action Variable} {s : Session}
    (h : execute stage t.session i action = some s) : Quiet t { t with session := s } := by
  cases action with
  | setInt var value => cases h; exact t.arena_quiet _
  | addInt var delta =>
    simp only [execute] at h
    split at h
    · cases h
      exact t.arena_quiet _
    · cases h
  | setText var value => cases h; exact t.arena_quiet _
  | unset var => cases h; exact t.arena_quiet _
  | log message => cases h; exact .refl t

lemma takeOp_handed (h : t.session.Handed phase (before ++ t.effects)) {s : Session} {i : Nat}
    {timer : Timer} {calls : List Effect}
    (hs : s.slot = t.session.slot ∧ s.generation = t.session.generation ∧
      s.nextOp = t.session.nextOp + 1)
    (hnumbered : ∀ op, s.Numbered op → op = t.session.nextOp ∨ t.session.Numbered op)
    (htag : timer.tag = t.session.tag phase i t.session.nextOp)
    (hcalls : waitTags calls = [] ∧ (callTags calls).Sublist [timer.tag]) :
    s.Handed phase (before ++ (t.effects ++ .schedule timer :: calls)) := by
  have htold : waitTags (before ++ (t.effects ++ .schedule timer :: calls)) =
      waitTags (before ++ t.effects) ++ [timer.tag] := by
    have hlast : waitTags (.schedule timer :: calls) = [timer.tag] :=
      congrArg (timer.tag :: ·) hcalls.1
    rw [← List.append_assoc, waitTags_append, hlast]
  refine ⟨?_, ?_, ?_, ?_⟩
  · rw [htold, List.map_append, h.numbers, hs.2.2, List.range_succ, htag]
    rfl
  · intro tag hmem
    rw [htold, List.mem_append, List.mem_singleton] at hmem
    rw [hs.1, hs.2.1]
    rcases hmem with hmem | rfl
    · exact h.own tag hmem
    · rw [htag]
      exact ⟨rfl, rfl, Nat.le_refl _⟩
  · rw [htold, ← List.append_assoc, callTags_append]
    exact h.calls.append hcalls.2
  · intro op hop
    rw [hs.2.2]
    rcases hnumbered op hop with rfl | hold
    · exact Nat.lt_succ_self _
    · exact Nat.lt_succ_of_lt (h.below op hold)

lemma issue_handed (h : t.session.Handed stage.phase (before ++ t.effects)) (i : Nat)
    (operation : Operation BoundValidator) :
    (t.issue stage i operation).1.session.Handed stage.phase
      (before ++ (t.issue stage i operation).1.effects) := by
  cases hr : t.requests.acquire with
  | mk slot requests =>
    cases slot with
    | none =>
      simp only [issue, hr]
      exact h
    | some request =>
      obtain ⟨arena, harena⟩ : ∃ arena, Session.onCursors stage.scenario
          { t.session with nextOp := t.session.nextOp + 1 } operation.validators i
            (fun _ _ => .start) =
          { t.session with nextOp := t.session.nextOp + 1, arena } :=
        ⟨_, Session.onCursors_frame ..⟩
      simp only [issue, hr, takeOp, onSession, harena, onBranch, ask, List.append_assoc,
        List.cons_append, List.nil_append]
      refine takeOp_handed h ⟨rfl, rfl, rfl⟩ (fun op hop => ?_) rfl ⟨rfl, ?_⟩
      · by_cases hnew : op = t.session.nextOp
        · exact .inl hnew
        · refine .inr (Session.numbered_onBranch (s := t.session) (fun b hb => ?_) hop)
          exact absurd (Option.some.inj hb).symm hnew
      · exact List.Sublist.refl _

lemma delay_handed (h : t.session.Handed stage.phase (before ++ t.effects)) (i : Nat)
    (duration : Nanos) : (t.delay stage i duration).session.Handed stage.phase
      (before ++ (t.delay stage i duration).effects) := by
  simp only [delay, takeOp, onSession, onBranch, ask]
  refine takeOp_handed h ⟨rfl, rfl, rfl⟩ (fun op hop => ?_) rfl ⟨rfl, List.nil_sublist _⟩
  by_cases hnew : op = t.session.nextOp
  · exact .inl hnew
  · refine .inr (Session.numbered_onBranch (s := t.session) (fun b hb => ?_) hop)
    exact absurd (Option.some.inj hb).symm hnew

lemma step_handed (h : t.session.Handed stage.phase (before ++ t.effects)) (i : Nat) :
    (t.step stage i).1.session.Handed stage.phase (before ++ (t.step stage i).1.effects) := by
  unfold step
  simp only
  split
  · exact (t.finishBranch_quiet i).handed h
  · rename_i action _
    cases hs : execute stage t.session i action with
    | some s => exact ((execute_quiet hs).trans (proceed_quiet _ i)).handed h
    | none => exact (t.close_quiet .failed).handed h
  · exact ((t.arena_quiet _).trans (proceed_quiet _ i)).handed h
  · exact issue_handed h i _
  · exact ((t.fork_quiet i _).trans (proceed_quiet _ i)).handed h
  · split
    · exact (t.onBranch_quiet i fun _ _ hb => by cases hb).handed h
    · exact (t.proceed_quiet i).handed h
  · exact delay_handed h i _

lemma steps_handed (fuel : Nat) (h : t.session.Handed stage.phase (before ++ t.effects)) :
    (t.steps stage fuel).1.session.Handed stage.phase
      (before ++ (t.steps stage fuel).1.effects) := by
  induction fuel generalizing t with
  | zero =>
    unfold steps
    cases t.session.firstRunnable? with
    | none => exact t.rest_quiet.handed h
    | some i => exact h
  | succ fuel ih =>
    unfold steps
    cases t.session.firstRunnable? with
    | none => exact t.rest_quiet.handed h
    | some i =>
      have hstep := step_handed h i
      simp only
      generalize t.step stage i = out at hstep
      obtain ⟨t', verdict⟩ := out
      cases verdict with
      | alive => exact ih hstep
      | ended how => exact hstep
      | broken fault => exact hstep

lemma run_handed (h : t.session.Handed stage.phase (before ++ t.effects)) :
    (t.run stage).1.session.Handed stage.phase (before ++ (t.run stage).1.effects) := by
  have hrunning : Quiet t (t.onSession fun s => { s with state := .running }) :=
    ⟨rfl, Nat.le_refl _, rfl, rfl, fun _ hop => hop⟩
  exact steps_handed _ (hrunning.handed h)

lemma finishOperation_handed (h : t.session.Handed stage.phase (before ++ t.effects)) (op : Nat)
    (p : Pending) (outcome : Outcome) :
    (t.finishOperation stage op p outcome).1.session.Handed stage.phase
      (before ++ (t.finishOperation stage op p outcome).1.effects) := by
  unfold finishOperation
  simp only
  split
  · exact h
  · rename_i record _
    split
    · exact h
    · rename_i requests _
      have hsettled (recorder : Recorder) : Quiet t { t with requests, recorder } :=
        ⟨rfl, Nat.le_refl _, rfl, rfl, fun _ hop => hop⟩
      split
      · exact run_handed (((hsettled _).trans (proceed_quiet _ _)).handed h)
      · exact (((hsettled _).trans (stop_quiet _ _)).trans (close_quiet _ .failed)).handed h

theorem act_handed (h : t.session.Handed stage.phase (before ++ t.effects)) (cause : Cause) :
    (cause.act stage t).1.session.Handed stage.phase
      (before ++ (cause.act stage t).1.effects) := by
  cases cause with
  | start =>
    have hopened : Quiet t (t.onSession fun s => { s with
        branches :=
          s.branches ++ stage.scenario.initial.map fun sequence => .new sequence none }) := by
      refine ⟨rfl, Nat.le_refl _, rfl, rfl, ?_⟩
      rintro op ⟨b, hb, hop⟩
      rcases List.mem_append.mp hb with hb | hb
      · exact ⟨b, hb, hop⟩
      · obtain ⟨sequence, -, rfl⟩ := List.mem_map.mp hb
        cases hop
    exact run_handed (hopened.handed h)
  | data tag fragment =>
    simp only [Cause.act, onData]
    split
    · exact h
    · exact h
    · exact (t.onCursors_quiet _ _ _ _).handed h
  | complete tag completion =>
    simp only [Cause.act, onCompletion]
    split
    · exact h
    · exact h
    · exact finishOperation_handed ((t.onCursors_quiet _ _ _ _).handed h) tag.op _ _
  | timer due =>
    obtain ⟨time, tag, kind⟩ := due
    cases kind with
    | deadline =>
      simp only [Cause.act, onTimer, onDeadline]
      split
      · exact h
      · exact h
      · exact finishOperation_handed h tag.op _ _
    | wake =>
      simp only [Cause.act, onTimer, onWake]
      split
      · exact h
      · exact h
      · split
        · exact run_handed ((t.proceed_quiet _).handed h)
        · exact h
  | terminate =>
    simp only [Cause.act, terminate]
    split
    · exact (t.close_quiet .terminated).handed h
    · exact h

end Turn

end LoadEngine
