import LoadEngine.Proofs.ArenaCursors
import LoadEngine.Proofs.BranchTree
import LoadEngine.Proofs.Pool

/-! What one step of a turn can be. Either the branch goes on, finishes, forks or joins, and nothing
outside the session changes; or it begins to wait for an operation or a delay; or an action fails
and the session with it; or there is no slot left for the operation. -/

namespace LoadEngine

structure Await where
  sequence : Nat
  step : Nat
  wait : Wait
deriving DecidableEq, Repr

def Wait.number? : Wait → Option Nat
  | .operation op _ | .delay op => some op
  | _ => none

def Branch.await? (b : Branch) : Option Await :=
  if b.wait.number?.isSome then some ⟨b.sequence, b.step, b.wait⟩ else none

def awaits (l : List Branch) (k : Nat) : Option Await := l[k]? >>= Branch.await?

section Awaits

variable {l : List Branch} {i k : Nat} {b : Branch}

lemma awaits_set (h : l[i]? = some b) (b' : Branch) (k : Nat) :
    awaits (l.set i b') k = if k = i then b'.await? else awaits l k := by
  have hlt := (List.getElem?_eq_some_iff.mp h).1
  unfold awaits
  rw [List.getElem?_set]
  by_cases hk : k = i
  · subst hk
    simp [hlt]
  · simp [hk, Ne.symm hk]

lemma awaits_of_getElem? (h : l[k]? = some b) : awaits l k = b.await? := by
  rw [awaits, h]
  rfl

lemma awaits_append_fresh {new : List Branch} (h : ∀ c ∈ new, c.await? = none) (k : Nat) :
    awaits (l ++ new) k = awaits l k := by
  unfold awaits
  by_cases hk : k < l.length
  · rw [List.getElem?_append_left hk]
  · rw [List.getElem?_append_right (Nat.le_of_not_lt hk),
      List.getElem?_eq_none (Nat.le_of_not_lt hk)]
    cases hn : new[k - l.length]? with
    | none => rfl
    | some c => exact h c (List.mem_of_getElem? hn)

lemma childDone_await? (c : Branch) : c.childDone.await? = c.await? := by
  unfold Branch.childDone
  simp only
  split
  · rename_i h
    simp [Branch.await?, Branch.proceed, h.2, Wait.number?]
  · rfl

lemma awaits_modify_childDone (l : List Branch) (p k : Nat) :
    awaits (l.modify p .childDone) k = awaits l k := by
  cases hp : l[p]? with
  | none => rw [List.modify_eq_self (List.getElem?_eq_none_iff.mp hp)]
  | some c =>
    rw [modify_eq_set hp, awaits_set hp, childDone_await?]
    split
    · rename_i hk
      rw [hk, awaits_of_getElem? hp]
    · rfl

lemma awaits_finished (h : l[i]? = some b) (hb : b.await? = none) (k : Nat) :
    awaits (finished l i b) k = awaits l k := by
  have hset : awaits (l.set i { b with wait := .done }) k = awaits l k := by
    rw [awaits_set h]
    split
    · rename_i hk
      rw [hk, awaits_of_getElem? h, hb]
      rfl
    · rfl
  unfold finished
  simp only
  split
  · exact hset
  · rw [awaits_modify_childDone, hset]

lemma awaits_set_quiet (h : l[i]? = some b) (hb : b.await? = none) {b' : Branch}
    (hb' : b'.await? = none) (k : Nat) : awaits (l.set i b') k = awaits l k := by
  rw [awaits_set h]
  split
  · rename_i hk
    rw [hk, awaits_of_getElem? h, hb, hb']
  · rfl

lemma await?_of_runnable (h : b.wait = .runnable) : b.await? = none := by
  simp [Branch.await?, h, Wait.number?]

end Awaits

structure Wrote (sc : Scenario) (s : Session) (arena : List Resource) : Prop where
  typed : Typed sc arena
  cursors : ∀ key branch,
    ({ s with arena } : Session).cursor? sc key branch = s.cursor? sc key branch

namespace Turn

variable {stage : Stage} {t : Turn} {i : Nat} {b : Branch}

def issued (stage : Stage) (t : Turn) (i : Nat) (b : Branch)
    (operation : Operation BoundValidator) (request : Nat) (requests : Pool Request) : Turn :=
  let tag := t.session.tag stage.phase i t.session.nextOp
  { session := { t.session with
      nextOp := t.session.nextOp + 1
      branches := t.session.branches.set i { b with wait := .operation t.session.nextOp request }
      arena := (t.session.onCursors stage.scenario operation.validators i fun _ _ => .start).arena }
    requests := requests.update request fun _ =>
      ⟨some t.session.slot, t.session.generation, t.session.nextOp, some stage.now⟩
    recorder := t.recorder.recordRequest operation.metric
    effects := t.effects ++
      [.schedule ⟨stage.now + operation.timeout, tag, .deadline⟩, .issue operation tag] }

def rested (stage : Stage) (t : Turn) (i : Nat) (b : Branch) (duration : Nanos) : Turn :=
  let tag := t.session.tag stage.phase i t.session.nextOp
  { t with
    session := { t.session with
      nextOp := t.session.nextOp + 1
      branches := t.session.branches.set i { b with wait := .delay t.session.nextOp } }
    effects := t.effects ++ [.schedule ⟨stage.now + duration, tag, .wake⟩] }

/-- One step of a branch that leaves the session alive. -/
inductive Takes (stage : Stage) (t : Turn) (i : Nat) (b : Branch) : Turn → Prop
  | move {branches : List Branch} {arena : List Resource}
      (hs : BranchStep stage.scenario t.session.branches i b branches)
      (hq : ∀ k, awaits branches k = awaits t.session.branches k)
      (hw : Wrote stage.scenario t.session arena) :
      Takes stage t i b { t with session := { t.session with branches, arena } }
  | issue {operation : Operation BoundValidator} {request : Nat} {requests : Pool Request}
      (hs : stage.scenario.step? b.sequence b.step = some (.operation operation))
      (hr : t.requests.acquire = (some request, requests)) :
      Takes stage t i b (issued stage t i b operation request requests)
  | rest {duration : Nanos}
      (hs : stage.scenario.step? b.sequence b.step = some (.delay duration)) :
      Takes stage t i b (rested stage t i b duration)

inductive Stepped (stage : Stage) (t : Turn) (i : Nat) (b : Branch) : Turn × Verdict → Prop
  | alive {t' : Turn} (h : Takes stage t i b t') : Stepped stage t i b (t', .alive)
  | failed : Stepped stage t i b (t.close .failed)
  | full (h : t.requests.free = []) :
      Stepped stage t i b (t, .broken (.requestOverflow stage.phase t.requests.capacity))

lemma onBranch_eq (h : t.session.branches[i]? = some b) (f : Branch → Branch) :
    t.onBranch i f =
      { t with session := { t.session with branches := t.session.branches.set i (f b) } } := by
  simp only [onBranch, onSession, Session.onBranch, modify_eq_set h]

lemma finishBranch_eq (h : t.session.branches[i]? = some b) :
    t.finishBranch i = { t with session := { t.session with
      branches := finished t.session.branches i b } } := by
  unfold finishBranch finished
  simp only [h, Option.bind_eq_bind, Option.bind_some]
  rw [onBranch_eq h]
  split <;> rename_i hp <;> rw [hp]
  rfl

lemma wrote_refl (h : Typed stage.scenario t.session.arena) :
    Wrote stage.scenario t.session t.session.arena := ⟨h, fun _ _ => rfl⟩

structure Ready (stage : Stage) (t : Turn) (i : Nat) (b : Branch) : Prop where
  branch : t.session.branches[i]? = some b
  runnable : b.wait = .runnable
  typed : Typed stage.scenario t.session.arena
  place : i < stage.scenario.maxBranches
  resolved : ∀ step ∈ stage.scenario.stepsOf b.sequence, stage.scenario.layout.WellResolved step

lemma Ready.pass (h : Ready stage t i b) {step : Step Variable}
    (hs : stage.scenario.step? b.sequence b.step = some step) (hf : step.forks = [])
    (hj : step = .join → b.children = 0) {arena : List Resource}
    (hw : Wrote stage.scenario t.session arena) :
    Stepped stage t i b
      (({ t with session := { t.session with arena } } : Turn).onBranch i .proceed, .alive) := by
  have hnone := await?_of_runnable h.runnable
  have hbranch : ({ t with session := { t.session with arena } } : Turn).session.branches[i]? =
      some b := h.branch
  rw [onBranch_eq hbranch]
  exact .alive (.move (.pass hs hf hj) (awaits_set_quiet h.branch hnone rfl) hw)

lemma execute_wrote (h : Ready stage t i b) {a : Action Variable}
    (hs : stage.scenario.step? b.sequence b.step = some (.action a)) {s : Session}
    (he : execute stage t.session i a = some s) :
    ∃ arena, s = { t.session with arena } ∧ Wrote stage.scenario t.session arena := by
  rw [Scenario.step?_eq] at hs
  have hvars := (h.resolved _ (List.mem_of_getElem? hs)).2 a
  have hwrite : ∀ (var : Variable) (r : Resource), a.reference? = some var →
      r.kind = .variable →
      ∃ arena, t.session.onResource stage.scenario var.key i (fun _ => r) =
          { t.session with arena } ∧
        Wrote stage.scenario t.session arena := by
    intro var r hvar hr
    obtain ⟨htyped, hcursors⟩ := Session.write_variable (f := fun _ => r) h.typed
      (hvars var rfl hvar) h.place fun _ => hr
    exact ⟨_, rfl, htyped, hcursors⟩
  cases a with
  | setInt var value =>
    cases he
    exact hwrite var (.int value) rfl rfl
  | addInt var delta =>
    simp only [execute] at he
    split at he
    · cases he
      exact hwrite var (.int _) rfl rfl
    · cases he
  | setText var value =>
    cases he
    exact hwrite var (.text value) rfl rfl
  | unset var =>
    cases he
    exact hwrite var .unset rfl rfl
  | log message =>
    cases he
    exact ⟨_, rfl, wrote_refl h.typed⟩

lemma issue_eq (stage : Stage) (h : t.session.branches[i]? = some b)
    (operation : Operation BoundValidator) {request : Nat} {requests : Pool Request}
    (hr : t.requests.acquire = (some request, requests)) :
    t.issue stage i operation = (issued stage t i b operation request requests, .alive) := by
  have hsame : ({ t.session with nextOp := t.session.nextOp + 1 } : Session).arena =
      t.session.arena := rfl
  have harena := Session.onCursors_arena_congr stage.scenario hsame operation.validators i
    fun _ _ => .start
  have hframe := Session.onCursors_frame stage.scenario
    { t.session with nextOp := t.session.nextOp + 1 } operation.validators i fun _ _ => .start
  rw [harena] at hframe
  simp only [issue, hr, takeOp, onSession, hframe, onBranch, Session.onBranch, modify_eq_set h, ask,
    issued, List.append_assoc, List.cons_append, List.nil_append, Session.tag]

lemma delay_eq (h : t.session.branches[i]? = some b) (duration : Nanos) :
    t.delay stage i duration = rested stage t i b duration := by
  simp only [delay, takeOp, onSession, onBranch, Session.onBranch, modify_eq_set h, ask, rested,
    Session.tag]

lemma fork_eq (h : t.session.branches[i]? = some b) (targets : List Target) :
    (t.fork i targets).onBranch i .proceed = { t with session := { t.session with
      branches := t.session.branches.set i
        { b with children := b.children + targets.length }.proceed ++
          targets.map fun target => .new target.id (some i) } } := by
  have hlt := (List.getElem?_eq_some_iff.mp h).1
  have hset : (t.session.branches.set i { b with children := b.children + targets.length } ++
      targets.map fun target => Branch.new target.id (some i))[i]? =
        some { b with children := b.children + targets.length } := by
    rw [List.getElem?_append_left (by simpa using hlt), List.getElem?_set_self hlt]
  simp only [fork, onBranch, onSession, Session.onBranch, modify_eq_set h, modify_eq_set hset]
  rw [List.set_append_left _ _ (by simpa using hlt), List.set_set]

lemma Ready.declare (h : Ready stage t i b) {declaration : Declaration} {key : ResourceKey}
    (hs : stage.scenario.step? b.sequence b.step = some (.declare declaration key)) :
    Stepped stage t i b
      ((t.onSession fun s => s.onResource stage.scenario key i fun _ => .unset).onBranch i
        .proceed, .alive) := by
  have hkey : stage.scenario.layout.kind? key = some .variable := by
    rw [Scenario.step?_eq] at hs
    exact (h.resolved _ (List.mem_of_getElem? hs)).1
  obtain ⟨htyped, hcursors⟩ := Session.write_variable (f := fun _ => .unset) h.typed hkey h.place
    fun _ => rfl
  exact h.pass hs rfl nofun ⟨htyped, hcursors⟩

lemma Ready.issue (h : Ready stage t i b) {operation : Operation BoundValidator}
    (hs : stage.scenario.step? b.sequence b.step = some (.operation operation)) :
    Stepped stage t i b (t.issue stage i operation) := by
  cases hr : t.requests.acquire with
  | mk slot requests =>
    cases slot with
    | none =>
      obtain ⟨hfree, hsame⟩ := Pool.acquire_none (p := t.requests) (by rw [hr])
      rw [hr] at hsame
      simp only at hsame
      simp only [Turn.issue, hr]
      rw [hsame]
      exact .full hfree
    | some request =>
      rw [issue_eq stage h.branch operation hr]
      exact .alive (.issue hs hr)

lemma Ready.fork (h : Ready stage t i b) {targets : List Target}
    (hs : stage.scenario.step? b.sequence b.step = some (.fork targets)) :
    Stepped stage t i b ((t.fork i targets).onBranch i .proceed, .alive) := by
  rw [fork_eq h.branch]
  refine .alive (.move (.fork hs) (fun k => ?_) (wrote_refl h.typed))
  rw [awaits_append_fresh, awaits_set_quiet h.branch (await?_of_runnable h.runnable) rfl]
  intro c hc
  obtain ⟨target, -, rfl⟩ := List.mem_map.mp hc
  rfl

theorem step_stepped (h : Ready stage t i b) : Stepped stage t i b (t.step stage i) := by
  have hnone := await?_of_runnable h.runnable
  have hcurrent : t.session.current? stage.scenario i =
      stage.scenario.step? b.sequence b.step := by
    unfold Session.current?
    rw [h.branch]
  unfold Turn.step
  rw [hcurrent]
  cases hs : stage.scenario.step? b.sequence b.step with
  | none =>
    simp only
    rw [finishBranch_eq h.branch]
    exact .alive (.move (.finish hs) (awaits_finished h.branch hnone) (wrote_refl h.typed))
  | some step =>
    cases step with
    | action a =>
      simp only
      cases he : execute stage t.session i a with
      | none => exact .failed
      | some s =>
        obtain ⟨arena, rfl, hw⟩ := execute_wrote h hs he
        exact h.pass hs rfl nofun hw
    | declare declaration key => exact h.declare hs
    | operation operation => exact h.issue hs
    | fork targets => exact h.fork hs
    | join =>
      simp only [h.branch, Option.any_some, decide_eq_true_eq]
      split
      · rename_i hpos
        rw [onBranch_eq h.branch]
        refine .alive (.move (.hold ⟨hs, hpos⟩ (by simp) (by simp)) ?_ (wrote_refl h.typed))
        exact awaits_set_quiet h.branch hnone rfl
      · rename_i hzero
        exact h.pass hs rfl (fun _ => Nat.eq_zero_of_not_pos hzero) (wrote_refl h.typed)
    | delay duration =>
      simp only
      rw [delay_eq h.branch]
      exact .alive (.rest hs)

end Turn

end LoadEngine
