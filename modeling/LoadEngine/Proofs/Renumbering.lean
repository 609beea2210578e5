import LoadEngine.Proofs.StaleTags

/-! Sessions under other numbers. Nothing that a session does depends on how many users its slot has
had, or on how many waits were numbered before: with all of these numbers moved by as much, it takes
the same turn, and what it asks for has the tags moved as well. -/

namespace LoadEngine

/-- How far the numbers of a slot are moved: the generations of its users, and its waits. -/
structure Offset where
  generations : Nat
  ops : Nat

def Wait.shift (a : Offset) : Wait → Wait
  | .operation op request => .operation (op + a.ops) request
  | .delay op => .delay (op + a.ops)
  | .runnable => .runnable
  | .join => .join
  | .done => .done

def Branch.shift (a : Offset) (b : Branch) : Branch := { b with wait := b.wait.shift a }

section Shift

variable (σ : Nat → Offset)

def Session.shift (s : Session) : Session :=
  { s with
    generation := s.generation + (σ s.slot).generations
    nextOp := s.nextOp + (σ s.slot).ops
    branches := s.branches.map (.shift (σ s.slot)) }

def Tag.shift (tag : Tag) : Tag :=
  { tag with
    generation := tag.generation + (σ tag.slot).generations
    op := tag.op + (σ tag.slot).ops }

def Timer.shift (timer : Timer) : Timer := { timer with tag := timer.tag.shift σ }

def Request.shift (r : Request) : Request :=
  match r.session with
  | some slot =>
    { r with
      generation := r.generation + (σ slot).generations
      op := r.op + (σ slot).ops }
  | none => r

def Effect.shift : Effect → Effect
  | .schedule timer => .schedule (timer.shift σ)
  | .issue operation tag => .issue operation (tag.shift σ)

def ContractViolation.shift : ContractViolation → ContractViolation
  | .prematureCallback slot generation op current =>
    .prematureCallback slot (generation + (σ slot).generations) (op + (σ slot).ops)
      (current + (σ slot).generations)
  | .foreignRequest request slot op => .foreignRequest request slot (op + (σ slot).ops)
  | fault => fault

def Verdict.shift : Verdict → Verdict
  | .broken fault => .broken (fault.shift σ)
  | verdict => verdict

def Cause.shift : Cause → Cause
  | .data tag fragment => .data (tag.shift σ) fragment
  | .complete tag completion => .complete (tag.shift σ) completion
  | .timer due => .timer (due.shift σ)
  | cause => cause

end Shift

namespace Branch

variable (a : Offset) (b : Branch)

lemma shift_runnable : (b.shift a).wait = .runnable ↔ b.wait = .runnable := by
  unfold shift
  cases b.wait <;> simp [Wait.shift]

lemma shift_join : (b.shift a).wait = .join ↔ b.wait = .join := by
  unfold shift
  cases b.wait <;> simp [Wait.shift]

lemma shift_done : (b.shift a).wait = .done ↔ b.wait = .done := by
  unfold shift
  cases b.wait <;> simp [Wait.shift]

lemma shift_isRunnable : (b.shift a).isRunnable = b.isRunnable := by
  simp only [isRunnable, beq_eq_decide, shift_runnable]

lemma shift_isDone : (b.shift a).isDone = b.isDone := by
  simp only [isDone, beq_eq_decide, shift_done]

lemma shift_request? : (b.shift a).request? = b.request? := by
  unfold request? shift
  cases b.wait <;> rfl

lemma shift_effort (scenario : Scenario) : (b.shift a).effort scenario = b.effort scenario := by
  unfold effort shift
  cases b.wait <;> rfl

lemma shift_proceed : (b.shift a).proceed = b.proceed.shift a := rfl

lemma shift_childDone : (b.shift a).childDone = b.childDone.shift a := by
  have hwait := b.shift_join a
  unfold childDone
  simp only
  by_cases h : b.children - 1 = 0 ∧ b.wait = .join
  · rw [if_pos h, if_pos ⟨h.1, hwait.mpr h.2⟩]
    rfl
  · rw [if_neg h, if_neg fun h' => h ⟨h'.1, hwait.mp h'.2⟩]
    rfl

end Branch

lemma map_modify {α β : Type} {g : α → β} {f : α → α} {f' : β → β} (h : ∀ a, f' (g a) = g (f a))
    (l : List α) (i : Nat) : (l.modify i f).map g = (l.map g).modify i f' := by
  refine List.ext_getElem? fun j => ?_
  simp only [List.getElem?_map, List.getElem?_modify]
  cases l[j]? with
  | none => rfl
  | some a =>
    simp only [Option.map_some, Option.map_eq_map]
    split
    · rw [h]
    · rfl

namespace Session

variable (σ : Nat → Offset) (s : Session)

lemma shift_branch (i : Nat) :
    (s.shift σ).branches[i]? = s.branches[i]?.map (.shift (σ s.slot)) := List.getElem?_map ..

lemma shift_onBranch (i : Nat) {f g : Branch → Branch}
    (hf : ∀ b, g (.shift (σ s.slot) b) = (f b).shift (σ s.slot)) :
    (s.shift σ).onBranch i g = (s.onBranch i f).shift σ := by
  unfold onBranch shift
  simp only [map_modify hf]

lemma shift_current? (scenario : Scenario) (i : Nat) :
    (s.shift σ).current? scenario i = s.current? scenario i := by
  unfold current?
  rw [shift_branch]
  cases s.branches[i]? <;> rfl

lemma shift_firstRunnable? : (s.shift σ).firstRunnable? = s.firstRunnable? := by
  simp only [firstRunnable?, shift, List.findIdx?_map]
  exact congrArg (List.findIdx? · s.branches) (funext fun b => b.shift_isRunnable _)

lemma shift_effort (scenario : Scenario) : (s.shift σ).effort scenario = s.effort scenario := by
  simp only [effort, shift, List.map_map]
  exact congrArg List.sum (List.map_congr_left fun b _ => b.shift_effort _ scenario)

lemma shift_allDone : (s.shift σ).branches.all Branch.isDone = s.branches.all Branch.isDone := by
  simp only [shift, List.all_map]
  exact congrArg (List.all s.branches) (funext fun b => b.shift_isDone _)

lemma shift_onCursors (scenario : Scenario) (validators : List BoundValidator) (i : Nat)
    (f : Search.Validator → Search.Cursor → Search.Cursor) :
    (s.shift σ).onCursors scenario validators i f =
      (s.onCursors scenario validators i f).shift σ := by
  induction validators generalizing s with
  | nil => rfl
  | cons v rest ih => exact ih (s.onCursors scenario [v] i f)

lemma onCursors_slot (scenario : Scenario) (validators : List BoundValidator) (i : Nat)
    (f : Search.Validator → Search.Cursor → Search.Cursor) :
    (s.onCursors scenario validators i f).slot = s.slot := by
  rw [onCursors_frame]

lemma shift_isCurrent {tag : Tag} (htag : tag.slot = s.slot) :
    (s.shift σ).isCurrent (tag.shift σ) = (s.isCurrent tag).mapError (.shift σ) := by
  have hearly : (s.shift σ).generation < (tag.shift σ).generation ∨
      (s.shift σ).nextOp ≤ (tag.shift σ).op ↔
      s.generation < tag.generation ∨ s.nextOp ≤ tag.op := by
    simp only [shift, Tag.shift, htag]
    omega
  have hsame : ((tag.shift σ).generation == (s.shift σ).generation) =
      (tag.generation == s.generation) := by
    simp only [shift, Tag.shift, htag, beq_eq_decide, Nat.add_right_cancel_iff]
  unfold isCurrent
  rw [hsame]
  split
  · rename_i h
    rw [if_pos (hearly.mp h)]
    simp only [Except.mapError, ContractViolation.shift, shift, Tag.shift, htag]
  · rename_i h
    rw [if_neg (mt hearly.mpr h)]
    rfl

lemma shift_pending? (scenario : Scenario) {tag : Tag} (htag : tag.slot = s.slot) :
    (s.shift σ).pending? scenario (tag.shift σ) =
      (s.pending? scenario tag).mapError (.shift σ) := by
  unfold pending?
  rw [s.shift_isCurrent σ htag]
  cases s.isCurrent tag with
  | error fault => rfl
  | ok current =>
    cases current with
    | false => rfl
    | true =>
      have hbranch : (tag.shift σ).branch = tag.branch := rfl
      simp only [Except.mapError, bind, Except.bind, if_true, hbranch, shift_branch,
        shift_current?]
      cases s.branches[tag.branch]? with
      | none => rfl
      | some b =>
        cases s.current? scenario tag.branch with
        | none => cases hw : b.wait <;> simp [Branch.shift, Wait.shift, hw, pure, Except.pure]
        | some step =>
          cases hw : b.wait with
          | operation op request =>
            cases step with
            | operation operation =>
              have hop : op + (σ s.slot).ops = (tag.shift σ).op ↔ op = tag.op := by
                rw [Tag.shift, htag]
                exact Nat.add_right_cancel_iff
              simp only [Branch.shift, Wait.shift, hw, Option.map_some, hop]
              rfl
            | _ => simp [Branch.shift, Wait.shift, hw, pure, Except.pure]
          | _ => simp [Branch.shift, Wait.shift, hw, pure, Except.pure]

end Session

namespace Pool

variable {α : Type} (f : α → α) (p : Pool α)

def onHeld : Pool α :=
  { p with cells := p.cells.map fun cell =>
      if cell.held then { cell with item := f cell.item } else cell }

lemma onHeld_get? (slot : Nat) : (p.onHeld f).get? slot = (p.get? slot).map f := by
  unfold get? onHeld
  rw [Array.getElem?_map]
  cases p.cells[slot]? with
  | none => rfl
  | some cell => cases hheld : cell.held <;> simp [hheld]

lemma onHeld_resetMarks : (p.onHeld f).resetMarks = p.resetMarks.onHeld f := by
  simp only [resetMarks, onHeld, outstanding, capacity, available, Array.size_map]

lemma onHeld_release (a : α) (slot : Nat) : (p.onHeld f).release (fun _ => a) slot =
    (p.release (fun _ => a) slot).map (onHeld f) := by
  unfold release
  have hcell : (p.onHeld f).cells[slot]? = p.cells[slot]?.map fun cell =>
      if cell.held then { cell with item := f cell.item } else cell := Array.getElem?_map ..
  rw [hcell]
  cases p.cells[slot]? with
  | none =>
    have hcapacity : (p.onHeld f).capacity = p.capacity := Array.size_map
    simp only [Option.map_none, hcapacity]
    rfl
  | some cell =>
    cases hheld : cell.held with
    | false =>
      simp [hheld, Except.map]
    | true =>
      simp [hheld, Except.map, onHeld, outstanding, capacity, available, Array.map_setIfInBounds]

lemma onHeld_acquire {slot : Nat} {q : Pool α} (h : p.acquire = (some slot, q)) :
    ∃ q', (p.onHeld f).acquire = (some slot, q') ∧
      ∀ a, (q'.update slot fun _ => f a) = (q.update slot fun _ => a).onHeld f := by
  unfold acquire at h ⊢
  have hfree : (p.onHeld f).free = p.free := rfl
  rw [hfree]
  cases hf : p.free with
  | nil =>
    rw [hf] at h
    cases h
  | cons s rest =>
    rw [hf] at h
    cases h
    refine ⟨_, rfl, fun a => ?_⟩
    unfold update onHeld
    congr 1
    · refine Array.ext_getElem? fun i => ?_
      simp only [mark, Array.getElem?_modify, Array.getElem?_map]
      cases p.cells[i]? with
      | none => split <;> rfl
      | some cell => split <;> simp
    · simp [outstanding, capacity, available, mark]

end Pool

namespace Turn

variable (σ : Nat → Offset) (t : Turn)

def shift : Turn where
  session := t.session.shift σ
  requests := t.requests.onHeld (.shift σ)
  recorder := t.recorder
  effects := t.effects.map (.shift σ)

def shiftOut (out : Turn × Verdict) : Turn × Verdict := (out.1.shift σ, out.2.shift σ)

lemma shift_onBranch (i : Nat) {f g : Branch → Branch}
    (hf : ∀ b, g (.shift (σ t.session.slot) b) = (f b).shift (σ t.session.slot)) :
    (t.shift σ).onBranch i g = (t.onBranch i f).shift σ := by
  unfold onBranch onSession shift
  simp only [t.session.shift_onBranch σ i hf]

lemma shift_onCursors (scenario : Scenario) (validators : List BoundValidator) (i : Nat)
    (f : Search.Validator → Search.Cursor → Search.Cursor) :
    (t.shift σ).onSession (fun s => s.onCursors scenario validators i f) =
      (t.onSession fun s => s.onCursors scenario validators i f).shift σ := by
  unfold onSession shift
  simp only [t.session.shift_onCursors σ]

lemma shift_ask (effect : Effect) :
    (t.shift σ).ask (effect.shift σ) = (t.ask effect).shift σ := by
  unfold ask shift
  simp only [List.map_append, List.map_singleton]

lemma shift_abandon (a : Offset) (requests : Pool Request) (l : List Branch) :
    abandon (requests.onHeld (.shift σ)) (l.map (.shift a)) =
      ((abandon requests l).1.map (.shift a), (abandon requests l).2.1.onHeld (.shift σ),
        (abandon requests l).2.2) := by
  induction l generalizing requests with
  | nil => rfl
  | cons b rest ih =>
    unfold abandon
    simp only [List.map_cons, Branch.shift_request?]
    cases b.request? with
    | none =>
      simp only [ih]
      rfl
    | some request =>
      simp only [Pool.onHeld_release]
      cases requests.release (fun _ => Request.blank) request with
      | error fault => rfl
      | ok requests =>
        simp only [Except.map, ih]
        rfl

lemma release_fault {α : Type} {p : Pool α} {reset : α → α} {slot : Nat}
    {fault : ContractViolation} (h : p.release reset slot = .error fault) :
    fault.shift σ = fault := by
  unfold Pool.release at h
  split at h
  · cases h
    split <;> rfl
  · split at h
    · cases h
    · cases h
      rfl

lemma abandon_fault {requests : Pool Request} {l : List Branch} {fault : ContractViolation}
    (h : (abandon requests l).2.2 = some fault) : fault.shift σ = fault := by
  induction l generalizing requests with
  | nil => cases h
  | cons b rest ih =>
    unfold abandon at h
    cases hb : b.request? with
    | none =>
      simp only [hb] at h
      exact ih h
    | some request =>
      simp only [hb] at h
      cases hr : requests.release (fun _ => Request.blank) request with
      | error error =>
        simp only [hr, Option.some.injEq] at h
        exact h ▸ release_fault σ hr
      | ok requests =>
        simp only [hr] at h
        exact ih h

lemma shift_close (how : SessionEnd) : (t.shift σ).close how = shiftOut σ (t.close how) := by
  have habandon : abandon (t.shift σ).requests (t.shift σ).session.branches = _ :=
    shift_abandon σ (σ t.session.slot) t.requests t.session.branches
  have hfault (fault : ContractViolation)
      (h : (abandon t.requests t.session.branches).2.2 = some fault) := abandon_fault σ h
  unfold close
  rw [habandon]
  generalize abandon t.requests t.session.branches = out at hfault
  obtain ⟨branches, requests, fault⟩ := out
  cases fault with
  | none =>
    have hnext : t.session.generation + (σ t.session.slot).generations + 1 =
        t.session.generation + 1 + (σ t.session.slot).generations := by omega
    simp only [shiftOut, shift, Session.shift, onSession, hnext, Verdict.shift]
  | some fault =>
    simp only [shiftOut, shift, Session.shift, Verdict.shift, hfault fault rfl]

lemma shift_finishBranch (i : Nat) : (t.shift σ).finishBranch i = (t.finishBranch i).shift σ := by
  have hparent : ((t.shift σ).session.branches[i]? >>= Branch.parent) =
      (t.session.branches[i]? >>= Branch.parent) := by
    change ((t.session.shift σ).branches[i]? >>= Branch.parent) = _
    rw [Session.shift_branch]
    cases t.session.branches[i]? <;> rfl
  have hdone : (t.shift σ).onBranch i (fun b => { b with wait := .done }) =
      (t.onBranch i fun b => { b with wait := .done }).shift σ :=
    t.shift_onBranch σ i fun _ => rfl
  unfold finishBranch
  rw [hparent, hdone]
  cases t.session.branches[i]? >>= Branch.parent with
  | none => rfl
  | some parent => exact shift_onBranch σ _ parent fun b => b.shift_childDone _

lemma shift_fork (i : Nat) (targets : List Target) :
    (t.shift σ).fork i targets = (t.fork i targets).shift σ := by
  have hcounted : (t.shift σ).onBranch i
        (fun b => { b with children := b.children + targets.length }) =
      (t.onBranch i fun b => { b with children := b.children + targets.length }).shift σ :=
    t.shift_onBranch σ i fun _ => rfl
  unfold fork
  rw [hcounted]
  unfold onSession shift
  simp only [Session.shift, List.map_append, List.map_map]
  rfl

lemma shift_takeOp : (t.shift σ).takeOp =
    (t.session.nextOp + (σ t.session.slot).ops, (t.takeOp.2).shift σ) := by
  have hnext : t.session.nextOp + (σ t.session.slot).ops + 1 =
      t.session.nextOp + 1 + (σ t.session.slot).ops := by omega
  simp only [takeOp, onSession, shift, Session.shift, hnext]

lemma shift_delay (stage : Stage) (i : Nat) (duration : Nanos) :
    (t.shift σ).delay stage i duration = (t.delay stage i duration).shift σ := by
  unfold delay
  rw [shift_takeOp]
  have hwait : (t.takeOp.2.shift σ).onBranch i
        (fun b => { b with wait := .delay (t.session.nextOp + (σ t.session.slot).ops) }) =
      (t.takeOp.2.onBranch i fun b => { b with wait := .delay t.session.nextOp }).shift σ :=
    t.takeOp.2.shift_onBranch σ i fun _ => rfl
  simp only
  rw [hwait]
  exact shift_ask σ _ (.schedule ⟨stage.now + duration,
    t.takeOp.2.session.tag stage.phase i t.session.nextOp, .wake⟩)

def await (stage : Stage) (t : Turn) (i op request : Nat) (operation : Operation BoundValidator) :
    Turn :=
  let tag := t.session.tag stage.phase i op
  let t := t.onSession fun s =>
    s.onCursors stage.scenario operation.validators i fun _ _ => .start
  let t := t.onBranch i fun b => { b with wait := .operation op request }
  (t.ask (.schedule ⟨stage.now + operation.timeout, tag, .deadline⟩)).ask (.issue operation tag)

lemma shift_await (stage : Stage) (i op request : Nat) (operation : Operation BoundValidator) :
    (t.shift σ).await stage i (op + (σ t.session.slot).ops) request operation =
      (t.await stage i op request operation).shift σ := by
  have hslot : (t.onSession fun s => s.onCursors stage.scenario operation.validators i
      fun _ _ => .start).session.slot = t.session.slot := by
    simp only [onSession, Session.onCursors_slot]
  have hwait := (t.onSession fun s => s.onCursors stage.scenario operation.validators i
    fun _ _ => .start).shift_onBranch σ i
      (f := fun b => { b with wait := .operation op request })
      (g := fun b => { b with wait := .operation (op + (σ t.session.slot).ops) request })
      (fun b => by rw [hslot]; rfl)
  have hdeadline (t' : Turn) := t'.shift_ask σ (.schedule ⟨stage.now + operation.timeout,
    t.session.tag stage.phase i op, .deadline⟩)
  have hcall (t' : Turn) := t'.shift_ask σ (.issue operation (t.session.tag stage.phase i op))
  unfold await
  simp only
  rw [shift_onCursors, hwait, ← hcall, ← hdeadline]
  rfl

lemma shift_issue (stage : Stage) (i : Nat) (operation : Operation BoundValidator) :
    (t.shift σ).issue stage i operation = shiftOut σ (t.issue stage i operation) := by
  cases hr : t.requests.acquire with
  | mk slot requests =>
    cases slot with
    | none =>
      obtain ⟨hfree, hsame⟩ := Pool.acquire_none (p := t.requests) (by rw [hr])
      rw [hr] at hsame
      have hnone : (t.shift σ).requests.acquire = (none, (t.shift σ).requests) := by
        unfold Pool.acquire
        have hfree' : (t.shift σ).requests.free = [] := hfree
        rw [hfree']
      have hcapacity : (t.shift σ).requests.capacity = t.requests.capacity := Array.size_map
      simp only at hsame
      simp only [issue, hr, hnone, shiftOut, Verdict.shift, ContractViolation.shift, hcapacity,
        hsame]
    | some request =>
      obtain ⟨requests', hr', hupdate⟩ := Pool.onHeld_acquire (.shift σ) t.requests hr
      have hacquire : (t.shift σ).requests.acquire = (some request, requests') := hr'
      have hrecord := hupdate ⟨some t.session.slot, t.session.generation, t.session.nextOp,
        some stage.now⟩
      have hawait := shift_await σ { t.takeOp.2 with
        requests := requests.update request fun _ =>
          ⟨some t.session.slot, t.session.generation, t.session.nextOp, some stage.now⟩
        recorder := t.recorder.recordRequest operation.metric } stage i t.session.nextOp request
        operation
      rw [shift, ← hrecord] at hawait
      simp only [issue, hr, hacquire, shift_takeOp]
      exact congrArg (·, Verdict.alive) hawait

lemma shift_execute (stage : Stage) (s : Session) (i : Nat) (action : Action Variable) :
    execute stage (s.shift σ) i action = (execute stage s i action).map (.shift σ) := by
  cases action with
  | addInt var delta =>
    have hsame : (s.shift σ).resource? stage.scenario var.key i =
        s.resource? stage.scenario var.key i := rfl
    simp only [execute, hsame]
    cases s.resource? stage.scenario var.key i with
    | none => rfl
    | some r => cases r <;> rfl
  | _ => rfl

lemma shift_step (stage : Stage) (i : Nat) :
    (t.shift σ).step stage i = shiftOut σ (t.step stage i) := by
  have hcurrent : (t.shift σ).session.current? stage.scenario i =
      t.session.current? stage.scenario i := t.session.shift_current? σ stage.scenario i
  have hnext (t : Turn) : (t.shift σ).onBranch i .proceed = (t.onBranch i .proceed).shift σ :=
    t.shift_onBranch σ i fun b => b.shift_proceed _
  unfold step
  rw [hcurrent]
  cases t.session.current? stage.scenario i with
  | none => exact congrArg (·, Verdict.alive) (t.shift_finishBranch σ i)
  | some step =>
    cases step with
    | action action =>
      have hexecute : execute stage (t.shift σ).session i action =
          (execute stage t.session i action).map (.shift σ) := shift_execute σ stage _ i action
      simp only [hexecute]
      cases execute stage t.session i action with
      | none => exact t.shift_close σ .failed
      | some session => exact congrArg (·, Verdict.alive) (hnext { t with session })
    | declare declaration key =>
      exact congrArg (·, Verdict.alive) (hnext (t.onSession fun s =>
        s.onResource stage.scenario key i fun _ => .unset))
    | operation operation => exact t.shift_issue σ stage i operation
    | fork targets =>
      simp only [shift_fork]
      exact congrArg (·, Verdict.alive) (hnext _)
    | join =>
      have hwaits : ((t.shift σ).session.branches[i]?.any fun b => 0 < b.children) =
          t.session.branches[i]?.any fun b => 0 < b.children := by
        change ((t.session.shift σ).branches[i]?.any _) = _
        rw [Session.shift_branch]
        cases t.session.branches[i]? <;> rfl
      simp only [hwaits]
      split
      · exact congrArg (·, Verdict.alive) (t.shift_onBranch σ i fun _ => rfl)
      · exact congrArg (·, Verdict.alive) (hnext t)
    | delay duration => exact congrArg (·, Verdict.alive) (t.shift_delay σ stage i duration)

lemma shift_rest : (t.shift σ).rest = shiftOut σ t.rest := by
  have hdone : (t.shift σ).session.branches.all Branch.isDone =
      t.session.branches.all Branch.isDone := t.session.shift_allDone σ
  unfold rest
  rw [hdone]
  split
  · exact t.shift_close σ .completed
  · rfl

lemma shift_steps (stage : Stage) (fuel : Nat) :
    (t.shift σ).steps stage fuel = shiftOut σ (t.steps stage fuel) := by
  have hfirst (t : Turn) : (t.shift σ).session.firstRunnable? = t.session.firstRunnable? :=
    t.session.shift_firstRunnable? σ
  induction fuel generalizing t with
  | zero =>
    unfold steps
    rw [hfirst]
    cases t.session.firstRunnable? with
    | none => exact t.shift_rest σ
    | some i => rfl
  | succ fuel ih =>
    unfold steps
    rw [hfirst]
    cases t.session.firstRunnable? with
    | none => exact t.shift_rest σ
    | some i =>
      simp only [shift_step]
      generalize t.step stage i = out
      obtain ⟨t', verdict⟩ := out
      cases verdict with
      | alive => exact ih t'
      | ended | broken => rfl

lemma shift_run (stage : Stage) : (t.shift σ).run stage = shiftOut σ (t.run stage) := by
  have heffort : ((t.onSession fun s => { s with state := .running }).shift σ).session.effort
      stage.scenario = (t.onSession fun s => { s with state := .running }).session.effort
        stage.scenario := Session.shift_effort σ _ stage.scenario
  unfold run
  simp only
  rw [← heffort]
  exact shift_steps σ (t.onSession fun s => { s with state := .running }) stage _

lemma shift_start (stage : Stage) : (t.shift σ).start stage = shiftOut σ (t.start stage) := by
  have hopened : (t.shift σ).onSession (fun s => { s with
        branches := s.branches ++ stage.scenario.initial.map fun sequence => .new sequence none }) =
      (t.onSession fun s => { s with
        branches := s.branches ++
          stage.scenario.initial.map fun sequence => .new sequence none }).shift σ := by
    simp only [onSession, shift, Session.shift, List.map_append, List.map_map]
    rfl
  unfold start
  simp only
  rw [hopened]
  exact shift_run σ _ stage

lemma shift_owns (s : Session) (op : Nat) (r : Request) :
    owns (s.shift σ) (op + (σ s.slot).ops) (r.shift σ) = owns s op r := by
  obtain ⟨session, generation, number, issuedAt⟩ := r
  cases session with
  | none => simp [owns, Request.shift]
  | some slot =>
    by_cases hslot : slot = s.slot
    · simp [owns, Request.shift, Session.shift, hslot, beq_eq_decide]
    · have hother : (slot == s.slot) = false := beq_eq_false_iff_ne.mpr hslot
      simp [owns, Request.shift, Session.shift, hother]

lemma shift_owned (request op : Nat) :
    ((t.shift σ).requests.get? request).filter
        (owns (t.shift σ).session (op + (σ t.session.slot).ops)) =
      ((t.requests.get? request).filter (owns t.session op)).map (.shift σ) := by
  change ((t.requests.onHeld (.shift σ)).get? request).filter
    (owns (t.session.shift σ) (op + (σ t.session.slot).ops)) = _
  rw [Pool.onHeld_get?]
  cases t.requests.get? request with
  | none => rfl
  | some record =>
    simp only [Option.map_some, Option.filter_some, shift_owns]
    split <;> rfl

lemma shift_finishOperation (stage : Stage) (op : Nat) (p : Pending) (outcome : Outcome) :
    (t.shift σ).finishOperation stage (op + (σ t.session.slot).ops) p outcome =
      shiftOut σ (t.finishOperation stage op p outcome) := by
  have hreleased : (t.shift σ).requests.release (fun _ => Request.blank) p.request =
      (t.requests.release (fun _ => Request.blank) p.request).map (.onHeld (.shift σ)) :=
    Pool.onHeld_release ..
  unfold finishOperation
  simp only
  rw [shift_owned, hreleased]
  cases (t.requests.get? p.request).filter (owns t.session op) with
  | none => rfl
  | some record =>
    have hissued : (record.shift σ).issuedAt = record.issuedAt := by
      unfold Request.shift
      cases record.session <;> rfl
    cases hr : t.requests.release (fun _ => Request.blank) p.request with
    | error fault =>
      simp only [Option.map_some, Except.map, shiftOut, Verdict.shift, release_fault σ hr]
    | ok requests =>
      have hrecorder : (t.shift σ).recorder = t.recorder := rfl
      simp only [Option.map_some, Except.map, hissued, hrecorder]
      generalize t.recorder.record p.operation.metric _ = recorder
      have hproceeds := shift_onBranch σ { t with requests, recorder } p.branch
        (f := .proceed) fun b => b.shift_proceed _
      have hstops := shift_onBranch σ { t with requests, recorder } p.branch
        (f := fun b => { b with wait := .runnable }) (g := fun b => { b with wait := .runnable })
        fun b => rfl
      split
      · exact (congrArg (run stage) hproceeds).trans (shift_run σ _ stage)
      · exact (congrArg (close · .failed) hstops).trans (shift_close σ _ .failed)

section Tags

variable {tag : Tag} (htag : tag.slot = t.session.slot)

include htag

lemma shift_finishOf (stage : Stage) (p : Pending) (outcome : Outcome) :
    (t.shift σ).finishOperation stage (tag.shift σ).op p outcome =
      shiftOut σ (t.finishOperation stage tag.op p outcome) := by
  have hop : (tag.shift σ).op = tag.op + (σ t.session.slot).ops := by rw [← htag]; rfl
  rw [hop]
  exact t.shift_finishOperation σ stage tag.op p outcome

lemma shift_pendingOf (stage : Stage) :
    (t.shift σ).session.pending? stage.scenario (tag.shift σ) =
      (t.session.pending? stage.scenario tag).mapError (.shift σ) :=
  t.session.shift_pending? σ stage.scenario htag

lemma shift_onData (stage : Stage) (fragment : List UInt8) :
    (t.shift σ).onData stage (tag.shift σ) fragment =
      shiftOut σ (t.onData stage tag fragment) := by
  unfold onData
  rw [t.shift_pendingOf σ htag]
  cases t.session.pending? stage.scenario tag with
  | error fault => rfl
  | ok found =>
    cases found with
    | none => rfl
    | some p =>
      exact congrArg (·, Verdict.alive) (t.shift_onCursors σ stage.scenario
        p.operation.validators p.branch fun v c => v.feed c fragment)

lemma shift_onCompletion (stage : Stage) (completion : Completion) :
    (t.shift σ).onCompletion stage (tag.shift σ) completion =
      shiftOut σ (t.onCompletion stage tag completion) := by
  unfold onCompletion
  rw [t.shift_pendingOf σ htag]
  cases t.session.pending? stage.scenario tag with
  | error fault => rfl
  | ok found =>
    cases found with
    | none => rfl
    | some p =>
      simp only [Except.mapError, shift_onCursors]
      refine shift_finishOf σ _ ?_ stage p _
      rw [htag]
      exact (Session.onCursors_slot ..).symm

lemma shift_onDeadline (stage : Stage) :
    (t.shift σ).onDeadline stage (tag.shift σ) = shiftOut σ (t.onDeadline stage tag) := by
  unfold onDeadline
  rw [t.shift_pendingOf σ htag]
  cases t.session.pending? stage.scenario tag with
  | error fault => rfl
  | ok found =>
    cases found with
    | none => rfl
    | some p => exact t.shift_finishOf σ htag stage p .timeout

lemma shift_waitsFor :
    ((t.shift σ).session.branches[tag.branch]?.map Branch.wait =
      some (.delay (tag.shift σ).op)) ↔
      t.session.branches[tag.branch]?.map Branch.wait = some (.delay tag.op) := by
  change ((t.session.shift σ).branches[tag.branch]?.map Branch.wait = _) ↔ _
  rw [Session.shift_branch]
  cases t.session.branches[tag.branch]? with
  | none => simp
  | some b => cases hw : b.wait <;> simp [Branch.shift, Wait.shift, Tag.shift, hw, htag]

lemma shift_onWake (stage : Stage) :
    (t.shift σ).onWake stage (tag.shift σ) = shiftOut σ (t.onWake stage tag) := by
  have hcurrent : (t.shift σ).session.isCurrent (tag.shift σ) =
      (t.session.isCurrent tag).mapError (.shift σ) := t.session.shift_isCurrent σ htag
  have hbranch : (tag.shift σ).branch = tag.branch := rfl
  unfold onWake
  rw [hcurrent]
  cases t.session.isCurrent tag with
  | error fault => rfl
  | ok current =>
    cases current with
    | false => rfl
    | true =>
      simp only [Except.mapError, hbranch, t.shift_waitsFor σ htag]
      split
      · have hproceeds := t.shift_onBranch σ tag.branch (f := .proceed)
          fun b => b.shift_proceed _
        exact (congrArg (run stage) hproceeds).trans (shift_run σ _ stage)
      · rfl

end Tags

lemma shift_terminate : (t.shift σ).terminate = shiftOut σ t.terminate := by
  unfold terminate
  change (if t.session.state.isLive then (t.shift σ).close .terminated else _) = _
  split
  · exact t.shift_close σ .terminated
  · rfl

/-- Whatever happens to a session happens under other numbers in the same way. -/
theorem shift_act (stage : Stage) (cause : Cause)
    (htag : ∀ tag, cause.tag? = some tag → tag.slot = t.session.slot) :
    (cause.shift σ).act stage (t.shift σ) = shiftOut σ (cause.act stage t) := by
  cases cause with
  | start => exact t.shift_start σ stage
  | data tag fragment => exact t.shift_onData σ (htag tag rfl) stage fragment
  | complete tag completion => exact t.shift_onCompletion σ (htag tag rfl) stage completion
  | timer due =>
    have hslot := htag due.tag rfl
    obtain ⟨time, tag, kind⟩ := due
    cases kind with
    | deadline => exact t.shift_onDeadline σ hslot stage
    | wake => exact t.shift_onWake σ hslot stage
  | terminate => exact t.shift_terminate σ

section Slot

variable {stage : Stage} {t : Turn}

lemma issue_slot (i : Nat) (operation : Operation BoundValidator) :
    (t.issue stage i operation).1.session.slot = t.session.slot := by
  unfold issue
  split
  · rfl
  · exact Session.onCursors_slot ..

lemma step_slot (i : Nat) : (t.step stage i).1.session.slot = t.session.slot := by
  unfold step
  simp only
  split
  · exact (t.finishBranch_quiet i).slot
  · rename_i action _
    cases hs : execute stage t.session i action with
    | some s => exact (execute_quiet hs).slot
    | none => exact (t.close_quiet .failed).slot
  · rfl
  · exact issue_slot i _
  · rfl
  · split <;> rfl
  · rfl

lemma steps_slot (fuel : Nat) : (t.steps stage fuel).1.session.slot = t.session.slot := by
  induction fuel generalizing t with
  | zero =>
    unfold steps
    cases t.session.firstRunnable? with
    | none => exact t.rest_quiet.slot
    | some i => rfl
  | succ fuel ih =>
    unfold steps
    cases t.session.firstRunnable? with
    | none => exact t.rest_quiet.slot
    | some i =>
      have hstep : (t.step stage i).1.session.slot = t.session.slot := step_slot i
      simp only
      generalize t.step stage i = out at hstep
      obtain ⟨t', verdict⟩ := out
      cases verdict with
      | alive => exact ih.trans hstep
      | ended | broken => exact hstep

lemma finishOperation_slot (op : Nat) (p : Pending) (outcome : Outcome) :
    (t.finishOperation stage op p outcome).1.session.slot = t.session.slot := by
  unfold finishOperation
  simp only
  split
  · rfl
  · split
    · rfl
    · split
      · exact steps_slot _
      · exact (close_quiet _ .failed).slot

theorem act_slot (cause : Cause) : (cause.act stage t).1.session.slot = t.session.slot := by
  cases cause with
  | start => exact steps_slot _
  | data tag fragment =>
    simp only [Cause.act, onData]
    split
    · rfl
    · rfl
    · exact Session.onCursors_slot ..
  | complete tag completion =>
    simp only [Cause.act, onCompletion]
    split
    · rfl
    · rfl
    · exact (finishOperation_slot tag.op _ _).trans (Session.onCursors_slot ..)
  | timer due =>
    obtain ⟨time, tag, kind⟩ := due
    cases kind with
    | deadline =>
      simp only [Cause.act, onTimer, onDeadline]
      split
      · rfl
      · rfl
      · exact finishOperation_slot tag.op _ _
    | wake =>
      simp only [Cause.act, onTimer, onWake]
      split
      · rfl
      · rfl
      · split
        · exact steps_slot _
        · rfl
  | terminate =>
    simp only [Cause.act, terminate]
    split
    · exact (t.close_quiet .terminated).slot
    · rfl

end Slot

end Turn

end LoadEngine
