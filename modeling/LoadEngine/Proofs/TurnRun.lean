import LoadEngine.Proofs.TurnBooks
import Mathlib.Algebra.Order.BigOperators.Group.List
import Mathlib.Algebra.Order.Group.Nat

/-! A turn from its first step to its last. What each step keeps holds when the turn is over, and it
is over: every step takes from what is left to do. -/

namespace LoadEngine

open Rehearsal (issues schedules)

section Effects

variable (a b : List Effect)

@[simp] lemma issues_append : issues (a ++ b) = issues a ++ issues b := List.filterMap_append

@[simp] lemma schedules_append : schedules (a ++ b) = schedules a ++ schedules b :=
  List.filterMap_append

@[simp] lemma issues_schedule (timer : Timer) (rest : List Effect) :
    issues (.schedule timer :: rest) = issues rest := rfl

@[simp] lemma issues_issue (operation : Operation BoundValidator) (tag : Tag) (rest : List Effect) :
    issues (.issue operation tag :: rest) = (operation, tag) :: issues rest := rfl

@[simp] lemma issues_nil : issues [] = [] := rfl

@[simp] lemma schedules_schedule (timer : Timer) (rest : List Effect) :
    schedules (.schedule timer :: rest) = timer :: schedules rest := rfl

@[simp] lemma schedules_issue (operation : Operation BoundValidator) (tag : Tag)
    (rest : List Effect) : schedules (.issue operation tag :: rest) = schedules rest := rfl

@[simp] lemma schedules_nil : schedules [] = [] := rfl

end Effects

def fresh (now : Nanos) (effects : List Effect) : List Flight :=
  (issues effects).map fun x => .new now x.1 x.2

def requestsOf (effects : List Effect) : List Recording :=
  (issues effects).map fun x => .request x.1.metric

namespace Turn

structure Advances (stage : Stage) (t₀ t : Turn) : Prop where
  slot : t.session.slot = t₀.session.slot
  generation : t.session.generation = t₀.session.generation
  nextOp : t₀.session.nextOp ≤ t.session.nextOp
  capacity : t.requests.capacity = t₀.requests.capacity
  asked : t.requests.asked = t₀.requests.asked
  spares : ∀ r record, record.session ≠ some t₀.session.slot →
    (t.requests.get? r = some record ↔ t₀.requests.get? r = some record)
  recorder : t.recorder = (requestsOf t.effects).foldl Recorder.enter t₀.recorder
  calls : ∀ x ∈ issues t.effects, x.2.phase = stage.phase ∧ x.2.slot = t₀.session.slot
  timers : ∀ timer ∈ schedules t.effects,
    timer.tag.phase = stage.phase ∧ timer.tag.slot = t₀.session.slot

lemma Advances.refl (stage : Stage) {t : Turn} (h : t.effects = []) : Advances stage t t where
  slot := rfl
  generation := rfl
  nextOp := Nat.le_refl _
  capacity := rfl
  asked := rfl
  spares _ _ _ := Iff.rfl
  recorder := by rw [h]; rfl
  calls x hx := by simp [h] at hx
  timers timer htimer := by simp [h] at htimer

/-- What holds at every step of a turn. -/
structure Going (stage : Stage) (reached : Nat → Prop) (weight : Nat → Nat) (flights : List Flight)
    (timers : List Timer) (since : Nat → Nanos) (t₀ t : Turn) : Prop where
  coherent : t.Coherent stage.scenario reached weight
  advances : Advances stage t₀ t
  booked : t.session.Booked stage.scenario stage.phase t.requests
    (flights ++ fresh stage.now t.effects) (timers ++ schedules t.effects) since
  clock : ∀ op, t.session.nextOp ≤ op → since op = stage.now
  live : t.session.state.isLive = true

section Takes

variable {stage : Stage} {reached : Nat → Prop} {weight : Nat → Nat} {flights : List Flight}
  {timers : List Timer} {since : Nat → Nanos} {t₀ t t' : Turn} {i : Nat} {b : Branch}

lemma Takes.branchStep (h : Takes stage t i b t') :
    BranchStep stage.scenario t.session.branches i b t'.session.branches := by
  cases h with
  | move hs hq hw => exact hs
  | issue hs hr => exact .hold ⟨_, hs⟩ (by simp) (by simp)
  | rest hs => exact .hold ⟨_, hs⟩ (by simp) (by simp)

lemma Advances.issued (h : Advances stage t₀ t) (hpool : t.requests.Sound)
    (operation : Operation BoundValidator) {request : Nat} {requests : Pool Request}
    (hr : t.requests.acquire = (some request, requests)) :
    Advances stage t₀ (issued stage t i b operation request requests) := by
  have hrest : t.requests.acquire.2 = requests := by rw [hr]
  have hsome : t.requests.acquire.1 = some request := by rw [hr]
  have hget := Session.taken_get? hpool hr
    ⟨some t.session.slot, t.session.generation, t.session.nextOp, some stage.now⟩
  have hfree := Session.not_kept_of_free hpool hr
  refine ⟨h.slot, h.generation, h.nextOp.trans (Nat.le_succ _), ?_, ?_, ?_, ?_, ?_, ?_⟩
  · simp only [Turn.issued, Pool.update_capacity]
    rw [← hrest, Pool.acquire_capacity, h.capacity]
  · simp only [Turn.issued, Pool.update_asked]
    obtain ⟨-, -, -, -, hasked⟩ := Pool.acquire_some hsome
    rw [← hrest, hasked, h.asked]
  · intro r record hrecord
    simp only [Turn.issued]
    rw [hget r]
    split
    · rename_i hrr
      rw [← h.spares r record hrecord, hrr, hfree]
      constructor
      · intro heq
        cases heq
        exact absurd (congrArg some h.slot) hrecord
      · intro heq
        cases heq
    · exact h.spares r record hrecord
  · simp [Turn.issued, h.recorder, requestsOf, Recorder.enter]
  · intro x hx
    simp only [Turn.issued, issues_append, issues_schedule, issues_issue, issues_nil,
      List.mem_append, List.mem_singleton] at hx
    rcases hx with hx | rfl
    · exact h.calls x hx
    · exact ⟨rfl, h.slot⟩
  · intro timer htimer
    simp only [Turn.issued, schedules_append, schedules_schedule, schedules_issue, schedules_nil,
      List.mem_append, List.mem_singleton] at htimer
    rcases htimer with htimer | rfl
    · exact h.timers timer htimer
    · exact ⟨rfl, h.slot⟩

lemma awaits_of_runnable (hb : t.session.branches[i]? = some b) (hrun : b.wait = .runnable) :
    awaits t.session.branches i = none := by
  rw [awaits_of_getElem? hb, await?_of_runnable hrun]

lemma Going.issued_flies (h : Going stage reached weight flights timers since t₀ t)
    (hsc : stage.scenario.Sound reached weight) (hb : t.session.branches[i]? = some b)
    (hrun : b.wait = .runnable) {operation : Operation BoundValidator} {request : Nat}
    {requests : Pool Request}
    (hs : stage.scenario.step? b.sequence b.step = some (.operation operation))
    (hr : t.requests.acquire = (some request, requests)) :
    (Turn.issued stage t i b operation request requests).session.Flies stage.scenario stage.phase
      (Turn.issued stage t i b operation request requests).requests
      (.new stage.now operation (t.session.tag stage.phase i t.session.nextOp)) [] := by
  have hplaces := Session.places_of_step hsc hs
  have hbranch : i < stage.scenario.maxBranches := (h.coherent.ready hsc hb hrun).place
  refine ⟨rfl, ⟨b.sequence, b.step, request, ?_, hs, ?_⟩, ?_⟩
  · simp only [Turn.issued, Flight.new, Session.tag]
    rw [awaits_set hb, if_pos rfl]
    rfl
  · simp only [Turn.issued]
    rw [Session.taken_get? h.coherent.pool hr _ request, if_pos rfl]
    rfl
  · intro v hv
    have hkind := (hplaces.2 v hv).2
    obtain ⟨c, hc⟩ := Session.exists_cursor h.coherent.sound.typed hkind hbranch
    have hcursor := Session.cursor?_onCursors t.session i hplaces (fun _ _ => .start) hv
    rw [hc, Option.map_some] at hcursor
    rw [Search.Validator.feed_start_nil]
    exact hcursor

lemma Going.issued_booked (h : Going stage reached weight flights timers since t₀ t)
    (hsc : stage.scenario.Sound reached weight) (hb : t.session.branches[i]? = some b)
    (hrun : b.wait = .runnable) {operation : Operation BoundValidator} {request : Nat}
    {requests : Pool Request}
    (hs : stage.scenario.step? b.sequence b.step = some (.operation operation))
    (hr : t.requests.acquire = (some request, requests)) :
    (Turn.issued stage t i b operation request requests).session.Booked stage.scenario stage.phase
      (Turn.issued stage t i b operation request requests).requests
      (flights ++ fresh stage.now (Turn.issued stage t i b operation request requests).effects)
      (timers ++ schedules (Turn.issued stage t i b operation request requests).effects) since := by
  have hnone := awaits_of_runnable hb hrun
  have hnow := h.clock t.session.nextOp (Nat.le_refl _)
  have hfresh : flights ++
      fresh stage.now (Turn.issued stage t i b operation request requests).effects =
      (flights ++ fresh stage.now t.effects) ++ Option.toList
        (some (.new stage.now operation (t.session.tag stage.phase i t.session.nextOp))) := by
    simp [Turn.issued, LoadEngine.fresh]
  have hschedules :
      timers ++ schedules (Turn.issued stage t i b operation request requests).effects =
        (timers ++ schedules t.effects) ++ [⟨stage.now + operation.timeout,
          t.session.tag stage.phase i t.session.nextOp, .deadline⟩] := by
    simp [Turn.issued]
  rw [hfresh, hschedules]
  refine h.booked.hold (Turn.issued stage t i b operation request requests).session (i := i)
    (a := ⟨b.sequence, b.step, .operation t.session.nextOp request⟩)
    hnone rfl rfl rfl ?_ ?_ rfl ?_ ?_ ?_ fun _ _ _ => rfl
  · intro k
    simp only [Turn.issued, awaits_set hb]
    rfl
  · rw [← hnow]
    exact .deadline hs
  · -- The cursors that are set back are those of another branch than any that waits.
    intro f _ body hflies v hv
    obtain ⟨id, step, r, hwait, hstep, -⟩ := hflies.wait
    have hne : f.tag.branch ≠ i := by
      intro he
      rw [he, hnone] at hwait
      cases hwait
    obtain ⟨hscope, hkind⟩ := (Session.places_of_step hsc hstep).2 v hv
    exact Session.cursor?_onCursors_ne (Session.places_of_step hsc hs) _ hscope hkind (.inl hne)
  · intro r record hrecord
    simp only [Turn.issued]
    rw [Session.taken_get? h.coherent.pool hr _ r, if_neg]
    · exact hrecord
    · rintro rfl
      rw [Session.not_kept_of_free h.coherent.pool hr] at hrecord
      cases hrecord
  · rintro f ⟨⟩
    exact ⟨rfl, rfl, h.issued_flies hsc hb hrun hs hr, hnow.symm⟩

lemma Advances.rested (h : Advances stage t₀ t) (duration : Nanos) :
    Advances stage t₀ (rested stage t i b duration) := by
  obtain ⟨hslot, hgeneration, hnext, hcapacity, hasked, hspares, hrecorder, hcalls, htimers⟩ := h
  refine ⟨hslot, hgeneration, hnext.trans (Nat.le_succ _), hcapacity, hasked, hspares, ?_, ?_, ?_⟩
  · simpa [Turn.rested, requestsOf] using hrecorder
  · intro x hx
    exact hcalls x (by simpa [Turn.rested] using hx)
  · intro timer htimer
    simp only [Turn.rested, schedules_append, schedules_schedule, schedules_nil, List.mem_append,
      List.mem_singleton] at htimer
    rcases htimer with htimer | rfl
    · exact htimers timer htimer
    · exact ⟨rfl, hslot⟩

lemma Going.rested_booked (h : Going stage reached weight flights timers since t₀ t)
    (hb : t.session.branches[i]? = some b) (hrun : b.wait = .runnable) {duration : Nanos}
    (hs : stage.scenario.step? b.sequence b.step = some (.delay duration)) :
    (rested stage t i b duration).session.Booked stage.scenario stage.phase
      (rested stage t i b duration).requests
      (flights ++ fresh stage.now (rested stage t i b duration).effects)
      (timers ++ schedules (rested stage t i b duration).effects) since := by
  have hnow := h.clock t.session.nextOp (Nat.le_refl _)
  have hfresh : flights ++ fresh stage.now (rested stage t i b duration).effects =
      (flights ++ fresh stage.now t.effects) ++ Option.toList none := by
    simp [rested, LoadEngine.fresh]
  have hschedules : timers ++ schedules (rested stage t i b duration).effects =
      (timers ++ schedules t.effects) ++
        [⟨stage.now + duration, t.session.tag stage.phase i t.session.nextOp, .wake⟩] := by
    simp [rested]
  rw [hfresh, hschedules]
  refine h.booked.hold (rested stage t i b duration).session (i := i)
    (a := ⟨b.sequence, b.step, .delay t.session.nextOp⟩) (awaits_of_runnable hb hrun) rfl rfl rfl
    ?_ ?_ rfl (fun _ _ _ _ _ _ => rfl) (fun _ _ hr => hr) ?_ ?_
  · intro k
    simp only [rested, awaits_set hb]
    rfl
  · rw [← hnow]
    exact .wake hs
  · intro f hf
    cases hf
  · intro op r hwait
    cases hwait

theorem Going.takes (h : Going stage reached weight flights timers since t₀ t)
    (hsc : stage.scenario.Sound reached weight) (hb : t.session.branches[i]? = some b)
    (hrun : b.wait = .runnable) (ht : Takes stage t i b t') :
    Going stage reached weight flights timers since t₀ t' := by
  have hcoherent := h.coherent.takes hsc hb hrun ht
  cases ht with
  | move hs hq hw =>
    obtain ⟨hslot, hgeneration, hnext, hcapacity, hasked, hspares, hrecorder, hcalls, htimers⟩ :=
      h.advances
    refine ⟨hcoherent, ⟨hslot, hgeneration, hnext, hcapacity, hasked, hspares, hrecorder, hcalls,
      htimers⟩, ?_, h.clock, h.live⟩
    exact h.booked.keep rfl rfl (Nat.le_refl _) hq hw.cursors (fun _ _ _ hr => hr) fun _ _ => rfl
  | issue hs hr =>
    exact ⟨hcoherent, h.advances.issued h.coherent.pool _ hr, h.issued_booked hsc hb hrun hs hr,
      fun op hop => h.clock op (Nat.le_of_succ_le hop), h.live⟩
  | rest hs =>
    exact ⟨hcoherent, h.advances.rested _, h.rested_booked hb hrun hs,
      fun op hop => h.clock op (Nat.le_of_succ_le hop), h.live⟩

end Takes

inductive Rests (stage : Stage) (P : Turn → Prop) : Turn × Verdict → Prop
  | waits {t : Turn} (h : P t) (hnone : t.session.firstRunnable? = none)
      (hlive : t.session.branches.all Branch.isDone = false) :
      Rests stage P (t.onSession fun s => { s with state := .suspended }, .alive)
  | completes {t : Turn} (h : P t) (hdone : t.session.branches.all Branch.isDone = true) :
      Rests stage P (t.close .completed)
  | fails {t : Turn} (h : P t) : Rests stage P (t.close .failed)
  | full {t : Turn} {i : Nat} {b : Branch} (h : P t) (hb : t.session.branches[i]? = some b)
      (hrun : b.wait = .runnable) (hfull : t.requests.free = []) :
      Rests stage P (t, .broken (.requestOverflow stage.phase t.requests.capacity))

section Run

variable {stage : Stage} {reached : Nat → Prop} {weight : Nat → Nat} {t : Turn} {i : Nat}
  {b : Branch}

lemma firstRunnable?_some (h : t.session.firstRunnable? = some i) :
    ∃ b, t.session.branches[i]? = some b ∧ b.wait = .runnable := by
  obtain ⟨hlt, hrun, -⟩ := List.findIdx?_eq_some_iff_getElem.mp h
  exact ⟨_, List.getElem?_eq_getElem hlt, by simpa [Branch.isRunnable] using hrun⟩

lemma effort_pos (sc : Scenario) (hb : t.session.branches[i]? = some b)
    (hrun : b.wait = .runnable) :
    0 < t.session.effort sc := by
  have hmem := List.mem_of_getElem? hb
  have hpos : 0 < b.effort sc := by
    rw [effort_eq_load, load_of_runnable sc _ _ hrun]
    exact Nat.succ_pos _
  exact hpos.trans_le (List.single_le_sum (fun _ _ => Nat.zero_le _) _ (List.mem_map_of_mem hmem))

lemma rest_rests {P : Turn → Prop} (h : P t) (hfirst : t.session.firstRunnable? = none) :
    Rests stage P t.rest := by
  rw [rest]
  split
  · rename_i hdone
    exact .completes h hdone
  · rename_i hlive
    exact .waits h hfirst (Bool.eq_false_iff.mpr hlive)

variable {P : Turn → Prop} (hsc : stage.scenario.Sound reached weight)
  (hcoherent : ∀ t, P t → t.Coherent stage.scenario reached weight)
  (hstep : ∀ t t' i b, P t → t.session.branches[i]? = some b → b.wait = .runnable →
    Takes stage t i b t' → P t')

include hsc hcoherent hstep

lemma steps_rests (fuel : Nat) (h : P t) (hfuel : t.session.effort stage.scenario ≤ fuel) :
    Rests stage P (t.steps stage fuel) := by
  -- Each step takes from the effort, so the rounds do not run out before the session rests.
  induction fuel generalizing t with
  | zero =>
    rw [steps]
    split
    · rename_i hfirst
      exact rest_rests h hfirst
    · rename_i i hfirst
      obtain ⟨b, hb, hrun⟩ := firstRunnable?_some hfirst
      have hpos := effort_pos stage.scenario hb hrun
      omega
  | succ fuel ih =>
    rw [steps]
    split
    · rename_i hfirst
      exact rest_rests h hfirst
    · rename_i i hfirst
      obtain ⟨b, hb, hrun⟩ := firstRunnable?_some hfirst
      have hstepped := step_stepped ((hcoherent t h).ready hsc hb hrun)
      generalize t.step stage i = out at hstepped ⊢
      cases hstepped with
      | alive ht =>
        rename_i t'
        have heffort := effort_step hsc.budget (hcoherent t h).sound.tree hb hrun ht.branchStep
        exact ih (hstep t t' i b h hb hrun ht) (by
          change (t'.session.branches.map (Branch.effort stage.scenario)).sum ≤ fuel
          change (t.session.branches.map (Branch.effort stage.scenario)).sum ≤ fuel + 1 at hfuel
          omega)
      | failed =>
        obtain ⟨t', hclose, -⟩ := (hcoherent t h).owns.close .failed
        have hfails : Rests stage P (t.close .failed) := .fails h
        rw [hclose] at hfails ⊢
        exact hfails
      | full hfull => exact .full h hb hrun hfull

theorem run_rests (h : P (t.onSession fun s => { s with state := .running })) :
    Rests stage P (t.run stage) :=
  steps_rests hsc hcoherent hstep _ h (Nat.le_refl _)

end Run

end Turn

end LoadEngine
