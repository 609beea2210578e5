import LoadEngine.Proofs.LaneBooks
import LoadEngine.Proofs.LedgerPages
import LoadEngine.Proofs.SessionCount

/-! Runs of a shard, turn by turn, with the books that are kept of them. The books are right after
every turn. -/

namespace LoadEngine

open Rehearsal (issues schedules)

lemma perm_insertTimer (timer : Timer) (l : List Timer) :
    (insertTimer timer l).Perm (timer :: l) := by
  induction l with
  | nil => exact .refl _
  | cons t rest ih =>
    rw [insertTimer_cons]
    split
    · exact .refl _
    · exact (ih.cons t).trans (.swap timer t rest)

lemma Timers.popDue?_some {q timers : Timers} {now : Nanos} {due : Timer}
    (h : q.popDue? now = some (due, timers)) : q.toList = due :: timers.toList ∧ due.due ≤ now := by
  obtain ⟨l, hsorted⟩ := q
  cases l with
  | nil => cases h
  | cons t rest =>
    simp only [popDue?] at h
    split at h
    · rename_i hdue
      cases h
      exact ⟨rfl, hdue⟩
    · cases h

namespace Shard

/-- The first number that the session in a slot has not given to a wait. -/
def nextOp (s : Shard) (phase slot : Nat) : Nat :=
  match s.lanes.get? phase with
  | none => 0
  | some lane =>
    match lane.sessions.item? slot with
    | none => 0
    | some session => session.nextOp

def turn (s : Shard) (now : Nanos) (phase slot : Nat) (cause : Cause) : Shard × Visit :=
  let (s', outputs, verdict) := s.drive now phase slot cause.act
  (s', ⟨now, phase, slot, cause, s.nextOp phase slot, outputs, verdict⟩)

/-- Something makes the session in a slot take a turn: a slot was taken for it to start in, a plugin
has something to say, a timer is due, or it has to end. -/
inductive Arises (s : Shard) (now : Nanos) : Cause → Nat → Nat → Shard → Prop
  | start {phase slot : Nat} {s₁ : Shard} (h : s.acquire phase = (some slot, s₁)) :
      Arises s now .start phase slot s₁
  | data (tag : Tag) (fragment : List UInt8) :
      Arises s now (.data tag fragment) tag.phase tag.slot s
  | complete (tag : Tag) (completion : Completion) :
      Arises s now (.complete tag completion) tag.phase tag.slot s
  | timer {due : Timer} {timers : Timers} (h : s.timers.popDue? now = some (due, timers)) :
      Arises s now (.timer due) due.tag.phase due.tag.slot { s with timers }
  | terminate (phase slot : Nat) : Arises s now .terminate phase slot s

/-- The states that a shard can come to, each with the books of how it came there. A phase is
prepared once, for a scenario that was built. -/
inductive Run : Shard → Ledger → Prop
  | new (id : Nat) (template : Recorder) : Run (.new id template) .empty
  | prepare {s : Shard} {l : Ledger} {phase : Nat} {d : Draft} {scenario : Scenario} (h : Run s l)
      (hphase : s.lanes.get? phase = none) (hbuilt : d.build = .ok scenario) (name : String)
      (capacity : Nat) : Run (s.prepare phase name scenario capacity) l
  | reset {s : Shard} {l : Ledger} {phase : Nat} {lane : Lane} (h : Run s l)
      (hlane : s.lanes.get? phase = some lane) : Run (s.collect phase true).1 (l.reset phase)
  | turn {s s₁ : Shard} {l : Ledger} {now : Nanos} {cause : Cause} {phase slot : Nat} (h : Run s l)
      (harises : Arises s now cause phase slot s₁) :
      Run (s₁.turn now phase slot cause).1 (l.after (s₁.turn now phase slot cause).2)

def timersOf (s : Shard) (phase slot : Nat) : List Timer :=
  s.timers.toList.filter fun timer => timer.tag.phase == phase && timer.tag.slot == slot

def page (s : Shard) (l : Ledger) (phase slot : Nat) : Page :=
  ⟨l.of phase slot, s.timersOf phase slot, l.since phase slot⟩

/-- The books of a shard are right. -/
structure Books (s : Shard) (l : Ledger) : Prop where
  lanes : ∀ phase lane, s.lanes.get? phase = some lane →
    ∃ reached weight, lane.Books phase reached weight (s.page l phase) none
  recorder : ∀ phase lane, s.lanes.get? phase = some lane →
    lane.recorder = (l.recorded phase).foldl Recorder.enter s.template
  unrecorded : ∀ phase, s.lanes.get? phase = none → l.recorded phase = []
  flights : ∀ f ∈ l.flights, ∃ lane, s.lanes.get? f.tag.phase = some lane
  timers : ∀ timer ∈ s.timers.toList, ∃ lane, s.lanes.get? timer.tag.phase = some lane

variable {s s₁ : Shard} {l : Ledger} {now : Nanos} {cause : Cause} {phase slot : Nat}

lemma carryOut_timers (s : Shard) (effects : List Effect) :
    (s.carryOut effects).1.timers.toList.Perm (s.timers.toList ++ schedules effects) := by
  induction effects generalizing s with
  | nil => rw [schedules_nil, List.append_nil]; exact .refl _
  | cons e rest ih =>
    cases e with
    | schedule timer =>
      rw [carryOut_schedule, schedules_schedule]
      refine (ih _).trans ?_
      exact ((perm_insertTimer timer s.timers.toList).append_right _).trans
        List.perm_middle.symm
    | issue operation tag =>
      rw [carryOut_issue, schedules_issue]
      exact ih s

lemma carryOut_calls (s : Shard) (effects : List Effect) :
    callsOf (s.carryOut effects).2 = issues effects := by
  induction effects generalizing s with
  | nil => rfl
  | cons e rest ih =>
    cases e with
    | schedule timer =>
      rw [carryOut_schedule, issues_schedule]
      split
      · exact ih _
      · exact ih _
    | issue operation tag =>
      rw [carryOut_issue, issues_issue]
      exact congrArg _ (ih s)

lemma carryOut_template (s : Shard) (effects : List Effect) :
    (s.carryOut effects).1.template = s.template := by
  rw [carryOut_frame]

lemma acquire_eq_some (h : s.acquire phase = (some slot, s₁)) :
    ∃ lane sessions, s.lanes.get? phase = some lane ∧
      lane.sessions.acquire = (some slot, sessions) ∧
      s₁ = { s with lanes := s.lanes.insert phase { lane with sessions } } := by
  unfold acquire at h
  cases hlane : s.lanes.get? phase with
  | none =>
    simp only [hlane] at h
    cases h
  | some lane =>
    simp only [hlane, Prod.mk.injEq] at h
    exact ⟨lane, lane.sessions.acquire.2, rfl, Prod.ext h.1 rfl, h.2.symm⟩

lemma Arises.timers (h : Arises s now cause phase slot s₁) :
    s.timers.toList = cause.timer?.toList ++ s₁.timers.toList := by
  cases h with
  | start h =>
    obtain ⟨lane, sessions, -, -, rfl⟩ := acquire_eq_some h
    rfl
  | timer h => exact (Timers.popDue?_some h).1
  | _ => rfl

lemma Arises.template (h : Arises s now cause phase slot s₁) : s₁.template = s.template := by
  cases h with
  | start h =>
    obtain ⟨lane, sessions, -, -, rfl⟩ := acquire_eq_some h
    rfl
  | _ => rfl

lemma Arises.address (h : Arises s now cause phase slot s₁) :
    ∀ tag, cause.tag? = some tag → tag.phase = phase ∧ tag.slot = slot := by
  intro tag htag
  cases h with
  | start h => cases htag
  | data tag' fragment => cases htag; exact ⟨rfl, rfl⟩
  | complete tag' completion => cases htag; exact ⟨rfl, rfl⟩
  | timer h => cases htag; exact ⟨rfl, rfl⟩
  | terminate => cases htag

lemma filter_own {extra : List Timer}
    (h : ∀ timer ∈ extra, timer.tag.phase = phase ∧ timer.tag.slot = slot) (p j : Nat) :
    (extra.filter fun timer => timer.tag.phase == p && timer.tag.slot == j) =
      if p = phase ∧ j = slot then extra else [] := by
  split
  · rename_i hown
    rw [List.filter_eq_self]
    intro timer htimer
    simp [h timer htimer, hown]
  · rename_i hother
    rw [List.filter_eq_nil_iff]
    intro timer htimer htag
    rw [Bool.and_eq_true, beq_iff_eq, beq_iff_eq, (h timer htimer).1, (h timer htimer).2] at htag
    exact hother ⟨htag.1.symm, htag.2.symm⟩

lemma Arises.timersOf (h : Arises s now cause phase slot s₁) (p j : Nat) : s.timersOf p j =
    (if p = phase ∧ j = slot then cause.timer?.toList else []) ++ s₁.timersOf p j := by
  rw [← filter_own ?_ p j, Shard.timersOf, h.timers, List.filter_append, Shard.timersOf]
  intro timer htimer
  exact h.address _ (Cause.tag?_of_timer? (Option.mem_toList.mp htimer))

lemma nextOp_eq {lane : Lane} {session : Session} (hlane : s.lanes.get? phase = some lane)
    (hitem : lane.sessions.item? slot = some session) : s.nextOp phase slot = session.nextOp := by
  unfold nextOp
  simp only [hlane, hitem]

lemma Books.arises (h : Books s l) (ha : Arises s now cause phase slot s₁) {p : Nat} {lane : Lane}
    (hlane : s₁.lanes.get? p = some lane) : (∃ reached weight, lane.Books p reached weight
      (s.page (l.clock now phase slot (s₁.nextOp phase slot)) p)
      (if p = phase then cause.opening slot else none)) ∧
    lane.recorder = (l.recorded p).foldl Recorder.enter s.template := by
  have hopened : (∃ reached weight, lane.Books p reached weight (s.page l p)
      (if p = phase then cause.opening slot else none)) ∧
      lane.recorder = (l.recorded p).foldl Recorder.enter s.template := by
    cases ha with
    | start ha =>
      obtain ⟨before, sessions, hbefore, hacquire, rfl⟩ := acquire_eq_some ha
      obtain ⟨rfl, rfl⟩ | ⟨hp, hlane⟩ := OrderedMap.get?_insert_eq_some hlane
      · rw [if_pos rfl]
        obtain ⟨reached, weight, hbooks⟩ := h.lanes p before hbefore
        exact ⟨⟨reached, weight, hbooks.acquire hacquire⟩, h.recorder p before hbefore⟩
      · rw [if_neg hp]
        exact ⟨h.lanes p lane hlane, h.recorder p lane hlane⟩
    | data | complete | timer | terminate =>
      simp only [Cause.opening, ite_self]
      exact ⟨h.lanes p lane hlane, h.recorder p lane hlane⟩
  obtain ⟨⟨reached, weight, hbooks⟩, hrecorder⟩ := hopened
  refine ⟨⟨reached, weight, hbooks.turn_pages ?_ fun _ hblank => hblank⟩, hrecorder⟩
  intro j session hitem hbooked
  refine hbooked.keep rfl rfl (Nat.le_refl _) (fun _ => rfl) (fun _ _ => rfl)
    (fun _ _ _ hr => hr) fun op hop => ?_
  simp only [page, Ledger.clock]
  rw [if_neg]
  rintro ⟨rfl, rfl, hfirst⟩
  rw [nextOp_eq hlane hitem] at hfirst
  omega

structure Turned (s s' : Shard) (phase : Nat) (lane' : Lane) (effects : List Effect)
    (outputs : List Output) : Prop where
  lanes : s'.lanes = s.lanes.insert phase lane'
  template : s'.template = s.template
  timers : s'.timers.toList.Perm (s.timers.toList ++ schedules effects)
  calls : callsOf outputs = issues effects

lemma turn_eq {lane lane' : Lane} {effects : List Effect} {verdict : Verdict}
    (hlane : s.lanes.get? phase = some lane)
    (hdrive : lane.drive phase now slot cause.act = (lane', effects, verdict)) :
    ∃ s' outputs, Turned s s' phase lane' effects outputs ∧ s.turn now phase slot cause =
      (s', ⟨now, phase, slot, cause, s.nextOp phase slot, outputs, verdict⟩) := by
  refine ⟨({ s with lanes := s.lanes.insert phase lane' }.carryOut effects).1,
    ({ s with lanes := s.lanes.insert phase lane' }.carryOut effects).2,
    ⟨carryOut_lanes _ _, carryOut_template _ _, carryOut_timers _ _, carryOut_calls _ _⟩, ?_⟩
  unfold turn drive
  simp only [hlane, hdrive]

lemma turn_of_none (hlane : s.lanes.get? phase = none) (now : Nanos) (slot : Nat) (cause : Cause) :
    s.turn now phase slot cause =
      (s, ⟨now, phase, slot, cause, s.nextOp phase slot, [], .alive⟩) := by
  unfold turn drive
  simp only [hlane]

lemma Books.driven (h : Books s l) (ha : Arises s now cause phase slot s₁) {lane : Lane}
    (hlane : s₁.lanes.get? phase = some lane) :
    ∃ reached weight lane' effects outputs verdict s', Lane.Driven phase reached weight
      (s.page (l.clock now phase slot (s₁.nextOp phase slot)) phase) now slot cause
      (s₁.timersOf phase slot) lane lane' effects verdict ∧
      Turned s₁ s' phase lane' effects outputs ∧ s₁.turn now phase slot cause =
        (s', ⟨now, phase, slot, cause, s₁.nextOp phase slot, outputs, verdict⟩) := by
  obtain ⟨⟨reached, weight, hbooks⟩, -⟩ := h.arises ha hlane
  rw [if_pos rfl] at hbooks
  have htimers := ha.timersOf phase slot
  simp only [and_self, if_true] at htimers
  have hclock : ∀ session, lane.sessions.item? slot = some session → ∀ op, session.nextOp ≤ op →
      (s.page (l.clock now phase slot (s₁.nextOp phase slot)) phase slot).since op = now := by
    intro session hitem op hop
    rw [← nextOp_eq hlane hitem] at hop
    simp [page, Ledger.clock, hop]
  have hdriven := hbooks.drive htimers hclock ha.address
  generalize hout : lane.drive phase now slot cause.act = out at hdriven
  obtain ⟨lane', effects, verdict⟩ := out
  obtain ⟨s', outputs, hturned, hturn⟩ := turn_eq hlane hout
  exact ⟨reached, weight, lane', effects, outputs, verdict, s', hdriven, hturned, hturn⟩

lemma Arises.lanes_none (h : Arises s now cause phase slot s₁) {p : Nat} :
    s₁.lanes.get? p = none ↔ s.lanes.get? p = none := by
  cases h with
  | start h =>
    obtain ⟨lane, sessions, hlane, -, rfl⟩ := acquire_eq_some h
    simp only [OrderedMap.get?_insert]
    split
    · rename_i hp
      simp [hp, hlane]
    · rfl
  | _ => rfl

lemma Arises.exists_lane (h : Arises s now cause phase slot s₁) {p : Nat}
    (hlane : ∃ lane, s.lanes.get? p = some lane) : ∃ lane, s₁.lanes.get? p = some lane := by
  rw [← Option.isSome_iff_exists, Option.isSome_iff_ne_none] at hlane ⊢
  exact fun hnone => hlane (h.lanes_none.mp hnone)

lemma Books.turn_of_none (h : Books s l) (ha : Arises s now cause phase slot s₁)
    (hlane : s₁.lanes.get? phase = none) :
    Books (s₁.turn now phase slot cause).1 (l.after (s₁.turn now phase slot cause).2) := by
  have habsent : s.lanes.get? phase = none := ha.lanes_none.mp hlane
  have hflights : ∀ f ∈ l.flights, f.tag.phase ≠ phase := by
    intro f hf hphase
    obtain ⟨lane, hf⟩ := h.flights f hf
    rw [hphase, habsent] at hf
    cases hf
  rw [Shard.turn_of_none hlane]
  simp only
  generalize hv : (⟨now, phase, slot, cause, s₁.nextOp phase slot, [], .alive⟩ : Visit) = v
  have hproper : Ledger.Proper v := by
    subst hv
    exact ⟨ha.address, fun x hx => by cases hx⟩
  have hphase : v.phase = phase := by rw [← hv]
  have hnone : (l.of v.phase v.slot) = [] := by
    rw [hphase, Ledger.of, List.filter_eq_nil_iff]
    intro f hf hown
    rw [Flight.isOf, Bool.and_eq_true, beq_iff_eq] at hown
    exact hflights f hf hown.1
  refine ⟨?_, ?_, ?_, ?_, ?_⟩
  · intro p lane hp
    have hne : p ≠ phase := by
      rintro rfl
      rw [hlane] at hp
      cases hp
    obtain ⟨⟨reached, weight, hbooks⟩, -⟩ := h.arises ha hp
    rw [if_neg hne] at hbooks
    refine ⟨reached, weight, hbooks.same fun j => ⟨?_, ?_, ?_⟩⟩
    · exact Ledger.after_of_ne hproper fun hown => hne (hown.1.trans hphase)
    · have htimers := ha.timersOf p j
      rw [if_neg fun hown => hne hown.1, List.nil_append] at htimers
      simp only [page, htimers]
      exact .refl _
    · simp only [page, Ledger.after_since, ← hv]
  · intro p lane hp
    have hne : p ≠ v.phase := by
      rintro rfl
      rw [hphase, hlane] at hp
      cases hp
    rw [Ledger.after_recorded_ne hproper hne, ha.template]
    exact (h.arises ha hp).2
  · intro p hp
    by_cases hpv : p = v.phase
    · subst hpv
      rw [Ledger.after_recorded hproper, hnone, h.unrecorded _ (ha.lanes_none.mp hp), ← hv]
      rfl
    · rw [Ledger.after_recorded_ne hproper hpv]
      exact h.unrecorded p (ha.lanes_none.mp hp)
  · intro f hf
    obtain ⟨g, hg, htag⟩ | ⟨x, hx, -⟩ := Ledger.mem_after hf
    · rw [htag]
      exact ha.exists_lane (h.flights g hg)
    · rw [← hv] at hx
      cases hx
  · intro timer htimer
    refine ha.exists_lane (h.timers timer ?_)
    rw [ha.timers]
    exact List.mem_append_right _ htimer

lemma Turned.timersOf {s' : Shard} {lane' : Lane} {effects : List Effect} {outputs : List Output}
    (h : Turned s₁ s' phase lane' effects outputs)
    (hown : ∀ timer ∈ schedules effects, timer.tag.phase = phase ∧ timer.tag.slot = slot)
    (p j : Nat) : (s'.timersOf p j).Perm
      (s₁.timersOf p j ++ if p = phase ∧ j = slot then schedules effects else []) := by
  rw [← filter_own hown p j, Shard.timersOf, Shard.timersOf, ← List.filter_append]
  exact h.timers.filter _

lemma Turned.exists_lane {s' : Shard} {lane' : Lane} {effects : List Effect} {outputs : List Output}
    (h : Turned s₁ s' phase lane' effects outputs) {p : Nat}
    (hlane : p = phase ∨ ∃ lane, s₁.lanes.get? p = some lane) :
    ∃ lane, s'.lanes.get? p = some lane := by
  rw [h.lanes]
  exact OrderedMap.exists_get?_insert _ _ hlane

lemma Turned.same {s' : Shard} {lane' : Lane} {effects : List Effect} {outputs : List Output}
    {verdict : Verdict} (h : Turned s₁ s' phase lane' effects outputs)
    (ha : Arises s now cause phase slot s₁)
    (hown : ∀ timer ∈ schedules effects, timer.tag.phase = phase ∧ timer.tag.slot = slot)
    {v : Visit} (hv : v = ⟨now, phase, slot, cause, s₁.nextOp phase slot, outputs, verdict⟩)
    (hproper : Ledger.Proper v) (p j : Nat) : Page.Same
      (if p = phase ∧ j = slot then
        (s.page (l.clock now phase slot (s₁.nextOp phase slot)) p j).turned now cause
          (s₁.timersOf phase slot) effects verdict
      else s.page (l.clock now phase slot (s₁.nextOp phase slot)) p j)
      (s'.page (l.after v) p j) := by
  have hperm := h.timersOf hown p j
  have hbefore := ha.timersOf p j
  by_cases hpage : p = phase ∧ j = slot
  · obtain ⟨rfl, rfl⟩ := hpage
    simp only [and_self, if_true] at hperm ⊢
    have hflights := Ledger.after_of (l := l) hproper
    subst hv
    refine ⟨?_, hperm, ?_⟩
    · rw [h.calls] at hflights
      exact hflights
    · simp only [page, Ledger.after_since, Page.turned]
  · rw [if_neg hpage] at hperm hbefore ⊢
    rw [List.append_nil] at hperm
    rw [List.nil_append] at hbefore
    subst hv
    refine ⟨Ledger.after_of_ne hproper hpage, ?_, by simp only [page, Ledger.after_since]⟩
    simp only [page, hbefore]
    exact hperm

theorem Books.turn (h : Books s l) (ha : Arises s now cause phase slot s₁) :
    Books (s₁.turn now phase slot cause).1 (l.after (s₁.turn now phase slot cause).2) := by
  cases hlane : s₁.lanes.get? phase with
  | none => exact h.turn_of_none ha hlane
  | some lane =>
    obtain ⟨reached, weight, lane', effects, outputs, verdict, s', hdriven, hturned, hturn⟩ :=
      h.driven ha hlane
    rw [hturn]
    simp only
    generalize hv : (⟨now, phase, slot, cause, s₁.nextOp phase slot, outputs, verdict⟩ : Visit) = v
    have hproper : Ledger.Proper v := by
      subst hv
      exact ⟨ha.address, by rw [hturned.calls]; exact hdriven.calls⟩
    have hphase : v.phase = phase := by rw [← hv]
    have hslot : v.slot = slot := by rw [← hv]
    have hsame := hturned.same (l := l) ha hdriven.timersOwn hv.symm hproper
    constructor
    case lanes =>
      intro p lane'' hlane''
      rw [hturned.lanes] at hlane''
      obtain ⟨rfl, rfl⟩ | ⟨hp, hlane''⟩ := OrderedMap.get?_insert_eq_some hlane''
      · refine ⟨reached, weight, hdriven.books.same fun j => ?_⟩
        have hpage := hsame p j
        simp only [true_and] at hpage
        exact hpage
      · obtain ⟨⟨reached', weight', hbooks⟩, -⟩ := h.arises ha hlane''
        rw [if_neg hp] at hbooks
        refine ⟨reached', weight', hbooks.same fun j => ?_⟩
        have hpage := hsame p j
        rwa [if_neg fun hown => hp hown.1] at hpage
    case recorder =>
      intro p lane'' hlane''
      rw [hturned.template, ha.template]
      rw [hturned.lanes] at hlane''
      obtain ⟨rfl, rfl⟩ | ⟨hp, hlane''⟩ := OrderedMap.get?_insert_eq_some hlane''
      · have hrecorded := Ledger.after_recorded (l := l) hproper
        rw [hphase, hslot] at hrecorded
        rw [hdriven.recorder, (h.arises ha hlane).2, ← List.foldl_append, hrecorded]
        subst hv
        simp only [hturned.calls]
        rfl
      · rw [(h.arises ha hlane'').2, Ledger.after_recorded_ne hproper (by rw [hphase]; exact hp)]
    case unrecorded =>
      intro p hnone
      rw [hturned.lanes] at hnone
      obtain ⟨hp, hnone⟩ := OrderedMap.get?_insert_eq_none hnone
      rw [Ledger.after_recorded_ne hproper (by rw [hphase]; exact hp)]
      exact h.unrecorded p (ha.lanes_none.mp hnone)
    case flights =>
      intro f hf
      refine hturned.exists_lane ?_
      obtain ⟨g, hg, htag⟩ | ⟨x, hx, htag⟩ := Ledger.mem_after hf
      · rw [htag]
        exact .inr (ha.exists_lane (h.flights g hg))
      · rw [htag]
        exact .inl ((hproper.calls x hx).1.trans hphase)
    case timers =>
      intro timer htimer
      refine hturned.exists_lane ?_
      rcases List.mem_append.mp (hturned.timers.mem_iff.mp htimer) with htimer | htimer
      · refine .inr (ha.exists_lane (h.timers timer ?_))
        rw [ha.timers]
        exact List.mem_append_right _ htimer
      · exact .inl (hdriven.timersOwn timer htimer).1

lemma new_books (id : Nat) (template : Recorder) : Books (.new id template) .empty where
  lanes phase lane hlane := by cases hlane
  recorder phase lane hlane := by cases hlane
  unrecorded phase _ := rfl
  flights f hf := by cases hf
  timers timer htimer := by cases htimer

lemma Books.page_of_absent (h : Books s l) (hphase : s.lanes.get? phase = none) (slot : Nat) :
    (s.page l phase slot).flights = [] ∧ (s.page l phase slot).timers = [] := by
  constructor
  · refine List.filter_eq_nil_iff.mpr fun f hf hown => ?_
    rw [Flight.isOf, Bool.and_eq_true, beq_iff_eq] at hown
    obtain ⟨lane, hf⟩ := h.flights f hf
    rw [hown.1, hphase] at hf
    cases hf
  · refine List.filter_eq_nil_iff.mpr fun timer htimer hown => ?_
    rw [Bool.and_eq_true, beq_iff_eq] at hown
    obtain ⟨lane, hf⟩ := h.timers timer htimer
    rw [hown.1, hphase] at hf
    cases hf

lemma Books.prepare (h : Books s l) (hphase : s.lanes.get? phase = none) {d : Draft}
    {scenario : Scenario} (hbuilt : d.build = .ok scenario) (name : String) (capacity : Nat) :
    Books (s.prepare phase name scenario capacity) l where
  lanes p lane hlane := by
    obtain ⟨rfl, rfl⟩ | ⟨-, hlane⟩ := OrderedMap.get?_insert_eq_some hlane
    · obtain ⟨reached, weight, hsound⟩ := d.build_sound hbuilt
      exact ⟨reached, weight, Lane.new_books hsound name capacity s.template
        (h.page_of_absent hphase)⟩
    · exact h.lanes p lane hlane
  recorder p lane hlane := by
    obtain ⟨rfl, rfl⟩ | ⟨-, hlane⟩ := OrderedMap.get?_insert_eq_some hlane
    · rw [h.unrecorded p hphase]
      rfl
    · exact h.recorder p lane hlane
  unrecorded p hnone := h.unrecorded p (OrderedMap.get?_insert_eq_none hnone).2
  flights f hf := OrderedMap.exists_get?_insert _ _ (.inr (h.flights f hf))
  timers timer htimer := OrderedMap.exists_get?_insert _ _ (.inr (h.timers timer htimer))

lemma collect_reset {lane : Lane} (hlane : s.lanes.get? phase = some lane) :
    (s.collect phase true).1 = { s with lanes := s.lanes.insert phase lane.reset } := by
  unfold Shard.collect
  simp only [hlane, if_true]

lemma Books.reset (h : Books s l) {lane : Lane} (hlane : s.lanes.get? phase = some lane) :
    Books (s.collect phase true).1 (l.reset phase) := by
  rw [collect_reset hlane]
  constructor
  case lanes =>
    intro p lane' hlane'
    obtain ⟨rfl, rfl⟩ | ⟨-, hlane'⟩ := OrderedMap.get?_insert_eq_some hlane'
    · obtain ⟨reached, weight, hbooks⟩ := h.lanes p lane hlane
      exact ⟨reached, weight, hbooks.reset⟩
    · exact h.lanes p lane' hlane'
  case recorder =>
    intro p lane' hlane'
    simp only [Ledger.reset]
    obtain ⟨rfl, rfl⟩ | ⟨hp, hlane'⟩ := OrderedMap.get?_insert_eq_some hlane'
    · rw [if_pos rfl, List.foldl_append, ← h.recorder p lane hlane]
      rfl
    · rw [if_neg hp]
      exact h.recorder p lane' hlane'
  case unrecorded =>
    intro p hnone
    obtain ⟨hp, hnone⟩ := OrderedMap.get?_insert_eq_none hnone
    simp only [Ledger.reset]
    rw [if_neg hp]
    exact h.unrecorded p hnone
  case flights =>
    exact fun f hf => OrderedMap.exists_get?_insert _ _ (.inr (h.flights f hf))
  case timers =>
    exact fun timer htimer => OrderedMap.exists_get?_insert _ _ (.inr (h.timers timer htimer))

/-- The books are right wherever a shard can come to. -/
theorem Run.books (h : Run s l) : Books s l := by
  induction h with
  | new id template => exact new_books id template
  | prepare h hphase hbuilt name capacity ih => exact ih.prepare hphase hbuilt name capacity
  | reset h hlane ih => exact ih.reset hlane
  | turn h harises ih => exact ih.turn harises

def Keeps (s s' : Shard) : Prop :=
  ∀ phase lane, s.lanes.get? phase = some lane → ∃ lane', s'.lanes.get? phase = some lane' ∧
    lane'.scenario = lane.scenario ∧ lane'.requests.asked = lane.requests.asked

lemma Keeps.refl (s : Shard) : Keeps s s := fun _ lane hlane => ⟨lane, hlane, rfl, rfl⟩

lemma Keeps.trans {s' s'' : Shard} (h : Keeps s s') (h' : Keeps s' s'') : Keeps s s'' := by
  intro phase lane hlane
  obtain ⟨lane', hlane', hscenario, hasked⟩ := h phase lane hlane
  obtain ⟨lane'', hlane'', hscenario', hasked'⟩ := h' phase lane' hlane'
  exact ⟨lane'', hlane'', hscenario'.trans hscenario, hasked'.trans hasked⟩

lemma Keeps.insert {p : Nat} {lane lane' : Lane} (hlane : s.lanes.get? p = some lane)
    (hscenario : lane'.scenario = lane.scenario)
    (hasked : lane'.requests.asked = lane.requests.asked) :
    Keeps s { s with lanes := s.lanes.insert p lane' } := by
  intro phase before hbefore
  simp only [OrderedMap.get?_insert]
  split
  · rename_i hp
    rw [hp, hlane, Option.some.injEq] at hbefore
    subst hbefore
    exact ⟨lane', rfl, hscenario, hasked⟩
  · exact ⟨before, hbefore, rfl, rfl⟩

lemma Arises.keeps (h : Arises s now cause phase slot s₁) : Keeps s s₁ := by
  cases h with
  | start h =>
    obtain ⟨lane, sessions, hlane, -, rfl⟩ := acquire_eq_some h
    exact .insert hlane rfl rfl
  | _ => exact .refl s

lemma Books.turn_keeps (h : Books s l) (ha : Arises s now cause phase slot s₁) :
    Keeps s (s₁.turn now phase slot cause).1 := by
  refine ha.keeps.trans ?_
  cases hlane : s₁.lanes.get? phase with
  | none =>
    rw [Shard.turn_of_none hlane]
    exact .refl s₁
  | some lane =>
    obtain ⟨_, _, lane', effects, outputs, verdict, s', hdriven, hturned, hturn⟩ :=
      h.driven ha hlane
    rw [hturn]
    intro p before hbefore
    rw [hturned.lanes]
    exact Keeps.insert hlane hdriven.scenario hdriven.asked p before hbefore

end Shard

def Cause.told? : Cause → Option Tag
  | data tag _ | complete tag _ => some tag
  | _ => none

def Cause.Handed (l : Ledger) (cause : Cause) : Prop :=
  ∀ tag, cause.told? = some tag → ∃ f ∈ l.flights, f.tag = tag

namespace Shard

variable {s s₁ : Shard} {l : Ledger} {now : Nanos} {cause : Cause} {phase slot : Nat}

lemma Books.known (h : Books s l) (ha : Arises s now cause phase slot s₁) (hhanded : cause.Handed l)
    {lane : Lane} (hlane : s₁.lanes.get? phase = some lane) {session : Session}
    (hs : lane.sessions.get? slot = some session) : cause.Known session := by
  intro tag htag
  obtain ⟨⟨reached, weight, hbooks⟩, -⟩ := h.arises ha hlane
  have hbooked := (hbooks.placed slot session (Pool.get?_eq_some.mp hs).2).booked
  obtain ⟨hphase, hslot⟩ := ha.address tag htag
  have hflight : cause.told? = some tag → session.Knows tag := by
    intro htold
    obtain ⟨f, hf, rfl⟩ := hhanded tag htold
    exact hbooked.flightsKnown f (Ledger.mem_of.mpr ⟨hf, hphase, hslot⟩)
  cases cause with
  | start => cases htag
  | data tag' fragment => exact hflight htag
  | complete tag' completion => exact hflight htag
  | timer due =>
    cases htag
    refine hbooked.timersKnown due ?_
    simp only [page, ha.timersOf phase slot, and_self, if_true, Cause.timer?]
    exact List.mem_append_left _ (List.mem_singleton.mpr rfl)
  | terminate => cases htag

/-- The one fault that a turn can come to is the want of a request slot, in a phase that asked for
more of them than can be numbered. -/
theorem Books.turn_faults (h : Books s l) (ha : Arises s now cause phase slot s₁)
    (hhanded : cause.Handed l) {fault : ContractViolation}
    (hfault : (s₁.turn now phase slot cause).2.verdict = .broken fault) :
    ∃ lane, (s₁.turn now phase slot cause).1.lanes.get? phase = some lane ∧
      fault = .requestOverflow phase (Pool.numbered lane.requests.asked) ∧
        2 ^ 32 ≤ lane.requests.asked := by
  cases hlane : s₁.lanes.get? phase with
  | none =>
    rw [Shard.turn_of_none hlane] at hfault
    cases hfault
  | some lane =>
    obtain ⟨_, _, lane', effects, outputs, verdict, s', hdriven, hturned, hturn⟩ :=
      h.driven ha hlane
    rw [hturn] at hfault ⊢
    obtain ⟨hfull, hlarge⟩ :=
      hdriven.faults (fun session hs => h.known ha hhanded hlane hs) fault hfault
    refine ⟨lane', ?_, ?_, ?_⟩
    · rw [hturned.lanes, OrderedMap.get?_insert_self]
    · obtain ⟨⟨_, _, hbooks⟩, -⟩ := h.arises ha hlane
      rw [hfull, hdriven.asked, hbooks.desks]
    · rw [hdriven.asked]
      exact hlarge

lemma Books.turn_resting (h : Books s l) (ha : Arises s now cause phase slot s₁)
    (hresting : ∀ p lane, s.lanes.get? p = some lane → lane.requests.asked < 2 ^ 32 →
      lane.Resting none) {p : Nat} {lane : Lane}
    (hlane : (s₁.turn now phase slot cause).1.lanes.get? p = some lane)
    (hroom : lane.requests.asked < 2 ^ 32) : lane.Resting none := by
  have hopened : ∀ q before, s₁.lanes.get? q = some before → before.requests.asked < 2 ^ 32 →
      before.Resting (if q = phase then cause.opening slot else none) := by
    intro q before hbefore hsmall
    cases ha with
    | start ha =>
      obtain ⟨old, sessions, hold, hacquire, rfl⟩ := acquire_eq_some ha
      obtain ⟨rfl, rfl⟩ | ⟨hq, hbefore⟩ := OrderedMap.get?_insert_eq_some hbefore
      · rw [if_pos rfl]
        obtain ⟨_, _, hbooks⟩ := h.lanes q old hold
        intro j session hj hopening
        have hsome : old.sessions.acquire.1 = some slot := by rw [hacquire]
        have hrest : old.sessions.acquire.2 = sessions := by rw [hacquire]
        obtain ⟨-, a, ha⟩ := Pool.acquire_fresh hbooks.sessions hsome
        have hget := Pool.acquire_get? hbooks.sessions hsome ha j session
        rw [hrest] at hget
        rcases hget.mp hj with ⟨hjslot, -⟩ | hj
        · exact absurd (congrArg some hjslot.symm) hopening
        · exact hresting q old hold hsmall j session hj (by simp)
      · rw [if_neg hq]
        exact hresting q before hbefore hsmall
    | data | complete | timer | terminate =>
      simp only [Cause.opening, ite_self]
      exact hresting q before hbefore hsmall
  cases hphase : s₁.lanes.get? phase with
  | none =>
    rw [Shard.turn_of_none hphase] at hlane
    have hrests := hopened p lane hlane hroom
    rwa [if_neg] at hrests
    rintro rfl
    rw [hphase] at hlane
    cases hlane
  | some before =>
    obtain ⟨_, _, lane', effects, outputs, verdict, s', hdriven, hturned, hturn⟩ :=
      h.driven ha hphase
    rw [hturn] at hlane
    simp only at hlane
    rw [hturned.lanes] at hlane
    obtain ⟨rfl, rfl⟩ | ⟨hp, hlane⟩ := OrderedMap.get?_insert_eq_some hlane
    · rw [hdriven.asked] at hroom
      have hrests := hopened p before hphase hroom
      rw [if_pos rfl] at hrests
      exact hdriven.resting hroom hrests
    · have hrests := hopened p lane hlane hroom
      rwa [if_neg hp] at hrests

/-- Between turns every session rests, if there are request slots for all. -/
theorem Run.resting (h : Run s l) {lane : Lane} (hlane : s.lanes.get? phase = some lane)
    (hroom : lane.requests.asked < 2 ^ 32) : lane.Resting none := by
  induction h generalizing phase lane with
  | new id template => cases hlane
  | @prepare s l p d scenario h hphase hbuilt name capacity ih =>
    obtain ⟨rfl, rfl⟩ | ⟨-, hlane⟩ := OrderedMap.get?_insert_eq_some hlane
    · intro j session hj
      simp only [Lane.new, Pool.new_get?] at hj
      cases hj
    · exact ih hlane hroom
  | @reset s l p before h hbefore ih =>
    rw [collect_reset hbefore] at hlane
    obtain ⟨rfl, rfl⟩ | ⟨-, hlane⟩ := OrderedMap.get?_insert_eq_some hlane
    · intro j session hj hopening
      exact ih hbefore hroom j session hj hopening
    · exact ih hlane hroom
  | turn h harises ih =>
    exact h.books.turn_resting harises (fun q lane hq => ih hq) hlane hroom

end Shard

end LoadEngine
