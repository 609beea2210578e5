import LoadEngine.Proofs.ShardWatch

/-! Nothing on a shard goes on for ever. Each turn of a session comes to its end; a user ends before
more has come for it than its scenario has to wait for; and so the shard is done at some time with
the timers that are due, those included that are set in the meantime. -/

namespace LoadEngine

open Rehearsal (issues schedules)

lemma Timers.popDue?_none {q : Timers} {now : Nanos} (h : q.popDue? now = none) :
    ∀ timer ∈ q.toList, now < timer.due := by
  obtain ⟨l, hsorted⟩ := q
  cases l with
  | nil => exact nofun
  | cons first rest =>
    simp only [popDue?, ite_eq_right_iff, reduceCtorEq, imp_false, Nat.not_le] at h
    intro timer htimer
    rcases List.mem_cons.mp htimer with rfl | htimer
    · exact h
    · exact h.trans_le ((List.pairwise_cons.mp hsorted).1 timer htimer)

lemma Timers.popDue?_size {q : Timers} {now : Nanos} {popped : Timer × Timers}
    (h : q.popDue? now = some popped) : q.size = popped.2.size + 1 := by
  rw [size, (popDue?_some h).1]
  rfl

lemma Lane.drive_effort {lane : Lane} (hsound : lane.sessions.Sound) {slot : Nat} {s : Session}
    (hs : lane.sessions.get? slot = some s) (phase : Nat) (now : Nanos)
    {act : Stage → Turn → Turn × Verdict} {t : Turn} {verdict : Verdict}
    (hact : act ⟨lane.scenario, phase, now⟩ ⟨s, lane.requests, lane.recorder, []⟩ = (t, verdict)) :
    (lane.drive phase now slot act).1.effort + s.effort lane.scenario =
      lane.effort + (verdict.leaves lane.scenario t.session).effort lane.scenario := by
  have hbefore := ((Pool.acquired_others hs).map fun x => x.2.effort lane.scenario).sum_eq
  have hafter := ((drive_acquired hs phase now hact).map fun x => x.2.effort lane.scenario).sum_eq
  obtain ⟨sessions, hdrive, -⟩ := drive_eq hsound hs phase now hact
  rw [hdrive] at hafter ⊢
  cases verdict with
  | ended how =>
    -- a vacated session has no branches, so that no effort is left to it
    have hnone : (Verdict.leaves lane.scenario t.session (.ended how)).effort lane.scenario = 0 :=
      rfl
    simp only [Verdict.isEnded, if_true] at hafter
    simp only [effort, List.map_cons, List.sum_cons] at hbefore ⊢
    omega
  | alive | broken =>
    simp only [Verdict.isEnded, Bool.false_eq_true, if_false, List.map_cons,
      List.sum_cons] at hafter
    simp only [effort, Verdict.leaves, List.map_cons, List.sum_cons] at hbefore ⊢
    omega

namespace Shard

variable {s s₁ : Shard} {w : Watch} {l : Ledger} {now : Nanos} {cause : Cause} {phase slot : Nat}

lemma turn_effort {lane : Lane} (hlane : s.lanes.get? phase = some lane) (now : Nanos)
    (slot : Nat) (cause : Cause) : (s.turn now phase slot cause).1.effort + lane.effort =
      s.effort + (lane.drive phase now slot cause.act).1.effort := by
  unfold effort
  rw [turn_lanes_some hlane]
  exact OrderedMap.sum_values_insert s.lanes hlane _ Lane.effort

lemma turn_size (s : Shard) (now : Nanos) (phase slot : Nat) (cause : Cause) :
    (s.turn now phase slot cause).1.timers.size =
      s.timers.size + (s.sets now phase slot cause).length := by
  cases hlane : s.lanes.get? phase with
  | none =>
    rw [sets_none hlane, turn_of_none hlane]
    rfl
  | some lane =>
    generalize hdrive : lane.drive phase now slot cause.act = out
    obtain ⟨lane', effects, verdict⟩ := out
    obtain ⟨s', outputs, hturned, hturn⟩ := turn_eq hlane hdrive
    rw [hturn, sets_some hlane, hdrive]
    exact hturned.timers.length_eq.trans List.length_append

lemma Run.spends (h : Run s l) (ha : Arises s now cause phase slot s₁) (hstart : cause ≠ .start) :
    (s₁.sets now phase slot cause).length + (s₁.turn now phase slot cause).1.effort ≤ s₁.effort ∧
      ∀ timer ∈ s₁.sets now phase slot cause, now ≤ timer.due := by
  cases hlane : s₁.lanes.get? phase with
  | none =>
    rw [sets_none hlane, turn_of_none hlane]
    exact ⟨(Nat.zero_add _).le, nofun⟩
  | some lane =>
    rw [sets_some hlane]
    have heffort := turn_effort hlane now slot cause
    cases hs : lane.sessions.get? slot with
    | none =>
      simp only [Lane.drive_of_free hs, schedules_nil, List.length_nil] at heffort ⊢
      exact ⟨by omega, nofun⟩
    | some session =>
      obtain ⟨reached, weight, log, hsc, hcoherent, hlogged, -⟩ := h.arises ha hlane hs
      obtain ⟨⟨_, _, hbooks⟩, -⟩ := h.books.arises ha hlane
      have hspends := Turn.Coherent.spends ⟨lane.scenario, phase, now⟩ hsc hcoherent hlogged
        hstart rfl
      generalize hacted : cause.act ⟨lane.scenario, phase, now⟩
        ⟨session, lane.requests, lane.recorder, []⟩ = out at hspends
      obtain ⟨t, verdict⟩ := out
      have hchange := Lane.drive_effort hbooks.sessions hs phase now hacted
      obtain ⟨sessions, hdrive, -⟩ := Lane.drive_eq hbooks.sessions hs phase now hacted
      have hspent := hspends.spent
      rw [hdrive] at heffort hchange ⊢
      simp only at hspent heffort hchange ⊢
      exact ⟨by omega, hspends.due⟩

/-- The loop over the timers that are due, with no bound on its rounds: which it takes out, one
after the other, and which are set meanwhile. -/
inductive Firing (now : Nanos) : Shard → List Timer → List Timer → Shard × List Output → Prop
  | done {s : Shard} (hnone : s.timers.popDue? now = none) : Firing now s [] [] (s, [])
  | fire {s : Shard} {due : Timer} {timers : Timers} {fired more : List Timer}
      {out : Shard × List Output} (hpop : s.timers.popDue? now = some (due, timers))
      (rest : Firing now ({ s with timers }.visit now due.tag.phase due.tag.slot
        fun stage => Turn.onTimer stage due.tag due.kind).1 fired more out) :
      Firing now s (due :: fired)
        ({ s with timers }.sets now due.tag.phase due.tag.slot (.timer due) ++ more)
        (out.1, ({ s with timers }.visit now due.tag.phase due.tag.slot
          fun stage => Turn.onTimer stage due.tag due.kind).2 ++ out.2)

/-- What the loop does with timers that were set in some order. It takes them out as they are due,
each once and none too early, and no timer that is due is left. -/
structure Fires (now : Nanos) (s : Shard) (settings fired more : List Timer)
    (out : Shard × List Output) : Prop where
  firing : Firing now s fired more out
  order : InOrder (fired ++ out.1.timers.toList) (settings ++ more)
  due : ∀ timer ∈ fired, timer.due ≤ now
  later : ∀ timer ∈ more, now ≤ timer.due
  left : ∀ timer ∈ out.1.timers.toList, now < timer.due

lemma Fires.done {settings : List Timer} (h : InOrder s.timers.toList settings)
    (hnone : s.timers.popDue? now = none) : Fires now s settings [] [] (s, []) where
  firing := .done hnone
  order := by rwa [List.append_nil]
  due := nofun
  later := nofun
  left := Timers.popDue?_none hnone

lemma Fires.fire {settings fired more : List Timer} {due : Timer} {timers : Timers}
    {out : Shard × List Output} (h : InOrder s.timers.toList settings)
    (hpop : s.timers.popDue? now = some (due, timers))
    (hlater : ∀ timer ∈ { s with timers }.sets now due.tag.phase due.tag.slot (.timer due),
      now ≤ timer.due)
    (hrest : Fires now ({ s with timers }.visit now due.tag.phase due.tag.slot
        fun stage => Turn.onTimer stage due.tag due.kind).1
      (settings.erase due ++ { s with timers }.sets now due.tag.phase due.tag.slot (.timer due))
      fired more out) :
    Fires now s settings (due :: fired)
      ({ s with timers }.sets now due.tag.phase due.tag.slot (.timer due) ++ more)
      (out.1, ({ s with timers }.visit now due.tag.phase due.tag.slot
        fun stage => Turn.onTimer stage due.tag due.kind).2 ++ out.2) := by
  obtain ⟨hqueue, hdue⟩ := Timers.popDue?_some hpop
  have hset := List.forall_mem_append.mpr ⟨hlater, hrest.later⟩
  have horder := hrest.order
  rw [List.append_assoc] at horder
  rw [hqueue] at h
  refine ⟨.fire hpop hrest.firing, ?_, List.forall_mem_cons.mpr ⟨hdue, hrest.due⟩, hset,
    hrest.left⟩
  -- what fires in this round is due no later than all that is set from now on
  exact h.push horder fun timer htimer => hdue.trans (hset timer htimer)

lemma Watched.fires (h : Watched s w) (now : Nanos) (fuel : Nat)
    (hfuel : s.timers.size + s.effort ≤ fuel) :
    ∃ fired more, Fires now s w.pending fired more (fire now fuel s) := by
  -- on the rounds that are left: the queue and the effort together have no more than that
  induction fuel generalizing s w with
  | zero =>
    have hnone : s.timers.popDue? now = none := by
      cases hpop : s.timers.popDue? now with
      | none => rfl
      | some popped =>
        have hsize := Timers.popDue?_size hpop
        omega
    exact ⟨[], [], .done h.inOrder hnone⟩
  | succ fuel ih =>
    rw [fire_succ]
    cases hpop : s.timers.popDue? now with
    | none => exact ⟨[], [], .done h.inOrder hpop⟩
    | some popped =>
      obtain ⟨due, timers⟩ := popped
      have harises : Arises s now (.timer due) due.tag.phase due.tag.slot { s with timers } :=
        .timer hpop
      obtain ⟨l, hrun⟩ := h.run
      obtain ⟨hspent, hlater⟩ := hrun.spends harises (by simp)
      have hset := turn_size { s with timers } now due.tag.phase due.tag.slot (.timer due)
      have hsize := Timers.popDue?_size hpop
      have heffort : s.effort = ({ s with timers } : Shard).effort := rfl
      obtain ⟨fired, more, hfires⟩ := ih (h.turn harises) (by
        simp only at hset hsize
        omega)
      exact ⟨due :: fired, _, .fire h.inOrder hpop hlater hfires⟩

/-- What a shard has begun it brings to an end. Whatever arises, the session in question comes to
the end of its turn. No more comes for a user than its scenario has operations and delays, and less
if it is still there and there are request slots for all. And at whatever time, the shard is done
with its timers. -/
structure BoundedWork (s : Shard) (w : Watch) : Prop where
  turns : ∀ now cause phase slot s₁ lane session, Arises s now cause phase slot s₁ →
    s₁.lanes.get? phase = some lane → lane.sessions.get? slot = some session →
    Turn.Comes ⟨lane.scenario, phase, now⟩ ⟨session, lane.requests, lane.recorder, []⟩
      (cause.begun? ⟨lane.scenario, phase, now⟩ ⟨session, lane.requests, lane.recorder, []⟩)
      (cause.act ⟨lane.scenario, phase, now⟩ ⟨session, lane.requests, lane.recorder, []⟩)
  heard : ∀ phase lane slot, s.lanes.get? phase = some lane →
    w.heard phase slot ≤ lane.scenario.awaited
  live : ∀ phase lane slot session, s.lanes.get? phase = some lane →
    lane.requests.asked < 2 ^ 32 → lane.sessions.get? slot = some session →
    w.heard phase slot < lane.scenario.awaited
  timers : ∀ now, ∃ fired more, Fires now s w.pending fired more (s.fireTimers now)

lemma Watched.heard_lt (h : Watched s w) {lane : Lane} (hlane : s.lanes.get? phase = some lane)
    (hroom : lane.requests.asked < 2 ^ 32) {session : Session}
    (hs : lane.sessions.get? slot = some session) :
    w.heard phase slot < lane.scenario.awaited := by
  obtain ⟨l, hrun⟩ := h.run
  have hitem := (Pool.get?_eq_some.mp hs).2
  obtain ⟨reached, weight, hbooks⟩ := hrun.books.lanes phase lane hlane
  obtain ⟨log, issued, hstory⟩ := hrun.stories hlane slot session hitem
  obtain ⟨hsound, hlogged, -⟩ := hstory.logged hbooks.scenario
  obtain ⟨k, a, hawait⟩ := (hrun.resting hlane hroom slot session hs (by simp)).waits
  obtain ⟨b, hb, ha⟩ := Option.bind_eq_some_iff.mp hawait
  have hheeds := (h.heeds.lanes phase lane hlane).sessions slot session hitem
  exact (hheeds.lt hbooks.scenario.budget hsound hlogged hb ha).2

/-- Wherever a shard can come to, and whatever was seen on the way, its work is bounded. -/
theorem Run.work_bounded (h : Run s l) :
    (∃ w, Watched s w) ∧ ∀ w, Watched s w → s.BoundedWork w := by
  refine ⟨h.watched, fun w hw => ⟨?_, ?_, ?_, fun now => hw.fires now _ (Nat.le_refl _)⟩⟩
  · intro now cause phase slot s₁ lane session ha hlane hs
    obtain ⟨reached, weight, log, hsc, hcoherent, -, hvacant⟩ := h.arises ha hlane hs
    exact hcoherent.comes hsc hvacant
  · intro phase lane slot hlane
    exact (hw.heeds.lanes phase lane hlane).bound slot
  · intro phase lane slot session hlane hroom hs
    exact hw.heard_lt hlane hroom hs

end Shard

theorem errandDone_work_bounded : errandDone.1.Run errandBooks ∧ errand.awaited = 2 ∧
    errandDone.1.timers.toList.map Timer.due = [9, 10000000000] ∧
    (errandDone.1.fireTimers 9).1.timers.toList.map Timer.due = [10000000000] ∧
    (∃ w, errandDone.1.Watched w) ∧
    ∀ w, errandDone.1.Watched w → errandDone.1.BoundedWork w :=
  ⟨errandDone_run, by decide +kernel, by decide +kernel, by decide +kernel,
    Shard.Run.work_bounded errandDone_run⟩

end LoadEngine
