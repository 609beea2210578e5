import LoadEngine.Proofs.IterationCap
import LoadEngine.Proofs.StartCount

/-! A limit on the started sessions is never exceeded. A start that was asked for counts from then
on; only a report that it was blocked gives it back. So however late the shards answer, what was
started and what is in flight stays within the limit. -/

namespace LoadEngine

namespace PhaseRun

inductive Request where
  | start
  | react (what : Stimulus)
  | finish
  | beginTermination
  | complete (statistics : StatisticsSet) (maxUsed : Nat)

def Request.answered : Request → Nat
  | .react what => what.answered
  | _ => 0

/-- The phase afterwards, and the starts to be sent. What is refused changes nothing. -/
def serve (p : PhaseRun) (now : Nanos) : Request → PhaseRun × Starts
  | .start =>
    match p.start now with
    | .ok r => r
    | .error _ => (p, [])
  | .react what => p.react now what
  | .finish =>
    match p.finish now with
    | .ok p' => (p', [])
    | .error _ => (p, [])
  | .beginTermination => ((p.beginTermination now).1, [])
  | .complete statistics maxUsed => (p.complete statistics maxUsed, [])

/-- What a phase can come to on shards with these shares, when every report answers for starts that
are in flight. -/
inductive Occurs (phase : Phase) (shares : List Nat) : PhaseRun → Prop
  | new : Occurs phase shares { new phase shares.length with shares }
  | serve {p : PhaseRun} (h : Occurs phase shares p) (now : Nanos) (what : Request)
      (hanswered : what.answered ≤ p.inFlight) : Occurs phase shares (p.serve now what).1

structure Within (p : PhaseRun) (cap : Nat) : Prop where
  limit : p.phase.iterationCap = some cap
  room : p.counters.started + p.inFlight ≤ cap

variable {p p' : PhaseRun} {cap : Nat} {starts : Starts} {now : Nanos}

lemma Within.of_eq (h : p.Within cap) (hphase : p'.phase = p.phase)
    (hstarted : p'.counters.started = p.counters.started) (hflight : p'.inFlight = p.inFlight) :
    p'.Within cap := by
  refine ⟨?_, ?_⟩
  · rw [hphase]
    exact h.limit
  · rw [hstarted, hflight]
    exact h.room

lemma Asks.sum_le (h : Asks p p' starts) (hwithin : p'.Within cap) :
    (starts.map Prod.snd).sum ≤ cap - (p.counters.started + p.inFlight) := by
  have hroom := hwithin.room
  rw [h.counters, h.inFlight] at hroom
  omega

lemma Within.finishIfDone (h : p.Within cap) (now : Nanos) : (p.finishIfDone now).Within cap := by
  have hasks := p.finishIfDone_asks now
  refine h.of_eq (p.finishIfDone_phase now) ?_ ?_
  · rw [hasks.counters]
  · exact hasks.inFlight

lemma Within.start (h : p.Within cap) (hstart : p.start now = .ok (p', starts)) :
    p'.Within cap := by
  obtain ⟨-, rfl, -⟩ := start_eq_ok hstart
  set q : PhaseRun := { p with startedAt := some now, status := .running } with hq
  have hbegun : q.Within cap := h.of_eq rfl rfl rfl
  obtain ⟨inFlight, cursor, he⟩ := q.issue_eq p.initialStarts
  have hissued : (q.issue p.initialStarts).1.Within cap := by
    refine ⟨?_, issue_within hbegun.limit hbegun.room _⟩
    rw [he]
    exact hbegun.limit
  exact hissued.finishIfDone now

lemma Within.tick (h : p.Within cap) (now : Nanos) : (p.tick now).1.Within cap := by
  by_cases hrun : p.status = .running
  · cases hc : p.phase.arrivals with
    | none =>
      have he : p.tick now = (p.finishIfDone now, []) := by
        simp only [PhaseRun.tick, hrun, if_true, hc]
      rw [he]
      exact h.finishIfDone now
    | some curve =>
      obtain ⟨inFlight, cursor, he⟩ := p.startOwed_eq (curve.arrived (p.elapsed now))
      have howed : (p.startOwed (curve.arrived (p.elapsed now))).1.Within cap := by
        refine ⟨?_, startOwed_within h.limit h.room _⟩
        rw [he]
        exact h.limit
      rw [tick_of_arrivals hrun hc]
      exact howed.finishIfDone now
  · simpa only [PhaseRun.tick, if_neg hrun] using h

lemma Within.onEnded (h : p.Within cap) (shard : Nat) (how : SessionEnd) (now : Nanos) :
    (p.onEnded shard how now).1.Within cap := by
  set q : PhaseRun := { p with counters := p.counters.consume how.event } with hq
  have hended : q.Within cap := h.of_eq rfl (p.counters.consume_ended how).1 rfl
  by_cases hrun : p.status = .running
  · obtain ⟨inFlight, throttled, he⟩ := q.replace_eq shard
    have hreplaced : (q.replace shard).1.Within cap := by
      refine ⟨?_, replace_within hended.limit hended.room shard⟩
      rw [he]
      exact hended.limit
    have hfinished := hreplaced.finishIfDone now
    simpa only [PhaseRun.onEnded, if_pos hrun] using hfinished
  · simpa only [PhaseRun.onEnded, if_neg hrun] using hended

lemma Within.onStarted (h : p.Within cap) {started blocked : Nat}
    (hanswered : started + blocked ≤ p.inFlight) : (p.onStarted started blocked).Within cap := by
  have hroom := h.room
  refine ⟨h.limit, ?_⟩
  change p.counters.started + started + (p.inFlight - (started + blocked)) ≤ cap
  omega

lemma Within.serve (h : p.Within cap) (now : Nanos) {what : Request}
    (hanswered : what.answered ≤ p.inFlight) :
    (p.serve now what).1.Within cap ∧
      ((p.serve now what).2.map Prod.snd).sum ≤ cap - (p.counters.started + p.inFlight) := by
  cases what with
  | start =>
    simp only [PhaseRun.serve]
    cases hstart : p.start now with
    | error e => exact ⟨h, Nat.zero_le _⟩
    | ok r =>
      have hwithin := h.start hstart
      exact ⟨hwithin, (start_asks hstart).sum_le hwithin⟩
  | react what =>
    cases what with
    | tick => exact ⟨h.tick now, (p.tick_asks now).sum_le (h.tick now)⟩
    | started started blocked => exact ⟨h.onStarted hanswered, Nat.zero_le _⟩
    | ended shard how =>
      have hwithin := h.onEnded shard how now
      have hle := (p.onEnded_asks shard how now).sum_le hwithin
      rw [(p.counters.consume_ended how).1] at hle
      exact ⟨hwithin, hle⟩
  | finish =>
    simp only [PhaseRun.serve]
    cases hfinish : p.finish now with
    | error e => exact ⟨h, Nat.zero_le _⟩
    | ok q =>
      refine ⟨?_, Nat.zero_le _⟩
      rcases finish_eq_ok hfinish with rfl | ⟨-, rfl⟩
      · exact h
      · exact h.of_eq rfl rfl rfl
  | beginTermination =>
    refine ⟨?_, Nat.zero_le _⟩
    cases hp : p.status with
    | notStarted | running | finished | terminating | terminated =>
      simp only [PhaseRun.serve, PhaseRun.beginTermination, hp]
      exact h.of_eq rfl rfl rfl
  | complete statistics maxUsed => exact ⟨h.of_eq rfl rfl rfl, Nat.zero_le _⟩

lemma Occurs.within {phase : Phase} {shares : List Nat} (hcap : phase.iterationCap = some cap)
    (h : Occurs phase shares p) : p.Within cap := by
  induction h with
  | new => exact ⟨hcap, Nat.zero_le cap⟩
  | serve _ now what hanswered ih => exact (ih.serve now hanswered).1

/-- Whatever the order of the calls and however late the answers, a phase with a limit never has
more sessions started and in flight than that, and asks for no more than what is left. -/
theorem started_add_inFlight_le {phase : Phase} {shares : List Nat}
    (hcap : phase.iterationCap = some cap) (h : Occurs phase shares p) :
    p.counters.started + p.inFlight ≤ cap ∧ p.counters.started ≤ cap ∧
      ∀ now what, what.answered ≤ p.inFlight →
        ((p.serve now what).2.map Prod.snd).sum ≤ cap - (p.counters.started + p.inFlight) := by
  have hwithin := h.within hcap
  have hroom := hwithin.room
  exact ⟨hroom, by omega, fun now what hanswered => (hwithin.serve now hanswered).2⟩

def narrowTold : PhaseRun := narrowStart.onStarted 2 1

lemma narrowTold_occurs : Occurs narrow [2] narrowTold := by
  have hnew : Occurs narrow [2] (new narrow 1) := .new
  have hstarted : Occurs narrow [2] narrowStart := by
    have h := hnew.serve 0 .start (Nat.zero_le _)
    simpa only [PhaseRun.serve, narrow_start] using h
  exact hstarted.serve 0 (.react (.started 2 1)) (by decide)

theorem narrowTold_started_add_inFlight_le :
    narrow.iterationCap = some 3 ∧ Occurs narrow [2] narrowTold ∧
      narrowTold.counters.started + narrowTold.inFlight ≤ 3 ∧ narrowTold.counters.started ≤ 3 ∧
      ∀ now what, what.answered ≤ narrowTold.inFlight →
        ((narrowTold.serve now what).2.map Prod.snd).sum ≤
          3 - (narrowTold.counters.started + narrowTold.inFlight) :=
  ⟨rfl, narrowTold_occurs, started_add_inFlight_le rfl narrowTold_occurs⟩

end PhaseRun

end LoadEngine
