import LoadEngine.Benchmark.Validate
import LoadEngine.Phase.Run
import LoadEngine.Proofs.Capacity
import Mathlib.Data.List.Induction
import Mathlib.Order.MinMax

/-! What a phase with arrivals asks for over its course. Every tick takes the count up to the curve
at that instant, and nothing else does; so what the phase asked for altogether is the highest count
that a tick has seen. A session that ends after the last instant of the curve closes the phase
without such a look. -/

namespace LoadEngine

namespace PhaseRun

inductive Stimulus where
  | tick
  | started (started blocked : Nat)
  | ended (shard : Nat) (how : SessionEnd)

def react (p : PhaseRun) (now : Nanos) : Stimulus → PhaseRun × Starts
  | .tick => p.tick now
  | .started started blocked => (p.onStarted started blocked, [])
  | .ended shard how => p.onEnded shard how now

def Stimulus.looksAtClock : Stimulus → Bool
  | .started _ _ => false
  | .tick | .ended _ _ => true

def follow (p : PhaseRun) (happened : List (Nanos × Stimulus)) : PhaseRun :=
  happened.foldl (fun p e => (p.react e.1 e.2).1) p

@[simp] lemma follow_nil (p : PhaseRun) : p.follow [] = p := rfl

lemma follow_snoc (p : PhaseRun) (happened : List (Nanos × Stimulus)) (e : Nanos × Stimulus) :
    p.follow (happened ++ [e]) = ((p.follow happened).react e.1 e.2).1 := by
  simp [follow]

def sights (curve : Arrival.Curve) (begun : Nanos) (happened : List (Nanos × Stimulus)) :
    List Nat :=
  happened.filterMap fun e =>
    match e.2 with
    | .tick => some (curve.arrived (e.1 - begun))
    | _ => none

def highestSight (curve : Arrival.Curve) (begun : Nanos) (happened : List (Nanos × Stimulus)) :
    Nat :=
  (sights curve begun happened).foldl max 0

def requested (p : PhaseRun) : List (Nanos × Stimulus) → Nat
  | [] => 0
  | (now, .tick) :: rest => ((p.tick now).2.map Prod.snd).sum + (p.tick now).1.requested rest
  | (now, what) :: rest => (p.react now what).1.requested rest

end PhaseRun

lemma SessionCounters.consume_ended (c : SessionCounters) (how : SessionEnd) :
    (c.consume how.event).started = c.started ∧ (c.consume how.event).ended = c.ended + 1 := by
  cases how with
  | completed | failed | terminated =>
    refine ⟨rfl, ?_⟩
    simp only [SessionEnd.event, consume, ended]
    omega

lemma SessionCounters.consume_blocked (c : SessionCounters) (how : SessionEnd) :
    (c.consume how.event).blocked = c.blocked := by
  cases how with
  | completed | failed | terminated => rfl

lemma Arrival.Curve.arrived_of_le (c : Curve) {elapsed : Nanos} (h : c.duration ≤ elapsed) :
    c.arrived elapsed = c.arrived c.duration := by
  simp [Curve.arrived, Nat.min_eq_right h]

namespace PhaseRun

lemma issue_eq (p : PhaseRun) (count : Nat) :
    ∃ inFlight cursor, (p.issue count).1 = { p with inFlight, cursor } := by
  simp only [issue]
  split
  · exact ⟨_, _, rfl⟩
  · exact ⟨_, _, rfl⟩

lemma issueOn_eq (p : PhaseRun) (shard count : Nat) :
    ∃ inFlight, (p.issueOn shard count).1 = { p with inFlight } := by
  simp only [issueOn]
  split
  · exact ⟨_, rfl⟩
  · exact ⟨_, rfl⟩

lemma replace_eq (p : PhaseRun) (shard : Nat) :
    ∃ inFlight throttled, (p.replace shard).1 = { p with inFlight, throttled } := by
  have hone (q : PhaseRun) (t : Nat) (hq : q = { p with throttled := t }) :
      ∃ inFlight throttled, (q.issueOn shard 1).1 = { p with inFlight, throttled } := by
    obtain ⟨n, hn⟩ := q.issueOn_eq shard 1
    exact ⟨n, t, by rw [hn, hq]⟩
  have hmakeUp : ∃ inFlight throttled,
      (if 0 < p.throttled then { p with throttled := p.throttled - 1 }.issueOn shard 1
        else (p, [])).1 = { p with inFlight, throttled } := by
    split
    · exact hone _ (p.throttled - 1) rfl
    · exact ⟨_, _, rfl⟩
  unfold replace
  cases p.phase.strategy with
  | always users => exact hone p p.throttled rfl
  | sequential iterations => exact hone p p.throttled rfl
  | atOnce users => exact hmakeUp
  | constantRate rate catchUp => exact hmakeUp
  | rampRate initial target catchUp => exact hmakeUp
  | noop => exact hmakeUp

lemma startOwed_eq (p : PhaseRun) (arrived : Nat) :
    ∃ inFlight cursor, (p.startOwed arrived).1 =
      { p with accounted := max p.accounted arrived, inFlight, cursor } := by
  simp only [startOwed]
  split
  · rename_i h
    exact ⟨p.inFlight, p.cursor, by rw [Nat.max_eq_left (by omega)]⟩
  · rename_i h
    obtain ⟨n, m, hnm⟩ :=
      issue_eq { p with accounted := p.accounted + (arrived - p.accounted) } (arrived - p.accounted)
    refine ⟨n, m, ?_⟩
    rw [hnm, show p.accounted + (arrived - p.accounted) = max p.accounted arrived by omega]

lemma finishIfDone_eq (p : PhaseRun) (now : Nanos) :
    p.finishIfDone now = p ∨ p.status = .running ∧ p.isDone now = true ∧
      p.finishIfDone now = { p with endedAt := some now, status := .finished } := by
  unfold finishIfDone
  split
  · rename_i h
    exact .inr ⟨h.1, h.2, rfl⟩
  · exact .inl rfl

lemma start_eq_ok {p p' : PhaseRun} {now : Nanos} {starts : Starts}
    (h : p.start now = .ok (p', starts)) :
    p.status = .notStarted ∧
      p' = (issue { p with startedAt := some now, status := .running }
        p.initialStarts).1.finishIfDone now ∧
      starts = (issue { p with startedAt := some now, status := .running } p.initialStarts).2 := by
  unfold start at h
  split at h
  · rename_i hp
    injection h with h
    injection h with hp' hstarts
    exact ⟨hp, hp'.symm, hstarts.symm⟩
  · cases h

lemma finish_eq_ok {p p' : PhaseRun} {now : Nanos} (h : p.finish now = .ok p') :
    p' = p ∨ p.status = .running ∧ p' = { p with endedAt := some now, status := .finished } := by
  unfold finish at h
  cases hp : p.status with
  | notStarted =>
    rw [hp] at h
    cases h
  | running =>
    rw [hp] at h
    cases h
    exact .inr ⟨rfl, rfl⟩
  | finished | terminating | terminated =>
    rw [hp] at h
    cases h
    exact .inl rfl

@[simp] lemma finishIfDone_phase (p : PhaseRun) (now : Nanos) :
    (p.finishIfDone now).phase = p.phase := by
  rcases p.finishIfDone_eq now with h | ⟨-, -, h⟩ <;> rw [h]

@[simp] lemma finishIfDone_startedAt (p : PhaseRun) (now : Nanos) :
    (p.finishIfDone now).startedAt = p.startedAt := by
  rcases p.finishIfDone_eq now with h | ⟨-, -, h⟩ <;> rw [h]

@[simp] lemma finishIfDone_accounted (p : PhaseRun) (now : Nanos) :
    (p.finishIfDone now).accounted = p.accounted := by
  rcases p.finishIfDone_eq now with h | ⟨-, -, h⟩ <;> rw [h]

@[simp] lemma finishIfDone_shares (p : PhaseRun) (now : Nanos) :
    (p.finishIfDone now).shares = p.shares := by
  rcases p.finishIfDone_eq now with h | ⟨-, -, h⟩ <;> rw [h]

lemma tick_of_arrivals {p : PhaseRun} {curve : Arrival.Curve} (h : p.status = .running)
    (hc : p.phase.arrivals = some curve) (now : Nanos) :
    p.tick now = (((p.startOwed (curve.arrived (p.elapsed now))).1).finishIfDone now,
      (p.startOwed (curve.arrived (p.elapsed now))).2) := by
  simp only [tick, h, if_true, hc]

lemma onEnded_of_running {p : PhaseRun} (h : p.status = .running) (shard : Nat)
    (how : SessionEnd) (now : Nanos) :
    ∃ inFlight throttled, (p.onEnded shard how now).1 =
      { p with
        counters := p.counters.consume how.event, inFlight, throttled }.finishIfDone now := by
  obtain ⟨n, t, hr⟩ := replace_eq { p with counters := p.counters.consume how.event } shard
  refine ⟨n, t, ?_⟩
  rw [onEnded, if_pos h]
  exact congrArg (finishIfDone · now) hr

lemma react_kept (p : PhaseRun) (now : Nanos) (what : Stimulus) :
    (p.react now what).1.phase = p.phase ∧ (p.react now what).1.startedAt = p.startedAt ∧
      (p.react now what).1.shares = p.shares := by
  cases what with
  | tick =>
    by_cases h : p.status = .running
    · cases hc : p.phase.arrivals with
      | some curve =>
        obtain ⟨n, m, hs⟩ := p.startOwed_eq (curve.arrived (p.elapsed now))
        simp [react, tick_of_arrivals h hc, hs]
      | none => simp [react, tick, h, hc]
    · simp [react, tick, h]
  | started started blocked => simp [react, onStarted]
  | ended shard how =>
    by_cases h : p.status = .running
    · obtain ⟨n, t, hr⟩ := onEnded_of_running h shard how now
      simp [react, hr]
    · simp [react, onEnded, h]

lemma react_eq_finishIfDone {p : PhaseRun} {what : Stimulus} (hrunning : p.status = .running)
    (hlooks : what.looksAtClock = true) (now : Nanos) :
    ∃ q : PhaseRun, (p.react now what).1 = q.finishIfDone now ∧ q.status = .running ∧
      q.phase = p.phase ∧ q.startedAt = p.startedAt := by
  cases what with
  | tick =>
    cases hc : p.phase.arrivals with
    | none =>
      refine ⟨p, ?_, hrunning, rfl, rfl⟩
      simp only [react, tick, hrunning, if_true, hc]
    | some curve =>
      obtain ⟨n, m, hs⟩ := p.startOwed_eq (curve.arrived (p.elapsed now))
      refine ⟨_, congrArg Prod.fst (tick_of_arrivals hrunning hc now), ?_⟩
      rw [hs]
      exact ⟨hrunning, rfl, rfl⟩
  | started => cases hlooks
  | ended shard how =>
    obtain ⟨n, t, hr⟩ := onEnded_of_running hrunning shard how now
    exact ⟨_, hr, hrunning, rfl, rfl⟩

lemma follow_kept (p : PhaseRun) (happened : List (Nanos × Stimulus)) :
    (p.follow happened).phase = p.phase ∧ (p.follow happened).startedAt = p.startedAt ∧
      (p.follow happened).shares = p.shares := by
  induction happened using List.reverseRecOn with
  | nil => exact ⟨rfl, rfl, rfl⟩
  | append_singleton rest e ih =>
    obtain ⟨hphase, hstarted, hshares⟩ := (p.follow rest).react_kept e.1 e.2
    rw [follow_snoc]
    exact ⟨hphase.trans ih.1, hstarted.trans ih.2.1, hshares.trans ih.2.2⟩

lemma follow_phase (p : PhaseRun) (happened : List (Nanos × Stimulus)) :
    (p.follow happened).phase = p.phase := (p.follow_kept happened).1

lemma react_accounted {p : PhaseRun} {curve : Arrival.Curve} (h : p.status = .running)
    (hc : p.phase.arrivals = some curve) (now : Nanos) (what : Stimulus) :
    (p.react now what).1.accounted = match what with
      | .tick => max p.accounted (curve.arrived (p.elapsed now))
      | _ => p.accounted := by
  cases what with
  | tick =>
    obtain ⟨n, m, hs⟩ := p.startOwed_eq (curve.arrived (p.elapsed now))
    simp [react, tick_of_arrivals h hc, hs]
  | started started blocked => simp [react, onStarted]
  | ended shard how =>
    obtain ⟨n, t, hr⟩ := onEnded_of_running h shard how now
    simp [react, hr]

lemma react_of_not_running {p : PhaseRun} (h : p.status ≠ .running) (now : Nanos)
    (what : Stimulus) : (p.react now what).1.accounted = p.accounted := by
  cases what with
  | tick => simp [react, tick, h]
  | started started blocked => rfl
  | ended shard how => simp [react, onEnded, h]

lemma react_running {p : PhaseRun} {now : Nanos} {what : Stimulus}
    (h : (p.react now what).1.status = .running) : p.status = .running := by
  by_contra hp
  apply hp
  cases what with
  | tick => simpa only [react, tick, if_neg hp] using h
  | started started blocked => simpa only [react, onStarted] using h
  | ended shard how => simpa only [react, onEnded, if_neg hp] using h

lemma iterationsLeft_of_arrivals {p : PhaseRun} {curve : Arrival.Curve}
    (hc : p.phase.arrivals = some curve) (hcap : p.phase.maxIterations = none) :
    p.iterationsLeft = none := by
  obtain ⟨r, hr, -⟩ := Option.map_eq_some_iff.mp hc
  cases hs : p.phase.strategy <;>
    simp_all [iterationsLeft, Phase.iterationCap, Strategy.iterations?, Strategy.rates]

lemma isDone_of_arrivals {p : PhaseRun} {curve : Arrival.Curve} {now : Nanos}
    (hc : p.phase.arrivals = some curve) (hcap : p.phase.maxIterations = none) :
    p.isDone now = decide (p.phase.duration ≤ p.elapsed now) := by
  have hleft := iterationsLeft_of_arrivals hc hcap
  have hrates : p.phase.strategy.rates ≠ none := by
    intro hr
    simp [Phase.arrivals, hr] at hc
  cases hs : p.phase.strategy <;>
    simp_all [isDone, timeIsUp, Strategy.rates]

lemma elapsed_of_react_finished {p : PhaseRun} {curve : Arrival.Curve} {now : Nanos}
    {what : Stimulus} (hc : p.phase.arrivals = some curve)
    (hcap : p.phase.maxIterations = none) (h : p.status = .running)
    (hf : (p.react now what).1.status = .finished) : p.phase.duration ≤ p.elapsed now := by
  by_cases hlooks : what.looksAtClock = true
  · obtain ⟨q, hq, hr, hphase, hs⟩ := react_eq_finishIfDone h hlooks now
    rw [hq] at hf
    rcases q.finishIfDone_eq now with he | ⟨-, hd, -⟩
    · rw [he, hr] at hf
      cases hf
    · rw [isDone_of_arrivals (hphase ▸ hc) (hphase ▸ hcap)] at hd
      simpa [elapsed, hphase, hs] using hd
  · cases what with
    | tick | ended => exact absurd rfl hlooks
    | started started blocked =>
      rw [react, onStarted, h] at hf
      cases hf

lemma highestSight_snoc (curve : Arrival.Curve) (begun : Nanos)
    (happened : List (Nanos × Stimulus)) (e : Nanos × Stimulus) :
    highestSight curve begun (happened ++ [e]) = match e.2 with
      | .tick => max (highestSight curve begun happened) (curve.arrived (e.1 - begun))
      | _ => highestSight curve begun happened := by
  obtain ⟨now, what⟩ := e
  cases what <;> simp [highestSight, sights]

lemma le_highestSight_iff (curve : Arrival.Curve) (begun : Nanos)
    (happened : List (Nanos × Stimulus)) (n : Nat) :
    n ≤ highestSight curve begun happened ↔
      n = 0 ∨ ∃ now, (now, .tick) ∈ happened ∧ n ≤ curve.arrived (now - begun) := by
  induction happened using List.reverseRecOn with
  | nil => simp [highestSight, sights]
  | append_singleton rest e ih =>
    obtain ⟨now, what⟩ := e
    cases what with
    | tick =>
      rw [highestSight_snoc, le_max_iff, ih]
      constructor
      · rintro ((h | ⟨t, ht, hn⟩) | h)
        · exact .inl h
        · exact .inr ⟨t, List.mem_append_left _ ht, hn⟩
        · exact .inr ⟨now, by simp, h⟩
      · rintro (h | ⟨t, ht, hn⟩)
        · exact .inl (.inl h)
        · rcases List.mem_append.mp ht with ht | ht
          · exact .inl (.inr ⟨t, ht, hn⟩)
          · obtain rfl : t = now := by simpa using ht
            exact .inr hn
    | started started blocked => simpa [highestSight_snoc] using ih
    | ended shard how => simpa [highestSight_snoc] using ih

lemma accounted_follow {phase : Phase} {shards : Nat} {begun : Nanos} {curve : Arrival.Curve}
    {p : PhaseRun} {starts : Starts} (hc : phase.arrivals = some curve)
    (hstart : (new phase shards).start begun = .ok (p, starts))
    (happened : List (Nanos × Stimulus)) (hrun : (p.follow happened).status = .running) :
    (p.follow happened).phase = phase ∧ (p.follow happened).startedAt = some begun ∧
      (p.follow happened).shares = splitCapacity phase.sessionCapacity shards ∧
      (p.follow happened).accounted = highestSight curve begun happened := by
  induction happened using List.reverseRecOn with
  | nil =>
    simp only [start, new, if_true] at hstart
    injection hstart with hstart
    injection hstart with hp hs
    obtain ⟨n, m, hi⟩ := issue_eq { new phase shards with
      startedAt := some begun, status := .running } (initialStarts (new phase shards))
    have hp' : finishIfDone { new phase shards with
        startedAt := some begun, status := .running, inFlight := n, cursor := m } begun = p :=
      (congrArg (finishIfDone · begun) hi).symm.trans hp
    simp [← hp', new, highestSight, sights]
  | append_singleton rest e ih =>
    rw [follow_snoc] at hrun ⊢
    obtain ⟨hphase, hbegun, hshares, hacc⟩ := ih (react_running hrun)
    obtain ⟨h1, h2, h3⟩ := react_kept (p.follow rest) e.1 e.2
    refine ⟨h1.trans hphase, h2.trans hbegun, h3.trans hshares, ?_⟩
    rw [react_accounted (react_running hrun) (hphase.symm ▸ hc), highestSight_snoc, hacc]
    simp only [elapsed, hbegun]

/-- What a phase with arrivals has asked for when the end of its duration closes it. It is the whole
curve just when a tick closed the phase, or one before had seen the whole curve. -/
theorem finish_reaches_curve_iff {phase : Phase} {shards : Nat} {begun now : Nanos}
    {curve : Arrival.Curve} {p : PhaseRun} {starts : Starts}
    {happened : List (Nanos × Stimulus)} {last : Stimulus}
    (hc : phase.arrivals = some curve) (hcap : phase.maxIterations = none)
    (hstart : (new phase shards).start begun = .ok (p, starts))
    (hrun : (p.follow happened).status = .running)
    (hfin : (p.follow (happened ++ [(now, last)])).status = .finished) :
    (p.follow (happened ++ [(now, last)])).accounted =
        highestSight curve begun (happened ++ [(now, last)]) ∧
      (curve.arrived curve.duration ≤ (p.follow (happened ++ [(now, last)])).accounted ↔
        last = .tick ∨ curve.arrived curve.duration = 0 ∨
          ∃ seen, (seen, .tick) ∈ happened ∧
            curve.arrived curve.duration ≤ curve.arrived (seen - begun)) := by
  obtain ⟨hphase, hbegun, -, hacc⟩ := accounted_follow hc hstart happened hrun
  have hc' : (p.follow happened).phase.arrivals = some curve := hphase.symm ▸ hc
  rw [follow_snoc] at hfin ⊢
  have helapsed := elapsed_of_react_finished hc' (hphase.symm ▸ hcap) hrun hfin
  have hdur : phase.duration = curve.duration := by
    obtain ⟨r, -, hr⟩ := Option.map_eq_some_iff.mp hc
    rw [← hr]
  simp only [elapsed, hbegun, hphase, hdur] at helapsed
  have hsight : ((p.follow happened).react now last).1.accounted =
      highestSight curve begun (happened ++ [(now, last)]) := by
    rw [react_accounted hrun hc', highestSight_snoc, hacc]
    simp only [elapsed, hbegun]
  -- The end of the curve was reached just when some tick saw it, the last look or an earlier one.
  refine ⟨hsight, ?_⟩
  rw [hsight, le_highestSight_iff]
  constructor
  · rintro (h | ⟨t, ht, hle⟩)
    · exact .inr (.inl h)
    · rcases List.mem_append.mp ht with ht | ht
      · exact .inr (.inr ⟨t, ht, hle⟩)
      · have he : (t, Stimulus.tick) = (now, last) := by simpa using ht
        exact .inl (congrArg Prod.snd he).symm
  · rintro (h | h | ⟨t, ht, hle⟩)
    · subst h
      refine .inr ⟨now, by simp, ?_⟩
      rw [curve.arrived_of_le helapsed]
    · exact .inl h
    · exact .inr ⟨t, List.mem_append_left _ ht, hle⟩

/-- Ten sessions in one second, each with a rest of half a second. -/
def steady : Phase :=
  { Phase.simple "steady"
      ⟨[⟨"s", [.delay (Nanos.ofMillis 500)]⟩], [0], [], [], 1, (∅ : OrderedMap Nat Nat).insert 0 2⟩
      (.constantRate 10 false) with
    duration := Nanos.ofSeconds 1
    maxSessions := some 10 }

def steadyStart : PhaseRun :=
  { new steady 1 with startedAt := some 0, status := .running }

/-- One tick halfway, whose five starts a shard has answered. -/
def halfway : List (Nanos × Stimulus) :=
  [(Nanos.ofMillis 500, .tick), (Nanos.ofMillis 500, .started 5 0)]

lemma steady_start : (new steady 1).start 0 = .ok (steadyStart, []) := rfl

lemma steady_arrivals : steady.arrivals = some ⟨Nanos.ofSeconds 1, 10, 10⟩ := rfl

theorem steady_finish_reaches_curve_iff :
    (steadyStart.follow (halfway ++ [(Nanos.ofSeconds 1, .tick)])).accounted = 10 ∧
      (steadyStart.follow (halfway ++ [(Nanos.ofSeconds 1, .tick)])).status = .finished ∧
      (10 ≤ (steadyStart.follow (halfway ++ [(Nanos.ofSeconds 1, .tick)])).accounted ↔
        Stimulus.tick = .tick ∨ 10 = 0 ∨ ∃ seen, (seen, .tick) ∈ halfway ∧
          10 ≤ Arrival.Curve.arrived ⟨Nanos.ofSeconds 1, 10, 10⟩ (seen - 0)) := by
  have hten : Arrival.Curve.arrived ⟨Nanos.ofSeconds 1, 10, 10⟩ (Nanos.ofSeconds 1) = 10 := by
    decide +kernel
  have hrun : (steadyStart.follow halfway).status = .running := by decide +kernel
  have hfin : (steadyStart.follow (halfway ++ [(Nanos.ofSeconds 1, .tick)])).status =
      .finished := by decide +kernel
  have hclose := finish_reaches_curve_iff steady_arrivals rfl steady_start hrun hfin
  rw [hten] at hclose
  exact ⟨by decide +kernel, hfin, hclose.2⟩

/-- A session that ends at the last instant closes a valid phase with half of its arrivals, though
the instants are in order and there is no limit on the starts. -/
theorem ended_closes_steady_short :
    steady.validate = .ok () ∧ steady.maxIterations = none ∧
      steady.arrivals = some ⟨Nanos.ofSeconds 1, 10, 10⟩ ∧
      (new steady 1).start 0 = .ok (steadyStart, []) ∧
      (steadyStart.follow halfway).status = .running ∧
      (steadyStart.follow (halfway ++ [(Nanos.ofSeconds 1, .ended 0 .completed)])).status =
        .finished ∧
      (steadyStart.follow (halfway ++ [(Nanos.ofSeconds 1, .ended 0 .completed)])).accounted = 5 ∧
      Arrival.Curve.arrived ⟨Nanos.ofSeconds 1, 10, 10⟩ (Nanos.ofSeconds 1) = 10 := by
  have hvalid : steady.fault? = none := by decide +kernel
  refine ⟨?_, rfl, steady_arrivals, steady_start, ?_, ?_, ?_, ?_⟩
  · rw [Phase.validate, hvalid]
  · decide +kernel
  · decide +kernel
  · decide +kernel
  · decide +kernel

lemma requested_tick (p : PhaseRun) (now : Nanos) (rest : List (Nanos × Stimulus)) :
    p.requested ((now, .tick) :: rest) =
      ((p.tick now).2.map Prod.snd).sum + (p.tick now).1.requested rest := rfl

lemma takers_eq {p q : PhaseRun} (h : p.shares = q.shares) : q.takers = p.takers := by
  unfold takers shareOf
  rw [h]

lemma takers_of_split {capacity shards : Nat} {p : PhaseRun}
    (h : p.shares = splitCapacity capacity shards) :
    p.takers = List.range (min capacity shards) := by
  have hlength : p.shares.length = shards := by rw [h, splitCapacity, List.length_map,
    List.length_range]
  have hfilter : p.takers = (List.range shards).filter fun i => i < capacity := by
    rw [takers, hlength]
    refine List.filter_congr fun i hi => ?_
    have hlt := List.mem_range.mp hi
    have hshare : p.shareOf i = share capacity shards i := by
      rw [shareOf, h]
      simp [splitCapacity, hlt]
    rw [hshare]
    exact decide_eq_decide.mpr (share_pos_iff hlt)
  rw [hfilter]
  clear h hlength hfilter
  induction shards with
  | zero => simp
  | succ shards ih =>
    rw [List.range_succ, List.filter_append, ih]
    rcases Nat.lt_or_ge shards capacity with hlt | hge
    · rw [Nat.min_eq_right hlt.le, Nat.min_eq_right hlt]
      simp [hlt, List.range_succ]
    · rw [Nat.min_eq_left hge, Nat.min_eq_left (hge.trans (Nat.le_succ _))]
      simp [Nat.not_lt.mpr hge]

lemma issue_unlimited {p : PhaseRun} (hleft : p.iterationsLeft = none) (htakers : p.takers ≠ [])
    (count : Nat) :
    ∃ cursor, (p.issue count).1 = { p with inFlight := p.inFlight + count, cursor } ∧
      ((p.issue count).2.map Prod.snd).sum = count := by
  have hgrant : p.grant count = count := by simp [grant, hleft]
  simp only [issue, hgrant]
  split
  · rename_i h
    obtain rfl := h.resolve_right htakers
    exact ⟨p.cursor, rfl, rfl⟩
  · exact ⟨_, rfl, sum_dealOut p.takers _ count htakers⟩

lemma startOwed_unlimited {p : PhaseRun} (hleft : p.iterationsLeft = none)
    (htakers : p.takers ≠ []) (arrived : Nat) :
    ∃ cursor, (p.startOwed arrived).1 =
        { p with
          accounted := max p.accounted arrived
          inFlight := p.inFlight + (arrived - p.accounted)
          cursor } ∧
      ((p.startOwed arrived).2.map Prod.snd).sum = arrived - p.accounted := by
  have hmax : p.accounted + (arrived - p.accounted) = max p.accounted arrived := by omega
  simp only [startOwed]
  split
  · rename_i h
    rw [h, Nat.add_zero] at hmax
    exact ⟨p.cursor, by rw [h, ← hmax]; rfl, by rw [h]; rfl⟩
  · obtain ⟨cursor, hp, hsum⟩ := issue_unlimited
      (p := { p with accounted := p.accounted + (arrived - p.accounted) }) hleft htakers
      (arrived - p.accounted)
    exact ⟨cursor, by rw [hp, ← hmax], hsum⟩

lemma startOwed_sum {p : PhaseRun} (hleft : p.iterationsLeft = none) (htakers : p.takers ≠ [])
    (arrived : Nat) :
    p.accounted + ((p.startOwed arrived).2.map Prod.snd).sum =
      (p.startOwed arrived).1.accounted := by
  obtain ⟨cursor, hp, hsum⟩ := startOwed_unlimited hleft htakers arrived
  rw [hp, hsum]
  dsimp only
  omega

theorem accounted_add_requested {p : PhaseRun} {curve : Arrival.Curve}
    (hc : p.phase.arrivals = some curve) (hcap : p.phase.maxIterations = none)
    (htakers : p.takers ≠ []) (happened : List (Nanos × Stimulus)) :
    p.accounted + p.requested happened = (p.follow happened).accounted := by
  induction happened generalizing p with
  | nil => rfl
  | cons e rest ih =>
    obtain ⟨now, what⟩ := e
    obtain ⟨hphase, -, hshares⟩ := p.react_kept now what
    have hrest := ih (p := (p.react now what).1) (hphase.symm ▸ hc) (hphase.symm ▸ hcap)
      (takers_eq hshares ▸ htakers)
    have hfollow : p.follow ((now, what) :: rest) = (p.react now what).1.follow rest := rfl
    rw [hfollow, ← hrest]
    have hsame (hne : what ≠ .tick) : (p.react now what).1.accounted = p.accounted := by
      by_cases h : p.status = .running
      · rw [react_accounted h hc]
        cases what <;> simp_all
      · exact react_of_not_running h now what
    cases what with
    | tick =>
      rw [requested_tick, ← Nat.add_assoc]
      refine congrArg (· + (p.tick now).1.requested rest) ?_
      by_cases h : p.status = .running
      · simp only [react, tick_of_arrivals h hc, finishIfDone_accounted]
        exact startOwed_sum (iterationsLeft_of_arrivals hc hcap) htakers _
      · simp [react, tick, h]
    | started started blocked => rw [hsame (by simp)]; rfl
    | ended shard how => rw [hsame (by simp)]; rfl

end PhaseRun

end LoadEngine
