import LoadEngine.Proofs.PhaseCourse

/-! What becomes of a limit on the started sessions. A phase asks for no more sessions than the
limit leaves, and it counts those in flight as started. So it is closed as soon as it has asked for
the last one, and a start that turns out blocked after that is never made up for. -/

namespace LoadEngine

namespace PhaseRun

def Stimulus.answered : Stimulus → Nat
  | .started begun refused => begun + refused
  | _ => 0

def Stimulus.blocked : Stimulus → Nat
  | .started _ refused => refused
  | _ => 0

def Answered (p : PhaseRun) : List (Nanos × Stimulus) → Prop
  | [] => True
  | (now, what) :: rest => what.answered ≤ p.inFlight ∧ (p.react now what).1.Answered rest

/-- The starts that were reported as blocked when the phase no longer started sessions. -/
def lateBlocked (p : PhaseRun) : List (Nanos × Stimulus) → Nat
  | [] => 0
  | (now, what) :: rest =>
    (if p.status = .running then 0 else what.blocked) + (p.react now what).1.lateBlocked rest

/-- The phase stopped starting sessions before its duration was over. A sequential phase without a
duration can only stop early. -/
def ClosedEarly (p : PhaseRun) : Prop :=
  p.status = .finished ∧ ∃ closed, p.endedAt = some closed ∧
    (p.elapsed closed < p.phase.duration ∨
      (∃ iterations, p.phase.strategy = .sequential iterations) ∧ p.phase.duration = 0)

/-- The books of a phase that may start `cap` sessions, of which `late` were blocked too late. -/
structure Capped (p : PhaseRun) (cap late : Nat) : Prop where
  limit : p.phase.iterationCap = some cap
  strategy : ∀ users, p.phase.strategy ≠ .atOnce users
  status : p.status = .running ∨ p.status = .finished
  room : p.status = .running → p.counters.started + p.inFlight ≤ cap ∧ late = 0
  spent : p.ClosedEarly → p.counters.started + p.inFlight + late = cap

lemma iterationsLeft_of_cap {p : PhaseRun} {cap : Nat} (h : p.phase.iterationCap = some cap) :
    p.iterationsLeft = some (cap - (p.counters.started + p.inFlight)) := by
  simp [iterationsLeft, h]

lemma grant_le {p : PhaseRun} {cap : Nat} (hcap : p.phase.iterationCap = some cap)
    (hroom : p.counters.started + p.inFlight ≤ cap) (count : Nat) :
    p.counters.started + (p.inFlight + p.grant count) ≤ cap := by
  rw [grant, iterationsLeft_of_cap hcap]
  dsimp only
  omega

lemma issue_within {p : PhaseRun} {cap : Nat} (hcap : p.phase.iterationCap = some cap)
    (hroom : p.counters.started + p.inFlight ≤ cap) (count : Nat) :
    (p.issue count).1.counters.started + (p.issue count).1.inFlight ≤ cap := by
  simp only [issue]
  split
  · exact hroom
  · exact grant_le hcap hroom count

lemma issueOn_within {p : PhaseRun} {cap : Nat} (hcap : p.phase.iterationCap = some cap)
    (hroom : p.counters.started + p.inFlight ≤ cap) (shard count : Nat) :
    (p.issueOn shard count).1.counters.started + (p.issueOn shard count).1.inFlight ≤ cap := by
  simp only [issueOn]
  split
  · exact hroom
  · exact grant_le hcap hroom count

lemma startOwed_within {p : PhaseRun} {cap : Nat} (hcap : p.phase.iterationCap = some cap)
    (hroom : p.counters.started + p.inFlight ≤ cap) (arrived : Nat) :
    (p.startOwed arrived).1.counters.started + (p.startOwed arrived).1.inFlight ≤ cap := by
  simp only [startOwed]
  split
  · exact hroom
  · refine issue_within ?_ ?_ _
    · exact hcap
    · exact hroom

lemma replace_within {p : PhaseRun} {cap : Nat} (hcap : p.phase.iterationCap = some cap)
    (hroom : p.counters.started + p.inFlight ≤ cap) (shard : Nat) :
    (p.replace shard).1.counters.started + (p.replace shard).1.inFlight ≤ cap := by
  have hmakeUp (q : PhaseRun × Starts)
      (hq : q = if 0 < p.throttled then { p with throttled := p.throttled - 1 }.issueOn shard 1
        else (p, [])) : q.1.counters.started + q.1.inFlight ≤ cap := by
    subst hq
    split
    · refine issueOn_within ?_ ?_ shard 1
      · exact hcap
      · exact hroom
    · exact hroom
  unfold replace
  cases p.phase.strategy with
  | always users => exact issueOn_within hcap hroom shard 1
  | sequential iterations => exact issueOn_within hcap hroom shard 1
  | atOnce users => exact hmakeUp _ rfl
  | constantRate rate catchUp => exact hmakeUp _ rfl
  | rampRate initial target catchUp => exact hmakeUp _ rfl
  | noop => exact hmakeUp _ rfl

lemma exhausted_of_isDone {p : PhaseRun} {now : Nanos}
    (hstrategy : ∀ users, p.phase.strategy ≠ .atOnce users) (hdone : p.isDone now = true)
    (hearly : p.elapsed now < p.phase.duration ∨
      (∃ iterations, p.phase.strategy = .sequential iterations) ∧ p.phase.duration = 0) :
    p.iterationsLeft = some 0 := by
  have hshort (h : p.elapsed now < p.phase.duration) : p.timeIsUp now = false := by
    simpa [timeIsUp] using h
  rcases hearly with h | ⟨⟨iterations, hs⟩, hzero⟩
  · unfold isDone at hdone
    cases hs : p.phase.strategy with
    | atOnce users => exact absurd hs (hstrategy users)
    | always users => simpa [hs, hshort h] using hdone
    | sequential iterations => simpa [hs, hshort h] using hdone
    | constantRate rate catchUp => simpa [hs, hshort h] using hdone
    | rampRate initial target catchUp => simpa [hs, hshort h] using hdone
    | noop => simpa [hs, hshort h] using hdone
  · simpa [isDone, hs, hzero] using hdone

lemma finishIfDone_capped {phase : Phase} {p : PhaseRun} {cap : Nat} (hphase : p.phase = phase)
    (hcap : phase.iterationCap = some cap) (hstrategy : ∀ users, phase.strategy ≠ .atOnce users)
    (hrun : p.status = .running) (hroom : p.counters.started + p.inFlight ≤ cap) (now : Nanos) :
    (p.finishIfDone now).Capped cap 0 := by
  subst hphase
  rcases p.finishIfDone_eq now with he | ⟨-, hdone, he⟩
  · rw [he]
    refine ⟨hcap, hstrategy, .inl hrun, fun _ => ⟨hroom, rfl⟩, fun hclosed => ?_⟩
    exact absurd (hrun.symm.trans hclosed.1) nofun
  · rw [he]
    refine ⟨hcap, hstrategy, .inr rfl, nofun, ?_⟩
    rintro ⟨-, closed, hclosed, hearly⟩
    obtain rfl : now = closed := Option.some.inj hclosed
    have hleft := exhausted_of_isDone hstrategy hdone hearly
    rw [iterationsLeft_of_cap hcap] at hleft
    have hzero := Option.some.inj hleft
    change p.counters.started + p.inFlight + 0 = cap
    omega

lemma start_capped {phase : Phase} {shards : Nat} {begun : Nanos} {cap : Nat} {p : PhaseRun}
    {starts : Starts} (hcap : phase.iterationCap = some cap)
    (hstrategy : ∀ users, phase.strategy ≠ .atOnce users)
    (hstart : (new phase shards).start begun = .ok (p, starts)) : p.Capped cap 0 := by
  simp only [start, new, if_true] at hstart
  injection hstart with hstart
  injection hstart with hp hs
  rw [← hp]
  set q : PhaseRun := { new phase shards with startedAt := some begun, status := .running } with hq
  obtain ⟨n, m, he⟩ := issue_eq q q.initialStarts
  have hwithin := issue_within (p := q) hcap (Nat.zero_le cap) q.initialStarts
  exact finishIfDone_capped (by rw [he]; rfl) hcap hstrategy (by rw [he]) hwithin begun

lemma Capped.react_open {p : PhaseRun} {cap late : Nat} (h : p.Capped cap late)
    (hrun : p.status = .running) (now : Nanos) {what : Stimulus}
    (hanswered : what.answered ≤ p.inFlight) : (p.react now what).1.Capped cap 0 := by
  have hroom := (h.room hrun).1
  cases what with
  | tick =>
    cases hc : p.phase.arrivals with
    | none =>
      have he : p.react now .tick = (p.finishIfDone now, []) := by
        simp only [PhaseRun.react, tick, hrun, if_true, hc]
      rw [he]
      exact finishIfDone_capped rfl h.limit h.strategy hrun hroom now
    | some curve =>
      obtain ⟨n, m, he⟩ := p.startOwed_eq (curve.arrived (p.elapsed now))
      have hwithin := startOwed_within h.limit hroom (curve.arrived (p.elapsed now))
      rw [PhaseRun.react, tick_of_arrivals hrun hc]
      refine finishIfDone_capped ?_ h.limit h.strategy ?_ hwithin now
      · rw [he]
      · rw [he]
        exact hrun
  | started started blocked =>
    refine ⟨h.limit, h.strategy, .inl hrun, fun _ => ⟨?_, rfl⟩, fun hclosed => ?_⟩
    · simp only [PhaseRun.react, onStarted]
      simp only [Stimulus.answered] at hanswered
      omega
    · exact absurd (hrun.symm.trans hclosed.1) (by decide)
  | ended shard how =>
    set q : PhaseRun := { p with counters := p.counters.consume how.event } with hq
    have hstarted : q.counters.started = p.counters.started := (p.counters.consume_ended how).1
    have hwithin := replace_within (p := q) h.limit (by rw [hstarted]; exact hroom) shard
    obtain ⟨n, t, he⟩ := q.replace_eq shard
    have hreact : (p.react now (.ended shard how)).1 = (q.replace shard).1.finishIfDone now := by
      simp only [PhaseRun.react, onEnded, if_pos hrun, hq]
    rw [hreact]
    refine finishIfDone_capped ?_ h.limit h.strategy ?_ hwithin now
    · rw [he]
    · rw [he]
      exact hrun

lemma Capped.react_closed {p : PhaseRun} {cap late : Nat} (h : p.Capped cap late)
    (hnot : p.status ≠ .running) (now : Nanos) {what : Stimulus}
    (hanswered : what.answered ≤ p.inFlight) :
    (p.react now what).1.Capped cap (late + what.blocked) := by
  have hfin := h.status.resolve_left hnot
  cases what with
  | tick =>
    have he : p.react now .tick = (p, []) := by
      simp only [PhaseRun.react, tick, if_neg hnot]
    rw [he]
    exact h
  | started started blocked =>
    refine ⟨h.limit, h.strategy, .inr hfin, fun hrun => absurd hrun hnot, fun hclosed => ?_⟩
    have hspent := h.spent hclosed
    simp only [Stimulus.answered] at hanswered
    simp only [PhaseRun.react, onStarted, Stimulus.blocked]
    omega
  | ended shard how =>
    have he : p.react now (.ended shard how) =
        ({ p with counters := p.counters.consume how.event }, []) := by
      simp only [PhaseRun.react, onEnded, if_neg hnot]
    rw [he]
    refine ⟨h.limit, h.strategy, .inr hfin, fun hrun => absurd hrun hnot, fun hclosed => ?_⟩
    change (p.counters.consume how.event).started + p.inFlight + late = cap
    rw [(p.counters.consume_ended how).1]
    exact h.spent hclosed

lemma Capped.react {p : PhaseRun} {cap late : Nat} (h : p.Capped cap late) (now : Nanos)
    {what : Stimulus} (hanswered : what.answered ≤ p.inFlight) :
    (p.react now what).1.Capped cap
      (late + if p.status = .running then 0 else what.blocked) := by
  by_cases hrun : p.status = .running
  · obtain ⟨-, rfl⟩ := h.room hrun
    rw [if_pos hrun]
    exact h.react_open hrun now hanswered
  · rw [if_neg hrun]
    exact h.react_closed hrun now hanswered

lemma Capped.follow {p : PhaseRun} {cap late : Nat} (h : p.Capped cap late)
    {happened : List (Nanos × Stimulus)} (hanswered : p.Answered happened) :
    (p.follow happened).Capped cap (late + p.lateBlocked happened) := by
  induction happened generalizing p late with
  | nil => exact h
  | cons e rest ih =>
    obtain ⟨now, what⟩ := e
    obtain ⟨hfirst, hrest⟩ := hanswered
    have hnext := ih (h.react now hfirst) hrest
    rw [Nat.add_assoc] at hnext
    exact hnext

/-- What a phase with a limit has started when it closed before its duration was over and all its
sessions have ended: the limit less the starts that turned out blocked after it was closed. -/
theorem started_add_lateBlocked {phase : Phase} {shards : Nat} {begun : Nanos} {cap : Nat}
    {p : PhaseRun} {starts : Starts} {happened : List (Nanos × Stimulus)}
    (hcap : phase.iterationCap = some cap) (hstrategy : ∀ users, phase.strategy ≠ .atOnce users)
    (hstart : (new phase shards).start begun = .ok (p, starts))
    (hanswered : p.Answered happened) (hclosed : (p.follow happened).ClosedEarly)
    (hdrained : (p.follow happened).isDrained = true) :
    (p.follow happened).counters.started + p.lateBlocked happened = cap ∧
      ((p.follow happened).counters.started = cap ↔ p.lateBlocked happened = 0) := by
  have hspent := ((start_capped hcap hstrategy hstart).follow hanswered).spent hclosed
  have hnone : (p.follow happened).inFlight = 0 := by
    simp only [isDrained, Bool.and_eq_true, beq_iff_eq] at hdrained
    exact hdrained.1
  rw [hnone] at hspent
  exact ⟨by omega, by omega⟩

/-- Three users on room for two, three sessions in all. -/
def narrow : Phase :=
  { Phase.simple "narrow"
      ⟨[⟨"s", [.delay (Nanos.ofSeconds 1)]⟩], [0], [], [], 1, (∅ : OrderedMap Nat Nat).insert 0 2⟩
      (.always 3) with
    duration := Nanos.ofSeconds 10
    maxIterations := some 3
    maxSessions := some 2 }

def narrowStart : PhaseRun :=
  { new narrow 1 with
    startedAt := some 0
    endedAt := some 0
    status := .finished
    inFlight := 3 }

lemma narrow_start : (new narrow 1).start 0 = .ok (narrowStart, [(0, 3)]) := rfl

/-- The shard starts two sessions and has no room for the third; both end after their rest. -/
def turnedAway : List (Nanos × Stimulus) :=
  [(0, .started 2 1), (Nanos.ofSeconds 1, .ended 0 .completed),
    (Nanos.ofSeconds 1, .ended 0 .completed)]

lemma turnedAway_answered : narrowStart.Answered turnedAway :=
  ⟨by decide +kernel, by decide +kernel, by decide +kernel, trivial⟩

lemma turnedAway_closedEarly : (narrowStart.follow turnedAway).ClosedEarly := by
  refine ⟨?_, 0, ?_, .inl ?_⟩
  · decide +kernel
  · decide +kernel
  · decide +kernel

lemma turnedAway_drained : (narrowStart.follow turnedAway).isDrained = true := by
  decide +kernel

theorem narrow_started_add_lateBlocked :
    (narrowStart.follow turnedAway).counters.started + narrowStart.lateBlocked turnedAway = 3 ∧
      ((narrowStart.follow turnedAway).counters.started = 3 ↔
        narrowStart.lateBlocked turnedAway = 0) :=
  started_add_lateBlocked (show narrow.iterationCap = some 3 from rfl) nofun narrow_start
    turnedAway_answered turnedAway_closedEarly turnedAway_drained

/-- A start that is blocked for want of room uses up an iteration: the phase closes at its very
start, long before its duration is over, and is drained with two sessions out of three. -/
theorem narrow_closes_short :
    narrow.validate = .ok () ∧ narrow.iterationCap = some 3 ∧
      (new narrow 1).start 0 = .ok (narrowStart, [(0, 3)]) ∧ narrowStart.Answered turnedAway ∧
      (narrowStart.follow turnedAway).ClosedEarly ∧
      (narrowStart.follow turnedAway).isDrained = true ∧
      (narrowStart.follow turnedAway).counters.started = 2 := by
  have hvalid : narrow.fault? = none := by decide +kernel
  refine ⟨?_, rfl, narrow_start, turnedAway_answered, turnedAway_closedEarly,
    turnedAway_drained, ?_⟩
  · rw [Phase.validate, hvalid]
  · decide +kernel

end PhaseRun

end LoadEngine
