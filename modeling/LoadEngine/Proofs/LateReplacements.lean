import LoadEngine.Proofs.OwedStarts
import LoadEngine.Proofs.PhaseOrder

/-! When a phase no longer starts sessions in the place of those that end. It looks at the clock
when it is told to and when a session ends, and the first look after its duration closes it. But an
end is answered before the look. So where it is an end that comes first after the duration, it is
answered with a start like any before, and it is the last one that is. -/

namespace LoadEngine

lemma Phase.duration_ne_zero {phase : Phase} (h : phase.validate = .ok ())
    (hneeds : phase.strategy.needsDuration = true) : phase.duration ≠ 0 := by
  intro hzero
  have hlimit := (Phase.faults_of_validate h).2
  unfold Phase.limitFault? at hlimit
  rw [if_pos ⟨hneeds, hzero⟩] at hlimit
  cases hlimit

structure Phase.ReplacesForATime (phase : Phase) : Prop where
  kind : phase.strategy.restarts = true ∨ phase.strategy.catchUp = true
  timed : phase.duration ≠ 0

lemma Phase.replacesForATime {phase : Phase} (hvalid : phase.validate = .ok ())
    (hkind : phase.strategy.restarts = true ∨ phase.strategy.catchUp = true)
    (hcounted : ∀ iterations, phase.strategy = .sequential iterations → phase.duration ≠ 0) :
    phase.ReplacesForATime := by
  refine ⟨hkind, ?_⟩
  cases hs : phase.strategy with
  | sequential iterations => exact hcounted iterations hs
  | always | constantRate | rampRate =>
    apply Phase.duration_ne_zero hvalid
    rw [hs]
    rfl
  | atOnce | noop =>
    rw [hs] at hkind
    rcases hkind with h | h <;> cases h

namespace PhaseRun

variable {p : PhaseRun} {now : Nanos} {what : Stimulus} {shard : Nat}

/-- Whenever the phase looked at the clock it had starts left. -/
def HadStartsLeft (p : PhaseRun) : List (Nanos × Stimulus) → Prop
  | [] => True
  | (now, what) :: rest =>
    (what.looksAtClock = true → (p.react now what).1.iterationsLeft ≠ some 0) ∧
      (p.react now what).1.HadStartsLeft rest

lemma isDone_iff (h : p.phase.ReplacesForATime) (now : Nanos) :
    p.isDone now = true ↔ p.iterationsLeft = some 0 ∨ p.phase.duration ≤ p.elapsed now := by
  have hkind := h.kind
  unfold isDone
  cases hs : p.phase.strategy with
  | always | constantRate | rampRate => simp [timeIsUp]
  | sequential => simp [timeIsUp, h.timed]
  | atOnce | noop =>
    rw [hs] at hkind
    rcases hkind with h | h <;> cases h

lemma finishIfDone_running_iff (h : p.phase.ReplacesForATime) (hrunning : p.status = .running)
    (now : Nanos) : (p.finishIfDone now).status = .running ↔
      p.elapsed now < p.phase.duration ∧ p.iterationsLeft ≠ some 0 := by
  have hdone := isDone_iff h now
  unfold finishIfDone
  split
  · rename_i hcloses
    have hover := hdone.mp hcloses.2
    refine ⟨nofun, fun ⟨hearly, hleft⟩ => ?_⟩
    exact absurd hover (not_or.mpr ⟨hleft, Nat.not_le.mpr hearly⟩)
  · rename_i hstays
    obtain ⟨hleft, hearly⟩ := not_or.mp fun hover => hstays ⟨hrunning, hdone.mpr hover⟩
    exact ⟨fun _ => ⟨Nat.not_le.mp hearly, hleft⟩, fun _ => hrunning⟩

lemma finishIfDone_iterationsLeft (p : PhaseRun) (now : Nanos) :
    (p.finishIfDone now).iterationsLeft = p.iterationsLeft := by
  unfold iterationsLeft
  rw [finishIfDone_phase, finishIfDone_counters, finishIfDone_inFlight]

lemma react_running_iff (h : p.phase.ReplacesForATime) (now : Nanos) (what : Stimulus) :
    (p.react now what).1.status = .running ↔ p.status = .running ∧
      (what.looksAtClock = true → p.elapsed now < p.phase.duration ∧
        (p.react now what).1.iterationsLeft ≠ some 0) := by
  by_cases hrunning : p.status = .running
  · rw [and_iff_right hrunning]
    by_cases hlooks : what.looksAtClock = true
    · obtain ⟨q, hq, hstatus, hphase, hstarted⟩ := react_eq_finishIfDone hrunning hlooks now
      have hrunning' := finishIfDone_running_iff (p := q) (hphase ▸ h) hstatus now
      rw [hq, finishIfDone_iterationsLeft, forall_prop_of_true hlooks, hrunning', hphase, elapsed,
        elapsed, hstarted]
    · cases what with
      | tick | ended => exact absurd rfl hlooks
      | started => exact ⟨fun _ hl => absurd hl hlooks, fun _ => hrunning⟩
  · exact ⟨fun h => absurd (react_running h) hrunning, fun h => absurd h.1 hrunning⟩

lemma follow_running_iff {begun : Nanos} (h : p.phase.ReplacesForATime)
    (hbegun : p.startedAt = some begun) (happened : List (Nanos × Stimulus)) :
    (p.follow happened).status = .running ↔ p.status = .running ∧
      (∀ e ∈ happened, e.2.looksAtClock = true → e.1 - begun < p.phase.duration) ∧
        p.HadStartsLeft happened := by
  induction happened generalizing p with
  | nil => simp [HadStartsLeft]
  | cons e rest ih =>
    obtain ⟨now, what⟩ := e
    obtain ⟨hphase, hstarted, -⟩ := p.react_kept now what
    have hrest := ih (p := (p.react now what).1) (hphase ▸ h) (hstarted.trans hbegun)
    have hfirst := react_running_iff h now what
    have helapsed : p.elapsed now = now - begun := by simp only [elapsed, hbegun]
    rw [helapsed] at hfirst
    change ((p.react now what).1.follow rest).status = .running ↔ _
    rw [hrest, hfirst, hphase, List.forall_mem_cons, HadStartsLeft]
    tauto

lemma start_running_iff {phase : Phase} {shards : Nat} {begun : Nanos} {starts : Starts}
    (h : phase.ReplacesForATime) (hstart : (new phase shards).start begun = .ok (p, starts)) :
    p.status = .running ↔ p.iterationsLeft ≠ some 0 := by
  obtain ⟨-, rfl, -⟩ := start_eq_ok hstart
  obtain ⟨n, m, hi⟩ := issue_eq
    { new phase shards with startedAt := some begun, status := .running }
    (new phase shards).initialStarts
  have hearly : begun - begun < phase.duration := by
    rw [Nat.sub_self]
    exact Nat.pos_of_ne_zero h.timed
  rw [hi, finishIfDone_iterationsLeft]
  exact (finishIfDone_running_iff h rfl begun).trans (and_iff_right hearly)

lemma follow_not_running (h : p.status ≠ .running) (happened : List (Nanos × Stimulus)) :
    (p.follow happened).status ≠ .running := by
  induction happened using List.reverseRecOn with
  | nil => exact h
  | append_singleton rest e ih =>
    rw [follow_snoc]
    exact fun hrunning => ih (react_running hrunning)

lemma issueOn_one_iff : (p.issueOn shard 1).2 = [(shard, 1)] ↔
    p.iterationsLeft ≠ some 0 ∧ 0 < p.shareOf shard := by
  constructor
  · intro hone
    simp only [issueOn] at hone
    split at hone
    · cases hone
    · rename_i hsome
      obtain ⟨hgrant, hroom⟩ := not_or.mp hsome
      refine ⟨fun hleft => hgrant ?_, Nat.pos_of_ne_zero hroom⟩
      simp only [grant, hleft, Nat.min_zero]
  · rintro ⟨hleft, hroom⟩
    rw [issueOn_of_left hleft hroom]

lemma replace_of_not_owing (h : ¬ p.IsOwing) (shard : Nat) : p.replace shard = (p, []) := by
  obtain ⟨hrestarts, hnone⟩ := not_or.mp h
  unfold replace
  cases hs : p.phase.strategy with
  | always | sequential =>
    rw [hs] at hrestarts
    exact absurd rfl hrestarts
  | atOnce | constantRate | rampRate | noop => exact if_neg hnone

lemma replace_starts_iff (p : PhaseRun) (shard : Nat) : (p.replace shard).2 = [(shard, 1)] ↔
    p.IsOwing ∧ p.iterationsLeft ≠ some 0 ∧ 0 < p.shareOf shard := by
  by_cases howing : p.IsOwing
  · rw [and_iff_right howing]
    constructor
    · intro hone
      unfold replace at hone
      split at hone
      · exact issueOn_one_iff.mp hone
      · exact issueOn_one_iff.mp hone
      · split at hone
        · exact issueOn_one_iff (p := { p with throttled := p.throttled - 1 }).mp hone
        · cases hone
    · rintro ⟨hleft, hroom⟩
      obtain ⟨throttled, hreplaced⟩ := replace_of_owing howing hleft hroom
      rw [hreplaced]
  · rw [replace_of_not_owing howing]
    exact iff_of_false (List.cons_ne_nil _ _).symm fun h => howing h.1

lemma onEnded_of_closed (h : p.status ≠ .running) (shard : Nat) (how : SessionEnd) (now : Nanos) :
    (p.onEnded shard how now).2 = [] := by
  rw [onEnded]
  exact congrArg Prod.snd (if_neg h)

lemma onEnded_starts_iff (how : SessionEnd) (now : Nanos) :
    (p.onEnded shard how now).2 = [(shard, 1)] ↔
      p.status = .running ∧ p.IsOwing ∧ p.iterationsLeft ≠ some 0 ∧ 0 < p.shareOf shard := by
  have hleft : iterationsLeft { p with counters := p.counters.consume how.event } =
      p.iterationsLeft := by
    simp only [iterationsLeft, (p.counters.consume_ended how).1]
  have hreplaced := replace_starts_iff { p with counters := p.counters.consume how.event } shard
  rw [hleft] at hreplaced
  by_cases hrunning : p.status = .running
  · have hissues : (p.onEnded shard how now).2 =
        (replace { p with counters := p.counters.consume how.event } shard).2 := by
      simp only [onEnded, if_pos hrunning]
    rw [hissues, and_iff_right hrunning]
    exact hreplaced
  · rw [onEnded_of_closed hrunning]
    exact iff_of_false (List.cons_ne_nil _ _).symm fun h => hrunning h.1

lemma onEnded_not_running (h : p.phase.ReplacesForATime) (hlate : p.phase.duration ≤ p.elapsed now)
    (shard : Nat) (how : SessionEnd) : (p.onEnded shard how now).1.status ≠ .running := by
  intro hrunning
  obtain ⟨-, hlooked⟩ := (react_running_iff h now (.ended shard how)).mp hrunning
  exact absurd (hlooked rfl).1 (Nat.not_lt.mpr hlate)

/-- A session that ends when the duration is over is answered with a start just when nothing has
looked at the clock since then, be it a tick or another end, and a start would have been the answer
before. It is the only one: from then on no end is answered with a start. -/
theorem late_end_starts_iff {phase : Phase} {shards : Nat} {begun : Nanos} {p : PhaseRun}
    {starts : Starts} (hvalid : phase.validate = .ok ())
    (hkind : phase.strategy.restarts = true ∨ phase.strategy.catchUp = true)
    (hcounted : ∀ iterations, phase.strategy = .sequential iterations → phase.duration ≠ 0)
    (hstart : (new phase shards).start begun = .ok (p, starts))
    (happened : List (Nanos × Stimulus)) {now : Nanos} (hlate : phase.duration ≤ now - begun)
    (shard : Nat) (how : SessionEnd) :
    let q := p.follow happened
    let reply := q.onEnded shard how now
    (reply.2 = [] ∨ reply.2 = [(shard, 1)]) ∧
      (reply.2 = [(shard, 1)] ↔
        (∀ e ∈ happened, e.2.looksAtClock = true → e.1 - begun < phase.duration) ∧
          (p.iterationsLeft ≠ some 0 ∧ p.HadStartsLeft happened ∧ q.iterationsLeft ≠ some 0) ∧
            q.IsOwing ∧ 0 < q.shareOf shard) ∧
      ∀ later shard' how' now', ((reply.1.follow later).onEnded shard' how' now').2 = [] := by
  intro q reply
  have htimed := Phase.replacesForATime hvalid hkind hcounted
  have hbegins := start_running_iff htimed hstart
  obtain ⟨-, -, hbegun, rfl⟩ : _ ∧ _ ∧ p.startedAt = some begun ∧ p.phase = phase :=
    start_status hstart
  -- The phase still runs just when no look at the clock before came late.
  have hruns := follow_running_iff htimed hbegun happened
  obtain ⟨hphase, hbegun', -⟩ := p.follow_kept happened
  have hlate' : q.phase.duration ≤ q.elapsed now := by
    rw [hphase, elapsed, hbegun', hbegun]
    exact hlate
  refine ⟨q.onEnded_starts shard how now, ?_, fun later shard' how' now' => ?_⟩
  · rw [onEnded_starts_iff, hruns, hbegins]
    tauto
  · have hclosed := onEnded_not_running (hphase ▸ htimed) hlate' shard how
    exact onEnded_of_closed (follow_not_running hclosed later) shard' how' now'

/-- Two users for one second, each with a longer rest. -/
def held : Phase :=
  { Phase.simple "held"
      ⟨[⟨"s", [.delay (Nanos.ofMillis 1500)]⟩], [0], [], [], 1, (∅ : OrderedMap Nat Nat).insert 0 2⟩
      (.always 2) with
    duration := Nanos.ofSeconds 1 }

def heldStart : PhaseRun :=
  { new held 1 with startedAt := some 0, status := .running, inFlight := 2 }

lemma held_start : (new held 1).start 0 = .ok (heldStart, [(0, 2)]) := rfl

lemma held_validate : held.validate = .ok () := by
  have hfault : held.fault? = none := by decide +kernel
  rw [Phase.validate, hfault]

def replacedOnce : List (Nanos × Stimulus) :=
  [(0, .started 2 0), (Nanos.ofMillis 400, .ended 0 .completed),
    (Nanos.ofMillis 400, .started 1 0)]

theorem held_late_end_starts :
    held.validate = .ok () ∧ held.strategy.restarts = true ∧
      (new held 1).start 0 = .ok (heldStart, [(0, 2)]) ∧
      held.duration ≤ Nanos.ofMillis 1500 - 0 ∧
      ((heldStart.follow replacedOnce).onEnded 0 .completed (Nanos.ofMillis 1500)).2 = [(0, 1)] ∧
      (((heldStart.follow replacedOnce).onEnded 0 .completed (Nanos.ofMillis 1500)).1.onEnded
        0 .failed (Nanos.ofMillis 1500)).2 = [] := by
  have hlate : held.duration ≤ Nanos.ofMillis 1500 - 0 := by decide
  obtain ⟨-, hanswer, hlast⟩ := late_end_starts_iff held_validate (.inl rfl) nofun held_start
    replacedOnce hlate 0 .completed
  refine ⟨held_validate, rfl, held_start, hlate, hanswer.mpr ⟨?_, ⟨?_, ?_, ?_⟩, .inl rfl, ?_⟩,
    hlast [] 0 .failed _⟩
  · simp only [replacedOnce, List.forall_mem_cons, List.not_mem_nil, false_imp_iff, implies_true,
      and_true]
    decide
  · decide +kernel
  · refine ⟨?_, ?_, ?_, trivial⟩
    · decide +kernel
    · decide +kernel
    · decide +kernel
  · decide +kernel
  · decide +kernel

/-- A phase starts a session half a second after its time is up, for no tick came in between. -/
theorem held_starts_late :
    held.validate = .ok () ∧ held.strategy = .always 2 ∧
      (new held 1).start 0 = .ok (heldStart, [(0, 2)]) ∧
      (heldStart.follow [(0, .started 2 0)]).phase.duration ≤
        (heldStart.follow [(0, .started 2 0)]).elapsed (Nanos.ofMillis 1500) ∧
      ((heldStart.follow [(0, .started 2 0)]).onEnded 0 .completed (Nanos.ofMillis 1500)).2 =
        [(0, 1)] :=
  ⟨held_validate, rfl, held_start, by decide, rfl⟩

end PhaseRun

end LoadEngine
