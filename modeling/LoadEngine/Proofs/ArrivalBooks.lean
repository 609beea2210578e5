import LoadEngine.Proofs.IterationCap
import LoadEngine.Proofs.Validity

/-! Every arrival is in the books of its phase once. It was started, or it is in flight, or it found
no room; and what found no room is either lost, or owed until a session that ends makes up for it.
No other start is ever asked for. -/

namespace LoadEngine

lemma Phase.arrivals_facts {phase : Phase} {curve : Arrival.Curve}
    (hc : phase.arrivals = some curve) :
    phase.strategy.isNoop = false ∧ 0 < phase.strategy.capacity := by
  cases hs : phase.strategy with
  | constantRate | rampRate => exact ⟨rfl, Nat.lt_of_lt_of_le Nat.one_pos (Nat.le_max_left _ _)⟩
  | atOnce | always | sequential | noop => simp [Phase.arrivals, Strategy.rates, hs] at hc

namespace PhaseRun

def looks (p : PhaseRun) : List (Nanos × Stimulus) → List Nanos
  | [] => []
  | (now, .tick) :: rest =>
    (if p.status = .running then [now] else []) ++ (p.react now .tick).1.looks rest
  | (now, what) :: rest => (p.react now what).1.looks rest

/-- The most arrivals that any of the looks has seen. -/
def mostSeen (curve : Arrival.Curve) (begun : Nanos) (looks : List Nanos) : Nat :=
  (looks.map fun now => curve.arrived (now - begun)).foldl max 0

def madeUp (p : PhaseRun) : List (Nanos × Stimulus) → Nat
  | [] => 0
  | (now, .ended shard how) :: rest =>
    ((p.onEnded shard how now).2.map Prod.snd).sum + (p.onEnded shard how now).1.madeUp rest
  | (now, what) :: rest => (p.react now what).1.madeUp rest

def EndsInPlace (p : PhaseRun) (happened : List (Nanos × Stimulus)) : Prop :=
  ∀ now shard how, (now, Stimulus.ended shard how) ∈ happened → 0 < p.shareOf shard

structure Books (p : PhaseRun) (curve : Arrival.Curve) (begun : Nanos) (seen replayed : Nat) :
    Prop where
  curve : p.phase.arrivals = some curve
  unlimited : p.phase.maxIterations = none
  begun : p.startedAt = some begun
  takers : p.takers ≠ []
  accounted : p.accounted = seen
  balance : p.accounted + replayed = p.counters.started + p.counters.blocked + p.inFlight
  lost : p.phase.strategy.catchUp = false → p.throttled = 0 ∧ replayed = 0
  owed : p.phase.strategy.catchUp = true → p.throttled + replayed = p.counters.blocked

variable {p : PhaseRun} {curve : Arrival.Curve} {begun now : Nanos} {seen replayed : Nat}

lemma replace_unlimited (hc : p.phase.arrivals = some curve) (hcap : p.phase.maxIterations = none)
    {shard : Nat} (hshare : 0 < p.shareOf shard) :
    p.replace shard = if 0 < p.throttled then
      ({ p with throttled := p.throttled - 1, inFlight := p.inFlight + 1 }, [(shard, 1)])
    else (p, []) := by
  have hleft := iterationsLeft_of_arrivals hc hcap
  have hone : issueOn { p with throttled := p.throttled - 1 } shard 1 =
      ({ p with throttled := p.throttled - 1, inFlight := p.inFlight + 1 }, [(shard, 1)]) := by
    have hgrant : grant { p with throttled := p.throttled - 1 } 1 = 1 := by
      rw [grant, show iterationsLeft { p with throttled := p.throttled - 1 } = none from hleft]
    have hroom : ¬ (1 = 0 ∨ shareOf { p with throttled := p.throttled - 1 } shard = 0) := by
      rintro (h | h)
      · cases h
      · exact hshare.ne' h
    simp only [issueOn, hgrant, if_neg hroom]
  unfold replace
  rw [hone]
  cases hs : p.phase.strategy with
  | constantRate | rampRate => rfl
  | atOnce | always | sequential | noop => simp [Phase.arrivals, Strategy.rates, hs] at hc

lemma mostSeen_append (looks : List Nanos) (now : Nanos) :
    mostSeen curve begun (looks ++ [now]) =
      max (mostSeen curve begun looks) (curve.arrived (now - begun)) := by
  simp [mostSeen]

lemma Books.finishIfDone (h : p.Books curve begun seen replayed) (now : Nanos) :
    (p.finishIfDone now).Books curve begun seen replayed := by
  rcases p.finishIfDone_eq now with he | ⟨-, -, he⟩
  · rwa [he]
  · rw [he]
    exact { h with }

lemma Books.tick (h : p.Books curve begun seen replayed) (hrun : p.status = .running)
    (now : Nanos) :
    (p.tick now).1.Books curve begun (max seen (curve.arrived (now - begun))) replayed ∧
      seen + ((p.tick now).2.map Prod.snd).sum = max seen (curve.arrived (now - begun)) := by
  have helapsed : p.elapsed now = now - begun := by simp only [elapsed, h.begun]
  obtain ⟨cursor, hp, hsum⟩ := startOwed_unlimited
    (iterationsLeft_of_arrivals h.curve h.unlimited) h.takers (curve.arrived (now - begun))
  have hbalance := h.balance
  rw [h.accounted] at hp hsum hbalance
  rw [tick_of_arrivals hrun h.curve, helapsed]
  constructor
  · apply Books.finishIfDone
    rw [hp]
    refine ⟨h.curve, h.unlimited, h.begun, h.takers, rfl, ?_, h.lost, h.owed⟩
    dsimp only
    omega
  · dsimp only
    omega

lemma Books.started (h : p.Books curve begun seen replayed) {started blocked : Nat}
    (hanswered : started + blocked ≤ p.inFlight) :
    (p.onStarted started blocked).Books curve begun seen replayed := by
  have hbalance := h.balance
  refine ⟨h.curve, h.unlimited, h.begun, h.takers, h.accounted, ?_, ?_, ?_⟩
  · simp only [onStarted]
    omega
  · intro hcatch
    simp only [onStarted] at hcatch ⊢
    rw [if_neg (Bool.eq_false_iff.mp hcatch)]
    exact h.lost hcatch
  · intro hcatch
    have howed := h.owed hcatch
    simp only [onStarted] at hcatch ⊢
    rw [if_pos hcatch]
    omega

lemma Books.replace (h : p.Books curve begun seen replayed) {shard : Nat}
    (hshare : 0 < p.shareOf shard) :
    (p.replace shard).1.Books curve begun seen
      (replayed + ((p.replace shard).2.map Prod.snd).sum) := by
  rw [replace_unlimited h.curve h.unlimited hshare]
  split
  · rename_i hpos
    have hbalance := h.balance
    refine ⟨h.curve, h.unlimited, h.begun, h.takers, h.accounted, ?_, ?_, ?_⟩
    · simp only [List.map_cons, List.map_nil, List.sum_cons, List.sum_nil]
      omega
    · intro hcatch
      exact absurd (h.lost hcatch).1 hpos.ne'
    · intro hcatch
      have howed := h.owed hcatch
      simp only [List.map_cons, List.map_nil, List.sum_cons, List.sum_nil]
      omega
  · exact h

lemma Books.ended (h : p.Books curve begun seen replayed) {shard : Nat}
    (hshare : 0 < p.shareOf shard) (how : SessionEnd) (now : Nanos) :
    (p.onEnded shard how now).1.Books curve begun seen
      (replayed + ((p.onEnded shard how now).2.map Prod.snd).sum) := by
  have hcounted : Books { p with counters := p.counters.consume how.event } curve begun seen
      replayed := by
    have hstarted := (p.counters.consume_ended how).1
    have hblocked := p.counters.consume_blocked how
    refine ⟨h.curve, h.unlimited, h.begun, h.takers, h.accounted, ?_, h.lost, ?_⟩
    · rw [hstarted, hblocked]
      exact h.balance
    · rw [hblocked]
      exact h.owed
  simp only [onEnded]
  split
  · exact (hcounted.replace hshare).finishIfDone now
  · exact hcounted

lemma Books.follow (h : p.Books curve begun seen replayed) {happened : List (Nanos × Stimulus)}
    (hanswered : p.Answered happened) (hplace : p.EndsInPlace happened) :
    (p.follow happened).Books curve begun
      ((p.looks happened).foldl (fun n now => max n (curve.arrived (now - begun))) seen)
      (replayed + p.madeUp happened) := by
  induction happened generalizing p seen replayed with
  | nil => exact h
  | cons e rest ih =>
    obtain ⟨now, what⟩ := e
    obtain ⟨hfirst, hrest⟩ := hanswered
    have hlater : (p.react now what).1.EndsInPlace rest := by
      intro t shard how hmem
      rw [shareOf, (p.react_kept now what).2.2]
      exact hplace t shard how (List.mem_cons_of_mem _ hmem)
    cases what with
    | tick =>
      by_cases hrun : p.status = .running
      · simp only [looks, if_pos hrun]
        exact ih (h.tick hrun now).1 hrest hlater
      · have hstays : (p.react now .tick).1 = p := by
          simp only [react, PhaseRun.tick, if_neg hrun]
        have hsame : (p.react now .tick).1.Books curve begun seen replayed := by rwa [hstays]
        simp only [looks, if_neg hrun]
        exact ih hsame hrest hlater
    | started started blocked => exact ih (h.started hfirst) hrest hlater
    | ended shard how =>
      have hshare := hplace now shard how List.mem_cons_self
      have hnext := ih (h.ended hshare how now) hrest hlater
      rw [Nat.add_assoc] at hnext
      exact hnext

lemma looks_tick (happened : List (Nanos × Stimulus)) (now : Nanos) :
    p.looks (happened ++ [(now, .tick)]) =
      p.looks happened ++ if (p.follow happened).status = .running then [now] else [] := by
  induction happened generalizing p with
  | nil => exact List.append_nil _
  | cons e rest ih =>
    obtain ⟨t, what⟩ := e
    have hrest := ih (p := (p.react t what).1)
    cases what with
    | tick =>
      rw [List.cons_append, looks, looks, hrest, ← List.append_assoc]
      rfl
    | started started blocked => exact hrest
    | ended shard how => exact hrest

lemma start_books {phase : Phase} {shards : Nat} (hvalid : phase.validate = .ok ())
    (hc : phase.arrivals = some curve) (hcap : phase.maxIterations = none)
    (hshards : 0 < shards) (begun : Nanos) :
    ∃ p, (new phase shards).start begun = .ok (p, []) ∧ p.phase = phase ∧
      p.Books curve begun 0 0 := by
  obtain ⟨hnoop, hcapacity⟩ := Phase.arrivals_facts hc
  have hroom := Phase.sessionCapacity_pos hvalid hnoop hcapacity
  set q : PhaseRun := { new phase shards with startedAt := some begun, status := .running } with hq
  have hsplit : q.shares = splitCapacity phase.sessionCapacity shards := rfl
  have htakers : q.takers ≠ [] := by
    rw [takers_of_split hsplit]
    refine List.ne_nil_of_length_pos ?_
    rw [List.length_range]
    exact lt_min hroom hshards
  have hbooks : q.Books curve begun 0 0 :=
    ⟨hc, hcap, rfl, htakers, rfl, rfl, fun _ => ⟨rfl, rfl⟩, fun _ => rfl⟩
  have hnone : q.initialStarts = 0 := by
    unfold initialStarts
    cases hs : q.phase.strategy with
    | constantRate | rampRate | noop => rfl
    | atOnce | always | sequential => simp_all [Phase.arrivals, Strategy.rates, new]
  have hissue : q.issue q.initialStarts = (q, []) := by
    rw [hnone]
    simp [issue, grant, iterationsLeft_of_arrivals hbooks.curve hbooks.unlimited]
  refine ⟨q.finishIfDone begun, ?_, q.finishIfDone_phase begun, hbooks.finishIfDone begun⟩
  have hfresh : (new phase shards).status = .notStarted := rfl
  rw [start, if_pos hfresh]
  change Except.ok ((q.issue q.initialStarts).1.finishIfDone begun, (q.issue q.initialStarts).2) = _
  rw [hissue]

/-- No arrival is lost and none is counted twice, whatever happens to the phase in whatever order.
What it keeps account of is the most that any look at the clock has seen, and each look asks for the
rise of that. Without making up, no start is asked for again; with it, each blocked start is owed
until one is asked for in its place. -/
theorem arrivals_conserved {phase : Phase} {shards : Nat} (hvalid : phase.validate = .ok ())
    (hc : phase.arrivals = some curve) (hcap : phase.maxIterations = none)
    (hshards : 0 < shards) (begun : Nanos) :
    ∃ p, (new phase shards).start begun = .ok (p, []) ∧
      ∀ happened, p.Answered happened → p.EndsInPlace happened →
        let q := p.follow happened
        q.accounted = mostSeen curve begun (p.looks happened) ∧
        (∀ now, mostSeen curve begun (p.looks happened) + ((q.tick now).2.map Prod.snd).sum =
          mostSeen curve begun (p.looks (happened ++ [(now, .tick)]))) ∧
        (phase.strategy.catchUp = false →
          q.accounted = q.counters.started + q.counters.blocked + q.inFlight ∧
            p.madeUp happened = 0) ∧
        (phase.strategy.catchUp = true →
          q.accounted = q.counters.started + q.throttled + q.inFlight ∧
            q.counters.blocked = q.throttled + p.madeUp happened) := by
  obtain ⟨p, hstart, hp, hbooks⟩ := start_books hvalid hc hcap hshards begun
  refine ⟨p, hstart, ?_⟩
  intro happened hanswered hplace q
  have hq : q.Books curve begun (mostSeen curve begun (p.looks happened)) (p.madeUp happened) := by
    have hfollow := hbooks.follow hanswered hplace
    rwa [Nat.zero_add, ← List.foldl_map] at hfollow
  have hphase : q.phase = phase := (p.follow_phase happened).trans hp
  have hbalance := hq.balance
  refine ⟨hq.accounted, ?_, ?_, ?_⟩
  · intro now
    rw [looks_tick]
    split
    · rename_i hrun
      rw [mostSeen_append]
      exact (hq.tick hrun now).2
    · rename_i hrun
      rw [List.append_nil, PhaseRun.tick, if_neg hrun]
      rfl
  · intro hcatch
    obtain ⟨-, hnone⟩ := hq.lost (hphase ▸ hcatch)
    exact ⟨by omega, hnone⟩
  · intro hcatch
    have howed := hq.owed (hphase ▸ hcatch)
    exact ⟨by omega, howed.symm⟩

def insistent : Phase := { steady with strategy := .constantRate 10 true }

def insistentStart : PhaseRun :=
  { new insistent 1 with startedAt := some 0, status := .running }

def crowded : List (Nanos × Stimulus) :=
  [(Nanos.ofMillis 500, .tick), (Nanos.ofMillis 500, .started 3 2),
    (Nanos.ofMillis 600, .ended 0 .completed), (Nanos.ofMillis 600, .started 0 1)]

theorem insistent_arrivals_conserved :
    insistent.validate = .ok () ∧ insistent.arrivals = some ⟨Nanos.ofSeconds 1, 10, 10⟩ ∧
      insistent.maxIterations = none ∧ (new insistent 1).start 0 = .ok (insistentStart, []) ∧
      insistentStart.Answered crowded ∧ insistentStart.EndsInPlace crowded ∧
      (insistentStart.follow crowded).accounted = 5 ∧
      (insistentStart.follow crowded).counters.started +
        (insistentStart.follow crowded).throttled +
        (insistentStart.follow crowded).inFlight = 5 ∧
      (insistentStart.follow crowded).counters.blocked = 3 ∧ insistentStart.madeUp crowded = 1 ∧
      (insistentStart.follow crowded).throttled = 2 := by
  have hfault : insistent.fault? = none := by decide +kernel
  have hvalid : insistent.validate = .ok () := by rw [Phase.validate, hfault]
  have hc : insistent.arrivals = some ⟨Nanos.ofSeconds 1, 10, 10⟩ := rfl
  have hbegun : (new insistent 1).start 0 = .ok (insistentStart, []) := rfl
  have hanswered : insistentStart.Answered crowded :=
    ⟨by decide +kernel, by decide +kernel, by decide +kernel, by decide +kernel, trivial⟩
  have hplace : insistentStart.EndsInPlace crowded := by
    intro now shard how hmem
    obtain ⟨-, rfl, -⟩ : now = Nanos.ofMillis 600 ∧ shard = 0 ∧ how = .completed := by
      simpa [crowded] using hmem
    decide +kernel
  obtain ⟨p, hstart, hconserved⟩ := arrivals_conserved hvalid hc rfl Nat.one_pos 0
  obtain ⟨rfl, -⟩ := Prod.mk.inj (Except.ok.inj (hbegun.symm.trans hstart))
  obtain ⟨haccounted, -, -, hcatch⟩ := hconserved crowded hanswered hplace
  obtain ⟨hbalance, howed⟩ := hcatch rfl
  have hseen : mostSeen ⟨Nanos.ofSeconds 1, 10, 10⟩ 0 (insistentStart.looks crowded) = 5 := by
    decide +kernel
  have hmade : insistentStart.madeUp crowded = 1 := by decide +kernel
  have hblocked : (insistentStart.follow crowded).counters.blocked = 3 := by decide +kernel
  rw [hseen] at haccounted
  exact ⟨hvalid, hc, rfl, hbegun, hanswered, hplace, haccounted, hbalance.symm.trans haccounted,
    hblocked, hmade, by omega⟩

end PhaseRun

end LoadEngine
