import LoadEngine.Controller.Basic
import LoadEngine.Proofs.PhaseCourse

/-! What the controller sends out and what it keeps account of. Whatever makes a phase start
sessions, the starts in flight grow by just those that are sent to the shards, each of them to a
shard that there is. -/

namespace LoadEngine

namespace PhaseRun

variable {p p' p'' : PhaseRun} {starts : Starts} {now : Nanos}

structure Asks (p p' : PhaseRun) (starts : Starts) : Prop where
  inFlight : p'.inFlight = p.inFlight + (starts.map Prod.snd).sum
  counters : p'.counters = p.counters
  shares : p'.shares = p.shares
  takers : ∀ s ∈ starts, s.1 < p.shares.length ∧ 0 < s.2

lemma Asks.none (h₁ : p'.inFlight = p.inFlight) (h₂ : p'.counters = p.counters)
    (h₃ : p'.shares = p.shares) : Asks p p' [] :=
  ⟨h₁, h₂, h₃, by simp⟩

lemma Asks.refl (p : PhaseRun) : Asks p p [] := .none rfl rfl rfl

lemma Asks.trans_none (h : Asks p p' starts) (h' : Asks p' p'' []) : Asks p p'' starts :=
  ⟨h'.inFlight.trans h.inFlight, h'.counters.trans h.counters, h'.shares.trans h.shares, h.takers⟩

lemma Asks.none_trans (h : Asks p p' []) (h' : Asks p' p'' starts) : Asks p p'' starts := by
  have hflight : p'.inFlight = p.inFlight := h.inFlight
  refine ⟨?_, h'.counters.trans h.counters, h'.shares.trans h.shares, ?_⟩
  · rw [h'.inFlight, hflight]
  · rw [← h.shares]
    exact h'.takers

lemma issue_asks (p : PhaseRun) (count : Nat) :
    Asks p (p.issue count).1 (p.issue count).2 := by
  simp only [issue]
  split
  · exact .refl p
  · rename_i h
    obtain ⟨-, htakers⟩ := not_or.mp h
    refine ⟨?_, rfl, rfl, ?_⟩
    · rw [sum_dealOut p.takers (p.cursor % p.takers.length) (p.grant count) htakers]
    · intro s hs
      obtain ⟨hmem, hpos⟩ := mem_dealOut hs
      have hrange := (List.mem_filter.mp hmem).1
      exact ⟨List.mem_range.mp hrange, hpos⟩

lemma issueOn_asks (p : PhaseRun) (shard count : Nat) :
    Asks p (p.issueOn shard count).1 (p.issueOn shard count).2 := by
  simp only [issueOn]
  split
  · exact .refl p
  · rename_i h
    obtain ⟨hcount, hshare⟩ := not_or.mp h
    refine ⟨by simp, rfl, rfl, ?_⟩
    intro s hs
    rw [List.mem_singleton.mp hs]
    refine ⟨?_, Nat.pos_of_ne_zero hcount⟩
    by_contra hge
    apply hshare
    simp [shareOf, List.getElem?_eq_none (Nat.le_of_not_lt hge)]

lemma replace_asks (p : PhaseRun) (shard : Nat) :
    Asks p (p.replace shard).1 (p.replace shard).2 := by
  have hmakeUp : Asks p
      (if 0 < p.throttled then { p with throttled := p.throttled - 1 }.issueOn shard 1
        else (p, [])).1
      (if 0 < p.throttled then { p with throttled := p.throttled - 1 }.issueOn shard 1
        else (p, [])).2 := by
    split
    · have hmade : Asks p { p with throttled := p.throttled - 1 } [] := .none rfl rfl rfl
      exact hmade.none_trans (issueOn_asks _ shard 1)
    · exact .refl p
  unfold replace
  cases p.phase.strategy with
  | always users => exact issueOn_asks p shard 1
  | sequential iterations => exact issueOn_asks p shard 1
  | atOnce users => exact hmakeUp
  | constantRate rate catchUp => exact hmakeUp
  | rampRate initial target catchUp => exact hmakeUp
  | noop => exact hmakeUp

lemma finishIfDone_asks (p : PhaseRun) (now : Nanos) : Asks p (p.finishIfDone now) [] := by
  rcases p.finishIfDone_eq now with h | ⟨-, -, h⟩
  · rw [h]
    exact .refl p
  · rw [h]
    exact .none rfl rfl rfl

lemma startOwed_asks (p : PhaseRun) (arrived : Nat) :
    Asks p (p.startOwed arrived).1 (p.startOwed arrived).2 := by
  simp only [startOwed]
  split
  · exact .refl p
  · have hmade : Asks p { p with accounted := p.accounted + (arrived - p.accounted) } [] :=
      .none rfl rfl rfl
    exact hmade.none_trans (issue_asks _ _)

lemma tick_asks (p : PhaseRun) (now : Nanos) : Asks p (p.tick now).1 (p.tick now).2 := by
  unfold tick
  split
  · cases p.phase.arrivals with
    | none => exact finishIfDone_asks p now
    | some curve => exact (startOwed_asks p _).trans_none (finishIfDone_asks _ now)
  · exact .refl p

lemma start_asks (h : p.start now = .ok (p', starts)) : Asks p p' starts := by
  unfold start at h
  split at h
  · cases h
    have hbegun : Asks p { p with startedAt := some now, status := .running } [] :=
      .none rfl rfl rfl
    exact hbegun.none_trans ((issue_asks _ _).trans_none (finishIfDone_asks _ now))
  · cases h

lemma onEnded_asks (p : PhaseRun) (shard : Nat) (how : SessionEnd) (now : Nanos) :
    Asks { p with counters := p.counters.consume how.event } (p.onEnded shard how now).1
      (p.onEnded shard how now).2 := by
  unfold onEnded
  simp only
  split
  · exact (replace_asks _ shard).trans_none (finishIfDone_asks _ now)
  · exact .refl _

end PhaseRun

namespace Controller

inductive Orders (c : Controller) : Controller × Except EngineError (List Dispatch) → Prop
  | nothing {c' : Controller} (h : c'.phases = c.phases) : Orders c (c', .ok [])
  | refused {c' : Controller} (h : c'.phases = c.phases) (e : EngineError) :
      Orders c (c', .error e)
  | starts {c' : Controller} {index : Nat} {p p' : PhaseRun} {starts : Starts}
      (hp : c.phases[index]? = some p) (hasks : p.Asks p' starts)
      (h : c'.phases = c.phases.set index p') : Orders c (c', .ok (dispatches index starts))

lemma start_orders (c : Controller) (index : Nat) (now : Nanos) :
    c.Orders (c.start index now) := by
  unfold start
  cases hp : c.phases[index]? with
  | none =>
    have hbegun : (c.begin now).phases[index]? = none := hp
    simp only [hbegun]
    exact .nothing rfl
  | some p =>
    have hbegun : (c.begin now).phases[index]? = some p := hp
    simp only [hbegun]
    cases hs : p.start now with
    | error e =>
      have hphases : (c.begin now).phases = c.phases := rfl
      exact .refused hphases e
    | ok r => exact .starts hp (PhaseRun.start_asks hs) rfl

lemma startOnDemand_orders (c : Controller) (index : Nat) (now : Nanos) :
    c.Orders (c.startOnDemand index now) := by
  unfold startOnDemand
  cases hp : c.phases[index]? with
  | none => exact .nothing rfl
  | some p =>
    simp only
    split
    · exact c.start_orders index now
    · exact .refused rfl _

lemma advance_orders (c : Controller) (index : Nat) (now : Nanos) :
    c.Orders (c.advance index now) := by
  unfold advance
  cases hp : c.phases[index]? with
  | none => exact .nothing rfl
  | some p =>
    cases hs : p.status with
    | notStarted =>
      simp only [hs]
      split
      · exact c.start_orders index now
      · exact .nothing rfl
    | running =>
      simp only [hs]
      exact .starts hp (p.tick_asks now) rfl
    | finished =>
      simp only [hs]
      exact .nothing rfl
    | terminating =>
      simp only [hs]
      exact .nothing rfl
    | terminated =>
      simp only [hs]
      exact .nothing rfl

end Controller

end LoadEngine
