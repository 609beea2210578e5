import LoadEngine.Proofs.ClosedPopulation

/-! Phases that are to start sessions again. Only the end of a session lets one of them start the
next, so a start that is blocked is owed until then; and whoever blocked it is either live as the
controller counts, or is told of before the controller hears that the start was blocked. -/

namespace LoadEngine

/-- Where blocked starts are told of, more sessions are still alive, or told to have ended, than are
told to have started after that: the controller counts a session as live when it has heard it. -/
def Owes (index alive : Nat) : List Notice → Prop
  | [] => True
  | n :: rest =>
    (0 < n.blockedIn index → startedIn index rest < alive + endsIn index rest) ∧
      Owes index alive rest

namespace Owes

variable {index alive alive' : Nat} {a b : List Notice}

lemma of_no_start (index alive : Nat) (h : ∀ n ∈ a, n.isStart = false) : Owes index alive a := by
  induction a with
  | nil => trivial
  | cons n rest ih =>
    obtain ⟨hn, hrest⟩ := List.forall_mem_cons.mp h
    refine ⟨fun hblocked => ?_, ih hrest⟩
    cases n with
    | started => cases hn
    | ended | fault => cases hblocked

lemma of_first (hfirst : ∀ n ∈ a.tail, n.isStart = false)
    (hbalance : alive + startedIn index a = alive' + endsIn index a)
    (hmissed : 0 < blockedIn index a → 0 < alive + startedIn index a) : Owes index alive' a := by
  cases a with
  | nil => trivial
  | cons n rest =>
    refine ⟨fun hblocked => ?_, of_no_start index alive' hfirst⟩
    have hnone : startedIn index rest = 0 := startedIn_of_no_start _ hfirst
    have hpos := hmissed (Nat.add_pos_left hblocked _)
    have hends : endsIn index (n :: rest) = endsIn index rest := by
      cases n with
      | started => exact Nat.zero_add _
      | ended | fault => cases hblocked
    omega

lemma append (ha : Owes index alive a) (hb : Owes index alive' b)
    (hbalance : alive + startedIn index b = alive' + endsIn index b) :
    Owes index alive' (a ++ b) := by
  induction a with
  | nil => exact hb
  | cons n rest ih =>
    refine ⟨fun hblocked => ?_, ih ha.2⟩
    have hrest := ha.1 hblocked
    change startedIn index (rest ++ b) < alive' + endsIn index (rest ++ b)
    rw [startedIn_append, endsIn_append]
    omega

end Owes

def Strategy.restarts : Strategy → Bool
  | always _ | sequential _ => true
  | _ => false

namespace PhaseRun

variable {p p' : PhaseRun} {index shard : Nat} {starts : Starts}

/-- The phase is to start sessions, but not before another one has ended. -/
def IsOwing (p : PhaseRun) : Prop := p.phase.strategy.restarts = true ∨ 0 < p.throttled

structure IsLively (p : PhaseRun) : Prop where
  left : p.status = .running → p.iterationsLeft ≠ some 0
  live : p.status = .running → p.IsOwing → p.counters.ended < p.counters.started + p.inFlight

lemma IsLively.of_not_running (h : p.status ≠ .running) : p.IsLively :=
  ⟨fun hrunning => absurd hrunning h, fun hrunning => absurd hrunning h⟩

lemma IsLively.finishIfDone {now : Nanos}
    (hlive : p.status = .running → p.iterationsLeft ≠ some 0 → p.IsOwing →
      p.counters.ended < p.counters.started + p.inFlight) : (p.finishIfDone now).IsLively := by
  refine ⟨fun hrunning => ?_, fun hrunning => ?_⟩
  · obtain ⟨hsame, -, hleft⟩ := finishIfDone_running hrunning
    rwa [hsame]
  · obtain ⟨hsame, hstatus, hleft⟩ := finishIfDone_running hrunning
    rw [hsame]
    exact hlive hstatus hleft

lemma IsFresh.awake {now : Nanos} (hfresh : p.IsFresh) (hs : p.start now = .ok (p', starts))
    (hinitial : p.phase.strategy.restarts = true → 0 < p.initialStarts ∧ p.takers ≠ []) :
    p'.IsLively := by
  obtain ⟨-, rfl, -⟩ := start_eq_ok hs
  refine .finishIfDone fun hrunning hleft howing => ?_
  have hcounters :=
    (issue_asks { p with startedAt := some now, status := .running } p.initialStarts).counters
  obtain ⟨n, m, hi⟩ := issue_eq { p with startedAt := some now, status := .running }
    p.initialStarts
  have hrestarts : p.phase.strategy.restarts = true := by
    rw [hi] at howing
    rcases howing with h | h
    · exact h
    · rw [hfresh.throttled] at h
      cases h
  obtain ⟨hpos, htakers⟩ := hinitial hrestarts
  have hended : p.counters.ended = 0 := by
    rw [hfresh.counters]
    rfl
  rw [hcounters]
  change p.counters.ended < p.counters.started + _
  rw [hended]
  simp only [issue] at hleft ⊢
  split
  · rename_i hnone
    rcases hnone with hzero | hnil
    · rw [if_pos (.inl hzero)] at hleft
      exact absurd hzero (grant_pos hleft hpos).ne'
    · exact absurd hnil htakers
  · rename_i hsome
    refine (Nat.pos_of_ne_zero (not_or.mp hsome).1).trans_le ?_
    exact (Nat.le_add_left _ _).trans (Nat.le_add_left _ _)

lemma IsLively.tick (h : p.IsLively) (now : Nanos) : (p.tick now).1.IsLively := by
  by_cases hp : p.status = .running
  · cases hc : p.phase.arrivals with
    | none =>
      have ht : p.tick now = (p.finishIfDone now, []) := by
        simp only [PhaseRun.tick, hp, if_true, hc]
      rw [ht]
      exact .finishIfDone fun hrunning _ => h.live hrunning
    | some curve =>
      rw [tick_of_arrivals hp hc]
      refine .finishIfDone fun _ _ howing => ?_
      have hasks := p.startOwed_asks (curve.arrived (p.elapsed now))
      obtain ⟨n, m, hs⟩ := p.startOwed_eq (curve.arrived (p.elapsed now))
      have howing' : p.IsOwing := by
        rw [hs] at howing
        exact howing
      have hlive := h.live hp howing'
      rw [hasks.counters, hasks.inFlight]
      omega
  · have ht : p.tick now = (p, []) := by simp only [PhaseRun.tick, if_neg hp]
    rw [ht]
    exact h

lemma IsLively.hears (h : p.IsLively) {started blocked : Nat}
    (hflight : started + blocked ≤ p.inFlight)
    (hmissed : 0 < blocked → p.counters.ended < p.counters.started + started) :
    (p.onStarted started blocked).IsLively := by
  refine ⟨fun hrunning => ?_, fun hrunning howing => ?_⟩
  · have hleft := h.left hrunning
    unfold iterationsLeft at hleft ⊢
    change (p.phase.iterationCap.map _) ≠ some 0
    cases hcap : p.phase.iterationCap with
    | none => exact nofun
    | some cap =>
      rw [hcap] at hleft
      simp only [onStarted, Option.map_some, ne_eq, Option.some.injEq] at hleft ⊢
      omega
  · change p.counters.ended < p.counters.started + started + (p.inFlight - (started + blocked))
    rcases Nat.eq_zero_or_pos blocked with rfl | hpos
    · have howing' : p.IsOwing := by
        rcases howing with h | h
        · exact .inl h
        · refine .inr ?_
          simp only [onStarted, Nat.add_zero, ite_self] at h
          exact h
      have hlive := h.live hrunning howing'
      omega
    · have hlive := hmissed hpos
      omega

lemma replace_of_owing (howing : p.IsOwing) (hleft : p.iterationsLeft ≠ some 0)
    (hroom : 0 < p.shareOf shard) : ∃ throttled, p.replace shard =
      ({ p with throttled, inFlight := p.inFlight + 1 }, [(shard, 1)]) := by
  unfold replace
  split
  · exact ⟨p.throttled, issueOn_of_left hleft hroom⟩
  · exact ⟨p.throttled, issueOn_of_left hleft hroom⟩
  · rename_i hnot₁ hnot₂
    have hpos : 0 < p.throttled := by
      rcases howing with h | h
      · unfold Strategy.restarts at h
        split at h
        · rename_i users hs
          exact absurd hs (hnot₁ users)
        · rename_i iterations hs
          exact absurd hs (hnot₂ iterations)
        · cases h
      · exact h
    rw [if_pos hpos]
    exact ⟨p.throttled - 1, issueOn_of_left (p := { p with throttled := p.throttled - 1 })
      hleft hroom⟩

lemma IsLively.replaces (h : p.IsLively) (how : SessionEnd) (now : Nanos)
    (hroom : 0 < p.shareOf shard) : (p.onEnded shard how now).1.IsLively := by
  unfold onEnded
  simp only
  split
  · rename_i hstatus
    refine .finishIfDone fun _ _ howing => ?_
    obtain ⟨hstarted, hended⟩ := p.counters.consume_ended how
    have hleft : iterationsLeft { p with counters := p.counters.consume how.event } ≠ some 0 := by
      simp only [iterationsLeft, hstarted]
      exact h.left hstatus
    by_cases hbefore : p.IsOwing
    · have hlive := h.live hstatus hbefore
      obtain ⟨throttled, hreplaced⟩ := replace_of_owing
        (p := { p with counters := p.counters.consume how.event }) hbefore hleft hroom
      rw [hreplaced]
      simp only [hstarted, hended]
      omega
    · refine absurd ?_ hbefore
      have hnone := (not_or.mp hbefore).2
      unfold replace at howing
      split at howing
      · rename_i hs
        exact .inl (congrArg Strategy.restarts hs)
      · rename_i hs
        exact .inl (congrArg Strategy.restarts hs)
      · rw [if_neg hnone] at howing
        exact howing
  · rename_i hstatus
    exact .of_not_running hstatus

end PhaseRun

namespace Fleet

variable {f f' : Fleet} {m : Move} {outputs : List Output} {index shard : Nat} {p p' : PhaseRun}

/-- A phase that owes starts has a session to wait for, and where sessions end there is room. -/
structure Owing (f : Fleet) (index : Nat) (p : PhaseRun) : Prop where
  awake : p.IsLively
  owes : Owes index (f.alive index) f.notices
  reserved : ∀ i, 0 < f.load index i → 0 < p.shareOf i

lemma Reachable.missed (h : Reachable f) (hp : f.controller.phases[index]? = some p)
    (hreserved : ∀ i, 0 < f.load index i → 0 < p.shareOf i)
    (hshares : ∀ share ∈ p.shares, share < 2 ^ 32) {now : Nanos} {deed : Deed} {node node' : Node}
    (hnode : f.nodes[shard]? = some node) (ha : node.Acted now deed node' outputs)
    (hblocked : 0 < blockedIn index (noticesOf (node.shard.perform now deed).2)) :
    0 < f.alive index + startedIn index (noticesOf (node.shard.perform now deed).2) := by
  obtain ⟨log, hlog, -⟩ := h.chronicle index
  have hreckons := ((hlog.logged hp).roomed shard node hnode).acted ha
  have hlook := hblocked
  rw [hreckons.blocked] at hlook
  obtain ⟨a, ha, -⟩ := List.countP_pos_iff.mp hlook
  have hroom : 0 < p.shareOf shard := by
    refine hreserved shard ?_
    have hfew := hreckons.few a ha
    simp only [load, hnode, Option.elim_some]
    omega
  have hmissed := hreckons.missed (by rwa [PhaseRun.numbered_shareOf hshares]) hblocked
  have hle := List.single_le_sum (l := f.nodes.map fun node : Node => node.shard.alive index)
    (fun _ _ => Nat.zero_le _) _ (List.mem_map_of_mem (List.mem_of_getElem? hnode))
  simp only [Fleet.alive] at hle ⊢
  omega

lemma Reachable.begins (h : Reachable f) (hp : f.controller.phases[index]? = some p)
    (hrestarts : p.phase.strategy.restarts = true) : 0 < p.initialStarts ∧ p.takers ≠ [] := by
  have hvalid := h.accepted hp
  have hinitial := (Phase.initial_pos hvalid).1
  have hroom (hnoop : p.phase.strategy.isNoop = false) (hcapacity : 0 < p.phase.strategy.capacity) :
      p.takers ≠ [] := h.takers_ne_nil hp (Phase.sessionCapacity_pos hvalid hnoop hcapacity)
  unfold PhaseRun.initialStarts
  cases hs : p.phase.strategy with
  | always users =>
    have husers := hinitial users hs
    rw [hs] at hroom
    exact ⟨husers, hroom rfl husers⟩
  | sequential iterations =>
    rw [hs] at hroom
    exact ⟨one_pos, hroom rfl one_pos⟩
  | atOnce | constantRate | rampRate | noop =>
    rw [hs] at hrestarts
    cases hrestarts

lemma Reachable.goes_lively (h : Reachable f) (hp : f.controller.phases[index]? = some p)
    (howing : f.Owing index p) {heard : Option Notice} {rest : List Notice} {starts : Starts}
    (hgoes : p.Goes index heard starts p') (hnotices : f.notices = heard.toList ++ rest) :
    p'.IsLively := by
  obtain ⟨hlively, howes, hreserved⟩ := howing
  cases hgoes with
  | completes => exact .of_not_running nofun
  | acts hacts =>
    cases hacts with
    | rests => exact hlively
    | starts hs =>
      have hfresh := h.fresh hp (PhaseRun.start_eq_ok hs).1
      exact hfresh.awake hs (h.begins hp)
    | ticks now => exact hlively.tick now
    | finishes h =>
      obtain rfl | ⟨-, rfl⟩ := PhaseRun.finish_eq_ok h
      · exact hlively
      · exact .of_not_running nofun
    | closes now => exact .of_not_running (p.beginTermination_not_running now)
    | hears shard started blocked =>
      have hnotices : f.notices = .started index shard started blocked :: rest := hnotices
      obtain ⟨hflight, hsessions⟩ := h.answered hp hnotices
      refine hlively.hears hflight fun hblocked => ?_
      rw [hnotices] at howes
      have howed : startedIn index rest < f.alive index + endsIn index rest :=
        howes.1 (by simpa [Notice.blockedIn] using hblocked)
      omega
    | replaces shard how now =>
      exact hlively.replaces how now (hreserved shard (load_of_ended hnotices))

theorem Reachable.owing (h : Reachable f) (hp : f.controller.phases[index]? = some p)
    (hshares : ∀ share ∈ p.shares, share < 2 ^ 32) : f.Owing index p := by
  -- The three parts go through the induction together, since each of them uses the others.
  induction h generalizing p with
  | @new settings benchmark known c h template =>
    change c.phases[index]? = some p at hp
    have hsilent := (Sane.new h template).silent hp
    rw [(Controller.new_ok h).1, List.getElem?_map] at hp
    obtain ⟨phase, -, rfl⟩ := Option.map_eq_some_iff.mp hp
    refine ⟨.of_not_running nofun, trivial, fun i hload => ?_⟩
    rw [(hsilent ⟨rfl, rfl, rfl, rfl⟩).1 i] at hload
    cases hload
  | @move f f' m outputs h hm hout ih =>
    obtain ⟨q, hq, hturns⟩ := h.turns h.placed hm hout hp
    cases hturns with
    | serves hsame hnode ha hnotices hbalance hfirst hload =>
      subst hsame
      obtain ⟨hlively, howes, hreserved⟩ := ih hq hshares
      have hmissed := h.missed hq hreserved hshares hnode ha
      refine ⟨hlively, ?_, fun i hpos => hreserved i (hpos.trans_le (hload i))⟩
      rw [hnotices]
      exact howes.append (.of_first hfirst hbalance hmissed) hbalance
    | @goes heard rest starts hgoes hnotices hrest halive hload =>
      obtain ⟨hphase, hkept⟩ := hgoes.kept
      rw [hkept] at hshares
      have howing := ih hq hshares
      refine ⟨h.goes_lively hq howing hgoes hnotices, ?_, fun i hpos => ?_⟩
      · have howes := howing.owes
        rw [hnotices] at howes
        rw [halive, hrest]
        cases heard with
        | none => exact howes
        | some n => exact howes.2
      · have hshare : p.shareOf i = q.shareOf i := by rw [PhaseRun.shareOf, hkept]; rfl
        rw [hshare]
        have hload := hload i
        rcases Nat.eq_zero_or_pos (dealtTo i starts) with hzero | hdealt
        · exact howing.reserved i (by omega)
        · obtain ⟨count, hmem⟩ := dealtTo_pos hdealt
          exact hgoes.takers _ hmem

/-- A phase that owes starts has a session to wait for, and starts another one when it ends. -/
structure NeverStalls (f : Fleet) (index : Nat) (p : PhaseRun) : Prop where
  /-- A session is live, as the controller counts, or was asked for. -/
  awaited : 0 < p.counters.live + p.inFlight
  /-- So something is still to come for the phase: a session that is live, a start that a node has
  not looked at, or an answer or an end that the controller has not heard. -/
  underWay : ¬ f.AtRest index
  /-- When the controller hears that a session ended, it sends a start to the same shard. -/
  restarts : ∀ shard how rest now, f.notices = .ended index shard how :: rest →
    (f.controller.onNotice now (.ended index shard how)).2 = .ok [(shard, .start index 1)]

/-- No running phase that owes starts has nothing to wait for. -/
theorem Reachable.neverStalls (h : Reachable f) (hp : f.controller.phases[index]? = some p)
    (hshares : ∀ share ∈ p.shares, share < 2 ^ 32) (hrunning : p.status = .running)
    (howing : p.IsOwing) : f.NeverStalls index p := by
  obtain ⟨hlively, -, hreserved⟩ := h.owing hp hshares
  have hlive := hlively.live hrunning howing
  have hleft := hlively.left hrunning
  obtain ⟨-, -, -, -, hrest⟩ := account_agrees h hp
  have hawaited : 0 < p.counters.live + p.inFlight := by
    unfold SessionCounters.live
    omega
  refine ⟨hawaited, fun hatRest => ?_, fun shard how rest now hnotices => ?_⟩
  · have hdrained := hrest.mpr hatRest
    simp only [PhaseRun.isDrained, Bool.and_eq_true, beq_iff_eq] at hdrained
    omega
  · have hroom : 0 < p.shareOf shard := hreserved shard (load_of_ended hnotices)
    obtain ⟨throttled, hreplaced⟩ := PhaseRun.replace_of_owing
      (p := { p with counters := p.counters.consume how.event }) howing
      (by simpa only [PhaseRun.iterationsLeft, (p.counters.consume_ended how).1] using hleft) hroom
    have hstarts : (p.onEnded shard how now).2 = [(shard, 1)] := by
      simp only [PhaseRun.onEnded, hrunning, if_true] at hreplaced ⊢
      rw [hreplaced]
    simp only [Controller.onNotice, hp, hstarts]
    rfl

def crampedPhase : Phase :=
  { Phase.simple "cramped"
      ⟨[⟨"s", [.delay 5]⟩], [0], [], [], 1, (∅ : OrderedMap Nat Nat).insert 0 2⟩ (.always 3) with
    duration := 100
    maxSessions := some 2 }

def crampedStart : Controller where
  settings := .default 2
  name := "cramped"
  phases := [.new crampedPhase 2]
  startedAt := none
  fault := none

def crampedMoves : List Move :=
  [.command 0 0, .command 1 0, .start 0 0, .command 0 0, .command 1 0, .notice 0, .notice 0,
    .timers 0 5]

def crampedFleet : Fleet := (new crampedStart (.empty .default)).go crampedMoves

lemma crampedFleet_reachable : Reachable crampedFleet := by
  have hnew : Controller.new (.default 2) ⟨"cramped", [crampedPhase]⟩ (fun _ => true) =
      .ok crampedStart := rfl
  exact (Reachable.new hnew (.empty .default)).go crampedMoves

theorem crampedFleet_neverStalls : ∃ p, Reachable crampedFleet ∧
    crampedFleet.controller.phases[0]? = some p ∧ (∀ share ∈ p.shares, share < 2 ^ 32) ∧
    p.status = .running ∧ p.IsOwing ∧ crampedFleet.NeverStalls 0 p ∧
    p.counters = ⟨2, 1, 0, 0, 0⟩ ∧ p.inFlight = 0 ∧
    crampedFleet.notices = [.ended 0 0 .completed] := by
  have hphase : crampedFleet.controller.phases[0]?.map (fun p => (p.phase.strategy.restarts,
      p.shares, p.status, p.counters, p.inFlight)) =
      some (true, [1, 1], .running, ⟨2, 1, 0, 0, 0⟩, 0) := by decide +kernel
  obtain ⟨p, hp, heq⟩ := Option.map_eq_some_iff.mp hphase
  simp only [Prod.mk.injEq] at heq
  obtain ⟨hrestarts, hshares, hstatus, hcounters, hflight⟩ := heq
  have hsmall : ∀ share ∈ p.shares, share < 2 ^ 32 := by
    rw [hshares]
    decide
  have howing : p.IsOwing := .inl hrestarts
  exact ⟨p, crampedFleet_reachable, hp, hsmall, hstatus, howing,
    crampedFleet_reachable.neverStalls hp hsmall hstatus howing, hcounters, hflight,
    by decide +kernel⟩

end Fleet

end LoadEngine
