import LoadEngine.Proofs.ConcurrencyCeiling
import LoadEngine.Proofs.PhaseLoads

/-! Phases that keep to their own sessions. When a phase has room for all its users, its first
starts fit on the shards that they are dealt to, and every later one takes the place of a session
that ended on the same shard; so no start is ever blocked, and where sessions are always started
again there are at any time as many as there are users. -/

namespace LoadEngine

lemma dealtTo_append (shard : Nat) (a b : Starts) :
    dealtTo shard (a ++ b) = dealtTo shard a + dealtTo shard b := by
  simp [dealtTo]

lemma share_mono {n m : Nat} (h : n ≤ m) (parts i : Nat) : share n parts i ≤ share m parts i := by
  have hquot : n / parts ≤ m / parts := Nat.div_le_div_right h
  have hn := Nat.div_add_mod n parts
  have hm := Nat.div_add_mod m parts
  unfold share
  rcases Nat.lt_or_eq_of_le hquot with hlt | heq
  · split_ifs <;> omega
  · rw [heq] at hn ⊢
    split_ifs <;> omega

lemma share_le_share {count capacity shards i : Nat} (hcount : count ≤ capacity)
    (hi : i < min capacity shards) :
    share count (min capacity shards) i ≤ share capacity shards i := by
  rcases Nat.le_total shards capacity with h | h
  · rw [Nat.min_eq_right h]
    exact share_mono hcount shards i
  · rw [Nat.min_eq_left h] at hi ⊢
    have hone : share count capacity i ≤ 1 := by
      have htop := share_mono hcount capacity i
      have hself : share capacity capacity i = 1 := by
        rw [share, Nat.div_self (Nat.zero_lt_of_lt hi), Nat.mod_self]
        rfl
      rwa [hself] at htop
    exact hone.trans ((share_pos_iff (hi.trans_le h)).mpr hi)

lemma dealtTo_filterMap (g : Nat → Nat) (n i : Nat) :
    dealtTo i ((List.range n).filterMap fun k => if 0 < g k then some (k, g k) else none) =
      if i < n then g i else 0 := by
  induction n with
  | zero => rfl
  | succ n ih =>
    have hlast : dealtTo i ([n].filterMap fun k => if 0 < g k then some (k, g k) else none) =
        if n = i then g i else 0 := by
      by_cases hg : 0 < g n
      · simp only [List.filterMap_cons, List.filterMap_nil, if_pos hg, dealtTo_cons]
        split
        · rename_i hi
          exact hi ▸ rfl
        · rfl
      · simp only [List.filterMap_cons, List.filterMap_nil, if_neg hg]
        split
        · rename_i hi
          exact (Nat.eq_zero_of_not_pos (hi ▸ hg)).symm
        · rfl
    rw [List.range_succ, List.filterMap_append, dealtTo_append, ih, hlast]
    split_ifs <;> omega

lemma dealtTo_dealOut (n count i : Nat) :
    dealtTo i (dealOut (List.range n) 0 count) = if i < n then share count n i else 0 := by
  rw [dealOut_eq, List.length_range, ← dealtTo_filterMap]
  refine congrArg (dealtTo i) (List.filterMap_congr fun k hk => ?_)
  have hlt := List.mem_range.mp hk
  rw [Nat.zero_add, Nat.mod_eq_of_lt hlt]
  simp [hlt]

namespace Strategy

/-- The sessions of a strategy that starts them at once, and each again at most when it ended. -/
def users? : Strategy → Option Nat
  | atOnce users | always users => some users
  | sequential _ => some 1
  | _ => none

lemma users?_eq_some {strategy : Strategy} {users : Nat} (h : strategy.users? = some users) :
    strategy.rates = none ∧ strategy.catchUp = false := by
  cases strategy with
  | atOnce | always | sequential => exact ⟨rfl, rfl⟩
  | constantRate | rampRate | noop => cases h

end Strategy

namespace PhaseRun

variable {p p' : PhaseRun} {index users : Nat} {heard : Option Notice} {starts : Starts}

lemma issue_fits (hshares : p.shares = splitCapacity p.phase.sessionCapacity p.shares.length)
    (hcursor : p.cursor = 0) (husers : users ≤ p.phase.sessionCapacity) (i : Nat) :
    dealtTo i (p.issue users).2 ≤ p.shareOf i := by
  simp only [issue]
  split
  · exact Nat.zero_le _
  · have htakers := takers_of_split hshares
    rw [hcursor, Nat.zero_mod, htakers, dealtTo_dealOut]
    split
    · rename_i hi
      have hshare : p.shareOf i = share p.phase.sessionCapacity p.shares.length i := by
        rw [shareOf, hshares]
        simp [splitCapacity, hi.trans_le (Nat.min_le_right _ _)]
      rw [hshare]
      exact share_le_share ((p.grant_le_count users).trans husers) hi
    · exact Nat.zero_le _

lemma issueOn_one (p : PhaseRun) (shard : Nat) :
    (p.issueOn shard 1).2 = [] ∨ (p.issueOn shard 1).2 = [(shard, 1)] := by
  simp only [issueOn]
  split
  · exact .inl rfl
  · rename_i h
    have hle := p.grant_le_count 1
    have hone : p.grant 1 = 1 := by
      have hne := (not_or.mp h).1
      omega
    rw [hone]
    exact .inr rfl

lemma onEnded_starts (p : PhaseRun) (shard : Nat) (how : SessionEnd) (now : Nanos) :
    (p.onEnded shard how now).2 = [] ∨ (p.onEnded shard how now).2 = [(shard, 1)] := by
  unfold onEnded
  simp only
  split
  · unfold replace
    split
    · exact issueOn_one _ shard
    · exact issueOn_one _ shard
    · split
      · exact issueOn_one _ shard
      · exact .inl rfl
  · exact .inl rfl

lemma initialStarts_eq (h : p.phase.strategy.users? = some users) : p.initialStarts = users := by
  unfold initialStarts
  cases hs : p.phase.strategy with
  | atOnce | always | sequential =>
    rw [hs] at h
    exact Option.some.inj h
  | constantRate | rampRate | noop =>
    rw [hs] at h
    cases h

lemma tick_of_users (h : p.phase.strategy.users? = some users) (now : Nanos) :
    p.tick now = (p, []) ∨ p.status = .running ∧ p.tick now = (p.finishIfDone now, []) := by
  have hnone : p.phase.arrivals = none := by
    rw [Phase.arrivals, (Strategy.users?_eq_some h).1]
    rfl
  by_cases hp : p.status = .running
  · exact .inr ⟨hp, by simp only [tick, hp, if_true, hnone]⟩
  · exact .inl (by simp only [tick, if_neg hp])

lemma Goes.throttled (h : p.Goes index heard starts p')
    (husers : p.phase.strategy.users? = some users) (hnone : p.throttled = 0) :
    p'.throttled = 0 := by
  obtain ⟨-, hcatchUp⟩ := Strategy.users?_eq_some husers
  cases h with
  | completes => exact hnone
  | acts h =>
    cases h with
    | rests => exact hnone
    | starts h =>
      obtain ⟨-, rfl, -⟩ := start_eq_ok h
      obtain ⟨n, m, hi⟩ := issue_eq { p with startedAt := some _, status := .running }
        p.initialStarts
      rw [finishIfDone_throttled, hi]
      exact hnone
    | ticks now =>
      rcases tick_of_users husers now with ht | ⟨-, ht⟩ <;> rw [ht]
      · exact hnone
      · rw [finishIfDone_throttled]
        exact hnone
    | finishes h =>
      obtain rfl | ⟨-, rfl⟩ := finish_eq_ok h
      · exact hnone
      · exact hnone
    | closes now =>
      obtain ⟨endedAt, status, he⟩ := p.beginTermination_eq now
      rw [he]
      exact hnone
    | hears shard started blocked =>
      simp only [onStarted, hcatchUp]
      exact hnone
    | replaces shard how now =>
      unfold onEnded
      simp only
      split
      · rw [finishIfDone_throttled]
        unfold replace
        simp only
        split
        · obtain ⟨n, hn⟩ := issueOn_eq { p with counters := p.counters.consume how.event } shard 1
          rw [hn]
          exact hnone
        · obtain ⟨n, hn⟩ := issueOn_eq { p with counters := p.counters.consume how.event } shard 1
          rw [hn]
          exact hnone
        · rw [if_neg (by simp [hnone])]
          exact hnone
      · exact hnone

end PhaseRun

namespace Fleet

variable {f f' : Fleet} {m : Move} {outputs : List Output} {index shard users : Nat}
  {p p' : PhaseRun}

lemma Reachable.shares_eq (h : Reachable f) (hp : f.controller.phases[index]? = some p) :
    p.shares = splitCapacity p.phase.sessionCapacity p.shares.length ∧
      p.shares.length = f.nodes.length ∧ 0 < f.nodes.length := by
  obtain ⟨log, hlog, -⟩ := h.chronicle index
  have hlogged := hlog.logged hp
  have hlength : p.shares.length = f.nodes.length := by
    rw [hlogged.split, splitCapacity, List.length_map, List.length_range]
  rw [hlength]
  exact ⟨hlogged.split, rfl, hlogged.shards⟩

structure Fits (f : Fleet) (index : Nat) (p : PhaseRun) : Prop where
  throttled : p.throttled = 0
  loads : ∀ i, f.load index i ≤ p.shareOf i

lemma Reachable.goes_fits (h : Reachable f) (hp : f.controller.phases[index]? = some p)
    (hfits : ∀ i, f.load index i ≤ p.shareOf i) (husers : p.phase.strategy.users? = some users)
    (hfit : users ≤ p.phase.sessionCapacity) {heard : Option Notice} {starts : Starts}
    (hgoes : p.Goes index heard starts p') (i : Nat) :
    f.load index i + dealtTo i starts ≤ p.shareOf i + endedOn index i heard.toList := by
  have hbefore := (hfits i).trans (Nat.le_add_right _ (endedOn index i heard.toList))
  cases hgoes with
  | completes => exact hbefore
  | acts hacts =>
    cases hacts with
    | rests | finishes | closes | hears => exact hbefore
    | ticks now =>
      rcases PhaseRun.tick_of_users husers now with ht | ⟨-, ht⟩ <;> rw [ht]
      · exact hbefore
      · exact hbefore
    | @starts now _ _ hs =>
      obtain ⟨hstatus, -, rfl⟩ := PhaseRun.start_eq_ok hs
      have hfresh := h.fresh hp hstatus
      obtain ⟨hsplit, -, -⟩ := h.shares_eq hp
      rw [(h.sane.silent hp hfresh).1 i, Nat.zero_add, PhaseRun.initialStarts_eq husers]
      exact PhaseRun.issue_fits (p := { p with startedAt := some now, status := .running })
        hsplit hfresh.cursor hfit i
    | replaces shard how now =>
      rcases p.onEnded_starts shard how now with hs | hs <;> rw [hs]
      · exact hbefore
      · by_cases hi : shard = i
        · subst hi
          rw [dealtTo_cons, if_pos rfl, Option.toList_some, endedOn_ended]
          exact Nat.add_le_add_right (hfits shard) 1
        · rw [dealtTo_cons, if_neg hi]
          exact hbefore

theorem Reachable.fits (h : Reachable f) (hp : f.controller.phases[index]? = some p)
    (husers : p.phase.strategy.users? = some users) (hfit : users ≤ p.phase.sessionCapacity) :
    f.Fits index p := by
  induction h generalizing p with
  | @new settings benchmark known c h template =>
    change c.phases[index]? = some p at hp
    have hsilent := (Sane.new h template).silent hp
    rw [(Controller.new_ok h).1, List.getElem?_map] at hp
    obtain ⟨phase, -, rfl⟩ := Option.map_eq_some_iff.mp hp
    refine ⟨rfl, fun i => ?_⟩
    rw [(hsilent ⟨rfl, rfl, rfl, rfl⟩).1 i]
    exact Nat.zero_le _
  | move h hm hout ih =>
    obtain ⟨q, hq, hturns⟩ := h.turns h.placed hm hout hp
    cases hturns with
    | serves hsame _ _ _ _ _ hload =>
      subst hsame
      obtain ⟨hthrottled, hloads⟩ := ih hq husers hfit
      exact ⟨hthrottled, fun i => (hload i).trans (hloads i)⟩
    | goes hgoes _ _ _ hload =>
      obtain ⟨hphase, hshares⟩ := hgoes.kept
      rw [hphase] at husers hfit
      obtain ⟨hthrottled, hloads⟩ := ih hq husers hfit
      refine ⟨hgoes.throttled husers hthrottled, fun i => ?_⟩
      have hshare : p.shareOf i = q.shareOf i := by rw [PhaseRun.shareOf, hshares]; rfl
      have hload := hload i
      have hsent := h.goes_fits hq hloads husers hfit hgoes i
      omega

lemma Reachable.finds (h : Reachable f) (hp : f.controller.phases[index]? = some p)
    (hfits : f.Fits index p) (hshares : ∀ share ∈ p.shares, share < 2 ^ 32) {now : Nanos}
    {deed : Deed} {node node' : Node} (hnode : f.nodes[shard]? = some node)
    (ha : node.Acted now deed node' outputs) :
    (∀ a ∈ node.shard.looks now index deed, a.there < p.shareOf shard ∧ a.blocked = false) ∧
      blockedIn index (noticesOf (node.shard.perform now deed).2) = 0 := by
  obtain ⟨log, hlog, -⟩ := h.chronicle index
  have hreckons := ((hlog.logged hp).roomed shard node hnode).acted ha
  have hload := hfits.loads shard
  simp only [load, hnode, Option.elim_some] at hload
  have hfree : ∀ a ∈ node.shard.looks now index deed,
      a.there < p.shareOf shard ∧ a.blocked = false := by
    intro a hlook
    have hfew := hreckons.few a hlook
    have hfull := (hreckons.full a hlook).2
    rw [PhaseRun.numbered_shareOf hshares] at hfull
    have hthere : a.there < p.shareOf shard := by omega
    exact ⟨hthere, Bool.eq_false_iff.mpr fun hblocked => hthere.ne (hfull.mp hblocked)⟩
  refine ⟨hfree, ?_⟩
  rw [hreckons.blocked]
  refine List.countP_eq_zero.mpr fun a hlook => ?_
  rw [(hfree a hlook).2]
  exact Bool.false_ne_true

theorem Reachable.unblocked (h : Reachable f) (hp : f.controller.phases[index]? = some p)
    (husers : p.phase.strategy.users? = some users) (hfit : users ≤ p.phase.sessionCapacity)
    (hshares : ∀ share ∈ p.shares, share < 2 ^ 32) :
    p.counters.blocked + blockedIn index f.notices = 0 := by
  -- A start is blocked on a node only, and there every look has found a slot.
  induction h generalizing p with
  | @new settings benchmark known c h template =>
    change c.phases[index]? = some p at hp
    rw [(Controller.new_ok h).1, List.getElem?_map] at hp
    obtain ⟨phase, -, rfl⟩ := Option.map_eq_some_iff.mp hp
    rfl
  | @move f f' m outputs h hm hout ih =>
    obtain ⟨q, hq, hturns⟩ := h.turns h.placed hm hout hp
    cases hturns with
    | serves hsame hnode ha hnotices =>
      subst hsame
      have hbefore := ih hq husers hfit hshares
      have htold := (h.finds hq (h.fits hq husers hfit) hshares hnode ha).2
      rw [hnotices, blockedIn_append]
      omega
    | @goes heard rest starts hgoes hnotices hrest =>
      obtain ⟨hphase, hkept⟩ := hgoes.kept
      rw [hphase] at husers hfit
      rw [hkept] at hshares
      have hbefore := ih hq husers hfit hshares
      rw [hnotices, blockedIn_append] at hbefore
      rw [hrest]
      cases hgoes with
      | completes =>
        change q.counters.blocked + _ = 0
        omega
      | acts hacts =>
        have hblocked := blocked_of_acts hacts
        omega

end Fleet

namespace PhaseRun

variable {p p' : PhaseRun} {index users : Nat} {heard : Option Notice} {starts : Starts}

def IsPeopled (p : PhaseRun) (users : Nat) : Prop :=
  p.status = .running → p.counters.started + p.inFlight = p.counters.ended + users

lemma grant_of_uncapped (h : p.phase.iterationCap = none) (count : Nat) :
    p.grant count = count := by
  simp only [grant, iterationsLeft, h, Option.map_none]

lemma IsFresh.peoples {now : Nanos} (hfresh : p.IsFresh) (hs : p.start now = .ok (p', starts))
    (hstrategy : p.phase.strategy = .always users) (hcap : p.phase.iterationCap = none)
    (htakers : p.takers ≠ []) : p'.IsPeopled users := by
  intro hrunning
  obtain ⟨-, rfl, -⟩ := start_eq_ok hs
  rw [(finishIfDone_running hrunning).1]
  have hinitial : p.initialStarts = users := by simp only [initialStarts, hstrategy]
  have hgrant := grant_of_uncapped (p := { p with startedAt := some now, status := .running })
    hcap users
  rw [hinitial]
  have hcounters := (issue_asks { p with startedAt := some now, status := .running } users).counters
  have hflight : (issue { p with startedAt := some now, status := .running } users).1.inFlight =
      users := by
    simp only [issue, hgrant]
    split
    · rename_i hnone
      rcases hnone with hzero | hnil
      · rw [hzero]
        exact hfresh.inFlight
      · exact absurd hnil htakers
    · change p.inFlight + users = users
      rw [hfresh.inFlight, Nat.zero_add]
  rw [hcounters, hflight]
  simp only [hfresh.counters, SessionCounters.zero, SessionCounters.ended]

lemma IsPeopled.replaces (h : p.IsPeopled users) {shard : Nat} (how : SessionEnd) (now : Nanos)
    (hstrategy : p.phase.strategy = .always users) (hcap : p.phase.iterationCap = none)
    (hroom : 0 < p.shareOf shard) : (p.onEnded shard how now).1.IsPeopled users := by
  intro hrunning
  unfold onEnded at hrunning ⊢
  simp only at hrunning ⊢
  split at hrunning
  · rename_i hstatus
    simp only at hrunning
    rw [if_pos hstatus]
    simp only
    rw [(finishIfDone_running hrunning).1]
    have hleft : iterationsLeft { p with counters := p.counters.consume how.event } ≠ some 0 := by
      simp only [iterationsLeft, hcap, Option.map_none]
      exact (Option.some_ne_none 0).symm
    have hreplaced : replace { p with counters := p.counters.consume how.event } shard =
        ({ p with counters := p.counters.consume how.event, inFlight := p.inFlight + 1 },
          [(shard, 1)]) := by
      simp only [replace, hstrategy]
      exact issueOn_of_left hleft hroom
    rw [hreplaced]
    have hbefore := h hstatus
    have hended := p.counters.consume_ended how
    simp only [hended]
    omega
  · rename_i hstatus
    exact absurd hrunning hstatus

end PhaseRun

namespace Fleet

variable {f f' : Fleet} {m : Move} {outputs : List Output} {index shard users : Nat}
  {p p' : PhaseRun}

lemma Reachable.takers_ne_nil (h : Reachable f) (hp : f.controller.phases[index]? = some p)
    (hcapacity : 0 < p.phase.sessionCapacity) : p.takers ≠ [] := by
  obtain ⟨hshares, hlength, hnodes⟩ := h.shares_eq hp
  rw [PhaseRun.takers_of_split hshares, hlength]
  refine List.ne_nil_of_length_pos ?_
  rw [List.length_range]
  exact lt_min hcapacity hnodes

lemma Reachable.goes_peopled (h : Reachable f) (hp : f.controller.phases[index]? = some p)
    (hpeopled : p.IsPeopled users) (hstrategy : p.phase.strategy = .always users)
    (hcap : p.phase.iterationCap = none) (hfit : users ≤ p.phase.sessionCapacity)
    (hshares : ∀ share ∈ p.shares, share < 2 ^ 32) {heard : Option Notice} {rest : List Notice}
    {starts : Starts} (hgoes : p.Goes index heard starts p')
    (hnotices : f.notices = heard.toList ++ rest) : p'.IsPeopled users := by
  have husers : p.phase.strategy.users? = some users := by rw [hstrategy]; rfl
  cases hgoes with
  | completes => exact nofun
  | acts hacts =>
    cases hacts with
    | rests => exact hpeopled
    | starts hs =>
      have hpos := (Phase.initial_pos (h.accepted hp)).1 users hstrategy
      have hfresh := h.fresh hp (PhaseRun.start_eq_ok hs).1
      exact hfresh.peoples hs hstrategy hcap (h.takers_ne_nil hp (hpos.trans_le hfit))
    | ticks now =>
      intro hrunning
      rcases PhaseRun.tick_of_users husers now with ht | ⟨hstatus, ht⟩ <;> rw [ht] at hrunning ⊢
      · exact hpeopled hrunning
      · rw [(PhaseRun.finishIfDone_running hrunning).1]
        exact hpeopled hstatus
    | finishes h =>
      obtain rfl | ⟨-, rfl⟩ := PhaseRun.finish_eq_ok h
      · exact hpeopled
      · exact nofun
    | closes now => exact fun hrunning => absurd hrunning (p.beginTermination_not_running now)
    | hears shard started blocked =>
      intro hrunning
      have hsum := hpeopled hrunning
      have hanswered := (h.answered hp hnotices).1
      have hnone : blocked = 0 := by
        have hblocked := h.unblocked hp husers hfit hshares
        have hone : blockedIn index [.started index shard started blocked] = blocked := by
          simp [blockedIn, Notice.blockedIn]
        rw [hnotices, Option.toList_some, blockedIn_append, hone] at hblocked
        omega
      change p.counters.started + started + (p.inFlight - (started + blocked)) =
        p.counters.ended + users
      omega
    | replaces shard how now =>
      have hload := (h.fits hp husers hfit).loads shard
      exact hpeopled.replaces how now hstrategy hcap ((load_of_ended hnotices).trans_le hload)

theorem Reachable.peopled (h : Reachable f) (hp : f.controller.phases[index]? = some p)
    (hstrategy : p.phase.strategy = .always users) (hcap : p.phase.iterationCap = none)
    (hfit : users ≤ p.phase.sessionCapacity) (hshares : ∀ share ∈ p.shares, share < 2 ^ 32) :
    p.IsPeopled users := by
  induction h generalizing p with
  | @new settings benchmark known c h template =>
    change c.phases[index]? = some p at hp
    rw [(Controller.new_ok h).1, List.getElem?_map] at hp
    obtain ⟨phase, -, rfl⟩ := Option.map_eq_some_iff.mp hp
    exact nofun
  | move h hm hout ih =>
    obtain ⟨q, hq, hturns⟩ := h.turns h.placed hm hout hp
    cases hturns with
    | serves hsame =>
      subst hsame
      exact ih hq hstrategy hcap hfit hshares
    | goes hgoes hnotices =>
      obtain ⟨hphase, hkept⟩ := hgoes.kept
      rw [hphase] at hstrategy hcap hfit
      rw [hkept] at hshares
      exact h.goes_peopled hq (ih hq hstrategy hcap hfit hshares) hstrategy hcap hfit hshares
        hgoes hnotices

/-- No start of a phase is blocked, and its sessions are as many as its users. -/
structure NeverBlocks (f : Fleet) (index : Nat) (p : PhaseRun) : Prop where
  /-- All starts that a node was sent have room there, beside the sessions that are live. -/
  room : ∀ (i : Nat) (node : Node), f.nodes[i]? = some node →
    startsIn index node.commands + node.shard.alive index ≤ p.shareOf i
  /-- Whichever move comes next, a node that looks for a slot finds one. -/
  free : ∀ (m : Move) (f' : Fleet) (outputs : List Output), f.move m = some (f', outputs) →
    ∀ x ∈ f.moments index (f.deed? m), ∀ i a, x.look = some (i, a) →
      a.there < p.shareOf i ∧ a.blocked = false
  /-- Nothing else is told, or was counted. -/
  counted : blockedIn index f.notices = 0 ∧ p.counters.blocked = 0
  /-- Sessions that are always started again are as many as there are users. -/
  population : ∀ users, p.phase.strategy = .always users → p.phase.maxIterations = none →
    p.status = .running → p.counters.ended ≤ p.counters.started ∧
      p.counters.started - p.counters.ended + p.inFlight = users

theorem Reachable.neverBlocks (h : Reachable f) (hp : f.controller.phases[index]? = some p)
    (husers : p.phase.strategy.users? = some users) (hfit : users ≤ p.phase.sessionCapacity)
    (hshares : ∀ share ∈ p.shares, share < 2 ^ 32) : f.NeverBlocks index p := by
  have hfits := h.fits hp husers hfit
  have hcounted := h.unblocked hp husers hfit hshares
  refine ⟨fun i node hnode => ?_, ?_, by omega, ?_⟩
  · have hload := hfits.loads i
    simp only [load, hnode, Option.elim_some] at hload
    omega
  · intro m f' outputs hm
    have hpasses := move_passes hm
    generalize f.deed? m = deed at hpasses
    cases hpasses with
    | governs | asks | concludes | delivers => exact List.forall_mem_nil _
    | @serves shard now deed node node' outputs hnode hacts =>
      rw [← List.append_nil outputs] at hacts
      have hacted := hacts.fallen
      obtain ⟨hfree, -⟩ := h.finds hp hfits hshares hnode hacted
      simp only [moments, hnode]
      intro x hx i a hlook
      obtain ⟨b, hb, rfl⟩ := List.mem_map.mp hx
      cases hlook
      exact hfree a hb
  · intro n hstrategy hiterations hrunning
    have hsame : users = n := by
      rw [hstrategy] at husers
      exact (Option.some.inj husers).symm
    subst hsame
    have hcap : p.phase.iterationCap = none := by
      simp only [Phase.iterationCap, hstrategy, hiterations, Strategy.iterations?]
    have hpeopled := h.peopled hp hstrategy hcap hfit hshares hrunning
    have hended := (account_agrees h hp).2.1
    exact ⟨hended, by omega⟩

def steadyPhase : Phase :=
  { Phase.simple "steady" ⟨[⟨"s", [.delay 5]⟩], [0], [], [], 1, (∅ : OrderedMap Nat Nat).insert 0 2⟩
      (.always 3) with
    duration := 100 }

def steadyStart : Controller where
  settings := .default 2
  name := "steady"
  phases := [.new steadyPhase 2]
  startedAt := none
  fault := none

def steadyMoves : List Move :=
  [.command 0 0, .command 1 0, .start 0 0, .command 0 0, .command 1 0, .notice 0, .timers 0 5,
    .notice 5, .notice 5]

def steadyFleet : Fleet := (new steadyStart (.empty .default)).go steadyMoves

lemma steadyFleet_reachable : Reachable steadyFleet := by
  have hnew : Controller.new (.default 2) ⟨"steady", [steadyPhase]⟩ (fun _ => true) =
      .ok steadyStart := rfl
  exact (Reachable.new hnew (.empty .default)).go steadyMoves

theorem steadyFleet_neverBlocks : ∃ p, Reachable steadyFleet ∧
    steadyFleet.controller.phases[0]? = some p ∧ p.phase.strategy.users? = some 3 ∧
    3 ≤ p.phase.sessionCapacity ∧ (∀ share ∈ p.shares, share < 2 ^ 32) ∧
    steadyFleet.NeverBlocks 0 p ∧ p.status = .running ∧ p.counters = ⟨3, 0, 1, 0, 0⟩ ∧
    p.inFlight = 1 := by
  have hphase : steadyFleet.controller.phases[0]?.map (fun p => (p.phase.strategy.users?,
      p.phase.sessionCapacity, p.shares, p.status, p.counters, p.inFlight)) =
      some (some 3, 3, [2, 1], .running, ⟨3, 0, 1, 0, 0⟩, 1) := by decide +kernel
  obtain ⟨p, hp, heq⟩ := Option.map_eq_some_iff.mp hphase
  simp only [Prod.mk.injEq] at heq
  obtain ⟨husers, hcapacity, hshares, hstatus, hcounters, hflight⟩ := heq
  have hsmall : ∀ share ∈ p.shares, share < 2 ^ 32 := by
    rw [hshares]
    decide
  have hfit : 3 ≤ p.phase.sessionCapacity := hcapacity.ge
  exact ⟨p, steadyFleet_reachable, hp, husers, hfit, hsmall,
    steadyFleet_reachable.neverBlocks hp husers hfit hsmall, hstatus, hcounters, hflight⟩

end Fleet

end LoadEngine
