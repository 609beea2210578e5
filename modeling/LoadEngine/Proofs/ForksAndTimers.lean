import LoadEngine.Proofs.ShardDeeds
import LoadEngine.Proofs.TurnPasses

/-! No session is left waiting for what cannot come. Its branches know how many of those they forked
have not finished, at every step and between turns; every wait for an operation or for the end of a
delay has one timer, set when it began; and unless there were too few request slots, something is
waited for that is not the end of another branch. -/

namespace LoadEngine

/-- Each branch knows how many of those that it forked have not finished. It waits in a join only
while there are some, and all that it forked before a join that lies behind it have finished. -/
structure Forked (sc : Scenario) (l : List Branch) : Prop where
  children : ∀ (i : Nat) (b : Branch), l[i]? = some b → b.children = unfinished l i
  join : ∀ (i : Nat) (b : Branch), l[i]? = some b → b.wait = .join → 0 < b.children
  joined : ∀ (i : Nat) (b : Branch), l[i]? = some b → Joined sc l i b

def Timer.isFor (timer : Timer) (s : Session) (phase op : Nat) : Bool :=
  timer.tag.phase == phase && timer.tag.slot == s.slot && timer.tag.generation == s.generation &&
    timer.tag.op == op

/-- A wait for an operation has one timer, which is its deadline; and a delay has one, which ends
it. Both are counted from when the wait began. -/
structure Session.Timed (sc : Scenario) (phase : Nat) (timers : List Timer) (since : Nat → Nanos)
    (s : Session) : Prop where
  deadline : ∀ (i : Nat) (b : Branch) (op r : Nat), s.branches[i]? = some b →
    b.wait = .operation op r → ∃ operation,
      sc.step? b.sequence b.step = some (.operation operation) ∧
        (timers.filter fun timer => timer.isFor s phase op) =
          [⟨since op + operation.timeout, s.tag phase i op, .deadline⟩]
  wake : ∀ (i : Nat) (b : Branch) (op : Nat), s.branches[i]? = some b → b.wait = .delay op →
    ∃ duration, sc.step? b.sequence b.step = some (.delay duration) ∧
      (timers.filter fun timer => timer.isFor s phase op) =
        [⟨since op + duration, s.tag phase i op, .wake⟩]

/-- The live sessions of a shard get on. Whatever arises for one of them makes it run from a turn
that can be told, or takes no branch past a step; and while it runs its branches are in order. -/
structure Shard.Lively (s : Shard) (l : Ledger) : Prop where
  forked : ∀ phase lane slot session, s.lanes.get? phase = some lane →
    lane.sessions.item? slot = some session → session.state.isLive = true →
    Forked lane.scenario session.branches
  timed : ∀ phase lane slot session, s.lanes.get? phase = some lane →
    lane.sessions.item? slot = some session → session.state.isLive = true →
    session.Timed lane.scenario phase s.timers.toList (l.since phase slot)
  waits : ∀ phase lane slot session, s.lanes.get? phase = some lane →
    lane.requests.asked < 2 ^ 32 →
    lane.sessions.item? slot = some session → session.state.isLive = true →
    ∃ b ∈ session.branches, (∃ op r, b.wait = .operation op r) ∨ ∃ op, b.wait = .delay op
  steps : ∀ now cause phase slot s₁ lane session, s.Arises now cause phase slot s₁ →
    s₁.lanes.get? phase = some lane → lane.sessions.get? slot = some session →
    Turn.Sets ⟨lane.scenario, phase, now⟩ ⟨session, lane.requests, lane.recorder, []⟩
        (cause.begun? ⟨lane.scenario, phase, now⟩ ⟨session, lane.requests, lane.recorder, []⟩)
        (cause.act ⟨lane.scenario, phase, now⟩ ⟨session, lane.requests, lane.recorder, []⟩) ∧
      ∀ t₁ t₂ : Turn,
        cause.begun? ⟨lane.scenario, phase, now⟩ ⟨session, lane.requests, lane.recorder, []⟩ =
          some t₁ →
        Turn.Passes ⟨lane.scenario, phase, now⟩ t₁.running t₂ →
        Forked lane.scenario t₂.session.branches

lemma Forked.of_tree {sc : Scenario} {reached : Nat → Prop} {l : List Branch}
    (h : Tree sc reached l) : Forked sc l where
  children := h.children
  join i b hb hw := by
    have hwaits := h.waits b (List.mem_of_getElem? hb)
    rw [Branch.Waits, hw] at hwaits
    exact hwaits.2
  joined := h.joined

namespace Session

variable {sc : Scenario} {phase : Nat} {s : Session} {requests : Pool Request}
  {flights : List Flight} {timers own : List Timer} {since : Nat → Nanos}

lemma Booked.one_timer (h : s.Booked sc phase requests flights own since)
    (hown : own = timers.filter fun timer => timer.tag.phase == phase && timer.tag.slot == s.slot)
    {timer : Timer} (htimer : timer ∈ own) (hgeneration : timer.tag.generation = s.generation) :
    (timers.filter fun timer' => timer'.isFor s phase timer.tag.op) = [timer] := by
  have hsplit : (timers.filter fun timer' => timer'.isFor s phase timer.tag.op) =
      own.filter fun timer' => timer'.tag.generation == s.generation &&
        timer'.tag.op == timer.tag.op := by
    rw [hown, List.filter_filter]
    refine List.filter_congr fun timer' _ => ?_
    rw [Timer.isFor, Bool.and_assoc (_ && _), Bool.and_comm]
  rw [hsplit, ← List.filterMap_eq_filter]
  refine filterMap_eq_singleton h.timerOps htimer ?_ ?_
  · simp [Option.guard, hgeneration]
  · intro timer' _ hne
    simp [Option.guard, hne]

lemma Booked.timed (h : s.Booked sc phase requests flights own since)
    (hown : own = timers.filter fun timer => timer.tag.phase == phase && timer.tag.slot == s.slot) :
    s.Timed sc phase timers since where
  deadline i b op r hb hw := by
    have hawait := Turn.awaits_of_request hb hw
    obtain ⟨timer, htimer, halarm⟩ := h.alarms i _ hawait
    cases halarm with
    | @deadline _ _ _ _ operation hs => exact ⟨operation, hs, h.one_timer hown htimer rfl⟩
  wake i b op hb hw := by
    have hawait := Turn.awaits_of_delay hb hw
    obtain ⟨timer, htimer, halarm⟩ := h.alarms i _ hawait
    cases halarm with
    | @wake _ _ _ duration hs => exact ⟨duration, hs, h.one_timer hown htimer rfl⟩

end Session

/-- Wherever a shard can come to, its live sessions get on. -/
theorem Shard.Run.lively {s : Shard} {l : Ledger} (h : s.Run l) : s.Lively l where
  forked phase lane slot session hlane hs _ := by
    obtain ⟨_, _, hbooks⟩ := h.books.lanes phase lane hlane
    exact .of_tree (hbooks.placed slot session hs).sound.tree
  timed phase lane slot session hlane hs _ := by
    obtain ⟨_, _, hbooks⟩ := h.books.lanes phase lane hlane
    obtain ⟨hslot, -, -, hbooked⟩ := hbooks.placed slot session hs
    exact hbooked.timed (by rw [hslot]; rfl)
  waits phase lane slot session hlane hroom hs hlive := by
    obtain ⟨_, _, hbooks⟩ := h.books.lanes phase lane hlane
    have hheld := ((hbooks.live slot session hs).mp hlive).1
    obtain ⟨k, a, hawait⟩ := (h.resting hlane hroom slot session
      (Pool.get?_eq_some.mpr ⟨hheld, hs⟩) (by simp)).waits
    obtain ⟨b, hb, -, -, hw⟩ := Turn.exists_of_awaits hawait
    refine ⟨b, List.mem_of_getElem? hb, ?_⟩
    -- What is waited for has a number, so it is not the end of another branch.
    obtain ⟨op, hop⟩ := Session.exists_number hawait
    rw [← hw] at hop
    cases hwait : b.wait with
    | operation op r => exact .inl ⟨op, r, rfl⟩
    | delay op => exact .inr ⟨op, rfl⟩
    | runnable | join | done =>
      rw [hwait] at hop
      cases hop
  steps now cause phase slot s₁ lane session ha hlane hs := by
    refine ⟨Turn.act_sets _ _ cause, fun t₁ t₂ hbegun hpasses => ?_⟩
    obtain ⟨⟨_, _, hbooks⟩, -⟩ := h.books.arises ha hlane
    rw [if_pos rfl] at hbooks
    obtain ⟨hheld, hitem⟩ := Pool.get?_eq_some.mp hs
    have hplaced := hbooks.placed slot session hitem
    have hcoherent : Turn.Coherent lane.scenario _ _ ⟨session, lane.requests, lane.recorder, []⟩ :=
      ⟨hplaced.sound, hbooks.requests, hplaced.keeps⟩
    have hvacant : cause = .start → session.branches = [] := by
      rintro rfl
      refine hbooks.vacant slot session hitem (Bool.eq_false_iff.mpr fun hlive => ?_)
      exact ((hbooks.live slot session hitem).mp hlive).2 rfl
    have hstart := hcoherent.begun (by exact hbooks.scenario) hvacant hbegun
    exact .of_tree (Turn.Coherent.passes hbooks.scenario hstart hpasses).sound.tree

theorem errandDone_lively : errandDone.1.Run errandBooks ∧ errandDone.1.Lively errandBooks ∧
    ((errandDone.1.lanes.get? 0).bind fun lane => (lane.sessions.item? 0).map fun session =>
      (session.state, session.branches.map fun b => (b.wait, b.children))) =
        some (.suspended, [(.join, 1), (.delay 1, 0)]) :=
  ⟨errandDone_run, Shard.Run.lively errandDone_run, by decide +kernel⟩

/-- Without a request slot for its operation a session is left with nothing to wait for. -/
theorem wide_start_strands : wideDraft.build = .ok wide ∧ Shard.hasRoom 0 wide 4096 = true ∧
    (∃ tags, (wideShard.perform 0 (.command (.start 0 1))).1.Reaches tags) ∧
    ∃ lane session, (wideShard.perform 0 (.command (.start 0 1))).1.lanes.get? 0 = some lane ∧
      lane.sessions.get? 0 = some session ∧ session.state.isLive = true ∧
      ∀ b ∈ session.branches, b.wait = .runnable :=
  ⟨wide_built, by decide +kernel, ⟨_, wideShard_reaches.perform 0 _ trivial⟩, (wideShard_start 0).2⟩

end LoadEngine
